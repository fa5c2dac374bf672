import Mathlib

set_option autoImplicit false

namespace FirstMatch

variable {α : Type} {p : α → Bool} {l pre post : List α} {a : α}

theorem split (h : l.find? p = some a) :
    ∃ pre post, l = pre ++ a :: post ∧ p a = true ∧ ∀ x ∈ pre, p x = false := by
  obtain ⟨ha,pre,post,hl,hpre⟩ := List.find?_eq_some_iff_append.mp h
  exact ⟨pre,post,hl,ha,fun x hx => by simpa using hpre x hx⟩

theorem modify_findIdx (f : α → α) (hpre : ∀ x ∈ pre, p x = false) (ha : p a = true) :
    (pre ++ a :: post).modify ((pre ++ a :: post).findIdx p) f = pre ++ f a :: post := by
  induction pre with
  | nil => simp [List.findIdx_cons,ha]
  | cons x pre ih =>
    rw [List.forall_mem_cons] at hpre
    rw [List.cons_append,List.findIdx_cons,hpre.1,cond_false,List.modify_succ_cons,ih hpre.2,
      List.cons_append]

theorem eraseP_split (hpre : ∀ x ∈ pre, p x = false) (ha : p a = true) :
    (pre ++ a :: post).eraseP p = pre ++ post := by
  rw [List.eraseP_append_right _ (by simpa using hpre),List.eraseP_cons_of_pos ha]

theorem erase_eq_eraseP [DecidableEq α] (h : l.find? p = some a) : l.erase a = l.eraseP p := by
  obtain ⟨pre,post,rfl,ha,hpre⟩ := split h
  have hnot : a ∉ pre := by
    intro hmem
    rw [hpre a hmem] at ha
    exact absurd ha (by decide)
  rw [eraseP_split hpre ha,List.erase_append_right _ hnot,List.erase_cons_head]

/-- The first answer about a list, in whatever order, is right if and only if each answer is. -/
theorem findSome_perm_iff {f : α → Option Bool} {P : Prop}
    (hnone : (∀ a ∈ l, f a = none) → ¬ P) :
    (∀ l' : List α, l'.Perm l → ((l'.findSome? f).getD false = true ↔ P)) ↔
      ∀ a ∈ l, ∀ b, f a = some b → (b = true ↔ P) := by
  constructor
  · intro h a ha b hb
    obtain ⟨pre,post,rfl⟩ := List.append_of_mem ha
    have hfirst := h (a :: (pre ++ post)) List.perm_middle.symm
    rwa [List.findSome?_cons,hb] at hfirst
  · intro h l' hperm
    cases hfind : l'.findSome? f with
    | none =>
      rw [List.findSome?_eq_none_iff] at hfind
      refine iff_of_false (by simp) (hnone fun a ha => hfind a (hperm.mem_iff.mpr ha))
    | some b =>
      obtain ⟨a,ha,hb⟩ := List.exists_of_findSome?_eq_some hfind
      exact h a (hperm.mem_iff.mp ha) b hb

section EraseEach

variable {κ : Type} [DecidableEq κ] {key : α → κ} {mine : α → Bool} {ps : List α}

/-- For each of some elements the first one with its key goes. -/
def eraseEach (key : α → κ) (ps l : List α) : List α :=
  ps.foldl (fun l p => l.eraseP fun a => key a = key p) l

theorem eraseEach_cons_of_ne (h : ∀ p ∈ ps, key a ≠ key p) :
    eraseEach key ps (a :: l) = a :: eraseEach key ps l := by
  unfold eraseEach
  induction ps generalizing l with
  | nil => rfl
  | cons p ps ih =>
    rw [List.forall_mem_cons] at h
    rw [List.foldl_cons,List.eraseP_cons_of_neg (by simpa using h.1),ih h.2,List.foldl_cons]

theorem countP_eraseEach (ps l : List α) :
    l.countP mine ≤ (eraseEach key ps l).countP mine+ps.length := by
  unfold eraseEach
  induction ps generalizing l with
  | nil => simp
  | cons p ps ih =>
    have hone : l.countP mine ≤ (l.eraseP fun a => key a = key p).countP mine+1 := by
      rcases List.exists_or_eq_self_of_eraseP (fun a => decide (key a = key p)) l with
        hsame | ⟨a,pre,post,-,-,hl,herase⟩
      · rw [hsame]
        exact Nat.le_succ _
      · rw [herase,hl,List.countP_append,List.countP_append,List.countP_cons]
        split_ifs <;> omega
    have hrest := ih (l.eraseP fun a => key a = key p)
    rw [List.foldl_cons,List.length_cons]
    omega

theorem countP_eraseEach_pos {p : α} (hp : p ∈ l.filter mine) (hkey : key a = key p) :
    0 < (eraseEach key (l.filter mine) (a :: l)).countP mine := by
  obtain ⟨p',hfind⟩ := Option.isSome_iff_exists.mp
    (List.find?_isSome.mpr ⟨p,hp,decide_eq_true hkey⟩ :
      ((l.filter mine).find? fun p => decide (key a = key p)).isSome)
  obtain ⟨pre,post,hsplit,hmatch,hpre⟩ := split hfind
  have herased : eraseEach key (l.filter mine) (a :: l) = eraseEach key (pre ++ post) l := by
    have hkept : eraseEach key pre (a :: l) = a :: eraseEach key pre l :=
      eraseEach_cons_of_ne fun x hx => by simpa using hpre x hx
    rw [hsplit]
    unfold eraseEach at hkept ⊢
    rw [List.foldl_append,List.foldl_cons,List.foldl_append,hkept,
      List.eraseP_cons_of_pos (by simpa using hmatch)]
  have hcount : l.countP mine ≤ (eraseEach key (pre ++ post) l).countP mine+(pre ++ post).length :=
    countP_eraseEach (pre ++ post) l
  have hlength := congrArg List.length hsplit
  rw [← List.countP_eq_length_filter,List.length_append,List.length_cons] at hlength
  rw [herased]
  rw [List.length_append] at hcount
  omega

/-- All of mine go, and nothing else, when no other element stands before one of mine with its key. -/
theorem eraseEach_filter_iff : eraseEach key (l.filter mine) l = l.filter (fun a => !mine a) ↔
    l.Pairwise fun b a => mine a = true → key b = key a → mine b = true := by
  induction l with
  | nil => simp [eraseEach]
  | cons a l ih =>
    rw [List.pairwise_cons,← ih]
    cases hmine : mine a with
    | true =>
      rw [List.filter_cons_of_pos hmine,List.filter_cons_of_neg (by simp [hmine])]
      have hfirst : eraseEach key (a :: l.filter mine) (a :: l) = eraseEach key (l.filter mine) l := by
        unfold eraseEach
        rw [List.foldl_cons,List.eraseP_cons_of_pos (by simp)]
      rw [hfirst]
      simp
    | false =>
      rw [List.filter_cons_of_neg (by simp [hmine]),List.filter_cons_of_pos (by simp [hmine])]
      by_cases hother : ∀ p ∈ l.filter mine, key a ≠ key p
      · rw [eraseEach_cons_of_ne hother,List.cons_inj_right]
        have hfirst : ∀ b ∈ l, mine b = true → key a = key b → false = true :=
          fun b hb hb' heq => absurd heq (hother b (List.mem_filter.mpr ⟨hb,hb'⟩))
        exact (and_iff_right hfirst).symm
      · push Not at hother
        obtain ⟨p,hp,hkey⟩ := hother
        refine iff_of_false (fun heq => ?_) fun h => ?_
        · have hpos := countP_eraseEach_pos hp hkey
          rw [heq,List.countP_cons_of_neg (by simp [hmine]),List.countP_filter] at hpos
          simp at hpos
        · obtain ⟨hp,hp'⟩ := List.mem_filter.mp hp
          exact absurd (h.1 p hp hp' hkey) (by decide)

end EraseEach

end FirstMatch
