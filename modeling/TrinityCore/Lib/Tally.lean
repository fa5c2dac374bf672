import Mathlib

set_option autoImplicit false

namespace Tally

variable {α β κ ι : Type} [DecidableEq κ]

def countOf (key : α → κ) (l : List α) (k : κ) : Nat := l.countP fun a => key a = k

/-- A change of the first element that satisfies a predicate. -/
def modifyFirst (p : α → Bool) (f : α → α) : List α → List α
  | [] => []
  | a :: l => if p a then f a :: l else a :: modifyFirst p f l

variable {key : α → κ} {p : α → Bool} {f : α → α} {l : List α} {a : α} {k : κ}

theorem countOf_le_length : countOf key l k ≤ l.length := List.countP_le_length

theorem countOf_cons : countOf key (a :: l) k = countOf key l k+if key a = k then 1 else 0 := by
  simp [countOf,List.countP_cons]

theorem countOf_concat :
    countOf key (l ++ [a]) k = countOf key l k+if key a = k then 1 else 0 := by
  simp [countOf,List.countP_append,List.countP_cons]

theorem countOf_eraseP (key : α → κ) (h : l.find? p = some a) (k : κ) :
    countOf key (l.eraseP p) k+(if key a = k then 1 else 0) = countOf key l k := by
  induction l with
  | nil => simp at h
  | cons b l ih =>
    rw [List.find?_cons] at h
    split at h
    · rename_i hb
      cases h
      rw [List.eraseP_cons_of_pos hb,countOf_cons]
    · rename_i hb
      rw [List.eraseP_cons_of_neg (by simp [hb]),countOf_cons,countOf_cons]
      have := ih h
      omega

theorem countOf_modifyFirst (key : α → κ) (f : α → α) (h : l.find? p = some a) (k : κ) :
    countOf key (modifyFirst p f l) k+(if key a = k then 1 else 0) =
      countOf key l k+if key (f a) = k then 1 else 0 := by
  induction l with
  | nil => simp at h
  | cons b l ih =>
    rw [List.find?_cons] at h
    split at h
    · rename_i hb
      cases h
      simp only [modifyFirst,hb,if_true,countOf_cons]
      omega
    · rename_i hb
      have := ih h
      simp only [modifyFirst,hb,Bool.false_eq_true,if_false,countOf_cons]
      omega

theorem length_modifyFirst : (modifyFirst p f l).length = l.length := by
  induction l with
  | nil => rfl
  | cons b l ih =>
    unfold modifyFirst
    split_ifs
    · rfl
    · simp [ih]

theorem countOf_modifyFirst_of_key (h : ∀ a, key (f a) = key a) :
    countOf key (modifyFirst p f l) k = countOf key l k := by
  induction l with
  | nil => rfl
  | cons b l ih =>
    unfold modifyFirst
    split_ifs
    · simp only [countOf_cons,h]
    · simp only [countOf_cons,ih]

theorem mem_modifyFirst {b : α} (h : b ∈ modifyFirst p f l) : b ∈ l ∨ ∃ a ∈ l, b = f a := by
  induction l with
  | nil => simp [modifyFirst] at h
  | cons c l ih =>
    unfold modifyFirst at h
    split_ifs at h
    · rcases List.mem_cons.mp h with rfl | h
      · exact .inr ⟨c,List.mem_cons_self,rfl⟩
      · exact .inl (List.mem_cons_of_mem _ h)
    · rcases List.mem_cons.mp h with rfl | h
      · exact .inl List.mem_cons_self
      · rcases ih h with h | ⟨a,ha,rfl⟩
        · exact .inl (List.mem_cons_of_mem _ h)
        · exact .inr ⟨a,List.mem_cons_of_mem _ ha,rfl⟩

theorem mem_modifyFirst_of_not (ha : a ∈ l) (h : p a = false) : a ∈ modifyFirst p f l := by
  induction l with
  | nil => simp at ha
  | cons b l ih =>
    unfold modifyFirst
    rcases List.mem_cons.mp ha with rfl | ha
    · simp [h]
    · split_ifs
      · exact List.mem_cons_of_mem _ ha
      · exact List.mem_cons_of_mem _ (ih ha)

theorem mem_modifyFirst_of_find? (h : l.find? p = some a) : f a ∈ modifyFirst p f l := by
  induction l with
  | nil => simp at h
  | cons b l ih =>
    rw [List.find?_cons] at h
    split at h
    · rename_i hb
      cases h
      simp [modifyFirst,hb]
    · rename_i hb
      simp [modifyFirst,hb,ih h]

theorem exists_modifyFirst {P : α → Prop} (ha : a ∈ l) (hstay : P a) (hchange : P (f a)) :
    ∃ b ∈ modifyFirst p f l, P b := by
  induction l with
  | nil => simp at ha
  | cons c l ih =>
    unfold modifyFirst
    rcases List.mem_cons.mp ha with rfl | ha
    · split_ifs
      · exact ⟨f a,List.mem_cons_self,hchange⟩
      · exact ⟨a,List.mem_cons_self,hstay⟩
    · split_ifs
      · exact ⟨a,List.mem_cons_of_mem _ ha,hstay⟩
      · obtain ⟨b,hb,hP⟩ := ih ha
        exact ⟨b,List.mem_cons_of_mem _ hb,hP⟩

/-- Records with different names that each have a counterpart are not more than these. -/
theorem countOf_le {key' : β → κ} {name : β → ι} {name' : α → ι} {l' : List β}
    (hnodup : (l'.map name).Nodup)
    (h : ∀ b ∈ l', ∃ a ∈ l, name' a = name b ∧ key a = key' b) (k : κ) :
    countOf key' l' k ≤ countOf key l k := by
  unfold countOf
  rw [List.countP_eq_length_filter,List.countP_eq_length_filter]
  have hsub : ((l'.filter fun b => key' b = k).map name) ⊆ (l.filter fun a => key a = k).map name' := by
    intro n hn
    obtain ⟨b,hb,rfl⟩ := List.mem_map.mp hn
    obtain ⟨hmem,hk⟩ := List.mem_filter.mp hb
    obtain ⟨a,ha,hname,hkey⟩ := h b hmem
    refine List.mem_map.mpr ⟨a,List.mem_filter.mpr ⟨ha,?_⟩,hname⟩
    simpa [hkey] using hk
  have hle := ((hnodup.sublist (List.filter_sublist.map name)).subperm hsub).length_le
  simpa using hle

theorem countP_exchange {p' : α → Bool} (hnodup : l.Nodup) (ha : a ∈ l)
    (h : ∀ b ∈ l, b ≠ a → p' b = p b) :
    l.countP p'+(if p a then 1 else 0) = l.countP p+if p' a then 1 else 0 := by
  induction l with
  | nil => simp at ha
  | cons b l ih =>
    obtain ⟨hb,hnodup⟩ := List.nodup_cons.mp hnodup
    rw [List.countP_cons,List.countP_cons]
    rcases List.mem_cons.mp ha with rfl | ha
    · have hrest : l.countP p' = l.countP p := by
        apply List.countP_congr
        intro c hc
        rw [h c (List.mem_cons_of_mem _ hc) (fun heq => hb (heq ▸ hc))]
      omega
    · have hhead : p' b = p b := h b List.mem_cons_self (fun heq => hb (heq ▸ ha))
      have htail := ih hnodup ha fun c hc => h c (List.mem_cons_of_mem _ hc)
      rw [hhead]
      omega

theorem countP_eq_sum {keys : List κ} (hkeys : keys.Nodup) (key : α → Option κ)
    (h : ∀ a ∈ l, p a = true → ∃ k, k ∈ keys ∧ key a = some k) :
    l.countP p = (keys.map fun k => l.countP fun a => p a && key a = some k).sum := by
  induction l with
  | nil => simp
  | cons a l ih =>
    have hone : (keys.map fun k => if (p a && key a = some k) = true then 1 else 0).sum =
        if p a then 1 else 0 := by
      by_cases hp : p a = true
      · obtain ⟨k,hk,hkey⟩ := h a List.mem_cons_self hp
        rw [List.sum_map_eq_nsmul_single k]
        · simp [hkeys.count,hk,hp,hkey]
        · intro k' hne _
          simp [hkey,Ne.symm hne]
      · simp [hp]
    have hrest := ih fun b hb => h b (List.mem_cons_of_mem _ hb)
    simp only [List.countP_cons,List.sum_map_add,hone,← hrest]

theorem find?_perm {l' : List α} (h : l.Perm l') (hone : l.countP p ≤ 1) : l.find? p = l'.find? p := by
  have hfilter := h.filter p
  rw [List.countP_eq_length_filter] at hone
  rw [← List.head?_filter,← List.head?_filter]
  rcases hl : l.filter p with _ | ⟨a,_ | ⟨b,as⟩⟩
  · rw [hl] at hfilter
    rw [hfilter.nil_eq]
  · rw [hl] at hfilter
    rw [hfilter.singleton_eq]
  · rw [hl] at hone
    simp at hone

end Tally
