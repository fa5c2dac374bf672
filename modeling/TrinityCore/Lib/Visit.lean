import Mathlib

set_option autoImplicit false

namespace Visit

open Relation

variable {α β : Type}

abbrev Entries (α β : Type) := α → List (α ⊕ β)

def Link (entries : Entries α β) (a b : α) : Prop := .inl b ∈ entries a

def Leads (entries : Entries α β) (a : α) (x : β) : Prop :=
  ∃ b, ReflTransGen (Link entries) a b ∧ .inr x ∈ entries b

/-- The nodes that have been gone into, and the leaves that have been found. -/
structure Seen (α β : Type) where
  used : Finset α
  found : Finset β
  deriving DecidableEq

variable [DecidableEq α] [DecidableEq β]

/-- No value stands for running out of depth. -/
def visit (entries : Entries α β) : Nat → α → Seen α β → Option (Seen α β)
  | 0, _, _ => none
  | depth+1, a, s =>
    if a ∈ s.used then some s
    else (entries a).foldlM (fun s entry =>
      match entry with
      | .inl b => visit entries depth b s
      | .inr x => some { s with found := insert x s.found }) { s with used := insert a s.used }

variable {entries : Entries α β} {a b : α} {s s' cur : Seen α β} {listed : List (α ⊕ β)}

/-- What is new after a walk from a node: nodes it leads to, with all that they list. -/
structure Walked (entries : Entries α β) (a : α) (s s' : Seen α β) : Prop where
  used_sub : s.used ⊆ s'.used
  found_sub : s.found ⊆ s'.found
  start : a ∈ s'.used
  path : ∀ b ∈ s'.used, b ∉ s.used → ReflTransGen (Link entries) a b
  leaf : ∀ x ∈ s'.found, x ∉ s.found → Leads entries a x
  links : ∀ b ∈ s'.used, b ∉ s.used → ∀ c, Link entries b c → c ∈ s'.used
  leaves : ∀ b ∈ s'.used, b ∉ s.used → ∀ x, .inr x ∈ entries b → x ∈ s'.found

structure Within (entries : Entries α β) (a : α) (s cur : Seen α β) (listed : List (α ⊕ β)) :
    Prop where
  used_sub : insert a s.used ⊆ cur.used
  found_sub : s.found ⊆ cur.found
  path : ∀ b ∈ cur.used, b ∉ s.used → ReflTransGen (Link entries) a b
  leaf : ∀ x ∈ cur.found, x ∉ s.found → Leads entries a x
  links : ∀ b ∈ cur.used, b ∉ s.used → b ≠ a → ∀ c, Link entries b c → c ∈ cur.used
  leaves : ∀ b ∈ cur.used, b ∉ s.used → b ≠ a → ∀ x, .inr x ∈ entries b → x ∈ cur.found
  listed_links : ∀ c, .inl c ∈ listed → c ∈ cur.used
  listed_leaves : ∀ x, .inr x ∈ listed → x ∈ cur.found

omit [DecidableEq α] [DecidableEq β] in
theorem Walked.refl (ha : a ∈ s.used) : Walked entries a s s :=
  ⟨subset_rfl,subset_rfl,ha,fun _ h hn => absurd h hn,fun _ h hn => absurd h hn,
    fun _ h hn => absurd h hn,fun _ h hn => absurd h hn⟩

omit [DecidableEq β] in
theorem Within.enter : Within entries a s { s with used := insert a s.used } [] := by
  refine ⟨subset_rfl,subset_rfl,?_,fun _ h hn => absurd h hn,?_,?_,fun _ h => absurd h
    List.not_mem_nil,fun _ h => absurd h List.not_mem_nil⟩
  · intro b hb hnew
    rw [(Finset.mem_insert.mp hb).resolve_right hnew]
  · intro b hb hnew hne
    exact absurd ((Finset.mem_insert.mp hb).resolve_right hnew) hne
  · intro b hb hnew hne
    exact absurd ((Finset.mem_insert.mp hb).resolve_right hnew) hne

omit [DecidableEq β] in
theorem Within.leave (h : Within entries a s cur (entries a)) : Walked entries a s cur := by
  refine ⟨(Finset.subset_insert a s.used).trans h.used_sub,h.found_sub,
    h.used_sub (Finset.mem_insert_self a s.used),h.path,h.leaf,?_,?_⟩
  · intro b hb hnew c hc
    by_cases hba : b = a
    · exact h.listed_links c (hba ▸ hc)
    · exact h.links b hb hnew hba c hc
  · intro b hb hnew x hx
    by_cases hba : b = a
    · exact h.listed_leaves x (hba ▸ hx)
    · exact h.leaves b hb hnew hba x hx

theorem Within.leafStep (h : Within entries a s cur listed) {x : β} (hx : .inr x ∈ entries a) :
    Within entries a s { cur with found := insert x cur.found } (listed ++ [.inr x]) := by
  have hsub : cur.found ⊆ insert x cur.found := Finset.subset_insert x cur.found
  refine ⟨h.used_sub,h.found_sub.trans hsub,h.path,?_,h.links,?_,?_,?_⟩
  · intro y hy hnew
    rcases Finset.mem_insert.mp hy with rfl | hy
    · exact ⟨a,.refl,hx⟩
    · exact h.leaf y hy hnew
  · intro b hb hnew hba y hy
    exact hsub (h.leaves b hb hnew hba y hy)
  · intro c hc
    exact h.listed_links c (by simpa using hc)
  · intro y hy
    rcases List.mem_append.mp hy with hy | hy
    · exact hsub (h.listed_leaves y hy)
    · rw [Sum.inr.inj (List.mem_singleton.mp hy)]
      exact Finset.mem_insert_self x cur.found

theorem Within.linkStep (h : Within entries a s cur listed) (hb : Link entries a b)
    (hwalked : Walked entries b cur s') : Within entries a s s' (listed ++ [.inl b]) := by
  have hcases : ∀ c ∈ s'.used, c ∉ s.used → (c ∈ cur.used ∧ c ∉ s.used) ∨ c ∉ cur.used := by
    intro c _ hnew
    by_cases hcur : c ∈ cur.used
    · exact .inl ⟨hcur,hnew⟩
    · exact .inr hcur
  refine ⟨h.used_sub.trans hwalked.used_sub,h.found_sub.trans hwalked.found_sub,?_,?_,?_,?_,?_,?_⟩
  · intro c hc hnew
    rcases hcases c hc hnew with ⟨hcur,hnew⟩ | hcur
    · exact h.path c hcur hnew
    · exact .head hb (hwalked.path c hc hcur)
  · intro x hx hnew
    by_cases hcur : x ∈ cur.found
    · exact h.leaf x hcur hnew
    · obtain ⟨c,hpath,hc⟩ := hwalked.leaf x hx hcur
      exact ⟨c,.head hb hpath,hc⟩
  · intro c hc hnew hca d hd
    rcases hcases c hc hnew with ⟨hcur,hnew⟩ | hcur
    · exact hwalked.used_sub (h.links c hcur hnew hca d hd)
    · exact hwalked.links c hc hcur d hd
  · intro c hc hnew hca x hx
    rcases hcases c hc hnew with ⟨hcur,hnew⟩ | hcur
    · exact hwalked.found_sub (h.leaves c hcur hnew hca x hx)
    · exact hwalked.leaves c hc hcur x hx
  · intro c hc
    rcases List.mem_append.mp hc with hc | hc
    · exact hwalked.used_sub (h.listed_links c hc)
    · rw [Sum.inl.inj (List.mem_singleton.mp hc)]
      exact hwalked.start
  · intro x hx
    exact hwalked.found_sub (h.listed_leaves x (by simpa using hx))

theorem Within.rest {keys : Finset α} {depth : Nat}
    (hvisit : ∀ b s, Link entries a b → (keys \ s.used).card < depth →
      ∃ s', visit entries depth b s = some s' ∧ Walked entries b s s')
    (hdepth : (keys \ insert a s.used).card < depth) {rest : List (α ⊕ β)}
    (hall : listed ++ rest = entries a) (h : Within entries a s cur listed) :
    ∃ s', rest.foldlM (fun s entry =>
        match entry with
        | .inl b => visit entries depth b s
        | .inr x => some { s with found := insert x s.found }) cur = some s' ∧
      Within entries a s s' (entries a) := by
  induction rest generalizing listed cur with
  | nil =>
    rw [List.append_nil] at hall
    exact ⟨cur,rfl,hall ▸ h⟩
  | cons entry rest ih =>
    have hmem : entry ∈ entries a := by
      rw [← hall]
      simp
    have hall' : (listed ++ [entry]) ++ rest = entries a := by
      rw [← hall]
      simp
    rw [List.foldlM_cons]
    cases entry with
    | inl b =>
      have hless := Finset.card_le_card (Finset.sdiff_subset_sdiff (subset_rfl (a := keys)) h.used_sub)
      obtain ⟨s₁,hwalk,hwalked⟩ := hvisit b cur hmem (by omega)
      obtain ⟨s',hrest,hend⟩ := ih hall' (h.linkStep hmem hwalked)
      refine ⟨s',?_,hend⟩
      dsimp only
      rw [hwalk]
      exact hrest
    | inr x => exact ih hall' (h.leafStep hmem)

theorem exists_visit {keys : Finset α} (hkeys : ∀ a b, Link entries a b → b ∈ keys) {depth : Nat}
    (ha : a ∈ keys) (hdepth : (keys \ s.used).card < depth) :
    ∃ s', visit entries depth a s = some s' ∧ Walked entries a s s' := by
  induction depth generalizing a s with
  | zero => omega
  | succ depth ih =>
    unfold visit
    by_cases hused : a ∈ s.used
    · rw [if_pos hused]
      exact ⟨s,rfl,.refl hused⟩
    · rw [if_neg hused]
      have hless : (keys \ insert a s.used).card < (keys \ s.used).card := by
        refine Finset.card_lt_card
          ⟨Finset.sdiff_subset_sdiff subset_rfl (Finset.subset_insert a s.used),fun hsub => ?_⟩
        have hmem := hsub (Finset.mem_sdiff.mpr ⟨ha,hused⟩)
        exact (Finset.mem_sdiff.mp hmem).2 (Finset.mem_insert_self a s.used)
      obtain ⟨s',hfold,hend⟩ := Within.enter.rest (fun b s hlink => ih (hkeys a b hlink))
        (show (keys \ insert a s.used).card < depth by omega) (List.nil_append (entries a))
      exact ⟨s',hfold,hend.leave⟩

omit [DecidableEq α] [DecidableEq β] in
theorem Walked.mem_found_iff (h : Walked entries a ⟨∅,∅⟩ s') (x : β) :
    x ∈ s'.found ↔ Leads entries a x := by
  refine ⟨fun hx => h.leaf x hx (Finset.notMem_empty x),?_⟩
  rintro ⟨b,hpath,hx⟩
  have hb : b ∈ s'.used := by
    clear hx
    induction hpath with
    | refl => exact h.start
    | tail _ hlink ih => exact h.links _ ih (Finset.notMem_empty _) _ hlink
  exact h.leaves b hb (Finset.notMem_empty b) x hx

end Visit
