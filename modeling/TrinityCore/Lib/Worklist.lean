import Mathlib

set_option autoImplicit false

/-!
Closure of a finite set under the links of a partial graph, by a worklist that
always takes the least pending node. A node without an entry in the graph is
dropped when it is taken, so dangling links and cycles are both allowed.
-/

namespace Worklist

variable {α : Type} [LinearOrder α]

/-- One edge of the graph: the source has an entry and the entry lists the target. -/
def Edge (links : α → Option (Finset α)) (a b : α) : Prop :=
  ∃ ls, links a = some ls ∧ b ∈ ls

def Reach (links : α → Option (Finset α)) (start : Finset α) (b : α) : Prop :=
  (links b).isSome ∧ ∃ a ∈ start, Relation.ReflTransGen (Edge links) a b

/-- `done` holds the expanded nodes, `todo` the pending ones. The result is `none`
only when the fuel runs out with nodes still pending. -/
def expand (links : α → Option (Finset α)) : Nat → Finset α → Finset α → Option (Finset α)
  | 0, done, todo => if todo.Nonempty then none else some done
  | fuel+1, done, todo =>
      if h : todo.Nonempty then
        let a := todo.min' h
        let rest := todo.erase a
        match links a with
        | none => expand links fuel done rest
        | some ls =>
            expand links fuel (insert a done) (rest ∪ ls.filter (· ∉ insert a done))
      else some done

/-- What a pending set may still cost: one step a pending node and one a link of
every node that has not been expanded. -/
def cost (links : α → Option (Finset α)) (keys done todo : Finset α) : Nat :=
  todo.card + ∑ a ∈ keys \ done, ((links a).getD ∅).card

theorem cost_drop (links : α → Option (Finset α)) (keys done : Finset α) {todo : Finset α}
    (h : todo.Nonempty) :
    cost links keys done (todo.erase (todo.min' h)) < cost links keys done todo := by
  have hc := Finset.card_erase_lt_of_mem (todo.min'_mem h)
  unfold cost; omega

theorem cost_expand {links : α → Option (Finset α)} {keys done todo ls : Finset α} {a : α}
    (ha : a ∈ todo) (hd : a ∉ done) (hk : a ∈ keys) (hl : links a = some ls) :
    cost links keys (insert a done) (todo.erase a ∪ ls.filter (· ∉ insert a done)) <
      cost links keys done todo := by
  have hc := Finset.card_erase_lt_of_mem ha
  have hu := Finset.card_union_le (todo.erase a) (ls.filter (· ∉ insert a done))
  have hf := Finset.card_filter_le ls (· ∉ insert a done)
  have hmem : a ∈ keys \ done := Finset.mem_sdiff.mpr ⟨hk,hd⟩
  have hs : keys \ insert a done = (keys \ done).erase a := by
    ext b; simp only [Finset.mem_sdiff,Finset.mem_insert,Finset.mem_erase]; tauto
  have hsum := Finset.sum_erase_add (keys \ done) (fun b => ((links b).getD ∅).card) hmem
  simp only [hl,Option.getD_some] at hsum
  unfold cost
  rw [hs]
  omega

theorem expand_isSome {links : α → Option (Finset α)} {keys : Finset α}
    (hkeys : ∀ a, (links a).isSome → a ∈ keys) (fuel : Nat) (done todo : Finset α)
    (hdis : Disjoint done todo) (hf : cost links keys done todo ≤ fuel) :
    (expand links fuel done todo).isSome := by
  induction fuel generalizing done todo with
  | zero =>
    have h0 : todo.card = 0 := by unfold cost at hf; omega
    simp [expand,Finset.card_eq_zero.mp h0]
  | succ fuel ih =>
    unfold expand
    split
    · rename_i h
      have hm := todo.min'_mem h
      have hd : todo.min' h ∉ done := fun hx => Finset.disjoint_left.mp hdis hx hm
      cases hl : links (todo.min' h) with
      | none =>
        have hlt := cost_drop links keys done h
        simp only [hl]
        exact ih _ _ (hdis.mono_right (Finset.erase_subset _ _)) (by omega)
      | some ls =>
        have hlt := cost_expand hm hd (hkeys _ (by simp [hl])) hl
        simp only [hl]
        refine ih _ _ ?_ (by omega)
        rw [Finset.disjoint_left]
        intro b hb hb'
        simp only [Finset.mem_union,Finset.mem_erase,Finset.mem_filter] at hb'
        rcases hb' with ⟨hne,hbt⟩ | ⟨-,hn⟩
        · rcases Finset.mem_insert.mp hb with rfl | hbd
          · exact hne rfl
          · exact Finset.disjoint_left.mp hdis hbd hbt
        · exact hn hb
    · simp

theorem expand_add {links : α → Option (Finset α)} {result : Finset α} (fuel more : Nat)
    (done todo : Finset α) (h : expand links fuel done todo = some result) :
    expand links (fuel+more) done todo = some result := by
  induction fuel generalizing done todo with
  | zero =>
    have hn : ¬ todo.Nonempty := fun hn => by simp [expand,hn] at h
    cases more <;> simpa [expand,hn] using h
  | succ fuel ih =>
    rw [Nat.succ_add]
    by_cases hn : todo.Nonempty
    · simp only [expand,hn,dif_pos] at h ⊢
      cases hl : links (todo.min' hn) with
      | none => simp only [hl] at h ⊢; exact ih _ _ h
      | some ls => simp only [hl] at h ⊢; exact ih _ _ h
    · simpa [expand,hn] using h

/-- The loop invariant: every known node is reachable, no start node is forgotten,
and the links of an expanded node are expanded, pending or dangling. -/
structure Inv (links : α → Option (Finset α)) (start done todo : Finset α) : Prop where
  exists_of_done : ∀ a ∈ done, (links a).isSome
  path : ∀ a ∈ done ∪ todo, ∃ c ∈ start, Relation.ReflTransGen (Edge links) c a
  start_known : ∀ a ∈ start, (links a).isSome → a ∈ done ∪ todo
  closed : ∀ a ∈ done, ∀ b, Edge links a b → (links b).isSome → b ∈ done ∪ todo

theorem Inv.init (links : α → Option (Finset α)) (start : Finset α) :
    Inv links start ∅ start where
  exists_of_done := by simp
  path := fun a ha => ⟨a,by simpa using ha,.refl⟩
  start_known := fun a ha _ => by simpa using ha
  closed := by simp

theorem Inv.drop {links : α → Option (Finset α)} {start done todo : Finset α} {a : α}
    (hi : Inv links start done todo) (hl : links a = none) :
    Inv links start done (todo.erase a) := by
  have keep : ∀ b, (links b).isSome → b ∈ done ∪ todo → b ∈ done ∪ todo.erase a := by
    intro b hb hm
    have hne : b ≠ a := by rintro rfl; simp [hl] at hb
    rcases Finset.mem_union.mp hm with h | h
    · exact Finset.mem_union_left _ h
    · exact Finset.mem_union_right _ (Finset.mem_erase.mpr ⟨hne,h⟩)
  refine ⟨hi.exists_of_done,fun b hb => hi.path b ?_,
    fun b hb hs => keep b hs (hi.start_known b hb hs),
    fun b hb c he hs => keep c hs (hi.closed b hb c he hs)⟩
  exact Finset.union_subset_union_right (Finset.erase_subset _ _) hb

theorem Inv.take {links : α → Option (Finset α)} {start done todo ls : Finset α} {a : α}
    (hi : Inv links start done todo) (ha : a ∈ todo) (hl : links a = some ls) :
    Inv links start (insert a done)
      (todo.erase a ∪ ls.filter (· ∉ insert a done)) := by
  have keep : ∀ b, b ∈ done ∪ todo →
      b ∈ insert a done ∪ (todo.erase a ∪ ls.filter (· ∉ insert a done)) := by
    intro b hb
    by_cases h : b = a
    · simp [h]
    · simp only [Finset.mem_union,Finset.mem_insert,Finset.mem_erase] at hb ⊢
      tauto
  refine ⟨?_,?_,fun b hb hs => keep b (hi.start_known b hb hs),?_⟩
  · intro b hb
    rcases Finset.mem_insert.mp hb with rfl | hb
    · simp [hl]
    · exact hi.exists_of_done b hb
  · intro b hb
    simp only [Finset.mem_union,Finset.mem_insert,Finset.mem_erase,Finset.mem_filter] at hb
    rcases hb with (rfl | hb) | ⟨-,hb⟩ | ⟨hb,-⟩
    · exact hi.path b (Finset.mem_union_right _ ha)
    · exact hi.path b (Finset.mem_union_left _ hb)
    · exact hi.path b (Finset.mem_union_right _ hb)
    · obtain ⟨c,hc,hp⟩ := hi.path a (Finset.mem_union_right _ ha)
      exact ⟨c,hc,hp.tail ⟨ls,hl,hb⟩⟩
  · intro b hb c he hs
    rcases Finset.mem_insert.mp hb with rfl | hb
    · obtain ⟨ls',hl',hc⟩ := he
      obtain rfl : ls = ls' := by simpa [hl] using hl'
      by_cases hk : c ∈ insert b done
      · exact Finset.mem_union_left _ hk
      · exact Finset.mem_union_right _ (Finset.mem_union_right _ (Finset.mem_filter.mpr ⟨hc,hk⟩))
    · exact keep c (hi.closed b hb c he hs)

theorem Inv.mem_iff {links : α → Option (Finset α)} {start done : Finset α}
    (hi : Inv links start done ∅) (b : α) : b ∈ done ↔ Reach links start b := by
  constructor
  · intro hb
    exact ⟨hi.exists_of_done b hb,hi.path b (Finset.mem_union_left _ hb)⟩
  · rintro ⟨hs,c,hc,hp⟩
    -- The induction is on the path: all its nodes but the last have an entry.
    induction hp with
    | refl => simpa using hi.start_known c hc hs
    | @tail a b _ he ih =>
      have ha : (links a).isSome := by obtain ⟨ls,hl,-⟩ := he; simp [hl]
      simpa using hi.closed a (ih ha) b he hs

theorem expand_mem {links : α → Option (Finset α)} {start : Finset α} (fuel : Nat)
    (done todo result : Finset α) (hi : Inv links start done todo)
    (h : expand links fuel done todo = some result) (b : α) :
    b ∈ result ↔ Reach links start b := by
  induction fuel generalizing done todo with
  | zero =>
    unfold expand at h
    split at h
    · simp at h
    · rename_i hn
      obtain rfl : done = result := by simpa using h
      rw [Finset.not_nonempty_iff_eq_empty] at hn
      subst hn
      exact hi.mem_iff b
  | succ fuel ih =>
    unfold expand at h
    split at h
    · rename_i hne
      cases hl : links (todo.min' hne) with
      | none =>
        simp only [hl] at h
        exact ih _ _ (hi.drop hl) h
      | some ls =>
        simp only [hl] at h
        exact ih _ _ (hi.take (todo.min'_mem hne) hl) h
    · rename_i hn
      obtain rfl : done = result := by simpa using h
      rw [Finset.not_nonempty_iff_eq_empty] at hn
      subst hn
      exact hi.mem_iff b

end Worklist
