import Mathlib

set_option autoImplicit false

namespace OrderedSet

variable {α : Type} [LinearOrder α]

def elems (s : Finset α) : List α :=
  Quot.liftOn s.val (fun l => l.insertionSort (· ≤ ·)) fun _ _ h =>
    (((List.perm_insertionSort _ _).trans h).trans (List.perm_insertionSort _ _).symm).eq_of_pairwise'
      (List.pairwise_insertionSort _ _) (List.pairwise_insertionSort _ _)

theorem perm_elems (s : Finset α) : (elems s : Multiset α) = s.val := by
  obtain ⟨m,hm⟩ := s
  induction m using Quot.inductionOn with
  | h l => exact Multiset.coe_eq_coe.mpr (List.perm_insertionSort _ l)

theorem nodup_elems (s : Finset α) : (elems s).Nodup := by
  rw [← Multiset.coe_nodup,perm_elems]
  exact s.nodup

theorem pairwise_elems (s : Finset α) : (elems s).Pairwise (· ≤ ·) := by
  obtain ⟨m,hm⟩ := s
  induction m using Quot.inductionOn with
  | h l => exact List.pairwise_insertionSort _ l

@[simp] theorem mem_elems {s : Finset α} {a : α} : a ∈ elems s ↔ a ∈ s := by
  rw [← Multiset.mem_coe,perm_elems,Finset.mem_val]

@[simp] theorem length_elems (s : Finset α) : (elems s).length = s.card := by
  rw [← Multiset.coe_card,perm_elems,Finset.card_val]

end OrderedSet
