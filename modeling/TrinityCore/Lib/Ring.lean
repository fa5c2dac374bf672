import Mathlib

set_option autoImplicit false

namespace Ring

variable {α : Type} {l l' : List α} {n max : Nat}

theorem rtake_concat (hmax : 0 < max) (l : List α) (x : α) :
    (l ++ [x]).rtake max =
      (if max ≤ (l.rtake max).length then (l.rtake max).tail else l.rtake max) ++ [x] := by
  have hlength : (l ++ [x]).length = l.length+1 := by simp
  simp only [List.rtake,hlength,List.length_drop,List.tail_drop]
  split_ifs with h
  · rw [List.drop_append_of_le_length (by omega)]
    congr 2
    omega
  · rw [List.drop_append_of_le_length (by omega)]
    congr 2
    omega

theorem mod_ne_mod {i j : Nat} (hij : i < j) (h : j < i+max) : i % max ≠ j % max := by
  intro heq
  have hdvd := (Nat.modEq_iff_dvd' hij.le).mp heq
  have := Nat.le_of_dvd (by omega) hdvd
  omega

theorem insertionSort_eq_iff {r : α → α → Prop} [DecidableRel r] [IsTrans α r] [Std.Total r]
    (hanti : ∀ a b, r a b → r b a → a ∈ l → b ∈ l → a = b) (hperm : l'.Perm l) :
    l'.insertionSort r = l ↔ l.Pairwise r := by
  have hsorted := List.pairwise_insertionSort r l'
  have hsort := (List.perm_insertionSort r l').trans hperm
  constructor
  · intro h
    rwa [h] at hsorted
  · intro h
    refine List.Perm.eq_of_pairwise ?_ hsorted h hsort
    intro a b ha hb hab hba
    exact hanti a b hab hba (hsort.mem_iff.mp ha) hb

end Ring
