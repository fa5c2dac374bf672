import Mathlib

set_option autoImplicit false

namespace TextFind

variable {α : Type} [DecidableEq α] {c : α} {l pre t post word : List α} {s e : Nat}

/-- The first place from `s` on that has the character. -/
def findFrom (c : α) (l : List α) (s : Nat) : Option Nat :=
  ((l.drop s).findIdx? fun x => x = c).map fun i => s+i

/-- The first place at which the word begins. -/
def findWord (word : List α) : List α → Option Nat
  | [] => if word = [] then some 0 else none
  | x :: l => if word <+: x :: l then some 0 else (findWord word l).map fun i => i+1

theorem findFrom_split (hl : l = pre ++ (t ++ c :: post)) (ht : c ∉ t) :
    findFrom c l pre.length = some (pre.length+t.length) := by
  have hnone : t.findIdx? (fun x => x = c) = none := by
    refine List.findIdx?_eq_none_iff.mpr fun x hx => ?_
    rw [decide_eq_false_iff_not]
    intro hxc
    exact ht (hxc ▸ hx)
  unfold findFrom
  rw [hl,List.drop_left,List.findIdx?_append,hnone,Option.none_or,List.findIdx?_cons]
  simp

theorem findFrom_none (h : c ∉ l) : findFrom c l s = none := by
  refine Option.map_eq_none_iff.mpr (List.findIdx?_eq_none_iff.mpr fun x hx => ?_)
  rw [decide_eq_false_iff_not]
  intro hxc
  exact h (hxc ▸ List.mem_of_mem_drop hx)

theorem findFrom_past (h : l.length ≤ s) : findFrom c l s = none := by
  unfold findFrom
  rw [List.drop_eq_nil_of_le h]
  rfl

theorem le_of_findFrom (h : findFrom c l s = some e) : s ≤ e := by
  obtain ⟨i,-,rfl⟩ := Option.map_eq_some_iff.mp h
  exact Nat.le_add_right s i

/-- A word that ends with a character is first found where the character first is. -/
theorem findWord_split (hpre : c ∉ pre) (hword : c ∉ word) :
    findWord (word ++ [c]) (pre ++ (word ++ c :: post)) = some pre.length := by
  induction pre with
  | nil =>
    have hstart : word ++ [c] <+: word ++ c :: post := ⟨post,by simp⟩
    rw [List.nil_append]
    cases hw : word ++ c :: post with
    | nil => simp at hw
    | cons x rest =>
      unfold findWord
      rw [← hw,if_pos hstart]
      rfl
  | cons x pre ih =>
    have hnot : ¬ word ++ [c] <+: x :: (pre ++ (word ++ c :: post)) := by
      intro hprefix
      have hfree : c ∉ x :: (pre ++ word) := by
        rw [← List.cons_append,List.mem_append,not_or]
        exact ⟨hpre,hword⟩
      have hlong : (x :: (pre ++ word)) <+: x :: (pre ++ (word ++ c :: post)) :=
        ⟨c :: post,by simp⟩
      have hinside := List.prefix_of_prefix_length_le hprefix hlong (by simp)
      exact hfree (hinside.subset (by simp))
    rw [List.mem_cons,not_or] at hpre
    rw [List.cons_append]
    unfold findWord
    rw [if_neg hnot,ih hpre.2]
    rfl

end TextFind
