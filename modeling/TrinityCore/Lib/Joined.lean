import Mathlib

set_option autoImplicit false

/-!
Words joined by a separator. A search for a word without separators in such a text looks into
the words one by one, so that it finds the words that contain it and not only the word itself.
-/

namespace Joined

variable {α : Type} {sep : α} {p w text : List α} {words : List (List α)}

theorem infix_append_sep (hsep : sep ∉ p) (hne : p ≠ []) :
    p <:+: w ++ sep :: text ↔ p <:+: w ∨ p <:+: text := by
  constructor
  · intro h
    rcases List.infix_append_iff.mp h with h | h | ⟨p₁,p₂,rfl,h₁,h₂⟩
    · exact .inl h
    · rcases List.infix_cons_iff.mp h with h | h
      · rcases List.prefix_cons_iff.mp h with rfl | ⟨p',rfl,-⟩
        · exact absurd rfl hne
        · exact absurd List.mem_cons_self hsep
      · exact .inr h
    · rcases List.prefix_cons_iff.mp h₂ with rfl | ⟨p',rfl,-⟩
      · rw [List.append_nil]
        exact .inl h₁.isInfix
      · exact absurd (List.mem_append_right p₁ List.mem_cons_self) hsep
  · rintro (h | h)
    · exact List.infix_append_of_infix_left h
    · exact List.infix_append_of_infix_right (List.infix_cons h)

/-- The pattern is found in the text if and only if one of the words contains it. -/
theorem infix_intercalate (hsep : sep ∉ p) (hne : p ≠ []) :
    p <:+: [sep].intercalate words ↔ ∃ w ∈ words, p <:+: w := by
  induction words with
  | nil => simp [hne]
  | cons w words ih =>
    cases words with
    | nil => simp
    | cons w' words =>
      rw [List.intercalate_cons_cons,List.append_assoc,List.singleton_append,
        infix_append_sep hsep hne,ih]
      exact (List.exists_mem_cons_iff _ _ _).symm

end Joined
