import Mathlib

set_option autoImplicit false

namespace Chunked

variable {γ ρ : Type} {answer whole : γ → List ρ} {fits short : γ → Prop} {chunks : List γ}

/-- What comes back, up to the first chunk without an answer. -/
def answers (answer : γ → List ρ) : List γ → List ρ
  | [] => []
  | c :: chunks => if (answer c).isEmpty then [] else answer c ++ answers answer chunks

def asked (answer : γ → List ρ) : List γ → List γ
  | [] => []
  | c :: chunks => if (answer c).isEmpty then [c] else c :: asked answer chunks

theorem answers_empty {c : γ} (h : answer c = []) : answers answer (c :: chunks) = [] := by
  unfold answers
  rw [if_pos (by simp [h])]

theorem answers_cons {c : γ} (h : answer c ≠ []) :
    answers answer (c :: chunks) = answer c ++ answers answer chunks := by
  conv_lhs => unfold answers
  rw [if_neg (by simpa using h)]

theorem asked_empty {c : γ} (h : answer c = []) : asked answer (c :: chunks) = [c] := by
  unfold asked
  rw [if_pos (by simp [h])]

theorem asked_cons {c : γ} (h : answer c ≠ []) :
    asked answer (c :: chunks) = c :: asked answer chunks := by
  conv_lhs => unfold asked
  rw [if_neg (by simpa using h)]

/-- The answers are complete just when every chunk that has something fits, and no chunk without
anything stands before one. -/
theorem perm_answers_iff (hfits : ∀ c ∈ chunks, fits c → (answer c).Perm (whole c))
    (hcut : ∀ c ∈ chunks, ¬ fits c → answer c = []) :
    (answers answer chunks).Perm (chunks.flatMap whole) ↔
      (∀ c ∈ chunks, whole c ≠ [] → fits c) ∧
      chunks.Pairwise fun b c => whole c ≠ [] → whole b ≠ [] := by
  induction chunks with
  | nil => simp [answers]
  | cons c chunks ih =>
    rw [List.forall_mem_cons] at hfits hcut
    have hrest := ih hfits.2 hcut.2
    rw [List.flatMap_cons,List.forall_mem_cons,List.pairwise_cons]
    by_cases hanswer : answer c = []
    · rw [answers_empty hanswer]
      have hnothing : [].Perm (whole c ++ chunks.flatMap whole) ↔
          whole c = [] ∧ ∀ b ∈ chunks, whole b = [] := by
        rw [List.nil_perm,List.append_eq_nil_iff,List.flatMap_eq_nil_iff]
      rw [hnothing]
      by_cases hempty : whole c = []
      · refine ⟨fun h => ⟨⟨fun hne => absurd hempty hne,fun b hb hne => absurd (h.2 b hb) hne⟩,
          fun b hb hne => absurd (h.2 b hb) hne,?_⟩,fun h => ⟨hempty,fun b hb => ?_⟩⟩
        · exact List.pairwise_of_forall_mem_list fun b _ b' hb' hne => absurd (h.2 b' hb') hne
        · by_contra hne
          exact h.2.1 b hb hne hempty
      · refine iff_of_false (fun h => hempty h.1) fun h => ?_
        exact hempty ((List.Perm.nil_eq (hanswer ▸ hfits.1 (h.1.1 hempty))).symm)
    · have hc : fits c := by
        by_contra hnot
        exact hanswer (hcut.1 hnot)
      have hperm := hfits.1 hc
      have hwhole : whole c ≠ [] := by
        intro hnil
        rw [hnil] at hperm
        exact hanswer hperm.eq_nil
      rw [answers_cons hanswer,List.Perm.congr_left (hperm.append_right _),List.perm_append_left_iff,
        hrest]
      refine ⟨fun h => ⟨⟨fun _ => hc,h.1⟩,fun _ _ _ => hwhole,h.2⟩,fun h => ⟨h.1.2,h.2.2⟩⟩

/-- When the chunks that have something fit, then what is asked for is short just when the first
chunk without anything is. -/
theorem asked_short_iff (hfits : ∀ c ∈ chunks, fits c → (answer c).Perm (whole c))
    (hcut : ∀ c ∈ chunks, ¬ fits c → answer c = [])
    (hall : ∀ c ∈ chunks, whole c ≠ [] → fits c) (hshort : ∀ c, fits c → short c) :
    (∀ c ∈ asked answer chunks, short c) ↔
      ∀ c, chunks.find? (fun c => (whole c).isEmpty) = some c → short c := by
  induction chunks with
  | nil => simp [asked]
  | cons c chunks ih =>
    rw [List.forall_mem_cons] at hfits hcut hall
    by_cases hanswer : answer c = []
    · have hwhole : whole c = [] := by
        by_contra hne
        have hperm := hfits.1 (hall.1 hne)
        rw [hanswer] at hperm
        exact hne hperm.nil_eq.symm
      rw [asked_empty hanswer,List.find?_cons_of_pos (by simp [hwhole])]
      simp
    · have hc : fits c := by
        by_contra hnot
        exact hanswer (hcut.1 hnot)
      have hwhole : whole c ≠ [] := by
        intro hnil
        have hperm := hfits.1 hc
        rw [hnil] at hperm
        exact hanswer hperm.eq_nil
      rw [asked_cons hanswer,List.forall_mem_cons,List.find?_cons_of_neg (by simpa using hwhole),
        ih hfits.2 hcut.2 hall.2]
      exact and_iff_right (hshort c hc)

section Keys

variable {κ : Type} [DecidableEq κ]

theorem filter_or_perm {p q : ρ → Bool} (rows : List ρ) (h : ∀ row ∈ rows, p row = true → q row = false) :
    (rows.filter p ++ rows.filter q).Perm (rows.filter fun row => p row || q row) := by
  induction rows with
  | nil => exact .rfl
  | cons row rows ih =>
    rw [List.forall_mem_cons] at h
    have hrest := ih h.2
    cases hp : p row with
    | true =>
      rw [List.filter_cons_of_pos hp,List.filter_cons_of_neg (by simp [h.1 hp]),
        List.filter_cons_of_pos (by simp [hp])]
      exact hrest.cons row
    | false =>
      rw [List.filter_cons_of_neg (by simp [hp])]
      cases hq : q row with
      | true =>
        rw [List.filter_cons_of_pos hq,List.filter_cons_of_pos (by simp [hq])]
        exact List.perm_middle.trans (hrest.cons row)
      | false =>
        rw [List.filter_cons_of_neg (by simp [hq]),List.filter_cons_of_neg (by simp [hp,hq])]
        exact hrest

theorem flatMap_filter_perm (key : ρ → κ) (rows : List ρ) {chunks : List (List κ)}
    (h : chunks.flatten.Nodup) :
    (chunks.flatMap fun keys => rows.filter fun row => key row ∈ keys).Perm
      (rows.filter fun row => key row ∈ chunks.flatten) := by
  induction chunks with
  | nil => simp
  | cons keys chunks ih =>
    rw [List.flatten_cons] at h
    obtain ⟨-,hrest,hdisjoint⟩ := List.nodup_append'.mp h
    rw [List.flatMap_cons,List.flatten_cons]
    refine ((ih hrest).append_left _).trans ?_
    refine (filter_or_perm rows fun row _ hin => ?_).trans (List.Perm.of_eq ?_)
    · rw [decide_eq_true_eq] at hin
      exact decide_eq_false fun hin' => hdisjoint hin hin'
    · refine List.filter_congr fun row _ => ?_
      simp

end Keys

end Chunked
