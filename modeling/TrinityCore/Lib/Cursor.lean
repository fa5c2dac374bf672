import Mathlib

set_option autoImplicit false

/-!
Readers with a cursor over a sequence that does not change. A reader reads a code back when
it is all there, and it is known what it does with a beginning of the code: it fails, or it
returns a value that has been cut short.
-/

structure Cursor (β : Type) where
  bytes : List β
  pos : Nat

namespace Cursor

variable {β : Type}

def rest (c : Cursor β) : List β := c.bytes.drop c.pos

def advance (c : Cursor β) (n : Nat) : Cursor β := { c with pos := c.pos+n }

@[simp] theorem advance_zero (c : Cursor β) : c.advance 0 = c := rfl

@[simp] theorem advance_advance (c : Cursor β) (n k : Nat) :
    (c.advance n).advance k = c.advance (n+k) := by
  simp [advance,Nat.add_assoc]

@[simp] theorem bytes_advance (c : Cursor β) (n : Nat) : (c.advance n).bytes = c.bytes := rfl

@[simp] theorem pos_advance (c : Cursor β) (n : Nat) : (c.advance n).pos = c.pos+n := rfl

theorem rest_advance {c : Cursor β} {code tail : List β} (h : c.rest = code ++ tail) :
    (c.advance code.length).rest = tail := by
  simp only [rest,advance] at h ⊢
  rw [← List.drop_drop,h,List.drop_left]

theorem rest_advance_eq_drop (c : Cursor β) (n : Nat) : (c.advance n).rest = c.rest.drop n :=
  List.drop_drop.symm

theorem length_rest (c : Cursor β) : c.rest.length = c.bytes.length-c.pos := by
  simp [rest]

end Cursor

abbrev Reader (ε β α : Type) := EStateM ε (Cursor β) α

namespace Reader

variable {ε β α γ : Type}

def Reads (r : Reader ε β α) (code : List β) (a : α) : Prop :=
  ∀ c tail, c.rest = code ++ tail → r c = .ok a (c.advance code.length)

/-- What may come of a reader that has only this much left. It does not pass the end. -/
def Ends (good : ε → Prop) (r : Reader ε β α) (part : List β) (cut : α → Prop) : Prop :=
  ∀ c, c.pos ≤ c.bytes.length → c.rest = part →
    match r c with
    | .ok a c' => cut a ∧ c' = c.advance part.length
    | .error e c' => good e ∧ c'.bytes = c.bytes ∧ c'.pos ≤ c.bytes.length

structure Robust (good : ε → Prop) (r : Reader ε β α) (code : List β) (a : α) (cut : α → Prop) :
    Prop where
  whole : Reads r code a
  short : ∀ part, part <+: code → part ≠ code → Ends good r part cut

theorem bind_ok {r : Reader ε β α} {c c' : Cursor β} {a : α} (f : α → Reader ε β γ)
    (h : r c = .ok a c') : (r >>= f) c = f a c' := by
  change EStateM.bind r f c = _
  simp only [EStateM.bind,h]

theorem bind_error {r : Reader ε β α} {c c' : Cursor β} {e : ε} (f : α → Reader ε β γ)
    (h : r c = .error e c') : (r >>= f) c = .error e c' := by
  change EStateM.bind r f c = _
  simp only [EStateM.bind,h]

variable {good : ε → Prop}

theorem Ends.mono {r : Reader ε β α} {part : List β} {cut cut' : α → Prop}
    (h : Ends good r part cut) (hc : ∀ a, cut a → cut' a) : Ends good r part cut' := by
  intro c hpos hrest
  have h' := h c hpos hrest
  cases hr : r c with
  | ok a c' =>
    rw [hr] at h'
    exact ⟨hc a h'.1,h'.2⟩
  | error e c' =>
    rw [hr] at h'
    exact h'

theorem Robust.mono {r : Reader ε β α} {code : List β} {a : α} {cut cut' : α → Prop}
    (h : Robust good r code a cut) (hc : ∀ a, cut a → cut' a) : Robust good r code a cut' :=
  ⟨h.whole,fun part hp hne => (h.short part hp hne).mono hc⟩

theorem robust_pure (a : α) (cut : α → Prop) : Robust good (pure a) ([] : List β) a cut := by
  refine ⟨fun c tail _ => rfl,fun part hp hne => ?_⟩
  exact absurd (List.prefix_nil.mp hp) hne

/-- A beginning of two codes in a row is one of the first, or the first and one of the second. -/
theorem strict_append {part code code' : List β} (hp : part <+: code ++ code')
    (hne : part ≠ code ++ code') :
    (part <+: code ∧ part ≠ code) ∨ ∃ part', part = code ++ part' ∧ part' <+: code' ∧ part' ≠ code' := by
  by_cases hlen : part.length ≤ code.length
  · have h := List.prefix_of_prefix_length_le hp (List.prefix_append code code') hlen
    by_cases heq : part = code
    · refine .inr ⟨[],by simp [heq],List.nil_prefix,?_⟩
      rintro rfl
      simp [heq] at hne
    · exact .inl ⟨h,heq⟩
  · obtain ⟨part',rfl⟩ := List.prefix_of_prefix_length_le (List.prefix_append code code') hp (by omega)
    exact .inr ⟨part',rfl,(List.prefix_append_right_inj code).mp hp,by simpa using hne⟩

theorem Robust.bind {r : Reader ε β α} {f : α → Reader ε β γ} {code code' : List β} {a : α} {b : γ}
    {cut : γ → Prop} (h : Robust good r code a fun _ => False)
    (h' : Robust good (f a) code' b cut) : Robust good (r >>= f) (code ++ code') b cut := by
  constructor
  · intro c tail hrest
    rw [List.append_assoc] at hrest
    have h1 := h.whole c _ hrest
    have h2 := h'.whole (c.advance code.length) tail (Cursor.rest_advance hrest)
    change EStateM.bind r f c = _
    simp only [EStateM.bind,h1,h2,Cursor.advance_advance,List.length_append]
  · intro part hp hne c hpos hrest
    change match EStateM.bind r f c with | .ok a c' => _ | .error e c' => _
    rcases strict_append hp hne with ⟨hp',hne'⟩ | ⟨part',rfl,hp',hne'⟩
    · have h1 := h.short part hp' hne' c hpos hrest
      cases hr : r c with
      | ok a' c' =>
        rw [hr] at h1
        exact absurd h1.1 id
      | error e c' =>
        rw [hr] at h1
        simpa only [EStateM.bind,hr] using h1
    · have h1 := h.whole c part' hrest
      have hlen : code.length ≤ c.rest.length := by simp [hrest]
      rw [Cursor.length_rest] at hlen
      have h2 := h'.short part' hp' hne' (c.advance code.length)
        (by simp only [Cursor.pos_advance,Cursor.bytes_advance]; omega) (Cursor.rest_advance hrest)
      simp only [EStateM.bind,h1]
      simpa using h2

theorem Ends.bind {r : Reader ε β α} {f : α → Reader ε β γ} {part : List β} {cut : γ → Prop}
    (h : Ends good r part fun _ => False) : Ends good (r >>= f) part cut := by
  intro c hpos hrest
  have h1 := h c hpos hrest
  change match EStateM.bind r f c with | .ok a c' => _ | .error e c' => _
  cases hr : r c with
  | ok a' c' =>
    rw [hr] at h1
    exact absurd h1.1 id
  | error e c' =>
    rw [hr] at h1
    simpa only [EStateM.bind,hr] using h1

theorem Ends.map {r : Reader ε β α} {part : List β} {cut : α → Prop} {cut' : γ → Prop}
    (f : α → γ) (h : Ends good r part cut) (hc : ∀ a, cut a → cut' (f a)) :
    Ends good (r >>= fun a => pure (f a)) part cut' := by
  intro c hpos hrest
  have h1 := h c hpos hrest
  change match EStateM.bind r (fun a => EStateM.pure (f a)) c with | .ok a c' => _ | .error e c' => _
  cases hr : r c with
  | ok a' c' =>
    rw [hr] at h1
    simp only [EStateM.bind,hr]
    exact ⟨hc a' h1.1,h1.2⟩
  | error e c' =>
    rw [hr] at h1
    simpa only [EStateM.bind,hr] using h1

theorem Robust.map {r : Reader ε β α} {code : List β} {a : α} {cut : α → Prop} {cut' : γ → Prop}
    (f : α → γ) (h : Robust good r code a cut) (hc : ∀ a, cut a → cut' (f a)) :
    Robust good (r >>= fun a => pure (f a)) code (f a) cut' := by
  refine ⟨fun c tail hrest => ?_,fun part hp hne => (h.short part hp hne).map f hc⟩
  change EStateM.bind r (fun a => EStateM.pure (f a)) c = _
  simp only [EStateM.bind,h.whole c tail hrest]
  rfl

def sequence : List (Reader ε β α) → Reader ε β (List α)
  | [] => pure []
  | r :: rs => do
    let a ← r
    let as ← sequence rs
    pure (a :: as)

/-- The values before the cut are right, the one at the cut is cut short, and the ones after
it are blank. -/
inductive CutList (cut blank : α → α → Prop) : List α → List α → Prop
  | here {a a' : α} {as as' : List α} : cut a a' → List.Forall₂ blank as as' →
      CutList cut blank (a :: as) (a' :: as')
  | there {a : α} {as as' : List α} : CutList cut blank as as' →
      CutList cut blank (a :: as) (a :: as')

section Sequence

variable {read : α → Reader ε β α} {code : α → List β} {cut blank : α → α → Prop}

theorem sequence_cons (r : Reader ε β α) (rs : List (Reader ε β α)) (c : Cursor β) :
    sequence (r :: rs) c = match r c with
      | .ok a c' => match sequence rs c' with
        | .ok as c'' => .ok (a :: as) c''
        | .error e c'' => .error e c''
      | .error e c' => .error e c' := by
  change EStateM.bind r (fun a => EStateM.bind (sequence rs) fun as => EStateM.pure (a :: as)) c = _
  simp only [EStateM.bind]
  cases r c with
  | error e c' => rfl
  | ok a c' => cases h : sequence rs c' <;> simp [h,EStateM.pure]

theorem ends_sequence {as : List α} (hblank : ∀ a ∈ as, Ends good (read a) [] (blank a)) :
    Ends good (sequence (as.map read)) [] fun as' => List.Forall₂ blank as as' := by
  induction as with
  | nil => exact fun c _ _ => ⟨.nil,rfl⟩
  | cons a as ih =>
    intro c hpos hrest
    have h1 := hblank a (by simp) c hpos hrest
    have ih' := ih (fun a ha => hblank a (List.mem_cons_of_mem _ ha)) c hpos hrest
    rw [List.map_cons,sequence_cons]
    cases hr : read a c with
    | error e c' =>
      rw [hr] at h1
      exact h1
    | ok a' c' =>
      rw [hr] at h1
      obtain ⟨hb,rfl⟩ := h1
      simp only [List.length_nil,Cursor.advance_zero]
      cases hs : sequence (as.map read) c with
      | error e c'' =>
        rw [hs] at ih'
        exact ih'
      | ok as' c'' =>
        rw [hs] at ih'
        exact ⟨.cons hb ih'.1,ih'.2⟩

/-- Values in a row: where the input ends, one of them is cut short, and the rest of them see
the end of the input. -/
theorem robust_sequence {as : List α} (h : ∀ a ∈ as, Robust good (read a) (code a) a (cut a))
    (hblank : ∀ a ∈ as, Ends good (read a) [] (blank a)) :
    Robust good (sequence (as.map read)) (as.flatMap code) as (CutList cut blank as) := by
  induction as with
  | nil => exact robust_pure [] _
  | cons a as ih =>
    have ha := h a (by simp)
    have ih' := ih (fun a ha => h a (List.mem_cons_of_mem _ ha))
      (fun a ha => hblank a (List.mem_cons_of_mem _ ha))
    have hend := ends_sequence fun a ha => hblank a (List.mem_cons_of_mem _ ha)
    rw [List.flatMap_cons,List.map_cons]
    constructor
    · intro c tail hrest
      rw [List.append_assoc] at hrest
      rw [sequence_cons,ha.whole c _ hrest]
      simp only
      rw [ih'.whole _ tail (Cursor.rest_advance hrest)]
      simp
    · intro part hp hne c hpos hrest
      rw [sequence_cons]
      rcases strict_append hp hne with ⟨hp',hne'⟩ | ⟨part',rfl,hp',hne'⟩
      · -- the input ends in this one
        have h1 := ha.short part hp' hne' c hpos hrest
        cases hr : read a c with
        | error e c' =>
          rw [hr] at h1
          exact h1
        | ok a' c' =>
          rw [hr] at h1
          obtain ⟨hcut,rfl⟩ := h1
          have hrest' : (c.advance part.length).rest = [] :=
            Cursor.rest_advance (by rw [hrest,List.append_nil])
          have hlen : part.length = c.rest.length := by rw [hrest]
          rw [Cursor.length_rest] at hlen
          have h2 := hend (c.advance part.length)
            (by simp only [Cursor.pos_advance,Cursor.bytes_advance]; omega) hrest'
          simp only
          cases hs : sequence (as.map read) (c.advance part.length) with
          | error e c'' =>
            rw [hs] at h2
            exact h2
          | ok as' c'' =>
            rw [hs] at h2
            exact ⟨.here hcut h2.1,h2.2⟩
      · have h1 := ha.whole c part' hrest
        have hlen : (code a).length ≤ c.rest.length := by simp [hrest]
        rw [Cursor.length_rest] at hlen
        have h2 := ih'.short part' hp' hne' (c.advance (code a).length)
          (by simp only [Cursor.pos_advance,Cursor.bytes_advance]; omega) (Cursor.rest_advance hrest)
        rw [h1]
        simp only
        cases hs : sequence (as.map read) (c.advance (code a).length) with
        | error e c'' =>
          rw [hs] at h2
          exact h2
        | ok as' c'' =>
          rw [hs] at h2
          exact ⟨.there h2.1,by simp [h2.2]⟩

end Sequence

end Reader
