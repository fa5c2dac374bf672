import Mathlib.Data.List.TakeWhile
import TrinityCore.Chat.LinkTermination

set_option autoImplicit false

/-!
# The grammar of a message

A message is plain text, escaped pipes and complete links. The check follows it as long as no plain
text outgrows the skip and no caption the buffer, and departs from it in a few places: a pipe at the
very end, a skip that ends for a pipe, blanks behind a pipe, a colour that is a number of eight
characters but not eight hexadecimal digits.
-/

namespace TrinityCore.Chat

open Reading Istringstream LinkExtractor

namespace Written

/-- Nothing stands behind a pipe but its command, and the colour is eight hexadecimal digits. -/
def Strict (k : Written) : Prop :=
  (∀ i, k.blanks i = []) ∧ k.color.length = 8 ∧ ∀ c ∈ k.color, isDigit 16 c = true

/-- The data and the caption are accepted, for the colour as it is written. -/
def Accepted (st : Stores) (k : Written) : Prop :=
  ∃ link, TakesData st (UInt32.ofNat (valueOf 16 k.color)) k.type k.data link ∧
    validateName st link k.caption = .ok true

/-- The caption goes into the buffer, and its bracket is the first that closes. -/
def Fits (k : Written) : Prop := ']' ∉ k.caption ∧ k.caption.length ≤ 255

end Written

inductive Part (st : Stores) : List Char → Prop
  | plain {p : List Char} : '|' ∉ p → Part st p
  | escaped : Part st ['|','|']
  | link {k : Written} : k.Strict → k.Accepted st → Part st ('|' :: k.text)

def Grammatical (st : Stores) (message : List Char) : Prop :=
  ∃ parts : List (List Char), (∀ x ∈ parts, Part st x) ∧ message = parts.flatten

/-- A piece of plain text the skip gets over, and an escaped pipe or a link whose caption fits. -/
inductive CleanToken (st : Stores) : List Char → Prop
  | escaped {p : List Char} : '|' ∉ p → p.length ≤ 254 → CleanToken st (p ++ ['|','|'])
  | link {p : List Char} {k : Written} : '|' ∉ p → p.length ≤ 254 → k.Strict → k.Accepted st →
      k.Fits → CleanToken st (p ++ '|' :: k.text)

def Roomy (st : Stores) (message : List Char) : Prop :=
  Sentence (CleanToken st) PlainEnd message

/-- Read as the check reads it, the message departs from the grammar: after clean tokens comes a
token that is none of them, or an end that is not plain text, and the check still accepts. -/
def Departs (st : Stores) (held : Char) (message : List Char) : Prop :=
  Slips (Token st) (Ending st held) (CleanToken st) PlainEnd message

/-! ## Eight hexadecimal digits -/

theorem digitValue_lt {c : Char} (h : isDigit 16 c = true) : digitValue c < 16 :=
  of_decide_eq_true h

theorem foldl_digits_lt (ds : List Char) (h : ∀ c ∈ ds, isDigit 16 c = true) (acc : Nat) :
    ds.foldl (fun acc c => 16 * acc + digitValue c) acc < (acc + 1) * 16 ^ ds.length := by
  induction ds generalizing acc with
  | nil => simp
  | cons c ds ih =>
    have hc := digitValue_lt (h c List.mem_cons_self)
    have hlt := ih (fun x hx => h x (List.mem_cons_of_mem _ hx)) (16 * acc + digitValue c)
    calc (c :: ds).foldl (fun acc c => 16 * acc + digitValue c) acc
        < (16 * acc + digitValue c + 1) * 16 ^ ds.length := hlt
      _ ≤ ((acc + 1) * 16) * 16 ^ ds.length := Nat.mul_le_mul_right _ (by omega)
      _ = (acc + 1) * 16 ^ (c :: ds).length := by
        rw [List.length_cons, Nat.pow_succ, Nat.mul_assoc, Nat.mul_comm 16]

theorem hex_not_mark {c : Char} (h : isDigit 16 c = true) :
    isspace c = false ∧ c ≠ '-' ∧ c ≠ '+' ∧ c ≠ 'x' ∧ c ≠ 'X' ∧ c ≠ '|' := by
  have hne {m : Char} (hm : isDigit 16 m = false) : c ≠ m := by
    rintro rfl
    rw [hm] at h
    cases h
  refine ⟨?_, hne (by decide), hne (by decide), hne (by decide), hne (by decide), hne (by decide)⟩
  simp [isspace, hne (m := ' ') (by decide), hne (m := '\t') (by decide),
    hne (m := '\n') (by decide), hne (m := '\x0b') (by decide), hne (m := '\x0c') (by decide),
    hne (m := '\r') (by decide)]

theorem field_hex {d : List Char} (h : ∀ c ∈ d, isDigit 16 c = true) :
    field 16 d = ⟨false,d,[]⟩ := by
  have hspace : d.dropWhile isspace = d := by
    cases d with
    | nil => rfl
    | cons c d =>
      exact List.dropWhile_cons_of_neg (by simp [(hex_not_mark (h c List.mem_cons_self)).1])
  have hsign : takeSign d = (false,d) := by
    cases d with
    | nil => rfl
    | cons c d =>
      obtain ⟨-, h1, h2, -⟩ := hex_not_mark (h c List.mem_cons_self)
      rw [takeSign, if_neg h1, if_neg h2]
  have hbase : dropBase 16 d = d := by
    cases d with
    | nil => rfl
    | cons c d =>
      cases d with
      | nil => rfl
      | cons x d =>
        obtain ⟨-, -, -, h1, h2, -⟩ :=
          hex_not_mark (h x (List.mem_cons_of_mem _ List.mem_cons_self))
        rw [dropBase, if_neg]
        rintro ⟨-, -, h | h⟩
        · exact h1 h
        · exact h2 h
  have hall : d.takeWhile (isDigit 16) = d := List.takeWhile_eq_self_iff.mpr h
  have hnone : d.dropWhile (isDigit 16) = [] := List.dropWhile_eq_nil_iff.mpr h
  simp only [field, hspace, hsign, hbase, hall, hnone]

theorem takesColor_hex {d : List Char} (hlen : d.length = 8)
    (h : ∀ c ∈ d, isDigit 16 c = true) :
    TakesColor d (UInt32.ofNat (valueOf 16 d)) := by
  have hne : d ≠ [] := by
    rintro rfl
    cases hlen
  refine ⟨fun hm => absurd (h '|' hm) (by decide), ?_⟩
  have hlt : valueOf 16 d < 2 ^ 32 := by
    have hv := foldl_digits_lt d h 0
    rw [hlen] at hv
    exact hv
  have hvalue : fieldValue 16 toUInt32 d = some (UInt32.ofNat (valueOf 16 d)) := by
    rw [fieldValue, field_hex h, if_neg hne, toUInt32, if_pos hlt]
    rfl
  rw [readHex_ofText, numberIn_pipe (by decide), numberBefore, hvalue, field_hex h]
  dsimp only
  rw [hlen]
  rfl

/-! ## What the check accepts -/

section Accepts

variable {st : Stores} {held : Char} {message : List Char}

theorem accepts_iff_sentence :
    Accepts st held message ↔ Sentence (Token st) (Ending st held) message := by
  constructor
  · rintro ⟨fuel, h⟩
    have hne : isValidMessage st held fuel message ≠ .error .hangs := by
      rw [h]
      exact nofun
    have hc := isValidMessage_settles hne
    rw [h] at hc
    exact sentence_of_comes (Or.inl rfl) (fun e he _ => he) (fun e _ => nofun) ⟨0, none, hc⟩
  · intro hs
    have hc : Comes st held ⟨0,0,none⟩ (ofText message) (.ok ()) :=
      comes_of_sentence (fun e he color link => he.comes) hs 0 none
    obtain ⟨enough, hc⟩ := hc
    exact ⟨enough, hc enough le_rfl⟩

theorem lead_of_plain {p : List Char} (hp : '|' ∉ p) (hlen : p.length ≤ 254) :
    Lead (p ++ ['|']) := Or.inl ⟨p, rfl, hp, hlen⟩

theorem taken_of_strict {k : Written} (hk : k.Strict) (ha : k.Accepted st) (hf : k.Fits) :
    k.Taken st := by
  obtain ⟨hb, hlen, hhex⟩ := hk
  obtain ⟨link, hd, hv⟩ := ha
  refine ⟨fun i => ?_, _, link, takesColor_hex hlen hhex, hd, hf.1, hf.2, hv⟩
  rw [hb i]
  exact nofun

theorem CleanToken.token {x : List Char} (h : CleanToken st x) : Token st x := by
  cases h with
  | @escaped p hp hlen =>
    have ht : Token st (p ++ ['|'] ++ ([] ++ ['|'])) := .escaped (lead_of_plain hp hlen) nofun
    simpa using ht
  | @link p k hp hlen hk ha hf =>
    have ht : Token st (p ++ ['|'] ++ k.text) :=
      .link (lead_of_plain hp hlen) (taken_of_strict hk ha hf)
    simpa using ht

theorem accepts_iff_roomy_or_departs :
    Accepts st held message ↔ Roomy st message ∨ Departs st held message := by
  rw [accepts_iff_sentence]
  exact sentence_iff_clean_or_slips (fun x hx => hx.token) (fun e he => .plain he) message

theorem Grammatical.part_append {p u : List Char} (hp : Part st p) (hu : Grammatical st u) :
    Grammatical st (p ++ u) := by
  obtain ⟨parts, hparts, rfl⟩ := hu
  exact ⟨p :: parts, List.forall_mem_cons.mpr ⟨hp, hparts⟩, rfl⟩

theorem Roomy.grammatical (h : Roomy st message) : Grammatical st message := by
  induction h with
  | @last e he => exact ⟨[e], by simpa using Part.plain he.1, by simp⟩
  | @cons x u hx _ ih =>
    cases hx with
    | @escaped p hp hlen =>
      rw [List.append_assoc]
      exact (ih.part_append .escaped).part_append (.plain hp)
    | @link p k hp hlen hk ha hf =>
      rw [List.append_assoc]
      exact (ih.part_append (.link hk ha)).part_append (.plain hp)

end Accepts

/-- The check follows the grammar on a message exactly where a grammatical message has room, or is
taken for another one, and where no message that departs from the grammar is taken. -/
theorem follows_grammar_iff (st : Stores) (held : Char) (message : List Char) :
    (Accepts st held message ↔ Grammatical st message) ↔
      ((Grammatical st message → Roomy st message ∨ Departs st held message) ∧
        (Departs st held message → Grammatical st message)) := by
  rw [accepts_iff_roomy_or_departs]
  constructor
  · intro h
    exact ⟨h.mpr, fun hd => h.mp (Or.inr hd)⟩
  · rintro ⟨hroom, hslip⟩
    refine ⟨fun h => ?_, hroom⟩
    obtain h | h := h
    · exact h.grammatical
    · exact hslip h

/-! ## A pipe alone -/

theorem Part.pipe_length {st : Stores} {x : List Char} (h : Part st x) (hp : '|' ∈ x) :
    2 ≤ x.length := by
  cases h with
  | plain hx => exact absurd hp hx
  | escaped => exact le_rfl
  | @link k _ _ =>
    have hk : k.text ≠ [] := by simp [Written.text]
    have hpos := List.length_pos_of_ne_nil hk
    rw [List.length_cons]
    omega

/-- A pipe at the very end of a message is accepted and is no part of the grammar. -/
theorem lonePipe_accepted :
    ¬∀ (st : Stores) (held : Char) (message : List Char), '\x00' ∉ message →
      Terminates st held message → (Accepts st held message ↔ Grammatical st message) := by
  intro h
  have hok : isValidMessage spellsOnly 'x' 2 ['|'] = .ok () := rfl
  have hends : Terminates spellsOnly 'x' ['|'] := ⟨2, by rw [hok]; exact nofun⟩
  obtain ⟨parts, hparts, hm⟩ := (h spellsOnly 'x' ['|'] (by decide) hends).mp ⟨2, hok⟩
  have hmem : '|' ∈ parts.flatten := by
    rw [← hm]
    exact List.mem_cons_self
  obtain ⟨x, hx, hpx⟩ := List.mem_flatten.mp hmem
  have hlong := (hparts x hx).pipe_length hpx
  have hshort : x.length ≤ parts.flatten.length := (List.sublist_flatten_of_mem hx).length_le
  rw [← hm] at hshort
  exact absurd (hlong.trans hshort) (by decide)

end TrinityCore.Chat
