import TrinityCore.Chat.ChatLink

set_option autoImplicit false

/-!
# What the link readers read

On a sound stream every reader of a link leaves a sound stream or refuses, and no reader looks
behind the next pipe. Only the base64 data of a trade link takes a loop of its own, and that loop
looks for a pipe or a NUL alone: at the end of the stream it finds neither.
-/

namespace TrinityCore.Chat

open Reading Istringstream

def onStream {τ : Type} (r : Except Stop (τ × List Char)) : Except Stop (τ × Istringstream) :=
  r.map fun x => (x.1,ofText x.2)

section Numbers

variable {τ : Type} {base : Nat} {convert : Bool → Nat → Option τ}

/-- The number at the front of a text that goes on behind it; a length other than zero is the number
of characters it has to take, modulo the width of a `uint32`. -/
def numberIn (base : Nat) (convert : Bool → Nat → Option τ) (length : Nat) (text : List Char) :
    Except Stop (τ × List Char) :=
  match fieldValue base convert text with
  | none => .error .rejects
  | some v =>
    let behind := (field base text).behind
    if behind ≠ [] ∧ (length = 0 ∨ (text.length - behind.length) % 2 ^ 32 = length) then
      .ok (v,behind)
    else .error .rejects

@[simp] theorem check_true (iss : Istringstream) : check true iss = .ok ((),iss) := rfl

@[simp] theorem check_false (iss : Istringstream) : check false iss = .error .rejects := rfl

theorem check_none (b : Bool) (iss : Istringstream) :
    (check b >>= fun _ => succeeded (none : Option τ)) iss = .error .rejects := by
  cases b <;> rfl

theorem check_some (b : Bool) (v : τ) (t : List Char) :
    (check b >>= fun _ => succeeded (some v)) ⟨t,t.isEmpty,(some v).isNone⟩ =
      onStream (if t ≠ [] ∧ b = true then .ok (v,t) else .error .rejects) := by
  cases t with
  | nil => cases b <;> rfl
  | cons c t => cases b <;> rfl

theorem extract_then (base : Nat) (convert : Bool → Nat → Option τ) (length : Nat)
    (text : List Char) :
    (do
      let pos ← remaining
      let res ← extractNumber base convert
      let behind ← remaining
      check (length = 0 ∨ (pos - behind) % 2 ^ 32 = length)
      succeeded res : Reader Istringstream τ) (ofText text) =
      onStream (numberIn base convert length text) := by
  rw [bind_ok (rfl : remaining (ofText text) = .ok (text.length,ofText text))]
  by_cases hb : text.dropWhile isspace = []
  · rw [bind_ok (extractNumber_blanks hb), bind_ok rfl, numberIn, fieldValue_blanks hb]
    exact check_none _ _
  · rw [bind_ok (extractNumber_field hb), bind_ok rfl, numberIn]
    cases hv : fieldValue base convert text with
    | none => exact check_none _ _
    | some v =>
      refine (check_some _ v _).trans ?_
      simp only [decide_eq_true_eq]
      rfl

theorem readHex_ofText (length : Nat) (text : List Char) :
    readHex length (ofText text) = onStream (numberIn 16 toUInt32 length text) :=
  extract_then 16 toUInt32 length text

theorem readUInt32_ofText (text : List Char) :
    readUInt32 (ofText text) = onStream (numberIn 10 toUInt32 0 text) :=
  extract_then 10 toUInt32 0 text

theorem readInt32_ofText (text : List Char) :
    readInt32 (ofText text) = onStream (numberIn 10 toInt32 0 text) :=
  extract_then 10 toInt32 0 text

theorem numberIn_suffix {length : Nat} {text t : List Char} {v : τ}
    (h : numberIn base convert length text = .ok (v,t)) : t <:+ text := by
  rw [numberIn] at h
  split at h
  · cases h
  · dsimp only at h
    split at h
    · cases h
      exact field_behind_suffix base text
    · cases h

theorem fieldValue_pipe (hbase : base ≤ 16) (d w : List Char) :
    fieldValue base convert (d ++ '|' :: w) = fieldValue base convert d := by
  rw [fieldValue, fieldValue, field_pipe hbase]

def numberBefore (base : Nat) (convert : Bool → Nat → Option τ) (length : Nat) (d : List Char) :
    Except Stop (τ × List Char) :=
  match fieldValue base convert d with
  | none => .error .rejects
  | some v =>
    let behind := (field base d).behind
    if length = 0 ∨ (d.length - behind.length) % 2 ^ 32 = length then .ok (v,behind)
    else .error .rejects

theorem numberIn_pipe (hbase : base ≤ 16) (length : Nat) (d w : List Char) :
    numberIn base convert length (d ++ '|' :: w) =
      (numberBefore base convert length d).map fun r => (r.1,r.2 ++ '|' :: w) := by
  rw [numberIn, numberBefore, fieldValue_pipe hbase, field_pipe hbase]
  cases fieldValue base convert d with
  | none => rfl
  | some v =>
    have hlen : (d ++ '|' :: w).length - ((field base d).behind ++ '|' :: w).length =
        d.length - (field base d).behind.length := by
      simp only [List.length_append]
      omega
    dsimp only
    rw [hlen]
    by_cases hl : length = 0 ∨ (d.length - (field base d).behind.length) % 2 ^ 32 = length
    · rw [if_pos hl, if_pos ⟨by simp, hl⟩]
      rfl
    · rw [if_neg hl, if_neg fun h => hl h.2]
      rfl

theorem numberBefore_suffix {length : Nat} {d t : List Char} {v : τ}
    (h : numberBefore base convert length d = .ok (v,t)) : t <:+ d := by
  rw [numberBefore] at h
  split at h
  · cases h
  · dsimp only at h
    split at h
    · cases h
      exact field_behind_suffix base d
    · cases h

theorem steady_number (hbase : base ≤ 16) {length : Nat} {p : Reader Istringstream τ}
    (hp : ∀ text, p (ofText text) = onStream (numberIn base convert length text)) :
    Steady ofText '|' p where
  suffix := by
    intro s a t h
    rw [hp] at h
    cases hn : numberIn base convert length s with
    | error e => rw [hn] at h; cases h
    | ok r =>
      rw [hn] at h
      cases h
      exact ⟨r.2, rfl, numberIn_suffix hn⟩
  blind := by
    intro d hd
    refine ⟨numberBefore base convert length d, ?_, fun w => ?_⟩
    · intro a z h hz
      exact hd ((numberBefore_suffix h).mem hz)
    · rw [hp, numberIn_pipe hbase]
      cases numberBefore base convert length d <;> rfl
  ends := by
    intro s h
    rw [hp, numberIn] at h
    split at h
    · cases h
    · dsimp only at h
      split at h <;> cases h

end Numbers

/-! ## Every reader stops at the pipe -/

abbrev Careful {α : Type} (p : Reader Istringstream α) : Prop := StopsAt ofText '|' p

abbrev Tame {α : Type} (p : Reader Istringstream α) : Prop := Steady ofText '|' p

theorem tame_readUInt32 : Tame readUInt32 := steady_number (by decide) readUInt32_ofText

theorem tame_readInt32 : Tame readInt32 := steady_number (by decide) readInt32_ofText

theorem tame_readHex (length : Nat) : Tame (readHex length) :=
  steady_number (by decide) (readHex_ofText length)

theorem tame_check (b : Bool) : Tame (check b) := by
  cases b
  · exact Steady.rejects
  · exact Steady.pure ()

theorem tame_found {α : Type} (o : Option α) : Tame (found o) := by
  cases o
  · exact Steady.rejects
  · exact Steady.pure _

theorem checkDelimiter_nil {delimiter : Char} (h : delimiter ≠ '\xff') :
    checkDelimiter delimiter (ofText []) = .error .rejects := by
  rw [checkDelimiter, bind_ok peek_nil]
  exact bind_error (by rw [toChar, decide_eq_false (Ne.symm h)]; rfl)

theorem checkDelimiter_cons (delimiter c : Char) (t : List Char) :
    checkDelimiter delimiter (ofText (c :: t)) =
      if c = delimiter then .ok ((),ofText t) else .error .rejects := by
  rw [checkDelimiter, bind_ok (peek_cons c t)]
  by_cases h : c = delimiter
  · rw [if_pos h, toChar, decide_eq_true h, bind_ok (check_true _), ignore_one]
  · rw [if_neg h, toChar, decide_eq_false h, bind_error (check_false _)]

theorem tame_checkDelimiter : Tame (checkDelimiter DELIMITER) where
  suffix := by
    intro s a t h
    cases s with
    | nil => rw [checkDelimiter_nil (by decide)] at h; cases h
    | cons c s =>
      rw [checkDelimiter_cons] at h
      split at h
      · cases h
        exact ⟨s, rfl, List.suffix_cons c s⟩
      · cases h
  blind := by
    intro d hd
    cases d with
    | nil =>
      refine ⟨.error .rejects, nofun, fun w => ?_⟩
      rw [List.nil_append, checkDelimiter_cons, if_neg (by decide)]
      rfl
    | cons c d =>
      by_cases hc : c = DELIMITER
      · refine ⟨.ok ((),d), fun a z h => ?_, fun w => ?_⟩
        · cases h
          exact List.not_mem_of_not_mem_cons hd
        · rw [List.cons_append, checkDelimiter_cons, if_pos hc]
          rfl
      · refine ⟨.error .rejects, nofun, fun w => ?_⟩
        rw [List.cons_append, checkDelimiter_cons, if_neg hc]
        rfl
  ends := by
    intro s h
    cases s with
    | nil => rw [checkDelimiter_nil (by decide)] at h; cases h
    | cons c s =>
      rw [checkDelimiter_cons] at h
      split at h <;> cases h

section Links

variable (st : Stores) (color : UInt32)

theorem tame_validateRandom (index : Nat) (id : Int) (props : ItemProps) :
    Tame (validateRandom st index id props) := by
  unfold validateRandom
  split_ifs
  · exact (tame_found _).bind fun _ => Steady.pure _
  · exact (tame_found _).bind fun _ => Steady.pure _
  · exact Steady.pure _

theorem tame_readItemProps (indices : List Nat) (props : ItemProps) :
    Tame (readItemProps st indices props) := by
  induction indices generalizing props with
  | nil => exact Steady.pure _
  | cons index indices ih =>
    exact tame_checkDelimiter.bind fun _ => tame_readInt32.bind fun _ =>
      (tame_validateRandom st index _ props).bind fun _ => ih _

theorem tame_readProgress (n : Nat) : Tame (readProgress n) := by
  induction n with
  | zero => exact Steady.pure _
  | succ n ih =>
    exact tame_checkDelimiter.bind fun _ => tame_readUInt32.bind fun _ =>
      ih.bind fun _ => Steady.pure _

theorem tame_readHead : Tame (TradeChatLink.readHead st color) :=
  (tame_check _).bind fun _ => tame_readUInt32.bind fun _ => (tame_found _).bind fun _ =>
    tame_checkDelimiter.bind fun _ => tame_readInt32.bind fun _ =>
    tame_checkDelimiter.bind fun _ => tame_readInt32.bind fun _ =>
    tame_checkDelimiter.bind fun _ => (tame_readHex 0).bind fun _ => Steady.pure _

theorem tame_initializeFrom {type : LinkType} (h : type ≠ .trade) (fuel : Nat) :
    Tame (initializeFrom st color fuel type) := by
  cases type with
  | trade => exact absurd rfl h
  | item =>
    exact tame_readUInt32.bind fun _ => (tame_found _).bind fun _ => (tame_check _).bind fun _ =>
      (tame_readItemProps st _ _).bind fun _ => Steady.pure _
  | quest =>
    exact tame_readUInt32.bind fun _ => (tame_found _).bind fun _ =>
      tame_checkDelimiter.bind fun _ => tame_readInt32.bind fun _ =>
      (tame_check _).bind fun _ => Steady.pure _
  | talent =>
    exact (tame_check _).bind fun _ => tame_readUInt32.bind fun _ => (tame_found _).bind fun _ =>
      (tame_found _).bind fun _ => tame_checkDelimiter.bind fun _ =>
      tame_readInt32.bind fun _ => Steady.pure _
  | spell =>
    exact (tame_check _).bind fun _ => tame_readUInt32.bind fun _ =>
      (tame_found _).bind fun _ => Steady.pure _
  | enchant =>
    exact (tame_check _).bind fun _ => tame_readUInt32.bind fun _ =>
      (tame_found _).bind fun _ => Steady.pure _
  | achievement =>
    exact (tame_check _).bind fun _ => tame_readUInt32.bind fun _ => (tame_found _).bind fun _ =>
      tame_checkDelimiter.bind fun _ => (tame_readHex 0).bind fun _ =>
      (tame_readProgress 8).bind fun _ => Steady.pure _
  | glyph =>
    exact (tame_check _).bind fun _ => tame_readUInt32.bind fun _ =>
      tame_checkDelimiter.bind fun _ => tame_readUInt32.bind fun _ =>
      (tame_found _).bind fun _ => (tame_found _).bind fun _ => Steady.pure _

end Links

/-! ## The loop over the base64 data -/

section Skip

variable (term : Char)

theorem readSkip_stop (fuel : Nat) {c : Char} (h : c = term ∨ c = '\x00') (t : List Char) :
    readSkip term (fuel + 1) (ofText (c :: t)) = .ok ([],ofText (c :: t)) := by
  rw [readSkip, bind_ok (peek_cons c t), if_neg]
  · rfl
  · rintro ⟨h1, h2⟩
    exact h.elim h1 h2

theorem readSkip_step (fuel : Nat) {c : Char} (h1 : c ≠ term) (h2 : c ≠ '\x00')
    (t : List Char) :
    readSkip term (fuel + 1) (ofText (c :: t)) =
      (readSkip term fuel >>= fun res => pure (c :: res)) (ofText t) := by
  rw [readSkip, bind_ok (peek_cons c t), if_pos ⟨h1, h2⟩, bind_ok (ignore_one c t)]
  rfl

theorem readSkip_dead (h : term ≠ '\xff') (fuel : Nat) {iss : Istringstream}
    (hi : iss.good = false) : readSkip term fuel iss = .error .hangs := by
  induction fuel generalizing iss with
  | zero => rfl
  | succ fuel ih =>
    have hp : peek iss = .ok (none,{ iss with fail := true }) := by
      rw [peek, hi]
      rfl
    have hd : ({ iss with fail := true } : Istringstream).good = false := by simp [good]
    have hg : ignore 1 none { iss with fail := true } = .ok ((),{ iss with fail := true }) := by
      rw [ignore, hd]
      rfl
    rw [readSkip, bind_ok hp, if_pos ⟨Ne.symm h, by decide⟩, bind_ok hg, bind_error (ih hd)]

theorem readSkip_end (h : term ≠ '\xff') (fuel : Nat) :
    readSkip term fuel (ofText []) = .error .hangs := by
  cases fuel with
  | zero => rfl
  | succ fuel =>
    rw [readSkip, bind_ok peek_nil, if_pos ⟨Ne.symm h, by decide⟩]
    exact (bind_ok rfl).trans (bind_error (readSkip_dead term h fuel rfl))

/-- Where neither the terminator nor a NUL comes any more the loop never ends. -/
theorem readSkip_hangs (h : term ≠ '\xff') (fuel : Nat) {e : List Char} (h1 : term ∉ e)
    (h2 : '\x00' ∉ e) : readSkip term fuel (ofText e) = .error .hangs := by
  induction e generalizing fuel with
  | nil => exact readSkip_end term h fuel
  | cons c e ih =>
    cases fuel with
    | zero => rfl
    | succ fuel =>
      rw [readSkip_step term fuel (Ne.symm (List.ne_of_not_mem_cons h1))
        (Ne.symm (List.ne_of_not_mem_cons h2))]
      exact bind_error (ih fuel (List.not_mem_of_not_mem_cons h1) (List.not_mem_of_not_mem_cons h2))

theorem readSkip_reads {d : List Char} (h1 : term ∉ d) (h2 : '\x00' ∉ d) {c : Char}
    (hc : c = term ∨ c = '\x00') (w : List Char) {fuel : Nat} (hf : d.length < fuel) :
    readSkip term fuel (ofText (d ++ c :: w)) = .ok (d,ofText (c :: w)) := by
  induction d generalizing fuel with
  | nil =>
    obtain ⟨fuel, rfl⟩ : ∃ m, fuel = m + 1 := ⟨fuel - 1, by simp at hf; omega⟩
    exact readSkip_stop term fuel hc w
  | cons x d ih =>
    obtain ⟨fuel, rfl⟩ : ∃ m, fuel = m + 1 := ⟨fuel - 1, by simp at hf; omega⟩
    rw [List.cons_append, readSkip_step term fuel (Ne.symm (List.ne_of_not_mem_cons h1))
      (Ne.symm (List.ne_of_not_mem_cons h2))]
    exact bind_ok (ih (List.not_mem_of_not_mem_cons h1) (List.not_mem_of_not_mem_cons h2)
      (by simpa using hf))

theorem split_at_stop (e : List Char) :
    (term ∉ e ∧ '\x00' ∉ e) ∨
      ∃ d c w, e = d ++ c :: w ∧ term ∉ d ∧ '\x00' ∉ d ∧ (c = term ∨ c = '\x00') := by
  induction e with
  | nil => exact Or.inl ⟨List.not_mem_nil, List.not_mem_nil⟩
  | cons x e ih =>
    by_cases hx : x = term ∨ x = '\x00'
    · exact Or.inr ⟨[], x, e, rfl, List.not_mem_nil, List.not_mem_nil, hx⟩
    · have hx1 : term ≠ x := fun h => hx (Or.inl h.symm)
      have hx2 : '\x00' ≠ x := fun h => hx (Or.inr h.symm)
      obtain ⟨h1, h2⟩ | ⟨d, c, w, rfl, h1, h2, hc⟩ := ih
      · exact Or.inl ⟨List.not_mem_cons_of_ne_of_not_mem hx1 h1,
          List.not_mem_cons_of_ne_of_not_mem hx2 h2⟩
      · exact Or.inr ⟨x :: d, c, w, rfl, List.not_mem_cons_of_ne_of_not_mem hx1 h1,
          List.not_mem_cons_of_ne_of_not_mem hx2 h2, hc⟩

end Skip

theorem careful_readSkip (fuel : Nat) : Careful (readSkip pipeChar fuel) := by
  induction fuel with
  | zero => exact StopsAt.stop .hangs
  | succ fuel ih =>
    have hnext (c : Char) :
        Careful (readSkip pipeChar fuel >>= fun res => pure (c :: res)) :=
      ih.bind fun _ => StopsAt.pure _
    constructor
    · intro s a t h
      cases s with
      | nil => rw [readSkip_end pipeChar (by decide)] at h; cases h
      | cons c s =>
        by_cases hc : c = pipeChar ∨ c = '\x00'
        · rw [readSkip_stop pipeChar fuel hc] at h
          cases h
          exact ⟨c :: s, rfl, List.suffix_refl _⟩
        · push Not at hc
          rw [readSkip_step pipeChar fuel hc.1 hc.2] at h
          obtain ⟨z, hz, hzs⟩ := (hnext c).suffix h
          exact ⟨z, hz, hzs.trans (List.suffix_cons c s)⟩
    · intro d hd
      cases d with
      | nil =>
        refine ⟨.ok ([],[]), fun a z h => ?_, fun w => ?_⟩
        · cases h
          exact List.not_mem_nil
        · exact readSkip_stop pipeChar fuel (Or.inl rfl) w
      | cons c d =>
        by_cases hc : c = pipeChar ∨ c = '\x00'
        · refine ⟨.ok ([],c :: d), fun a z h => ?_, fun w => ?_⟩
          · cases h
            exact hd
          · exact readSkip_stop pipeChar fuel hc (d ++ '|' :: w)
        · push Not at hc
          obtain ⟨o, ho, hw⟩ := (hnext c).blind d (List.not_mem_of_not_mem_cons hd)
          exact ⟨o, ho, fun w => (readSkip_step pipeChar fuel hc.1 hc.2 _).trans (hw w)⟩

theorem mono_readSkip (term : Char) : Mono (readSkip term) := by
  intro fuel
  induction fuel with
  | zero => exact Below.hangs _
  | succ fuel ih =>
    rw [readSkip, readSkip]
    refine (Below.refl peek).bind fun c => ?_
    split_ifs
    · exact (Below.refl _).bind fun _ => ih.bind fun _ => Below.refl _
    · exact Below.refl _

section Links

variable (st : Stores) (color : UInt32)

theorem careful_initializeFrom (fuel : Nat) (type : LinkType) :
    Careful (initializeFrom st color fuel type) := by
  by_cases h : type = .trade
  · subst h
    exact (tame_readHead st color).toStopsAt.bind fun _ => (careful_readSkip fuel).bind fun _ =>
      StopsAt.pure _
  · exact (tame_initializeFrom st color h fuel).toStopsAt

theorem mono_initializeFrom (type : LinkType) :
    Mono fun fuel => initializeFrom st color fuel type := by
  intro fuel
  cases type with
  | trade =>
    exact (Below.refl _).bind fun _ => (mono_readSkip pipeChar fuel).bind fun _ => Below.refl _
  | item => exact Below.refl _
  | quest => exact Below.refl _
  | talent => exact Below.refl _
  | spell => exact Below.refl _
  | enchant => exact Below.refl _
  | achievement => exact Below.refl _
  | glyph => exact Below.refl _

/-! ## The data of a link -/

/-- The text is data of a link of this type and colour: `Initialize` takes it up to the pipe. -/
def TakesData (type : LinkType) (d : List Char) (link : ChatLink) : Prop :=
  '|' ∉ d ∧ ∃ fuel, initializeFrom st color fuel type (ofText (d ++ ['|'])) =
    .ok (link,ofText ['|'])

/-- A trade link is open to the end: its numbers are read, and neither a pipe nor a NUL follows. -/
def OpenData (y : List Char) : Prop :=
  ∃ head e, TradeChatLink.readHead st color (ofText y) = .ok (head,ofText e) ∧ '|' ∉ e ∧
    '\x00' ∉ e

theorem initializeFrom_open {y : List Char} (h : OpenData st color y) (fuel : Nat) :
    initializeFrom st color fuel .trade (ofText y) = .error .hangs := by
  obtain ⟨head, e, hh, h1, h2⟩ := h
  refine (bind_ok hh).trans ?_
  exact bind_error (readSkip_hangs pipeChar (by decide) fuel h1 h2)

variable {st color} {type : LinkType}

variable (st color type) in
theorem ne_hangs_or_open (y : List Char) :
    (type = .trade ∧ OpenData st color y) ∨
      ∃ fuel, initializeFrom st color fuel type (ofText y) ≠ .error .hangs := by
  by_cases ht : type = .trade
  · subst ht
    cases hh : TradeChatLink.readHead st color (ofText y) with
    | error e =>
      refine Or.inr ⟨0, fun h => (tame_readHead st color).ends y ?_⟩
      have he : .error e = (.error .hangs : Except Stop (ChatLink × Istringstream)) :=
        (bind_error hh).symm.trans h
      cases he
      exact hh
    | ok r =>
      obtain ⟨head, t⟩ := r
      obtain ⟨z, rfl, -⟩ := (tame_readHead st color).suffix hh
      obtain ⟨h1, h2⟩ | ⟨a, c, v, rfl, h1, h2, hc⟩ := split_at_stop pipeChar z
      · exact Or.inl ⟨rfl, head, z, hh, h1, h2⟩
      · refine Or.inr ⟨a.length + 1, fun h => ?_⟩
        have hr := readSkip_reads pipeChar h1 h2 hc v (Nat.lt_succ_self a.length)
        have hok := ((bind_ok hh).trans (bind_ok hr)).symm.trans h
        cases hok
  · exact Or.inr ⟨0, (tame_initializeFrom st color ht 0).ends y⟩

theorem TakesData.reads {d : List Char} {link : ChatLink} (h : TakesData st color type d link)
    (w : List Char) :
    Settles (fun fuel => initializeFrom st color fuel type (ofText (d ++ '|' :: w)))
      (.ok (link,ofText ('|' :: w))) := by
  obtain ⟨hd, fuel, hr⟩ := h
  have hb := (careful_initializeFrom st color fuel type).blind_ok ofText_injective hd hr w
  have hs := (mono_initializeFrom st color type).settles (n := fuel)
    (s := ofText (d ++ '|' :: w)) (by rw [hb]; exact nofun)
  rwa [hb] at hs

variable (st color type) in
/-- What a link type comes to on what is left of the message: it takes the data up to a pipe, or
reads on for ever as an open trade link, or ends away from a pipe. -/
theorem initializeFrom_cases (y : List Char) :
    (∃ d w link, y = d ++ '|' :: w ∧ TakesData st color type d link) ∨
      (type = .trade ∧ OpenData st color y) ∨
      ∃ x, x ≠ .error .hangs ∧
        Settles (fun fuel => initializeFrom st color fuel type (ofText y)) x ∧
        ∀ link t, x = .ok (link,t) → ∃ z, t = ofText z ∧ ∀ w, z ≠ '|' :: w := by
  obtain hopen | ⟨fuel, hne⟩ := ne_hangs_or_open st color type y
  · exact Or.inr (Or.inl hopen)
  · have hs := (mono_initializeFrom st color type).settles hne
    cases hx : initializeFrom st color fuel type (ofText y) with
    | error e =>
      rw [hx] at hs hne
      exact Or.inr (Or.inr ⟨_, hne, hs, nofun⟩)
    | ok r =>
      obtain ⟨link, t⟩ := r
      obtain ⟨d, w, rfl, hd, hr⟩ | hz :=
        (careful_initializeFrom st color fuel type).mark_or_away ofText_injective hx
      · exact Or.inl ⟨d, w, link, rfl, hd, fuel, hr []⟩
      · rw [hx] at hs hne
        refine Or.inr (Or.inr ⟨_, hne, hs, fun link' t' h => ?_⟩)
        cases h
        exact hz

end Links

end TrinityCore.Chat
