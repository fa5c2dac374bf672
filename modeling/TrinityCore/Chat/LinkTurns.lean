import TrinityCore.Chat.LinkReaders

set_option autoImplicit false

/-!
# Turns of the check

What one turn of the loop does from each place in a link, and what the loop comes to from there: it
goes on behind a complete part of the link, or it ends away from the grammar. A turn that finds
nothing but blanks behind its pipe reads a command character that was never set.
-/

namespace TrinityCore.Chat

open Reading Istringstream

def Blank (b : List Char) : Prop := ∀ c ∈ b, isspace c = true

/-- What is skipped up to a pipe outside a link, with the pipe. The skip ends after 255 characters
and takes what it has skipped for a pipe. -/
def Lead (l : List Char) : Prop :=
  (∃ p, l = p ++ ['|'] ∧ '|' ∉ p ∧ p.length ≤ 254) ∨ '|' ∉ l ∧ l.length = 255

def Opening (position : Fin 5) (l : List Char) : Prop :=
  (position = 0 ∧ Lead l) ∨ (position ≠ 0 ∧ l = ['|'])

namespace LinkExtractor

theorem approach_opening {position : Fin 5} {l : List Char} (h : Opening position l)
    (t : List Char) : approach position (ofText (l ++ t)) = .ok ((),ofText t) := by
  obtain ⟨rfl, hl⟩ | ⟨hp, rfl⟩ := h
  · rw [approach, if_pos rfl, ignore, if_pos (good_ofText _), rest_ofText]
    obtain ⟨p, rfl, hp, hlen⟩ | ⟨hl, hlen⟩ := hl
    · rw [List.append_assoc, List.singleton_append, pipeChar,
        ignoreText_delim hp (by omega) t]
      rfl
    · rw [← hlen, pipeChar, ignoreText_full hl t]
      rfl
  · rw [approach, if_neg hp]
    exact (bind_ok (get_cons '|' t)).trans rfl

theorem approach_cases (position : Fin 5) (s : List Char) :
    (∃ l t, Opening position l ∧ s = l ++ t) ∨
      (position = 0 ∧ '|' ∉ s ∧ s.length < 255 ∧
        approach position (ofText s) = .ok ((),⟨[],true,false⟩)) ∨
      (position ≠ 0 ∧ (∀ t, s ≠ '|' :: t) ∧
        approach position (ofText s) = .error .rejects) := by
  by_cases hp : position = 0
  · subst hp
    have hfull (h : '|' ∉ s.take 255) (hlen : 255 ≤ s.length) :
        ∃ l t, Opening 0 l ∧ s = l ++ t := by
      refine ⟨s.take 255, s.drop 255, Or.inl ⟨rfl, Or.inr ⟨h, ?_⟩⟩, ?_⟩
      · rw [List.length_take]
        omega
      · exact (List.take_append_drop 255 s).symm
    obtain hs | ⟨p, t, rfl, hp⟩ := split_at_delim '|' s
    · by_cases hlen : s.length < 255
      · refine Or.inr (Or.inl ⟨rfl, hs, hlen, ?_⟩)
        rw [approach, if_pos rfl, ignore, if_pos (good_ofText _), rest_ofText, pipeChar,
          ignoreText_short hs hlen]
      · exact Or.inl (hfull (fun h => hs (List.mem_of_mem_take h)) (by omega))
    · by_cases hlen : p.length ≤ 254
      · exact Or.inl ⟨p ++ ['|'], t, Or.inl ⟨rfl, Or.inl ⟨p, rfl, hp, hlen⟩⟩, by simp⟩
      · refine Or.inl (hfull ?_ (by rw [List.length_append]; omega))
        rw [List.take_append_of_le_length (by omega)]
        exact fun h => hp (List.mem_of_mem_take h)
  · cases s with
    | nil =>
      refine Or.inr (Or.inr ⟨hp, fun t => (List.cons_ne_nil '|' t).symm, ?_⟩)
      rw [approach, if_neg hp]
      exact (bind_ok get_nil).trans rfl
    | cons c s =>
      by_cases hc : c = '|'
      · exact Or.inl ⟨['|'], s, Or.inr ⟨hp, rfl⟩, by rw [hc]; rfl⟩
      · refine Or.inr (Or.inr ⟨hp, fun t h => hc (List.cons.inj h).1, ?_⟩)
        rw [approach, if_neg hp]
        refine (bind_ok (get_cons c s)).trans ?_
        have hd : decide (some c = some pipeChar) = false :=
          decide_eq_false fun h => hc (Option.some.inj h)
        rw [hd]
        rfl

section Command

variable (held : Char)

theorem nextCommand_end : nextCommand held (ofText []) = .ok (none,⟨[],true,false⟩) := rfl

theorem nextCommand_dead :
    nextCommand held ⟨[],true,false⟩ = .ok (none,⟨[],true,true⟩) := rfl

theorem nextCommand_cons {c : Char} (h : c ≠ '\x00') (t : List Char) :
    nextCommand held (ofText (c :: t)) =
      (extractChar held >>= fun commandChar => pure (some commandChar)) (ofText (c :: t)) := by
  have hd : decide (some c ≠ some '\x00') = true :=
    decide_eq_true fun h' => h (Option.some.inj h')
  rw [nextCommand, bind_ok (peek_cons c t), hd, bind_ok (check_true _)]
  rfl

theorem nextCommand_blanks {b : List Char} (hb : Blank b) (h0 : b ≠ []) :
    nextCommand held (ofText b) = .ok (some held,⟨[],true,true⟩) := by
  obtain ⟨c, b, rfl⟩ := List.exists_cons_of_ne_nil h0
  have hc : c ≠ '\x00' := by
    rintro rfl
    exact absurd (hb _ List.mem_cons_self) (by decide)
  rw [nextCommand_cons held hc, bind_ok (extractChar_blanks held hb)]
  rfl

theorem nextCommand_found {b : List Char} (hb : Blank b) {c : Char} (hc : isspace c = false)
    (h0 : c ≠ '\x00' ∨ b ≠ []) (t : List Char) :
    nextCommand held (ofText (b ++ c :: t)) = .ok (some c,ofText t) := by
  have hread := extractChar_found held hb hc t
  cases b with
  | nil =>
    rw [List.nil_append, nextCommand_cons held (h0.resolve_right fun h => h rfl)]
    exact (bind_ok hread).trans rfl
  | cons x b =>
    have hx : x ≠ '\x00' := by
      rintro rfl
      exact absurd (hb _ List.mem_cons_self) (by decide)
    rw [List.cons_append, nextCommand_cons held hx]
    exact (bind_ok hread).trans rfl

/-- Behind a pipe the message ends, or only blanks follow, or blanks and a command, or a NUL. -/
theorem nextCommand_cases (t : List Char) :
    t = [] ∨ (Blank t ∧ t ≠ []) ∨
      (∃ b c u, t = b ++ c :: u ∧ Blank b ∧ isspace c = false ∧
        nextCommand held (ofText t) = .ok (some c,ofText u)) ∨
      nextCommand held (ofText t) = .error .rejects := by
  by_cases h0 : t = []
  · exact Or.inl h0
  · obtain h | ⟨b, c, u, rfl, hb, hc⟩ := split_blanks t
    · exact Or.inr (Or.inl ⟨h, h0⟩)
    · by_cases hn : c ≠ '\x00' ∨ b ≠ []
      · exact Or.inr (Or.inr (Or.inl ⟨b, c, u, rfl, hb, hc, nextCommand_found held hb hc hn u⟩))
      · push Not at hn
        obtain ⟨rfl, rfl⟩ := hn
        exact Or.inr (Or.inr (Or.inr rfl))

end Command

/-! ## What the loop comes to -/

variable (st : Stores) (held : Char)

def Comes (p : Progress) (iss : Istringstream) (x : Except Stop Unit) : Prop :=
  Settles (fun fuel => (loop st held fuel p iss).map fun _ => ()) x

/-- The check ends without accepting the message. -/
def Fails (p : Progress) (iss : Istringstream) : Prop :=
  ∃ e, e ≠ Stop.hangs ∧ Comes st held p iss (.error e)

variable {st held} {p : Progress} {iss : Istringstream}

theorem loop_ended (h : iss.eof = true) (fuel : Nat) :
    loop st held (fuel + 1) p iss = check (p.position = 0) iss := by
  rw [loop, bind_ok (rfl : atEnd iss = .ok (iss.eof,iss)), h]
  rfl

theorem loop_turn (h : iss.eof = false) (fuel : Nat) :
    loop st held (fuel + 1) p iss =
      (turn st held fuel p >>= fun next =>
        match next with
        | none => check (p.position = 0)
        | some p => loop st held fuel p) iss := by
  rw [loop, bind_ok (rfl : atEnd iss = .ok (iss.eof,iss)), h]
  rfl

def answer (p : Progress) : Except Stop Unit :=
  if p.position = 0 then .ok () else .error .rejects

theorem check_answer (iss : Istringstream) :
    (check (p.position = 0) iss).map (fun _ => ()) = answer p := by
  unfold answer
  by_cases h : p.position = 0
  · rw [decide_eq_true h, if_pos h]
    rfl
  · rw [decide_eq_false h, if_neg h]
    rfl

theorem comes_ended (h : iss.eof = true) : Comes st held p iss (answer p) := by
  refine Settles.of_succ (k := 0) fun fuel _ => ?_
  rw [loop_ended h, check_answer]

theorem comes_break (h : iss.eof = false) {iss' : Istringstream}
    (ht : ∀ fuel, turn st held fuel p iss = .ok (none,iss')) : Comes st held p iss (answer p) := by
  refine Settles.of_succ (k := 0) fun fuel _ => ?_
  rw [loop_turn h, bind_ok (ht fuel)]
  exact check_answer iss'

theorem comes_error (h : iss.eof = false) {e : Stop}
    (ht : Settles (fun fuel => turn st held fuel p iss) (.error e)) :
    Comes st held p iss (.error e) := by
  obtain ⟨enough, ht⟩ := ht
  refine Settles.of_succ (k := enough) fun fuel hf => ?_
  rw [loop_turn h, bind_error (ht fuel hf)]
  rfl

theorem comes_step (h : iss.eof = false) {p' : Progress} {iss' : Istringstream}
    (ht : Settles (fun fuel => turn st held fuel p iss) (.ok (some p',iss')))
    {x : Except Stop Unit} : Comes st held p iss x ↔ Comes st held p' iss' x := by
  obtain ⟨enough, ht⟩ := ht
  refine Settles.shift (k := enough) fun fuel hf => ?_
  rw [loop_turn h, bind_ok (ht fuel hf)]

/-! ## The commands -/

section Commands

variable (st) (fuel : Nat) (color : UInt32) (link : Option ChatLink) (iss : Istringstream)

def commandTurn (p : Progress) (c : Char) : Reader Istringstream (Option Progress) := do
  let p ← advance (enter p) c
  let p ← payload st fuel p c
  pure (some p)

theorem commandTurn_pipe :
    commandTurn st fuel ⟨0,color,link⟩ '|' iss = .ok (some ⟨0,color,none⟩,iss) := rfl

theorem commandTurn_color :
    commandTurn st fuel ⟨0,color,link⟩ 'c' iss =
      (readHex 8 >>= fun color => pure (some ⟨1,color,none⟩)) iss := by
  have ha : advance (enter ⟨0,color,link⟩) 'c' iss = .ok (⟨1,color,none⟩,iss) := rfl
  refine (bind_ok ha).trans ?_
  cases hr : readHex 8 iss with
  | error e => exact (bind_error (bind_error hr)).trans (bind_error hr).symm
  | ok r =>
    obtain ⟨color', iss'⟩ := r
    refine (bind_ok (bind_ok hr)).trans ?_
    rw [bind_ok hr]

theorem commandTurn_link :
    commandTurn st fuel ⟨1,color,link⟩ 'H' iss =
      (readLink st fuel ⟨2,color,link⟩ >>= fun p => pure (some p)) iss := rfl

theorem commandTurn_caption :
    commandTurn st fuel ⟨2,color,link⟩ 'h' iss =
      (readCaption st ⟨3,color,link⟩ >>= fun p => pure (some p)) iss := rfl

theorem commandTurn_closing :
    commandTurn st fuel ⟨3,color,link⟩ 'h' iss = .ok (some ⟨4,color,link⟩,iss) := rfl

theorem commandTurn_end :
    commandTurn st fuel ⟨4,color,link⟩ 'r' iss = .ok (some ⟨0,color,link⟩,iss) := rfl

theorem enter_position (p : Progress) : (enter p).position = p.position := by
  unfold enter
  split <;> rfl

theorem commandTurn_wrong {p : Progress} {c : Char} (h1 : c = '|' → p.position ≠ 0)
    (h2 : c ≠ '|' → c ≠ validSequence p.position) :
    commandTurn st fuel p c iss = .error .rejects := by
  apply bind_error
  unfold advance
  rw [enter_position]
  by_cases hc : c = pipeChar
  · rw [if_neg (fun h => h hc), if_pos (h1 hc)]
    rfl
  · rw [if_pos hc, if_neg (h2 hc)]
    rfl

end Commands

/-! ## One turn -/

section Turn

variable (st) (held) (p)

theorem turn_command {l t : List Char} (hl : Opening p.position l) {c : Char}
    (hc : nextCommand held (ofText t) = .ok (some c,iss)) (fuel : Nat) :
    turn st held fuel p (ofText (l ++ t)) = commandTurn st fuel p c iss := by
  rw [turn, bind_ok (approach_opening hl t), bind_ok hc]
  rfl

theorem turn_break {l : List Char} (hl : Opening p.position l) (fuel : Nat) :
    turn st held fuel p (ofText l) = .ok (none,⟨[],true,false⟩) := by
  have ha := approach_opening hl []
  rw [List.append_nil] at ha
  rw [turn, bind_ok ha, bind_ok (nextCommand_end held)]
  rfl

theorem turn_short (h0 : p.position = 0) {s : List Char} (hs : '|' ∉ s) (hlen : s.length < 255)
    (fuel : Nat) : turn st held fuel p (ofText s) = .ok (none,⟨[],true,true⟩) := by
  have ha : approach p.position (ofText s) = .ok ((),⟨[],true,false⟩) := by
    rw [approach, if_pos h0, ignore, if_pos (good_ofText _), rest_ofText, pipeChar,
      ignoreText_short hs hlen]
  rw [turn, bind_ok ha, bind_ok (nextCommand_dead held)]
  rfl

end Turn

def PlainEnd (s : List Char) : Prop := '|' ∉ s ∧ s.length ≤ 255

def LonePipe (s : List Char) : Prop := ∃ p, s = p ++ ['|'] ∧ '|' ∉ p ∧ p.length ≤ 254

variable (st held) in
/-- In front of a command there is an opening, or the message ends, or it is not accepted. -/
theorem comes_cases (p : Progress) (s : List Char) :
    (∃ l b c u, Opening p.position l ∧ Blank b ∧ isspace c = false ∧ s = l ++ (b ++ c :: u) ∧
        ∀ fuel, turn st held fuel p (ofText s) = commandTurn st fuel p c (ofText u)) ∨
      (∃ l b, Opening p.position l ∧ Blank b ∧ b ≠ [] ∧ s = l ++ b) ∨
      (p.position = 0 ∧ (PlainEnd s ∨ LonePipe s)) ∨
      Fails st held p (ofText s) := by
  have fails {s : List Char}
      (h : ∀ fuel, turn st held fuel p (ofText s) = .error .rejects) :
      Fails st held p (ofText s) :=
    ⟨.rejects, nofun, comes_error rfl (Settles.const h)⟩
  obtain ⟨l, t, hl, rfl⟩ | ⟨h0, hs, hlen, -⟩ | ⟨-, -, ha⟩ := approach_cases p.position s
  · obtain rfl | ⟨ht, ht0⟩ | ⟨b, c, u, rfl, hb, hc, hn⟩ | hn := nextCommand_cases held t
    · rw [List.append_nil]
      obtain ⟨h0, hl | hl⟩ | ⟨h0, rfl⟩ := hl
      · exact Or.inr (Or.inr (Or.inl ⟨h0, Or.inr hl⟩))
      · exact Or.inr (Or.inr (Or.inl ⟨h0, Or.inl ⟨hl.1, hl.2.le⟩⟩))
      · refine Or.inr (Or.inr (Or.inr ⟨.rejects, nofun, ?_⟩))
        have hb := comes_break rfl (turn_break st held p (Or.inr ⟨h0, rfl⟩))
        rwa [answer, if_neg h0] at hb
    · exact Or.inr (Or.inl ⟨l, t, hl, ht, ht0, rfl⟩)
    · exact Or.inl ⟨l, b, c, u, hl, hb, hc, rfl, turn_command st held p hl hn⟩
    · refine Or.inr (Or.inr (Or.inr (fails fun fuel => ?_)))
      rw [turn, bind_ok (approach_opening hl t), bind_error hn]
  · exact Or.inr (Or.inr (Or.inl ⟨h0, Or.inl ⟨hs, hlen.le⟩⟩))
  · refine Or.inr (Or.inr (Or.inr (fails fun fuel => ?_)))
    rw [turn, bind_error ha]

theorem comes_plain (h0 : p.position = 0) {s : List Char} (hs : PlainEnd s ∨ LonePipe s) :
    Comes st held p (ofText s) (.ok ()) := by
  have hok : answer p = .ok () := if_pos h0
  rw [← hok]
  by_cases hlead : Lead s
  · exact comes_break rfl (turn_break st held p (Or.inl ⟨h0, hlead⟩))
  · obtain ⟨hs, hlen⟩ | hs := hs
    · have hlt : s.length < 255 := lt_of_le_of_ne hlen fun h => hlead (Or.inr ⟨hs, h⟩)
      exact comes_break rfl (turn_short st held p h0 hs hlt)
    · exact absurd (Or.inl hs) hlead

/-! ## Blanks behind the last pipe -/

/-- The command character, never set, happens to be the one that closes the message. -/
def Unset (held : Char) (position : Fin 5) : Prop :=
  (position = 0 ∧ held = '|') ∨ (position = 4 ∧ held = 'r')

theorem position_cases : ∀ position : Fin 5,
    position = 0 ∨ position = 1 ∨ position = 2 ∨ position = 3 ∨ position = 4 := by
  decide

theorem comes_blanks {l b : List Char} (hl : Opening p.position l) (hb : Blank b) (h0 : b ≠ [])
    (hu : Unset held p.position) : Comes st held p (ofText (l ++ b)) (.ok ()) := by
  obtain ⟨position, color, link⟩ := p
  have hturn := turn_command st held ⟨position,color,link⟩ hl (nextCommand_blanks held hb h0)
  obtain ⟨rfl, rfl⟩ | ⟨rfl, rfl⟩ := hu
  · exact (comes_step rfl (Settles.const fun fuel =>
      (hturn fuel).trans (commandTurn_pipe st fuel color link _))).mpr (comes_ended rfl)
  · exact (comes_step rfl (Settles.const fun fuel =>
      (hturn fuel).trans (commandTurn_end st fuel color link _))).mpr (comes_ended rfl)

theorem fails_blanks {l b : List Char} (hl : Opening p.position l) (hb : Blank b) (h0 : b ≠ [])
    (hu : ¬Unset held p.position) : Fails st held p (ofText (l ++ b)) := by
  obtain ⟨position, color, link⟩ := p
  have hturn := turn_command st held ⟨position,color,link⟩ hl (nextCommand_blanks held hb h0)
  have rejects (h : ∀ fuel, commandTurn st fuel ⟨position,color,link⟩ held ⟨[],true,true⟩ =
      .error .rejects) : Fails st held ⟨position,color,link⟩ (ofText (l ++ b)) :=
    ⟨.rejects, nofun, comes_error rfl (Settles.const fun fuel => (hturn fuel).trans (h fuel))⟩
  by_cases hp : held = '|'
  · exact rejects fun fuel => commandTurn_wrong st fuel _
      (fun _ h => hu (Or.inl ⟨h, hp⟩)) (fun h => absurd hp h)
  · by_cases hv : held = validSequence position
    · obtain rfl | rfl | rfl | rfl | rfl := position_cases position
      · subst hv
        exact rejects fun _ => rfl
      · subst hv
        exact rejects fun _ => rfl
      · subst hv
        exact rejects fun _ => rfl
      · subst hv
        exact ⟨.rejects, nofun, (comes_step rfl (Settles.const fun fuel =>
          (hturn fuel).trans (commandTurn_closing st fuel color link _))).mpr (comes_ended rfl)⟩
      · exact absurd (Or.inr ⟨rfl, hv⟩) hu
    · exact rejects fun fuel => commandTurn_wrong st fuel _ (fun h => absurd h hp) (fun _ => hv)

/-! ## From place to place -/

section Places

variable {color : UInt32} {link : Option ChatLink} {x : Except Stop Unit}

theorem turn_place {position : Fin 5} (h0 : position ≠ 0) {b : List Char} (hb : Blank b) {c : Char}
    (hc : isspace c = false) (hn : c ≠ '\x00') (t : List Char) (fuel : Nat) :
    turn st held fuel ⟨position,color,link⟩ (ofText ('|' :: (b ++ c :: t))) =
      commandTurn st fuel ⟨position,color,link⟩ c (ofText t) :=
  turn_command st held ⟨position,color,link⟩ (Or.inr ⟨h0, rfl⟩)
    (nextCommand_found held hb hc (Or.inl hn) t) fuel

theorem comes_escape {l b : List Char} (hl : Lead l) (hb : Blank b) (t : List Char) :
    Comes st held ⟨0,color,link⟩ (ofText (l ++ (b ++ '|' :: t))) x ↔
      Comes st held ⟨0,color,none⟩ (ofText t) x := by
  have hn := nextCommand_found held hb (c := '|') (by decide) (Or.inl (by decide)) t
  exact comes_step rfl (Settles.const fun fuel =>
    (turn_command st held _ (Or.inl ⟨rfl, hl⟩) hn fuel).trans
      (commandTurn_pipe st fuel color link _))

/-- The text is read as the colour of a link: eight characters that make a number. -/
def TakesColor (ct : List Char) (color : UInt32) : Prop :=
  '|' ∉ ct ∧ readHex 8 (ofText (ct ++ ['|'])) = .ok (color,ofText ['|'])

theorem comes_color {l b ct : List Char} {color' : UInt32} (hl : Lead l) (hb : Blank b)
    (hc : TakesColor ct color') (t : List Char) :
    Comes st held ⟨0,color,link⟩ (ofText (l ++ (b ++ 'c' :: (ct ++ '|' :: t)))) x ↔
      Comes st held ⟨1,color',none⟩ (ofText ('|' :: t)) x := by
  have hn := nextCommand_found held hb (c := 'c') (by decide) (Or.inl (by decide))
    (ct ++ '|' :: t)
  have hr := (tame_readHex 8).blind_ok ofText_injective hc.1 hc.2 t
  exact comes_step rfl (Settles.const fun fuel =>
    (turn_command st held _ (Or.inl ⟨rfl, hl⟩) hn fuel).trans
      ((commandTurn_color st fuel color link _).trans (bind_ok hr)))

theorem comes_closing {b : List Char} (hb : Blank b) (t : List Char) :
    Comes st held ⟨3,color,link⟩ (ofText ('|' :: (b ++ 'h' :: t))) x ↔
      Comes st held ⟨4,color,link⟩ (ofText t) x :=
  comes_step rfl (Settles.const fun fuel =>
    (turn_place (by decide) hb (by decide) (by decide) t fuel).trans
      (commandTurn_closing st fuel color link _))

theorem comes_end {b : List Char} (hb : Blank b) (t : List Char) :
    Comes st held ⟨4,color,link⟩ (ofText ('|' :: (b ++ 'r' :: t))) x ↔
      Comes st held ⟨0,color,link⟩ (ofText t) x :=
  comes_step rfl (Settles.const fun fuel =>
    (turn_place (by decide) hb (by decide) (by decide) t fuel).trans
      (commandTurn_end st fuel color link _))

theorem linkTypeOf_name (type : LinkType) : linkTypeOf type.name = some type := by
  cases type <;> rfl

theorem linkTypeOf_eq {buffer : List Char} {type : LinkType} (h : linkTypeOf buffer = some type) :
    buffer = type.name := by
  have hf := List.find?_some h
  exact (of_decide_eq_true hf).symm

theorem name_short (type : LinkType) : DELIMITER ∉ type.name ∧ type.name.length ≤ 11 := by
  cases type <;> decide

variable (st p) in
theorem readLink_name (fuel : Nat) (type : LinkType) (y : List Char) :
    readLink st fuel p (ofText (type.name ++ ':' :: y)) =
      (initializeFrom st p.color fuel type >>= fun link => pure { p with link := some link })
        (ofText y) := by
  have hg := getline_found 256 (name_short type).1 ((name_short type).2.trans (by decide))
    y
  refine (bind_ok hg).trans ((bind_ok rfl).trans ((bind_ok (check_true _)).trans ?_))
  rw [linkTypeOf_name]
  exact bind_ok rfl

theorem turn_link {b : List Char} (hb : Blank b) (type : LinkType) (y : List Char) (fuel : Nat) :
    turn st held fuel ⟨1,color,link⟩ (ofText ('|' :: (b ++ 'H' :: (type.name ++ ':' :: y)))) =
      (initializeFrom st color fuel type >>= fun link => pure (some ⟨2,color,some link⟩))
        (ofText y) := by
  refine (turn_place (by decide) hb (by decide) (by decide) _ fuel).trans ?_
  rw [commandTurn_link]
  have hr := readLink_name st ⟨2,color,link⟩ fuel type y
  cases hi : initializeFrom st color fuel type (ofText y) with
  | error e => rw [bind_error hi, bind_error (hr.trans (bind_error hi))]
  | ok r =>
    obtain ⟨link', iss⟩ := r
    rw [bind_ok hi, bind_ok (hr.trans (bind_ok hi))]

theorem comes_link {b d : List Char} {type : LinkType} {link' : ChatLink} (hb : Blank b)
    (hd : TakesData st color type d link') (t : List Char) :
    Comes st held ⟨1,color,link⟩
        (ofText ('|' :: (b ++ 'H' :: (type.name ++ ':' :: (d ++ '|' :: t))))) x ↔
      Comes st held ⟨2,color,some link'⟩ (ofText ('|' :: t)) x := by
  obtain ⟨enough, hr⟩ := hd.reads t
  exact comes_step rfl ⟨enough, fun fuel hf =>
    (turn_link hb type _ fuel).trans (bind_ok (hr fuel hf))⟩

theorem comes_open {b y : List Char} (hb : Blank b) (hy : OpenData st color y) :
    Comes st held ⟨1,color,link⟩
      (ofText ('|' :: (b ++ 'H' :: (LinkType.trade.name ++ ':' :: y)))) (.error .hangs) :=
  comes_error rfl (Settles.const fun fuel =>
    (turn_link hb .trade y fuel).trans (bind_error (initializeFrom_open st color hy fuel)))

def TakesCaption (st : Stores) (link : ChatLink) (cap : List Char) : Prop :=
  ']' ∉ cap ∧ cap.length ≤ 255 ∧ validateName st link cap = .ok true

theorem validateCaption_apply (link : ChatLink) (cap : List Char) (iss : Istringstream) :
    validateCaption st link cap iss = match validateName st link cap with
      | .ok true => .ok ((),iss)
      | .ok false => .error .rejects
      | .error e => .error e := rfl

theorem comes_caption {b cap : List Char} {link' : ChatLink} (hb : Blank b)
    (hc : TakesCaption st link' cap) (t : List Char) :
    Comes st held ⟨2,color,some link'⟩ (ofText ('|' :: (b ++ 'h' :: '[' :: (cap ++ ']' :: t)))) x ↔
      Comes st held ⟨3,color,some link'⟩ (ofText t) x := by
  have hg := getline_found 256 hc.1 hc.2.1 t
  have hv : validateCaption st link' cap (ofText t) = .ok ((),ofText t) := by
    rw [validateCaption_apply, hc.2.2]
  have hr : readCaption st ⟨3,color,some link'⟩ (ofText ('[' :: (cap ++ ']' :: t))) =
      .ok (⟨3,color,some link'⟩,ofText t) := by
    refine (bind_ok (get_cons _ _)).trans ((bind_ok (check_true _)).trans ((bind_ok hg).trans ?_))
    refine (bind_ok rfl).trans ((bind_ok (check_true _)).trans ?_)
    have hf : found (some link') (ofText t) = .ok (link',ofText t) := rfl
    exact (bind_ok hf).trans ((bind_ok hv).trans rfl)
  exact comes_step rfl (Settles.const fun fuel =>
    (turn_place (by decide) hb (by decide) (by decide) _ fuel).trans
      ((commandTurn_caption st fuel color _ _).trans (bind_ok hr)))

/-! ## What can stand at each place -/

theorem fails_away {p : Progress} (h0 : p.position ≠ 0) {z : List Char} (hz : ∀ w, z ≠ '|' :: w) :
    Fails st held p (ofText z) := by
  obtain ⟨l, t, ⟨h, -⟩ | ⟨-, rfl⟩, rfl⟩ | ⟨h, -⟩ | ⟨-, -, ha⟩ := approach_cases p.position z
  · exact absurd h h0
  · exact absurd rfl (hz t)
  · exact absurd h h0
  · refine ⟨.rejects, nofun, comes_error rfl (Settles.const fun fuel => ?_)⟩
    rw [turn, bind_error ha]

theorem fails_turn {p : Progress} {iss : Istringstream} (h : iss.eof = false)
    (ht : ∀ fuel, turn st held fuel p iss = .error .rejects) : Fails st held p iss :=
  ⟨.rejects, nofun, comes_error h (Settles.const ht)⟩

theorem fails_failed {p : Progress} (h0 : p.position ≠ 0) {iss : Istringstream}
    (he : iss.eof = false) (hf : iss.fail = true) : Fails st held p iss := by
  have hg : iss.good = false := by simp [good, hf]
  have ha : approach p.position iss = .error .rejects := by
    rw [approach, if_neg h0]
    have hget : Istringstream.get iss = .ok (none,{ iss with fail := true }) := by
      rw [Istringstream.get, hg]
      rfl
    exact (bind_ok hget).trans rfl
  refine fails_turn he fun fuel => ?_
  rw [turn, bind_error ha]

theorem Fails.of_step {p p' : Progress} {iss iss' : Istringstream} (h : iss.eof = false)
    (ht : Settles (fun fuel => turn st held fuel p iss) (.ok (some p',iss')))
    (hf : Fails st held p' iss') : Fails st held p iss := by
  obtain ⟨e, he, hc⟩ := hf
  exact ⟨e, he, (comes_step h ht).mpr hc⟩

variable (st held color link) in
/-- Inside a link stand a pipe, blanks and the command of the place, or the check fails; only behind
the last pipe of a link blanks to the end may pass. -/
theorem place_cases {position : Fin 5} (h0 : position ≠ 0) (s : List Char) :
    (∃ b t, Blank b ∧ s = '|' :: (b ++ validSequence position :: t)) ∨
      (Unset held position ∧ ∃ b, Blank b ∧ b ≠ [] ∧ s = '|' :: b) ∨
      Fails st held ⟨position,color,link⟩ (ofText s) := by
  have hl {l : List Char} (h : Opening position l) : l = ['|'] :=
    h.elim (fun h => absurd h.1 h0) fun h => h.2
  obtain ⟨l, b, c, u, ho, hb, hc, rfl, ht⟩ | ⟨l, b, ho, hb, hb0, rfl⟩ | ⟨h, -⟩ | h :=
    comes_cases st held ⟨position,color,link⟩ s
  · cases hl ho
    by_cases hv : c = validSequence position
    · exact Or.inl ⟨b, u, hb, by rw [hv]; rfl⟩
    · refine Or.inr (Or.inr (fails_turn rfl fun fuel => ?_))
      rw [ht fuel]
      exact commandTurn_wrong st fuel _ (fun _ => h0) (fun _ => hv)
  · by_cases hu : Unset held position
    · cases hl ho
      exact Or.inr (Or.inl ⟨hu, b, hb, hb0, rfl⟩)
    · exact Or.inr (Or.inr (fails_blanks ho hb hb0 hu))
  · exact absurd h h0
  · exact Or.inr (Or.inr h)

theorem not_unset {position : Fin 5} (h0 : position ≠ 0) (h4 : position ≠ 4) :
    ¬Unset held position := by
  rintro (⟨h, -⟩ | ⟨h, -⟩)
  · exact h0 h
  · exact h4 h

theorem readLink_none (fuel : Nat) {t buffer : List Char} {iss : Istringstream}
    (hg : getline 256 DELIMITER (ofText t) = .ok (buffer,iss))
    (h : iss.eof = true ∨ linkTypeOf buffer = none) :
    readLink st fuel p (ofText t) = .error .rejects := by
  refine (bind_ok hg).trans ((bind_ok (rfl : atEnd iss = .ok (iss.eof,iss))).trans ?_)
  cases he : iss.eof with
  | true => exact bind_error (check_false iss)
  | false =>
    refine (bind_ok (check_true iss)).trans ?_
    rw [h.resolve_left (by simp [he])]
    exact bind_error rfl

theorem fails_readLink {b t : List Char} (hb : Blank b)
    (h : ∀ fuel, readLink st fuel ⟨2,color,link⟩ (ofText t) = .error .rejects) :
    Fails st held ⟨1,color,link⟩ (ofText ('|' :: (b ++ 'H' :: t))) := by
  refine fails_turn rfl fun fuel => ?_
  rw [turn_place (by decide) hb (by decide) (by decide), commandTurn_link, bind_error (h fuel)]

variable (st held color link) in
/-- Behind the H stand a link type and data that it takes up to a pipe, or a trade link that is open
to the end, or the check fails. -/
theorem link_cases (s : List Char) :
    (∃ b type d link' t, Blank b ∧ TakesData st color type d link' ∧
        s = '|' :: (b ++ 'H' :: (type.name ++ ':' :: (d ++ '|' :: t)))) ∨
      (∃ b y, Blank b ∧ OpenData st color y ∧
        s = '|' :: (b ++ 'H' :: (LinkType.trade.name ++ ':' :: y))) ∨
      Fails st held ⟨1,color,link⟩ (ofText s) := by
  obtain ⟨b, t, hb, rfl⟩ | ⟨hu, -⟩ | hf :=
    place_cases st held color link (show (1 : Fin 5) ≠ 0 by decide) s
  · obtain ⟨buffer, y, rfl, hd, hlen⟩ | ⟨buffer, iss, hg, hbits⟩ := getline_cases 256 DELIMITER t
    · cases htype : linkTypeOf buffer with
      | none =>
        have hg := getline_found 256 hd hlen y
        exact Or.inr (Or.inr (fails_readLink hb fun fuel => readLink_none fuel hg (Or.inr htype)))
      | some type =>
        obtain rfl := linkTypeOf_eq htype
        obtain ⟨d, t, link', rfl, hdata⟩ | ⟨rfl, hopen⟩ | ⟨r, hr, ⟨enough, he⟩, haway⟩ :=
          initializeFrom_cases st color type y
        · exact Or.inl ⟨b, type, d, link', t, hb, hdata, rfl⟩
        · exact Or.inr (Or.inl ⟨b, y, hb, hopen, rfl⟩)
        · refine Or.inr (Or.inr ?_)
          cases r with
          | error e =>
            refine ⟨e, fun h => hr (by rw [h]), comes_error rfl ⟨enough, fun fuel hf => ?_⟩⟩
            exact (turn_link hb type y fuel).trans (bind_error (he fuel hf))
          | ok r =>
            obtain ⟨link', iss⟩ := r
            obtain ⟨z, rfl, hz⟩ := haway link' iss rfl
            refine Fails.of_step rfl ⟨enough, fun fuel hf => ?_⟩
              (fails_away (p := ⟨2,color,some link'⟩) (show (2 : Fin 5) ≠ 0 by decide) hz)
            exact (turn_link hb type y fuel).trans (bind_ok (he fuel hf))
    · refine Or.inr (Or.inr (fails_readLink hb fun fuel => readLink_none fuel hg ?_))
      obtain he | ⟨-, -, hlen⟩ := hbits
      · exact Or.inl he
      · right
        cases htype : linkTypeOf buffer with
        | none => rfl
        | some type =>
          rw [linkTypeOf_eq htype] at hlen
          have hshort := (name_short type).2
          omega
  · exact absurd hu (not_unset (by decide) (by decide))
  · exact Or.inr (Or.inr hf)

theorem movePast_ne_hangs (length : Nat) (buffer : List Char) :
    movePast length buffer ≠ .error .hangs := by
  unfold movePast
  split_ifs <;> exact nofun

theorem validateName_ne_hangs (st : Stores) (link : ChatLink) (buffer : List Char) :
    validateName st link buffer ≠ .error .hangs := by
  have hspell (spell : SpellInfo) : SpellChatLink.validateName st spell buffer ≠ .error .hangs := by
    unfold SpellChatLink.validateName
    split_ifs
    · cases skillLineOf st spell with
      | none => exact nofun
      | some skillLine =>
        dsimp only
        cases hd : dropProfession skillLine.name buffer with
        | ok buffer' => exact nofun
        | error e =>
          intro h
          cases h
          unfold dropProfession at hd
          split at hd
          · exact movePast_ne_hangs _ _ hd
          · cases hd
    · exact nofun
  cases link with
  | item item props => exact nofun
  | quest quest level => exact nofun
  | achievement guid achievement data => exact nofun
  | spell spell => exact hspell spell
  | trade spell _ _ _ _ => exact hspell spell
  | talent _ _ spell => exact hspell spell
  | enchant spell => exact hspell spell
  | glyph _ _ spell => exact hspell spell

variable (st color) in
theorem readCaption_buffer (link' : ChatLink) {t buffer : List Char} {iss : Istringstream}
    (hg : getline 256 ']' (ofText t) = .ok (buffer,iss)) (he : iss.eof = false) :
    readCaption st ⟨3,color,some link'⟩ (ofText ('[' :: t)) =
      (validateCaption st link' buffer >>= fun _ => pure ⟨3,color,some link'⟩) iss := by
  refine (bind_ok (get_cons _ _)).trans ((bind_ok (check_true _)).trans ((bind_ok hg).trans ?_))
  refine (bind_ok (rfl : atEnd iss = .ok (iss.eof,iss))).trans ?_
  rw [he]
  have hf : found (some link') iss = .ok (link',iss) := rfl
  exact (bind_ok (check_true _)).trans (bind_ok hf)

variable (st held color) in
theorem caption_cases (link' : ChatLink) (s : List Char) :
    (∃ b cap t, Blank b ∧ TakesCaption st link' cap ∧
        s = '|' :: (b ++ 'h' :: '[' :: (cap ++ ']' :: t))) ∨
      Fails st held ⟨2,color,some link'⟩ (ofText s) := by
  obtain ⟨b, t, hb, rfl⟩ | ⟨hu, -⟩ | hf :=
    place_cases st held color (some link') (show (2 : Fin 5) ≠ 0 by decide) s
  · have hturn (fuel : Nat) :
        turn st held fuel ⟨2,color,some link'⟩ (ofText ('|' :: (b ++ 'h' :: t))) =
          (readCaption st ⟨3,color,some link'⟩ >>= fun p => pure (some p)) (ofText t) :=
      (turn_place (by decide) hb (by decide) (by decide) t fuel).trans
        (commandTurn_caption st fuel color _ _)
    have refused {e : Stop} (he : e ≠ .hangs)
        (h : readCaption st ⟨3,color,some link'⟩ (ofText t) = .error e) :
        Fails st held ⟨2,color,some link'⟩ (ofText ('|' :: (b ++ 'h' :: t))) :=
      ⟨e, he, comes_error rfl (Settles.const fun fuel => (hturn fuel).trans (bind_error h))⟩
    cases t with
    | nil => exact Or.inr (refused (e := .rejects) nofun rfl)
    | cons c t =>
      by_cases hc : c = '['
      · subst hc
        have judged {buffer : List Char} {iss : Istringstream}
            (hg : getline 256 ']' (ofText t) = .ok (buffer,iss)) (he : iss.eof = false) :
            validateName st link' buffer = .ok true ∨
              Fails st held ⟨2,color,some link'⟩ (ofText ('|' :: (b ++ 'h' :: '[' :: t))) := by
          have hr := readCaption_buffer st color link' hg he
          cases hv : validateName st link' buffer with
          | error e =>
            refine Or.inr (refused (fun h => validateName_ne_hangs st link' buffer ?_)
              (hr.trans (bind_error (by rw [validateCaption_apply, hv]))))
            rw [hv, h]
          | ok accepted =>
            cases accepted with
            | true => exact Or.inl rfl
            | false =>
              exact Or.inr (refused (e := .rejects) nofun
                (hr.trans (bind_error (by rw [validateCaption_apply, hv]))))
        obtain ⟨cap, t, rfl, hd, hlen⟩ | ⟨buffer, iss, hg, he | ⟨he, hfail, -⟩⟩ :=
          getline_cases 256 ']' t
        · obtain hv | hf := judged (getline_found 256 hd hlen t) rfl
          · exact Or.inl ⟨b, cap, t, hb, ⟨hd, hlen, hv⟩, rfl⟩
          · exact Or.inr hf
        · refine Or.inr (refused (e := .rejects) nofun ?_)
          refine (bind_ok (get_cons _ _)).trans ((bind_ok (check_true _)).trans
            ((bind_ok hg).trans ?_))
          refine (bind_ok (rfl : atEnd iss = .ok (iss.eof,iss))).trans ?_
          rw [he]
          exact bind_error (check_false iss)
        · obtain hv | hf := judged hg he
          · have hr := readCaption_buffer st color link' hg he
            have hvc : validateCaption st link' buffer iss = .ok ((),iss) := by
              rw [validateCaption_apply, hv]
            exact Or.inr (Fails.of_step rfl
              (Settles.const fun fuel => (hturn fuel).trans (bind_ok (hr.trans (bind_ok hvc))))
              (fails_failed (p := ⟨3,color,some link'⟩) (show (3 : Fin 5) ≠ 0 by decide) he hfail))
          · exact Or.inr hf
      · refine Or.inr (refused (e := .rejects) nofun ?_)
        have hd : decide (some c = some '[') = false :=
          decide_eq_false fun h => hc (Option.some.inj h)
        refine (bind_ok (get_cons c t)).trans ?_
        rw [hd]
        rfl
  · exact absurd hu (not_unset (by decide) (by decide))
  · exact Or.inr hf

variable (st held color link) in
/-- Outside a link stand an escaped pipe, or the colour of a link, or blanks to the end, or plain
text and at most a pipe, or the check fails. -/
theorem start_cases (s : List Char) :
    (∃ l b t, Lead l ∧ Blank b ∧ s = l ++ (b ++ '|' :: t)) ∨
      (∃ l b ct color' t, Lead l ∧ Blank b ∧ TakesColor ct color' ∧
        s = l ++ (b ++ 'c' :: (ct ++ '|' :: t))) ∨
      (held = '|' ∧ ∃ l b, Lead l ∧ Blank b ∧ b ≠ [] ∧ s = l ++ b) ∨
      (PlainEnd s ∨ LonePipe s) ∨
      Fails st held ⟨0,color,link⟩ (ofText s) := by
  have lead {l : List Char} (h : Opening 0 l) : Lead l := by
    obtain ⟨-, h⟩ | ⟨h, -⟩ := h
    · exact h
    · exact absurd rfl h
  obtain ⟨l, b, c, u, hl, hb, hc, rfl, ht⟩ | ⟨l, b, hl, hb, hb0, rfl⟩ | ⟨-, hp⟩ | hf :=
    comes_cases st held ⟨0,color,link⟩ s
  · by_cases hpipe : c = '|'
    · subst hpipe
      exact Or.inl ⟨l, b, u, lead hl, hb, rfl⟩
    · by_cases hcolor : c = 'c'
      · subst hcolor
        have hturn (fuel : Nat) := (ht fuel).trans (commandTurn_color st fuel color link _)
        cases hr : readHex 8 (ofText u) with
        | error e =>
          refine Or.inr (Or.inr (Or.inr (Or.inr ⟨e, fun h => ?_, ?_⟩)))
          · exact (tame_readHex 8).ends u (by rw [hr, h])
          · exact comes_error rfl (Settles.const fun fuel => (hturn fuel).trans (bind_error hr))
        | ok r =>
          obtain ⟨color', iss⟩ := r
          obtain ⟨ct, t, rfl, hct, hr'⟩ | ⟨z, rfl, hz⟩ :=
            (tame_readHex 8).mark_or_away ofText_injective hr
          · exact Or.inr (Or.inl ⟨l, b, ct, color', t, lead hl, hb, ⟨hct, hr' []⟩, rfl⟩)
          · exact Or.inr (Or.inr (Or.inr (Or.inr
              (Fails.of_step rfl (Settles.const fun fuel => (hturn fuel).trans (bind_ok hr))
                (fails_away (p := ⟨1,color',none⟩) (show (1 : Fin 5) ≠ 0 by decide) hz)))))
      · refine Or.inr (Or.inr (Or.inr (Or.inr (fails_turn rfl fun fuel => ?_))))
        rw [ht fuel]
        exact commandTurn_wrong st fuel _ (fun h => absurd h hpipe) (fun _ => hcolor)
  · by_cases hu : held = '|'
    · exact Or.inr (Or.inr (Or.inl ⟨hu, l, b, lead hl, hb, hb0, rfl⟩))
    · refine Or.inr (Or.inr (Or.inr (Or.inr (fails_blanks hl hb hb0 ?_))))
      rintro (⟨-, h⟩ | ⟨h, -⟩)
      · exact hu h
      · exact absurd h (show (0 : Fin 5) ≠ 4 by decide)
  · exact Or.inr (Or.inr (Or.inr (Or.inl hp)))
  · exact Or.inr (Or.inr (Or.inr (Or.inr hf)))

end Places

end LinkExtractor

end TrinityCore.Chat
