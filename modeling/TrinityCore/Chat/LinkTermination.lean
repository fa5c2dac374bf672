import TrinityCore.Chat.LinkTokens

set_option autoImplicit false

/-!
# Whether the check ends

Every reader of the check stops at the end of the message but one: the loop over the base64 data of
a trade link compares what it peeks with a pipe and with NUL, and the end of the stream is neither.
-/

namespace TrinityCore.Chat

open Reading Istringstream

namespace LinkExtractor

section Fuel

variable (st : Stores) (held : Char)

theorem below_payload (fuel : Nat) (p : Progress) (c : Char) :
    Below (payload st fuel p c) (payload st (fuel + 1) p c) := by
  unfold payload
  split_ifs
  · exact Below.refl _
  · refine (Below.refl _).bind fun _ => (Below.refl _).bind fun _ => (Below.refl _).bind fun _ =>
      (Below.refl _).bind fun type => ?_
    exact (mono_initializeFrom st p.color type fuel).bind fun _ => Below.refl _
  · exact Below.refl _
  · exact Below.refl _
  · exact Below.refl _
  · exact Below.refl _

theorem below_turn (fuel : Nat) (p : Progress) :
    Below (turn st held fuel p) (turn st held (fuel + 1) p) := by
  refine (Below.refl _).bind fun _ => (Below.refl _).bind fun c => ?_
  cases c with
  | none => exact Below.refl _
  | some c =>
    exact (Below.refl _).bind fun p => (below_payload st fuel p c).bind fun _ => Below.refl _

theorem mono_loop (p : Progress) : Mono fun fuel => loop st held fuel p := by
  intro fuel
  induction fuel generalizing p with
  | zero => exact Below.hangs _
  | succ fuel ih =>
    refine (Below.refl _).bind fun ended => ?_
    split_ifs
    · exact Below.refl _
    · refine (below_turn st held fuel p).bind fun next => ?_
      cases next with
      | none => exact Below.refl _
      | some p => exact ih p

variable {st held} {message : List Char}

theorem map_eq_hangs {α : Type} {x : Except Stop α} :
    x.map (fun _ => ()) = .error .hangs ↔ x = .error .hangs := by
  cases x with
  | error e =>
    constructor
    · intro h
      cases h
      rfl
    · intro h
      cases h
      rfl
  | ok a => exact ⟨nofun, nofun⟩

theorem isValidMessage_settles {fuel : Nat}
    (h : isValidMessage st held fuel message ≠ .error .hangs) :
    Comes st held ⟨0,0,none⟩ (ofText message) (isValidMessage st held fuel message) := by
  have hne : loop st held fuel ⟨0,0,none⟩ (ofText message) ≠ .error .hangs :=
    fun hh => h (map_eq_hangs.mpr hh)
  refine ⟨fuel, fun n hn => ?_⟩
  have hle := (mono_loop st held ⟨0,0,none⟩).le hne hn
  exact congrArg (fun x => x.map fun _ => ()) hle

end Fuel

variable (st : Stores) (held : Char) (message : List Char)

/-- With enough fuel the check comes to an answer, or the program goes down on the way. -/
def Terminates : Prop := ∃ fuel, isValidMessage st held fuel message ≠ .error .hangs

def Accepts : Prop := ∃ fuel, isValidMessage st held fuel message = .ok ()

/-- The check ends unless the message is tokens and then a trade link that is open to the end. -/
theorem terminates_iff_closed :
    Terminates st held message ↔ ¬Sentence (Token st) (OpenLink st) message := by
  constructor
  · rintro ⟨fuel, hne⟩ hs
    have hc : Comes st held ⟨0,0,none⟩ (ofText message) (.error .hangs) :=
      comes_of_sentence (fun e he color link => he.comes) hs 0 none
    exact hne ((isValidMessage_settles hne).unique hc)
  · intro hs
    by_contra h
    have hc : Comes st held ⟨0,0,none⟩ (ofText message) (.error .hangs) := by
      refine Settles.const fun fuel => ?_
      by_contra hne
      exact h ⟨fuel, hne⟩
    exact hs (sentence_of_comes (Or.inr rfl) (fun e _ => nofun) (fun e he _ => he) ⟨0, none, hc⟩)

/-! ## A link cut off -/

def spellsOnly : Stores where
  getItemTemplate _ := none
  getItemLocale _ := none
  itemRandomProperties _ := none
  itemRandomSuffix _ := none
  getQuestTemplate _ := none
  getQuestLocale _ := none
  getSpellInfo id := some ⟨id,0,fun _ => ['A']⟩
  getAchievement _ := none
  talent _ := none
  glyphProperties _ := none
  skillLineAbilities _ := []
  skillLine _ := none

def cutOff : List Char :=
  ['|','c','f','f','f','f','d','0','0','0','|','H','t','r','a','d','e',':','4','0','3','7',':','1',
    ':','1','5','0',':','1',':','6','A','A','A']

/-- A trade link that is cut off in its base64 data is read for ever. -/
theorem cutOff_never_ends :
    ¬∀ (st : Stores) (held : Char) (message : List Char), '\x00' ∉ message →
      Terminates st held message := by
  intro h
  obtain ⟨fuel, hne⟩ := h spellsOnly 'x' cutOff (by decide)
  have hlead : Lead ['|'] := Or.inl ⟨[], rfl, by decide, by decide⟩
  have hblank : Blank [] := nofun
  have hcolor : TakesColor ['f','f','f','f','d','0','0','0'] chatLinkColorTrade :=
    ⟨by decide, rfl⟩
  have hdata : OpenData spellsOnly chatLinkColorTrade
      ['4','0','3','7',':','1',':','1','5','0',':','1',':','6','A','A','A'] :=
    ⟨_, [':','6','A','A','A'], rfl, by decide, by decide⟩
  have hopen : OpenLink spellsOnly cutOff := .trade hlead hblank hcolor hblank hdata
  exact hne ((isValidMessage_settles hne).unique hopen.comes)

end LinkExtractor

end TrinityCore.Chat
