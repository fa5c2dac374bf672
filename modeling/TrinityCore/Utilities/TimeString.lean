import Mathlib

set_option autoImplicit false

namespace TrinityCore.Utilities

namespace TimeConstants

def minute : Nat := 60
def hour : Nat := minute*60
def day : Nat := hour*24

end TimeConstants

open TimeConstants

def component (isShown : Bool) (count : Nat) (text : String) : String :=
  if isShown then toString count ++ text else ""

def secsToTimeString (timeInSecs : UInt64) (shortText hoursOnly : Bool) : String :=
  let secs := timeInSecs.toNat % minute
  let minutes := timeInSecs.toNat % hour / minute
  let hours := timeInSecs.toNat % day / hour
  let days := timeInSecs.toNat / day
  component (days != 0) days (if shortText then "d" else " Day(s) ") ++
  component (hours != 0 || hoursOnly) hours (if shortText then "h" else " Hour(s) ") ++
  component (!hoursOnly && minutes != 0) minutes (if shortText then "m" else " Minute(s) ") ++
  component (!hoursOnly && (secs != 0 || (days == 0 && hours == 0 && minutes == 0))) secs
    (if shortText then "s" else " Second(s).")

structure TimeReader where
  secs : UInt32
  buffer : UInt32
  multiplier : UInt32
  deriving DecidableEq

def TimeReader.start : TimeReader := ⟨0,0,0⟩

def multiplierOf : Char → Option UInt32
  | 'd' => some (UInt32.ofNat day)
  | 'h' => some (UInt32.ofNat hour)
  | 'm' => some (UInt32.ofNat minute)
  | 's' => some 1
  | _ => none

/-- One character. A character that is neither a digit nor a unit is a bad format. -/
def TimeReader.read (r : TimeReader) (c : Char) : Option TimeReader :=
  if c.isDigit then
    some { r with buffer := r.buffer*10+UInt32.ofNat (c.toNat - '0'.toNat) }
  else
    (multiplierOf c).map fun multiplier => ⟨r.secs+r.buffer*multiplier,0,multiplier⟩

def timeStringToSecs (timestring : String) : UInt32 :=
  match timestring.toList.foldlM TimeReader.read TimeReader.start with
  | some r => r.secs
  | none => 0

section Reading

variable {m : UInt32} {n : Nat} {c : Char}

theorem TimeReader.foldlM_digits (secs multiplier : UInt32) (cs : List Char)
    (hcs : ∀ c ∈ cs, c.isDigit) (n : Nat) :
    cs.foldlM TimeReader.read ⟨secs,UInt32.ofNat n,multiplier⟩ =
      some ⟨secs,UInt32.ofNat (Nat.ofDigitChars 10 cs n),multiplier⟩ := by
  induction cs generalizing n with
  | nil => simp
  | cons c cs ih =>
    have hc : c.isDigit = true := hcs c (by simp)
    have hb : UInt32.ofNat n*10+UInt32.ofNat (c.toNat - '0'.toNat) =
        UInt32.ofNat (10*n+(c.toNat - '0'.toNat)) := by
      rw [UInt32.ofNat_add,UInt32.ofNat_mul,mul_comm]
      rfl
    rw [List.foldlM_cons,TimeReader.read,if_pos hc,hb]
    simpa [Nat.ofDigitChars_cons] using ih (fun d hd => hcs d (by simp [hd])) (10*n+(c.toNat - '0'.toNat))

theorem TimeReader.foldlM_number (n : Nat) (secs multiplier : UInt32) (hunit : multiplierOf c = some m) (hc : c.isDigit = false) :
    (Nat.toDigits 10 n ++ [c]).foldlM TimeReader.read ⟨secs,0,multiplier⟩ =
      some ⟨secs+UInt32.ofNat n*m,0,m⟩ := by
  have hdigits := TimeReader.foldlM_digits secs multiplier (Nat.toDigits 10 n)
    (fun d hd => Nat.isDigit_of_mem_toDigits (by decide) (by decide) hd) 0
  rw [Nat.ofDigitChars_ten_toDigits] at hdigits
  rw [List.foldlM_append,show (0 : UInt32) = UInt32.ofNat 0 from rfl,hdigits]
  simp [TimeReader.read,hc,hunit]

def Adds (text : String) (d : UInt32) : Prop :=
  ∀ secs multiplier, ∃ multiplier', text.toList.foldlM TimeReader.read ⟨secs,0,multiplier⟩ =
    some ⟨secs+d,0,multiplier'⟩

theorem Adds.append {text text' : String} {d d' : UInt32} (h : Adds text d) (h' : Adds text' d') :
    Adds (text ++ text') (d+d') := by
  intro secs multiplier
  obtain ⟨multiplier₁,h⟩ := h secs multiplier
  obtain ⟨multiplier₂,h'⟩ := h' (secs+d) multiplier₁
  exact ⟨multiplier₂,by simp [List.foldlM_append,h,h',add_assoc]⟩

theorem Adds.timeStringToSecs {text : String} {d : UInt32} (h : Adds text d) :
    timeStringToSecs text = d := by
  obtain ⟨_,h⟩ := h 0 0
  simp [Utilities.timeStringToSecs,TimeReader.start,h]

theorem adds_component {text : String} {isShown : Bool} (htext : text.toList = [c])
    (hunit : multiplierOf c = some m) (hc : c.isDigit = false) (hskip : isShown = false → n = 0) :
    Adds (component isShown n text) (UInt32.ofNat n*m) := by
  intro secs multiplier
  cases isShown with
  | false => exact ⟨multiplier,by simp [component,hskip rfl]⟩
  | true =>
    have hnumber := TimeReader.foldlM_number n secs multiplier hunit hc
    exact ⟨m,by simpa [component,htext] using hnumber⟩

end Reading

theorem ofNat_components (t : Nat) :
    UInt32.ofNat (t / day)*UInt32.ofNat day + UInt32.ofNat (t % day / hour)*UInt32.ofNat hour +
      UInt32.ofNat (t % hour / minute)*UInt32.ofNat minute + UInt32.ofNat (t % minute)*1 =
    UInt32.ofNat t := by
  have hsum : t / day*day+t % day / hour*hour+t % hour / minute*minute+t % minute*1 = t := by
    simp only [day,hour,minute]
    omega
  conv_rhs => rw [← hsum]
  simp only [UInt32.ofNat_add,UInt32.ofNat_mul]
  rfl

theorem timeStringToSecs_short (t : UInt64) :
    timeStringToSecs (secsToTimeString t true false) = UInt32.ofNat t.toNat := by
  have hdays : Adds (component (t.toNat / day != 0) (t.toNat / day) "d") _ :=
    adds_component rfl rfl rfl (by simp)
  have hhours : Adds (component (t.toNat % day / hour != 0 || false) (t.toNat % day / hour) "h") _ :=
    adds_component rfl rfl rfl (by simp)
  have hminutes : Adds (component (!false && t.toNat % hour / minute != 0)
      (t.toNat % hour / minute) "m") _ :=
    adds_component rfl rfl rfl (by simp)
  have hsecs : Adds (component (!false && (t.toNat % minute != 0 || (t.toNat / day == 0 &&
      t.toNat % day / hour == 0 && t.toNat % hour / minute == 0))) (t.toNat % minute) "s") _ :=
    adds_component rfl rfl rfl (by simp +contextual)
  rw [← ofNat_components]
  exact (((hdays.append hhours).append hminutes).append hsecs).timeStringToSecs

/-- A duration of 32 bits survives the short form. -/
theorem timeStringToSecs_secsToTimeString (t : UInt32) :
    timeStringToSecs (secsToTimeString t.toUInt64 true false) = t := by
  rw [timeStringToSecs_short]
  simp

end TrinityCore.Utilities
