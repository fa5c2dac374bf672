import TrinityCore.Utilities.Utf8

set_option autoImplicit false

namespace TrinityCore.Utilities

open Utf8

structure Conversion where
  ok : Bool
  wsize : Nat
  /-- The code units stored from the start of the buffer. -/
  written : List UInt16
  /-- Where the terminator is stored after them. -/
  terminator : Option Nat
  deriving DecidableEq

def Conversion.failed (wsize : Nat) (written : List UInt16) : Conversion :=
  ⟨false,0,written,if wsize > 0 then some 0 else none⟩

def utf8toWStr (utf8str : List UInt8) (wsize : Nat) : Conversion :=
  match distance utf8str with
  | .error _ => .failed wsize []
  | .ok len =>
    if len > wsize then .failed wsize []
    else
      match utf8to16 utf8str with
      -- `wsize` is `len` when the conversion throws
      | (written,some _) => .failed len written
      | (written,none) => ⟨true,len,written,some len⟩

/-- A wide string after `resize` and the code units stored from its start. -/
structure Buffer where
  size : Nat
  written : List UInt16
  deriving DecidableEq

def Buffer.Fits (buffer : Buffer) : Prop := buffer.written.length ≤ buffer.size

instance (buffer : Buffer) : Decidable buffer.Fits := inferInstanceAs (Decidable (_ ≤ _))

/-- The overload for `std::wstring`: the result, the string, and what was stored in it. -/
def utf8toWString (utf8str : List UInt8) (wstr : List UInt16) :
    Bool × List UInt16 × Option Buffer :=
  match distance utf8str with
  | .error _ => (false,[],none)
  | .ok len =>
    if len ≠ 0 then
      match utf8to16 utf8str with
      | (written,some _) => (false,[],some ⟨len,written⟩)
      | (written,none) => (true,written.take len,some ⟨len,written⟩)
    else (true,wstr,none)

def utf8truncate (utf8str : List UInt8) (len : Nat) : List UInt8 × Option Buffer :=
  match distance utf8str with
  | .error _ => ([],none)
  | .ok wlen =>
    if wlen ≤ len then (utf8str,none)
    else
      match utf8to16 utf8str with
      | (written,some _) => ([],some ⟨wlen,written⟩)
      | (written,none) =>
        match utf16to8 (written.take len) with
        | .error _ => ([],some ⟨wlen,written⟩)
        | .ok octets => (octets,some ⟨wlen,written⟩)

variable (cs : List Char)

section Sizes

/-- What a result `true` promises about the caller's buffer. -/
def ToWStrFits (wsize : Nat) : Prop :=
  (utf8toWStr (encode cs) wsize).ok = true →
    (utf8toWStr (encode cs) wsize).written.length ≤ wsize ∧
      (utf8toWStr (encode cs) wsize).wsize = (utf8toWStr (encode cs) wsize).written.length

def ToWStringFits (wstr : List UInt16) : Prop :=
  ∀ buffer ∈ (utf8toWString (encode cs) wstr).2.2, buffer.Fits

def TruncateFits (len : Nat) : Prop := ∀ buffer ∈ (utf8truncate (encode cs) len).2, buffer.Fits

theorem utf8toWStr_encode (wsize : Nat) : utf8toWStr (encode cs) wsize =
    if cs.length > wsize then .failed wsize []
    else ⟨true,cs.length,unitsOf cs,some cs.length⟩ := by
  rw [utf8toWStr,distance_encode,utf8to16_encode]

theorem utf8toWString_encode (wstr : List UInt16) : utf8toWString (encode cs) wstr =
    if cs.length ≠ 0 then (true,(unitsOf cs).take cs.length,some ⟨cs.length,unitsOf cs⟩)
    else (true,wstr,none) := by
  rw [utf8toWString,distance_encode,utf8to16_encode]

theorem toWStrFits_iff (wsize : Nat) : ToWStrFits cs wsize ↔ (cs.length ≤ wsize → Basic cs) := by
  rw [ToWStrFits,utf8toWStr_encode,← length_unitsOf_le_iff]
  have hle := length_le_unitsOf cs
  by_cases h : cs.length > wsize
  · simp [h,Conversion.failed]
  · rw [if_neg h]
    constructor
    · intro hfits _
      exact (hfits rfl).2.ge
    · intro hbasic _
      have hlen : (unitsOf cs).length ≤ cs.length := hbasic (by omega)
      exact ⟨by simp only; omega,by simp only; omega⟩

theorem toWStringFits_iff (wstr : List UInt16) : ToWStringFits cs wstr ↔ Basic cs := by
  rw [ToWStringFits,utf8toWString_encode,← length_unitsOf_le_iff]
  cases cs with
  | nil => simp [unitsOf]
  | cons c cs => simp [Buffer.Fits]

theorem truncateFits_iff (len : Nat) : TruncateFits cs len ↔ (len < cs.length → Basic cs) := by
  rw [TruncateFits,utf8truncate,distance_encode,utf8to16_encode,← length_unitsOf_le_iff]
  by_cases h : cs.length ≤ len
  · simp [h]
  · have hlt : len < cs.length := by omega
    cases hback : utf16to8 ((unitsOf cs).take len) <;> simp [h,hlt,hback,Buffer.Fits]

/-- A supplementary character takes two code units and is counted once: each conversion fits its
buffer exactly when it stops before filling it or when there is no such character. -/
theorem fits_iff (wsize len : Nat) (wstr : List UInt16) :
    (ToWStrFits cs wsize ↔ (wsize < cs.length ∨ Basic cs)) ∧
      (ToWStringFits cs wstr ↔ Basic cs) ∧
      (TruncateFits cs len ↔ (cs.length ≤ len ∨ Basic cs)) := by
  refine ⟨?_,toWStringFits_iff cs wstr,?_⟩
  · rw [toWStrFits_iff,imp_iff_not_or,Nat.not_le]
  · rw [truncateFits_iff,imp_iff_not_or,Nat.not_lt]

/-- One character of two code units: a buffer for one, a string resized to one and a truncation
of the one. -/
theorem not_fits : ¬ ToWStrFits ['😀'] 1 ∧ ¬ ToWStringFits ['😀'] [] ∧ ¬ TruncateFits ['😀'] 0 := by
  refine ⟨fun h => absurd (h (by decide)).1 (by decide),
    fun h => absurd (h _ rfl) (by decide),fun h => absurd (h _ rfl) (by decide)⟩

end Sizes

end TrinityCore.Utilities
