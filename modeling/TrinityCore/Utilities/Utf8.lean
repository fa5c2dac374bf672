import Mathlib

set_option autoImplicit false

namespace TrinityCore.Utilities.Utf8

def leadSurrogateMin : Nat := 0xd800
def leadSurrogateMax : Nat := 0xdbff
def trailSurrogateMin : Nat := 0xdc00
def trailSurrogateMax : Nat := 0xdfff
def leadOffset : Nat := leadSurrogateMin-(0x10000 >>> 10)

def surrogateOffset : Nat := 2^32+0x10000-(leadSurrogateMin <<< 10)-trailSurrogateMin

def codePointMax : Nat := 0x10ffff

def isTrail (oc : UInt8) : Bool := oc.toNat >>> 6 == 0x2

def isLeadSurrogate (cp : Nat) : Bool := leadSurrogateMin ≤ cp && cp ≤ leadSurrogateMax
def isTrailSurrogate (cp : Nat) : Bool := trailSurrogateMin ≤ cp && cp ≤ trailSurrogateMax
def isSurrogate (cp : Nat) : Bool := leadSurrogateMin ≤ cp && cp ≤ trailSurrogateMax

def isCodePointValid (cp : Nat) : Bool := cp ≤ codePointMax && !isSurrogate cp

def sequenceLength (lead : UInt8) : Nat :=
  if lead.toNat < 0x80 then 1
  else if lead.toNat >>> 5 = 0x6 then 2
  else if lead.toNat >>> 4 = 0xe then 3
  else if lead.toNat >>> 3 = 0x1e then 4
  else 0

def isOverlongSequence (cp length : Nat) : Bool :=
  if cp < 0x80 then length != 1
  else if cp < 0x800 then length != 2
  else if cp < 0x10000 then length != 3
  else false

inductive UtfError where
  | notEnoughRoom
  | invalidLead
  | incompleteSequence
  | overlongSequence
  | invalidCodePoint
  | invalidUtf16
  deriving DecidableEq, Repr

def increaseSafely : List UInt8 → Except UtfError (Nat × List UInt8)
  | [] => .error .notEnoughRoom
  | oc :: rest => if isTrail oc then .ok (oc.toNat,rest) else .error .incompleteSequence

def getSequence1 (lead : Nat) (rest : List UInt8) : Except UtfError (Nat × List UInt8) :=
  .ok (lead,rest)

def getSequence2 (lead : Nat) (rest : List UInt8) : Except UtfError (Nat × List UInt8) := do
  let (oc,rest) ← increaseSafely rest
  return (((lead <<< 6) &&& 0x7ff)+(oc &&& 0x3f),rest)

def getSequence3 (lead : Nat) (rest : List UInt8) : Except UtfError (Nat × List UInt8) := do
  let (oc,rest) ← increaseSafely rest
  let (oc',rest) ← increaseSafely rest
  return (((lead <<< 12) &&& 0xffff)+((oc <<< 6) &&& 0xfff)+(oc' &&& 0x3f),rest)

def getSequence4 (lead : Nat) (rest : List UInt8) : Except UtfError (Nat × List UInt8) := do
  let (oc,rest) ← increaseSafely rest
  let (oc',rest) ← increaseSafely rest
  let (oc'',rest) ← increaseSafely rest
  return (((lead <<< 18) &&& 0x1fffff)+((oc <<< 12) &&& 0x3ffff)+((oc' <<< 6) &&& 0xfff)+
    (oc'' &&& 0x3f),rest)

def getSequence (length lead : Nat) (rest : List UInt8) : Except UtfError (Nat × List UInt8) :=
  match length with
  | 1 => getSequence1 lead rest
  | 2 => getSequence2 lead rest
  | 3 => getSequence3 lead rest
  | 4 => getSequence4 lead rest
  | _ => .error .invalidLead

/-- `utf8::next` on `validate_next`; the callers check that there is an octet. -/
def next : List UInt8 → Except UtfError (Nat × List UInt8)
  | [] => .error .notEnoughRoom
  | lead :: rest => do
    let length := sequenceLength lead
    let (cp,rest) ← getSequence length lead.toNat rest
    if isCodePointValid cp then
      if !isOverlongSequence cp length then return (cp,rest) else throw .overlongSequence
    else throw .invalidCodePoint

/-- The loop `while (start != end) next(start, end)`: the code points up to the first error. Every
step takes an octet at least, so the fuel is their number. -/
def nextLoop : Nat → List UInt8 → List Nat × Option UtfError
  | _, [] => ([],none)
  | 0, _ :: _ => ([],none)
  | fuel+1, oc :: octets =>
    match next (oc :: octets) with
    | .error err => ([],some err)
    | .ok (cp,rest) => (cp :: (nextLoop fuel rest).1,(nextLoop fuel rest).2)

def codePoints (octets : List UInt8) : List Nat × Option UtfError := nextLoop octets.length octets

def distance (octets : List UInt8) : Except UtfError Nat :=
  match codePoints octets with
  | (_,some err) => .error err
  | (cps,none) => .ok cps.length

def units (cp : Nat) : List UInt16 :=
  if cp > 0xffff then
    [UInt16.ofNat ((cp >>> 10)+leadOffset),UInt16.ofNat ((cp &&& 0x3ff)+trailSurrogateMin)]
  else [UInt16.ofNat cp]

def utf8to16 (octets : List UInt8) : List UInt16 × Option UtfError :=
  ((codePoints octets).1.flatMap units,(codePoints octets).2)

def append (cp : Nat) : Except UtfError (List UInt8) :=
  if !isCodePointValid cp then .error .invalidCodePoint
  else if cp < 0x80 then .ok [UInt8.ofNat cp]
  else if cp < 0x800 then
    .ok [UInt8.ofNat ((cp >>> 6) ||| 0xc0),UInt8.ofNat ((cp &&& 0x3f) ||| 0x80)]
  else if cp < 0x10000 then
    .ok [UInt8.ofNat ((cp >>> 12) ||| 0xe0),UInt8.ofNat (((cp >>> 6) &&& 0x3f) ||| 0x80),
      UInt8.ofNat ((cp &&& 0x3f) ||| 0x80)]
  else
    .ok [UInt8.ofNat ((cp >>> 18) ||| 0xf0),UInt8.ofNat (((cp >>> 12) &&& 0x3f) ||| 0x80),
      UInt8.ofNat (((cp >>> 6) &&& 0x3f) ||| 0x80),UInt8.ofNat ((cp &&& 0x3f) ||| 0x80)]

def utf16to8 : List UInt16 → Except UtfError (List UInt8)
  | [] => .ok []
  | [unit] => if isSurrogate unit.toNat then .error .invalidUtf16 else append unit.toNat
  | unit :: trail :: rest =>
    if isLeadSurrogate unit.toNat then
      if isTrailSurrogate trail.toNat then do
        return (← append (((unit.toNat <<< 10)+trail.toNat+surrogateOffset)%2^32)) ++ (← utf16to8 rest)
      else .error .invalidUtf16
    else if isTrailSurrogate unit.toNat then .error .invalidUtf16
    else do return (← append unit.toNat) ++ (← utf16to8 (trail :: rest))

section Masks

variable (n : Nat)

theorem and_3f : n &&& 0x3f = n % 64 := Nat.and_two_pow_sub_one_eq_mod n 6

theorem and_7ff : n &&& 0x7ff = n % 2048 := Nat.and_two_pow_sub_one_eq_mod n 11
theorem and_fff : n &&& 0xfff = n % 4096 := Nat.and_two_pow_sub_one_eq_mod n 12
theorem and_ffff : n &&& 0xffff = n % 65536 := Nat.and_two_pow_sub_one_eq_mod n 16
theorem and_3ffff : n &&& 0x3ffff = n % 262144 := Nat.and_two_pow_sub_one_eq_mod n 18
theorem and_1fffff : n &&& 0x1fffff = n % 2097152 := Nat.and_two_pow_sub_one_eq_mod n 21

end Masks

theorem isTrail_ofNat {n : Nat} (h : n < 64) : isTrail (UInt8.ofNat (n+0x80)) = true := by
  simp only [isTrail,UInt8.toNat_ofNat',Nat.shiftRight_eq_div_pow,beq_iff_eq]
  omega

theorem increaseSafely_ofNat {n : Nat} (h : n < 64) (rest : List UInt8) :
    increaseSafely (UInt8.ofNat (n+0x80) :: rest) = .ok (n+0x80,rest) := by
  rw [increaseSafely,if_pos (isTrail_ofNat h),UInt8.toNat_ofNat']
  have hmod : (n+0x80) % 2^8 = n+0x80 := by omega
  rw [hmod]

theorem isCodePointValid_iff (cp : Nat) : isCodePointValid cp = true ↔
    cp ≤ 0x10ffff ∧ (cp < 0xd800 ∨ 0xdfff < cp) := by
  simp only [isCodePointValid,isSurrogate,Bool.and_eq_true,Bool.not_eq_true',Bool.and_eq_false_iff,
    decide_eq_true_eq,decide_eq_false_iff_not]
  simp only [codePointMax,leadSurrogateMin,trailSurrogateMax]
  omega

theorem isCodePointValid_val (c : Char) : isCodePointValid c.val.toNat = true := by
  have hc := c.valid
  simp only [UInt32.isValidChar,Nat.isValidChar] at hc
  rw [isCodePointValid_iff]
  omega

theorem sequenceLength_ofNat {n : Nat} (h : n < 256) : sequenceLength (UInt8.ofNat n) =
    if n < 0x80 then 1 else if n / 32 = 6 then 2 else if n / 16 = 14 then 3
    else if n / 8 = 30 then 4 else 0 := by
  have hmod : n % 2^8 = n := Nat.mod_eq_of_lt h
  simp only [sequenceLength,UInt8.toNat_ofNat',hmod,Nat.shiftRight_eq_div_pow]

section Sequences

variable {v : Nat} (rest : List UInt8)

theorem next_of_getSequence {lead : UInt8} {octets : List UInt8} (length : Nat)
    (hlength : sequenceLength lead = length)
    (hseq : getSequence length lead.toNat octets = .ok (v,rest))
    (hvalid : isCodePointValid v = true) (hover : isOverlongSequence v length = false) :
    next (lead :: octets) = .ok (v,rest) := by
  simp [next,hlength,hseq,bind,Except.bind,hvalid,hover,pure,Except.pure]

theorem next_one (hv : v < 0x80) (hvalid : isCodePointValid v = true) :
    next (UInt8.ofNat v :: rest) = .ok (v,rest) := by
  refine next_of_getSequence rest 1 ?_ ?_ hvalid ?_
  · rw [sequenceLength_ofNat (by omega),if_pos hv]
  · simp only [getSequence,getSequence1,UInt8.toNat_ofNat',Nat.mod_eq_of_lt (show v < 2^8 by omega)]
  · simp [isOverlongSequence,hv]

theorem next_two (hv : 0x80 ≤ v) (hv' : v < 0x800) (hvalid : isCodePointValid v = true) :
    next (UInt8.ofNat (v / 64 % 32+0xc0) :: UInt8.ofNat (v % 64+0x80) :: rest) = .ok (v,rest) := by
  refine next_of_getSequence rest 2 ?_ ?_ hvalid ?_
  · rw [sequenceLength_ofNat (by omega),if_neg (by omega),if_pos (by omega)]
  · simp only [getSequence,getSequence2,increaseSafely_ofNat (show v % 64 < 64 by omega),bind,
      Except.bind,pure,Except.pure,and_3f,and_7ff,UInt8.toNat_ofNat',Nat.shiftLeft_eq]
    congr 2
    omega
  · simp [isOverlongSequence,hv',show ¬ v < 0x80 by omega]

theorem next_three (hv : 0x800 ≤ v) (hv' : v < 0x10000) (hvalid : isCodePointValid v = true) :
    next (UInt8.ofNat (v / 4096 % 16+0xe0) :: UInt8.ofNat (v / 64 % 64+0x80) ::
      UInt8.ofNat (v % 64+0x80) :: rest) = .ok (v,rest) := by
  refine next_of_getSequence rest 3 ?_ ?_ hvalid ?_
  · rw [sequenceLength_ofNat (by omega),if_neg (by omega),if_neg (by omega),if_pos (by omega)]
  · simp only [getSequence,getSequence3,increaseSafely_ofNat (show v % 64 < 64 by omega),
      increaseSafely_ofNat (show v / 64 % 64 < 64 by omega),bind,Except.bind,
      pure,Except.pure,and_3f,and_fff,and_ffff,UInt8.toNat_ofNat',Nat.shiftLeft_eq]
    congr 2
    omega
  · simp [isOverlongSequence,hv',show ¬ v < 0x80 by omega,show ¬ v < 0x800 by omega]

theorem next_four (hv : 0x10000 ≤ v) (hvalid : isCodePointValid v = true) :
    next (UInt8.ofNat (v / 262144 % 8+0xf0) :: UInt8.ofNat (v / 4096 % 64+0x80) ::
      UInt8.ofNat (v / 64 % 64+0x80) :: UInt8.ofNat (v % 64+0x80) :: rest) = .ok (v,rest) := by
  have hle := ((isCodePointValid_iff v).mp hvalid).1
  refine next_of_getSequence rest 4 ?_ ?_ hvalid ?_
  · rw [sequenceLength_ofNat (by omega),if_neg (by omega),if_neg (by omega),if_neg (by omega),
      if_pos (by omega)]
  · simp only [getSequence,getSequence4,increaseSafely_ofNat (show v % 64 < 64 by omega),
      increaseSafely_ofNat (show v / 64 % 64 < 64 by omega),
      increaseSafely_ofNat (show v / 4096 % 64 < 64 by omega),bind,Except.bind,
      pure,Except.pure,and_3f,and_fff,and_3ffff,and_1fffff,UInt8.toNat_ofNat',Nat.shiftLeft_eq]
    congr 2
    omega
  · simp [isOverlongSequence,show ¬ v < 0x80 by omega,show ¬ v < 0x800 by omega,
      show ¬ v < 0x10000 by omega]

end Sequences

theorem next_utf8EncodeChar (c : Char) (rest : List UInt8) :
    next (String.utf8EncodeChar c ++ rest) = .ok (c.val.toNat,rest) := by
  have hvalid := isCodePointValid_val c
  simp only [String.utf8EncodeChar]
  split_ifs with h1 h2 h3
  · exact next_one rest (by omega) hvalid
  · exact next_two rest (by omega) (by omega) hvalid
  · exact next_three rest (by omega) (by omega) hvalid
  · exact next_four rest (by omega) hvalid

def encode (cs : List Char) : List UInt8 := cs.flatMap String.utf8EncodeChar

theorem nextLoop_encode (cs : List Char) (fuel : Nat) (hfuel : cs.length ≤ fuel) :
    nextLoop fuel (encode cs) = (cs.map (·.val.toNat),none) := by
  induction cs generalizing fuel with
  | nil => cases fuel <;> rfl
  | cons c cs ih =>
    obtain ⟨fuel,rfl⟩ : ∃ n, fuel = n+1 := ⟨fuel-1,by simp at hfuel; omega⟩
    have hnext := next_utf8EncodeChar c (encode cs)
    have hcons : encode (c :: cs) = String.utf8EncodeChar c ++ encode cs := rfl
    obtain ⟨oc,octets,hoc⟩ := List.exists_cons_of_ne_nil
      (String.utf8EncodeChar_ne_nil (c := c))
    rw [hcons,hoc,List.cons_append,nextLoop]
    rw [hoc,List.cons_append] at hnext
    simp only [hnext,ih fuel (by simpa using hfuel),List.map_cons]

theorem length_le_encode (cs : List Char) : cs.length ≤ (encode cs).length := by
  induction cs with
  | nil => simp
  | cons c cs ih =>
    have hpos := List.length_pos_of_ne_nil (String.utf8EncodeChar_ne_nil (c := c))
    simp only [encode,List.flatMap_cons,List.length_cons,List.length_append] at ih ⊢
    omega

theorem codePoints_encode (cs : List Char) : codePoints (encode cs) = (cs.map (·.val.toNat),none) :=
  nextLoop_encode cs _ (length_le_encode cs)

theorem distance_encode (cs : List Char) : distance (encode cs) = .ok cs.length := by
  simp [distance,codePoints_encode]

def unitsOf (cs : List Char) : List UInt16 := cs.flatMap (units ·.val.toNat)

theorem utf8to16_encode (cs : List Char) : utf8to16 (encode cs) = (unitsOf cs,none) := by
  simp [utf8to16,codePoints_encode,unitsOf,List.flatMap_map]

def Basic (cs : List Char) : Prop := ∀ c ∈ cs, c.val.toNat ≤ 0xffff

theorem length_units (cp : Nat) : (units cp).length = if cp > 0xffff then 2 else 1 := by
  unfold units
  split_ifs <;> rfl

theorem length_le_unitsOf (cs : List Char) : cs.length ≤ (unitsOf cs).length := by
  induction cs with
  | nil => simp
  | cons c cs ih =>
    have hc := length_units c.val.toNat
    simp only [unitsOf,List.flatMap_cons,List.length_cons,List.length_append] at ih ⊢
    split_ifs at hc <;> omega

theorem length_unitsOf_le_iff (cs : List Char) : (unitsOf cs).length ≤ cs.length ↔ Basic cs := by
  induction cs with
  | nil => simp [unitsOf,Basic]
  | cons c cs ih =>
    have hc := length_units c.val.toNat
    have hle := length_le_unitsOf cs
    simp only [Basic,List.forall_mem_cons] at ih ⊢
    rw [← ih]
    simp only [unitsOf,List.flatMap_cons,List.length_cons,List.length_append] at hle ⊢
    split_ifs at hc <;> omega

end TrinityCore.Utilities.Utf8
