import Mathlib
import TrinityCore.Lib.Reading

set_option autoImplicit false

/-!
# The string stream

The reads of `std::istringstream` that the chat links use, with the standard's state bits: a peek or
a read at the end sets eof, a read that gets nothing sets fail, and a stream with a bit set gives
nothing more. A `char` is a `Char`; nothing here depends on how many of them there are.
-/

namespace TrinityCore.Chat

open Reading

structure Istringstream where
  rest : List Char
  eof : Bool
  fail : Bool
  deriving DecidableEq, Repr

namespace Istringstream

def ofText (text : List Char) : Istringstream := ⟨text,false,false⟩

def good (iss : Istringstream) : Bool := !iss.eof && !iss.fail

@[simp] theorem good_ofText (text : List Char) : (ofText text).good = true := rfl
@[simp] theorem rest_ofText (text : List Char) : (ofText text).rest = text := rfl

theorem ofText_injective : Function.Injective ofText := fun _ _ h => congrArg rest h

def atEnd : Reader Istringstream Bool := fun iss => .ok (iss.eof,iss)

def peek : Reader Istringstream (Option Char) := fun iss =>
  if iss.good then
    match iss.rest with
    | [] => .ok (none,{ iss with eof := true })
    | c :: _ => .ok (some c,iss)
  else .ok (none,{ iss with fail := true })

def get : Reader Istringstream (Option Char) := fun iss =>
  if iss.good then
    match iss.rest with
    | [] => .ok (none,{ iss with eof := true, fail := true })
    | c :: t => .ok (some c,{ iss with rest := t })
  else .ok (none,{ iss with fail := true })

/-- What `ignore` leaves and whether it came to the end. It stops at the count without a look at
what comes next. -/
def ignoreText : Nat → Option Char → List Char → List Char × Bool
  | 0,_,t => (t,false)
  | _ + 1,_,[] => ([],true)
  | n + 1,delim,c :: t => if some c = delim then (t,false) else ignoreText n delim t

def ignore (n : Nat) (delim : Option Char) : Reader Istringstream Unit := fun iss =>
  if iss.good then
    .ok ((),⟨(ignoreText n delim iss.rest).1,(ignoreText n delim iss.rest).2,false⟩)
  else .ok ((),{ iss with fail := true })

def isspace (c : Char) : Bool :=
  c = ' ' || c = '\t' || c = '\n' || c = '\x0b' || c = '\x0c' || c = '\r'

/-- `>> c`: where there is nothing left but blanks, `c` keeps what it held. -/
def extractChar (held : Char) : Reader Istringstream Char := fun iss =>
  if iss.good then
    match iss.rest.dropWhile isspace with
    | [] => .ok (held,⟨[],true,true⟩)
    | c :: t => .ok (c,{ iss with rest := t })
  else .ok (held,{ iss with fail := true })

/-- What `getline` stores and leaves, and whether it came to the end or filled the buffer. -/
def getlineText : Nat → Char → List Char → List Char × List Char × Bool × Bool
  | _,_,[] => ([],[],true,false)
  | 0,delim,c :: t => if c = delim then ([],t,false,false) else ([],c :: t,false,true)
  | n + 1,delim,c :: t =>
    if c = delim then ([],t,false,false)
    else (c :: (getlineText n delim t).1,(getlineText n delim t).2)

/-- `getline(buffer, size, delim)`; the last place of the buffer is for the NUL. -/
def getline (size : Nat) (delim : Char) : Reader Istringstream (List Char) := fun iss =>
  if iss.good then
    match getlineText (size - 1) delim iss.rest with
    | (buffer,t,eof,full) => .ok (buffer,⟨t,eof,full || iss.rest.isEmpty⟩)
  else .ok ([],{ iss with fail := true })

/-! ## Numbers -/

/-- The value of a digit in any base up to sixteen; sixteen for what is no digit. -/
def digitValue (c : Char) : Nat :=
  if '0' ≤ c ∧ c ≤ '9' then c.toNat - '0'.toNat
  else if 'a' ≤ c ∧ c ≤ 'f' then c.toNat - 'a'.toNat + 10
  else if 'A' ≤ c ∧ c ≤ 'F' then c.toNat - 'A'.toNat + 10
  else 16

def isDigit (base : Nat) (c : Char) : Bool := digitValue c < base

def valueOf (base : Nat) (digits : List Char) : Nat :=
  digits.foldl (fun acc c => base * acc + digitValue c) 0

def takeSign : List Char → Bool × List Char
  | [] => (false,[])
  | c :: t => if c = '-' then (true,t) else if c = '+' then (false,t) else (false,c :: t)

def dropBase (base : Nat) : List Char → List Char
  | zero :: x :: t =>
    if base = 16 ∧ zero = '0' ∧ (x = 'x' ∨ x = 'X') then t else zero :: x :: t
  | t => t

/-- The sign, the digits and what is behind them: blanks are skipped, a sign and, in base sixteen,
a 0x may stand in front. -/
structure Field where
  negative : Bool
  digits : List Char
  behind : List Char
  deriving DecidableEq, Repr

def field (base : Nat) (text : List Char) : Field :=
  let signed := takeSign (text.dropWhile isspace)
  let body := dropBase base signed.2
  ⟨signed.1,body.takeWhile (isDigit base),body.dropWhile (isDigit base)⟩

/-- A `uint32` takes a minus sign and wraps. -/
def toUInt32 (negative : Bool) (magnitude : Nat) : Option UInt32 :=
  if magnitude < 2 ^ 32 then
    some (if negative then -UInt32.ofNat magnitude else UInt32.ofNat magnitude)
  else none

def toInt32 (negative : Bool) (magnitude : Nat) : Option Int :=
  if negative then
    if magnitude ≤ 2 ^ 31 then some (-(magnitude : Int)) else none
  else if magnitude < 2 ^ 31 then some (magnitude : Int) else none

def fieldValue {τ : Type} (base : Nat) (convert : Bool → Nat → Option τ) (text : List Char) :
    Option τ :=
  if (field base text).digits = [] then none
  else convert (field base text).negative (valueOf base (field base text).digits)

/-- `>>` into an integer: `none` and the fail bit where there are no digits or the number does not
fit, the eof bit where the number goes on to the end. -/
def extractNumber {τ : Type} (base : Nat) (convert : Bool → Nat → Option τ) :
    Reader Istringstream (Option τ) := fun iss =>
  if iss.good then
    if iss.rest.dropWhile isspace = [] then .ok (none,⟨[],true,true⟩)
    else
      let value := fieldValue base convert iss.rest
      let behind := (field base iss.rest).behind
      .ok (value,⟨behind,behind.isEmpty,value.isNone⟩)
  else .ok (none,{ iss with fail := true })

/-! ## Reads off a sound stream -/

@[simp] theorem peek_nil : peek (ofText []) = .ok (none,⟨[],true,false⟩) := rfl

@[simp] theorem peek_cons (c : Char) (t : List Char) :
    peek (ofText (c :: t)) = .ok (some c,ofText (c :: t)) := rfl

@[simp] theorem get_nil : get (ofText []) = .ok (none,⟨[],true,true⟩) := rfl

@[simp] theorem get_cons (c : Char) (t : List Char) :
    get (ofText (c :: t)) = .ok (some c,ofText t) := rfl

@[simp] theorem ignore_one (c : Char) (t : List Char) :
    ignore 1 none (ofText (c :: t)) = .ok ((),ofText t) := rfl

theorem ignoreText_delim {delim : Char} {p : List Char} (hp : delim ∉ p) {n : Nat}
    (hn : p.length < n) (t : List Char) :
    ignoreText n (some delim) (p ++ delim :: t) = (t,false) := by
  induction p generalizing n with
  | nil =>
    obtain ⟨n, rfl⟩ : ∃ m, n = m + 1 := ⟨n - 1, by simp at hn; omega⟩
    simp [ignoreText]
  | cons c p ih =>
    obtain ⟨n, rfl⟩ : ∃ m, n = m + 1 := ⟨n - 1, by simp at hn; omega⟩
    have hc := List.ne_of_not_mem_cons hp
    have hp := List.not_mem_of_not_mem_cons hp
    simp only [List.cons_append, ignoreText, Option.some.injEq, Ne.symm hc, if_false]
    exact ih hp (by simpa using hn)

theorem ignoreText_full {delim : Char} {p : List Char} (hp : delim ∉ p) (t : List Char) :
    ignoreText p.length (some delim) (p ++ t) = (t,false) := by
  induction p with
  | nil => simp [ignoreText]
  | cons c p ih =>
    have hc := List.ne_of_not_mem_cons hp
    have hp := List.not_mem_of_not_mem_cons hp
    simp only [List.length_cons, List.cons_append, ignoreText, Option.some.injEq, Ne.symm hc,
      if_false]
    exact ih hp

theorem ignoreText_short {delim : Char} {p : List Char} (hp : delim ∉ p) {n : Nat}
    (hn : p.length < n) : ignoreText n (some delim) p = ([],true) := by
  induction p generalizing n with
  | nil =>
    obtain ⟨n, rfl⟩ : ∃ m, n = m + 1 := ⟨n - 1, by simp at hn; omega⟩
    rfl
  | cons c p ih =>
    obtain ⟨n, rfl⟩ : ∃ m, n = m + 1 := ⟨n - 1, by simp at hn; omega⟩
    have hc := List.ne_of_not_mem_cons hp
    have hp := List.not_mem_of_not_mem_cons hp
    simp only [ignoreText, Option.some.injEq, Ne.symm hc, if_false]
    exact ih hp (by simpa using hn)

theorem split_at_delim (delim : Char) (text : List Char) :
    delim ∉ text ∨ ∃ p t, text = p ++ delim :: t ∧ delim ∉ p := by
  by_cases h : delim ∈ text
  · exact Or.inr (List.eq_append_cons_of_mem h)
  · exact Or.inl h

theorem getlineText_delim {delim : Char} {p : List Char} (hp : delim ∉ p) {n : Nat}
    (hn : p.length ≤ n) (t : List Char) :
    getlineText n delim (p ++ delim :: t) = (p,t,false,false) := by
  induction p generalizing n with
  | nil => cases n <;> simp [getlineText]
  | cons c p ih =>
    obtain ⟨n, rfl⟩ : ∃ m, n = m + 1 := ⟨n - 1, by simp at hn; omega⟩
    have hc := List.ne_of_not_mem_cons hp
    have hp := List.not_mem_of_not_mem_cons hp
    simp only [List.cons_append, getlineText, Ne.symm hc, if_false]
    rw [ih hp (by simpa using hn)]

/-- A text that does not fit with its delimiter ends first or fills the buffer. -/
theorem getlineText_cases (n : Nat) (delim : Char) (text : List Char) :
    (∃ p t, text = p ++ delim :: t ∧ delim ∉ p ∧ p.length ≤ n) ∨
      (getlineText n delim text).2.2 = (true,false) ∨
      (getlineText n delim text).2.2 = (false,true) ∧
        (getlineText n delim text).1.length = n := by
  induction text generalizing n with
  | nil => exact Or.inr (Or.inl (by simp [getlineText]))
  | cons c text ih =>
    by_cases hc : c = delim
    · exact Or.inl ⟨[], text, by rw [hc]; rfl, List.not_mem_nil, Nat.zero_le n⟩
    · cases n with
      | zero => exact Or.inr (Or.inr (by simp [getlineText, hc]))
      | succ n =>
        have hstep : getlineText (n + 1) delim (c :: text) =
            (c :: (getlineText n delim text).1,(getlineText n delim text).2) := by
          rw [getlineText, if_neg hc]
        rw [hstep]
        obtain ⟨p, t, rfl, hp, hn⟩ | h | ⟨h, hlen⟩ := ih n
        · exact Or.inl ⟨c :: p, t, rfl,
            List.not_mem_cons_of_ne_of_not_mem (Ne.symm hc) hp, by simpa using hn⟩
        · exact Or.inr (Or.inl h)
        · exact Or.inr (Or.inr ⟨h, by rw [List.length_cons, hlen]⟩)

theorem getline_found (size : Nat) {delim : Char} {p : List Char} (hp : delim ∉ p)
    (hn : p.length ≤ size - 1) (t : List Char) :
    getline size delim (ofText (p ++ delim :: t)) = .ok (p,ofText t) := by
  have he : (p ++ delim :: t).isEmpty = false := by simp
  rw [getline, if_pos (good_ofText _), rest_ofText, getlineText_delim hp hn t]
  simp only [he]
  rfl

theorem getline_cases (size : Nat) (delim : Char) (text : List Char) :
    (∃ p t, text = p ++ delim :: t ∧ delim ∉ p ∧ p.length ≤ size - 1) ∨
      ∃ buffer iss, getline size delim (ofText text) = .ok (buffer,iss) ∧
        (iss.eof = true ∨ iss.eof = false ∧ iss.fail = true ∧ buffer.length = size - 1) := by
  have hread : getline size delim (ofText text) = .ok ((getlineText (size - 1) delim text).1,
      ⟨(getlineText (size - 1) delim text).2.1,(getlineText (size - 1) delim text).2.2.1,
        (getlineText (size - 1) delim text).2.2.2 || text.isEmpty⟩) := rfl
  obtain h | h | ⟨h, hlen⟩ := getlineText_cases (size - 1) delim text
  · exact Or.inl h
  · exact Or.inr ⟨_, _, hread, Or.inl (by rw [h])⟩
  · exact Or.inr ⟨_, _, hread, Or.inr ⟨by rw [h], by rw [h]; rfl, hlen⟩⟩

theorem dropWhile_blank {b : List Char} (hb : ∀ c ∈ b, isspace c = true) (t : List Char) :
    (b ++ t).dropWhile isspace = t.dropWhile isspace := by
  induction b with
  | nil => rfl
  | cons c b ih =>
    rw [List.cons_append, List.dropWhile_cons_of_pos (hb c List.mem_cons_self)]
    exact ih fun x hx => hb x (List.mem_cons_of_mem _ hx)

theorem split_blanks (text : List Char) :
    (∀ c ∈ text, isspace c = true) ∨ ∃ b c t, text = b ++ c :: t ∧ (∀ x ∈ b, isspace x = true) ∧
      isspace c = false := by
  induction text with
  | nil => exact Or.inl (by simp)
  | cons c text ih =>
    by_cases hc : isspace c = true
    · obtain h | ⟨b, x, t, rfl, hb, hx⟩ := ih
      · exact Or.inl (List.forall_mem_cons.mpr ⟨hc, h⟩)
      · exact Or.inr ⟨c :: b, x, t, rfl, List.forall_mem_cons.mpr ⟨hc, hb⟩, hx⟩
    · exact Or.inr ⟨[], c, text, rfl, by simp, by simpa using hc⟩

theorem extractChar_blanks (held : Char) {b : List Char} (hb : ∀ c ∈ b, isspace c = true) :
    extractChar held (ofText b) = .ok (held,⟨[],true,true⟩) := by
  have hd := dropWhile_blank hb []
  rw [List.append_nil, List.dropWhile_nil] at hd
  simp only [extractChar, good_ofText, if_true, rest_ofText, hd]

theorem extractChar_found (held : Char) {b : List Char} (hb : ∀ c ∈ b, isspace c = true)
    {c : Char} (hc : isspace c = false) (t : List Char) :
    extractChar held (ofText (b ++ c :: t)) = .ok (c,ofText t) := by
  have hd := dropWhile_blank hb (c :: t)
  rw [List.dropWhile_cons_of_neg (by simp [hc])] at hd
  simp only [extractChar, good_ofText, if_true, rest_ofText, hd]
  rfl

theorem extractNumber_blanks {τ : Type} {base : Nat} {convert : Bool → Nat → Option τ}
    {text : List Char} (h : text.dropWhile isspace = []) :
    extractNumber base convert (ofText text) = .ok (none,⟨[],true,true⟩) := by
  rw [extractNumber, if_pos (good_ofText text)]
  exact if_pos h

theorem extractNumber_field {τ : Type} {base : Nat} {convert : Bool → Nat → Option τ}
    {text : List Char} (h : text.dropWhile isspace ≠ []) :
    extractNumber base convert (ofText text) = .ok (fieldValue base convert text,
      ⟨(field base text).behind,(field base text).behind.isEmpty,
        (fieldValue base convert text).isNone⟩) := by
  rw [extractNumber, if_pos (good_ofText text)]
  exact if_neg h

theorem fieldValue_blanks {τ : Type} {base : Nat} {convert : Bool → Nat → Option τ}
    {text : List Char} (h : text.dropWhile isspace = []) : fieldValue base convert text = none := by
  simp [fieldValue, field, h, takeSign, dropBase]

/-! ## Numbers in front of a mark -/

theorem takeSign_suffix (text : List Char) : (takeSign text).2 <:+ text := by
  cases text with
  | nil => exact List.suffix_refl _
  | cons c t =>
    rw [takeSign]
    split_ifs
    · exact List.suffix_cons _ _
    · exact List.suffix_cons _ _
    · exact List.suffix_refl _

theorem dropBase_suffix (base : Nat) (text : List Char) : dropBase base text <:+ text := by
  unfold dropBase
  split
  · split_ifs
    · exact (List.suffix_cons _ _).trans (List.suffix_cons _ _)
    · exact List.suffix_refl _
  · exact List.suffix_refl _

theorem field_behind_suffix (base : Nat) (text : List Char) :
    (field base text).behind <:+ text :=
  (List.dropWhile_suffix _).trans ((dropBase_suffix base _).trans
    ((takeSign_suffix _).trans (List.dropWhile_suffix _)))

section Mark

variable {q : Char → Bool} {mark : Char}

theorem takeWhile_mark (hq : q mark = false) (d w : List Char) :
    (d ++ mark :: w).takeWhile q = d.takeWhile q := by
  induction d with
  | nil => simp [hq]
  | cons c d ih => simp only [List.cons_append, List.takeWhile_cons, ih]

theorem dropWhile_mark (hq : q mark = false) (d w : List Char) :
    (d ++ mark :: w).dropWhile q = d.dropWhile q ++ mark :: w := by
  induction d with
  | nil => simp [hq]
  | cons c d ih =>
    simp only [List.cons_append, List.dropWhile_cons, ih]
    split <;> rfl

end Mark

theorem takeSign_pipe (d w : List Char) :
    takeSign (d ++ '|' :: w) = ((takeSign d).1,(takeSign d).2 ++ '|' :: w) := by
  cases d with
  | nil => rfl
  | cons c d =>
    simp only [List.cons_append, takeSign]
    split_ifs <;> rfl

theorem dropBase_pipe (base : Nat) (d w : List Char) :
    dropBase base (d ++ '|' :: w) = dropBase base d ++ '|' :: w := by
  cases d with
  | nil =>
    cases w with
    | nil => rfl
    | cons c w => simp [dropBase]
  | cons c d =>
    cases d with
    | nil => simp [dropBase]
    | cons x d =>
      simp only [List.cons_append, dropBase]
      split_ifs <;> rfl

theorem field_pipe {base : Nat} (hbase : base ≤ 16) (d w : List Char) :
    field base (d ++ '|' :: w) =
      ⟨(field base d).negative,(field base d).digits,(field base d).behind ++ '|' :: w⟩ := by
  have hdigit : isDigit base '|' = false := by
    have hv : digitValue '|' = 16 := by decide
    simp [isDigit, hv, hbase]
  have hspace : isspace '|' = false := by decide
  simp only [field, dropWhile_mark hspace, takeSign_pipe, dropBase_pipe, takeWhile_mark hdigit,
    dropWhile_mark hdigit]

end Istringstream

end TrinityCore.Chat
