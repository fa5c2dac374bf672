import TrinityCore.Lib.Cursor

set_option autoImplicit false

/-!
`ByteBuffer`: the operators `<<` and `>>`, packed guids, vectors and lists. The bytes of a
number are little-endian on every platform. Floating point numbers, packed times and the
functions that move the cursors by hand are left out.
-/

namespace TrinityCore.Packets

/-- What ends a read or a write. A read outside of the storage is not caught by anything. -/
inductive Fault where
  | position (add : Bool) (pos size valueSize : Nat)
  | source (pos size valueSize : Nat)
  | assertion
  | outside
  deriving DecidableEq, Repr

def Fault.IsPosition : Fault → Prop
  | .position .. => True
  | _ => False

abbrev Read (α : Type) := Reader Fault UInt8 α

section Numbers

def leBytes : Nat → Nat → List UInt8
  | 0, _ => []
  | n+1, x => UInt8.ofNat x :: leBytes n (x / 256)

def leNat : List UInt8 → Nat
  | [] => 0
  | b :: bs => b.toNat+256*leNat bs

inductive IntTy where
  | uint8
  | uint16
  | uint32
  | uint64
  | int8
  | int16
  | int32
  | int64
  deriving DecidableEq, Repr

namespace IntTy

abbrev Val : IntTy → Type
  | uint8 => UInt8
  | uint16 => UInt16
  | uint32 => UInt32
  | uint64 => UInt64
  | int8 => Int8
  | int16 => Int16
  | int32 => Int32
  | int64 => Int64

def size : IntTy → Nat
  | uint8 | int8 => 1
  | uint16 | int16 => 2
  | uint32 | int32 => 4
  | uint64 | int64 => 8

def bits : (t : IntTy) → t.Val → Nat
  | uint8, v => UInt8.toNat v
  | uint16, v => UInt16.toNat v
  | uint32, v => UInt32.toNat v
  | uint64, v => UInt64.toNat v
  | int8, v => v.toBitVec.toNat
  | int16, v => v.toBitVec.toNat
  | int32, v => v.toBitVec.toNat
  | int64, v => v.toBitVec.toNat

def ofBits : (t : IntTy) → Nat → t.Val
  | uint8, n => UInt8.ofNat n
  | uint16, n => UInt16.ofNat n
  | uint32, n => UInt32.ofNat n
  | uint64, n => UInt64.ofNat n
  | int8, n => Int8.ofBitVec (BitVec.ofNat 8 n)
  | int16, n => Int16.ofBitVec (BitVec.ofNat 16 n)
  | int32, n => Int32.ofBitVec (BitVec.ofNat 32 n)
  | int64, n => Int64.ofBitVec (BitVec.ofNat 64 n)

end IntTy

end Numbers

/-- The types of fields. A vector and a list are written alike. The operators have no packed
guid of their own: it stands for whatever is written with `appendPackGUID`. -/
inductive Ty where
  | int (t : IntTy)
  | string
  | packGUID
  | vec (t : Ty)
  deriving DecidableEq, Repr

def Ty.Val : Ty → Type
  | .int t => t.Val
  | .string => List UInt8
  | .packGUID => UInt64
  | .vec t => List t.Val

section Reading

def load (n : Nat) : Read (List UInt8) := fun c =>
  if c.pos+n ≤ c.bytes.length then .ok (c.rest.take n) (c.advance n) else .error .outside c

def readBytes (n : Nat) : Read (List UInt8) := do
  let c ← get
  if c.pos+n > c.bytes.length then throw (.position false c.pos n c.bytes.length)
  load n

def readInt (t : IntTy) : Read t.Val := do
  let bs ← readBytes t.size
  pure (t.ofBits (leNat bs))

def readByte : Read UInt8 := readInt .uint8

def readStringLoop : Nat → List UInt8 → Read (List UInt8)
  | 0, value => pure value
  | n+1, value => do
    let c ← get
    if c.pos < c.bytes.length then
      let b ← readByte
      if b = 0 then pure value else readStringLoop n (value ++ [b])
    else pure value

def readString : Read (List UInt8) := do
  let c ← get
  readStringLoop (c.bytes.length-c.pos) []

def checkByte : Read Unit := do
  let c ← get
  if c.pos+1 > c.bytes.length then throw (.position false c.pos 1 c.bytes.length)

def readPackLoop (guidmark : Nat) : Nat → Nat → Nat → Read Nat
  | 0, _, guid => pure guid
  | n+1, i, guid => do
    if guidmark &&& (1 <<< i) ≠ 0 then
      checkByte
      let bit ← readByte
      readPackLoop guidmark n (i+1) (guid ||| (bit.toNat <<< (i*8)))
    else readPackLoop guidmark n (i+1) guid

def readPackGUID : Read UInt64 := do
  checkByte
  let guidmark ← readByte
  let guid ← readPackLoop guidmark.toNat 8 0 0
  pure (UInt64.ofNat guid)

def read : (t : Ty) → Read t.Val
  | .int t => readInt t
  | .string => readString
  | .packGUID => readPackGUID
  | .vec t => do
    let vsize ← readInt .uint32
    Reader.sequence (List.replicate (UInt32.toNat vsize) (read t))

end Reading

structure ByteBuffer extends Cursor UInt8 where
  wpos : Nat

namespace ByteBuffer

def empty : ByteBuffer := ⟨⟨[],0⟩,0⟩

def ofBytes (bytes : List UInt8) : ByteBuffer := ⟨⟨bytes,0⟩,bytes.length⟩

def maxSize : Nat := 10000000

variable (b : ByteBuffer)

/-- The storage grows when there is not enough of it, and is overwritten otherwise. -/
def append (src : List UInt8) : Except Fault ByteBuffer :=
  if src.length = 0 then .error (.source b.wpos b.bytes.length src.length)
  else if ¬ b.bytes.length < maxSize then .error .assertion
  else
    let cnt := src.length
    let storage := b.bytes ++ List.replicate (b.wpos+cnt-b.bytes.length) 0
    .ok { b with
      bytes := storage.take b.wpos ++ src ++ storage.drop (b.wpos+cnt)
      wpos := b.wpos+cnt }

/-- The loop over the bytes of the guid: the mark and the bytes that are not zero. -/
def packLoop : Nat → Nat → Nat → Nat × List UInt8 → Nat × List UInt8
  | 0, _, _, st => st
  | n+1, i, guid, st =>
    if guid = 0 then st
    else packLoop n (i+1) (guid >>> 8)
      (if guid &&& 0xFF ≠ 0 then (st.1 ||| (1 <<< i) % 256,st.2 ++ [UInt8.ofNat (guid &&& 0xFF)])
        else st)

def packGUID (guid : UInt64) : List UInt8 :=
  let (mark,bytes) := packLoop 8 0 guid.toNat (0,[])
  UInt8.ofNat mark :: bytes

def appendPackGUID (guid : UInt64) : Except Fault ByteBuffer := b.append (packGUID guid)

def write : (t : Ty) → t.Val → ByteBuffer → Except Fault ByteBuffer
  | .int t, v, b => b.append (leBytes t.size (t.bits v))
  | .string, v, b => do
    let b ← if v.length ≠ 0 then b.append v else pure b
    b.append [0]
  | .packGUID, v, b => b.appendPackGUID v
  | .vec t, vs, b => do
    let b ← b.append (leBytes 4 (vs.length % 2^32))
    vs.foldlM (fun b v => write t v b) b

end ByteBuffer

abbrev Field := Σ t : Ty, t.Val

def writeAll (fs : List Field) (b : ByteBuffer) : Except Fault ByteBuffer :=
  fs.foldlM (fun b f => ByteBuffer.write f.1 f.2 b) b

def readField (t : Ty) : Read Field := do
  let v ← read t
  pure ⟨t,v⟩

def readAll (ts : List Ty) : Read (List Field) := Reader.sequence (ts.map readField)

end TrinityCore.Packets
