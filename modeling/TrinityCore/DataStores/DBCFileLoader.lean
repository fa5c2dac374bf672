import TrinityCore.Lib.Accesses

set_option autoImplicit false

/-!
A client file is loaded and its records are written into a table, with all that is touched of the arrays
on the way. The build is a release one of 64 bits: pointers have eight bytes, and the assertions of a
record are not there. What lies behind an array is read as zero.
-/

namespace TrinityCore.DataStores

open Accesses

/-- The fields of a format, but for the ones that are refused by an assertion. -/
inductive DbcFieldFormat where
  | na
  | naByte
  | string
  | float
  | int
  | byte
  | sort
  | ind
  deriving DecidableEq, Repr

/-- The arrays: the format with its terminator, the offsets of the fields, a record and the records with
the strings, the tables that are made, and the strings in the file and in their pool. -/
inductive Buffer where
  | fmt
  | fieldsOffset
  | record
  | data
  | indexTable
  | dataTable
  | stringTable
  | stringPool
  deriving DecidableEq, Repr

namespace DbcFieldFormat

def fileSize : DbcFieldFormat → UInt32
  | .byte | .naByte => 1
  | _ => 4

def tableSize : DbcFieldFormat → UInt32
  | .float | .int | .ind => 4
  | .string => 8
  | .byte => 1
  | .sort | .na | .naByte => 0

end DbcFieldFormat

structure Header where
  recordCount : UInt32
  fieldCount : UInt32
  recordSize : UInt32
  stringSize : UInt32
  deriving DecidableEq, Repr

structure DBCFileLoader extends Header where
  fieldsOffset : Nat → UInt32
  data : List UInt8

inductive Field where
  | float (bits : UInt32)
  | int (value : UInt32)
  | byte (value : UInt8)
  /-- Where the string is in the pool. -/
  | pointer (string : Option UInt32)
  deriving DecidableEq, Repr

structure TableState where
  dataTable : Nat → Option Field
  offset : UInt32

structure Produced where
  records : UInt32
  /-- Where the record of an index is. -/
  indexTable : Nat → Option UInt32
  dataTable : Nat → Option Field
  dataTableSize : UInt32
  sqlDataTable : UInt32

def byteAt (bytes : List UInt8) (pos : Nat) : UInt8 := bytes.getD pos 0

/-- Numbers are stored with the lowest byte first. -/
def uint32At (bytes : List UInt8) (pos : Nat) : UInt32 :=
  ((bytes.drop pos).take 4).foldr (fun byte n => n*0x100+byte.toUInt32) 0

def readUInt32 (bytes : List UInt8) : Option (UInt32 × List UInt8) :=
  if bytes.length < 4 then none else some (uint32At bytes 0,bytes.drop 4)

def readHeader (bytes : List UInt8) : Option (Header × List UInt8) := do
  let (header,bytes) ← readUInt32 bytes
  -- 'WDBC'
  if header ≠ 0x43424457 then none
  else
    let (recordCount,bytes) ← readUInt32 bytes
    let (fieldCount,bytes) ← readUInt32 bytes
    let (recordSize,bytes) ← readUInt32 bytes
    let (stringSize,bytes) ← readUInt32 bytes
    pure (⟨recordCount,fieldCount,recordSize,stringSize⟩,bytes)

/-- A terminator is not a byte field, and what lies behind it is not taken for one. -/
def fileSizeAt (fmt : List DbcFieldFormat) (i : Nat) : UInt32 := fmt[i]?.elim 4 DbcFieldFormat.fileSize

def accessFormat (fmt : List DbcFieldFormat) (i : Nat) : Run Buffer Unit :=
  access ⟨.fmt,i,1,fmt.length+1⟩

def makeFieldsOffset (fmt : List DbcFieldFormat) (fieldCount : UInt32) :
    Run Buffer (Nat → UInt32) := do
  let accessOffset (i : Nat) : Run Buffer Unit := access ⟨.fieldsOffset,i,1,fieldCount.toNat⟩
  accessOffset 0
  loop (fun i fieldsOffset => do
    accessOffset i
    accessOffset (i+1)
    accessFormat fmt i
    pure (Function.update fieldsOffset (i+1) (fieldsOffset i+fileSizeAt fmt i)))
    (fieldCount.toNat-1) fun _ => 0

/-- `Load`, of a file that may not be there. -/
def load (file : Option (List UInt8)) (fmt : List DbcFieldFormat) :
    Run Buffer (Option DBCFileLoader) :=
  match file.bind readHeader with
  | none => pure none
  | some (header,bytes) => do
    let fieldsOffset ← makeFieldsOffset fmt header.fieldCount
    let size := header.recordSize*header.recordCount+header.stringSize
    if size = 0 ∨ bytes.length < size.toNat then pure none
    else do
      access ⟨.data,0,size.toNat,size.toNat⟩
      pure (some ⟨header,fieldsOffset,bytes.take size.toNat⟩)

namespace TableState

def advance (st : TableState) (size : UInt32) : TableState := { st with offset := st.offset+size }

def put (st : TableState) (field : Field) (size : UInt32) : TableState where
  dataTable := Function.update st.dataTable st.offset.toNat (some field)
  offset := st.offset+size

end TableState

def indexField (fmt : List DbcFieldFormat) : Option Nat :=
  ((List.range fmt.length).reverse.find? fun x =>
    fmt[x]? = some .sort ∨ fmt[x]? = some .ind).filter (· < 2^31)

def getFormatRecordSize (fmt : List DbcFieldFormat) : UInt32 × Option Nat :=
  ((fmt.map DbcFieldFormat.tableSize).sum,indexField fmt)

namespace DBCFileLoader

variable (l : DBCFileLoader)

def getOffset (id : Nat) : Run Buffer UInt32 :=
  if id < l.fieldCount.toNat then do
    access ⟨.fieldsOffset,id,1,l.fieldCount.toNat⟩
    pure (l.fieldsOffset id)
  else pure 0

def field (y x width : Nat) : Run Buffer Nat := do
  let offset ← l.getOffset x
  access ⟨.record,offset.toNat,width,l.recordSize.toNat⟩
  access ⟨.data,y*l.recordSize.toNat+offset.toNat,width,l.data.length⟩
  pure (y*l.recordSize.toNat+offset.toNat)

def getUInt (y x : Nat) : Run Buffer UInt32 := do
  let pos ← l.field y x 4
  pure (uint32At l.data pos)

def getFloat (y x : Nat) : Run Buffer UInt32 := l.getUInt y x

def getUInt8 (y x : Nat) : Run Buffer UInt8 := do
  let pos ← l.field y x 1
  pure (byteAt l.data pos)

def getString (y x : Nat) : Run Buffer UInt32 := do
  let stringOffset ← l.getUInt y x
  access ⟨.stringTable,stringOffset.toNat,1,l.stringSize.toNat⟩
  pure stringOffset

def stringTable : UInt32 := l.recordSize*l.recordCount

def storeField (size : UInt32) (y x : Nat) (format : DbcFieldFormat) (st : TableState) :
    Run Buffer TableState :=
  match format with
  | .float => do
    let value ← l.getFloat y x
    access ⟨.dataTable,st.offset.toNat,4,size.toNat⟩
    pure (st.put (.float value) 4)
  | .ind | .int => do
    let value ← l.getUInt y x
    access ⟨.dataTable,st.offset.toNat,4,size.toNat⟩
    pure (st.put (.int value) 4)
  | .byte => do
    let value ← l.getUInt8 y x
    access ⟨.dataTable,st.offset.toNat,1,size.toNat⟩
    pure (st.put (.byte value) 1)
  | .string => do
    access ⟨.dataTable,st.offset.toNat,8,size.toNat⟩
    pure (st.put (.pointer none) 8)
  | .na | .naByte | .sort => pure st

def fieldTurn (fmt : List DbcFieldFormat)
    (body : Nat → DbcFieldFormat → TableState → Run Buffer TableState) (x : Nat) (st : TableState) :
    Run Buffer TableState := do
  accessFormat fmt x
  match fmt[x]? with
  | some format => body x format st
  | none => pure st

def eachField (fmt : List DbcFieldFormat)
    (body : Nat → DbcFieldFormat → TableState → Run Buffer TableState) :
    TableState → Run Buffer TableState :=
  loop (fieldTurn fmt body) l.fieldCount.toNat

def highestIndex (i : Nat) (sqlHighestIndex : UInt32) : Run Buffer UInt32 := do
  let maxi ← loop (fun y maxi => do
    let ind ← l.getUInt y i
    pure (if ind > maxi then ind else maxi)) l.recordCount.toNat 0
  pure (if sqlHighestIndex > maxi then sqlHighestIndex else maxi)

def makeIndexTable (i : Option Nat) (sqlRecordCount sqlHighestIndex : UInt32) :
    Run Buffer UInt32 :=
  match i with
  | some i => do
    let maxi ← l.highestIndex i sqlHighestIndex
    access ⟨.indexTable,0,(maxi+1).toNat,(maxi+1).toNat⟩
    pure (maxi+1)
  | none => pure (l.recordCount+sqlRecordCount)

def rowOf (i : Option Nat) (y : Nat) : Run Buffer Nat :=
  match i with
  | some i => do
    let ind ← l.getUInt y i
    pure ind.toNat
  | none => pure y

def recordTurn (fmt : List DbcFieldFormat) (i : Option Nat) (records size : UInt32) (y : Nat)
    (state : (Nat → Option UInt32) × TableState) :
    Run Buffer ((Nat → Option UInt32) × TableState) := do
  let row ← l.rowOf i y
  access ⟨.indexTable,row,1,records.toNat⟩
  let st ← l.eachField fmt (l.storeField size y) state.2
  pure (Function.update state.1 row (some state.2.offset),st)

def autoProduceData (fmt : List DbcFieldFormat) (sqlRecordCount sqlHighestIndex : UInt32) :
    Run Buffer (Option Produced) :=
  if fmt.length ≠ l.fieldCount.toNat then pure none
  else do
    let i := (getFormatRecordSize fmt).2
    let records ← l.makeIndexTable i sqlRecordCount sqlHighestIndex
    let size := (l.recordCount+sqlRecordCount)*(getFormatRecordSize fmt).1
    let state ← loop (l.recordTurn fmt i records size) l.recordCount.toNat
      (fun _ => none,⟨fun _ => none,0⟩)
    pure (some ⟨records,state.1,state.2.dataTable,size,state.2.offset⟩)

/-- A slot has a string that is not empty. -/
def isFilled (st : TableState) : Run Buffer Bool :=
  match st.dataTable st.offset.toNat with
  | some (.pointer (some string)) => do
    access ⟨.stringPool,string.toNat,1,l.stringSize.toNat⟩
    pure (byteAt l.data (l.stringTable.toNat+string.toNat) != 0)
  | _ => pure false

def fillString (size : UInt32) (y x : Nat) (st : TableState) : Run Buffer TableState := do
  access ⟨.dataTable,st.offset.toNat,8,size.toNat⟩
  -- fill only not filled entries
  let filled ← l.isFilled st
  if filled then pure (st.advance 8)
  else do
    let string ← l.getString y x
    pure (st.put (.pointer (some string)) 8)

def passField (size : UInt32) (y x : Nat) (format : DbcFieldFormat) (st : TableState) :
    Run Buffer TableState :=
  match format with
  | .string => l.fillString size y x st
  | format => pure (st.advance format.tableSize)

def autoProduceStrings (fmt : List DbcFieldFormat) (produced : Produced) :
    Run Buffer (Option (Nat → Option Field)) :=
  if fmt.length ≠ l.fieldCount.toNat then pure none
  else do
    access ⟨.data,l.stringTable.toNat,l.stringSize.toNat,l.data.length⟩
    access ⟨.stringPool,0,l.stringSize.toNat,l.stringSize.toNat⟩
    let st ← loop (fun y => l.eachField fmt (l.passField produced.dataTableSize y))
      l.recordCount.toNat ⟨produced.dataTable,0⟩
    pure (some st.dataTable)

/-- What is done with a file that is loaded. Without a table there are no strings. -/
def produce (fmt : List DbcFieldFormat) (sqlRecordCount sqlHighestIndex : UInt32) :
    Run Buffer (Option (Nat → Option Field)) := do
  match ← l.autoProduceData fmt sqlRecordCount sqlHighestIndex with
  | none => pure none
  | some produced => l.autoProduceStrings fmt produced

end DBCFileLoader

end TrinityCore.DataStores
