import TrinityCore.DataStores.DBCFileLoader

set_option autoImplicit false

/-!
When a loader stays inside its arrays. The format is only compared with the number of fields after it
was read, and nothing compares it with the size of a record; sizes and the highest index are numbers of
32 bits that start again.
-/

namespace TrinityCore.DataStores

open Accesses DbcFieldFormat

def uint32Max : UInt32 := 0xFFFFFFFF

theorem toNat_uint32Max : uint32Max.toNat = 2^32-1 := rfl

section Conditions

def fileOffset (fmt : List DbcFieldFormat) (x : Nat) : UInt32 :=
  ((List.range x).map (fileSizeAt fmt)).sum

/-- The size of the first fields of a record in the table, as a number. -/
def tableOffset (fmt : List DbcFieldFormat) (x : Nat) : Nat :=
  ((fmt.take x).map fun format => format.tableSize.toNat).sum

def DbcFieldFormat.readWidth : DbcFieldFormat → Nat
  | .float | .int | .ind => 4
  | .byte => 1
  | .string | .sort | .na | .naByte => 0

namespace DBCFileLoader

variable (l : DBCFileLoader) (fmt : List DbcFieldFormat)

def FieldAt (y x width : Nat) : Prop :=
  (fileOffset fmt x).toNat+width ≤ l.recordSize.toNat ∧
    y*l.recordSize.toNat+(fileOffset fmt x).toNat+width ≤ l.data.length

def valueAt (y x : Nat) : UInt32 :=
  uint32At l.data (y*l.recordSize.toNat+(fileOffset fmt x).toNat)

def Reads (x width : Nat) : Prop :=
  (∃ format, fmt[x]? = some format ∧ format.readWidth = width ∧ 0 < width) ∨
    (fmt[x]? = some .string ∧ width = 4) ∨ (indexField fmt = some x ∧ width = 4)

/-- There is a row for each record: no index is the highest number there is, or without an index the
rows are not too many. -/
def RowsFit (sqlRecordCount sqlHighestIndex : UInt32) : Option Nat → Prop
  | some i => sqlHighestIndex ≠ uint32Max ∧
      ∀ y < l.recordCount.toNat, l.valueAt fmt y i ≠ uint32Max
  | none => l.recordCount.toNat+sqlRecordCount.toNat < 2^32

/-- What the header, the format and the records have to be for each other, if the format has as many
fields as the header says. -/
structure Sound (sqlRecordCount sqlHighestIndex : UInt32) : Prop where
  reads : 0 < l.recordCount.toNat → ∀ x width, Reads fmt x width →
    l.FieldAt fmt (l.recordCount.toNat-1) x width
  rows : 0 < l.recordCount.toNat →
    l.RowsFit fmt sqlRecordCount sqlHighestIndex (indexField fmt)
  table : l.recordCount.toNat*tableOffset fmt fmt.length ≤
    ((l.recordCount+sqlRecordCount)*(fmt.map tableSize).sum).toNat
  strings : l.stringTable.toNat+l.stringSize.toNat < 2^32
  offsets : ∀ y < l.recordCount.toNat, ∀ x, fmt[x]? = some .string →
    l.valueAt fmt y x < l.stringSize

/-- There is a field, the format is not left behind by more than its terminator, and if it has as many
fields as the header says, everything is sound. -/
structure Fits (sqlRecordCount sqlHighestIndex : UInt32) : Prop where
  someField : 0 < l.fieldCount.toNat
  fewFields : l.fieldCount.toNat ≤ fmt.length+2
  sound : fmt.length = l.fieldCount.toNat → l.Sound fmt sqlRecordCount sqlHighestIndex

/-- The offsets of the fields and the size of the data are what they were made to be. -/
structure Laid : Prop where
  offsets : ∀ x < l.fieldCount.toNat, l.fieldsOffset x = fileOffset fmt x
  size : l.data.length = (l.recordSize*l.recordCount+l.stringSize).toNat

end DBCFileLoader

end Conditions

section Loading

variable {fmt : List DbcFieldFormat} {l : DBCFileLoader} {file : Option (List UInt8)}

theorem fileOffset_succ (fmt : List DbcFieldFormat) (x : Nat) :
    fileOffset fmt (x+1) = fileOffset fmt x+fileSizeAt fmt x := by
  unfold fileOffset
  rw [List.range_succ,List.map_append,List.sum_append,List.map_singleton,List.sum_singleton]

theorem inside_makeFieldsOffset (fieldCount : UInt32) :
    (makeFieldsOffset fmt fieldCount).Inside ↔
      0 < fieldCount.toNat ∧ fieldCount.toNat ≤ fmt.length+2 := by
  unfold makeFieldsOffset accessFormat
  simp only [inside_bind,inside_access,inside_loop,inside_pure,and_true,Access.Inside]
  constructor
  · rintro ⟨hsome,hturns⟩
    refine ⟨by omega,?_⟩
    by_contra hmany
    have hlast := hturns (fieldCount.toNat-2) (by omega)
    omega
  · rintro ⟨hsome,hfew⟩
    exact ⟨by omega,fun i hi => ⟨by omega,by omega,by omega⟩⟩

theorem value_makeFieldsOffset (fieldCount : UInt32) {x : Nat} (hx : x < fieldCount.toNat) :
    (makeFieldsOffset fmt fieldCount).value x = fileOffset fmt x := by
  have hall : ∀ x ≤ fieldCount.toNat-1,
      (makeFieldsOffset fmt fieldCount).value x = fileOffset fmt x := by
    apply loop_invariant fun n (fieldsOffset : Nat → UInt32) =>
      ∀ x ≤ n, fieldsOffset x = fileOffset fmt x
    case h =>
      intro x hx
      rw [Nat.le_zero.mp hx]
      rfl
    case hstep =>
      intro i _ fieldsOffset h x hx
      simp only [value_bind,value_pure]
      by_cases heq : x = i+1
      · rw [heq,Function.update_self,h i le_rfl,fileOffset_succ]
      · rw [Function.update_of_ne heq]
        exact h x (by omega)
  exact hall x (by omega)

theorem load_some (h : (load file fmt).value = some l) : l.Laid fmt ∧
    ((load file fmt).Inside ↔ 0 < l.fieldCount.toNat ∧ l.fieldCount.toNat ≤ fmt.length+2) := by
  unfold load at h ⊢
  cases hfile : file.bind readHeader with
  | none =>
    rw [hfile] at h
    cases h
  | some read =>
    obtain ⟨header,bytes⟩ := read
    rw [hfile] at h
    dsimp only at h ⊢
    rw [value_bind] at h
    rw [inside_bind,inside_makeFieldsOffset]
    split_ifs at h ⊢ with hrefused
    simp only [value_bind,value_pure,Option.some.injEq] at h
    rw [← h]
    obtain ⟨-,hlong⟩ := not_or.mp hrefused
    refine ⟨⟨fun x hx => value_makeFieldsOffset _ hx,?_⟩,?_⟩
    · exact List.length_take_of_le (by omega)
    · simp [Access.Inside]

end Loading

section Reading

variable {fmt : List DbcFieldFormat} {l : DBCFileLoader} {x y w : Nat}

theorem getOffset_spec (h : l.Laid fmt) (hx : x < l.fieldCount.toNat) :
    (l.getOffset x).Inside ∧ (l.getOffset x).value = fileOffset fmt x := by
  unfold DBCFileLoader.getOffset
  rw [if_pos hx]
  simp only [inside_bind,inside_access,inside_pure,and_true,value_bind,value_pure]
  exact ⟨hx,h.offsets x hx⟩

theorem field_spec (h : l.Laid fmt) (hx : x < l.fieldCount.toNat) :
    ((l.field y x w).Inside ↔ l.FieldAt fmt y x w) ∧
      (l.field y x w).value = y*l.recordSize.toNat+(fileOffset fmt x).toNat := by
  obtain ⟨hinside,hvalue⟩ := getOffset_spec h hx
  unfold DBCFileLoader.field
  simp only [inside_bind,inside_access,inside_pure,and_true,value_bind,value_pure,hvalue,hinside,
    true_and]
  exact Iff.rfl

theorem getUInt_spec (h : l.Laid fmt) (hx : x < l.fieldCount.toNat) :
    ((l.getUInt y x).Inside ↔ l.FieldAt fmt y x 4) ∧ (l.getUInt y x).value = l.valueAt fmt y x := by
  obtain ⟨hinside,hvalue⟩ := field_spec h hx (y:=y) (w:=4)
  unfold DBCFileLoader.getUInt
  simp only [inside_bind,inside_pure,and_true,value_bind,value_pure,hvalue,hinside]
  exact ⟨trivial,rfl⟩

theorem inside_getUInt8 (h : l.Laid fmt) (hx : x < l.fieldCount.toNat) :
    (l.getUInt8 y x).Inside ↔ l.FieldAt fmt y x 1 := by
  unfold DBCFileLoader.getUInt8
  simp only [inside_bind,inside_pure,and_true]
  exact (field_spec h hx).1

theorem getString_spec (h : l.Laid fmt) (hx : x < l.fieldCount.toNat) :
    (l.getString y x).Inside ↔ l.FieldAt fmt y x 4 ∧ l.valueAt fmt y x < l.stringSize := by
  obtain ⟨hinside,hvalue⟩ := getUInt_spec h hx (y:=y)
  unfold DBCFileLoader.getString
  simp only [inside_bind,inside_access,inside_pure,and_true,hinside,hvalue,UInt32.lt_iff_toNat_lt]
  exact .rfl

theorem fieldAt_all (h : 0 < l.recordCount.toNat) :
    (∀ y < l.recordCount.toNat, l.FieldAt fmt y x w) ↔
      l.FieldAt fmt (l.recordCount.toNat-1) x w := by
  constructor
  · exact fun hall => hall _ (by omega)
  · rintro ⟨hrecord,hdata⟩ y hy
    refine ⟨hrecord,?_⟩
    have hle : y*l.recordSize.toNat ≤ (l.recordCount.toNat-1)*l.recordSize.toNat :=
      Nat.mul_le_mul_right _ (by omega)
    omega

end Reading

section Tables

open DBCFileLoader

variable {fmt : List DbcFieldFormat} {l : DBCFileLoader} {x y k : Nat} {size : UInt32}
  {format : DbcFieldFormat} {st : TableState}
  {body : Nat → DbcFieldFormat → TableState → Run Buffer TableState}

/-- The table is filled up to a number of bytes, which starts again at 2^32. -/
def TableState.At (k : Nat) (st : TableState) : Prop := st.offset.toNat = k%2^32

def Unfilled (dataTable : Nat → Option Field) : Prop :=
  ∀ pos string, dataTable pos ≠ some (.pointer (some string))

/-- The fields of a record that is written from a position on are in the table. -/
def CellsFit (fmt : List DbcFieldFormat) (size : UInt32) (k : Nat) : Prop :=
  ∀ x format, fmt[x]? = some format → 0 < format.tableSize.toNat →
    (k+tableOffset fmt x)%2^32+format.tableSize.toNat ≤ size.toNat

theorem tableOffset_succ (h : fmt[x]? = some format) :
    tableOffset fmt (x+1) = tableOffset fmt x+format.tableSize.toNat := by
  unfold tableOffset
  rw [List.take_add_one,h]
  simp

theorem tableOffset_le (fmt : List DbcFieldFormat) (x : Nat) :
    tableOffset fmt x ≤ tableOffset fmt fmt.length := by
  unfold tableOffset
  rw [List.take_length]
  exact ((List.take_sublist x fmt).map _).sum_le_sum fun _ _ => Nat.zero_le _

theorem At.advance (h : st.At k) (width : UInt32) {st' : TableState}
    (hst : st'.offset = st.offset+width) : st'.At (k+width.toNat) := by
  unfold TableState.At at h ⊢
  rw [hst,UInt32.toNat_add,h]
  omega

theorem inside_eachField (hlen : fmt.length = l.fieldCount.toNat) :
    (l.eachField fmt body st).Inside ↔ ∀ x format, fmt[x]? = some format →
      (body x format (loop (fieldTurn fmt body) x st).value).Inside := by
  unfold eachField
  rw [inside_loop,← hlen]
  constructor
  · intro h x format hx
    have hturn := h x (List.getElem?_eq_some_iff.mp hx).1
    unfold fieldTurn at hturn
    rw [inside_bind,hx] at hturn
    exact hturn.2
  · intro h x hx
    unfold fieldTurn accessFormat
    rw [inside_bind,inside_access,List.getElem?_eq_getElem hx]
    exact ⟨Nat.le_succ_of_le hx,h x _ (List.getElem?_eq_getElem hx)⟩

theorem fields_invariant (P : Nat → TableState → Prop) (h : P 0 st)
    (hstep : ∀ x format st, fmt[x]? = some format → P x st → P (x+1) (body x format st).value) :
    ∀ x ≤ fmt.length, P x (loop (fieldTurn fmt body) x st).value := by
  intro x hx
  apply loop_invariant P h
  intro i hi st hst
  have hget := List.getElem?_eq_getElem (Nat.lt_of_lt_of_le hi hx)
  unfold fieldTurn
  rw [value_bind,hget]
  exact hstep i _ st hget hst

theorem offset_storeField (format : DbcFieldFormat) (st : TableState) :
    (l.storeField size y x format st).value.offset = st.offset+format.tableSize := by
  cases format <;> first | rfl | exact (UInt32.add_zero _).symm

theorem unfilled_storeField (format : DbcFieldFormat) (h : Unfilled st.dataTable) :
    Unfilled (l.storeField size y x format st).value.dataTable := by
  have hput : ∀ (field : Field) (width : UInt32), (∀ string, field ≠ .pointer (some string)) →
      Unfilled (st.put field width).dataTable := by
    intro field width hfield pos string
    unfold TableState.put
    dsimp only
    by_cases heq : pos = st.offset.toNat
    · rw [heq,Function.update_self]
      exact fun hsome => hfield string (Option.some.inj hsome)
    · rw [Function.update_of_ne heq]
      exact h pos string
  cases format with
  | na | naByte | sort => exact h
  | float | int | ind | byte | string => exact hput _ _ (by simp)

theorem inside_storeField (h : l.Laid fmt) (hx : x < l.fieldCount.toNat) :
    (l.storeField size y x format st).Inside ↔
      (0 < format.readWidth → l.FieldAt fmt y x format.readWidth) ∧
      (0 < format.tableSize.toNat → st.offset.toNat+format.tableSize.toNat ≤ size.toNat) := by
  cases format with
  | na | naByte | sort => simp [storeField,readWidth,tableSize]
  | float | int | ind =>
    simp [storeField,readWidth,tableSize,getFloat,(getUInt_spec h hx).1,Access.Inside]
  | byte => simp [storeField,readWidth,tableSize,inside_getUInt8 h hx,Access.Inside]
  | string => simp [storeField,readWidth,tableSize,Access.Inside]

theorem at_fields (h : st.At k) (hx : x ≤ fmt.length) :
    (loop (fieldTurn fmt (l.storeField size y)) x st).value.At (k+tableOffset fmt x) := by
  refine fields_invariant (fun x st => st.At (k+tableOffset fmt x)) ?_ ?_ x hx
  · exact h
  · intro x format st hget hst
    rw [tableOffset_succ hget,← Nat.add_assoc]
    exact At.advance hst format.tableSize (offset_storeField format st)

theorem inside_record (h : l.Laid fmt) (hlen : fmt.length = l.fieldCount.toNat) (hst : st.At k) :
    (l.eachField fmt (l.storeField size y) st).Inside ↔
      (∀ x format, fmt[x]? = some format → 0 < format.readWidth →
        l.FieldAt fmt y x format.readWidth) ∧ CellsFit fmt size k := by
  have hfield : ∀ x format, fmt[x]? = some format →
      ((l.storeField size y x format
          (loop (fieldTurn fmt (l.storeField size y)) x st).value).Inside ↔
        (0 < format.readWidth → l.FieldAt fmt y x format.readWidth) ∧
        (0 < format.tableSize.toNat →
          (k+tableOffset fmt x)%2^32+format.tableSize.toNat ≤ size.toNat)) := by
    intro x format hget
    have hx := (List.getElem?_eq_some_iff.mp hget).1
    rw [inside_storeField h (hlen ▸ hx),at_fields hst hx.le]
  rw [inside_eachField hlen]
  constructor
  · exact fun hall => ⟨fun x format hget => ((hfield x format hget).mp (hall x format hget)).1,
      fun x format hget => ((hfield x format hget).mp (hall x format hget)).2⟩
  · exact fun hall x format hget =>
      (hfield x format hget).mpr ⟨hall.1 x format hget,hall.2 x format hget⟩

theorem cellsFit_end (hk : k ≤ size.toNat) (h : CellsFit fmt size k) :
    k+tableOffset fmt fmt.length ≤ size.toNat := by
  have hall : ∀ x ≤ fmt.length, k+tableOffset fmt x ≤ size.toNat := by
    intro x
    induction x with
    | zero => exact fun _ => hk
    | succ x ih =>
      intro hx
      have hget := List.getElem?_eq_getElem (Nat.lt_of_succ_le hx)
      have hbefore := ih (Nat.le_of_succ_le hx)
      rw [tableOffset_succ hget]
      rcases Nat.eq_zero_or_pos (fmt[x]).tableSize.toNat with hzero | hpos
      · omega
      · have hcell := h x _ hget hpos
        have hlt := size.toNat_lt
        rw [Nat.mod_eq_of_lt (by omega)] at hcell
        omega
  exact hall _ le_rfl

theorem cells_iff (fmt : List DbcFieldFormat) (size : UInt32) (n : Nat) :
    (∀ y < n, CellsFit fmt size (y*tableOffset fmt fmt.length)) ↔
      n*tableOffset fmt fmt.length ≤ size.toNat := by
  constructor
  · intro h
    induction n with
    | zero => simp
    | succ n ih =>
      rw [Nat.succ_mul]
      exact cellsFit_end (ih fun y hy => h y (Nat.lt_succ_of_lt hy)) (h n (Nat.lt_succ_self n))
  · intro h y hy x format hget _
    have hrow : (y+1)*tableOffset fmt fmt.length ≤ n*tableOffset fmt fmt.length :=
      Nat.mul_le_mul_right _ hy
    have hcell := tableOffset_le fmt (x+1)
    have hlt := size.toNat_lt
    rw [tableOffset_succ hget] at hcell
    rw [Nat.succ_mul] at hrow
    rw [Nat.mod_eq_of_lt (by omega)]
    omega

end Tables

section Rows

open DBCFileLoader

variable {fmt : List DbcFieldFormat} {l : DBCFileLoader} {i x y k n : Nat}
  {size records sqlRecordCount sqlHighestIndex : UInt32}

theorem le_highest (a b : UInt32) : a ≤ (if b > a then b else a) ∧ b ≤ (if b > a then b else a) := by
  split_ifs with hlt
  · exact ⟨UInt32.le_of_lt hlt,UInt32.le_refl b⟩
  · exact ⟨UInt32.le_refl a,UInt32.not_lt.mp hlt⟩

theorem eq_max_of_le {a b : UInt32} (h : a ≤ b) (ha : a = uint32Max) : b = uint32Max := by
  rw [UInt32.le_iff_toNat_le,ha,toNat_uint32Max] at h
  have hlt := b.toNat_lt
  apply UInt32.toNat_inj.mp
  rw [toNat_uint32Max]
  omega

theorem highestIndex_spec (h : l.Laid fmt) (hi : i < l.fieldCount.toNat)
    (sqlHighestIndex : UInt32) :
    ((l.highestIndex i sqlHighestIndex).Inside ↔
      ∀ y < l.recordCount.toNat, l.FieldAt fmt y i 4) ∧
    ((l.highestIndex i sqlHighestIndex).value = uint32Max ↔ sqlHighestIndex = uint32Max ∨
      ∃ y < l.recordCount.toNat, l.valueAt fmt y i = uint32Max) ∧
    ∀ y < l.recordCount.toNat, l.valueAt fmt y i ≤ (l.highestIndex i sqlHighestIndex).value := by
  let body := fun (y : Nat) (maxi : UInt32) => do
    let ind ← l.getUInt y i
    pure (if ind > maxi then ind else maxi)
  let maxi := (loop body l.recordCount.toNat 0).value
  have hmaxi : (∀ y < l.recordCount.toNat, l.valueAt fmt y i ≤ maxi) ∧
      (maxi = 0 ∨ ∃ y < l.recordCount.toNat, l.valueAt fmt y i = maxi) := by
    apply loop_invariant fun n (maxi : UInt32) => (∀ y < n, l.valueAt fmt y i ≤ maxi) ∧
      (maxi = 0 ∨ ∃ y < n, l.valueAt fmt y i = maxi)
    case h => exact ⟨fun _ hy => absurd hy (Nat.not_lt_zero _),.inl rfl⟩
    case hstep =>
      intro n _ maxi hbefore
      obtain ⟨hle,hone⟩ := hbefore
      rw [value_bind,value_pure,(getUInt_spec h hi).2]
      obtain ⟨hold,hnew⟩ := le_highest maxi (l.valueAt fmt n i)
      constructor
      · intro y hy
        rcases Nat.lt_succ_iff_lt_or_eq.mp hy with hy | rfl
        · exact UInt32.le_trans (hle y hy) hold
        · exact hnew
      · split_ifs
        · exact .inr ⟨n,Nat.lt_succ_self n,rfl⟩
        · exact hone.imp_right fun ⟨y,hy,heq⟩ => ⟨y,Nat.lt_succ_of_lt hy,heq⟩
  have hvalue : (l.highestIndex i sqlHighestIndex).value =
      if sqlHighestIndex > maxi then sqlHighestIndex else maxi := rfl
  obtain ⟨hrecords,hsql⟩ := le_highest maxi sqlHighestIndex
  rw [← hvalue] at hrecords hsql
  refine ⟨?_,⟨?_,?_⟩,fun y hy => UInt32.le_trans (hmaxi.1 y hy) hrecords⟩
  · unfold highestIndex
    simp [(getUInt_spec h hi).1]
  · intro hmax
    rw [hvalue] at hmax
    split_ifs at hmax
    · exact .inl hmax
    · rcases hmaxi.2 with hzero | ⟨y,hy,heq⟩
      · rw [hzero] at hmax
        have hnat := congrArg UInt32.toNat hmax
        rw [toNat_uint32Max] at hnat
        simp at hnat
      · exact .inr ⟨y,hy,heq.trans hmax⟩
  · rintro (hmax | ⟨y,hy,hmax⟩)
    · exact eq_max_of_le hsql hmax
    · exact eq_max_of_le (UInt32.le_trans (hmaxi.1 y hy) hrecords) hmax

/-- The row of a record, without the loader. -/
def rowAt (l : DBCFileLoader) (fmt : List DbcFieldFormat) (i : Option Nat) (y : Nat) : Nat :=
  i.elim y fun i => (l.valueAt fmt y i).toNat

theorem rowOf_spec (h : l.Laid fmt) {i : Option Nat} (hi : ∀ x ∈ i, x < l.fieldCount.toNat) :
    ((l.rowOf i y).Inside ↔ ∀ x ∈ i, l.FieldAt fmt y x 4) ∧
      (l.rowOf i y).value = rowAt l fmt i y := by
  cases i with
  | none => exact ⟨by simp [rowOf],rfl⟩
  | some x =>
    have hx := hi x rfl
    unfold rowOf rowAt
    simp [(getUInt_spec h hx).1,(getUInt_spec h hx).2]

theorem rows_iff (h : l.Laid fmt) {i : Option Nat} (hi : ∀ x ∈ i, x < l.fieldCount.toNat)
    (sqlRecordCount sqlHighestIndex : UInt32) :
    ((l.makeIndexTable i sqlRecordCount sqlHighestIndex).Inside ↔
      ∀ x ∈ i, ∀ y < l.recordCount.toNat, l.FieldAt fmt y x 4) ∧
    ((∀ y < l.recordCount.toNat, rowAt l fmt i y+1 ≤
        (l.makeIndexTable i sqlRecordCount sqlHighestIndex).value.toNat) ↔
      (0 < l.recordCount.toNat → l.RowsFit fmt sqlRecordCount sqlHighestIndex i)) := by
  cases i with
  | none =>
    refine ⟨by simp [makeIndexTable],?_⟩
    have hlt := l.recordCount.toNat_lt
    have hlt' := sqlRecordCount.toNat_lt
    unfold makeIndexTable rowAt RowsFit
    simp only [value_pure,Option.elim_none,UInt32.toNat_add]
    constructor
    · intro hall hsome
      have hlast := hall (l.recordCount.toNat-1) (by omega)
      omega
    · intro hfits y hy
      have hsum := hfits (by omega)
      rw [Nat.mod_eq_of_lt hsum]
      omega
  | some x =>
    obtain ⟨hinside,hmax,hle⟩ := highestIndex_spec h (hi x rfl) sqlHighestIndex
    have hlt := (l.highestIndex x sqlHighestIndex).value.toNat_lt
    constructor
    · unfold makeIndexTable
      simp [hinside,Access.Inside]
    · unfold makeIndexTable rowAt RowsFit
      simp only [value_bind,value_pure,Option.elim_some]
      have hnot : (sqlHighestIndex ≠ uint32Max ∧
          ∀ y < l.recordCount.toNat, l.valueAt fmt y x ≠ uint32Max) ↔
          (l.highestIndex x sqlHighestIndex).value ≠ uint32Max := by
        rw [ne_eq (l.highestIndex x sqlHighestIndex).value,hmax]
        push Not
        rfl
      rw [hnot]
      constructor
      · intro hall hsome heq
        have hfirst := hall 0 hsome
        have hzero : (uint32Max+1).toNat = 0 := rfl
        rw [heq,hzero] at hfirst
        omega
      · intro hne y hy
        have hbound := UInt32.le_iff_toNat_le.mp (hle y hy)
        have hne' := mt UInt32.toNat_inj.mp (hne (by omega))
        have hsucc : ((l.highestIndex x sqlHighestIndex).value+1).toNat =
            (l.highestIndex x sqlHighestIndex).value.toNat+1 := by
          rw [toNat_uint32Max] at hne'
          rw [UInt32.toNat_add,UInt32.toNat_one]
          omega
        omega

theorem records_invariant (i : Option Nat) (hlen : fmt.length = l.fieldCount.toNat) (n : Nat) :
    (loop (l.recordTurn fmt i records size) n (fun _ => none,⟨fun _ => none,0⟩)).value.2.At
        (n*tableOffset fmt fmt.length) ∧
      Unfilled (loop (l.recordTurn fmt i records size) n
        (fun _ => none,⟨fun _ => none,0⟩)).value.2.dataTable := by
  apply loop_invariant fun n (state : (Nat → Option UInt32) × TableState) =>
    state.2.At (n*tableOffset fmt fmt.length) ∧ Unfilled state.2.dataTable
  case h =>
    refine ⟨?_,fun _ string hnone => Option.some_ne_none _ hnone.symm⟩
    rw [Nat.zero_mul]
    rfl
  case hstep =>
    rintro n - ⟨indexTable,st⟩ ⟨hat,hunfilled⟩
    unfold recordTurn eachField
    simp only [value_bind,value_pure]
    rw [Nat.succ_mul,← hlen]
    exact ⟨at_fields hat le_rfl,fields_invariant (fun _ st => Unfilled st.dataTable) hunfilled
      (fun _ _ _ _ h => unfilled_storeField _ h) _ le_rfl⟩

theorem indexField_lt (h : indexField fmt = some i) : i < fmt.length := by
  obtain ⟨hfound,-⟩ := Option.filter_eq_some_iff.mp h
  exact List.mem_range.mp (List.mem_reverse.mp (List.mem_of_find?_eq_some hfound))

theorem inside_recordTurn (h : l.Laid fmt) (hlen : fmt.length = l.fieldCount.toNat)
    {i : Option Nat} (hi : ∀ x ∈ i, x < l.fieldCount.toNat)
    {state : (Nat → Option UInt32) × TableState} (hst : state.2.At k) :
    (l.recordTurn fmt i records size y state).Inside ↔ (∀ x ∈ i, l.FieldAt fmt y x 4) ∧
      rowAt l fmt i y+1 ≤ records.toNat ∧
      (∀ x format, fmt[x]? = some format → 0 < format.readWidth →
        l.FieldAt fmt y x format.readWidth) ∧ CellsFit fmt size k := by
  obtain ⟨hrow,hvalue⟩ := rowOf_spec (y:=y) h hi
  unfold recordTurn
  simp only [inside_bind,inside_access,inside_pure,and_true,Access.Inside,hrow,hvalue,
    inside_record h hlen hst]

theorem autoProduceData_spec (h : l.Laid fmt) (hlen : fmt.length = l.fieldCount.toNat)
    (sqlRecordCount sqlHighestIndex : UInt32) :
    ((l.autoProduceData fmt sqlRecordCount sqlHighestIndex).Inside ↔
      (∀ x ∈ indexField fmt, ∀ y < l.recordCount.toNat, l.FieldAt fmt y x 4) ∧
      (∀ y < l.recordCount.toNat, ∀ x format, fmt[x]? = some format → 0 < format.readWidth →
        l.FieldAt fmt y x format.readWidth) ∧
      (0 < l.recordCount.toNat → l.RowsFit fmt sqlRecordCount sqlHighestIndex (indexField fmt)) ∧
      l.recordCount.toNat*tableOffset fmt fmt.length ≤
        ((l.recordCount+sqlRecordCount)*(fmt.map tableSize).sum).toNat) ∧
    ∃ produced, (l.autoProduceData fmt sqlRecordCount sqlHighestIndex).value = some produced ∧
      produced.dataTableSize = (l.recordCount+sqlRecordCount)*(fmt.map tableSize).sum ∧
      Unfilled produced.dataTable := by
  have hi : ∀ x ∈ indexField fmt, x < l.fieldCount.toNat := fun x hx => hlen ▸ indexField_lt hx
  obtain ⟨hmake,hrows⟩ := rows_iff h hi sqlRecordCount sqlHighestIndex
  unfold autoProduceData getFormatRecordSize
  rw [if_neg (not_not.mpr hlen)]
  constructor
  · simp only [inside_bind,inside_pure,and_true,inside_loop,hmake]
    rw [← cells_iff,← hrows]
    constructor
    · rintro ⟨hindex,hturns⟩
      have hall := fun y hy =>
        (inside_recordTurn h hlen hi (records_invariant _ hlen y).1).mp (hturns y hy)
      exact ⟨hindex,fun y hy => (hall y hy).2.2.1,fun y hy => (hall y hy).2.1,
        fun y hy => (hall y hy).2.2.2⟩
    · rintro ⟨hindex,hreads,hinside,hcells⟩
      refine ⟨hindex,fun y hy => ?_⟩
      exact (inside_recordTurn h hlen hi (records_invariant _ hlen y).1).mpr
        ⟨fun x hx => hindex x hx y hy,hinside y hy,hreads y hy,hcells y hy⟩
  · exact ⟨_,rfl,rfl,(records_invariant _ hlen _).2⟩

end Rows

section Strings

open DBCFileLoader

variable {fmt : List DbcFieldFormat} {l : DBCFileLoader} {x y k : Nat} {size : UInt32}
  {format : DbcFieldFormat} {st : TableState}

/-- The table is filled up to a number of bytes, and there is no string behind. -/
structure Pending (k : Nat) (st : TableState) : Prop where
  offset : st.offset.toNat = k
  unfilled : ∀ pos string, k ≤ pos → st.dataTable pos ≠ some (.pointer (some string))

theorem Pending.advance (h : Pending k st) {width : UInt32} (hk : k+width.toNat < 2^32) :
    Pending (k+width.toNat) (st.advance width) where
  offset := by
    unfold TableState.advance
    rw [UInt32.toNat_add,h.offset,Nat.mod_eq_of_lt hk]
  unfilled := fun pos string hpos => h.unfilled pos string (by omega)

theorem fillString_spec (h : l.Laid fmt) (hx : x < l.fieldCount.toNat) (hst : Pending k st)
    (hk : k+8 < 2^32) :
    ((l.fillString size y x st).Inside ↔ k+8 ≤ size.toNat ∧ l.FieldAt fmt y x 4 ∧
      l.valueAt fmt y x < l.stringSize) ∧
    Pending (k+8) (l.fillString size y x st).value := by
  have hslot : ∀ string, st.dataTable st.offset.toNat ≠ some (.pointer (some string)) :=
    fun string => hst.unfilled _ string hst.offset.ge
  have hfilled : l.isFilled st = pure false := by
    unfold isFilled
    cases hat : st.dataTable st.offset.toNat with
    | none => rfl
    | some field =>
      cases field with
      | float | int | byte => rfl
      | pointer string =>
        cases string with
        | none => rfl
        | some string => exact absurd hat (hslot string)
  unfold fillString
  rw [hfilled]
  constructor
  · simp [Access.Inside,getString_spec h hx,hst.offset]
  · simp only [value_bind,value_pure,Bool.false_eq_true,if_false]
    refine ⟨?_,fun pos string hpos => ?_⟩
    · have hwidth : (8 : UInt32).toNat = 8 := rfl
      unfold TableState.put
      rw [UInt32.toNat_add,hst.offset,hwidth,Nat.mod_eq_of_lt hk]
    · unfold TableState.put
      dsimp only
      rw [Function.update_of_ne (by rw [hst.offset]; omega)]
      exact hst.unfilled pos string (by omega)

theorem passField_spec (h : l.Laid fmt) (hx : x < l.fieldCount.toNat) (hst : Pending k st)
    (hk : k+format.tableSize.toNat < 2^32) :
    ((l.passField size y x format st).Inside ↔ (format = .string → k+8 ≤ size.toNat ∧
      l.FieldAt fmt y x 4 ∧ l.valueAt fmt y x < l.stringSize)) ∧
    Pending (k+format.tableSize.toNat) (l.passField size y x format st).value := by
  unfold passField
  cases format with
  | string =>
    refine ⟨?_,(fillString_spec h hx hst hk).2⟩
    rw [(fillString_spec h hx hst hk).1]
    simp
  | na | naByte | float | int | byte | sort | ind => exact ⟨by simp,hst.advance hk⟩

theorem pending_fields (h : l.Laid fmt) (hlen : fmt.length = l.fieldCount.toNat)
    (hst : Pending k st) (hk : k+tableOffset fmt fmt.length < 2^32) (hx : x ≤ fmt.length) :
    Pending (k+tableOffset fmt x) (loop (fieldTurn fmt (l.passField size y)) x st).value := by
  refine fields_invariant (fun x st => Pending (k+tableOffset fmt x) st) hst ?_ x hx
  intro x format st hget hst
  have hx := (List.getElem?_eq_some_iff.mp hget).1
  have hle := tableOffset_le fmt (x+1)
  rw [tableOffset_succ hget] at hle ⊢
  rw [← Nat.add_assoc]
  exact (passField_spec h (hlen ▸ hx) hst (by omega)).2

theorem inside_strings (h : l.Laid fmt) (hlen : fmt.length = l.fieldCount.toNat)
    (hst : Pending k st) (hk : k+tableOffset fmt fmt.length ≤ size.toNat) :
    (l.eachField fmt (l.passField size y) st).Inside ↔ ∀ x, fmt[x]? = some .string →
      l.FieldAt fmt y x 4 ∧ l.valueAt fmt y x < l.stringSize := by
  have hsize := size.toNat_lt
  have hfield : ∀ x format, fmt[x]? = some format →
      ((l.passField size y x format (loop (fieldTurn fmt (l.passField size y)) x st).value).Inside ↔
        (format = .string → l.FieldAt fmt y x 4 ∧ l.valueAt fmt y x < l.stringSize)) := by
    intro x format hget
    have hx := (List.getElem?_eq_some_iff.mp hget).1
    have hle := tableOffset_le fmt (x+1)
    rw [tableOffset_succ hget] at hle
    rw [(passField_spec h (hlen ▸ hx) (pending_fields h hlen hst (by omega) hx.le) (by omega)).1]
    apply imp_congr_right
    rintro rfl
    have hwidth : tableSize .string = 8 := rfl
    rw [hwidth] at hle
    exact and_iff_right (by simp at hle; omega)
  rw [inside_eachField hlen]
  constructor
  · exact fun hall x hget => (hfield x _ hget).mp (hall x _ hget) rfl
  · exact fun hall x format hget => (hfield x format hget).mpr fun heq => hall x (heq ▸ hget)

theorem inside_autoProduceStrings (h : l.Laid fmt) (hlen : fmt.length = l.fieldCount.toNat)
    {produced : Produced} (hunfilled : Unfilled produced.dataTable)
    (htable : l.recordCount.toNat*tableOffset fmt fmt.length ≤ produced.dataTableSize.toNat) :
    (l.autoProduceStrings fmt produced).Inside ↔
      l.stringTable.toNat+l.stringSize.toNat ≤ l.data.length ∧
      ∀ y < l.recordCount.toNat, ∀ x, fmt[x]? = some .string →
        l.FieldAt fmt y x 4 ∧ l.valueAt fmt y x < l.stringSize := by
  have hsize := produced.dataTableSize.toNat_lt
  have hrow : ∀ y < l.recordCount.toNat, (y+1)*tableOffset fmt fmt.length ≤
      produced.dataTableSize.toNat :=
    fun y hy => (Nat.mul_le_mul_right _ hy).trans htable
  have hpending : ∀ n ≤ l.recordCount.toNat, Pending (n*tableOffset fmt fmt.length)
      (loop (fun y => l.eachField fmt (l.passField produced.dataTableSize y)) n
        ⟨produced.dataTable,0⟩).value := by
    intro n hn
    apply loop_invariant fun n st => Pending (n*tableOffset fmt fmt.length) st
    case h =>
      rw [Nat.zero_mul]
      exact ⟨rfl,fun pos string _ => hunfilled pos string⟩
    case hstep =>
      intro y hy st hst
      have hle := hrow y (by omega)
      rw [Nat.succ_mul] at hle ⊢
      unfold eachField
      rw [← hlen]
      exact pending_fields h hlen hst (by omega) le_rfl
  unfold autoProduceStrings
  rw [if_neg (not_not.mpr hlen)]
  simp only [inside_bind,inside_access,inside_pure,and_true,inside_loop,Access.Inside,Nat.zero_add,
    le_refl,true_and]
  apply and_congr_right
  intro _
  apply forall₂_congr
  intro y hy
  have hle := hrow y hy
  rw [Nat.succ_mul] at hle
  exact inside_strings h hlen (hpending y hy.le) hle

theorem reads_iff (l : DBCFileLoader) (fmt : List DbcFieldFormat) :
    (0 < l.recordCount.toNat → ∀ x width, Reads fmt x width →
      l.FieldAt fmt (l.recordCount.toNat-1) x width) ↔
    (∀ x ∈ indexField fmt, ∀ y < l.recordCount.toNat, l.FieldAt fmt y x 4) ∧
    (∀ y < l.recordCount.toNat, ∀ x format, fmt[x]? = some format → 0 < format.readWidth →
      l.FieldAt fmt y x format.readWidth) ∧
    ∀ y < l.recordCount.toNat, ∀ x, fmt[x]? = some .string → l.FieldAt fmt y x 4 := by
  constructor
  · intro h
    have hall : ∀ y < l.recordCount.toNat, ∀ x width, Reads fmt x width → l.FieldAt fmt y x width :=
      fun y hy x width hreads =>
        (fieldAt_all (by omega)).mpr (h (by omega) x width hreads) y hy
    exact ⟨fun x hx y hy => hall y hy x 4 (.inr (.inr ⟨hx,rfl⟩)),
      fun y hy x format hget hpos => hall y hy x _ (.inl ⟨format,hget,rfl,hpos⟩),
      fun y hy x hget => hall y hy x 4 (.inr (.inl ⟨hget,rfl⟩))⟩
  · rintro ⟨hindex,hfields,hstrings⟩ hsome x width hreads
    have hlast : l.recordCount.toNat-1 < l.recordCount.toNat := by omega
    rcases hreads with ⟨format,hget,rfl,hpos⟩ | ⟨hget,rfl⟩ | ⟨hx,rfl⟩
    · exact hfields _ hlast x format hget hpos
    · exact hstrings _ hlast x hget
    · exact hindex x hx _ hlast

theorem inside_produce (h : l.Laid fmt) (hlen : fmt.length = l.fieldCount.toNat)
    (sqlRecordCount sqlHighestIndex : UInt32) :
    (l.produce fmt sqlRecordCount sqlHighestIndex).Inside ↔
      l.Sound fmt sqlRecordCount sqlHighestIndex := by
  obtain ⟨hdata,produced,hvalue,hsize,hunfilled⟩ :=
    autoProduceData_spec h hlen sqlRecordCount sqlHighestIndex
  have hcopy : l.stringTable.toNat+l.stringSize.toNat ≤ l.data.length ↔
      l.stringTable.toNat+l.stringSize.toNat < 2^32 := by
    have hlt := l.stringTable.toNat_lt
    have hlt' := l.stringSize.toNat_lt
    rw [h.size,UInt32.toNat_add]
    unfold DBCFileLoader.stringTable at hlt ⊢
    omega
  unfold produce
  rw [inside_bind,hvalue,hdata]
  constructor
  · rintro ⟨⟨hindex,hfields,hrows,htable⟩,hstrings⟩
    rw [← hsize] at htable
    obtain ⟨hpool,hoffsets⟩ := (inside_autoProduceStrings h hlen hunfilled htable).mp hstrings
    refine ⟨(reads_iff l fmt).mpr ⟨hindex,hfields,fun y hy x hget => (hoffsets y hy x hget).1⟩,
      hrows,hsize ▸ htable,hcopy.mp hpool,fun y hy x hget => (hoffsets y hy x hget).2⟩
  · intro hsound
    obtain ⟨hindex,hfields,hreads⟩ := (reads_iff l fmt).mp hsound.reads
    refine ⟨⟨hindex,hfields,hsound.rows,hsound.table⟩,?_⟩
    have htable := hsound.table
    rw [← hsize] at htable
    exact (inside_autoProduceStrings h hlen hunfilled htable).mpr
      ⟨hcopy.mpr hsound.strings,fun y hy x hget => ⟨hreads y hy x hget,hsound.offsets y hy x hget⟩⟩

def StaysInside (file : Option (List UInt8)) (fmt : List DbcFieldFormat)
    (sqlRecordCount sqlHighestIndex : UInt32) : Prop :=
  ∀ l, (load file fmt).value = some l →
    (load file fmt).Inside ∧ (l.produce fmt sqlRecordCount sqlHighestIndex).Inside

/-- The loader stays inside its arrays exactly when the file fits. -/
theorem staysInside_iff (file : Option (List UInt8)) (fmt : List DbcFieldFormat)
    (sqlRecordCount sqlHighestIndex : UInt32) :
    StaysInside file fmt sqlRecordCount sqlHighestIndex ↔
      ∀ l, (load file fmt).value = some l → l.Fits fmt sqlRecordCount sqlHighestIndex := by
  apply forall₂_congr
  intro l hl
  obtain ⟨hlaid,hload⟩ := load_some hl
  rw [hload]
  constructor
  · rintro ⟨⟨hsome,hfew⟩,hinside⟩
    exact ⟨hsome,hfew,fun hlen => (inside_produce hlaid hlen _ _).mp hinside⟩
  · rintro ⟨hsome,hfew,hsound⟩
    refine ⟨⟨hsome,hfew⟩,?_⟩
    by_cases hlen : fmt.length = l.fieldCount.toNat
    · exact (inside_produce hlaid hlen _ _).mpr (hsound hlen)
    · unfold produce autoProduceData
      rw [if_pos hlen]
      simp

def shortRecord : List UInt8 :=
  [0x57,0x44,0x42,0x43] ++ [1,0,0,0] ++ [1,0,0,0] ++ [1,0,0,0] ++ [1,0,0,0] ++ [7,0]

/-- The format asks for a number of four bytes, and no check refuses the file. -/
theorem shortRecord_outside : ¬ StaysInside (some shortRecord) [.int] 0 0 := by
  intro h
  have hinside := (h _ rfl).2
  revert hinside
  decide +kernel

end Strings

end TrinityCore.DataStores
