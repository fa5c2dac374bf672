import TrinityCore.Tools.PlayerDump
import TrinityCore.Lib.OrderedSet

set_option autoImplicit false

/-!
The writer of dumps: the queries for the rows of a character, table after table. The ids of its
items, pets and mails are collected on the way, and the tables that depend on them are searched in
chunks, as many ids at a time as a query has room for.
-/

namespace TrinityCore.Tools

def maxQueryLen : Nat := 32*1024

inductive GuidSet where
  | items
  | pets
  | mails
  deriving DecidableEq, Repr

namespace DumpTableType

def fieldname : DumpTableType → String
  | item => "guid"
  | itemGift => "item_guid"
  | pet => "owner"
  | petTable => "guid"
  | mail => "receiver"
  | mailItem => "mail_id"
  | _ => "guid"

/-- The set that a table is searched by. The others are searched by the guid of the character. -/
def guids : DumpTableType → Option GuidSet
  | item | itemGift => some .items
  | petTable => some .pets
  | mailItem => some .mails
  | _ => none

def collects : DumpTableType → Option (GuidSet × Nat)
  | inventory => some (.items,3)
  | pet => some (.pets,0)
  | mail => some (.mails,0)
  | mailItem => some (.items,1)
  | _ => none

end DumpTableType

section Rows

structure Field where
  text : List Char
  number : UInt32
  deriving DecidableEq

/-- A row, and what it has in the column that its table is searched by. -/
structure Row where
  key : Nat
  fields : List Field
  deriving DecidableEq

def Row.getUInt32 (row : Row) (field : Nat) : Nat :=
  (row.fields[field]?.map fun f => f.number.toNat).getD 0

end Rows

section Where

def digits (n : Nat) : List Char := Nat.toDigits 10 n

def guidWhere (fieldname : String) (guid : Nat) : List Char :=
  fieldname.toList ++ " = '".toList ++ digits guid ++ "'".toList

def listWhere (fieldname : String) (ids : List Nat) : List Char :=
  fieldname.toList ++ " IN ('".toList ++ "', '".toList.intercalate (ids.map digits) ++ "')".toList

/-- What is written, the ids that are in it, and those that are left. -/
structure Chunk where
  wherestr : List Char
  taken : List Nat
  rest : List Nat

/-- The loop that writes ids until there are no more, or the query is nearly full. -/
def whereLoop (wherestr : List Char) : List Nat → Chunk
  | [] => ⟨wherestr,[],[]⟩
  | id :: rest =>
    if (wherestr ++ digits id).length > maxQueryLen-50 then ⟨wherestr ++ digits id,[id],rest⟩
    else
      let next := whereLoop
        (if rest ≠ [] then wherestr ++ digits id ++ "', '".toList else wherestr ++ digits id) rest
      { next with taken := id :: next.taken }

def generateWhereStr (fieldname : String) (ids : List Nat) : Chunk :=
  let chunk := whereLoop (fieldname.toList ++ " IN ('".toList) ids
  { chunk with wherestr := chunk.wherestr ++ "')".toList }

theorem whereLoop_lists (wherestr : List Char) (ids : List Nat) :
    (whereLoop wherestr ids).wherestr =
        wherestr ++ "', '".toList.intercalate ((whereLoop wherestr ids).taken.map digits) ∧
      (whereLoop wherestr ids).taken ++ (whereLoop wherestr ids).rest = ids ∧
      (ids ≠ [] → (whereLoop wherestr ids).taken ≠ []) := by
  induction ids generalizing wherestr with
  | nil => exact ⟨(List.append_nil _).symm,rfl,fun h => h⟩
  | cons id rest ih =>
    unfold whereLoop
    by_cases hfull : (wherestr ++ digits id).length > maxQueryLen-50
    · rw [if_pos hfull]
      refine ⟨?_,rfl,fun _ => List.cons_ne_nil id []⟩
      rw [List.map_singleton,List.intercalate_singleton]
    · rw [if_neg hfull]
      dsimp only
      by_cases hrest : rest = []
      · subst hrest
        refine ⟨?_,rfl,fun _ => List.cons_ne_nil id _⟩
        exact congrArg (fun text => wherestr ++ text) List.intercalate_singleton.symm
      · obtain ⟨htext,hids,hne⟩ := ih (wherestr ++ digits id ++ "', '".toList)
        rw [if_pos hrest]
        refine ⟨?_,by rw [List.cons_append,hids],fun _ => List.cons_ne_nil id _⟩
        rw [htext,List.map_cons,List.intercalate_cons_of_ne_nil (by simpa using hne hrest)]
        simp only [List.append_assoc]

theorem generateWhereStr_lists (fieldname : String) (ids : List Nat) :
    (generateWhereStr fieldname ids).wherestr =
      listWhere fieldname (generateWhereStr fieldname ids).taken := by
  unfold generateWhereStr listWhere
  dsimp only
  rw [(whereLoop_lists _ ids).1]

theorem generateWhereStr_append (fieldname : String) (ids : List Nat) :
    (generateWhereStr fieldname ids).taken ++ (generateWhereStr fieldname ids).rest = ids :=
  (whereLoop_lists _ ids).2.1

theorem generateWhereStr_ne_nil (fieldname : String) {ids : List Nat} (h : ids ≠ []) :
    (generateWhereStr fieldname ids).taken ≠ [] :=
  (whereLoop_lists _ ids).2.2 h

end Where

section Database

structure Statement where
  table : DumpTable
  ids : List Nat
  wherestr : List Char
  lists : wherestr = listWhere table.type.fieldname ids ∨
    ∃ guid, ids = [guid] ∧ wherestr = guidWhere table.type.fieldname guid

def Statement.text (st : Statement) : List Char :=
  "SELECT * FROM ".toList ++ st.table.name.toList ++ " WHERE ".toList ++ st.wherestr

def guidStatement (table : DumpTable) (guid : Nat) : Statement :=
  ⟨table,[guid],guidWhere table.type.fieldname guid,.inr ⟨guid,rfl,rfl⟩⟩

def listStatement (table : DumpTable) (ids : List Nat) : Statement :=
  ⟨table,ids,listWhere table.type.fieldname ids,.inl rfl⟩

def chunkStatement (table : DumpTable) (ids : List Nat) : Statement :=
  ⟨table,(generateWhereStr table.type.fieldname ids).taken,
    (generateWhereStr table.type.fieldname ids).wherestr,
    .inl (generateWhereStr_lists table.type.fieldname ids)⟩

/-- The database: a query returns the rows that it asks for, in any order. `PQuery` has room for
`MAX_QUERY_LEN` characters with the one that ends the string; a query that is cut off there is not
valid, and returns nothing. -/
structure Database where
  rows : DumpTable → List Row
  select : Statement → List Row
  whole : ∀ st, st.text.length < maxQueryLen →
    (select st).Perm ((rows st.table).filter fun row => row.key ∈ st.ids)
  cut : ∀ st, ¬ st.text.length < maxQueryLen → select st = []

end Database

section Writer

/-- The lines that are written, each with its table and row, the ids that are collected, and the
queries that were made. -/
structure PlayerDumpWriter where
  dump : List (DumpTable × Row)
  guids : GuidSet → Finset Nat
  queries : List Statement

namespace PlayerDumpWriter

variable (w : PlayerDumpWriter)

def empty : PlayerDumpWriter := ⟨[],fun _ => ∅,[]⟩

def send (st : Statement) : PlayerDumpWriter := { w with queries := w.queries ++ [st] }

def storeGUID (set : GuidSet) (guid : Nat) : PlayerDumpWriter :=
  if guid ≠ 0 then { w with guids := Function.update w.guids set (insert guid (w.guids set)) } else w

def take (table : DumpTable) (row : Row) : PlayerDumpWriter :=
  let w := match table.type.collects with
    | none => w
    | some (set,field) => w.storeGUID set (row.getUInt32 field)
  { w with dump := w.dump ++ [(table,row)] }

def text (esc : Escaping) : List Char :=
  ("IMPORTANT NOTE: THIS DUMPFILE IS MADE FOR USE WITH THE 'PDUMP' COMMAND ONLY - EITHER THROUGH " ++
    "INGAME CHAT OR ON CONSOLE!\nIMPORTANT NOTE: DO NOT apply it directly - it will irreversibly " ++
    "DAMAGE and CORRUPT your database! You have been warned!\n\n").toList ++
  w.dump.flatMap fun line =>
    createDumpString esc line.1.name (line.2.fields.map Field.text) ++ ['\n']

/-- The rows of a result. The dump fails at a character that is deleted: `deleteInfos_Account`. -/
def dumpRows (table : DumpTable) : List Row → PlayerDumpWriter → Option PlayerDumpWriter
  | [],w => some w
  | row :: rows,w =>
    if table.type = .character ∧ row.getUInt32 68 ≠ 0 then none
    else dumpRows table rows (w.take table row)

def dumpSet (db : Database) (table : DumpTable) :
    Nat → List Nat → PlayerDumpWriter → Option PlayerDumpWriter
  | 0,_,w => some w
  | n+1,ids,w =>
    let st := chunkStatement table ids
    let result := db.select st
    if result.isEmpty then some (w.send st)
    else
      (dumpRows table result (w.send st)).bind fun w =>
        let rest := (generateWhereStr table.type.fieldname ids).rest
        if rest = [] then some w else dumpSet db table n rest w

def dumpTable (db : Database) (guid : Nat) (table : DumpTable) : Option PlayerDumpWriter :=
  match table.type.guids with
  | none => dumpRows table (db.select (guidStatement table guid)) (w.send (guidStatement table guid))
  | some set =>
    if w.guids set = ∅ then some w
    else dumpSet db table (w.guids set).card (OrderedSet.elems (w.guids set)) w

end PlayerDumpWriter

/-- The dump of a character, if it is not deleted. -/
def getDump (db : Database) (guid : Nat) : Option PlayerDumpWriter :=
  dumpTables.foldlM (fun w table => w.dumpTable db guid table) PlayerDumpWriter.empty

end Writer

end TrinityCore.Tools
