import TrinityCore.Tools.DumpWriter
import TrinityCore.Lib.Chunked

set_option autoImplicit false

namespace TrinityCore.Tools

section Spec

def stored (set : GuidSet) (line : DumpTable × Row) : Option Nat :=
  match line.1.type.collects with
  | none => none
  | some (set',field) =>
    if set' = set ∧ line.2.getUInt32 field ≠ 0 then some (line.2.getUInt32 field) else none

def idsIn (set : GuidSet) (lines : List (DumpTable × Row)) : Finset Nat :=
  (lines.filterMap (stored set)).toFinset

namespace Database

variable (db : Database) (guid : Nat)

def linesBy (kind : Option GuidSet) (keys : Finset Nat) : List (DumpTable × Row) :=
  (dumpTables.filter fun table => table.type.guids = kind).flatMap fun table =>
    ((db.rows table).filter fun row => row.key ∈ keys).map fun row => (table,row)

/-- The ids of the pets and mails of a character, and of the items that it holds or has in a
mail. -/
def ownIds : GuidSet → Finset Nat
  | .pets => idsIn .pets (db.linesBy none {guid})
  | .mails => idsIn .mails (db.linesBy none {guid})
  | .items => idsIn .items (db.linesBy none {guid} ++
      db.linesBy (some .mails) (idsIn .mails (db.linesBy none {guid})))

/-- What the rows of the character have in the column that the table is searched by. -/
def ownKeys (table : DumpTable) : Finset Nat := (table.type.guids.map (db.ownIds guid)).getD {guid}

def Deleted : Prop :=
  ∃ table ∈ dumpTables, table.type = .character ∧
    ∃ row ∈ db.rows table, row.key = guid ∧ row.getUInt32 68 ≠ 0

end Database

def PlayerDumpWriter.linesOf (w : PlayerDumpWriter) (table : DumpTable) : List Row :=
  (w.dump.filter fun line => line.1 = table).map Prod.snd

/-- The rows of the character are written, each once, and nothing else, and the queries are not
too long. -/
structure PlayerDumpWriter.Complete (db : Database) (guid : Nat) (w : PlayerDumpWriter) : Prop where
  lines : ∀ table ∈ dumpTables, (w.linesOf table).Perm
    ((db.rows table).filter fun row => row.key ∈ db.ownKeys guid table)
  only : ∀ line ∈ w.dump, line.1 ∈ dumpTables
  queries : ∀ st ∈ w.queries, st.text.length ≤ maxQueryLen

def chunks (fieldname : String) : Nat → List Nat → List (List Nat)
  | 0,_ => []
  | n+1,ids => (generateWhereStr fieldname ids).taken ::
      if (generateWhereStr fieldname ids).rest = [] then []
      else chunks fieldname n (generateWhereStr fieldname ids).rest

def idChunks (table : DumpTable) (ids : Finset Nat) : List (List Nat) :=
  chunks table.type.fieldname ids.card (OrderedSet.elems ids)

def Database.rowsBy (db : Database) (table : DumpTable) (ids : List Nat) : List Row :=
  (db.rows table).filter fun row => row.key ∈ ids

def Database.answer (db : Database) (table : DumpTable) (chunk : List Nat) : List Row :=
  db.select (listStatement table chunk)

/-- The chunks with rows come first, their queries have room in the buffer, and the query for the
first one without rows is not too long. -/
structure Spread (db : Database) (table : DumpTable) (ids : Finset Nat) : Prop where
  fits : ∀ chunk ∈ idChunks table ids, db.rowsBy table chunk ≠ [] →
    (listStatement table chunk).text.length < maxQueryLen
  first : (idChunks table ids).Pairwise fun chunk chunk' =>
    db.rowsBy table chunk' ≠ [] → db.rowsBy table chunk ≠ []
  short : ∀ chunk, (idChunks table ids).find? (fun chunk => (db.rowsBy table chunk).isEmpty) =
    some chunk → (listStatement table chunk).text.length ≤ maxQueryLen

end Spec

variable {db : Database} {guid id : Nat} {table : DumpTable} {set : GuidSet} {row : Row}
  {w w' : PlayerDumpWriter} {lines lines' : List (DumpTable × Row)} {rows : List Row}
  {keys : Finset Nat}

section Ids

theorem mem_idsIn : id ∈ idsIn set lines ↔ id ≠ 0 ∧ ∃ table row field, (table,row) ∈ lines ∧
    table.type.collects = some (set,field) ∧ row.getUInt32 field = id := by
  unfold idsIn
  rw [List.mem_toFinset,List.mem_filterMap]
  constructor
  · rintro ⟨⟨table,row⟩,hmem,hstored⟩
    unfold stored at hstored
    split at hstored
    · cases hstored
    · rename_i set' field hcollects
      split_ifs at hstored with hset
      cases hstored
      exact ⟨hset.2,table,row,field,hmem,hset.1 ▸ hcollects,rfl⟩
  · rintro ⟨hne,table,row,field,hmem,hcollects,rfl⟩
    refine ⟨(table,row),hmem,?_⟩
    unfold stored
    rw [hcollects]
    exact if_pos ⟨rfl,hne⟩

theorem idsIn_congr (h : ∀ table row field, table.type.collects = some (set,field) →
    ((table,row) ∈ lines ↔ (table,row) ∈ lines')) : idsIn set lines = idsIn set lines' := by
  ext id
  rw [mem_idsIn,mem_idsIn]
  constructor
  · rintro ⟨hne,table,row,field,hmem,hcollects,hid⟩
    exact ⟨hne,table,row,field,(h table row field hcollects).mp hmem,hcollects,hid⟩
  · rintro ⟨hne,table,row,field,hmem,hcollects,hid⟩
    exact ⟨hne,table,row,field,(h table row field hcollects).mpr hmem,hcollects,hid⟩

theorem guids_of_collects {field : Nat} (h : table.type.collects = some (set,field)) :
    table.type.guids = none ∨ (set = .items ∧ table.type.guids = some .mails) := by
  cases htype : table.type <;> rw [htype] at h
  case mailItem =>
    cases h
    exact .inr ⟨rfl,rfl⟩
  case inventory | pet | mail => exact .inl rfl
  all_goals cases h

theorem guids_none_of_collects {field : Nat} (h : table.type.collects = some (set,field))
    (hset : set ≠ .items) : table.type.guids = none :=
  (guids_of_collects h).resolve_right fun hitems => hset hitems.1

theorem ownKeys_eq {kind : Option GuidSet} (h : table.type.guids = kind) :
    db.ownKeys guid table = (kind.map (db.ownIds guid)).getD {guid} := by
  unfold Database.ownKeys
  rw [h]

theorem ownIds_eq (hset : set ≠ .items) :
    db.ownIds guid set = idsIn set (db.linesBy none {guid}) := by
  cases set with
  | items => exact absurd rfl hset
  | pets => rfl
  | mails => rfl

theorem mem_linesBy {kind : Option GuidSet} : (table,row) ∈ db.linesBy kind keys ↔
    table ∈ dumpTables ∧ table.type.guids = kind ∧ row ∈ db.rows table ∧ row.key ∈ keys := by
  unfold Database.linesBy
  rw [List.mem_flatMap]
  constructor
  · rintro ⟨table',htable,hmem⟩
    obtain ⟨row',hrow,heq⟩ := List.mem_map.mp hmem
    cases heq
    rw [List.mem_filter,decide_eq_true_eq] at htable hrow
    exact ⟨htable.1,htable.2,hrow.1,hrow.2⟩
  · rintro ⟨htable,hkind,hrow,hkey⟩
    exact ⟨table,List.mem_filter.mpr ⟨htable,decide_eq_true hkind⟩,
      List.mem_map_of_mem (List.mem_filter.mpr ⟨hrow,decide_eq_true hkey⟩)⟩

end Ids

section Chunks

theorem flatten_chunks (fieldname : String) {n : Nat} {ids : List Nat} (hn : ids.length ≤ n) :
    (chunks fieldname n ids).flatten = ids := by
  induction n generalizing ids with
  | zero => rw [List.eq_nil_of_length_eq_zero (Nat.le_zero.mp hn)]; rfl
  | succ n ih =>
    have happend := generateWhereStr_append fieldname ids
    unfold chunks
    rw [List.flatten_cons]
    by_cases hrest : (generateWhereStr fieldname ids).rest = []
    · rw [if_pos hrest,List.flatten_nil,← hrest,happend]
    · have hids : ids ≠ [] := by
        rintro rfl
        exact hrest (List.append_eq_nil_iff.mp happend).2
      have htaken := List.length_pos_of_ne_nil (generateWhereStr_ne_nil fieldname hids)
      have hlength := congrArg List.length happend
      rw [List.length_append] at hlength
      rw [if_neg hrest,ih (by omega),happend]

theorem flatten_idChunks (table : DumpTable) (ids : Finset Nat) :
    (idChunks table ids).flatten = OrderedSet.elems ids :=
  flatten_chunks _ (OrderedSet.length_elems ids).le

theorem flatMap_rowsBy_perm (db : Database) (table : DumpTable) (ids : Finset Nat) :
    ((idChunks table ids).flatMap (db.rowsBy table)).Perm
      ((db.rows table).filter fun row => row.key ∈ ids) := by
  have hnodup : (idChunks table ids).flatten.Nodup := by
    rw [flatten_idChunks]
    exact OrderedSet.nodup_elems ids
  refine (Chunked.flatMap_filter_perm Row.key (db.rows table) hnodup).trans (List.Perm.of_eq ?_)
  refine List.filter_congr fun row _ => ?_
  rw [flatten_idChunks,decide_eq_decide]
  exact OrderedSet.mem_elems

end Chunks

section Writing

def PlayerDumpWriter.Consistent (w : PlayerDumpWriter) : Prop := ∀ set, w.guids set = idsIn set w.dump

theorem idsIn_concat (set : GuidSet) (lines : List (DumpTable × Row)) (line : DumpTable × Row) :
    idsIn set (lines ++ [line]) = (idsIn set lines) ∪ (stored set line).toFinset := by
  unfold idsIn
  rw [List.filterMap_append,List.toFinset_append]
  cases hstored : stored set line with
  | none => rw [List.filterMap_cons_none hstored]; rfl
  | some id => rw [List.filterMap_cons_some hstored]; rfl

theorem take_spec (w : PlayerDumpWriter) (table : DumpTable) (row : Row) :
    (w.take table row).dump = w.dump ++ [(table,row)] ∧ (w.take table row).queries = w.queries ∧
      (w.Consistent → (w.take table row).Consistent) := by
  unfold PlayerDumpWriter.take PlayerDumpWriter.Consistent
  cases hcollects : table.type.collects with
  | none =>
    refine ⟨rfl,rfl,fun h set => ?_⟩
    have hnone : stored set (table,row) = none := by
      unfold stored
      rw [hcollects]
    dsimp only
    rw [idsIn_concat,hnone,Option.toFinset_none,Finset.union_empty]
    exact h set
  | some collects =>
    obtain ⟨set',field⟩ := collects
    have hstored : ∀ set, stored set (table,row) =
        if set' = set ∧ row.getUInt32 field ≠ 0 then some (row.getUInt32 field) else none := by
      intro set
      unfold stored
      rw [hcollects]
    dsimp only
    unfold PlayerDumpWriter.storeGUID
    by_cases hzero : row.getUInt32 field ≠ 0
    · rw [if_pos hzero]
      refine ⟨rfl,rfl,fun h set => ?_⟩
      dsimp only
      rw [idsIn_concat,hstored]
      by_cases hset : set' = set
      · subst hset
        rw [Function.update_self,if_pos ⟨rfl,hzero⟩,Option.toFinset_some,h]
        exact (Finset.union_singleton _ _).symm
      · rw [Function.update_of_ne (Ne.symm hset),if_neg fun h => hset h.1,Option.toFinset_none,
          Finset.union_empty]
        exact h set
    · rw [if_neg hzero]
      refine ⟨rfl,rfl,fun h set => ?_⟩
      rw [idsIn_concat,hstored,if_neg fun h => hzero h.2,Option.toFinset_none,Finset.union_empty]
      exact h set

/-- The rows of a result are written one after the other, unless the character is deleted. -/
theorem dumpRows_spec (table : DumpTable) (rows : List Row) (w : PlayerDumpWriter)
    (hkept : table.type = .character → ∀ row ∈ rows, row.getUInt32 68 = 0) :
    ∃ w', PlayerDumpWriter.dumpRows table rows w = some w' ∧
      w'.dump = w.dump ++ rows.map (fun row => (table,row)) ∧ w'.queries = w.queries ∧
      (w.Consistent → w'.Consistent) := by
  induction rows generalizing w with
  | nil => exact ⟨w,rfl,(List.append_nil _).symm,rfl,fun h => h⟩
  | cons row rows ih =>
    obtain ⟨hdump,hqueries,hconsistent⟩ := take_spec w table row
    obtain ⟨w',hrun,hdump',hqueries',hconsistent'⟩ := ih (w.take table row) fun htype row' hmem =>
      hkept htype row' (List.mem_cons_of_mem row hmem)
    refine ⟨w',?_,?_,hqueries'.trans hqueries,fun h => hconsistent' (hconsistent h)⟩
    · unfold PlayerDumpWriter.dumpRows
      rw [if_neg fun h => h.2 (hkept h.1 row List.mem_cons_self),hrun]
    · rw [hdump',hdump,List.append_assoc,List.map_cons,List.singleton_append]

theorem dumpRows_none {rows : List Row} (htype : table.type = .character)
    (hdeleted : ∃ row ∈ rows, row.getUInt32 68 ≠ 0) :
    PlayerDumpWriter.dumpRows table rows w = none := by
  induction rows generalizing w with
  | nil => simp at hdeleted
  | cons row rows ih =>
    unfold PlayerDumpWriter.dumpRows
    split_ifs with h
    · rfl
    · rw [List.exists_mem_cons_iff] at hdeleted
      exact ih (hdeleted.resolve_left fun hrow => h ⟨htype,hrow⟩)

theorem chunkStatement_eq (table : DumpTable) (ids : List Nat) : chunkStatement table ids =
    listStatement table (generateWhereStr table.type.fieldname ids).taken := by
  unfold chunkStatement listStatement
  congr 1
  exact generateWhereStr_lists table.type.fieldname ids

theorem dumpSet_spec (db : Database) (htype : table.type ≠ .character) (n : Nat) (ids : List Nat)
    (w : PlayerDumpWriter) : ∃ w', PlayerDumpWriter.dumpSet db table n ids w = some w' ∧
      w'.dump = w.dump ++ (Chunked.answers (db.answer table)
        (chunks table.type.fieldname n ids)).map (fun row => (table,row)) ∧
      w'.queries = w.queries ++ (Chunked.asked (db.answer table)
        (chunks table.type.fieldname n ids)).map (listStatement table) ∧
      (w.Consistent → w'.Consistent) := by
  induction n generalizing ids w with
  | zero => exact ⟨w,rfl,(List.append_nil _).symm,(List.append_nil _).symm,fun h => h⟩
  | succ n ih =>
    unfold PlayerDumpWriter.dumpSet chunks
    dsimp only
    have hselect : db.select (chunkStatement table ids) =
        db.answer table (generateWhereStr table.type.fieldname ids).taken := by
      rw [chunkStatement_eq]
      rfl
    rw [hselect,chunkStatement_eq]
    by_cases hempty : db.answer table (generateWhereStr table.type.fieldname ids).taken = []
    · rw [Chunked.answers_empty hempty,Chunked.asked_empty hempty,if_pos (by simp [hempty])]
      exact ⟨_,rfl,(List.append_nil _).symm,rfl,fun h => h⟩
    · obtain ⟨w₁,hrun,hdump,hqueries,hconsistent⟩ := dumpRows_spec table
        (db.answer table (generateWhereStr table.type.fieldname ids).taken)
        (w.send (listStatement table (generateWhereStr table.type.fieldname ids).taken))
        fun h => absurd h htype
      rw [Chunked.answers_cons hempty,Chunked.asked_cons hempty,if_neg (by simpa using hempty),hrun,
        Option.bind_some]
      by_cases hrest : (generateWhereStr table.type.fieldname ids).rest = []
      · rw [if_pos hrest,if_pos hrest]
        refine ⟨w₁,rfl,?_,hqueries,hconsistent⟩
        rw [hdump,Chunked.answers,List.append_nil]
        rfl
      · rw [if_neg hrest,if_neg hrest]
        obtain ⟨w',hrun',hdump',hqueries',hconsistent'⟩ :=
          ih (generateWhereStr table.type.fieldname ids).rest w₁
        refine ⟨w',hrun',?_,?_,fun h => hconsistent' (hconsistent h)⟩
        · rw [hdump',hdump,List.append_assoc,List.map_append]
          rfl
        · rw [hqueries',hqueries,List.map_cons]
          exact List.append_assoc _ [_] _

/-- The rows that are written for a table, with the sets as they are then. -/
def Database.written (db : Database) (guid : Nat) (table : DumpTable) (guids : GuidSet → Finset Nat) :
    List Row :=
  match table.type.guids with
  | none => db.select (guidStatement table guid)
  | some set => Chunked.answers (db.answer table) (idChunks table (guids set))

def Database.sent (db : Database) (guid : Nat) (table : DumpTable) (guids : GuidSet → Finset Nat) :
    List Statement :=
  match table.type.guids with
  | none => [guidStatement table guid]
  | some set => (Chunked.asked (db.answer table) (idChunks table (guids set))).map (listStatement table)

theorem dumpTable_spec (db : Database) (guid : Nat) (table : DumpTable) (w : PlayerDumpWriter)
    (hkept : table.type = .character →
      ∀ row ∈ db.select (guidStatement table guid), row.getUInt32 68 = 0) :
    ∃ w', w.dumpTable db guid table = some w' ∧
      w'.dump = w.dump ++ (db.written guid table w.guids).map (fun row => (table,row)) ∧
      w'.queries = w.queries ++ db.sent guid table w.guids ∧ (w.Consistent → w'.Consistent) := by
  unfold PlayerDumpWriter.dumpTable Database.written Database.sent
  cases hguids : table.type.guids with
  | none => exact dumpRows_spec table _ (w.send (guidStatement table guid)) hkept
  | some set =>
    dsimp only
    by_cases hempty : w.guids set = ∅
    · rw [if_pos hempty,hempty]
      exact ⟨w,rfl,(List.append_nil _).symm,(List.append_nil _).symm,fun h => h⟩
    · have htype : table.type ≠ .character := by
        intro htype
        rw [htype] at hguids
        cases hguids
      rw [if_neg hempty]
      exact dumpSet_spec db htype _ _ w

def Later (table table' : DumpTable) : Prop :=
  ∀ set ∈ table.type.guids, table'.type.collects.map Prod.fst ≠ some set

instance (table table' : DumpTable) : Decidable (Later table table') :=
  inferInstanceAs (Decidable (∀ set ∈ table.type.guids, _))

theorem written_eq (db : Database) (guid : Nat) {new : List (DumpTable × Row)}
    (hw : w.Consistent) (hw' : w'.Consistent)
    (hdump : w'.dump = w.dump ++ new) (hnew : ∀ line ∈ new, Later table line.1) :
    db.written guid table w.guids = db.written guid table w'.guids ∧
      db.sent guid table w.guids = db.sent guid table w'.guids := by
  unfold Database.written Database.sent
  cases hguids : table.type.guids with
  | none => exact ⟨rfl,rfl⟩
  | some set =>
    have hsame : w.guids set = w'.guids set := by
      rw [hw,hw',hdump]
      refine idsIn_congr fun table' row field hcollects => ?_
      rw [List.mem_append,or_iff_left]
      intro hmem
      exact hnew _ hmem set hguids (by rw [hcollects,Option.map_some])
    dsimp only
    rw [hsame]
    exact ⟨rfl,rfl⟩

theorem dumpTables_spec (db : Database) (guid : Nat) {tables : List DumpTable}
    (hkept : ∀ table ∈ tables, table.type = .character →
      ∀ row ∈ db.select (guidStatement table guid), row.getUInt32 68 = 0)
    (hlater : tables.Pairwise Later) (hself : ∀ table ∈ tables, Later table table)
    (w : PlayerDumpWriter) (hw : w.Consistent) :
    ∃ w', tables.foldlM (fun w table => w.dumpTable db guid table) w = some w' ∧ w'.Consistent ∧
      w'.dump = w.dump ++ tables.flatMap (fun table =>
        (db.written guid table w'.guids).map fun row => (table,row)) ∧
      w'.queries = w.queries ++ tables.flatMap fun table => db.sent guid table w'.guids := by
  induction tables generalizing w with
  | nil => exact ⟨w,rfl,hw,(List.append_nil _).symm,(List.append_nil _).symm⟩
  | cons table tables ih =>
    rw [List.forall_mem_cons] at hkept hself
    obtain ⟨hhead,htail⟩ := List.pairwise_cons.mp hlater
    obtain ⟨w₁,hrun,hdump₁,hqueries₁,hconsistent₁⟩ := dumpTable_spec db guid table w hkept.1
    obtain ⟨w',hrest,hw',hdump,hqueries⟩ := ih hkept.2 htail hself.2 w₁ (hconsistent₁ hw)
    rw [hdump₁,List.append_assoc] at hdump
    have hafter : ∀ line ∈ (db.written guid table w.guids).map (fun row => (table,row)) ++
        tables.flatMap (fun table => (db.written guid table w'.guids).map fun row => (table,row)),
        Later table line.1 := by
      intro line hmem
      rcases List.mem_append.mp hmem with hmem | hmem
      · obtain ⟨row,-,rfl⟩ := List.mem_map.mp hmem
        exact hself.1
      · obtain ⟨table',htable',hmem⟩ := List.mem_flatMap.mp hmem
        obtain ⟨row,-,rfl⟩ := List.mem_map.mp hmem
        exact hhead table' htable'
    obtain ⟨hwritten,hsent⟩ := written_eq db guid hw hw' hdump hafter
    refine ⟨w',?_,hw',?_,?_⟩
    · rw [List.foldlM_cons,hrun]
      exact hrest
    · rw [hdump,List.flatMap_cons,hwritten]
    · rw [hqueries,hqueries₁,List.flatMap_cons,hsent,List.append_assoc]

theorem filter_flatMap_table {tables : List DumpTable} (hnodup : tables.Nodup)
    (rows : DumpTable → List Row) (htable : table ∈ tables) :
    ((tables.flatMap fun table => (rows table).map fun row => (table,row)).filter
      fun line => line.1 = table).map Prod.snd = rows table := by
  have hone : ∀ table', ((rows table').map fun row => (table',row)).filter
      (fun line => line.1 = table) = if table' = table then (rows table').map (fun row => (table',row))
        else [] := by
    intro table'
    split_ifs with heq
    · exact List.filter_eq_self.mpr fun line hmem => by
        obtain ⟨row,-,rfl⟩ := List.mem_map.mp hmem
        exact decide_eq_true heq
    · exact List.filter_eq_nil_iff.mpr fun line hmem => by
        obtain ⟨row,-,rfl⟩ := List.mem_map.mp hmem
        simpa using heq
  induction tables with
  | nil => cases htable
  | cons table' tables ih =>
    obtain ⟨hnot,hnodup⟩ := List.nodup_cons.mp hnodup
    rw [List.flatMap_cons,List.filter_append,hone,List.map_append]
    rcases List.mem_cons.mp htable with rfl | hmem
    · have hother : (tables.flatMap fun table => (rows table).map fun row => (table,row)).filter
          (fun line => line.1 = table) = [] := by
        refine List.filter_eq_nil_iff.mpr fun line hmem => ?_
        obtain ⟨table',htable',hmem⟩ := List.mem_flatMap.mp hmem
        obtain ⟨row,-,rfl⟩ := List.mem_map.mp hmem
        rw [decide_eq_true_eq]
        rintro rfl
        exact hnot htable'
      rw [if_pos rfl,hother,List.map_map,List.map_nil,List.append_nil]
      exact List.map_id (rows table)
    · have hne : table' ≠ table := by
        rintro rfl
        exact hnot hmem
      rw [if_neg hne,ih hnodup hmem]
      rfl

end Writing

section Complete

theorem guidStatement_fits (htable : table ∈ dumpTables) (hguid : guid < 2^32) :
    (guidStatement table guid).text.length < maxQueryLen := by
  have hshort : ∀ table ∈ dumpTables, table.name.toList.length ≤ 30 ∧
      table.type.fieldname.toList.length ≤ 9 := by decide
  have hdigits : (digits guid).length ≤ 10 := by
    refine Nat.toDigits_length 10 guid 10 (by decide) (hguid.trans (by decide))
  obtain ⟨hname,hfield⟩ := hshort table htable
  have hquery : "SELECT * FROM ".toList.length = 14 ∧ " WHERE ".toList.length = 7 ∧
      " = '".toList.length = 4 ∧ "'".toList.length = 1 := by decide
  unfold Statement.text guidStatement guidWhere maxQueryLen
  simp only [List.length_append,hquery.1,hquery.2.1,hquery.2.2.1,hquery.2.2.2]
  omega

theorem select_guid_perm (db : Database) (htable : table ∈ dumpTables) (hguid : guid < 2^32) :
    (db.select (guidStatement table guid)).Perm
      ((db.rows table).filter fun row => row.key ∈ ({guid} : Finset Nat)) := by
  refine (db.whole _ (guidStatement_fits htable hguid)).trans (List.Perm.of_eq ?_)
  refine List.filter_congr fun row _ => ?_
  simp [guidStatement]

theorem mem_select_guid (htable : table ∈ dumpTables) (hguid : guid < 2^32) :
    row ∈ db.select (guidStatement table guid) ↔ row ∈ db.rows table ∧ row.key = guid := by
  rw [(select_guid_perm db htable hguid).mem_iff,List.mem_filter]
  simp

theorem getDump_deleted (hguid : guid < 2^32) (hdeleted : db.Deleted guid) :
    getDump db guid = none := by
  obtain ⟨table,htable,htype,row,hrow,hkey,hmark⟩ := hdeleted
  have hfirst : ∀ table ∈ dumpTables, table.type = .character →
      table = ⟨"characters",.character⟩ := by
    decide
  have hnone : PlayerDumpWriter.empty.dumpTable db guid ⟨"characters",.character⟩ = none := by
    refine dumpRows_none rfl ⟨row,(mem_select_guid (by decide) hguid).mpr ⟨?_,hkey⟩,hmark⟩
    rw [← hfirst table htable htype]
    exact hrow
  unfold getDump dumpTables
  rw [List.foldlM_cons,hnone]
  rfl

theorem getDump_some (hguid : guid < 2^32) (hkept : ¬ db.Deleted guid) :
    ∃ w, getDump db guid = some w ∧ w.Consistent ∧
      w.dump = dumpTables.flatMap (fun table =>
        (db.written guid table w.guids).map fun row => (table,row)) ∧
      w.queries = dumpTables.flatMap fun table => db.sent guid table w.guids := by
  have hempty : PlayerDumpWriter.empty.Consistent := fun _ => rfl
  refine dumpTables_spec db guid (fun table htable htype row hrow => ?_) ?_ ?_ .empty hempty
  · by_contra hmark
    obtain ⟨hmem,hkey⟩ := (mem_select_guid htable hguid).mp hrow
    exact hkept ⟨table,htable,htype,row,hmem,hkey,hmark⟩
  · decide
  · decide

/-- A set of ids is dumped completely, with queries that are not too long, just when its rows are
spread well. -/
theorem written_iff_spread (guid : Nat) (hguids : table.type.guids = some set)
    (guids : GuidSet → Finset Nat) :
    (db.written guid table guids).Perm ((db.rows table).filter fun row => row.key ∈ guids set) ∧
      (∀ st ∈ db.sent guid table guids, st.text.length ≤ maxQueryLen) ↔
    Spread db table (guids set) := by
  have hfits : ∀ chunk ∈ idChunks table (guids set),
      (listStatement table chunk).text.length < maxQueryLen →
        (db.answer table chunk).Perm (db.rowsBy table chunk) :=
    fun chunk _ hfits => db.whole _ hfits
  have hcut : ∀ chunk ∈ idChunks table (guids set),
      ¬ (listStatement table chunk).text.length < maxQueryLen → db.answer table chunk = [] :=
    fun chunk _ hcut => db.cut _ hcut
  have hperm := Chunked.perm_answers_iff hfits hcut
  have hwritten : db.written guid table guids =
      Chunked.answers (db.answer table) (idChunks table (guids set)) := by
    unfold Database.written
    rw [hguids]
  have hsent : db.sent guid table guids =
      (Chunked.asked (db.answer table) (idChunks table (guids set))).map (listStatement table) := by
    unfold Database.sent
    rw [hguids]
  rw [hwritten,hsent,← List.Perm.congr_right (flatMap_rowsBy_perm db table (guids set)),hperm,
    List.forall_mem_map]
  constructor
  · rintro ⟨⟨hall,hfirst⟩,hshort⟩
    exact ⟨hall,hfirst,(Chunked.asked_short_iff hfits hcut hall fun _ h => h.le).mp hshort⟩
  · rintro ⟨hall,hfirst,hshort⟩
    exact ⟨⟨hall,hfirst⟩,(Chunked.asked_short_iff hfits hcut hall fun _ h => h.le).mpr hshort⟩

theorem guids_eq_ownIds (hconsistent : w.Consistent)
    (hlines : ∀ table ∈ dumpTables, ∀ field, table.type.collects = some (set,field) →
      ∀ row, row ∈ w.linesOf table ↔ row ∈ db.rows table ∧ row.key ∈ db.ownKeys guid table)
    (honly : ∀ line ∈ w.dump, line.1 ∈ dumpTables) : w.guids set = db.ownIds guid set := by
  have hmem : ∀ table row field, table.type.collects = some (set,field) → ((table,row) ∈ w.dump ↔
      table ∈ dumpTables ∧ row ∈ db.rows table ∧ row.key ∈ db.ownKeys guid table) := by
    intro table row field hcollects
    have hline : row ∈ w.linesOf table ↔ (table,row) ∈ w.dump := by
      unfold PlayerDumpWriter.linesOf
      simp [List.mem_map,List.mem_filter]
    rw [← hline]
    constructor
    · intro h
      have htable := honly _ (hline.mp h)
      exact ⟨htable,(hlines table htable field hcollects row).mp h⟩
    · rintro ⟨htable,h⟩
      exact (hlines table htable field hcollects row).mpr h
  rw [hconsistent]
  by_cases hset : set = .items
  · subst hset
    refine idsIn_congr fun table row field hcollects => ?_
    rw [hmem table row field hcollects,List.mem_append,mem_linesBy,mem_linesBy]
    rcases guids_of_collects hcollects with hkind | ⟨-,hkind⟩
    · rw [ownKeys_eq hkind,hkind]
      simp
    · rw [ownKeys_eq hkind,hkind]
      simp [Database.ownIds]
  · rw [ownIds_eq hset]
    refine idsIn_congr fun table row field hcollects => ?_
    have hkind := guids_none_of_collects hcollects hset
    rw [hmem table row field hcollects,mem_linesBy,ownKeys_eq hkind]
    exact and_congr_right fun _ => (and_iff_right hkind).symm

theorem complete_iff_spread (hguid : guid < 2^32) (hrun : getDump db guid = some w) :
    w.Complete db guid ↔ ∀ table ∈ dumpTables, ∀ set, table.type.guids = some set →
      Spread db table (db.ownIds guid set) := by
  have hkept : ¬ db.Deleted guid := by
    intro hdeleted
    rw [getDump_deleted hguid hdeleted] at hrun
    cases hrun
  obtain ⟨w',hrun',hconsistent,hdump,hqueries⟩ := getDump_some hguid hkept
  obtain rfl := Option.some.inj (hrun'.symm.trans hrun)
  have hlines : ∀ table ∈ dumpTables, w'.linesOf table = db.written guid table w'.guids := by
    intro table htable
    unfold PlayerDumpWriter.linesOf
    rw [hdump]
    exact filter_flatMap_table (by decide) (fun table => db.written guid table w'.guids) htable
  have honly : ∀ line ∈ w'.dump, line.1 ∈ dumpTables := by
    intro line hmem
    rw [hdump] at hmem
    obtain ⟨table,htable,hmem⟩ := List.mem_flatMap.mp hmem
    obtain ⟨row,-,rfl⟩ := List.mem_map.mp hmem
    exact htable
  -- a table that is searched by the guid has its rows in any case
  have hplain : ∀ table ∈ dumpTables, table.type.guids = none → (w'.linesOf table).Perm
      ((db.rows table).filter fun row => row.key ∈ db.ownKeys guid table) := by
    intro table htable hkind
    have hwritten : db.written guid table w'.guids = db.select (guidStatement table guid) := by
      unfold Database.written
      rw [hkind]
    rw [hlines table htable,hwritten,ownKeys_eq hkind]
    exact select_guid_perm db htable hguid
  have hmemOf : ∀ table, (w'.linesOf table).Perm
      ((db.rows table).filter fun row => row.key ∈ db.ownKeys guid table) → ∀ row,
        row ∈ w'.linesOf table ↔ row ∈ db.rows table ∧ row.key ∈ db.ownKeys guid table := by
    intro table hperm row
    rw [hperm.mem_iff,List.mem_filter,decide_eq_true_eq]
  have hfirst : ∀ set, set ≠ .items → w'.guids set = db.ownIds guid set := by
    intro set hset
    refine guids_eq_ownIds hconsistent (fun table htable field hcollects => ?_) honly
    exact hmemOf table (hplain table htable (guids_none_of_collects hcollects hset))
  have hitems : (∀ table ∈ dumpTables, table.type.guids = some .mails → (w'.linesOf table).Perm
      ((db.rows table).filter fun row => row.key ∈ db.ownKeys guid table)) →
      ∀ set, w'.guids set = db.ownIds guid set := by
    intro hmail set
    by_cases hset : set = .items
    · refine guids_eq_ownIds hconsistent (fun table htable field hcollects => ?_) honly
      rcases guids_of_collects hcollects with hkind | ⟨-,hkind⟩
      · exact hmemOf table (hplain table htable hkind)
      · exact hmemOf table (hmail table htable hkind)
    · exact hfirst set hset
  constructor
  · intro hcomplete table htable set hset
    have hall := hitems (fun table htable _ => hcomplete.lines table htable) set
    rw [← hall]
    refine (written_iff_spread guid hset w'.guids).mp ⟨?_,fun st hst => ?_⟩
    · have hperm := hcomplete.lines table htable
      rw [hlines table htable,ownKeys_eq hset] at hperm
      rw [hall]
      exact hperm
    · refine hcomplete.queries st ?_
      rw [hqueries]
      exact List.mem_flatMap.mpr ⟨table,htable,hst⟩
  · intro hspread
    have hwhole : ∀ table ∈ dumpTables, ∀ set, table.type.guids = some set →
        w'.guids set = db.ownIds guid set → (w'.linesOf table).Perm
          ((db.rows table).filter fun row => row.key ∈ db.ownKeys guid table) := by
      intro table htable set hset hsame
      have hwritten := (written_iff_spread guid hset w'.guids).mpr
        (hsame ▸ hspread table htable set hset)
      rw [hlines table htable,ownKeys_eq hset]
      rw [hsame] at hwritten
      exact hwritten.1
    have hall := hitems fun table htable hset => hwhole table htable _ hset (hfirst .mails (by decide))
    refine ⟨fun table htable => ?_,honly,fun st hst => ?_⟩
    · cases hset : table.type.guids with
      | none => exact hplain table htable hset
      | some set => exact hwhole table htable set hset (hall set)
    · rw [hqueries] at hst
      obtain ⟨table,htable,hst⟩ := List.mem_flatMap.mp hst
      cases hset : table.type.guids with
      | none =>
        have hsent : db.sent guid table w'.guids = [guidStatement table guid] := by
          unfold Database.sent
          rw [hset]
        rw [hsent,List.mem_singleton] at hst
        rw [hst]
        exact (guidStatement_fits htable hguid).le
      | some set =>
        exact ((written_iff_spread guid hset w'.guids).mpr
          (hall set ▸ hspread table htable set hset)).2 st hst

end Complete

/-- Every dump that is made is complete just when the rows of the sets are spread well; for a
deleted character none is made. -/
theorem getDump_complete_iff (db : Database) (guid : UInt32) :
    (∀ w, getDump db guid.toNat = some w → w.Complete db guid.toNat) ↔
      db.Deleted guid.toNat ∨ ∀ table ∈ dumpTables, ∀ set, table.type.guids = some set →
        Spread db table (db.ownIds guid.toNat set) := by
  have hguid : guid.toNat < 2^32 := guid.toNat_lt
  by_cases hdeleted : db.Deleted guid.toNat
  · refine iff_of_true (fun w hrun => ?_) (.inl hdeleted)
    rw [getDump_deleted hguid hdeleted] at hrun
    cases hrun
  · obtain ⟨w,hrun,-⟩ := getDump_some hguid hdeleted
    rw [or_iff_right hdeleted,← complete_iff_spread hguid hrun]
    constructor
    · exact fun h => h w hrun
    · intro h w' hrun'
      obtain rfl := Option.some.inj (hrun.symm.trans hrun')
      exact h

section LateMails

def lateMail (id : Nat) : Row := ⟨7,[⟨[],UInt32.ofNat id⟩]⟩

/-- A character with forty thousand mails, of which the last one has an item. -/
def lateRows (table : DumpTable) : List Row :=
  match table.type with
  | .character => [⟨7,[]⟩]
  | .mail => (List.range 40000).map fun i => lateMail (i+1)
  | .mailItem => [⟨40000,[]⟩]
  | _ => []

def lateSelect (st : Statement) : List Row :=
  if st.text.length < maxQueryLen then (lateRows st.table).filter fun row => row.key ∈ st.ids else []

theorem lateSelect_whole (st : Statement) (h : st.text.length < maxQueryLen) :
    (lateSelect st).Perm ((lateRows st.table).filter fun row => row.key ∈ st.ids) := by
  unfold lateSelect
  rw [if_pos h]

theorem lateSelect_cut (st : Statement) (h : ¬ st.text.length < maxQueryLen) : lateSelect st = [] :=
  if_neg h

def lateMails : Database := ⟨lateRows,lateSelect,lateSelect_whole,lateSelect_cut⟩

theorem getUInt32_lateMail (hle : id ≤ 40000) : (lateMail id).getUInt32 0 = id := by
  change (UInt32.ofNat id).toNat = id
  rw [UInt32.toNat_ofNat',Nat.mod_eq_of_lt (by omega)]

theorem mem_lateMails : id ∈ lateMails.ownIds 7 .mails ↔ 1 ≤ id ∧ id ≤ 40000 := by
  unfold Database.ownIds
  rw [mem_idsIn]
  constructor
  · rintro ⟨hne,table,row,field,hmem,hcollects,hid⟩
    have htype : table.type = .mail ∧ field = 0 := by
      cases htype : table.type <;> rw [htype] at hcollects <;> cases hcollects
      exact ⟨rfl,rfl⟩
    have hrow : row ∈ lateRows table := (mem_linesBy.mp hmem).2.2.1
    unfold lateRows at hrow
    rw [htype.1] at hrow
    obtain ⟨i,hi,hmail⟩ := List.mem_map.mp hrow
    rw [List.mem_range] at hi
    have hnumber := getUInt32_lateMail (show i+1 ≤ 40000 from hi)
    rw [← hid,htype.2,← hmail]
    rw [hnumber]
    exact ⟨Nat.le_add_left 1 i,hi⟩
  · rintro ⟨hpos,hle⟩
    refine ⟨(Nat.lt_of_lt_of_le Nat.zero_lt_one hpos).ne',⟨"mail",.mail⟩,lateMail id,0,
      mem_linesBy.mpr ⟨by decide,rfl,?_,Finset.mem_singleton_self 7⟩,rfl,getUInt32_lateMail hle⟩
    unfold lateMails lateRows
    dsimp only
    exact List.mem_map.mpr ⟨id-1,List.mem_range.mpr (by omega),by rw [Nat.sub_add_cancel hpos]⟩

theorem length_whereLoop (wherestr : List Char) (ids : List Nat) :
    (whereLoop wherestr ids).taken.length ≤ maxQueryLen-wherestr.length+1 := by
  induction ids generalizing wherestr with
  | nil => exact Nat.zero_le _
  | cons id rest ih =>
    have hdigits : 0 < (digits id).length := Nat.length_toDigits_pos
    unfold whereLoop
    by_cases hfull : (wherestr ++ digits id).length > maxQueryLen-50
    · rw [if_pos hfull]
      simp
    · rw [if_neg hfull]
      dsimp only
      rw [List.length_append] at hfull
      have hnext : wherestr.length+1 ≤ (if rest ≠ [] then wherestr ++ digits id ++ "', '".toList
          else wherestr ++ digits id).length := by
        split_ifs
        · rw [List.length_append,List.length_append]
          omega
        · rw [List.length_append]
          omega
      have hrest := ih (if rest ≠ [] then wherestr ++ digits id ++ "', '".toList
        else wherestr ++ digits id)
      unfold maxQueryLen at hfull hrest ⊢
      rw [List.length_cons]
      omega

theorem length_generateWhereStr (fieldname : String) (ids : List Nat) :
    (generateWhereStr fieldname ids).taken.length ≤ maxQueryLen+1 := by
  have hloop := length_whereLoop (fieldname.toList ++ " IN ('".toList) ids
  unfold generateWhereStr
  dsimp only
  omega

theorem not_spread_lateMails :
    ¬ Spread lateMails ⟨"mail_items",.mailItem⟩ (lateMails.ownIds 7 .mails) := by
  intro hspread
  have hflatten := flatten_idChunks ⟨"mail_items",.mailItem⟩ (lateMails.ownIds 7 .mails)
  have hfirst := hspread.first
  have hcard : 40000 ≤ (lateMails.ownIds 7 .mails).card := by
    have hsub : Finset.Icc 1 40000 ⊆ lateMails.ownIds 7 .mails := fun id hid =>
      mem_lateMails.mpr (Finset.mem_Icc.mp hid)
    simpa using Finset.card_le_card hsub
  have hlast : 40000 ∈ OrderedSet.elems (lateMails.ownIds 7 .mails) :=
    OrderedSet.mem_elems.mpr (mem_lateMails.mpr ⟨by decide,le_refl _⟩)
  have hrows : ∀ chunk, 40000 ∈ chunk ↔
      lateMails.rowsBy ⟨"mail_items",.mailItem⟩ chunk ≠ [] := by
    intro chunk
    change _ ↔ ([⟨40000,[]⟩] : List Row).filter (fun row => row.key ∈ chunk) ≠ []
    by_cases hmem : 40000 ∈ chunk
    · simp [hmem]
    · simp [hmem]
  obtain ⟨n,hn⟩ := Nat.exists_eq_succ_of_ne_zero
    (show (lateMails.ownIds 7 .mails).card ≠ 0 by omega)
  unfold idChunks at hflatten hfirst
  rw [hn] at hflatten hfirst
  unfold chunks at hflatten hfirst
  have htaken : (generateWhereStr (DumpTableType.fieldname .mailItem)
      (OrderedSet.elems (lateMails.ownIds 7 .mails))).taken.length ≤ maxQueryLen+1 :=
    length_generateWhereStr _ _
  unfold maxQueryLen at htaken
  generalize (generateWhereStr (DumpTableType.fieldname .mailItem)
    (OrderedSet.elems (lateMails.ownIds 7 .mails))).taken = taken at hflatten hfirst htaken
  generalize (if (generateWhereStr (DumpTableType.fieldname .mailItem)
      (OrderedSet.elems (lateMails.ownIds 7 .mails))).rest = [] then []
    else chunks (DumpTableType.fieldname .mailItem) n (generateWhereStr
      (DumpTableType.fieldname .mailItem) (OrderedSet.elems (lateMails.ownIds 7 .mails))).rest) =
    others at hflatten hfirst
  rw [List.flatten_cons] at hflatten
  have hnodup := OrderedSet.nodup_elems (lateMails.ownIds 7 .mails)
  have hsorted := OrderedSet.pairwise_elems (lateMails.ownIds 7 .mails)
  have hlength := OrderedSet.length_elems (lateMails.ownIds 7 .mails)
  rw [← hflatten] at hlast hnodup hsorted hlength
  obtain ⟨-,-,hdisjoint⟩ := List.nodup_append'.mp hnodup
  rcases List.mem_append.mp hlast with hmem | hmem
  · -- what comes behind it would be greater than all ids
    rw [List.length_append] at hlength
    obtain ⟨id,hid⟩ := List.exists_mem_of_length_pos (show 0 < others.flatten.length by omega)
    have hge : 40000 ≤ id := (List.pairwise_append.mp hsorted).2.2 _ hmem id hid
    have hin : id ∈ OrderedSet.elems (lateMails.ownIds 7 .mails) := by
      rw [← hflatten]
      exact List.mem_append_right _ hid
    have hle := (mem_lateMails.mp (OrderedSet.mem_elems.mp hin)).2
    exact hdisjoint hmem (le_antisymm hle hge ▸ hid)
  · obtain ⟨chunk,hchunk,hin⟩ := List.mem_flatten.mp hmem
    have hhead := (List.pairwise_cons.mp hfirst).1 chunk hchunk ((hrows chunk).mp hin)
    exact hdisjoint ((hrows taken).mpr hhead) hmem

theorem getDump_lacks_late : ¬ ∀ (db : Database) (guid : UInt32) (w : PlayerDumpWriter),
    getDump db guid.toNat = some w → w.Complete db guid.toNat := by
  intro h
  have hguid : (7 : UInt32).toNat = 7 := rfl
  have hkept : ¬ lateMails.Deleted 7 := by
    rintro ⟨table,-,htype,row,hrow,-,hmark⟩
    change row ∈ lateRows table at hrow
    unfold lateRows at hrow
    rw [htype] at hrow
    rw [List.mem_singleton.mp hrow] at hmark
    exact hmark rfl
  obtain ⟨w,hrun,-⟩ := getDump_some (by decide) hkept
  have hcomplete := h lateMails 7 w (by rw [hguid]; exact hrun)
  rw [hguid] at hcomplete
  have hspread := (complete_iff_spread (by decide) hrun).mp hcomplete ⟨"mail_items",.mailItem⟩
    (by decide) .mails rfl
  exact not_spread_lateMails hspread

end LateMails

end TrinityCore.Tools
