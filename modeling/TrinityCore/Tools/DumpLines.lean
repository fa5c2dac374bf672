import TrinityCore.Tools.PlayerDump
import TrinityCore.Lib.FirstMatch

set_option autoImplicit false

namespace TrinityCore.Tools

open TextFind

variable {esc : Escaping} {table : String} {before after fields : List (List Char)}
  {value pre t post str : List Char} {n i : Int} {s e : Nat} {st : Scan}

section Line

def linePrefix (esc : Escaping) (table : String) (before : List (List Char)) : List Char :=
  "INSERT INTO `".toList ++ table.toList ++ "` VALUES ('".toList ++
    before.flatMap fun field => esc.escapeString field ++ "', '".toList

def lineSuffix (esc : Escaping) (after : List (List Char)) : List Char :=
  "'".toList ++ (after.flatMap (fun field => ", '".toList ++ esc.escapeString field ++ "'".toList) ++
    ");".toList)

theorem createDumpString_cons (esc : Escaping) (table : String) (value : List Char)
    (after : List (List Char)) : createDumpString esc table (value :: after) =
      linePrefix esc table [] ++ (esc.escapeString value ++ lineSuffix esc after) := by
  unfold createDumpString linePrefix lineSuffix
  have hrest : after.mapIdx (fun i field => (if i+1 = 0 then "'".toList else ", '".toList) ++
      esc.escapeString field ++ "'".toList) =
      after.map fun field => ", '".toList ++ esc.escapeString field ++ "'".toList := by
    apply List.ext_getElem?
    intro i
    rw [List.getElem?_mapIdx,List.getElem?_map]
    rfl
  rw [List.mapIdx_cons,hrest,if_pos rfl,List.flatten_cons,← List.flatMap_def]
  simp

theorem linePrefix_concat (esc : Escaping) (table : String) (before : List (List Char))
    (field : List Char) : linePrefix esc table (before ++ [field]) =
      linePrefix esc table before ++ (esc.escapeString field ++ "', '".toList) := by
  unfold linePrefix
  rw [List.flatMap_append,← List.append_assoc,List.flatMap_singleton]

theorem lineSuffix_cons (esc : Escaping) (field : List Char) (after : List (List Char)) :
    lineSuffix esc (field :: after) =
      "', '".toList ++ (esc.escapeString field ++ lineSuffix esc after) := by
  unfold lineSuffix
  have hquote : "', '".toList = "'".toList ++ ", '".toList := rfl
  simp only [hquote,List.flatMap_cons,List.append_assoc]

theorem createDumpString_split (esc : Escaping) (table : String) (before : List (List Char))
    (value : List Char) (after : List (List Char)) :
    createDumpString esc table (before ++ value :: after) =
      linePrefix esc table before ++ (esc.escapeString value ++ lineSuffix esc after) := by
  induction before using List.reverseRecOn generalizing value after with
  | nil => exact createDumpString_cons esc table value after
  | append_singleton before field ih =>
    rw [List.append_assoc,List.singleton_append,ih,lineSuffix_cons,linePrefix_concat]
    simp only [List.append_assoc]

theorem getLast?_linePrefix (esc : Escaping) (table : String) (before : List (List Char)) :
    (linePrefix esc table before).getLast? = some '\'' := by
  rcases List.eq_nil_or_concat before with rfl | ⟨before,field,rfl⟩
  · unfold linePrefix
    rw [List.flatMap_nil,List.append_nil]
    exact List.getLast?_append_of_ne_nil _ (by decide)
  · rw [List.concat_eq_append,linePrefix_concat,← List.append_assoc]
    exact List.getLast?_append_of_ne_nil _ (by decide)

theorem firstPlace_createDumpString (htable : '\'' ∉ table.toList) :
    firstPlace (createDumpString esc table (value :: after)) = (linePrefix esc table []).length := by
  have hword : findWord ("VALUES (".toList ++ ['\''])
      (("INSERT INTO `".toList ++ table.toList ++ "` ".toList) ++ ("VALUES (".toList ++ '\'' ::
        (esc.escapeString value ++ lineSuffix esc after))) =
      some ("INSERT INTO `".toList ++ table.toList ++ "` ".toList).length := by
    refine findWord_split ?_ (by decide)
    rw [List.mem_append,List.mem_append]
    rintro ((h | h) | h)
    · exact absurd h (by decide)
    · exact htable h
    · exact absurd h (by decide)
  have hline : createDumpString esc table (value :: after) =
      ("INSERT INTO `".toList ++ table.toList ++ "` ".toList) ++ ("VALUES (".toList ++ '\'' ::
        (esc.escapeString value ++ lineSuffix esc after)) := by
    have hopen : "` VALUES ('".toList = "` ".toList ++ ("VALUES (".toList ++ ['\'']) := rfl
    rw [createDumpString_cons]
    unfold linePrefix
    rw [List.flatMap_nil,List.append_nil,hopen]
    simp only [List.append_assoc,List.cons_append,List.nil_append]
  have hneedle : "VALUES ('".toList = "VALUES (".toList ++ ['\''] := rfl
  unfold firstPlace
  rw [hline,hneedle,hword]
  unfold linePrefix
  rw [List.flatMap_nil,List.append_nil,Option.map_some,Option.getD_some]
  simp only [List.length_append]
  rfl

end Line

section Values

def Plain (value : List Char) : Prop := '\'' ∉ value ∧ value.getLast? ≠ some '\\'

instance (value : List Char) : Decidable (Plain value) :=
  inferInstanceAs (Decidable (_ ∧ _))

theorem escapeString_append (esc : Escaping) (a b : List Char) :
    esc.escapeString (a ++ b) = esc.escapeString a ++ esc.escapeString b := List.flatMap_append

theorem escapeString_quote (esc : Escaping) : esc.escapeString ['\''] = ['\\','\''] := by
  unfold Escaping.escapeString
  rw [List.flatMap_singleton,if_pos (by decide),esc.quote]

theorem quote_not_mem_escapeString (hvalue : '\'' ∉ value) : '\'' ∉ esc.escapeString value := by
  unfold Escaping.escapeString
  rw [List.mem_flatMap]
  rintro ⟨c,hc,hmem⟩
  have hquote : c ≠ '\'' := fun h => hvalue (h ▸ hc)
  split_ifs at hmem
  · by_cases hslash : c = '\\'
    · rw [hslash,esc.backslash] at hmem
      exact absurd hmem (by decide)
    · rcases List.mem_cons.mp hmem with h | h
      · exact absurd h (by decide)
      · exact (esc.other c hquote hslash).1 (List.mem_singleton.mp h).symm
  · exact hquote (List.mem_singleton.mp hmem).symm

theorem getLast?_escapeString : (esc.escapeString value).getLast? = some '\\' ↔
    value.getLast? = some '\\' := by
  rcases List.eq_nil_or_concat value with rfl | ⟨front,c,rfl⟩
  · rfl
  · have hone : (esc.escapeString [c]).getLast? = some '\\' ↔ c = '\\' := by
      unfold Escaping.escapeString
      rw [List.flatMap_singleton]
      split_ifs
      · rw [List.getLast?_cons_cons,List.getLast?_singleton,Option.some.injEq]
        refine ⟨fun h => ?_,fun h => h ▸ esc.backslash⟩
        by_contra hslash
        by_cases hquote : c = '\''
        · rw [hquote,esc.quote] at h
          exact absurd h (by decide)
        · exact (esc.other c hquote hslash).2 h
      · rw [List.getLast?_singleton,Option.some.injEq]
    have hne : esc.escapeString [c] ≠ [] := by
      unfold Escaping.escapeString
      rw [List.flatMap_singleton]
      split_ifs <;> exact List.cons_ne_nil _ _
    rw [List.concat_eq_append,escapeString_append,List.getLast?_append_of_ne_nil _ hne,hone,
      List.getLast?_append_of_ne_nil _ (List.cons_ne_nil c []),List.getLast?_singleton,
      Option.some.injEq]

/-- In a value that is not plain the first quote that is met stands behind a backslash. -/
theorem split_not_plain (esc : Escaping) (hvalue : ¬ Plain value) (post : List Char) :
    ∃ t post', esc.escapeString value ++ '\'' :: post = t ++ '\'' :: post' ∧ '\'' ∉ t ∧
      t.getLast? = some '\\' := by
  by_cases hquote : '\'' ∈ value
  · obtain ⟨a,b,rfl,ha⟩ := List.eq_append_cons_of_mem hquote
    refine ⟨esc.escapeString a ++ ['\\'],esc.escapeString b ++ '\'' :: post,?_,?_,by simp⟩
    · rw [← List.singleton_append,escapeString_append,escapeString_append,escapeString_quote]
      simp only [List.append_assoc,List.cons_append,List.nil_append]
    · rw [List.mem_append,not_or]
      exact ⟨quote_not_mem_escapeString ha,by decide⟩
  · have hlast : value.getLast? = some '\\' := by
      by_contra h
      exact hvalue ⟨hquote,h⟩
    exact ⟨esc.escapeString value,post,rfl,quote_not_mem_escapeString hquote,
      getLast?_escapeString.mpr hlast⟩

end Values

section Scanning

theorem charBefore_eq (hstr : str = pre ++ (t ++ '\'' :: post)) (hpre : pre.getLast? = some '\'') :
    str[pre.length+t.length-1]? = some '\\' ↔ t.getLast? = some '\\' := by
  have hne : pre ≠ [] := by
    rintro rfl
    cases hpre
  have hlength := List.length_pos_of_ne_nil hne
  have hchar : str[pre.length+t.length-1]? = (pre ++ t).getLast? := by
    rw [hstr,← List.append_assoc,List.getElem?_append_left (by rw [List.length_append]; omega),
      List.getLast?_eq_getElem?,List.length_append]
  rw [hchar]
  rcases List.eq_nil_or_concat t with rfl | ⟨front,c,rfl⟩
  · rw [List.append_nil,hpre]
    decide
  · rw [List.getLast?_append_of_ne_nil _ (by simp)]

theorem step_first (hstr : str = pre ++ (t ++ '\'' :: post)) (hpre : pre.getLast? = some '\'')
    (ht : '\'' ∉ t) : Scan.step str n (.first pre.length) =
      if t.getLast? = some '\\' then some (.first pre.length)
      else some (.found 1 pre.length (pre.length+t.length)) := by
  dsimp only [Scan.step]
  rw [findFrom_split hstr ht]
  dsimp only
  simp only [charBefore_eq hstr hpre]

theorem step_next (hstr : str = pre ++ (t ++ '\'' :: post)) (hpre : pre.getLast? = some '\'')
    (ht : '\'' ∉ t) (he : e+4 = pre.length) : Scan.step str n (.next i e) =
      if t.getLast? = some '\\' then some (.next i (pre.length+t.length))
      else some (.found (i+1) pre.length (pre.length+t.length)) := by
  dsimp only [Scan.step]
  rw [he,findFrom_split hstr ht]
  dsimp only
  simp only [charBefore_eq hstr hpre]

theorem step_found (h : i < n) : Scan.step str n (.found i s e) = some (.next i e) := if_pos h

theorem ends_found (h : ¬ i < n) :
    Loop.Ends (Scan.step str n) (.found i s e) (.result (some (s,e))) :=
  .next (if_neg h) (.done rfl)

def Scan.Behind (place : Nat) : Scan → Prop
  | .first _ => False
  | .found _ s e => place+4 ≤ s ∧ s ≤ e
  | .next _ e => place ≤ e
  | .result none => True
  | .result (some (s,_)) => place+4 ≤ s

theorem behind_step {place : Nat} {st st' : Scan} (h : st.Behind place)
    (hstep : Scan.step str n st = some st') : st'.Behind place := by
  cases st with
  | first s => exact h.elim
  | found i s e =>
    dsimp only [Scan.step] at hstep
    split_ifs at hstep
    · cases hstep
      exact (Nat.le_add_right place 4).trans (h.1.trans h.2)
    · cases hstep
      exact h.1
  | next i e =>
    dsimp only [Scan.step] at hstep
    cases hfind : findFrom '\'' str (e+4) with
    | none =>
      rw [hfind] at hstep
      cases hstep
      trivial
    | some e' =>
      have hle : e+4 ≤ e' := le_of_findFrom hfind
      have hplace : place ≤ e := h
      rw [hfind] at hstep
      dsimp only at hstep
      split_ifs at hstep
      · cases hstep
        exact hplace.trans ((Nat.le_add_right e 4).trans hle)
      · cases hstep
        exact ⟨Nat.add_le_add_right hplace 4,hle⟩
  | result r => cases hstep

end Scanning

section Columns

/-- The scan comes to the column behind some plain values, and from there it ends as from the
beginning. -/
theorem ends_iff_column (esc : Escaping) (after : List (List Char))
    (htable : '\'' ∉ table.toList) (hbefore : ∀ field ∈ before, Plain field)
    (hvalue : Plain value) (hn : before = [] ∨ (before.length : Int) < n) (st : Scan) :
    Loop.Ends (Scan.step (createDumpString esc table (before ++ value :: after)) n)
        (.first (firstPlace (createDumpString esc table (before ++ value :: after)))) st ↔
      Loop.Ends (Scan.step (createDumpString esc table (before ++ value :: after)) n)
        (.found (before.length+1) (linePrefix esc table before).length
          ((linePrefix esc table before).length+(esc.escapeString value).length)) st := by
  induction before using List.reverseRecOn generalizing value after with
  | nil =>
    rw [List.nil_append,firstPlace_createDumpString htable]
    refine Loop.ends_next ?_
    rw [step_first (createDumpString_cons esc table value after) (getLast?_linePrefix esc table [])
      (quote_not_mem_escapeString hvalue.1),if_neg fun h => hvalue.2 (getLast?_escapeString.mp h)]
    rfl
  | append_singleton before field ih =>
    rw [List.forall_mem_append,List.forall_mem_singleton] at hbefore
    have hlt : (before.length : Int)+1 < n := by
      rcases hn with hnil | hlt
      · simp at hnil
      · simpa using hlt
    have hsame : before ++ [field] ++ value :: after = before ++ field :: (value :: after) := by simp
    have hplace : (linePrefix esc table before).length+(esc.escapeString field).length+4 =
        (linePrefix esc table (before ++ [field])).length := by
      rw [linePrefix_concat,List.length_append,List.length_append]
      rfl
    rw [hsame,ih _ hbefore.1 hbefore.2 (.inr (by omega)),Loop.ends_next (step_found hlt),← hsame]
    refine Loop.ends_next ?_
    rw [step_next (createDumpString_split esc table (before ++ [field]) value after)
      (getLast?_linePrefix esc table _) (quote_not_mem_escapeString hvalue.1) hplace,
      if_neg fun h => hvalue.2 (getLast?_escapeString.mp h),List.length_append,List.length_singleton]
    rfl

theorem findnth_column (esc : Escaping) (htable : '\'' ∉ table.toList)
    (hbefore : ∀ field ∈ before, Plain field) (hvalue : Plain value) :
    Findnth (createDumpString esc table (before ++ value :: after))
      (before.length+1) (some ((linePrefix esc table before).length,
        (linePrefix esc table before).length+(esc.escapeString value).length)) := by
  refine (ends_iff_column esc _ htable hbefore hvalue (.inr (by omega)) _).mpr ?_
  exact ends_found (lt_irrefl _)

theorem not_findnth_first (htable : '\'' ∉ table.toList) (hvalue : ¬ Plain value)
    {r : Option (Nat × Nat)} : ¬ Findnth (createDumpString esc table (value :: after)) n r := by
  obtain ⟨t,post,hsplit,ht,hlast⟩ := split_not_plain esc hvalue
    (after.flatMap (fun field => ", '".toList ++ esc.escapeString field ++ "'".toList) ++ ");".toList)
  have hline : createDumpString esc table (value :: after) =
      linePrefix esc table [] ++ (t ++ '\'' :: post) := by
    rw [← hsplit]
    exact createDumpString_cons esc table value after
  unfold Findnth
  rw [firstPlace_createDumpString htable]
  refine Loop.not_ends_of_stays ?_
  rw [step_first hline (getLast?_linePrefix esc table []) ht,if_pos hlast]

theorem findnth_not_plain (htable : '\'' ∉ table.toList) (hbefore : ∀ field ∈ before, Plain field)
    (hvalue : ¬ Plain value) {e : Nat} :
    ¬ Findnth (createDumpString esc table (before ++ value :: after)) (before.length+1)
      (some ((linePrefix esc table before).length,e)) := by
  rcases List.eq_nil_or_concat before with rfl | ⟨before,field,rfl⟩
  · exact not_findnth_first htable hvalue
  · intro hfind
    rw [List.concat_eq_append] at hfind hbefore
    rw [List.forall_mem_append,List.forall_mem_singleton] at hbefore
    have hsame : before ++ [field] ++ value :: after = before ++ field :: (value :: after) := by simp
    have hplace : (linePrefix esc table before).length+(esc.escapeString field).length+4 =
        (linePrefix esc table (before ++ [field])).length := by
      rw [linePrefix_concat,List.length_append,List.length_append]
      rfl
    obtain ⟨t,post,hsplit,ht,hlast⟩ := split_not_plain esc hvalue
      (after.flatMap (fun field => ", '".toList ++ esc.escapeString field ++ "'".toList) ++
        ");".toList)
    have hline : createDumpString esc table (before ++ [field] ++ value :: after) =
        linePrefix esc table (before ++ [field]) ++ (t ++ '\'' :: post) := by
      rw [← hsplit]
      exact createDumpString_split esc table (before ++ [field]) value after
    have hlt : (before.length : Int)+1 < ((before ++ [field]).length : Int)+1 := by simp
    have hwalk := hfind
    unfold Findnth at hwalk
    rw [hsame,ends_iff_column esc _ htable hbefore.1 hbefore.2 (.inr (by simp)),
      Loop.ends_next (step_found hlt),← hsame] at hwalk
    have hnext := step_next (n := ((before ++ [field]).length : Int)+1) (i := (before.length : Int)+1)
      hline (getLast?_linePrefix esc table _) ht hplace
    rw [if_pos hlast] at hnext
    rw [Loop.ends_next hnext] at hwalk
    have hbehind : (Scan.result (some ((linePrefix esc table (before ++ [field])).length,e))).Behind
        ((linePrefix esc table (before ++ [field])).length+t.length) :=
      hwalk.inv (fun _ _ h hstep => behind_step h hstep) (le_refl _)
    have hle : (linePrefix esc table (before ++ [field])).length+t.length+4 ≤
      (linePrefix esc table (before ++ [field])).length := hbehind
    omega

theorem findnth_ends (htable : '\'' ∉ table.toList) (hfields : ∀ field ∈ fields, Plain field)
    (n : Int) : ∃ r, Findnth (createDumpString esc table fields) n r := by
  by_cases hlast : fields ≠ [] ∧ (fields.length : Int) < n
  · -- behind the last column there is nothing left to look in
    obtain ⟨hne,hlt⟩ := hlast
    obtain ⟨before,value,rfl⟩ := (List.eq_nil_or_concat fields).resolve_left hne
    rw [List.concat_eq_append] at hfields hlt ⊢
    rw [List.length_append,List.length_singleton] at hlt
    push_cast at hlt
    rw [List.forall_mem_append,List.forall_mem_singleton] at hfields
    refine ⟨none,(ends_iff_column esc _ htable hfields.1 hfields.2 (.inr (by omega)) _).mpr ?_⟩
    rw [Loop.ends_next (step_found hlt)]
    have hlength := congrArg List.length (createDumpString_split esc table before value [])
    rw [List.length_append,List.length_append,show (lineSuffix esc []).length = 3 from rfl] at hlength
    refine .next ?_ (.done rfl)
    dsimp only [Scan.step]
    rw [findFrom_past (by omega)]
  · rcases List.eq_nil_or_concat fields with rfl | ⟨_,_,hne⟩
    · have hfree : '\'' ∉ createDumpString esc table [] := by
        unfold createDumpString
        rw [List.mem_append,List.mem_append,List.mem_append]
        rintro (((h | h) | h) | h)
        · exact absurd h (by decide)
        · exact htable h
        · exact absurd h (by decide)
        · rw [List.mapIdx_nil,List.flatten_nil,List.nil_append] at h
          exact absurd h (by decide)
      refine ⟨none,.next ?_ (.done rfl)⟩
      dsimp only [Scan.step]
      rw [findFrom_none hfree]
    · have hcount : 0 < fields.length := by simp [hne]
      have hle : ¬ (fields.length : Int) < n := fun hlt =>
        hlast ⟨List.ne_nil_of_length_pos hcount,hlt⟩
      have hj : (n-1).toNat < fields.length := by omega
      have hsplit := List.take_append_drop (n-1).toNat fields
      rw [List.drop_eq_getElem_cons hj] at hsplit
      have hbefore : ∀ field ∈ fields.take (n-1).toNat, Plain field := fun field hmem =>
        hfields field (List.mem_of_mem_take hmem)
      have hlength : (fields.take (n-1).toNat).length = (n-1).toNat := by
        rw [List.length_take,Nat.min_eq_left hj.le]
      have hn : fields.take (n-1).toNat = [] ∨ ((fields.take (n-1).toNat).length : Int) < n := by
        by_cases hpos : 0 < n
        · exact .inr (by omega)
        · exact .inl (List.eq_nil_of_length_eq_zero (by omega))
      have hends := ends_iff_column esc (fields.drop ((n-1).toNat+1)) htable hbefore
        (hfields _ (List.getElem_mem hj)) hn
      rw [hsplit,hlength] at hends
      exact ⟨_,(hends _).mpr (ends_found (by omega))⟩

theorem changeAt_column (esc : Escaping) (table : String) (before : List (List Char))
    (value : List Char) (after : List (List Char)) (text : List Char) :
    changeAt (createDumpString esc table (before ++ value :: after)) text false false
      (some ((linePrefix esc table before).length,
        (linePrefix esc table before).length+(esc.escapeString value).length)) =
      some (linePrefix esc table before ++ text ++ lineSuffix esc after) := by
  have hsplit := createDumpString_split esc table before value after
  have hend : (createDumpString esc table (before ++ value :: after)).drop
      ((linePrefix esc table before).length+(esc.escapeString value).length) =
      lineSuffix esc after := by
    rw [hsplit,← List.drop_drop,List.drop_left,List.drop_left]
  dsimp only [changeAt]
  rw [hend,hsplit,List.take_left]
  rfl

end Columns

/-- Every column of a line is found, and the search always ends, just when no value of the row has
a quote in it or ends with a backslash. -/
theorem findnth_exact_iff (esc : Escaping) (fields : List (List Char)) {entry : DumpTable}
    (hentry : entry ∈ dumpTables) :
    (∀ n, ∃ r, Findnth (createDumpString esc entry.name fields) n r) ∧
      (∀ before value after, fields = before ++ value :: after →
        Findnth (createDumpString esc entry.name fields) (before.length+1)
          (some ((linePrefix esc entry.name before).length,
            (linePrefix esc entry.name before).length+(esc.escapeString value).length)) ∧
        ∀ text, Changenth (createDumpString esc entry.name fields) (before.length+1) text false false
          (some (linePrefix esc entry.name before ++ text ++ lineSuffix esc after))) ↔
    ∀ value ∈ fields, '\'' ∉ value ∧ value.getLast? ≠ some '\\' := by
  have htable : '\'' ∉ entry.name.toList := by
    have hall : ∀ entry ∈ dumpTables, '\'' ∉ entry.name.toList := by decide
    exact hall entry hentry
  constructor
  · rintro ⟨-,hexact⟩
    by_contra hbad
    push Not at hbad
    obtain ⟨before,value,after,hsplit,hvalue,hbefore⟩ : ∃ before value after,
        fields = before ++ value :: after ∧ ¬ Plain value ∧ ∀ field ∈ before, Plain field := by
      obtain ⟨value,hmem,hquote⟩ := hbad
      have hnot : ¬ Plain value := fun h => h.2 (hquote h.1)
      have hsome : (fields.find? fun field => !decide (Plain field)).isSome :=
        List.find?_isSome.mpr ⟨value,hmem,by simpa using hnot⟩
      obtain ⟨first,hfirst⟩ := Option.isSome_iff_exists.mp hsome
      obtain ⟨before,after,hsplit,hvalue,hbefore⟩ := FirstMatch.split hfirst
      exact ⟨before,first,after,hsplit,by simpa using hvalue,
        fun field hmem => by simpa using hbefore field hmem⟩
    subst hsplit
    exact findnth_not_plain htable hbefore hvalue (hexact before value after rfl).1
  · intro hfields
    refine ⟨findnth_ends htable hfields,?_⟩
    rintro before value after rfl
    rw [List.forall_mem_append,List.forall_mem_cons] at hfields
    have hfind : Findnth (createDumpString esc entry.name (before ++ value :: after)) _ _ :=
      findnth_column esc htable hfields.1 hfields.2.1
    exact ⟨hfind,fun text => ⟨_,hfind,changeAt_column esc entry.name before value after text⟩⟩

def mysqlLetter (c : Char) : Char :=
  if c = Char.ofNat 0 then '0' else if c = '\n' then 'n' else if c = '\r' then 'r'
  else if c = Char.ofNat 26 then 'Z' else c

theorem mysqlLetter_quote : mysqlLetter '\'' = '\'' := by decide

theorem mysqlLetter_backslash : mysqlLetter '\\' = '\\' := by decide

theorem mysqlLetter_other (c : Char) (hquote : c ≠ '\'') (hslash : c ≠ '\\') :
    mysqlLetter c ≠ '\'' ∧ mysqlLetter c ≠ '\\' := by
  unfold mysqlLetter
  split_ifs
  · decide
  · decide
  · decide
  · decide
  · exact ⟨hquote,hslash⟩

def mysqlEscaping : Escaping :=
  ⟨mysqlLetter,mysqlLetter_quote,mysqlLetter_backslash,mysqlLetter_other⟩

theorem findnth_exact_mail : Findnth (createDumpString mysqlEscaping "mail" ["7".toList,"a\"b".toList])
    2 (some (33,37)) :=
  (((findnth_exact_iff mysqlEscaping ["7".toList,"a\"b".toList]
    (show (⟨"mail",.mail⟩ : DumpTable) ∈ dumpTables by decide)).mpr (by decide)).2 ["7".toList]
    "a\"b".toList [] rfl).1

/-- For a first column with a quote in it the search does not end. -/
theorem findnth_quote_hangs : ¬ ∀ fields : List (List Char), ∀ entry ∈ dumpTables, ∀ n,
    ∃ r, Findnth (createDumpString mysqlEscaping entry.name fields) n r := by
  intro h
  obtain ⟨r,hfind⟩ := h ["o'clock".toList] ⟨"mail",.mail⟩ (by decide) 1
  exact not_findnth_first (by decide) (by decide) hfind

end TrinityCore.Tools
