import Mathlib

set_option autoImplicit false

structure OrderedMap (κ ν : Type) [LinearOrder κ] where
  entries : List (κ × ν)
  sorted : entries.Pairwise fun a b => a.1 < b.1

namespace OrderedMap

variable {κ ν ν' : Type} [LinearOrder κ]

@[ext] theorem ext {m m' : OrderedMap κ ν} (h : m.entries = m'.entries) : m = m' := by
  cases m; cases m'; simp_all

def empty : OrderedMap κ ν := ⟨[],.nil⟩

def keys (m : OrderedMap κ ν) : List κ := m.entries.map Prod.fst

def values (m : OrderedMap κ ν) : List ν := m.entries.map Prod.snd

def size (m : OrderedMap κ ν) : Nat := m.entries.length

def findEntry (k : κ) : List (κ × ν) → Option ν
  | [] => none
  | e :: es => if k = e.1 then some e.2 else findEntry k es

def find? (m : OrderedMap κ ν) (k : κ) : Option ν := findEntry k m.entries

/-- The entry takes its place in the order, or that of the entry with the same key. -/
def insertEntry (k : κ) (v : ν) : List (κ × ν) → List (κ × ν)
  | [] => [(k,v)]
  | e :: es =>
    if k < e.1 then (k,v) :: e :: es
    else if k = e.1 then (k,v) :: es
    else e :: insertEntry k v es

theorem mem_insertEntry {k : κ} {v : ν} {es : List (κ × ν)} {e : κ × ν}
    (h : e ∈ insertEntry k v es) : e = (k,v) ∨ e ∈ es := by
  induction es with
  | nil => simpa [insertEntry] using h
  | cons e' es ih =>
    simp only [insertEntry] at h
    split_ifs at h with h1 h2
    · simpa using h
    · rcases List.mem_cons.mp h with h | h
      · exact .inl h
      · exact .inr (List.mem_cons_of_mem _ h)
    · rcases List.mem_cons.mp h with h | h
      · exact .inr (by simp [h])
      · exact (ih h).imp_right (List.mem_cons_of_mem _)

theorem sorted_insertEntry {k : κ} {v : ν} {es : List (κ × ν)}
    (h : es.Pairwise fun a b => a.1 < b.1) :
    (insertEntry k v es).Pairwise fun a b => a.1 < b.1 := by
  induction es with
  | nil => simp [insertEntry]
  | cons e es ih =>
    rw [List.pairwise_cons] at h
    simp only [insertEntry]
    split_ifs with h1 h2
    · refine .cons (fun b hb => ?_) (.cons h.1 h.2)
      rcases List.mem_cons.mp hb with rfl | hb
      · exact h1
      · exact h1.trans (h.1 b hb)
    · exact .cons (fun b hb => h2 ▸ h.1 b hb) h.2
    · refine .cons (fun b hb => ?_) (ih h.2)
      rcases mem_insertEntry hb with rfl | hb
      · exact lt_of_le_of_ne (not_lt.mp h1) (Ne.symm h2)
      · exact h.1 b hb

def insert (m : OrderedMap κ ν) (k : κ) (v : ν) : OrderedMap κ ν :=
  ⟨insertEntry k v m.entries,sorted_insertEntry m.sorted⟩

def filter (m : OrderedMap κ ν) (p : κ → ν → Bool) : OrderedMap κ ν :=
  ⟨m.entries.filter fun e => p e.1 e.2,m.sorted.filter _⟩

def erase (m : OrderedMap κ ν) (k : κ) : OrderedMap κ ν := m.filter fun k' _ => k' ≠ k

def map (f : κ → ν → ν') (m : OrderedMap κ ν) : OrderedMap κ ν' :=
  ⟨m.entries.map fun e => (e.1,f e.1 e.2),List.pairwise_map.mpr m.sorted⟩

omit [LinearOrder κ] in
theorem fst_zip_sublist (ks : List κ) (vs : List ν) :
    ((ks.zip vs).map Prod.fst).Sublist ks := by
  induction ks generalizing vs with
  | nil => simp
  | cons k ks ih => cases vs <;> simp [ih]

def setValues (m : OrderedMap κ ν) (vs : List ν') : OrderedMap κ ν' where
  entries := m.keys.zip vs
  sorted := by
    have h : m.keys.Pairwise (· < ·) := List.pairwise_map.mpr m.sorted
    rw [← List.pairwise_map (f := Prod.fst) (R := (· < ·))]
    exact h.sublist (fst_zip_sublist _ _)

section Lemmas

variable {m : OrderedMap κ ν} {k k' : κ} {v : ν}

theorem nodup_keys (m : OrderedMap κ ν) : m.keys.Nodup :=
  List.pairwise_map.mpr (m.sorted.imp fun h => h.ne)

@[simp] theorem find?_empty : (empty : OrderedMap κ ν).find? k = none := rfl

theorem findEntry_insertEntry (es : List (κ × ν)) :
    findEntry k' (insertEntry k v es) = if k' = k then some v else findEntry k' es := by
  induction es with
  | nil => rfl
  | cons e es ih =>
    by_cases hk : k' = k
    · subst hk
      simp only [insertEntry]
      split_ifs with h1 h2
      · simp [findEntry]
      · simp [findEntry]
      · simp [findEntry,h2,ih]
    · simp only [insertEntry]
      split_ifs with h1 h2
      · simp [findEntry,hk]
      · simp [findEntry,hk,← h2]
      · simp [findEntry,hk,ih]

theorem find?_insert : (m.insert k v).find? k' = if k' = k then some v else m.find? k' :=
  findEntry_insertEntry m.entries

theorem mem_entries : (k,v) ∈ m.entries ↔ m.find? k = some v := by
  obtain ⟨es,hs⟩ := m
  simp only [find?]
  induction es with
  | nil => simp [findEntry]
  | cons e es ih =>
    rw [List.pairwise_cons] at hs
    by_cases hk : k = e.1
    · have hno : (e.1,v) ∉ es := fun hm => absurd (hs.1 _ hm) (lt_irrefl _)
      simp [findEntry,hno,hk,Prod.ext_iff,eq_comm]
    · rw [List.mem_cons,ih hs.2]
      simp [findEntry,hk,Prod.ext_iff]

theorem ext_find {m' : OrderedMap κ ν} (h : ∀ k, m.find? k = m'.find? k) : m = m' := by
  apply ext
  have hperm : m.entries.Perm m'.entries := by
    refine (List.perm_ext_iff_of_nodup (List.Nodup.of_map Prod.fst m.nodup_keys)
      (List.Nodup.of_map Prod.fst m'.nodup_keys)).mpr fun e => ?_
    rw [← Prod.mk.eta (p := e),mem_entries,mem_entries,h]
  exact hperm.eq_of_pairwise (fun a b _ _ hab hba => absurd hab hba.asymm) m.sorted m'.sorted

theorem mem_keys : k ∈ m.keys ↔ ∃ v, m.find? k = some v := by
  simp [keys,← mem_entries]

theorem mem_keys_insert : k' ∈ (m.insert k v).keys ↔ k' = k ∨ k' ∈ m.keys := by
  simp only [mem_keys,find?_insert]
  by_cases h : k' = k <;> simp [h]

theorem mem_keys_of_filter {p : κ → ν → Bool} (h : k ∈ (m.filter p).keys) : k ∈ m.keys := by
  simp only [keys,filter,List.mem_map,List.mem_filter] at h ⊢
  obtain ⟨e,⟨he,-⟩,hk⟩ := h
  exact ⟨e,he,hk⟩

theorem length_insertEntry {es : List (κ × ν)} (h : k ∉ es.map Prod.fst) :
    (insertEntry k v es).length = es.length+1 := by
  induction es with
  | nil => rfl
  | cons e es ih =>
    simp only [List.map_cons,List.mem_cons,not_or] at h
    simp only [insertEntry]
    split_ifs with h1 h2
    · rfl
    · exact absurd h2 h.1
    · simp [ih h.2]

theorem map_fst_insertEntry_of_mem {es : List (κ × ν)} (h : k ∈ es.map Prod.fst)
    (hs : es.Pairwise fun a b => a.1 < b.1) : (insertEntry k v es).map Prod.fst = es.map Prod.fst := by
  induction es with
  | nil => simp at h
  | cons e es ih =>
    rw [List.pairwise_cons] at hs
    simp only [List.map_cons,List.mem_cons] at h
    simp only [insertEntry]
    split_ifs with h1 h2
    · rcases h with h | h
      · exact absurd h h1.ne
      · obtain ⟨e',he',rfl⟩ := List.mem_map.mp h
        exact absurd (hs.1 e' he') (not_lt.mpr h1.le)
    · simp [h2]
    · simp [ih (h.resolve_left h2) hs.2]

theorem keys_insert_of_mem (h : k ∈ m.keys) : (m.insert k v).keys = m.keys :=
  map_fst_insertEntry_of_mem h m.sorted

theorem size_insert_of_mem (h : k ∈ m.keys) : (m.insert k v).size = m.size := by
  simpa [keys,size] using congrArg List.length (keys_insert_of_mem (v := v) h)

theorem size_insert (h : k ∉ m.keys) : (m.insert k v).size = m.size+1 := length_insertEntry h

theorem keys_setValues {vs : List ν'} (h : vs.length = m.size) : (m.setValues vs).keys = m.keys :=
  List.map_fst_zip (by simp [keys,h,size])

theorem values_setValues {vs : List ν'} (h : vs.length = m.size) : (m.setValues vs).values = vs :=
  List.map_snd_zip (by simp [keys,h,size])

theorem find?_setValues {vs : List ν'} (h : vs.length = m.size) (hk : m.find? k = some v) :
    ∃ i : Nat, m.values[i]? = some v ∧ ∃ v', vs[i]? = some v' ∧ (m.setValues vs).find? k = some v' := by
  obtain ⟨i,hi⟩ := List.mem_iff_getElem?.mp (mem_entries.mpr hk)
  have hlt : i < vs.length := by
    rw [h]
    exact (List.getElem?_eq_some_iff.mp hi).1
  refine ⟨i,by simp [values,hi],vs[i],List.getElem?_eq_getElem hlt,?_⟩
  refine mem_entries.mp (List.mem_iff_getElem?.mpr ⟨i,?_⟩)
  simp [setValues,List.getElem?_zip_eq_some,keys,hi,hlt]

theorem keys_map (f : κ → ν → ν') : (m.map f).keys = m.keys := by
  simp [keys,map]

theorem findEntry_eq_none {es : List (κ × ν)} (h : k ∉ es.map Prod.fst) :
    findEntry k es = none := by
  induction es with
  | nil => rfl
  | cons e es ih =>
    rw [List.map_cons,List.mem_cons,not_or] at h
    unfold findEntry
    rw [if_neg h.1]
    exact ih h.2

theorem findEntry_map (f : κ → ν → ν') (es : List (κ × ν)) :
    findEntry k (es.map fun e => (e.1,f e.1 e.2)) = (findEntry k es).map (f k) := by
  induction es with
  | nil => rfl
  | cons e es ih =>
    simp only [List.map_cons,findEntry,ih]
    split_ifs with h
    · rw [h]
      rfl
    · rfl

theorem find?_map (f : κ → ν → ν') : (m.map f).find? k = (m.find? k).map (f k) :=
  findEntry_map f m.entries

theorem findEntry_filter (p : κ → ν → Bool) {es : List (κ × ν)}
    (h : es.Pairwise fun a b => a.1 < b.1) :
    findEntry k (es.filter fun e => p e.1 e.2) = (findEntry k es).filter (p k) := by
  induction es with
  | nil => rfl
  | cons e es ih =>
    rw [List.pairwise_cons] at h
    have hno : k = e.1 → findEntry k es = none := by
      intro hk
      rw [Option.eq_none_iff_forall_ne_some]
      intro v hv
      have hm : (k,v) ∈ es := (mem_entries (m := ⟨es,h.2⟩)).mpr hv
      exact absurd (h.1 _ hm) (by simp [hk])
    simp only [List.filter_cons]
    by_cases hk : k = e.1
    · subst hk
      split_ifs with hp
      · simp [findEntry,Option.filter,hp]
      · simp [ih h.2,hno rfl,findEntry,Option.filter,hp]
    · split_ifs with hp
      · simp [findEntry,hk,ih h.2]
      · simp [findEntry,hk,ih h.2]

theorem find?_filter (p : κ → ν → Bool) : (m.filter p).find? k = (m.find? k).filter (p k) :=
  findEntry_filter p m.sorted

theorem find?_erase : (m.erase k).find? k' = if k' = k then none else m.find? k' := by
  rw [erase,find?_filter]
  split_ifs with h
  · cases m.find? k' <;> simp [Option.filter,h]
  · cases m.find? k' <;> simp [Option.filter,h]

theorem mem_keys_erase : k' ∈ (m.erase k).keys ↔ k' ≠ k ∧ k' ∈ m.keys := by
  simp only [mem_keys,find?_erase]
  by_cases h : k' = k <;> simp [h]

theorem mem_values : v ∈ m.values ↔ ∃ k, m.find? k = some v := by
  simp [values,← mem_entries]

theorem countP_insertEntry (p : ν → Bool) (es : List (κ × ν))
    (h : es.Pairwise fun a b => a.1 < b.1) :
    ((insertEntry k v es).map Prod.snd).countP p+
        (findEntry k es).elim 0 (fun w => if p w then 1 else 0) =
      (es.map Prod.snd).countP p+if p v then 1 else 0 := by
  induction es with
  | nil => simp [insertEntry,findEntry]
  | cons e es ih =>
    rw [List.pairwise_cons] at h
    have hcons := ih h.2
    simp only [insertEntry,findEntry]
    by_cases hlt : k < e.1
    · have hno : findEntry k es = none := by
        rw [Option.eq_none_iff_forall_ne_some]
        intro w hw
        have hm : (k,w) ∈ es := (mem_entries (m := ⟨es,h.2⟩)).mpr hw
        exact absurd (h.1 _ hm) (not_lt.mpr hlt.le)
      simp [hlt,hlt.ne,hno,List.countP_cons]
    · by_cases heq : k = e.1
      · subst heq
        simp only [lt_irrefl,if_false,if_true,Option.elim_some,List.map_cons,List.countP_cons]
        omega
      · simp only [hlt,heq,if_false,List.map_cons,List.countP_cons]
        omega

theorem countP_insert (p : ν → Bool) :
    (m.insert k v).values.countP p+(m.find? k).elim 0 (fun w => if p w then 1 else 0) =
      m.values.countP p+if p v then 1 else 0 :=
  countP_insertEntry p m.entries m.sorted

theorem countP_erase (p : ν → Bool) :
    (m.erase k).values.countP p+(m.find? k).elim 0 (fun w => if p w then 1 else 0) =
      m.values.countP p := by
  obtain ⟨es,h⟩ := m
  simp only [erase,filter,values,find?]
  induction es with
  | nil => simp [findEntry]
  | cons e es ih =>
    rw [List.pairwise_cons] at h
    have hcons := ih h.2
    simp only [findEntry]
    by_cases heq : k = e.1
    · have hall : es.filter (fun e => decide (e.1 ≠ k)) = es := by
        refine List.filter_eq_self.mpr fun e' he' => ?_
        have := (h.1 e' he').ne'
        simpa [heq] using this
      rw [List.filter_cons_of_neg (by simp [heq]),hall]
      simp [heq,List.countP_cons]
    · rw [List.filter_cons_of_pos (by simpa using Ne.symm heq)]
      simp only [heq,if_false,List.map_cons,List.countP_cons]
      omega

theorem size_eq_countP : m.size = m.values.countP fun _ => true := by
  simp [size,values]

theorem size_erase (h : k ∈ m.keys) : (m.erase k).size+1 = m.size := by
  obtain ⟨w,hw⟩ := mem_keys.mp h
  have hcount := countP_erase (m := m) (k := k) fun _ => true
  rw [hw] at hcount
  simpa [size_eq_countP] using hcount

theorem perm_insertEntry {es : List (κ × ν)} (h : es.Pairwise fun a b => a.1 < b.1) :
    (insertEntry k v es).Perm ((k,v) :: es.filter fun e => decide (e.1 ≠ k)) := by
  induction es with
  | nil => exact .rfl
  | cons e es ih =>
    obtain ⟨hhead,htail⟩ := List.pairwise_cons.mp h
    have hrest : ∀ {k' : κ}, k' ≤ e.1 → (es.filter fun e => decide (e.1 ≠ k')) = es := by
      intro k' hle
      refine List.filter_eq_self.mpr fun e' hmem => ?_
      simpa using (lt_of_le_of_lt hle (hhead e' hmem)).ne'
    unfold insertEntry
    split_ifs with hlt heq
    · rw [List.filter_cons_of_pos (by simpa using hlt.ne'),hrest hlt.le]
    · rw [List.filter_cons_of_neg (by simpa using heq.symm),hrest heq.le]
    · rw [List.filter_cons_of_pos (by simpa using fun h => heq h.symm)]
      exact ((ih htail).cons e).trans (List.Perm.swap _ _ _)

theorem perm_entries_insert : (m.insert k v).entries.Perm ((k,v) :: (m.erase k).entries) :=
  perm_insertEntry m.sorted

theorem perm_values_insert : (m.insert k v).values.Perm (v :: (m.erase k).values) :=
  perm_entries_insert.map Prod.snd

theorem erase_eq_self (h : m.find? k = none) : m.erase k = m := by
  apply ext
  refine List.filter_eq_self.mpr fun e hmem => ?_
  have hfind : m.find? e.1 = some e.2 := mem_entries.mp hmem
  rw [decide_eq_true_eq]
  rintro rfl
  rw [h] at hfind
  cases hfind

theorem insert_eq_self (h : m.find? k = some v) : m.insert k v = m := by
  apply ext
  obtain ⟨es,hs⟩ := m
  dsimp only [insert]
  induction es with
  | nil => cases h
  | cons e es ih =>
    obtain ⟨hhead,htail⟩ := List.pairwise_cons.mp hs
    change (if k = e.1 then some e.2 else findEntry k es) = some v at h
    unfold insertEntry
    by_cases heq : k = e.1
    · rw [if_pos heq] at h
      cases h
      rw [if_neg (not_lt.mpr heq.ge),if_pos heq,heq]
    · rw [if_neg heq] at h
      have hmem : (k,v) ∈ es := mem_entries (m := ⟨es,htail⟩) |>.mpr h
      rw [if_neg (not_lt.mpr (hhead _ hmem).le),if_neg heq,ih htail h]

theorem perm_entries_erase (h : m.find? k = some v) :
    m.entries.Perm ((k,v) :: (m.erase k).entries) := by
  conv_lhs => rw [← insert_eq_self h]
  exact perm_entries_insert

theorem perm_values_erase (h : m.find? k = some v) : m.values.Perm (v :: (m.erase k).values) :=
  (perm_entries_erase h).map Prod.snd

theorem countP_of_find {keys : Finset κ} {f : κ → ν}
    (h : ∀ k, m.find? k = if k ∈ keys then some (f k) else none) (p : ν → Bool) :
    m.values.countP p = (keys.filter fun k => p (f k)).card := by
  have hentry : ∀ e ∈ m.entries, e.1 ∈ keys ∧ e.2 = f e.1 := by
    intro e he
    have hfind : m.find? e.1 = some e.2 := mem_entries.mp he
    rw [h] at hfind
    split_ifs at hfind with hmem
    exact ⟨hmem,(Option.some.inj hfind).symm⟩
  have hkeys : m.keys.toFinset = keys := by
    ext k
    rw [List.mem_toFinset,mem_keys,h]
    split_ifs with hmem <;> simp [hmem]
  have hcount : m.values.countP p = m.keys.countP fun k => p (f k) := by
    rw [values,OrderedMap.keys,List.countP_map,List.countP_map]
    refine List.countP_congr fun e he => ?_
    rw [Function.comp_apply,Function.comp_apply,(hentry e he).2]
  rw [hcount,List.countP_eq_length_filter,← List.toFinset_card_of_nodup (m.nodup_keys.filter _),
    List.toFinset_filter,hkeys]

def collect {β : Type} (f : κ → ν → List β) (m : OrderedMap κ ν) : List β :=
  m.entries.flatMap fun e => f e.1 e.2

section Collect

variable {β : Type} {f : κ → ν → List β}

theorem mem_collect {b : β} : b ∈ m.collect f ↔ ∃ k v, m.find? k = some v ∧ b ∈ f k v := by
  simp only [collect,List.mem_flatMap,Prod.exists,mem_entries]

theorem perm_collect_insert :
    ((m.insert k v).collect f).Perm (f k v ++ (m.erase k).collect f) :=
  perm_entries_insert.flatMap_right _

theorem perm_collect_erase (h : m.find? k = some v) :
    (m.collect f).Perm (f k v ++ (m.erase k).collect f) :=
  (perm_entries_erase h).flatMap_right _

end Collect

end Lemmas

end OrderedMap
