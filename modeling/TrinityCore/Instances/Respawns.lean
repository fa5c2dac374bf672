import TrinityCore.Instances.ResetChain

set_option autoImplicit false

namespace TrinityCore.Instances

open InstanceSaveManager

/-- The ids of instances are different, and there is one respawn time of an instance. -/
structure ResetRows.Keyed (rows : ResetRows) : Prop where
  instances : (rows.instances.map InstanceRow.id).Nodup
  respawns : (rows.respawns.map Prod.snd).Nodup

namespace ResetRows

variable (rows : ResetRows)

/-- The rows that the second loop fetches. It moves on in the first result, of which this is left. -/
def fetchedWith (respawn : Nat × Nat) : List InstanceRow → List (Nat × Nat)
  | [] => [respawn]
  | _ :: result => respawn :: fetchedWith respawn result

/-- At that time nothing is left of the first result. Without a first one there is no second one. -/
def fetched : List (Nat × Nat) :=
  if rows.instances = [] then []
  else
    match rows.respawns with
    | [] => []
    | respawn :: _ => fetchedWith respawn []

/-- When an instance is to be reset: two hours after its last respawn, or else as it was stored. -/
def due (row : InstanceRow) : Nat :=
  match rows.respawns.find? fun respawn => respawn.2 = row.id with
  | some respawn => respawn.1+2*hour
  | none => row.resettime

/-- The reset times of all instances are applied, and those that are not over are in the queue. -/
def Applied (D : MapStore) (now : Nat) : Prop :=
  ∀ row ∈ rows.instances, row.resettime ≠ 0 →
    (rows.instResetTime.find? fun row' => row'.id = row.id) =
        some { row with resettime := rows.due row } ∧
      ((∃ x ∈ (loadResetTimes D rows now).resetTimeQueue, x.1 = rows.due row ∧ x.2.type = 0 ∧
        x.2.key = row.key ∧ x.2.instanceId = row.id) ↔ rows.due row > now)

/-- Only the first respawn time changes anything, and what is queued has a short id. -/
structure Simple (now : Nat) : Prop where
  first : ∀ respawn, rows.respawns.head? = some respawn → ∀ row ∈ rows.instances,
    row.resettime ≠ 0 → row.id = respawn.2 → respawn.1+2*hour < 2^32
  others : ∀ respawn ∈ rows.respawns.tail, ∀ row ∈ rows.instances, row.resettime ≠ 0 →
    row.id = respawn.2 → row.resettime = respawn.1+2*hour
  short : ∀ row ∈ rows.instances, row.resettime ≠ 0 → rows.due row > now → row.id < 2^16

end ResetRows

section Queue

variable {D : MapStore} {rows : ResetRows} {s : InstanceSaveManager} {now : Nat}
  {x : Int × InstResetEvent}

theorem mem_scheduleReset {t : Int} {e : InstResetEvent} :
    x ∈ (s.scheduleReset true t e).resetTimeQueue ↔ x = (t,e) ∨ x ∈ s.resetTimeQueue := by
  unfold scheduleReset
  rw [if_pos rfl]
  exact insert_perm.mem_iff.trans List.mem_cons

theorem mem_loadInstances (timed : List InstanceRow) :
    x ∈ (timed.foldl (loadInstance now) s).resetTimeQueue ↔ x ∈ s.resetTimeQueue ∨
      ∃ row ∈ timed, row.resettime > now ∧ x = ((row.resettime : Int),InstResetEvent.mk16 0 row.key row.id) := by
  induction timed generalizing s with
  | nil => simp
  | cons row timed ih =>
    rw [List.foldl_cons,ih]
    unfold loadInstance
    split_ifs with hnow
    · rw [mem_scheduleReset]
      simp only [List.mem_cons,exists_eq_or_imp,hnow,true_and]
      tauto
    · simp only [List.mem_cons,exists_eq_or_imp,hnow,false_and,false_or]

theorem resetTimeQueue_loadResets (resets : List (MapDifficulty × Nat)) :
    (resets.foldl (loadReset D) s).resetTimeQueue = s.resetTimeQueue := by
  induction resets generalizing s with
  | nil => rfl
  | cons row resets ih =>
    rw [List.foldl_cons,ih]
    unfold loadReset
    split <;> rfl

theorem startType_ne_zero (now t : Nat) : startType now t ≠ 0 := by
  unfold startType
  split_ifs <;> simp

theorem mem_loadDifficulty (entry : MapDifficulty × Nat) (h0 : x.2.type = 0) :
    x ∈ (loadDifficulty D rows now s entry).resetTimeQueue ↔ x ∈ s.resetTimeQueue := by
  have hadd : ∀ {s : InstanceSaveManager} {t : Int} {type : Nat} {key : MapDifficulty} {id : Nat},
      type ≠ 0 → (x ∈ (s.scheduleReset true t (.mk16 type key id)).resetTimeQueue ↔
        x ∈ s.resetTimeQueue) := by
    intro s t type key id htype
    rw [mem_scheduleReset]
    refine or_iff_right fun heq => htype ?_
    rw [heq] at h0
    exact h0
  unfold loadDifficulty
  split_ifs
  · rfl
  · dsimp only
    generalize rows.instances.filter _ = bound
    have hfold : ∀ {s : InstanceSaveManager} {t : Int} {type : Nat}, type ≠ 0 →
        (x ∈ (bound.foldl (fun s row => s.scheduleReset true t (.mk16 type entry.1 row.id)) s).resetTimeQueue ↔
          x ∈ s.resetTimeQueue) := by
      intro s t type htype
      induction bound generalizing s with
      | nil => rfl
      | cons row bound ih =>
        rw [List.foldl_cons,ih]
        exact hadd htype
    rw [hfold (startType_ne_zero _ _)]
    exact hadd (startType_ne_zero _ _)

theorem mem_loadDifficulties (entries : List (MapDifficulty × Nat)) (h0 : x.2.type = 0) :
    x ∈ (entries.foldl (loadDifficulty D rows now) s).resetTimeQueue ↔ x ∈ s.resetTimeQueue := by
  induction entries generalizing s with
  | nil => rfl
  | cons entry entries ih =>
    rw [List.foldl_cons,ih]
    exact mem_loadDifficulty entry h0

theorem mem_loadResetTimes (h0 : x.2.type = 0) :
    x ∈ (loadResetTimes D rows now).resetTimeQueue ↔
      ∃ row ∈ rows.instResetTime, row.resettime > now ∧
        x = ((row.resettime : Int),InstResetEvent.mk16 0 row.key row.id) := by
  unfold loadResetTimes
  dsimp only
  rw [mem_loadDifficulties _ h0,resetTimeQueue_loadResets,mem_loadInstances]
  simp

end Queue

section Due

variable {D : MapStore} {rows : ResetRows} {now : Nat} {row : InstanceRow}

def ResetRows.loaded (rows : ResetRows) (row : InstanceRow) : InstanceRow :=
  match rows.respawns with
  | [] => row
  | respawn :: _ =>
    if row.id = respawn.2 then { row with resettime := ResetRows.respawnReset respawn.1 } else row

theorem id_loaded (rows : ResetRows) (row : InstanceRow) : (rows.loaded row).id = row.id := by
  unfold ResetRows.loaded
  split
  · rfl
  · split_ifs <;> rfl

theorem key_loaded (rows : ResetRows) (row : InstanceRow) : (rows.loaded row).key = row.key := by
  unfold ResetRows.loaded
  split
  · rfl
  · split_ifs <;> rfl

theorem instResetTime_eq : rows.instResetTime =
    (rows.instances.filter fun row => row.resettime ≠ 0).map rows.loaded := by
  have hloaded : ∀ row, rows.loaded row = match rows.respawns with
      | [] => row
      | respawn :: _ =>
        if row.id = respawn.2 then { row with resettime := ResetRows.respawnReset respawn.1 } else row :=
    fun _ => rfl
  unfold ResetRows.instResetTime
  cases hrespawns : rows.respawns with
  | nil =>
    have hid : rows.loaded = id := by
      funext row
      rw [hloaded,hrespawns]
      rfl
    rw [hid,List.map_id]
  | cons respawn rest =>
    refine List.map_congr_left fun row _ => ?_
    rw [hloaded,hrespawns]

theorem find_instResetTime (hkeyed : rows.Keyed) (hrow : row ∈ rows.instances)
    (htimed : row.resettime ≠ 0) :
    (rows.instResetTime.find? fun row' => row'.id = row.id) = some (rows.loaded row) := by
  have hsame : ((fun row' : InstanceRow => decide (row'.id = row.id)) ∘ rows.loaded) =
      fun row' => decide (row'.id = row.id) := by
    funext row'
    rw [Function.comp_apply,id_loaded]
  have hfind : (rows.instances.filter fun row => row.resettime ≠ 0).find?
      (fun row' => decide (row'.id = row.id)) = some row := by
    have hmem : row ∈ rows.instances.filter fun row => row.resettime ≠ 0 :=
      List.mem_filter.mpr ⟨hrow,by simpa using htimed⟩
    cases hfound : (rows.instances.filter fun row => row.resettime ≠ 0).find?
        fun row' => decide (row'.id = row.id) with
    | none =>
      have hno := List.find?_eq_none.mp hfound row hmem
      simp at hno
    | some row' =>
      have hid : row'.id = row.id := by simpa using List.find?_some hfound
      have hrow' := (List.mem_filter.mp (List.mem_of_find?_eq_some hfound)).1
      rw [List.inj_on_of_nodup_map hkeyed.instances hrow' hrow hid]
  rw [instResetTime_eq,List.find?_map,hsame,hfind]
  rfl

theorem loaded_due_iff (hkeyed : rows.Keyed) (row : InstanceRow) :
    (rows.loaded row).resettime = rows.due row ↔
      (∀ respawn, rows.respawns.head? = some respawn → row.id = respawn.2 →
        respawn.1+2*hour < 2^32) ∧
      ∀ respawn ∈ rows.respawns.tail, row.id = respawn.2 → row.resettime = respawn.1+2*hour := by
  have hnodup := hkeyed.respawns
  unfold ResetRows.loaded ResetRows.due
  cases hrespawns : rows.respawns with
  | nil => simp
  | cons respawn rest =>
    rw [hrespawns,List.map_cons,List.nodup_cons] at hnodup
    simp only [List.head?_cons,Option.some.injEq,forall_eq',List.tail_cons]
    by_cases hfirst : row.id = respawn.2
    · have hothers : ∀ respawn' ∈ rest, row.id ≠ respawn'.2 := by
        intro respawn' hmem heq
        exact hnodup.1 (hfirst ▸ heq ▸ List.mem_map_of_mem hmem)
      rw [List.find?_cons_of_pos (by simpa using hfirst.symm),if_pos hfirst]
      constructor
      · intro heq
        refine ⟨fun _ => ?_,fun respawn' hmem heq' => absurd heq' (hothers respawn' hmem)⟩
        have heq : (respawn.1+2*hour)%2^32 = respawn.1+2*hour := heq
        exact heq ▸ Nat.mod_lt _ (by decide)
      · exact fun h => Nat.mod_eq_of_lt (h.1 hfirst)
    · rw [List.find?_cons_of_neg (by simpa using Ne.symm hfirst),if_neg hfirst]
      cases hfound : rest.find? fun respawn => decide (respawn.2 = row.id) with
      | none =>
        have hnone := List.find?_eq_none.mp hfound
        refine iff_of_true rfl ⟨fun heq => absurd heq hfirst,fun respawn' hmem heq => ?_⟩
        exact absurd heq.symm (by simpa using hnone respawn' hmem)
      | some found =>
        have hid : found.2 = row.id := by simpa using List.find?_some hfound
        have hmem := List.mem_of_find?_eq_some hfound
        refine ⟨fun heq => ⟨fun heq' => absurd heq' hfirst,fun respawn' hmem' heq' => ?_⟩,
          fun h => h.2 found hmem hid.symm⟩
        rw [List.inj_on_of_nodup_map hnodup.2 hmem' hmem (heq'.symm.trans hid.symm)]
        exact heq

/-- An event is in the queue for an instance whose time is not over, if its id is short. -/
theorem queued_iff (hrow : row ∈ rows.instances) (htimed : row.resettime ≠ 0)
    (hdue : (rows.loaded row).resettime = rows.due row) :
    ((∃ x ∈ (loadResetTimes D rows now).resetTimeQueue, x.1 = rows.due row ∧ x.2.type = 0 ∧
      x.2.key = row.key ∧ x.2.instanceId = row.id) ↔ rows.due row > now) ↔
        (rows.due row > now → row.id < 2^16) := by
  constructor
  · intro hqueued hnow
    obtain ⟨x,hx,-,h0,-,hid⟩ := hqueued.mpr hnow
    obtain ⟨row',-,-,rfl⟩ := (mem_loadResetTimes h0).mp hx
    rw [← hid]
    exact Nat.mod_lt _ (by decide)
  · refine fun hshort => ⟨?_,fun hnow => ?_⟩
    · rintro ⟨x,hx,htime,h0,-,-⟩
      obtain ⟨row',-,hnow,rfl⟩ := (mem_loadResetTimes h0).mp hx
      have htime : (row'.resettime : Int) = rows.due row := htime
      omega
    · refine ⟨((rows.due row : Int),.mk16 0 row.key row.id),(mem_loadResetTimes rfl).mpr
        ⟨rows.loaded row,?_,by rwa [hdue],?_⟩,rfl,rfl,rfl,Nat.mod_eq_of_lt (hshort hnow)⟩
      · rw [instResetTime_eq]
        exact List.mem_map_of_mem (List.mem_filter.mpr ⟨hrow,by simpa using htimed⟩)
      · rw [hdue,key_loaded,id_loaded]

theorem applied_iff (hkeyed : rows.Keyed) : rows.Applied D now ↔ rows.Simple now := by
  have hrow : ∀ row ∈ rows.instances, row.resettime ≠ 0 →
      ((rows.instResetTime.find? fun row' => row'.id = row.id) =
        some { row with resettime := rows.due row } ↔
          (rows.loaded row).resettime = rows.due row) := by
    intro row hrow htimed
    rw [find_instResetTime hkeyed hrow htimed,Option.some.injEq]
    refine ⟨fun heq => by rw [heq],fun heq => ?_⟩
    rw [← heq,← id_loaded rows row,← key_loaded rows row]
  constructor
  · intro h
    have hdue : ∀ row ∈ rows.instances, row.resettime ≠ 0 →
        (rows.loaded row).resettime = rows.due row :=
      fun row hmem htimed => (hrow row hmem htimed).mp (h row hmem htimed).1
    refine ⟨?_,?_,?_⟩
    · intro respawn hhead row hmem htimed hid
      exact ((loaded_due_iff hkeyed row).mp (hdue row hmem htimed)).1 respawn hhead hid
    · intro respawn htail row hmem htimed hid
      exact ((loaded_due_iff hkeyed row).mp (hdue row hmem htimed)).2 respawn htail hid
    · intro row hmem htimed
      exact (queued_iff hmem htimed (hdue row hmem htimed)).mp (h row hmem htimed).2
  · intro h row hmem htimed
    have hdue : (rows.loaded row).resettime = rows.due row :=
      (loaded_due_iff hkeyed row).mpr ⟨fun respawn hhead => h.first respawn hhead row hmem htimed,
        fun respawn htail => h.others respawn htail row hmem htimed⟩
    exact ⟨(hrow row hmem htimed).mpr hdue,
      (queued_iff hmem htimed hdue).mpr (h.short row hmem htimed)⟩

theorem fetched_eq_iff (hsome : rows.instances ≠ []) :
    rows.fetched = rows.respawns ↔ rows.respawns.length ≤ 1 := by
  unfold ResetRows.fetched
  rw [if_neg hsome]
  cases rows.respawns with
  | nil => simp
  | cons respawn rest =>
    unfold ResetRows.fetchedWith
    rw [List.cons.injEq]
    refine ⟨fun h => ?_,fun h => ⟨rfl,?_⟩⟩
    · rw [← h.2,List.length_singleton]
    · rw [List.length_cons] at h
      exact (List.length_eq_zero_iff.mp (by omega)).symm

/-- All the respawn times are fetched, and applied, if and only if there is no second one and what
they say is simple. -/
theorem respawns_applied_iff (D : MapStore) (now : Nat) (hkeyed : rows.Keyed) :
    ((rows.instances ≠ [] → rows.fetched = rows.respawns) ∧ rows.Applied D now) ↔
      (rows.instances ≠ [] → rows.respawns.length ≤ 1) ∧ rows.Simple now :=
  and_congr (forall_congr' fetched_eq_iff) (applied_iff hkeyed)

end Due

section Example

/-- Two dungeons without resets of their maps, and the respawn times of creatures in both. -/
def twoDungeons : ResetRows where
  instances := [⟨1,(36,0),5000⟩,⟨2,(389,0),6000⟩]
  respawns := [(9000,1),(9500,2)]
  resets := []

def noRaids : MapStore where
  difficulties := []
  nodup := by decide
  instanceable _ := true
  scaled resetTime := resetTime
  resetTimeHour := 4

/-- The second dungeon is not in the queue, though its creatures respawn later than now. -/
theorem second_respawn_ignored : twoDungeons.Keyed ∧
    ¬ ((twoDungeons.instances ≠ [] → twoDungeons.fetched = twoDungeons.respawns) ∧
      twoDungeons.Applied noRaids 7000) := by
  have hkeyed : twoDungeons.Keyed := ⟨by decide,by decide⟩
  refine ⟨hkeyed,fun h => ?_⟩
  have hlost := (h.2 ⟨2,(389,0),6000⟩ (by decide) (by decide)).1
  exact absurd hlost (by decide)

def oneDungeon : ResetRows where
  instances := [⟨1,(36,0),5000⟩]
  respawns := [(9000,1)]
  resets := []

theorem oneDungeon_applied : (oneDungeon.instances ≠ [] → oneDungeon.fetched = oneDungeon.respawns) ∧
    oneDungeon.Applied noRaids 7000 := by
  refine (respawns_applied_iff noRaids 7000 ⟨by decide,by decide⟩).mpr
    ⟨fun _ => by decide,⟨?_,?_,?_⟩⟩
  · intro respawn hrespawn row _ _ _
    cases hrespawn
    decide
  · intro respawn hrespawn
    exact absurd hrespawn List.not_mem_nil
  · decide

end Example

end TrinityCore.Instances
