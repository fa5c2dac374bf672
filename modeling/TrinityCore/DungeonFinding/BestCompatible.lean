import TrinityCore.DungeonFinding.CompatibleCache

set_option autoImplicit false

/-!
The best combination that is kept for each queued guid, with the roles that it still needs. It is
set by a check, and looked for in the cache by the digits of the guid when it is missing. So it is
kept right as long as no queued guid has the digits of another one in it.
-/

namespace TrinityCore.Lfg

variable {e : Env} {d : Stores} {q q' : LFGQueue} {key : Key} {guid : Nat} {check : List Nat}
  {rs rs' all : LfgRolesMap} {data : LfgQueueData}

section Counters

structure LfgQueueData.Counts (data : LfgQueueData) (rs : LfgRolesMap) : Prop where
  tanks : data.tanks+rs.values.count Role.tank = tanksNeeded
  healers : data.healers+rs.values.count Role.healer = healersNeeded
  dps : data.dps+rs.values.count Role.damage = dpsNeeded

theorem dec8_succ {n : Nat} (h : n+1 < 256) : dec8 (n+1) = n := by
  unfold dec8
  omega

theorem needs_counters {vs : List Role} (hvs : ∀ r ∈ vs, IsRole r) {t h n : Nat} (data : LfgQueueData)
    (ht : data.tanks = t+vs.count Role.tank) (hh : data.healers = h+vs.count Role.healer)
    (hn : data.dps = n+vs.count Role.damage) (ht' : data.tanks < 256) (hh' : data.healers < 256)
    (hn' : data.dps < 256) :
    (vs.foldl LfgQueueData.need data).tanks = t ∧ (vs.foldl LfgQueueData.need data).healers = h ∧
    (vs.foldl LfgQueueData.need data).dps = n := by
  induction vs generalizing data with
  | nil => exact ⟨ht,hh,hn⟩
  | cons r vs ih =>
    have hrest := fun r' hr' => hvs r' (List.mem_cons_of_mem r hr')
    rw [List.foldl_cons]
    rcases hvs r List.mem_cons_self with rfl | rfl | rfl
    · have hneed : data.need Role.damage = { data with dps := dec8 data.dps } := by
        simp [LfgQueueData.need,Role.damage,Role.tank,Role.healer]
      have hcount : (Role.damage :: vs).count Role.damage = vs.count Role.damage+1 := by simp
      rw [hcount,← add_assoc] at hn
      have hdec : dec8 data.dps = n+vs.count Role.damage := by rw [hn,dec8_succ (hn ▸ hn')]
      rw [hneed]
      exact ih hrest _ (by simpa [Role.damage,Role.tank] using ht)
        (by simpa [Role.damage,Role.healer] using hh) hdec ht' hh' (by dsimp only; omega)
    · have hneed : data.need Role.healer = { data with healers := dec8 data.healers } := by
        simp [LfgQueueData.need,Role.tank,Role.healer]
      have hcount : (Role.healer :: vs).count Role.healer = vs.count Role.healer+1 := by simp
      rw [hcount,← add_assoc] at hh
      have hdec : dec8 data.healers = h+vs.count Role.healer := by rw [hh,dec8_succ (hh ▸ hh')]
      rw [hneed]
      exact ih hrest _ (by simpa [Role.healer,Role.tank] using ht) hdec
        (by simpa [Role.damage,Role.healer] using hn) ht' (by dsimp only; omega) hn'
    · have hneed : data.need Role.tank = { data with tanks := dec8 data.tanks } := by
        simp [LfgQueueData.need,Role.tank]
      have hcount : (Role.tank :: vs).count Role.tank = vs.count Role.tank+1 := by simp
      rw [hcount,← add_assoc] at ht
      have hdec : dec8 data.tanks = t+vs.count Role.tank := by rw [ht,dec8_succ (ht ▸ ht')]
      rw [hneed]
      exact ih hrest _ hdec (by simpa [Role.healer,Role.tank] using hh)
        (by simpa [Role.damage,Role.tank] using hn) (by dsimp only; omega) hh' hn'

end Counters

section Assignment

/-- The players of the guids, all queued, can be given roles together. -/
structure Party (q : LFGQueue) (check : List Nat) (all : LfgRolesMap) : Prop where
  queued : ∀ g ∈ check, (q.view g).isSome
  players : ∀ x r, all.find? x = some r ↔ ∃ g ∈ check, (roles q g).find? x = some r
  size : all.size ≤ maxGroupSize
  fits : (checkGroupRoles all).1 = true

/-- The roles are those that `CheckGroupRoles` gives to the players of the guids in the key. -/
def Assigns (q : LFGQueue) (key : Key) (rs : LfgRolesMap) : Prop :=
  ∃ check all, key = concatenateGuids check ∧ Party q check all ∧ rs = (checkGroupRoles all).2

theorem Assigns.unique (h : Assigns q key rs) (h' : Assigns q key rs') : rs = rs' := by
  obtain ⟨check,all,rfl,hparty,rfl⟩ := h
  obtain ⟨check',all',heq,hparty',rfl⟩ := h'
  have hmem : ∀ g, g ∈ check ↔ g ∈ check' := fun g =>
    ⟨mem_of_concatenateGuids_eq heq,mem_of_concatenateGuids_eq heq.symm⟩
  have hall : all = all' := by
    refine OrderedMap.ext_find fun x => Option.ext fun r => ?_
    rw [hparty.players,hparty'.players]
    simp only [hmem]
  rw [hall]

theorem Assigns.of_view (h : Assigns q key rs) (hview : ∀ g, Lists key g → q'.view g = q.view g) :
    Assigns q' key rs := by
  obtain ⟨check,all,rfl,hparty,rfl⟩ := h
  have hsame : ∀ g ∈ check, q'.view g = q.view g := fun g hg =>
    hview g (lists_concatenateGuids.mpr hg)
  refine ⟨check,all,rfl,⟨fun g hg => ?_,fun x r => ?_,hparty.size,hparty.fits⟩,rfl⟩
  · rw [hsame g hg]
    exact hparty.queued g hg
  · rw [hparty.players]
    refine exists_congr fun g => and_congr_right fun hg => ?_
    rw [roles_eq,roles_eq,hsame g hg]

theorem Assigns.queued (h : Assigns q key rs) (hg : Lists key guid) : (q.view guid).isSome := by
  obtain ⟨check,all,rfl,hparty,-⟩ := h
  exact hparty.queued guid (lists_concatenateGuids.mp hg)

theorem Assigns.occurs (h : Assigns q key rs) : guidString guid <:+: key ↔
    ∃ guid', Lists key guid' ∧ guidString guid <:+: guidString guid' := by
  obtain ⟨check,all,rfl,-,-⟩ := h
  simp only [infix_concatenateGuids,lists_concatenateGuids]

theorem Assigns.assigned (h : Assigns q key rs) :
    Assigned rs.values ∧ ∀ r ∈ rs.values, IsRole r := by
  obtain ⟨check,all,rfl,hparty,rfl⟩ := h
  obtain ⟨hkeys,hassigned,-⟩ := checkGroupRoles_of_true hparty.fits
  have hlength : (checkGroupRoles all).2.values.length = all.size := by
    have hsize := congrArg List.length hkeys
    simpa [OrderedMap.keys,OrderedMap.values,OrderedMap.size] using hsize
  have hsmall : all.size < 256 := lt_of_le_of_lt hparty.size (by decide)
  have htotal := hassigned.total
  rw [hlength,Nat.mod_eq_of_lt hsmall,← hlength] at htotal
  exact ⟨hassigned,isRole_of_total htotal⟩

/-- The best combination of a guid lists it and is cached, and the counters fit to it. -/
structure BestOf (q : LFGQueue) (guid : Nat) (data : LfgQueueData) : Prop where
  lists : Lists data.bestCompatible guid
  cached : ∃ c, q.compatibleMapStore.find? data.bestCompatible = some c ∧
    Assigns q data.bestCompatible c.roles ∧ data.Counts c.roles

def BestOk (q : LFGQueue) (guid : Nat) (data : LfgQueueData) : Prop :=
  data.bestCompatible ≠ [] → BestOf q guid data

theorem BestOk.cleared : BestOk q guid { data with bestCompatible := [] } := fun hne => absurd rfl hne

theorem BestOk.updateBest {c : LfgCompatibilityData} (hassigns : Assigns q key c.roles)
    (hlists : Lists key guid) (hcached : q.compatibleMapStore.find? key = some c)
    (hdata : BestOk q guid data) : BestOk q guid (data.updateBestCompatible key c.roles) := by
  unfold LfgQueueData.updateBestCompatible
  by_cases hsize : keySize key ≤ (if data.bestCompatible.isEmpty then 0 else keySize data.bestCompatible)
  · rw [if_pos hsize]
    exact hdata
  · rw [if_neg hsize]
    intro _
    obtain ⟨hassigned,hroles⟩ := hassigns.assigned
    obtain ⟨htanks,hhealers,hdps⟩ := needs_counters hroles { data with
        bestCompatible := key, tanks := tanksNeeded, healers := healersNeeded, dps := dpsNeeded }
      (Nat.sub_add_cancel hassigned.tank).symm (Nat.sub_add_cancel hassigned.healer).symm
      (Nat.sub_add_cancel hassigned.damage).symm (by decide : tanksNeeded < 256)
      (by decide : healersNeeded < 256) (by decide : dpsNeeded < 256)
    refine ⟨by rwa [needs_best],c,by rwa [needs_best],by rwa [needs_best],?_,?_,?_⟩
    · rw [htanks,Nat.sub_add_cancel hassigned.tank]
    · rw [hhealers,Nat.sub_add_cancel hassigned.healer]
    · rw [hdps,Nat.sub_add_cancel hassigned.damage]

end Assignment

section Tidy

/-- What a queue keeps as long as only guids join whose digits are apart. -/
structure Tidy (q : LFGQueue) : Prop where
  apart : ∀ g g', (q.view g).isSome → (q.view g').isSome → guidString g <:+: guidString g' → g = g'
  entries : ∀ g rs ds, q.view g = some (rs,ds) → rs.size ≤ maxGroupSize ∧
    (rs.size = maxGroupSize ∨ (checkGroupRoles rs).1 = true)
  cached : ∀ key c, q.compatibleMapStore.find? key = some c → c.compatibility = .withLessPlayers →
    Assigns q key c.roles
  best : ∀ g data, q.queueDataStore g = some data → BestOk q g data

theorem BestOf.congr (h : BestOf q guid data)
    (hview : ∀ g, Lists data.bestCompatible g → q'.view g = q.view g)
    (hcache : ∀ c, q.compatibleMapStore.find? data.bestCompatible = some c →
      ∃ c', q'.compatibleMapStore.find? data.bestCompatible = some c' ∧ c'.roles = c.roles) :
    BestOf q' guid data := by
  obtain ⟨c,hc,hassigns,hcounts⟩ := h.cached
  obtain ⟨c',hc',hroles⟩ := hcache c hc
  exact ⟨h.lists,c',hc',hroles ▸ hassigns.of_view hview,hroles ▸ hcounts⟩

theorem Tidy.congr (h : Tidy q) (hstore : q'.queueDataStore = q.queueDataStore)
    (hcache : q'.compatibleMapStore = q.compatibleMapStore) : Tidy q' := by
  have hview : ∀ g, q'.view g = q.view g := fun g => by simp only [LFGQueue.view,hstore]
  refine ⟨fun g g' hg hg' => h.apart g g' (hview g ▸ hg) (hview g' ▸ hg'),
    fun g rs ds hg => h.entries g rs ds (hview g ▸ hg),fun key c hc hless => ?_,
    fun g data hg hne => ?_⟩
  · exact (h.cached key c (hcache ▸ hc) hless).of_view fun g _ => hview g
  · exact (h.best g data (hstore ▸ hg) hne).congr (fun g _ => hview g) fun c hc =>
      ⟨c,hcache ▸ hc,rfl⟩

theorem Tidy.lists_of_infix (h : Tidy q) (hkey : Assigns q key rs) (hguid : (q.view guid).isSome)
    (hoccurs : guidString guid <:+: key) : Lists key guid := by
  obtain ⟨guid',hlists,hdigits⟩ := hkey.occurs.mp hoccurs
  rwa [h.apart guid guid' hguid (hkey.queued hlists) hdigits]

theorem findBest_ok (hcached : ∀ key c, q.compatibleMapStore.find? key = some c →
      c.compatibility = .withLessPlayers → Assigns q key c.roles)
    (hlists : ∀ key rs, Assigns q key rs → guidString guid <:+: key → Lists key guid)
    (hdata : BestOk q guid data) : BestOk q guid (q.findBestCompatible guid data) := by
  unfold LFGQueue.findBestCompatible
  have hfind : ∀ e ∈ q.compatibleMapStore.entries, q.compatibleMapStore.find? e.1 = some e.2 :=
    fun e he => OrderedMap.mem_entries.mp he
  generalize q.compatibleMapStore.entries = es at hfind
  induction es generalizing data with
  | nil => exact hdata
  | cons entry es ih =>
    have hentry := hfind entry List.mem_cons_self
    rw [List.foldl_cons]
    refine ih ?_ fun e he => hfind e (List.mem_cons_of_mem entry he)
    split_ifs with hfits
    · have hassigns := hcached entry.1 entry.2 hentry hfits.1
      exact hdata.updateBest hassigns (hlists entry.1 _ hassigns hfits.2) hentry
    · exact hdata

theorem Tidy.setCompatibles (h : Tidy q) {c : LfgCompatibility} (hc : c ≠ .withLessPlayers) :
    Tidy (q.setCompatibles key c) := by
  have hfind : ∀ key', (q.setCompatibles key c).compatibleMapStore.find? key' =
      if key' = key then some { (q.compatibleMapStore.find? key).getD ⟨.pending,.empty⟩ with
        compatibility := c }
      else q.compatibleMapStore.find? key' := fun key' =>
    OrderedMap.find?_insert.trans (by congr)
  refine ⟨h.apart,h.entries,fun key' data hdata hless => ?_,fun g data hg hne => ?_⟩
  · rw [hfind] at hdata
    split_ifs at hdata with hkey
    · cases hdata
      exact absurd hless hc
    · exact (h.cached key' data hdata hless).of_view fun _ _ => rfl
  · refine (h.best g data hg hne).congr (fun _ _ => rfl) fun c' hc' => ?_
    rw [hfind]
    split_ifs with hkey
    · exact ⟨_,rfl,by rw [← hkey,hc']; rfl⟩
    · exact ⟨c',hc',rfl⟩

theorem Tidy.setCompatibilityData (h : Tidy q) (hassigns : Assigns q key rs) :
    Tidy (q.setCompatibilityData key ⟨.withLessPlayers,rs⟩) := by
  have hfind : ∀ key', (q.setCompatibilityData key ⟨.withLessPlayers,rs⟩).compatibleMapStore.find?
      key' = if key' = key then some ⟨.withLessPlayers,rs⟩ else q.compatibleMapStore.find? key' :=
    fun key' =>
    OrderedMap.find?_insert.trans (by congr)
  refine ⟨h.apart,h.entries,fun key' data hdata hless => ?_,fun g data hg hne => ?_⟩
  · rw [hfind] at hdata
    split_ifs at hdata with hkey
    · cases hdata
      rw [hkey]
      exact hassigns.of_view fun _ _ => rfl
    · exact (h.cached key' data hdata hless).of_view fun _ _ => rfl
  · -- the roles that were cached for the combination are the same
    have hbest := h.best g data hg hne
    obtain ⟨c,hc,hold,-⟩ := hbest.cached
    refine hbest.congr (fun _ _ => rfl) fun c' hc' => ?_
    rw [hfind]
    split_ifs with hkey
    · obtain rfl : c = c' := Option.some.inj (hc.symm.trans hc')
      rw [hkey] at hold
      exact ⟨_,rfl,hassigns.unique hold⟩
    · exact ⟨c',hc',rfl⟩

theorem Tidy.updateBest (h : Tidy q) {c : LfgCompatibilityData} (hassigns : Assigns q key c.roles)
    (hcached : q.compatibleMapStore.find? key = some c) (hlists : Lists key guid) :
    Tidy (q.updateBestCompatibleInQueue guid key c.roles) := by
  refine ⟨fun g g' => ?_,fun g rs ds => ?_,fun key' data hdata hless => ?_,fun g data hg hne => ?_⟩
  · rw [view_updateBest,view_updateBest]
    exact h.apart g g'
  · rw [view_updateBest]
    exact h.entries g rs ds
  · exact (h.cached key' data hdata hless).of_view fun g _ => view_updateBest _ _ _ _
  · have hold : BestOf q g data := by
      simp only [LFGQueue.updateBestCompatibleInQueue] at hg
      by_cases heq : g = guid
      · subst heq
        rw [Function.update_self] at hg
        obtain ⟨data,hdata,rfl⟩ := Option.map_eq_some_iff.mp hg
        exact (h.best g data hdata).updateBest hassigns hlists hcached hne
      · rw [Function.update_of_ne heq] at hg
        exact h.best g data hg hne
    exact hold.congr (fun g _ => view_updateBest _ _ _ _) fun c' hc' => ⟨c',hc',rfl⟩

theorem Tidy.updateBests {gs : List Nat} (h : Tidy q) (hassigns : Assigns q key rs)
    (hcached : q.compatibleMapStore.find? key = some ⟨.withLessPlayers,rs⟩)
    (hgs : ∀ g ∈ gs, Lists key g) :
    Tidy (gs.foldl (fun q g => q.updateBestCompatibleInQueue g key rs) q) := by
  induction gs generalizing q with
  | nil => exact h
  | cons g gs ih =>
    exact ih (h.updateBest hassigns hcached (hgs g List.mem_cons_self))
      (hassigns.of_view fun _ _ => view_updateBest _ _ _ _) hcached
      fun g' hg' => hgs g' (List.mem_cons_of_mem g hg')

theorem updateBests_setCompatibilityData (gs : List Nat) (q : LFGQueue) (c : LfgCompatibilityData) :
    (gs.foldl (fun q g => q.updateBestCompatibleInQueue g key rs) q).setCompatibilityData key c =
      gs.foldl (fun q g => q.updateBestCompatibleInQueue g key rs) (q.setCompatibilityData key c) := by
  induction gs generalizing q with
  | nil => rfl
  | cons g gs ih => exact ih _

theorem verdict_lessPlayers (hentries : ∀ g rs ds, q.view g = some (rs,ds) → rs.size ≤ maxGroupSize ∧
      (rs.size = maxGroupSize ∨ (checkGroupRoles rs).1 = true))
    (h : verdict e d q check = .lessPlayers rs) : Assigns q (concatenateGuids check) rs := by
  have hsize : ∀ g, (roles q g).size ≤ maxGroupSize := by
    intro g
    rw [roles_eq]
    cases hg : q.view g with
    | none => exact Nat.zero_le _
    | some entry => exact (hentries g entry.1 entry.2 hg).1
  have hcountable : Countable q check := fun g _ => (hsize g).trans (by decide)
  unfold verdict at h
  cases hc : countPlayers d q check ⟨0,0,fun _ => 0,0⟩ with
  | error g => simp [hc] at h
  | ok c =>
    simp only [hc] at h
    split_ifs at h with hsingle hgroups hmany hseveral
    · obtain ⟨guid,rfl⟩ := List.length_eq_one_iff.mp hsingle.1
      cases hguid : q.queueDataStore guid with
      | none => simp [countPlayers,hguid] at hc
      | some data =>
        have hroles : roles q guid = data.roles := by simp [roles,hguid]
        have hview : q.view guid = some (data.roles,data.dungeons) := by simp [LFGQueue.view,hguid]
        obtain ⟨hle,hfits⟩ := hentries _ _ _ hview
        have hplayers : c.numPlayers = data.roles.size := by
          simp only [countPlayers,hguid,Nat.zero_lt_two,Nat.zero_le,and_self,if_true,
            Except.ok.injEq] at hc
          rw [← hc]
          exact (congrArg (· % 256) (Nat.zero_add _)).trans
            (Nat.mod_eq_of_lt (lt_of_le_of_lt hle (by decide)))
        cases h
        refine ⟨[guid],roles q guid,rfl,⟨?_,?_,hroles ▸ hle,?_⟩,rfl⟩
        · simp [hview]
        · simp
        · rw [hroles]
          exact hfits.resolve_left fun heq => hsingle.2 (hplayers.trans heq)
    · simp only [verdictSeveral] at h
      split_ifs at h with hignores hroles hdungeons hfive
      obtain ⟨hqueued,htotal,-⟩ := countPlayers_all hc (by omega) (by omega) hcountable
      have hle := size_addPlayers_le (e := e) (members q check) .empty
      have h0 : (OrderedMap.empty : LfgRolesMap).size = 0 := rfl
      rw [← joinRoles_eq,h0,length_members] at hle
      unfold maxGroupSize at hmany
      simp only [Nat.zero_add] at htotal
      have hall : (joinRoles e q check).size = (members q check).length := by
        rw [length_members]
        omega
      rw [joinRoles_eq] at hall
      have hadded : AllAdded e .empty (members q check) _ :=
        addPlayers_of_size (by rw [hall,h0,Nat.zero_add])
      rw [← joinRoles_eq] at hadded
      cases h
      refine ⟨check,joinRoles e q check,rfl,⟨hqueued,fun x r => ?_,?_,by simpa using hroles⟩,rfl⟩
      · rw [hadded.find,mem_members]
        simp
      · rw [joinRoles_eq,hall,length_members]
        unfold maxGroupSize
        omega

theorem find?_removeFromQueue : (q.removeFromQueue guid).compatibleMapStore.find? key =
    if guidString guid <:+: key then none else q.compatibleMapStore.find? key :=
  find?_removeFromCompatibles

theorem Tidy.removeFromQueue (h : Tidy q) (guid : Nat) : Tidy (q.removeFromQueue guid) := by
  have hview : ∀ g, ((q.removeFromQueue guid).view g).isSome →
      g ≠ guid ∧ (q.removeFromQueue guid).view g = q.view g := by
    intro g hg
    rw [view_removeFromQueue] at hg ⊢
    by_cases heq : g = guid
    · rw [if_pos heq] at hg
      cases hg
    · exact ⟨heq,if_neg heq⟩
  have hmembers : ∀ key rs, Assigns q key rs → ¬ guidString guid <:+: key →
      Assigns (q.removeFromQueue guid) key rs := by
    intro key rs hassigns hnot
    refine hassigns.of_view fun g hg => ?_
    rw [view_removeFromQueue,if_neg]
    rintro rfl
    exact hnot (hassigns.occurs.mpr ⟨g,hg,List.infix_rfl⟩)
  have hcached : ∀ key c, (q.removeFromQueue guid).compatibleMapStore.find? key = some c →
      c.compatibility = .withLessPlayers → Assigns (q.removeFromQueue guid) key c.roles := by
    intro key c hc hless
    rw [find?_removeFromQueue] at hc
    split_ifs at hc with hoccurs
    exact hmembers key c.roles (h.cached key c hc hless) hoccurs
  have hapart : ∀ g g', ((q.removeFromQueue guid).view g).isSome →
      ((q.removeFromQueue guid).view g').isSome → guidString g <:+: guidString g' → g = g' := by
    intro g g' hg hg'
    exact h.apart g g' ((hview g hg).2 ▸ hg) ((hview g' hg').2 ▸ hg')
  refine ⟨hapart,fun g rs ds hg => ?_,hcached,fun g data hdata => ?_⟩
  · exact h.entries g rs ds ((hview g (by rw [hg]; rfl)).2 ▸ hg)
  · have hsome : ((q.removeFromQueue guid).view g).isSome := by simp [LFGQueue.view,hdata]
    have hg := (hview g hsome).1
    simp only [LFGQueue.removeFromQueue,if_neg hg] at hdata
    obtain ⟨old,hold,heq⟩ := Option.map_eq_some_iff.mp hdata
    split_ifs at heq with hoccurs
    · rw [← heq]
      refine findBest_ok hcached (fun key rs hassigns hin => ?_) .cleared
      obtain ⟨guid',hlists,hdigits⟩ := hassigns.occurs.mp hin
      rwa [hapart g guid' hsome (hassigns.queued hlists) hdigits]
    · obtain rfl := heq
      intro hne
      have hbest := h.best g old hold hne
      obtain ⟨c,hc,hassigns,hcounts⟩ := hbest.cached
      refine ⟨hbest.lists,c,?_,hmembers _ _ hassigns hoccurs,hcounts⟩
      rw [find?_removeFromQueue,if_neg hoccurs,hc]

theorem searched_tidy (e : Env) (d : Stores) : Searched e d Tidy where
  record check s h := by
    unfold record
    cases hv : verdict e d s.queue check with
    | notQueued guid => exact h.removeFromQueue guid
    | incompatible c =>
      refine h.setCompatibles ?_
      rintro rfl
      simpa [LfgCompatibility.compatible] using verdict_incompatible hv
    | lessPlayers rs =>
      have hassigns := verdict_lessPlayers h.entries hv
      dsimp only
      rw [updateBests_setCompatibilityData]
      refine (h.setCompatibilityData hassigns).updateBests (hassigns.of_view fun _ _ => rfl) ?_
        fun g hg => lists_concatenateGuids.mpr hg
      exact OrderedMap.find?_insert.trans (if_pos rfl)
    | full m =>
      have hstore : (createProposal e check m s).queue.queueDataStore = s.queue.queueDataStore :=
        foldl_same (fun q : LFGQueue => q.queueDataStore)
          (f := fun q g => (q.removeFromNewQueue g).removeFromCurrentQueue g)
          (fun _ _ => rfl) check s.queue
      have hcache : (createProposal e check m s).queue.compatibleMapStore =
          s.queue.compatibleMapStore :=
        foldl_same (fun q : LFGQueue => q.compatibleMapStore)
          (f := fun q g => (q.removeFromNewQueue g).removeFromCurrentQueue g)
          (fun _ _ => rfl) check s.queue
      dsimp only
      split_ifs
      · exact h.setCompatibles (by decide)
      · exact (h.congr hstore hcache).setCompatibles (by decide)
  cache _ _ _ hc h := h.setCompatibles hc
  leaveNew _ _ h := h.congr rfl rfl
  enter _ _ h := h.congr rfl rfl

end Tidy

section Runs

/-- A guid joins whose digits are not in those of another queued guid, nor the other way, with roles
that a party of the queue can have. If it is queued already, no cached combination lists it. -/
def QueueOp.Ok (q : LFGQueue) : QueueOp → Prop
  | .addQueueData guid _ _ roles =>
    (∀ g, (q.queueDataStore g).isSome → g ≠ guid →
      ¬ guidString g <:+: guidString guid ∧ ¬ guidString guid <:+: guidString g) ∧
    (roles.size ≤ maxGroupSize ∧ (roles.size = maxGroupSize ∨ (checkGroupRoles roles).1 = true)) ∧
    ((q.queueDataStore guid).isSome → ∀ key ∈ q.compatibleMapStore.keys, ¬ Lists key guid)
  | _ => True

theorem isSome_view (q : LFGQueue) (g : Nat) : (q.view g).isSome = (q.queueDataStore g).isSome := by
  simp [LFGQueue.view]

theorem view_addQueueData (q : LFGQueue) (g guid joinTime : Nat) (dungeons : Finset Nat) :
    (q.addQueueData guid joinTime dungeons rs).view g =
      if g = guid then some (rs,dungeons) else q.view g := by
  have hstore : (q.addQueueData guid joinTime dungeons rs).queueDataStore =
      Function.update q.queueDataStore guid (some (LfgQueueData.joined joinTime dungeons rs)) := by
    simp only [LFGQueue.addQueueData,LFGQueue.addToQueue]
    split_ifs <;> rfl
  rw [LFGQueue.view,hstore]
  by_cases heq : g = guid
  · subst heq
    rw [Function.update_self,if_pos rfl]
    rfl
  · rw [Function.update_of_ne heq,if_neg heq]
    rfl

theorem Tidy.addQueueData {joinTime : Nat} {dungeons : Finset Nat} (h : Tidy q)
    (hok : QueueOp.Ok q (.addQueueData guid joinTime dungeons rs)) :
    Tidy (q.addQueueData guid joinTime dungeons rs) := by
  obtain ⟨hapart,hroles,hcache⟩ := hok
  have hstore : (q.addQueueData guid joinTime dungeons rs).queueDataStore =
      Function.update q.queueDataStore guid (some (LfgQueueData.joined joinTime dungeons rs)) := by
    simp only [LFGQueue.addQueueData,LFGQueue.addToQueue]
    split_ifs <;> rfl
  have hsame : (q.addQueueData guid joinTime dungeons rs).compatibleMapStore =
      q.compatibleMapStore := by
    simp only [LFGQueue.addQueueData,LFGQueue.addToQueue]
    split_ifs <;> rfl
  have hview : ∀ {g}, g ≠ guid → (q.addQueueData guid joinTime dungeons rs).view g = q.view g :=
    fun hg => (view_addQueueData q _ guid joinTime dungeons).trans (if_neg hg)
  -- no cached combination has the guid that joins
  have hmembers : ∀ key c, q.compatibleMapStore.find? key = some c → Assigns q key c.roles →
      ∀ g, Lists key g → (q.addQueueData guid joinTime dungeons rs).view g = q.view g := by
    intro key c hc hassigns g hlists
    refine hview ?_
    rintro rfl
    exact hcache (isSome_view q g ▸ hassigns.queued hlists) key (OrderedMap.mem_keys.mpr ⟨c,hc⟩)
      hlists
  refine ⟨fun g g' hg hg' hin => ?_,fun g rs' ds hg => ?_,fun key c hc hless => ?_,
    fun g data hdata => ?_⟩
  · by_contra hne
    by_cases heq : g = guid
    · subst heq
      rw [hview (Ne.symm hne),isSome_view] at hg'
      exact (hapart g' hg' (Ne.symm hne)).2 hin
    · by_cases heq' : g' = guid
      · subst heq'
        rw [hview heq,isSome_view] at hg
        exact (hapart g hg heq).1 hin
      · exact hne (h.apart g g' (hview heq ▸ hg) (hview heq' ▸ hg') hin)
  · rw [view_addQueueData] at hg
    split_ifs at hg with heq
    · cases hg
      exact hroles
    · exact h.entries g rs' ds hg
  · rw [hsame] at hc
    have hassigns := h.cached key c hc hless
    exact hassigns.of_view (hmembers key c hc hassigns)
  · rw [hstore] at hdata
    by_cases heq : g = guid
    · subst heq
      rw [Function.update_self] at hdata
      cases hdata
      exact fun hne => absurd rfl hne
    · rw [Function.update_of_ne heq] at hdata
      intro hne
      have hbest := h.best g data hdata hne
      obtain ⟨c,hc,hassigns,-⟩ := hbest.cached
      exact hbest.congr (hmembers _ c hc hassigns) fun c' hc' => ⟨c',by rw [hsame,hc'],rfl⟩

theorem view_updateQueueTimers (g : Nat) : q.updateQueueTimers.view g = q.view g := by
  simp only [LFGQueue.view,LFGQueue.updateQueueTimers]
  cases q.queueDataStore g with
  | none => rfl
  | some data =>
    simp only [Option.map_some]
    split_ifs
    · obtain ⟨hroles,hdungeons⟩ := findBestCompatible_view (q := q) g data
      rw [hroles,hdungeons]
    · rfl

theorem Tidy.updateQueueTimers (h : Tidy q) : Tidy q.updateQueueTimers := by
  have hassigns : ∀ key rs, Assigns q key rs → Assigns q.updateQueueTimers key rs :=
    fun key rs hkey => hkey.of_view fun g _ => view_updateQueueTimers g
  refine ⟨fun g g' => ?_,fun g rs ds => ?_,fun key c hc hless => ?_,fun g data hdata => ?_⟩
  · rw [view_updateQueueTimers,view_updateQueueTimers]
    exact h.apart g g'
  · rw [view_updateQueueTimers]
    exact h.entries g rs ds
  · exact hassigns key c.roles (h.cached key c hc hless)
  · obtain ⟨old,hold,rfl⟩ := Option.map_eq_some_iff.mp hdata
    have hsome : (q.view g).isSome := by simp [LFGQueue.view,hold]
    have hbest : BestOk q g
        (if old.bestCompatible.isEmpty then q.findBestCompatible g old else old) := by
      split_ifs
      · exact findBest_ok h.cached (fun key rs hkey => h.lists_of_infix hkey hsome)
          (h.best g old hold)
      · exact h.best g old hold
    exact fun hne => (hbest hne).congr (fun g _ => view_updateQueueTimers g) fun c hc => ⟨c,hc,rfl⟩

theorem Tidy.step (h : Tidy q) {op : QueueOp} (hok : op.Ok q) : Tidy (q.step op) := by
  cases op with
  | addQueueData guid joinTime dungeons roles => exact h.addQueueData hok
  | removeFromQueue guid => exact h.removeFromQueue guid
  | findGroups e d proposals rolls => exact (searched_tidy e d).findGroups _ h
  | updateQueueTimers => exact h.updateQueueTimers

theorem tidy_empty : Tidy .empty := by
  refine ⟨?_,?_,?_,?_⟩ <;> simp [LFGQueue.empty,LFGQueue.view]

structure BestKept (q : LFGQueue) (guid : Nat) (data : LfgQueueData) : Prop where
  lists : Lists data.bestCompatible guid
  queued : ∀ g, Lists data.bestCompatible g → (q.queueDataStore g).isSome
  counters : ∃ c, q.compatibleMapStore.find? data.bestCompatible = some c ∧ data.Counts c.roles

/-- The best combinations of all queued guids are right after every run in which only such guids
join. -/
theorem bestCompatible_run (ops : List QueueOp)
    (hops : Run.Guarded LFGQueue.step (fun q op => op.Ok q) .empty ops) (guid : Nat)
    (data : LfgQueueData)
    (hdata : (Run.exec LFGQueue.step .empty ops).queueDataStore guid = some data)
    (hbest : data.bestCompatible ≠ []) :
    BestKept (Run.exec LFGQueue.step .empty ops) guid data := by
  have htidy : Tidy (Run.exec LFGQueue.step .empty ops) :=
    hops.inv (fun _ _ h hok => h.step hok) tidy_empty
  have hof := htidy.best guid data hdata hbest
  obtain ⟨c,hc,hassigns,hcounts⟩ := hof.cached
  refine ⟨hof.lists,fun g hg => ?_,c,hc,hcounts⟩
  rw [← isSome_view]
  exact hassigns.queued hg

def pairOps : List QueueOp :=
  [.addQueueData 1 0 {7} (OrderedMap.empty.insert 1 Role.tank),
    .addQueueData 2 0 {7} (OrderedMap.empty.insert 2 Role.healer),
    .findGroups peace queuedStores .empty [],.updateQueueTimers]

theorem bestCompatible_run_pair : ∃ data,
    (Run.exec LFGQueue.step .empty pairOps).queueDataStore 1 = some data ∧
    data.bestCompatible = concatenateGuids [1,2] ∧
    BestKept (Run.exec LFGQueue.step .empty pairOps) 1 data := by
  have hbest : ((Run.exec LFGQueue.step .empty pairOps).queueDataStore 1).map (·.bestCompatible) =
      some (concatenateGuids [1,2]) := by decide +kernel
  obtain ⟨data,hdata,hkey⟩ := Option.map_eq_some_iff.mp hbest
  have htank : QueueOp.Ok .empty (.addQueueData 1 0 {7} (OrderedMap.empty.insert 1 Role.tank)) :=
    ⟨by simp [LFGQueue.empty],⟨by decide,.inr (by decide)⟩,by simp [LFGQueue.empty]⟩
  have hhealer : QueueOp.Ok (LFGQueue.empty.step
      (.addQueueData 1 0 {7} (OrderedMap.empty.insert 1 Role.tank)))
      (.addQueueData 2 0 {7} (OrderedMap.empty.insert 2 Role.healer)) := by
    refine ⟨fun g hg _ => ?_,⟨by decide,.inr (by decide)⟩,fun h => ?_⟩
    · obtain rfl : g = 1 := by
        by_contra hne
        simp [LFGQueue.step,LFGQueue.addQueueData,LFGQueue.addToQueue,LFGQueue.addToNewQueue,
          LFGQueue.empty,hne] at hg
      decide
    · simp [LFGQueue.step,LFGQueue.addQueueData,LFGQueue.addToQueue,LFGQueue.addToNewQueue,
        LFGQueue.empty] at h
  have hops : Run.Guarded LFGQueue.step (fun q op => op.Ok q) .empty pairOps :=
    ⟨htank,hhealer,trivial,trivial,trivial⟩
  exact ⟨data,hdata,hkey,bestCompatible_run pairOps hops 1 data hdata (by rw [hkey]; decide)⟩

/-- Guid 1 is told that its best combination is that of guid 12. -/
theorem stranger_listed : ¬ ∀ ops guid data,
    (Run.exec LFGQueue.step .empty ops).queueDataStore guid = some data → data.bestCompatible ≠ [] →
    BestKept (Run.exec LFGQueue.step .empty ops) guid data := by
  intro h
  have hbest : ((Run.exec LFGQueue.step .empty (soloOps 12 ++ [.addQueueData 1 0 {7}
      (OrderedMap.empty.insert 1 Role.damage),.updateQueueTimers])).queueDataStore 1).map
      (·.bestCompatible) = some (guidString 12) := by decide +kernel
  obtain ⟨data,hdata,hkey⟩ := Option.map_eq_some_iff.mp hbest
  have hlists := (h _ 1 data hdata (hkey ▸ guidString_ne_nil 12)).lists
  rw [hkey] at hlists
  revert hlists
  decide

end Runs

end TrinityCore.Lfg
