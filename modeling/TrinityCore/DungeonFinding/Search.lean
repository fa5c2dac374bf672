import TrinityCore.DungeonFinding.Queue

set_option autoImplicit false

namespace TrinityCore.Lfg

variable {e : Env} {d : Stores} {s s' s'' : Search} {q q' : LFGQueue} {check : List Nat}

def LFGQueue.view (q : LFGQueue) (guid : Nat) : Option (LfgRolesMap × Finset Nat) :=
  (q.queueDataStore guid).map fun data => (data.roles,data.dungeons)

theorem roles_eq (guid : Nat) : roles q guid = ((q.view guid).map Prod.fst).getD .empty := by
  simp only [roles,LFGQueue.view]
  cases q.queueDataStore guid <;> rfl

theorem dungeons_eq (guid : Nat) : dungeons q guid = ((q.view guid).map Prod.snd).getD ∅ := by
  simp only [dungeons,LFGQueue.view]
  cases q.queueDataStore guid <;> rfl

section Congr

variable (h : ∀ guid, q'.view guid = q.view guid)
include h

theorem roles_congr (guid : Nat) : roles q' guid = roles q guid := by
  rw [roles_eq,roles_eq,h]

theorem dungeons_congr (guid : Nat) : dungeons q' guid = dungeons q guid := by
  rw [dungeons_eq,dungeons_eq,h]

theorem countPlayers_congr (check : List Nat) (c : Count) :
    countPlayers d q' check c = countPlayers d q check c := by
  induction check generalizing c with
  | nil => rfl
  | cons guid check ih =>
    have hg := h guid
    simp only [LFGQueue.view] at hg
    simp only [countPlayers]
    cases h1 : q'.queueDataStore guid with
    | none =>
      cases h2 : q.queueDataStore guid with
      | none => rfl
      | some data => simp [h1,h2] at hg
    | some data' =>
      cases h2 : q.queueDataStore guid with
      | none => simp [h1,h2] at hg
      | some data =>
        simp only [h1,h2,Option.map_some,Option.some.injEq,Prod.mk.injEq] at hg
        simp only [hg.1,ih]

theorem verdict_congr (check : List Nat) : verdict e d q' check = verdict e d q check := by
  have hr : roles q' = roles q := funext (roles_congr h)
  have hd : dungeons q' = dungeons q := funext (dungeons_congr h)
  have hj : joinRoles e q' check = joinRoles e q check := by unfold joinRoles; rw [hr]
  have hk : joinDungeons q' check = joinDungeons q check := by
    cases check with
    | nil => rfl
    | cons guid check => simp only [joinDungeons,hd]
  unfold verdict verdictSeveral
  simp only [countPlayers_congr h,hr,hd,hj,hk]

end Congr

/-- A step that creates no proposal: at most guids without an entry leave the lists. -/
structure Quiet (s s' : Search) : Prop where
  proposals : s'.proposals = s.proposals
  view : ∀ guid, s'.queue.view guid = s.queue.view guid
  lists : ∃ p : Nat → Bool, (∀ guid, (s.queue.view guid).isSome → p guid = true) ∧
    s'.queue.newToQueueStore = s.queue.newToQueueStore.filter p ∧
    s'.queue.currentQueueStore = s.queue.currentQueueStore.filter p

theorem Quiet.trans (h : Quiet s s') (h' : Quiet s' s'') : Quiet s s'' := by
  obtain ⟨p,hp,h1,h2⟩ := h.lists
  obtain ⟨p',hp',h3,h4⟩ := h'.lists
  refine ⟨h'.proposals.trans h.proposals,fun guid => (h'.view guid).trans (h.view guid),
    fun guid => p' guid && p guid,fun guid hg => ?_,?_,?_⟩
  · simp only [hp guid hg,hp' guid (by rw [h.view]; exact hg),Bool.and_self]
  · rw [h3,h1,List.filter_filter]
  · rw [h4,h2,List.filter_filter]

theorem quiet_of_cache (hp : s'.proposals = s.proposals)
    (hv : ∀ guid, s'.queue.view guid = s.queue.view guid)
    (hn : s'.queue.newToQueueStore = s.queue.newToQueueStore)
    (hc : s'.queue.currentQueueStore = s.queue.currentQueueStore) : Quiet s s' :=
  ⟨hp,hv,fun _ => true,fun _ _ => rfl,by rw [hn,List.filter_true],by rw [hc,List.filter_true]⟩

theorem Quiet.refl (s : Search) : Quiet s s := quiet_of_cache rfl (fun _ => rfl) rfl rfl

section View

theorem need_view (data : LfgQueueData) (role : Role) :
    (data.need role).roles = data.roles ∧ (data.need role).dungeons = data.dungeons := by
  unfold LfgQueueData.need
  split_ifs <;> exact ⟨rfl,rfl⟩

theorem needs_view (rs : List Role) (data : LfgQueueData) :
    (rs.foldl LfgQueueData.need data).roles = data.roles ∧
    (rs.foldl LfgQueueData.need data).dungeons = data.dungeons := by
  induction rs generalizing data with
  | nil => exact ⟨rfl,rfl⟩
  | cons r rs ih =>
    obtain ⟨h1,h2⟩ := ih (data.need r)
    obtain ⟨h3,h4⟩ := need_view data r
    exact ⟨h1.trans h3,h2.trans h4⟩

theorem needs_best (rs : List Role) (data : LfgQueueData) :
    (rs.foldl LfgQueueData.need data).bestCompatible = data.bestCompatible := by
  induction rs generalizing data with
  | nil => rfl
  | cons r rs ih =>
    rw [List.foldl_cons,ih]
    unfold LfgQueueData.need
    split_ifs <;> rfl

theorem updateBestCompatible_best (data : LfgQueueData) (key : Key) (rs : LfgRolesMap) :
    (data.updateBestCompatible key rs).bestCompatible = data.bestCompatible ∨
    (data.updateBestCompatible key rs).bestCompatible = key := by
  unfold LfgQueueData.updateBestCompatible
  by_cases h : keySize key ≤ (if data.bestCompatible.isEmpty then 0 else keySize data.bestCompatible)
  · rw [if_pos h]
    exact .inl rfl
  · rw [if_neg h]
    exact .inr (needs_best _ _)

theorem updateBestCompatible_view (data : LfgQueueData) (key : Key) (rs : LfgRolesMap) :
    (data.updateBestCompatible key rs).roles = data.roles ∧
    (data.updateBestCompatible key rs).dungeons = data.dungeons := by
  unfold LfgQueueData.updateBestCompatible
  by_cases h : keySize key ≤ (if data.bestCompatible.isEmpty then 0 else keySize data.bestCompatible)
  · rw [if_pos h]
    exact ⟨rfl,rfl⟩
  · rw [if_neg h]
    exact needs_view _ _

theorem findBestCompatible_view (guid : Nat) (data : LfgQueueData) :
    (q.findBestCompatible guid data).roles = data.roles ∧
    (q.findBestCompatible guid data).dungeons = data.dungeons := by
  unfold LFGQueue.findBestCompatible
  induction q.compatibleMapStore.entries generalizing data with
  | nil => exact ⟨rfl,rfl⟩
  | cons entry es ih =>
    simp only [List.foldl_cons]
    split_ifs
    · obtain ⟨h1,h2⟩ := ih (data.updateBestCompatible entry.1 entry.2.roles)
      obtain ⟨h3,h4⟩ := updateBestCompatible_view data entry.1 entry.2.roles
      exact ⟨h1.trans h3,h2.trans h4⟩
    · exact ih data

@[simp] theorem view_updateBest (guid g : Nat) (key : Key) (rs : LfgRolesMap) :
    (q.updateBestCompatibleInQueue guid key rs).view g = q.view g := by
  simp only [LFGQueue.view,LFGQueue.updateBestCompatibleInQueue]
  by_cases hg : g = guid
  · subst hg
    cases q.queueDataStore g with
    | none => simp
    | some data =>
      obtain ⟨h1,h2⟩ := updateBestCompatible_view data key rs
      simp [h1,h2]
  · simp [hg]

@[simp] theorem view_removeFromQueue (guid g : Nat) :
    (q.removeFromQueue guid).view g = if g = guid then none else q.view g := by
  simp only [LFGQueue.view,LFGQueue.removeFromQueue]
  split_ifs with hg
  · rfl
  · change ((q.queueDataStore g).map _).map _ = _
    cases q.queueDataStore g with
    | none => rfl
    | some data =>
      simp only [Option.map_some]
      split_ifs
      · obtain ⟨h1,h2⟩ := findBestCompatible_view (q := ((q.removeFromNewQueue
          guid).removeFromCurrentQueue guid).removeFromCompatibles guid) g
          { data with bestCompatible := [] }
        simp [h1,h2]
      · rfl

theorem updateBests_quiet (check : List Nat) (key : Key) (rs : LfgRolesMap) :
    Quiet s { s with
      queue := check.foldl (fun q g => q.updateBestCompatibleInQueue g key rs) s.queue } := by
  induction check generalizing s with
  | nil => exact .refl s
  | cons guid check ih =>
    have h1 : Quiet s { s with queue := s.queue.updateBestCompatibleInQueue guid key rs } :=
      quiet_of_cache rfl (fun g => view_updateBest guid g key rs) rfl rfl
    exact h1.trans (ih (s := { s with queue := s.queue.updateBestCompatibleInQueue guid key rs }))

theorem removeFromQueue_quiet {guid : Nat} (h : s.queue.view guid = none) :
    Quiet s { s with queue := s.queue.removeFromQueue guid } := by
  refine ⟨rfl,fun g => ?_,fun g => decide (g ≠ guid),fun g hg => ?_,rfl,rfl⟩
  · rw [view_removeFromQueue]
    split_ifs with hg
    · rw [hg,h]
    · rfl
  · rw [decide_eq_true_eq]
    rintro rfl
    simp [h] at hg

end View

def matched (e : Env) (check : List Nat) (m : Match) (s : Search) : Search :=
  let s := createProposal e check m s
  { s with queue := s.queue.setCompatibles (concatenateGuids check) .match }

theorem countPlayers_missing {check : List Nat} {c : Count} {guid : Nat}
    (h : countPlayers d q check c = .error guid) : guid ∈ check ∧ q.view guid = none := by
  induction check generalizing c with
  | nil => simp [countPlayers] at h
  | cons g check ih =>
    simp only [countPlayers] at h
    split_ifs at h with hc
    cases hg : q.queueDataStore g with
    | none =>
      simp only [hg,Except.error.injEq] at h
      simp [LFGQueue.view,← h,hg]
    | some data =>
      simp only [hg] at h
      exact (ih h).imp_left (List.mem_cons_of_mem g)

theorem verdict_missing {guid : Nat} (h : verdict e d q check = .notQueued guid) :
    guid ∈ check ∧ q.view guid = none := by
  unfold verdict at h
  cases hc : countPlayers d q check ⟨0,0,fun _ => 0,0⟩ with
  | error g =>
    simp only [hc,Verdict.notQueued.injEq] at h
    exact countPlayers_missing (h ▸ hc)
  | ok c =>
    simp only [hc] at h
    split_ifs at h
    unfold verdictSeveral at h
    simp only at h
    split_ifs at h

theorem verdict_incompatible {c : LfgCompatibility}
    (h : verdict e d q check = .incompatible c) : c.compatible = false := by
  unfold verdict at h
  cases hc : countPlayers d q check ⟨0,0,fun _ => 0,0⟩ with
  | error g => simp [hc] at h
  | ok n =>
    simp only [hc,verdictSeveral] at h
    split_ifs at h
    all_goals cases h
    all_goals rfl

/-- Either a proposal for the list is created and the answer is a match, or nothing is
created and it is not. -/
theorem record_cases (check : List Nat) (s : Search) :
    (∃ m, verdict e d s.queue check = .full m ∧ d.allQueued check = true ∧
      record e d check s = (.match,matched e check m s)) ∨
    ((∀ m, verdict e d s.queue check = .full m → d.allQueued check = false) ∧
      (record e d check s).1 ≠ .match ∧ Quiet s (record e d check s).2) := by
  unfold record
  cases hv : verdict e d s.queue check with
  | notQueued guid => exact .inr ⟨nofun,nofun,removeFromQueue_quiet (verdict_missing hv).2⟩
  | incompatible c =>
    have hc := verdict_incompatible hv
    refine .inr ⟨nofun,?_,quiet_of_cache rfl (fun _ => rfl) rfl rfl⟩
    rintro rfl
    simp [LfgCompatibility.compatible] at hc
  | lessPlayers rs =>
    exact .inr ⟨nofun,nofun,(updateBests_quiet check _ rs).trans
      (quiet_of_cache rfl (fun _ => rfl) rfl rfl)⟩
  | full m =>
    cases hq : d.allQueued check with
    | true => exact .inl ⟨m,rfl,rfl,by simp [matched]⟩
    | false =>
      refine .inr ⟨fun _ _ => rfl,?_,?_⟩
      · simp
      · simp only [Bool.not_false,if_true]
        exact quiet_of_cache rfl (fun _ => rfl) rfl rfl

/-- A relation that holds across quiet steps and matches, and composes, holds across a check.
The lists that match are ends of the list that is checked. -/
theorem checkCompatibility_rel (R : Search → Search → Prop)
    (htrans : ∀ {s s' s''}, R s s' → R s' s'' → R s s'')
    (hquiet : ∀ {s s'}, Quiet s s' → R s s')
    (check : List Nat) (s : Search)
    (hmatch : ∀ {s t m}, t <:+ check → verdict e d s.queue t = .full m →
      d.allQueued t = true → R s (matched e t m s)) :
    R s (checkCompatibility e d check s).2 := by
  induction check generalizing s with
  | nil => exact hquiet (.refl s)
  | cons front check ih =>
    have hrecord : ∀ s, R s (record e d (front :: check) s).2 := by
      intro s
      rcases record_cases (e := e) (d := d) (front :: check) s with
        ⟨m,hv,hq,heq⟩ | ⟨-,-,hq⟩
      · rw [heq]
        exact hmatch (List.suffix_refl _) hv hq
      · exact hquiet hq
    have hchild := ih s fun ht => hmatch (ht.trans (List.suffix_cons front check))
    simp only [checkCompatibility]
    split_ifs with h1 h2 h3
    · exact hquiet (.refl s)
    · exact htrans hchild (hquiet (quiet_of_cache rfl (fun _ => rfl) rfl rfl))
    · exact htrans hchild (hrecord _)
    · exact hrecord s

/-- No roster and no dungeon of an entry changes, and proposals come in only. -/
structure Keeps (s s' : Search) : Prop where
  view : ∀ guid, s'.queue.view guid = s.queue.view guid
  created : s.proposals.created <+: s'.proposals.created

theorem Keeps.trans (h : Keeps s s') (h' : Keeps s' s'') : Keeps s s'' :=
  ⟨fun guid => (h'.view guid).trans (h.view guid),h.created.trans h'.created⟩

theorem Quiet.keeps (h : Quiet s s') : Keeps s s' :=
  ⟨h.view,by rw [h.proposals]⟩

theorem Keeps.newSince_trans (h : Keeps s s') (h' : Keeps s' s'') :
    Proposals.newSince s.proposals s''.proposals =
      Proposals.newSince s.proposals s'.proposals ++ Proposals.newSince s'.proposals s''.proposals := by
  obtain ⟨new,hnew⟩ := h.created
  obtain ⟨new',hnew'⟩ := h'.created
  rw [Proposals.newSince_of_eq hnew.symm,Proposals.newSince_of_eq hnew'.symm]
  refine Proposals.newSince_of_eq ?_
  rw [← hnew',← hnew,List.append_assoc]

theorem Quiet.newSince (h : Quiet s s') : Proposals.newSince s.proposals s'.proposals = [] := by
  rw [h.proposals,Proposals.newSince_self]

@[simp] theorem find?_addProposal (ps : Proposals) (p : LfgProposal) (h : p.state = .initiating)
    (id : Nat) : (ps.addProposal p h).store.find? id =
      if id = ps.nextId then some { p with id := ps.nextId } else ps.store.find? id :=
  OrderedMap.find?_insert

theorem leaveLists_view (check : List Nat) (q : LFGQueue) (guid : Nat) :
    (check.foldl (fun q g => (q.removeFromNewQueue g).removeFromCurrentQueue g) q).view guid =
      q.view guid := by
  induction check generalizing q with
  | nil => rfl
  | cons g check ih => exact (ih _).trans rfl

theorem matched_keeps (check : List Nat) (m : Match) (s : Search) : Keeps s (matched e check m s) :=
  ⟨fun guid => leaveLists_view check s.queue guid,List.prefix_append _ _⟩

theorem matched_newSince (check : List Nat) (m : Match) (s : Search) :
    Proposals.newSince s.proposals (matched e check m s).proposals =
      [{ newProposal e check m s with id := s.proposals.nextId }] :=
  Proposals.newSince_of_eq rfl

theorem checkCompatibility_keeps (check : List Nat) (s : Search) :
    Keeps s (checkCompatibility e d check s).2 :=
  checkCompatibility_rel Keeps Keeps.trans Quiet.keeps check s fun _ _ _ => matched_keeps _ _ _

structure Closed (e : Env) (d : Stores) (R : Search → Search → Prop) : Prop where
  trans : ∀ {s s' s''}, R s s' → R s' s'' → R s s''
  quiet : ∀ {s s'}, Quiet s s' → R s s'
  matched : ∀ {s t m}, verdict e d s.queue t = .full m → d.allQueued t = true →
    R s (matched e t m s)

section Rel

variable {R : Search → Search → Prop} (hR : Closed e d R)
include hR

theorem consult_rel (check : List Nat) (s : Search) : R s (consult e d check s).2 := by
  have hcheck : R s (checkCompatibility e d check s).2 :=
    checkCompatibility_rel R hR.trans hR.quiet check s fun _ hv hq => hR.matched hv hq
  have hcache : ∀ s' : Search,
      R s' { s' with queue := s'.queue.setCompatibles (concatenateGuids check) .match } :=
    fun s' => hR.quiet (quiet_of_cache rfl (fun _ => rfl) rfl rfl)
  simp only [consult]
  split_ifs
  · exact hR.trans hcheck (hcache _)
  · exact hcheck
  · exact hcache s
  · exact hR.quiet (.refl s)

theorem matchQueued_rel (n : Nat) (check all : List Nat) (s : Search) :
    R s (matchQueued e d n check all s).2.2 := by
  induction n generalizing check all s with
  | zero => exact hR.quiet (.refl s)
  | succ n ih =>
    cases all with
    | nil => exact hR.quiet (.refl s)
    | cons g all =>
      have hc := consult_rel hR (check ++ [g]) s
      simp only [matchQueued]
      generalize consult e d (check ++ [g]) s = r at hc ⊢
      obtain ⟨c,s'⟩ := r
      cases c with
      | withLessPlayers =>
        have hsub := hR.trans hc (ih (check ++ [g]) all s')
        simp only
        split_ifs
        · exact hsub
        · exact hR.trans hsub (ih _ _ _)
      | «match» => exact hc
      | _ => exact hR.trans hc (ih _ _ _)

theorem findNewGroups_rel (check all : List Nat) (s : Search) :
    R s (findNewGroups e d check all s).2 := by
  have hc := consult_rel hR check s
  simp only [findNewGroups]
  generalize consult e d check s = r at hc ⊢
  obtain ⟨c,s'⟩ := r
  cases c with
  | withLessPlayers => exact hR.trans hc (matchQueued_rel hR _ _ _ _)
  | _ => exact hc

theorem findGroupsFuel_rel (hlists : ∀ {s : Search} {q : LFGQueue},
      (∀ guid, q.view guid = s.queue.view guid) → R s { s with queue := q }) (n : Nat) (s : Search) :
    R s (findGroupsFuel e d n s) := by
  induction n generalizing s with
  | zero => exact hR.quiet (.refl s)
  | succ n ih =>
    simp only [findGroupsFuel]
    cases s.queue.newToQueueStore with
    | nil => exact hR.quiet (.refl s)
    | cons front rest =>
      refine hR.trans ?_ (ih _)
      have h1 : R s { s with queue := s.queue.removeFromNewQueue front } := hlists fun _ => rfl
      simp only [findGroup]
      have h2 := hR.trans h1 (findNewGroups_rel hR [front]
        (s.queue.removeFromNewQueue front).currentQueueStore _)
      split_ifs
      · exact h2
      · exact hR.trans h2 (hlists fun _ => rfl)

end Rel

theorem closed_keeps : Closed e d Keeps :=
  ⟨Keeps.trans,Quiet.keeps,fun _ _ => matched_keeps _ _ _⟩

theorem findGroupsFuel_keeps (n : Nat) (s : Search) : Keeps s (findGroupsFuel e d n s) :=
  findGroupsFuel_rel closed_keeps (fun h => ⟨h,List.prefix_rfl⟩) n s

end TrinityCore.Lfg
