import TrinityCore.DungeonFinding.Announcement
import TrinityCore.DungeonFinding.CompatibleCache

set_option autoImplicit false

namespace TrinityCore.Lfg

variable {q q' : LFGQueue} {guid : Nat} {data : LfgQueueData} {w : World} {r : JoinRequest}
  {m m' : LFGMgr}

section Removal

structure SameQueue (q q' : LFGQueue) : Prop where
  queueDataStore : q'.queueDataStore = q.queueDataStore
  newToQueueStore : q'.newToQueueStore = q.newToQueueStore
  currentQueueStore : q'.currentQueueStore = q.currentQueueStore

/-- The guid has queue data or is in a list, or its digits are in the best combination of somebody. -/
def LFGQueue.Knows (q : LFGQueue) (guid : Nat) : Prop :=
  (q.queueDataStore guid).isSome ∨ guid ∈ q.newToQueueStore ∨ guid ∈ q.currentQueueStore ∨
    ∃ g data, q.queueDataStore g = some data ∧ guidString guid <:+: data.bestCompatible

/-- A best combination that is looked for is one of the cache, unless it stays. -/
theorem findBest_mem_keys (guid : Nat) (data : LfgQueueData) :
    (q.findBestCompatible guid data).bestCompatible = data.bestCompatible ∨
    (q.findBestCompatible guid data).bestCompatible ∈ q.compatibleMapStore.keys := by
  unfold LFGQueue.findBestCompatible
  have hmem : ∀ e ∈ q.compatibleMapStore.entries, e.1 ∈ q.compatibleMapStore.keys :=
    fun e he => List.mem_map_of_mem he
  generalize q.compatibleMapStore.entries = es at hmem
  induction es generalizing data with
  | nil => exact .inl rfl
  | cons entry es ih =>
    have hrest := fun data => ih data fun e he => hmem e (List.mem_cons_of_mem entry he)
    rw [List.foldl_cons]
    split_ifs
    · rcases hrest (data.updateBestCompatible entry.1 entry.2.roles) with heq | hkey
      · rcases updateBestCompatible_best data entry.1 entry.2.roles with hbest | hbest
        · exact .inl (heq.trans hbest)
        · rw [heq,hbest]
          exact .inr (hmem entry List.mem_cons_self)
      · exact .inr hkey
    · exact hrest data

/-- What is found after a removal has not the digits of the guid that was removed. -/
theorem not_infix_findBest (q : LFGQueue) (guid g : Nat) (data : LfgQueueData) :
    ¬ guidString guid <:+:
      ((q.removeFromCompatibles guid).findBestCompatible g
        { data with bestCompatible := [] }).bestCompatible := by
  intro hoccurs
  rcases findBest_mem_keys (q := q.removeFromCompatibles guid) g
    { data with bestCompatible := [] } with heq | hkey
  · rw [heq] at hoccurs
    exact guidString_ne_nil guid (List.infix_nil.mp hoccurs)
  · obtain ⟨c,hc⟩ := OrderedMap.mem_keys.mp hkey
    rw [find?_removeFromCompatibles,if_pos hoccurs] at hc
    cases hc

theorem removeFromQueue_same_iff (q : LFGQueue) (guid : Nat) :
    SameQueue q (q.removeFromQueue guid) ↔ ¬ q.Knows guid := by
  constructor
  · rintro ⟨hstore,hnew,hcurrent⟩ (hdata | hmem | hmem | ⟨g,data,hdata,hoccurs⟩)
    · rw [← hstore] at hdata
      simp [LFGQueue.removeFromQueue] at hdata
    · exact absurd (List.filter_eq_self.mp hnew guid hmem) (by simp)
    · exact absurd (List.filter_eq_self.mp hcurrent guid hmem) (by simp)
    · have hsame := congrFun hstore g
      rw [hdata] at hsame
      by_cases hg : g = guid
      · simp [LFGQueue.removeFromQueue,hg] at hsame
      · simp only [LFGQueue.removeFromQueue,if_neg hg] at hsame
        change (q.queueDataStore g).map _ = _ at hsame
        rw [hdata,Option.map_some,if_pos hoccurs] at hsame
        have hfound := not_infix_findBest
          ((q.removeFromNewQueue guid).removeFromCurrentQueue guid) guid g data
        rw [Option.some.inj hsame] at hfound
        exact hfound hoccurs
  · intro hnot
    simp only [LFGQueue.Knows,not_or,not_exists,not_and] at hnot
    obtain ⟨hdata,hnew,hcurrent,hbest⟩ := hnot
    refine ⟨funext fun g => ?_,List.filter_eq_self.mpr fun x hx => ?_,
      List.filter_eq_self.mpr fun x hx => ?_⟩
    · simp only [LFGQueue.removeFromQueue]
      split_ifs with hg
      · rw [hg]
        exact (Option.not_isSome_iff_eq_none.mp hdata).symm
      · change (q.queueDataStore g).map _ = _
        cases hstore : q.queueDataStore g with
        | none => rfl
        | some data => rw [Option.map_some,if_neg (hbest g data hstore)]
    · simpa using fun heq : x = guid => hnew (heq ▸ hx)
    · simpa using fun heq : x = guid => hcurrent (heq ▸ hx)

end Removal

section Join

/-- Nothing that is kept about players, groups and queues has changed. -/
structure LeftAlone (m m' : LFGMgr) : Prop where
  stores : m'.stores = m.stores
  queues : ∀ i, SameQueue (m.queuesStore i) (m'.queuesStore i)
  proposals : m'.proposals = m.proposals
  roleChecks : m'.roleChecksStore = m.roleChecksStore

theorem SameQueue.refl (q : LFGQueue) : SameQueue q q := ⟨rfl,rfl,rfl⟩

theorem joinLfg_rejected (h : (joinLfg w r m).1 ≠ .ok) : (joinLfg w r m).2 =
    if m.stores.getState r.gguid = .queued then m.removeFromQueue r.gguid else m := by
  unfold joinLfg at h ⊢
  dsimp only at h ⊢
  generalize (if m.stores.getState r.gguid = .queued then m.removeFromQueue r.gguid else m) = left
    at h ⊢
  split_ifs at h ⊢
  any_goals rfl
  any_goals exact absurd rfl h
  -- a request that has passed all checks is not rejected
  all_goals
    cases hgroup : r.group with
    | none => rw [hgroup] at h; exact absurd rfl h
    | some grp => rw [hgroup] at h; exact absurd rfl h

/-- A rejected request leaves everything as it was if and only if the player or group was not
queued, or the queue knows nothing of it. -/
theorem joinLfg_rejected_iff (h : (joinLfg w r m).1 ≠ .ok) :
    LeftAlone m (joinLfg w r m).2 ↔ ¬ (m.stores.getState r.gguid = .queued ∧
      (m.queuesStore (m.stores.queueId r.gguid)).Knows r.gguid) := by
  rw [joinLfg_rejected h]
  by_cases hqueued : m.stores.getState r.gguid = .queued
  · rw [if_pos hqueued]
    simp only [hqueued,true_and]
    rw [← removeFromQueue_same_iff]
    constructor
    · intro hsame
      have hqueue := hsame.queues (m.stores.queueId r.gguid)
      simpa [LFGMgr.removeFromQueue,LFGMgr.onQueue] using hqueue
    · intro hsame
      refine ⟨rfl,fun i => ?_,rfl,rfl⟩
      simp only [LFGMgr.removeFromQueue,LFGMgr.onQueue]
      by_cases hi : i = m.stores.queueId r.gguid
      · subst hi
        rwa [Function.update_self]
      · rw [Function.update_of_ne hi]
        exact .refl _
  · rw [if_neg hqueued]
    exact iff_of_true ⟨rfl,fun _ => .refl _,rfl,rfl⟩ fun hand => hqueued hand.1

def deserterRequest (guid : Nat) : JoinRequest := { soloRequest guid with
  player := ⟨guid,true,false,true,false⟩ }

theorem joinLfg_rejected_first : (joinLfg openWorld (deserterRequest 1) realm).1 = .deserter ∧
    LeftAlone realm (joinLfg openWorld (deserterRequest 1) realm).2 := by
  have hresult : (joinLfg openWorld (deserterRequest 1) realm).1 = .deserter := by decide +kernel
  refine ⟨hresult,(joinLfg_rejected_iff (by rw [hresult]; decide)).mpr fun hand => ?_⟩
  exact absurd hand.1 (by decide)

/-- A player who is queued asks again as a deserter: he is rejected, stays in state queued, and his
queue data are gone. -/
theorem rejected_loses_place : ¬ ∀ (w : World) (r : JoinRequest) (m : LFGMgr),
    (joinLfg w r m).1 ≠ .ok → LeftAlone m (joinLfg w r m).2 := by
  intro h
  have hresult : (joinLfg openWorld (deserterRequest 1) (joinAll [1] realm)).1 = .deserter := by
    decide +kernel
  have hsame := h openWorld (deserterRequest 1) (joinAll [1] realm) (by rw [hresult]; decide)
  have hlist := (hsame.queues 213).newToQueueStore
  revert hlist
  decide +kernel

end Join

end TrinityCore.Lfg
