import TrinityCore.DungeonFinding.Completeness
import TrinityCore.Lib.Joined
import TrinityCore.Lib.Run

set_option autoImplicit false

namespace TrinityCore.Lfg

variable {e : Env} {d : Stores} {q : LFGQueue} {key : Key} {guid : Nat} {check : List Nat}

def Lists (key : Key) (guid : Nat) : Prop := guidString guid ∈ key.splitOn '|'

instance (key : Key) (guid : Nat) : Decidable (Lists key guid) :=
  inferInstanceAs (Decidable (_ ∈ _))

theorem guidString_ne_nil (guid : Nat) : guidString guid ≠ [] := Nat.toDigits_ne_nil

@[simp] theorem lists_concatenateGuids : Lists (concatenateGuids check) guid ↔ guid ∈ check := by
  unfold Lists
  by_cases hnil : check = []
  · subst hnil
    have hkey : concatenateGuids [] = [] := rfl
    simp [hkey,guidString_ne_nil]
  · rw [splitOn_concatenateGuids hnil,List.mem_map_of_injective guidString_injective]
    simp

theorem infix_concatenateGuids : guidString guid <:+: concatenateGuids check ↔
    ∃ guid' ∈ check, guidString guid <:+: guidString guid' := by
  unfold concatenateGuids
  rw [Joined.infix_intercalate (bar_notMem guid) (guidString_ne_nil guid)]
  simp

namespace LFGQueue

def Keyed (q : LFGQueue) : Prop :=
  ∀ key ∈ q.compatibleMapStore.keys, ∃ check, key = concatenateGuids check

end LFGQueue

section Steps

/-- What the world does with a queue. A search gets the time and the ignores, the states of the
players, the proposals there are, and random numbers. -/
inductive QueueOp where
  | addQueueData (guid joinTime : Nat) (dungeons : Finset Nat) (roles : LfgRolesMap)
  | removeFromQueue (guid : Nat)
  | findGroups (e : Env) (d : Stores) (proposals : Proposals) (rolls : List Nat)
  | updateQueueTimers

namespace LFGQueue

def step (q : LFGQueue) : QueueOp → LFGQueue
  | .addQueueData guid joinTime dungeons roles => q.addQueueData guid joinTime dungeons roles
  | .removeFromQueue guid => q.removeFromQueue guid
  | .findGroups e d proposals rolls => (findGroups e d ⟨q,proposals,rolls⟩).queue
  | .updateQueueTimers => q.updateQueueTimers

end LFGQueue

/-- A property of queues that nothing in a search takes away. A check caches under the key of its
list, and never that there are too few players without the roles. -/
structure Searched (e : Env) (d : Stores) (P : LFGQueue → Prop) : Prop where
  record : ∀ check s, P s.queue → P (record e d check s).2.queue
  cache : ∀ q check c, c ≠ .withLessPlayers → P q → P (q.setCompatibles (concatenateGuids check) c)
  leaveNew : ∀ q guid, P q → P (q.removeFromNewQueue guid)
  enter : ∀ q guid, P q → P (q.addToCurrentQueue guid)

namespace Searched

variable {P : LFGQueue → Prop} (h : Searched e d P)
include h

theorem checkCompatibility (check : List Nat) (s : Search) (hs : P s.queue) :
    P (checkCompatibility e d check s).2.queue := by
  induction check generalizing s with
  | nil => exact hs
  | cons front check ih =>
    simp only [Lfg.checkCompatibility]
    split_ifs with hlong hseveral hchild
    · exact hs
    · refine h.cache _ _ _ ?_ (ih s hs)
      intro heq
      rw [heq] at hchild
      simp [LfgCompatibility.compatible] at hchild
    · exact h.record _ _ (ih s hs)
    · exact h.record _ _ hs

theorem consult (check : List Nat) (s : Search) (hs : P s.queue) :
    P (consult e d check s).2.queue := by
  have hcheck := h.checkCompatibility check s hs
  simp only [Lfg.consult]
  split_ifs
  · exact h.cache _ _ _ (by decide) hcheck
  · exact hcheck
  · exact h.cache _ _ _ (by decide) hs
  · exact hs

theorem matchQueued (n : Nat) (check all : List Nat) (s : Search) (hs : P s.queue) :
    P (matchQueued e d n check all s).2.2.queue := by
  induction n generalizing check all s with
  | zero => exact hs
  | succ n ih =>
    cases all with
    | nil => exact hs
    | cons guid all =>
      have hc := h.consult (check ++ [guid]) s hs
      simp only [Lfg.matchQueued]
      generalize Lfg.consult e d (check ++ [guid]) s = r at hc ⊢
      obtain ⟨c,s'⟩ := r
      cases c with
      | withLessPlayers =>
        have hsub := ih (check ++ [guid]) all s' hc
        dsimp only
        split_ifs
        · exact hsub
        · exact ih _ _ _ hsub
      | «match» => exact hc
      | _ => exact ih _ _ _ hc

theorem findGroup (front : Nat) (s : Search) (hs : P s.queue) :
    P (findGroup e d front s).queue := by
  have hleft := h.leaveNew s.queue front hs
  have hc := h.consult [front] { s with queue := s.queue.removeFromNewQueue front } hleft
  have hfound : P (findNewGroups e d [front] s.queue.currentQueueStore
      { s with queue := s.queue.removeFromNewQueue front }).2.queue := by
    simp only [findNewGroups]
    generalize Lfg.consult e d [front] { s with queue := s.queue.removeFromNewQueue front } = r at hc ⊢
    obtain ⟨c,s'⟩ := r
    cases c with
    | withLessPlayers => exact h.matchQueued _ _ _ _ hc
    | _ => exact hc
  unfold Lfg.findGroup
  dsimp only
  split_ifs
  · exact hfound
  · exact h.enter _ _ hfound

theorem findGroups (s : Search) (hs : P s.queue) : P (findGroups e d s).queue := by
  have hfuel : ∀ n s, P s.queue → P (findGroupsFuel e d n s).queue := by
    intro n
    induction n with
    | zero => exact fun s hs => hs
    | succ n ih =>
      intro s hs
      simp only [findGroupsFuel]
      cases s.queue.newToQueueStore with
      | nil => exact hs
      | cons front rest => exact ih _ (h.findGroup front s hs)
  exact hfuel _ s hs

end Searched

end Steps

section Keys

theorem keyed_of_keys {q' : LFGQueue} (h : q.Keyed)
    (hkeys : ∀ key ∈ q'.compatibleMapStore.keys,
      key ∈ q.compatibleMapStore.keys ∨ ∃ check, key = concatenateGuids check) : q'.Keyed :=
  fun key hkey => (hkeys key hkey).elim (h key) id

theorem searched_keyed (e : Env) (d : Stores) : Searched e d LFGQueue.Keyed where
  record check s h := keyed_of_keys h fun key hkey => by
    obtain ⟨data,hdata⟩ := OrderedMap.mem_keys.mp hkey
    rcases record_caches check s key data hdata with hold | ⟨t,-,heq⟩
    · exact .inl (OrderedMap.mem_keys.mpr ⟨data,hold⟩)
    · exact .inr ⟨t,heq⟩
  cache _ check _ _ h := keyed_of_keys h fun _ hkey =>
    (OrderedMap.mem_keys_insert.mp hkey).elim (fun heq => .inr ⟨check,heq⟩) .inl
  leaveNew _ _ h := h
  enter _ _ h := h

theorem keyed_run (ops : List QueueOp) : (Run.exec LFGQueue.step .empty ops).Keyed := by
  refine Run.exec_inv (fun q op h => ?_) _ ops ?_
  · cases op with
    | addQueueData guid joinTime dungeons roles =>
      refine keyed_of_keys h fun key hkey => .inl ?_
      simp only [LFGQueue.step,LFGQueue.addQueueData,LFGQueue.addToQueue] at hkey
      split_ifs at hkey <;> exact hkey
    | removeFromQueue guid =>
      exact keyed_of_keys h fun key hkey => .inl (OrderedMap.mem_keys_of_filter hkey)
    | findGroups e d proposals rolls => exact (searched_keyed e d).findGroups _ h
    | updateQueueTimers => exact h
  · intro key hkey
    simp [LFGQueue.empty,OrderedMap.keys,OrderedMap.empty] at hkey

end Keys

section Removal

theorem find?_removeFromCompatibles :
    (q.removeFromCompatibles guid).compatibleMapStore.find? key =
      if guidString guid <:+: key then none else q.compatibleMapStore.find? key := by
  unfold LFGQueue.removeFromCompatibles
  rw [OrderedMap.find?_filter]
  cases q.compatibleMapStore.find? key with
  | none => simp
  | some data =>
    split_ifs with h <;> simp [h]

theorem infix_of_lists (hkey : ∃ check, key = concatenateGuids check) (h : Lists key guid) :
    guidString guid <:+: key := by
  obtain ⟨check,rfl⟩ := hkey
  exact infix_concatenateGuids.mpr ⟨guid,lists_concatenateGuids.mp h,List.infix_rfl⟩

/-- Exactly the entries that list the guid are erased if and only if no key that does not list it
has a guid with its digits. -/
theorem removeFromCompatibles_exact_iff (h : q.Keyed) (guid : Nat) :
    (∀ key, (q.removeFromCompatibles guid).compatibleMapStore.find? key =
      if Lists key guid then none else q.compatibleMapStore.find? key) ↔
    ∀ key ∈ q.compatibleMapStore.keys, ∀ guid', Lists key guid' →
      guidString guid <:+: guidString guid' → Lists key guid := by
  constructor
  · intro hexact key hkey guid' hlists hdigits
    by_contra hnot
    obtain ⟨check,rfl⟩ := h key hkey
    obtain ⟨data,hdata⟩ := OrderedMap.mem_keys.mp hkey
    have hkept := hexact (concatenateGuids check)
    rw [find?_removeFromCompatibles,if_neg hnot,hdata,if_pos] at hkept
    · cases hkept
    · exact infix_concatenateGuids.mpr ⟨guid',lists_concatenateGuids.mp hlists,hdigits⟩
  · intro hdigits key
    rw [find?_removeFromCompatibles]
    cases hdata : q.compatibleMapStore.find? key with
    | none => rw [ite_self,ite_self]
    | some data =>
      have hkey := OrderedMap.mem_keys.mpr ⟨data,hdata⟩
      have hiff : guidString guid <:+: key ↔ Lists key guid := by
        refine ⟨fun hoccurs => ?_,infix_of_lists (h key hkey)⟩
        obtain ⟨check,rfl⟩ := h key hkey
        obtain ⟨guid',hguid,hin⟩ := infix_concatenateGuids.mp hoccurs
        exact hdigits _ hkey guid' (lists_concatenateGuids.mpr hguid) hin
      simp only [hiff]

def soloOps (guid : Nat) : List QueueOp :=
  [.addQueueData guid 0 {7} (OrderedMap.empty.insert guid Role.damage),
    .findGroups peace queuedStores .empty []]

theorem removeFromCompatibles_exact_twelve :
    ((Run.exec LFGQueue.step .empty (soloOps 12)).compatibleMapStore.find? (guidString 12)).isSome ∧
    ∀ key, ((Run.exec LFGQueue.step .empty (soloOps 12)).removeFromCompatibles
        12).compatibleMapStore.find? key =
      if Lists key 12 then none
      else (Run.exec LFGQueue.step .empty (soloOps 12)).compatibleMapStore.find? key := by
  have hkeys : (Run.exec LFGQueue.step .empty (soloOps 12)).compatibleMapStore.keys =
      [guidString 12] := by decide +kernel
  refine ⟨by decide +kernel,(removeFromCompatibles_exact_iff (keyed_run _) 12).mpr ?_⟩
  intro key hkey _ _ _
  rw [hkeys] at hkey
  obtain rfl := List.mem_singleton.mp hkey
  decide

theorem unrelated_erased : ¬ ∀ q : LFGQueue, q.Keyed → ∀ guid key,
    (q.removeFromCompatibles guid).compatibleMapStore.find? key =
      if Lists key guid then none else q.compatibleMapStore.find? key := by
  intro h
  have hkey := congrArg Option.isSome (h _ (keyed_run (soloOps 12)) 1 (guidString 12))
  revert hkey
  decide +kernel

end Removal

end TrinityCore.Lfg
