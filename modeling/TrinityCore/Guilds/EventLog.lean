import TrinityCore.Lib.Ring
import TrinityCore.Lib.Run

set_option autoImplicit false

namespace TrinityCore.Guilds

structure LogEntry (α : Type) where
  guid : Nat
  timestamp : Nat
  data : α
deriving DecidableEq, Repr

/-- `LogHolder`. The oldest entry comes first, and `none` is `GUILD_EVENT_LOG_GUID_UNDEFINED`. -/
structure LogHolder (α : Type) where
  log : List (LogEntry α)
  nextGUID : Option Nat
deriving DecidableEq, Repr

section Model

variable {α : Type} (maxRecords : Nat)

namespace LogHolder

def new : LogHolder α := { log := [], nextGUID := none }

def canInsert (h : LogHolder α) : Bool := h.log.length < maxRecords

def loadEvent (h : LogHolder α) (entry : LogEntry α) : LogHolder α :=
  { log := entry :: h.log,
    nextGUID := if h.nextGUID = none then some entry.guid else h.nextGUID }

def getNextGUID (h : LogHolder α) : Nat :=
  match h.nextGUID with
  | none => 0
  | some guid => (guid+1) % maxRecords

def addEvent (h : LogHolder α) (entry : LogEntry α) : LogHolder α :=
  { h with log := (if maxRecords ≤ h.log.length then h.log.tail else h.log) ++ [entry] }

def loadRow (h : LogHolder α) (row : LogEntry α) : LogHolder α :=
  if h.canInsert maxRecords then h.loadEvent row else h

end LogHolder

/-- `SaveToDB` deletes the row with the number of the entry and inserts the entry. -/
def saveToDB (rows : List (LogEntry α)) (entry : LogEntry α) : List (LogEntry α) :=
  entry :: rows.filter (fun row => row.guid ≠ entry.guid)

def LogEntry.Newer (a b : LogEntry α) : Prop :=
  b.timestamp < a.timestamp ∨ b.timestamp = a.timestamp ∧ b.guid ≤ a.guid

instance : DecidableRel (LogEntry.Newer (α := α)) := fun _ _ =>
  inferInstanceAs (Decidable (_ ∨ _))

instance : IsTrans (LogEntry α) LogEntry.Newer where
  trans a b c hab hbc := by
    simp only [LogEntry.Newer] at hab hbc ⊢
    omega

instance : Std.Total (LogEntry.Newer (α := α)) where
  total a b := by
    simp only [LogEntry.Newer]
    omega

structure EventLog (α : Type) where
  holder : LogHolder α
  rows : List (LogEntry α)
deriving DecidableEq, Repr

namespace EventLog

def new : EventLog α := { holder := .new, rows := [] }

def logEvent (s : EventLog α) (timestamp : Nat) (data : α) : EventLog α :=
  let guid := s.holder.getNextGUID maxRecords
  let entry := { guid := guid, timestamp := timestamp, data := data }
  { holder := { s.holder with nextGUID := some guid }.addEvent maxRecords entry,
    rows := saveToDB s.rows entry }

/-- `LoadGuilds` clears the rows beyond the limit and loads the newest ones. -/
def restart (s : EventLog α) : EventLog α :=
  let rows := s.rows.filter (fun row => ¬ maxRecords < row.guid)
  { holder := (rows.insertionSort LogEntry.Newer).foldl (LogHolder.loadRow maxRecords) .new,
    rows := rows }

inductive Action (α : Type) where
  | event (timestamp : Nat) (data : α)
  | restart

def step (s : EventLog α) : Action α → EventLog α
  | .event timestamp data => s.logEvent maxRecords timestamp data
  | .restart => s.restart maxRecords

def happened : List (Action α) → List (Nat × α)
  | [] => []
  | .event timestamp data :: as => (timestamp,data) :: happened as
  | .restart :: as => happened as

end EventLog

end Model

section Runs

variable {α : Type} {maxRecords : Nat} {s : EventLog α} {evs : List (Nat × α)}

def LogEntry.event (e : LogEntry α) : Nat × α := (e.timestamp,e.data)

/-- The entries that were ever written, numbered modulo the limit. -/
def numbered (maxRecords : Nat) (evs : List (Nat × α)) : List (LogEntry α) :=
  evs.mapIdx fun i e => { guid := i % maxRecords, timestamp := e.1, data := e.2 }

@[simp] theorem length_numbered : (numbered maxRecords evs).length = evs.length :=
  List.length_mapIdx

theorem numbered_concat (timestamp : Nat) (data : α) :
    numbered maxRecords (evs ++ [(timestamp,data)]) =
      numbered maxRecords evs ++ [⟨evs.length % maxRecords,timestamp,data⟩] :=
  List.mapIdx_concat

theorem map_event_rtake : ((numbered maxRecords evs).rtake maxRecords).map LogEntry.event =
    evs.rtake maxRecords := by
  have hmap : (numbered maxRecords evs).map LogEntry.event = evs := by
    refine List.ext_getElem (by simp) fun i hi hj => ?_
    simp [numbered,LogEntry.event]
  rw [List.rtake,List.map_drop,hmap,length_numbered,List.rtake]

theorem pairwise_guid (maxRecords : Nat) (evs : List (Nat × α)) : ((numbered maxRecords evs).rtake maxRecords).Pairwise
    (fun a b => a.guid ≠ b.guid) := by
  rw [List.pairwise_iff_getElem]
  intro i j hi hj hij
  simp only [List.rtake,List.length_drop,length_numbered] at hi hj
  simp only [List.rtake,List.getElem_drop,numbered,List.getElem_mapIdx]
  exact Ring.mod_ne_mod (by omega) (by simp only [List.length_mapIdx]; omega)

theorem pairwise_timestamp (maxRecords : Nat) (h : evs.Pairwise (fun a b => a.1 ≤ b.1)) :
    ((numbered maxRecords evs).rtake maxRecords).Pairwise
      (fun a b => a.timestamp ≤ b.timestamp) := by
  have hkept : (evs.rtake maxRecords).Pairwise (fun a b => a.1 ≤ b.1) :=
    h.sublist (List.drop_sublist _ _)
  rw [← map_event_rtake,List.pairwise_map] at hkept
  exact hkept

theorem guid_lt (hmax : 0 < maxRecords) {e : LogEntry α}
    (he : e ∈ (numbered maxRecords evs).rtake maxRecords) : e.guid < maxRecords := by
  have he := List.mem_of_mem_drop he
  simp only [numbered,List.mem_mapIdx] at he
  obtain ⟨i,_,rfl⟩ := he
  exact Nat.mod_lt _ hmax

theorem head_guid (hfull : maxRecords ≤ evs.length) {e : LogEntry α}
    (he : ((numbered maxRecords evs).rtake maxRecords).head? = some e) :
    e.guid = evs.length % maxRecords := by
  rw [List.rtake,List.head?_drop,length_numbered] at he
  simp only [numbered,List.getElem?_mapIdx,Option.map_eq_some_iff] at he
  obtain ⟨p,_,rfl⟩ := he
  exact (Nat.mod_eq_sub_mod hfull).symm

structure Recorded (maxRecords : Nat) (evs : List (Nat × α)) (s : EventLog α) : Prop where
  log : s.holder.log = (numbered maxRecords evs).rtake maxRecords
  rows : s.rows.Perm s.holder.log
  next : s.holder.getNextGUID maxRecords = evs.length % maxRecords

namespace Recorded

theorem start : Recorded maxRecords [] (EventLog.new : EventLog α) :=
  ⟨by simp [EventLog.new,LogHolder.new,numbered],.refl _,(Nat.zero_mod _).symm⟩

theorem length_log (h : Recorded maxRecords evs s) :
    s.holder.log.length = min evs.length maxRecords := by
  rw [h.log,List.rtake,List.length_drop,length_numbered]
  omega

/-- The rows that the next event does not replace are those of the entries that stay. -/
theorem filter_rows (h : Recorded maxRecords evs s) :
    (s.rows.filter fun row => row.guid ≠ evs.length % maxRecords).Perm
      (if maxRecords ≤ s.holder.log.length then s.holder.log.tail else s.holder.log) := by
  refine (h.rows.filter _).trans (List.Perm.of_eq ?_)
  have hlength := h.length_log
  have hguid := pairwise_guid maxRecords evs
  have hhead : maxRecords ≤ evs.length → ∀ e : LogEntry α, ((numbered maxRecords evs).rtake
      maxRecords).head? = some e → e.guid = evs.length % maxRecords := fun hfull e => head_guid hfull
  rw [← h.log] at hguid hhead
  split_ifs with hfull
  · generalize s.holder.log = log at *
    cases log with
    | nil => rfl
    | cons e log =>
      have he := hhead (by omega) e rfl
      rw [List.pairwise_cons] at hguid
      rw [List.filter_cons_of_neg (by simp [he])]
      refine List.filter_eq_self.mpr fun row hrow => ?_
      have := hguid.1 row hrow
      simp only [ne_eq,decide_eq_true_eq]
      omega
  · have hall : s.holder.log = numbered maxRecords evs := by
      rw [h.log,List.rtake,length_numbered]
      simp [show evs.length-maxRecords = 0 by omega]
    refine List.filter_eq_self.mpr fun row hrow => ?_
    rw [hall,numbered,List.mem_mapIdx] at hrow
    obtain ⟨i,hi,rfl⟩ := hrow
    have h₁ := Nat.mod_eq_of_lt (show i < maxRecords by omega)
    have h₂ := Nat.mod_eq_of_lt (show evs.length < maxRecords by omega)
    simp only [ne_eq,decide_eq_true_eq]
    omega

theorem logEvent (hmax : 0 < maxRecords) (h : Recorded maxRecords evs s) (timestamp : Nat)
    (data : α) :
    Recorded maxRecords (evs ++ [(timestamp,data)]) (s.logEvent maxRecords timestamp data) := by
  constructor
  · simp only [EventLog.logEvent,LogHolder.addEvent,numbered_concat,h.next]
    rw [Ring.rtake_concat hmax,← h.log]
  · simp only [EventLog.logEvent,LogHolder.addEvent,saveToDB,h.next]
    exact (h.filter_rows.cons _).trans (List.perm_append_singleton _ _).symm
  · change (s.holder.getNextGUID maxRecords+1) % maxRecords = _
    rw [h.next]
    simp

end Recorded

def WrapsLater (log : List (LogEntry α)) : Prop :=
  log.IsChain fun a b => b.guid < a.guid → a.timestamp < b.timestamp

instance (log : List (LogEntry α)) : Decidable (WrapsLater log) :=
  inferInstanceAs (Decidable (List.IsChain _ _))

/-- The order of the query, oldest first, is that of a log with later times at its wraps. -/
theorem pairwise_newer_iff {log : List (LogEntry α)}
    (htime : log.Pairwise (fun a b => a.timestamp ≤ b.timestamp)) :
    log.reverse.Pairwise LogEntry.Newer ↔ WrapsLater log := by
  let older : LogEntry α → LogEntry α → Prop := fun a b => b.Newer a
  have htrans : Trans older older older :=
    ⟨fun {a b c} hab hbc => IsTrans.trans (r := LogEntry.Newer) c b a hbc hab⟩
  rw [List.pairwise_reverse,← List.isChain_iff_pairwise (R := older)]
  have hchain := htime.isChain
  induction log with
  | nil => simp [WrapsLater]
  | cons a log ih =>
    cases log with
    | nil => simp [WrapsLater]
    | cons b log =>
      have ih := ih htime.of_cons hchain.of_cons
      have hab := (List.isChain_cons_cons.mp hchain).1
      simp only [WrapsLater,List.isChain_cons_cons] at ih ⊢
      refine and_congr ?_ ih
      simp only [older,LogEntry.Newer]
      omega

theorem load_log (rows : List (LogEntry α)) (h : LogHolder α)
    (hfit : rows.length+h.log.length ≤ maxRecords) :
    rows.foldl (LogHolder.loadRow maxRecords) h =
      { log := rows.reverse ++ h.log, nextGUID := h.nextGUID.or (rows.head?.map LogEntry.guid) } := by
  induction rows generalizing h with
  | nil => simp
  | cons row rows ih =>
    have hinsert : h.canInsert maxRecords := by
      simp only [List.length_cons] at hfit
      simp only [LogHolder.canInsert,decide_eq_true_eq]
      omega
    have hrow : h.loadRow maxRecords row = h.loadEvent row := by
      simp [LogHolder.loadRow,hinsert]
    rw [List.foldl_cons,hrow,ih]
    · simp only [LogHolder.loadEvent,List.reverse_cons,List.append_assoc,List.singleton_append]
      cases h.nextGUID <;> simp
    · simp only [LogHolder.loadEvent,List.length_cons] at hfit ⊢
      omega

namespace Recorded

theorem nodup_guid (h : Recorded maxRecords evs s) : (s.holder.log.map LogEntry.guid).Nodup := by
  rw [h.log]
  exact List.pairwise_map.mpr (pairwise_guid maxRecords evs)

theorem kept_rows (hmax : 0 < maxRecords) (h : Recorded maxRecords evs s) :
    s.rows.filter (fun row => ¬ maxRecords < row.guid) = s.rows := by
  refine List.filter_eq_self.mpr fun row hrow => ?_
  have hrow := h.rows.mem_iff.mp hrow
  rw [h.log] at hrow
  have := guid_lt hmax hrow
  simp only [decide_eq_true_eq]
  omega

theorem restart_holder (hmax : 0 < maxRecords) (h : Recorded maxRecords evs s) :
    (s.restart maxRecords).holder =
      { log := (s.rows.insertionSort LogEntry.Newer).reverse,
        nextGUID := (s.rows.insertionSort LogEntry.Newer).head?.map LogEntry.guid } := by
  have hlength := h.length_log
  have hfit : (s.rows.insertionSort LogEntry.Newer).length ≤ maxRecords := by
    rw [List.length_insertionSort,h.rows.length_eq]
    omega
  simp only [EventLog.restart,h.kept_rows hmax]
  rw [load_log _ _ hfit]
  simp [LogHolder.new]

theorem sorted_iff (hmono : evs.Pairwise (fun a b => a.1 ≤ b.1))
    (h : Recorded maxRecords evs s) :
    s.rows.insertionSort LogEntry.Newer = s.holder.log.reverse ↔ WrapsLater s.holder.log := by
  have htime := pairwise_timestamp maxRecords hmono
  have hguid := h.nodup_guid
  rw [← h.log] at htime
  rw [← pairwise_newer_iff htime]
  refine Ring.insertionSort_eq_iff ?_ (h.rows.trans (List.reverse_perm _).symm)
  intro a b hab hba ha hb
  simp only [LogEntry.Newer] at hab hba
  exact List.inj_on_of_nodup_map hguid (List.mem_reverse.mp ha) (List.mem_reverse.mp hb) (by omega)

theorem restart_log_iff (hmax : 0 < maxRecords) (hmono : evs.Pairwise (fun a b => a.1 ≤ b.1))
    (h : Recorded maxRecords evs s) :
    (s.restart maxRecords).holder.log = s.holder.log ↔ WrapsLater s.holder.log := by
  rw [h.restart_holder hmax,← h.sorted_iff hmono]
  exact List.reverse_eq_iff

theorem restart (hmax : 0 < maxRecords) (hmono : evs.Pairwise (fun a b => a.1 ≤ b.1))
    (h : Recorded maxRecords evs s) (hwraps : WrapsLater s.holder.log) :
    Recorded maxRecords evs (s.restart maxRecords) := by
  have hlog := (h.restart_log_iff hmax hmono).mpr hwraps
  have hsorted := (h.sorted_iff hmono).mpr hwraps
  constructor
  · rw [hlog,h.log]
  · rw [hlog]
    simp only [EventLog.restart,h.kept_rows hmax]
    exact h.rows
  · rw [h.restart_holder hmax,hsorted,h.log,List.head?_reverse]
    induction evs using List.reverseRecOn with
    | nil => simp [numbered,LogHolder.getNextGUID]
    | append_singleton evs e =>
      rw [numbered_concat,Ring.rtake_concat hmax]
      simp [LogHolder.getNextGUID]

theorem overwrites (hmax : 0 < maxRecords) (h : Recorded maxRecords evs s) {row : LogEntry α}
    (hrow : row ∈ s.rows) (hguid : row.guid = s.holder.getNextGUID maxRecords) :
    s.holder.log.head? = some row := by
  have hrow := h.rows.mem_iff.mp hrow
  rw [h.next] at hguid
  rcases Nat.lt_or_ge evs.length maxRecords with hroom | hfull
  · -- nothing has been pushed out, so all numbers in use are smaller
    rw [h.log] at hrow
    have hmem := List.mem_of_mem_drop hrow
    simp only [numbered,List.mem_mapIdx] at hmem
    obtain ⟨i,hi,rfl⟩ := hmem
    have h₁ := Nat.mod_eq_of_lt (show i < maxRecords by omega)
    have h₂ := Nat.mod_eq_of_lt hroom
    dsimp only at hguid
    omega
  · have hlength := h.length_log
    obtain ⟨e,he⟩ : ∃ e, s.holder.log.head? = some e := by
      cases hlog : s.holder.log with
      | nil => simp [hlog] at hlength; omega
      | cons e log => exact ⟨e,rfl⟩
    have heguid := head_guid hfull (h.log ▸ he)
    rw [he,List.inj_on_of_nodup_map h.nodup_guid hrow (List.mem_of_mem_head? he) (by omega)]

end Recorded

def RestartOk (s : EventLog α) : EventLog.Action α → Prop
  | .event _ _ => True
  | .restart => WrapsLater s.holder.log

theorem Recorded.exec (hmax : 0 < maxRecords) {as : List (EventLog.Action α)}
    (h : Recorded maxRecords evs s)
    (hmono : (evs ++ EventLog.happened as).Pairwise (fun a b => a.1 ≤ b.1))
    (hok : Run.Guarded (EventLog.step maxRecords) RestartOk s as) :
    Recorded maxRecords (evs ++ EventLog.happened as)
      (Run.exec (EventLog.step maxRecords) s as) := by
  induction as generalizing evs s with
  | nil => simpa [EventLog.happened] using h
  | cons a as ih =>
    cases a with
    | event timestamp data =>
      have happend : evs ++ EventLog.happened (.event timestamp data :: as) =
          evs ++ [(timestamp,data)] ++ EventLog.happened as := by simp [EventLog.happened]
      rw [happend] at hmono ⊢
      exact ih (h.logEvent hmax timestamp data) hmono hok.2
    | restart =>
      have hevs := (List.pairwise_append.mp hmono).1
      exact ih (h.restart hmax hevs hok.1) hmono hok.2

/-- While the times tell the wraps at each restart, the log is the last events in their
order, and the next event can replace the row of the oldest entry only. A restart keeps
the log exactly when the times tell the wraps. -/
theorem EventLog.run_keeps_order (hmax : 0 < maxRecords) (as : List (EventLog.Action α))
    (hmono : (EventLog.happened as).Pairwise (fun a b => a.1 ≤ b.1))
    (hok : Run.Guarded (EventLog.step maxRecords) RestartOk EventLog.new as) :
    let s := Run.exec (EventLog.step maxRecords) EventLog.new as
    s.holder.log.map LogEntry.event = (EventLog.happened as).rtake maxRecords ∧
      (∀ row ∈ s.rows, row.guid = s.holder.getNextGUID maxRecords →
        s.holder.log.head? = some row) ∧
      ((s.restart maxRecords).holder.log = s.holder.log ↔ WrapsLater s.holder.log) := by
  intro s
  have h : Recorded maxRecords (EventLog.happened as) s := Recorded.start.exec hmax hmono hok
  refine ⟨?_,fun row hrow hguid => h.overwrites hmax hrow hguid,h.restart_log_iff hmax hmono⟩
  rw [h.log,map_event_rtake]

/-- Five events a second apart and a restart after four of them. -/
theorem EventLog.run_keeps_order_five :
    let as : List (EventLog.Action Nat) :=
      [.event 10 1,.event 11 2,.event 12 3,.event 13 4,.restart,.event 14 5]
    let s := Run.exec (EventLog.step 3) EventLog.new as
    s.holder.log.map LogEntry.event = (EventLog.happened as).rtake 3 ∧
      (∀ row ∈ s.rows, row.guid = s.holder.getNextGUID 3 → s.holder.log.head? = some row) ∧
      ((s.restart 3).holder.log = s.holder.log ↔ WrapsLater s.holder.log) :=
  EventLog.run_keeps_order (by decide) _ (by simp [EventLog.happened])
    ⟨trivial,trivial,trivial,trivial,by change WrapsLater _; decide +kernel,trivial,trivial⟩

/-- Four events of one second: the restart takes the newest entry for the oldest one, and
the next event replaces its row. -/
theorem EventLog.tie_loses_newest :
    let as : List (EventLog.Action Nat) :=
      [.event 10 1,.event 10 2,.event 10 3,.event 10 4,.restart]
    let s := Run.exec (EventLog.step 3) EventLog.new as
    s.holder.log.map LogEntry.event = [(10,4),(10,2),(10,3)] ∧
      (EventLog.happened as).rtake 3 = [(10,2),(10,3),(10,4)] ∧
      ∃ row ∈ s.rows, row.event = (10,4) ∧ row.guid = s.holder.getNextGUID 3 := by
  decide +kernel

end Runs

end TrinityCore.Guilds
