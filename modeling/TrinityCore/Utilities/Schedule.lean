import TrinityCore.Utilities.EventMap

set_option autoImplicit false

/-!
What an event map is for: occurrences of events that are due at some time, in the time that has
passed for the map. Every one of them is executed once, cancelled, or dropped because its phase is
not active.
-/

namespace TrinityCore.Utilities

structure Occurrence where
  serial : Nat
  id : Nat
  group : Nat
  phase : Nat
  due : Nat

def Occurrence.delay (k : Nat) (o : Occurrence) : Occurrence := { o with due := k+o.due }

structure Ending where
  occurrence : Occurrence
  now : Nat
  phases : Finset Nat

structure Schedule where
  now : Nat
  /-- What a delay of all events can take back of the time. -/
  timer : Nat
  phases : Finset Nat
  pending : Multiset Occurrence
  /-- The id, the group and the phase of the event that was executed last. -/
  last : Nat × Nat × Nat
  serial : Nat
  executed : List Ending
  dropped : List Ending
  cancelled : Multiset Occurrence

namespace Schedule

def start : Schedule := ⟨0,0,∅,0,(0,0,0),0,[],[],0⟩

variable (s : Schedule)

def schedule (id time group phase : Nat) : Schedule :=
  { s with
    pending := ⟨s.serial,id,group,phase,s.now+time⟩ ::ₘ s.pending
    serial := s.serial+1 }

def cancel (p : Occurrence → Prop) [DecidablePred p] : Schedule :=
  { s with
    pending := s.pending.filter fun o => ¬ p o
    cancelled := s.cancelled+s.pending.filter p }

def delay (k : Nat) (p : Occurrence → Prop) [DecidablePred p] : Schedule :=
  { s with pending := s.pending.map fun o => if p o then o.delay k else o }

/-- Every call but an execution has one outcome. -/
def apply : Call → Schedule
  | .update time => { s with
    now := s.now+time
    timer := s.timer+time }
  | .setPhase phase => { s with
    phases := if phase = 0 then ∅ else if phase ≤ 8 then {phase} else s.phases }
  | .addPhase phase => { s with
    phases := if phase ≠ 0 ∧ phase ≤ 8 then Insert.insert phase s.phases else s.phases }
  | .removePhase phase => { s with phases := s.phases.erase phase }
  | .scheduleEvent id time group phase => s.schedule id time group phase
  | .rescheduleEvent id time group phase =>
    (s.cancel fun o => o.id = id).schedule id time group phase
  | .repeatEvent time => s.schedule s.last.1 time s.last.2.1 s.last.2.2
  | .executeEvent => s
  | .delayEvents delay =>
    let s := s.delay (min delay s.timer) fun _ => True
    { s with timer := s.timer-min delay s.timer }
  | .delayEventsGroup delay group => s.delay delay fun o => group ≠ 0 ∧ o.group = group
  | .cancelEvent id => s.cancel fun o => o.id = id
  | .cancelEventGroup group => s.cancel fun o => group ≠ 0 ∧ o.group = group

def ending (o : Occurrence) : Ending := ⟨o,s.now,s.phases⟩

/-- Some phase is active, but not that of the occurrence. -/
def OutOfPhase (o : Occurrence) : Prop := s.phases ≠ ∅ ∧ o.phase ≠ 0 ∧ o.phase ∉ s.phases

def Drops (dropped : List Occurrence) : Prop :=
  ∀ o ∈ dropped, o.due ≤ s.now ∧ s.OutOfPhase o

/-- The schedule after a call, and what the call returns. An execution returns an occurrence that
is due, none that is left being due before it, or finds that nothing is due. -/
inductive Step (s : Schedule) : Call → Nat → Schedule → Prop
  | call (call : Call) (other : call ≠ .executeEvent) : Step s call 0 (s.apply call)
  | executed (dropped : List Occurrence) (o : Occurrence) (rest : Multiset Occurrence)
      (pending : s.pending = ↑dropped+(o ::ₘ rest)) (drops : s.Drops dropped)
      (before : ∀ d ∈ dropped, d.due ≤ o.due) (due : o.due ≤ s.now) (phase : ¬ s.OutOfPhase o)
      (first : ∀ r ∈ rest, o.due ≤ r.due) :
      Step s .executeEvent o.id { s with
        pending := rest
        last := (o.id,o.group,o.phase)
        executed := s.executed ++ [s.ending o]
        dropped := s.dropped ++ dropped.map s.ending }
  | idle (dropped : List Occurrence) (rest : Multiset Occurrence)
      (pending : s.pending = ↑dropped+rest) (drops : s.Drops dropped)
      (later : ∀ r ∈ rest, s.now < r.due) :
      Step s .executeEvent 0 { s with
        pending := rest
        dropped := s.dropped ++ dropped.map s.ending }

inductive Runs : Schedule → List Call → List Nat → Schedule → Prop
  | nil (s : Schedule) : Runs s [] [] s
  | cons {s s' s'' : Schedule} {call : Call} {calls : List Call} {result : Nat}
      {results : List Nat} (step : Step s call result s') (runs : Runs s' calls results s'') :
      Runs s (call :: calls) (result :: results) s''

/-- The laws of a schedule: the events are executed in the order in which they are due, when they
are due and in phase, and dropped when they are due and out of phase; each occurrence is pending,
executed, dropped or cancelled once. -/
structure Lawful : Prop where
  order : s.executed.Pairwise fun a b => a.occurrence.due ≤ b.occurrence.due
  executed : ∀ e ∈ s.executed, e.occurrence.due ≤ e.now ∧
    (e.phases = ∅ ∨ e.occurrence.phase = 0 ∨ e.occurrence.phase ∈ e.phases)
  dropped : ∀ e ∈ s.dropped, e.occurrence.due ≤ e.now ∧
    e.phases ≠ ∅ ∧ e.occurrence.phase ≠ 0 ∧ e.occurrence.phase ∉ e.phases
  once : s.pending.map Occurrence.serial+
    (s.executed.map fun e => e.occurrence.serial : Multiset Nat)+
    (s.dropped.map fun e => e.occurrence.serial : Multiset Nat)+
    s.cancelled.map Occurrence.serial = Multiset.range s.serial

/-- What was executed was due before the present and before what is pending. -/
structure Past : Prop where
  now : ∀ e ∈ s.executed, e.occurrence.due ≤ s.now
  pending : ∀ e ∈ s.executed, ∀ o ∈ s.pending, e.occurrence.due ≤ o.due

end Schedule

section Laws

variable {s s' : Schedule}

theorem lawful_start : Schedule.start.Lawful := by
  constructor <;> simp [Schedule.start]

theorem lawful_schedule (h : s.Lawful) (id time group phase : Nat) :
    (s.schedule id time group phase).Lawful := by
  refine ⟨h.order,h.executed,h.dropped,?_⟩
  unfold Schedule.schedule
  dsimp only
  rw [Multiset.map_cons,Multiset.range_succ,← h.once]
  simp only [Multiset.cons_add]

theorem past_schedule (h : s.Past) (id time group phase : Nat) :
    (s.schedule id time group phase).Past := by
  refine ⟨h.now,fun e he o ho => ?_⟩
  rcases Multiset.mem_cons.mp ho with rfl | ho
  · exact (h.now e he).trans (Nat.le_add_right _ _)
  · exact h.pending e he o ho

theorem lawful_cancel (h : s.Lawful) (p : Occurrence → Prop) [DecidablePred p] :
    (s.cancel p).Lawful := by
  refine ⟨h.order,h.executed,h.dropped,?_⟩
  have hsplit : s.pending.map Occurrence.serial =
      (s.pending.filter p).map Occurrence.serial+
        (s.pending.filter fun o => ¬ p o).map Occurrence.serial := by
    rw [← Multiset.map_add,Multiset.filter_add_not]
  have honce := h.once
  rw [hsplit] at honce
  unfold Schedule.cancel
  dsimp only
  rw [Multiset.map_add,← honce]
  abel

theorem past_cancel (h : s.Past) (p : Occurrence → Prop) [DecidablePred p] : (s.cancel p).Past :=
  ⟨h.now,fun e he o ho => h.pending e he o (Multiset.mem_of_mem_filter ho)⟩

theorem lawful_delay (h : s.Lawful) (k : Nat) (p : Occurrence → Prop) [DecidablePred p] :
    (s.delay k p).Lawful := by
  refine ⟨h.order,h.executed,h.dropped,?_⟩
  have hserial : (s.pending.map fun o => if p o then o.delay k else o).map Occurrence.serial =
      s.pending.map Occurrence.serial := by
    rw [Multiset.map_map]
    refine Multiset.map_congr rfl fun o _ => ?_
    rw [Function.comp_apply]
    split_ifs <;> rfl
  unfold Schedule.delay
  dsimp only
  rw [hserial]
  exact h.once

theorem past_delay (h : s.Past) (k : Nat) (p : Occurrence → Prop) [DecidablePred p] :
    (s.delay k p).Past := by
  refine ⟨h.now,fun e he o ho => ?_⟩
  obtain ⟨o',ho',rfl⟩ := Multiset.mem_map.mp ho
  have := h.pending e he o' ho'
  split_ifs
  · exact this.trans (Nat.le_add_left _ _)
  · exact this

theorem lawful_apply (h : s.Lawful ∧ s.Past) (call : Call) :
    (s.apply call).Lawful ∧ (s.apply call).Past := by
  obtain ⟨hlawful,hpast⟩ := h
  cases call with
  | update time =>
    exact ⟨⟨hlawful.order,hlawful.executed,hlawful.dropped,hlawful.once⟩,
      ⟨fun e he => (hpast.now e he).trans (Nat.le_add_right _ _),hpast.pending⟩⟩
  | setPhase phase =>
    exact ⟨⟨hlawful.order,hlawful.executed,hlawful.dropped,hlawful.once⟩,
      ⟨hpast.now,hpast.pending⟩⟩
  | addPhase phase =>
    exact ⟨⟨hlawful.order,hlawful.executed,hlawful.dropped,hlawful.once⟩,
      ⟨hpast.now,hpast.pending⟩⟩
  | removePhase phase =>
    exact ⟨⟨hlawful.order,hlawful.executed,hlawful.dropped,hlawful.once⟩,
      ⟨hpast.now,hpast.pending⟩⟩
  | scheduleEvent id time group phase =>
    exact ⟨lawful_schedule hlawful id time group phase,past_schedule hpast id time group phase⟩
  | rescheduleEvent id time group phase =>
    exact ⟨lawful_schedule (lawful_cancel hlawful _) id time group phase,
      past_schedule (past_cancel hpast _) id time group phase⟩
  | repeatEvent time =>
    exact ⟨lawful_schedule hlawful _ time _ _,past_schedule hpast _ time _ _⟩
  | executeEvent => exact ⟨hlawful,hpast⟩
  | delayEvents delay =>
    have hlawful' := lawful_delay hlawful (min delay s.timer) fun _ => True
    have hpast' := past_delay hpast (min delay s.timer) fun _ => True
    exact ⟨⟨hlawful'.order,hlawful'.executed,hlawful'.dropped,hlawful'.once⟩,
      ⟨hpast'.now,hpast'.pending⟩⟩
  | delayEventsGroup delay group => exact ⟨lawful_delay hlawful _ _,past_delay hpast _ _⟩
  | cancelEvent id => exact ⟨lawful_cancel hlawful _,past_cancel hpast _⟩
  | cancelEventGroup group => exact ⟨lawful_cancel hlawful _,past_cancel hpast _⟩

theorem serials_dropped (dropped : List Occurrence) :
    ((dropped.map s.ending).map fun e => e.occurrence.serial : List Nat) =
      dropped.map Occurrence.serial := by
  rw [List.map_map]
  rfl

theorem lawful_dropped (h : s.Lawful) {dropped : List Occurrence} (drops : s.Drops dropped) :
    ∀ e ∈ s.dropped ++ dropped.map s.ending, e.occurrence.due ≤ e.now ∧
      e.phases ≠ ∅ ∧ e.occurrence.phase ≠ 0 ∧ e.occurrence.phase ∉ e.phases := by
  intro e he
  rcases List.mem_append.mp he with he | he
  · exact h.dropped e he
  · obtain ⟨o,ho,rfl⟩ := List.mem_map.mp he
    exact drops o ho

theorem lawful_step {call : Call} {result : Nat} (h : s.Lawful ∧ s.Past)
    (hstep : s.Step call result s') : s'.Lawful ∧ s'.Past := by
  obtain ⟨hlawful,hpast⟩ := h
  cases hstep with
  | call _ other => exact lawful_apply ⟨hlawful,hpast⟩ call
  | executed dropped o rest pending drops before due phase first =>
    have ho : o ∈ s.pending := by
      rw [pending]
      exact Multiset.mem_add.mpr (.inr (Multiset.mem_cons_self o rest))
    have hrest : ∀ r ∈ rest, r ∈ s.pending := by
      intro r hr
      rw [pending]
      exact Multiset.mem_add.mpr (.inr (Multiset.mem_cons_of_mem hr))
    refine ⟨⟨?_,?_,lawful_dropped hlawful drops,?_⟩,?_,?_⟩
    · refine List.pairwise_append.mpr ⟨hlawful.order,List.pairwise_singleton _ _,?_⟩
      intro e he e' he'
      rw [List.mem_singleton] at he'
      subst he'
      exact hpast.pending e he o ho
    · intro e he
      rcases List.mem_append.mp he with he | he
      · exact hlawful.executed e he
      · rw [List.mem_singleton] at he
        subst he
        refine ⟨due,?_⟩
        unfold Schedule.OutOfPhase at phase
        change s.phases = ∅ ∨ o.phase = 0 ∨ o.phase ∈ s.phases
        tauto
    · have honce := hlawful.once
      rw [pending,Multiset.map_add,Multiset.map_cons] at honce
      dsimp only
      rw [← honce,List.map_append,List.map_append,serials_dropped,← Multiset.coe_add,
        ← Multiset.coe_add,Multiset.map_coe,← Multiset.singleton_add]
      change _+(_+(({o.serial} : Multiset Nat)))+_+_ = _
      abel
    · intro e he
      rcases List.mem_append.mp he with he | he
      · exact hpast.now e he
      · rw [List.mem_singleton] at he
        subst he
        exact due
    · intro e he r hr
      rcases List.mem_append.mp he with he | he
      · exact hpast.pending e he r (hrest r hr)
      · rw [List.mem_singleton] at he
        subst he
        exact first r hr
  | idle dropped rest pending drops later =>
    have hrest : ∀ r ∈ rest, r ∈ s.pending := by
      intro r hr
      rw [pending]
      exact Multiset.mem_add.mpr (.inr hr)
    refine ⟨⟨hlawful.order,hlawful.executed,lawful_dropped hlawful drops,?_⟩,hpast.now,
      fun e he r hr => hpast.pending e he r (hrest r hr)⟩
    have honce := hlawful.once
    rw [pending,Multiset.map_add] at honce
    dsimp only
    rw [← honce,List.map_append,serials_dropped,← Multiset.coe_add,Multiset.map_coe]
    abel

theorem lawful_runs {calls : List Call} {results : List Nat}
    (hruns : Schedule.Runs s calls results s') (h : s.Lawful ∧ s.Past) : s'.Lawful := by
  induction hruns with
  | nil s => exact h.1
  | cons hstep hruns ih => exact ih (lawful_step h hstep)

end Laws

end TrinityCore.Utilities
