import TrinityCore.Lib.Run
import TrinityCore.Vehicles.Vehicle

set_option autoImplicit false

namespace TrinityCore.Vehicles

variable {V U : Type} [DecidableEq V]

def Vehicle.freeSeats (v : Vehicle U) : Nat := v.seats.values.countP VehicleSeat.free

/-- The seat of a pending event is empty, unless the event is the given one, whose seat is about to
be left. -/
structure Inv (hole : Option EventId) (w : World V U) : Prop where
  usable : ∀ v, (w.vehicle v).usableSeatNum = (w.vehicle v).freeSeats
  few : ∀ v, (w.vehicle v).seats.size ≤ maxVehicleSeats
  seated : ∀ v s seat u, (w.vehicle v).seats.find? s = some seat → seat.passenger = some u →
    w.vehicleOf u = some v
  one : ∀ v s s' seat seat' u, (w.vehicle v).seats.find? s = some seat →
    (w.vehicle v).seats.find? s' = some seat' → seat.passenger = some u →
    seat'.passenger = some u → s = s'
  riding : ∀ u v, w.vehicleOf u = some v →
    ∃ s seat, (w.vehicle v).seats.find? s = some seat ∧ seat.passenger = some u
  aura : ∀ u v, w.vehicleOf u = some v → (u,v) ∈ w.auras
  single : ∀ u v v', (u,v) ∈ w.auras → (u,v') ∈ w.auras → v = v'
  pending : ∀ v e, e ∈ (w.vehicle v).pendingJoinEvents → ∃ event s seat,
    w.events e = some event ∧ event.ended = false ∧ event.target = some v ∧
    event.seat = some s ∧ (w.vehicle v).seats.find? s = some seat ∧
    (seat.passenger = none ∨ some e = hole) ∧ w.vehicleOf event.passenger ≠ some v
  nodup : ∀ v, (w.vehicle v).pendingJoinEvents.Nodup
  live : ∀ e event, w.events e = some event → event.ended = false → event.toAbort = false →
    ∃ v, event.target = some v ∧ e ∈ (w.vehicle v).pendingJoinEvents
  fresh : ∀ e, w.nextEvent ≤ e → w.events e = none

/-- Units have left seats and vehicles, auras have gone, and events are to be aborted; nothing else
has changed. -/
structure Left (w w' : World V U) : Prop where
  seats : ∀ v s seat', (w'.vehicle v).seats.find? s = some seat' → ∃ seat,
    (w.vehicle v).seats.find? s = some seat ∧
    (seat'.passenger = seat.passenger ∨ seat'.passenger = none)
  kept : ∀ v s seat, (w.vehicle v).seats.find? s = some seat →
    ∃ seat', (w'.vehicle v).seats.find? s = some seat'
  events : ∀ e event', w'.events e = some event' → ∃ event, w.events e = some event ∧
    event'.seat = event.seat ∧ event'.target = event.target
  vehicleOf : ∀ u, w.vehicleOf u = none → w'.vehicleOf u = none

section Leaving

variable {hole : Option EventId} {w w' w'' : World V U} {u : U} {v : V}

omit [DecidableEq V] in
theorem Left.refl (w : World V U) : Left w w where
  seats := fun _ _ seat h => ⟨seat,h,.inl rfl⟩
  kept := fun _ _ seat h => ⟨seat,h⟩
  events := fun _ event h => ⟨event,h,rfl,rfl⟩
  vehicleOf := fun _ h => h

omit [DecidableEq V] in
theorem Left.trans (h : Left w w') (h' : Left w' w'') : Left w w'' where
  seats := by
    intro v s seat'' hs
    obtain ⟨seat',hs',hpassenger'⟩ := h'.seats v s seat'' hs
    obtain ⟨seat,hs,hpassenger⟩ := h.seats v s seat' hs'
    refine ⟨seat,hs,?_⟩
    rcases hpassenger' with heq | hnone
    · rwa [heq]
    · exact .inr hnone
  kept := by
    intro v s seat hs
    obtain ⟨seat',hs'⟩ := h.kept v s seat hs
    exact h'.kept v s seat' hs'
  events := by
    intro e event'' he
    obtain ⟨event',he',hseat',htarget'⟩ := h'.events e event'' he
    obtain ⟨event,he,hseat,htarget⟩ := h.events e event' he'
    exact ⟨event,he,hseat'.trans hseat,htarget'.trans htarget⟩
  vehicleOf := fun u hu => h'.vehicleOf u (h.vehicleOf u hu)

theorem field_setVehicle {β : Type} (f : Vehicle U → β) (x : Vehicle U) (v' : V) :
    f ((w.setVehicle v x).vehicle v') = if v' = v then f x else f (w.vehicle v') := by
  by_cases hv : v' = v
  · subst hv
    simp [World.setVehicle]
  · simp [World.setVehicle,hv]

theorem field_setVehicle_of_eq {β : Type} (f : Vehicle U → β) {x : Vehicle U}
    (h : f x = f (w.vehicle v)) (v' : V) :
    f ((w.setVehicle v x).vehicle v') = f (w.vehicle v') := by
  rw [field_setVehicle f,h]
  split_ifs with hv
  · rw [hv]
  · rfl

structure SameSeats (w w' : World V U) : Prop where
  seats : ∀ v, (w'.vehicle v).seats = (w.vehicle v).seats
  usable : ∀ v, (w'.vehicle v).usableSeatNum = (w.vehicle v).usableSeatNum
  vehicleOf : w'.vehicleOf = w.vehicleOf
  auras : w'.auras = w.auras

omit [DecidableEq V] in
/-- Where only events change, only what the invariant says of events has to be shown again. -/
theorem Inv.sameSeats {hole' : Option EventId} (h : Inv hole w) (hs : SameSeats w w')
    (hpending : ∀ v e, e ∈ (w'.vehicle v).pendingJoinEvents → ∃ event s seat,
      w'.events e = some event ∧ event.ended = false ∧ event.target = some v ∧
      event.seat = some s ∧ (w.vehicle v).seats.find? s = some seat ∧
      (seat.passenger = none ∨ some e = hole') ∧ w.vehicleOf event.passenger ≠ some v)
    (hnodup : ∀ v, (w'.vehicle v).pendingJoinEvents.Nodup)
    (hlive : ∀ e event, w'.events e = some event → event.ended = false → event.toAbort = false →
      ∃ v, event.target = some v ∧ e ∈ (w'.vehicle v).pendingJoinEvents)
    (hfresh : ∀ e, w'.nextEvent ≤ e → w'.events e = none) : Inv hole' w' where
  usable := fun v => by
    rw [hs.usable,Vehicle.freeSeats,hs.seats]
    exact h.usable v
  few := fun v => by rw [hs.seats]; exact h.few v
  seated := by simp only [hs.seats,hs.vehicleOf]; exact h.seated
  one := by simp only [hs.seats]; exact h.one
  riding := by simp only [hs.seats,hs.vehicleOf]; exact h.riding
  aura := by rw [hs.vehicleOf,hs.auras]; exact h.aura
  single := by rw [hs.auras]; exact h.single
  pending := by simpa only [hs.seats,hs.vehicleOf] using hpending
  nodup := hnodup
  live := hlive
  fresh := hfresh

/-! The pending events that are chosen go; seats and units stay as they are. -/

section RemovePending

variable {chosen : VehicleJoinEvent V U → Bool}

theorem sameSeats_removePendingEvents : SameSeats w (removePendingEvents chosen v w) where
  seats := field_setVehicle_of_eq (·.seats) rfl
  usable := field_setVehicle_of_eq (·.usableSeatNum) rfl
  vehicleOf := rfl
  auras := rfl

@[simp] theorem seats_removePendingEvents (v' : V) :
    ((removePendingEvents chosen v w).vehicle v').seats = (w.vehicle v').seats :=
  sameSeats_removePendingEvents.seats v'

theorem pending_removePendingEvents (v' : V) :
    ((removePendingEvents chosen v w).vehicle v').pendingJoinEvents =
      if v' = v then (w.vehicle v).pendingJoinEvents.filter fun e => !(w.events e).any chosen
      else (w.vehicle v').pendingJoinEvents :=
  field_setVehicle (·.pendingJoinEvents) _ v'

theorem events_removePendingEvents {e : EventId} {event' : VehicleJoinEvent V U}
    (h : (removePendingEvents chosen v w).events e = some event') :
    ∃ event, w.events e = some event ∧ (event' = event ∨
      event' = { event with toAbort := true } ∧ e ∈ (w.vehicle v).pendingJoinEvents) ∧
      (e ∈ (w.vehicle v).pendingJoinEvents → chosen event → event'.toAbort = true) := by
  simp only [removePendingEvents] at h
  split_ifs at h with hchosen
  · obtain ⟨event,he,rfl⟩ := Option.map_eq_some_iff.mp h
    exact ⟨event,he,.inr ⟨rfl,hchosen.1⟩,fun _ _ => rfl⟩
  · refine ⟨event',h,.inl rfl,fun hmem hevent => absurd ⟨hmem,?_⟩ hchosen⟩
    rw [h]
    exact hevent

theorem left_removePendingEvents : Left w (removePendingEvents chosen v w) where
  seats := by
    intro v' s seat hs
    rw [seats_removePendingEvents] at hs
    exact ⟨seat,hs,.inl rfl⟩
  kept := by
    intro v' s seat hs
    rw [seats_removePendingEvents]
    exact ⟨seat,hs⟩
  events := by
    intro e event' he
    obtain ⟨event,he,hsame,-⟩ := events_removePendingEvents he
    refine ⟨event,he,?_⟩
    rcases hsame with rfl | ⟨rfl,-⟩
    · exact ⟨rfl,rfl⟩
    · exact ⟨rfl,rfl⟩
  vehicleOf := fun _ h => h

theorem inv_removePendingEvents (chosen : VehicleJoinEvent V U → Bool) (v : V) (h : Inv hole w) :
    Inv hole (removePendingEvents chosen v w) := by
  apply h.sameSeats sameSeats_removePendingEvents
  case hpending =>
    intro v' e he
    rw [pending_removePendingEvents] at he
    have hmem : e ∈ (w.vehicle v').pendingJoinEvents := by
      split_ifs at he with hv
      · rw [hv]
        exact (List.mem_filter.mp he).1
      · exact he
    obtain ⟨event,s,seat,hevent,hended,htarget,hseat,hfind,hempty,hoff⟩ := h.pending v' e hmem
    have hkept : (removePendingEvents chosen v w).events e = some event := by
      simp only [removePendingEvents]
      rw [← hevent]
      refine if_neg fun hchosen => ?_
      -- the events of one vehicle are not those of another
      by_cases hv : v' = v
      · rw [if_pos hv] at he
        have hnot := (List.mem_filter.mp he).2
        simp [hchosen.2] at hnot
      · obtain ⟨event',-,-,hevent',-,htarget',-⟩ := h.pending v e hchosen.1
        obtain rfl := Option.some.inj (hevent.symm.trans hevent')
        exact hv (Option.some.inj (htarget.symm.trans htarget'))
    exact ⟨event,s,seat,hkept,hended,htarget,hseat,hfind,hempty,hoff⟩
  case hnodup =>
    intro v'
    rw [pending_removePendingEvents]
    split_ifs
    · exact (h.nodup v).filter _
    · exact h.nodup v'
  case hlive =>
    intro e event' he hended habort
    obtain ⟨event,hevent,hsame,hchosen⟩ := events_removePendingEvents he
    rcases hsame with rfl | ⟨rfl,-⟩
    · obtain ⟨v',htarget,hmem⟩ := h.live e event' hevent hended habort
      refine ⟨v',htarget,?_⟩
      rw [pending_removePendingEvents]
      split_ifs with hv
      · subst hv
        refine List.mem_filter.mpr ⟨hmem,?_⟩
        rw [hevent]
        by_contra hnot
        have hyes : chosen event' = true := by simpa using hnot
        rw [hchosen hmem hyes] at habort
        cases habort
      · exact hmem
    · cases habort
  case hfresh =>
    intro e he
    have hnone := h.fresh e he
    simp [removePendingEvents,hnone]

end RemovePending

/-! A seat is written, with the counter, and the vehicle of a unit. -/

section WriteSeat

variable [DecidableEq U] {s : Int} {seat seat' : VehicleSeat U} {n : Nat} {o : Option V}

def writeSeat (v : V) (s : Int) (seat : VehicleSeat U) (n : Nat) (u : U) (o : Option V)
    (w : World V U) : World V U :=
  { w.setVehicle v { w.vehicle v with
      seats := (w.vehicle v).seats.insert s seat
      usableSeatNum := n } with
    vehicleOf := Function.update w.vehicleOf u o }

theorem vehicleOf_writeSeat (q : U) :
    (writeSeat v s seat' n u o w).vehicleOf q = if q = u then o else w.vehicleOf q := by
  by_cases hq : q = u <;> simp [writeSeat,hq]

theorem find_writeSeat (v' : V) (s' : Int) :
    ((writeSeat v s seat' n u o w).vehicle v').seats.find? s' =
      if v' = v ∧ s' = s then some seat' else (w.vehicle v').seats.find? s' := by
  by_cases hv : v' = v
  · subst hv
    simp [writeSeat,World.setVehicle,OrderedMap.find?_insert]
  · simp [writeSeat,World.setVehicle,hv]

@[simp] theorem pending_writeSeat (v' : V) :
    ((writeSeat v s seat' n u o w).vehicle v').pendingJoinEvents =
      (w.vehicle v').pendingJoinEvents :=
  field_setVehicle_of_eq (·.pendingJoinEvents) (by rfl) v'

theorem size_writeSeat (hs : (w.vehicle v).seats.find? s = some seat) (v' : V) :
    ((writeSeat v s seat' n u o w).vehicle v').seats.size = (w.vehicle v').seats.size :=
  field_setVehicle_of_eq (·.seats.size)
    (OrderedMap.size_insert_of_mem (OrderedMap.mem_keys.mpr ⟨seat,hs⟩)) v'

theorem usable_writeSeat (husable : ∀ v, (w.vehicle v).usableSeatNum = (w.vehicle v).freeSeats)
    (hs : (w.vehicle v).seats.find? s = some seat)
    (hn : n+(if seat.free then 1 else 0) =
      (w.vehicle v).usableSeatNum+if seat'.free then 1 else 0) (v' : V) :
    ((writeSeat v s seat' n u o w).vehicle v').usableSeatNum =
      ((writeSeat v s seat' n u o w).vehicle v').freeSeats := by
  by_cases hv : v' = v
  · subst hv
    have hcount := OrderedMap.countP_insert (m := (w.vehicle v').seats) (k := s) (v := seat')
      VehicleSeat.free
    have hold := husable v'
    rw [hs,Option.elim_some] at hcount
    unfold Vehicle.freeSeats at *
    simp only [writeSeat,World.setVehicle,Function.update_self]
    omega
  · simpa [writeSeat,World.setVehicle,hv] using husable v'

end WriteSeat

section RemovePassenger

variable [DecidableEq U]

omit [DecidableEq V] in
theorem exists_getSeatIterator (h : Inv hole w) (hu : w.vehicleOf u = some v) :
    ∃ s seat, (w.vehicle v).getSeatIteratorForPassenger u = some (s,seat) ∧
      (w.vehicle v).seats.find? s = some seat ∧ seat.passenger = some u := by
  obtain ⟨s,seat,hs,hpassenger⟩ := h.riding u v hu
  cases hfind : (w.vehicle v).getSeatIteratorForPassenger u with
  | none =>
    have hnot := List.find?_eq_none.mp hfind (s,seat) (OrderedMap.mem_entries.mpr hs)
    simp [hpassenger] at hnot
  | some entry =>
    obtain ⟨s',seat'⟩ := entry
    have hmem := OrderedMap.mem_entries.mp (List.mem_of_find?_eq_some hfind)
    have hyes := List.find?_some hfind
    exact ⟨s',seat',rfl,hmem,by simpa using hyes⟩

omit [DecidableEq V] [DecidableEq U] in
theorem freeSeats_lt (h : Inv hole w) (v : V) : (w.vehicle v).freeSeats+1 < 2^32 := by
  have hle : (w.vehicle v).freeSeats ≤ (w.vehicle v).seats.size := by
    unfold Vehicle.freeSeats
    refine List.countP_le_length.trans ?_
    simp [OrderedMap.values,OrderedMap.size]
  have hfew := h.few v
  unfold maxVehicleSeats at hfew
  omega

theorem inv_vacated {s : Int} {seat : VehicleSeat U} {n : Nat} (h : Inv hole w)
    (hs : (w.vehicle v).seats.find? s = some seat) (hpassenger : seat.passenger = some u)
    (hn : n = if seat.seatInfo.canEnterOrExit then ((w.vehicle v).usableSeatNum+1) % 2^32
      else (w.vehicle v).usableSeatNum) :
    Inv hole (writeSeat v s { seat with passenger := none } n u none w) := by
  have hold : ∀ v' s' seat' q, ((writeSeat v s { seat with passenger := none } n u none w).vehicle
      v').seats.find? s' = some seat' → seat'.passenger = some q →
      (w.vehicle v').seats.find? s' = some seat' ∧ q ≠ u := by
    intro v' s' seat' q hfind hq
    rw [find_writeSeat] at hfind
    split_ifs at hfind with hat
    · obtain rfl := Option.some.inj hfind
      cases hq
    · refine ⟨hfind,?_⟩
      rintro rfl
      have hv : v' = v := Option.some.inj ((h.seated v' s' seat' q hfind hq).symm.trans
        (h.seated v s seat q hs hpassenger))
      subst hv
      exact hat ⟨rfl,h.one v' s' s seat' seat q hfind hs hq hpassenger⟩
  have hrider : ∀ q v', (writeSeat v s { seat with passenger := none } n u none w).vehicleOf q =
      some v' → q ≠ u ∧ w.vehicleOf q = some v' := by
    intro q v' hq
    rw [vehicleOf_writeSeat] at hq
    split_ifs at hq with hne
    exact ⟨hne,hq⟩
  constructor
  case usable =>
    have hlt := freeSeats_lt h v
    rw [← h.usable v] at hlt
    refine usable_writeSeat h.usable hs ?_
    rw [hn,Nat.mod_eq_of_lt hlt]
    cases hcan : seat.seatInfo.canEnterOrExit <;>
      simp [VehicleSeat.free,VehicleSeat.isEmpty,hpassenger,hcan]
  case few =>
    intro v'
    rw [size_writeSeat hs]
    exact h.few v'
  case seated =>
    intro v' s' seat' q hfind hq
    obtain ⟨hfind,hne⟩ := hold v' s' seat' q hfind hq
    rw [vehicleOf_writeSeat,if_neg hne]
    exact h.seated v' s' seat' q hfind hq
  case one =>
    intro v' s₁ s₂ seat₁ seat₂ q h₁ h₂ hq₁ hq₂
    exact h.one v' s₁ s₂ seat₁ seat₂ q (hold v' s₁ seat₁ q h₁ hq₁).1
      (hold v' s₂ seat₂ q h₂ hq₂).1 hq₁ hq₂
  case riding =>
    intro q v' hq
    obtain ⟨hne,hq⟩ := hrider q v' hq
    obtain ⟨s',seat',hfind,hpassenger'⟩ := h.riding q v' hq
    refine ⟨s',seat',?_,hpassenger'⟩
    rw [find_writeSeat,if_neg]
    · exact hfind
    · rintro ⟨rfl,rfl⟩
      obtain rfl := Option.some.inj (hs.symm.trans hfind)
      exact hne (Option.some.inj (hpassenger'.symm.trans hpassenger))
  case aura => exact fun q v' hq => h.aura q v' (hrider q v' hq).2
  case single => exact h.single
  case pending =>
    intro v' e he
    rw [pending_writeSeat] at he
    obtain ⟨event,s',seat',hevent,hended,htarget,hseat,hfind,hempty,hoff⟩ := h.pending v' e he
    have hoff' : (writeSeat v s { seat with passenger := none } n u none w).vehicleOf
        event.passenger ≠ some v' := fun hon => hoff (hrider _ _ hon).2
    by_cases hat : v' = v ∧ s' = s
    · exact ⟨event,s',_,hevent,hended,htarget,hseat,by rw [find_writeSeat,if_pos hat],.inl rfl,
        hoff'⟩
    · exact ⟨event,s',seat',hevent,hended,htarget,hseat,by rwa [find_writeSeat,if_neg hat],hempty,
        hoff'⟩
  case nodup =>
    intro v'
    rw [pending_writeSeat]
    exact h.nodup v'
  case live =>
    intro e event hevent hended habort
    obtain ⟨v',htarget,hmem⟩ := h.live e event hevent hended habort
    exact ⟨v',htarget,by rwa [pending_writeSeat]⟩
  case fresh => exact h.fresh

theorem removePassenger_spec (h : Inv hole w) (v : V) (u : U) :
    ∃ w', removePassenger v u w = .ok w' ∧ Inv hole w' ∧ Left w w' ∧
      (w.vehicleOf u = some v → w'.vehicleOf u = none) ∧ w'.auras = w.auras := by
  by_cases hu : w.vehicleOf u = some v
  · obtain ⟨s,seat,hiterator,hs,hpassenger⟩ := exists_getSeatIterator h hu
    have hrun : removePassenger v u w = .ok (writeSeat v s { seat with passenger := none }
        (if seat.seatInfo.canEnterOrExit then ((w.vehicle v).usableSeatNum+1) % 2^32
          else (w.vehicle v).usableSeatNum) u none w) := by
      unfold removePassenger
      dsimp only
      rw [if_neg (not_not.mpr hu),hiterator]
      rfl
    refine ⟨_,hrun,inv_vacated h hs hpassenger rfl,?_,
      fun _ => by rw [vehicleOf_writeSeat,if_pos rfl],rfl⟩
    constructor
    case seats =>
      intro v' s' seat' hfind
      rw [find_writeSeat] at hfind
      split_ifs at hfind with hat
      · obtain ⟨rfl,rfl⟩ := hat
        obtain rfl := Option.some.inj hfind
        exact ⟨seat,hs,.inr rfl⟩
      · exact ⟨seat',hfind,.inl rfl⟩
    case kept =>
      intro v' s' seat' hfind
      rw [find_writeSeat]
      split_ifs
      · exact ⟨_,rfl⟩
      · exact ⟨seat',hfind⟩
    case events => exact fun e event he => ⟨event,he,rfl,rfl⟩
    case vehicleOf =>
      intro q hq
      rw [vehicleOf_writeSeat,hq,ite_self]
  · exact ⟨w,if_pos hu,h,.refl w,fun hon => absurd hon hu,rfl⟩

theorem leaveVehicle_spec (h : Inv hole w) (u : U) :
    ∃ w', leaveVehicle u w = .ok w' ∧ Inv hole w' ∧ Left w w' ∧ w'.vehicleOf u = none ∧
      w'.auras = w.auras := by
  unfold leaveVehicle
  cases hu : w.vehicleOf u with
  | none => exact ⟨w,rfl,h,.refl w,hu,rfl⟩
  | some v =>
    obtain ⟨w',hrun,hinv,hleft,hoff,hauras⟩ := removePassenger_spec h v u
    exact ⟨w',hrun,hinv,hleft,hoff hu,hauras⟩

end RemovePassenger

section Auras

variable [DecidableEq U]

theorem leaveVehicle_auras (u : U) (w : World V U) (auras : List (U × V)) :
    leaveVehicle u { w with auras := auras } =
      (leaveVehicle u w).map fun w => { w with auras := auras } := by
  unfold leaveVehicle removePassenger
  dsimp only
  cases w.vehicleOf u with
  | none => rfl
  | some v =>
    dsimp only
    split_ifs
    · rfl
    · split <;> rfl

omit [DecidableEq V] [DecidableEq U] in
theorem Inv.keepAuras {auras : List (U × V)} (h : Inv hole w) (hsub : ∀ a, a ∈ auras → a ∈ w.auras)
    (hriders : ∀ u v, w.vehicleOf u = some v → (u,v) ∈ auras) :
    Inv hole { w with auras := auras } :=
  { h with
    aura := hriders
    single := fun u v v' hv hv' => h.single u v v' (hsub _ hv) (hsub _ hv') }

theorem removeAura_spec (h : Inv hole w) (aura : U × V) :
    ∃ w', removeAura aura w = .ok w' ∧ Inv hole w' ∧ Left w w' ∧ w'.vehicleOf aura.1 = none ∧
      w'.auras = w.auras.filter (· ≠ aura) := by
  obtain ⟨w',hrun,hinv,hleft,hoff,hauras⟩ := leaveVehicle_spec
    (inv_removePendingEvents (fun event => event.passenger = aura.1) aura.2 h) aura.1
  have hall := left_removePendingEvents.trans hleft
  have hkept : Inv hole { w' with auras := w.auras.filter (· ≠ aura) } := by
    refine hinv.keepAuras (fun a ha => ?_) (fun u v hu => ?_)
    · rw [hauras]
      exact (List.mem_filter.mp ha).1
    · have hne : (u,v) ≠ aura := by
        rintro rfl
        rw [hoff] at hu
        cases hu
      refine List.mem_filter.mpr ⟨?_,by simpa using hne⟩
      have haura := hinv.aura u v hu
      rwa [hauras] at haura
  have hremove : removeAura aura w = .ok { w' with auras := w.auras.filter (· ≠ aura) } := by
    unfold removeAura
    rw [show removePendingEventsForPassenger aura.2 aura.1
      { w with auras := w.auras.filter (· ≠ aura) } =
      { removePendingEventsForPassenger aura.2 aura.1 w with
        auras := w.auras.filter (· ≠ aura) } from rfl,leaveVehicle_auras]
    unfold removePendingEventsForPassenger
    rw [hrun]
    rfl
  exact ⟨_,hremove,hkept,⟨hall.seats,hall.kept,hall.events,hall.vehicleOf⟩,hoff,rfl⟩

theorem removeAuras_spec (h : Inv hole w) (auras : List (U × V)) :
    ∃ w', removeAuras auras w = .ok w' ∧ Inv hole w' ∧ Left w w' ∧
      (∀ a ∈ auras, w'.vehicleOf a.1 = none) ∧ w'.auras = w.auras.filter (· ∉ auras) := by
  induction auras generalizing w with
  | nil => exact ⟨w,rfl,h,.refl w,by simp,by simp⟩
  | cons a auras ih =>
    obtain ⟨w₁,hrun₁,hinv₁,hleft₁,hoff₁,hauras₁⟩ := removeAura_spec h a
    obtain ⟨w₂,hrun₂,hinv₂,hleft₂,hoff₂,hauras₂⟩ := ih hinv₁
    refine ⟨w₂,by rw [removeAuras,hrun₁]; exact hrun₂,hinv₂,hleft₁.trans hleft₂,?_,?_⟩
    · intro b hb
      rcases List.mem_cons.mp hb with rfl | hb
      · exact hleft₂.vehicleOf _ hoff₁
      · exact hoff₂ b hb
    · rw [hauras₂,hauras₁,List.filter_filter]
      refine List.filter_congr fun b _ => ?_
      simp [Bool.and_comm]

theorem removeAurasByType_spec (h : Inv hole w) (v : V) (caster : Option U) :
    ∃ w', removeAurasByType v caster w = .ok w' ∧ Inv hole w' ∧ Left w w' ∧
      ∀ u, (u,v) ∈ w.auras → caster = none ∨ caster = some u → w'.vehicleOf u = none := by
  obtain ⟨w',hrun,hinv,hleft,hoff,-⟩ := removeAuras_spec h
    (w.auras.filter fun a => a.2 = v ∧ (caster = none ∨ caster = some a.1))
  refine ⟨w',hrun,hinv,hleft,fun u hu hcaster => hoff (u,v) (List.mem_filter.mpr ⟨hu,?_⟩)⟩
  simpa using hcaster

theorem exitVehicle_spec (h : Inv hole w) (u : U) :
    ∃ w', exitVehicle u w = .ok w' ∧ Inv hole w' ∧ Left w w' ∧ w'.vehicleOf u = none := by
  unfold exitVehicle
  cases hu : w.vehicleOf u with
  | none => exact ⟨w,rfl,h,.refl w,hu⟩
  | some v =>
    obtain ⟨w',hrun,hinv,hleft,hoff⟩ := removeAurasByType_spec h v (some u)
    exact ⟨w',hrun,hinv,hleft,hoff u (h.aura u v hu) (.inr rfl)⟩

end Auras

end Leaving

section Events

variable {hole : Option EventId} {w w' : World V U} {u : U} {v : V} {e : EventId}

/-! No seat passes from one passenger to another. -/

/-- A seat has been taken only where nobody was on it. -/
def Changed (w w' : World V U) : Prop :=
  ∀ v s seat', (w'.vehicle v).seats.find? s = some seat' → ∃ seat,
    (w.vehicle v).seats.find? s = some seat ∧
    (seat'.passenger = seat.passenger ∨ seat'.passenger = none ∨ seat.passenger = none)

omit [DecidableEq V] in
theorem Left.changed (h : Left w w') : Changed w w' := by
  intro v s seat' hs
  obtain ⟨seat,hs,hpassenger⟩ := h.seats v s seat' hs
  exact ⟨seat,hs,hpassenger.imp_right .inl⟩

omit [DecidableEq V] in
theorem Changed.of_seats (h : ∀ v, (w'.vehicle v).seats = (w.vehicle v).seats) : Changed w w' := by
  intro v s seat' hs
  rw [h] at hs
  exact ⟨seat',hs,.inl rfl⟩

omit [DecidableEq V] in
theorem Changed.congr {w₁ w₂ : World V U} (h : Changed w w₁)
    (h₀ : ∀ v, (w.vehicle v).seats = (w₂.vehicle v).seats)
    (h₁ : ∀ v, (w'.vehicle v).seats = (w₁.vehicle v).seats) : Changed w₂ w' := by
  intro v s seat' hs
  rw [h₁] at hs
  rw [← h₀]
  exact h v s seat' hs

omit [DecidableEq V] in
theorem inv_insertAura (h : Inv none w) (hgone : ∀ v', (u,v') ∉ w.auras) (v : V) :
    Inv none { w with auras := w.auras ++ [(u,v)] } :=
  { h with
    aura := fun q v' hq => List.mem_append_left _ (h.aura q v' hq)
    single := by
      intro q v₁ v₂ h₁ h₂
      rcases List.mem_append.mp h₁ with hold₁ | hnew₁ <;>
        rcases List.mem_append.mp h₂ with hold₂ | hnew₂
      · exact h.single q v₁ v₂ hold₁ hold₂
      · obtain ⟨rfl,-⟩ := Prod.mk.inj (List.mem_singleton.mp hnew₂)
        exact (hgone v₁ hold₁).elim
      · obtain ⟨rfl,-⟩ := Prod.mk.inj (List.mem_singleton.mp hnew₁)
        exact (hgone v₂ hold₂).elim
      · obtain ⟨-,rfl⟩ := Prod.mk.inj (List.mem_singleton.mp hnew₁)
        exact (Prod.mk.inj (List.mem_singleton.mp hnew₂)).2.symm }

theorem addAura_spec [DecidableEq U] (h : Inv none w) (u : U) (v : V) :
    ∃ w', addAura u v w = .ok w' ∧ Inv none w' ∧ Changed w w' := by
  obtain ⟨w',hrun,hinv,hleft,-,hauras⟩ := removeAuras_spec h (w.auras.filter fun a => a.1 = u)
  have hgone : ∀ v', (u,v') ∉ w'.auras := by
    intro v' hmem
    rw [hauras] at hmem
    obtain ⟨hmem,hnot⟩ := List.mem_filter.mp hmem
    simp [hmem] at hnot
  refine ⟨_,by unfold addAura; rw [hrun]; rfl,inv_insertAura hinv hgone v,?_⟩
  exact hleft.changed.congr (fun _ => rfl) fun _ => rfl

omit [DecidableEq V] in
theorem inv_failEvent (h : Inv none w) (v : V) (u : U) : Inv none (failEvent v u w) := by
  refine h.sameSeats ⟨fun _ => rfl,fun _ => rfl,rfl,rfl⟩ ?hpending h.nodup ?hlive ?hfresh
  case hpending =>
    intro v' e he
    obtain ⟨event,s,seat,hevent,hrest⟩ := h.pending v' e he
    have hne : e ≠ w.nextEvent := by
      rintro rfl
      rw [h.fresh _ le_rfl] at hevent
      cases hevent
    refine ⟨event,s,seat,?_,hrest⟩
    rw [← hevent]
    exact Function.update_of_ne hne ..
  case hlive =>
    intro e event hevent hended habort
    by_cases he : e = w.nextEvent
    · subst he
      simp only [failEvent,World.setEvent,Function.update_self,Option.some.injEq] at hevent
      subst hevent
      cases habort
    · simp only [failEvent,World.setEvent,Function.update_of_ne he] at hevent
      exact h.live e event hevent hended habort
  case hfresh =>
    intro e he
    have hlt : w.nextEvent < e := he
    simp only [failEvent,World.setEvent,Function.update_of_ne hlt.ne']
    exact h.fresh e hlt.le

/-! An event is pushed for a seat. -/

section Push

variable {s : Int} {seat : VehicleSeat U}

theorem sameSeats_pushEvent : SameSeats w (pushEvent v u s w) where
  seats := field_setVehicle_of_eq (w := w.setEvent ..) (·.seats) rfl
  usable := field_setVehicle_of_eq (w := w.setEvent ..) (·.usableSeatNum) rfl
  vehicleOf := rfl
  auras := rfl

@[simp] theorem seats_pushEvent (v' : V) :
    ((pushEvent v u s w).vehicle v').seats = (w.vehicle v').seats :=
  sameSeats_pushEvent.seats v'

theorem pending_pushEvent (v' : V) : ((pushEvent v u s w).vehicle v').pendingJoinEvents =
    if v' = v then (w.vehicle v).pendingJoinEvents ++ [w.nextEvent]
    else (w.vehicle v').pendingJoinEvents :=
  field_setVehicle (w := w.setEvent ..) (·.pendingJoinEvents) _ v'

theorem events_pushEvent (e : EventId) : (pushEvent v u s w).events e =
    if e = w.nextEvent then some ⟨some v,u,some s,false,false⟩ else w.events e := by
  by_cases he : e = w.nextEvent <;> simp [pushEvent,World.setVehicle,World.setEvent,he]

theorem inv_pushEvent (h : Inv none w) (hs : (w.vehicle v).seats.find? s = some seat)
    (hempty : seat.passenger = none ∨ some w.nextEvent = hole) (hoff : w.vehicleOf u ≠ some v) :
    Inv hole (pushEvent v u s w) := by
  have hold : ∀ v' e, e ∈ (w.vehicle v').pendingJoinEvents → e ≠ w.nextEvent := by
    rintro v' e he rfl
    obtain ⟨event,-,-,hevent,-⟩ := h.pending v' _ he
    rw [h.fresh _ le_rfl] at hevent
    cases hevent
  apply h.sameSeats sameSeats_pushEvent
  case hpending =>
    intro v' e he
    have hcases : e ∈ (w.vehicle v').pendingJoinEvents ∨ v' = v ∧ e = w.nextEvent := by
      rw [pending_pushEvent] at he
      split_ifs at he with hv
      · subst hv
        simpa using he
      · exact .inl he
    rcases hcases with hmem | ⟨rfl,rfl⟩
    · obtain ⟨event,s',seat',hevent,hended,htarget,hseat,hfind,hempty',hoff'⟩ := h.pending v' e hmem
      refine ⟨event,s',seat',?_,hended,htarget,hseat,hfind,?_,hoff'⟩
      · rwa [events_pushEvent,if_neg (hold v' e hmem)]
      · exact hempty'.imp_right fun hnone => by cases hnone
    · exact ⟨⟨some v',u,some s,false,false⟩,s,seat,by rw [events_pushEvent,if_pos rfl],rfl,rfl,rfl,
        hs,hempty,hoff⟩
  case hnodup =>
    intro v'
    rw [pending_pushEvent]
    split_ifs
    · refine List.Nodup.append (h.nodup v) (List.nodup_singleton _) ?_
      exact List.disjoint_singleton.mpr fun he => hold v _ he rfl
    · exact h.nodup v'
  case hlive =>
    intro e event hevent hended habort
    rw [events_pushEvent] at hevent
    split_ifs at hevent with he
    · obtain rfl := Option.some.inj hevent
      refine ⟨v,rfl,?_⟩
      rw [pending_pushEvent,if_pos rfl,he]
      simp
    · obtain ⟨v',htarget,hmem⟩ := h.live e event hevent hended habort
      refine ⟨v',htarget,?_⟩
      rw [pending_pushEvent]
      split_ifs with hv
      · subst hv
        exact List.mem_append_left _ hmem
      · exact hmem
  case hfresh =>
    intro e he
    have hlt : w.nextEvent < e := he
    rw [events_pushEvent,if_neg hlt.ne']
    exact h.fresh e hlt.le

omit [DecidableEq V] in
theorem Inv.close {w₀ : World V U} (h : Inv (some e) w) (hleft : Left w₀ w)
    {event : VehicleJoinEvent V U} (hevent : w₀.events e = some event)
    (htarget : event.target = some v) (hseat : event.seat = some s)
    (hfind : (w.vehicle v).seats.find? s = some seat) (hempty : seat.passenger = none) :
    Inv none w :=
  { h with
    pending := by
      intro v' e' he'
      obtain ⟨event',s',seat',hevent',hended',htarget',hseat',hfind',hempty',hoff'⟩ :=
        h.pending v' e' he'
      refine ⟨event',s',seat',hevent',hended',htarget',hseat',hfind',.inl ?_,hoff'⟩
      rcases hempty' with hempty' | hhole
      · exact hempty'
      · obtain rfl := Option.some.inj hhole
        obtain ⟨event₀,hevent₀,hs₀,ht₀⟩ := hleft.events e' event' hevent'
        obtain rfl := Option.some.inj (hevent.symm.trans hevent₀)
        obtain rfl : v = v' := Option.some.inj (htarget.symm.trans (ht₀.symm.trans htarget'))
        obtain rfl : s = s' := Option.some.inj (hseat.symm.trans (hs₀.symm.trans hseat'))
        obtain rfl := Option.some.inj (hfind.symm.trans hfind')
        exact hempty }

end Push

omit [DecidableEq V] in
theorem Inv.passenger_ne {s : Int} {seat : VehicleSeat U} (h : Inv hole w)
    (hs : (w.vehicle v).seats.find? s = some seat) (hu : w.vehicleOf u = none) :
    seat.passenger ≠ some u := by
  intro hpassenger
  rw [h.seated v s seat u hs hpassenger] at hu
  cases hu

theorem addPassenger_spec [DecidableEq U] (h : Inv none w) (hu : w.vehicleOf u = none) (v : V) (s : Int) :
    ∃ w', addPassenger v u s w = .ok w' ∧ Inv none w' ∧ Changed w w' := by
  have hoff : w.vehicleOf u ≠ some v := by simp [hu]
  have hfailed : ∃ w', Except.ok (ε := Fault) (failEvent v u w) = .ok w' ∧ Inv none w' ∧
      Changed w w' :=
    ⟨_,rfl,inv_failEvent h v u,.of_seats fun _ => rfl⟩
  unfold addPassenger
  dsimp only
  by_cases huninstalling : (w.vehicle v).uninstalling = true
  · rw [if_pos huninstalling]
    exact ⟨w,rfl,h,.of_seats fun _ => rfl⟩
  rw [if_neg huninstalling]
  by_cases hnegative : s < 0
  · rw [if_pos hnegative]
    cases hfirst : (w.vehicle v).firstEmptySeat with
    | none => exact hfailed
    | some entry =>
      obtain ⟨s',seat⟩ := entry
      have hfind := OrderedMap.mem_entries.mp (List.mem_of_find?_eq_some hfirst)
      have hempty : seat.passenger = none := by
        have hyes := List.find?_some hfirst
        simp only [VehicleSeat.isEmpty,Bool.and_eq_true,Option.isNone_iff_eq_none] at hyes
        exact hyes.1
      exact ⟨_,rfl,inv_pushEvent h hfind (.inl hempty) hoff,.of_seats fun v' => seats_pushEvent v'⟩
  rw [if_neg hnegative]
  cases hfind : (w.vehicle v).seats.find? s with
  | none => exact hfailed
  | some seat =>
    dsimp only
    have hpushed : Inv (some w.nextEvent) (pushEvent v u s w) :=
      inv_pushEvent h hfind (.inr rfl) hoff
    cases hpassenger : seat.passenger with
    | none =>
      refine ⟨pushEvent v u s w,?_,inv_pushEvent h hfind (.inl hpassenger) hoff,
        .of_seats fun v' => seats_pushEvent v'⟩
      simp [Except.bind,hfind,VehicleSeat.isEmpty,hpassenger]
    | some p =>
      obtain ⟨w',hrun,hinv,hleft,hgone⟩ := exitVehicle_spec hpushed p
      obtain ⟨seat',hfind'⟩ := hleft.kept v s seat (by rwa [seats_pushEvent])
      have hempty : seat'.passenger = none := by
        obtain ⟨seat₀,hfind₀,hsame | hnone⟩ := hleft.seats v s seat' hfind'
        · rw [seats_pushEvent] at hfind₀
          obtain rfl := Option.some.inj (hfind.symm.trans hfind₀)
          exact absurd (hsame.trans hpassenger) (hinv.passenger_ne hfind' hgone)
        · exact hnone
      refine ⟨w',?_,hinv.close hleft (v := v) (s := s) (by rw [events_pushEvent,if_pos rfl]) rfl rfl
        hfind' hempty,hleft.changed.congr (fun v' => seats_pushEvent v') fun _ => rfl⟩
      simp [hrun,Except.bind,hfind',VehicleSeat.isEmpty,hempty]

theorem enterVehicle_spec [DecidableEq U] (h : Inv none w) (v : V) (u : U) (s : Int) :
    (∃ w', enterVehicle v u s w = .ok w' ∧ Inv none w' ∧ Changed w w') ∨
      enterVehicle v u s w = .error .onVehicle := by
  unfold enterVehicle
  by_cases hu : w.vehicleOf u = none
  · rw [if_neg (not_not.mpr hu)]
    exact .inl (addPassenger_spec h hu v s)
  · exact .inr (if_pos hu)

/-! Everybody leaves. -/

theorem sameSeats_setStatus (status : Bool) :
    SameSeats w (w.setVehicle v { w.vehicle v with uninstalling := status }) where
  seats := field_setVehicle_of_eq (·.seats) rfl
  usable := field_setVehicle_of_eq (·.usableSeatNum) rfl
  vehicleOf := rfl
  auras := rfl

theorem inv_setStatus (h : Inv none w) (v : V) (status : Bool) :
    Inv none (w.setVehicle v { w.vehicle v with uninstalling := status }) := by
  have hpending : ∀ v', ((w.setVehicle v { w.vehicle v with uninstalling := status }).vehicle
      v').pendingJoinEvents = (w.vehicle v').pendingJoinEvents :=
    field_setVehicle_of_eq (·.pendingJoinEvents) rfl
  refine h.sameSeats (sameSeats_setStatus status) ?_ ?_ ?_ h.fresh
  · simp only [hpending]
    exact h.pending
  · simp only [hpending]
    exact h.nodup
  · simp only [hpending]
    exact h.live

/-- The state in which the auras are removed: no event is pending, and all have lost their
vehicle if that is uninstalled. -/
def abandon (v : V) (target : Option V) (w : World V U) : World V U :=
  { w.setVehicle v { w.vehicle v with pendingJoinEvents := [] } with
    events := fun e =>
      if e ∈ (w.vehicle v).pendingJoinEvents then
        (w.events e).map fun event => { event with toAbort := true,target := target }
      else w.events e }

theorem sameSeats_abandon (target : Option V) : SameSeats w (abandon v target w) where
  seats := field_setVehicle_of_eq (·.seats) rfl
  usable := field_setVehicle_of_eq (·.usableSeatNum) rfl
  vehicleOf := rfl
  auras := rfl

theorem pending_abandon (target : Option V) (v' : V) :
    ((abandon v target w).vehicle v').pendingJoinEvents =
      if v' = v then [] else (w.vehicle v').pendingJoinEvents :=
  field_setVehicle (·.pendingJoinEvents) _ v'

theorem inv_abandon (h : Inv none w) (v : V) (target : Option V) :
    Inv none (abandon v target w) := by
  have hevents : ∀ e, e ∉ (w.vehicle v).pendingJoinEvents →
      (abandon v target w).events e = w.events e := fun e he => if_neg he
  apply h.sameSeats (sameSeats_abandon target)
  case hpending =>
    intro v' e he
    rw [pending_abandon] at he
    split_ifs at he with hv
    · cases he
    · obtain ⟨event,s,seat,hevent,hended,htarget,hseat,hfind,hempty,hoff⟩ := h.pending v' e he
      refine ⟨event,s,seat,?_,hended,htarget,hseat,hfind,hempty,hoff⟩
      rw [hevents,hevent]
      intro hmem
      obtain ⟨event',-,-,hevent',-,htarget',-⟩ := h.pending v e hmem
      obtain rfl := Option.some.inj (hevent.symm.trans hevent')
      exact hv (Option.some.inj (htarget.symm.trans htarget'))
  case hnodup =>
    intro v'
    rw [pending_abandon]
    split_ifs
    · exact List.nodup_nil
    · exact h.nodup v'
  case hlive =>
    intro e event hevent hended habort
    by_cases hmem : e ∈ (w.vehicle v).pendingJoinEvents
    · simp only [abandon,if_pos hmem] at hevent
      obtain ⟨event',-,rfl⟩ := Option.map_eq_some_iff.mp hevent
      cases habort
    · rw [hevents e hmem] at hevent
      obtain ⟨v',htarget,hpending⟩ := h.live e event hevent hended habort
      refine ⟨v',htarget,?_⟩
      rw [pending_abandon,if_neg]
      · exact hpending
      · rintro rfl
        exact hmem hpending
  case hfresh =>
    intro e he
    simp [abandon,h.fresh e he]

theorem removeAllPassengers_spec [DecidableEq U] (h : Inv none w) (v : V) :
    ∃ w', removeAllPassengers v w = .ok w' ∧ Inv none w' ∧ Changed w w' := by
  obtain ⟨w',hrun,hinv,hleft,-⟩ := removeAurasByType_spec
    (inv_abandon h v (if (w.vehicle v).uninstalling then none else some v)) v none
  exact ⟨w',hrun,hinv,hleft.changed.congr (sameSeats_abandon _).seats fun _ => rfl⟩

theorem uninstall_spec [DecidableEq U] (h : Inv none w) (v : V) :
    ∃ w', uninstall v w = .ok w' ∧ Inv none w' ∧ Changed w w' := by
  obtain ⟨w',hrun,hinv,hchanged⟩ := removeAllPassengers_spec (inv_setStatus h v true) v
  exact ⟨w',hrun,hinv,hchanged.congr (sameSeats_setStatus true).seats fun _ => rfl⟩

/-! An event is due, or its unit goes. -/

omit [DecidableEq V] in
theorem abort_event {event : VehicleJoinEvent V U} (h : Inv none w)
    (hevent : w.events e = some event) :
    Inv none (w.setEvent e { event with toAbort := true }) := by
  refine h.sameSeats ⟨fun _ => rfl,fun _ => rfl,rfl,rfl⟩ ?hpending h.nodup ?hlive ?hfresh
  case hpending =>
    intro v e' he'
    obtain ⟨event',s,seat,hevent',hrest⟩ := h.pending v e' he'
    by_cases he : e' = e
    · subst he
      obtain rfl := Option.some.inj (hevent.symm.trans hevent')
      exact ⟨_,s,seat,Function.update_self ..,hrest⟩
    · exact ⟨event',s,seat,(Function.update_of_ne he ..).trans hevent',hrest⟩
  case hlive =>
    intro e' event' hevent' hended habort
    by_cases he : e' = e
    · subst he
      simp only [World.setEvent,Function.update_self,Option.some.injEq] at hevent'
      subst hevent'
      cases habort
    · simp only [World.setEvent,Function.update_of_ne he] at hevent'
      exact h.live e' event' hevent' hended habort
  case hfresh =>
    intro e' he'
    have hne : e' ≠ e := by
      rintro rfl
      rw [h.fresh e' he'] at hevent
      cases hevent
    simp only [World.setEvent,Function.update_of_ne hne]
    exact h.fresh e' he'

theorem abort_spec [DecidableEq U] (h : Inv none w) (event : VehicleJoinEvent V U) :
    ∃ w', abort event w = .ok w' ∧ Inv none w' ∧ Changed w w' := by
  unfold abort
  cases event.target with
  | none => exact ⟨w,rfl,h,.of_seats fun _ => rfl⟩
  | some v =>
    obtain ⟨w',hrun,hinv,hleft,-⟩ := removeAurasByType_spec h v (some event.passenger)
    exact ⟨w',hrun,hinv,hleft.changed⟩

theorem mem_pending_removePendingEvents {chosen : VehicleJoinEvent V U → Bool} {v' : V}
    (he : e ∈ ((removePendingEvents chosen v w).vehicle v').pendingJoinEvents) :
    e ∈ (w.vehicle v').pendingJoinEvents ∧ (v' = v → ∀ event,
      (removePendingEvents chosen v w).events e = some event →
      w.events e = some event ∧ chosen event = false) := by
  rw [pending_removePendingEvents] at he
  split_ifs at he with hv
  · subst hv
    obtain ⟨hmem,hnot⟩ := List.mem_filter.mp he
    refine ⟨hmem,fun _ event hevent => ?_⟩
    have hsame : (removePendingEvents chosen v' w).events e = w.events e :=
      if_neg fun hchosen => by simp [hchosen.2] at hnot
    rw [hsame] at hevent
    refine ⟨hevent,?_⟩
    simpa [hevent] using hnot
  · exact ⟨he,fun hv' => absurd hv' hv⟩

theorem inv_boarded [DecidableEq U] {s : Int} {seat : VehicleSeat U} (h : Inv none w)
    (hs : (w.vehicle v).seats.find? s = some seat) (hempty : seat.passenger = none)
    (hu : w.vehicleOf u = none) (haura : (u,v) ∈ w.auras)
    (hothers : ∀ e event, e ∈ (w.vehicle v).pendingJoinEvents → w.events e = some event →
      event.seat ≠ some s ∧ event.passenger ≠ u)
    (hnum : seat.seatInfo.canEnterOrExit → (w.vehicle v).usableSeatNum ≠ 0) :
    Inv none (writeSeat v s { seat with passenger := some u }
      (if seat.seatInfo.canEnterOrExit then (w.vehicle v).usableSeatNum-1
        else (w.vehicle v).usableSeatNum) u (some v) w) := by
  constructor
  case usable =>
    refine usable_writeSeat h.usable hs ?_
    cases hcan : seat.seatInfo.canEnterOrExit
    · simp [VehicleSeat.free,hcan]
    · have hpositive := hnum hcan
      simp only [VehicleSeat.free,VehicleSeat.isEmpty,hempty,hcan]
      simp
      omega
  case few =>
    intro v'
    rw [size_writeSeat hs]
    exact h.few v'
  case seated =>
    intro v' s' seat' q hfind hq
    rw [find_writeSeat] at hfind
    rw [vehicleOf_writeSeat]
    split_ifs at hfind with hat
    · obtain rfl := Option.some.inj hfind
      rw [if_pos (Option.some.inj hq).symm,hat.1]
    · rw [if_neg]
      · exact h.seated v' s' seat' q hfind hq
      · rintro rfl
        exact h.passenger_ne hfind hu hq
  case one =>
    intro v' s₁ s₂ seat₁ seat₂ q h₁ h₂ hq₁ hq₂
    rw [find_writeSeat] at h₁ h₂
    split_ifs at h₁ h₂ with hat₁ hat₂ hat₂
    · exact hat₁.2.trans hat₂.2.symm
    · obtain rfl := Option.some.inj h₁
      obtain rfl := Option.some.inj hq₁
      exact absurd hq₂ (h.passenger_ne h₂ hu)
    · obtain rfl := Option.some.inj h₂
      obtain rfl := Option.some.inj hq₂
      exact absurd hq₁ (h.passenger_ne h₁ hu)
    · exact h.one v' s₁ s₂ seat₁ seat₂ q h₁ h₂ hq₁ hq₂
  case riding =>
    intro q v' hq
    rw [vehicleOf_writeSeat] at hq
    split_ifs at hq with hqu
    · obtain rfl := Option.some.inj hq
      exact ⟨s,_,by rw [find_writeSeat,if_pos ⟨rfl,rfl⟩],congrArg some hqu.symm⟩
    · obtain ⟨s',seat',hfind,hpassenger⟩ := h.riding q v' hq
      refine ⟨s',seat',?_,hpassenger⟩
      rw [find_writeSeat,if_neg]
      · exact hfind
      · rintro ⟨rfl,rfl⟩
        obtain rfl := Option.some.inj (hs.symm.trans hfind)
        rw [hempty] at hpassenger
        cases hpassenger
  case aura =>
    intro q v' hq
    rw [vehicleOf_writeSeat] at hq
    split_ifs at hq with hqu
    · obtain rfl := Option.some.inj hq
      rwa [hqu]
    · exact h.aura q v' hq
  case single => exact h.single
  case pending =>
    intro v' e he
    rw [pending_writeSeat] at he
    obtain ⟨event,s',seat',hevent,hended,htarget,hseat,hfind,hempty',hoff⟩ := h.pending v' e he
    refine ⟨event,s',seat',hevent,hended,htarget,hseat,?_,hempty',?_⟩
    · rw [find_writeSeat,if_neg]
      · exact hfind
      · rintro ⟨rfl,rfl⟩
        exact (hothers e event he hevent).1 hseat
    · rw [vehicleOf_writeSeat]
      split_ifs with hpassenger
      · intro hv
        obtain rfl := Option.some.inj hv
        exact (hothers e event he hevent).2 hpassenger
      · exact hoff
  case nodup =>
    intro v'
    rw [pending_writeSeat]
    exact h.nodup v'
  case live =>
    intro e event hevent hended habort
    obtain ⟨v',htarget,hmem⟩ := h.live e event hevent hended habort
    exact ⟨v',htarget,by rwa [pending_writeSeat]⟩
  case fresh => exact h.fresh

omit [DecidableEq V] in
theorem usableSeatNum_ne_zero {s : Int} {seat : VehicleSeat U} (h : Inv none w)
    (hs : (w.vehicle v).seats.find? s = some seat) (hempty : seat.passenger = none)
    (hcan : seat.seatInfo.canEnterOrExit = true) : (w.vehicle v).usableSeatNum ≠ 0 := by
  have hpositive : 0 < (w.vehicle v).freeSeats := by
    refine List.countP_pos_iff.mpr ⟨seat,?_,by simp [VehicleSeat.free,VehicleSeat.isEmpty,hempty,hcan]⟩
    exact List.mem_map.mpr ⟨(s,seat),OrderedMap.mem_entries.mpr hs,rfl⟩
  rw [h.usable v]
  omega

/-- Nobody else is about to board the seat, and the unit is not about to board another one. -/
def cleared [DecidableEq U] (v : V) (s : Int) (u : U) (w : World V U) : World V U :=
  removePendingEventsForPassenger v u (removePendingEventsForSeat v s w)

@[simp] theorem seats_cleared [DecidableEq U] {s : Int} (v' : V) :
    ((cleared v s u w).vehicle v').seats = (w.vehicle v').seats := by
  simp [cleared,removePendingEventsForPassenger,removePendingEventsForSeat]

theorem inv_cleared [DecidableEq U] (h : Inv none w) (v : V) (s : Int) (u : U) : Inv none (cleared v s u w) :=
  inv_removePendingEvents _ v (inv_removePendingEvents _ v h)

theorem pending_cleared [DecidableEq U] {s : Int} {event : VehicleJoinEvent V U}
    (he : e ∈ ((cleared v s u w).vehicle v).pendingJoinEvents)
    (hevent : (cleared v s u w).events e = some event) :
    event.seat ≠ some s ∧ event.passenger ≠ u := by
  obtain ⟨he₁,hkept⟩ := mem_pending_removePendingEvents he
  obtain ⟨hevent₁,hpassenger⟩ := hkept rfl event hevent
  obtain ⟨-,hkept₁⟩ := mem_pending_removePendingEvents he₁
  obtain ⟨-,hseat⟩ := hkept₁ rfl event hevent₁
  exact ⟨by simpa using hseat,by simpa using hpassenger⟩

/-- An event that is not to be aborted is executed, as far as its assertions hold. -/
theorem execute_spec [DecidableEq U] {event : VehicleJoinEvent V U} (h : Inv none w)
    (hevent : w.events e = some event) (hended : event.ended = false)
    (habort : event.toAbort = false) :
    (∃ w', execute event w = .ok w' ∧ Inv none w' ∧ Changed w w') ∨
      execute event w = .error .noAura := by
  obtain ⟨v,htarget,hmem⟩ := h.live e event hevent hended habort
  obtain ⟨event',s,seat,hevent',-,-,hseat,hs,hempty | hhole,hoff⟩ := h.pending v e hmem
  swap
  · cases hhole
  obtain rfl := Option.some.inj (hevent.symm.trans hevent')
  unfold execute
  rw [htarget]
  dsimp only
  by_cases haura : (event.passenger,v) ∈ w.auras
  swap
  · exact .inr (if_pos haura)
  have hfree : w.vehicleOf event.passenger = none := by
    cases hon : w.vehicleOf event.passenger with
    | none => rfl
    | some v' =>
      rw [h.single event.passenger v' v (h.aura _ v' hon) haura] at hon
      exact absurd hon hoff
  have hinv := inv_cleared h v s event.passenger
  have hs' : ((cleared v s event.passenger w).vehicle v).seats.find? s = some seat := by
    rwa [seats_cleared]
  have hnum := usableSeatNum_ne_zero hinv hs' hempty
  have hassert : ¬(seat.seatInfo.canEnterOrExit = true ∧
      ((cleared v s event.passenger w).vehicle v).usableSeatNum = 0) :=
    fun hbad => hnum hbad.1 hbad.2
  rw [if_neg (not_not.mpr haura),hseat]
  dsimp only
  rw [show removePendingEventsForPassenger v event.passenger (removePendingEventsForSeat v s w) =
    cleared v s event.passenger w from rfl,hs']
  dsimp only
  rw [if_neg hassert]
  refine .inl ⟨_,rfl,inv_boarded hinv hs' hempty hfree haura (fun _ _ => pending_cleared) hnum,?_⟩
  intro v' s' seat' hfind
  change ((writeSeat ..).vehicle v').seats.find? s' = some seat' at hfind
  rw [find_writeSeat,seats_cleared] at hfind
  split_ifs at hfind with hat
  · obtain ⟨rfl,rfl⟩ := hat
    exact ⟨seat,hs,.inr (.inr hempty)⟩
  · exact ⟨seat',hfind,.inl rfl⟩

/-! The event is deleted. -/

theorem sameSeats_deleteEvent : SameSeats w (deleteEvent e w) := by
  unfold deleteEvent
  split
  · exact ⟨fun _ => rfl,fun _ => rfl,rfl,rfl⟩
  · next event _ =>
    dsimp only
    split
    · exact ⟨fun _ => rfl,fun _ => rfl,rfl,rfl⟩
    · exact ⟨field_setVehicle_of_eq (w := w.setEvent ..) (·.seats) rfl,
        field_setVehicle_of_eq (w := w.setEvent ..) (·.usableSeatNum) rfl,rfl,rfl⟩

theorem pending_deleteEvent {event : VehicleJoinEvent V U} (hevent : w.events e = some event)
    (v' : V) : ((deleteEvent e w).vehicle v').pendingJoinEvents =
      if event.target = some v' then (w.vehicle v').pendingJoinEvents.erase e
      else (w.vehicle v').pendingJoinEvents := by
  unfold deleteEvent
  rw [hevent]
  dsimp only
  cases event.target with
  | none => simp [World.setEvent]
  | some v =>
    by_cases hv : v' = v
    · subst hv
      simp [removePendingEvent,World.setVehicle,World.setEvent]
    · simp [removePendingEvent,World.setVehicle,World.setEvent,hv,Ne.symm hv]

theorem events_deleteEvent {event : VehicleJoinEvent V U} (hevent : w.events e = some event) :
    (deleteEvent e w).events = Function.update w.events e (some { event with ended := true }) := by
  unfold deleteEvent
  rw [hevent]
  dsimp only
  cases event.target <;> rfl

theorem nextEvent_deleteEvent : (deleteEvent e w).nextEvent = w.nextEvent := by
  unfold deleteEvent
  split
  · rfl
  · dsimp only
    split <;> rfl

theorem inv_deleteEvent (h : Inv none w) (e : EventId) : Inv none (deleteEvent e w) := by
  cases hevent : w.events e with
  | none =>
    unfold deleteEvent
    rw [hevent]
    exact h
  | some event =>
    have hpending : ∀ v' e', e' ∈ ((deleteEvent e w).vehicle v').pendingJoinEvents →
        e' ∈ (w.vehicle v').pendingJoinEvents ∧ e' ≠ e := by
      intro v' e' he'
      rw [pending_deleteEvent hevent] at he'
      split_ifs at he' with htarget
      · obtain ⟨hne,hmem⟩ := (h.nodup v').mem_erase_iff.mp he'
        exact ⟨hmem,hne⟩
      · refine ⟨he',?_⟩
        rintro rfl
        obtain ⟨event',-,-,hevent',-,htarget',-⟩ := h.pending v' e' he'
        obtain rfl := Option.some.inj (hevent.symm.trans hevent')
        exact htarget htarget'
    have hevents := events_deleteEvent hevent
    apply h.sameSeats sameSeats_deleteEvent
    case hpending =>
      intro v' e' he'
      obtain ⟨hmem,hne⟩ := hpending v' e' he'
      rw [hevents,Function.update_of_ne hne]
      exact h.pending v' e' hmem
    case hnodup =>
      intro v'
      rw [pending_deleteEvent hevent]
      split_ifs
      · exact (h.nodup v').erase _
      · exact h.nodup v'
    case hlive =>
      intro e' event' hevent' hended habort
      rw [hevents] at hevent'
      by_cases hne : e' = e
      · subst hne
        rw [Function.update_self] at hevent'
        obtain rfl := Option.some.inj hevent'
        cases hended
      · rw [Function.update_of_ne hne] at hevent'
        obtain ⟨v',htarget,hmem⟩ := h.live e' event' hevent' hended habort
        refine ⟨v',htarget,?_⟩
        rw [pending_deleteEvent hevent]
        split_ifs
        · exact (List.mem_erase_of_ne hne).mpr hmem
        · exact hmem
    case hfresh =>
      intro e' he'
      rw [nextEvent_deleteEvent] at he'
      have hne : e' ≠ e := by
        rintro rfl
        rw [h.fresh e' he'] at hevent
        cases hevent
      rw [hevents,Function.update_of_ne hne]
      exact h.fresh e' he'

theorem killEvent_spec [DecidableEq U] (h : Inv none w) (e : EventId) :
    ∃ w', killEvent e w = .ok w' ∧ Inv none w' ∧ Changed w w' := by
  unfold killEvent
  cases hevent : w.events e with
  | none => exact ⟨w,rfl,h,.of_seats fun _ => rfl⟩
  | some event =>
    dsimp only
    by_cases hended : event.ended = true
    · exact ⟨w,if_pos hended,h,.of_seats fun _ => rfl⟩
    · rw [if_neg hended]
      obtain ⟨w',hrun,hinv,hchanged⟩ := abort_spec (abort_event h hevent)
        { event with toAbort := true }
      refine ⟨_,by rw [hrun]; rfl,inv_deleteEvent hinv e,?_⟩
      exact hchanged.congr (fun _ => rfl) sameSeats_deleteEvent.seats

theorem runEvent_spec [DecidableEq U] (h : Inv none w) (e : EventId) :
    (∃ w', runEvent e w = .ok w' ∧ Inv none w' ∧ Changed w w') ∨
      runEvent e w = .error .noAura := by
  unfold runEvent
  cases hevent : w.events e with
  | none => exact .inl ⟨w,rfl,h,.of_seats fun _ => rfl⟩
  | some event =>
    dsimp only
    by_cases hended : event.ended = true
    · exact .inl ⟨w,if_pos hended,h,.of_seats fun _ => rfl⟩
    · rw [if_neg hended]
      have hcases : (∃ w', (if event.toAbort = true then abort event w else execute event w) =
          .ok w' ∧ Inv none w' ∧ Changed w w') ∨
          (if event.toAbort = true then abort event w else execute event w) = .error .noAura := by
        split_ifs with habort
        · exact .inl (abort_spec h event)
        · exact execute_spec h hevent (by simpa using hended) (by simpa using habort)
      rcases hcases with ⟨w',hrun,hinv,hchanged⟩ | hfault
      · refine .inl ⟨_,by rw [hrun]; rfl,inv_deleteEvent hinv e,?_⟩
        exact hchanged.congr (fun _ => rfl) sameSeats_deleteEvent.seats
      · exact .inr (by rw [hfault]; rfl)

/-- The only assertions that can fail are that the unit is on no vehicle, and that its aura is
still there. -/
theorem step_spec [DecidableEq U] (h : Inv none w) (action : Action V U) :
    (∃ w', step w action = .ok w' ∧ Inv none w' ∧ Changed w w') ∨
      step w action = .error .onVehicle ∨ step w action = .error .noAura := by
  cases action with
  | addAura u v => exact .inl (addAura_spec h u v)
  | removeAura u v =>
    obtain ⟨w',hrun,hinv,hleft,-⟩ := removeAura_spec h (u,v)
    exact .inl ⟨w',hrun,hinv,hleft.changed⟩
  | enterVehicle v u s => exact (enterVehicle_spec h v u s).imp_right .inl
  | exitVehicle u =>
    obtain ⟨w',hrun,hinv,hleft,-⟩ := exitVehicle_spec h u
    exact .inl ⟨w',hrun,hinv,hleft.changed⟩
  | changeAmount v u =>
    obtain ⟨w',hrun,hinv,hleft,-⟩ := removePassenger_spec
      (inv_removePendingEvents (fun event => event.passenger = u) v h) v u
    exact .inl ⟨w',hrun,hinv,(left_removePendingEvents.trans hleft).changed⟩
  | removePassenger v u =>
    obtain ⟨w',hrun,hinv,hleft,-⟩ := removePassenger_spec h v u
    exact .inl ⟨w',hrun,hinv,hleft.changed⟩
  | removeAllPassengers v => exact .inl (removeAllPassengers_spec h v)
  | install v =>
    exact .inl ⟨_,rfl,inv_setStatus h v false,.of_seats (sameSeats_setStatus false).seats⟩
  | uninstall v => exact .inl (uninstall_spec h v)
  | runEvent e => exact (runEvent_spec h e).imp_right .inr
  | killEvent e => exact .inl (killEvent_spec h e)

end Events

section Runs

variable [DecidableEq U] {w : World V U}

omit [DecidableEq V] [DecidableEq U] in
theorem addSeats_spec (i : Nat) (entries : List (Option VehicleSeatEntry)) (vehicle : Vehicle U)
    (hnew : ∀ s, s ∈ vehicle.seats.keys → s < i)
    (husable : vehicle.usableSeatNum = vehicle.freeSeats)
    (hempty : ∀ s seat, vehicle.seats.find? s = some seat → seat.passenger = none)
    (hpending : vehicle.pendingJoinEvents = [])
    (hfew : vehicle.seats.size+entries.length ≤ maxVehicleSeats) :
    (vehicle.addSeats i entries).usableSeatNum = (vehicle.addSeats i entries).freeSeats ∧
    (vehicle.addSeats i entries).seats.size ≤ maxVehicleSeats ∧
    (∀ s seat, (vehicle.addSeats i entries).seats.find? s = some seat → seat.passenger = none) ∧
    (vehicle.addSeats i entries).pendingJoinEvents = [] := by
  induction i, entries, vehicle using Vehicle.addSeats.induct with
  | case1 i vehicle => exact ⟨husable,hfew,hempty,hpending⟩
  | case2 i entries vehicle ih =>
    rw [Vehicle.addSeats]
    refine ih (fun s hs => ?_) husable hempty hpending ?_
    · have hlt := hnew s hs
      push_cast
      omega
    · rw [List.length_cons] at hfew
      omega
  | case3 i entry entries vehicle ih =>
    rw [Vehicle.addSeats]
    have hfresh : (i : Int) ∉ vehicle.seats.keys := fun hmem => lt_irrefl _ (hnew i hmem)
    have hnone : vehicle.seats.find? i = none := by
      cases hfind : vehicle.seats.find? i with
      | none => rfl
      | some seat => exact absurd (OrderedMap.mem_keys.mpr ⟨seat,hfind⟩) hfresh
    rw [List.length_cons] at hfew
    refine ih (fun s hs => ?_) ?_ (fun s seat hs => ?_) hpending ?_
    · rcases OrderedMap.mem_keys_insert.mp hs with rfl | hs
      · push_cast
        omega
      · have hlt := hnew s hs
        push_cast
        omega
    · have hcount := OrderedMap.countP_insert (m := vehicle.seats) (k := (i : Int))
        (v := ⟨entry,none⟩) VehicleSeat.free
      rw [hnone,Option.elim_none] at hcount
      have hle : vehicle.freeSeats ≤ vehicle.seats.size := by
        refine List.countP_le_length.trans ?_
        simp [OrderedMap.values,OrderedMap.size]
      have hsize : vehicle.seats.size+(entries.length+1) ≤ 8 := hfew
      unfold Vehicle.freeSeats at *
      dsimp only
      cases hcan : entry.canEnterOrExit <;>
        simp [VehicleSeat.free,VehicleSeat.isEmpty,hcan] at hcount ⊢ <;> omega
    · rw [OrderedMap.find?_insert] at hs
      split_ifs at hs
      · obtain rfl := Option.some.inj hs
        rfl
      · exact hempty s seat hs
    · dsimp only
      rw [OrderedMap.size_insert hfresh]
      omega

omit [DecidableEq V] [DecidableEq U] in
theorem create_spec (info : VehicleEntry) :
    (Vehicle.create (U := U) info).usableSeatNum = (Vehicle.create (U := U) info).freeSeats ∧
    (Vehicle.create (U := U) info).seats.size ≤ maxVehicleSeats ∧
    (∀ s seat, (Vehicle.create (U := U) info).seats.find? s = some seat → seat.passenger = none) ∧
    (Vehicle.create (U := U) info).pendingJoinEvents = [] := by
  refine addSeats_spec 0 info.seatID _ ?_ rfl ?_ rfl ?_
  · intro s hs
    cases hs
  · intro s seat hs
    cases hs
  · rw [info.length_seatID]
    exact le_rfl

omit [DecidableEq V] [DecidableEq U] in
theorem inv_initial (info : V → VehicleEntry) : Inv (U := U) none (.initial info) where
  usable := fun v => (create_spec (info v)).1
  few := fun v => (create_spec (info v)).2.1
  seated := by
    intro v s seat u hs hpassenger
    rw [(create_spec (info v)).2.2.1 s seat hs] at hpassenger
    cases hpassenger
  one := by
    intro v s s' seat seat' u hs _ hpassenger
    rw [(create_spec (info v)).2.2.1 s seat hs] at hpassenger
    cases hpassenger
  riding := by
    intro u v hu
    cases hu
  aura := by
    intro u v hu
    cases hu
  single := by
    intro u v v' hv
    cases hv
  pending := by
    intro v e he
    rw [show ((World.initial (U := U) info).vehicle v).pendingJoinEvents = [] from
      (create_spec (info v)).2.2.2] at he
    cases he
  nodup := by
    intro v
    rw [show ((World.initial (U := U) info).vehicle v).pendingJoinEvents = [] from
      (create_spec (info v)).2.2.2]
    exact List.nodup_nil
  live := by
    intro e event hevent
    cases hevent
  fresh := fun _ _ => rfl

structure Sound (w : World V U) : Prop where
  usable : ∀ v, (w.vehicle v).usableSeatNum = (w.vehicle v).freeSeats
  one : ∀ v s s' seat seat' u, (w.vehicle v).seats.find? s = some seat →
    (w.vehicle v).seats.find? s' = some seat' → seat.passenger = some u →
    seat'.passenger = some u → s = s'
  /-- Where an event is about to write a passenger, there is none. -/
  scheduled : ∀ e event, w.events e = some event → event.ended = false → event.toAbort = false →
    ∃ v s seat, event.target = some v ∧ event.seat = some s ∧
      (w.vehicle v).seats.find? s = some seat ∧ seat.passenger = none
  pending : ∀ v e, e ∈ (w.vehicle v).pendingJoinEvents →
    ∃ event, w.events e = some event ∧ event.ended = false

omit [DecidableEq V] [DecidableEq U] in
theorem Inv.sound (h : Inv none w) : Sound w where
  usable := h.usable
  one := h.one
  scheduled := by
    intro e event hevent hended habort
    obtain ⟨v,htarget,hmem⟩ := h.live e event hevent hended habort
    obtain ⟨event',s,seat,hevent',-,-,hseat,hs,hempty | hhole,-⟩ := h.pending v e hmem
    · obtain rfl := Option.some.inj (hevent.symm.trans hevent')
      exact ⟨v,s,seat,htarget,hseat,hs,hempty⟩
    · cases hhole
  pending := by
    intro v e he
    obtain ⟨event,-,-,hevent,hended,-⟩ := h.pending v e he
    exact ⟨event,hevent,hended⟩

theorem run_spec (h : Inv none w) (actions : List (Action V U)) :
    (∃ w', run w actions = .ok w' ∧ Inv none w') ∨
      run w actions = .error .onVehicle ∨ run w actions = .error .noAura := by
  induction actions generalizing w with
  | nil => exact .inl ⟨w,rfl,h⟩
  | cons action actions ih =>
    rw [run]
    rcases step_spec h action with ⟨w',hstep,hinv,-⟩ | hfault | hfault
    · rw [hstep]
      exact ih hinv
    · exact .inr (.inl (by rw [hfault]; rfl))
    · exact .inr (.inr (by rw [hfault]; rfl))

/-- However the actions follow each other, the seats are sound, and a further action takes a seat
only where nobody is on it. -/
theorem run_sound (info : V → VehicleEntry) (actions : List (Action V U)) :
    (∃ w, run (.initial info) actions = .ok w ∧ Sound w ∧
      ∀ action w', step w action = .ok w' → Changed w w') ∨
    run (.initial info) actions = .error .onVehicle ∨
    run (.initial info) actions = .error .noAura := by
  refine (run_spec (inv_initial info) actions).imp_left ?_
  rintro ⟨w,hrun,hinv⟩
  refine ⟨w,hrun,hinv.sound,fun action w' hstep => ?_⟩
  rcases step_spec hinv action with ⟨w₁,hstep₁,-,hchanged⟩ | hfault | hfault
  · obtain rfl := Except.ok.inj (hstep.symm.trans hstep₁)
    exact hchanged
  · rw [hfault] at hstep
    cases hstep
  · rw [hfault] at hstep
    cases hstep

end Runs

end TrinityCore.Vehicles
