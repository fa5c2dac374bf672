import TrinityCore.Utilities.EventProcessor

set_option autoImplicit false

namespace TrinityCore.Utilities

inductive Base : List Frame → Prop
  | idle : Base []
  | update : Base [.update]
  | execute (event : Nat) : Base [.execute event,.update]
  | abort (event : Nat) : Base [.abort event,.update]

def Alive (deleted : List Nat) (nodes : List Node) : Prop := ∀ node ∈ nodes, node.event ∉ deleted

/-- Where the processor is. A forced kill leaves the nodes of the events that it deleted behind its
iterator, which it does not visit again. -/
inductive Phase (s : EventProcessor) : Prop
  | plain (base : Base s.stack) (alive : Alive s.deleted s.events)
  | kill (force : Bool) (rest : List Frame) (pre post : List Node) (base : Base rest)
      (stack : s.stack = .kill force (post.head?.map Node.id) :: rest)
      (events : s.events = pre ++ post) (visited : force = false → Alive s.deleted pre)
      (alive : Alive s.deleted post)
  | killAbort (force : Bool) (iOld : Node) (rest : List Frame) (pre post : List Node)
      (base : Base rest) (stack : s.stack = .killAbort force iOld (post.head?.map Node.id) :: rest)
      (events : s.events = pre ++ post) (current : iOld ∈ pre) (owned : iOld.event ∉ s.deleted)
      (visited : force = false → Alive s.deleted pre) (alive : Alive s.deleted post)

structure Sound (s : EventProcessor) : Prop where
  fault : s.fault = false
  ids : (s.events.map Node.id).Nodup
  fresh : ∀ node ∈ s.events, node.id < s.nodes
  unique : (s.events.map Node.event).Nodup
  deleted : s.deleted.Nodup
  aborted : ∀ event, Frame.abort event ∈ s.stack →
    event ∉ s.deleted ∧ event ∉ s.events.map Node.event
  phase : Phase s

theorem Sound.deleted_concat {s : EventProcessor} (h : Sound s) {event : Nat}
    (hdeleted : event ∉ s.deleted) : (s.deleted ++ [event]).Nodup := by
  rw [← List.concat_eq_append]
  exact h.deleted.concat hdeleted

section Alive

variable {deleted : List Nat} {nodes nodes' : List Node} {event : Nat}

theorem Alive.subset (h : Alive deleted nodes) (hsub : nodes' ⊆ nodes) : Alive deleted nodes' :=
  fun node hmem => h node (hsub hmem)

theorem Alive.append (h : Alive deleted nodes) (h' : Alive deleted nodes') :
    Alive deleted (nodes ++ nodes') := by
  intro node hmem
  rcases List.mem_append.mp hmem with hmem | hmem
  · exact h node hmem
  · exact h' node hmem

theorem Alive.delete (h : Alive deleted nodes) (hnot : event ∉ nodes.map Node.event) :
    Alive (deleted ++ [event]) nodes := by
  intro node hmem hdeleted
  rcases List.mem_append.mp hdeleted with hdeleted | hdeleted
  · exact h node hmem hdeleted
  · rw [List.mem_singleton] at hdeleted
    exact hnot (hdeleted ▸ List.mem_map_of_mem hmem)

end Alive

section Steps

variable {s : EventProcessor}

theorem sound_addEvent (h : Sound s) {event time : Nat} (hcallable : s.callable = true)
    (hdeleted : event ∉ s.deleted) (hqueued : event ∉ s.events.map Node.event)
    (haborted : Frame.abort event ∉ s.stack) : Sound (s.addEvent event time) := by
  unfold EventProcessor.addEvent
  rw [if_neg hdeleted]
  have hperm : (TimedQueue.insert Node.time ⟨s.nodes,time,event⟩ s.events).Perm
      (⟨s.nodes,time,event⟩ :: s.events) := TimedQueue.perm_insert
  refine ⟨h.fault,?_,?_,?_,h.deleted,?_,?_⟩
  · dsimp only
    rw [(hperm.map Node.id).nodup_iff,List.map_cons,List.nodup_cons]
    refine ⟨fun hmem => ?_,h.ids⟩
    obtain ⟨node,hnode,heq⟩ := List.mem_map.mp hmem
    have := h.fresh node hnode
    dsimp only at heq
    omega
  · intro node hmem
    dsimp only
    rcases TimedQueue.mem_insert.mp hmem with rfl | hmem
    · exact Nat.lt_succ_self s.nodes
    · exact (h.fresh node hmem).trans (Nat.lt_succ_self s.nodes)
  · dsimp only
    rw [(hperm.map Node.event).nodup_iff,List.map_cons,List.nodup_cons]
    exact ⟨hqueued,h.unique⟩
  · intro event' hmem
    obtain ⟨hdeleted',hqueued'⟩ := h.aborted event' hmem
    refine ⟨hdeleted',fun hmem' => ?_⟩
    rw [(hperm.map Node.event).mem_iff,List.map_cons,List.mem_cons] at hmem'
    rcases hmem' with rfl | hmem'
    · exact haborted hmem
    · exact hqueued' hmem'
  · have hnew : ∀ l : List Node, Alive s.deleted l → ∀ l' : List Node,
        l'.Perm (⟨s.nodes,time,event⟩ :: l) → Alive s.deleted l' := by
      intro l hl l' hl' node hmem
      rcases List.mem_cons.mp (hl'.mem_iff.mp hmem) with rfl | hmem
      · exact hdeleted
      · exact hl node hmem
    cases h.phase with
    | plain base alive => exact .plain base (hnew _ alive _ hperm)
    | kill force rest pre post base stack events visited alive =>
      simp [EventProcessor.callable,stack] at hcallable
    | killAbort force iOld rest pre post base stack events current owned visited alive =>
      obtain ⟨pre',post',hinsert,hcases⟩ :=
        TimedQueue.insert_split Node.time ⟨s.nodes,time,event⟩ pre post
      rw [← events] at hinsert
      rcases hcases with ⟨hpre,rfl⟩ | ⟨rfl,hpost,hhead⟩
      · exact .killAbort force iOld rest pre' post' base stack hinsert
          (hpre.mem_iff.mpr (List.mem_cons_of_mem _ current)) owned
          (fun hforce => hnew _ (visited hforce) _ hpre) alive
      · exact .killAbort force iOld rest pre' post' base (by rw [hhead]; exact stack) hinsert
          current owned visited (hnew _ alive _ hpost)

theorem sound_pop (h : Sound s) {rest : List Frame} (base : Base rest)
    (hnone : ∀ event, Frame.abort event ∉ rest) (alive : Alive s.deleted s.events) :
    Sound { s with stack := rest } :=
  ⟨h.fault,h.ids,h.fresh,h.unique,h.deleted,fun event hmem => absurd hmem (hnone event),
    .plain base alive⟩

theorem sound_delete (h : Sound s) (base : Base s.stack)
    (hnone : ∀ event, Frame.abort event ∉ s.stack) (alive : Alive s.deleted s.events) {event : Nat}
    (hdeleted : event ∉ s.deleted) (hqueued : event ∉ s.events.map Node.event) :
    Sound (s.delete event) := by
  unfold EventProcessor.delete
  rw [if_neg hdeleted]
  exact ⟨h.fault,h.ids,h.fresh,h.unique,h.deleted_concat hdeleted,
    fun event hmem => absurd hmem (hnone event),.plain base (alive.delete hqueued)⟩

theorem sound_setToAbort (h : Sound s) {event : Nat} (hdeleted : event ∉ s.deleted) :
    Sound (s.setToAbort event) := by
  unfold EventProcessor.setToAbort
  rw [if_neg hdeleted]
  refine ⟨h.fault,h.ids,h.fresh,h.unique,h.deleted,h.aborted,?_⟩
  cases h.phase with
  | plain base alive => exact .plain base alive
  | kill force rest pre post base stack events visited alive =>
    exact .kill force rest pre post base stack events visited alive
  | killAbort force iOld rest pre post base stack events current owned visited alive =>
    exact .killAbort force iOld rest pre post base stack events current owned visited alive

theorem sound_killAllEvents (h : Sound s) (force : Bool) (hcallable : s.callable = true)
    (hnone : ∀ frame ∈ s.stack, frame.inKill = false) :
    Sound (s.killAllEvents force) := by
  refine ⟨h.fault,h.ids,h.fresh,h.unique,h.deleted,fun event hmem => ?_,?_⟩
  · exact h.aborted event (by simpa [EventProcessor.killAllEvents] using hmem)
  · cases h.phase with
    | plain base alive =>
      exact .kill force s.stack [] s.events base rfl rfl (fun _ => by simp [Alive]) alive
    | kill force rest pre post base stack events visited alive =>
      simp [EventProcessor.callable,stack] at hcallable
    | killAbort force iOld rest pre post base stack events current owned visited alive =>
      simp [stack,Frame.inKill] at hnone

theorem sound_update (h : Sound s) (time : Nat) (hstack : s.stack = []) :
    Sound (s.update time) := by
  refine ⟨h.fault,h.ids,h.fresh,h.unique,h.deleted,by simp [EventProcessor.update],?_⟩
  cases h.phase with
  | plain base alive => exact .plain .update alive
  | kill force rest pre post base stack events visited alive => simp [hstack] at stack
  | killAbort force iOld rest pre post base stack events current owned visited alive =>
    simp [hstack] at stack

theorem sound_updateTurn (h : Sound s) {rest : List Frame} (hstack : s.stack = .update :: rest) :
    Sound (s.updateTurn rest) := by
  obtain ⟨base,alive⟩ : Base s.stack ∧ Alive s.deleted s.events := by
    cases h.phase with
    | plain base alive => exact ⟨base,alive⟩
    | kill force rest pre post base stack events visited alive => simp [hstack] at stack
    | killAbort force iOld rest pre post base stack events current owned visited alive =>
      simp [hstack] at stack
  obtain rfl : rest = [] := by
    rw [hstack] at base
    cases base
    rfl
  have hover : Sound { s with stack := [] } := sound_pop h .idle (by simp) alive
  unfold EventProcessor.updateTurn
  cases hevents : s.events with
  | nil =>
    rw [hevents] at hover
    exact hover
  | cons node events =>
    dsimp only
    by_cases hdue : node.time ≤ s.time
    · have hids := h.ids
      have hunique := h.unique
      have hfresh := h.fresh
      rw [hevents] at alive hids hunique hfresh
      rw [List.map_cons,List.nodup_cons] at hids hunique
      have hnode : node.event ∉ s.deleted := alive node List.mem_cons_self
      have hrest : Alive s.deleted events := alive.subset (List.subset_cons_self node events)
      have hfresh' : ∀ node ∈ events, node.id < s.nodes :=
        fun node' hmem => hfresh node' (List.mem_cons_of_mem node hmem)
      rw [if_pos hdue,if_neg hnode]
      split_ifs
      · refine ⟨h.fault,hids.2,hfresh',hunique.2,h.deleted,fun event hmem => ?_,
          .plain (.abort node.event) hrest⟩
        obtain rfl : event = node.event := by simpa using hmem
        exact ⟨hnode,hunique.1⟩
      · exact ⟨h.fault,hids.2,hfresh',hunique.2,h.deleted,by simp,
          .plain (.execute node.event) hrest⟩
    · rw [if_neg hdue]
      rw [hevents] at hover
      exact hover

theorem find_of_nodup {pre post : List Node} {node : Node}
    (hids : ((pre ++ node :: post).map Node.id).Nodup) :
    (pre ++ node :: post).find? (fun node' => node'.id == node.id) = some node ∧
      EventProcessor.successor node.id (pre ++ node :: post) = post.head?.map Node.id := by
  induction pre with
  | nil => simp [EventProcessor.successor]
  | cons node' pre ih =>
    rw [List.cons_append,List.map_cons,List.nodup_cons] at hids
    have hne : node'.id ≠ node.id := by
      intro heq
      exact hids.1 (heq ▸ List.mem_map_of_mem (List.mem_append_right pre List.mem_cons_self))
    obtain ⟨hfind,hnext⟩ := ih hids.2
    rw [List.cons_append,List.find?_cons_of_neg (by simpa using hne)]
    refine ⟨hfind,?_⟩
    rw [EventProcessor.successor,if_neg hne]
    exact hnext

theorem sound_killTurn (h : Sound s) {force : Bool} {i : Option Nat} {rest : List Frame}
    (hstack : s.stack = .kill force i :: rest) : Sound (s.killTurn force i rest) := by
  cases h.phase with
  | plain base alive =>
    rw [hstack] at base
    cases base
  | killAbort force iOld rest pre post base stack events current owned visited alive =>
    simp [hstack] at stack
  | kill force' rest' pre post base stack events visited alive =>
    rw [hstack] at stack
    obtain ⟨⟨rfl,rfl⟩,rfl⟩ : (force = force' ∧ i = post.head?.map Node.id) ∧ rest = rest' := by
      simpa using stack
    have haborted : ∀ event, Frame.abort event ∈ rest →
        event ∉ s.deleted ∧ event ∉ s.events.map Node.event :=
      fun event hmem => h.aborted event (by rw [hstack]; exact List.mem_cons_of_mem _ hmem)
    cases post with
    | nil =>
      rw [List.append_nil] at events
      cases force with
      | true =>
        exact ⟨h.fault,List.nodup_nil,by simp [EventProcessor.killTurn],List.nodup_nil,h.deleted,
          fun event hmem => ⟨(haborted event hmem).1,by simp [EventProcessor.killTurn]⟩,
          .plain base (by simp [EventProcessor.killTurn,Alive])⟩
      | false =>
        exact ⟨h.fault,h.ids,h.fresh,h.unique,h.deleted,haborted,
          .plain base (by rw [← events] at visited; exact visited rfl)⟩
    | cons node post =>
      have hids := h.ids
      rw [events] at hids
      obtain ⟨hfind,hnext⟩ := find_of_nodup hids
      have hnode : node.event ∉ s.deleted := alive node List.mem_cons_self
      unfold EventProcessor.killTurn
      simp only [List.head?_cons,Option.map_some,events,hfind,if_neg hnode,hnext]
      refine ⟨h.fault,hids,?_,?_,h.deleted,fun event hmem => ?_,?_⟩
      · have := h.fresh
        rwa [events] at this
      · have := h.unique
        rwa [events] at this
      · have := haborted event (by simpa using hmem)
        rwa [events] at this
      · refine .killAbort force node rest (pre ++ [node]) post base rfl (by simp) (by simp) hnode
          (fun hforce => (visited hforce).append ?_) (alive.subset (List.subset_cons_self node post))
        intro node' hmem
        rw [List.mem_singleton] at hmem
        exact hmem ▸ hnode

theorem sound_killAborted (h : Sound s) {force : Bool} {iOld : Node} {i : Option Nat}
    {rest : List Frame} (deletable : Bool) (hstack : s.stack = .killAbort force iOld i :: rest) :
    Sound (s.killAborted force iOld i deletable rest) := by
  cases h.phase with
  | plain base alive =>
    rw [hstack] at base
    cases base
  | kill force rest pre post base stack events visited alive => simp [hstack] at stack
  | killAbort force' iOld' rest' pre post base stack events current owned visited alive =>
    rw [hstack] at stack
    obtain ⟨⟨rfl,rfl,rfl⟩,rfl⟩ : (force = force' ∧ iOld = iOld' ∧ i = post.head?.map Node.id) ∧
        rest = rest' := by simpa using stack
    have hqueued : iOld ∈ s.events := by
      rw [events]
      exact List.mem_append_left post current
    have haborted : ∀ event, Frame.abort event ∈ rest →
        event ∉ s.deleted ∧ event ∉ s.events.map Node.event :=
      fun event hmem => h.aborted event (by rw [hstack]; exact List.mem_cons_of_mem _ hmem)
    -- The event of another node is another event.
    have hother : ∀ node ∈ s.events, node ≠ iOld → node.event ≠ iOld.event := by
      intro node hmem hne heq
      exact hne (List.inj_on_of_nodup_map h.unique hmem hqueued heq)
    have hpost : ∀ node ∈ post, node ≠ iOld := by
      intro node hmem heq
      have hdisjoint := h.ids
      rw [events,List.map_append,List.nodup_append] at hdisjoint
      exact hdisjoint.2.2 iOld.id (List.mem_map_of_mem current) node.id
        (List.mem_map_of_mem hmem) (by rw [heq])
    have halive : Alive (s.deleted ++ [iOld.event]) post := by
      refine alive.delete fun hmem => ?_
      obtain ⟨node,hnode,heq⟩ := List.mem_map.mp hmem
      exact hother node (by rw [events]; exact List.mem_append_right pre hnode)
        (hpost node hnode) heq
    have haborted' : ∀ event, Frame.abort event ∈ rest →
        event ∉ s.deleted ++ [iOld.event] ∧ event ∉ s.events.map Node.event := by
      intro event hmem
      obtain ⟨hdeleted,hnot⟩ := haborted event hmem
      refine ⟨fun hmem' => ?_,hnot⟩
      rcases List.mem_append.mp hmem' with hmem' | hmem'
      · exact hdeleted hmem'
      · rw [List.mem_singleton] at hmem'
        exact hnot (hmem' ▸ List.mem_map_of_mem hqueued)
    unfold EventProcessor.killAborted
    rw [if_neg (not_not.mpr hqueued),if_neg owned]
    cases force with
    | true =>
      rw [if_pos (Bool.true_or deletable)]
      exact ⟨h.fault,h.ids,h.fresh,h.unique,h.deleted_concat owned,
        fun event hmem => haborted' event (by simpa using hmem),
        .kill true rest pre post base rfl events (by simp) halive⟩
    | false =>
      by_cases hdeletable : deletable = true
      · rw [if_pos (by simpa using hdeletable)]
        have hfilter : s.events.filter (fun node => node ≠ iOld) =
            pre.filter (fun node => node ≠ iOld) ++ post := by
          rw [events,List.filter_append,List.filter_eq_self.mpr fun node hmem =>
            decide_eq_true (hpost node hmem)]
        have hsub : (s.events.filter fun node => node ≠ iOld).Sublist s.events :=
          List.filter_sublist
        refine ⟨h.fault,(hsub.map Node.id).nodup h.ids,
          fun node hmem => h.fresh node (hsub.subset hmem),(hsub.map Node.event).nodup h.unique,
          h.deleted_concat owned,fun event hmem => ?_,
          .kill false rest _ post base rfl hfilter (fun _ => ?_) halive⟩
        · obtain ⟨hdeleted,hnot⟩ := haborted' event (by simpa using hmem)
          exact ⟨hdeleted,fun hmem' => hnot ((hsub.map Node.event).subset hmem')⟩
        · intro node hmem
          have hne : node ≠ iOld := by simpa using List.of_mem_filter hmem
          have hpre : node ∈ pre := List.mem_of_mem_filter hmem
          intro hdeleted
          rcases List.mem_append.mp hdeleted with hdeleted | hdeleted
          · exact visited rfl node hpre hdeleted
          · rw [List.mem_singleton] at hdeleted
            exact hother node (by rw [events]; exact List.mem_append_left post hpre) hne hdeleted
      · rw [if_neg (by simpa using hdeletable)]
        exact ⟨h.fault,h.ids,h.fresh,h.unique,h.deleted,
          fun event hmem => haborted event (by simpa using hmem),
          .kill false rest pre post base rfl events visited alive⟩

theorem sound_return (h : Sound s) {frame : Frame} {rest : List Frame}
    (hstack : s.stack = frame :: rest) (hplain : Base (frame :: rest)) (hrest : rest = [.update]) :
    Sound { s with stack := rest } ∧ Base rest ∧ (∀ event, Frame.abort event ∉ rest) ∧
      Alive s.deleted s.events := by
  have alive : Alive s.deleted s.events := by
    cases h.phase with
    | plain base alive => exact alive
    | kill force rest' pre post base stack events visited alive =>
      rw [← hstack,stack] at hplain
      cases hplain
    | killAbort force iOld rest' pre post base stack events current owned visited alive =>
      rw [← hstack,stack] at hplain
      cases hplain
  subst hrest
  exact ⟨sound_pop h .update (by simp) alive,.update,by simp,alive⟩

theorem sound_finish (h : Sound s) {result : Bool} (hallowed : s.Allowed (.finish result)) :
    Sound (s.step (.finish result)) := by
  have hfault : ¬ s.fault = true := by simp [h.fault]
  unfold EventProcessor.step
  rw [if_neg hfault]
  dsimp only
  cases hstack : s.stack with
  | nil => exact h
  | cons frame rest =>
    have hbase : ∀ hframe : (∀ force i, frame ≠ .kill force i) ∧
        ∀ force iOld i, frame ≠ .killAbort force iOld i, Base (frame :: rest) := by
      intro hframe
      cases h.phase with
      | plain base alive => rwa [hstack] at base
      | kill force rest' pre post base stack events visited alive =>
        rw [hstack] at stack
        exact absurd (List.cons.inj stack).1 (hframe.1 force _)
      | killAbort force iOld rest' pre post base stack events current owned visited alive =>
        rw [hstack] at stack
        exact absurd (List.cons.inj stack).1 (hframe.2 force iOld _)
    cases frame with
    | update => exact h
    | kill force i => exact h
    | killAbort force iOld i => exact sound_killAborted h result hstack
    | execute event =>
      have base := hbase ⟨by simp,by simp⟩
      obtain ⟨hpop,hrest,hnone,alive⟩ := sound_return h hstack base (by cases base; rfl)
      cases result with
      | false => exact hpop
      | true =>
        obtain ⟨hdeleted,hqueued⟩ := hallowed rfl event (by simp [hstack,Frame.executing])
        exact sound_delete hpop hrest hnone alive hdeleted hqueued
    | abort event =>
      have base := hbase ⟨by simp,by simp⟩
      obtain ⟨hpop,hrest,hnone,alive⟩ := sound_return h hstack base (by cases base; rfl)
      obtain ⟨hdeleted,hqueued⟩ := h.aborted event (by rw [hstack]; exact List.mem_cons_self)
      exact sound_delete hpop hrest hnone alive hdeleted hqueued

theorem sound_proceed (h : Sound s) : Sound (s.step .proceed) := by
  have hfault : ¬ s.fault = true := by simp [h.fault]
  unfold EventProcessor.step
  rw [if_neg hfault]
  dsimp only
  split
  · rename_i rest hstack
    exact sound_updateTurn h hstack
  · rename_i force i rest hstack
    exact sound_killTurn h hstack
  · exact h

end Steps

theorem sound_step (s : EventProcessor) (action : Action) (h : Sound s)
    (hallowed : s.Allowed action) : Sound (s.step action) := by
  have hfault : ¬ s.fault = true := by simp [h.fault]
  cases action with
  | finish result => exact sound_finish h hallowed
  | proceed => exact sound_proceed h
  | addEvent event time =>
    unfold EventProcessor.step
    rw [if_neg hfault]
    dsimp only
    split_ifs with hcallable
    · exact sound_addEvent h hcallable hallowed.1 hallowed.2.1 hallowed.2.2
    · exact h
  | setToAbort event =>
    unfold EventProcessor.step
    rw [if_neg hfault]
    dsimp only
    split_ifs
    · exact sound_setToAbort h hallowed
    · exact h
  | killAllEvents force =>
    unfold EventProcessor.step
    rw [if_neg hfault]
    dsimp only
    split_ifs with hcallable
    · exact sound_killAllEvents h force hcallable hallowed
    · exact h
  | update time =>
    unfold EventProcessor.step
    rw [if_neg hfault]
    dsimp only
    split_ifs with hstack
    · exact sound_update h time hstack
    · exact h

theorem sound_new : Sound .new :=
  ⟨rfl,List.nodup_nil,by simp [EventProcessor.new],List.nodup_nil,List.nodup_nil,
    by simp [EventProcessor.new],.plain .idle (by simp [EventProcessor.new,Alive])⟩

end TrinityCore.Utilities
