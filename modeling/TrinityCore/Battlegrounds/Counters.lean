import TrinityCore.Battlegrounds.Filling

set_option autoImplicit false

namespace TrinityCore.Battlegrounds

variable {q : BattlegroundQueue} {cfg : Settings} {bg : Battleground} {b : Fin 16}

def StartsRight (cfg : Settings) (bg : Battleground) (b : Fin 16) (q : BattlegroundQueue) : Prop :=
  (fillXPlayersToBG q cfg b bg true).1 = true ↔ cfg.crossFaction = true ∧
    (cfg.testing = true ∨ bg.minPlayersPerTeam*2 ≤ totalSize q (uninvitedMixed q b))

theorem fillX_builds (start : Bool) : (fillXPlayersToBG q cfg b bg start).1 = true ↔
    cfg.crossFaction = true ∧ (cfg.testing = true ∨
      bg.minPlayersPerTeam*2 ≤ totalSize q (uninvitedMixed q b) % 256 ∨ start = false) := by
  unfold fillXPlayersToBG queuedPeople
  by_cases hbuild : (cfg.crossFaction && (cfg.testing ||
      totalSize q (uninvitedMixed q b) % 256 ≥ bg.minPlayersPerTeam*2 || !start)) = true
  · rw [if_pos hbuild]
    refine iff_of_true rfl ?_
    simpa [or_assoc] using hbuild
  · rw [if_neg hbuild]
    refine iff_of_false Bool.false_ne_true fun h => hbuild ?_
    simpa [or_assoc] using h

theorem fillX_none {start : Bool} (h : ¬(fillXPlayersToBG q cfg b bg start).1 = true) :
    fillXPlayersToBG q cfg b bg start = (false,q) := by
  refine if_neg fun hbuild => h ?_
  unfold fillXPlayersToBG
  rw [if_pos hbuild]

/-- The sum in eight bits is enough except when it wraps to less than the minimum. -/
theorem startsRight_iff : StartsRight cfg bg b q ↔ cfg.crossFaction = false ∨ cfg.testing = true ∨
    totalSize q (uninvitedMixed q b) < bg.minPlayersPerTeam*2 ∨
    bg.minPlayersPerTeam*2 ≤ totalSize q (uninvitedMixed q b) % 256 := by
  unfold StartsRight
  rw [fillX_builds]
  have hwrap := Nat.mod_le (totalSize q (uninvitedMixed q b)) 256
  cases cfg.crossFaction <;> cases cfg.testing <;> simp
  omega

def fives (n : Nat) : BattlegroundQueue :=
  (List.range n).foldl (fun q i => addGroup crossSettings i
    ⟨{5*i+1,5*i+2,5*i+3,5*i+4,5*i+5},.alliance,469,exampleBracket,0,false,false,0,0,0⟩ q) .empty

theorem not_startsRight : ¬ StartsRight crossSettings
    { crossBattleground with minPlayersPerTeam := 10, maxPlayersPerTeam := 10 } exampleBracket
    (fives 52) := by
  have htotal : totalSize (fives 52) (uninvitedMixed (fives 52) exampleBracket) = 260 := by
    decide +kernel
  unfold StartsRight
  rw [fillX_builds,htotal]
  decide

section Dealing

structure Counting where
  free : Team → Int
  queue : BattlegroundQueue

variable {s : Counting} {g : Nat} {gs pre : List Nat} {room : Team → Nat} {minPlayers : Nat}

/-- The team with more free slots by the counters, or the one the group has. -/
def Counting.chosen (s : Counting) (g : Nat) : Team :=
  if s.free .alliance = s.free .horde then (s.queue.info g).team
  else if s.free .alliance < s.free .horde then .horde else .alliance

def Counting.skips (minPlayers : Nat) (s : Counting) (g : Nat) : Prop :=
  s.queue.invited g ∨ (∃ t, g ∈ (s.queue.selectionPools t).selectedGroups) ∨
    ∀ t, minPlayers ≤ playerCount s.queue t

theorem skips_iff : s.skips minPlayers g ↔ s.queue.invited g ∨
    g ∈ (s.queue.selectionPools .alliance).selectedGroups ∨
    g ∈ (s.queue.selectionPools .horde).selectedGroups ∨
    ((s.queue.selectionPools .alliance).playerCount ≥ minPlayers ∧
      (s.queue.selectionPools .horde).playerCount ≥ minPlayers) := by
  have hteams : ∀ P : Team → Prop, (∃ t, P t) ↔ P .alliance ∨ P .horde := by
    refine fun P => ⟨?_,fun h => h.elim (⟨_,·⟩) (⟨_,·⟩)⟩
    rintro ⟨t,h⟩
    cases t
    · exact .inl h
    · exact .inr h
  have hboth : ∀ P : Team → Prop, (∀ t, P t) ↔ P .alliance ∧ P .horde :=
    fun P => ⟨fun h => ⟨h _,h _⟩,fun h t => by cases t <;> [exact h.1; exact h.2]⟩
  unfold Counting.skips
  rw [hteams,hboth,or_assoc]
  rfl

instance (s : Counting) (g : Nat) : Decidable (s.skips minPlayers g) :=
  decidable_of_iff' _ skips_iff

def mixedStep (minPlayers : Nat) (room : Team → Nat) (s : Counting) (g : Nat) : Counting :=
  if s.skips minPlayers g then s
  else
    let t := s.chosen g
    let q := s.queue.setInfo g { s.queue.info g with team := t }
    let (added,pool) := (q.selectionPools t).addGroup q g (room t)
    ⟨if added then Function.update s.free t (s.free t-q.size g) else s.free,q.setPool t pool⟩

theorem fillMixed_eq (gs : List Nat) (s : Counting) :
    fillMixed minPlayers (room .alliance) (room .horde) gs (s.free .alliance) (s.free .horde) s.queue =
      (gs.foldl (mixedStep minPlayers room) s).queue := by
  induction gs generalizing s with
  | nil => rfl
  | cons g gs ih =>
    rw [List.foldl_cons,← ih]
    have hteam : (if s.free .alliance = s.free .horde then (s.queue.info g).team
        else if s.free .alliance < s.free .horde then .horde else .alliance) = s.chosen g := rfl
    conv_lhs => unfold fillMixed
    unfold mixedStep
    by_cases hskip : s.skips minPlayers g
    · rw [if_pos hskip]
      exact if_pos (skips_iff.mp hskip)
    · rw [if_neg hskip]
      refine (if_neg fun h => hskip (skips_iff.mpr h)).trans ?_
      rw [hteam]
      generalize s.chosen g = t
      cases t
      · simp only
        split_ifs <;> rfl
      · simp only
        split_ifs <;> rfl

theorem info_setTeam {q : BattlegroundQueue} (t : Team) (g g' : Nat) :
    (q.setInfo g { q.info g with team := t }).info g' = q.info g' ∨
      g' = g ∧ (q.setInfo g { q.info g with team := t }).info g' = { q.info g with team := t } := by
  by_cases hg : g' = g
  · subst hg
    cases hinfo : q.groups g' with
    | none => exact .inl (by simp [BattlegroundQueue.info,BattlegroundQueue.setInfo,hinfo])
    | some i => exact .inr ⟨rfl,BattlegroundQueue.info_setInfo_self hinfo⟩
  · exact .inl (BattlegroundQueue.info_setInfo_ne _ hg)

theorem size_setTeam {q : BattlegroundQueue} (t : Team) (g g' : Nat) :
    (q.setInfo g { q.info g with team := t }).size g' = q.size g' := by
  unfold BattlegroundQueue.size
  rcases info_setTeam (q := q) t g g' with h | ⟨rfl,h⟩
  · rw [h]
  · rw [h]

theorem invited_setTeam {q : BattlegroundQueue} (t : Team) (g g' : Nat) :
    (q.setInfo g { q.info g with team := t }).invited g' = q.invited g' := by
  unfold BattlegroundQueue.invited
  rcases info_setTeam (q := q) t g g' with h | ⟨rfl,h⟩
  · rw [h]
  · rw [h]

theorem mixedStep_frame (minPlayers : Nat) (room : Team → Nat) (s : Counting) (g g' : Nat) :
    (mixedStep minPlayers room s g).queue.size g' = s.queue.size g' ∧
    (mixedStep minPlayers room s g).queue.invited g' = s.queue.invited g' ∧
    (g' ≠ g → (mixedStep minPlayers room s g).queue.info g' = s.queue.info g') := by
  unfold mixedStep
  split_ifs
  · exact ⟨rfl,rfl,fun _ => rfl⟩
  · exact ⟨size_setTeam _ g g',invited_setTeam _ g g',BattlegroundQueue.info_setInfo_ne _⟩

theorem addGroup_setTeam {q : BattlegroundQueue} (t : Team) (pool : SelectionPool) (n : Nat) :
    pool.addGroup (q.setInfo g { q.info g with team := t }) g n = pool.addGroup q g n := by
  unfold SelectionPool.addGroup
  rw [size_setTeam,invited_setTeam]

theorem mixedStep_offers (hskip : ¬ s.skips minPlayers g)
    {r : Bool × SelectionPool} (hadd : (s.queue.selectionPools (s.chosen g)).addGroup s.queue g
      (room (s.chosen g)) = r) :
    (mixedStep minPlayers room s g).free =
        (if r.1 then Function.update s.free (s.chosen g) (s.free (s.chosen g)-s.queue.size g)
          else s.free) ∧
      (mixedStep minPlayers room s g).queue.selectionPools =
        Function.update s.queue.selectionPools (s.chosen g) r.2 := by
  subst hadd
  have hsize := size_setTeam (q := s.queue) (s.chosen g) g g
  have hsame := addGroup_setTeam (g := g) (q := s.queue) (s.chosen g)
    (s.queue.selectionPools (s.chosen g)) (room (s.chosen g))
  unfold mixedStep
  rw [if_neg hskip]
  refine ⟨?_,?_⟩
  · rw [← hsame,← hsize]
    rfl
  · rw [← hsame]
    rfl

theorem mixedStep_fits (hskip : ¬ s.skips minPlayers g)
    (hfits : playerCount s.queue (s.chosen g)+s.queue.size g ≤ room (s.chosen g)) :
    (mixedStep minPlayers room s g).free =
        Function.update s.free (s.chosen g) (s.free (s.chosen g)-s.queue.size g) ∧
      (mixedStep minPlayers room s g).queue.selectionPools =
        Function.update s.queue.selectionPools (s.chosen g)
          ⟨(s.queue.selectionPools (s.chosen g)).selectedGroups ++ [g],
            playerCount s.queue (s.chosen g)+s.queue.size g⟩ := by
  have hfree : s.queue.invited g = false := by
    simpa using fun h => hskip (.inl h)
  exact mixedStep_offers (r := (true,_)) hskip (if_pos ⟨by simp [hfree],hfits⟩)

/-- A group that does not fit is not added, but counted as long as the pool has room. -/
theorem mixedStep_misfits (hskip : ¬ s.skips minPlayers g)
    (hfits : ¬ playerCount s.queue (s.chosen g)+s.queue.size g ≤ room (s.chosen g)) :
    (mixedStep minPlayers room s g).free =
        (if playerCount s.queue (s.chosen g) < room (s.chosen g) then
          Function.update s.free (s.chosen g) (s.free (s.chosen g)-s.queue.size g) else s.free) ∧
      (mixedStep minPlayers room s g).queue.selectionPools = s.queue.selectionPools := by
  obtain ⟨hfree,hpools⟩ := mixedStep_offers hskip (if_neg fun h => hfits h.2)
  rw [hfree,hpools,Function.update_eq_self]
  refine ⟨?_,rfl⟩
  simp only [decide_eq_true_eq]
  rfl

def Exact (room : Team → Nat) (s : Counting) : Prop :=
  ∀ t, s.free t = (room t : Int)-playerCount s.queue t

/-- What the rounds keep: only teams of groups change, and of those only before the group is
looked at; the pools are of different groups, with the players they say, and fit. -/
structure CountInv (q : BattlegroundQueue) (room : Team → Nat) (gs : List Nat) (s : Counting) :
    Prop where
  size : ∀ g, s.queue.size g = q.size g
  invited : ∀ g, s.queue.invited g = q.invited g
  team : ∀ g ∈ gs, (s.queue.info g).team = (q.info g).team
  count : ∀ t, playerCount s.queue t = totalSize q (s.queue.selectionPools t).selectedGroups
  room : ∀ t, playerCount s.queue t ≤ room t
  apart : ∀ g t, g ∈ (s.queue.selectionPools t).selectedGroups →
    g ∉ (s.queue.selectionPools t.other).selectedGroups

variable {q : BattlegroundQueue}

theorem mem_update_pools {pools : Team → SelectionPool} {t t' : Team} {pool : SelectionPool}
    {g' : Nat} (hpool : pool.selectedGroups = (pools t).selectedGroups ++ [g])
    (h : g' ∈ (Function.update pools t pool t').selectedGroups) :
    g' ∈ (pools t').selectedGroups ∨ g' = g ∧ t' = t := by
  by_cases ht : t' = t
  · subst ht
    rw [Function.update_self,hpool] at h
    rcases List.mem_append.mp h with h | h
    · exact .inl h
    · exact .inr ⟨List.mem_singleton.mp h,rfl⟩
  · rw [Function.update_of_ne ht] at h
    exact .inl h

theorem CountInv.step (minPlayers : Nat) (h : CountInv q room (g :: gs) s) (hg : g ∉ gs) :
    CountInv q room gs (mixedStep minPlayers room s g) := by
  have hteam : ∀ g' ∈ gs, ((mixedStep minPlayers room s g).queue.info g').team =
      (q.info g').team := by
    intro g' hg'
    have hne : g' ≠ g := by
      rintro rfl
      exact hg hg'
    rw [(mixedStep_frame minPlayers room s g g').2.2 hne]
    exact h.team g' (List.mem_cons_of_mem _ hg')
  have hsize := fun g' => (mixedStep_frame minPlayers room s g g').1.trans (h.size g')
  have hinvited := fun g' => (mixedStep_frame minPlayers room s g g').2.1.trans (h.invited g')
  by_cases hskip : s.skips minPlayers g
  · have hstep : mixedStep minPlayers room s g = s := if_pos hskip
    rw [hstep] at hteam ⊢
    exact ⟨h.size,h.invited,hteam,h.count,h.room,h.apart⟩
  by_cases hfits : playerCount s.queue (s.chosen g)+s.queue.size g ≤ room (s.chosen g)
  · have hpools := (mixedStep_fits hskip hfits).2
    set t := s.chosen g
    have hother : ∀ t', t' ≠ t → (mixedStep minPlayers room s g).queue.selectionPools t' =
        s.queue.selectionPools t' := by
      intro t' ht
      rw [hpools,Function.update_of_ne ht]
    have hself := congrFun hpools t
    rw [Function.update_self] at hself
    refine ⟨hsize,hinvited,hteam,fun t' => ?_,fun t' => ?_,fun g' t' hg' hg'' => ?_⟩
    · by_cases ht : t' = t
      · subst ht
        unfold playerCount
        rw [hself]
        simp only [totalSize_append,totalSize_cons,totalSize_nil]
        rw [← h.count,h.size]
        rfl
      · unfold playerCount
        rw [hother t' ht]
        exact h.count t'
    · by_cases ht : t' = t
      · subst ht
        unfold playerCount
        rw [hself]
        exact hfits
      · unfold playerCount
        rw [hother t' ht]
        exact h.room t'
    · -- the new group was in no pool
      rw [hpools] at hg' hg''
      have hne : t'.other ≠ t' := by cases t' <;> exact nofun
      rcases mem_update_pools rfl hg' with hin | ⟨hnew,ht⟩
      · rcases mem_update_pools rfl hg'' with hin' | ⟨hnew,-⟩
        · exact h.apart g' t' hin hin'
        · exact hskip (.inr (.inl ⟨t',hnew ▸ hin⟩))
      · rcases mem_update_pools rfl hg'' with hin' | ⟨-,ht'⟩
        · exact hskip (.inr (.inl ⟨t'.other,hnew ▸ hin'⟩))
        · exact hne (ht'.trans ht.symm)
  · have hpools := (mixedStep_misfits hskip hfits).2
    have hsame : ∀ t, playerCount (mixedStep minPlayers room s g).queue t =
        playerCount s.queue t := fun t => congrArg SelectionPool.playerCount (congrFun hpools t)
    refine ⟨hsize,hinvited,hteam,fun t => ?_,fun t => ?_,fun g' t => ?_⟩
    · rw [hsame,hpools]
      exact h.count t
    · rw [hsame]
      exact h.room t
    · rw [hpools]
      exact h.apart g' t

theorem CountInv.foldl (minPlayers : Nat) (h : CountInv q room gs s) (hnd : gs.Nodup) :
    CountInv q room [] (gs.foldl (mixedStep minPlayers room) s) := by
  induction gs generalizing s with
  | nil => exact h
  | cons g gs ih =>
    obtain ⟨hg,hnd⟩ := List.nodup_cons.mp hnd
    exact ih (h.step minPlayers hg) hnd

def emptier (room count : Team → Nat) (own : Team) : Team :=
  if room .alliance-count .alliance = room .horde-count .horde then own
  else if room .alliance-count .alliance < room .horde-count .horde then .horde else .alliance

/-- The groups are dealt out to the emptier team as long as a team is below the minimum, and
each fits unless that team is full. -/
def Deals (q : BattlegroundQueue) (minPlayers : Nat) (room : Team → Nat) :
    (Team → Nat) → List Nat → Prop
  | _, [] => True
  | count, g :: gs => (∀ t, minPlayers ≤ count t) ∨
      let t := emptier room count (q.info g).team
      if count t+q.size g ≤ room t then
        Deals q minPlayers room (Function.update count t (count t+q.size g)) gs
      else count t = room t ∧ Deals q minPlayers room count gs

theorem Deals.of_enough {count : Team → Nat} (h : ∀ t, minPlayers ≤ count t) (gs : List Nat) :
    Deals q minPlayers room count gs := by
  cases gs with
  | nil => trivial
  | cons g gs => exact .inl h

theorem Exact.chosen_eq (h : Exact room s) (hinv : CountInv q room (g :: gs) s) :
    s.chosen g = emptier room (playerCount s.queue) (q.info g).team := by
  have hali := hinv.room .alliance
  have hhorde := hinv.room .horde
  unfold Counting.chosen emptier
  rw [h .alliance,h .horde,hinv.team g List.mem_cons_self]
  congr 1
  · simp only [eq_iff_iff]
    omega
  · congr 1
    simp only [eq_iff_iff]
    omega

theorem forall_prefix_cons {α β : Type} {P : β → Prop} (f : β → α → β) (s : β) (a : α) (l : List α) :
    (∀ pre, pre <+: a :: l → P (pre.foldl f s)) ↔
      P s ∧ ∀ pre, pre <+: l → P (pre.foldl f (f s a)) := by
  constructor
  · exact fun h => ⟨h [] (List.nil_prefix),fun pre hpre => h (a :: pre) (by simpa using hpre)⟩
  · rintro ⟨hs,h⟩ pre hpre
    cases pre with
    | nil => exact hs
    | cons a' pre =>
      obtain ⟨rfl,hrest⟩ := List.cons_prefix_cons.mp hpre
      exact h pre hrest

def toDeal (q : BattlegroundQueue) (added gs : List Nat) : List Nat :=
  gs.filter fun g => !q.invited g && g ∉ added

/-- From exact counters on, the counters are exact in every round exactly when the groups can be
dealt out. -/
theorem exact_iff_deals {added : List Nat} (h : Exact room s) (hinv : CountInv q room gs s)
    (hnd : gs.Nodup) (hadded : ∀ g ∈ gs, g ∈ added ↔ ∃ t, g ∈ (s.queue.selectionPools t).selectedGroups) :
    (∀ pre, pre <+: gs → Exact room (pre.foldl (mixedStep minPlayers room) s)) ↔
      Deals q minPlayers room (playerCount s.queue) (toDeal q added gs) := by
  induction gs generalizing s with
  | nil =>
    refine iff_of_true (fun pre hpre => ?_) trivial
    rw [List.prefix_nil.mp hpre]
    exact h
  | cons g gs ih =>
    obtain ⟨hg,hnd⟩ := List.nodup_cons.mp hnd
    rw [forall_prefix_cons,and_iff_right h]
    have hself := hadded g List.mem_cons_self
    have hothers := fun g' hg' => hadded g' (List.mem_cons_of_mem _ hg')
    have hinv' := hinv.step minPlayers hg
    by_cases hskip : s.skips minPlayers g
    · have hstep : mixedStep minPlayers room s g = s := if_pos hskip
      rw [hstep] at hinv' ⊢
      refine (ih h hinv' hnd hothers).trans ?_
      have hleft : s.queue.invited g = true ∨ g ∈ added →
          toDeal q added (g :: gs) = toDeal q added gs := by
        intro hout
        refine List.filter_cons_of_neg ?_
        rw [hinv.invited] at hout
        rcases hout with hout | hout
        · simp [hout]
        · simp [hout]
      rcases hskip with hinvited | hin | henough
      · rw [hleft (.inl hinvited)]
      · rw [hleft (.inr (hself.mpr hin))]
      · exact iff_of_true (.of_enough henough _) (.of_enough henough _)
    · have hnot : ¬∀ t, minPlayers ≤ playerCount s.queue t := fun henough => hskip (.inr (.inr henough))
      have hdealt : toDeal q added (g :: gs) = g :: toDeal q added gs := by
        refine List.filter_cons_of_pos ?_
        have hfree : q.invited g = false := by
          rw [← hinv.invited]
          simpa using fun hi => hskip (.inl hi)
        have hout : g ∉ added := fun hin => hskip (.inr (.inl (hself.mp hin)))
        simp [hfree,hout]
      rw [hdealt,Deals,or_iff_right hnot]
      simp only
      rw [← h.chosen_eq hinv,← hinv.size]
      split_ifs with hfits
      · obtain ⟨hfree,hpools⟩ := mixedStep_fits hskip hfits
        have hcount : playerCount (mixedStep minPlayers room s g).queue =
            Function.update (playerCount s.queue) (s.chosen g)
              (playerCount s.queue (s.chosen g)+s.queue.size g) := by
          funext t
          unfold playerCount
          rw [hpools]
          by_cases ht : t = s.chosen g
          · rw [ht,Function.update_self,Function.update_self]
            rfl
          · rw [Function.update_of_ne ht,Function.update_of_ne ht]
        rw [← hcount]
        refine ih (fun t => ?_) hinv' hnd fun g' hg' => (hothers g' hg').trans ?_
        · rw [hfree,hcount]
          by_cases ht : t = s.chosen g
          · rw [ht,Function.update_self,Function.update_self,h]
            omega
          · rw [Function.update_of_ne ht,Function.update_of_ne ht]
            exact h t
        · rw [hpools]
          have hne : g' ≠ g := fun heq => hg (heq ▸ hg')
          refine exists_congr fun t => ⟨fun hin => ?_,fun hin => ?_⟩
          · by_cases ht : t = s.chosen g
            · subst ht
              rw [Function.update_self]
              exact List.mem_append_left _ hin
            · rw [Function.update_of_ne ht]
              exact hin
          · exact (mem_update_pools rfl hin).resolve_right fun hnew => hne hnew.1
      · obtain ⟨hfree,hpools⟩ := mixedStep_misfits hskip hfits
        have hcount : playerCount (mixedStep minPlayers room s g).queue = playerCount s.queue := by
          funext t
          unfold playerCount
          rw [hpools]
        have hroom := hinv.room (s.chosen g)
        by_cases hfull : playerCount s.queue (s.chosen g) < room (s.chosen g)
        · -- the group is counted but not added
          rw [if_pos hfull] at hfree
          refine iff_of_false (fun hall => ?_) (fun hdeals => absurd hdeals.1 hfull.ne)
          have hexact := hall [] List.nil_prefix (s.chosen g)
          rw [List.foldl_nil,hfree,hcount,Function.update_self,h] at hexact
          omega
        · rw [if_neg hfull] at hfree
          rw [and_iff_right (by omega),← hcount]
          refine ih (fun t => ?_) hinv' hnd fun g' hg' => ?_
          · rw [hfree,hcount]
            exact h t
          · rw [hpools]
            exact hothers g' hg'

end Dealing

section Start

variable {t : Team} {gs : List Nat} {g : Nat}

def slots (bg : Battleground) (start : Bool) (t : Team) : Nat :=
  if start then bg.maxPlayersPerTeam else bg.freeSlots t

def counting (q : BattlegroundQueue) (bg : Battleground) (b : Fin 16) (start : Bool) : Counting :=
  if start then
    let (valiFree,vhordeFree,q') := preAdd q.initPools b bg.maxPlayersPerTeam bg.maxPlayersPerTeam
    ⟨fun | .alliance => valiFree | .horde => vhordeFree,q'⟩
  else ⟨fun t => bg.freeSlots t,q.initPools⟩

def dealOrder (q : BattlegroundQueue) (b : Fin 16) : List Nat :=
  bySizeDescending q (q.queuedGroups (b,.mixed))

theorem nodup_dealOrder (h : (q.queuedGroups (b,.mixed)).Nodup) : (dealOrder q b).Nodup := by
  unfold dealOrder bySizeDescending
  rw [List.nodup_reverse,(List.perm_insertionSort _ _).nodup_iff]
  exact h

theorem fillX_eq {start : Bool} (h : (fillXPlayersToBG q cfg b bg start).1 = true) :
    (fillXPlayersToBG q cfg b bg start).2 = ((dealOrder q b).foldl
      (mixedStep bg.minPlayersPerTeam (slots bg start)) (counting q bg b start)).queue := by
  rw [← fillMixed_eq]
  unfold fillXPlayersToBG at h ⊢
  split at h
  case isFalse => cases h
  case isTrue hbuild =>
    rw [if_pos hbuild]
    cases start with
    | false => rfl
    | true =>
      obtain ⟨f,hf⟩ := poolsOnly_preAdd q.initPools b bg.maxPlayersPerTeam bg.maxPlayersPerTeam
      have horder : bySizeDescending (preAdd q.initPools b bg.maxPlayersPerTeam bg.maxPlayersPerTeam).2.2
          ((preAdd q.initPools b bg.maxPlayersPerTeam bg.maxPlayersPerTeam).2.2.queuedGroups
            (b,.mixed)) = dealOrder q b := by
        rw [hf]
        rfl
      rw [← horder]
      rfl

def startGroups (q : BattlegroundQueue) (bg : Battleground) (b : Fin 16) (start : Bool) (t : Team) :
    List Nat :=
  if start then preAdded q b bg.maxPlayersPerTeam t else []

theorem counting_pools (q : BattlegroundQueue) (bg : Battleground) (b : Fin 16) (start : Bool)
    (t : Team) : ((counting q bg b start).queue.selectionPools t).selectedGroups =
      startGroups q bg b start t ∧
    playerCount (counting q bg b start).queue t = totalSize q (startGroups q bg b start t) := by
  cases start with
  | false => exact ⟨rfl,rfl⟩
  | true =>
    exact ⟨preAdd_selected b _ t,congrArg SelectionPool.playerCount ((preAdd_pools b _).2.2 t)⟩

theorem mem_greedy (left : Nat) (h : g ∈ greedy q left gs) : g ∈ gs := by
  induction gs generalizing left with
  | nil => exact h
  | cons g' gs ih =>
    simp only [greedy] at h
    split_ifs at h
    · rcases List.mem_cons.mp h with rfl | h
      · exact List.mem_cons_self
      · exact List.mem_cons_of_mem _ (ih _ h)
    · exact List.mem_cons_of_mem _ (ih _ h)

theorem counting_inv (q : BattlegroundQueue) (bg : Battleground) (b : Fin 16) (start : Bool)
    (gs : List Nat) : CountInv q (slots bg start) gs (counting q bg b start) := by
  have hinfo : ∀ g, (counting q bg b start).queue.info g = q.info g := by
    intro g
    cases start with
    | false => rfl
    | true =>
      obtain ⟨f,hf⟩ := poolsOnly_preAdd q.initPools b bg.maxPlayersPerTeam bg.maxPlayersPerTeam
      have hqueue : (counting q bg b true).queue = _ := hf
      rw [hqueue]
      rfl
  refine ⟨fun g => ?_,fun g => ?_,fun g _ => by rw [hinfo],fun t => ?_,fun t => ?_,fun g t hg hg' => ?_⟩
  · rw [BattlegroundQueue.size,hinfo]
    rfl
  · rw [BattlegroundQueue.invited,hinfo]
    rfl
  · rw [(counting_pools q bg b start t).1]
    exact (counting_pools q bg b start t).2
  · rw [(counting_pools q bg b start t).2]
    cases start with
    | false => exact Nat.zero_le _
    | true =>
      have hle := totalSize_greedy_le (q := q) (preRoom q b bg.maxPlayersPerTeam)
        (bySizeDescending q (fromTeam q t (uninvitedMixed q b)))
      exact hle.trans (min_le_left _ _)
  · rw [(counting_pools q bg b start _).1] at hg hg'
    cases start with
    | false => cases hg
    | true =>
      -- a group comes from one team
      have hside : ∀ t, g ∈ startGroups q bg b true t → originalTeam q g = t := by
        intro t hg
        exact (mem_fromTeam.mp (mem_bySizeDescending.mp (mem_greedy _ hg))).2
      have heq := (hside t hg).symm.trans (hside t.other hg')
      cases t <;> cases heq

theorem exact_counting_iff (q : BattlegroundQueue) (bg : Battleground) (b : Fin 16) (start : Bool) :
    Exact (slots bg start) (counting q bg b start) ↔ (start = true → ∀ t,
      2*totalSize q (preAdded q b bg.maxPlayersPerTeam t) = preRoom q b bg.maxPlayersPerTeam) := by
  cases start with
  | false =>
    refine iff_of_true (fun t => ?_) nofun
    rw [(counting_pools q bg b false t).2]
    exact (sub_zero _).symm
  | true =>
    obtain ⟨hali,hhorde,-⟩ := preAdd_pools (q := q) b bg.maxPlayersPerTeam
    unfold Exact
    simp only [forall_const]
    refine forall_congr' fun t => ?_
    rw [(counting_pools q bg b true t).2]
    have hfree : (counting q bg b true).free t = (bg.maxPlayersPerTeam : Int)-
        ((preRoom q b bg.maxPlayersPerTeam : Int)-
          totalSize q (preAdded q b bg.maxPlayersPerTeam t)) := by
      cases t
      · exact hali
      · exact hhorde
    have hgroups : startGroups q bg b true t = preAdded q b bg.maxPlayersPerTeam t := rfl
    have hslots : slots bg true t = bg.maxPlayersPerTeam := rfl
    rw [hfree,hgroups,hslots]
    omega

/-- The counters follow the pools all the time, so that the next group goes where more slots are
left; in the end the pools fit and no group is in both. -/
structure Accounted (cfg : Settings) (bg : Battleground) (b : Fin 16) (start : Bool)
    (q : BattlegroundQueue) : Prop where
  counters : ∀ pre, pre <+: dealOrder q b → Exact (slots bg start)
    (pre.foldl (mixedStep bg.minPlayersPerTeam (slots bg start)) (counting q bg b start))
  chosen : ∀ pre g s, pre ++ [g] <+: dealOrder q b →
    s = pre.foldl (mixedStep bg.minPlayersPerTeam (slots bg start)) (counting q bg b start) →
    slots bg start (s.chosen g).other+playerCount s.queue (s.chosen g) ≤
      slots bg start (s.chosen g)+playerCount s.queue (s.chosen g).other
  room : ∀ t, totalSize q ((fillXPlayersToBG q cfg b bg start).2.selectionPools t).selectedGroups ≤
    slots bg start t
  count : ∀ t, playerCount (fillXPlayersToBG q cfg b bg start).2 t =
    totalSize q ((fillXPlayersToBG q cfg b bg start).2.selectionPools t).selectedGroups
  apart : ∀ g t, g ∈ ((fillXPlayersToBG q cfg b bg start).2.selectionPools t).selectedGroups →
    g ∉ ((fillXPlayersToBG q cfg b bg start).2.selectionPools t.other).selectedGroups

theorem Exact.chosen_room {room : Team → Nat} {s : Counting} (h : Exact room s) (g : Nat) :
    room (s.chosen g).other+playerCount s.queue (s.chosen g) ≤
      room (s.chosen g)+playerCount s.queue (s.chosen g).other := by
  have hali := h .alliance
  have hhorde := h .horde
  unfold Counting.chosen
  split_ifs with heq hless
  · cases (s.queue.info g).team <;> simp only [Team.other] <;> omega
  · simp only [Team.other]
    omega
  · simp only [Team.other]
    omega

/-- The accounts are right exactly when, for a new battleground, each team has got half of the
players that could be pre-added, and the other groups can be dealt out. -/
theorem accounted_iff {start : Bool} (hbuilds : (fillXPlayersToBG q cfg b bg start).1 = true)
    (hnd : (q.queuedGroups (b,.mixed)).Nodup) :
    Accounted cfg bg b start q ↔
      (start = true → ∀ t, 2*totalSize q (preAdded q b bg.maxPlayersPerTeam t) =
        preRoom q b bg.maxPlayersPerTeam) ∧
      Deals q bg.minPlayersPerTeam (slots bg start)
        (fun t => totalSize q (startGroups q bg b start t))
        (toDeal q (startGroups q bg b start .alliance ++ startGroups q bg b start .horde)
          (dealOrder q b)) := by
  have hinv := counting_inv q bg b start (dealOrder q b)
  have hnodup := nodup_dealOrder hnd
  have hend := hinv.foldl bg.minPlayersPerTeam hnodup
  have hfill := fillX_eq hbuilds
  have hcounts : (fun t => totalSize q (startGroups q bg b start t)) =
      playerCount (counting q bg b start).queue :=
    funext fun t => (counting_pools q bg b start t).2.symm
  have hadded : ∀ g ∈ dealOrder q b,
      g ∈ startGroups q bg b start .alliance ++ startGroups q bg b start .horde ↔
        ∃ t, g ∈ ((counting q bg b start).queue.selectionPools t).selectedGroups := by
    intro g _
    simp only [(counting_pools q bg b start _).1,List.mem_append]
    constructor
    · rintro (hg | hg)
      · exact ⟨_,hg⟩
      · exact ⟨_,hg⟩
    · rintro ⟨t,hg⟩
      cases t
      · exact .inl hg
      · exact .inr hg
  rw [← exact_counting_iff,hcounts]
  constructor
  · intro h
    have hexact := h.counters [] List.nil_prefix
    exact ⟨hexact,(exact_iff_deals hexact hinv hnodup hadded).mp h.counters⟩
  · rintro ⟨hexact,hdeals⟩
    have hcounters := (exact_iff_deals hexact hinv hnodup hadded).mpr hdeals
    refine ⟨hcounters,fun pre g s hpre hs => ?_,fun t => ?_,hfill ▸ hend.count,hfill ▸ hend.apart⟩
    · have hprefix : pre <+: dealOrder q b := (List.prefix_append pre [g]).trans hpre
      exact hs ▸ (hcounters pre hprefix).chosen_room g
    · rw [hfill,← hend.count]
      exact hend.room t

end Start

section Examples

def crossSolos : BattlegroundQueue :=
  [Team.alliance,Team.horde].foldl (fun q t => addGroup crossSettings 1
    ⟨{q.next+1},t,t.id,exampleBracket,0,false,false,0,0,0⟩ q) .empty

theorem accounted_fill :
    Accounted crossSettings crossBattleground exampleBracket false crossSolos := by
  refine (accounted_iff (by decide) (by decide)).mpr ⟨nofun,?_⟩
  have hdeal : toDeal crossSolos (startGroups crossSolos crossBattleground exampleBracket false
      .alliance ++ startGroups crossSolos crossBattleground exampleBracket false .horde)
      (dealOrder crossSolos exampleBracket) = [1,0] := by decide
  rw [hdeal]
  refine .inr ?_
  rw [if_pos (by decide)]
  refine .inr ?_
  rw [if_neg (by decide)]
  exact ⟨by decide,trivial⟩

theorem not_accounted :
    ¬ Accounted crossSettings { crossBattleground with minPlayersPerTeam := 1 } exampleBracket true
      crossSolos := by
  intro h
  have hexact := h.counters [] List.nil_prefix .alliance
  exact absurd hexact (by decide)

end Examples

end TrinityCore.Battlegrounds
