import TrinityCore.Battlegrounds.Partition

set_option autoImplicit false

/-!
Sides in cross-faction battlegrounds. Groups that are pre-added are put in the pool of the
team they come from, all others in the pool of their `Team`, and the invitation goes by
`Team`: the two agree exactly when the pre-added groups still play for the team they come
from.
-/

namespace TrinityCore.Battlegrounds

variable {q : BattlegroundQueue} {g : Nat}

/-- An attempt to invite the mixed queue: to a running battleground, or to a new one. -/
inductive Attempt where
  | fill (cfg : Settings) (now : Nat) (b : Fin 16) (bg : Battleground)
  | start (cfg : Settings) (now : Nat) (b : Fin 16) (bg : Battleground) (created : Option Nat)

/-- The groups are selected. The answer says that they were and are to be invited. -/
def Attempt.select (q : BattlegroundQueue) : Attempt → Bool × BattlegroundQueue
  | .fill cfg _ b bg => fillXPlayersToBG q.initPools cfg b bg false
  | .start cfg _ b bg created =>
      let (found,q) := checkCrossFactionMatch q.initPools cfg b bg
      (found && created.isSome,q)

def Attempt.invite (q : BattlegroundQueue) : Attempt → BattlegroundQueue
  | .fill cfg now _ bg => invitePools cfg now bg.instanceId q
  | .start cfg now _ _ created => invitePools cfg now (created.getD 0) q

def Attempt.step (q : BattlegroundQueue) (a : Attempt) : BattlegroundQueue :=
  let (invited,q) := a.select q
  if invited then a.invite q else q

def Agrees (q : BattlegroundQueue) : Prop :=
  ∀ t, ∀ g ∈ (q.selectionPools t).selectedGroups, (q.info g).team = t

/-- Whoever is invited is invited to the side of his pool; the invitation sets the team to
the side. -/
def InvitedAlike (q : BattlegroundQueue) (a : Attempt) : Prop :=
  (a.select q).1 = true → Agrees (a.step q)

def greedy (q : BattlegroundQueue) : Nat → List Nat → List Nat
  | _, [] => []
  | left, g :: gs => if q.size g ≤ left then g :: greedy q (left-q.size g) gs else greedy q left gs

/-- The uninvited groups that come from a team, largest first, as long as both teams have
such players and the battleground has room. -/
def preAdded (q : BattlegroundQueue) (b : Fin 16) (maxPlayers : Nat) (t : Team) : List Nat :=
  let own := fun t => fromTeam q t (uninvitedMixed q b)
  greedy q (min maxPlayers (min (totalSize q (own .alliance)) (totalSize q (own .horde))))
    (bySizeDescending q (own t))

/-- In an attempt that fills and invites, each group that is to be pre-added plays for the
team it comes from. -/
def StillOwn (q : BattlegroundQueue) (a : Attempt) : Prop :=
  match a with
  | .fill .. => True
  | .start cfg _ b bg _ => (a.select q).1 = true →
      (cfg.testing = true ∨ queuedPeople q b ≥ bg.minPlayersPerTeam*2) →
      ∀ t, ∀ g ∈ preAdded q b bg.maxPlayersPerTeam t, (q.info g).team = t

theorem agrees_congr {q' : BattlegroundQueue} (hp : q'.selectionPools = q.selectionPools)
    (ht : ∀ t, ∀ g ∈ (q.selectionPools t).selectedGroups, (q'.info g).team = (q.info g).team) :
    Agrees q' ↔ Agrees q := by
  unfold Agrees
  rw [hp]
  constructor
  · intro h t g hg
    rw [← ht t g hg]
    exact h t g hg
  · intro h t g hg
    rw [ht t g hg]
    exact h t g hg

theorem addGroup_selected (pool : SelectionPool) (n : Nat) :
    (pool.addGroup q g n).2.selectedGroups = pool.selectedGroups ++ [g] ∨
    (pool.addGroup q g n).2.selectedGroups = pool.selectedGroups := by
  unfold SelectionPool.addGroup
  split_ifs
  · exact .inl rfl
  · exact .inr rfl

theorem agrees_offer {t : Team} {n : Nat} (hg : (q.groups g).isSome)
    (hn : ∀ t, g ∉ (q.selectionPools t).selectedGroups) :
    Agrees ((q.setInfo g { q.info g with team := t }).setPool t
      ((q.selectionPools t).addGroup (q.setInfo g { q.info g with team := t }) g n).2) ↔
    Agrees q := by
  obtain ⟨i,hi⟩ := Option.isSome_iff_exists.mp hg
  set q1 := q.setInfo g { q.info g with team := t } with hq1
  have hself : (q1.info g).team = t := by rw [hq1,BattlegroundQueue.info_setInfo_self hi]
  have hother : ∀ g', g' ≠ g → (q1.info g').team = (q.info g').team :=
    fun g' hg' => by rw [hq1,BattlegroundQueue.info_setInfo_ne _ hg']
  have hne : ∀ t' g', g' ∈ (q.selectionPools t').selectedGroups → g' ≠ g := by
    rintro t' g' hg' rfl
    exact hn t' hg'
  -- the pool of `t` may have got the group, the other one is as before
  have hpool : ∀ t' g', g' ∈ ((q1.setPool t ((q.selectionPools t).addGroup q1 g n).2
      ).selectionPools t').selectedGroups →
      g' ∈ (q.selectionPools t').selectedGroups ∨ (g' = g ∧ t' = t) := by
    intro t' g' hg'
    by_cases htt : t' = t
    · subst htt
      simp only [BattlegroundQueue.setPool,Function.update_self] at hg'
      rcases addGroup_selected (q := q1) (g := g) (q.selectionPools t') n with h | h
      · rw [h] at hg'
        rcases List.mem_append.mp hg' with hg' | hg'
        · exact .inl hg'
        · exact .inr ⟨by simpa using hg',rfl⟩
      · rw [h] at hg'
        exact .inl hg'
    · simp only [BattlegroundQueue.setPool,Function.update_of_ne htt] at hg'
      exact .inl hg'
  have hback : ∀ t' g', g' ∈ (q.selectionPools t').selectedGroups →
      g' ∈ ((q1.setPool t ((q.selectionPools t).addGroup q1 g n).2).selectionPools t').selectedGroups := by
    intro t' g' hg'
    by_cases htt : t' = t
    · subst htt
      simp only [BattlegroundQueue.setPool,Function.update_self]
      rcases addGroup_selected (q := q1) (g := g) (q.selectionPools t') n with h | h
      · rw [h]
        exact List.mem_append_left _ hg'
      · rw [h]
        exact hg'
    · simp only [BattlegroundQueue.setPool,Function.update_of_ne htt]
      exact hg'
  constructor
  · intro h t' g' hg'
    rw [← hother g' (hne t' g' hg')]
    exact h t' g' (hback t' g' hg')
  · intro h t' g' hg'
    rcases hpool t' g' hg' with hm | ⟨rfl,rfl⟩
    · exact (hother g' (hne t' g' hm)).trans (h t' g' hm)
    · exact hself

theorem agrees_fillMixed (n aliFree hordeFree : Nat) (gs : List Nat) (vali vhorde : Int)
    (hg : ∀ g ∈ gs, (q.groups g).isSome) :
    Agrees (fillMixed n aliFree hordeFree gs vali vhorde q) ↔ Agrees q := by
  induction gs generalizing vali vhorde q with
  | nil => exact Iff.rfl
  | cons g gs ih =>
    have hself := hg g (by simp)
    have hrest : ∀ t p, ∀ g' ∈ gs,
        (((q.setInfo g { q.info g with team := t }).setPool t p).groups g').isSome := by
      intro t p g' hg'
      have := hg g' (List.mem_cons_of_mem _ hg')
      by_cases hgg : g' = g
      · subst hgg
        simpa [BattlegroundQueue.setPool,BattlegroundQueue.setInfo] using this
      · simpa [BattlegroundQueue.setPool,BattlegroundQueue.setInfo,hgg] using this
    simp only [fillMixed]
    split_ifs with hskip
    · exact ih vali vhorde (fun g' hg' => hg g' (List.mem_cons_of_mem _ hg'))
    all_goals
      have hn : ∀ t, g ∉ (q.selectionPools t).selectedGroups := by
        intro t ht
        cases t with
        | alliance => exact hskip (.inr (.inl ht))
        | horde => exact hskip (.inr (.inr (.inl ht)))
      first
      | exact (ih _ _ (hrest _ _)).trans (agrees_offer hself hn)
      | split <;> exact (ih _ _ (hrest _ _)).trans (agrees_offer hself hn)

theorem agrees_inviteGroups (cfg : Settings) (now inst : Nat) (gs : List Nat) :
    Agrees (inviteGroups cfg now inst gs q) ↔ Agrees q := by
  induction gs generalizing q with
  | nil => exact Iff.rfl
  | cons g gs ih =>
    refine ih.trans (agrees_congr ?_ (fun t g' _ => ?_))
    · unfold inviteGroupToBG
      simp only
      split_ifs <;> rfl
    · -- the side is the team the group has
      unfold inviteGroupToBG
      simp only
      by_cases hgg : g' = g
      · subst hgg
        cases hi : q.groups g' with
        | none =>
          split_ifs <;> simp [BattlegroundQueue.info,BattlegroundQueue.setInfo,hi]
        | some i =>
          split_ifs <;> rw [BattlegroundQueue.info_setInfo_self hi]
      · split_ifs <;> rw [BattlegroundQueue.info_setInfo_ne _ hgg]

theorem agrees_invitePools (cfg : Settings) (now inst : Nat) :
    Agrees (invitePools cfg now inst q) ↔ Agrees q :=
  (agrees_inviteGroups cfg now inst _).trans (agrees_inviteGroups cfg now inst _)

theorem greedy_congr {q' : BattlegroundQueue} (h : ∀ g, q'.size g = q.size g) (left : Nat)
    (gs : List Nat) : greedy q' left gs = greedy q left gs := by
  induction gs generalizing left with
  | nil => rfl
  | cons g gs ih => simp only [greedy,h,ih]

def originalTeam (q : BattlegroundQueue) (g : Nat) : Team :=
  if (q.info g).oteam = Team.alliance.id then .alliance else .horde

@[simp] theorem totalSize_nil : totalSize q [] = 0 := rfl

@[simp] theorem totalSize_cons (gs : List Nat) : totalSize q (g :: gs) = q.size g+totalSize q gs := by
  simp [totalSize]

theorem preAddPlayers_pools (maxInTeam left : Nat) {t : Team} (gs : List Nat)
    (hside : ∀ g ∈ gs, originalTeam q g = t) (hfree : ∀ g ∈ gs, q.invited g = false)
    (hroom : playerCount q t+left ≤ maxInTeam) :
    (preAddPlayers maxInTeam gs left q).1 = (left : Int)-totalSize q (greedy q left gs) ∧
    (preAddPlayers maxInTeam gs left q).2.selectionPools t =
      ⟨(q.selectionPools t).selectedGroups ++ greedy q left gs,
        playerCount q t+totalSize q (greedy q left gs)⟩ ∧
    (preAddPlayers maxInTeam gs left q).2.selectionPools t.other = q.selectionPools t.other := by
  induction gs generalizing left q with
  | nil => simp [preAddPlayers,greedy,playerCount]
  | cons g gs ih =>
    have hg := hside g List.mem_cons_self
    have hother : t.other ≠ t := by cases t <;> simp [Team.other]
    have hrest : ∀ g' ∈ gs, originalTeam q g' = t :=
      fun g' hg' => hside g' (List.mem_cons_of_mem _ hg')
    have hfree' : ∀ g' ∈ gs, q.invited g' = false :=
      fun g' hg' => hfree g' (List.mem_cons_of_mem _ hg')
    unfold originalTeam at hg
    simp only [preAddPlayers,greedy,hg]
    by_cases hle : q.size g ≤ left
    · have hadd : (q.selectionPools t).addGroup q g maxInTeam =
          (true,⟨(q.selectionPools t).selectedGroups ++ [g],playerCount q t+q.size g⟩) := by
        refine if_pos ⟨by simp [hfree g List.mem_cons_self],?_⟩
        unfold playerCount at hroom
        omega
      have hcast : (left : Int)-q.size g = ((left-q.size g : Nat) : Int) := by omega
      rw [if_pos (by exact_mod_cast hle),if_pos hle,hadd]
      simp only [if_true]
      set q1 := q.setPool t ⟨(q.selectionPools t).selectedGroups ++ [g],playerCount q t+q.size g⟩
      have hsize : ∀ g, q1.size g = q.size g := fun _ => rfl
      have htotal : ∀ gs, totalSize q1 gs = totalSize q gs := fun _ => rfl
      have hcount : playerCount q1 t = playerCount q t+q.size g := by
        simp [q1,playerCount,BattlegroundQueue.setPool]
      obtain ⟨hleft,hpool,hkept⟩ := ih (q := q1) (left-q.size g) hrest hfree' (by omega)
      rw [hsize,hcast,hleft,hpool,hkept,greedy_congr hsize,htotal,hcount,totalSize_cons]
      refine ⟨by omega,?_,?_⟩
      · simp [q1,BattlegroundQueue.setPool,add_assoc]
      · simp [q1,BattlegroundQueue.setPool,hother]
    · rw [if_neg (by exact_mod_cast hle),if_neg hle]
      exact ih left hrest hfree' hroom

theorem mem_fromTeam {t : Team} {gs : List Nat} :
    g ∈ fromTeam q t gs ↔ g ∈ gs ∧ originalTeam q g = t := by
  unfold fromTeam originalTeam
  rw [List.mem_filter]
  refine and_congr_right (fun _ => ?_)
  split_ifs with h
  · cases t <;> simp [h]
  · cases t <;> simp [h]

def preRoom (q : BattlegroundQueue) (b : Fin 16) (n : Nat) : Nat :=
  min n (min (totalSize q (fromTeam q .alliance (uninvitedMixed q b)))
    (totalSize q (fromTeam q .horde (uninvitedMixed q b))))

theorem preAdd_pools (b : Fin 16) (n : Nat) :
    (preAdd q.initPools b n n).1 =
      (n : Int)-((preRoom q b n : Int)-totalSize q (preAdded q b n .alliance)) ∧
    (preAdd q.initPools b n n).2.1 =
      (n : Int)-((preRoom q b n : Int)-totalSize q (preAdded q b n .horde)) ∧
    ∀ t, (preAdd q.initPools b n n).2.2.selectionPools t =
      ⟨preAdded q b n t,totalSize q (preAdded q b n t)⟩ := by
  set own := fun t => bySizeDescending q (fromTeam q t (uninvitedMixed q b)) with hown
  have hsmall : min (min (n : Int) (totalSize q (fromTeam q .alliance (uninvitedMixed q b))))
      (min (n : Int) (totalSize q (fromTeam q .horde (uninvitedMixed q b)))) =
      (preRoom q b n : Int) := by
    unfold preRoom
    omega
  have hmem : ∀ t, ∀ g ∈ own t, originalTeam q g = t ∧ q.invited g = false := by
    intro t g hg
    obtain ⟨hm,ht⟩ := mem_fromTeam.mp (mem_bySizeDescending.mp hg)
    exact ⟨ht,by simpa using (List.mem_filter.mp hm).2⟩
  have hle : preRoom q b n ≤ n := min_le_left _ _
  obtain ⟨hleft,hali,hhorde⟩ := preAddPlayers_pools (q := q.initPools) n (preRoom q b n)
    (own .alliance) (fun g hg => (hmem _ g hg).1) (fun g hg => (hmem _ g hg).2)
    ((Nat.zero_add _).trans_le hle)
  obtain ⟨f,hf⟩ := poolsOnly_preAddPlayers n (own .alliance) (preRoom q b n) q.initPools
  have hpre : preAdd q.initPools b n n =
      ((n : Int)-(preAddPlayers n (own .alliance) (preRoom q b n) q.initPools).1,
        (n : Int)-(preAddPlayers n (own .horde) (preRoom q b n)
          (preAddPlayers n (own .alliance) (preRoom q b n) q.initPools).2).1,
        (preAddPlayers n (own .horde) (preRoom q b n)
          (preAddPlayers n (own .alliance) (preRoom q b n) q.initPools).2).2) := by
    rw [← hsmall]
    rfl
  rw [hpre]
  generalize (preAddPlayers n (own .alliance) (preRoom q b n) q.initPools) = r at hleft hali hhorde hf
  obtain ⟨left,q1⟩ := r
  simp only at hleft hali hhorde hf ⊢
  have hinfo : ∀ g, q1.info g = q.info g := fun g => by rw [hf]; rfl
  have hsize : ∀ g, q1.size g = q.size g := fun g => by rw [hf]; rfl
  have hempty : q1.selectionPools .horde = .init := hhorde
  have hroom : playerCount q1 .horde+preRoom q b n ≤ n := by
    unfold playerCount
    rw [hempty]
    exact (Nat.zero_add _).trans_le hle
  obtain ⟨hleft',hhorde',hali'⟩ := preAddPlayers_pools n (preRoom q b n) (own .horde)
    (fun g hg => by rw [originalTeam,hinfo]; exact (hmem _ g hg).1)
    (fun g hg => by rw [BattlegroundQueue.invited,hinfo]; exact (hmem _ g hg).2) hroom
  have htotal : ∀ gs, totalSize q1 gs = totalSize q gs := by
    intro gs
    unfold totalSize
    rw [funext hsize]
  have hgreedy : ∀ t, greedy q (preRoom q b n) (own t) = preAdded q b n t := fun _ => rfl
  have hgreedy' : ∀ gs, greedy q.initPools (preRoom q b n) gs = greedy q (preRoom q b n) gs := by
    intro gs
    refine greedy_congr ?_ _ _
    exact fun _ => rfl
  rw [hgreedy',hgreedy] at hleft hali
  rw [greedy_congr hsize,hgreedy,htotal] at hleft' hhorde'
  refine ⟨by rw [hleft]; rfl,by rw [hleft'],fun t => ?_⟩
  cases t with
  | alliance =>
    rw [show (preAddPlayers n (own .horde) (preRoom q b n) q1).2.selectionPools .alliance =
      q1.selectionPools .alliance from hali',hali]
    exact congrArg _ (Nat.zero_add _)
  | horde =>
    rw [hhorde']
    unfold playerCount
    rw [hempty]
    exact congrArg _ (Nat.zero_add _)

theorem preAdd_selected (b : Fin 16) (n : Nat) (t : Team) :
    ((preAdd q.initPools b n n).2.2.selectionPools t).selectedGroups = preAdded q b n t := by
  rw [(preAdd_pools b n).2.2 t]

theorem agrees_initPools : Agrees q.initPools := by
  intro t g hg
  simp [BattlegroundQueue.initPools,SelectionPool.init] at hg

def Listed (q : BattlegroundQueue) : Prop := ∀ s, ∀ g ∈ q.queuedGroups s, (q.groups g).isSome

theorem Inv.isListed {e : Option Nat} (h : Inv e q) : Listed q := by
  intro s g hg
  obtain ⟨i,hi,-⟩ := h.listed s g hg
  simp [hi]

theorem fillX_running {cfg : Settings} (b : Fin 16) (bg : Battleground)
    (h : cfg.crossFaction = true) :
    (fillXPlayersToBG q cfg b bg false).2 =
      fillMixed bg.minPlayersPerTeam (bg.freeSlots .alliance) (bg.freeSlots .horde)
        (bySizeDescending q.initPools (q.queuedGroups (b,.mixed))) (bg.freeSlots .alliance)
        (bg.freeSlots .horde) q.initPools := by
  unfold fillXPlayersToBG
  rw [if_pos (by simp [h])]
  rfl

theorem fillX_start {cfg : Settings} (b : Fin 16) (bg : Battleground)
    (h : cfg.crossFaction = true)
    (hc : cfg.testing = true ∨ queuedPeople q b ≥ bg.minPlayersPerTeam*2) :
    (fillXPlayersToBG q cfg b bg true).2 =
      let r := preAdd q.initPools b bg.maxPlayersPerTeam bg.maxPlayersPerTeam
      fillMixed bg.minPlayersPerTeam bg.maxPlayersPerTeam bg.maxPlayersPerTeam
        (bySizeDescending r.2.2 (r.2.2.queuedGroups (b,.mixed))) r.1 r.2.1 r.2.2 := by
  unfold fillXPlayersToBG
  rw [if_pos (by rcases hc with hc | hc <;> simp [h,hc])]
  rfl

theorem agrees_fill (h : Listed q) (cfg : Settings) (b : Fin 16) (bg : Battleground) :
    Agrees (fillXPlayersToBG q.initPools cfg b bg false).2 := by
  by_cases hcf : cfg.crossFaction = true
  · rw [fillX_running b bg hcf]
    refine (agrees_fillMixed _ _ _ _ _ _ (fun g hg => ?_)).mpr agrees_initPools
    exact h (b,.mixed) g (mem_bySizeDescending.mp hg)
  · unfold fillXPlayersToBG
    rw [if_neg (by simp [hcf])]
    exact agrees_initPools

theorem agrees_start (h : Listed q) (cfg : Settings) (b : Fin 16) (bg : Battleground)
    (hcf : cfg.crossFaction = true)
    (hc : cfg.testing = true ∨ queuedPeople q b ≥ bg.minPlayersPerTeam*2) :
    Agrees (fillXPlayersToBG q.initPools cfg b bg true).2 ↔
      ∀ t, ∀ g ∈ preAdded q b bg.maxPlayersPerTeam t, (q.info g).team = t := by
  obtain ⟨f,hf⟩ := poolsOnly_preAdd q.initPools b bg.maxPlayersPerTeam bg.maxPlayersPerTeam
  have hsel := fun t => preAdd_selected (q := q) b bg.maxPlayersPerTeam t
  have hinit : q.initPools.initPools = q.initPools := rfl
  rw [fillX_start (q := q.initPools) b bg hcf hc,hinit]
  simp only [hf] at hsel ⊢
  refine (agrees_fillMixed _ _ _ _ _ _ (fun g hg => ?_)).trans ?_
  · exact h (b,.mixed) g (mem_bySizeDescending.mp hg)
  · unfold Agrees
    simp only [hsel]
    rfl

theorem invitedAlike_iff (h : Listed q) (a : Attempt) : InvitedAlike q a ↔ StillOwn q a := by
  unfold InvitedAlike Attempt.step
  cases a with
  | fill cfg now b bg =>
    refine iff_of_true (fun hi => ?_) trivial
    simp only [hi,if_true,Attempt.invite]
    exact (agrees_invitePools cfg now _).mpr (agrees_fill h cfg b bg)
  | start cfg now b bg created =>
    unfold StillOwn
    refine forall_congr' (fun hi => ?_)
    have hstep : Agrees (if (Attempt.select q (.start cfg now b bg created)).1 = true then
        Attempt.invite (Attempt.select q (.start cfg now b bg created)).2 (.start cfg now b bg created)
        else (Attempt.select q (.start cfg now b bg created)).2) ↔
        Agrees (checkCrossFactionMatch q.initPools cfg b bg).2 := by
      rw [if_pos hi]
      exact agrees_invitePools cfg now _
    refine hstep.trans ?_
    simp only [Attempt.select,Bool.and_eq_true] at hi
    have hfound := hi.1
    unfold checkCrossFactionMatch at hfound ⊢
    split_ifs at hfound ⊢ with hcf
    have hcf' : cfg.crossFaction = true := by simp at hcf; exact hcf.1
    have hq : ∀ b' : Bool × BattlegroundQueue, b'.2 = (fillXPlayersToBG q.initPools cfg b bg true).2 →
        (Agrees b'.2 ↔ Agrees (fillXPlayersToBG q.initPools cfg b bg true).2) :=
      fun b' hb => by rw [hb]
    refine (hq _ (by simp only; split_ifs <;> rfl)).trans ?_
    by_cases hc : cfg.testing = true ∨ queuedPeople q b ≥ bg.minPlayersPerTeam*2
    · simp only [hc,forall_const]
      exact agrees_start h cfg b bg hcf' hc
    · -- too few players: the pools stay empty
      refine iff_of_true ?_ (fun hc' => absurd hc' hc)
      have hno : ¬ (cfg.crossFaction && (cfg.testing ||
          queuedPeople q.initPools b ≥ bg.minPlayersPerTeam*2 || !true)) = true := by
        intro hcond
        simp [hcf'] at hcond
        exact hc hcond
      unfold fillXPlayersToBG
      rw [if_neg hno]
      exact agrees_initPools

theorem Inv.attempt (h : Inv none q) (a : Attempt) : Inv none (a.step q) := by
  have hi := h.pools fun _ => .init
  unfold Attempt.step
  cases a with
  | fill cfg now b bg =>
    have hf := Inv.fillX hi cfg b bg false
    simp only
    split_ifs
    · exact Inv.invitePools hf cfg now _
    · exact hf
  | start cfg now b bg created =>
    have hf := Inv.crossFaction hi cfg b bg
    simp only
    split_ifs
    · exact Inv.invitePools hf cfg now _
    · exact hf

/-- In every sequence of attempts on a queue that its operations have built, everyone is
invited to the side of his pool in every attempt exactly when, before every attempt that
starts a battleground, the groups to be pre-added play for the team they come from. -/
theorem attempts_alike_iff (ops : List Op) (hops : Run.Guarded step Joinable .empty ops)
    (as : List Attempt) :
    Run.Guarded Attempt.step InvitedAlike (Run.exec step .empty ops) as ↔
      Run.Guarded Attempt.step StillOwn (Run.exec step .empty ops) as := by
  have hi : Inv none (Run.exec step .empty ops) :=
    hops.inv (fun _ op hi ho => hi.step op ho) inv_empty
  generalize Run.exec step .empty ops = q at hi ⊢
  induction as generalizing q with
  | nil => exact Iff.rfl
  | cons a as ih =>
    exact and_congr (invitedAlike_iff hi.isListed a) (ih _ (hi.attempt a))

section Update

theorem fillMixed_queuedGroups (n aliFree hordeFree : Nat) (gs : List Nat) (vali vhorde : Int) :
    (fillMixed n aliFree hordeFree gs vali vhorde q).queuedGroups = q.queuedGroups := by
  induction gs generalizing vali vhorde q with
  | nil => rfl
  | cons g gs ih =>
    simp only [fillMixed]
    split_ifs
    · exact ih _ _
    all_goals first | exact ih _ _ | (split <;> exact ih _ _)

theorem inviteGroups_queuedGroups (cfg : Settings) (now inst : Nat) (gs : List Nat) :
    (inviteGroups cfg now inst gs q).queuedGroups = q.queuedGroups := by
  induction gs generalizing q with
  | nil => rfl
  | cons g gs ih => exact ih.trans (inviteGroupToBG_queuedGroups cfg now inst _)

theorem invitePools_queuedGroups (cfg : Settings) (now inst : Nat) :
    (invitePools cfg now inst q).queuedGroups = q.queuedGroups :=
  (inviteGroups_queuedGroups cfg now inst _).trans (inviteGroups_queuedGroups cfg now inst _)

variable {cfg : Settings} {now : Nat} {b : Fin 16}

theorem fill_queuedGroups (bg : Battleground) (hcf : cfg.crossFaction = true) :
    (Attempt.step q (.fill cfg now b bg)).queuedGroups = q.queuedGroups := by
  unfold Attempt.step
  have hf : (fillXPlayersToBG q.initPools cfg b bg false).2.queuedGroups = q.queuedGroups := by
    rw [fillX_running b bg hcf]
    exact fillMixed_queuedGroups _ _ _ _ _ _
  by_cases hd : (fillXPlayersToBG q.initPools cfg b bg false).1 = true
  · simp only [Attempt.select,hd,if_true]
    exact (invitePools_queuedGroups cfg now _).trans hf
  · simp only [Attempt.select,hd]
    exact hf

theorem fillFreeSlots_eq (bg : Battleground) (hcf : cfg.crossFaction = true)
    (ha : bg.isArena = false) :
    fillFreeSlots cfg now b q (true,bg) = Attempt.step q (.fill cfg now b bg) := by
  have hdone : (fillXPlayersToBG q.initPools cfg b bg false).1 = true := by
    unfold fillXPlayersToBG
    rw [if_pos (by simp [hcf])]
  simp only [fillFreeSlots,fillPlayersToBG,ha,Attempt.step,Attempt.select,hdone,if_true]
  rfl

/-- Without groups in the regular queues the normal match fails and leaves the pools empty. -/
theorem checkNormalMatch_empty {n m : Nat} (hn : 0 < n)
    (he : ∀ t, q.queuedGroups (b,.normal t) = []) :
    checkNormalMatch cfg b true n m q.initPools = (false,q.initPools) := by
  have ha : q.initPools.queuedGroups (b,.normalAlliance) = [] := he .alliance
  have hh : q.initPools.queuedGroups (b,.normalHorde) = [] := he .horde
  have hp : ∀ t, q.initPools.selectionPools t = .init := fun _ => rfl
  have hset : (q.initPools.setPool .alliance .init).setPool .horde .init = q.initPools := by
    simp only [BattlegroundQueue.setPool,BattlegroundQueue.initPools,BattlegroundQueue.mk.injEq,
      true_and,and_true]
    funext t
    cases t <;> simp
  unfold checkNormalMatch
  simp only [ha,hh,hp,selectTeam]
  simp [SelectionPool.init,hn.ne']
  exact hset

theorem startPremade_empty {n m : Nat} {bg : Battleground} {created : Option Nat}
    (he : ∀ t, q.queuedGroups (b,.premade t) = []) :
    startPremade cfg now b created bg n m q = (true,q) := by
  have ha : q.queuedGroups (b,.premadeAlliance) = [] := he .alliance
  have hstay : ∀ t, premadeToNormal cfg now b n t q = q := fun t => by
    simp [premadeToNormal,he]
  unfold startPremade checkPremadeMatch
  simp [ha,firstUninvited,hstay]

theorem startNormal_eq {n m : Nat} {bg : Battleground} {created : Option Nat} (hn : 0 < n)
    (he : ∀ t, q.queuedGroups (b,.normal t) = []) (ha : bg.isArena = false) :
    startNormal cfg now b created bg n m q.initPools =
      Attempt.step q (.start cfg now b bg created) := by
  have hm : checkMatch cfg b bg n m q.initPools = checkCrossFactionMatch q.initPools cfg b bg := by
    unfold checkMatch
    simp [ha,checkNormalMatch_empty hn he]
  obtain ⟨⟨found,q'⟩,hr⟩ : ∃ r, checkCrossFactionMatch q.initPools cfg b bg = r := ⟨_,rfl⟩
  simp only [startNormal,Attempt.step,Attempt.select,hm,hr]
  cases found <;> cases created <;> rfl

def UpdateInput.attempts (u : UpdateInput) (cfg : Settings) (now : Nat) (b : Fin 16)
    (bg : Battleground) : List Attempt :=
  (u.freeSlotQueue.filter (·.1)).map (fun f => .fill cfg now b f.2) ++
    [.start cfg now b bg u.created]

theorem exec_fills (now : Nat) (fs : List (Bool × Battleground)) (hcf : cfg.crossFaction = true)
    (ha : ∀ f ∈ fs, f.2.isArena = false) :
    fs.foldl (fillFreeSlots cfg now b) q =
      Run.exec Attempt.step q ((fs.filter (·.1)).map fun f => .fill cfg now b f.2) ∧
    (fs.foldl (fillFreeSlots cfg now b) q).queuedGroups = q.queuedGroups := by
  induction fs generalizing q with
  | nil => exact ⟨rfl,rfl⟩
  | cons f fs ih =>
    obtain ⟨may,bg⟩ := f
    have hrest := fun f hf => ha f (List.mem_cons_of_mem _ hf)
    cases may with
    | false => simpa [fillFreeSlots] using ih hrest
    | true =>
      obtain ⟨h1,h2⟩ := ih (q := Attempt.step q (.fill cfg now b bg)) hrest
      rw [List.foldl_cons,fillFreeSlots_eq bg hcf (ha (true,bg) (by simp))]
      exact ⟨by rw [h1]; rfl,h2.trans (fill_queuedGroups bg hcf)⟩

/-- When all who wait in the bracket wait in the mixed queue, an update that is not rated is
the sequence of its attempts. -/
theorem update_attempts (u : UpdateInput) (bg : Battleground) (hcf : cfg.crossFaction = true)
    (hu : u.template = some bg) (hb : u.bracketEntry = true) (hr : u.isRated = false)
    (ha : bg.isArena = false) (hfs : ∀ f ∈ u.freeSlotQueue, f.2.isArena = false)
    (hmin : 0 < bg.minPlayersPerTeam) (hmixed : q.queuedGroups (b,.mixed) ≠ [])
    (hp : ∀ t, q.queuedGroups (b,.premade t) = [])
    (hn : ∀ t, q.queuedGroups (b,.normal t) = []) :
    battlegroundQueueUpdate cfg now b u q = Run.exec Attempt.step q (u.attempts cfg now b bg) := by
  obtain ⟨hfills,hkept⟩ := exec_fills (q := q) (b := b) now u.freeSlotQueue hcf hfs
  have hsome : ¬ (GroupType.all.all fun t => (q.queuedGroups (b,t)).isEmpty) = true := by
    simp only [List.all_eq_true,List.isEmpty_iff,not_forall]
    exact ⟨.mixed,by decide,hmixed⟩
  have hpos : 0 < if cfg.testing then 1 else bg.minPlayersPerTeam := by split_ifs <;> omega
  unfold battlegroundQueueUpdate UpdateInput.attempts
  rw [if_neg hsome,Run.exec_append,← hfills]
  set q1 := u.freeSlotQueue.foldl (fillFreeSlots cfg now b) q
  have hp1 : ∀ t, q1.initPools.queuedGroups (b,.premade t) = [] := fun t => by
    rw [← hp t,← hkept]
    rfl
  have hn1 : ∀ t, q1.queuedGroups (b,.normal t) = [] := fun t => by rw [hkept,hn t]
  simp only [hu,hb,ha,hr,Bool.not_true,Bool.not_false,startPremade_empty hp1,if_true]
  exact startNormal_eq hpos hn1 ha

end Update

def crossSettings : Settings := ⟨true,false,false,0,0,1800000,150,600000,40000⟩

/-- A battleground for 2 to 5 players a side that lacks one player of the horde. -/
def crossBattleground : Battleground :=
  ⟨9,false,false,2,5,fun | .alliance => 0 | .horde => 1⟩

def crossOps : List Op :=
  [.addGroup crossSettings 1 ⟨{1,2},.horde,67,exampleBracket,0,false,false,0,0,0⟩,
   .addGroup crossSettings 2 ⟨{3,4},.alliance,469,exampleBracket,0,false,false,0,0,0⟩]

theorem crossOps_joinable : Run.Guarded step Joinable .empty crossOps :=
  ⟨⟨by decide,by decide⟩,⟨by decide,by decide⟩,trivial⟩

def crossUpdate : UpdateInput :=
  ⟨[(true,crossBattleground)],some crossBattleground,true,0,false,0,none,some 10⟩

/-- The attempt to fill the running battleground selects nobody and turns the groups' teams;
the new battleground then has the horde's group in the alliance's pool. -/
theorem pools_disagree_after_fill :
    battlegroundQueueUpdate crossSettings 5 exampleBracket crossUpdate (Run.exec step .empty crossOps) =
      Run.exec Attempt.step (Run.exec step .empty crossOps)
        (crossUpdate.attempts crossSettings 5 exampleBracket crossBattleground) ∧
    ¬ Run.Guarded Attempt.step InvitedAlike (Run.exec step .empty crossOps)
      (crossUpdate.attempts crossSettings 5 exampleBracket crossBattleground) := by
  refine ⟨update_attempts crossUpdate crossBattleground rfl rfl rfl rfl rfl (by decide) (by decide)
    (by decide) ?_ ?_,fun h => ?_⟩
  · intro t
    cases t <;> rfl
  · intro t
    cases t <;> rfl
  · have hsel := h.2.1 (by decide +kernel) .alliance 1 (by decide +kernel)
    exact absurd hsel (by decide +kernel)

theorem attempts_alike_start :
    Run.Guarded step Joinable .empty crossOps ∧
    Run.Guarded Attempt.step InvitedAlike (Run.exec step .empty crossOps)
      [.start crossSettings 6 exampleBracket crossBattleground (some 10)] := by
  refine ⟨crossOps_joinable,(attempts_alike_iff crossOps crossOps_joinable _).mpr ⟨?_,trivial⟩⟩
  intro _ _ t
  cases t <;> decide +kernel

end TrinityCore.Battlegrounds
