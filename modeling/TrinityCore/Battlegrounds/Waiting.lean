import TrinityCore.Lib.CyclicClock
import TrinityCore.Battlegrounds.Partition

set_option autoImplicit false

/-!
How long a group has waited. The queue compares the stamp of its joining with `now` minus a
timer: for premade groups as numbers from 0 on, for rated ones as signed numbers. So the clock
of the first begins with the server, and that of the second halfway through the range.
-/

namespace TrinityCore.Battlegrounds

variable {cfg : Settings} {now minPlayers maxPlayers : Nat} {b : Fin 16} {q : BattlegroundQueue}
  {t : Team} {g : Nat}

def elapsed (now : Nat) (q : BattlegroundQueue) (g : Nat) : Nat := sub32 now (q.info g).joinTime

def inRatingWindow (cfg : Settings) (q : BattlegroundQueue) (arenaRating g : Nat) : Bool :=
  let min := if arenaRating ≤ cfg.maxRatingDifference then 0 else arenaRating-cfg.maxRatingDifference
  let max := (arenaRating+cfg.maxRatingDifference) % 2^32
  (q.info g).arenaMatchmakerRating ≥ min && (q.info g).arenaMatchmakerRating ≤ max

def Moves (cfg : Settings) (now minPlayers maxPlayers : Nat) (b : Fin 16) (q : BattlegroundQueue)
    (t : Team) (g : Nat) : Prop :=
  (checkPremadeMatch cfg now b minPlayers maxPlayers q).2.queuedGroups (b,.normal t) =
    g :: q.queuedGroups (b,.normal t)

/-- Who is moved to the normal queue has waited or is too small, and who is matched outside the
rating window has waited. -/
structure WaitSafe (cfg : Settings) (now minPlayers maxPlayers : Nat) (b : Fin 16)
    (q : BattlegroundQueue) : Prop where
  premade : ∀ t g, Moves cfg now minPlayers maxPlayers b q t g →
    cfg.premadeWait < elapsed now q g ∨ q.size g < minPlayers
  rated : ∀ t, ∀ g ∈ q.queuedGroups (b,.premade t), ∀ arenaRating,
    rated cfg now q arenaRating g = true → inRatingWindow cfg q arenaRating g = false →
    cfg.ratingDiscardTimer < elapsed now q g

/-- Both teams have a premade group that is not invited. -/
def PremadeMatch (b : Fin 16) (q : BattlegroundQueue) : Prop :=
  ∀ t, (firstUninvited q (q.queuedGroups (b,.premade t))).isSome

theorem toInt32_lt_iff {a b : Nat} (ha : a < 2^32) (hb : b < 2^32) :
    toInt32 a < toInt32 b ↔
      CyclicClock.since (2^32) (2^31) a < CyclicClock.since (2^32) (2^31) b := by
  rw [CyclicClock.since_eq (by omega) ha,CyclicClock.since_eq (by omega) hb]
  unfold toInt32
  rw [Int.bmod_def,Int.bmod_def]
  split_ifs <;> omega

section Premade

variable (cfg now minPlayers b)

/-- The first premade group of a team is due for the normal queue. -/
def Due (q : BattlegroundQueue) (t : Team) (g : Nat) : Prop :=
  (q.queuedGroups (b,.premade t)).head? = some g ∧ q.invited g = false ∧
    ((q.info g).joinTime < sub32 now cfg.premadeWait ∨ q.size g < minPlayers)

theorem premadeToNormal_groups :
    (premadeToNormal cfg now b minPlayers t q).groups = q.groups := by
  unfold premadeToNormal
  split
  · rfl
  · split_ifs <;> rfl

theorem premadeToNormal_other {t t' : Team} (h : t' ≠ t) :
    (premadeToNormal cfg now b minPlayers t q).queuedGroups (b,.normal t') =
      q.queuedGroups (b,.normal t') ∧
    (premadeToNormal cfg now b minPlayers t q).queuedGroups (b,.premade t') =
      q.queuedGroups (b,.premade t') := by
  unfold premadeToNormal
  split
  · exact ⟨rfl,rfl⟩
  · split_ifs
    · cases t <;> cases t' <;>
        simp_all [BattlegroundQueue.moveGroup,BattlegroundQueue.setList,GroupType.normal,
          GroupType.premade]
    · exact ⟨rfl,rfl⟩

theorem premadeToNormal_iff :
    (premadeToNormal cfg now b minPlayers t q).queuedGroups (b,.normal t) =
      g :: q.queuedGroups (b,.normal t) ↔ Due cfg now minPlayers b q t g := by
  have hne : ((b,.normal t) : Slot) ≠ (b,.premade t) :=
    fun h => GroupType.normal_ne_premade t t (congrArg Prod.snd h)
  have hself : ∀ l : List Nat, l ≠ g :: l := fun l h => by
    have := congrArg List.length h
    simp at this
  unfold premadeToNormal Due
  split
  case h_1 hnil =>
    rw [hnil]
    simp [hself]
  case h_2 g' gs hcons =>
    rw [hcons,List.head?_cons,Option.some.injEq]
    split_ifs with hdue
    · have hmoved : (q.moveGroup g' (b,.premade t) (b,.normal t)).queuedGroups (b,.normal t) =
          g' :: q.queuedGroups (b,.normal t) := by
        simp [BattlegroundQueue.moveGroup,BattlegroundQueue.setList,hne]
      rw [hmoved,List.cons.injEq,and_iff_left rfl]
      constructor
      · rintro rfl
        exact ⟨rfl,by simpa using hdue⟩
      · exact fun h => h.1
    · refine iff_of_false (hself _) ?_
      rintro ⟨rfl,hfree,hearly⟩
      exact hdue ⟨by simp [hfree],hearly⟩

end Premade

/-- Without a match both teams may lose their first premade group to the normal queue. -/
theorem moves_iff : Moves cfg now minPlayers maxPlayers b q t g ↔
    ¬ PremadeMatch b q ∧ Due cfg now minPlayers b q t g := by
  have hself : ∀ l : List Nat, l ≠ g :: l := fun l h => by
    have := congrArg List.length h
    simp at this
  unfold Moves checkPremadeMatch
  split
  case h_1 ali horde hali hhorde =>
    have hmatch : PremadeMatch b q := by
      intro t
      cases t with
      | alliance => exact Option.isSome_iff_exists.mpr ⟨ali,hali⟩
      | horde => exact Option.isSome_iff_exists.mpr ⟨horde,hhorde⟩
    exact iff_of_false (hself _) fun h => h.1 hmatch
  case h_2 hnone =>
    have hno : ¬ PremadeMatch b q := by
      intro hmatch
      obtain ⟨ali,hali⟩ := Option.isSome_iff_exists.mp (hmatch .alliance)
      obtain ⟨horde,hhorde⟩ := Option.isSome_iff_exists.mp (hmatch .horde)
      exact hnone ali horde hali hhorde
    rw [and_iff_right hno]
    cases t with
    | alliance =>
      rw [(premadeToNormal_other cfg now minPlayers b (nofun : Team.alliance ≠ .horde)).1]
      exact premadeToNormal_iff cfg now minPlayers b
    | horde =>
      -- the move of the alliance group changes neither the lists nor the groups of the horde
      obtain ⟨hnormal,hpremade⟩ := premadeToNormal_other cfg now minPlayers b (q := q)
        (nofun : Team.horde ≠ .alliance)
      have hgroups := premadeToNormal_groups cfg now minPlayers b (q := q) (t := .alliance)
      rw [← hnormal,premadeToNormal_iff cfg now minPlayers b]
      unfold Due BattlegroundQueue.invited BattlegroundQueue.size BattlegroundQueue.info
      rw [hpremade,hgroups]

theorem rated_eq (arenaRating : Nat) : rated cfg now q arenaRating g =
    (!q.invited g && (inRatingWindow cfg q arenaRating g ||
      decide (toInt32 (q.info g).joinTime < toInt32 (sub32 now cfg.ratingDiscardTimer)))) := rfl

/-- Waits are kept exactly when, first, no group that is to be moved has joined since the start
of a server that runs for less than the premade wait, and second, no group outside the rating
window has joined in the second half of the range when that began less than the discard timer
ago. -/
theorem waitSafe_iff (hnow : now < 2^32) (hwait : cfg.premadeWait < 2^32)
    (hdiscard : cfg.ratingDiscardTimer < 2^32)
    (hjoin : ∀ t, ∀ g ∈ q.queuedGroups (b,.premade t), (q.info g).joinTime < 2^32) :
    WaitSafe cfg now minPlayers maxPlayers b q ↔
      (¬ PremadeMatch b q → ∀ t g, (q.queuedGroups (b,.premade t)).head? = some g →
        q.invited g = false → minPlayers ≤ q.size g →
        ¬ ((q.info g).joinTime ≤ now ∧ now < cfg.premadeWait)) ∧
      ∀ t, ∀ g ∈ q.queuedGroups (b,.premade t), ∀ arenaRating, q.invited g = false →
        inRatingWindow cfg q arenaRating g = false →
        ¬ (CyclicClock.since (2^32) (2^31) (q.info g).joinTime ≤
            CyclicClock.since (2^32) (2^31) now ∧
          CyclicClock.since (2^32) (2^31) now < cfg.ratingDiscardTimer) := by
  have hback : ∀ wait, sub32 now wait < 2^32 := fun wait => CyclicClock.since_lt (by omega)
  have hfirst : ∀ t g, (q.queuedGroups (b,.premade t)).head? = some g →
      ((q.info g).joinTime < sub32 now cfg.premadeWait ∧ elapsed now q g ≤ cfg.premadeWait ↔
        (q.info g).joinTime ≤ now ∧ now < cfg.premadeWait) := by
    intro t g hhead
    have hstamp := hjoin t g (List.mem_of_mem_head? hhead)
    have hearly := CyclicClock.early_iff (Nat.two_pow_pos 32) hstamp hnow hwait
    rw [CyclicClock.since_zero hstamp,CyclicClock.since_zero hnow,
      CyclicClock.since_zero (CyclicClock.since_lt (by omega))] at hearly
    exact hearly
  have hsecond : ∀ t, ∀ g ∈ q.queuedGroups (b,.premade t),
      (toInt32 (q.info g).joinTime < toInt32 (sub32 now cfg.ratingDiscardTimer) ∧
        elapsed now q g ≤ cfg.ratingDiscardTimer ↔
        CyclicClock.since (2^32) (2^31) (q.info g).joinTime ≤
            CyclicClock.since (2^32) (2^31) now ∧
          CyclicClock.since (2^32) (2^31) now < cfg.ratingDiscardTimer) := by
    intro t g hg
    rw [toInt32_lt_iff (hjoin t g hg) (hback _)]
    exact CyclicClock.early_iff (by omega) (hjoin t g hg) hnow hdiscard
  constructor
  · rintro ⟨hpremade,hrated⟩
    refine ⟨fun hno t g hhead hfree hsize hearly => ?_,fun t g hg r hfree hout hearly => ?_⟩
    · obtain ⟨hbefore,hwaited⟩ := (hfirst t g hhead).mpr hearly
      rcases hpremade t g (moves_iff.mpr ⟨hno,hhead,hfree,.inl hbefore⟩) with hlong | hsmall
      · omega
      · omega
    · obtain ⟨hbefore,hwaited⟩ := (hsecond t g hg).mpr hearly
      have hmatched : rated cfg now q r g = true := by
        rw [rated_eq]
        simp [hfree,hbefore]
      have hlong := hrated t g hg r hmatched hout
      omega
  · rintro ⟨hpremade,hrated⟩
    refine ⟨fun t g hmoves => ?_,fun t g hg r hmatched hout => ?_⟩
    · obtain ⟨hno,hhead,hfree,hdue⟩ := moves_iff.mp hmoves
      by_contra hearly
      push Not at hearly
      have hbefore := hdue.resolve_right (by omega)
      exact hpremade hno t g hhead hfree hearly.2 ((hfirst t g hhead).mp ⟨hbefore,hearly.1⟩)
    · rw [rated_eq] at hmatched
      simp only [hout,Bool.false_or,Bool.and_eq_true,Bool.not_eq_true',decide_eq_true_eq] at hmatched
      by_contra hearly
      exact hrated t g hg r hmatched.1 hout ((hsecond t g hg).mp ⟨hmatched.2,by omega⟩)

section Examples

def premadeRequest : Request :=
  ⟨{1,2,3,4,5},.alliance,0,exampleBracket,0,false,true,0,0,0⟩

def arenaRequest : Request := ⟨{6,7},.alliance,0,exampleBracket,2,true,false,1500,1500,7⟩

def joined (now : Nat) (r : Request) : BattlegroundQueue := addGroup exampleSettings now r .empty

theorem waitSafe_later :
    WaitSafe exampleSettings 1901000 5 10 exampleBracket (joined 1000 premadeRequest) := by
  refine (waitSafe_iff (by decide) (by decide) (by decide) ?_).mpr
    ⟨fun _ t g _ _ _ h => absurd h.2 (by decide),fun t g _ r _ _ h => absurd h.2 (by decide)⟩
  intro t g hg
  cases t with
  | alliance =>
    obtain rfl : g = 0 := List.mem_singleton.mp hg
    decide
  | horde => exact absurd hg (List.not_mem_nil)

/-- A premade group is moved after 100 seconds when the server runs for five minutes, and a
rated one is matched with anyone after 50 seconds when it joined just after `2^31`. -/
theorem not_waitSafe :
    ¬ WaitSafe exampleSettings 300000 5 10 exampleBracket (joined 200000 premadeRequest) ∧
    ¬ WaitSafe exampleSettings (2^31+60000) 2 2 exampleBracket
        (joined (2^31+10000) arenaRequest) := by
  constructor
  · intro h
    have hmoved : Moves exampleSettings 300000 5 10 exampleBracket
        (joined 200000 premadeRequest) .alliance 0 := by
      unfold Moves
      decide
    exact absurd (h.premade .alliance 0 hmoved) (by decide)
  · intro h
    have hmatched := h.rated .alliance 0 (List.mem_singleton.mpr rfl) 2500 (by decide) (by decide)
    exact absurd hmatched (by decide)

end Examples

end TrinityCore.Battlegrounds
