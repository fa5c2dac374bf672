import TrinityCore.Events.GameEventMgr

set_option autoImplicit false

namespace TrinityCore.Events

def maxGeCheckDelay : Int := 86400

def uint32 (time : Int) : Int := time%2^32

namespace GameEventMgr

variable {F : Type} (mgr : GameEventMgr F) (entry time : Nat)

/-- The delay of an event, with what is done to the numbers that are made unsigned. -/
def delayWith (convert : Int → Int) : Int :=
  let data := mgr.events entry
  if (data.state = .worldNextphase ∨ data.state = .worldFinished) ∧ data.nextstart ≥ time then
    convert (data.nextstart-time)
  else if data.state = .worldConditions then
    if data.length ≠ 0 then seconds data.length else maxGeCheckDelay
  else if time > data.finish then maxGeCheckDelay
  else if data.start > time then convert (data.start-time)
  else
    let phase := ((time : Int)-data.start)%seconds data.occurence
    let delay := if phase < seconds data.length then convert (seconds data.length-phase)
      else convert (seconds data.occurence-phase)
    if data.finish < time+delay then convert (data.finish-time) else delay

def nextCheck : Int := mgr.delayWith entry time uint32

/-- The event does not change before it is checked again, and the delay is not cut. -/
structure NeverOversleeps : Prop where
  same : ∀ u : Nat, time ≤ u → u < time+mgr.nextCheck entry time →
    mgr.checkOneGameEvent entry u = mgr.checkOneGameEvent entry time
  fits : mgr.nextCheck entry time = mgr.delayWith entry time id

def StartsNow : Prop :=
  (mgr.events entry).start = time ∧ (mgr.events entry).start+1 < (mgr.events entry).finish ∧
    seconds (mgr.events entry).length ≠ 0

def StartsFarAhead : Prop :=
  time ≤ (mgr.events entry).finish ∧ 2^32 ≤ (mgr.events entry).start-time

end GameEventMgr

section Window

variable {x p k : Int}

theorem phase_add (hx : 0 ≤ x%p) (hk : 0 ≤ k) (hlt : x%p+k < p) : (x+k)%p = x%p+k := by
  rw [← Int.emod_add_emod,Int.emod_eq_of_lt (by omega) hlt]

theorem window_stays {start u now period length : Int} (hu : now ≤ u)
    (hperiod : 0 < period)
    (hlt : u < now+if (now-start)%period < length then length-(now-start)%period
      else period-(now-start)%period) :
    (u-start)%period < length ↔ (now-start)%period < length := by
  have hphase := Int.emod_nonneg (now-start) hperiod.ne'
  have hphase' := Int.emod_lt_of_pos (now-start) hperiod
  have hsplit : u-start = now-start+(u-now) := by omega
  by_cases hin : (now-start)%period < length
  · rw [if_pos hin] at hlt
    simp only [hin,iff_true]
    by_cases hlong : period ≤ length
    · exact (Int.emod_lt_of_pos _ hperiod).trans_le hlong
    · rw [hsplit,phase_add hphase (by omega) (by omega)]
      omega
  · rw [if_neg hin] at hlt
    simp only [hin,iff_false]
    rw [hsplit,phase_add hphase (by omega) (by omega)]
    omega

end Window

section Normal

variable {F : Type} {mgr : GameEventMgr F} {entry now : Nat}

theorem check_normal (hstate : (mgr.events entry).state = .normal) (u : Nat) :
    mgr.checkOneGameEvent entry u = decide ((mgr.events entry).start < u ∧
      u < (mgr.events entry).finish ∧ ((u : Int)-(mgr.events entry).start)%
        seconds (mgr.events entry).occurence < seconds (mgr.events entry).length) := by
  unfold GameEventMgr.checkOneGameEvent
  dsimp only
  rw [hstate]

theorem delayWith_normal (hstate : (mgr.events entry).state = .normal) (convert : Int → Int) :
    mgr.delayWith entry now convert =
      if now > (mgr.events entry).finish then maxGeCheckDelay
      else if (mgr.events entry).start > now then convert ((mgr.events entry).start-now)
      else
        let phase := ((now : Int)-(mgr.events entry).start)%seconds (mgr.events entry).occurence
        let delay := if phase < seconds (mgr.events entry).length then
            convert (seconds (mgr.events entry).length-phase)
          else convert (seconds (mgr.events entry).occurence-phase)
        if (mgr.events entry).finish < now+delay then convert ((mgr.events entry).finish-now)
        else delay := by
  unfold GameEventMgr.delayWith
  dsimp only
  rw [hstate,if_neg (by simp),if_neg (by simp)]

theorem seconds_lt (minutes : Nat) : seconds minutes < 2^32 := Nat.mod_lt _ (by decide)

theorem seconds_ne_one (minutes : Nat) : seconds minutes ≠ 1 := by
  unfold seconds
  omega

theorem uint32_of_lt {time : Int} (h : 0 ≤ time) (hlt : time < 2^32) : uint32 time = time :=
  Int.emod_eq_of_lt h hlt

theorem uint32_le {time : Int} (h : 0 ≤ time) : uint32 time ≤ time := by
  unfold uint32
  omega

variable (hstate : (mgr.events entry).state = .normal)
  (hoccurence : 1 ≤ (mgr.events entry).occurence) (hfits : (mgr.events entry).occurence*60 < 2^32)
include hstate hoccurence hfits

theorem nextCheck_fits : mgr.nextCheck entry now = mgr.delayWith entry now id ↔
    ¬mgr.StartsFarAhead entry now := by
  have hperiod : seconds (mgr.events entry).occurence = (mgr.events entry).occurence*60 :=
    Nat.mod_eq_of_lt hfits
  have hlength := seconds_lt (mgr.events entry).length
  unfold GameEventMgr.nextCheck GameEventMgr.StartsFarAhead
  rw [delayWith_normal hstate,delayWith_normal hstate]
  dsimp only [id]
  have hphase := Int.emod_nonneg ((now : Int)-(mgr.events entry).start)
    (b := seconds (mgr.events entry).occurence) (by omega)
  have hphase' := Int.emod_lt_of_pos ((now : Int)-(mgr.events entry).start)
    (b := seconds (mgr.events entry).occurence) (by omega)
  generalize ((now : Int)-(mgr.events entry).start)%seconds (mgr.events entry).occurence = phase
    at hphase hphase' ⊢
  by_cases hover : (now : Int) > (mgr.events entry).finish
  · rw [if_pos hover,if_pos hover]
    simp only [true_iff]
    omega
  · rw [if_neg hover,if_neg hover]
    by_cases hbefore : (mgr.events entry).start > (now : Int)
    · rw [if_pos hbefore,if_pos hbefore]
      unfold uint32
      omega
    · rw [if_neg hbefore,if_neg hbefore]
      have hfalse : ¬((now : Int) ≤ (mgr.events entry).finish ∧
          2^32 ≤ (mgr.events entry).start-now) := by omega
      simp only [hfalse,not_false_eq_true,iff_true]
      by_cases hin : phase < seconds (mgr.events entry).length
      · rw [if_pos hin,if_pos hin,uint32_of_lt (by omega) (by omega)]
        split
        · exact uint32_of_lt (by omega) (by omega)
        · rfl
      · rw [if_neg hin,if_neg hin,uint32_of_lt (by omega) (by omega)]
        split
        · exact uint32_of_lt (by omega) (by omega)
        · rfl

theorem nextCheck_started (hover : now ≤ (mgr.events entry).finish)
    (hstart : (mgr.events entry).start ≤ now) {phase : Int}
    (hphase : phase = ((now : Int)-(mgr.events entry).start)%seconds (mgr.events entry).occurence) :
    mgr.nextCheck entry now = min ((mgr.events entry).finish-now)
      (if phase < seconds (mgr.events entry).length then seconds (mgr.events entry).length-phase
        else seconds (mgr.events entry).occurence-phase) := by
  have hcut : mgr.nextCheck entry now = mgr.delayWith entry now id :=
    (nextCheck_fits hstate hoccurence hfits).mpr fun hahead => by
      unfold GameEventMgr.StartsFarAhead at hahead
      omega
  rw [hcut,delayWith_normal hstate]
  dsimp only [id]
  rw [← hphase,if_neg (by omega),if_neg (by omega)]
  omega

theorem same_until_nextCheck (hnow : ¬mgr.StartsNow entry now) {u : Nat} (hu : now ≤ u)
    (hlt : u < now+mgr.nextCheck entry now) :
    mgr.checkOneGameEvent entry u = mgr.checkOneGameEvent entry now := by
  have hperiod : seconds (mgr.events entry).occurence = (mgr.events entry).occurence*60 :=
    Nat.mod_eq_of_lt hfits
  have hpos : (0 : Int) < seconds (mgr.events entry).occurence := by omega
  rw [check_normal hstate,check_normal hstate]
  refine decide_eq_decide.mpr ?_
  by_cases hover : (now : Int) > (mgr.events entry).finish
  · omega
  · by_cases hbefore : (mgr.events entry).start > (now : Int)
    · have hcut := uint32_le (show 0 ≤ (mgr.events entry).start-now by omega)
      unfold GameEventMgr.nextCheck at hlt
      rw [delayWith_normal hstate,if_neg hover,if_pos hbefore] at hlt
      omega
    · rw [nextCheck_started hstate hoccurence hfits (by omega) (by omega) rfl] at hlt
      have hphase := Int.emod_nonneg ((now : Int)-(mgr.events entry).start) hpos.ne'
      have hstays : ((u : Int)-(mgr.events entry).start)%seconds (mgr.events entry).occurence <
          seconds (mgr.events entry).length ↔ ((now : Int)-(mgr.events entry).start)%
            seconds (mgr.events entry).occurence < seconds (mgr.events entry).length :=
        window_stays (by omega) hpos (by omega)
      unfold GameEventMgr.StartsNow at hnow
      rw [hstays]
      omega

/-- An event that starts just now is found not active, and active a second later. -/
theorem sleeps_of_startsNow (hnow : mgr.StartsNow entry now) :
    ((now+1 : Nat) : Int) < now+mgr.nextCheck entry now ∧
      mgr.checkOneGameEvent entry (now+1) = true ∧ mgr.checkOneGameEvent entry now = false := by
  have hperiod : seconds (mgr.events entry).occurence = (mgr.events entry).occurence*60 :=
    Nat.mod_eq_of_lt hfits
  have hone := seconds_ne_one (mgr.events entry).length
  obtain ⟨hstart,hend,hsome⟩ := hnow
  rw [check_normal hstate,check_normal hstate]
  refine ⟨?_,?_,?_⟩
  · have hphase : (0 : Int) = ((now : Int)-(mgr.events entry).start)%
        seconds (mgr.events entry).occurence := by
      rw [hstart,sub_self,Int.zero_emod]
    rw [nextCheck_started hstate hoccurence hfits (by omega) (by omega) hphase,if_pos (by omega)]
    omega
  · have hphase : (((now+1 : Nat) : Int)-(mgr.events entry).start)%
        seconds (mgr.events entry).occurence = 1 := by
      have hsecond : ((now+1 : Nat) : Int)-(mgr.events entry).start = 1 := by omega
      rw [hsecond]
      exact Int.emod_eq_of_lt (by omega) (by omega)
    rw [hphase,decide_eq_true_eq]
    omega
  · rw [decide_eq_false_iff_not]
    omega

theorem neverOversleeps_iff : mgr.NeverOversleeps entry now ↔
    ¬mgr.StartsNow entry now ∧ ¬mgr.StartsFarAhead entry now := by
  constructor
  · rintro ⟨hsame,hcut⟩
    refine ⟨fun hnow => ?_,(nextCheck_fits hstate hoccurence hfits).mp hcut⟩
    obtain ⟨hlt,hactive,hnot⟩ := sleeps_of_startsNow hstate hoccurence hfits hnow
    rw [hsame (now+1) (Nat.le_succ now) hlt,hnot] at hactive
    exact absurd hactive (by decide)
  · rintro ⟨hnow,hahead⟩
    exact ⟨fun u hu hlt => same_until_nextCheck hstate hoccurence hfits hnow hu hlt,
      (nextCheck_fits hstate hoccurence hfits).mpr hahead⟩

end Normal

/-- The second event takes place for an hour of every day, from the second 100 on. -/
def festival : GameEventMgr Int :=
  { quietEvents with
    events := fun _ =>
      { start := 100
        finish := 1000000
        nextstart := 0
        occurence := 1440
        length := 60
        state := .normal
        conditions := OrderedMap.empty
        prerequisiteEvents := [] } }

theorem neverOversleeps_festival : festival.NeverOversleeps 1 50 ↔
    ¬festival.StartsNow 1 50 ∧ ¬festival.StartsFarAhead 1 50 :=
  neverOversleeps_iff rfl (by decide) (by decide)

/-- When it starts it is found not active, and is checked again when the hour is over. -/
theorem festival_oversleeps : (festival.events 1).state = .normal ∧
    1 ≤ (festival.events 1).occurence ∧ (festival.events 1).occurence*60 < 2^32 ∧
    festival.nextCheck 1 100 = 3600 ∧ festival.checkOneGameEvent 1 100 = false ∧
    festival.checkOneGameEvent 1 101 = true ∧ ¬festival.NeverOversleeps 1 100 := by
  have hnext : festival.nextCheck 1 100 = 3600 := by decide
  refine ⟨rfl,by decide,by decide,hnext,by decide,by decide,?_⟩
  rintro ⟨hsame,-⟩
  have hlater := hsame 101 (by decide) (by rw [hnext]; decide)
  exact absurd hlater (by decide)

end TrinityCore.Events
