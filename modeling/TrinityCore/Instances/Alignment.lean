import TrinityCore.Instances.ResetChain

set_option autoImplicit false

namespace TrinityCore.Instances

open InstanceSaveManager

/-- Reset times are scaled by an exact rate, where the product is an unsigned number. -/
structure RatedStore extends MapStore where
  rate : ℚ
  rate_nonneg : 0 ≤ rate
  scaled_eq : ∀ resetTime : Nat, (resetTime : ℚ)*rate < 2^32 →
    scaled resetTime = ⌊(resetTime : ℚ)*rate⌋₊

section Load

variable {D : MapStore} {rows : ResetRows} {s : InstanceSaveManager} {now : Nat}
  {key : MapDifficulty} {delay : Nat}

theorem loadResets_aligned (key : MapDifficulty) (resets : List (MapDifficulty × Nat))
    (hs : s.resetTimeByMapDifficulty key = 0 ∨
      s.resetTimeByMapDifficulty key % day = diff D % day) :
    (resets.foldl (loadReset D) s).resetTimeByMapDifficulty key = 0 ∨
      (resets.foldl (loadReset D) s).resetTimeByMapDifficulty key % day = diff D % day := by
  induction resets generalizing s with
  | nil => exact hs
  | cons row resets ih =>
    refine ih ?_
    unfold loadReset
    split
    · exact hs
    · unfold setResetTimeFor
      dsimp only
      by_cases hkey : key = row.1
      · rw [hkey,Function.update_self]
        exact .inr (Nat.mul_add_mod' _ _ _)
      · rw [Function.update_of_ne hkey]
        exact hs

theorem loadInstances_times (timed : List InstanceRow) :
    (timed.foldl (loadInstance now) s).resetTimeByMapDifficulty = s.resetTimeByMapDifficulty := by
  induction timed generalizing s with
  | nil => rfl
  | cons row timed ih =>
    rw [List.foldl_cons,ih]
    unfold loadInstance
    split_ifs <;> rfl

theorem loadDifficulty_times (entry : MapDifficulty × Nat) :
    (loadDifficulty D rows now s entry).resetTimeByMapDifficulty =
      if entry.2 = 0 then s.resetTimeByMapDifficulty
      else Function.update s.resetTimeByMapDifficulty entry.1
        (startTime D now entry.2 (s.resetTimeByMapDifficulty entry.1)) := by
  have hbound : ∀ (bound : List InstanceRow) (s : InstanceSaveManager) (time : Int) (type : Nat),
      (bound.foldl (fun s row => s.scheduleReset true time (.mk16 type entry.1 row.id))
        s).resetTimeByMapDifficulty = s.resetTimeByMapDifficulty := by
    intro bound
    induction bound with
    | nil => exact fun _ _ _ => rfl
    | cons row bound ih => exact fun s time type => ih _ time type
  unfold loadDifficulty
  split_ifs
  · rfl
  · exact hbound _ _ _ _

theorem loadDifficulties_of_not_mem {entries : List (MapDifficulty × Nat)}
    (hkey : key ∉ entries.map Prod.fst) :
    (entries.foldl (loadDifficulty D rows now) s).resetTimeByMapDifficulty key =
      s.resetTimeByMapDifficulty key := by
  induction entries generalizing s with
  | nil => rfl
  | cons entry entries ih =>
    rw [List.map_cons,List.mem_cons,not_or] at hkey
    rw [List.foldl_cons,ih hkey.2,loadDifficulty_times]
    split_ifs
    · rfl
    · rw [Function.update_of_ne hkey.1]

theorem loadDifficulties_of_mem {entries : List (MapDifficulty × Nat)}
    (hnodup : (entries.map Prod.fst).Nodup) (hentry : (key,delay) ∈ entries) (hdelay : delay ≠ 0) :
    (entries.foldl (loadDifficulty D rows now) s).resetTimeByMapDifficulty key =
      startTime D now delay (s.resetTimeByMapDifficulty key) := by
  induction entries generalizing s with
  | nil => exact absurd hentry List.not_mem_nil
  | cons entry entries ih =>
    rw [List.map_cons,List.nodup_cons] at hnodup
    rw [List.foldl_cons]
    rcases List.mem_cons.mp hentry with rfl | hentry
    · rw [loadDifficulties_of_not_mem hnodup.1,loadDifficulty_times,if_neg hdelay,
        Function.update_self]
    · have hne : key ≠ entry.1 := fun heq => hnodup.1 (heq ▸ List.mem_map_of_mem hentry)
      rw [ih hnodup.2 hentry,loadDifficulty_times]
      split_ifs
      · rfl
      · rw [Function.update_of_ne hne]

theorem loadResetTimes_time (rows : ResetRows) (now : Nat) (hentry : (key,delay) ∈ D.difficulties) (hdelay : delay ≠ 0) :
    ∃ stored, (stored = 0 ∨ stored % day = diff D % day) ∧
      (loadResetTimes D rows now).resetTimeByMapDifficulty key = startTime D now delay stored := by
  have hstart : (rows.instResetTime.foldl (loadInstance now)
      ⟨fun _ => 0,[]⟩).resetTimeByMapDifficulty key = 0 := by
    rw [loadInstances_times]
  exact ⟨_,loadResets_aligned key rows.resets (.inl hstart),
    loadDifficulties_of_mem D.nodup hentry hdelay⟩

end Load

section Arithmetic

variable {D : MapStore} {now delay stored : Nat}

theorem day_le_period (D : MapStore) (delay : Nat) : day ≤ period D delay := by
  unfold period
  split_ifs with hlt
  · exact le_rfl
  · exact not_lt.mp hlt

theorem dvd_period_iff : day ∣ period D delay ↔ D.scaled delay < day ∨ day ∣ D.scaled delay := by
  unfold period
  split_ifs with hlt
  · exact iff_of_true dvd_rfl (.inl hlt)
  · exact (or_iff_right hlt).symm

theorem aligned_add {days period diff : Nat} (hperiod : day ∣ period) :
    (days*day+period+diff) % day = diff % day := by
  obtain ⟨k,rfl⟩ := hperiod
  rw [mul_comm days,← mul_add,Nat.mul_add_mod]

theorem startTime_aligned (hperiod : day ∣ period D delay)
    (hstored : stored = 0 ∨ stored % day = diff D % day) :
    startTime D now delay stored % day = diff D % day := by
  have hnew : ∀ t, (t/day*day+(((now/day*day-t/day*day)/period D delay+1)*period D delay+diff D))
      % day = diff D % day := by
    intro t
    rw [← add_assoc]
    exact aligned_add (hperiod.mul_left _)
  unfold startTime
  dsimp only
  split_ifs with hzero hlate hlate
  · exact hnew _
  · exact aligned_add hperiod
  · exact hnew _
  · exact hstored.resolve_left hzero

theorem le_startTime (hperiod : day ∣ period D delay) : now ≤ startTime D now delay stored := by
  have hday := day_le_period D delay
  have hpos : 0 < day := by decide
  have htoday : now < now/day*day+day := Nat.lt_div_mul_add hpos
  have hnew : ∀ t, t < now →
      now ≤ t/day*day+(((now/day*day-t/day*day)/period D delay+1)*period D delay+diff D) := by
    intro t ht
    have hle : t/day*day ≤ now/day*day := Nat.mul_le_mul_right _ (Nat.div_le_div_right ht.le)
    have hnext := Nat.lt_div_mul_add (a := now/day*day-t/day*day) (by omega : 0 < period D delay)
    -- both are whole days, so it is a whole day later
    have hwhole : now/day*day-t/day*day+day ≤
        (now/day*day-t/day*day)/period D delay*period D delay+period D delay := by
      obtain ⟨k,hk⟩ := hperiod
      rw [← Nat.sub_mul] at hnext ⊢
      generalize now/day-t/day = days at hnext ⊢
      generalize days*day/period D delay = q at hnext ⊢
      rw [hk] at hnext ⊢
      have heq : q*(day*k)+day*k = (q*k+k)*day := by ring
      rw [heq] at hnext ⊢
      have hlt := Nat.lt_of_mul_lt_mul_right hnext
      calc days*day+day = (days+1)*day := by ring
        _ ≤ (q*k+k)*day := Nat.mul_le_mul_right _ hlt
    rw [Nat.add_mul,one_mul]
    omega
  unfold startTime
  dsimp only
  split_ifs with hzero hlate hlate
  · exact hnew _ hlate
  · exact not_lt.mp hlate
  · exact hnew _ hlate
  · exact not_lt.mp hlate

end Arithmetic

section Resets

variable {D : MapStore} {key : MapDifficulty} {delay : Nat}

theorem getMapDifficultyData_of_mem (hentry : (key,delay) ∈ D.difficulties) :
    getMapDifficultyData D key = some delay := by
  obtain ⟨before,after,hall⟩ := List.append_of_mem hentry
  have hnodup := D.nodup
  rw [hall,List.map_append,List.nodup_append] at hnodup
  refine List.lookup_eq_some_iff.mpr ⟨before,after,hall,fun entry hmem => ?_⟩
  rw [bne_iff_ne]
  exact (hnodup.2.2 entry.1 (List.mem_map_of_mem hmem) key (by simp)).symm

theorem getSubsequentResetTime_eq (hentry : (key,delay) ∈ D.difficulties) (hdelay : delay ≠ 0)
    (resetTime : Nat) : getSubsequentResetTime D key resetTime =
      (resetTime+minute)/day*day+period D delay+diff D := by
  unfold getSubsequentResetTime
  rw [getMapDifficultyData_of_mem hentry]
  exact if_neg hdelay

theorem dvd_of_aligned {days period diff : Nat} (h : (days*day+period+diff) % day = diff % day) :
    day ∣ period := by
  rw [add_assoc,Nat.mul_add_mod'] at h
  have hzero : 0+diff ≡ period+diff [MOD day] := by
    rw [zero_add]
    exact h.symm
  exact (Nat.modEq_zero_iff_dvd).mp (Nat.ModEq.add_right_cancel' diff hzero).symm

/-- The times are ahead and aligned if and only if the period is a whole number of days. -/
theorem resetTimes_aligned_iff (D : RatedStore) (rows : ResetRows) (now : Nat)
    {key : MapDifficulty} {delay : Nat} (hentry : (key,delay) ∈ D.difficulties)
    (hdelay : delay ≠ 0) :
    (now ≤ (loadResetTimes D.toMapStore rows now).resetTimeByMapDifficulty key ∧
      (loadResetTimes D.toMapStore rows now).resetTimeByMapDifficulty key % day =
        D.resetTimeHour*hour % day ∧
      ∀ resetTime, getSubsequentResetTime D.toMapStore key resetTime % day =
          D.resetTimeHour*hour % day ∧
        resetTime < getSubsequentResetTime D.toMapStore key resetTime) ↔
      D.scaled delay < day ∨ day ∣ D.scaled delay := by
  have hsubsequent := getSubsequentResetTime_eq hentry hdelay
  obtain ⟨stored,hstored,htime⟩ := loadResetTimes_time rows now hentry hdelay
  rw [← dvd_period_iff,htime]
  constructor
  · intro h
    have haligned := (h.2.2 0).1
    rw [hsubsequent] at haligned
    exact dvd_of_aligned haligned
  · intro hperiod
    refine ⟨le_startTime hperiod,startTime_aligned hperiod hstored,fun resetTime => ⟨?_,?_⟩⟩
    · rw [hsubsequent]
      exact aligned_add hperiod
    · have hlater := lt_getSubsequentResetTime ⟨delay,hdelay,getMapDifficultyData_of_mem hentry⟩
        resetTime
      omega

end Resets

section Example

theorem nodup_oneReset : ([((533,0),7*day)].map Prod.fst : List (Nat × Nat)).Nodup := by decide

def ratedRaid (rate : ℚ) (hrate : 0 ≤ rate) : RatedStore where
  difficulties := [((533,0),7*day)]
  nodup := nodup_oneReset
  instanceable _ := true
  scaled resetTime := ⌊(resetTime : ℚ)*rate⌋₊
  resetTimeHour := 4
  rate := rate
  rate_nonneg := hrate
  scaled_eq _ _ := rfl

theorem scaled_ratedRaid {rate : ℚ} (hrate : 0 ≤ rate) {n : Nat} (h : (7*day : Nat)*rate = n) :
    (ratedRaid rate hrate).scaled (7*day) = n := by
  change ⌊((7*day : Nat) : ℚ)*rate⌋₊ = n
  rw [h]
  exact Nat.floor_natCast n

theorem threeTenths_nonneg : (0 : ℚ) ≤ 3/10 := by norm_num

theorem two_nonneg : (0 : ℚ) ≤ 2 := by norm_num

/-- With three tenths of a week the first reset is not at four but at 6:24. -/
theorem raid_reset_off_hour : (loadResetTimes (ratedRaid (3/10) threeTenths_nonneg).toMapStore
      ⟨[],[],[]⟩ 1000000).resetTimeByMapDifficulty (533,0) % day ≠
    (ratedRaid (3/10) threeTenths_nonneg).resetTimeHour*hour % day := by
  have htime : (loadResetTimes (ratedRaid (3/10) threeTenths_nonneg).toMapStore ⟨[],[],[]⟩
      1000000).resetTimeByMapDifficulty (533,0) =
        startTime (ratedRaid (3/10) threeTenths_nonneg).toMapStore 1000000 (7*day) 0 :=
    loadDifficulties_of_mem (ratedRaid (3/10) threeTenths_nonneg).nodup
      (List.mem_singleton.mpr rfl) (by decide)
  have hscaled : (ratedRaid (3/10) threeTenths_nonneg).scaled (7*day) = 181440 :=
    scaled_ratedRaid threeTenths_nonneg (by norm_num [day,hour,minute])
  have hperiod : period (ratedRaid (3/10) threeTenths_nonneg).toMapStore (7*day) = 181440 := by
    unfold period
    rw [hscaled]
    rfl
  have hdiff : diff (ratedRaid (3/10) threeTenths_nonneg).toMapStore = 14400 := rfl
  have hhour : (ratedRaid (3/10) threeTenths_nonneg).resetTimeHour*hour = 14400 := rfl
  rw [htime,hhour]
  unfold startTime
  rw [hperiod,hdiff]
  decide

theorem raid_reset_at_four :
    1000000 ≤ (loadResetTimes (ratedRaid 2 two_nonneg).toMapStore ⟨[],[],[]⟩
      1000000).resetTimeByMapDifficulty (533,0) ∧
    (loadResetTimes (ratedRaid 2 two_nonneg).toMapStore ⟨[],[],[]⟩
      1000000).resetTimeByMapDifficulty (533,0) % day = 4*hour := by
  have hscaled : (ratedRaid 2 two_nonneg).scaled (7*day) = 14*day :=
    scaled_ratedRaid two_nonneg (by norm_num [day,hour,minute])
  have hresets := (resetTimes_aligned_iff (ratedRaid 2 two_nonneg) ⟨[],[],[]⟩ 1000000
    (List.mem_singleton.mpr rfl) (by decide)).mpr (.inr (hscaled ▸ Nat.dvd_mul_left day 14))
  exact ⟨hresets.1,hresets.2.1⟩

end Example

end TrinityCore.Instances
