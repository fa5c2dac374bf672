import TrinityCore.Lib.Gregorian

set_option autoImplicit false

namespace TrinityCore.Packets

open Gregorian

section Model

/-- The fields of `tm` that are used. Months and days of the week begin with 0, and years with
1900. -/
structure Tm where
  sec : Int
  min : Int
  hour : Int
  mday : Int
  mon : Int
  year : Int
  wday : Int
  deriving DecidableEq

def Tm.date (lt : Tm) : Date := ⟨lt.year+1900,lt.mon+1,lt.mday⟩

/-- The calendar at a number of seconds, without an offset. -/
def calendar (t : Int) : Tm :=
  let d := civil (t/86400)
  ⟨t % 60,t/60 % 60,t/3600 % 24,d.day,d.month-1,d.year-1900,(t/86400+4) % 7⟩

/-- The date with the months from the twelfth on carried into the year. -/
def Tm.carried (lt : Tm) : Date := ⟨lt.year+lt.mon/12+1900,lt.mon % 12+1,lt.mday⟩

/-- The seconds of a date and time. The day of the week is not looked at. -/
def timegm (lt : Tm) : Int := days lt.carried*86400+lt.hour*3600+lt.min*60+lt.sec

structure Zone where
  offset : Int
  deriving DecidableEq

def Zone.localtime (z : Zone) (t : Int) : Tm := calendar (t+z.offset)

def Zone.mktime (z : Zone) (lt : Tm) : Int := timegm lt-z.offset

def Zone.timezone (z : Zone) : Int := -z.offset

def appendPackedTime (z : Zone) (t : Int) : BitVec 32 :=
  let lt := z.localtime t
  BitVec.ofInt 32 (lt.year-100) <<< 24 ||| BitVec.ofInt 32 lt.mon <<< 20 |||
    BitVec.ofInt 32 (lt.mday-1) <<< 14 ||| BitVec.ofInt 32 lt.wday <<< 11 |||
    BitVec.ofInt 32 lt.hour <<< 6 ||| BitVec.ofInt 32 lt.min

def unpack (packedDate : BitVec 32) : Tm where
  sec := 0
  min := (packedDate &&& 0x3F).toNat
  hour := (packedDate >>> 6 &&& 0x1F).toNat
  mday := (packedDate >>> 14 &&& 0x3F).toNat+1
  mon := (packedDate >>> 20 &&& 0xF).toNat
  year := (packedDate >>> 24 &&& 0x1F).toNat+100
  wday := 0

def readPackedTime (z : Zone) (packedDate : BitVec 32) : BitVec 32 :=
  BitVec.ofInt 32 (z.mktime (unpack packedDate)+z.timezone)

end Model

/-- The date of a word is one, the time of day too, and nothing is above the year. -/
structure ValidWord (w : BitVec 32) : Prop where
  bits : w.toNat < 2^29
  date : (unpack w).date.Valid
  hour : (unpack w).hour < 24
  min : (unpack w).min < 60

def SameUpToWeekday (w w' : BitVec 32) : Prop := w >>> 14 = w' >>> 14 ∧ w &&& 0x7FF = w' &&& 0x7FF

variable {z : Zone} {t : Int} {w : BitVec 32} {d : Date}

section Words

theorem or_shiftLeft (x : Nat) {y n : Nat} (k : Nat) (hy : y < 2^n) :
    x <<< (n+k) ||| y <<< k = (x*2^n+y) <<< k := by
  rw [Nat.shiftLeft_add,← Nat.shiftLeft_or_distrib,← Nat.shiftLeft_add_eq_or_of_lt hy,
    Nat.shiftLeft_eq x n]

theorem toNat_field {x n : Nat} (k : Nat) (hx : x < 2^n) (hk : n+k ≤ 32) :
    (BitVec.ofInt 32 x <<< k).toNat = x <<< k := by
  have hshift : x <<< k < 2^32 := by
    rw [Nat.shiftLeft_eq]
    calc x*2^k < 2^n*2^k := Nat.mul_lt_mul_of_pos_right hx (Nat.two_pow_pos k)
      _ = 2^(n+k) := (Nat.pow_add 2 n k).symm
      _ ≤ 2^32 := Nat.pow_le_pow_right (by decide) hk
  have hsmall : x < 2^32 := lt_of_le_of_lt Nat.le_shiftLeft hshift
  rw [BitVec.ofInt_natCast,BitVec.toNat_shiftLeft,BitVec.toNat_ofNat,Nat.mod_eq_of_lt hsmall,
    Nat.mod_eq_of_lt hshift]

theorem toNat_packed {year mon mday wday hour min : Nat} (hyear : year < 2^5) (hmon : mon < 2^4)
    (hmday : mday < 2^6) (hwday : wday < 2^3) (hhour : hour < 2^5) (hmin : min < 2^6) :
    (BitVec.ofInt 32 year <<< 24 ||| BitVec.ofInt 32 mon <<< 20 ||| BitVec.ofInt 32 mday <<< 14 |||
      BitVec.ofInt 32 wday <<< 11 ||| BitVec.ofInt 32 hour <<< 6 ||| BitVec.ofInt 32 min).toNat =
    ((((year*2^4+mon)*2^6+mday)*2^3+wday)*2^5+hour)*2^6+min := by
  have hlast : (BitVec.ofInt 32 min).toNat = min <<< 0 := by
    have h := toNat_field 0 hmin (by decide)
    rwa [BitVec.shiftLeft_zero] at h
  simp only [BitVec.toNat_or]
  rw [toNat_field 24 hyear (by decide),toNat_field 20 hmon (by decide),
    toNat_field 14 hmday (by decide),toNat_field 11 hwday (by decide),
    toNat_field 6 hhour (by decide),hlast,or_shiftLeft year 20 hmon,or_shiftLeft _ 14 hmday,
    or_shiftLeft _ 11 hwday,or_shiftLeft _ 6 hhour,or_shiftLeft _ 0 hmin,Nat.shiftLeft_zero]

theorem calendar_range (t : Int) : (0 ≤ (calendar t).sec ∧ (calendar t).sec < 60) ∧
    (0 ≤ (calendar t).min ∧ (calendar t).min < 60) ∧
    (0 ≤ (calendar t).hour ∧ (calendar t).hour < 24) ∧
    (1 ≤ (calendar t).mday ∧ (calendar t).mday ≤ 31) ∧
    (0 ≤ (calendar t).mon ∧ (calendar t).mon ≤ 11) ∧
    (0 ≤ (calendar t).wday ∧ (calendar t).wday < 7) := by
  have hdate := civil_range (t/86400)
  unfold calendar
  dsimp only
  omega

theorem toNat_appendPackedTime (hyear : 100 ≤ (z.localtime t).year ∧ (z.localtime t).year ≤ 131) :
    ((appendPackedTime z t).toNat : Int) = (((((z.localtime t).year-100)*2^4+(z.localtime t).mon)*2^6+
      ((z.localtime t).mday-1))*2^3+(z.localtime t).wday)*2^11+(z.localtime t).hour*2^6+
      (z.localtime t).min := by
  obtain ⟨-,hmin,hhour,hmday,hmon,hwday⟩ := calendar_range (t+z.offset)
  unfold appendPackedTime
  dsimp only
  generalize hlt : z.localtime t = lt at hyear ⊢
  have hcalendar : calendar (t+z.offset) = lt := hlt
  rw [hcalendar] at hmin hhour hmday hmon hwday
  obtain ⟨year,hy⟩ := Int.eq_ofNat_of_zero_le (show 0 ≤ lt.year-100 by omega)
  obtain ⟨mday,hd⟩ := Int.eq_ofNat_of_zero_le (show 0 ≤ lt.mday-1 by omega)
  obtain ⟨mon,hm⟩ := Int.eq_ofNat_of_zero_le hmon.1
  obtain ⟨wday,hw⟩ := Int.eq_ofNat_of_zero_le hwday.1
  obtain ⟨hour,hh⟩ := Int.eq_ofNat_of_zero_le hhour.1
  obtain ⟨min,hn⟩ := Int.eq_ofNat_of_zero_le hmin.1
  rw [hy,hd,hm,hw,hh,hn,toNat_packed (by omega) (by omega) (by omega) (by omega) (by omega) (by omega)]
  push_cast
  ring

theorem unpack_eq (w : BitVec 32) : unpack w = ⟨0,w.toNat % 2^6,w.toNat/2^6 % 2^5,
    w.toNat/2^14 % 2^6+1,w.toNat/2^20 % 2^4,w.toNat/2^24 % 2^5+100,0⟩ := by
  have hmask : ∀ (x : BitVec 32) (n : Nat) (m : BitVec 32), m.toNat = 2^n-1 →
      (x &&& m).toNat = x.toNat % 2^n := by
    intro x n m hm
    rw [BitVec.toNat_and,hm,Nat.and_two_pow_sub_one_eq_mod]
  unfold unpack
  rw [hmask w 6 _ rfl,hmask _ 5 _ rfl,hmask _ 6 _ rfl,hmask _ 4 _ rfl,hmask _ 5 _ rfl]
  simp only [BitVec.toNat_ushiftRight,Nat.shiftRight_eq_div_pow]
  push_cast
  rfl

theorem toNat_eq_fields (hbits : w.toNat < 2^29) : ∃ wday : Int, (0 ≤ wday ∧ wday < 2^3) ∧
    (w.toNat : Int) = (((((unpack w).year-100)*2^4+(unpack w).mon)*2^6+((unpack w).mday-1))*2^3+wday)*2^11+
      (unpack w).hour*2^6+(unpack w).min ∧ 0 ≤ (unpack w).hour ∧ 0 ≤ (unpack w).min ∧
    100 ≤ (unpack w).year ∧ (unpack w).year ≤ 131 := by
  rw [unpack_eq]
  dsimp only
  generalize w.toNat = n at hbits ⊢
  have h14 : n/2^14 = n/2^6/2^5/2^3 := by omega
  have h20 : n/2^20 = n/2^6/2^5/2^3/2^6 := by omega
  have h24 : n/2^24 = n/2^6/2^5/2^3/2^6/2^4 := by omega
  refine ⟨(n/2^6/2^5 % 2^3 : Nat),by omega,?_⟩
  have hcast : ∀ k : Nat, (n : Int)/2^k = (n/2^k : Nat) := by
    intro k
    push_cast
    rfl
  rw [hcast 6,hcast 14,hcast 20,hcast 24,h14,h20,h24]
  omega

end Words

section RoundTrip

theorem timegm_eq {lt : Tm} (hmon : 0 ≤ lt.mon ∧ lt.mon < 12) :
    timegm lt = days lt.date*86400+lt.hour*3600+lt.min*60+lt.sec := by
  have hcarried : lt.carried = lt.date := by
    unfold Tm.carried Tm.date
    rw [Int.ediv_eq_zero_of_lt hmon.1 hmon.2,Int.emod_eq_of_lt hmon.1 hmon.2,add_zero]
  rw [timegm,hcarried]

theorem date_calendar (t : Int) : (calendar t).date = civil (t/86400) := by
  unfold Tm.date calendar
  dsimp only
  rw [sub_add_cancel,sub_add_cancel]

theorem unpack_appendPackedTime
    (hyear : 100 ≤ (z.localtime t).year ∧ (z.localtime t).year ≤ 131) :
    unpack (appendPackedTime z t) = { z.localtime t with sec := 0, wday := 0 } := by
  have hword := toNat_appendPackedTime hyear
  obtain ⟨-,hmin,hhour,hmday,hmon,hwday⟩ := calendar_range (t+z.offset)
  rw [unpack_eq]
  generalize (appendPackedTime z t).toNat = w at hword ⊢
  generalize hlt : z.localtime t = lt at hyear hword ⊢
  have hcalendar : calendar (t+z.offset) = lt := hlt
  rw [hcalendar] at hmin hhour hmday hmon hwday
  congr 1
  · omega
  · omega
  · omega
  · omega
  · omega

theorem readPackedTime_append (hyear : 100 ≤ (z.localtime t).year ∧ (z.localtime t).year ≤ 131) :
    readPackedTime z (appendPackedTime z t) =
      BitVec.ofInt 32 (t+z.offset-(t+z.offset) % 60-2*z.offset) := by
  have htime : timegm { z.localtime t with sec := 0, wday := 0 } =
      t+z.offset-(t+z.offset) % 60 := by
    have hdays : days (z.localtime t).date = (t+z.offset)/86400 := by
      unfold Zone.localtime
      rw [date_calendar,days_civil]
    have hmon : 0 ≤ (z.localtime t).mon ∧ (z.localtime t).mon < 12 :=
      (calendar_range (t+z.offset)).2.2.2.2.1.imp_right Int.lt_add_one_of_le
    refine (@timegm_eq { z.localtime t with sec := 0, wday := 0 } hmon).trans ?_
    change days (z.localtime t).date*86400+((t+z.offset)/3600 % 24)*3600+
      ((t+z.offset)/60 % 60)*60+0 = _
    rw [hdays]
    omega
  unfold readPackedTime Zone.mktime Zone.timezone
  rw [unpack_appendPackedTime hyear,htime]
  congr 1
  omega

theorem days_range (hyear : 2000 ≤ d.year ∧ d.year ≤ 2031) (hmonth : 1 ≤ d.month ∧ d.month ≤ 12)
    (hday : 1 ≤ d.day ∧ d.day ≤ 31) : 10000 ≤ days d ∧ days d ≤ 24000 := by
  unfold days yearStart monthStart epoch
  split_ifs
  · omega
  · omega

theorem toNat_ofInt32 {x : Int} (hx : 0 ≤ x ∧ x < 2^32) : ((BitVec.ofInt 32 x).toNat : Int) = x := by
  rw [BitVec.toNat_ofInt]
  omega

theorem ofInt32_wraps (x : Int) : ∃ k : Int, ((BitVec.ofInt 32 x).toNat : Int) = x-2^32*k ∧
    0 ≤ ((BitVec.ofInt 32 x).toNat : Int) ∧ ((BitVec.ofInt 32 x).toNat : Int) < 2^32 := by
  rw [BitVec.toNat_ofInt]
  exact ⟨x/2^32,by omega,by omega,by omega⟩

theorem readPackedTime_utc (hyear : 100 ≤ ((⟨0⟩ : Zone).localtime t).year ∧
    ((⟨0⟩ : Zone).localtime t).year ≤ 131) :
    ((readPackedTime ⟨0⟩ (appendPackedTime ⟨0⟩ t)).toNat : Int) = t-t % 60 := by
  have hdate := civil_range (t/86400)
  have hcivil : 2000 ≤ (civil (t/86400)).year ∧ (civil (t/86400)).year ≤ 2031 := by
    have hsame : ((⟨0⟩ : Zone).localtime t).year = (civil (t/86400)).year-1900 := by
      unfold Zone.localtime calendar
      rw [add_zero]
    omega
  have hdays := days_range hcivil ⟨hdate.1,hdate.2.1⟩ hdate.2.2
  rw [days_civil] at hdays
  rw [readPackedTime_append hyear,toNat_ofInt32 (by dsimp only; omega)]
  dsimp only
  omega

theorem calendar_timegm {lt : Tm} (hdate : lt.date.Valid) (hhour : 0 ≤ lt.hour ∧ lt.hour < 24)
    (hmin : 0 ≤ lt.min ∧ lt.min < 60) (hsec : 0 ≤ lt.sec ∧ lt.sec < 60) :
    calendar (timegm lt) = { lt with wday := (days lt.date+4) % 7 } := by
  have hmonth : 1 ≤ lt.mon+1 ∧ lt.mon+1 ≤ 12 := hdate.month
  have htime := @timegm_eq lt (by omega)
  have hday : timegm lt/86400 = days lt.date := by omega
  have hsecs : timegm lt % 60 = lt.sec := by omega
  have hmins : timegm lt/60 % 60 = lt.min := by omega
  have hhours : timegm lt/3600 % 24 = lt.hour := by omega
  have hmon : lt.date.month-1 = lt.mon := add_sub_cancel_right _ _
  have hyear : lt.date.year-1900 = lt.year := add_sub_cancel_right _ _
  unfold calendar
  dsimp only
  rw [hday,civil_days hdate,hsecs,hmins,hhours,hmon,hyear]
  rfl

theorem appendPackedTime_utc (hword : ValidWord w) :
    SameUpToWeekday (appendPackedTime ⟨0⟩ (readPackedTime ⟨0⟩ w).toNat) w := by
  obtain ⟨hbits,hdate,hhour,hmin⟩ := hword
  obtain ⟨wday,hwday,hfields,hhour',hmin',hfrom,hto⟩ := toNat_eq_fields hbits
  have hsec : (unpack w).sec = 0 := rfl
  have hread : readPackedTime ⟨0⟩ w = BitVec.ofInt 32 (timegm (unpack w)) := by
    unfold readPackedTime Zone.mktime Zone.timezone
    rw [sub_zero,neg_zero,add_zero]
  generalize unpack w = lt at hdate hhour hmin hfields hhour' hmin' hfrom hto hsec hread
  have hyear : 2000 ≤ lt.date.year ∧ lt.date.year ≤ 2031 := by
    unfold Tm.date
    dsimp only
    omega
  have hday : lt.date.day ≤ 31 := by
    have hle := hdate.day.2
    unfold daysInMonth at hle
    split_ifs at hle <;> omega
  have hdays := days_range hyear hdate.month ⟨hdate.day.1,hday⟩
  have htime : ((BitVec.ofInt 32 (timegm lt)).toNat : Int) = timegm lt := by
    have hmonth : 1 ≤ lt.mon+1 ∧ lt.mon+1 ≤ 12 := hdate.month
    rw [timegm_eq (by omega)]
    exact toNat_ofInt32 (by omega)
  have hlocal : (⟨0⟩ : Zone).localtime (timegm lt) = { lt with wday := (days lt.date+4) % 7 } := by
    unfold Zone.localtime
    rw [add_zero]
    exact calendar_timegm hdate (by omega) (by omega) (by omega)
  have hpacked := toNat_appendPackedTime (z := ⟨0⟩) (t := timegm lt)
    (by rw [hlocal]; exact ⟨hfrom,hto⟩)
  rw [hlocal] at hpacked
  dsimp only at hpacked
  have hlow := Int.emod_nonneg (days lt.date+4) (show (7 : Int) ≠ 0 by decide)
  have hhigh := Int.emod_lt_of_pos (days lt.date+4) (show (0 : Int) < 7 by decide)
  rw [hread,htime]
  generalize (days lt.date+4) % 7 = weekday at hpacked hlow hhigh
  constructor
  · apply BitVec.eq_of_toNat_eq
    rw [BitVec.toNat_ushiftRight,BitVec.toNat_ushiftRight,Nat.shiftRight_eq_div_pow,
      Nat.shiftRight_eq_div_pow]
    omega
  · apply BitVec.eq_of_toNat_eq
    rw [BitVec.toNat_and,BitVec.toNat_and,show BitVec.toNat (0x7FF : BitVec 32) = 2^11-1 from rfl,
      Nat.and_two_pow_sub_one_eq_mod,Nat.and_two_pow_sub_one_eq_mod]
    omega

end RoundTrip

/-- Times and words come back in every year of the format just when the time zone is UTC. -/
theorem packedTime_roundTrip_iff (z : Zone) :
    (∀ t, 100 ≤ (z.localtime t).year → (z.localtime t).year ≤ 131 →
        ((readPackedTime z (appendPackedTime z t)).toNat : Int) = t-t % 60) ∧
      (∀ w, ValidWord w →
        SameUpToWeekday (appendPackedTime z (readPackedTime z w).toNat) w) ↔ z.offset = 0 := by
  constructor
  · rintro ⟨htimes,-⟩
    have hread : ∀ l : Int, 100 ≤ (calendar l).year → (calendar l).year ≤ 131 →
        ((BitVec.ofInt 32 (l-l % 60-2*z.offset)).toNat : Int) =
          (l-z.offset)-(l-z.offset) % 60 := by
      intro l hfrom hto
      have hsame : z.localtime (l-z.offset) = calendar l := by
        unfold Zone.localtime
        rw [sub_add_cancel]
      have htime := htimes (l-z.offset) (hsame ▸ hfrom) (hsame ▸ hto)
      rw [readPackedTime_append ⟨hsame ▸ hfrom,hsame ▸ hto⟩,sub_add_cancel] at htime
      exact htime
    -- the first second of the year 2000, and the last one of its minute
    have hfirst := hread 946684800 (by decide +kernel) (by decide +kernel)
    have hlast := hread 946684859 (by decide +kernel) (by decide +kernel)
    obtain ⟨k,hk,hlow,hhigh⟩ := ofInt32_wraps (946684800-2*z.offset)
    rw [show (946684800 : Int)-946684800 % 60-2*z.offset = 946684800-2*z.offset by omega] at hfirst
    rw [show (946684859 : Int)-946684859 % 60-2*z.offset = 946684800-2*z.offset by omega] at hlast
    rw [hfirst] at hlast hk hlow hhigh
    omega
  · intro hzero
    obtain rfl : z = ⟨0⟩ := by
      cases z
      exact congrArg Zone.mk hzero
    exact ⟨fun t hfrom hto => readPackedTime_utc ⟨hfrom,hto⟩,fun w hword => appendPackedTime_utc hword⟩

theorem packedTime_hour_early : ¬ ∀ z : Zone,
    (∀ t, 100 ≤ (z.localtime t).year → (z.localtime t).year ≤ 131 →
        ((readPackedTime z (appendPackedTime z t)).toNat : Int) = t-t % 60) ∧
      ∀ w, ValidWord w → SameUpToWeekday (appendPackedTime z (readPackedTime z w).toNat) w := by
  intro h
  have htime := (h ⟨3600⟩).1 1400000000 (by decide +kernel) (by decide +kernel)
  exact absurd htime (by decide +kernel)

end TrinityCore.Packets
