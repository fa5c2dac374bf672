import Mathlib

set_option autoImplicit false

/-!
The Gregorian calendar, without a beginning or an end: the days from the first of January 1970, and
the dates. A year is counted from March on, so that the day that leap years have more is its last.
-/

namespace Gregorian

structure Date where
  year : Int
  month : Int
  day : Int
  deriving DecidableEq

def Leap (year : Int) : Prop := year % 4 = 0 ∧ (year % 100 ≠ 0 ∨ year % 400 = 0)

instance (year : Int) : Decidable (Leap year) := inferInstanceAs (Decidable (_ ∧ _))

def daysInMonth (year month : Int) : Int :=
  if month = 2 then if Leap year then 29 else 28
  else if month = 4 ∨ month = 6 ∨ month = 9 ∨ month = 11 then 30 else 31

structure Date.Valid (d : Date) : Prop where
  month : 1 ≤ d.month ∧ d.month ≤ 12
  day : 1 ≤ d.day ∧ d.day ≤ daysInMonth d.year d.month

instance (d : Date) : Decidable d.Valid :=
  decidable_of_iff ((1 ≤ d.month ∧ d.month ≤ 12) ∧ 1 ≤ d.day ∧ d.day ≤ daysInMonth d.year d.month)
    ⟨fun h => ⟨h.1,h.2⟩,fun h => ⟨h.month,h.day⟩⟩

/-- The days from the first of March of the year 0 to the first of March of a year. -/
def yearStart (year : Int) : Int := 365*year+year/4-year/100+year/400

/-- The days from the first of March to the first of a month, where March is 0. -/
def monthStart (month : Int) : Int := (153*month+2)/5

/-- The first of January 1970, in days from the first of March of the year 0. -/
def epoch : Int := 719468

def yearOf (n : Int) : Int × Int :=
  let era := n/146097
  let dayOfEra := n-146097*era
  let century := min (dayOfEra/36524) 3
  let dayOfCentury := dayOfEra-36524*century
  let olympiad := dayOfCentury/1461
  let dayOfOlympiad := dayOfCentury-1461*olympiad
  let year := min (dayOfOlympiad/365) 3
  (400*era+100*century+4*olympiad+year,dayOfOlympiad-365*year)

def monthOf (day : Int) : Int := (5*day+2)/153

def days (d : Date) : Int :=
  if d.month ≤ 2 then yearStart (d.year-1)+monthStart (d.month+9)+d.day-1-epoch
  else yearStart d.year+monthStart (d.month-3)+d.day-1-epoch

def civil (n : Int) : Date :=
  let year := (yearOf (n+epoch)).1
  let day := (yearOf (n+epoch)).2
  if monthOf day < 10 then ⟨year,monthOf day+3,day-monthStart (monthOf day)+1⟩
  else ⟨year+1,monthOf day-9,day-monthStart (monthOf day)+1⟩

variable {n year month day : Int} {d : Date}

theorem yearStart_parts {era century olympiad : Int} (hcentury : 0 ≤ century ∧ century ≤ 3)
    (holympiad : 0 ≤ olympiad ∧ olympiad ≤ 24) (hyear : 0 ≤ year ∧ year ≤ 3) :
    yearStart (400*era+100*century+4*olympiad+year) =
      146097*era+36524*century+1461*olympiad+365*year := by
  have hfour : (400*era+100*century+4*olympiad+year)/4 = 100*era+25*century+olympiad := by omega
  have hcenturies : (400*era+100*century+4*olympiad+year)/100 = 4*era+century := by omega
  have heras : (400*era+100*century+4*olympiad+year)/400 = era := by omega
  unfold yearStart
  rw [hfour,hcenturies,heras]
  omega

theorem yearOf_spec (n : Int) : yearStart (yearOf n).1+(yearOf n).2 = n ∧
    0 ≤ (yearOf n).2 ∧ (yearOf n).2 ≤ 365 := by
  unfold yearOf
  dsimp only
  generalize hera : n/146097 = era
  generalize hcentury : min ((n-146097*era)/36524) 3 = century
  generalize holympiad : (n-146097*era-36524*century)/1461 = olympiad
  generalize hyear : min ((n-146097*era-36524*century-1461*olympiad)/365) 3 = year
  have hc : 0 ≤ century ∧ century ≤ 3 := by omega
  have ho : 0 ≤ olympiad ∧ olympiad ≤ 24 := by omega
  have hy : 0 ≤ year ∧ year ≤ 3 := by omega
  rw [yearStart_parts hc ho hy]
  omega

/-- The day of a year tells the year, and the day in it; only the year that ends in a leap year has
366 days. -/
theorem yearOf_yearStart (hday : 0 ≤ day ∧ day ≤ 365) (hleap : day = 365 → Leap (year+1)) :
    yearOf (yearStart year+day) = (year,day) := by
  obtain ⟨era,century,olympiad,a,hc,ho,ha,rfl⟩ : ∃ era century olympiad a : Int,
      (0 ≤ century ∧ century ≤ 3) ∧ (0 ≤ olympiad ∧ olympiad ≤ 24) ∧ (0 ≤ a ∧ a ≤ 3) ∧
        year = 400*era+100*century+4*olympiad+a :=
    ⟨year/400,year%400/100,year%100/4,year%4,by omega,by omega,by omega,by omega⟩
  have hlast : day = 365 → a = 3 ∧ (olympiad = 24 → century = 3) := by
    intro h
    obtain ⟨hfour,hhundred⟩ := hleap h
    omega
  rw [yearStart_parts hc ho ha]
  unfold yearOf
  dsimp only
  have hera : (146097*era+36524*century+1461*olympiad+365*a+day)/146097 = era := by omega
  rw [hera]
  have hrest : 146097*era+36524*century+1461*olympiad+365*a+day-146097*era =
      36524*century+1461*olympiad+365*a+day := by omega
  rw [hrest]
  have hcentury : min ((36524*century+1461*olympiad+365*a+day)/36524) 3 = century := by omega
  rw [hcentury]
  have hrest' : 36524*century+1461*olympiad+365*a+day-36524*century = 1461*olympiad+365*a+day := by
    omega
  rw [hrest']
  have holympiad : (1461*olympiad+365*a+day)/1461 = olympiad := by omega
  rw [holympiad]
  have hrest'' : 1461*olympiad+365*a+day-1461*olympiad = 365*a+day := by omega
  rw [hrest'']
  have hyear : min ((365*a+day)/365) 3 = a := by omega
  rw [hyear]
  exact Prod.ext rfl (by omega)

theorem monthOf_range (hday : 0 ≤ day ∧ day ≤ 365) : 0 ≤ monthOf day ∧ monthOf day ≤ 11 ∧
    0 ≤ day-monthStart (monthOf day) ∧ day-monthStart (monthOf day) ≤ 30 := by
  unfold monthOf monthStart
  omega

theorem days_civil (n : Int) : days (civil n) = n := by
  obtain ⟨hsum,hday⟩ := yearOf_spec (n+epoch)
  obtain ⟨hlow,hhigh,-⟩ := monthOf_range hday
  unfold civil
  dsimp only
  split_ifs with hmonth
  · unfold days
    dsimp only
    rw [if_neg (by omega),show monthOf (yearOf (n+epoch)).2+3-3 = monthOf (yearOf (n+epoch)).2 by omega]
    omega
  · unfold days
    dsimp only
    rw [if_pos (by omega),show monthOf (yearOf (n+epoch)).2-9+9 = monthOf (yearOf (n+epoch)).2 by omega,
      add_sub_cancel_right]
    omega

theorem civil_range (n : Int) : 1 ≤ (civil n).month ∧ (civil n).month ≤ 12 ∧
    1 ≤ (civil n).day ∧ (civil n).day ≤ 31 := by
  obtain ⟨-,hday⟩ := yearOf_spec (n+epoch)
  obtain ⟨hlow,hhigh,hstart,hend⟩ := monthOf_range hday
  unfold civil
  dsimp only
  split_ifs
  · dsimp only
    omega
  · dsimp only
    omega

theorem monthOf_monthStart (hday : monthStart month ≤ day ∧ day < monthStart (month+1)) :
    monthOf day = month := by
  unfold monthStart at hday
  unfold monthOf
  omega

theorem day_lt_monthStart (hmonth : 3 ≤ month ∧ month ≤ 12) (hday : day ≤ daysInMonth year month) :
    monthStart (month-3)+day-1 < monthStart (month-3+1) := by
  unfold daysInMonth at hday
  rw [if_neg (by omega)] at hday
  unfold monthStart
  split_ifs at hday with hshort
  · omega
  · rcases (show month = 3 ∨ month = 5 ∨ month = 7 ∨ month = 8 ∨ month = 10 ∨ month = 12 by omega) with
      rfl | rfl | rfl | rfl | rfl | rfl <;> omega

theorem civil_days (h : d.Valid) : civil (days d) = d := by
  obtain ⟨year,month,day⟩ := d
  obtain ⟨⟨hlow,hhigh⟩,hfirst,hlast⟩ := h
  dsimp only at hlow hhigh hfirst hlast
  unfold days civil
  dsimp only
  by_cases hearly : month ≤ 2
  · -- January and February belong to the year before
    have hvalue : monthStart (month+9)+day-1 ≤ 365 ∧ monthStart (month+9)+day-1 < monthStart (month+9+1) ∧
        (monthStart (month+9)+day-1 = 365 → Leap year) := by
      unfold daysInMonth at hlast
      unfold monthStart
      rcases (show month = 1 ∨ month = 2 by omega) with rfl | rfl
      · rw [if_neg (by decide),if_neg (by decide)] at hlast
        omega
      · rw [if_pos rfl] at hlast
        split_ifs at hlast with hleap
        · exact ⟨by omega,by omega,fun _ => hleap⟩
        · exact ⟨by omega,by omega,by omega⟩
    have hrange : 0 ≤ monthStart (month+9)+day-1 := by
      unfold monthStart
      omega
    have hmonth : monthOf (monthStart (month+9)+day-1) = month+9 :=
      monthOf_monthStart ⟨by omega,hvalue.2.1⟩
    have hyear : yearOf (yearStart (year-1)+(monthStart (month+9)+day-1)) =
        (year-1,monthStart (month+9)+day-1) :=
      yearOf_yearStart ⟨hrange,hvalue.1⟩ fun h => by
        rw [sub_add_cancel]
        exact hvalue.2.2 h
    rw [if_pos hearly,show yearStart (year-1)+monthStart (month+9)+day-1-epoch+epoch =
      yearStart (year-1)+(monthStart (month+9)+day-1) by omega,hyear]
    dsimp only
    rw [hmonth,if_neg (by omega)]
    congr 1
    · omega
    · omega
    · omega
  · have hvalue := day_lt_monthStart ⟨by omega,hhigh⟩ hlast
    have hrange : 0 ≤ monthStart (month-3)+day-1 ∧ monthStart (month-3)+day-1 < 365 := by
      unfold monthStart at hvalue ⊢
      omega
    have hmonth : monthOf (monthStart (month-3)+day-1) = month-3 :=
      monthOf_monthStart ⟨by omega,hvalue⟩
    have hyear : yearOf (yearStart year+(monthStart (month-3)+day-1)) =
        (year,monthStart (month-3)+day-1) :=
      yearOf_yearStart ⟨hrange.1,hrange.2.le⟩ fun h => absurd h hrange.2.ne
    rw [if_neg hearly,show yearStart year+monthStart (month-3)+day-1-epoch+epoch =
      yearStart year+(monthStart (month-3)+day-1) by omega,hyear]
    dsimp only
    rw [hmonth,if_pos (by omega)]
    congr 1
    · omega
    · omega

end Gregorian
