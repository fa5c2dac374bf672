import Mathlib

set_option autoImplicit false

namespace CyclicClock

variable {n origin stamp now wait t : Nat}

def since (n origin t : Nat) : Nat := (t+(n-origin % n)) % n

theorem since_lt (hn : 0 < n) : since n origin t < n := Nat.mod_lt _ hn

theorem since_eq (ho : origin < n) (ht : t < n) :
    since n origin t = if origin ≤ t then t-origin else t+n-origin := by
  unfold since
  rw [Nat.mod_eq_of_lt ho]
  split_ifs with hle
  · have hsum : t+(n-origin) = t-origin+n := by omega
    rw [hsum,Nat.add_mod_right,Nat.mod_eq_of_lt (by omega)]
  · rw [Nat.mod_eq_of_lt (by omega)]
    omega

theorem since_zero (ht : t < n) : since n 0 t = t := by
  rw [since_eq (by omega) ht,if_pos (Nat.zero_le t),Nat.sub_zero]

/-- A stamp that comes before `now-wait` on the scale although no more than the wait has passed
since: the scale begins between `now-wait` and the stamp. -/
theorem early_iff (ho : origin < n) (hstamp : stamp < n) (hnow : now < n) (hwait : wait < n) :
    since n origin stamp < since n origin (since n wait now) ∧ since n stamp now ≤ wait ↔
      since n origin stamp ≤ since n origin now ∧ since n origin now < wait := by
  have hback : since n wait now < n := since_lt (by omega)
  rw [since_eq ho hstamp,since_eq ho hnow,since_eq ho hback,since_eq hstamp hnow,
    since_eq hwait hnow]
  split_ifs <;> omega

end CyclicClock
