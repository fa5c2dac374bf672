import TrinityCore.Lib.OrderedMap

set_option autoImplicit false

namespace TrinityCore.Lfg

abbrev Role := BitVec 8

namespace Role

def leader : Role := 0x01

def tank : Role := 0x02

def healer : Role := 0x04

def damage : Role := 0x08

end Role

def tanksNeeded : Nat := 1

def healersNeeded : Nat := 1

def dpsNeeded : Nat := 3

abbrev LfgRolesMap := OrderedMap Nat Role

/-- What the loop of `CheckGroupRoles` has counted so far. The keys of the map play no part
in it, so that it works on the list of the values. -/
structure Tally where
  groles : List Role
  damage : Nat
  healer : Nat
  tank : Nat

section Check

variable (recheck : List Role → Bool × List Role)

/-- One role of the player at a place: either he can do without it, or it counts. An error is
a return from the loop. -/
def tryRole (i : Nat) (role : Role) (needed count : Nat) (groles : List Role) :
    Except (Bool × List Role) (Nat × List Role) :=
  let v := groles.getD i 0
  if v &&& role = 0 then .ok (count,groles)
  else if v ≠ role then
    match recheck (groles.set i (v-role)) with
    | (true,groles) => .error (true,groles)
    | (false,groles) => .ok (count,groles.set i (groles.getD i 0+role))
  else if count = needed then .error (false,groles)
  else .ok (count+1,groles)

def visitPlayer (i : Nat) (t : Tally) : Except (Bool × List Role) Tally :=
  if t.groles.getD i 0 = 0 then .error (false,t.groles)
  else do
    let (damage,groles) ← tryRole recheck i Role.damage dpsNeeded t.damage t.groles
    let (healer,groles) ← tryRole recheck i Role.healer healersNeeded t.healer groles
    let (tank,groles) ← tryRole recheck i Role.tank tanksNeeded t.tank groles
    return ⟨groles,damage,healer,tank⟩

def visitPlayers : Nat → Nat → Tally → Except (Bool × List Role) Tally
  | 0, _, t => .ok t
  | n+1, i, t => do visitPlayers n (i+1) (← visitPlayer recheck i t)

end Check

/-- Each recursive call takes a role from a player, so that the fuel of `checkGroupRoles` is
enough. -/
def checkRolesFuel : Nat → List Role → Bool × List Role
  | 0, groles => (false,groles)
  | n+1, groles =>
    if groles = [] then (false,groles)
    else
      match visitPlayers (checkRolesFuel n) groles.length 0 ⟨groles,0,0,0⟩ with
      | .error r => r
      | .ok t => (decide (t.tank+t.healer+t.damage = t.groles.length % 256),t.groles)

def checkRoles (groles : List Role) : Bool × List Role :=
  checkRolesFuel (3*groles.length+1) (groles.map (· &&& ~~~Role.leader))

def checkGroupRoles (groles : LfgRolesMap) : Bool × LfgRolesMap :=
  let (ok,vs) := checkRoles groles.values
  (ok,groles.setValues vs)

def IsRole (r : Role) : Prop := r = Role.damage ∨ r = Role.healer ∨ r = Role.tank

/-- Every player keeps only roles that he has offered. -/
def Offered (vs groles : List Role) : Prop :=
  vs.length = groles.length ∧ ∀ i, vs.getD i 0 ||| groles.getD i 0 = groles.getD i 0

/-- Nobody is one too many, and the roles that are given out add up. -/
structure Assigned (vs : List Role) : Prop where
  damage : vs.count Role.damage ≤ dpsNeeded
  healer : vs.count Role.healer ≤ healersNeeded
  tank : vs.count Role.tank ≤ tanksNeeded
  total : vs.count Role.tank+vs.count Role.healer+vs.count Role.damage = vs.length % 256

theorem Offered.trans {a b c : List Role} (h : Offered a b) (h' : Offered b c) : Offered a c := by
  refine ⟨h.1.trans h'.1,fun i => ?_⟩
  rw [← h'.2 i,← h.2 i,← BitVec.or_assoc,← BitVec.or_assoc,BitVec.or_self]

section Spec

variable {recheck : List Role → Bool × List Role} {groles : List Role} {i n : Nat}

theorem tryRole_cases (hfail : ∀ g g', recheck g = (false,g') → g' = g) (hi : i < groles.length)
    {role : Role} (hr : role ≠ 0) (needed count : Nat) :
    (tryRole recheck i role needed count groles =
        .ok (count+(if groles.getD i 0 = role then 1 else 0),groles) ∧
      (groles.getD i 0 = role → count ≠ needed)) ∨
    tryRole recheck i role needed count groles = .error (false,groles) ∨
    ∃ g, tryRole recheck i role needed count groles = .error (true,g) ∧
      groles.getD i 0 &&& role ≠ 0 ∧ recheck (groles.set i (groles.getD i 0-role)) = (true,g) := by
  unfold tryRole
  simp only
  by_cases h0 : groles.getD i 0 &&& role = 0
  · rw [if_pos h0]
    have hne : groles.getD i 0 ≠ role := by
      rintro h
      rw [h,BitVec.and_self] at h0
      exact hr h0
    exact .inl ⟨by rw [if_neg hne]; rfl,fun h => absurd h hne⟩
  · rw [if_neg h0]
    by_cases h1 : groles.getD i 0 ≠ role
    · rw [if_pos h1]
      rcases hc : recheck (groles.set i (groles.getD i 0-role)) with ⟨b,g⟩
      cases b with
      | true => exact .inr (.inr ⟨g,rfl,h0,rfl⟩)
      | false =>
        -- what was taken is put back
        have hg := hfail _ _ hc
        refine .inl ⟨?_,fun h => absurd h h1⟩
        have hv : g.getD i 0+role = groles.getD i 0 := by
          rw [hg]
          simp [List.getD_eq_getElem?_getD,hi]
        simp only [hv,if_neg h1]
        rw [hg,List.set_set,List.getD_eq_getElem _ _ hi,List.set_getElem_self]
        rfl
    · rw [if_neg h1,if_pos (not_not.mp h1)]
      by_cases h2 : count = needed
      · rw [if_pos h2]
        exact .inr (.inl rfl)
      · rw [if_neg h2]
        exact .inl ⟨rfl,fun _ => h2⟩

/-- The roles given out among the first players. -/
structure Tally.Counts (t : Tally) (groles : List Role) (i : Nat) : Prop where
  groles_eq : t.groles = groles
  damage_eq : t.damage = (groles.take i).count Role.damage
  healer_eq : t.healer = (groles.take i).count Role.healer
  tank_eq : t.tank = (groles.take i).count Role.tank
  damage_le : t.damage ≤ dpsNeeded
  healer_le : t.healer ≤ healersNeeded
  tank_le : t.tank ≤ tanksNeeded

def Ends (recheck : List Role → Bool × List Role) (groles : List Role) (i : Nat) :
    Except (Bool × List Role) Tally → Prop
  | .ok t => t.Counts groles i
  | .error (false,g) => g = groles
  | .error (true,g) => ∃ i role, IsRole role ∧ groles.getD i 0 &&& role ≠ 0 ∧
      recheck (groles.set i (groles.getD i 0-role)) = (true,g)

theorem count_take_succ (hi : i < groles.length) (role : Role) :
    (groles.take (i+1)).count role =
      (groles.take i).count role+(if groles.getD i 0 = role then 1 else 0) := by
  rw [List.take_add_one,List.count_append,List.getD_eq_getElem _ _ hi,
    List.getElem?_eq_getElem hi]
  simp [List.count_singleton]

theorem visitPlayer_ends (hfail : ∀ g g', recheck g = (false,g') → g' = g)
    (hi : i < groles.length) {t : Tally} (ht : t.Counts groles i) :
    Ends recheck groles (i+1) (visitPlayer recheck i t) := by
  obtain ⟨rfl,h1,h2,h3,h4,h5,h6⟩ := ht
  have hd := count_take_succ hi Role.damage
  have hh := count_take_succ hi Role.healer
  have hk := count_take_succ hi Role.tank
  unfold visitPlayer
  split_ifs with h0
  · exact rfl
  rcases tryRole_cases hfail hi (by decide : Role.damage ≠ 0) dpsNeeded t.damage with
    ⟨e1,l1⟩ | e1 | ⟨g,e1,r1⟩
  · rcases tryRole_cases hfail hi (by decide : Role.healer ≠ 0) healersNeeded t.healer with
      ⟨e2,l2⟩ | e2 | ⟨g,e2,r2⟩
    · rcases tryRole_cases hfail hi (by decide : Role.tank ≠ 0) tanksNeeded t.tank with
        ⟨e3,l3⟩ | e3 | ⟨g,e3,r3⟩
      · simp only [e1,e2,e3,bind,Except.bind,pure,Except.pure]
        refine ⟨rfl,?_,?_,?_,?_,?_,?_⟩
        · simp only [hd,h1]
        · simp only [hh,h2]
        · simp only [hk,h3]
        all_goals simp only; split_ifs with h <;> grind
      · simp [e1,e2,e3,bind,Except.bind,Ends]
      · simp only [e1,e2,e3,bind,Except.bind]
        exact ⟨i,Role.tank,.inr (.inr rfl),r3⟩
    · simp [e1,e2,bind,Except.bind,Ends]
    · simp only [e1,e2,bind,Except.bind]
      exact ⟨i,Role.healer,.inr (.inl rfl),r2⟩
  · simp [e1,bind,Except.bind,Ends]
  · simp only [e1,bind,Except.bind]
    exact ⟨i,Role.damage,.inl rfl,r1⟩

theorem visitPlayers_ends (hfail : ∀ g g', recheck g = (false,g') → g' = g)
    (hn : i+n = groles.length) {t : Tally} (ht : t.Counts groles i) :
    Ends recheck groles groles.length (visitPlayers recheck n i t) := by
  induction n generalizing i t with
  | zero =>
    obtain rfl : i = groles.length := hn
    exact ht
  | succ n ih =>
    have hv := visitPlayer_ends hfail (by omega) ht
    simp only [visitPlayers]
    generalize visitPlayer recheck i t = r at hv ⊢
    rcases r with ⟨_ | _,g⟩ | t'
    · exact hv
    · exact hv
    · exact ih (by omega) hv

theorem isRole_sub : ∀ v role : Role, IsRole role → v &&& role ≠ 0 → (v-role) ||| v = v := by
  rintro v role (rfl | rfl | rfl)
  all_goals revert v; decide

theorem offered_set {role : Role} (hrole : IsRole role) (hbit : groles.getD i 0 &&& role ≠ 0) :
    Offered (groles.set i (groles.getD i 0-role)) groles := by
  refine ⟨by simp,fun j => ?_⟩
  by_cases hj : j = i
  · subst hj
    by_cases hl : j < groles.length
    · have hset : (groles.set j (groles.getD j 0-role)).getD j 0 = groles.getD j 0-role := by
        simp [List.getD_eq_getElem?_getD,hl]
      rw [hset]
      exact isRole_sub _ _ hrole hbit
    · rw [List.set_eq_of_length_le (by omega)]
      exact BitVec.or_self
  · have hset : (groles.set i (groles.getD i 0-role)).getD j 0 = groles.getD j 0 := by
      simp [List.getD_eq_getElem?_getD,Ne.symm hj]
    rw [hset]
    exact BitVec.or_self

/-- A call that fails puts back what it has taken, one that succeeds leaves an assignment of
roles that the players have offered. -/
theorem checkRolesFuel_spec (n : Nat) (groles : List Role) :
    match checkRolesFuel n groles with
    | (false,vs) => vs = groles
    | (true,vs) => Offered vs groles ∧ Assigned vs := by
  induction n generalizing groles with
  | zero => rfl
  | succ n ih =>
    have hfail : ∀ g g', checkRolesFuel n g = (false,g') → g' = g := by
      intro g g' h
      have := ih g
      rw [h] at this
      exact this
    have hends : Ends (checkRolesFuel n) groles groles.length
        (visitPlayers (checkRolesFuel n) groles.length 0 ⟨groles,0,0,0⟩) :=
      visitPlayers_ends hfail (by omega)
        ⟨rfl,by simp,by simp,by simp,by simp,by simp,by simp⟩
    simp only [checkRolesFuel]
    split_ifs with h0
    · rfl
    rcases hv : visitPlayers (checkRolesFuel n) groles.length 0 ⟨groles,0,0,0⟩ with ⟨_ | _,g⟩ | t
    · rw [hv] at hends
      exact hends
    · rw [hv] at hends
      obtain ⟨i,role,hrole,hbit,hok⟩ := hends
      have hg := ih (groles.set i (groles.getD i 0-role))
      rw [hok] at hg
      exact ⟨hg.1.trans (offered_set hrole hbit),hg.2⟩
    · rw [hv] at hends
      obtain ⟨e,h1,h2,h3,h4,h5,h6⟩ := hends
      rw [List.take_length] at h1 h2 h3
      by_cases hsum : t.tank+t.healer+t.damage = t.groles.length % 256
      · simp only [hsum,decide_true]
        rw [e]
        refine ⟨⟨rfl,fun j => BitVec.or_self⟩,h1 ▸ h4,h2 ▸ h5,h3 ▸ h6,?_⟩
        rw [← h1,← h2,← h3,hsum,e]
      · simp only [hsum,decide_false]
        exact e

end Spec

theorem checkRoles_of_true {groles : List Role} (h : (checkRoles groles).1 = true) :
    Offered (checkRoles groles).2 groles ∧ Assigned (checkRoles groles).2 := by
  have hs := checkRolesFuel_spec (3*groles.length+1) (groles.map (· &&& ~~~Role.leader))
  unfold checkRoles at h ⊢
  generalize checkRolesFuel _ (groles.map (· &&& ~~~Role.leader)) = r at h hs ⊢
  obtain ⟨b,vs⟩ := r
  obtain rfl : b = true := h
  refine ⟨hs.1.trans ⟨by simp,fun i => ?_⟩,hs.2⟩
  have hmask : (groles.map (· &&& ~~~Role.leader)).getD i 0 = groles.getD i 0 &&& ~~~Role.leader := by
    simp only [List.getD_eq_getElem?_getD,List.getElem?_map]
    cases groles[i]? <;> rfl
  have habsorb : ∀ v : Role, v &&& ~~~Role.leader ||| v = v := by decide
  rw [hmask]
  exact habsorb _

theorem length_checkRoles (groles : List Role) :
    (checkRoles groles).2.length = groles.length := by
  have hs := checkRolesFuel_spec (3*groles.length+1) (groles.map (· &&& ~~~Role.leader))
  unfold checkRoles
  generalize checkRolesFuel _ (groles.map (· &&& ~~~Role.leader)) = r at hs ⊢
  obtain ⟨_ | _,vs⟩ := r
  · rw [hs]
    simp
  · simp [hs.1.1]

theorem keys_checkGroupRoles (rs : LfgRolesMap) : (checkGroupRoles rs).2.keys = rs.keys :=
  OrderedMap.keys_setValues ((length_checkRoles rs.values).trans (by
    simp [OrderedMap.values,OrderedMap.size]))

theorem count_role_le : ∀ r : Role, (if r == Role.tank then 1 else 0)+
    (if r == Role.healer then 1 else 0)+(if r == Role.damage then 1 else 0) ≤ 1 := by decide

theorem count_roles_le (vs : List Role) :
    vs.count Role.tank+vs.count Role.healer+vs.count Role.damage ≤ vs.length := by
  induction vs with
  | nil => simp
  | cons r vs ih =>
    have hr := count_role_le r
    simp only [List.count_cons,List.length_cons]
    omega

theorem isRole_of_total {vs : List Role}
    (h : vs.count Role.tank+vs.count Role.healer+vs.count Role.damage = vs.length) :
    ∀ r ∈ vs, IsRole r := by
  induction vs with
  | nil => simp
  | cons r vs ih =>
    have hrest := count_roles_le vs
    have hone := count_role_le r
    simp only [List.count_cons,List.length_cons] at h
    have hr : IsRole r := by
      by_contra hr
      simp only [IsRole,not_or] at hr
      simp [hr.1,hr.2.1,hr.2.2] at h
      omega
    intro x hx
    rcases List.mem_cons.mp hx with rfl | hx
    · exact hr
    · exact ih (by omega) x hx

theorem Assigned.exact {vs : List Role} (h : Assigned vs) (hl : vs.length = 5) :
    vs.count Role.tank = tanksNeeded ∧ vs.count Role.healer = healersNeeded ∧
    vs.count Role.damage = dpsNeeded ∧ ∀ r ∈ vs, IsRole r := by
  obtain ⟨hd,hh,ht,htotal⟩ := h
  unfold dpsNeeded at *
  unfold healersNeeded at *
  unfold tanksNeeded at *
  rw [hl] at htotal
  refine ⟨by omega,by omega,by omega,isRole_of_total ?_⟩
  omega

end TrinityCore.Lfg
