import TrinityCore.DungeonFinding.Roles

set_option autoImplicit false

/-!
`CheckGroupRoles` finds an assignment of roles if there is one. It takes one role at a time from
somebody who has offered several, and there is always one that the assignment can do without.
-/

namespace TrinityCore.Lfg

/-- Everybody plays one of the roles he has offered, and nobody is one too many. -/
structure Choice (groles vs : List Role) : Prop where
  offers : List.Forall₂ (fun offered role => IsRole role ∧ offered &&& role = role) groles vs
  tank : vs.count Role.tank ≤ tanksNeeded
  healer : vs.count Role.healer ≤ healersNeeded
  damage : vs.count Role.damage ≤ dpsNeeded

/-- The mask has no bits but those of the three roles. -/
def Clean (v : Role) : Prop := v &&& (Role.tank ||| Role.healer ||| Role.damage) = v

def roleCount (v : Role) : Nat :=
  (if v &&& Role.tank = 0 then 0 else 1)+(if v &&& Role.healer = 0 then 0 else 1)+
    (if v &&& Role.damage = 0 then 0 else 1)

def weight (groles : List Role) : Nat := (groles.map roleCount).sum

def checkRolesFrom (bottom : List Role → Bool × List Role) : Nat → List Role → Bool × List Role
  | 0, groles => bottom groles
  | n+1, groles =>
    if groles = [] then (false,groles)
    else
      match visitPlayers (checkRolesFrom bottom n) groles.length 0 ⟨groles,0,0,0⟩ with
      | .error r => r
      | .ok t => (decide (t.tank+t.healer+t.damage = t.groles.length % 256),t.groles)

theorem roleCount_sub : ∀ v role : Role, IsRole role → v &&& role ≠ 0 →
    roleCount (v-role)+1 = roleCount v := by
  rintro v role (rfl | rfl | rfl)
  all_goals revert v; decide

theorem clean_sub : ∀ v role : Role, IsRole role → v &&& role ≠ 0 → Clean v → Clean (v-role) := by
  rintro v role (rfl | rfl | rfl)
  all_goals revert v; unfold Clean; decide

theorem offers_sub : ∀ v role chosen : Role, IsRole role → IsRole chosen → role ≠ chosen →
    v &&& role ≠ 0 → v &&& chosen = chosen → (v-role) &&& chosen = chosen := by
  rintro v role chosen (rfl | rfl | rfl) (rfl | rfl | rfl)
  all_goals revert v; decide

theorem roleCount_le : ∀ v : Role, roleCount v ≤ 3 := by decide

theorem weight_le (groles : List Role) : weight groles ≤ 3*groles.length := by
  induction groles with
  | nil => simp [weight]
  | cons v groles ih =>
    have hv := roleCount_le v
    simp only [weight,List.map_cons,List.sum_cons,List.length_cons] at *
    omega

theorem weight_set {groles : List Role} {i : Nat} {role : Role} (hi : i < groles.length)
    (hrole : IsRole role) (hbit : groles.getD i 0 &&& role ≠ 0) :
    weight (groles.set i (groles.getD i 0-role))+1 = weight groles := by
  induction groles generalizing i with
  | nil => simp at hi
  | cons v groles ih =>
    cases i with
    | zero =>
      have hv := roleCount_sub v role hrole hbit
      simp only [weight,List.set_cons_zero,List.map_cons,List.sum_cons,List.getD_cons_zero]
      omega
    | succ i =>
      have hrest := ih (Nat.lt_of_succ_lt_succ hi) hbit
      simp only [weight,List.set_cons_succ,List.map_cons,List.sum_cons,List.getD_cons_succ] at *
      omega

section Terminates

variable {recheck recheck' : List Role → Bool × List Role} {groles : List Role} {i n : Nat}

theorem tryRole_congr (hsame : ∀ g, weight g < weight groles → recheck g = recheck' g)
    (hi : i < groles.length) {role : Role} (hrole : IsRole role) (needed count : Nat) :
    tryRole recheck i role needed count groles = tryRole recheck' i role needed count groles := by
  unfold tryRole
  dsimp only
  by_cases hbit : groles.getD i 0 &&& role = 0
  · simp only [hbit,if_true]
  · have hless := weight_set hi hrole hbit
    rw [hsame (groles.set i (groles.getD i 0-role)) (by omega)]

theorem visitPlayer_congr (hfail : ∀ g g', recheck g = (false,g') → g' = g)
    (hsame : ∀ g, weight g < weight groles → recheck g = recheck' g) (hi : i < groles.length)
    {t : Tally} (ht : t.groles = groles) : visitPlayer recheck i t = visitPlayer recheck' i t := by
  subst ht
  unfold visitPlayer
  split_ifs with h0
  · rfl
  have hd := tryRole_congr hsame hi (.inl rfl) dpsNeeded t.damage
  have hh := tryRole_congr hsame hi (.inr (.inl rfl)) healersNeeded t.healer
  have hk := tryRole_congr hsame hi (.inr (.inr rfl)) tanksNeeded t.tank
  -- the list is as it was whenever the loop goes on
  rcases tryRole_cases hfail hi (by decide : Role.damage ≠ 0) dpsNeeded t.damage with
    ⟨e1,-⟩ | e1 | ⟨g,e1,-⟩
  · rcases tryRole_cases hfail hi (by decide : Role.healer ≠ 0) healersNeeded t.healer with
      ⟨e2,-⟩ | e2 | ⟨g,e2,-⟩
    all_goals simp only [← hd,e1,← hh,e2,← hk,bind,Except.bind]
  all_goals simp only [← hd,e1,bind,Except.bind]

theorem visitPlayers_congr (hfail : ∀ g g', recheck g = (false,g') → g' = g)
    (hsame : ∀ g, weight g < weight groles → recheck g = recheck' g) (hn : i+n = groles.length)
    {t : Tally} (ht : t.Counts groles i) :
    visitPlayers recheck n i t = visitPlayers recheck' n i t := by
  induction n generalizing i t with
  | zero => rfl
  | succ n ih =>
    have hv := visitPlayer_ends hfail (by omega) ht
    have hi : i < groles.length := by omega
    simp only [visitPlayers,← visitPlayer_congr hfail hsame hi ht.groles_eq]
    generalize visitPlayer recheck i t = r at hv ⊢
    cases r with
    | error r => rfl
    | ok t' => exact ih (by omega) hv

theorem counts_start (groles : List Role) : Tally.Counts ⟨groles,0,0,0⟩ groles 0 :=
  ⟨rfl,by simp,by simp,by simp,by simp,by simp,by simp⟩

theorem checkRolesFuel_fail {n : Nat} {g g' : List Role} (h : checkRolesFuel n g = (false,g')) :
    g' = g := by
  have hspec := checkRolesFuel_spec n g
  rw [h] at hspec
  exact hspec

/-- With as much fuel as there are roles to take, it does not matter what is answered where the
fuel ends. -/
theorem checkRolesFrom_eq (bottom : List Role → Bool × List Role) {m : Nat}
    (hn : weight groles < n) (hm : weight groles < m) :
    checkRolesFrom bottom n groles = checkRolesFuel m groles := by
  induction n generalizing m groles with
  | zero => omega
  | succ n ih =>
    obtain ⟨m,rfl⟩ : ∃ k, m = k+1 := ⟨m-1,by omega⟩
    have hsame : ∀ g, weight g < weight groles →
        checkRolesFuel m g = checkRolesFrom bottom n g :=
      fun g hg => (ih (by omega) (by omega)).symm
    simp only [checkRolesFrom,checkRolesFuel]
    rewrite [visitPlayers_congr (fun _ _ => checkRolesFuel_fail) hsame (Nat.zero_add _)
      (counts_start groles)]
    rfl

end Terminates

theorem eq_of_single : ∀ role chosen : Role, IsRole role → IsRole chosen →
    role &&& chosen = chosen → chosen = role := by
  rintro role chosen (rfl | rfl | rfl) (rfl | rfl | rfl) <;> decide

theorem eq_of_only : ∀ v chosen : Role, IsRole chosen → Clean v → v &&& chosen = chosen →
    (v &&& Role.damage ≠ 0 → Role.damage = chosen) → (v &&& Role.healer ≠ 0 → Role.healer = chosen) →
    (v &&& Role.tank ≠ 0 → Role.tank = chosen) → v = chosen := by
  rintro v chosen (rfl | rfl | rfl)
  all_goals revert v; unfold Clean; decide

section Complete

variable {recheck : List Role → Bool × List Role} {groles vs : List Role} {i n : Nat} {role : Role}

theorem Choice.at (h : Choice groles vs) (hi : i < groles.length) :
    IsRole (vs.getD i 0) ∧ groles.getD i 0 &&& vs.getD i 0 = vs.getD i 0 := by
  have hlen := h.offers.length_eq
  have hget := List.forall₂_iff_get.mp h.offers
  rw [List.getD_eq_getElem _ _ hi,List.getD_eq_getElem _ _ (hlen ▸ hi)]
  exact hget.2 i hi (hlen ▸ hi)

theorem count_le_of_offers (hrole : IsRole role)
    (h : List.Forall₂ (fun offered role => IsRole role ∧ offered &&& role = role) groles vs) :
    groles.count role ≤ vs.count role := by
  induction h with
  | nil => simp
  | @cons v chosen groles vs hv _ ih =>
    rw [List.count_cons,List.count_cons]
    by_cases hsingle : v = role
    · subst hsingle
      rw [eq_of_single v chosen hrole hv.1 hv.2]
      omega
    · simp only [beq_iff_eq,hsingle,if_false]
      omega

theorem Choice.count_take_lt (h : Choice groles vs) (hrole : IsRole role) (hi : i < groles.length)
    (hsingle : groles.getD i 0 = role) : (groles.take i).count role < vs.count role := by
  have hsucc := count_take_succ hi role
  rw [if_pos hsingle] at hsucc
  have htake := (List.take_sublist (i+1) groles).count_le role
  have hle := count_le_of_offers hrole h.offers
  omega

theorem Choice.set (h : Choice groles vs) (hrole : IsRole role)
    (hbit : groles.getD i 0 &&& role ≠ 0) (hne : role ≠ vs.getD i 0) :
    Choice (groles.set i (groles.getD i 0-role)) vs := by
  refine ⟨List.forall₂_iff_get.mpr ⟨by simpa using h.offers.length_eq,?_⟩,h.tank,h.healer,h.damage⟩
  intro j hj hj'
  have hj'' : j < groles.length := by simpa using hj
  obtain ⟨hchosen,hoffer⟩ := h.at hj''
  rw [List.getD_eq_getElem _ _ hj'] at hchosen hoffer
  rw [List.getD_eq_getElem _ _ hj''] at hoffer
  simp only [List.get_eq_getElem,List.getElem_set]
  split_ifs with hij
  · subst hij
    rw [List.getD_eq_getElem _ _ hj'] at hne
    rw [List.getD_eq_getElem _ _ hj''] at hbit ⊢
    exact ⟨hchosen,offers_sub _ _ _ hrole hchosen hne hbit hoffer⟩
  · exact ⟨hchosen,hoffer⟩

theorem tryRole_found (hfail : ∀ g g', recheck g = (false,g') → g' = g) (h : Choice groles vs)
    (hi : i < groles.length) (hrole : IsRole role)
    (hok : groles.getD i 0 &&& role ≠ 0 → role ≠ vs.getD i 0 →
      (recheck (groles.set i (groles.getD i 0-role))).1 = true)
    {needed count : Nat} (hroom : groles.getD i 0 = role → count ≠ needed) :
    (∃ g, tryRole recheck i role needed count groles = .error (true,g)) ∨
    tryRole recheck i role needed count groles =
        .ok (count+(if groles.getD i 0 = role then 1 else 0),groles) ∧
      (groles.getD i 0 &&& role ≠ 0 → role = vs.getD i 0) := by
  have hr : role ≠ 0 := by rcases hrole with rfl | rfl | rfl <;> decide
  by_cases hfree : groles.getD i 0 &&& role ≠ 0 ∧ role ≠ vs.getD i 0
  · -- the player has another role to play, so that this one is tried without
    left
    have hother : groles.getD i 0 ≠ role := by
      intro hsame
      obtain ⟨hchosen,hoffer⟩ := h.at hi
      exact hfree.2 (eq_of_single role _ hrole hchosen (hsame ▸ hoffer)).symm
    have hyes := hok hfree.1 hfree.2
    unfold tryRole
    simp only [if_neg hfree.1,ne_eq,hother,not_false_eq_true,if_true]
    rcases hc : recheck (groles.set i (groles.getD i 0-role)) with ⟨_ | _,g⟩
    · rw [hc] at hyes
      exact absurd hyes Bool.false_ne_true
    · exact ⟨g,rfl⟩
  · have hkeep : groles.getD i 0 &&& role ≠ 0 → role = vs.getD i 0 := by
      intro hbit
      by_contra hne
      exact hfree ⟨hbit,hne⟩
    rcases tryRole_cases hfail hi hr needed count with ⟨e,-⟩ | e | ⟨g,e,-⟩
    · exact .inr ⟨e,hkeep⟩
    · -- only a player too many would end the search
      exfalso
      unfold tryRole at e
      dsimp only at e
      split_ifs at e with h0 h1 h2
      · rcases hc : recheck (groles.set i (groles.getD i 0-role)) with ⟨_ | _,g⟩ <;> rw [hc] at e <;>
          cases e
      · exact hroom (not_not.mp h1) h2
    · exact .inl ⟨g,e⟩

theorem visitPlayer_found (hfail : ∀ g g', recheck g = (false,g') → g' = g) (h : Choice groles vs)
    (hclean : ∀ v ∈ groles, Clean v) (hi : i < groles.length)
    (hok : ∀ role, IsRole role → groles.getD i 0 &&& role ≠ 0 → role ≠ vs.getD i 0 →
      (recheck (groles.set i (groles.getD i 0-role))).1 = true)
    {t : Tally} (ht : t.Counts groles i) :
    (∃ g, visitPlayer recheck i t = .error (true,g)) ∨
    (∃ t', visitPlayer recheck i t = .ok t') ∧ groles.getD i 0 = vs.getD i 0 := by
  obtain ⟨rfl,h1,h2,h3,h4,h5,h6⟩ := ht
  obtain ⟨hchosen,hoffer⟩ := h.at hi
  have hmem : t.groles.getD i 0 ∈ t.groles := by
    rw [List.getD_eq_getElem _ _ hi]
    exact List.getElem_mem hi
  have hsome : t.groles.getD i 0 ≠ 0 := by
    intro hzero
    rw [hzero] at hoffer
    rcases hchosen with hc | hc | hc <;> rw [hc] at hoffer <;> exact absurd hoffer (by decide)
  have hroom : ∀ role needed, IsRole role → vs.count role ≤ needed → t.groles.getD i 0 = role →
      (t.groles.take i).count role ≠ needed := by
    intro role needed hrole hle hsingle
    have hlt := h.count_take_lt hrole hi hsingle
    omega
  unfold visitPlayer
  rw [if_neg hsome]
  rcases tryRole_found hfail h hi (.inl rfl) (hok _ (.inl rfl))
    (h1 ▸ hroom Role.damage dpsNeeded (.inl rfl) h.damage) with ⟨g,e1⟩ | ⟨e1,k1⟩
  · exact .inl ⟨g,by simp [e1,bind,Except.bind]⟩
  rcases tryRole_found hfail h hi (.inr (.inl rfl)) (hok _ (.inr (.inl rfl)))
    (h2 ▸ hroom Role.healer healersNeeded (.inr (.inl rfl)) h.healer) with ⟨g,e2⟩ | ⟨e2,k2⟩
  · exact .inl ⟨g,by simp [e1,e2,bind,Except.bind]⟩
  rcases tryRole_found hfail h hi (.inr (.inr rfl)) (hok _ (.inr (.inr rfl)))
    (h3 ▸ hroom Role.tank tanksNeeded (.inr (.inr rfl)) h.tank) with ⟨g,e3⟩ | ⟨e3,k3⟩
  · exact .inl ⟨g,by simp [e1,e2,e3,bind,Except.bind]⟩
  refine .inr ⟨⟨_,by simp only [e1,e2,e3,bind,Except.bind]; rfl⟩,?_⟩
  exact eq_of_only _ _ hchosen (hclean _ hmem) hoffer k1 k2 k3

theorem visitPlayers_found (hfail : ∀ g g', recheck g = (false,g') → g' = g) (h : Choice groles vs)
    (hclean : ∀ v ∈ groles, Clean v)
    (hok : ∀ i role, i < groles.length → IsRole role → groles.getD i 0 &&& role ≠ 0 →
      role ≠ vs.getD i 0 → (recheck (groles.set i (groles.getD i 0-role))).1 = true)
    (hn : i+n = groles.length) {t : Tally} (ht : t.Counts groles i) :
    (∃ g, visitPlayers recheck n i t = .error (true,g)) ∨
    (∃ t', visitPlayers recheck n i t = .ok t') ∧
      ∀ j, i ≤ j → j < groles.length → groles.getD j 0 = vs.getD j 0 := by
  induction n generalizing i t with
  | zero => exact .inr ⟨⟨t,rfl⟩,fun j h1 h2 => by omega⟩
  | succ n ih =>
    have hi : i < groles.length := by omega
    have hends := visitPlayer_ends hfail hi ht
    simp only [visitPlayers]
    rcases visitPlayer_found hfail h hclean hi (fun role => hok i role hi) ht with
      ⟨g,e⟩ | ⟨⟨t',e⟩,hsame⟩
    · exact .inl ⟨g,by simp [e,bind,Except.bind]⟩
    · rw [e] at hends ⊢
      rcases ih (by omega) hends with hfound | ⟨hdone,hrest⟩
      · exact .inl hfound
      · refine .inr ⟨hdone,fun j h1 h2 => ?_⟩
        by_cases hj : j = i
        · exact hj ▸ hsame
        · exact hrest j (by omega) h2

theorem Choice.total (h : Choice groles vs) :
    vs.count Role.tank+vs.count Role.healer+vs.count Role.damage = vs.length := by
  have hall : ∀ r ∈ vs, IsRole r := by
    intro r hr
    obtain ⟨j,hj,rfl⟩ := List.getElem_of_mem hr
    have hat := h.at (h.offers.length_eq ▸ hj)
    rw [List.getD_eq_getElem _ _ hj] at hat
    exact hat.1
  clear h
  induction vs with
  | nil => rfl
  | cons r vs ih =>
    have hrest := ih fun r hr => hall r (List.mem_cons_of_mem _ hr)
    simp only [List.count_cons,List.length_cons]
    rcases hall r List.mem_cons_self with rfl | rfl | rfl <;> simp [Role.tank,Role.healer,Role.damage]
      at hrest ⊢ <;> omega

theorem checkRolesFuel_found (h : Choice groles vs) (hclean : ∀ v ∈ groles, Clean v)
    (hne : groles ≠ []) (hlt : groles.length < 256) (hn : weight groles < n) :
    (checkRolesFuel n groles).1 = true := by
  induction n generalizing groles with
  | zero => omega
  | succ n ih =>
    have hok : ∀ i role, i < groles.length → IsRole role → groles.getD i 0 &&& role ≠ 0 →
        role ≠ vs.getD i 0 → (checkRolesFuel n (groles.set i (groles.getD i 0-role))).1 = true := by
      intro i role hi hrole hbit hother
      have hless := weight_set hi hrole hbit
      refine ih (h.set hrole hbit hother) ?_ (by simpa using hne) (by simpa using hlt) (by omega)
      intro v hv
      rcases List.mem_or_eq_of_mem_set hv with hv | rfl
      · exact hclean v hv
      · refine clean_sub _ _ hrole hbit (hclean _ ?_)
        rw [List.getD_eq_getElem _ _ hi]
        exact List.getElem_mem hi
    have hends : Ends (checkRolesFuel n) groles groles.length
        (visitPlayers (checkRolesFuel n) groles.length 0 ⟨groles,0,0,0⟩) :=
      visitPlayers_ends (fun _ _ => checkRolesFuel_fail) (Nat.zero_add _) (counts_start groles)
    simp only [checkRolesFuel,if_neg hne]
    rcases visitPlayers_found (fun _ _ => checkRolesFuel_fail) h hclean hok (Nat.zero_add _)
      (counts_start groles) with ⟨g,e⟩ | ⟨⟨t,e⟩,hsame⟩
    · rw [e]
    · rw [e] at hends ⊢
      obtain ⟨hg,h1,h2,h3,-,-,-⟩ := hends
      rw [List.take_length] at h1 h2 h3
      -- nobody has offered more than the role he plays
      have heq : groles = vs := by
        refine List.ext_getElem h.offers.length_eq fun j hj hj' => ?_
        have hj'' := hsame j (Nat.zero_le j) hj
        rwa [List.getD_eq_getElem _ _ hj,List.getD_eq_getElem _ _ hj'] at hj''
      have htotal := h.total
      rw [← heq] at htotal
      simp only [h1,h2,h3,hg,decide_eq_true_eq]
      omega

end Complete

section Exact

variable {groles vs : List Role}

theorem clean_unled : ∀ v : Role,
    v &&& (Role.leader ||| Role.tank ||| Role.healer ||| Role.damage) = v →
    Clean (v &&& ~~~Role.leader) := by
  unfold Clean
  decide

theorem offers_unled : ∀ v role : Role, IsRole role →
    (v &&& ~~~Role.leader &&& role = role ↔ v &&& role = role) := by
  rintro v role (rfl | rfl | rfl)
  all_goals revert v; decide

theorem choice_unled : Choice (groles.map (· &&& ~~~Role.leader)) vs ↔ Choice groles vs := by
  have hoffers : List.Forall₂ (fun offered role => IsRole role ∧ offered &&& role = role)
      (groles.map (· &&& ~~~Role.leader)) vs ↔
      List.Forall₂ (fun offered role => IsRole role ∧ offered &&& role = role) groles vs := by
    rw [List.forall₂_map_left_iff]
    have hiff : ∀ v role : Role, (IsRole role ∧ v &&& ~~~Role.leader &&& role = role) ↔
        (IsRole role ∧ v &&& role = role) :=
      fun v role => and_congr_right fun hrole => offers_unled v role hrole
    simp only [hiff]
  exact ⟨fun h => ⟨hoffers.mp h.offers,h.tank,h.healer,h.damage⟩,
    fun h => ⟨hoffers.mpr h.offers,h.tank,h.healer,h.damage⟩⟩

theorem choice_of_true (hlt : groles.length < 256) (h : (checkRoles groles).1 = true) :
    Choice groles (checkRoles groles).2 := by
  obtain ⟨⟨hlen,hoffered⟩,hdamage,hhealer,htank,htotal⟩ := checkRoles_of_true h
  rw [Nat.mod_eq_of_lt (hlen ▸ hlt)] at htotal
  have hroles := isRole_of_total htotal
  refine ⟨List.forall₂_iff_get.mpr ⟨hlen.symm,fun i hi hi' => ?_⟩,htank,hhealer,hdamage⟩
  have hor := hoffered i
  rw [List.getD_eq_getElem _ _ hi',List.getD_eq_getElem _ _ hi] at hor
  refine ⟨hroles _ (List.getElem_mem hi'),?_⟩
  have habsorb : ∀ v w : Role, (v ||| w) &&& v = v := by
    intro v w
    ext j
    simp only [BitVec.getElem_and,BitVec.getElem_or]
    cases v[j] <;> simp
  simp only [List.get_eq_getElem]
  rw [← hor]
  exact habsorb _ _

theorem checkRoles_found (h : Choice groles vs) (hne : groles ≠ []) (hlt : groles.length < 256)
    (hmask : ∀ v ∈ groles,
      v &&& (Role.leader ||| Role.tank ||| Role.healer ||| Role.damage) = v) :
    (checkRoles groles).1 = true := by
  have hfuel := weight_le (groles.map (· &&& ~~~Role.leader))
  rw [List.length_map] at hfuel
  refine checkRolesFuel_found (choice_unled.mpr h) ?_ (by simpa using hne) (by simpa using hlt)
    (by omega)
  intro v hv
  obtain ⟨w,hw,rfl⟩ := List.mem_map.mp hv
  exact clean_unled w (hmask w hw)

theorem checkRoles_of_false (h : (checkRoles groles).1 = false) :
    (checkRoles groles).2 = groles.map (· &&& ~~~Role.leader) :=
  checkRolesFuel_fail (Prod.ext h rfl)

/-- The search ends whatever is answered where its recursion is cut off, it succeeds exactly when
everybody can play one of his roles, and then it leaves such roles in the map. Otherwise it leaves
the roles as they were, without the flag of the leader. -/
theorem checkGroupRoles_exact (groles : LfgRolesMap) (hne : groles.values ≠ [])
    (hlt : groles.size < 256) (hmask : ∀ v ∈ groles.values,
      v &&& (Role.leader ||| Role.tank ||| Role.healer ||| Role.damage) = v) :
    (∀ bottom n, 3*groles.size < n →
      checkRolesFrom bottom n (groles.values.map (· &&& ~~~Role.leader)) =
        checkRoles groles.values) ∧
    ((checkGroupRoles groles).1 = true ↔ ∃ vs, Choice groles.values vs) ∧
    (checkGroupRoles groles).2.keys = groles.keys ∧
    ((checkGroupRoles groles).1 = true →
      Choice groles.values (checkGroupRoles groles).2.values) ∧
    ((checkGroupRoles groles).1 = false →
      (checkGroupRoles groles).2 = groles.map fun _ v => v &&& ~~~Role.leader) := by
  have hsize : groles.values.length = groles.size := by simp [OrderedMap.values,OrderedMap.size]
  have hlen : (checkRoles groles.values).2.length = groles.size :=
    (length_checkRoles groles.values).trans hsize
  have hvalues : (checkGroupRoles groles).2.values = (checkRoles groles.values).2 :=
    OrderedMap.values_setValues hlen
  have htrue : (checkGroupRoles groles).1 = true →
      Choice groles.values (checkGroupRoles groles).2.values := by
    intro h
    rw [hvalues]
    exact choice_of_true (hsize ▸ hlt) h
  refine ⟨fun bottom n hn => ?_,⟨fun h => ⟨_,htrue h⟩,?_⟩,keys_checkGroupRoles groles,htrue,?_⟩
  · have hfuel := weight_le (groles.values.map (· &&& ~~~Role.leader))
    rw [List.length_map,hsize] at hfuel
    exact checkRolesFrom_eq bottom (by omega) (by rw [hsize]; omega)
  · rintro ⟨vs,hchoice⟩
    exact checkRoles_found hchoice hne (hsize ▸ hlt) hmask
  · intro h
    have hfalse := checkRoles_of_false h
    apply OrderedMap.ext
    change groles.keys.zip (checkRoles groles.values).2 = _
    rw [hfalse]
    simp only [OrderedMap.keys,OrderedMap.values,OrderedMap.map,List.map_map]
    rw [← List.zip_map']
    rfl

theorem checkGroupRoles_exact_pair :
    (checkGroupRoles ⟨[(1,Role.leader ||| Role.tank ||| Role.healer),(2,Role.healer)],
      by decide⟩).1 = true :=
  (checkGroupRoles_exact _ (by decide) (by decide) (by decide)).2.1.mpr
    ⟨[Role.tank,Role.healer],⟨.cons (by unfold IsRole; decide) (.cons (by unfold IsRole; decide) .nil),
      by decide,by decide,by decide⟩⟩

end Exact

end TrinityCore.Lfg
