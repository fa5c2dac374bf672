import Mathlib
import TrinityCore.Lib.Worklist

set_option autoImplicit false

/-!
Role based access control of an account (`RBAC.cpp`, `AccountMgr.cpp`): the lists of
granted and denied permissions, their expansion through linked permissions and the
effective permissions calculated from both.
-/

namespace TrinityCore.Rbac

structure RBACPermission where
  name : String
  perms : Finset Nat

/-- The parts of `AccountMgr` that RBAC reads. A security level without rows has no
default permissions. -/
structure AccountMgr where
  permissions : Std.ExtTreeMap Nat RBACPermission
  defaultPermissions : Nat → Finset Nat

def AccountMgr.getRBACPermission (mgr : AccountMgr) (permissionId : Nat) : Option RBACPermission :=
  mgr.permissions[permissionId]?

def AccountMgr.links (mgr : AccountMgr) (permissionId : Nat) : Option (Finset Nat) :=
  (mgr.getRBACPermission permissionId).map RBACPermission.perms

def AccountMgr.keys (mgr : AccountMgr) : Finset Nat := mgr.permissions.keys.toFinset

theorem AccountMgr.mem_keys (mgr : AccountMgr) (p : Nat) (h : (mgr.links p).isSome) :
    p ∈ mgr.keys := by
  have hm : p ∈ mgr.permissions := by
    simpa [links,getRBACPermission] using h
  simpa [keys] using hm

/-- An existing permission that linked permissions lead to from one of `start`. -/
def AccountMgr.Reachable (mgr : AccountMgr) (start : Finset Nat) (p : Nat) : Prop :=
  Worklist.Reach mgr.links start p

inductive RBACCommandResult where
  | ok
  | cantAddAlreadyAdded
  | cantRevokeNotInList
  | inGrantedList
  | inDeniedList
  | idDoesNotExists
  deriving DecidableEq, Repr

/-- A row of `rbac_account_permissions`; account, permission and realm are its key. -/
structure AccountPermission where
  accountId : Nat
  permissionId : Nat
  granted : Bool
  realmId : Int
  deriving DecidableEq, Repr

abbrev LoginDatabase := List AccountPermission

def AccountPermission.sameKey (a b : AccountPermission) : Bool :=
  a.accountId == b.accountId && a.permissionId == b.permissionId && a.realmId == b.realmId

/-- `LOGIN_INS_RBAC_ACCOUNT_PERMISSION`, an insert that updates `granted` on a duplicate key. -/
def insAccountPermission (db : LoginDatabase) (row : AccountPermission) : LoginDatabase :=
  if db.any row.sameKey then
    db.map (fun r => if row.sameKey r then { r with granted := row.granted } else r)
  else db ++ [row]

def delAccountPermission (db : LoginDatabase) (accountId permissionId : Nat) (realmId : Int) :
    LoginDatabase :=
  db.filter (fun r => !(r.accountId == accountId && r.permissionId == permissionId &&
    (r.realmId == realmId || r.realmId == -1)))

/-- `LOGIN_SEL_RBAC_ACCOUNT_PERMISSIONS`, ordered by permission and realm. -/
def selAccountPermissions (db : LoginDatabase) (accountId : Nat) (realmId : Int) :
    List AccountPermission :=
  (db.filter (fun r => r.accountId == accountId &&
    (r.realmId == realmId || r.realmId == -1))).insertionSort
      (fun a b => a.permissionId < b.permissionId ∨
        (a.permissionId = b.permissionId ∧ a.realmId ≤ b.realmId))

structure RBACData where
  id : Nat
  name : String
  realmId : Int
  secLevel : Nat
  grantedPerms : Finset Nat
  deniedPerms : Finset Nat
  globalPerms : Finset Nat

def RBACData.hasPermission (d : RBACData) (p : Nat) : Bool := decide (p ∈ d.globalPerms)
def RBACData.hasGrantedPermission (d : RBACData) (p : Nat) : Bool := decide (p ∈ d.grantedPerms)
def RBACData.hasDeniedPermission (d : RBACData) (p : Nat) : Bool := decide (p ∈ d.deniedPerms)

def RBACData.clearData (d : RBACData) : RBACData :=
  { d with grantedPerms := ∅, deniedPerms := ∅, globalPerms := ∅ }

/-- The worklist loop of `ExpandPermissions`, with as many steps as it can need. -/
def expandPermissions (mgr : AccountMgr) (permissions : Finset Nat) : Finset Nat :=
  (Worklist.expand mgr.links (Worklist.cost mgr.links mgr.keys ∅ permissions) ∅
    permissions).getD ∅

/-- Erases the elements of `permsFrom` from `permsTo` and returns `permsTo`. -/
def removePermissions (permsFrom permsTo : Finset Nat) : Finset Nat := permsTo \ permsFrom

def RBACData.calculateNewPermissions (mgr : AccountMgr) (d : RBACData) : RBACData :=
  let globalPerms := expandPermissions mgr d.grantedPerms
  let revoked := expandPermissions mgr d.deniedPerms
  -- The source passes `_globalPerms` first, so `revoked` is the container that shrinks.
  let _revoked := removePermissions globalPerms revoked
  { d with globalPerms := globalPerms }

structure State where
  data : RBACData
  db : LoginDatabase

def State.savePermission (s : State) (permission : Nat) (granted : Bool) (realmId : Int) : State :=
  { s with db := insAccountPermission s.db ⟨s.data.id,permission,granted,realmId⟩ }

def State.calculate (mgr : AccountMgr) (s : State) : State :=
  { s with data := s.data.calculateNewPermissions mgr }

def grantPermission (mgr : AccountMgr) (s : State) (permissionId : Nat) (realmId : Int) :
    RBACCommandResult × State :=
  if (mgr.getRBACPermission permissionId).isNone then (.idDoesNotExists,s)
  else if s.data.hasDeniedPermission permissionId then (.inDeniedList,s)
  else if s.data.hasGrantedPermission permissionId then (.cantAddAlreadyAdded,s)
  else
    let s : State := { s with data :=
      { s.data with grantedPerms := insert permissionId s.data.grantedPerms } }
    if realmId ≠ 0 then (.ok,(s.savePermission permissionId true realmId).calculate mgr)
    else (.ok,s)

def denyPermission (mgr : AccountMgr) (s : State) (permissionId : Nat) (realmId : Int) :
    RBACCommandResult × State :=
  if (mgr.getRBACPermission permissionId).isNone then (.idDoesNotExists,s)
  else if s.data.hasGrantedPermission permissionId then (.inGrantedList,s)
  else if s.data.hasDeniedPermission permissionId then (.cantAddAlreadyAdded,s)
  else
    let s : State := { s with data :=
      { s.data with deniedPerms := insert permissionId s.data.deniedPerms } }
    if realmId ≠ 0 then (.ok,(s.savePermission permissionId false realmId).calculate mgr)
    else (.ok,s)

def revokePermission (mgr : AccountMgr) (s : State) (permissionId : Nat) (realmId : Int) :
    RBACCommandResult × State :=
  if !s.data.hasGrantedPermission permissionId && !s.data.hasDeniedPermission permissionId then
    (.cantRevokeNotInList,s)
  else
    let s : State := { s with data :=
      { s.data with grantedPerms := s.data.grantedPerms.erase permissionId,
                    deniedPerms := s.data.deniedPerms.erase permissionId } }
    if realmId ≠ 0 then
      let s : State := { s with db := delAccountPermission s.db s.data.id permissionId realmId }
      (.ok,s.calculate mgr)
    else (.ok,s)

def loadRow (mgr : AccountMgr) (s : State) (row : AccountPermission) : State :=
  if row.granted then (grantPermission mgr s row.permissionId 0).2
  else (denyPermission mgr s row.permissionId 0).2

def loadFromDB (mgr : AccountMgr) (s : State) : State :=
  let s : State := { s with data := s.data.clearData }
  let s := (selAccountPermissions s.db s.data.id s.data.realmId).foldl (loadRow mgr) s
  let defaults := (mgr.defaultPermissions s.data.secLevel).sort (· ≤ ·)
  let s := defaults.foldl (fun s p => (grantPermission mgr s p 0).2) s
  s.calculate mgr

/-- A change of the account's permissions that is saved, that is, one for a realm. -/
inductive Command where
  | grant (permissionId : Nat) (realmId : Int) (h : realmId ≠ 0)
  | deny (permissionId : Nat) (realmId : Int) (h : realmId ≠ 0)
  | revoke (permissionId : Nat) (realmId : Int) (h : realmId ≠ 0)

def step (mgr : AccountMgr) (s : State) : Command → State
  | .grant p r _ => (grantPermission mgr s p r).2
  | .deny p r _ => (denyPermission mgr s p r).2
  | .revoke p r _ => (revokePermission mgr s p r).2

def run (mgr : AccountMgr) (s : State) (cmds : List Command) : State :=
  cmds.foldl (step mgr) (loadFromDB mgr s)

theorem expand_expandPermissions (mgr : AccountMgr) (start : Finset Nat) :
    Worklist.expand mgr.links (Worklist.cost mgr.links mgr.keys ∅ start) ∅ start =
      some (expandPermissions mgr start) := by
  have hs := Worklist.expand_isSome mgr.mem_keys
    (Worklist.cost mgr.links mgr.keys ∅ start) ∅ start (Finset.disjoint_empty_left _) (le_refl _)
  obtain ⟨result,hr⟩ := Option.isSome_iff_exists.mp hs
  rw [expandPermissions,hr,Option.getD_some]

theorem mem_expandPermissions (mgr : AccountMgr) (start : Finset Nat) (p : Nat) :
    p ∈ expandPermissions mgr start ↔ mgr.Reachable start p := by
  exact Worklist.expand_mem _ _ _ _ (Worklist.Inv.init mgr.links start)
    (expand_expandPermissions mgr start) p

def AccountMgr.Linked (mgr : AccountMgr) (a b : Nat) : Prop :=
  ∃ permission, mgr.getRBACPermission a = some permission ∧ b ∈ permission.perms

theorem AccountMgr.edge_iff (mgr : AccountMgr) (a b : Nat) :
    Worklist.Edge mgr.links a b ↔ mgr.Linked a b := by
  simp [Worklist.Edge,links,Linked]

/-- What an expansion is for: the existing permissions that links lead to from an existing one. -/
structure LinkClosure (mgr : AccountMgr) (expand : Finset Nat → Finset Nat) : Prop where
  /-- From some number of steps on, the loop has ended with this result. -/
  terminates : ∀ start, ∃ steps, ∀ fuel ≥ steps,
    Worklist.expand mgr.links fuel ∅ start = some (expand start)
  mem_iff : ∀ start p, p ∈ expand start ↔ (mgr.getRBACPermission p).isSome ∧
    ∃ a ∈ start, (mgr.getRBACPermission a).isSome ∧ Relation.ReflTransGen mgr.Linked a p
  idempotent : ∀ start, expand (expand start) = expand start
  mono : Monotone expand

theorem mem_expandPermissions_iff (mgr : AccountMgr) (start : Finset Nat) (p : Nat) :
    p ∈ expandPermissions mgr start ↔ (mgr.getRBACPermission p).isSome ∧
      ∃ a ∈ start, (mgr.getRBACPermission a).isSome ∧ Relation.ReflTransGen mgr.Linked a p := by
  have hedge : Worklist.Edge mgr.links = mgr.Linked := by
    ext a b; exact mgr.edge_iff a b
  have hsome : ∀ a, (mgr.links a).isSome = (mgr.getRBACPermission a).isSome := by
    simp [AccountMgr.links]
  rw [mem_expandPermissions,AccountMgr.Reachable,Worklist.Reach,hedge,hsome]
  constructor
  · rintro ⟨hp,a,ha,hpath⟩
    refine ⟨hp,a,ha,?_,hpath⟩
    -- a start node that is not the target has a link, so it has an entry
    cases hpath.cases_head with
    | inl heq => rwa [heq]
    | inr h =>
      obtain ⟨b,⟨permission,hget,-⟩,-⟩ := h
      simp [hget]
  · rintro ⟨hp,a,ha,-,hpath⟩
    exact ⟨hp,a,ha,hpath⟩

/-- `ExpandPermissions` ends for every table, cycles and dangling links included, and is the
closure under links. -/
theorem linkClosure_expandPermissions (mgr : AccountMgr) :
    LinkClosure mgr (expandPermissions mgr) where
  terminates := by
    intro start
    refine ⟨Worklist.cost mgr.links mgr.keys ∅ start,fun fuel hfuel => ?_⟩
    obtain ⟨more,rfl⟩ := Nat.exists_eq_add_of_le hfuel
    exact Worklist.expand_add _ more _ _ (expand_expandPermissions mgr start)
  mem_iff := mem_expandPermissions_iff mgr
  idempotent := by
    intro start
    ext p
    simp only [mem_expandPermissions_iff]
    constructor
    · rintro ⟨hp,a,⟨-,c,hc,hce,hca⟩,-,hap⟩
      exact ⟨hp,c,hc,hce,hca.trans hap⟩
    · rintro ⟨hp,a,ha,hae,hap⟩
      exact ⟨hp,p,⟨hp,a,ha,hae,hap⟩,hp,.refl⟩
  mono := by
    intro start start' hle p hp
    obtain ⟨hp,a,ha,hpath⟩ := (mem_expandPermissions_iff mgr start p).mp hp
    exact (mem_expandPermissions_iff mgr start' p).mpr ⟨hp,a,hle ha,hpath⟩

def Calculated (mgr : AccountMgr) (d : RBACData) : Prop :=
  d.globalPerms = expandPermissions mgr d.grantedPerms

theorem calculated_calculate (mgr : AccountMgr) (s : State) :
    Calculated mgr (s.calculate mgr).data := rfl

theorem calculated_step (mgr : AccountMgr) (s : State) (c : Command)
    (h : Calculated mgr s.data) : Calculated mgr (step mgr s c).data := by
  cases c with
  | grant p r hr =>
    simp only [step,grantPermission]
    split_ifs <;> first | exact h | exact calculated_calculate mgr _
  | deny p r hr =>
    simp only [step,denyPermission]
    split_ifs <;> first | exact h | exact calculated_calculate mgr _
  | revoke p r hr =>
    simp only [step,revokePermission]
    split_ifs <;> first | exact h | exact calculated_calculate mgr _

theorem calculated_run (mgr : AccountMgr) (s : State) (cmds : List Command) :
    Calculated mgr (run mgr s cmds).data := by
  have h : ∀ t : State, Calculated mgr t.data → Calculated mgr (cmds.foldl (step mgr) t).data := by
    induction cmds with
    | nil => exact fun t ht => ht
    | cons c cs ih => exact fun t ht => ih _ (calculated_step mgr t c ht)
  exact h _ (calculated_calculate mgr _)

/-- The documented calculation: granted permissions minus denied permissions, each
directly assigned or through linked permissions. -/
def Effective (mgr : AccountMgr) (d : RBACData) (p : Nat) : Prop :=
  mgr.Reachable d.grantedPerms p ∧ ¬ mgr.Reachable d.deniedPerms p

theorem hasPermission_run (mgr : AccountMgr) (s : State) (cmds : List Command) (p : Nat) :
    (run mgr s cmds).data.hasPermission p = true ↔
      mgr.Reachable (run mgr s cmds).data.grantedPerms p := by
  have h := calculated_run mgr s cmds
  rw [RBACData.hasPermission,decide_eq_true_iff,h,mem_expandPermissions]

/-- After every run the effective permissions are the documented ones exactly when no
permission is reachable both from the granted and from the denied list. -/
theorem hasPermission_effective_iff (mgr : AccountMgr) (s : State) (cmds : List Command) :
    (∀ p, (run mgr s cmds).data.hasPermission p = true ↔
        Effective mgr (run mgr s cmds).data p) ↔
      ∀ p, mgr.Reachable (run mgr s cmds).data.grantedPerms p →
        ¬ mgr.Reachable (run mgr s cmds).data.deniedPerms p := by
  simp only [hasPermission_run,Effective]
  constructor
  · intro h p hg
    exact ((h p).mp hg).2
  · intro h p
    exact ⟨fun hg => ⟨hg,h p hg⟩,And.left⟩

def denyTable : AccountMgr where
  permissions := ((∅ : Std.ExtTreeMap Nat RBACPermission).insert 1 ⟨"role",{2}⟩).insert 2 ⟨"command",∅⟩
  defaultPermissions := fun _ => ∅

def denyAccount : State := ⟨⟨1,"PLAYER",1,0,∅,∅,∅⟩,[]⟩

def denyRun : State :=
  run denyTable denyAccount [.grant 1 1 (by decide),.deny 2 1 (by decide)]

/-- Permission 1 is granted and links to permission 2, which is denied: the account
still has permission 2. -/
theorem denied_permission_still_granted :
    denyRun.data.hasPermission 2 = true ∧ 2 ∈ denyRun.data.deniedPerms ∧
      ¬ Effective denyTable denyRun.data 2 := by
  have hd : 2 ∈ denyRun.data.deniedPerms := by decide +kernel
  refine ⟨by decide +kernel,hd,fun h => h.2 ⟨?_,2,hd,.refl⟩⟩
  decide

end TrinityCore.Rbac
