import TrinityCore.DungeonFinding.Roles
import TrinityCore.Lib.OrderedSet

set_option autoImplicit false

/-!
The data of the dungeon finder: what is kept of each player and group, and the proposals.
Guids and times are natural numbers. Comments, show orders and encounters are left out, for
nothing here reads them.
-/

namespace TrinityCore.Lfg

def maxGroupSize : Nat := 5

def isGroupGuid (guid : Nat) : Bool := guid / 2^48 % 2^16 == 0x1F50

inductive LfgState where
  | none
  | rolecheck
  | queued
  | proposal
  | boot
  | dungeon
  | finishedDungeon
  | raidbrowser
  deriving DecidableEq, Repr

inductive LfgAnswer where
  | pending
  | deny
  | agree
  deriving DecidableEq, Repr

inductive LfgProposalState where
  | initiating
  | failed
  | success
  deriving DecidableEq, Repr

structure LfgPlayerData where
  state : LfgState
  oldState : LfgState
  team : Nat
  group : Nat
  roles : Role
  selectedDungeons : Finset Nat

structure LfgGroupData where
  state : LfgState
  oldState : LfgState
  leader : Nat
  players : Finset Nat
  dungeon : Nat
  kicksLeft : Nat

def groupMaxKicks : Nat := 3

def LfgPlayerData.initial : LfgPlayerData := ⟨.none,.none,0,0,0,∅⟩

def LfgGroupData.initial : LfgGroupData := ⟨.none,.none,0,∅,0,groupMaxKicks⟩

def LfgPlayerData.setState (d : LfgPlayerData) : LfgState → LfgPlayerData
  | .none => { d with roles := 0, selectedDungeons := ∅, oldState := .none, state := .none }
  | .finishedDungeon => { d with roles := 0, selectedDungeons := ∅, oldState := .finishedDungeon,
                                 state := .finishedDungeon }
  | .dungeon => { d with oldState := .dungeon, state := .dungeon }
  | s => { d with state := s }

def LfgPlayerData.restoreState (d : LfgPlayerData) : LfgPlayerData :=
  if d.oldState = .none then { d with selectedDungeons := ∅, roles := 0, state := d.oldState }
  else { d with state := d.oldState }

def LfgGroupData.setState (d : LfgGroupData) : LfgState → LfgGroupData
  | .none => { d with dungeon := 0, kicksLeft := groupMaxKicks, oldState := .none, state := .none }
  | .finishedDungeon => { d with oldState := .finishedDungeon, state := .finishedDungeon }
  | .dungeon => { d with oldState := .dungeon, state := .dungeon }
  | s => { d with state := s }

def LfgGroupData.restoreState (d : LfgGroupData) : LfgGroupData := { d with state := d.oldState }

/-- `PlayersStore` and `GroupsStore`. An access makes the data that is not there. -/
structure Stores where
  players : Nat → LfgPlayerData
  groups : Nat → LfgGroupData

namespace Stores

variable (d : Stores) (guid : Nat)

def initial : Stores := ⟨fun _ => .initial,fun _ => .initial⟩

def getState : LfgState :=
  if isGroupGuid guid then (d.groups guid).state else (d.players guid).state

def getOldState : LfgState :=
  if isGroupGuid guid then (d.groups guid).oldState else (d.players guid).oldState

def setState (s : LfgState) : Stores :=
  if isGroupGuid guid then
    { d with groups := Function.update d.groups guid ((d.groups guid).setState s) }
  else { d with players := Function.update d.players guid ((d.players guid).setState s) }

def restoreState : Stores :=
  if isGroupGuid guid then
    { d with groups := Function.update d.groups guid (d.groups guid).restoreState }
  else { d with players := Function.update d.players guid (d.players guid).restoreState }

def isLfgGroup : Bool := guid != 0 && isGroupGuid guid && (d.groups guid).oldState != .none

def allQueued (check : List Nat) : Bool :=
  !check.isEmpty && check.all fun guid => d.getState guid == .queued

def queueId : Nat :=
  if isGroupGuid guid then
    match (OrderedSet.elems (d.groups guid).players).head? with
    | some pguid => if pguid = 0 then 0 else (d.players pguid).team
    | none => 0
  else (d.players guid).team

end Stores

structure LfgProposalPlayer where
  role : Role
  accept : LfgAnswer
  group : Nat

structure LfgProposal where
  id : Nat
  dungeonId : Nat
  state : LfgProposalState
  group : Nat
  leader : Nat
  cancelTime : Nat
  isNew : Bool
  queues : List Nat
  players : OrderedMap Nat LfgProposalPlayer

/-- `ProposalsStore` with `m_lfgProposalId`, a `uint32` that wraps, so that a new proposal can
take the place of an old one. `created` lists every proposal that was ever added, in order. What
is in the store is not decided yet, for a proposal that is decided is erased at once. -/
structure Proposals where
  lastId : Nat
  store : OrderedMap Nat LfgProposal
  created : List LfgProposal
  lastId_lt : lastId < 2^32
  pending : ∀ e ∈ store.entries, e.2.state = .initiating

namespace Proposals

def empty : Proposals := ⟨1,.empty,[],by decide,by simp [OrderedMap.empty]⟩

variable (ps : Proposals)

theorem state_of_find? {ps : Proposals} {id : Nat} {p : LfgProposal}
    (h : ps.store.find? id = some p) : p.state = .initiating :=
  ps.pending (id,p) (OrderedMap.mem_entries.mpr h)

def nextId : Nat := (ps.lastId+1) % 2^32

def addProposal (p : LfgProposal) (h : p.state = .initiating) : Proposals where
  lastId := ps.nextId
  store := ps.store.insert ps.nextId { p with id := ps.nextId }
  created := ps.created ++ [{ p with id := ps.nextId }]
  lastId_lt := Nat.mod_lt _ (by decide)
  pending := by
    rintro ⟨id,p'⟩ he
    rw [OrderedMap.mem_entries,OrderedMap.find?_insert] at he
    split_ifs at he
    · rw [← Option.some.inj he]
      exact h
    · exact state_of_find? he

def setPlayers (id : Nat) (players : OrderedMap Nat LfgProposalPlayer) : Proposals where
  lastId := ps.lastId
  store := ps.store.map fun id' p => if id' = id then { p with players := players } else p
  created := ps.created
  lastId_lt := ps.lastId_lt
  pending := by
    rintro ⟨id',p'⟩ he
    rw [OrderedMap.mem_entries,OrderedMap.find?_map] at he
    obtain ⟨p,hp,rfl⟩ := Option.map_eq_some_iff.mp he
    have hstate := state_of_find? hp
    dsimp only
    split_ifs <;> exact hstate

def erase (id : Nat) : Proposals where
  lastId := ps.lastId
  store := ps.store.erase id
  created := ps.created
  lastId_lt := ps.lastId_lt
  pending := fun e he => ps.pending e (List.mem_of_mem_filter he)

/-- The proposals that were added on the way from `ps` to `ps'`. -/
def newSince (ps ps' : Proposals) : List LfgProposal := ps'.created.drop ps.created.length

theorem newSince_of_eq {ps ps' : Proposals} {new : List LfgProposal}
    (h : ps'.created = ps.created ++ new) : newSince ps ps' = new := by
  rw [newSince,h,List.drop_left]

@[simp] theorem newSince_self (ps : Proposals) : newSince ps ps = [] :=
  newSince_of_eq (List.append_nil _).symm

end Proposals

/-- What the search asks of the world: the time and the ignore lists. -/
structure Env where
  now : Nat
  connected : Nat → Bool
  ignores : Nat → Nat → Bool

def Env.hasIgnore (e : Env) (guid1 guid2 : Nat) : Bool :=
  e.connected guid1 && e.connected guid2 && (e.ignores guid1 guid2 || e.ignores guid2 guid1)

end TrinityCore.Lfg
