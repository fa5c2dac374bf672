import TrinityCore.Lib.Run

set_option autoImplicit false

namespace TrinityCore.Instances

/-- The capacity that a vector of bits gets when a size does not fit, from the old capacity. -/
structure Growth where
  capacity : Nat → Nat → Nat
  le_capacity : ∀ old size, size ≤ capacity old size

structure BitVector where
  bits : List Bool
  capacity : Nat
  size_le : bits.length ≤ capacity

namespace BitVector

def size (v : BitVector) : Nat := v.bits.length

def resize (G : Growth) (v : BitVector) (n : Nat) : BitVector where
  bits := v.bits.take n ++ List.replicate (n-v.size) false
  capacity := if n ≤ v.capacity then v.capacity else G.capacity v.capacity n
  size_le := by
    have hlen : (v.bits.take n ++ List.replicate (n-v.size) false).length = n := by
      simp [size]
      omega
    rw [hlen]
    split_ifs with h
    · exact h
    · exact G.le_capacity _ _

def write (v : BitVector) (i : Nat) (b : Bool) : BitVector where
  bits := v.bits.set i b
  capacity := v.capacity
  size_le := by simpa using v.size_le

def Has (v : BitVector) (i : Nat) : Prop := v.bits[i]? = some true

instance (v : BitVector) (i : Nat) : Decidable (v.Has i) := inferInstanceAs (Decidable (_ = _))

theorem size_resize (G : Growth) (v : BitVector) (n : Nat) : (v.resize G n).size = n := by
  simp [resize,size]
  omega

@[simp] theorem size_write (v : BitVector) (i : Nat) (b : Bool) : (v.write i b).size = v.size := by
  simp [write,size]

theorem lt_of_has {v : BitVector} {i : Nat} (h : v.Has i) : i < v.size :=
  (List.getElem?_eq_some_iff.mp h).1

theorem has_resize {G : Growth} {v : BitVector} {n : Nat} (h : v.size ≤ n) (i : Nat) :
    (v.resize G n).Has i ↔ v.Has i := by
  have hbits : (v.resize G n).bits = v.bits ++ List.replicate (n-v.bits.length) false := by
    unfold resize size
    exact congrArg (· ++ _) (List.take_of_length_le h)
  unfold Has
  rw [hbits]
  by_cases hi : i < v.bits.length
  · rw [List.getElem?_append_left hi]
  · rw [List.getElem?_append_right (not_lt.mp hi),List.getElem?_eq_none (not_lt.mp hi)]
    simp [List.getElem?_replicate]

theorem has_write {v : BitVector} {i : Nat} (hi : i < v.size) (b : Bool) (j : Nat) :
    (v.write i b).Has j ↔ if j = i then b = true else v.Has j := by
  unfold Has write size at *
  by_cases hj : j = i
  · subst hj
    simp [hi]
  · simp [hj,Ne.symm hj]

end BitVector

structure MapManager where
  instanceIds : BitVector
  nextInstanceId : Nat

def sizeFor (maxId : Nat) : Nat := (maxId/32*32+if maxId%32 > 0 then 32 else 0)%2^32

def findFree (v : BitVector) : Nat → Nat → Option Nat
  | 0, _ => none
  | n+1, i =>
    if (i < v.size ∧ v.bits[i]? = some false) ∨ i ≥ v.size then some i else findFree v n (i+1)

namespace MapManager

def initInstanceIds (G : Growth) (m : MapManager) (maxId : Nat) : MapManager :=
  { m with nextInstanceId := 1, instanceIds := m.instanceIds.resize G (sizeFor maxId) }

def nextFree (m : MapManager) : Nat :=
  let first := (m.nextInstanceId+1)%2^32
  (findFree m.instanceIds (0xFFFFFFFF-first) first).getD first

def allocate (G : Growth) (m : MapManager) : BitVector :=
  if m.nextInstanceId ≥ m.instanceIds.size then
    if m.instanceIds.size < m.instanceIds.capacity then
      m.instanceIds.resize G m.instanceIds.capacity
    else m.instanceIds.resize G (sizeFor m.nextInstanceId)
  else m.instanceIds

def generateInstanceId (G : Growth) (m : MapManager) : MapManager × Nat :=
  (⟨(m.allocate G).write m.nextInstanceId true,m.nextFree⟩,m.nextInstanceId)

def registerInstanceId (m : MapManager) (instanceId : Nat) : MapManager :=
  { m with instanceIds := m.instanceIds.write instanceId true }

def freeInstanceId (m : MapManager) (instanceId : Nat) : MapManager where
  nextInstanceId := if instanceId < m.nextInstanceId then instanceId else m.nextInstanceId
  instanceIds := m.instanceIds.write instanceId false

def loadInstanceId (m : MapManager) (instanceId : Nat) : MapManager :=
  let m := if m.nextInstanceId = instanceId then
    { m with nextInstanceId := (instanceId+1)%2^32 } else m
  m.registerInstanceId instanceId

end MapManager

inductive Fault where
  | outOfRange (index size : Nat)
  | zero
  | twice (id : Nat)
  deriving DecidableEq, Repr

structure Server where
  mgr : MapManager
  inUse : Finset Nat
  faults : List Fault

inductive Action where
  | generate
  | free (id : Nat)

namespace Server

variable (G : Growth)

def checkIndex (v : BitVector) (i : Nat) : List Fault :=
  if i < v.size then [] else [.outOfRange i v.size]

def checkId (inUse : Finset Nat) (id : Nat) : List Fault :=
  if id = 0 then [.zero] else if id ∈ inUse then [.twice id] else []

def load (s : Server) (id : Nat) : Server where
  mgr := s.mgr.loadInstanceId id
  inUse := insert id s.inUse
  faults := s.faults ++ checkIndex s.mgr.instanceIds id

/-- The start of the server with the ids that the database has, in ascending order. -/
def start (capacity : Nat) (ids : List Nat) : Server :=
  ids.foldl load
    ⟨MapManager.initInstanceIds G ⟨⟨[],capacity,Nat.zero_le _⟩,0⟩ (ids.foldr max 0),∅,[]⟩

def step (s : Server) : Action → Server
  | .generate => {
      mgr := (s.mgr.generateInstanceId G).1
      inUse := insert (s.mgr.generateInstanceId G).2 s.inUse
      faults := s.faults ++ checkId s.inUse (s.mgr.generateInstanceId G).2 ++
        checkIndex (s.mgr.allocate G) s.mgr.nextInstanceId }
  | .free id => {
      mgr := s.mgr.freeInstanceId id
      inUse := s.inUse.erase id
      faults := s.faults ++ checkIndex s.mgr.instanceIds id }

/-- The stored ids fit the size that is computed from the largest of them. -/
structure Fitting (ids : List Nat) : Prop where
  ascending : ids.Pairwise (· < ·)
  nonzero : 0 ∉ ids
  fits : ids ≠ [] → ids.foldr max 0%32 ≠ 0 ∧ ids.foldr max 0 < 2^32-32

/-- Only ids in use are freed. An id is given out where the bits have space for it or get it, and
while there are more. -/
def Allowed (s : Server) : Action → Prop
  | .generate =>
    (s.mgr.nextInstanceId < s.mgr.instanceIds.size ∨
      (s.mgr.instanceIds.size < s.mgr.instanceIds.capacity ∧
        s.mgr.nextInstanceId < s.mgr.instanceIds.capacity) ∨
      (s.mgr.instanceIds.size = s.mgr.instanceIds.capacity ∧ s.mgr.nextInstanceId%32 ≠ 0 ∧
        s.mgr.nextInstanceId < 2^32-32)) ∧
    ∃ i, s.mgr.nextInstanceId < i ∧ i < 0xFFFFFFFF ∧ ¬ s.mgr.instanceIds.Has i
  | .free id => id ∈ s.inUse

end Server

section Ids

variable {G : Growth} {s : Server} {m : MapManager} {v : BitVector}

theorem lt_sizeFor {n : Nat} (h : n%32 ≠ 0) (hn : n < 2^32-32) : n < sizeFor n := by
  unfold sizeFor
  rw [if_pos (by omega)]
  omega

theorem findFree_spec {n i k : Nat} (hik : i ≤ k) (hk : k < i+n) (hfree : ¬ v.Has k) :
    ∃ j, findFree v n i = some j ∧ i ≤ j ∧ j ≤ k ∧ ¬ v.Has j := by
  induction n generalizing i with
  | zero => omega
  | succ n ih =>
    unfold findFree
    split_ifs with h
    · refine ⟨i,rfl,le_rfl,hik,?_⟩
      rcases h with h | h
      · simp [BitVector.Has,h.2]
      · exact fun hi => absurd (BitVector.lt_of_has hi) (not_lt.mpr h)
    · have hi : i ≠ k := by
        rintro rfl
        rw [not_or,not_and,not_le] at h
        have hbit := h.1 h.2
        unfold BitVector.Has at hfree
        have hlt : i < v.bits.length := h.2
        rw [List.getElem?_eq_getElem hlt] at hbit hfree
        simp_all
      obtain ⟨j,hj,hle,hjk,hfree'⟩ := ih (i := i+1) (by omega) (by omega)
      exact ⟨j,hj,by omega,hjk,hfree'⟩

/-- The bits are those in use. The next id is not in use, and nothing went wrong. -/
structure Inv (s : Server) : Prop where
  bits : ∀ i, s.mgr.instanceIds.Has i ↔ i ∈ s.inUse
  next : s.mgr.nextInstanceId ∉ s.inUse
  nonzero : s.mgr.nextInstanceId ≠ 0
  zero : 0 ∉ s.inUse
  faults : s.faults = []

theorem allocate_spec (h : s.Allowed .generate) :
    s.mgr.nextInstanceId < (s.mgr.allocate G).size ∧
      ∀ i, (s.mgr.allocate G).Has i ↔ s.mgr.instanceIds.Has i := by
  unfold MapManager.allocate
  have hspace := h.1
  split_ifs with hge hcap
  · rw [BitVector.size_resize]
    exact ⟨by omega,BitVector.has_resize s.mgr.instanceIds.size_le⟩
  · have hlt : s.mgr.nextInstanceId < sizeFor s.mgr.nextInstanceId :=
      lt_sizeFor (by omega) (by omega)
    rw [BitVector.size_resize]
    exact ⟨hlt,BitVector.has_resize (by omega)⟩
  · exact ⟨by omega,fun _ => Iff.rfl⟩

theorem inv_generate (hs : Inv s) (h : s.Allowed .generate) : Inv (s.step G .generate) := by
  obtain ⟨hlt,hbits⟩ := allocate_spec (G := G) h
  obtain ⟨-,k,hk,hkmax,hfree⟩ := h
  have hfirst : (s.mgr.nextInstanceId+1)%2^32 = s.mgr.nextInstanceId+1 := by
    apply Nat.mod_eq_of_lt
    omega
  obtain ⟨j,hj,hle,hjk,hjfree⟩ := findFree_spec (v := s.mgr.instanceIds)
    (n := 0xFFFFFFFF-(s.mgr.nextInstanceId+1)) (i := s.mgr.nextInstanceId+1) (by omega) (by omega)
    hfree
  have hnext : s.mgr.nextFree = j := by
    unfold MapManager.nextFree
    dsimp only
    rw [hfirst,hj]
    rfl
  refine ⟨?_,?_,?_,?_,?_⟩
  · intro i
    simp only [Server.step,MapManager.generateInstanceId]
    rw [BitVector.has_write hlt,Finset.mem_insert,hbits,hs.bits]
    split_ifs with hi <;> simp [hi]
  · simp only [Server.step,MapManager.generateInstanceId,hnext,Finset.mem_insert,not_or]
    exact ⟨by omega,fun hmem => hjfree ((hs.bits j).mpr hmem)⟩
  · simp only [Server.step,MapManager.generateInstanceId,hnext]
    omega
  · simp only [Server.step,MapManager.generateInstanceId,Finset.mem_insert,not_or]
    exact ⟨hs.nonzero.symm,hs.zero⟩
  · simp [Server.step,MapManager.generateInstanceId,Server.checkId,Server.checkIndex,hs.faults,
      hs.nonzero,hs.next,hlt]

theorem inv_free {id : Nat} (hs : Inv s) (h : id ∈ s.inUse) : Inv (s.step G (.free id)) := by
  have hlt : id < s.mgr.instanceIds.size := BitVector.lt_of_has ((hs.bits id).mpr h)
  have hid : id ≠ 0 := fun h0 => hs.zero (h0 ▸ h)
  have hnext := hs.next
  have hnonzero := hs.nonzero
  refine ⟨?_,?_,?_,?_,?_⟩
  · intro i
    simp only [Server.step,MapManager.freeInstanceId]
    rw [BitVector.has_write hlt,Finset.mem_erase,hs.bits]
    split_ifs with hi <;> simp [hi]
  · simp only [Server.step,MapManager.freeInstanceId]
    split_ifs <;> simp [hnext]
  · simp only [Server.step,MapManager.freeInstanceId]
    split_ifs
    · exact hid
    · exact hnonzero
  · simp [Server.step,hs.zero]
  · simp [Server.step,Server.checkIndex,hs.faults,hlt]

theorem inv_load {id : Nat} (hs : Inv s) (hlt : id < s.mgr.instanceIds.size) (hid : id ≠ 0)
    (hmax : id < 2^32-1) (hbelow : ∀ i ∈ s.inUse, i < id) : Inv (s.load id) := by
  have hmod : (id+1)%2^32 = id+1 := Nat.mod_eq_of_lt (by omega)
  have hbits : (s.load id).mgr.instanceIds = s.mgr.instanceIds.write id true := by
    unfold Server.load MapManager.loadInstanceId MapManager.registerInstanceId
    dsimp only
    split_ifs <;> rfl
  have hnext : (s.load id).mgr.nextInstanceId =
      if s.mgr.nextInstanceId = id then id+1 else s.mgr.nextInstanceId := by
    unfold Server.load MapManager.loadInstanceId MapManager.registerInstanceId
    dsimp only
    split_ifs
    · exact hmod
    · rfl
  refine ⟨?_,?_,?_,?_,?_⟩
  · intro i
    rw [hbits,BitVector.has_write hlt]
    simp only [Server.load,Finset.mem_insert]
    rw [hs.bits]
    split_ifs with hi <;> simp [hi]
  · rw [hnext]
    simp only [Server.load,Finset.mem_insert,not_or]
    split_ifs with h
    · exact ⟨by omega,fun hmem => absurd (hbelow _ hmem) (by omega)⟩
    · exact ⟨h,hs.next⟩
  · rw [hnext]
    have hnonzero := hs.nonzero
    split_ifs <;> omega
  · simp only [Server.load,Finset.mem_insert,not_or]
    exact ⟨hid.symm,hs.zero⟩
  · simp [Server.load,Server.checkIndex,hs.faults,hlt]

theorem inv_loadAll {ids : List Nat} (hs : Inv s) (hids : ids.Pairwise (· < ·))
    (hbelow : ∀ i ∈ s.inUse, ∀ id ∈ ids, i < id)
    (hall : ∀ id ∈ ids, id < s.mgr.instanceIds.size ∧ id ≠ 0 ∧ id < 2^32-1) :
    Inv (ids.foldl Server.load s) := by
  induction ids generalizing s with
  | nil => exact hs
  | cons id ids ih =>
    rw [List.pairwise_cons] at hids
    rw [List.forall_mem_cons] at hall
    have hload : Inv (s.load id) := inv_load hs hall.1.1 hall.1.2.1 hall.1.2.2
      (fun i hi => hbelow i hi id List.mem_cons_self)
    have hsize : (s.load id).mgr.instanceIds.size = s.mgr.instanceIds.size := by
      unfold Server.load MapManager.loadInstanceId MapManager.registerInstanceId
      dsimp only
      split_ifs <;> simp
    refine ih hload hids.2 ?_ ?_
    · intro i hi j hj
      rcases Finset.mem_insert.mp hi with rfl | hi
      · exact hids.1 j hj
      · exact hbelow i hi j (List.mem_cons_of_mem _ hj)
    · rw [hsize]
      exact hall.2

theorem le_foldr_max {ids : List Nat} {id : Nat} (h : id ∈ ids) : id ≤ ids.foldr max 0 := by
  induction ids with
  | nil => simp at h
  | cons first ids ih =>
    rw [List.foldr_cons]
    rcases List.mem_cons.mp h with rfl | h
    · exact Nat.le_max_left _ _
    · exact (ih h).trans (Nat.le_max_right _ _)

theorem inv_start {ids : List Nat} (capacity : Nat) (h : Server.Fitting ids) :
    Inv (Server.start G capacity ids) := by
  refine inv_loadAll ?_ h.ascending (by simp) ?_
  · refine ⟨?_,by simp,by simp [MapManager.initInstanceIds],by simp,rfl⟩
    intro i
    simp only [MapManager.initInstanceIds]
    rw [BitVector.has_resize (Nat.zero_le _)]
    simp [BitVector.Has]
  · intro id hid
    obtain ⟨hmod,hmax⟩ := h.fits (List.ne_nil_of_mem hid)
    have hsize := lt_sizeFor hmod hmax
    have hid' := le_foldr_max hid
    simp only [MapManager.initInstanceIds,BitVector.size_resize]
    refine ⟨by omega,?_,by omega⟩
    rintro rfl
    exact h.nonzero hid

/-- Ids are unique along a run in which each id that is given out gets a bit. -/
theorem instanceIds_unique {ids : List Nat} (capacity : Nat) (hids : Server.Fitting ids)
    {actions : List Action}
    (hrun : Run.Guarded (Server.step G) Server.Allowed (Server.start G capacity ids) actions) :
    (Run.exec (Server.step G) (Server.start G capacity ids) actions).faults = [] := by
  have hstep : ∀ s a, Inv s → Server.Allowed s a → Inv (Server.step G s a) := by
    intro s a hs hallowed
    cases a with
    | generate => exact inv_generate hs hallowed
    | free id => exact inv_free hs hallowed
  exact (hrun.inv hstep (inv_start capacity hids)).faults

def words : Growth where
  capacity old size := max (2*old) ((size+63)/64*64)
  le_capacity old size := le_max_of_le_right (by omega)

theorem instanceIds_unique_words :
    (Run.exec (Server.step words) (Server.start words 0 [1]) [.generate,.free 2]).faults = [] := by
  refine instanceIds_unique 0 ⟨by simp,by decide,by decide⟩ ⟨⟨.inl (by decide),3,?_⟩,?_,trivial⟩
  · decide
  · simp only [Server.Allowed]
    decide

/-- When the largest stored id is a multiple of 32, there is no bit for it. -/
theorem instanceIds_outOfRange : (Server.start words 0 [32]).faults ≠ [] := by
  decide

end Ids

end TrinityCore.Instances
