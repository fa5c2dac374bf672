import TrinityCore.Lib.Run
import TrinityCore.Lib.Tally
import TrinityCore.Collision.MapTree

set_option autoImplicit false

namespace TrinityCore.Collision

/-- A spawn that a loop over a file gets to, with its node if the file goes on so far. -/
structure Record where
  name : Name
  node : Option Nat
  deriving DecidableEq, Repr

def records : Nat → File → List Record
  | 0, _ => []
  | n+1, file =>
    match readModelSpawn file with
    | none => []
    | some (name,file) =>
      match (freadUInt32 file).1 with
      | none => [⟨name,none⟩]
      | some node => ⟨name,some node⟩ :: records n (freadUInt32 file).2

section Spec

variable (files : Files)

def tileRecords (mapId tileX tileY : Nat) : List Record :=
  match (files.tileFile mapId tileX tileY).bind readTileHeader with
  | none => []
  | some (numSpawns,file) => records numSpawns file

def recordsOfTile (mapId tileID : Nat) : List Record :=
  tileRecords files mapId (tileID/2^16) (tileID % 2^16)

/-- The global model of a map without tiles, if it can be read. -/
def globalRecords (mapId : Nat) : List Record :=
  match (files.mapFile mapId).bind fun file => readModelSpawn (readMapHeader file).rest with
  | none => []
  | some (name,_) => if files.readModel name then [⟨name,some 0⟩] else []

def treeRecords (mapId : Nat) (tree : StaticMapTree) : List Record :=
  if tree.iIsTiled then
    tree.iLoadedTiles.collect fun tileID loaded =>
      if loaded then recordsOfTile files mapId tileID else []
  else globalRecords files mapId

def loadedRecords (vm : VMapManager2) : List Record :=
  vm.iInstanceMapTrees.collect (treeRecords files)

/-- The number of records for which a reference to the model has been acquired. -/
def acquired (rs : List Record) (name : Name) : Nat :=
  rs.countP fun r => r.name = name && files.readModel name

def modelOf (name : Name) : Option Name := if files.readModel name then some name else none

structure Sound (vm : VMapManager2) : Prop where
  inBounds : vm.outOfBounds = false
  refCount : ∀ name,
    ((vm.iLoadedModelFiles.shared name).elim 0 fun model => model.refCount) =
      acquired files (loadedRecords files vm) name
  /-- A model that a tree value points to is loaded. -/
  kept : ∀ mapId tree i model, vm.iInstanceMapTrees.find? mapId = some tree →
    i < tree.iNTreeValues → (tree.iTreeValues i).iModel = some model →
    ∃ managed, vm.iLoadedModelFiles.shared (tree.iTreeValues i).name = some managed ∧
      managed.id = model
  /-- A map that no tile is loaded of has no tree, and no records either. -/
  tiles : ∀ mapId tree, vm.iInstanceMapTrees.find? mapId = some tree → tree.iLoadedTiles.size ≠ 0

/-- A tile of a map that is not loaded yet, when it is to be loaded. -/
def Fresh (vm : VMapManager2) : Action → Prop
  | .loadMap mapId tileX tileY => (tileX < 2^16 ∧ tileY < 2^16) ∧
    ((vm.iInstanceMapTrees.find? mapId).bind fun tree =>
      tree.iLoadedTiles.find? (packTileID tileX tileY)) = none
  | .unloadTile _ tileX tileY => tileX < 2^16 ∧ tileY < 2^16
  | .unloadMap _ => True

/-- No record is for the node behind the last one, and records for one node agree on the model,
with each other and with what is loaded. -/
def TileOk (n : Nat) (loaded rs : List Record) : Prop :=
  (∀ r ∈ rs, r.node ≠ some n) ∧ ∀ r ∈ rs, ∀ r' ∈ rs ++ loaded,
    r.node = r'.node → (∀ i ∈ r.node, i < n → modelOf files r.name = modelOf files r'.name)

def InitOk (mapId tileX tileY : Nat) : Prop :=
  ∀ header ∈ (files.mapFile mapId).map readMapHeader,
    if header.tiled then header.success = true →
      TileOk files (header.primCount.getD 0) [] (tileRecords files mapId tileX tileY)
    else globalRecords files mapId = [] ∨ (header.success = true ∧ 0 < header.primCount.getD 0)

/-- What makes the difference between an action that goes well and one that does not. -/
def Clean (vm : VMapManager2) : Action → Prop
  | .loadMap mapId tileX tileY =>
    ((vm.iInstanceMapTrees.find? mapId).isNone = true → InitOk files mapId tileX tileY) ∧
    ∀ tree ∈ vm.iInstanceMapTrees.find? mapId, tree.iIsTiled = true →
      TileOk files tree.iNTreeValues (treeRecords files mapId tree)
        (tileRecords files mapId tileX tileY)
  -- a global model is not released with the last tile
  | .unloadTile mapId tileX tileY => ∀ tree ∈ vm.iInstanceMapTrees.find? mapId,
    tree.iIsTiled = true ∨ globalRecords files mapId = [] ∨
      (tree.iLoadedTiles.erase (packTileID tileX tileY)).size ≠ 0
  -- what is acquired without a node is released with its tile only
  | .unloadMap mapId => ∀ tree ∈ vm.iInstanceMapTrees.find? mapId,
    ∀ r ∈ treeRecords files mapId tree, files.readModel r.name = true →
      r.node.any (· < tree.iNTreeValues) = true

/-- Counts of references are 32-bit numbers with a sign. -/
def Fits (vm : VMapManager2) : Action → Prop
  | .loadMap mapId tileX tileY => (loadedRecords files vm).length+
    (globalRecords files mapId ++ tileRecords files mapId tileX tileY).length < 2^31
  | .unloadTile .. => True
  | .unloadMap _ => True

def Ok (vm : VMapManager2) (action : Action) : Prop :=
  Fresh vm action ∧ Fits files vm action ∧ Clean files vm action

instance (n : Nat) (loaded rs : List Record) : Decidable (TileOk files n loaded rs) :=
  inferInstanceAs (Decidable (_ ∧ _))

instance (mapId tileX tileY : Nat) : Decidable (InitOk files mapId tileX tileY) :=
  inferInstanceAs (Decidable (∀ header ∈ (files.mapFile mapId).map readMapHeader, ite _ _ _))

instance (vm : VMapManager2) : (action : Action) → Decidable (Fresh vm action)
  | .loadMap .. => inferInstanceAs (Decidable (_ ∧ _))
  | .unloadTile .. => inferInstanceAs (Decidable (_ ∧ _))
  | .unloadMap _ => inferInstanceAs (Decidable True)

instance (vm : VMapManager2) : (action : Action) → Decidable (Fits files vm action)
  | .loadMap .. => inferInstanceAs (Decidable (_ < _))
  | .unloadTile .. => inferInstanceAs (Decidable True)
  | .unloadMap _ => inferInstanceAs (Decidable True)

instance (vm : VMapManager2) : (action : Action) → Decidable (Clean files vm action)
  | .loadMap .. => inferInstanceAs (Decidable (_ ∧ _))
  | .unloadTile mapId _ _ =>
    inferInstanceAs (Decidable (∀ tree ∈ vm.iInstanceMapTrees.find? mapId, _ ∨ _))
  | .unloadMap mapId =>
    inferInstanceAs (Decidable (∀ tree ∈ vm.iInstanceMapTrees.find? mapId, ∀ r ∈ _, _))

instance (vm : VMapManager2) (action : Action) : Decidable (Ok files vm action) :=
  inferInstanceAs (Decidable (_ ∧ _ ∧ _))

end Spec

/-! The loops are folds over the records. -/

section Loops

variable (files : Files)

def loadRecord (s : StaticMapTree × VMapManager2) (r : Record) : StaticMapTree × VMapManager2 :=
  let (model,vm) := acquireModelInstance files r.name s.2
  match r.node with
  | none => (s.1,vm)
  | some node => loadReference r.name model node s.1 vm

def unloadRecord (s : StaticMapTree × VMapManager2) (r : Record) : StaticMapTree × VMapManager2 :=
  let vm := releaseModelInstance r.name s.2
  match r.node with
  | none => (s.1,vm)
  | some node => unloadReference node s.1 vm

theorem loadSpawns_eq (n : Nat) (file : File) (tree : StaticMapTree) (vm : VMapManager2) :
    (loadSpawns files n file tree vm).2 = (records n file).foldl (loadRecord files) (tree,vm) := by
  induction n generalizing file tree vm with
  | zero => rfl
  | succ n ih =>
    unfold loadSpawns records
    cases readModelSpawn file with
    | none => rfl
    | some spawn =>
      dsimp only
      cases hnode : (freadUInt32 spawn.2).1 with
      | none => simp [loadRecord]
      | some node => simp [loadRecord,ih]

theorem unloadTileSpawns_eq (n : Nat) (file : File) (tree : StaticMapTree) (vm : VMapManager2) :
    unloadTileSpawns n file tree vm = (records n file).foldl unloadRecord (tree,vm) := by
  induction n generalizing file tree vm with
  | zero => rfl
  | succ n ih =>
    unfold unloadTileSpawns records
    cases readModelSpawn file with
    | none => rfl
    | some spawn =>
      dsimp only
      cases hnode : (freadUInt32 spawn.2).1 with
      | none => simp [unloadRecord]
      | some node => simp [unloadRecord,ih]

end Loops

section Counting

variable {files : Files} {rs rs' : List Record} {r : Record} {name : Name} {n : Nat}

theorem acquired_cons : acquired files (r :: rs) name =
    acquired files rs name+if name = r.name ∧ files.readModel r.name then 1 else 0 := by
  unfold acquired
  rw [List.countP_cons]
  by_cases hname : name = r.name
  · simp [hname]
  · simp [hname,Ne.symm hname]

theorem acquired_append :
    acquired files (rs ++ rs') name = acquired files rs name+acquired files rs' name :=
  List.countP_append

theorem acquired_perm (h : rs.Perm rs') : acquired files rs name = acquired files rs' name :=
  h.countP_eq _

theorem acquired_pos : 0 < acquired files rs name ↔
    files.readModel name = true ∧ ∃ r ∈ rs, r.name = name := by
  unfold acquired
  rw [List.countP_pos_iff]
  constructor
  · rintro ⟨r,hr,hyes⟩
    simp only [Bool.and_eq_true,decide_eq_true_eq] at hyes
    exact ⟨hyes.2,r,hr,hyes.1⟩
  · rintro ⟨hread,r,hr,rfl⟩
    exact ⟨r,hr,by simpa using hread⟩

def nodeCount (rs : List Record) (n : Nat) : Nat := rs.countP fun r => r.node = some n

theorem nodeCount_cons :
    nodeCount (r :: rs) n = nodeCount rs n+if r.node = some n then 1 else 0 := by
  simp [nodeCount,List.countP_cons]

theorem nodeCount_pos : 0 < nodeCount rs n ↔ ∃ r ∈ rs, r.node = some n := by
  simp [nodeCount,List.countP_pos_iff]

end Counting

/-- The tree counts the records of each node, and its values have the models of these. -/
structure Referenced (files : Files) (rs : List Record) (tree : StaticMapTree)
    (models : RefPool.Pool Name) : Prop where
  spawns : ∀ n, tree.iLoadedSpawns.find? n =
    if n < tree.iNTreeValues ∧ 0 < nodeCount rs n then some (nodeCount rs n) else none
  names : ∀ n, n < tree.iNTreeValues → ∀ r ∈ rs, r.node = some n →
    modelOf files r.name = modelOf files (tree.iTreeValues n).name
  values : ∀ n id, n < tree.iNTreeValues → (tree.iTreeValues n).iModel = some id →
    0 < nodeCount rs n ∧
    ∃ s, models.shared (tree.iTreeValues n).name = some s ∧ s.id = id

/-- Everything but the tree values, the counts of nodes and the models is as it was. -/
structure Framed (s s' : StaticMapTree × VMapManager2) : Prop where
  isTiled : s'.1.iIsTiled = s.1.iIsTiled
  hasTreeValues : s'.1.hasTreeValues = s.1.hasTreeValues
  nTreeValues : s'.1.iNTreeValues = s.1.iNTreeValues
  loadedTiles : s'.1.iLoadedTiles = s.1.iLoadedTiles
  trees : s'.2.iInstanceMapTrees = s.2.iInstanceMapTrees
  outOfBounds : s'.2.outOfBounds = s.2.outOfBounds

theorem Framed.trans {s s' s'' : StaticMapTree × VMapManager2} (h : Framed s s')
    (h' : Framed s' s'') : Framed s s'' where
  isTiled := h'.isTiled.trans h.isTiled
  hasTreeValues := h'.hasTreeValues.trans h.hasTreeValues
  nTreeValues := h'.nTreeValues.trans h.nTreeValues
  loadedTiles := h'.loadedTiles.trans h.loadedTiles
  trees := h'.trees.trans h.trees
  outOfBounds := h'.outOfBounds.trans h.outOfBounds

section Referenced

variable {files : Files} {rs rs' : List Record} {r : Record} {tree : StaticMapTree}
  {vm : VMapManager2} {models models' : RefPool.Pool Name} {count others : Name → Nat}

theorem Referenced.perm (h : Referenced files rs tree models) (hperm : rs.Perm rs') :
    Referenced files rs' tree models where
  spawns := by
    intro n
    rw [← show nodeCount rs n = nodeCount rs' n from hperm.countP_eq _]
    exact h.spawns n
  names := fun n hn r hr => h.names n hn r (hperm.mem_iff.mpr hr)
  values := by
    intro n id hn hid
    rw [← show nodeCount rs n = nodeCount rs' n from hperm.countP_eq _]
    exact h.values n id hn hid

theorem Referenced.keep (h : Referenced files rs tree models)
    (hopens : ∀ name s, models.shared name = some s → files.readModel name = true)
    (hkept : ∀ name s, models.shared name = some s → 0 < acquired files rs name →
      ∃ s', models'.shared name = some s' ∧ s'.id = s.id) :
    Referenced files rs tree models' where
  spawns := h.spawns
  names := h.names
  values := by
    intro n id hn hid
    obtain ⟨hpos,s,hs,rfl⟩ := h.values n id hn hid
    obtain ⟨r,hr,hnode⟩ := nodeCount_pos.mp hpos
    have hread := hopens _ s hs
    have hname := h.names n hn r hr hnode
    rw [modelOf,modelOf,if_pos hread] at hname
    refine ⟨hpos,hkept _ s hs (acquired_pos.mpr ⟨hread,r,hr,?_⟩)⟩
    split_ifs at hname
    exact Option.some.inj hname

/-- A reference that is loaded counts for its node, and is the first for it or agrees with it. -/
theorem Referenced.loadReference (vm : VMapManager2) {name : Name} {model : Option Nat} {node : Nat}
    (h : Referenced files rs tree models)
    (hmodel : ∀ id, model = some id → ∃ s, models.shared name = some s ∧ s.id = id)
    (hnode : node ≠ tree.iNTreeValues)
    (hnames : ∀ r' ∈ rs, r'.node = some node → node < tree.iNTreeValues →
      modelOf files name = modelOf files r'.name) :
    Referenced files (⟨name,some node⟩ :: rs) (loadReference name model node tree vm).1 models ∧
      (loadReference name model node tree vm).2.iLoadedModelFiles = vm.iLoadedModelFiles ∧
      Framed (tree,vm) (loadReference name model node tree vm) := by
  have hother : ∀ n, n ≠ node → nodeCount (⟨name,some node⟩ :: rs) n = nodeCount rs n := by
    intro n hn
    rw [nodeCount_cons,if_neg (fun heq => hn (Option.some.inj heq).symm),add_zero]
  have hself : nodeCount (⟨name,some node⟩ :: rs) node = nodeCount rs node+1 := by
    rw [nodeCount_cons,if_pos rfl]
  have hspawns := h.spawns node
  unfold Collision.loadReference
  cases hfind : tree.iLoadedSpawns.find? node with
  | none =>
    rw [hfind] at hspawns
    split_ifs at hspawns with hused
    dsimp only
    by_cases hlarge : node > tree.iNTreeValues
    · rw [if_pos hlarge]
      refine ⟨⟨fun n => ?_,fun n hn r' hr' hr'node => ?_,fun n id hn hid => ?_⟩,rfl,
        ⟨rfl,rfl,rfl,rfl,rfl,rfl⟩⟩
      · by_cases hn : n < tree.iNTreeValues
        · rw [hother n (by omega)]
          exact h.spawns n
        · rw [h.spawns n,if_neg (fun hbad => hn hbad.1),if_neg (fun hbad => hn hbad.1)]
      · rcases List.mem_cons.mp hr' with rfl | hr'
        · have heq : node = n := Option.some.inj hr'node
          exact absurd (heq ▸ hn) (Nat.lt_asymm hlarge)
        · exact h.names n hn r' hr' hr'node
      · rw [hother n fun heq => Nat.lt_asymm hlarge (heq ▸ hn)]
        exact h.values n id hn hid
    · rw [if_neg hlarge]
      have hlt : node < tree.iNTreeValues := by omega
      have hzero : nodeCount rs node = 0 :=
        Nat.eq_zero_of_not_pos fun hpos => hused ⟨hlt,hpos⟩
      have hbounds : decide (tree.iNTreeValues ≤ node) = false := by simpa using hlt
      refine ⟨⟨fun n => ?_,fun n hn r' hr' hr'node => ?_,fun n id hn hid => ?_⟩,rfl,
        ⟨rfl,rfl,rfl,rfl,rfl,by simp [setTreeValue,hbounds]⟩⟩
      · change (tree.iLoadedSpawns.insert node 1).find? n = if n < tree.iNTreeValues ∧
          0 < nodeCount (⟨name,some node⟩ :: rs) n then some (nodeCount _ n) else none
        rw [OrderedMap.find?_insert]
        by_cases hn : n = node
        · subst hn
          rw [if_pos rfl,hself,hzero,if_pos ⟨hlt,by omega⟩]
        · rw [if_neg hn,hother n hn]
          exact h.spawns n
      · simp only [setTreeValue] at hn ⊢
        by_cases heq : n = node
        · subst heq
          rw [Function.update_self]
          rcases List.mem_cons.mp hr' with rfl | hr'
          · rfl
          · exact absurd (nodeCount_pos.mpr ⟨r',hr',hr'node⟩) (by omega)
        · rw [Function.update_of_ne heq]
          rcases List.mem_cons.mp hr' with rfl | hr'
          · exact absurd (Option.some.inj hr'node).symm heq
          · exact h.names n hn r' hr' hr'node
      · simp only [setTreeValue] at hn hid ⊢
        by_cases heq : n = node
        · subst heq
          rw [Function.update_self] at hid ⊢
          exact ⟨by omega,hmodel id hid⟩
        · rw [Function.update_of_ne heq] at hid ⊢
          rw [hother n heq]
          exact h.values n id hn hid
  | some refCount =>
    rw [hfind] at hspawns
    split_ifs at hspawns with hused
    obtain rfl := Option.some.inj hspawns
    dsimp only
    refine ⟨⟨fun n => ?_,fun n hn r' hr' hr'node => ?_,fun n id hn hid => ?_⟩,rfl,
      ⟨rfl,rfl,rfl,rfl,rfl,rfl⟩⟩
    · rw [OrderedMap.find?_insert]
      by_cases hn : n = node
      · subst hn
        rw [if_pos rfl,hself,if_pos ⟨hused.1,by omega⟩]
      · rw [if_neg hn,hother n hn]
        exact h.spawns n
    · rcases List.mem_cons.mp hr' with rfl | hr'
      · -- the node is in use, so that a record for it agrees with the value
        obtain rfl : node = n := Option.some.inj hr'node
        obtain ⟨r₀,hr₀,hr₀node⟩ := nodeCount_pos.mp hused.2
        exact (hnames r₀ hr₀ hr₀node hn).trans (h.names node hn r₀ hr₀ hr₀node)
      · exact h.names n hn r' hr' hr'node
    · obtain ⟨hpos,hmodels⟩ := h.values n id hn hid
      refine ⟨?_,hmodels⟩
      rw [nodeCount_cons]
      omega

theorem Referenced.loadRecord (h : Referenced files rs tree vm.iLoadedModelFiles)
    (hholds : RefPool.Holds files.readModel (fun name => others name+acquired files rs name)
      vm.iLoadedModelFiles)
    (hnode : r.node ≠ some tree.iNTreeValues)
    (hnames : ∀ r' ∈ rs, ∀ i, r.node = some i → r'.node = some i → i < tree.iNTreeValues →
      modelOf files r.name = modelOf files r'.name) :
    Referenced files (r :: rs) (loadRecord files (tree,vm) r).1
        (loadRecord files (tree,vm) r).2.iLoadedModelFiles ∧
      RefPool.Holds files.readModel (fun name => others name+acquired files (r :: rs) name)
        (loadRecord files (tree,vm) r).2.iLoadedModelFiles ∧
      RefPool.Kept vm.iLoadedModelFiles (loadRecord files (tree,vm) r).2.iLoadedModelFiles ∧
      Framed (tree,vm) (loadRecord files (tree,vm) r) := by
  obtain ⟨name,node⟩ := r
  have hkept := RefPool.kept_acquire files.readModel name vm.iLoadedModelFiles
  have hmodel : ∀ id, (RefPool.acquire files.readModel name vm.iLoadedModelFiles).1 = some id →
      ∃ s, (RefPool.acquire files.readModel name vm.iLoadedModelFiles).2.shared name = some s ∧
        s.id = id := fun id => RefPool.acquire_eq_some
  have hholds' : RefPool.Holds files.readModel
      (fun name' => others name'+acquired files (⟨name,node⟩ :: rs) name')
      (RefPool.acquire files.readModel name vm.iLoadedModelFiles).2 := by
    refine (hholds.acquire name).congr fun name' => ?_
    rw [acquired_cons,Nat.add_assoc]
  have hreferenced := h.keep hholds.opens fun name s hs _ => hkept name s hs
  unfold Collision.loadRecord
  dsimp only [acquireModelInstance]
  cases node with
  | none =>
    refine ⟨⟨fun n => ?_,fun n hn r' hr' hr'node => ?_,fun n id hn hid => ?_⟩,hholds',hkept,
      ⟨rfl,rfl,rfl,rfl,rfl,rfl⟩⟩
    · rw [nodeCount_cons]
      exact h.spawns n
    · rcases List.mem_cons.mp hr' with rfl | hr'
      · cases hr'node
      · exact h.names n hn r' hr' hr'node
    · rw [nodeCount_cons]
      exact hreferenced.values n id hn hid
  | some node =>
    dsimp only
    obtain ⟨hreferenced',hmodels,hframed⟩ := hreferenced.loadReference
      { vm with
        iLoadedModelFiles := (RefPool.acquire files.readModel name vm.iLoadedModelFiles).2 }
      hmodel (fun heq => hnode (congrArg some heq))
      (fun r' hr' hr'node => hnames r' hr' node rfl hr'node)
    rw [hmodels]
    exact ⟨hreferenced',hholds',hkept,hframed.isTiled,hframed.hasTreeValues,hframed.nTreeValues,
      hframed.loadedTiles,hframed.trees,hframed.outOfBounds⟩

theorem Referenced.unloadReference (vm : VMapManager2) {name : Name} {node : Nat}
    (h : Referenced files (⟨name,some node⟩ :: rs) tree models) :
    Referenced files rs (unloadReference node tree vm).1 models ∧
      (unloadReference node tree vm).2.iLoadedModelFiles = vm.iLoadedModelFiles ∧
      Framed (tree,vm) (unloadReference node tree vm) := by
  have hother : ∀ n, n ≠ node → nodeCount (⟨name,some node⟩ :: rs) n = nodeCount rs n := by
    intro n hn
    rw [nodeCount_cons,if_neg (fun heq => hn (Option.some.inj heq).symm),add_zero]
  have hself : nodeCount (⟨name,some node⟩ :: rs) node = nodeCount rs node+1 := by
    rw [nodeCount_cons,if_pos rfl]
  have hspawns := h.spawns node
  rw [hself] at hspawns
  have hnames : ∀ n, n < tree.iNTreeValues → ∀ r' ∈ rs, r'.node = some n →
      modelOf files r'.name = modelOf files (tree.iTreeValues n).name :=
    fun n hn r' hr' => h.names n hn r' (List.mem_cons_of_mem _ hr')
  unfold Collision.unloadReference
  by_cases hlt : node < tree.iNTreeValues
  swap
  · rw [if_neg (fun hbad => hlt hbad.1)] at hspawns
    rw [hspawns]
    refine ⟨⟨fun n => ?_,hnames,fun n id hn hid => ?_⟩,rfl,⟨rfl,rfl,rfl,rfl,rfl,rfl⟩⟩
    · by_cases hn : n = node
      · subst hn
        rw [hspawns,if_neg (fun hbad => hlt hbad.1)]
      · rw [← hother n hn]
        exact h.spawns n
    · rw [← hother n (fun heq => hlt (heq ▸ hn))]
      exact h.values n id hn hid
  rw [if_pos ⟨hlt,by omega⟩] at hspawns
  rw [hspawns]
  dsimp only
  by_cases hlast : nodeCount rs node+1-1 = 0
  · rw [if_pos hlast]
    have hbounds : decide (tree.iNTreeValues ≤ node) = false := by simpa using hlt
    refine ⟨⟨fun n => ?_,fun n hn r' hr' hr'node => ?_,fun n id hn hid => ?_⟩,rfl,
      ⟨rfl,rfl,rfl,rfl,rfl,by simp [setTreeValue,hbounds]⟩⟩
    · change (tree.iLoadedSpawns.erase node).find? n = if n < tree.iNTreeValues ∧
        0 < nodeCount rs n then some (nodeCount rs n) else none
      rw [OrderedMap.find?_erase]
      by_cases hn : n = node
      · subst hn
        rw [if_pos rfl,if_neg (fun hbad => absurd hbad.2 (by omega))]
      · rw [if_neg hn,← hother n hn]
        exact h.spawns n
    · have heq : n ≠ node := by
        rintro rfl
        exact absurd (nodeCount_pos.mpr ⟨r',hr',hr'node⟩) (by omega)
      simp only [setTreeValue,Function.update_of_ne heq] at hn ⊢
      exact hnames n hn r' hr' hr'node
    · simp only [setTreeValue] at hn hid ⊢
      by_cases heq : n = node
      · subst heq
        rw [Function.update_self] at hid
        cases hid
      · rw [Function.update_of_ne heq] at hid ⊢
        rw [← hother n heq]
        exact h.values n id hn hid
  · rw [if_neg hlast]
    refine ⟨⟨fun n => ?_,hnames,fun n id hn hid => ?_⟩,rfl,⟨rfl,rfl,rfl,rfl,rfl,rfl⟩⟩
    · rw [OrderedMap.find?_insert]
      by_cases hn : n = node
      · subst hn
        rw [if_pos rfl,if_pos ⟨hlt,by omega⟩,Nat.add_sub_cancel]
      · rw [if_neg hn,← hother n hn]
        exact h.spawns n
    · obtain ⟨hpos,hmodels⟩ := h.values n id hn hid
      refine ⟨?_,hmodels⟩
      by_cases heq : n = node
      · subst heq
        omega
      · rwa [hother n heq] at hpos

theorem Referenced.unloadRecord (h : Referenced files (r :: rs) tree vm.iLoadedModelFiles)
    (hholds : RefPool.Holds files.readModel (fun name => others name+acquired files (r :: rs) name)
      vm.iLoadedModelFiles) :
    Referenced files rs (unloadRecord (tree,vm) r).1
        (unloadRecord (tree,vm) r).2.iLoadedModelFiles ∧
      RefPool.Holds files.readModel (fun name => others name+acquired files rs name)
        (unloadRecord (tree,vm) r).2.iLoadedModelFiles ∧
      RefPool.Kept (unloadRecord (tree,vm) r).2.iLoadedModelFiles vm.iLoadedModelFiles ∧
      Framed (tree,vm) (unloadRecord (tree,vm) r) := by
  obtain ⟨name,node⟩ := r
  have hkept := RefPool.kept_release name vm.iLoadedModelFiles
  have hholds' : RefPool.Holds files.readModel
      (fun name' => others name'+acquired files rs name')
      (RefPool.release name vm.iLoadedModelFiles) := by
    refine (hholds.release name).congr fun name' => ?_
    rw [acquired_cons]
    by_cases hname : name' = name
    · by_cases hread : files.readModel name = true
      · simp [hname,hread]
      · -- a model that cannot be read is never held
        have hzero : others name'+acquired files (⟨name,node⟩ :: rs) name' = 0 := by
          by_contra hne
          obtain ⟨s,hs⟩ := hholds.exists_of_pos (Nat.pos_of_ne_zero hne)
          exact hread (hname ▸ hholds.opens name' s hs)
        rw [acquired_cons] at hzero
        simp only [hread] at hzero ⊢
        omega
    · simp [hname]
  unfold Collision.unloadRecord
  dsimp only [releaseModelInstance]
  have hkeep : ∀ {tree' : StaticMapTree}, Referenced files rs tree' vm.iLoadedModelFiles →
      Referenced files rs tree' (RefPool.release name vm.iLoadedModelFiles) := by
    intro tree' h'
    exact h'.keep hholds.opens fun name' s hs hpos => hkept.of_holds hholds' hs (by omega)
  cases node with
  | none =>
    refine ⟨hkeep ⟨fun n => ?_,?_,fun n id hn hid => ?_⟩,hholds',hkept,⟨rfl,rfl,rfl,rfl,rfl,rfl⟩⟩
    · have hspawns := h.spawns n
      rwa [nodeCount_cons] at hspawns
    · exact fun n hn r' hr' => h.names n hn r' (List.mem_cons_of_mem _ hr')
    · have hvalues := h.values n id hn hid
      rwa [nodeCount_cons] at hvalues
  | some node =>
    dsimp only
    obtain ⟨hreferenced,hmodels,hframed⟩ := h.unloadReference
      { vm with iLoadedModelFiles := RefPool.release name vm.iLoadedModelFiles }
    rw [hmodels]
    exact ⟨hkeep hreferenced,hholds',hkept,hframed.isTiled,hframed.hasTreeValues,
      hframed.nTreeValues,hframed.loadedTiles,hframed.trees,hframed.outOfBounds⟩

theorem Referenced.loadRecords (h : Referenced files rs tree vm.iLoadedModelFiles)
    (hholds : RefPool.Holds files.readModel (fun name => others name+acquired files rs name)
      vm.iLoadedModelFiles)
    (hok : TileOk files tree.iNTreeValues rs rs') :
    Referenced files (rs' ++ rs) (rs'.foldl (Collision.loadRecord files) (tree,vm)).1
        (rs'.foldl (Collision.loadRecord files) (tree,vm)).2.iLoadedModelFiles ∧
      RefPool.Holds files.readModel (fun name => others name+acquired files (rs' ++ rs) name)
        (rs'.foldl (Collision.loadRecord files) (tree,vm)).2.iLoadedModelFiles ∧
      RefPool.Kept vm.iLoadedModelFiles
        (rs'.foldl (Collision.loadRecord files) (tree,vm)).2.iLoadedModelFiles ∧
      Framed (tree,vm) (rs'.foldl (Collision.loadRecord files) (tree,vm)) := by
  induction rs' generalizing rs tree vm with
  | nil => exact ⟨h,hholds,.refl _,⟨rfl,rfl,rfl,rfl,rfl,rfl⟩⟩
  | cons r rs' ih =>
    obtain ⟨hnode,hnames⟩ := hok
    obtain ⟨h₁,hholds₁,hkept₁,hframed₁⟩ := h.loadRecord hholds (hnode r List.mem_cons_self)
      fun r' hr' i hi hi' hlt => hnames r List.mem_cons_self r'
        (List.mem_append_right _ hr') (hi.trans hi'.symm) i hi hlt
    have hperm : (rs' ++ r :: rs).Perm (r :: rs' ++ rs) := List.perm_middle
    have hok₁ : TileOk files (Collision.loadRecord files (tree,vm) r).1.iNTreeValues (r :: rs) rs' := by
      rw [hframed₁.nTreeValues]
      refine ⟨fun r' hr' => hnode r' (List.mem_cons_of_mem _ hr'),fun r' hr' r'' hr'' => ?_⟩
      exact hnames r' (List.mem_cons_of_mem _ hr') r'' (hperm.mem_iff.mp hr'')
    obtain ⟨h₂,hholds₂,hkept₂,hframed₂⟩ := ih h₁ hholds₁ hok₁
    refine ⟨h₂.perm hperm,hholds₂.congr fun name => ?_,hkept₁.trans hkept₂,hframed₁.trans hframed₂⟩
    rw [acquired_perm hperm]

theorem Referenced.unloadRecords (h : Referenced files (rs' ++ rs) tree vm.iLoadedModelFiles)
    (hholds : RefPool.Holds files.readModel
      (fun name => others name+acquired files (rs' ++ rs) name) vm.iLoadedModelFiles) :
    Referenced files rs (rs'.foldl Collision.unloadRecord (tree,vm)).1
        (rs'.foldl Collision.unloadRecord (tree,vm)).2.iLoadedModelFiles ∧
      RefPool.Holds files.readModel (fun name => others name+acquired files rs name)
        (rs'.foldl Collision.unloadRecord (tree,vm)).2.iLoadedModelFiles ∧
      RefPool.Kept (rs'.foldl Collision.unloadRecord (tree,vm)).2.iLoadedModelFiles
        vm.iLoadedModelFiles ∧
      Framed (tree,vm) (rs'.foldl Collision.unloadRecord (tree,vm)) := by
  induction rs' generalizing tree vm with
  | nil => exact ⟨h,hholds,.refl _,⟨rfl,rfl,rfl,rfl,rfl,rfl⟩⟩
  | cons r rs' ih =>
    obtain ⟨h₁,hholds₁,hkept₁,hframed₁⟩ := Referenced.unloadRecord h hholds
    obtain ⟨h₂,hholds₂,hkept₂,hframed₂⟩ := ih h₁ hholds₁
    exact ⟨h₂,hholds₂,hkept₂.trans hkept₁,hframed₁.trans hframed₂⟩

end Referenced

/-! The whole tree is unloaded. -/

section UnloadTree

variable {files : Files} {rs : List Record} {tree : StaticMapTree} {vm : VMapManager2}
  {count others : Name → Nat}

def spawnCount (tree : StaticMapTree) (spawns : List (Nat × Nat)) (name : Name) : Nat :=
  (spawns.map fun e => if name = (tree.iTreeValues e.1).name then e.2 else 0).sum

theorem unloadSpawns_spec (spawns : List (Nat × Nat))
    (hbound : ∀ e ∈ spawns, e.1 < tree.iNTreeValues)
    (hholds : RefPool.Holds files.readModel count vm.iLoadedModelFiles) :
    RefPool.Holds files.readModel (fun name => count name-spawnCount tree spawns name)
        (unloadSpawns spawns tree vm).2.iLoadedModelFiles ∧
      RefPool.Kept (unloadSpawns spawns tree vm).2.iLoadedModelFiles vm.iLoadedModelFiles ∧
      (unloadSpawns spawns tree vm).2.outOfBounds = vm.outOfBounds ∧
      (unloadSpawns spawns tree vm).2.iInstanceMapTrees = vm.iInstanceMapTrees := by
  induction spawns generalizing tree vm count with
  | nil => exact ⟨hholds.congr fun name => by simp [spawnCount],.refl _,rfl,rfl⟩
  | cons e spawns ih =>
    obtain ⟨i,refCount⟩ := e
    have hlt := hbound (i,refCount) List.mem_cons_self
    have hnames : ∀ j, (Function.update tree.iTreeValues i (tree.iTreeValues i).setUnloaded j).name =
        (tree.iTreeValues j).name := by
      intro j
      by_cases hj : j = i
      · subst hj
        simp [ModelInstance.setUnloaded]
      · rw [Function.update_of_ne hj]
    unfold unloadSpawns
    dsimp only [setTreeValue]
    obtain ⟨hholds',hkept,hbounds,htrees⟩ := @ih
      { tree with
        iTreeValues := Function.update tree.iTreeValues i (tree.iTreeValues i).setUnloaded }
      { vm with
        outOfBounds := vm.outOfBounds || decide (tree.iNTreeValues ≤ i)
        iLoadedModelFiles := RefPool.releaseTimes (Function.update tree.iTreeValues i
          (tree.iTreeValues i).setUnloaded i).name refCount vm.iLoadedModelFiles } _
      (fun e he => hbound e (List.mem_cons_of_mem _ he)) (hholds.releaseTimes _ refCount)
    refine ⟨hholds'.congr fun name => ?_,hkept.trans (RefPool.kept_releaseTimes _ _ _),?_,htrees⟩
    · simp only [spawnCount,hnames,List.map_cons,List.sum_cons]
      omega
    · rw [hbounds,decide_eq_false (Nat.not_le.mpr hlt),Bool.or_false]

/-- The spawns that are loaded hold what the records of the tree have acquired, if each of these is
for a node. -/
theorem spawnCount_eq {models : RefPool.Pool Name} {name : Name}
    (h : Referenced files rs tree models)
    (hnodes : ∀ r ∈ rs, files.readModel r.name = true →
      r.node.any (· < tree.iNTreeValues) = true)
    (hread : files.readModel name = true) :
    spawnCount tree tree.iLoadedSpawns.entries name = acquired files rs name := by
  have hspawn : ∀ i refCount, tree.iLoadedSpawns.find? i = some refCount →
      i < tree.iNTreeValues ∧ refCount = nodeCount rs i := by
    intro i refCount hfind
    rw [h.spawns i] at hfind
    split_ifs at hfind with hused
    exact ⟨hused.1,(Option.some.inj hfind).symm⟩
  have hsplit : acquired files rs name = (tree.iLoadedSpawns.keys.map fun i =>
      rs.countP fun r => (r.name = name && files.readModel name) && r.node = some i).sum := by
    refine Tally.countP_eq_sum tree.iLoadedSpawns.nodup_keys Record.node fun r hr hname => ?_
    simp only [Bool.and_eq_true,decide_eq_true_eq] at hname
    obtain ⟨i,hi,hlt⟩ := (Option.any_eq_true _ _).mp (hnodes r hr (hname.1 ▸ hread))
    refine ⟨i,OrderedMap.mem_keys.mpr ⟨nodeCount rs i,?_⟩,hi⟩
    rw [h.spawns i,if_pos ⟨by simpa using hlt,nodeCount_pos.mpr ⟨r,hr,hi⟩⟩]
  rw [hsplit,spawnCount,OrderedMap.keys,List.map_map]
  refine congrArg List.sum (List.map_congr_left fun e he => ?_)
  obtain ⟨i,refCount⟩ := e
  obtain ⟨hlt,rfl⟩ := hspawn i refCount (OrderedMap.mem_entries.mp he)
  dsimp only [Function.comp]
  unfold nodeCount
  split_ifs with hname
  · refine List.countP_congr fun r hr => ?_
    have hmodel : r.node = some i → r.name = name := by
      intro hnode
      have hsame := h.names i hlt r hr hnode
      rw [← hname,modelOf,modelOf,if_pos hread] at hsame
      split_ifs at hsame
      exact Option.some.inj hsame
    simp only [Bool.and_eq_true,decide_eq_true_eq]
    exact ⟨fun hnode => ⟨⟨hmodel hnode,hread⟩,hnode⟩,fun hall => hall.2⟩
  · symm
    refine List.countP_eq_zero.mpr fun r hr hyes => hname ?_
    simp only [Bool.and_eq_true,decide_eq_true_eq] at hyes
    obtain ⟨⟨rfl,-⟩,hnode⟩ := hyes
    have hsame := h.names i hlt r hr hnode
    rw [modelOf,modelOf,if_pos hread] at hsame
    split_ifs at hsame
    exact Option.some.inj hsame

theorem unloadTree_spec (h : Referenced files rs tree vm.iLoadedModelFiles)
    (hholds : RefPool.Holds files.readModel (fun name => others name+acquired files rs name)
      vm.iLoadedModelFiles)
    (hnodes : ∀ r ∈ rs, files.readModel r.name = true →
      r.node.any (· < tree.iNTreeValues) = true) :
    RefPool.Holds files.readModel others (unloadTree tree vm).2.iLoadedModelFiles ∧
      RefPool.Kept (unloadTree tree vm).2.iLoadedModelFiles vm.iLoadedModelFiles ∧
      (unloadTree tree vm).2.outOfBounds = vm.outOfBounds ∧
      (unloadTree tree vm).2.iInstanceMapTrees = vm.iInstanceMapTrees ∧
      (unloadTree tree vm).1.iLoadedTiles.size = 0 := by
  have hbound : ∀ e ∈ tree.iLoadedSpawns.entries, e.1 < tree.iNTreeValues := by
    intro e he
    have hfind := OrderedMap.mem_entries.mp he
    rw [h.spawns e.1] at hfind
    split_ifs at hfind with hused
    exact hused.1
  obtain ⟨hholds',hkept,hbounds,htrees⟩ := unloadSpawns_spec _ hbound hholds
  refine ⟨hholds'.congr fun name => ?_,hkept,hbounds,htrees,rfl⟩
  by_cases hread : files.readModel name = true
  · rw [spawnCount_eq h hnodes hread,Nat.add_sub_cancel]
  · have hzero : others name+acquired files rs name = 0 := by
      by_contra hne
      obtain ⟨s,hs⟩ := hholds.exists_of_pos (Nat.pos_of_ne_zero hne)
      exact hread (hholds.opens name s hs)
    omega

end UnloadTree

end TrinityCore.Collision
