import TrinityCore.Lib.OrderedMap
import TrinityCore.Lib.RefPool

set_option autoImplicit false

/-!
The static collision geometry of maps: the files it is read from, the tree of a map with its tiles,
and the models that all maps share. Counts of references are natural numbers. Bounds, positions and
searches in the tree are left out.
-/

namespace TrinityCore.Collision

abbrev File := List UInt8

abbrev Name := List UInt8

/-- The files below the base path, by the numbers in their names, and which models can be read. -/
structure Files where
  mapFile : Nat → Option File
  /-- By map and tile. -/
  tileFile : Nat → Nat → Nat → Option File
  readModel : Name → Bool

section Reading

def fread (size : Nat) (file : File) : Option (List UInt8) × File :=
  if size ≤ file.length then (some (file.take size),file.drop size) else (none,[])

def freadUInt32 (file : File) : Option Nat × File :=
  let (bytes,file) := fread 4 file
  (bytes.map fun bytes => bytes.foldr (fun byte n => byte.toNat+2^8*n) 0,file)

def readChunk (compare : List UInt8) (file : File) : Bool × File :=
  let (dest,file) := fread compare.length file
  (dest = some compare,file)

def vmapMagic : List UInt8 := [0x56,0x4d,0x41,0x50,0x5f,0x34,0x2e,0x31]

def nodeChunk : List UInt8 := [0x4e,0x4f,0x44,0x45]

def gobjChunk : List UInt8 := [0x47,0x4f,0x42,0x4a]

/-- The number of objects, if all is read and the number of items fits 32 bits. -/
def readBIH (file : File) : Option Nat × File :=
  let (bounds,file) := fread 24 file
  let (treeSize,file) := freadUInt32 file
  let (tree,file) := fread (4*treeSize.getD 0) file
  let (count,file) := freadUInt32 file
  let (objects,file) := fread (4*count.getD 0) file
  match bounds,treeSize,tree,count,objects with
  | some _,some treeSize,some _,some count,some _ =>
    (if (3+3+1+treeSize+1+count) % 2^32 = 3+3+1+1+treeSize+count then some count else none,file)
  | _,_,_,_,_ => (none,file)

def modHasBound : Nat := 2

def readModelSpawn (file : File) : Option (Name × File) :=
  let (flags,file) := freadUInt32 file
  match flags with
  | none => none
  | some flags =>
    let hasBound := flags.testBit modHasBound
    let (fields,file) := fread (2+4+12+12+4+if hasBound then 24 else 0) file
    let (nameLen,file) := freadUInt32 file
    match fields,nameLen with
    | some _,some nameLen =>
      if 500 < nameLen then none
      else
        let (name,file) := fread nameLen file
        name.map fun name => (name,file)
    | _,_ => none

structure MapHeader where
  tiled : Bool
  /-- The number of values of the tree that has been read. -/
  primCount : Option Nat
  success : Bool
  rest : File

def readMapHeader (file : File) : MapHeader :=
  let (magic,file) := readChunk vmapMagic file
  if !magic then ⟨false,none,false,file⟩
  else
    let (tiled,file) := fread 1 file
    match tiled with
    | none => ⟨false,none,false,file⟩
    | some tiled =>
      let tiled := tiled != [0]
      let (node,file) := readChunk nodeChunk file
      if !node then ⟨tiled,none,false,file⟩
      else
        let (primCount,file) := readBIH file
        match primCount with
        | none => ⟨tiled,none,false,file⟩
        | some primCount =>
          let (success,file) := readChunk gobjChunk file
          ⟨tiled,some primCount,success,file⟩

def readTileHeader (file : File) : Option (Nat × File) :=
  let (magic,file) := readChunk vmapMagic file
  let (numSpawns,file) := freadUInt32 file
  if magic then numSpawns.map fun numSpawns => (numSpawns,file) else none

end Reading

structure ModelInstance where
  name : Name
  iModel : Option Nat
  deriving DecidableEq, Repr

def ModelInstance.setUnloaded (value : ModelInstance) : ModelInstance := { value with iModel := none }

structure StaticMapTree where
  iIsTiled : Bool
  /-- None is stored before the tree has been read. -/
  hasTreeValues : Bool
  iTreeValues : Nat → ModelInstance
  iNTreeValues : Nat
  iLoadedTiles : OrderedMap Nat Bool
  iLoadedSpawns : OrderedMap Nat Nat

structure VMapManager2 where
  isMapLoadingEnabled : Bool
  iLoadedModelFiles : RefPool.Pool Name
  iInstanceMapTrees : OrderedMap Nat StaticMapTree
  /-- A tree value has been used that there is not: nothing is known any more. -/
  outOfBounds : Bool

def VMapManager2.initial : VMapManager2 := ⟨true,.empty,.empty,false⟩

def packTileID (tileX tileY : Nat) : Nat := (tileX <<< 16 ||| tileY) % 2^32

section Operations

variable (files : Files)

def acquireModelInstance (filename : Name) (vm : VMapManager2) : Option Nat × VMapManager2 :=
  let (model,iLoadedModelFiles) := RefPool.acquire files.readModel filename vm.iLoadedModelFiles
  (model,{ vm with iLoadedModelFiles })

def releaseModelInstance (filename : Name) (vm : VMapManager2) : VMapManager2 :=
  { vm with iLoadedModelFiles := RefPool.release filename vm.iLoadedModelFiles }

def setTreeValue (i : Nat) (value : ModelInstance) (tree : StaticMapTree) (vm : VMapManager2) :
    StaticMapTree × VMapManager2 :=
  ({ tree with iTreeValues := Function.update tree.iTreeValues i value },
    { vm with outOfBounds := vm.outOfBounds || decide (tree.iNTreeValues ≤ i) })

def initMap (mapId : Nat) (vm : VMapManager2) : Bool × StaticMapTree × VMapManager2 :=
  let header := (files.mapFile mapId).map readMapHeader
  match header with
  | none => (false,⟨false,false,fun _ => ⟨[],none⟩,0,.empty,.empty⟩,vm)
  | some header =>
    let tree : StaticMapTree := ⟨header.tiled,header.primCount.isSome,fun _ => ⟨[],none⟩,
      header.primCount.getD 0,.empty,.empty⟩
    if header.tiled then (header.success,tree,vm)
    else
      match readModelSpawn header.rest with
      | none => (header.success,tree,vm)
      | some (name,_) =>
        let (model,vm) := acquireModelInstance files name vm
        match model with
        | none => (false,tree,vm)
        | some model =>
          let (tree,vm) := setTreeValue 0 ⟨name,some model⟩ tree vm
          (header.success,{ tree with iLoadedSpawns := tree.iLoadedSpawns.insert 0 1 },vm)

def unloadSpawns : List (Nat × Nat) → StaticMapTree → VMapManager2 → StaticMapTree × VMapManager2
  | [], tree, vm => (tree,vm)
  | (i,refCount) :: spawns, tree, vm =>
    let (tree,vm) := setTreeValue i (tree.iTreeValues i).setUnloaded tree vm
    let iLoadedModelFiles :=
      RefPool.releaseTimes (tree.iTreeValues i).name refCount vm.iLoadedModelFiles
    unloadSpawns spawns tree { vm with iLoadedModelFiles }

def unloadTree (tree : StaticMapTree) (vm : VMapManager2) : StaticMapTree × VMapManager2 :=
  let (tree,vm) := unloadSpawns tree.iLoadedSpawns.entries tree vm
  ({ tree with iLoadedSpawns := .empty,iLoadedTiles := .empty },vm)

def loadReference (name : Name) (model : Option Nat) (referencedVal : Nat) (tree : StaticMapTree)
    (vm : VMapManager2) : StaticMapTree × VMapManager2 :=
  match tree.iLoadedSpawns.find? referencedVal with
  | none =>
    if referencedVal > tree.iNTreeValues then (tree,vm)
    else
      let (tree,vm) := setTreeValue referencedVal ⟨name,model⟩ tree vm
      ({ tree with iLoadedSpawns := tree.iLoadedSpawns.insert referencedVal 1 },vm)
  | some refCount =>
    ({ tree with iLoadedSpawns := tree.iLoadedSpawns.insert referencedVal (refCount+1) },vm)

def loadSpawns : Nat → File → StaticMapTree → VMapManager2 → Bool × StaticMapTree × VMapManager2
  | 0, _, tree, vm => (true,tree,vm)
  | n+1, file, tree, vm =>
    match readModelSpawn file with
    | none => (false,tree,vm)
    | some (name,file) =>
      let (model,vm) := acquireModelInstance files name vm
      let (referencedVal,file) := freadUInt32 file
      match referencedVal with
      | none => (false,tree,vm)
      | some referencedVal =>
        let (tree,vm) := loadReference name model referencedVal tree vm
        loadSpawns n file tree vm

def loadMapTile (mapId tileX tileY : Nat) (tree : StaticMapTree) (vm : VMapManager2) :
    Bool × StaticMapTree × VMapManager2 :=
  let setTile (loaded : Bool) (tree : StaticMapTree) : StaticMapTree :=
    { tree with iLoadedTiles := tree.iLoadedTiles.insert (packTileID tileX tileY) loaded }
  if !tree.iIsTiled then (true,setTile false tree,vm)
  else if !tree.hasTreeValues then (false,tree,vm)
  else
    match files.tileFile mapId tileX tileY with
    | none => (true,setTile false tree,vm)
    | some file =>
      match readTileHeader file with
      | none => (false,setTile true tree,vm)
      | some (numSpawns,file) =>
        let (result,tree,vm) := loadSpawns files numSpawns file tree vm
        (result,setTile true tree,vm)

/-- What `UnloadMapTile` does with the number that it reads after a spawn. -/
def unloadReference (referencedNode : Nat) (tree : StaticMapTree) (vm : VMapManager2) :
    StaticMapTree × VMapManager2 :=
  match tree.iLoadedSpawns.find? referencedNode with
  | none => (tree,vm)
  | some refCount =>
    if refCount-1 = 0 then
      let (tree,vm) :=
        setTreeValue referencedNode (tree.iTreeValues referencedNode).setUnloaded tree vm
      ({ tree with iLoadedSpawns := tree.iLoadedSpawns.erase referencedNode },vm)
    else
      ({ tree with iLoadedSpawns := tree.iLoadedSpawns.insert referencedNode (refCount-1) },vm)

def unloadTileSpawns : Nat → File → StaticMapTree → VMapManager2 → StaticMapTree × VMapManager2
  | 0, _, tree, vm => (tree,vm)
  | n+1, file, tree, vm =>
    match readModelSpawn file with
    | none => (tree,vm)
    | some (name,file) =>
      let vm := releaseModelInstance name vm
      let (referencedNode,file) := freadUInt32 file
      match referencedNode with
      | none => (tree,vm)
      | some referencedNode =>
        let (tree,vm) := unloadReference referencedNode tree vm
        unloadTileSpawns n file tree vm

def unloadMapTile (mapId tileX tileY : Nat) (tree : StaticMapTree) (vm : VMapManager2) :
    StaticMapTree × VMapManager2 :=
  let tileID := packTileID tileX tileY
  match tree.iLoadedTiles.find? tileID with
  | none => (tree,vm)
  | some hasFile =>
    let file := if hasFile then (files.tileFile mapId tileX tileY).bind readTileHeader else none
    let (tree,vm) := match file with
      | none => (tree,vm)
      | some (numSpawns,file) => unloadTileSpawns numSpawns file tree vm
    ({ tree with iLoadedTiles := tree.iLoadedTiles.erase tileID },vm)

def keepTree (mapId : Nat) (tree : StaticMapTree) (vm : VMapManager2) : VMapManager2 :=
  if tree.iLoadedTiles.size = 0 then
    { vm with iInstanceMapTrees := vm.iInstanceMapTrees.erase mapId }
  else { vm with iInstanceMapTrees := vm.iInstanceMapTrees.insert mapId tree }

def loadMapTiles (mapId tileX tileY : Nat) (vm : VMapManager2) : Bool × VMapManager2 :=
  let (found,tree,vm) := match vm.iInstanceMapTrees.find? mapId with
    | some tree => (true,tree,vm)
    | none => initMap files mapId vm
  if !found then (false,vm)
  else
    let (result,tree,vm) := loadMapTile files mapId tileX tileY tree vm
    (result,{ vm with iInstanceMapTrees := vm.iInstanceMapTrees.insert mapId tree })

inductive LoadResult where
  | error
  | ok
  | ignored
  deriving DecidableEq, Repr

def loadMap (mapId tileX tileY : Nat) (vm : VMapManager2) : LoadResult × VMapManager2 :=
  if vm.isMapLoadingEnabled then
    let (result,vm) := loadMapTiles files mapId tileX tileY vm
    (if result then .ok else .error,vm)
  else (.ignored,vm)

def unloadMap (mapId : Nat) (vm : VMapManager2) : VMapManager2 :=
  match vm.iInstanceMapTrees.find? mapId with
  | none => vm
  | some tree =>
    let (tree,vm) := unloadTree tree vm
    keepTree mapId tree vm

def unloadMapOfTile (mapId tileX tileY : Nat) (vm : VMapManager2) : VMapManager2 :=
  match vm.iInstanceMapTrees.find? mapId with
  | none => vm
  | some tree =>
    let (tree,vm) := unloadMapTile files mapId tileX tileY tree vm
    keepTree mapId tree vm

inductive Action where
  | loadMap (mapId tileX tileY : Nat)
  | unloadMap (mapId : Nat)
  | unloadTile (mapId tileX tileY : Nat)
  deriving DecidableEq, Repr

def step (vm : VMapManager2) : Action → VMapManager2
  | .loadMap mapId tileX tileY => (loadMap files mapId tileX tileY vm).2
  | .unloadMap mapId => unloadMap mapId vm
  | .unloadTile mapId tileX tileY => unloadMapOfTile files mapId tileX tileY vm

end Operations

end TrinityCore.Collision
