import TrinityCore.Collision.References

set_option autoImplicit false

namespace TrinityCore.Collision

section Manager

variable {files : Files} {vm vm' : VMapManager2} {mapId tileX tileY : Nat}
  {tree tree' : StaticMapTree} {models models' : RefPool.Pool Name}

structure Good (files : Files) (mapId : Nat) (tree : StaticMapTree)
    (models : RefPool.Pool Name) : Prop where
  referenced : Referenced files (treeRecords files mapId tree) tree models
  hasTreeValues : tree.hasTreeValues = true
  untiled : tree.iIsTiled = false → ∀ tileID loaded,
    tree.iLoadedTiles.find? tileID = some loaded → loaded = false

structure Inv (files : Files) (vm : VMapManager2) : Prop where
  inBounds : vm.outOfBounds = false
  holds : RefPool.Holds files.readModel (acquired files (loadedRecords files vm))
    vm.iLoadedModelFiles
  good : ∀ mapId tree, vm.iInstanceMapTrees.find? mapId = some tree →
    Good files mapId tree vm.iLoadedModelFiles
  tiles : ∀ mapId tree, vm.iInstanceMapTrees.find? mapId = some tree → tree.iLoadedTiles.size ≠ 0

theorem Inv.sound (h : Inv files vm) : Sound files vm where
  inBounds := h.inBounds
  refCount := by
    intro name
    cases hs : vm.iLoadedModelFiles.shared name with
    | none => exact ((h.holds.open_iff name).mp hs).symm
    | some s => exact h.holds.refCount name s hs
  kept := fun mapId tree i model htree hi hmodel =>
    ((h.good mapId tree htree).referenced.values i model hi hmodel).2
  tiles := h.tiles

def otherRecords (files : Files) (mapId : Nat) (vm : VMapManager2) : List Record :=
  (vm.iInstanceMapTrees.erase mapId).collect (treeRecords files)

theorem loadedRecords_find (h : vm.iInstanceMapTrees.find? mapId = some tree) :
    (loadedRecords files vm).Perm (otherRecords files mapId vm ++ treeRecords files mapId tree) :=
  (OrderedMap.perm_collect_erase h).trans List.perm_append_comm

theorem loadedRecords_none (h : vm.iInstanceMapTrees.find? mapId = none) :
    loadedRecords files vm = otherRecords files mapId vm := by
  rw [loadedRecords,otherRecords,OrderedMap.erase_eq_self h]

/-- What holds of the models still where the tree of one map has changed. -/
structure Changed (files : Files) (mapId : Nat) (vm : VMapManager2) (rs : List Record)
    (vm' : VMapManager2) : Prop where
  outOfBounds : vm'.outOfBounds = vm.outOfBounds
  trees : vm'.iInstanceMapTrees = vm.iInstanceMapTrees
  holds : RefPool.Holds files.readModel
    (fun name => acquired files (otherRecords files mapId vm) name+acquired files rs name)
    vm'.iLoadedModelFiles
  kept : ∀ name s, vm.iLoadedModelFiles.shared name = some s →
    0 < acquired files (otherRecords files mapId vm) name →
    ∃ s', vm'.iLoadedModelFiles.shared name = some s' ∧ s'.id = s.id

theorem Inv.other (h : Inv files vm) {rs : List Record} (hchanged : Changed files mapId vm rs vm')
    {mapId' : Nat} (hne : mapId' ≠ mapId) (hfind : vm.iInstanceMapTrees.find? mapId' = some tree) :
    Good files mapId' tree vm'.iLoadedModelFiles := by
  obtain ⟨hreferenced,hhas,huntiled⟩ := h.good mapId' tree hfind
  refine ⟨hreferenced.keep h.holds.opens fun name s hs hpos => hchanged.kept name s hs ?_,hhas,
    huntiled⟩
  obtain ⟨hread,r,hr,hname⟩ := acquired_pos.mp hpos
  refine acquired_pos.mpr ⟨hread,r,OrderedMap.mem_collect.mpr ⟨mapId',tree,?_,hr⟩,hname⟩
  rw [OrderedMap.find?_erase,if_neg hne,hfind]

theorem Inv.insertTree (h : Inv files vm)
    (hchanged : Changed files mapId vm (treeRecords files mapId tree) vm')
    (hgood : Good files mapId tree vm'.iLoadedModelFiles) (htiles : tree.iLoadedTiles.size ≠ 0) :
    Inv files { vm' with iInstanceMapTrees := vm'.iInstanceMapTrees.insert mapId tree } where
  inBounds := hchanged.outOfBounds.trans h.inBounds
  holds := by
    refine hchanged.holds.congr fun name => ?_
    rw [loadedRecords,acquired_perm OrderedMap.perm_collect_insert,acquired_append,add_comm,
      hchanged.trees]
    rfl
  good := by
    intro mapId' tree' hfind
    rw [OrderedMap.find?_insert] at hfind
    split_ifs at hfind with hmap
    · obtain rfl := Option.some.inj hfind
      rw [hmap]
      exact hgood
    · exact h.other hchanged hmap (hchanged.trees ▸ hfind)
  tiles := by
    intro mapId' tree' hfind
    rw [OrderedMap.find?_insert] at hfind
    split_ifs at hfind with hmap
    · obtain rfl := Option.some.inj hfind
      exact htiles
    · exact h.tiles mapId' tree' (hchanged.trees ▸ hfind)

theorem Inv.eraseTree (h : Inv files vm) (hchanged : Changed files mapId vm [] vm') :
    Inv files { vm' with iInstanceMapTrees := vm'.iInstanceMapTrees.erase mapId } where
  inBounds := hchanged.outOfBounds.trans h.inBounds
  holds := by
    refine hchanged.holds.congr fun name => ?_
    rw [loadedRecords,hchanged.trees]
    rfl
  good := by
    intro mapId' tree' hfind
    rw [OrderedMap.find?_erase] at hfind
    split_ifs at hfind with hmap
    exact h.other hchanged hmap (hchanged.trees ▸ hfind)
  tiles := by
    intro mapId' tree' hfind
    rw [OrderedMap.find?_erase] at hfind
    split_ifs at hfind with hmap
    exact h.tiles mapId' tree' (hchanged.trees ▸ hfind)

theorem Inv.keepTree (h : Inv files vm)
    (hchanged : Changed files mapId vm (treeRecords files mapId tree) vm')
    (hgood : Good files mapId tree vm'.iLoadedModelFiles)
    (hlast : tree.iLoadedTiles.size = 0 → treeRecords files mapId tree = []) :
    Inv files (keepTree mapId tree vm') := by
  unfold Collision.keepTree
  split_ifs with hsize
  · rw [hlast hsize] at hchanged
    exact h.eraseTree hchanged
  · exact h.insertTree hchanged hgood hsize

theorem packTileID_eq (hx : tileX < 2^16) (hy : tileY < 2^16) :
    packTileID tileX tileY = tileX*2^16+tileY := by
  unfold packTileID
  rw [← Nat.shiftLeft_add_eq_or_of_lt hy,Nat.shiftLeft_eq,Nat.mod_eq_of_lt (by omega)]

theorem recordsOfTile_packTileID (files : Files) (mapId : Nat) (hx : tileX < 2^16)
    (hy : tileY < 2^16) :
    recordsOfTile files mapId (packTileID tileX tileY) = tileRecords files mapId tileX tileY := by
  unfold recordsOfTile
  rw [packTileID_eq hx hy,show (tileX*2^16+tileY)/2^16 = tileX by omega,
    show (tileX*2^16+tileY) % 2^16 = tileY by omega]

theorem treeRecords_insert (htiled : tree.iIsTiled = true) {tileID : Nat} {loaded : Bool}
    (htile : tree.iLoadedTiles.find? tileID = none)
    (hsame : tree'.iIsTiled = tree.iIsTiled ∧
      tree'.iLoadedTiles = tree.iLoadedTiles.insert tileID loaded) :
    (treeRecords files mapId tree').Perm
      ((if loaded then recordsOfTile files mapId tileID else []) ++ treeRecords files mapId tree) := by
  rw [treeRecords,treeRecords,if_pos htiled,if_pos (hsame.1.trans htiled),hsame.2]
  have hperm := OrderedMap.perm_collect_insert (m := tree.iLoadedTiles) (k := tileID)
    (v := loaded) (f := fun tileID loaded =>
      if loaded then recordsOfTile files mapId tileID else [])
  rwa [OrderedMap.erase_eq_self htile] at hperm

theorem treeRecords_erase (htiled : tree.iIsTiled = true) {tileID : Nat} {loaded : Bool}
    (htile : tree.iLoadedTiles.find? tileID = some loaded)
    (hsame : tree'.iIsTiled = tree.iIsTiled ∧
      tree'.iLoadedTiles = tree.iLoadedTiles.erase tileID) :
    (treeRecords files mapId tree).Perm
      ((if loaded then recordsOfTile files mapId tileID else []) ++
        treeRecords files mapId tree') := by
  rw [treeRecords,treeRecords,if_pos htiled,if_pos (hsame.1.trans htiled),hsame.2]
  exact OrderedMap.perm_collect_erase htile

theorem loadMapTile_eq (files : Files) (vm : VMapManager2) (mapId tileX tileY : Nat)
    (htiled : tree.iIsTiled = true) (hhas : tree.hasTreeValues = true) :
    ∃ loaded, (loaded = false → tileRecords files mapId tileX tileY = []) ∧
      (loadMapTile files mapId tileX tileY tree vm).2 =
        ({ ((tileRecords files mapId tileX tileY).foldl (loadRecord files) (tree,vm)).1 with
            iLoadedTiles := ((tileRecords files mapId tileX tileY).foldl
              (loadRecord files) (tree,vm)).1.iLoadedTiles.insert (packTileID tileX tileY) loaded },
          ((tileRecords files mapId tileX tileY).foldl (loadRecord files) (tree,vm)).2) := by
  obtain ⟨isTiled,hasTreeValues,values,n,tiles,spawns⟩ := tree
  obtain rfl : isTiled = true := htiled
  obtain rfl : hasTreeValues = true := hhas
  unfold loadMapTile tileRecords
  cases files.tileFile mapId tileX tileY with
  | none => exact ⟨false,fun _ => rfl,rfl⟩
  | some file =>
    refine ⟨true,fun hfalse => (nomatch hfalse),?_⟩
    cases hheader : readTileHeader file with
    | none => simp [hheader]
    | some header =>
      have hloop := loadSpawns_eq files header.1 header.2 ⟨true,true,values,n,tiles,spawns⟩ vm
      simp [hheader,← hloop]

theorem Good.loadMapTile (others : Name → Nat) (h : Good files mapId tree vm.iLoadedModelFiles)
    (hholds : RefPool.Holds files.readModel
      (fun name => others name+acquired files (treeRecords files mapId tree) name)
      vm.iLoadedModelFiles)
    (hx : tileX < 2^16) (hy : tileY < 2^16)
    (htile : tree.iLoadedTiles.find? (packTileID tileX tileY) = none)
    (hok : tree.iIsTiled = true → TileOk files tree.iNTreeValues (treeRecords files mapId tree)
      (tileRecords files mapId tileX tileY)) :
    Good files mapId (loadMapTile files mapId tileX tileY tree vm).2.1
        (loadMapTile files mapId tileX tileY tree vm).2.2.iLoadedModelFiles ∧
      RefPool.Holds files.readModel (fun name => others name+acquired files
        (treeRecords files mapId (loadMapTile files mapId tileX tileY tree vm).2.1) name)
        (loadMapTile files mapId tileX tileY tree vm).2.2.iLoadedModelFiles ∧
      RefPool.Kept vm.iLoadedModelFiles
        (loadMapTile files mapId tileX tileY tree vm).2.2.iLoadedModelFiles ∧
      (loadMapTile files mapId tileX tileY tree vm).2.1.iLoadedTiles.size ≠ 0 ∧
      (loadMapTile files mapId tileX tileY tree vm).2.2.iInstanceMapTrees = vm.iInstanceMapTrees ∧
      (loadMapTile files mapId tileX tileY tree vm).2.2.outOfBounds = vm.outOfBounds := by
  have hsize : ∀ loaded, (tree.iLoadedTiles.insert (packTileID tileX tileY) loaded).size ≠ 0 := by
    intro loaded
    rw [OrderedMap.size_insert fun hmem => ?_]
    · omega
    · obtain ⟨loaded',hfind⟩ := OrderedMap.mem_keys.mp hmem
      rw [htile] at hfind
      cases hfind
  cases htiled : tree.iIsTiled with
  | false =>
    have hrun : (Collision.loadMapTile files mapId tileX tileY tree vm).2 = ({ tree with
        iLoadedTiles := tree.iLoadedTiles.insert (packTileID tileX tileY) false },vm) := by
      simp [Collision.loadMapTile,htiled]
    have hrecords : treeRecords files mapId { tree with
        iLoadedTiles := tree.iLoadedTiles.insert (packTileID tileX tileY) false } =
        treeRecords files mapId tree := by
      rw [treeRecords,treeRecords,htiled]
      rfl
    rw [hrun]
    refine ⟨⟨?_,h.hasTreeValues,fun _ tileID loaded hfind => ?_⟩,?_,.refl _,hsize false,rfl,rfl⟩
    · dsimp only
      rw [hrecords]
      exact ⟨h.referenced.spawns,h.referenced.names,h.referenced.values⟩
    · dsimp only at hfind
      rw [OrderedMap.find?_insert] at hfind
      split_ifs at hfind
      · exact (Option.some.inj hfind).symm
      · exact h.untiled htiled tileID loaded hfind
    · dsimp only
      rw [hrecords]
      exact hholds
  | true =>
    obtain ⟨loaded,hnone,hrun⟩ := loadMapTile_eq files vm mapId tileX tileY htiled
      h.hasTreeValues
    obtain ⟨hreferenced,hholds',hkept,hframed⟩ := h.referenced.loadRecords hholds (hok htiled)
    rw [hrun]
    generalize (tileRecords files mapId tileX tileY).foldl (loadRecord files) (tree,vm) = s
      at hreferenced hholds' hkept hframed ⊢
    have hperm : (treeRecords files mapId { s.1 with
        iLoadedTiles := s.1.iLoadedTiles.insert (packTileID tileX tileY) loaded }).Perm
        (tileRecords files mapId tileX tileY ++ treeRecords files mapId tree) := by
      have hinsert : (treeRecords files mapId { s.1 with
          iLoadedTiles := s.1.iLoadedTiles.insert (packTileID tileX tileY) loaded }).Perm
          ((if loaded then recordsOfTile files mapId (packTileID tileX tileY) else []) ++
            treeRecords files mapId tree) :=
        treeRecords_insert htiled htile ⟨hframed.isTiled,by rw [hframed.loadedTiles]⟩
      refine hinsert.trans (.of_eq ?_)
      rw [recordsOfTile_packTileID files mapId hx hy]
      cases loaded with
      | false => rw [hnone rfl,if_neg Bool.false_ne_true]
      | true => rw [if_pos rfl]
    refine ⟨⟨?_,hframed.hasTreeValues.trans h.hasTreeValues,fun huntiled => ?_⟩,
      hholds'.congr fun name => by rw [acquired_perm hperm],hkept,?_,hframed.trees,
      hframed.outOfBounds⟩
    · exact Referenced.perm ⟨hreferenced.spawns,hreferenced.names,hreferenced.values⟩ hperm.symm
    · have hyes : s.1.iIsTiled = true := hframed.isTiled.trans htiled
      rw [show s.1.iIsTiled = false from huntiled] at hyes
      cases hyes
    · dsimp only
      rw [hframed.loadedTiles]
      exact hsize loaded

theorem unloadMapTile_eq {hasFile : Bool}
    (htile : tree.iLoadedTiles.find? (packTileID tileX tileY) = some hasFile) :
    unloadMapTile files mapId tileX tileY tree vm =
      ({ ((if hasFile then tileRecords files mapId tileX tileY else []).foldl
            unloadRecord (tree,vm)).1 with
          iLoadedTiles := ((if hasFile then tileRecords files mapId tileX tileY else []).foldl
            unloadRecord (tree,vm)).1.iLoadedTiles.erase (packTileID tileX tileY) },
        ((if hasFile then tileRecords files mapId tileX tileY else []).foldl
          unloadRecord (tree,vm)).2) := by
  unfold unloadMapTile tileRecords
  dsimp only
  rw [htile]
  cases hasFile with
  | false => rfl
  | true =>
    dsimp only
    rw [if_pos rfl,if_pos rfl]
    cases (files.tileFile mapId tileX tileY).bind readTileHeader with
    | none => rfl
    | some header =>
      dsimp only
      rw [unloadTileSpawns_eq]

theorem Good.unloadMapTile (others : Name → Nat) (h : Good files mapId tree vm.iLoadedModelFiles)
    (hholds : RefPool.Holds files.readModel
      (fun name => others name+acquired files (treeRecords files mapId tree) name)
      vm.iLoadedModelFiles)
    (hx : tileX < 2^16) (hy : tileY < 2^16) :
    Good files mapId (unloadMapTile files mapId tileX tileY tree vm).1
        (unloadMapTile files mapId tileX tileY tree vm).2.iLoadedModelFiles ∧
      RefPool.Holds files.readModel (fun name => others name+acquired files
        (treeRecords files mapId (unloadMapTile files mapId tileX tileY tree vm).1) name)
        (unloadMapTile files mapId tileX tileY tree vm).2.iLoadedModelFiles ∧
      RefPool.Kept (unloadMapTile files mapId tileX tileY tree vm).2.iLoadedModelFiles
        vm.iLoadedModelFiles ∧
      Framed ({ tree with iLoadedTiles := tree.iLoadedTiles.erase (packTileID tileX tileY) },vm)
        (unloadMapTile files mapId tileX tileY tree vm) := by
  cases htile : tree.iLoadedTiles.find? (packTileID tileX tileY) with
  | none =>
    have hrun : Collision.unloadMapTile files mapId tileX tileY tree vm = (tree,vm) := by
      simp [Collision.unloadMapTile,htile]
    rw [hrun]
    exact ⟨h,hholds,.refl _,rfl,rfl,rfl,(OrderedMap.erase_eq_self htile).symm,rfl,rfl⟩
  | some hasFile =>
    rw [unloadMapTile_eq htile]
    rcases Bool.dichotomy tree.iIsTiled with htiled | htiled
    · obtain rfl := h.untiled htiled _ _ htile
      have hrecords : treeRecords files mapId { tree with
          iLoadedTiles := tree.iLoadedTiles.erase (packTileID tileX tileY) } =
          treeRecords files mapId tree := by
        rw [treeRecords,treeRecords,htiled]
        rfl
      rw [if_neg Bool.false_ne_true]
      refine ⟨⟨?_,h.hasTreeValues,fun _ tileID loaded hfind => ?_⟩,?_,.refl _,rfl,rfl,rfl,rfl,rfl,
        rfl⟩
      · dsimp only [List.foldl_nil]
        rw [hrecords]
        exact ⟨h.referenced.spawns,h.referenced.names,h.referenced.values⟩
      · dsimp only [List.foldl_nil] at hfind
        rw [OrderedMap.find?_erase] at hfind
        split_ifs at hfind
        exact h.untiled htiled tileID loaded hfind
      · dsimp only [List.foldl_nil]
        rw [hrecords]
        exact hholds
    · rw [← recordsOfTile_packTileID files mapId hx hy]
      generalize hrs : (if hasFile then recordsOfTile files mapId (packTileID tileX tileY) else []) =
        rs
      have hall : (treeRecords files mapId tree).Perm
          ((if hasFile then recordsOfTile files mapId (packTileID tileX tileY) else []) ++
            treeRecords files mapId { tree with
              iLoadedTiles := tree.iLoadedTiles.erase (packTileID tileX tileY) }) :=
        treeRecords_erase htiled htile ⟨rfl,rfl⟩
      rw [hrs] at hall
      obtain ⟨hreferenced,hholds',hkept,hframed⟩ := Referenced.unloadRecords
        (h.referenced.perm hall) (hholds.congr fun name => by rw [acquired_perm hall])
      generalize rs.foldl unloadRecord (tree,vm) = s at hreferenced hholds' hkept hframed ⊢
      have hrecords : treeRecords files mapId { s.1 with
          iLoadedTiles := s.1.iLoadedTiles.erase (packTileID tileX tileY) } =
          treeRecords files mapId { tree with
            iLoadedTiles := tree.iLoadedTiles.erase (packTileID tileX tileY) } := by
        rw [treeRecords,treeRecords,hframed.isTiled,hframed.loadedTiles]
      refine ⟨⟨?_,hframed.hasTreeValues.trans h.hasTreeValues,fun huntiled => ?_⟩,?_,hkept,
        hframed.isTiled,hframed.hasTreeValues,hframed.nTreeValues,?_,hframed.trees,
        hframed.outOfBounds⟩
      · rw [hrecords]
        exact ⟨hreferenced.spawns,hreferenced.names,hreferenced.values⟩
      · have hyes : s.1.iIsTiled = true := hframed.isTiled.trans htiled
        rw [show s.1.iIsTiled = false from huntiled] at hyes
        cases hyes
      · rw [hrecords]
        exact hholds'
      · exact congrArg (OrderedMap.erase · (packTileID tileX tileY)) hframed.loadedTiles

theorem referenced_nil (hspawns : tree.iLoadedSpawns = .empty)
    (hvalues : ∀ n, (tree.iTreeValues n).iModel = none) : Referenced files [] tree models where
  spawns := by
    intro n
    rw [hspawns,OrderedMap.find?_empty,if_neg (fun hbad => absurd hbad.2 (lt_irrefl 0))]
  names := by
    intro n _ r hr
    cases hr
  values := by
    intro n id _ hid
    rw [hvalues n] at hid
    cases hid

theorem hasTree_of_success (file : File) :
    (readMapHeader file).success = true → (readMapHeader file).primCount.isSome = true := by
  unfold readMapHeader
  dsimp only
  split
  · exact fun h => nomatch h
  · split
    · exact fun h => nomatch h
    · split
      · exact fun h => nomatch h
      · split
        · exact fun h => nomatch h
        · exact fun _ => rfl

theorem globalRecords_eq {file : File} (hfile : files.mapFile mapId = some file) :
    globalRecords files mapId = match readModelSpawn (readMapHeader file).rest with
      | none => []
      | some (name,_) => if files.readModel name then [⟨name,some 0⟩] else [] := by
  rw [globalRecords,hfile]
  rfl

theorem referenced_global {name : Name} {id : Nat} (htree : 0 < tree.iNTreeValues)
    (hspawns : tree.iLoadedSpawns = OrderedMap.empty.insert 0 1)
    (hvalues : tree.iTreeValues = Function.update (fun _ => ⟨[],none⟩) 0 ⟨name,some id⟩)
    (hmodel : ∃ s, models.shared name = some s ∧ s.id = id) :
    Referenced files [⟨name,some 0⟩] tree models where
  spawns := by
    intro n
    rw [hspawns,OrderedMap.find?_insert,OrderedMap.find?_empty,nodeCount_cons]
    by_cases hn : n = 0
    · subst hn
      simp [nodeCount,htree]
    · simp [nodeCount,hn,Ne.symm hn]
  names := by
    intro n _ r hr hnode
    obtain rfl := List.mem_singleton.mp hr
    obtain rfl : 0 = n := Option.some.inj hnode
    rw [hvalues,Function.update_self]
  values := by
    intro n id' _ hid
    rw [hvalues] at hid ⊢
    by_cases hn : n = 0
    · subst hn
      rw [Function.update_self] at hid ⊢
      obtain rfl := Option.some.inj hid
      exact ⟨nodeCount_pos.mpr ⟨_,List.mem_cons_self,rfl⟩,hmodel⟩
    · rw [Function.update_of_ne hn] at hid
      cases hid

theorem Inv.initMap (h : Inv files vm) (hnone : vm.iInstanceMapTrees.find? mapId = none)
    (hok : InitOk files mapId tileX tileY) :
    ((initMap files mapId vm).1 = false ∧ (initMap files mapId vm).2.2 = vm) ∨
    ((initMap files mapId vm).1 = true ∧
      Good files mapId (initMap files mapId vm).2.1 (initMap files mapId vm).2.2.iLoadedModelFiles ∧
      Changed files mapId vm (treeRecords files mapId (initMap files mapId vm).2.1)
        (initMap files mapId vm).2.2 ∧
      (initMap files mapId vm).2.1.iLoadedTiles = .empty ∧
      ((initMap files mapId vm).2.1.iIsTiled = true →
        TileOk files (initMap files mapId vm).2.1.iNTreeValues
          (treeRecords files mapId (initMap files mapId vm).2.1)
          (tileRecords files mapId tileX tileY))) := by
  have hholds := h.holds
  rw [loadedRecords_none hnone] at hholds
  unfold Collision.initMap
  cases hfile : files.mapFile mapId with
  | none => exact .inl ⟨rfl,rfl⟩
  | some file =>
    have hok := hok (readMapHeader file) (by rw [hfile]; rfl)
    rw [globalRecords_eq hfile] at hok
    have hglobal : ∀ tree : StaticMapTree, tree.iIsTiled = false →
        treeRecords files mapId tree = _ := fun tree huntiled => by
      rw [treeRecords,huntiled,if_neg Bool.false_ne_true,globalRecords_eq hfile]
    have hhas := hasTree_of_success file
    dsimp only [Option.map_some]
    generalize readMapHeader file = header at hok hglobal hhas ⊢
    -- nothing is acquired for a tree without a global model
    have hempty : ∀ tree : StaticMapTree, tree.hasTreeValues = header.primCount.isSome →
        tree.iLoadedTiles = .empty → tree.iLoadedSpawns = .empty →
        (∀ n, (tree.iTreeValues n).iModel = none) → treeRecords files mapId tree = [] →
        header.success = true → Good files mapId tree vm.iLoadedModelFiles ∧
          Changed files mapId vm (treeRecords files mapId tree) vm := by
      intro tree hvalues htiles hspawns hmodels hrecords hsuccess
      rw [hrecords]
      refine ⟨⟨?_,hvalues.trans (hhas hsuccess),fun _ tileID loaded hfind => ?_⟩,rfl,rfl,hholds,
        fun name s hs _ => ⟨s,hs,rfl⟩⟩
      · rw [hrecords]
        exact referenced_nil hspawns hmodels
      · rw [htiles] at hfind
        cases hfind
    rcases Bool.dichotomy header.tiled with htiled | htiled
    · rw [if_neg (by simp [htiled])] at hok ⊢
      cases hspawn : readModelSpawn header.rest with
      | none =>
        rcases Bool.dichotomy header.success with hsuccess | hsuccess
        · exact .inl ⟨hsuccess,rfl⟩
        · obtain ⟨hgood,hchanged⟩ := hempty ⟨header.tiled,header.primCount.isSome,
            fun _ => ⟨[],none⟩,header.primCount.getD 0,.empty,.empty⟩ rfl rfl rfl (fun _ => rfl)
            (by rw [hglobal _ htiled,hspawn]) hsuccess
          refine .inr ⟨hsuccess,hgood,hchanged,rfl,fun hyes => ?_⟩
          rw [show header.tiled = true from hyes] at htiled
          cases htiled
      | some spawn =>
        obtain ⟨name,rest⟩ := spawn
        dsimp only [acquireModelInstance]
        rw [hspawn] at hok
        cases hmodel : (RefPool.acquire files.readModel name vm.iLoadedModelFiles).1 with
        | none =>
          refine .inl ⟨rfl,?_⟩
          rw [RefPool.acquire_of_none hmodel]
        | some model =>
          have hread : files.readModel name = true := by
            by_contra hnot
            rw [(RefPool.acquire_eq_none hholds).mpr (by simpa using hnot)] at hmodel
            cases hmodel
          dsimp only at hok
          rw [if_pos hread] at hok
          obtain ⟨hsuccess,hpos⟩ := hok.resolve_left (List.cons_ne_nil _ _)
          have hrecords : ∀ tree : StaticMapTree, tree.iIsTiled = false →
              treeRecords files mapId tree = [⟨name,some 0⟩] := by
            intro tree huntiled
            rw [hglobal tree huntiled,hspawn]
            exact if_pos hread
          refine .inr ⟨hsuccess,⟨?_,hhas hsuccess,fun _ tileID loaded hfind => ?_⟩,?_,rfl,
            fun hyes => ?_⟩
          · rw [hrecords _ htiled]
            exact referenced_global hpos rfl rfl (RefPool.acquire_eq_some hmodel)
          · cases hfind
          · rw [hrecords _ htiled]
            refine ⟨?_,rfl,(hholds.acquire name).congr fun name' => ?_,fun name' s hs _ =>
              RefPool.kept_acquire files.readModel name vm.iLoadedModelFiles name' s hs⟩
            · simp [setTreeValue,Nat.ne_of_gt hpos]
            · rw [acquired_cons]
              simp [acquired]
          · rw [show header.tiled = true from hyes] at htiled
            cases htiled
    · rw [if_pos htiled] at hok ⊢
      rcases Bool.dichotomy header.success with hsuccess | hsuccess
      · exact .inl ⟨hsuccess,rfl⟩
      · have hrecords : treeRecords files mapId ⟨header.tiled,header.primCount.isSome,
            fun _ => ⟨[],none⟩,header.primCount.getD 0,.empty,.empty⟩ = [] := if_pos htiled
        obtain ⟨hgood,hchanged⟩ := hempty ⟨header.tiled,header.primCount.isSome,
          fun _ => ⟨[],none⟩,header.primCount.getD 0,.empty,.empty⟩ rfl rfl rfl (fun _ => rfl)
          hrecords hsuccess
        refine .inr ⟨hsuccess,hgood,hchanged,rfl,fun _ => ?_⟩
        rw [hrecords]
        exact hok hsuccess

theorem Inv.loadMap (h : Inv files vm) (hok : Ok files vm (.loadMap mapId tileX tileY)) :
    Inv files (loadMap files mapId tileX tileY vm).2 := by
  obtain ⟨⟨⟨hx,hy⟩,hfresh⟩,-,hinit,hok⟩ := hok
  unfold Collision.loadMap
  split_ifs
  swap
  · exact h
  unfold loadMapTiles
  dsimp only
  cases hfind : vm.iInstanceMapTrees.find? mapId with
  | some tree =>
    rw [hfind] at hfresh
    dsimp only
    have hgood := h.good mapId tree hfind
    obtain ⟨hgood',hholds,hkept,htiles,htrees,hbounds⟩ := hgood.loadMapTile
      (acquired files (otherRecords files mapId vm))
      (h.holds.congr fun name => by rw [acquired_perm (loadedRecords_find hfind),acquired_append])
      hx hy hfresh (hok tree hfind)
    exact h.insertTree ⟨hbounds,htrees,hholds,fun name s hs _ => hkept name s hs⟩ hgood' htiles
  | none =>
    dsimp only
    rcases h.initMap hfind (hinit (by rw [hfind]; rfl)) with
      ⟨hfailed,hsame⟩ | ⟨hloaded,hgood,hchanged,hempty,htile⟩
    · rw [hfailed]
      change Inv files (Collision.initMap files mapId vm).2.2
      rw [hsame]
      exact h
    · rw [hloaded]
      obtain ⟨hgood',hholds,hkept,htiles,htrees,hbounds⟩ := hgood.loadMapTile _ hchanged.holds hx hy
        (by rw [hempty,OrderedMap.find?_empty]) htile
      refine h.insertTree ⟨hbounds.trans hchanged.outOfBounds,htrees.trans hchanged.trees,hholds,
        fun name s hs hpos => ?_⟩ hgood' htiles
      obtain ⟨s',hs',hid⟩ := hchanged.kept name s hs hpos
      obtain ⟨s'',hs'',hid'⟩ := hkept name s' hs'
      exact ⟨s'',hs'',hid'.trans hid⟩

theorem Inv.unloadMap (h : Inv files vm) (hok : Ok files vm (.unloadMap mapId)) :
    Inv files (unloadMap mapId vm) := by
  unfold Collision.unloadMap
  cases hfind : vm.iInstanceMapTrees.find? mapId with
  | none => exact h
  | some tree =>
    dsimp only
    have hholds := h.holds.congr fun name => (acquired_perm (loadedRecords_find hfind)).trans
      acquired_append
    obtain ⟨hholds',hkept,hbounds,htrees,hsize⟩ :=
      unloadTree_spec (h.good mapId tree hfind).referenced hholds (hok.2.2 tree hfind)
    rw [Collision.keepTree,if_pos hsize]
    exact h.eraseTree ⟨hbounds,htrees,hholds',fun name s hs hpos => hkept.of_holds hholds' hs hpos⟩

theorem Inv.unloadTile (h : Inv files vm) (hok : Ok files vm (.unloadTile mapId tileX tileY)) :
    Inv files (unloadMapOfTile files mapId tileX tileY vm) := by
  obtain ⟨⟨hx,hy⟩,-,hok⟩ := hok
  unfold unloadMapOfTile
  cases hfind : vm.iInstanceMapTrees.find? mapId with
  | none => exact h
  | some tree =>
    dsimp only
    obtain ⟨hgood,hholds,hkept,hframed⟩ := (h.good mapId tree hfind).unloadMapTile
      (acquired files (otherRecords files mapId vm))
      (h.holds.congr fun name => by rw [acquired_perm (loadedRecords_find hfind),acquired_append])
      hx hy
    refine h.keepTree ⟨hframed.outOfBounds,hframed.trees,hholds,fun name s hs hpos =>
      hkept.of_holds hholds hs (Nat.add_pos_left hpos _)⟩ hgood fun hsize => ?_
    rw [treeRecords]
    split_ifs with htiled
    · have hentries := List.eq_nil_of_length_eq_zero hsize
      rw [OrderedMap.collect,hentries,List.flatMap_nil]
    · rw [hframed.isTiled] at htiled
      rw [hframed.loadedTiles] at hsize
      exact ((hok tree hfind).resolve_left htiled).resolve_right fun hne => hne hsize

theorem Inv.step (h : Inv files vm) (action : Action) (hok : Ok files vm action) :
    Inv files (step files vm action) := by
  cases action with
  | loadMap mapId tileX tileY => exact h.loadMap hok
  | unloadMap mapId => exact h.unloadMap hok
  | unloadTile mapId tileX tileY => exact h.unloadTile hok

theorem inv_initial (files : Files) : Inv files .initial where
  inBounds := rfl
  holds := RefPool.holds_empty _
  good := by
    intro mapId tree hfind
    cases hfind
  tiles := by
    intro mapId tree hfind
    cases hfind

end Manager

theorem Sound.not_dangling {files : Files} {vm : VMapManager2} (h : Sound files vm)
    (mapId i : Nat) : ((vm.iInstanceMapTrees.find? mapId).any fun tree =>
      i < tree.iNTreeValues && (tree.iTreeValues i).iModel.isSome &&
        (vm.iLoadedModelFiles.shared (tree.iTreeValues i).name).isNone) = false := by
  rw [Option.any_eq_false]
  intro tree htree
  cases hmodel : (tree.iTreeValues i).iModel with
  | none => simp
  | some model =>
    by_cases hi : i < tree.iNTreeValues
    · obtain ⟨managed,hmanaged,-⟩ := h.kept mapId tree i model htree hi hmodel
      simp [hmanaged]
    · simp [hi]

/-- As long as no action is one of those that go wrong, references are counted as they are held. -/
theorem sound_of_ok (files : Files) (actions : List Action)
    (h : Run.Guarded (step files) (Ok files) .initial actions) :
    Sound files (Run.exec (step files) .initial actions) :=
  (h.inv (fun _ action hinv hok => hinv.step action hok) (inv_initial files)).sound

section Examples

/-- A spawn without a bound, for a node. -/
def spawnBytes (name node : UInt8) : List UInt8 :=
  List.replicate 38 0 ++ [1,0,0,0,name] ++ [node,0,0,0]

def mapBytes (tiled : UInt8) : List UInt8 :=
  vmapMagic ++ [tiled] ++ nodeChunk ++ List.replicate 28 0 ++ [1,0,0,0] ++ [0,0,0,0] ++ gobjChunk

/-- The first map has tiles: two kinds with a spawn for its node, of different models, and one with
a spawn for the node behind it. Other maps have no tiles, but a global model. -/
def exampleFiles : Files where
  mapFile mapId := if mapId = 0 then some (mapBytes 1) else some (mapBytes 0 ++ spawnBytes 7 0)
  tileFile _ tileX _ := some (vmapMagic ++ [1,0,0,0] ++
    if tileX = 2 then spawnBytes 7 1 else spawnBytes (if tileX = 1 then 8 else 7) 0)
  readModel _ := true

def exampleRun : List Action :=
  [.loadMap 0 0 0,.loadMap 0 0 1,.unloadTile 0 0 0,.loadMap 1 0 0,.unloadMap 1]

theorem sound_of_ok_run : Sound exampleFiles (Run.exec (step exampleFiles) .initial exampleRun) :=
  sound_of_ok exampleFiles exampleRun (by decide +kernel)

def outOfBoundsRun : List Action := [.loadMap 0 2 0]

def leakingRun : List Action := [.loadMap 1 0 0,.unloadTile 1 0 0]

def danglingRun : List Action := [.loadMap 0 0 0,.loadMap 0 1 0,.unloadTile 0 0 0]

/-- A run that only loads tiles that are not loaded ends in a state that is not sound. -/
def Unsound (actions : List Action) : Prop :=
  Run.Guarded (step exampleFiles) Fresh .initial actions ∧
    ¬Sound exampleFiles (Run.exec (step exampleFiles) .initial actions)

/-- A node that is too large by one is written; a global model is never released; a tree value
keeps a model that goes with its tile. -/
theorem not_sound : Unsound outOfBoundsRun ∧ Unsound leakingRun ∧ Unsound danglingRun := by
  refine ⟨⟨by decide +kernel,fun h => ?_⟩,⟨by decide +kernel,fun h => ?_⟩,
    by decide +kernel,fun h => ?_⟩
  · have hout : (Run.exec (step exampleFiles) .initial outOfBoundsRun).outOfBounds = true := by
      decide +kernel
    rw [h.inBounds] at hout
    cases hout
  · exact absurd (h.refCount [7]) (by decide +kernel)
  · exact absurd (h.not_dangling 0 0) (by decide +kernel)

end Examples

end TrinityCore.Collision
