import TrinityCore.DungeonFinding.Data
import TrinityCore.Packets.RoundTrip

set_option autoImplicit false

namespace TrinityCore.Lfg

open Packets

structure JoinGroup where
  leaderGUID : UInt64
  membersCount : Nat
  isLFGGroup : Bool
  deriving DecidableEq

structure JoinSession where
  options : BitVec 32
  guid : UInt64
  group : Option JoinGroup
  deriving DecidableEq

def lfgOptionEnableDungeonFinder : BitVec 32 := 0x01
def lfgOptionEnableRaidBrowser : BitVec 32 := 0x02

/-- Neither tool is enabled, or the group of somebody else is full or not one of the finder. -/
def JoinSession.barred (s : JoinSession) : Bool :=
  s.options &&& (lfgOptionEnableDungeonFinder ||| lfgOptionEnableRaidBrowser) == 0 ||
    s.group.any fun g => g.leaderGUID != s.guid &&
      (g.membersCount == maxGroupSize || !g.isLFGGroup)

structure JoinCall where
  roles : UInt8
  dungeons : Finset UInt32
  comment : List UInt8
  deriving DecidableEq

section Handler

def dungeonId (dungeon : UInt32) : UInt32 := dungeon &&& 0x00FFFFFF

def rfinish : Read Unit := fun c => .ok () { c with pos := c.bytes.length }

def readSkip (skip : Nat) : Read Unit := fun c =>
  if c.pos+skip > c.bytes.length then .error (.position false c.pos skip c.bytes.length) c
  else .ok () (c.advance skip)

/-- The rounds of the loop from the `i`-th on. Every one takes four bytes. -/
def readDungeons (numDungeons : UInt8) : Nat → Int8 → Finset UInt32 → Read (Finset UInt32)
  | 0, _, newDungeons => pure newDungeons
  | n+1, i, newDungeons =>
    if i.toInt < numDungeons.toNat then do
      let dungeon ← readInt .uint32
      readDungeons numDungeons n (i+1) (insert (dungeonId dungeon) newDungeons)
    else pure newDungeons

def readDungeonSet (numDungeons : UInt8) : Read (Finset UInt32) := fun c =>
  readDungeons numDungeons (c.rest.length+1) 0 ∅ c

def handleLfgJoin (s : JoinSession) : Read (Option JoinCall) :=
  if s.barred then do
    rfinish
    pure none
  else do
    let roles ← readInt .uint32
    readSkip 2
    let numDungeons ← readInt .uint8
    if UInt8.toNat numDungeons = 0 then
      rfinish
      pure none
    else
      let newDungeons ← readDungeonSet numDungeons
      readSkip 4
      let comment ← readString
      pure (some ⟨UInt32.toUInt8 roles,newDungeons,comment⟩)

end Handler

def joinPacket (roles : UInt32) (skipped : UInt16) (dungeons : List UInt32) (tail : List UInt8) :
    Cursor UInt8 :=
  ⟨leBytes 4 roles.toNat ++ (leBytes 2 skipped.toNat ++ (UInt8.ofNat dungeons.length ::
    (dungeons.flatMap (fun dungeon => leBytes 4 dungeon.toNat) ++ tail))),0⟩

variable {c : Cursor UInt8} {code tail : List UInt8} {dungeons : List UInt32} {numDungeons : UInt8}

section Reading

theorem readSkip_eq {skip : Nat} (hpos : 0 < skip) (hroom : skip ≤ c.rest.length) :
    readSkip skip c = .ok () (c.advance skip) := by
  rw [Cursor.length_rest] at hroom
  unfold readSkip
  rw [if_neg (by omega)]

theorem readUInt32_eq {v : UInt32} (h : c.rest = leBytes 4 v.toNat ++ tail) :
    readInt .uint32 c = .ok v (c.advance 4) :=
  (robust_readInt .uint32 v).whole c tail h

theorem readUInt8_eq {v : UInt8} (h : c.rest = v :: tail) : readInt .uint8 c = .ok v (c.advance 1) :=
  (robust_readByte v).whole c tail h

theorem readString_eq (c : Cursor UInt8) :
    ∃ c', readString c = .ok (c.rest.takeWhile fun b => b ≠ 0) c' := by
  have hsplit := List.takeWhile_append_dropWhile (p := fun b : UInt8 => decide (b ≠ 0)) (l := c.rest)
  have hclean : (0 : UInt8) ∉ c.rest.takeWhile fun b => b ≠ 0 := fun hmem =>
    absurd (List.mem_takeWhile_imp hmem) (by decide)
  have hlength := c.length_rest
  have hstart : readString c = readStringLoop (c.bytes.length-c.pos) [] c := rfl
  obtain ⟨hzero,hend⟩ := readStringLoop_spec (n := c.bytes.length-c.pos)
    (c.rest.takeWhile fun b => b ≠ 0) [] c hclean
  have hsum := congrArg List.length hsplit
  rw [List.length_append] at hsum
  cases hdrop : c.rest.dropWhile fun b => b ≠ 0 with
  | nil =>
    rw [hdrop,List.append_nil] at hsplit
    exact ⟨_,by rw [hstart,hend hsplit.symm (by omega),List.nil_append]⟩
  | cons b rest =>
    have hb : b = 0 := by
      have hhead := List.head?_dropWhile_not (fun b : UInt8 => decide (b ≠ 0)) c.rest
      rw [hdrop] at hhead
      simpa using hhead
    rw [hdrop,List.length_cons] at hsum
    rw [hdrop,hb] at hsplit
    exact ⟨_,by rw [hstart,hzero rest hsplit.symm (by omega),List.nil_append]⟩

theorem length_entries (dungeons : List UInt32) :
    (dungeons.flatMap fun dungeon => leBytes 4 dungeon.toNat).length = 4*dungeons.length := by
  induction dungeons with
  | nil => rfl
  | cons dungeon dungeons ih =>
    rw [List.flatMap_cons,List.length_append,ih,length_leBytes,List.length_cons]
    omega

theorem readDungeons_eq {n : Nat} {i : Int8} {newDungeons : Finset UInt32}
    (hsmall : numDungeons.toNat ≤ 127) (hindex : 0 ≤ i.toInt)
    (hcount : i.toInt+dungeons.length = numDungeons.toNat) (hfuel : dungeons.length < n)
    (hrest : c.rest = dungeons.flatMap (fun dungeon => leBytes 4 dungeon.toNat) ++ tail) :
    readDungeons numDungeons n i newDungeons c =
      .ok (newDungeons ∪ (dungeons.map dungeonId).toFinset) (c.advance (4*dungeons.length)) := by
  induction dungeons generalizing c n i newDungeons with
  | nil =>
    rw [List.length_nil,Nat.cast_zero,add_zero] at hcount
    obtain ⟨n,rfl⟩ : ∃ k, n = k+1 := ⟨n-1,by simp at hfuel; omega⟩
    unfold readDungeons
    rw [if_neg (by omega)]
    simp [pure,EStateM.pure]
  | cons dungeon dungeons ih =>
    rw [List.length_cons] at hcount hfuel
    push_cast at hcount
    obtain ⟨n,rfl⟩ : ∃ k, n = k+1 := ⟨n-1,by omega⟩
    rw [List.flatMap_cons,List.append_assoc] at hrest
    have hnext : (i+1).toInt = i.toInt+1 := by
      rw [Int8.toInt_add,show (1 : Int8).toInt = 1 from rfl]
      refine Int.bmod_eq_of_le (by omega) (by omega)
    have hrest' := Cursor.rest_advance hrest
    rw [show (leBytes 4 dungeon.toNat).length = 4 from rfl] at hrest'
    unfold readDungeons
    rw [if_pos (by omega),Reader.bind_ok _ (readUInt32_eq hrest),
      ih (by omega) (by omega) (by omega) hrest',Cursor.advance_advance]
    rw [List.map_cons,List.toFinset_cons,Finset.insert_union,Finset.union_insert,List.length_cons,
      show 4+4*dungeons.length = 4*(dungeons.length+1) by omega]

/-- From 128 on the index never gets there, and the loop reads until the packet ends. -/
theorem readDungeons_large {n : Nat} {i : Int8} {newDungeons : Finset UInt32}
    (hlarge : 128 ≤ numDungeons.toNat) (hfuel : c.rest.length < n) :
    ∃ e c', readDungeons numDungeons n i newDungeons c = .error e c' := by
  induction n generalizing c i newDungeons with
  | zero => omega
  | succ n ih =>
    have hindex := i.toInt_lt
    unfold readDungeons
    rw [if_pos (by omega)]
    have hread : readInt .uint32 c = (readBytes 4 >>= fun bs => pure (IntTy.uint32.ofBits (leNat bs))) c :=
      rfl
    have hbytes := readBytes_eq 4 c
    split_ifs at hbytes with hroom
    · rw [Reader.bind_ok _ hbytes] at hread
      rw [Reader.bind_ok _ hread]
      refine ih ?_
      rw [Cursor.length_rest] at hfuel ⊢
      rw [Cursor.bytes_advance,Cursor.pos_advance]
      omega
    · rw [Reader.bind_error _ hbytes] at hread
      exact ⟨_,_,Reader.bind_error _ hread⟩

end Reading

section Join

variable {s : JoinSession} {roles : UInt32} {skipped : UInt16}

theorem handleLfgJoin_open (roles : UInt32) (skipped : UInt16) (tail : List UInt8)
    (hopen : s.barred = false) (hcount : dungeons.length < 256) :
    handleLfgJoin s (joinPacket roles skipped dungeons tail) =
      (if dungeons.length = 0 then do
        rfinish
        pure none
      else do
        let newDungeons ← readDungeonSet (UInt8.ofNat dungeons.length)
        readSkip 4
        let comment ← readString
        pure (some ⟨roles.toUInt8,newDungeons,comment⟩) : Read (Option JoinCall))
      ((joinPacket roles skipped dungeons tail).advance 7) ∧
    ((joinPacket roles skipped dungeons tail).advance 7).rest =
      dungeons.flatMap (fun dungeon => leBytes 4 dungeon.toNat) ++ tail := by
  have hroles : (joinPacket roles skipped dungeons tail).rest = leBytes 4 roles.toNat ++
      (leBytes 2 skipped.toNat ++ (UInt8.ofNat dungeons.length ::
        (dungeons.flatMap (fun dungeon => leBytes 4 dungeon.toNat) ++ tail))) := rfl
  have hskip : ((joinPacket roles skipped dungeons tail).advance 4).rest = leBytes 2 skipped.toNat ++
      (UInt8.ofNat dungeons.length ::
        (dungeons.flatMap (fun dungeon => leBytes 4 dungeon.toNat) ++ tail)) :=
    Cursor.rest_advance hroles
  have hnumber : (((joinPacket roles skipped dungeons tail).advance 4).advance 2).rest =
      UInt8.ofNat dungeons.length ::
        (dungeons.flatMap (fun dungeon => leBytes 4 dungeon.toNat) ++ tail) :=
    Cursor.rest_advance hskip
  have hentries : ((((joinPacket roles skipped dungeons tail).advance 4).advance 2).advance 1).rest =
      dungeons.flatMap (fun dungeon => leBytes 4 dungeon.toNat) ++ tail := by
    rw [Cursor.rest_advance_eq_drop,hnumber]
    rfl
  have hsize : (UInt8.ofNat dungeons.length).toNat = dungeons.length := by
    rw [UInt8.toNat_ofNat',Nat.mod_eq_of_lt hcount]
  rw [Cursor.advance_advance,Cursor.advance_advance] at hentries
  have hroom : 2 ≤ ((joinPacket roles skipped dungeons tail).advance 4).rest.length := by
    rw [hskip,List.length_append]
    exact Nat.le_add_right 2 _
  refine ⟨?_,hentries⟩
  unfold handleLfgJoin
  rw [if_neg (by simp [hopen]),Reader.bind_ok _ (readUInt32_eq hroles),
    Reader.bind_ok _ (readSkip_eq (by decide) hroom),Reader.bind_ok _ (readUInt8_eq hnumber),
    hsize]
  rfl

/-- The ids of up to 127 entries are passed on, zero among them if it was sent; without entries,
or if the player is barred, nothing is. -/
theorem handleLfgJoin_exact (s : JoinSession) (roles : UInt32) (skipped : UInt16)
    (dungeons : List UInt32) (tail : List UInt8) (hcount : dungeons.length ≤ 127)
    (htrailer : 4 ≤ tail.length) :
    if s.barred ∨ dungeons = [] then
      handleLfgJoin s (joinPacket roles skipped dungeons tail) = .ok none
        ((joinPacket roles skipped dungeons tail).advance
          (joinPacket roles skipped dungeons tail).bytes.length)
    else
      readDungeonSet (UInt8.ofNat dungeons.length)
          ((joinPacket roles skipped dungeons tail).advance 7) =
        .ok (dungeons.map dungeonId).toFinset
          ((joinPacket roles skipped dungeons tail).advance (7+4*dungeons.length)) ∧
      ∃ c, handleLfgJoin s (joinPacket roles skipped dungeons tail) = .ok (some
        ⟨roles.toUInt8,(dungeons.map dungeonId).toFinset,(tail.drop 4).takeWhile fun b => b ≠ 0⟩) c := by
  cases hbarred : s.barred with
  | true =>
    rw [if_pos (.inl rfl)]
    unfold handleLfgJoin
    rw [if_pos hbarred]
    simp [joinPacket,rfinish,Cursor.advance,bind,EStateM.bind,pure,EStateM.pure]
  | false =>
    obtain ⟨hopen,hentries⟩ := handleLfgJoin_open roles skipped tail hbarred
      (show dungeons.length < 256 by omega)
    by_cases hnone : dungeons = []
    · rw [if_pos (.inr hnone),hopen,if_pos (by rw [hnone]; rfl)]
      simp [joinPacket,rfinish,Cursor.advance,bind,EStateM.bind,pure,EStateM.pure]
    · have hsize : (UInt8.ofNat dungeons.length).toNat = dungeons.length := by
        rw [UInt8.toNat_ofNat',Nat.mod_eq_of_lt (by omega)]
      have hset : readDungeonSet (UInt8.ofNat dungeons.length)
          ((joinPacket roles skipped dungeons tail).advance 7) =
          .ok (dungeons.map dungeonId).toFinset
            ((joinPacket roles skipped dungeons tail).advance (7+4*dungeons.length)) := by
        unfold readDungeonSet
        have hstart : (0 : Int8).toInt = 0 := rfl
        have hfuel : dungeons.length <
            ((joinPacket roles skipped dungeons tail).advance 7).rest.length+1 := by
          rw [hentries,List.length_append,length_entries]
          omega
        rw [readDungeons_eq (by omega) (by decide) (by rw [hsize,hstart,zero_add]) hfuel hentries,
          Finset.empty_union,Cursor.advance_advance]
      have hentries' := Cursor.rest_advance hentries
      rw [length_entries,Cursor.advance_advance] at hentries'
      have hcomment : ((joinPacket roles skipped dungeons tail).advance
          (7+4*dungeons.length+4)).rest = tail.drop 4 := by
        rw [← Cursor.advance_advance,Cursor.rest_advance_eq_drop,hentries']
      obtain ⟨c,hread⟩ := readString_eq ((joinPacket roles skipped dungeons tail).advance
        (7+4*dungeons.length+4))
      rw [if_neg (by simp [hnone])]
      refine ⟨hset,c,?_⟩
      rw [hopen,if_neg (by simpa using hnone),Reader.bind_ok _ hset,
        Reader.bind_ok _ (readSkip_eq (by decide) (by rw [hentries']; exact htrailer)),
        Cursor.advance_advance,Reader.bind_ok _ hread,hcomment]
      rfl

theorem handleLfgJoin_exact_pair : ∃ c, handleLfgJoin ⟨1,7,none⟩
    (joinPacket 2 0 [0x01000005,0x06000106] [0,0,0,0,104,0]) =
      .ok (some ⟨2,{5,0x106},[104]⟩) c :=
  (handleLfgJoin_exact ⟨1,7,none⟩ 2 0 [0x01000005,0x06000106] [0,0,0,0,104,0] (by decide)
    (by decide)).2

/-- The entries are read, and the ids that are not zero are passed on. -/
def PassesNonzero (s : JoinSession) (roles : UInt32) (skipped : UInt16) (dungeons : List UInt32)
    (tail : List UInt8) : Prop :=
  ∃ call c, handleLfgJoin s (joinPacket roles skipped dungeons tail) = .ok (some call) c ∧
    call.dungeons = (dungeons.map dungeonId).toFinset.erase 0

theorem not_passes_large (hopen : s.barred = false) (hlarge : 128 ≤ dungeons.length)
    (hcount : dungeons.length < 256) : ¬ PassesNonzero s roles skipped dungeons tail := by
  rintro ⟨call,c,hcall,-⟩
  have hsize : (UInt8.ofNat dungeons.length).toNat = dungeons.length := by
    rw [UInt8.toNat_ofNat',Nat.mod_eq_of_lt hcount]
  have hcode : 128 ≤ (UInt8.ofNat dungeons.length).toNat := by omega
  have hset : ∃ e c', readDungeonSet (UInt8.ofNat dungeons.length)
      ((joinPacket roles skipped dungeons tail).advance 7) = .error e c' :=
    readDungeons_large hcode (Nat.lt_succ_self _)
  obtain ⟨e,c',hset⟩ := hset
  rw [(handleLfgJoin_open roles skipped tail hopen hcount).1,if_neg (by omega),Reader.bind_error _ hset] at hcall
  cases hcall

/-- A zero is passed on; without entries, without the four bytes behind them, for a player that is
barred and with 128 entries nothing is. -/
theorem not_passes_nonzero : ¬ PassesNonzero ⟨1,7,none⟩ 2 0 [0x01000000] [0,0,0,0] ∧
    ¬ PassesNonzero ⟨1,7,none⟩ 2 0 [] [0,0,0,0] ∧
    ¬ PassesNonzero ⟨1,7,none⟩ 2 0 [0x01000005] [] ∧
    ¬ PassesNonzero ⟨0,7,none⟩ 2 0 [0x01000005] [0,0,0,0] ∧
    ¬ PassesNonzero ⟨1,7,none⟩ 2 0 (List.replicate 128 0x01000005) [0,0,0,0] := by
  refine ⟨?_,?_,?_,?_,not_passes_large rfl (by simp) (by simp)⟩
  · rintro ⟨call,c,hcall,hset⟩
    have hzero : handleLfgJoin ⟨1,7,none⟩ (joinPacket 2 0 [0x01000000] [0,0,0,0]) =
      .ok (some ⟨2,{0},[]⟩) ⟨_,15⟩ := rfl
    rw [hzero] at hcall
    cases hcall
    exact absurd hset (by decide)
  · rintro ⟨call,c,hcall,-⟩
    cases hcall
  · rintro ⟨call,c,hcall,-⟩
    cases hcall
  · rintro ⟨call,c,hcall,-⟩
    cases hcall

end Join

end TrinityCore.Lfg
