import TrinityCore.Packets.ByteBuffer

set_option autoImplicit false

namespace TrinityCore.Packets

open Reader (Robust Ends CutList)

section Format

def encode : (t : Ty) → t.Val → List UInt8
  | .int t, v => leBytes t.size (t.bits v)
  | .string, (v : List UInt8) => v ++ [0]
  | .packGUID, v => ByteBuffer.packGUID v
  | .vec t, (vs : List t.Val) => leBytes 4 vs.length ++ vs.flatMap (encode t)

def encodeAll (fs : List Field) : List UInt8 := fs.flatMap fun f => encode f.1 f.2

def Clean : (t : Ty) → t.Val → Prop
  | .int _, _ => True
  | .string, (v : List UInt8) => 0 ∉ v
  | .packGUID, _ => True
  | .vec t, (vs : List t.Val) => ∀ v ∈ vs, Clean t v

/-- What a reader makes of a value when the buffer ends before it does: a string is cut
short, and so is a vector with a string in it. -/
def Cut : (t : Ty) → t.Val → t.Val → Prop
  | .int _, _, _ => False
  | .string, (v : List UInt8), (v' : List UInt8) => v' <+: v
  | .packGUID, _, _ => False
  | .vec t, vs, vs' => CutList (Cut t) (fun _ v' => Blank t v') vs vs'
where
  /-- What it makes of nothing. -/
  Blank : (t : Ty) → t.Val → Prop
    | .string, (v : List UInt8) => v = []
    | _, _ => False

@[simp] theorem length_leBytes (n x : Nat) : (leBytes n x).length = n := by
  induction n generalizing x with
  | zero => rfl
  | succ n ih => simp [leBytes,ih]

theorem leNat_leBytes (n x : Nat) : leNat (leBytes n x) = x % 256^n := by
  induction n generalizing x with
  | zero => simp [leBytes,leNat,Nat.mod_one]
  | succ n ih =>
    have hbyte : (UInt8.ofNat x).toNat = x % 256 := UInt8.toNat_ofNat'
    simp only [leBytes,leNat,ih,hbyte]
    rw [pow_succ',Nat.mod_mul]

theorem encode_ne_nil (t : Ty) (v : t.Val) : encode t v ≠ [] := by
  cases t with
  | int t => cases t <;> simp [encode,IntTy.size,leBytes]
  | string => exact List.append_ne_nil_of_right_ne_nil _ (List.cons_ne_nil 0 [])
  | packGUID => simp [encode,ByteBuffer.packGUID]
  | vec t => simp [encode,leBytes]

theorem length_le_flatMap {t : Ty} (vs : List t.Val) : vs.length ≤ (vs.flatMap (encode t)).length := by
  induction vs with
  | nil => simp
  | cons v vs ih =>
    have h := List.length_pos_of_ne_nil (encode_ne_nil t v)
    simp only [List.flatMap_cons,List.length_append,List.length_cons]
    omega

theorem length_le_of_mem {α : Type} {f : α → List UInt8} {a : α} {as : List α} (h : a ∈ as) :
    (f a).length ≤ (as.flatMap f).length := by
  obtain ⟨pre,post,rfl⟩ := List.append_of_mem h
  simp only [List.flatMap_append,List.flatMap_cons,List.length_append]
  omega

end Format

section Writing

namespace ByteBuffer

variable {b : ByteBuffer}

def extend (b : ByteBuffer) (bytes : List UInt8) : ByteBuffer :=
  { b with bytes := b.bytes ++ bytes, wpos := b.wpos+bytes.length }

theorem extend_extend (bs bs' : List UInt8) : (b.extend bs).extend bs' = b.extend (bs ++ bs') := by
  simp [extend,Nat.add_assoc]

def Room (b : ByteBuffer) (n : Nat) : Prop :=
  b.wpos = b.bytes.length ∧ b.bytes.length+n < maxSize

theorem Room.extend {n : Nat} {bs : List UInt8} (h : b.Room (bs.length+n)) :
    (b.extend bs).Room n := by
  obtain ⟨h1,h2⟩ := h
  simp only [Room,ByteBuffer.extend,List.length_append]
  omega

theorem append_eq {src : List UInt8} (h : b.Room src.length) (hne : src ≠ []) :
    b.append src = .ok (b.extend src) := by
  obtain ⟨h1,h2⟩ := h
  have hlen := List.length_pos_of_ne_nil hne
  unfold append
  rw [if_neg (by omega),if_neg (by omega)]
  simp [extend,h1]

theorem write_eq (t : Ty) (v : t.Val) (h : b.Room (encode t v).length) :
    write t v b = .ok (b.extend (encode t v)) := by
  induction t generalizing b with
  | int t => exact append_eq h (encode_ne_nil (.int t) v)
  | packGUID => exact append_eq h (encode_ne_nil .packGUID v)
  | string =>
    change List UInt8 at v
    simp only [write,encode] at h ⊢
    by_cases hv : v = []
    · subst hv
      exact append_eq h (by simp)
    · have hne : v.length ≠ 0 := by simpa using hv
      rw [List.length_append] at h
      have h1 : b.append v = .ok (b.extend v) := append_eq ⟨h.1,by have := h.2; omega⟩ hv
      have h2 := append_eq h.extend (List.cons_ne_nil 0 [])
      simp only [if_pos hne,h1]
      exact h2.trans (by rw [extend_extend])
  | vec t ih =>
    have hloop : ∀ (vs : List t.Val) (b : ByteBuffer), b.Room (vs.flatMap (encode t)).length →
        vs.foldlM (fun b v => write t v b) b = .ok (b.extend (vs.flatMap (encode t))) := by
      intro vs
      induction vs with
      | nil => intro b _; simp [extend,pure,Except.pure]
      | cons v vs ihvs =>
        intro b hb
        rw [List.flatMap_cons,List.length_append] at hb
        have h1 := ih v (b := b) ⟨hb.1,by have := hb.2; omega⟩
        have h2 := ihvs (b.extend (encode t v)) hb.extend
        rw [List.foldlM_cons,h1,List.flatMap_cons,← extend_extend]
        exact h2
    change List t.Val at v
    simp only [encode,List.length_append,length_leBytes] at h
    have hcount : v.length % 2^32 = v.length := by
      refine Nat.mod_eq_of_lt ?_
      have h1 := length_le_flatMap v
      have h2 := h.2
      unfold maxSize at h2
      omega
    have h1 : b.append (leBytes 4 v.length) = .ok (b.extend (leBytes 4 v.length)) :=
      append_eq ⟨h.1,by have := h.2; simp only [length_leBytes]; omega⟩ (by simp [leBytes])
    have hroom : (b.extend (leBytes 4 v.length)).Room (v.flatMap (encode t)).length :=
      Room.extend (by simpa using h)
    simp only [write,encode,hcount,h1]
    exact (hloop v _ hroom).trans (by rw [extend_extend])

theorem writeAll_eq (fs : List Field) (h : b.Room (encodeAll fs).length) :
    writeAll fs b = .ok (b.extend (encodeAll fs)) := by
  induction fs generalizing b with
  | nil => simp [writeAll,encodeAll,extend,pure,Except.pure]
  | cons f fs ih =>
    simp only [encodeAll,List.flatMap_cons,List.length_append] at h
    have h1 := write_eq f.1 f.2 (b := b) ⟨h.1,by have := h.2; omega⟩
    have h2 := ih (b := b.extend (encode f.1 f.2)) h.extend
    simp only [writeAll,encodeAll,List.foldlM_cons,h1,List.flatMap_cons] at h2 ⊢
    rw [← extend_extend]
    exact h2

end ByteBuffer

end Writing

section Reading

theorem readBytes_eq (n : Nat) (c : Cursor UInt8) :
    readBytes n c = if c.pos+n ≤ c.bytes.length then .ok (c.rest.take n) (c.advance n)
      else .error (.position false c.pos n c.bytes.length) c := by
  unfold readBytes
  simp only [bind,EStateM.bind,get,getThe,MonadStateOf.get,EStateM.get]
  by_cases h : c.pos+n ≤ c.bytes.length
  · rw [if_neg (by omega),if_pos h]
    exact if_pos h
  · rw [if_pos (by omega),if_neg h]
    rfl

theorem robust_readBytes {n : Nat} {code : List UInt8} (h : code.length = n) (hn : 0 < n) :
    Robust Fault.IsPosition (readBytes n) code code fun _ => False := by
  constructor
  · intro c tail hrest
    have hlen := c.length_rest
    rw [hrest,List.length_append] at hlen
    rw [readBytes_eq,if_pos (by omega),hrest,← h,List.take_left]
  · intro part hp hne c hpos hrest
    have hlen := c.length_rest
    have hlt : part.length < code.length :=
      lt_of_le_of_ne hp.length_le fun heq => hne (hp.eq_of_length heq)
    rw [hrest] at hlen
    rw [readBytes_eq,if_neg (by omega)]
    exact ⟨trivial,rfl,hpos⟩

theorem IntTy.size_pos (t : IntTy) : 0 < t.size := by
  cases t <;> decide

theorem IntTy.ofBits_bits (t : IntTy) (v : t.Val) : t.ofBits (t.bits v % 256^t.size) = v := by
  have hsigned : ∀ {w n : Nat} (x : BitVec w), 2^w = 256^n → BitVec.ofNat w (x.toNat % 256^n) = x := by
    intro w n x h
    rw [← h,Nat.mod_eq_of_lt x.isLt,BitVec.ofNat_toNat,BitVec.setWidth_eq]
  cases t with
  | int8 => exact congrArg Int8.ofBitVec (hsigned v.toBitVec rfl)
  | int16 => exact congrArg Int16.ofBitVec (hsigned v.toBitVec rfl)
  | int32 => exact congrArg Int32.ofBitVec (hsigned v.toBitVec rfl)
  | int64 => exact congrArg Int64.ofBitVec (hsigned v.toBitVec rfl)
  | _ => simp [IntTy.ofBits,IntTy.bits,IntTy.size]

theorem robust_readInt (t : IntTy) (v : t.Val) :
    Robust Fault.IsPosition (readInt t) (leBytes t.size (t.bits v)) v fun _ => False := by
  have hpure : Robust Fault.IsPosition
      (pure (t.ofBits (leNat (leBytes t.size (t.bits v)))) : Read t.Val) [] v fun _ => False := by
    rw [leNat_leBytes,t.ofBits_bits]
    exact Reader.robust_pure v _
  have h := (robust_readBytes (length_leBytes t.size (t.bits v)) t.size_pos).bind
    (f := fun bs => pure (t.ofBits (leNat bs))) hpure
  rw [List.append_nil] at h
  exact h

theorem robust_readByte (b : UInt8) : Robust Fault.IsPosition readByte [b] b fun _ => False := by
  have h := robust_readInt .uint8 b
  have hcode : leBytes IntTy.uint8.size (IntTy.uint8.bits b) = [b] := by
    simp [leBytes,IntTy.size,IntTy.bits]
  rw [hcode] at h
  exact h

theorem ends_readInt (t : IntTy) : Ends Fault.IsPosition (readInt t) [] fun _ => False := by
  refine (robust_readInt t (t.ofBits 0)).short [] List.nil_prefix fun h => ?_
  have hlen := congrArg List.length h
  rw [length_leBytes,List.length_nil] at hlen
  exact absurd hlen t.size_pos.ne

section String

theorem readStringLoop_byte {n : Nat} {value : List UInt8} {c : Cursor UInt8} {b : UInt8}
    {tail : List UInt8} (h : c.rest = b :: tail) :
    readStringLoop (n+1) value c =
      if b = 0 then .ok value (c.advance 1) else readStringLoop n (value ++ [b]) (c.advance 1) := by
  have hlen := c.length_rest
  rw [h,List.length_cons] at hlen
  have hread : readByte c = .ok b (c.advance 1) := (robust_readByte b).whole c tail h
  simp only [readStringLoop,bind,EStateM.bind,get,getThe,MonadStateOf.get,EStateM.get]
  rw [if_pos (by omega)]
  simp only [EStateM.bind,hread]
  split_ifs <;> rfl

theorem readStringLoop_end {n : Nat} {value : List UInt8} {c : Cursor UInt8} (h : c.rest = []) :
    readStringLoop n value c = .ok value c := by
  cases n with
  | zero => rfl
  | succ n =>
    have hlen := c.length_rest
    rw [h,List.length_nil] at hlen
    simp only [readStringLoop,bind,EStateM.bind,get,getThe,MonadStateOf.get,EStateM.get]
    rw [if_neg (by omega)]
    rfl

theorem readStringLoop_spec {n : Nat} (v value : List UInt8) (c : Cursor UInt8) (hv : 0 ∉ v) :
    (∀ tail, c.rest = v ++ 0 :: tail → v.length < n →
      readStringLoop n value c = .ok (value ++ v) (c.advance (v.length+1))) ∧
    (c.rest = v → v.length ≤ n → readStringLoop n value c = .ok (value ++ v) (c.advance v.length)) := by
  induction v generalizing n value c with
  | nil =>
    refine ⟨fun tail hrest hn => ?_,fun hrest _ => ?_⟩
    · obtain ⟨n,rfl⟩ : ∃ k, n = k+1 := ⟨n-1,by simp at hn; omega⟩
      rw [readStringLoop_byte hrest]
      simp
    · rw [readStringLoop_end hrest]
      simp
  | cons b v ih =>
    rw [List.mem_cons,not_or] at hv
    have hb : b ≠ 0 := fun h => hv.1 h.symm
    have hadvance : ∀ rest, c.rest = [b] ++ rest → (c.advance 1).rest = rest := fun rest h =>
      Cursor.rest_advance h
    refine ⟨fun tail hrest hn => ?_,fun hrest hn => ?_⟩
    · obtain ⟨n,rfl⟩ : ∃ k, n = k+1 := ⟨n-1,by simp at hn; omega⟩
      rw [readStringLoop_byte hrest,if_neg hb,
        (ih (value ++ [b]) (c.advance 1) hv.2).1 tail (hadvance _ hrest) (by simpa using hn)]
      simp [Nat.add_comm 1]
    · obtain ⟨n,rfl⟩ : ∃ k, n = k+1 := ⟨n-1,by simp at hn; omega⟩
      rw [readStringLoop_byte hrest,if_neg hb,
        (ih (value ++ [b]) (c.advance 1) hv.2).2 (hadvance _ hrest) (by simpa using hn)]
      simp [Nat.add_comm 1]

theorem robust_readString {v : List UInt8} (hv : 0 ∉ v) :
    Robust Fault.IsPosition readString (v ++ [0]) v fun v' => v' <+: v := by
  have hstart : ∀ c, readString c = readStringLoop (c.bytes.length-c.pos) [] c := fun _ => rfl
  constructor
  · intro c tail hrest
    have hlen := c.length_rest
    rw [List.append_assoc,List.singleton_append] at hrest
    rw [hrest,List.length_append,List.length_cons] at hlen
    rw [hstart,(readStringLoop_spec v [] c hv).1 tail hrest (by omega)]
    simp
  · intro part hp hne c hpos hrest
    have hpart : part <+: v := by
      rcases List.prefix_concat_iff.mp hp with h | h
      · exact absurd h hne
      · exact h
    have hlen := c.length_rest
    rw [hrest] at hlen
    rw [hstart,(readStringLoop_spec part [] c fun h => hv (hpart.subset h)).2 hrest (by omega)]
    exact ⟨by simpa using hpart,rfl⟩

theorem ends_readString : Ends Fault.IsPosition readString [] fun v' => v' = [] :=
  ((robust_readString (v := []) (by simp)).short [] (by simp) (by simp)).mono fun v' h =>
    List.prefix_nil.mp h

end String

section PackGUID

/-- The bytes of a number that are not zero, from the lowest on. -/
def nonzeroBytes : Nat → Nat → List UInt8
  | 0, _ => []
  | n+1, g => (if g % 256 ≠ 0 then [UInt8.ofNat (g % 256)] else []) ++ nonzeroBytes n (g / 256)

theorem nonzeroBytes_zero (n : Nat) : nonzeroBytes n 0 = [] := by
  induction n with
  | zero => rfl
  | succ n ih => simpa [nonzeroBytes] using ih

theorem packLoop_spec (n i g mark : Nat) (bytes : List UInt8) (hi : i+n ≤ 8) :
    (ByteBuffer.packLoop n i g (mark,bytes)).2 = bytes ++ nonzeroBytes n g ∧
    ∀ j, (ByteBuffer.packLoop n i g (mark,bytes)).1.testBit j =
      (mark.testBit j || decide (i ≤ j ∧ j < i+n ∧ g / 256^(j-i) % 256 ≠ 0)) := by
  induction n generalizing i g mark bytes with
  | zero =>
    refine ⟨by simp [ByteBuffer.packLoop,nonzeroBytes],fun j => ?_⟩
    have hno : ¬ (i ≤ j ∧ j < i+0 ∧ g / 256^(j-i) % 256 ≠ 0) := by omega
    rw [decide_eq_false hno,Bool.or_false]
    rfl
  | succ n ih =>
    have hand : g &&& 0xFF = g % 256 := Nat.and_two_pow_sub_one_eq_mod g 8
    have hshift : g >>> 8 = g / 256 := by rw [Nat.shiftRight_eq_div_pow]
    have hbit : 1 <<< i % 256 = 2^i := by
      rw [Nat.one_shiftLeft]
      exact Nat.mod_eq_of_lt ((Nat.pow_lt_pow_right (by decide) (by omega)).trans_le (by decide : 2^8 ≤ 256))
    -- the bits that the rounds from here on set
    have hstep : ∀ j, (decide (j = i ∧ g % 256 ≠ 0) ||
        decide (i+1 ≤ j ∧ j < i+1+n ∧ g / 256 / 256^(j-(i+1)) % 256 ≠ 0)) =
        decide (i ≤ j ∧ j < i+(n+1) ∧ g / 256^(j-i) % 256 ≠ 0) := by
      intro j
      rw [← Bool.decide_or,decide_eq_decide]
      rcases Nat.lt_trichotomy j i with hj | rfl | hj
      · omega
      · simp
      · obtain ⟨k,rfl⟩ : ∃ k, j = i+1+k := ⟨j-(i+1),by omega⟩
        have h1 : i+1+k-(i+1) = k := by omega
        have h2 : i+1+k-i = k+1 := by omega
        rw [h1,h2,Nat.div_div_eq_div_mul,pow_succ']
        omega
    by_cases hg : g = 0
    · subst hg
      refine ⟨by simp [ByteBuffer.packLoop,nonzeroBytes_zero],fun j => ?_⟩
      simp [ByteBuffer.packLoop]
    · simp only [ByteBuffer.packLoop,if_neg hg,hand,hshift,hbit,nonzeroBytes]
      by_cases hbyte : g % 256 = 0
      · have hrec := ih (i+1) (g / 256) mark bytes (by omega)
        simp only [hbyte,ne_eq,not_true,if_false,List.nil_append]
        refine ⟨hrec.1,fun j => ?_⟩
        rw [hrec.2,← hstep j]
        simp [hbyte]
      · have hrec := ih (i+1) (g / 256) (mark ||| 2^i) (bytes ++ [UInt8.ofNat (g % 256)]) (by omega)
        simp only [hbyte,ne_eq,not_false_eq_true,if_true]
        refine ⟨by rw [hrec.1,List.append_assoc],fun j => ?_⟩
        rw [hrec.2,← hstep j,Nat.testBit_or,Nat.testBit_two_pow,Bool.or_assoc]
        simp [hbyte,eq_comm]

theorem robust_checkedByte (b : UInt8) :
    Robust Fault.IsPosition (checkByte >>= fun _ => readByte) [b] b fun _ => False := by
  have hcheck : ∀ c : Cursor UInt8, checkByte c = if c.pos+1 > c.bytes.length then
      .error (.position false c.pos 1 c.bytes.length) c else .ok () c := by
    intro c
    simp only [checkByte,bind,EStateM.bind,get,getThe,MonadStateOf.get,EStateM.get]
    split_ifs <;> rfl
  have hrun : ∀ c : Cursor UInt8, (checkByte >>= fun _ => readByte) c =
      if c.pos+1 > c.bytes.length then .error (.position false c.pos 1 c.bytes.length) c
      else readByte c := by
    intro c
    simp only [bind,EStateM.bind,hcheck]
    split_ifs <;> rfl
  constructor
  · intro c tail hrest
    have hlen := c.length_rest
    rw [hrest,List.length_append,List.length_singleton] at hlen
    rw [hrun,if_neg (by omega)]
    exact (robust_readByte b).whole c tail hrest
  · intro part hp hne c hpos hrest
    have hlen := c.length_rest
    have hpart : part = [] := by
      rcases List.prefix_cons_iff.mp hp with h | ⟨t,rfl,ht⟩
      · exact h
      · rw [List.prefix_nil.mp ht] at hne
        exact absurd rfl hne
    rw [hrest,hpart,List.length_nil] at hlen
    rw [hrun,if_pos (by omega)]
    exact ⟨trivial,rfl,hpos⟩

theorem robust_readPackLoop (mark n i g guid : Nat) (hguid : guid < 256^i) (hg : g < 256^n)
    (hmark : ∀ j < n, mark.testBit (i+j) = true ↔ g / 256^j % 256 ≠ 0) :
    Robust Fault.IsPosition (readPackLoop mark n i guid) (nonzeroBytes n g) (guid+256^i*g)
      fun _ => False := by
  induction n generalizing i g guid with
  | zero =>
    obtain rfl : g = 0 := by simpa using hg
    exact Reader.robust_pure _ _
  | succ n ih =>
    have hbit : (mark &&& 1 <<< i ≠ 0) ↔ g % 256 ≠ 0 := by
      have h := hmark 0 (by omega)
      rw [Nat.add_zero,pow_zero,Nat.div_one] at h
      rw [← h,Nat.one_shiftLeft,Nat.and_two_pow]
      cases mark.testBit i <;> simp
    have hrest : ∀ j < n, mark.testBit (i+1+j) = true ↔ g / 256 / 256^j % 256 ≠ 0 := by
      intro j hj
      have h := hmark (j+1) (by omega)
      rw [pow_succ',← Nat.div_div_eq_div_mul] at h
      rw [← h,Nat.add_assoc,Nat.add_comm 1]
    have hdiv : g / 256 < 256^n := by
      rw [Nat.div_lt_iff_lt_mul (by decide),← pow_succ]
      exact hg
    have hparts : g % 256+256*(g / 256) = g := Nat.mod_add_div g 256
    simp only [readPackLoop,nonzeroBytes]
    by_cases hbyte : g % 256 = 0
    · have hno : ¬ mark &&& 1 <<< i ≠ 0 := by rw [hbit]; simpa using hbyte
      rw [if_neg hno,if_neg (by simpa using hbyte),List.nil_append]
      have h := ih (i+1) (g / 256) guid (hguid.trans (Nat.pow_lt_pow_right (by decide) (by omega)))
        hdiv hrest
      have hval : guid+256^(i+1)*(g / 256) = guid+256^i*g := by
        rw [pow_succ,Nat.mul_assoc]
        congr 2
        omega
      rw [hval] at h
      exact h
    · rw [if_pos (hbit.mpr hbyte),if_pos hbyte,← bind_assoc]
      have htoNat : (UInt8.ofNat (g % 256)).toNat = g % 256 := by
        rw [UInt8.toNat_ofNat']
        omega
      have hor : guid ||| (g % 256) <<< (i*8) = guid+256^i*(g % 256) := by
        have hpow : 2^(i*8) = 256^i := by
          rw [Nat.mul_comm,pow_mul]
          norm_num
        rw [Nat.shiftLeft_eq,hpow,Nat.or_comm,Nat.mul_comm,← hpow,
          ← Nat.two_pow_add_eq_or_of_lt (by rw [hpow]; exact hguid),Nat.add_comm]
      have h := ih (i+1) (g / 256) (guid+256^i*(g % 256)) (by
        have hlt : g % 256 < 256 := Nat.mod_lt _ (by decide)
        calc guid+256^i*(g % 256) < 256^i+256^i*(g % 256) := by omega
          _ = 256^i*(g % 256+1) := by ring
          _ ≤ 256^i*256 := Nat.mul_le_mul_left _ hlt
          _ = 256^(i+1) := by rw [pow_succ]) hdiv hrest
      have hval : guid+256^i*(g % 256)+256^(i+1)*(g / 256) = guid+256^i*g := by
        conv_rhs => rw [← hparts]
        ring
      rw [hval] at h
      refine (robust_checkedByte _).bind ?_
      rw [htoNat,hor]
      exact h

theorem robust_readPackGUID (guid : UInt64) :
    Robust Fault.IsPosition readPackGUID (ByteBuffer.packGUID guid) guid fun _ => False := by
  obtain ⟨hbytes,hmark⟩ := packLoop_spec 8 0 guid.toNat 0 [] (by decide)
  generalize hp : ByteBuffer.packLoop 8 0 guid.toNat (0,[]) = p at hbytes hmark
  obtain ⟨mark,bytes⟩ := p
  simp only [List.nil_append,Nat.zero_testBit,Bool.false_or,Nat.zero_le,true_and,Nat.zero_add,
    Nat.sub_zero] at hbytes hmark
  have hlt : mark < 256 := by
    refine Nat.lt_pow_two_of_testBit (n := 8) mark fun j hj => ?_
    rw [hmark j]
    exact decide_eq_false (by omega)
  have htoNat : (UInt8.ofNat mark).toNat = mark := by
    rw [UInt8.toNat_ofNat']
    omega
  have hguid : guid.toNat < 256^8 := guid.toNat_lt
  have hloop := robust_readPackLoop mark 8 0 guid.toNat 0 (by decide) hguid fun j hj => by
    rw [Nat.zero_add,hmark j]
    simp [hj]
  simp only [pow_zero,Nat.one_mul,Nat.zero_add] at hloop
  have hpure : Robust Fault.IsPosition (pure (UInt64.ofNat guid.toNat) : Read UInt64) [] guid
      fun _ => False := by
    rw [UInt64.ofNat_toNat]
    exact Reader.robust_pure guid _
  have hrest := hloop.bind (f := fun guid => pure (UInt64.ofNat guid)) hpure
  rw [List.append_nil,← hbytes] at hrest
  have hcode : ByteBuffer.packGUID guid = [UInt8.ofNat mark] ++ bytes := by
    simp [ByteBuffer.packGUID,hp]
  rw [hcode,readPackGUID,← bind_assoc]
  refine (robust_checkedByte (UInt8.ofNat mark)).bind ?_
  rw [htoNat]
  exact hrest

theorem ends_readPackGUID : Ends Fault.IsPosition readPackGUID [] fun _ => False :=
  (robust_readPackGUID 0).short [] List.nil_prefix (by simp [ByteBuffer.packGUID])

end PackGUID

theorem ends_read (t : Ty) : Ends Fault.IsPosition (read t) [] (Cut.Blank t) := by
  cases t with
  | int t => exact (ends_readInt t).mono fun _ h => h.elim
  | string => exact ends_readString
  | packGUID => exact ends_readPackGUID.mono fun _ h => h.elim
  | vec t => exact (ends_readInt .uint32).bind

theorem robust_read (t : Ty) (v : t.Val) (hv : Clean t v) (hsize : (encode t v).length < 2^32) :
    Robust Fault.IsPosition (read t) (encode t v) v (Cut t v) := by
  induction t with
  | int t => exact (robust_readInt t v).mono fun _ h => h.elim
  | string => exact robust_readString hv
  | packGUID => exact (robust_readPackGUID v).mono fun _ h => h.elim
  | vec t ih =>
    change List t.Val at v
    have hlen : ∀ x ∈ v, (encode t x).length ≤ (v.flatMap (encode t)).length := fun x hx =>
      length_le_of_mem hx
    simp only [encode,List.length_append,length_leBytes] at hsize
    have hcount : v.length < 2^32 := by
      have h := length_le_flatMap v
      omega
    have helems : Robust Fault.IsPosition (Reader.sequence (v.map fun _ => read t)) (v.flatMap (encode t)) v
        (CutList (Cut t) (fun _ v' => Cut.Blank t v') v) :=
      Reader.robust_sequence (fun x hx => ih x (hv x hx) (by have := hlen x hx; omega)) fun x _ => ends_read t
    have hn : (UInt32.ofNat v.length).toNat = v.length := UInt32.toNat_ofNat_of_lt hcount
    rw [List.map_const',← hn] at helems
    have h := (robust_readInt .uint32 (UInt32.ofNat v.length)).bind
      (f := fun n => Reader.sequence (List.replicate (UInt32.toNat n) (read t))) helems
    have hcode : leBytes IntTy.uint32.size (IntTy.uint32.bits (UInt32.ofNat v.length)) =
        leBytes 4 v.length := by
      simp only [IntTy.size,IntTy.bits,hn]
    rw [hcode] at h
    exact h

end Reading

section Fields

inductive FieldCut : Field → Field → Prop
  | mk {t : Ty} {v v' : t.Val} : Cut t v v' → FieldCut ⟨t,v⟩ ⟨t,v'⟩

inductive FieldBlank : Field → Field → Prop
  | mk {v : List UInt8} : FieldBlank ⟨.string,v⟩ ⟨.string,([] : List UInt8)⟩

theorem robust_readField (t : Ty) (v : t.Val) (hv : Clean t v) (hsize : (encode t v).length < 2^32) :
    Robust Fault.IsPosition (readField t) (encode t v) ⟨t,v⟩ (FieldCut ⟨t,v⟩) :=
  (robust_read t v hv hsize).map (fun v => (⟨t,v⟩ : Field)) fun _ h => FieldCut.mk h

theorem ends_readField (t : Ty) (v : t.Val) :
    Ends Fault.IsPosition (readField t) [] (FieldBlank ⟨t,v⟩) := by
  refine (ends_read t).map (fun v => (⟨t,v⟩ : Field)) fun v' h => ?_
  cases t with
  | string =>
    change List UInt8 at v'
    obtain rfl : v' = [] := h
    exact .mk
  | int t => exact h.elim
  | packGUID => exact h.elim
  | vec t => exact h.elim

theorem robust_readAll (fs : List Field) (hclean : ∀ f ∈ fs, Clean f.1 f.2)
    (hsize : (encodeAll fs).length < 2^32) :
    Robust Fault.IsPosition (readAll (fs.map Sigma.fst)) (encodeAll fs) fs
      (CutList FieldCut FieldBlank fs) := by
  have h : Robust Fault.IsPosition (Reader.sequence (fs.map fun f => readField f.1))
      (fs.flatMap fun f => encode f.1 f.2) fs (CutList FieldCut FieldBlank fs) :=
    Reader.robust_sequence (fun f hf => robust_readField f.1 f.2 (hclean f hf)
      ((length_le_of_mem (f := fun f => encode f.1 f.2) hf).trans_lt hsize))
      fun f _ => ends_readField f.1 f.2
  rw [readAll,List.map_map]
  exact h

/-- Fields that have been written are read back. From a beginning of the buffer the reads
raise an exception, or the buffer ends in a string: then what comes before it is right, and
all that comes after it are strings, which come out empty. -/
theorem fields_round_trip (fs : List Field) (hclean : ∀ f ∈ fs, Clean f.1 f.2)
    (hsize : (encodeAll fs).length < ByteBuffer.maxSize) :
    ∃ b, writeAll fs .empty = .ok b ∧
      (∃ c, readAll (fs.map Sigma.fst) b.toCursor = .ok fs c ∧ c.pos = b.wpos) ∧
      ∀ part, part <+: b.bytes → part ≠ b.bytes →
        match readAll (fs.map Sigma.fst) (ByteBuffer.ofBytes part).toCursor with
        | .ok fs' c => CutList FieldCut FieldBlank fs fs' ∧ c.pos = part.length
        | .error e c => e.IsPosition ∧ c.pos ≤ part.length := by
  have hrobust := robust_readAll fs hclean (hsize.trans (by decide))
  refine ⟨ByteBuffer.empty.extend (encodeAll fs),
    ByteBuffer.writeAll_eq fs ⟨rfl,by simpa [ByteBuffer.empty] using hsize⟩,?_,?_⟩
  · refine ⟨_,hrobust.whole _ [] ?_,?_⟩
    · simp [ByteBuffer.extend,ByteBuffer.empty,Cursor.rest]
    · simp [ByteBuffer.extend,ByteBuffer.empty]
  · intro part hp hne
    have h := hrobust.short part hp hne (ByteBuffer.ofBytes part).toCursor (Nat.zero_le _)
      (by simp [ByteBuffer.ofBytes,Cursor.rest])
    generalize readAll (fs.map Sigma.fst) (ByteBuffer.ofBytes part).toCursor = r at h ⊢
    cases r with
    | ok fs' c =>
      refine ⟨h.1,?_⟩
      rw [h.2]
      simp [ByteBuffer.ofBytes]
    | error e c => exact ⟨h.1,h.2.2⟩

def exampleFields : List Field :=
  [⟨.int .int16,(-2 : Int16)⟩,⟨.string,([97,98] : List UInt8)⟩,⟨.packGUID,(0x1F500000000000A0 : UInt64)⟩,
    ⟨.vec .string,([[99],[]] : List (List UInt8))⟩]

theorem fields_round_trip_example :
    encodeAll exampleFields = [254,255,97,98,0,193,160,80,31,2,0,0,0,99,0,0] ∧
    ∃ b c, writeAll exampleFields .empty = .ok b ∧
      readAll (exampleFields.map Sigma.fst) b.toCursor = .ok exampleFields c ∧ c.pos = b.wpos := by
  have hcode : encodeAll exampleFields = [254,255,97,98,0,193,160,80,31,2,0,0,0,99,0,0] := by
    decide +kernel
  have hclean : ∀ f ∈ exampleFields, Clean f.1 f.2 := by
    have hstring : (0 : UInt8) ∉ [97,98] := by decide
    have hstrings : ∀ v ∈ ([[99],[]] : List (List UInt8)), (0 : UInt8) ∉ v := by decide
    simp only [exampleFields,List.forall_mem_cons]
    exact ⟨trivial,hstring,trivial,hstrings,by simp⟩
  obtain ⟨b,hb,⟨c,hc,hpos⟩,-⟩ := fields_round_trip exampleFields hclean (by rw [hcode]; decide)
  exact ⟨hcode,b,c,hb,hc,hpos⟩

def StopsInLast (fs fs' : List Field) : Prop :=
  ∃ (init : List Field) (v v' : List UInt8), v' <+: v ∧ fs = init ++ [⟨.string,v⟩] ∧
    fs' = init ++ [⟨.string,v'⟩]

def twoStrings : List Field := [⟨.string,([97,98] : List UInt8)⟩,⟨.string,([99,100] : List UInt8)⟩]

/-- The first string is cut short, and the second is read from nothing. -/
theorem second_string_read_empty :
    ¬ ∀ part, part <+: encodeAll twoStrings → part ≠ encodeAll twoStrings →
      match readAll (twoStrings.map Sigma.fst) (ByteBuffer.ofBytes part).toCursor with
      | .ok fs' _ => StopsInLast twoStrings fs'
      | .error e _ => e.IsPosition := by
  intro h
  have hread : readAll (twoStrings.map Sigma.fst) (ByteBuffer.ofBytes [97]).toCursor =
      .ok [⟨.string,([97] : List UInt8)⟩,⟨.string,([] : List UInt8)⟩] ⟨[97],1⟩ := rfl
  have hcode : encodeAll twoStrings = [97,98,0,99,100,0] := by decide +kernel
  have h1 := h [97] (by rw [hcode]; decide) (by rw [hcode]; decide)
  rw [hread] at h1
  obtain ⟨init,v,v',-,h2,h3⟩ := h1
  match init with
  | [] => simp [twoStrings] at h2
  | [f] =>
    simp only [twoStrings,List.cons_append,List.nil_append,List.cons.injEq] at h2 h3
    have heq := h2.1.trans h3.1.symm
    exact absurd (eq_of_heq (Sigma.mk.inj heq).2) (by decide : ([97,98] : List UInt8) ≠ [97])
  | f :: g :: init => simp [twoStrings] at h2

end Fields

end TrinityCore.Packets
