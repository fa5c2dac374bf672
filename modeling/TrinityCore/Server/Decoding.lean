import TrinityCore.Lib.Run
import TrinityCore.Server.Output

set_option autoImplicit false

/-!
What a client makes of the bytes it gets: it decrypts headers, and reads sizes of two or three
bytes. As long as nothing is lost on the way out of the message queue, and no packet is refused
once its header has been encrypted, it reads the packets that were accepted.
-/

namespace TrinityCore.Server

variable {κ : Type}

section Client

variable (decrypt : κ → UInt8 → UInt8 × κ)

/-- The highest bit of the first byte tells that there is one more. -/
def headerLength (first : UInt8) : Nat := if 0x80 ≤ first.toNat then 5 else 4

def ServerPktHeader.ofBytes : List UInt8 → ServerPktHeader
  | [a,b,c,d] => ⟨a.toNat*2^8+b.toNat,c.toNat+d.toNat*2^8⟩
  | [a,b,c,d,e] => ⟨(a.toNat-0x80)*2^16+b.toNat*2^8+c.toNat,d.toNat+e.toNat*2^8⟩
  | _ => ⟨0,0⟩

/-- The first packet of a stream, if all of it is there. A client without a key decrypts nothing. -/
def readPacket (key : Option κ) (stream : List UInt8) :
    Option (WorldPacket × List UInt8 × Option κ) :=
  match (Transducer.pass decrypt key (stream.take 1)).1 with
  | [] => none
  | first :: _ =>
    let n := headerLength first
    if stream.length < n then none
    else
      let (bytes,key) := Transducer.pass decrypt key (stream.take n)
      let header := ServerPktHeader.ofBytes bytes
      let body := stream.drop n
      if body.length < header.size-2 then none
      else some (⟨header.cmd,body.take (header.size-2)⟩,body.drop (header.size-2),key)

/-- The packets of a stream. It is known after which of them the cipher is set up. -/
def recover : List (Option κ) → Option κ → List UInt8 → List WorldPacket
  | [], _, _ => []
  | some key :: plan, _, stream => recover plan (some key) stream
  | none :: plan, key, stream =>
    match readPacket decrypt key stream with
    | none => []
    | some (pkt,stream,key) => pkt :: recover plan key stream

end Client

/-- The packets that a header has room for the opcode and the size of. -/
structure WorldPacket.Sendable (pkt : WorldPacket) : Prop where
  opcode : pkt.opcode < 2^16
  size : pkt.contents.length < 2^23-2

instance (pkt : WorldPacket) : Decidable pkt.Sendable :=
  decidable_of_iff (pkt.opcode < 2^16 ∧ pkt.contents.length < 2^23-2)
    ⟨fun h => ⟨h.1,h.2⟩,fun h => ⟨h.opcode,h.size⟩⟩

section Header

theorem toNat_ofNat_and (n : Nat) : (UInt8.ofNat (0xFF &&& n)).toNat = n % 2^8 := by
  rw [Nat.and_comm,show (0xFF : Nat) = 2^8-1 from rfl,Nat.and_two_pow_sub_one_eq_mod]
  simp

theorem toNat_ofNat_flagged {n : Nat} (hn : n < 2^7) :
    (UInt8.ofNat (0x80 ||| (0xFF &&& n))).toNat = 0x80+n := by
  rw [Nat.and_comm,show (0xFF : Nat) = 2^8-1 from rfl,Nat.and_two_pow_sub_one_eq_mod,
    Nat.mod_eq_of_lt (by omega)]
  have hor : 0x80 ||| n = 0x80+n := (Nat.two_pow_add_eq_or_of_lt hn 1).symm
  rw [hor]
  simp only [UInt8.toNat_ofNat']
  omega

theorem ofBytes_header {h : ServerPktHeader} (hsize : h.size < 2^23) (hcmd : h.cmd < 2^16) :
    ServerPktHeader.ofBytes h.header = h := by
  obtain ⟨size,cmd⟩ := h
  dsimp only at hsize hcmd
  have hshift8 := Nat.shiftRight_eq_div_pow size 8
  have hshift16 := Nat.shiftRight_eq_div_pow size 16
  have hcmd8 := Nat.shiftRight_eq_div_pow cmd 8
  unfold ServerPktHeader.header
  by_cases hlarge : 0x7FFF < size
  · have hhigh : size >>> 16 < 2^7 := by omega
    simp only [ServerPktHeader.isLargePacket,hlarge,decide_true,if_true,
      List.cons_append,List.nil_append,ServerPktHeader.ofBytes,toNat_ofNat_and,toNat_ofNat_flagged hhigh,ServerPktHeader.mk.injEq]
    omega
  · simp only [ServerPktHeader.isLargePacket,hlarge,decide_false,Bool.false_eq_true,if_false,
      List.nil_append,ServerPktHeader.ofBytes,toNat_ofNat_and,ServerPktHeader.mk.injEq]
    omega

theorem header_eq_cons {h : ServerPktHeader} (hsize : h.size < 2^23) :
    ∃ first rest, h.header = first :: rest ∧ headerLength first = h.getHeaderLength := by
  have hshift8 := Nat.shiftRight_eq_div_pow h.size 8
  have hshift16 := Nat.shiftRight_eq_div_pow h.size 16
  unfold ServerPktHeader.header ServerPktHeader.getHeaderLength ServerPktHeader.isLargePacket
  by_cases hlarge : 0x7FFF < h.size
  · have hhigh : h.size >>> 16 < 2^7 := by omega
    simp only [hlarge,decide_true,if_true,List.singleton_append]
    refine ⟨_,_,rfl,?_⟩
    unfold headerLength
    rw [toNat_ofNat_flagged hhigh,if_pos (by omega)]
  · simp only [hlarge,decide_false,Bool.false_eq_true,if_false,List.nil_append]
    refine ⟨_,_,rfl,?_⟩
    unfold headerLength
    rw [toNat_ofNat_and,if_neg (by omega)]

end Header

section Reading

variable {encrypt decrypt : κ → UInt8 → UInt8 × κ} {pkt : WorldPacket}

theorem WorldPacket.Sendable.serverHeader (hpkt : pkt.Sendable) :
    pkt.serverHeader = ⟨pkt.contents.length+2,pkt.opcode⟩ := by
  have hsize := hpkt.size
  unfold WorldPacket.serverHeader
  rw [Nat.mod_eq_of_lt (by omega)]

/-- Behind the header of a packet, it only takes as many bytes as the packet has. -/
theorem readPacket_header (hinv : Transducer.Inverts encrypt decrypt) (hpkt : pkt.Sendable)
    (key : Option κ) (body : List UInt8) :
    readPacket decrypt key
        ((Transducer.pass encrypt key pkt.serverHeader.header).1 ++ body) =
      if body.length < pkt.contents.length then none
      else some (⟨pkt.opcode,body.take pkt.contents.length⟩,body.drop pkt.contents.length,
        (Transducer.pass encrypt key pkt.serverHeader.header).2) := by
  have hsize := hpkt.size
  have hheader := hpkt.serverHeader
  have hfit : pkt.serverHeader.size < 2^23 := by
    rw [hheader]
    dsimp only
    omega
  have hcmd : pkt.serverHeader.cmd < 2^16 := hpkt.opcode
  obtain ⟨first,rest,hcons,hlen⟩ := header_eq_cons hfit
  have hlength := pkt.serverHeader.length_header
  have hback := hinv.pass key pkt.serverHeader.header
  have hpass := Transducer.length_pass (f := encrypt) key pkt.serverHeader.header
  have hone : (Transducer.pass encrypt key pkt.serverHeader.header).1.take 1 =
      (Transducer.pass encrypt key [first]).1 := by
    rw [Transducer.take_pass,hcons]
    rfl
  have hfirst : (Transducer.pass decrypt key
      (((Transducer.pass encrypt key pkt.serverHeader.header).1 ++ body).take 1)).1 = [first] := by
    rw [List.take_append_of_le_length (by rw [hpass,hcons]; simp),hone,hinv.pass]
  unfold readPacket
  rw [hfirst]
  dsimp only
  rw [hlen,← hlength,← hpass,List.take_left,List.drop_left,hback]
  dsimp only
  rw [if_neg (by simp only [List.length_append]; omega),ofBytes_header hfit hcmd,hheader]
  rfl

theorem readPacket_short (hinv : Transducer.Inverts encrypt decrypt) (hpkt : pkt.Sendable)
    {key : Option κ} {stream : List UInt8}
    (hinitial : stream <+: (Transducer.pass encrypt key pkt.serverHeader.header).1)
    (hshort : stream.length < pkt.serverHeader.header.length) :
    readPacket decrypt key stream = none := by
  have hsize := hpkt.size
  have hheader := hpkt.serverHeader
  have hfit : pkt.serverHeader.size < 2^23 := by
    rw [hheader]
    dsimp only
    omega
  obtain ⟨first,rest,hcons,hlen⟩ := header_eq_cons hfit
  have hlength := pkt.serverHeader.length_header
  have htake := List.prefix_iff_eq_take.mp hinitial
  unfold readPacket
  cases hstream : stream with
  | nil => cases key <;> rfl
  | cons b bs =>
    have hone : (b :: bs).take 1 = (Transducer.pass encrypt key [first]).1 := by
      rw [← hstream,htake,List.take_take,hstream,List.length_cons,Nat.min_eq_left (by omega),
        Transducer.take_pass,hcons]
      rfl
    rw [hone,hinv.pass,← hstream]
    dsimp only
    rw [hlen,if_pos (by omega)]

end Reading

section Log

def Entry.bytes : Entry κ → List UInt8
  | .packet _ bytes => bytes
  | .init _ => []

def Entry.plan : Entry κ → Option κ
  | .packet _ _ => none
  | .init key => some key

def Entry.pkt : Entry κ → Option WorldPacket
  | .packet pkt _ => some pkt
  | .init _ => none

def stream (log : List (Entry κ)) : List UInt8 := log.flatMap Entry.bytes

def plan (log : List (Entry κ)) : List (Option κ) := log.map Entry.plan

def packets (log : List (Entry κ)) : List WorldPacket := log.filterMap Entry.pkt

variable (encrypt : κ → UInt8 → UInt8 × κ)

def Entry.keyAfter (key : Option κ) : Entry κ → Option κ
  | .packet pkt _ => (Transducer.pass encrypt key pkt.serverHeader.header).2
  | .init key => some key

/-- The bytes of an entry are those that its packet has where the cipher stands there. -/
def Entry.Written (key : Option κ) : Entry κ → Prop
  | .packet pkt bytes => pkt.Sendable ∧
    bytes = (Transducer.pass encrypt key pkt.serverHeader.header).1 ++ pkt.contents
  | .init _ => True

def Written : Option κ → List (Entry κ) → Prop
  | _, [] => True
  | key, e :: log => e.Written encrypt key ∧ Written (e.keyAfter encrypt key) log

variable {encrypt} {decrypt : κ → UInt8 → UInt8 × κ}

theorem written_concat {key : Option κ} {log : List (Entry κ)} {e : Entry κ}
    (hlog : Written encrypt key log) (he : e.Written encrypt (log.foldl (Entry.keyAfter encrypt) key)) :
    Written encrypt key (log ++ [e]) := by
  induction log generalizing key with
  | nil => exact ⟨he,trivial⟩
  | cons d log ih => exact ⟨hlog.1,ih hlog.2 he⟩

/-- A client that has got a part of the stream has read a part of the packets, and with all of the
stream it has read all of them. -/
theorem recover_of_initial (hinv : Transducer.Inverts encrypt decrypt) {key : Option κ}
    {log : List (Entry κ)} (hlog : Written encrypt key log) {got : List UInt8}
    (hgot : got <+: stream log) : recover decrypt (plan log) key got <+: packets log ∧
      (got = stream log → recover decrypt (plan log) key got = packets log) := by
  induction log generalizing key got with
  | nil => exact ⟨List.prefix_rfl,fun _ => rfl⟩
  | cons e log ih =>
    obtain ⟨he,hrest⟩ := hlog
    cases e with
    | init key' => exact ih hrest hgot
    | packet pkt bytes =>
      obtain ⟨hpkt,rfl⟩ := he
      have hstream : stream (.packet pkt ((Transducer.pass encrypt key pkt.serverHeader.header).1 ++
          pkt.contents) :: log) = (Transducer.pass encrypt key pkt.serverHeader.header).1 ++
          (pkt.contents ++ stream log) := by
        unfold stream
        rw [List.flatMap_cons,Entry.bytes,List.append_assoc]
      have hpackets : packets (.packet pkt ((Transducer.pass encrypt key
          pkt.serverHeader.header).1 ++ pkt.contents) :: log) = pkt :: packets log := rfl
      rw [hstream] at hgot
      rw [hstream,hpackets]
      simp only [plan,List.map_cons,Entry.plan,recover]
      by_cases hshort : got.length < pkt.serverHeader.header.length
      · have hpass := Transducer.length_pass (f := encrypt) key pkt.serverHeader.header
        have hheader := List.prefix_of_prefix_length_le hgot (List.prefix_append _ _)
          (by omega)
        rw [readPacket_short hinv hpkt hheader hshort]
        refine ⟨List.nil_prefix,fun hall => ?_⟩
        have hlength := congrArg List.length hall
        simp only [List.length_append] at hlength
        omega
      · have hpass := Transducer.length_pass (f := encrypt) key pkt.serverHeader.header
        have hheader := List.prefix_of_prefix_length_le (List.prefix_append _ _) hgot
          (by omega)
        obtain ⟨body,rfl⟩ := hheader
        rw [List.prefix_append_right_inj] at hgot
        rw [readPacket_header hinv hpkt,List.append_right_inj]
        by_cases hbody : body.length < pkt.contents.length
        · rw [if_pos hbody]
          refine ⟨List.nil_prefix,fun hall => ?_⟩
          have hlength := congrArg List.length hall
          simp only [List.length_append] at hlength
          omega
        · rw [if_neg hbody]
          have hcontents := List.prefix_of_prefix_length_le (List.prefix_append _ _) hgot
            (Nat.le_of_not_lt hbody)
          obtain ⟨rest,rfl⟩ := hcontents
          rw [List.prefix_append_right_inj] at hgot
          rw [List.append_right_inj,List.take_left,List.drop_left]
          have hih := ih hrest hgot
          dsimp only
          exact ⟨List.cons_prefix_cons.mpr ⟨rfl,hih.1⟩,fun hall => by rw [← hih.2 hall]; rfl⟩

end Log

section Sockets

variable {encrypt decrypt : κ → UInt8 → UInt8 × κ} {s : OutSocket κ} {pkt : WorldPacket}
  {write write' : Write}

def AuthCrypt.outgoing (crypt : AuthCrypt κ) : Option κ :=
  if crypt.initialized then some crypt.serverEncrypt else none

theorem encryptSend_eq (encrypt : κ → UInt8 → UInt8 × κ) (crypt : AuthCrypt κ) (data : List UInt8) :
    (crypt.encryptSend encrypt data).1 = (Transducer.pass encrypt crypt.outgoing data).1 ∧
      (crypt.encryptSend encrypt data).2.outgoing =
        (Transducer.pass encrypt crypt.outgoing data).2 := by
  unfold AuthCrypt.encryptSend AuthCrypt.outgoing
  cases hinit : crypt.initialized <;> simp [Transducer.pass,hinit]

/-- What has been accepted and not been written yet. -/
def OutSocket.pending (s : OutSocket κ) : List UInt8 :=
  s.outBuffer.data ++ (s.queue.map MessageBlock.data).flatten

def OutSocket.Refuses (s : OutSocket κ) (pkt : WorldPacket) : Prop :=
  s.closing = false ∧ ¬(pkt.sendSize ≤ s.outBuffer.space ∧ s.queue = []) ∧ isFull s.queue

def Write.Takes : Write → Nat → Prop
  | .sent n, len => len ≤ n
  | .blocked, _ => False
  | .failed, _ => False

instance : (write : Write) → (len : Nat) → Decidable (write.Takes len)
  | .sent n, len => inferInstanceAs (Decidable (len ≤ n))
  | .blocked, _ => .isFalse id
  | .failed, _ => .isFalse id

/-- The head of the message queue cannot be written, and there is no room for it any more. -/
def OutSocket.Loses (s : OutSocket κ) (write write' : Write) : Prop :=
  s.closing = false ∧ (s.outBuffer.data.length = 0 ∨ write.Takes s.outBuffer.data.length) ∧
    write' = .blocked ∧ s.queue ≠ [] ∧ isFull s.queue.tail

instance (s : OutSocket κ) (pkt : WorldPacket) : Decidable (s.Refuses pkt) :=
  inferInstanceAs (Decidable (_ ∧ _))

instance (s : OutSocket κ) (write write' : Write) : Decidable (s.Loses write write') :=
  inferInstanceAs (Decidable (_ ∧ _))

theorem sendPacket_open (encrypt : κ → UInt8 → UInt8 × κ) (pkt : WorldPacket)
    (hopen : s.closing = false) : sendPacket encrypt pkt s =
      let (header,crypt) := s.crypt.encryptSend encrypt pkt.serverHeader.header
      if pkt.sendSize ≤ s.outBuffer.space ∧ s.queue = [] then
        (0,{ s with
          crypt := crypt
          outBuffer := ⟨s.outBuffer.data ++ (header ++ pkt.contents),s.outBuffer.size⟩ })
      else if isFull s.queue then (-1,{ s with crypt := crypt })
      else (0,{ s with
        crypt := crypt
        queue := s.queue ++ [⟨header ++ pkt.contents,pkt.sendSize⟩] }) := by
  have hlen := s.crypt.length_encryptSend encrypt pkt.serverHeader.header
  rw [ServerPktHeader.length_header] at hlen
  unfold sendPacket
  generalize s.crypt.encryptSend encrypt pkt.serverHeader.header = r at hlen
  obtain ⟨header,crypt⟩ := r
  have hsize : pkt.sendSize = pkt.contents.length+header.length := by rw [hlen]; rfl
  have hcopy : ∀ b : MessageBlock, pkt.sendSize ≤ b.space →
      (b.copy header).copy pkt.contents = ⟨b.data ++ (header ++ pkt.contents),b.size⟩ := by
    intro b hroom
    have hspace : b.space = b.size-b.data.length := rfl
    rw [MessageBlock.copy_of_le (b := b) (by omega),MessageBlock.copy_of_le,List.append_assoc]
    unfold MessageBlock.space
    simp only [List.length_append]
    omega
  dsimp only
  rw [hopen,if_neg (by simp)]
  by_cases hroom : pkt.sendSize ≤ s.outBuffer.space ∧ s.queue = []
  · rw [if_pos hroom,if_pos hroom,hcopy _ hroom.1]
  · rw [if_neg hroom,if_neg hroom,hcopy ⟨[],pkt.sendSize⟩ (by simp [MessageBlock.space])]
    rfl

theorem sendPacket_cases (encrypt : κ → UInt8 → UInt8 × κ) (s : OutSocket κ) (pkt : WorldPacket) :
    let (header,crypt) := s.crypt.encryptSend encrypt pkt.serverHeader.header
    (s.closing ∧ sendPacket encrypt pkt s = (-1,s)) ∨
    (s.Refuses pkt ∧ sendPacket encrypt pkt s = (-1,{ s with crypt := crypt })) ∨
    ∃ s', sendPacket encrypt pkt s = (0,s') ∧ s'.crypt = crypt ∧ s'.peer = s.peer ∧
      s'.pending = s.pending ++ (header ++ pkt.contents) := by
  dsimp only
  by_cases hclosing : s.closing
  · refine Or.inl ⟨hclosing,?_⟩
    unfold sendPacket
    rw [if_pos hclosing]
  · have hopen : s.closing = false := by simpa using hclosing
    rw [sendPacket_open encrypt pkt hopen]
    dsimp only
    by_cases hroom : pkt.sendSize ≤ s.outBuffer.space ∧ s.queue = []
    · rw [if_pos hroom]
      refine Or.inr (Or.inr ⟨_,rfl,rfl,rfl,?_⟩)
      simp [OutSocket.pending,hroom.2]
    · rw [if_neg hroom]
      by_cases hfull : isFull s.queue
      · rw [if_pos hfull]
        exact Or.inr (Or.inl ⟨⟨hopen,hroom,hfull⟩,rfl⟩)
      · rw [if_neg hfull]
        refine Or.inr (Or.inr ⟨_,rfl,rfl,rfl,?_⟩)
        simp [OutSocket.pending]

theorem cancelWakeupOutput_eq (accepted : Bool) (s : OutSocket κ) :
    ∃ ret active, cancelWakeupOutput accepted s = (ret,{ s with outActive := active }) := by
  unfold cancelWakeupOutput
  split_ifs
  all_goals exact ⟨_,_,rfl⟩

theorem scheduleWakeupOutput_eq (accepted : Bool) (s : OutSocket κ) :
    ∃ ret active, scheduleWakeupOutput accepted s = (ret,{ s with outActive := active }) := by
  unfold scheduleWakeupOutput
  split_ifs
  all_goals exact ⟨_,_,rfl⟩

/-- What a write leaves: nothing is lost, unless the handler is closed for it. -/
structure Wrote (s : OutSocket κ) (r : Int × OutSocket κ) : Prop where
  crypt : r.2.crypt = s.crypt
  peer : r.2.peer <+: s.peer ++ s.pending
  all : r.1 ≠ -1 → r.2.peer ++ r.2.pending = s.peer ++ s.pending

theorem Wrote.of_kept {s : OutSocket κ} (s' : OutSocket κ) (ret : Int) (active : Bool) (hcrypt : s'.crypt = s.crypt)
    (hkept : s'.peer ++ s'.pending = s.peer ++ s.pending) :
    Wrote s (ret,{ s' with outActive := active }) where
  crypt := hcrypt
  peer := by
    rw [← hkept]
    exact List.prefix_append _ _
  all := fun _ => hkept

theorem Wrote.of_failed {s s' : OutSocket κ} (hcrypt : s'.crypt = s.crypt)
    (hpeer : s'.peer <+: s.peer ++ s.pending) : Wrote s (-1,s') where
  crypt := hcrypt
  peer := hpeer
  all := fun hret => absurd rfl hret

theorem handleOutputQueue_wrote (write : Write) (accepted : Bool) (hempty : s.outBuffer.data = [])
    (hkept : ¬(write = .blocked ∧ s.queue ≠ [] ∧ isFull s.queue.tail)) :
    Wrote s (handleOutputQueue write accepted s) := by
  unfold handleOutputQueue
  cases hqueue : s.queue with
  | nil =>
    obtain ⟨ret,active,heq⟩ := cancelWakeupOutput_eq accepted s
    rw [heq]
    exact .of_kept _ ret active rfl rfl
  | cons mblk rest =>
    have hpending : s.pending = mblk.data ++ (rest.map MessageBlock.data).flatten := by
      simp [OutSocket.pending,hempty,hqueue]
    cases write with
    | blocked =>
      have hroom : ¬isFull rest := fun hfull => hkept ⟨rfl,by simp [hqueue],by simpa [hqueue]⟩
      obtain ⟨ret,active,heq⟩ := scheduleWakeupOutput_eq accepted
        { s with queue := if isFull rest then rest else mblk :: rest }
      dsimp only
      rw [heq]
      refine .of_kept _ ret active rfl ?_
      rw [hpending]
      simp [OutSocket.pending,hempty,hroom]
    | failed => exact .of_failed rfl (List.prefix_append _ _)
    | sent n =>
      have hpeer : s.peer ++ mblk.data.take n <+: s.peer ++ s.pending := by
        rw [List.prefix_append_right_inj,hpending]
        exact (List.take_prefix _ _).trans (List.prefix_append _ _)
      dsimp only
      by_cases hzero : n = 0
      · rw [if_pos hzero]
        exact .of_failed rfl hpeer
      · rw [if_neg hzero]
        by_cases hpart : n < mblk.data.length
        · rw [if_pos hpart]
          by_cases hfull : isFull rest
          · rw [if_pos hfull]
            exact .of_failed rfl hpeer
          · rw [if_neg hfull]
            obtain ⟨ret,active,heq⟩ := scheduleWakeupOutput_eq accepted
              { s with peer := s.peer ++ mblk.data.take n
                       queue := { mblk with data := mblk.data.drop n } :: rest }
            rw [heq]
            refine .of_kept _ ret active rfl ?_
            rw [hpending]
            simp only [OutSocket.pending,hempty,List.map_cons,List.flatten_cons,
              List.nil_append,List.append_assoc]
            rw [← List.append_assoc (mblk.data.take n),List.take_append_drop]
        · rw [if_neg hpart,List.take_of_length_le (Nat.le_of_not_lt hpart)]
          have hrest : (s.peer ++ mblk.data) ++ OutSocket.pending { s with
              peer := s.peer ++ mblk.data,queue := rest } = s.peer ++ s.pending := by
            rw [hpending]
            simp [OutSocket.pending,hempty]
          by_cases hlast : rest = []
          · rw [if_pos hlast]
            obtain ⟨ret,active,heq⟩ := cancelWakeupOutput_eq accepted
              { s with peer := s.peer ++ mblk.data,queue := rest }
            rw [heq]
            exact .of_kept _ ret active rfl hrest
          · rw [if_neg hlast]
            exact .of_kept { s with peer := s.peer ++ mblk.data,queue := rest } writeMask s.outActive
              rfl hrest

theorem handleOutput_wrote (accepted : Bool) (hkept : ¬s.Loses write write') :
    Wrote s (handleOutput write write' accepted s) := by
  unfold handleOutput
  by_cases hclosing : s.closing
  · rw [if_pos hclosing]
    exact .of_failed rfl (List.prefix_append _ _)
  · have hopen : s.closing = false := by simpa using hclosing
    rw [if_neg hclosing]
    by_cases hempty : s.outBuffer.data.length = 0
    · rw [if_pos hempty]
      exact handleOutputQueue_wrote write' accepted (List.length_eq_zero_iff.mp hempty)
        fun hloses => hkept ⟨hopen,Or.inl hempty,hloses⟩
    · rw [if_neg hempty]
      cases write with
      | blocked =>
        obtain ⟨ret,active,heq⟩ := scheduleWakeupOutput_eq accepted s
        dsimp only
        rw [heq]
        exact .of_kept _ ret active rfl rfl
      | failed => exact .of_failed rfl (List.prefix_append _ _)
      | sent n =>
        have hpeer : s.peer ++ s.outBuffer.data.take n <+: s.peer ++ s.pending := by
          rw [List.prefix_append_right_inj]
          exact (List.take_prefix _ _).trans (List.prefix_append _ _)
        dsimp only
        by_cases hzero : n = 0
        · rw [if_pos hzero]
          exact .of_failed rfl hpeer
        · rw [if_neg hzero]
          by_cases hpart : n < s.outBuffer.data.length
          · rw [if_pos hpart]
            obtain ⟨ret,active,heq⟩ := scheduleWakeupOutput_eq accepted
              { s with peer := s.peer ++ s.outBuffer.data.take n
                       outBuffer := { s.outBuffer with data := s.outBuffer.data.drop n } }
            rw [heq]
            refine .of_kept _ ret active rfl ?_
            simp only [OutSocket.pending,List.append_assoc]
            rw [← List.append_assoc (s.outBuffer.data.take n),List.take_append_drop]
          · rw [if_neg hpart,List.take_of_length_le (Nat.le_of_not_lt hpart)]
            have hqueue := handleOutputQueue_wrote write' accepted (s := { s with
                peer := s.peer ++ s.outBuffer.data,outBuffer := s.outBuffer.reset }) rfl
              fun hloses => hkept ⟨hopen,Or.inr (Nat.le_of_not_lt hpart),hloses⟩
            have hmoved : (s.peer ++ s.outBuffer.data) ++
                OutSocket.pending { s with
                  peer := s.peer ++ s.outBuffer.data,outBuffer := s.outBuffer.reset } =
                s.peer ++ s.pending := by
              simp [OutSocket.pending,MessageBlock.reset]
            exact ⟨hqueue.crypt,hmoved ▸ hqueue.peer,fun hret => hmoved ▸ hqueue.all hret⟩

end Sockets

/-- A packet fits into its header, and is not refused once its header has been encrypted; the head
of the message queue is not lost. -/
def Kept (s : Sending κ) : Action κ → Prop
  | .sendPacket pkt => pkt.Sendable ∧ ¬(s.socket.crypt.initialized ∧ s.socket.Refuses pkt)
  | .output write write' _ => ¬(s.broken = false ∧ s.socket.Loses write write')
  | .init _ _ => True
  | .close => True

instance (s : Sending κ) : (a : Action κ) → Decidable (Kept s a)
  | .sendPacket _ => inferInstanceAs (Decidable (_ ∧ _))
  | .output _ _ _ => inferInstanceAs (Decidable (¬_))
  | .init _ _ => .isTrue trivial
  | .close => .isTrue trivial

section Runs

variable {encrypt decrypt : κ → UInt8 → UInt8 × κ} {key : Option κ} {s : Sending κ}

/-- The stream is written and read in step: what is pending is what the peer has not got yet. -/
structure InStep (encrypt : κ → UInt8 → UInt8 × κ) (key : Option κ) (s : Sending κ) : Prop where
  written : Written encrypt key s.log
  outgoing : s.socket.crypt.outgoing = s.log.foldl (Entry.keyAfter encrypt) key
  peer : s.socket.peer <+: stream s.log
  pending : s.broken = false → s.socket.peer ++ s.socket.pending = stream s.log

theorem InStep.sendPacket {pkt : WorldPacket} (hs : InStep encrypt key s)
    (hpkt : pkt.Sendable) (hkept : ¬(s.socket.crypt.initialized ∧ s.socket.Refuses pkt)) :
    InStep encrypt key (s.step encrypt (.sendPacket pkt)) := by
  obtain ⟨hbytes,hkey⟩ := encryptSend_eq encrypt s.socket.crypt
    pkt.serverHeader.header
  have hcases := sendPacket_cases encrypt s.socket pkt
  unfold Sending.step
  dsimp only at hcases ⊢
  rcases hcases with ⟨-,heq⟩ | ⟨hrefuses,heq⟩ | ⟨socket,heq,hcrypt,hpeer,hpending⟩
  · rw [heq]
    exact ⟨hs.written,hs.outgoing,hs.peer,hs.pending⟩
  · -- without a key the header is not encrypted
    have hoff : s.socket.crypt.initialized = false := by
      by_contra hon
      exact hkept ⟨by simpa using hon,hrefuses⟩
    have hsame : (s.socket.crypt.encryptSend encrypt pkt.serverHeader.header).2 =
        s.socket.crypt := by
      unfold AuthCrypt.encryptSend
      rw [hoff]
      rfl
    rw [heq,hsame]
    exact ⟨hs.written,hs.outgoing,hs.peer,hs.pending⟩
  · have hstream : stream (s.log ++ [.packet pkt ((s.socket.crypt.encryptSend encrypt
        pkt.serverHeader.header).1 ++ pkt.contents)]) = stream s.log ++
        ((s.socket.crypt.encryptSend encrypt pkt.serverHeader.header).1 ++ pkt.contents) := by
      simp [stream,Entry.bytes]
    rw [heq]
    dsimp only
    rw [if_pos rfl]
    constructor
    case written =>
      refine written_concat hs.written ⟨hpkt,?_⟩
      rw [hbytes,hs.outgoing]
    case outgoing =>
      rw [List.foldl_concat,← hs.outgoing,hcrypt,hkey]
      rfl
    case peer =>
      rw [hpeer,hstream]
      exact hs.peer.trans (List.prefix_append _ _)
    case pending =>
      intro hopen
      rw [hpeer,hpending,hstream,← hs.pending hopen,List.append_assoc]

theorem InStep.init (hs : InStep encrypt key s) (serverEncrypt clientDecrypt : κ) :
    InStep encrypt key (s.step encrypt (.init serverEncrypt clientDecrypt)) := by
  have hstream : stream (s.log ++ [.init serverEncrypt]) = stream s.log := by
    simp [stream,Entry.bytes]
  constructor
  case written => exact written_concat hs.written trivial
  case outgoing =>
    simp only [Sending.step,List.foldl_concat]
    rfl
  case peer =>
    simp only [Sending.step,hstream]
    exact hs.peer
  case pending =>
    intro hopen
    simp only [Sending.step,hstream]
    exact hs.pending hopen

theorem InStep.output {write write' : Write} {accepted : Bool} (hs : InStep encrypt key s)
    (hkept : ¬(s.broken = false ∧ s.socket.Loses write write')) :
    InStep encrypt key (s.step encrypt (.output write write' accepted)) := by
  unfold Sending.step
  dsimp only
  by_cases hbroken : s.broken
  · rw [if_pos hbroken]
    exact hs
  · have hopen : s.broken = false := by simpa using hbroken
    have hwrote := handleOutput_wrote accepted fun hloses => hkept ⟨hopen,hloses⟩
    rw [if_neg hbroken]
    constructor
    case written => exact hs.written
    case outgoing =>
      dsimp only
      rw [hwrote.crypt]
      exact hs.outgoing
    case peer => exact hs.pending hopen ▸ hwrote.peer
    case pending =>
      intro hret
      exact (hwrote.all (of_decide_eq_false hret)).trans (hs.pending hopen)

theorem InStep.step (hs : InStep encrypt key s) (a : Action κ) (hkept : Kept s a) :
    InStep encrypt key (s.step encrypt a) := by
  cases a with
  | sendPacket pkt => exact hs.sendPacket hkept.1 hkept.2
  | init serverEncrypt clientDecrypt => exact hs.init serverEncrypt clientDecrypt
  | output write write' accepted => exact hs.output hkept
  | close => exact ⟨hs.written,hs.outgoing,hs.peer,hs.pending⟩

theorem inStep_fresh (crypt : AuthCrypt κ) :
    InStep encrypt crypt.outgoing (Sending.fresh crypt) where
  written := trivial
  outgoing := rfl
  peer := List.prefix_rfl
  pending := fun _ => rfl

end Runs

/-- The peer has got a part of what was accepted, and a client that decrypts it reads a part of the
packets that were accepted; of all that was accepted, it reads all of them. -/
structure Decodable (decrypt : κ → UInt8 → UInt8 × κ) (key : Option κ) (s : Sending κ) : Prop where
  delivered : s.socket.peer <+: stream s.log
  recovered : recover decrypt (plan s.log) key s.socket.peer <+: packets s.log
  complete : recover decrypt (plan s.log) key (stream s.log) = packets s.log

/-- The stream stays decodable on every run on which no encrypted packet is refused by a full
message queue, and no head of the queue is lost when it is put back. -/
theorem decodable_of_kept {encrypt decrypt : κ → UInt8 → UInt8 × κ}
    (hinv : Transducer.Inverts encrypt decrypt) (crypt : AuthCrypt κ) (actions : List (Action κ))
    (hkept : Run.Guarded (Sending.step encrypt) Kept (Sending.fresh crypt) actions) :
    ∀ pre post, actions = pre ++ post →
      Decodable decrypt crypt.outgoing (Run.exec (Sending.step encrypt) (Sending.fresh crypt) pre) := by
  rintro pre post rfl
  have hstep : ∀ s a, InStep encrypt crypt.outgoing s → Kept s a →
      InStep encrypt crypt.outgoing (s.step encrypt a) := fun s a hs ha => hs.step a ha
  have hs := hkept.of_append.inv hstep (inStep_fresh crypt)
  exact ⟨hs.peer,(recover_of_initial hinv hs.written hs.peer).1,
    (recover_of_initial hinv hs.written List.prefix_rfl).2 rfl⟩

section Example

def shift (key b : UInt8) : UInt8 × UInt8 := (b+key,key+1)

def unshift (key b : UInt8) : UInt8 × UInt8 := (b-key,key+1)

theorem inverts_shift : Transducer.Inverts shift unshift := by
  intro key b
  simp [shift,unshift]

def keptRun : List (Action UInt8) :=
  [.sendPacket ⟨0x1EC,[1,2]⟩,.init 3 4,.sendPacket ⟨0x1EE,[5]⟩,.output (.sent 7) .blocked true,
    .output (.sent 4) .blocked true]

theorem decodable_of_kept_run :
    recover unshift (plan (Run.exec (Sending.step shift) (Sending.fresh ⟨false,0,0⟩) keptRun).log)
      none (Run.exec (Sending.step shift) (Sending.fresh ⟨false,0,0⟩) keptRun).socket.peer =
      [⟨0x1EC,[1,2]⟩,⟨0x1EE,[5]⟩] := by
  have hdecodable := decodable_of_kept inverts_shift ⟨false,0,0⟩ keptRun (by decide +kernel)
    keptRun [] (List.append_nil _).symm
  have hpackets : packets (Run.exec (Sending.step shift) (Sending.fresh ⟨false,0,0⟩) keptRun).log =
      [⟨0x1EC,[1,2]⟩,⟨0x1EE,[5]⟩] := by decide +kernel
  have hall : (Run.exec (Sending.step shift) (Sending.fresh ⟨false,0,0⟩) keptRun).socket.peer =
      stream (Run.exec (Sending.step shift) (Sending.fresh ⟨false,0,0⟩) keptRun).log := by
    decide +kernel
  rw [hall,← hpackets]
  exact hdecodable.complete

/-- The second packet is refused, as the first one fills the message queue. -/
def refusedRun (contents : List UInt8) : List (Action UInt8) :=
  [.sendPacket ⟨1,contents⟩,.sendPacket ⟨2,[]⟩,.output .blocked (.sent (2^23+2)) true,
    .sendPacket ⟨3,[]⟩]

/-- The first packet is all that is in the queue. -/
def filled (contents : List UInt8) (key : UInt8) : OutSocket UInt8 :=
  ⟨false,⟨true,0,key⟩,⟨[],outBufferSize⟩,[⟨[0xFF,0,1,4,4] ++ contents,2^23+2⟩],false,[]⟩

theorem log_refusedRun {contents : List UInt8} (hlen : contents.length = 2^23-3) :
    (Run.exec (Sending.step shift) (Sending.fresh ⟨true,0,0⟩) (refusedRun contents)).log =
      [.packet ⟨1,contents⟩ ([0xFF,0,1,4,4] ++ contents),.packet ⟨3,[]⟩ [9,12,14,12]] := by
  have hserver : (WorldPacket.mk 1 contents).serverHeader = ⟨2^23-1,1⟩ := by
    unfold WorldPacket.serverHeader
    rw [hlen]
    rfl
  have hsize : (WorldPacket.mk 1 contents).sendSize = 2^23+2 := by
    unfold WorldPacket.sendSize
    rw [hserver,hlen]
    rfl
  have hheader : AuthCrypt.encryptSend shift ⟨true,0,0⟩ (ServerPktHeader.header ⟨2^23-1,1⟩) =
      ([0xFF,0,1,4,4],⟨true,0,5⟩) := by rfl
  have hfirst : sendPacket shift ⟨1,contents⟩ (OutSocket.fresh ⟨true,0,0⟩) =
      (0,filled contents 5) := by
    rw [sendPacket_open shift _ rfl,hserver,hsize]
    unfold OutSocket.fresh
    dsimp only
    rw [hheader,if_neg (by simp [MessageBlock.space,outBufferSize]),if_neg (by decide)]
    rfl
  have hsecond : sendPacket shift ⟨2,[]⟩ (filled contents 5) = (-1,filled contents 9) := by
    have hfull : isFull (filled contents 5).queue := by
      simp [isFull,highWaterMark,filled]
    rw [sendPacket_open shift _ rfl]
    dsimp only
    rw [if_neg (by simp [filled]),if_pos hfull]
    rfl
  have hthird : handleOutput .blocked (.sent (2^23+2)) true (filled contents 9) =
      (0,⟨false,⟨true,0,9⟩,⟨[],outBufferSize⟩,[],false,[0xFF,0,1,4,4] ++ contents⟩) := by
    have hdata : ([0xFF,0,1,4,4] ++ contents).length = 2^23+2 := by
      rw [List.length_append,hlen]
      rfl
    have hall : ¬2^23+2 < ([0xFF,0,1,4,4] ++ contents).length := hdata.le.not_gt
    change handleOutputQueue (.sent (2^23+2)) true (filled contents 9) = _
    unfold handleOutputQueue filled
    dsimp only
    rw [if_neg (Nat.succ_ne_zero _),if_neg hall,if_pos rfl,List.take_of_length_le hdata.le]
    rfl
  have hlog : Sending.step shift (Sending.fresh ⟨true,0,0⟩) (.sendPacket ⟨1,contents⟩) =
      ⟨filled contents 5,false,[.packet ⟨1,contents⟩ ([0xFF,0,1,4,4] ++ contents)]⟩ := by
    unfold Sending.step Sending.fresh
    dsimp only
    rw [hfirst,hserver]
    change Sending.mk _ _ [Entry.packet _ ((AuthCrypt.encryptSend shift ⟨true,0,0⟩ _).1 ++ _)] = _
    rw [hheader]
  unfold refusedRun
  rw [Run.exec_cons,hlog]
  simp only [Run.exec_cons,Run.exec_nil,Sending.step,hsecond,hthird]
  rfl

/-- The third packet cannot be read, as its header was encrypted after one that was dropped. -/
theorem not_decodable :
    (∀ pkt, .sendPacket pkt ∈ refusedRun (List.replicate (2^23-3) 0) → pkt.Sendable) ∧
      ¬Decodable unshift (some 0) (Run.exec (Sending.step shift) (Sending.fresh ⟨true,0,0⟩)
        (refusedRun (List.replicate (2^23-3) 0))) := by
  have hlen : (List.replicate (2^23-3) (0 : UInt8)).length = 2^23-3 := List.length_replicate
  generalize List.replicate (2^23-3) (0 : UInt8) = contents at hlen
  have hfirst : (WorldPacket.mk 1 contents).Sendable := ⟨Nat.one_lt_two_pow (by decide),by rw [hlen]; decide⟩
  refine ⟨fun pkt hpkt => ?_,fun hdecodable => ?_⟩
  · simp only [refusedRun,List.mem_cons,Action.sendPacket.injEq,reduceCtorEq,List.not_mem_nil,
      or_false,false_or] at hpkt
    rcases hpkt with rfl | rfl | rfl
    · exact hfirst
    · exact ⟨by decide,by decide⟩
    · exact ⟨by decide,by decide⟩
  · have hcomplete := hdecodable.complete
    have hheader : (Transducer.pass shift (some 0)
        (WorldPacket.mk 1 contents).serverHeader.header) = ([0xFF,0,1,4,4],some 5) := by
      rw [hfirst.serverHeader,hlen]
      have hbytes : ServerPktHeader.header ⟨2^23-1,1⟩ = [0xFF,0xFF,0xFF,1,0] := by rfl
      change Transducer.pass shift (some 0) (ServerPktHeader.header ⟨2^23-1,1⟩) = _
      rw [hbytes]
      rfl
    have hread := readPacket_header inverts_shift hfirst (some 0) (contents ++ [9,12,14,12])
    rw [hheader,if_neg (by simp),List.take_left,List.drop_left] at hread
    simp only [List.cons_append,List.nil_append] at hread
    have hnext : readPacket unshift (some 5) [9,12,14,12] = none := by decide +kernel
    rw [log_refusedRun hlen] at hcomplete
    simp [stream,plan,packets,Entry.bytes,Entry.plan,Entry.pkt,recover,hread,hnext] at hcomplete

end Example

end TrinityCore.Server
