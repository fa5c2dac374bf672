import TrinityCore.Server.WorldSocket

set_option autoImplicit false

namespace TrinityCore.Server

variable {κ ρ : Type}

section Parse

variable (h : Callees κ ρ)

/-- What follows a header: the packet, if all of it is there, and then what comes of the rest. -/
def framePayload (next : List UInt8 → Connection κ ρ → List WorldPacket × Bool)
    (header : ClientPktHeader) (stream : List UInt8) (conn : Connection κ ρ) :
    List WorldPacket × Bool :=
  if stream.length < header.size-4 then ([],false)
  else
    let packet : WorldPacket := ⟨header.cmd % 2^16,stream.take (header.size-4)⟩
    let (ret,conn) := processIncoming h packet conn
    if ret = -1 then ([packet],true)
    else
      let (packets,rejected) := next (stream.drop (header.size-4)) conn
      (packet :: packets,rejected)

def frames : Nat → List UInt8 → Connection κ ρ → List WorldPacket × Bool
  | 0, _, _ => ([],false)
  | n+1, stream, conn =>
    if stream.length < sizeofClientPktHeader then ([],false)
    else
      let (bytes,crypt) :=
        conn.crypt.decryptRecv h.update (stream.take sizeofClientPktHeader)
      let header := ClientPktHeader.ofBytes bytes
      if header.malformed then ([],true)
      else framePayload h (frames n) header (stream.drop sizeofClientPktHeader)
        { conn with crypt := crypt }

/-- Every packet takes something of the stream, so that its length is enough. -/
def parse (stream : List UInt8) (conn : Connection κ ρ) : List WorldPacket × Bool :=
  frames h stream.length stream conn

variable {h}

theorem framePayload_congr {next next' : List UInt8 → Connection κ ρ → List WorldPacket × Bool}
    {header : ClientPktHeader} {stream : List UInt8} {conn : Connection κ ρ}
    (hsame : ∀ rest conn, rest.length ≤ stream.length → next rest conn = next' rest conn) :
    framePayload h next header stream conn = framePayload h next' header stream conn := by
  have hrest : (stream.drop (header.size-4)).length ≤ stream.length := by simp
  unfold framePayload
  simp only [hsame _ _ hrest]

theorem frames_fuel {n m : Nat} {stream : List UInt8} {conn : Connection κ ρ}
    (hn : stream.length ≤ n) (hm : stream.length ≤ m) :
    frames h n stream conn = frames h m stream conn := by
  induction n generalizing m stream conn with
  | zero =>
    cases m with
    | zero => rfl
    | succ m => simp [frames,Nat.le_zero.mp hn,sizeofClientPktHeader]
  | succ n ih =>
    cases m with
    | zero => simp [frames,Nat.le_zero.mp hm,sizeofClientPktHeader]
    | succ m =>
      simp only [frames]
      split_ifs with hshort hbad
      · rfl
      · rfl
      · refine framePayload_congr fun rest conn hrest => ih ?_ ?_
        all_goals simp only [List.length_drop,sizeofClientPktHeader] at hshort hrest; omega

theorem parse_short {stream : List UInt8} (conn : Connection κ ρ)
    (hshort : stream.length < sizeofClientPktHeader) : parse h stream conn = ([],false) := by
  unfold parse
  cases hlen : stream.length with
  | zero => rfl
  | succ n => rw [frames,if_pos hshort]

theorem parse_header {bytes : List UInt8} (rest : List UInt8) (conn : Connection κ ρ)
    (hlen : bytes.length = sizeofClientPktHeader) : parse h (bytes ++ rest) conn =
      if (ClientPktHeader.ofBytes (conn.crypt.decryptRecv h.update bytes).1).malformed then ([],true)
      else framePayload h (parse h)
        (ClientPktHeader.ofBytes (conn.crypt.decryptRecv h.update bytes).1) rest
        { conn with crypt := (conn.crypt.decryptRecv h.update bytes).2 } := by
  have hpos : sizeofClientPktHeader = 6 := rfl
  have htotal : (bytes ++ rest).length = (bytes.length-1+rest.length)+1 := by
    simp only [List.length_append]
    omega
  unfold parse
  rw [htotal,frames,if_neg (by simp only [List.length_append]; omega),← hlen,List.take_left,
    List.drop_left]
  dsimp only
  split_ifs
  · rfl
  · exact framePayload_congr fun rest' conn hrest => frames_fuel (by omega) le_rfl

end Parse

def Delivery.Whole (d : Delivery) : Prop :=
  4 ≤ d.header.size ∧ d.packet.contents.length = d.header.size-4 ∧
    d.packet.opcode = d.header.cmd % 2^16

/-- The socket waits for the rest of a header, or for the rest of a packet that is not empty. -/
structure Ready (s : WorldSocket κ ρ) : Prop where
  size : s.header.size = sizeofClientPktHeader
  noPacket : s.recvWPct = none → s.header.data.length < sizeofClientPktHeader ∧ s.recvPct = ⟨[],0⟩
  packet : ∀ header, s.recvWPct = some header →
    s.header.data.length = sizeofClientPktHeader ∧ 4 ≤ header.size ∧
    s.recvPct.size = header.size-4 ∧ s.recvPct.data.length < s.recvPct.size

def remaining (h : Callees κ ρ) (s : WorldSocket κ ρ) (later : List UInt8) :
    List WorldPacket × Bool :=
  match s.recvWPct with
  | none => parse h (s.header.data ++ later) s.conn
  | some header => framePayload h (parse h) header (s.recvPct.data ++ later) s.conn

structure Brings (before : List Delivery) (todo : List UInt8 → List WorldPacket × Bool)
    (s : WorldSocket κ ρ) (rest : List UInt8 → List WorldPacket × Bool) (new : List Delivery) :
    Prop where
  delivered : s.delivered = before ++ new
  whole : ∀ d ∈ new, d.Whole
  todo_eq : ∀ later, todo later = (new.map Delivery.packet ++ (rest later).1,(rest later).2)

def Agrees (h : Callees κ ρ) (before : List Delivery)
    (todo : List UInt8 → List WorldPacket × Bool) : Outcome κ ρ (List UInt8) → Prop
  | .ok block s => Ready s ∧
    ∃ new, Brings before todo s (fun later => remaining h s (block ++ later)) new
  | .error .wouldBlock s => Ready s ∧ ∃ new, Brings before todo s (remaining h s) new
  | .error .invalid s => ∃ new, Brings before todo s (fun _ => ([],true)) new
  | .error _ _ => False

section Blocks

variable {h : Callees κ ρ} {s : WorldSocket κ ρ} {header : ClientPktHeader} {block : List UInt8}

theorem Brings.trans {before : List Delivery} {todo rest rest' : List UInt8 → List WorldPacket × Bool}
    {s' : WorldSocket κ ρ} {new new' : List Delivery} (h₁ : Brings before todo s rest new)
    (h₂ : Brings s.delivered rest s' rest' new') : Brings before todo s' rest' (new ++ new') where
  delivered := by rw [h₂.delivered,h₁.delivered,List.append_assoc]
  whole := by
    intro d hd
    rcases List.mem_append.mp hd with hd | hd
    · exact h₁.whole d hd
    · exact h₂.whole d hd
  todo_eq := by
    intro later
    rw [h₁.todo_eq,h₂.todo_eq]
    simp

theorem Agrees.after {before : List Delivery} {todo rest : List UInt8 → List WorldPacket × Bool}
    {new : List Delivery} {o : Outcome κ ρ (List UInt8)} (hagrees : Agrees h s.delivered rest o)
    (hbrings : Brings before todo s rest new) : Agrees h before todo o := by
  cases o with
  | ok block' s' =>
    obtain ⟨hready,new',hnew⟩ := hagrees
    exact ⟨hready,_,hbrings.trans hnew⟩
  | error stop s' =>
    cases stop with
    | wouldBlock =>
      obtain ⟨hready,new',hnew⟩ := hagrees
      exact ⟨hready,_,hbrings.trans hnew⟩
    | invalid =>
      obtain ⟨new',hnew⟩ := hagrees
      exact ⟨_,hbrings.trans hnew⟩
    | closed => exact hagrees
    | assertion => exact hagrees
    | stuck => exact hagrees

theorem handleInputPayload_agrees (block : List UInt8) (hsize : s.header.size = sizeofClientPktHeader)
    (hlen : s.header.data.length = sizeofClientPktHeader) (hpacket : s.recvWPct = some header)
    (hfour : 4 ≤ header.size) (hdata : s.recvPct.data.length = header.size-4)
    (hfull : s.recvPct.size = header.size-4) :
    Agrees h s.delivered (fun later => framePayload h (parse h) header
      (s.recvPct.data ++ (block ++ later)) s.conn)
      (leaving block (handleInputPayload h s)) := by
  have h1 : s.recvPct.space = 0 := by
    unfold MessageBlock.space
    omega
  have h2 : s.header.space = 0 := by
    unfold MessageBlock.space
    omega
  have hpayload : ∀ later, framePayload h (parse h) header (s.recvPct.data ++ (block ++ later)) s.conn =
      (let (ret,conn) := processIncoming h ⟨header.cmd % 2^16,s.recvPct.data⟩ s.conn
      if ret = -1 then ([⟨header.cmd % 2^16,s.recvPct.data⟩],true)
      else (⟨header.cmd % 2^16,s.recvPct.data⟩ :: (parse h (block ++ later) conn).1,
        (parse h (block ++ later) conn).2)) := by
    intro later
    unfold framePayload
    rw [if_neg (by simp only [List.length_append]; omega),← hdata,List.take_left,List.drop_left]
  unfold handleInputPayload
  simp only [h1,h2,ne_eq,not_true_eq_false,if_false,hpacket]
  generalize hrun : processIncoming h ⟨header.cmd % 2^16,s.recvPct.data⟩ s.conn = r at hpayload
  obtain ⟨ret,conn⟩ := r
  dsimp only at hpayload ⊢
  by_cases hret : ret = -1
  · simp only [hret,if_true] at hpayload ⊢
    refine ⟨[⟨header,⟨header.cmd % 2^16,s.recvPct.data⟩⟩],rfl,?_,hpayload⟩
    intro d hd
    obtain rfl := List.mem_singleton.mp hd
    exact ⟨hfour,hdata,rfl⟩
  · simp only [hret,if_false] at hpayload ⊢
    refine ⟨⟨hsize,fun _ => ⟨by simp [MessageBlock.reset,sizeofClientPktHeader],rfl⟩,by simp⟩,
      [⟨header,⟨header.cmd % 2^16,s.recvPct.data⟩⟩],rfl,?_,hpayload⟩
    intro d hd
    obtain rfl := List.mem_singleton.mp hd
    exact ⟨hfour,hdata,rfl⟩

theorem receivePayload_agrees (block : List UInt8) (hsize : s.header.size = sizeofClientPktHeader)
    (hlen : s.header.data.length = sizeofClientPktHeader) (hpacket : s.recvWPct = some header)
    (hfour : 4 ≤ header.size) (hfull : s.recvPct.size = header.size-4)
    (hdata : s.recvPct.data.length ≤ s.recvPct.size) :
    Agrees h s.delivered (fun later => framePayload h (parse h) header
      (s.recvPct.data ++ (block ++ later)) s.conn) (receivePayload h block s) := by
  unfold receivePayload
  rw [if_neg (by simp [hpacket])]
  dsimp only
  by_cases hspace : 0 < s.recvPct.space
  · have hspace' : s.recvPct.space = s.recvPct.size-s.recvPct.data.length := rfl
    by_cases hmore : s.recvPct.space < block.length
    · -- the packet is complete
      have htake : (block.take s.recvPct.space).length = s.recvPct.space :=
        List.length_take_of_le hmore.le
      have hcopy := MessageBlock.copy_of_le htake.le
      have hdone : ¬ 0 < (MessageBlock.mk (s.recvPct.data ++ block.take s.recvPct.space)
          s.recvPct.size).space := by
        unfold MessageBlock.space at *
        simp only [List.length_append]
        omega
      have hagrees := handleInputPayload_agrees (h := h) (block.drop s.recvPct.space)
        (s := { s with recvPct := ⟨s.recvPct.data ++ block.take s.recvPct.space,s.recvPct.size⟩ })
        hsize hlen hpacket hfour
        (by simp only [List.length_append]; omega) hfull
      simp only [List.append_assoc] at hagrees
      simp only [← List.append_assoc (block.take _),List.take_append_drop] at hagrees
      simpa only [hspace,hmore,if_true,hcopy,hdone,and_false,if_false] using hagrees
    · by_cases hexact : block.length = s.recvPct.space
      · have hcopy : s.recvPct.copy block = ⟨s.recvPct.data ++ block,s.recvPct.size⟩ :=
          MessageBlock.copy_of_le hexact.le
        have hdone : ¬ 0 < (MessageBlock.mk (s.recvPct.data ++ block) s.recvPct.size).space := by
          unfold MessageBlock.space at *
          simp only [List.length_append]
          omega
        have hagrees := handleInputPayload_agrees (h := h) []
          (s := { s with recvPct := ⟨s.recvPct.data ++ block,s.recvPct.size⟩ })
          hsize hlen hpacket hfour
          (by simp only [List.length_append]; omega) hfull
        simp only [List.append_assoc,List.nil_append] at hagrees
        simpa only [hspace,hmore,if_true,if_false,List.take_length,List.drop_length,hcopy,hdone,
          and_false] using hagrees
      · -- the packet goes on in the next block
        have hcopy : s.recvPct.copy block = ⟨s.recvPct.data ++ block,s.recvPct.size⟩ :=
          MessageBlock.copy_of_le (by omega)
        have hopen : 0 < (MessageBlock.mk (s.recvPct.data ++ block) s.recvPct.size).space := by
          unfold MessageBlock.space at *
          simp only [List.length_append]
          omega
        simp only [hspace,hmore,if_true,if_false,List.take_length,List.drop_length,hcopy,hopen,
          and_true,ne_eq,not_true_eq_false]
        refine ⟨⟨hsize,fun hnone => by simp [hpacket] at hnone,fun header' hheader => ?_⟩,[],
          by simp,by simp,fun later => ?_⟩
        · obtain rfl : header = header' := Option.some.inj (hpacket.symm.trans hheader)
          unfold MessageBlock.space at hopen
          exact ⟨hlen,hfour,hfull,by dsimp only at hopen ⊢; omega⟩
        · simp [remaining,hpacket]
  · have hdone : s.recvPct.data.length = header.size-4 := by
      unfold MessageBlock.space at hspace
      omega
    have hagrees := handleInputPayload_agrees (h := h) block hsize hlen hpacket hfour
      hdone hfull
    simpa only [hspace,if_false,and_false,false_and] using hagrees

theorem handleInputHeader_eq (hlen : s.header.data.length = sizeofClientPktHeader)
    (hpacket : s.recvWPct = none) (hempty : s.recvPct = ⟨[],0⟩) : handleInputHeader h s =
      let (bytes,crypt) := s.conn.crypt.decryptRecv h.update s.header.data
      let header := ClientPktHeader.ofBytes bytes
      let s := { s with
        conn := { s.conn with crypt := crypt }
        header := { s.header with data := bytes } }
      if header.malformed then .error .invalid s
      else .ok () { s with recvWPct := some header,recvPct := ⟨[],header.size-4⟩ } := by
  unfold handleInputHeader
  simp only [hpacket,hlen,ne_eq,not_true_eq_false,if_false]
  generalize ClientPktHeader.ofBytes (s.conn.crypt.decryptRecv h.update s.header.data).1 = header
  by_cases hbad : header.malformed
  · simp only [hbad,if_true]
  · by_cases hsize : 0 < header.size-4
    · simp only [hbad,hsize,if_false,if_true]
    · have hzero : header.size-4 = 0 := by omega
      simp [hbad,hzero,hempty,MessageBlock.space]

theorem receiveHeader_agrees (block : List UInt8) (hsize : s.header.size = sizeofClientPktHeader)
    (hlen : s.header.data.length = sizeofClientPktHeader) (hpacket : s.recvWPct = none)
    (hempty : s.recvPct = ⟨[],0⟩) :
    Agrees h s.delivered (fun later => parse h (s.header.data ++ (block ++ later)) s.conn)
      (receiveHeader h block s) := by
  unfold receiveHeader
  rw [handleInputHeader_eq hlen hpacket hempty]
  have hbytes := s.conn.crypt.length_decryptRecv h.update s.header.data
  have hparse := fun later => parse_header (h := h) (block ++ later) s.conn hlen
  generalize s.conn.crypt.decryptRecv h.update s.header.data = r at hbytes hparse
  obtain ⟨bytes,crypt⟩ := r
  dsimp only at hbytes hparse ⊢
  by_cases hbad : (ClientPktHeader.ofBytes bytes).malformed
  · simp only [hbad,if_true] at hparse ⊢
    exact ⟨[],by simp,by simp,fun later => by simp [hparse]⟩
  · simp only [hbad,if_false] at hparse ⊢
    simp only [hparse]
    have hfour : 4 ≤ (ClientPktHeader.ofBytes bytes).size := by
      by_contra hlow
      exact hbad (Or.inl (by omega))
    exact receivePayload_agrees block (s := { s with
        conn := { s.conn with crypt := crypt }
        header := { s.header with data := bytes }
        recvWPct := some (ClientPktHeader.ofBytes bytes)
        recvPct := ⟨[],(ClientPktHeader.ofBytes bytes).size-4⟩ })
      hsize (hbytes.trans hlen) rfl hfour rfl (Nat.zero_le _)

theorem receiveTurn_agrees (block : List UInt8) (hready : Ready s) :
    Agrees h s.delivered (fun later => remaining h s (block ++ later)) (receiveTurn h block s) := by
  unfold receiveTurn
  rcases Option.eq_none_or_eq_some s.recvWPct with hpacket | ⟨header,hpacket⟩
  case inr =>
    obtain ⟨hlen,hfour,hfull,hdata⟩ := hready.packet header hpacket
    have hdone : ¬ 0 < s.header.space := by
      unfold MessageBlock.space
      have := hready.size
      omega
    simp only [hdone,if_false,remaining,hpacket]
    exact receivePayload_agrees block hready.size hlen hpacket hfour hfull hdata.le
  case inl =>
    obtain ⟨hlen,hempty⟩ := hready.noPacket hpacket
    have hsize := hready.size
    have hspace' : s.header.space = s.header.size-s.header.data.length := rfl
    have hspace : 0 < s.header.space := by omega
    have htodo : ∀ later, remaining h s later = parse h (s.header.data ++ later) s.conn :=
      fun later => by simp only [remaining,hpacket]
    simp only [htodo]
    by_cases hmore : s.header.space < block.length
    · have htake : (block.take s.header.space).length = s.header.space :=
        List.length_take_of_le hmore.le
      have hcopy := MessageBlock.copy_of_le htake.le
      have hdone : ¬ 0 < (MessageBlock.mk (s.header.data ++ block.take s.header.space)
          s.header.size).space := by
        unfold MessageBlock.space at *
        simp only [List.length_append]
        omega
      have hagrees := receiveHeader_agrees (h := h) (block.drop s.header.space)
        (s := { s with header := ⟨s.header.data ++ block.take s.header.space,s.header.size⟩ })
        hsize (by simp only [List.length_append]; omega) hpacket hempty
      simp only [List.append_assoc] at hagrees
      simp only [← List.append_assoc (block.take _),List.take_append_drop] at hagrees
      simpa only [hspace,hmore,if_true,hcopy,hdone,if_false] using hagrees
    · by_cases hexact : block.length = s.header.space
      · have hcopy : s.header.copy block = ⟨s.header.data ++ block,s.header.size⟩ :=
          MessageBlock.copy_of_le hexact.le
        have hdone : ¬ 0 < (MessageBlock.mk (s.header.data ++ block) s.header.size).space := by
          unfold MessageBlock.space at *
          simp only [List.length_append]
          omega
        have hagrees := receiveHeader_agrees (h := h) []
          (s := { s with header := ⟨s.header.data ++ block,s.header.size⟩ })
          hsize (by simp only [List.length_append]; omega) hpacket hempty
        simp only [List.append_assoc,List.nil_append] at hagrees
        simpa only [hspace,hmore,if_true,if_false,List.take_length,List.drop_length,hcopy,hdone]
          using hagrees
      · -- the header goes on in the next block
        have hcopy : s.header.copy block = ⟨s.header.data ++ block,s.header.size⟩ :=
          MessageBlock.copy_of_le (by omega)
        have hopen : 0 < (MessageBlock.mk (s.header.data ++ block) s.header.size).space := by
          unfold MessageBlock.space at *
          simp only [List.length_append]
          omega
        simp only [hspace,hmore,if_true,if_false,List.take_length,List.drop_length,hcopy,hopen,
          ne_eq,not_true_eq_false]
        refine ⟨⟨hsize,fun _ => ⟨?_,hempty⟩,fun header hheader => ?_⟩,[],by simp,by simp,
          fun later => by simp [remaining,hpacket]⟩
        · unfold MessageBlock.space at hopen
          dsimp only at hopen ⊢
          omega
        · simp [hpacket] at hheader

theorem leaving_ok {block' : List UInt8} {o : Outcome κ ρ Unit} {s' : WorldSocket κ ρ}
    (hok : leaving block o = .ok block' s') : block' = block := by
  cases o with
  | ok a s => exact (EStateM.Result.ok.inj hok).1.symm
  | error stop s => cases hok

theorem receivePayload_ok {block' : List UInt8} {s' : WorldSocket κ ρ}
    (hrun : receivePayload h block s = .ok block' s') :
    block'.length = block.length-s.recvPct.space := by
  unfold receivePayload at hrun
  dsimp only at hrun
  split_ifs at hrun with hnone hspace hmore _ _ hopen
  · rw [leaving_ok hrun,List.length_drop]
  · rw [leaving_ok hrun,List.length_drop]
    omega
  · rw [leaving_ok hrun]
    omega

theorem receiveTurn_shorter {block' : List UInt8} {s' : WorldSocket κ ρ} (hready : Ready s)
    (hblock : block ≠ []) (hrun : receiveTurn h block s = .ok block' s') :
    block'.length < block.length := by
  have hpos := List.length_pos_of_ne_nil hblock
  unfold receiveTurn at hrun
  dsimp only at hrun
  by_cases hspace : 0 < s.header.space
  · rw [if_pos hspace] at hrun
    split_ifs at hrun
    all_goals
      unfold receiveHeader at hrun
      split at hrun
      case h_1 =>
        have hlen := receivePayload_ok hrun
        simp only [List.length_drop] at hlen
        omega
      case h_2 => cases hrun
  · rw [if_neg hspace] at hrun
    have hlen := receivePayload_ok hrun
    have hspace' : s.header.space = s.header.size-s.header.data.length := rfl
    have hsize := hready.size
    rcases Option.eq_none_or_eq_some s.recvWPct with hpacket | ⟨header,hpacket⟩
    · have := (hready.noPacket hpacket).1
      omega
    · obtain ⟨-,-,-,hdata⟩ := hready.packet header hpacket
      have hspace' : s.recvPct.space = s.recvPct.size-s.recvPct.data.length := rfl
      omega

theorem receiveLoop_agrees (block : List UInt8) {turns : Nat} (hready : Ready s) (hturns : block.length ≤ turns) :
    Agrees h s.delivered (fun later => remaining h s (block ++ later))
      (leaving [] (receiveLoop h turns block s)) := by
  induction turns generalizing block s with
  | zero =>
    obtain rfl := List.length_eq_zero_iff.mp (Nat.le_zero.mp hturns)
    exact ⟨hready,[],by simp,by simp,fun later => rfl⟩
  | succ turns ih =>
    unfold receiveLoop
    by_cases hblock : block = []
    · subst hblock
      exact ⟨hready,[],by simp,by simp,fun later => rfl⟩
    · rw [if_neg hblock]
      dsimp only
      have hturn := receiveTurn_agrees (h := h) block hready
      cases hrun : receiveTurn h block s with
      | ok block' s' =>
        have hshorter := receiveTurn_shorter hready hblock hrun
        rw [hrun] at hturn
        obtain ⟨hready',new,hbrings⟩ := hturn
        exact (ih block' hready' (by omega)).after hbrings
      | error stop s' =>
        rw [hrun] at hturn
        exact hturn

theorem remaining_nil (hready : Ready s) : remaining h s [] = ([],false) := by
  unfold remaining
  simp only [List.append_nil]
  split
  case h_1 hpacket => exact parse_short _ (hready.noPacket hpacket).1
  case h_2 header hpacket =>
    obtain ⟨-,-,hfull,hdata⟩ := hready.packet header hpacket
    unfold framePayload
    rw [if_pos (by omega)]

/-- The packets of a stream that has ended come out, and it is rejected where parsing rejects it. -/
structure Received (h : Callees κ ρ) (s : WorldSocket κ ρ) (stream : List UInt8)
    (stop : Option Stop) (s' : WorldSocket κ ρ) (new : List Delivery) : Prop where
  delivered : s'.delivered = s.delivered ++ new
  whole : ∀ d ∈ new, d.Whole
  packets : (new.map Delivery.packet,decide (stop = some .invalid)) = remaining h s stream
  open_or_invalid : stop = none ∨ stop = some .invalid

theorem Brings.received {before : List UInt8} {stream : List UInt8} {s' s'' : WorldSocket κ ρ}
    {stop : Option Stop} {new new' : List Delivery}
    (hbrings : Brings s.delivered (fun later => remaining h s (before ++ later)) s'
      (remaining h s') new) (hrest : Received h s' stream stop s'' new') :
    Received h s (before ++ stream) stop s'' (new ++ new') where
  delivered := by rw [hrest.delivered,hbrings.delivered,List.append_assoc]
  whole := by
    intro d hd
    rcases List.mem_append.mp hd with hd | hd
    · exact hbrings.whole d hd
    · exact hrest.whole d hd
  packets := by rw [hbrings.todo_eq stream,← hrest.packets,List.map_append]
  open_or_invalid := hrest.open_or_invalid

theorem receiveAll_received {chunks : List (List UInt8)} (hready : Ready s)
    (hchunks : ∀ received ∈ chunks, received ≠ []) :
    ∃ new, Received h s chunks.flatten (receiveAll h chunks s).1 (receiveAll h chunks s).2 new := by
  induction chunks generalizing s with
  | nil => exact ⟨[],by simp [receiveAll],by simp,(remaining_nil hready).symm,Or.inl rfl⟩
  | cons received more ih =>
    have hempty : ¬received.length = 0 := fun hzero =>
      hchunks received (List.mem_cons_self ..) (List.length_eq_zero_iff.mp hzero)
    have hmore := fun c hc => hchunks c (List.mem_cons_of_mem received hc)
    rw [List.flatten_cons]
    unfold receiveAll handleInputMissingData
    rw [if_neg hempty]
    have hloop := receiveLoop_agrees (h := h) received hready le_rfl
    cases hrun : receiveLoop h received.length received s with
    | ok _ s' =>
      rw [hrun] at hloop
      obtain ⟨hready',new,hbrings⟩ := hloop
      obtain ⟨new',hrest⟩ := ih hready' hmore
      exact ⟨_,hbrings.received hrest⟩
    | error stop s' =>
      rw [hrun] at hloop
      cases stop with
      | wouldBlock =>
        obtain ⟨hready',new,hbrings⟩ := hloop
        obtain ⟨new',hrest⟩ := ih hready' hmore
        exact ⟨_,hbrings.received hrest⟩
      | invalid =>
        obtain ⟨new,hbrings⟩ := hloop
        have hpackets := hbrings.todo_eq more.flatten
        simp only [List.append_nil] at hpackets
        exact ⟨new,hbrings.delivered,hbrings.whole,by rw [hpackets]; rfl,Or.inr rfl⟩
      | closed => exact hloop.elim
      | assertion => exact hloop.elim
      | stuck => exact hloop.elim

theorem ready_fresh (conn : Connection κ ρ) : Ready (WorldSocket.fresh conn) where
  size := rfl
  noPacket := fun _ => ⟨Nat.succ_pos _,rfl⟩
  packet := fun _ hpacket => by cases hpacket

end Blocks

/-- In whatever pieces the bytes of a client are received, what `ProcessIncoming` is called with,
and whether the connection is rejected after it, are those of the bytes taken as one stream. Every
packet is as long as its header says, and no assertion fails. -/
theorem receiveAll_parse (h : Callees κ ρ) (conn : Connection κ ρ) (chunks : List (List UInt8))
    (hchunks : ∀ received ∈ chunks, received ≠ []) :
    let r := receiveAll h chunks (WorldSocket.fresh conn)
    (r.2.delivered.map Delivery.packet,decide (r.1 = some .invalid)) = parse h chunks.flatten conn ∧
      (∀ d ∈ r.2.delivered, d.Whole) ∧ (r.1 = none ∨ r.1 = some .invalid) := by
  obtain ⟨new,hreceived⟩ := receiveAll_received (h := h) (ready_fresh conn) hchunks
  have hdelivered : (receiveAll h chunks (WorldSocket.fresh conn)).2.delivered = new :=
    hreceived.delivered
  dsimp only
  rw [hdelivered]
  exact ⟨hreceived.packets,hreceived.whole,hreceived.open_or_invalid⟩

def plainCallees : Callees Unit Unit :=
  ⟨fun _ b => (b,()),fun _ c => (some 0,c),fun _ c => (some 0,c),fun _ r => r⟩

def plainConnection : Connection Unit Unit := ⟨false,false,⟨false,(),()⟩,()⟩

def pieces : List (List UInt8) := [[0],[5,7,4,0],[0,9,0],[4,1,0,0,0]]

theorem receiveAll_parse_pieces :
    (receiveAll plainCallees pieces (WorldSocket.fresh plainConnection)).2.delivered.map
        Delivery.packet = [⟨cmsgKeepAlive,[9]⟩,⟨1,[]⟩] ∧
      (receiveAll plainCallees pieces (WorldSocket.fresh plainConnection)).1 = some .invalid := by
  have hreceived := (receiveAll_parse plainCallees plainConnection pieces (by decide)).1
  have hparse : parse plainCallees pieces.flatten plainConnection =
      ([⟨cmsgKeepAlive,[9]⟩,⟨1,[]⟩],true) := by decide +kernel
  rw [hparse,Prod.mk.injEq] at hreceived
  exact ⟨hreceived.1,of_decide_eq_true hreceived.2⟩

end TrinityCore.Server
