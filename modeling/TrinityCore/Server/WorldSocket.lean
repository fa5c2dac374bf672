import TrinityCore.Lib.Transducer

set_option autoImplicit false

/-!
How a `WorldSocket` takes packets out of what it receives from a client. The cipher, and what is
done with a packet, are given from outside. Locks, log lines and script hooks are left out.
-/

namespace TrinityCore.Server

def sizeofClientPktHeader : Nat := 6

def cmsgPing : Nat := 0x1DC

def cmsgAuthSession : Nat := 0x1ED

def cmsgKeepAlive : Nat := 0x407

structure ClientPktHeader where
  size : Nat
  cmd : Nat
  deriving DecidableEq, Repr

/-- The size comes with the high byte first, the command with the low byte first. -/
def ClientPktHeader.ofBytes (bytes : List UInt8) : ClientPktHeader :=
  let byte (i : Nat) : Nat := (bytes.getD i 0).toNat
  ⟨byte 0*2^8+byte 1,byte 2+byte 3*2^8+byte 4*2^16+byte 5*2^24⟩

structure WorldPacket where
  opcode : Nat
  contents : List UInt8
  deriving DecidableEq, Repr

structure AuthCrypt (κ : Type) where
  initialized : Bool
  clientDecrypt : κ
  serverEncrypt : κ

namespace AuthCrypt

variable {κ : Type} (update : κ → UInt8 → UInt8 × κ) (crypt : AuthCrypt κ)

def decryptRecv (data : List UInt8) : List UInt8 × AuthCrypt κ :=
  if crypt.initialized then
    let (data,key) := Transducer.run update crypt.clientDecrypt data
    (data,{ crypt with clientDecrypt := key })
  else (data,crypt)

def encryptSend (data : List UInt8) : List UInt8 × AuthCrypt κ :=
  if crypt.initialized then
    let (data,key) := Transducer.run update crypt.serverEncrypt data
    (data,{ crypt with serverEncrypt := key })
  else (data,crypt)

@[simp] theorem length_decryptRecv (data : List UInt8) :
    (crypt.decryptRecv update data).1.length = data.length := by
  unfold decryptRecv
  split_ifs <;> simp

@[simp] theorem length_encryptSend (data : List UInt8) :
    (crypt.encryptSend update data).1.length = data.length := by
  unfold encryptSend
  split_ifs <;> simp

end AuthCrypt

structure MessageBlock where
  data : List UInt8
  size : Nat
  deriving DecidableEq, Repr

namespace MessageBlock

def space (b : MessageBlock) : Nat := b.size-b.data.length

/-- Nothing is copied where it does not fit in. -/
def copy (b : MessageBlock) (buf : List UInt8) : MessageBlock :=
  if b.space < buf.length then b else { b with data := b.data ++ buf }

def reset (b : MessageBlock) : MessageBlock := { b with data := [] }

theorem copy_of_le {b : MessageBlock} {buf : List UInt8} (hle : buf.length ≤ b.space) :
    b.copy buf = ⟨b.data ++ buf,b.size⟩ := by
  unfold copy
  rw [if_neg (by omega)]

end MessageBlock

structure Connection (κ ρ : Type) where
  closing : Bool
  /-- There is an `m_Session`. -/
  session : Bool
  crypt : AuthCrypt κ
  rest : ρ

/-- The cipher, and what is called for a packet. No return value stands for a
`ByteBufferException`. -/
structure Callees (κ ρ : Type) where
  update : κ → UInt8 → UInt8 × κ
  handlePing : WorldPacket → Connection κ ρ → Option Int × Connection κ ρ
  handleAuthSession : WorldPacket → Connection κ ρ → Option Int × Connection κ ρ
  queuePacket : WorldPacket → ρ → ρ

/-- A packet that `ProcessIncoming` got, and the header it was made for. -/
structure Delivery where
  header : ClientPktHeader
  packet : WorldPacket
  deriving DecidableEq, Repr

structure WorldSocket (κ ρ : Type) where
  conn : Connection κ ρ
  /-- The packet made for a header. What it contains is written through `recvPct`. -/
  recvWPct : Option ClientPktHeader
  recvPct : MessageBlock
  header : MessageBlock
  /-- What `ProcessIncoming` has been called with so far. -/
  delivered : List Delivery

/-- How handling the input ends: with -1 and `EWOULDBLOCK`, with -1 and `EINVAL`, with 0 as the peer
has closed the connection, or with a failed assertion. The last is for a loop that runs out of
turns. -/
inductive Stop where
  | wouldBlock
  | invalid
  | closed
  | assertion
  | stuck
  deriving DecidableEq, Repr

abbrev Outcome (κ ρ α : Type) := EStateM.Result Stop (WorldSocket κ ρ) α

def leaving {κ ρ : Type} (block : List UInt8) : Outcome κ ρ Unit → Outcome κ ρ (List UInt8)
  | .ok _ s => .ok block s
  | .error stop s => .error stop s

section Input

variable {κ ρ : Type} (h : Callees κ ρ)

def processIncoming (packet : WorldPacket) (conn : Connection κ ρ) : Int × Connection κ ρ :=
  if conn.closing then (-1,conn)
  else if packet.opcode = cmsgPing then
    let (ret,conn) := h.handlePing packet conn
    (ret.getD (-1),conn)
  else if packet.opcode = cmsgAuthSession then
    if conn.session then (-1,conn)
    else
      let (ret,conn) := h.handleAuthSession packet conn
      (ret.getD (-1),conn)
  else if packet.opcode = cmsgKeepAlive then (0,conn)
  else if conn.session = false then (-1,conn)
  else (0,{ conn with rest := h.queuePacket packet conn.rest })

def ClientPktHeader.malformed (header : ClientPktHeader) : Prop :=
  header.size < 4 ∨ 10240 < header.size ∨ 10240 < header.cmd

instance (header : ClientPktHeader) : Decidable header.malformed :=
  inferInstanceAs (Decidable (_ ∨ _))

def handleInputHeader (s : WorldSocket κ ρ) : Outcome κ ρ Unit :=
  if s.recvWPct ≠ none then .error .assertion s
  else if s.header.data.length ≠ sizeofClientPktHeader then .error .assertion s
  else
    let (bytes,crypt) := s.conn.crypt.decryptRecv h.update s.header.data
    let header := ClientPktHeader.ofBytes bytes
    let s := { s with
      conn := { s.conn with crypt := crypt }
      header := { s.header with data := bytes } }
    if header.malformed then .error .invalid s
    else
      let s := { s with recvWPct := some header }
      let size := header.size-4
      if 0 < size then .ok () { s with recvPct := ⟨[],size⟩ }
      else if s.recvPct.space ≠ 0 then .error .assertion s
      else .ok () s

def handleInputPayload (s : WorldSocket κ ρ) : Outcome κ ρ Unit :=
  if s.recvPct.space ≠ 0 then .error .assertion s
  else if s.header.space ≠ 0 then .error .assertion s
  else
    match s.recvWPct with
    | none => .error .assertion s
    | some header =>
      let packet : WorldPacket := ⟨header.cmd % 2^16,s.recvPct.data⟩
      let (ret,conn) := processIncoming h packet s.conn
      let s := { s with
        conn := conn
        recvPct := ⟨[],0⟩
        recvWPct := none
        header := s.header.reset
        delivered := s.delivered ++ [⟨header,packet⟩] }
      if ret = -1 then .error .invalid s else .ok () s

def receivePayload (block : List UInt8) (s : WorldSocket κ ρ) : Outcome κ ρ (List UInt8) :=
  if s.recvWPct = none then .error .invalid s
  else
    let toData := if s.recvPct.space < block.length then s.recvPct.space else block.length
    let s' := if 0 < s.recvPct.space then
      { s with recvPct := s.recvPct.copy (block.take toData) } else s
    let block := if 0 < s.recvPct.space then block.drop toData else block
    if 0 < s.recvPct.space ∧ 0 < s'.recvPct.space then
      -- couldn't receive the whole data this time
      if block ≠ [] then .error .assertion s' else .error .wouldBlock s'
    else leaving block (handleInputPayload h s')

def receiveHeader (block : List UInt8) (s : WorldSocket κ ρ) : Outcome κ ρ (List UInt8) :=
  match handleInputHeader h s with
  | .ok _ s => receivePayload h block s
  | .error stop s => .error stop s

/-- One turn of the loop, which leaves what is still to be read of the block. -/
def receiveTurn (block : List UInt8) (s : WorldSocket κ ρ) : Outcome κ ρ (List UInt8) :=
  if 0 < s.header.space then
    let toHeader := if s.header.space < block.length then s.header.space else block.length
    let s := { s with header := s.header.copy (block.take toHeader) }
    let block := block.drop toHeader
    if 0 < s.header.space then
      -- couldn't receive the whole header this time
      if block ≠ [] then .error .assertion s else .error .wouldBlock s
    else receiveHeader h block s
  else receivePayload h block s

def receiveLoop : Nat → List UInt8 → WorldSocket κ ρ → Outcome κ ρ Unit
  | turns, block, s =>
    if block = [] then .ok () s
    else
      match turns with
      | 0 => .error .stuck s
      | turns+1 =>
        match receiveTurn h block s with
        | .ok block s => receiveLoop turns block s
        | .error stop s => .error stop s

def handleInputMissingData (received : List UInt8) (s : WorldSocket κ ρ) : Outcome κ ρ Nat :=
  if received.length = 0 then .error .closed s
  else
    match receiveLoop h received.length received s with
    | .ok _ s => .ok (if received.length = 4096 then 1 else 2) s
    | .error stop s => .error stop s

/-- The socket is open as long as all that comes is that more has to be received. -/
def receiveAll : List (List UInt8) → WorldSocket κ ρ → Option Stop × WorldSocket κ ρ
  | [], s => (none,s)
  | received :: more, s =>
    match handleInputMissingData h received s with
    | .ok _ s => receiveAll more s
    | .error .wouldBlock s => receiveAll more s
    | .error stop s => (some stop,s)

def WorldSocket.fresh (conn : Connection κ ρ) : WorldSocket κ ρ :=
  ⟨conn,none,⟨[],0⟩,⟨[],sizeofClientPktHeader⟩,[]⟩

end Input

end TrinityCore.Server
