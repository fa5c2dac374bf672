import TrinityCore.Server.WorldSocket

set_option autoImplicit false

/-!
How a `WorldSocket` sends packets: `SendPacket` puts them into a flat buffer or into a message
queue, and `handle_output` writes out what is there, as much of it as the peer takes. Each of them
holds the lock of the buffer, so that they come one after another.
-/

namespace TrinityCore.Server

def outBufferSize : Nat := 65536

def highWaterMark : Nat := 8*1024*1024

def writeMask : Int := 2

structure ServerPktHeader where
  size : Nat
  cmd : Nat
  deriving DecidableEq, Repr

namespace ServerPktHeader

def isLargePacket (h : ServerPktHeader) : Bool := 0x7FFF < h.size

def getHeaderLength (h : ServerPktHeader) : Nat := 2+(if h.isLargePacket then 3 else 2)

def header (h : ServerPktHeader) : List UInt8 :=
  (if h.isLargePacket then [UInt8.ofNat (0x80 ||| (0xFF &&& h.size >>> 16))] else []) ++
    [UInt8.ofNat (0xFF &&& h.size >>> 8),UInt8.ofNat (0xFF &&& h.size),
      UInt8.ofNat (0xFF &&& h.cmd),UInt8.ofNat (0xFF &&& h.cmd >>> 8)]

@[simp] theorem length_header (h : ServerPktHeader) : h.header.length = h.getHeaderLength := by
  unfold header getHeaderLength
  cases h.isLargePacket <;> rfl

end ServerPktHeader

/-- The half of a `WorldSocket` that sends, with what the peer has got of it. -/
structure OutSocket (κ : Type) where
  closing : Bool
  crypt : AuthCrypt κ
  outBuffer : MessageBlock
  queue : List MessageBlock
  outActive : Bool
  peer : List UInt8

/-- How `peer().send` comes back: with -1 and `EWOULDBLOCK`, with -1 and another error, or with the
number of bytes it has taken. -/
inductive Write where
  | blocked
  | failed
  | sent (n : Nat)
  deriving DecidableEq, Repr

/-- Of a queue it is the sizes of the blocks that count, not what is left in them. -/
def isFull (queue : List MessageBlock) : Prop :=
  highWaterMark ≤ (queue.map MessageBlock.size).sum

instance (queue : List MessageBlock) : Decidable (isFull queue) :=
  inferInstanceAs (Decidable (_ ≤ _))

section Output

variable {κ : Type} (update : κ → UInt8 → UInt8 × κ)

def WorldPacket.serverHeader (pkt : WorldPacket) : ServerPktHeader :=
  ⟨(pkt.contents.length+2) % 2^32,pkt.opcode⟩

def WorldPacket.sendSize (pkt : WorldPacket) : Nat :=
  pkt.contents.length+pkt.serverHeader.getHeaderLength

def sendPacket (pkt : WorldPacket) (s : OutSocket κ) : Int × OutSocket κ :=
  if s.closing then (-1,s)
  else
    let (header,crypt) := s.crypt.encryptSend update pkt.serverHeader.header
    let s := { s with crypt := crypt }
    if pkt.sendSize ≤ s.outBuffer.space ∧ s.queue = [] then
      (0,{ s with outBuffer := (s.outBuffer.copy header).copy pkt.contents })
    else
      let mb := ((⟨[],pkt.sendSize⟩ : MessageBlock).copy header).copy pkt.contents
      -- enqueue_tail does not wait for room
      if isFull s.queue then (-1,s)
      else (0,{ s with queue := s.queue ++ [mb] })

/-- Whether the reactor accepts the change is told from outside, here and below. -/
def cancelWakeupOutput (accepted : Bool) (s : OutSocket κ) : Int × OutSocket κ :=
  if s.outActive = false then (0,s)
  else (if accepted then 0 else -1,{ s with outActive := false })

def scheduleWakeupOutput (accepted : Bool) (s : OutSocket κ) : Int × OutSocket κ :=
  if s.outActive then (0,s)
  else (if accepted then 0 else -1,{ s with outActive := true })

def handleOutputQueue (write : Write) (accepted : Bool) (s : OutSocket κ) : Int × OutSocket κ :=
  match s.queue with
  | [] => cancelWakeupOutput accepted s
  | mblk :: rest =>
    match write with
    | .blocked =>
      -- what enqueue_head returns is not looked at
      scheduleWakeupOutput accepted { s with queue := if isFull rest then rest else mblk :: rest }
    | .failed => (-1,{ s with queue := rest })
    | .sent n =>
      let s := { s with peer := s.peer ++ mblk.data.take n }
      if n = 0 then (-1,{ s with queue := rest })
      else if n < mblk.data.length then
        if isFull rest then (-1,{ s with queue := rest })
        else
          let mblk := { mblk with data := mblk.data.drop n }
          scheduleWakeupOutput accepted { s with queue := mblk :: rest }
      else if rest = [] then cancelWakeupOutput accepted { s with queue := rest }
      else (writeMask,{ s with queue := rest })

def handleOutput (write write' : Write) (accepted : Bool) (s : OutSocket κ) :
    Int × OutSocket κ :=
  if s.closing then (-1,s)
  else if s.outBuffer.data.length = 0 then handleOutputQueue write' accepted s
  else
    match write with
    | .blocked => scheduleWakeupOutput accepted s
    | .failed => (-1,s)
    | .sent n =>
      let buffer := s.outBuffer
      let s := { s with peer := s.peer ++ buffer.data.take n }
      if n = 0 then (-1,s)
      else if n < buffer.data.length then
        scheduleWakeupOutput accepted { s with
          outBuffer := { buffer with data := buffer.data.drop n } }
      else handleOutputQueue write' accepted { s with outBuffer := buffer.reset }

def OutSocket.fresh (crypt : AuthCrypt κ) : OutSocket κ :=
  ⟨false,crypt,⟨[],outBufferSize⟩,[],false,[]⟩

/-- What the stream is to hold: the packets that were accepted, as they were written, and where the
cipher was set up between them. -/
inductive Entry (κ : Type) where
  | packet (pkt : WorldPacket) (bytes : List UInt8)
  | init (serverEncrypt : κ)

structure Sending (κ : Type) where
  socket : OutSocket κ
  /-- `handle_output` has returned -1: the reactor does not call it again, but closes the handler. -/
  broken : Bool
  log : List (Entry κ)

inductive Action (κ : Type) where
  | sendPacket (pkt : WorldPacket)
  | init (serverEncrypt clientDecrypt : κ)
  | output (write write' : Write) (accepted : Bool)
  | close

def Sending.step (s : Sending κ) : Action κ → Sending κ
  | .sendPacket pkt =>
    let (ret,socket) := sendPacket update pkt s.socket
    let bytes := (s.socket.crypt.encryptSend update pkt.serverHeader.header).1 ++ pkt.contents
    { s with socket := socket,log := if ret = 0 then s.log ++ [.packet pkt bytes] else s.log }
  | .init serverEncrypt clientDecrypt =>
    { s with
      socket := { s.socket with crypt := ⟨true,clientDecrypt,serverEncrypt⟩ }
      log := s.log ++ [.init serverEncrypt] }
  | .output write write' accepted =>
    if s.broken then s
    else
      let (ret,socket) := handleOutput write write' accepted s.socket
      { s with socket := socket,broken := decide (ret = -1) }
  | .close => { s with socket := { s.socket with closing := true } }

def Sending.fresh (crypt : AuthCrypt κ) : Sending κ := ⟨OutSocket.fresh crypt,false,[]⟩

end Output

end TrinityCore.Server
