import CrumbleCracker.Virtio.Queue

/-!
# The vsock device

The device keeps one connection for each pair of ports, a queue of packets that wait for receive buffers of the guest,
and for each connection it ever accepted a goroutine that reads the backend (`readFromBackend`). Everything under `v.mu`
is one step here; a reader is between two of its lock sections at a `ReaderPC`. What a backend does (whether it accepts,
what its reads and writes return and when) is given with the events, and so is everything the guest writes to its
memory.

Fields marked as ghosts are read by no step; they record what the statements about runs speak of. A backend is named by
the number of the connection it was opened for.
-/

namespace CrumbleCracker.Virtio

open List

/-! ## Packets -/

def vsockHeaderSize : Nat := 44

def vsockTypeStream : UInt16 := 1

def vsockShutdownRecv : UInt32 := 1

def vsockShutdownSend : UInt32 := 2

def vsockCIDHost : UInt64 := 2

def vsockDefaultBufSize : UInt32 := 64 * 1024

inductive VsockOp where
  | request
  | response
  | rst
  | shutdown
  | rw
  | creditUpdate
  | creditRequest
deriving DecidableEq

def VsockOp.code : VsockOp → UInt16
  | .request => 1
  | .response => 2
  | .rst => 3
  | .shutdown => 4
  | .rw => 5
  | .creditUpdate => 6
  | .creditRequest => 7

/-- The operation of a code; the device ignores every other code. -/
def VsockOp.ofCode (code : UInt16) : Option VsockOp :=
  if code = 1 then some .request
  else if code = 2 then some .response
  else if code = 3 then some .rst
  else if code = 4 then some .shutdown
  else if code = 5 then some .rw
  else if code = 6 then some .creditUpdate
  else if code = 7 then some .creditRequest
  else none

structure VsockHeader where
  srcCID : UInt64 := 0
  dstCID : UInt64 := 0
  srcPort : UInt32 := 0
  dstPort : UInt32 := 0
  len : UInt32 := 0
  type : UInt16 := 0
  op : UInt16 := 0
  flags : UInt32 := 0
  bufAlloc : UInt32 := 0
  fwdCnt : UInt32 := 0
deriving DecidableEq

def parseVsockHeader (data : Bytes) : Option VsockHeader :=
  if data.length < vsockHeaderSize then none
  else some
    { srcCID := u64At data 0, dstCID := u64At data 8, srcPort := u32At data 16, dstPort := u32At data 20
      len := u32At data 24, type := u16At data 28, op := u16At data 30, flags := u32At data 32
      bufAlloc := u32At data 36, fwdCnt := u32At data 40 }

def encodeVsockHeader (hdr : VsockHeader) : Bytes :=
  bytesLE 8 hdr.srcCID.toNat ++ bytesLE 8 hdr.dstCID.toNat ++ bytesLE 4 hdr.srcPort.toNat ++
    bytesLE 4 hdr.dstPort.toNat ++ bytesLE 4 hdr.len.toNat ++ bytesLE 2 hdr.type.toNat ++ bytesLE 2 hdr.op.toNat ++
    bytesLE 4 hdr.flags.toNat ++ bytesLE 4 hdr.bufAlloc.toNat ++ bytesLE 4 hdr.fwdCnt.toNat

theorem length_encodeVsockHeader (hdr : VsockHeader) : (encodeVsockHeader hdr).length = vsockHeaderSize := by
  simp [encodeVsockHeader, vsockHeaderSize]

theorem parseVsockHeader_encode (hdr : VsockHeader) (payload : Bytes) :
    parseVsockHeader (encodeVsockHeader hdr ++ payload) = some hdr := by
  have hlen : ¬ (encodeVsockHeader hdr ++ payload).length < vsockHeaderSize := by
    rw [length_append, length_encodeVsockHeader]
    omega
  rw [parseVsockHeader, if_neg hlen, Option.some.injEq]
  obtain ⟨srcCID, dstCID, srcPort, dstPort, len, type, op, flags, bufAlloc, fwdCnt⟩ := hdr
  -- each field starts where the encodings before it end
  simp only [encodeVsockHeader, append_assoc, VsockHeader.mk.injEq]
  refine ⟨u64At_eq ?_, u64At_eq ?_, u32At_eq ?_, u32At_eq ?_, u32At_eq ?_, u16At_eq ?_, u16At_eq ?_, u32At_eq ?_,
    u32At_eq ?_, u32At_eq ?_⟩
  all_goals simp [field, drop_append, drop_of_length_le]

/-- `vsockConnKey`: the port on the host and the port in the guest. -/
structure VsockConnKey where
  localPort : UInt32
  remotePort : UInt32
deriving DecidableEq

/-- The connection a packet of the guest is for. -/
def VsockHeader.key (hdr : VsockHeader) : VsockConnKey := ⟨hdr.dstPort, hdr.srcPort⟩

structure RxPacket where
  hdr : VsockHeader
  payload : Bytes
  /-- Ghost: the backend whose bytes or whose end the packet reports. -/
  origin : Option Nat
deriving DecidableEq

def RxPacket.bytes (p : RxPacket) : Bytes := encodeVsockHeader p.hdr ++ p.payload

def RxPacket.key (p : RxPacket) : VsockConnKey := ⟨p.hdr.srcPort, p.hdr.dstPort⟩

/-! ## State -/

inductive VsockConnState where
  | idle
  | connecting
  | connected
  | closing
deriving DecidableEq

structure VsockConnection where
  key : VsockConnKey
  state : VsockConnState
  peerAlloc : UInt32
  peerCnt : UInt32
  txCnt : UInt32 := 0
  rxCnt : UInt32 := 0
  creditRequestPending : Bool := false
  backend : Nat
  /-- Ghost: how many bytes were sent to the guest, not modulo `2 ^ 32`. -/
  sent : Nat := 0
  /-- Ghost: how many of them the guest's forward counts have acknowledged. -/
  acked : Nat := 0
deriving DecidableEq

/-- The guest's buffer and forward count, as every packet on a connection carries them. -/
def VsockConnection.setPeer (c : VsockConnection) (hdr : VsockHeader) : VsockConnection :=
  { c with peerAlloc := hdr.bufAlloc, peerCnt := hdr.fwdCnt, acked := c.acked + (hdr.fwdCnt - c.peerCnt).toNat }

/-- Where a reader goroutine is between its lock sections. -/
inductive ReaderPC where
  /-- in `conn.Read`, or about to call it -/
  | reading
  /-- `conn.Read` has returned an error -/
  | failing
  /-- `buf[offset:n]` is left to send -/
  | sending (rest : Bytes)
  /-- in `creditCond.Wait`, with `buf[offset:n]` left to send -/
  | waiting (rest : Bytes)
  | done
deriving DecidableEq

/-- The bytes a reader has read and not sent. -/
def ReaderPC.unsent : ReaderPC → Bytes
  | .sending rest => rest
  | .waiting rest => rest
  | _ => []

structure Reader where
  key : VsockConnKey
  pc : ReaderPC := .reading
  /-- Ghost: everything the backend's reads have returned. -/
  got : Bytes := []
deriving DecidableEq

/-- What the guest finds in a receive buffer. -/
structure Delivery where
  data : Bytes
  /-- Ghost: the backend whose bytes or whose end the packet reports. -/
  origin : Option Nat
  /-- Ghost: the last connection the device accepted on the packet's ports. -/
  on : Option Nat
deriving DecidableEq

/-- `Vsock`, with the goroutines it started. -/
structure Vsock (M : Type) where
  guestCID : UInt64
  backend : Bool
  mem : Option M
  rx : Queue := {}
  tx : Queue := {}
  connections : VsockConnKey → Option VsockConnection := fun _ => none
  pendingRx : List RxPacket := []
  closed : Bool := false
  /-- The goroutines in the order they were started; the position is the connection's number. -/
  readers : List Reader := []
  /-- Ghost: the last connection accepted on each pair of ports. -/
  accepted : VsockConnKey → Option Nat := fun _ => none
  /-- Ghost: the receive buffers handed back to the guest. -/
  delivered : List Delivery := []

/-- What the backend answers while one packet is handled. -/
structure BackendAnswer where
  connects : Bool := true
  writes : Bool := true
deriving DecidableEq

namespace Vsock

variable {M : Type}

def queueRxPacket (p : RxPacket) (v : Vsock M) : Vsock M := { v with pendingRx := v.pendingRx ++ [p] }

def setConnection (key : VsockConnKey) (c : Option VsockConnection) (v : Vsock M) : Vsock M :=
  { v with connections := Function.update v.connections key c }

def setPc (i : Nat) (pc : ReaderPC) (v : Vsock M) : Vsock M :=
  { v with readers := v.readers.modify i fun r => { r with pc := pc } }

def wake (r : Reader) : Reader :=
  match r.pc with
  | .waiting rest => { r with pc := .sending rest }
  | _ => r

/-- `creditCond.Broadcast`. -/
def broadcast (v : Vsock M) : Vsock M := { v with readers := v.readers.map wake }

/-! ## Packets to the guest -/

def sendResponse (hdr : VsockHeader) (v : Vsock M) : Vsock M :=
  v.queueRxPacket
    { hdr :=
        { srcCID := vsockCIDHost, dstCID := v.guestCID, srcPort := hdr.dstPort, dstPort := hdr.srcPort
          type := vsockTypeStream, op := VsockOp.response.code, bufAlloc := vsockDefaultBufSize }
      payload := [], origin := none }

def sendReset (hdr : VsockHeader) (v : Vsock M) : Vsock M :=
  v.queueRxPacket
    { hdr :=
        { srcCID := vsockCIDHost, dstCID := v.guestCID, srcPort := hdr.dstPort, dstPort := hdr.srcPort
          type := vsockTypeStream, op := VsockOp.rst.code }
      payload := [], origin := none }

/-- The packets that carry the device's own credit: `conn.rxCnt` bytes taken of a buffer of fixed size. -/
def connPacket (c : VsockConnection) (op : VsockOp) (data : Bytes) (origin : Option Nat) (v : Vsock M) : RxPacket :=
  { hdr :=
      { srcCID := vsockCIDHost, dstCID := v.guestCID, srcPort := c.key.localPort, dstPort := c.key.remotePort
        len := UInt32.ofNat data.length, type := vsockTypeStream, op := op.code, bufAlloc := vsockDefaultBufSize
        fwdCnt := c.rxCnt }
    payload := data, origin := origin }

def sendCreditUpdate (c : VsockConnection) (v : Vsock M) : Vsock M :=
  v.queueRxPacket (v.connPacket c .creditUpdate [] none)

/-- `sendCreditRequestLocked`, called by reader `i`. -/
def sendCreditRequest (i : Nat) (c : VsockConnection) (v : Vsock M) : Vsock M :=
  if c.creditRequestPending then v
  else (v.setConnection c.key (some { c with creditRequestPending := true })).queueRxPacket
    (v.connPacket c .creditRequest [] (some i))

/-- `sendDataLocked`, called by reader `i`. -/
def sendData (i : Nat) (c : VsockConnection) (data : Bytes) (v : Vsock M) : Vsock M :=
  (v.setConnection c.key
    (some { c with txCnt := c.txCnt + UInt32.ofNat data.length, sent := c.sent + data.length })).queueRxPacket
      (v.connPacket c .rw data (some i))

/-- The shutdown packet of a reader whose backend has ended. -/
def sendShutdown (i : Nat) (key : VsockConnKey) (v : Vsock M) : Vsock M :=
  v.queueRxPacket
    { hdr :=
        { srcCID := vsockCIDHost, dstCID := v.guestCID, srcPort := key.localPort, dstPort := key.remotePort
          type := vsockTypeStream, op := VsockOp.shutdown.code, flags := vsockShutdownRecv ||| vsockShutdownSend }
      payload := [], origin := some i }

/-! ## Packets of the guest -/

/-- `handleConnectLocked`: the reader it starts has the connection's number. -/
def handleConnect (o : BackendAnswer) (hdr : VsockHeader) (v : Vsock M) : Vsock M :=
  if !v.backend then v.sendReset hdr
  else if !o.connects then v.sendReset hdr
  else
    let b := v.readers.length
    let v := v.setConnection hdr.key
      (some { key := hdr.key, state := .connected, peerAlloc := hdr.bufAlloc, peerCnt := hdr.fwdCnt, backend := b })
    let v := v.sendResponse hdr
    { v with readers := v.readers ++ [{ key := hdr.key }], accepted := Function.update v.accepted hdr.key (some b) }

def handleResponse (hdr : VsockHeader) (v : Vsock M) : Vsock M :=
  match v.connections hdr.key with
  | none => v.sendReset hdr
  | some c =>
    if c.state ≠ .connecting then v.sendReset hdr
    else v.setConnection hdr.key
      (some { c.setPeer hdr with state := .connected })

def handleReset (hdr : VsockHeader) (v : Vsock M) : Vsock M := v.setConnection hdr.key none

def handleShutdown (hdr : VsockHeader) (v : Vsock M) : Vsock M :=
  match v.connections hdr.key with
  | none => v
  | some _ => (v.sendReset hdr).setConnection hdr.key none

def handleData (o : BackendAnswer) (hdr : VsockHeader) (payload : Bytes) (v : Vsock M) : Vsock M :=
  match v.connections hdr.key with
  | none => v.sendReset hdr
  | some c =>
    if c.state ≠ .connected then v.sendReset hdr
    else
      let c := c.setPeer hdr
      if payload = [] then (v.setConnection hdr.key (some c)).sendCreditUpdate c
      else
        let c := { c with rxCnt := c.rxCnt + UInt32.ofNat payload.length }
        if !o.writes then (v.sendReset hdr).setConnection hdr.key none
        else (v.setConnection hdr.key (some c)).sendCreditUpdate c

def handleCreditUpdate (hdr : VsockHeader) (v : Vsock M) : Vsock M :=
  match v.connections hdr.key with
  | none => v
  | some c =>
    (v.setConnection hdr.key
      (some { c.setPeer hdr with creditRequestPending := false })).broadcast

def handleCreditRequest (hdr : VsockHeader) (v : Vsock M) : Vsock M :=
  match v.connections hdr.key with
  | none => v
  | some c => v.sendCreditUpdate c

/-- The switch of `handleTXPacketLocked`. -/
def dispatch (o : BackendAnswer) (hdr : VsockHeader) (payload : Bytes) (v : Vsock M) : Vsock M :=
  match VsockOp.ofCode hdr.op with
  | some .request => v.handleConnect o hdr
  | some .response => v.handleResponse hdr
  | some .rst => v.handleReset hdr
  | some .shutdown => v.handleShutdown hdr
  | some .rw => v.handleData o hdr payload
  | some .creditUpdate => v.handleCreditUpdate hdr
  | some .creditRequest => v.handleCreditRequest hdr
  | none => v

/-! ## The rings -/

section Rings

variable (G : GuestMemory M)

/-- The packet of a transmit chain: `none` when the chain is shorter than a header, which is ignored. -/
def parsePacket (data : Bytes) : Except QueueError (Option (VsockHeader × Bytes)) :=
  match parseVsockHeader data with
  | none => .ok none
  | some hdr =>
    let payload := data.drop vsockHeaderSize
    if UInt32.ofNat payload.length < hdr.len then .error (.payloadTruncated payload.length hdr.len.toNat)
    else .ok (some (hdr, payload.take hdr.len.toNat))

/-- The next chain of the transmit queue: its head, its length and its packet. -/
def nextTX (v : Vsock M) (m : M) : Except QueueError (UInt16 × UInt32 × Option (VsockHeader × Bytes)) := do
  let head ← v.tx.readAvailEntry G m
  let data ← v.tx.readChain G m head
  let packet ← parsePacket data
  .ok (head, UInt32.ofNat data.length, packet)

/-- `handleTXPacketLocked` once the chain is read. -/
def handleTXPacket (o : BackendAnswer) (packet : Option (VsockHeader × Bytes)) (v : Vsock M) : Vsock M :=
  match packet with
  | none => v
  | some (hdr, payload) => v.dispatch o hdr payload

/-- One turn of the loop of `processTXLocked`, and whether it went without an error. -/
def txTurn (o : BackendAnswer) (v : Vsock M) : Vsock M × Bool :=
  match v.mem with
  | none => (v, false)
  | some m =>
    match v.nextTX G m with
    | .error _ => (v, false)
    | .ok (head, len, packet) =>
      let v := v.handleTXPacket o packet
      match v.tx.writeUsed G m head len with
      | (q, m, .error _) => ({ v with tx := q, mem := some m }, false)
      | (q, m, .ok ()) => ({ v with tx := { q with lastAvailIdx := q.lastAvailIdx + 1 }, mem := some m }, true)

/-- The loop of `processTXLocked`: at most `n` turns, `k` of them done. -/
def txLoop (env : Nat → BackendAnswer) (availIdx : UInt16) : Nat → Nat → Vsock M → Vsock M × Bool
  | 0, _, v => (v, true)
  | n + 1, k, v =>
    if v.tx.lastAvailIdx = availIdx then (v, true)
    else match v.txTurn G (env k) with
      | (v, false) => (v, false)
      | (v, true) => txLoop env availIdx n (k + 1) v

/-- What a receive buffer filled with `p` holds for the guest. -/
def delivery (v : Vsock M) (p : RxPacket) (data : Bytes) : Delivery :=
  { data := data, origin := p.origin, on := v.accepted p.key }

/-- The loop of `processRXLocked`: at most `n` turns. A buffer counts as handed back once the used index has moved past
it. -/
def rxLoop (availIdx : UInt16) : Nat → Vsock M → Vsock M
  | 0, v => v
  | n + 1, v =>
    match v.pendingRx, v.mem with
    | packet :: rest, some m =>
      if v.rx.lastAvailIdx = availIdx then v
      else match v.rx.readAvailEntry G m with
        | .error _ => v
        | .ok head =>
          match v.rx.fillChain G m head packet.bytes with
          | (m, .error _) => { v with mem := some m }
          | (m, .ok data) =>
            match v.rx.writeUsed G m head (UInt32.ofNat data.length) with
            | (q, m, .error _) =>
              { v with
                rx := q, mem := some m
                delivered := v.delivered ++ if q.usedIdx = v.rx.usedIdx then [] else [v.delivery packet data] }
            | (q, m, .ok ()) =>
              rxLoop availIdx n
                { v with
                  rx := { q with lastAvailIdx := q.lastAvailIdx + 1 }, mem := some m, pendingRx := rest
                  delivered := v.delivered ++ [v.delivery packet data] }
    | _, _ => v

/-- `processRXLocked`: packets go to receive buffers while there are both. -/
def processRX (v : Vsock M) : Vsock M :=
  match v.mem with
  | none => v
  | some m =>
    if !v.rx.ready || v.rx.size = 0 then v
    else match v.rx.readAvailIdx G m with
      | .error _ => v
      | .ok availIdx => v.rxLoop G availIdx v.pendingRx.length

/-- `processTXLocked`: the packets of the guest, then what they made ready for it. The device is as many turns behind
the guest as their indices differ. -/
def processTX (env : Nat → BackendAnswer) (v : Vsock M) : Vsock M :=
  match v.mem with
  | none => v
  | some m =>
    if !v.tx.ready || v.tx.size = 0 then v
    else match v.tx.readAvailIdx G m with
      | .error _ => v
      | .ok availIdx =>
        match v.txLoop G env availIdx (availIdx - v.tx.lastAvailIdx).toNat 0 with
        | (v, false) => v
        | (v, true) => v.processRX G

/-! ## Readers -/

def vsockPeerCredit (c : VsockConnection) : UInt32 :=
  if c.peerAlloc = 0 then 0
  else
    let used := c.txCnt - c.peerCnt
    if c.peerAlloc ≤ used then 0 else c.peerAlloc - used

/-- The lock section of reader `i` after its backend returned an error. -/
def endSection (i : Nat) (r : Reader) (v : Vsock M) : Vsock M :=
  match v.connections r.key with
  | none => v.setPc i .done
  | some c =>
    if c.state = .connected then
      (((v.sendShutdown i r.key).setConnection r.key (some { c with state := .closing })).processRX G).setPc i .done
    else v.setPc i .done

/-- Where reader `i` is once `chunk` bytes of `rest` are sent. -/
def afterChunk (rest : Bytes) (chunk : Nat) : ReaderPC :=
  if rest.drop chunk = [] then .reading else .sending (rest.drop chunk)

/-- One lock section of reader `i` with `rest` left to send. -/
def sendSection (i : Nat) (r : Reader) (rest : Bytes) (v : Vsock M) : Vsock M :=
  match v.connections r.key with
  | none => v.setPc i .done
  | some c =>
    if c.state ≠ .connected then v.setPc i .done
    else if vsockPeerCredit c = 0 then ((v.sendCreditRequest i c).processRX G).setPc i (.waiting rest)
    else
      let chunk := min rest.length (vsockPeerCredit c).toNat
      ((v.sendData i c (rest.take chunk)).processRX G).setPc i (afterChunk rest chunk)

def readerRuns (i : Nat) (v : Vsock M) : Vsock M :=
  match v.readers[i]? with
  | none => v
  | some r =>
    match r.pc with
    | .failing => v.endSection G i r
    | .sending rest => v.sendSection G i r rest
    | _ => v

end Rings

end Vsock

/-! ## Interleavings -/

/-- What happens next: the guest, the host and the readers in any order. -/
inductive VsockEvent (M : Type) where
  | guestWrites (m : M)
  /-- the guest has written queue registers -/
  | setQueues (rx tx : Queue)
  /-- a transmit notification; `env` answers for the backend at each packet -/
  | notifyTX (env : Nat → BackendAnswer)
  /-- a receive notification, or `Poke` -/
  | notifyRX
  /-- the guest writes 0 to the status register -/
  | reset
  | detach
  /-- `Close` closes the channel `v.closed` -/
  | closeChannel
  /-- the lock section of `Close` -/
  | closeConnections
  /-- `conn.Read` of reader `i` returns: bytes, or an error -/
  | readReturns (i : Nat) (result : Option Bytes)
  | readerRuns (i : Nat)
  /-- reader `i` finds `v.closed` closed and returns -/
  | readerStops (i : Nat)

namespace Vsock

variable {M : Type} (G : GuestMemory M)

def readBufSize : Nat := 3072

def readReturns (result : Option Bytes) (r : Reader) : Reader :=
  match r.pc, result with
  | .reading, none => { r with pc := .failing }
  | .reading, some data =>
    let data := data.take readBufSize
    { r with pc := if data = [] then .reading else .sending data, got := r.got ++ data }
  | _, _ => r

/-- Reader `r` at one of its two checks of `v.closed`. -/
def readerStops (r : Reader) : Reader :=
  match r.pc with
  | .reading | .failing => { r with pc := .done }
  | _ => r

/-- `resetLocked`: connections, queues and pending packets go; the goroutines stay. -/
def reset (v : Vsock M) : Vsock M :=
  { v with rx := {}, tx := {}, connections := fun _ => none, pendingRx := [] }.broadcast

/-- One step of the device, the guest or a reader. -/
def step (v : Vsock M) : VsockEvent M → Vsock M
  | .guestWrites m => { v with mem := v.mem.map fun _ => m }
  | .setQueues rx tx => { v with rx := rx, tx := tx }
  | .notifyTX env => v.processTX G env
  | .notifyRX => v.processRX G
  | .reset => v.reset
  | .detach => { v with mem := none, pendingRx := [] }
  | .closeChannel => { v with closed := true }
  | .closeConnections => if v.closed then { v with connections := fun _ => none }.broadcast else v
  | .readReturns i result => { v with readers := v.readers.modify i (readReturns result) }
  | .readerRuns i => v.readerRuns G i
  | .readerStops i => if v.closed then { v with readers := v.readers.modify i readerStops } else v

def run (v : Vsock M) (es : List (VsockEvent M)) : Vsock M := es.foldl (step G) v

/-- `NewVsock`, attached to the guest's memory. -/
def newVsock (guestCID : UInt64) (backend : Bool) (m : M) : Vsock M :=
  { guestCID := guestCID, backend := backend, mem := some m }

/-! ## A guest

A layout of rings for runs on concrete packets: descriptor `i` of the transmit queue is the buffer of packet `i`, each
of the four receive buffers has 128 bytes. -/

def guestRx : Queue := { size := 4, ready := true, descAddr := 0x1000, availAddr := 0x1100, usedAddr := 0x1200 }

def guestTx : Queue := { size := 4, ready := true, descAddr := 0x2000, availAddr := 0x2100, usedAddr := 0x2200 }

/-- A buffer of `len` bytes at `addr`, alone in its chain. -/
def descBytes (addr len : Nat) (flags : UInt16) : Bytes :=
  bytesLE 8 addr ++ bytesLE 4 len ++ bytesLE 2 flags.toNat ++ bytesLE 2 0

/-- An available ring with the chains 0 to `n - 1`. -/
def availBytes (n : Nat) : Bytes := bytesLE 2 0 ++ bytesLE 2 n ++ (List.range n).flatMap (bytesLE 2)

/-- Memory with all four receive buffers available and `packets` sent. -/
def guestRam (packets : List VsockHeader) : UInt64 → UInt8 :=
  let regions : List (Nat × Bytes) :=
    [(0x1000, (List.range 4).flatMap fun i => descBytes (0x3000 + 128 * i) 128 descFWrite), (0x1100, availBytes 4),
      (0x2000, (List.range 4).flatMap fun i => descBytes (0x4000 + 128 * i) vsockHeaderSize 0),
      (0x2100, availBytes packets.length)] ++
    packets.zipIdx.map fun (hdr, i) => (0x4000 + 128 * i, encodeVsockHeader hdr)
  fun x => ((regions.find? fun (addr, b) => addr ≤ x.toNat && x.toNat < addr + b.length).map
    fun (addr, b) => b.getD (x.toNat - addr) 0).getD 0

/-! ## What the rings do -/

/-- The oldest packets go to the guest, in order and each as it was queued. One more than are then dropped from the
queue, when the used index could not be written. -/
def HandsOver (v v' : Vsock M) : Prop :=
  ∃ (k j : Nat) (rx : Queue) (m : Option M), (v.rx.IndexWritable G → j = 0) ∧ (v.mem = none → k + j = 0) ∧
    m.isSome = v.mem.isSome ∧
    v' =
      { v with
        rx := rx, mem := m, pendingRx := v.pendingRx.drop k
        delivered := v.delivered ++ (v.pendingRx.take (k + j)).map fun p => v.delivery p p.bytes }

variable {v : Vsock M}

theorem HandsOver.stays {m : Option M} (hm : m.isSome = v.mem.isSome) : HandsOver G v { v with mem := m } :=
  ⟨0, 0, v.rx, m, fun _ => rfl, fun _ => rfl, hm, by simp⟩

theorem rxLoop_eq (availIdx : UInt16) (n : Nat) (v : Vsock M) (hsize : v.rx.size ≠ 0) :
    HandsOver G v (v.rxLoop G availIdx n) := by
  induction n generalizing v with
  | zero => exact .stays G rfl
  | succ n ih =>
    unfold rxLoop
    split
    rotate_left
    · exact .stays G rfl
    rename_i packet rest m hpending hmem
    split
    · exact .stays G rfl
    split
    · exact .stays G rfl
    rename_i head _
    split
    · exact .stays G (by rw [hmem]; rfl)
    rename_i m₁ data hfill
    obtain rfl := Queue.fillChainLoop_ok G _ _ _ [] nil_prefix hfill
    rcases v.rx.writeUsed_cases G hsize m₁ head (UInt32.ofNat packet.bytes.length) with
      ⟨e, hused⟩ | ⟨m₂, e, hindex, hused⟩ | ⟨m₂, hused⟩
    · rw [hused]
      refine ⟨0, 0, v.rx, some m₁, fun _ => rfl, fun _ => rfl, by rw [hmem]; rfl, by simp⟩
    · -- the entry is in the ring, the packet is still queued
      rw [hused]
      refine ⟨0, 1, { v.rx with usedIdx := v.rx.usedIdx + 1 }, some m₂, fun hw => absurd hw hindex, fun hnone => ?_,
        by rw [hmem]; rfl, ?_⟩
      · rw [hmem] at hnone
        cases hnone
      have hmoved : v.rx.usedIdx + 1 ≠ v.rx.usedIdx := by simp
      simp [hpending, hmoved]
    · rw [hused]
      obtain ⟨k, j, rx, m₃, hj, -, hm, heq⟩ := ih
        { v with
          rx := { v.rx with usedIdx := v.rx.usedIdx + 1, lastAvailIdx := v.rx.lastAvailIdx + 1 }, mem := some m₂
          pendingRx := rest, delivered := v.delivered ++ [v.delivery packet packet.bytes] } hsize
      refine ⟨k + 1, j, rx, m₃, hj, fun hnone => ?_, by rw [hm, hmem]; rfl, ?_⟩
      · rw [hmem] at hnone
        cases hnone
      show rxLoop G availIdx n _ = _
      rw [heq, show k + 1 + j = k + j + 1 by omega]
      simp [hpending, delivery]

theorem processRX_eq (v : Vsock M) : HandsOver G v (v.processRX G) := by
  unfold processRX
  split
  · exact .stays G rfl
  split
  · exact .stays G rfl
  rename_i hready
  split
  · exact .stays G rfl
  · exact rxLoop_eq G _ _ v fun hsize => hready (by simp [hsize])

@[simp] theorem processRX_connections (v : Vsock M) : (v.processRX G).connections = v.connections := by
  obtain ⟨k, j, rx, m, -, -, -, heq⟩ := processRX_eq G v
  rw [heq]

@[simp] theorem processRX_readers (v : Vsock M) : (v.processRX G).readers = v.readers := by
  obtain ⟨k, j, rx, m, -, -, -, heq⟩ := processRX_eq G v
  rw [heq]

/-- The header of the packet that the next turn of the transmit loop handles. -/
def nextHeader (v : Vsock M) : Option VsockHeader :=
  v.mem.bind fun m => (v.nextTX G m).toOption.bind fun next => next.2.2.map Prod.fst

def txAvailIdx (v : Vsock M) : Option UInt16 := v.mem.bind fun m => (v.tx.readAvailIdx G m).toOption

/-- `P` holds of the device, the backend's answer and the header at each packet the transmit loop handles. -/
def TxAll (P : Vsock M → BackendAnswer → VsockHeader → Prop) (env : Nat → BackendAnswer) (availIdx : UInt16) :
    Nat → Nat → Vsock M → Prop
  | 0, _, _ => True
  | n + 1, k, v =>
    v.tx.lastAvailIdx = availIdx ∨
      (∀ hdr ∈ v.nextHeader G, P v (env k) hdr) ∧
      ((v.txTurn G (env k)).2 = true → TxAll P env availIdx n (k + 1) (v.txTurn G (env k)).1)

/-- `P` holds of the device, the answer and the header at each packet that event `e` hands to the device. -/
def Answers (P : Vsock M → BackendAnswer → VsockHeader → Prop) (v : Vsock M) : VsockEvent M → Prop
  | .notifyTX env => ∀ availIdx ∈ v.txAvailIdx G, TxAll G P env availIdx (availIdx - v.tx.lastAvailIdx).toNat 0 v
  | _ => True

abbrev Handles (P : Vsock M → VsockHeader → Prop) : Vsock M → VsockEvent M → Prop := Answers G fun v _ hdr => P v hdr

/-- `Q` holds of the device and the event at each step of the run. -/
def RunAll (Q : Vsock M → VsockEvent M → Prop) : Vsock M → List (VsockEvent M) → Prop
  | _, [] => True
  | v, e :: es => Q v e ∧ RunAll Q (v.step G e) es

section Decidable

variable {P : Vsock M → BackendAnswer → VsockHeader → Prop} [∀ v o hdr, Decidable (P v o hdr)]

instance instDecidableTxAll (env : Nat → BackendAnswer) (availIdx : UInt16) :
    ∀ (n k : Nat) (v : Vsock M), Decidable (TxAll G P env availIdx n k v)
  | 0, _, _ => isTrue trivial
  | n + 1, k, v =>
    have := instDecidableTxAll env availIdx n (k + 1) (v.txTurn G (env k)).1
    inferInstanceAs (Decidable (v.tx.lastAvailIdx = availIdx ∨ (∀ hdr ∈ v.nextHeader G, P v (env k) hdr) ∧
      ((v.txTurn G (env k)).2 = true → TxAll G P env availIdx n (k + 1) (v.txTurn G (env k)).1)))

instance instDecidableAnswers (v : Vsock M) : ∀ e : VsockEvent M, Decidable (Answers G P v e)
  -- not the instance that runs through all of `UInt16`
  | .notifyTX _ => Option.decidableForallMem (v.txAvailIdx G)
  | .guestWrites _ | .setQueues _ _ | .notifyRX | .reset | .detach | .closeChannel | .closeConnections
  | .readReturns _ _ | .readerRuns _ | .readerStops _ => isTrue trivial

end Decidable

instance instDecidableRunAll {Q : Vsock M → VsockEvent M → Prop} [∀ v e, Decidable (Q v e)] :
    ∀ (v : Vsock M) (es : List (VsockEvent M)), Decidable (RunAll G Q v es)
  | _, [] => isTrue trivial
  | v, e :: es =>
    have : Decidable (RunAll G Q (v.step G e) es) := instDecidableRunAll (v.step G e) es
    inferInstanceAs (Decidable (Q v e ∧ RunAll G Q (v.step G e) es))

variable {env : Nat → BackendAnswer}

section Mono

variable {P P' : Vsock M → BackendAnswer → VsockHeader → Prop}

theorem TxAll.mono (hP : ∀ v o hdr, P v o hdr → P' v o hdr) {availIdx : UInt16} {n k : Nat}
    (h : TxAll G P env availIdx n k v) : TxAll G P' env availIdx n k v := by
  induction n generalizing k v with
  | zero => trivial
  | succ n ih =>
    rcases h with h | ⟨hhdr, hrest⟩
    · exact .inl h
    · exact .inr ⟨fun hdr hh => hP v _ hdr (hhdr hdr hh), fun hok => ih (hrest hok)⟩

theorem Answers.mono (hP : ∀ v o hdr, P v o hdr → P' v o hdr) {e : VsockEvent M} (h : Answers G P v e) :
    Answers G P' v e := by
  cases e with
  | notifyTX env => exact fun availIdx hidx => TxAll.mono G hP (h availIdx hidx)
  | _ => trivial

theorem RunAll.mono {Q Q' : Vsock M → VsockEvent M → Prop} (hQ : ∀ v e, Q v e → Q' v e) {es : List (VsockEvent M)}
    (h : RunAll G Q v es) : RunAll G Q' v es := by
  induction es generalizing v with
  | nil => trivial
  | cons e es ih => exact ⟨hQ v e h.1, ih h.2⟩

end Mono

variable {I : Vsock M → Prop}

theorem run_rule {Q : Vsock M → VsockEvent M → Prop} (hstep : ∀ v e, I v → Q v e → I (v.step G e))
    {es : List (VsockEvent M)}
    (hv : I v) (hQ : RunAll G Q v es) : I (v.run G es) := by
  induction es generalizing v with
  | nil => exact hv
  | cons e es ih => exact ih (hstep v e hv hQ.1) hQ.2

theorem dispatch_mem_rx (o : BackendAnswer) (hdr : VsockHeader) (payload : Bytes) (v : Vsock M) :
    (v.dispatch o hdr payload).mem = v.mem ∧ (v.dispatch o hdr payload).rx = v.rx := by
  simp only [dispatch, handleConnect, handleResponse, handleReset, handleShutdown, handleData, handleCreditUpdate,
    handleCreditRequest]
  split <;> (try split) <;> (try split) <;> (try split) <;> (try split) <;> exact ⟨rfl, rfl⟩

variable {P : Vsock M → BackendAnswer → VsockHeader → Prop}

theorem txTurn_rule {o : BackendAnswer} (hpacket : ∀ v hdr payload, I v → P v o hdr → I (v.dispatch o hdr payload))
    (hring : ∀ v tx m, v.mem.isSome → I v → I { v with tx := tx, mem := some m }) (hv : I v)
    (hP : ∀ hdr ∈ v.nextHeader G, P v o hdr) : I (v.txTurn G o).1 := by
  unfold txTurn
  split
  · exact hv
  rename_i m hm
  split
  · exact hv
  rename_i head len packet hnext
  have hhandled : I (v.handleTXPacket o packet) := by
    rcases packet with _ | ⟨hdr, payload⟩
    · exact hv
    · refine hpacket _ _ _ hv (hP hdr ?_)
      simp [nextHeader, hm, hnext, Except.toOption]
  have hsome : (v.handleTXPacket o packet).mem.isSome := by
    rcases packet with _ | ⟨hdr, payload⟩
    · show v.mem.isSome
      rw [hm]
      rfl
    · show (v.dispatch o hdr payload).mem.isSome
      rw [(dispatch_mem_rx o hdr payload v).1, hm]
      rfl
  dsimp only
  split
  · exact hring _ _ _ hsome hhandled
  · exact hring _ _ _ hsome hhandled

theorem txLoop_rule (hpacket : ∀ v k hdr payload, I v → P v (env k) hdr → I (v.dispatch (env k) hdr payload))
    (hring : ∀ v tx m, v.mem.isSome → I v → I { v with tx := tx, mem := some m }) (availIdx : UInt16) (n k : Nat)
    (v : Vsock M) (hv : I v) (hP : TxAll G P env availIdx n k v) : I (v.txLoop G env availIdx n k).1 := by
  induction n generalizing k v with
  | zero => exact hv
  | succ n ih =>
    unfold txLoop
    split
    · exact hv
    rename_i hidx
    obtain ⟨hturn, hrest⟩ := hP.resolve_left hidx
    have hone := txTurn_rule G (fun v => hpacket v k) hring hv hturn
    split
    · rename_i heq
      rw [heq] at hone
      exact hone
    · rename_i v' heq
      rw [heq] at hone hrest
      exact ih (k + 1) v' hone (hrest rfl)

/-- What every packet keeps, `processTX` keeps: `I` up to the flush of the receive queue, `J` in the end. -/
theorem processTX_rule {J : Vsock M → Prop}
    (hpacket : ∀ v k hdr payload, I v → P v (env k) hdr → I (v.dispatch (env k) hdr payload))
    (hring : ∀ v tx m, v.mem.isSome → I v → I { v with tx := tx, mem := some m }) (hweak : ∀ v, I v → J v)
    (hrx : ∀ v, I v → J (v.processRX G)) (hv : I v) (hP : Answers G P v (.notifyTX env)) : J (v.processTX G env) := by
  unfold processTX
  split
  · exact hweak v hv
  rename_i m hm
  split
  · exact hweak v hv
  split
  · exact hweak v hv
  rename_i availIdx havail
  have hidx : availIdx ∈ v.txAvailIdx G := by simp [txAvailIdx, hm, havail, Except.toOption]
  have hloop := txLoop_rule G hpacket hring availIdx _ 0 v hv (hP availIdx hidx)
  split
  · rename_i v' heq
    rw [heq] at hloop
    exact hweak v' hloop
  · rename_i v' heq
    rw [heq] at hloop
    exact hrx v' hloop

end Vsock

end CrumbleCracker.Virtio
