import CrumbleCracker.Netstack.TcpBuffers

/-!
# `tcpConn`

A connection to the guest, with everything that runs on it: segments of the guest (`handleSegment`), `Write`, `Read` and
`WriteTo`, the retransmission timer (`onRetxTimeout`), `CloseWrite` and `Close`. Each call is a `Task` that stands
between two of its steps; a step is what happens under one lock (`c.mu`, the lock of the send buffer or `retxTimerMu`),
one operation on the channel `recvBuf`, or one frame handed to the guest. `c.mu` stays held from one step to the next
where the code takes another lock under it (`TcpConn.mu`). Tasks run in any order, and so may re-enter the connection,
as a frame to the guest does that the guest answers at once.

Fields marked as ghosts are read by no step. A place counts bytes and FINs of one direction from its first sequence
number after the handshake, so it does not wrap.
-/

namespace CrumbleCracker.Netstack

/-! ## Segments and frames -/

structure TcpOptions where
  wndScale : UInt8 := 0
  hasWndScale : Bool := false
deriving DecidableEq

/-- `tcpHeader` of a segment of the guest: the flags `handleSegment` reads, and the options parsed. -/
structure TcpHeader where
  seq : UInt32 := 0
  ack : UInt32 := 0
  window : UInt16 := 0
  syn : Bool := false
  hasAck : Bool := false
  fin : Bool := false
  rst : Bool := false
  opts : TcpOptions := {}
  payload : Bytes := []
deriving DecidableEq

/-- A frame to the guest; all carry an acknowledgement. -/
structure Frame where
  seq : UInt32
  ack : UInt32
  fin : Bool := false
  psh : Bool := false
  payload : Bytes := []
  /-- Ghost: the place of `seq`. -/
  off : Nat
  /-- Ghost: the place of `ack`. -/
  ackOff : Nat
  /-- Ghost: the end of the window the guest last advertised, when the frame was made. -/
  limit : Nat
  /-- Ghost: it repeats a segment of the send buffer. -/
  again : Bool := false
deriving DecidableEq

structure Piece where
  /-- Ghost: its place in the stream. -/
  off : Nat
  data : Bytes
deriving DecidableEq

inductive TcpState where
  | synSent
  | synRcvd
  | established
  | finWait
  | closed
deriving DecidableEq

/-- The segment `Write` keeps for retransmission. -/
def Frame.segment (f : Frame) : TcpSendSegment :=
  { seqStart := f.seq, seqEnd := f.seq + UInt32.ofNat f.payload.length, payload := f.payload, off := f.off }

/-! ## Receiving -/

def recvBufCapacity : Nat := 512

/-- The fields of the guest-to-host direction. -/
structure RecvSide where
  guestSeq : UInt32
  oooRecvBuf : List TcpOOOSegment := []
  /-- The channel; `none` is the `nil` that signals the end. -/
  recvBuf : List (Option Piece) := []
  /-- `readPending`, when it is not empty. -/
  readPending : Option Piece := none
  /-- Ghost: how many bytes of the stream `guestSeq` has moved over. -/
  got : Nat := 0
  /-- Ghost: the guest's FIN, as the guest numbered it, once `guestSeq` has moved over it. -/
  finSeq : Option UInt32 := none
  /-- Ghost: what `Read` and `WriteTo` have handed out. -/
  returned : List Piece := []
deriving DecidableEq

/-- Payloads as consecutive pieces from place `off`. -/
def piecesAt : Nat → List Bytes → List Piece
  | _, [] => []
  | off, b :: bs => ⟨off, b⟩ :: piecesAt (off + b.length) bs

/-- A segment that is ahead of the one expected. -/
def RecvSide.keep (r : RecvSide) (hdr : TcpHeader) : RecvSide :=
  if seqGT hdr.seq r.guestSeq then
    { r with
      oooRecvBuf := oooInsert r.oooRecvBuf
        { seqStart := hdr.seq, seqEnd := hdr.seq + UInt32.ofNat hdr.payload.length, payload := hdr.payload } }
  else r

/-- The payloads a segment in order lets through: its own and those buffered behind it. -/
def RecvSide.ready (r : RecvSide) (payload : Bytes) : List Bytes :=
  payload :: (collectContiguous r.oooRecvBuf (r.guestSeq + UInt32.ofNat payload.length)).1

/-- `guestSeq` moves over a segment in order and what was buffered behind it. -/
def RecvSide.accept (r : RecvSide) (payload : Bytes) : RecvSide :=
  let (_, kept, next) := collectContiguous r.oooRecvBuf (r.guestSeq + UInt32.ofNat payload.length)
  { r with guestSeq := next, oooRecvBuf := kept, got := r.got + (r.ready payload).flatten.length }

/-- `guestSeq` moves over the guest's FIN. -/
def RecvSide.acceptFin (r : RecvSide) (hdr : TcpHeader) : RecvSide :=
  { r with guestSeq := r.guestSeq + 1, finSeq := some (hdr.seq + UInt32.ofNat hdr.payload.length) }

/-- The place of `guestSeq`. -/
def RecvSide.place (r : RecvSide) : Nat := r.got + if r.finSeq.isSome then 1 else 0

/-- The `select` of `enqueueData`: dropped when the channel is full. -/
def RecvSide.enqueue (r : RecvSide) (data : Option Piece) : RecvSide :=
  if r.recvBuf.length < recvBufCapacity then { r with recvBuf := r.recvBuf ++ [data] } else r

/-! ## Sending -/

def maxPayload : Nat := 1460

def fastRetransmitThreshold : Nat := 3

/-- The fields of the host-to-guest direction. -/
structure SendSide where
  hostSeq : UInt32
  sendAcked : UInt32
  peerWnd : UInt16
  wndScaleOK : Bool := false
  peerWndScale : UInt8 := 0
  sendBuf : List TcpSendSegment := []
  nagleEnabled : Bool := false
  nagleBuf : Bytes := []
  /-- The counter of duplicate acknowledgements in `congCtrl`. -/
  dupAcks : Nat := 0
  /-- Ghost: the place of `hostSeq`. -/
  hostOff : Nat := 0
  /-- Ghost: the place of `sendAcked`. -/
  ackOff : Nat := 0
  /-- Ghost: the places of the host's FINs. -/
  finOffs : List Nat := []
  /-- Ghost: the bytes that were given sequence numbers. -/
  stream : Bytes := []
deriving DecidableEq

namespace SendSide

/-- The window the guest last advertised, scaled. -/
def window (s : SendSide) : UInt32 :=
  if s.wndScaleOK then (if s.peerWndScale < 32 then s.peerWnd.toUInt32 <<< s.peerWndScale.toUInt32 else 0)
  else s.peerWnd.toUInt32

/-- The sequence numbers sent and not acknowledged. -/
def inFlight (s : SendSide) : UInt32 := s.hostSeq - s.sendAcked

def take (s : SendSide) (data : Bytes) : SendSide :=
  { s with
    hostSeq := s.hostSeq + UInt32.ofNat data.length, hostOff := s.hostOff + data.length, stream := s.stream ++ data }

def takeFin (s : SendSide) : SendSide :=
  { s with hostSeq := s.hostSeq + 1, hostOff := s.hostOff + 1, finOffs := s.finOffs ++ [s.hostOff] }

/-- An acknowledgement that moves `sendAcked` on. -/
def acknowledge (s : SendSide) (ack : UInt32) : SendSide :=
  { s with
    sendAcked := ack, dupAcks := 0, sendBuf := sendBufAck s.sendBuf ack
    ackOff := s.ackOff + (ack - s.sendAcked).toNat }

/-- The resync on an acknowledgement beyond what was sent. -/
def resync (s : SendSide) (ack : UInt32) : SendSide :=
  { s with
    hostSeq := ack, sendAcked := ack
    hostOff := s.hostOff + (ack - s.hostSeq).toNat, ackOff := s.hostOff + (ack - s.hostSeq).toNat }

/-- `applyPeerOptionsLocked`, as far as sending reads it. -/
def applyPeerOptions (s : SendSide) (opts : TcpOptions) : SendSide :=
  if opts.hasWndScale then { s with peerWndScale := opts.wndScale, wndScaleOK := true } else s

end SendSide

/-! ## The retransmission timer -/

/-- `retxTimer`, and which timers will fire. -/
structure TimerSide where
  retxTimer : Option Nat := none
  armed : List Nat := []
  next : Nat := 0
deriving DecidableEq

namespace TimerSide

/-- `c.retxTimer = time.AfterFunc(..)`. -/
def arm (t : TimerSide) : TimerSide := { retxTimer := some t.next, armed := t.armed ++ [t.next], next := t.next + 1 }

/-- `c.retxTimer.Stop()`. -/
def halt (t : TimerSide) : TimerSide :=
  match t.retxTimer with
  | none => t
  | some id => { t with armed := t.armed.filter (· ≠ id) }

/-- `startRetxTimer`. -/
def start (t : TimerSide) : TimerSide := if t.retxTimer.isSome then t else t.arm

/-- `restartRetxTimer`. -/
def restart (t : TimerSide) : TimerSide := t.halt.arm

/-- `stopRetxTimer`. -/
def stop (t : TimerSide) : TimerSide := { t.halt with retxTimer := none }

end TimerSide

/-! ## Calls in progress -/

/-- One thing a call does after its first lock section. -/
inductive Action where
  | enqueue (data : Option Piece)
  | sendAck
  | sendFin
  | transmit (f : Frame)
  | close
  | stopTimer
  | clearSend
  | clearRecv
deriving DecidableEq

inductive Task where
  /-- `handleSegment` is called -/
  | segment (hdr : TcpHeader)
  /-- under `c.mu`, about to look whether the send buffer is empty -/
  | segmentLen (hdr : TcpHeader)
  /-- under `c.mu`, about to restart the timer (`left`) or stop it -/
  | segmentTimer (hdr : TcpHeader) (left : Bool)
  /-- has released `c.mu` to send a frame -/
  | segmentSend (hdr : TcpHeader) (f : Frame)
  /-- about to take `c.mu` again -/
  | segmentResume (hdr : TcpHeader)
  | actions (as : List Action)
  /-- at the head of the loop of `Write` -/
  | write (b : Bytes) (written : Nat)
  | writeTransmit (b : Bytes) (written : Nat) (f : Frame)
  | writeAppend (b : Bytes) (written : Nat) (seg : TcpSendSegment)
  /-- the send buffer was full: about to read `sendAcked` -/
  | writeFull (b : Bytes) (written : Nat) (seg : TcpSendSegment)
  | writeFullAck (b : Bytes) (written : Nat) (seg : TcpSendSegment) (ackedThrough : UInt32)
  | writeRetry (b : Bytes) (written : Nat) (seg : TcpSendSegment)
  /-- the segment is in the send buffer: about to read `sendAcked` -/
  | writeSettle (b : Bytes) (written : Nat) (seg : TcpSendSegment)
  | writeAck (b : Bytes) (written : Nat) (seg : TcpSendSegment) (ackedThrough : UInt32)
  | writeLen (b : Bytes) (written : Nat) (seg : TcpSendSegment)
  | writeTimer (b : Bytes) (written : Nat) (seg : TcpSendSegment)
  /-- `onRetxTimeout` is called -/
  | timeout
  /-- under `c.mu`, about to clear `retxTimer` -/
  | timeoutClear
  /-- has released `c.mu` to log a stall -/
  | timeoutResume (seg : TcpSendSegment)
  | timeoutMark (f : Frame)
  | timeoutSend (f : Frame)
  /-- about to arm the next timer -/
  | timeoutArm
  | closeWrite
  | setNoDelay (noDelay : Bool)
  | read (n : Nat)
  /-- waits for the channel -/
  | readTake (n : Nat)
  /-- has taken a payload that the buffer does not hold -/
  | readStore (head rest : Piece)
  /-- `WriteTo` holds payloads it has not written -/
  | writeTo (batch : List Piece)
  | writeToTake (batch : List Piece)
  | done
deriving DecidableEq

/-- `tcpConn`, with the calls in progress on it. -/
structure TcpConn where
  state : TcpState := .established
  closed : Bool := false
  writeClosed : Bool := false
  recv : RecvSide
  send : SendSide
  timer : TimerSide := {}
  /-- The task that holds `c.mu` between its steps. -/
  mu : Option Nat := none
  tasks : List Task := []
  wire : List Frame := []
  /-- Ghost: the buffers of the calls of `Write` that returned, how much they reported as written, and whether they
  succeeded. -/
  writes : List (Bytes × Nat × Bool) := []
deriving DecidableEq

/-- What decides a step besides the state. -/
structure Choice where
  /-- the frame goes out; the writer of `WriteTo` takes what it is given -/
  ok : Bool := true
  /-- the other way at a branch that depends on time, on the scheduler or on the listener -/
  alt : Bool := false
deriving DecidableEq

namespace TcpConn

def goto (i : Nat) (t : Task) (c : TcpConn) : TcpConn := { c with tasks := c.tasks.set i t }

/-- Task `i` moves on and releases `c.mu`. -/
def release (i : Nat) (t : Task) (c : TcpConn) : TcpConn := { c with mu := none, tasks := c.tasks.set i t }

/-- A frame at the connection's sequence numbers, with nothing in it. -/
def frame (c : TcpConn) : Frame :=
  { seq := c.send.hostSeq, ack := c.recv.guestSeq, off := c.send.hostOff, ackOff := c.recv.place
    limit := c.send.ackOff + c.send.window.toNat }

/-- A segment of the send buffer sent again. -/
def retransmission (c : TcpConn) (seg : TcpSendSegment) : Frame :=
  { seq := seg.seqStart, ack := c.recv.guestSeq, payload := seg.payload, off := seg.off, ackOff := c.recv.place
    limit := c.send.ackOff + c.send.window.toNat, again := true }

/-- `sendTCPPacket`. -/
def transmit (f : Frame) (ok : Bool) (c : TcpConn) : TcpConn := if ok then { c with wire := c.wire ++ [f] } else c

/-! ## `handleSegment` -/

/-- What follows in `handleSegment` when the guest's FIN has been accepted. -/
def finActions (writeClosed : Bool) : List Action :=
  [.enqueue none, .sendAck] ++ if writeClosed then [] else [.sendFin]

/-- A segment with a payload in state `established`. -/
def receivePayload (i : Nat) (hdr : TcpHeader) (c : TcpConn) : TcpConn :=
  if hdr.seq ≠ c.recv.guestSeq then { c with recv := c.recv.keep hdr }.release i (.actions [.sendAck])
  else
    let deliver := (piecesAt c.recv.got (c.recv.ready hdr.payload)).map fun p => Action.enqueue (some p)
    if hdr.fin then
      { c with recv := (c.recv.accept hdr.payload).acceptFin hdr, state := .finWait }.release i
        (.actions (deliver ++ finActions c.writeClosed))
    else { c with recv := c.recv.accept hdr.payload }.release i (.actions (deliver ++ [Action.sendAck]))

/-- The switch of `handleSegment`, up to the unlock. -/
def segmentSwitch (i : Nat) (hdr : TcpHeader) (ch : Choice) (c : TcpConn) : TcpConn :=
  match c.state with
  | .synSent =>
    if hdr.rst then { c with state := .closed }.release i (.actions [.close])
    else if hdr.syn && hdr.hasAck && hdr.ack = c.send.hostSeq then
      { c with
        state := .established, recv := { c.recv with guestSeq := hdr.seq + 1 }
        send := { c.send.applyPeerOptions hdr.opts with peerWnd := hdr.window } }.release i (.actions [.sendAck])
    else c.release i .done
  | .synRcvd =>
    if hdr.hasAck && hdr.ack = c.send.hostSeq then
      -- a listener that is closed meanwhile closes the connection
      { c with state := .established }.release i
        (if ch.alt then .actions [.close]
          else if hdr.payload ≠ [] || hdr.fin || hdr.rst then .segment hdr
          else .done)
    else c.release i .done
  | .established =>
    if hdr.payload ≠ [] then c.receivePayload i hdr
    else if hdr.fin then
      { c with recv := c.recv.acceptFin hdr, state := .finWait }.release i (.actions (finActions c.writeClosed))
    else if hdr.rst then c.release i (.actions [.close])
    else c.release i .done
  | .finWait => if hdr.hasAck then { c with state := .closed }.release i (.actions [.close]) else c.release i .done
  | .closed => c.release i .done

/-- `handleSegment` from the resync on. -/
def segmentRest (i : Nat) (hdr : TcpHeader) (ch : Choice) (c : TcpConn) : TcpConn :=
  if hdr.hasAck && c.send.hostSeq < hdr.ack then
    segmentSwitch i hdr ch { c with send := c.send.resync hdr.ack }
  else c.segmentSwitch i hdr ch

/-- A duplicate acknowledgement: the third sends the oldest segment again, if it is still there. -/
def duplicateAck (i : Nat) (hdr : TcpHeader) (ch : Choice) (c : TcpConn) : TcpConn :=
  let c := { c with send := { c.send with dupAcks := c.send.dupAcks + 1 } }
  match c.send.sendBuf with
  | seg :: _ =>
    if c.send.dupAcks = fastRetransmitThreshold && !ch.alt then c.goto i (.segmentSend hdr (c.retransmission seg))
    else c.segmentRest i hdr ch
  | [] => c.segmentRest i hdr ch

/-- `handleSegment` is entered. -/
def segment (i : Nat) (hdr : TcpHeader) (ch : Choice) (c : TcpConn) : TcpConn :=
  if c.closed then c.goto i .done
  else if !hdr.hasAck then c.segmentRest i hdr ch
  else
    let oldWnd := c.send.peerWnd
    let c := { c with send := { c.send with peerWnd := hdr.window } }
    if c.send.sendAcked < hdr.ack then
      { c with send := c.send.acknowledge hdr.ack, mu := some i }.goto i (.segmentLen hdr)
    else if hdr.ack = c.send.sendAcked && c.send.sendBuf ≠ [] && hdr.payload = [] && !hdr.syn && !hdr.fin && !hdr.rst
        && hdr.window = oldWnd then
      c.duplicateAck i hdr ch
    else c.segmentRest i hdr ch

/-- The timer after an acknowledgement; when nothing is in flight any more, `nagleBuf` is sent. -/
def segmentTimer (i : Nat) (hdr : TcpHeader) (left : Bool) (ch : Choice) (c : TcpConn) : TcpConn :=
  if left then segmentRest i hdr ch { c with timer := c.timer.restart }
  else
    let c := { c with timer := c.timer.stop }
    if c.send.nagleBuf = [] then c.segmentRest i hdr ch
    else
      { c with send := { c.send.take c.send.nagleBuf with nagleBuf := [] } }.release i
        (.segmentSend hdr { c.frame with psh := true, payload := c.send.nagleBuf })

/-! ## `Close` and the rest of a call -/

/-- The lock section of `Close`. -/
def closeSection (i : Nat) (as : List Action) (c : TcpConn) : TcpConn :=
  if c.closed then c.goto i (.actions as)
  else
    let needFin := c.state = .established && !c.writeClosed
    { c with state := .closed, closed := true, recv := { c.recv with readPending := none } }.goto i
      (.actions ([Action.stopTimer, .clearSend, .clearRecv] ++ (if needFin then [Action.sendFin] else []) ++ as))

/-- The next action of task `i`, with `as` to follow. -/
def act (i : Nat) (a : Action) (as : List Action) (ch : Choice) (c : TcpConn) : TcpConn :=
  match a with
  | .enqueue data =>
    if c.closed then c.goto i (.actions as) else { c with recv := c.recv.enqueue data }.goto i (.actions as)
  | .sendAck => c.goto i (.actions (.transmit c.frame :: as))
  | .sendFin => { c with send := c.send.takeFin }.goto i (.actions (.transmit { c.frame with fin := true } :: as))
  | .transmit f => (c.transmit f ch.ok).goto i (.actions as)
  | .close => c.closeSection i as
  | .stopTimer => { c with timer := c.timer.stop }.goto i (.actions as)
  | .clearSend => { c with send := { c.send with sendBuf := [] } }.goto i (.actions as)
  | .clearRecv => { c with recv := { c.recv with oooRecvBuf := [] } }.goto i (.actions as)

def closeWrite (i : Nat) (c : TcpConn) : TcpConn :=
  if c.closed || c.writeClosed then c.goto i .done
  else if c.state ≠ .established then c.goto i .done
  else { c with writeClosed := true }.goto i (.actions [.sendFin])

/-! ## `Write` -/

def writeReturns (i : Nat) (b : Bytes) (written : Nat) (ok : Bool) (c : TcpConn) : TcpConn :=
  { c with writes := c.writes ++ [(b, written, ok)] }.goto i .done

/-- How much the window lets out at once. -/
def maxChunk (s : SendSide) : Nat := min maxPayload (s.window - s.inFlight).toNat

/-- The lock section of `Write`: a chunk that fits the window takes its sequence numbers, or goes to `nagleBuf`. A call
that waits for the window stays where it is. -/
def writeSection (i : Nat) (b : Bytes) (written : Nat) (ch : Choice) (c : TcpConn) : TcpConn :=
  if b.length ≤ written then c.writeReturns i b b.length true
  else if c.closed || c.writeClosed then c.writeReturns i b written false
  else if 0 < c.send.window && c.send.inFlight < c.send.window then
    let chunk := (b.drop written).take (maxChunk c.send)
    if c.send.nagleEnabled && chunk.length < maxPayload && 0 < c.send.inFlight then
      { c with send := { c.send with nagleBuf := c.send.nagleBuf ++ chunk } }.goto i (.write b (written + chunk.length))
    else
      let data := (c.send.nagleBuf ++ chunk).take (maxChunk c.send)
      let left := (c.send.nagleBuf ++ chunk).drop (maxChunk c.send)
      { c with send := { c.send.take data with nagleBuf := left } }.goto i
        (.writeTransmit b written
          { c.frame with psh := written + data.length = b.length && left = [], payload := data })
  else if ch.alt then c.writeReturns i b written false
  else c

def writeTransmit (i : Nat) (b : Bytes) (written : Nat) (f : Frame) (ch : Choice) (c : TcpConn) : TcpConn :=
  if ch.ok then (c.transmit f true).goto i (.writeAppend b written f.segment) else c.writeReturns i b written false

/-- `Write` puts its segment into the send buffer, or goes on at `full`. -/
def writeAppend (i : Nat) (b : Bytes) (written : Nat) (seg : TcpSendSegment) (full : Task) (c : TcpConn) : TcpConn :=
  match sendBufAppend c.send.sendBuf seg with
  | none => c.goto i full
  | some segs => { c with send := { c.send with sendBuf := segs } }.goto i (.writeSettle b written seg)

/-! ## `onRetxTimeout` -/

def maxRetries : Nat := 10

/-- `onRetxTimeout` from the backoff on. -/
def backoff (i : Nat) (seg : TcpSendSegment) (c : TcpConn) : TcpConn :=
  { c with send := { c.send with dupAcks := if 0 < seg.retxCount then 0 else c.send.dupAcks } }.goto i
    (.timeoutMark (c.retransmission seg))

/-- `onRetxTimeout` is entered; `alt` is a segment that was sent only just now. -/
def timeout (i : Nat) (ch : Choice) (c : TcpConn) : TcpConn :=
  if c.closed then c.goto i .done
  else match c.send.sendBuf with
    | [] => { c with mu := some i }.goto i .timeoutClear
    | seg :: _ =>
      if ch.alt then c.goto i .timeoutArm
      else if maxRetries ≤ seg.retxCount then c.goto i (.actions [.close])
      else if 0 < seg.retxCount && seg.retxCount % 3 = 0 then c.goto i (.timeoutResume seg)
      else c.backoff i seg

/-! ## `Read` and `WriteTo` -/

def read (i n : Nat) (ch : Choice) (c : TcpConn) : TcpConn :=
  match c.recv.readPending with
  | some p =>
    { c with
      recv :=
        { c.recv with
          readPending := if p.data.length ≤ n then none else some ⟨p.off + n, p.data.drop n⟩
          returned := c.recv.returned ++ [(⟨p.off, p.data.take n⟩ : Piece)] } }.goto i .done
  | none => c.goto i (if ch.alt then .done else .readTake n)

def readTake (i n : Nat) (ch : Choice) (c : TcpConn) : TcpConn :=
  match c.recv.recvBuf with
  | [] => if c.closed || ch.alt then c.goto i .done else c
  | none :: rest => { c with recv := { c.recv with recvBuf := rest } }.goto i .done
  | some p :: rest =>
    if p.data.length ≤ n then
      { c with recv := { c.recv with recvBuf := rest, returned := c.recv.returned ++ [p] } }.goto i .done
    else
      { c with recv := { c.recv with recvBuf := rest } }.goto i
        (.readStore ⟨p.off, p.data.take n⟩ ⟨p.off + n, p.data.drop n⟩)

/-- `Read` keeps what did not fit its buffer. -/
def readStore (i : Nat) (head rest : Piece) (c : TcpConn) : TcpConn :=
  { c with
    recv :=
      { c.recv with
        readPending := if c.closed then c.recv.readPending else some rest
        returned := c.recv.returned ++ [head] } }.goto i .done

/-- `WriteTo` between two payloads: it takes the next one, or (`alt`) writes what it holds. -/
def writeTo (i : Nat) (batch : List Piece) (ch : Choice) (c : TcpConn) : TcpConn :=
  if ch.alt then
    if ch.ok then
      { c with recv := { c.recv with returned := c.recv.returned ++ batch } }.goto i (.writeTo [])
    else c.goto i .done
  else match c.recv.readPending with
    | some p => { c with recv := { c.recv with readPending := none } }.goto i (.writeTo (batch ++ [p]))
    | none => c.goto i (.writeToTake batch)

/-- `WriteTo` takes a payload from the channel; at the end of the stream it writes what it holds and returns. -/
def writeToTake (i : Nat) (batch : List Piece) (ch : Choice) (c : TcpConn) : TcpConn :=
  match c.recv.recvBuf with
  | [] => if batch ≠ [] then c.goto i (.writeTo batch) else if c.closed || ch.alt then c.goto i .done else c
  | none :: rest =>
    { c with
      recv :=
        { c.recv with
          recvBuf := rest, returned := c.recv.returned ++ if ch.ok then batch else [] } }.goto i .done
  | some p :: rest => { c with recv := { c.recv with recvBuf := rest } }.goto i (.writeTo (batch ++ [p]))

/-! ## Interleavings -/

def needsMu : Task → Bool
  | .segment _ | .segmentResume _ | .write _ _ | .writeFull _ _ _ | .writeSettle _ _ _ | .timeout | .timeoutResume _
  | .closeWrite | .setNoDelay _ | .read _ | .readStore _ _ | .writeTo _ => true
  | .actions (.enqueue _ :: _) | .actions (.sendAck :: _) | .actions (.sendFin :: _) | .actions (.close :: _) => true
  | _ => false

def runTask (i : Nat) (t : Task) (ch : Choice) (c : TcpConn) : TcpConn :=
  match t with
  | .segment hdr => c.segment i hdr ch
  | .segmentLen hdr => c.goto i (.segmentTimer hdr (c.send.sendBuf ≠ []))
  | .segmentTimer hdr left => c.segmentTimer i hdr left ch
  | .segmentSend hdr f => (c.transmit f ch.ok).goto i (.segmentResume hdr)
  | .segmentResume hdr => c.segmentRest i hdr ch
  | .actions [] => c.goto i .done
  | .actions (a :: as) => c.act i a as ch
  | .write b written => c.writeSection i b written ch
  | .writeTransmit b written f => c.writeTransmit i b written f ch
  | .writeAppend b written seg => c.writeAppend i b written seg (.writeFull b written seg)
  | .writeFull b written seg =>
    if c.closed then c.writeReturns i b written false else c.goto i (.writeFullAck b written seg c.send.sendAcked)
  | .writeFullAck b written seg ackedThrough =>
    { c with send := { c.send with sendBuf := sendBufAck c.send.sendBuf ackedThrough } }.goto i
      (.writeRetry b written seg)
  -- a call that waits for the send buffer tries again from the start
  | .writeRetry b written seg => c.writeAppend i b written seg (.writeAppend b written seg)
  | .writeSettle b written seg => c.goto i (.writeAck b written seg c.send.sendAcked)
  | .writeAck b written seg ackedThrough =>
    { c with send := { c.send with sendBuf := sendBufAck c.send.sendBuf ackedThrough } }.goto i
      (.writeLen b written seg)
  | .writeLen b written seg =>
    c.goto i (if c.send.sendBuf = [] then .write b (written + seg.payload.length) else .writeTimer b written seg)
  | .writeTimer b written seg =>
    { c with timer := c.timer.start }.goto i (.write b (written + seg.payload.length))
  | .timeout => c.timeout i ch
  | .timeoutClear => { c with timer := { c.timer with retxTimer := none } }.release i .done
  | .timeoutResume seg => c.backoff i seg
  | .timeoutMark f =>
    { c with send := { c.send with sendBuf := markRetransmitted c.send.sendBuf } }.goto i (.timeoutSend f)
  | .timeoutSend f => (c.transmit f ch.ok).goto i .timeoutArm
  | .timeoutArm => { c with timer := c.timer.arm }.goto i .done
  | .closeWrite => c.closeWrite i
  | .setNoDelay noDelay => { c with send := { c.send with nagleEnabled := !noDelay } }.goto i .done
  | .read n => c.read i n ch
  | .readTake n => c.readTake i n ch
  | .readStore head rest => c.readStore i head rest
  | .writeTo batch => c.writeTo i batch ch
  | .writeToTake batch => c.writeToTake i batch ch
  | .done => c

end TcpConn

inductive TcpCall where
  | segment (hdr : TcpHeader)
  | write (b : Bytes)
  | closeWrite
  | close
  | setNoDelay (noDelay : Bool)
  | read (n : Nat)
  | writeTo
deriving DecidableEq

def TcpCall.task : TcpCall → Task
  | .segment hdr => .segment hdr
  | .write b => .write b 0
  | .closeWrite => .closeWrite
  | .close => .actions [.close]
  | .setNoDelay noDelay => .setNoDelay noDelay
  | .read n => .read n
  | .writeTo => .writeTo []

inductive TcpEvent where
  | call (k : TcpCall)
  | fire (id : Nat)
  | run (i : Nat) (ch : Choice)
deriving DecidableEq

namespace TcpConn

/-- One step of the connection; a task that needs `c.mu` while it is held does not move. -/
def step (c : TcpConn) : TcpEvent → TcpConn
  | .call k => { c with tasks := c.tasks ++ [k.task] }
  | .fire id =>
    if id ∈ c.timer.armed then
      { c with timer := { c.timer with armed := c.timer.armed.filter (· ≠ id) }, tasks := c.tasks ++ [.timeout] }
    else c
  | .run i ch =>
    match c.tasks[i]? with
    | none => c
    | some t => if needsMu t && c.mu.isSome then c else c.runTask i t ch

def run (c : TcpConn) (es : List TcpEvent) : TcpConn := es.foldl step c

/-- A connection after the handshake: the host's next number is `iss`, the guest's `irs`. -/
def established (iss irs : UInt32) (peerWnd : UInt16) (wndScaleOK : Bool) (peerWndScale : UInt8) : TcpConn :=
  { recv := { guestSeq := irs }
    send :=
      { hostSeq := iss, sendAcked := iss, peerWnd := peerWnd, wndScaleOK := wndScaleOK, peerWndScale := peerWndScale } }

/-! ## Runs -/

theorem run_append (c : TcpConn) (es fs : List TcpEvent) : c.run (es ++ fs) = (c.run es).run fs := List.foldl_append ..

/-- `Q` holds of the connection and the event at each step of the run. -/
def RunAll (Q : TcpConn → TcpEvent → Prop) : TcpConn → List TcpEvent → Prop
  | _, [] => True
  | c, e :: es => Q c e ∧ RunAll Q (c.step e) es

instance instDecidableRunAll {Q : TcpConn → TcpEvent → Prop} [∀ c e, Decidable (Q c e)] :
    ∀ (c : TcpConn) (es : List TcpEvent), Decidable (RunAll Q c es)
  | _, [] => isTrue trivial
  | c, e :: es =>
    have : Decidable (RunAll Q (c.step e) es) := instDecidableRunAll (c.step e) es
    inferInstanceAs (Decidable (Q c e ∧ RunAll Q (c.step e) es))

theorem RunAll.and_mem {Q : TcpConn → TcpEvent → Prop} {c : TcpConn} {es : List TcpEvent} (h : RunAll Q c es) :
    RunAll (fun c e => Q c e ∧ e ∈ es) c es := by
  have hall : ∀ (ds : List TcpEvent) (c : TcpConn), ds ⊆ es → RunAll Q c ds →
      RunAll (fun c e => Q c e ∧ e ∈ es) c ds := by
    intro ds
    induction ds with
    | nil => exact fun _ _ _ => trivial
    | cons d ds ih => exact fun c hds h => ⟨⟨h.1, hds List.mem_cons_self⟩, ih _ (List.subset_of_cons_subset hds) h.2⟩
  exact hall es c (List.Subset.refl es) h

theorem run_rule {Q : TcpConn → TcpEvent → Prop} {I : TcpConn → Prop} (hstep : ∀ c e, I c → Q c e → I (c.step e))
    {c : TcpConn} {es : List TcpEvent} (hc : I c) (hQ : RunAll Q c es) : I (c.run es) := by
  induction es generalizing c with
  | nil => exact hc
  | cons e es ih => exact ih (hstep c e hc hQ.1) hQ.2

end TcpConn

end CrumbleCracker.Netstack
