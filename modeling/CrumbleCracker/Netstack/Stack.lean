import CrumbleCracker.Lib.Prog
import CrumbleCracker.Lib.Turns
import CrumbleCracker.Netstack.Headers

/-!
# The network stack

`NetStack` with the frames of the guest (`DeliverGuestPacket`): source validation, ARP, IPv4, ICMP, UDP and TCP up to
the connection that gets a segment, the proxies that open host sockets, and the embedded DNS server. A connection is
modelled here through its handshake; what an established one does with its segments is `TcpConn`, and here only whether
it is gone afterwards, which the event says.
-/

namespace CrumbleCracker.Netstack.Frames

open Checked Prog

/-! ## State -/

/-- The settings of the stack, with a network interface attached. -/
structure StackConfig where
  /-- nil when no address is configured. -/
  guestMAC : Option Bytes
  hostMAC : Bytes
  hostIPv4 : Bytes
  guestIPv4 : Bytes
  serviceIPv4 : Bytes
  hostDNSName : Bytes
  serviceProxyEnabled : Bool
  hostAccessEnabled : Bool
  allowInternet : Bool
  validateChecksums : Bool
  serviceProxyPorts : List UInt16
  tcpListen : List UInt16
  udpSockets : List UInt16
  /-- The DNS server has port 53. -/
  dnsServer : Bool

structure FourTuple where
  srcIP : Bytes
  dstIP : Bytes
  srcPort : UInt16
  dstPort : UInt16
deriving DecidableEq

inductive ConnState where
  | synRcvd
  | synSent
  | established
  | closed
deriving DecidableEq

/-- What a connection is for: a listener, a proxy by `onEstablished`, or a dial of the host. -/
inductive ConnRole where
  | listener
  | service
  | outbound
  | dialed
deriving DecidableEq

/-- `tcpConn`, as far as the handshake goes. -/
structure GuestConn where
  role : ConnRole
  localIPv4 : Bytes
  state : ConnState
  closed : Bool := false
  guestSeq : UInt32
  hostSeq : UInt32
  opts : TcpOptions := {}
deriving DecidableEq

structure UdpProxyKey where
  srcIP : Bytes
  srcPort : UInt16
  dstPort : UInt16
deriving DecidableEq

/-- A socket of the host that the stack opens, or a name it asks the host's resolver for. -/
inductive HostSocket where
  | tcp (ip : Bytes) (port : UInt16)
  | udp (ip : Bytes) (port : UInt16)
  | lookup (qtype : UInt16) (name : Bytes)
deriving DecidableEq

structure NetStack where
  observedGuestMAC : Option Bytes := none
  sourceViolations : SourceViolation → Nat := fun _ => 0
  tcpConns : List (FourTuple × GuestConn) := []
  udpServiceProxies : List UdpProxyKey := []
  /-- Datagrams with a bound port, as their sockets get them. -/
  received : List (UInt16 × Bytes) := []
  /-- Datagrams that wait for the DNS server. -/
  dnsQueue : List Bytes := []
  udpRxPackets : Nat := 0
  /-- Connections whose `onEstablished` runs and has not dialed yet. -/
  dialing : List (FourTuple × ConnRole) := []
  /-- Frames to the guest, apart from those of established connections. -/
  sent : List Bytes := []
  /-- Ghost: the host sockets opened. -/
  sockets : List HostSocket := []
  /-- Ghost: the datagrams the DNS server has taken, with the names in the resolver's answer to each question. -/
  answered : List (Bytes × (Nat → List Bytes)) := []

abbrev NetProg (α : Type) := Prog NetStack NetFault α

/-- What a frame meets outside the stack. -/
structure FrameChoice where
  /-- The backend takes the frames sent. -/
  sendOK : Bool := true
  initialSeq : UInt32 := 0
  /-- A UDP socket can be opened, and written to. -/
  dialOK : Bool := true
  writeOK : Bool := true
  /-- The established connection that gets the segment is closed by it. -/
  closes : Bool := false

def change (f : NetStack → NetStack) : NetProg Unit := update fun s => ((), f s)

def parsed {α : Type} (x : Parse α) : NetProg α := fun s => (x, s)

/-! ## Frames to the guest -/

def bytesBE (k n : Nat) : Bytes := (bytesLE k n).reverse

def loopback : Bytes := [127, 0, 0, 1]

def isBroadcast (addr : Bytes) : Bool := addr.all (· = 0xff)

section Stack

variable (cfg : StackConfig) (ch : FrameChoice) (turns : Nat)

def sendFrame (frame : Bytes) : NetProg Unit := do
  change fun s => { s with sent := s.sent ++ [frame] }
  require (ch.sendOK = true) .host

def guestMACForTransmit (s : NetStack) : Option Bytes := s.observedGuestMAC.or cfg.guestMAC

/-- `buildIPv4HeaderInto`. -/
def ipv4Header (src dst : Bytes) (protocol : UInt8) (payloadLen : Nat) : Bytes :=
  let head := [0x45, 0] ++ bytesBE 2 (ipv4HeaderLen + payloadLen) ++ [0, 0, 0, 0, 64, protocol]
  head ++ bytesBE 2 (checksumWithInitial (head ++ [0, 0] ++ src ++ dst) 0).toNat ++ src ++ dst

/-- `buildEthernetHeaderInto`. -/
def ethernetHeader (dst src : Bytes) (etherType : UInt16) : Bytes := dst ++ src ++ bytesBE 2 etherType.toNat

/-- The options padded to a multiple of four bytes. -/
def padOptions (options : Bytes) : Bytes := options ++ List.replicate ((4 - options.length % 4) % 4) 0

/-- The `[4]byte` that an address is copied to. -/
def array4 (ip : Bytes) : Bytes := (ip ++ [0, 0, 0, 0]).take 4

def sendTCPPacketWithOptions (localIPv4 : Bytes) (key : FourTuple) (seq ack : UInt32) (flags : UInt8)
    (payload options : Bytes) : NetProg Unit := do
  let srcIP := array4 localIPv4
  let dstIP := array4 key.srcIP
  let options := padOptions options
  let headerLen := tcpHeaderLen + options.length
  let head := bytesBE 2 key.dstPort.toNat ++ bytesBE 2 key.srcPort.toNat ++ bytesBE 4 seq.toNat ++
    bytesBE 4 ack.toNat ++ [UInt8.ofNat (headerLen / 4) <<< 4, flags, 0xff, 0xff]
  let rest := [0, 0] ++ options ++ payload
  let check ← parsed (transportChecksum tcpProtocolNumber srcIP dstIP (head ++ [0, 0] ++ rest))
  let packet := head ++ bytesBE 2 check.toNat ++ rest
  let dstMAC ← read (guestMACForTransmit cfg)
  match dstMAC with
  | none => .fail (.guestMACUnknown "tcp")
  | some mac => sendFrame ch (ethernetHeader mac cfg.hostMAC etherTypeIPv4 ++
      ipv4Header srcIP dstIP tcpProtocolNumber packet.length ++ packet)

def buildSynAckOptions (mss : UInt16) (wndScale : UInt8) (peerHasWndScale : Bool) : Bytes :=
  if peerHasWndScale then [tcpOptMSS, 4] ++ bytesBE 2 mss.toNat ++ [tcpOptNOP, tcpOptWndScale, 3, wndScale]
  else [tcpOptMSS, 4] ++ bytesBE 2 mss.toNat

def defaultMSS : UInt16 := 1460

def handleCustom (srcMAC payload : Bytes) : NetProg Unit :=
  sendFrame ch (ethernetHeader srcMAC cfg.hostMAC etherTypeCustom ++ payload)

/-! ## ARP and ICMP -/

def serviceARPEnabled : Bool := cfg.hostAccessEnabled || cfg.serviceProxyPorts ≠ []

/-- `handleARP`, with `sendARPReply`. -/
def handleARP (srcMAC payload : Bytes) : NetProg Unit :=
  if payload.length < 28 then .fail (.arpTooShort payload.length)
  else do
    let hwType ← parsed (uint16At payload 0)
    let protoType ← parsed (uint16At payload 2)
    let hwSize ← parsed (byteOf payload 4)
    let protoSize ← parsed (byteOf payload 5)
    let op ← parsed (uint16At payload 6)
    if hwType ≠ arpHardwareEthernet ∨ protoType ≠ arpProtoIPv4 ∨ hwSize ≠ 6 ∨ protoSize ≠ 4 then pure ()
    else
      let senderMAC ← parsed (sliceOf payload 8 14)
      let senderIP ← parsed (sliceOf payload 14 18)
      let targetIP ← parsed (sliceOf payload 24 28)
      if op ≠ 1 then pure ()
      else if targetIP = cfg.hostIPv4 ∨ (serviceARPEnabled cfg = true ∧ targetIP = cfg.serviceIPv4) then
        sendFrame ch (ethernetHeader srcMAC cfg.hostMAC etherTypeARP ++ bytesBE 2 arpHardwareEthernet.toNat ++
          bytesBE 2 arpProtoIPv4.toNat ++ [6, 4] ++ bytesBE 2 2 ++ cfg.hostMAC ++ targetIP ++ senderMAC ++ senderIP)
      else pure ()

def sendICMPEchoReply (src dst request : Bytes) : NetProg Unit := do
  let code ← parsed (byteOf request 1)
  let rest ← parsed (sliceOf request 4 request.length)
  let check := checksumWithInitial ([0, code, 0, 0] ++ rest) 0
  let reply := [0, code] ++ bytesBE 2 check.toNat ++ rest
  let dstMAC ← read (guestMACForTransmit cfg)
  match dstMAC with
  | none => .fail (.guestMACUnknown "icmp")
  | some mac => sendFrame ch (ethernetHeader mac cfg.hostMAC etherTypeIPv4 ++
      ipv4Header src dst icmpProtocol reply.length ++ reply)

def icmpChecksumOK (payload : Bytes) : Parse Bool :=
  if cfg.validateChecksums then do
    let received ← uint16At payload 2
    let before ← sliceOf payload 0 2
    let after ← sliceOf payload 4 payload.length
    pure (received = checksumWithInitial (before ++ [0, 0] ++ after) 0)
  else pure true

def handleICMP (h : IPv4Header) : NetProg Unit :=
  if h.payload.length < 8 then pure ()
  else do
    let typ ← parsed (byteOf h.payload 0)
    if typ ≠ 8 then pure ()
    else
      let ok ← parsed (icmpChecksumOK cfg h.payload)
      if ok then sendICMPEchoReply cfg ch h.dst h.src h.payload else pure ()

/-! ## UDP -/

def shouldProxyService (ip : Bytes) : Bool := ip = cfg.serviceIPv4

def serviceProxyAllowed (ip : Bytes) (port : UInt16) : Bool :=
  shouldProxyService cfg ip && (cfg.hostAccessEnabled || port ∈ cfg.serviceProxyPorts)

/-- `getUDPServiceProxy`: a socket to the loopback address is opened for a key that has none. -/
def getUDPServiceProxy (key : UdpProxyKey) : NetProg Unit := do
  let known ← read fun s => decide (key ∈ s.udpServiceProxies)
  if known then pure ()
  else do
    require (ch.dialOK = true) .host
    change fun s => { s with
      udpServiceProxies := s.udpServiceProxies ++ [key], sockets := s.sockets ++ [.udp loopback key.dstPort] }

def proxyServiceUDP (srcIP : Bytes) (u : UdpPacket) : NetProg Unit := do
  getUDPServiceProxy ch { srcIP, srcPort := u.srcPort, dstPort := u.dstPort }
  require (ch.writeOK = true) .host
  change fun s => { s with udpRxPackets := s.udpRxPackets + 1 }

/-- The checksum of a datagram is right, or there is none, or it is not checked. -/
def udpChecksumOK (h : IPv4Header) (u : UdpPacket) : Parse Bool :=
  if cfg.validateChecksums ∧ u.checksum ≠ 0 then do
    let data ← sliceOf h.payload 0 u.length.toNat
    let computed ← transportChecksum udpProtocolNumber h.src h.dst data
    pure (computed = 0)
  else pure true

def dnsPort : UInt16 := 53

/-- `handleUDPWithReuse`. -/
def handleUDP (h : IPv4Header) : NetProg Unit := do
  let u ← parsed (parseUDP h.payload)
  let ok ← parsed (udpChecksumOK cfg h u)
  if !ok then pure ()
  else if shouldProxyService cfg h.dst then
    if !cfg.serviceProxyEnabled || !serviceProxyAllowed cfg h.dst u.dstPort then pure ()
    else proxyServiceUDP ch h.src u
  else if cfg.dnsServer && u.dstPort = dnsPort then
    change fun s => { s with dnsQueue := s.dnsQueue ++ [u.data], udpRxPackets := s.udpRxPackets + 1 }
  else if u.dstPort ∈ cfg.udpSockets then
    change fun s => { s with received := s.received ++ [(u.dstPort, u.data)], udpRxPackets := s.udpRxPackets + 1 }
  else pure ()

/-! ## TCP -/

def isHostLocalIPv4 (ip : Bytes) : Bool := match ip with
  | [a, b, _, _] => a = 0 || a = 10 || (a = 100 && b &&& 0xc0 = 0x40) || a = 127 || (a = 169 && b = 254) ||
      (a = 172 && b &&& 0xf0 = 16) || (a = 192 && b = 168) || 224 ≤ a
  | _ => false

/-- What becomes of a SYN: a connection with an address of its own, or a reset. -/
inductive Admission where
  | conn (role : ConnRole) (localIPv4 : Bytes)
  | reset
deriving DecidableEq

/-- The decisions of `handleTCP` on a SYN that has no connection. -/
def synAdmission (dstIP : Bytes) (dstPort : UInt16) : Admission :=
  let allowServiceProxy := serviceProxyAllowed cfg dstIP dstPort
  if dstPort ∈ cfg.tcpListen then .conn .listener cfg.hostIPv4
  else if !cfg.hostAccessEnabled && isHostLocalIPv4 dstIP && !allowServiceProxy then .reset
  else if shouldProxyService cfg dstIP then
    if !cfg.serviceProxyEnabled || (!cfg.hostAccessEnabled && !allowServiceProxy) then .reset
    else .conn .service cfg.serviceIPv4
  else if !cfg.allowInternet && dstIP ≠ cfg.hostIPv4 then .reset
  else if dstIP ≠ cfg.hostIPv4 ∧ dstIP ≠ cfg.serviceIPv4 then .conn .outbound dstIP
  else .reset

def sendRST (h : IPv4Header) (hdr : TcpHeader) : NetProg Unit :=
  sendTCPPacketWithOptions cfg ch h.dst
    { srcIP := h.src, dstIP := h.dst, srcPort := hdr.srcPort, dstPort := hdr.dstPort } hdr.ack (hdr.seq + 1)
    (tcpFlagRST ||| tcpFlagACK) [] []

/-- A send whose error is ignored. A panic is none. -/
def ignoreError (x : NetProg Unit) : NetProg Unit := fun s =>
  match x s with
  | (.error e, s) => (if e = .panics ∨ e = .unfinished then .error e else .ok (), s)
  | (.ok (), s) => (.ok (), s)

def setConn (key : FourTuple) (c : GuestConn) : NetProg Unit :=
  change fun s => { s with tcpConns := (key, c) :: s.tcpConns.filter fun e => e.1 ≠ key }

def removeConn (key : FourTuple) : NetProg Unit :=
  change fun s => { s with tcpConns := s.tcpConns.filter fun e => e.1 ≠ key }

/-- A SYN without a connection, its options read. -/
def openConn (h : IPv4Header) (hdr : TcpHeader) (key : FourTuple) (opts : TcpOptions) : NetProg Unit :=
  match synAdmission cfg h.dst hdr.dstPort with
  | .reset => sendRST cfg ch h hdr
  | .conn role localIPv4 => do
    setConn key {
      role, localIPv4, state := .synRcvd, guestSeq := hdr.seq + 1, hostSeq := ch.initialSeq + 1, opts }
    ignoreError
      (sendTCPPacketWithOptions cfg ch localIPv4 key ch.initialSeq (hdr.seq + 1) (tcpFlagSYN ||| tcpFlagACK) []
        (buildSynAckOptions defaultMSS (if opts.hasWndScale then 7 else 0) opts.hasWndScale))

/-- The host's sequence number after the acknowledgement of a segment. -/
def GuestConn.resynced (c : GuestConn) (hdr : TcpHeader) : UInt32 :=
  if hdr.has tcpFlagACK ∧ c.hostSeq < hdr.ack then hdr.ack else c.hostSeq

/-- The goroutine of `onEstablished` starts. -/
def established (key : FourTuple) (role : ConnRole) : NetProg Unit := change fun s => match role with
  | .service | .outbound => { s with dialing := s.dialing ++ [(key, role)] }
  | .listener | .dialed => s

/-- `handleSegment`. An established connection stays or goes as the event says. -/
def handleSegment (hdr : TcpHeader) (key : FourTuple) (c : GuestConn) : NetProg Unit :=
  if c.closed then pure ()
  else
    let c := { c with hostSeq := c.resynced hdr }
    match c.state with
    | .synSent =>
      if hdr.has tcpFlagRST then removeConn key
      else if hdr.has tcpFlagSYN ∧ hdr.has tcpFlagACK ∧ hdr.ack = c.hostSeq then do
        let opts ← parsed (parseTCPOptions turns hdr.options)
        setConn key { c with opts, guestSeq := hdr.seq + 1, state := .established }
        ignoreError (sendTCPPacketWithOptions cfg ch c.localIPv4 key c.hostSeq (hdr.seq + 1) tcpFlagACK [] [])
      else setConn key c
    | .synRcvd =>
      if hdr.has tcpFlagACK ∧ hdr.ack = c.hostSeq then do
        setConn key { c with state := .established }
        established key c.role
        if ch.closes then removeConn key else pure ()
      else setConn key c
    | .established => if ch.closes then removeConn key else setConn key c
    | .closed => setConn key c

def tcpChecksumOK (h : IPv4Header) : Parse Bool :=
  if cfg.validateChecksums then do
    let computed ← transportChecksum tcpProtocolNumber h.src h.dst h.payload
    pure (computed = 0)
  else pure true

def TcpHeader.key (hdr : TcpHeader) (h : IPv4Header) : FourTuple :=
  { srcIP := h.src, dstIP := h.dst, srcPort := hdr.srcPort, dstPort := hdr.dstPort }

def handleTCP (h : IPv4Header) : NetProg Unit := do
  let ok ← parsed (tcpChecksumOK cfg h)
  if !ok then pure ()
  else
    let hdr ← parsed (parseTCPHeader h.payload)
    let found ← read fun s => s.tcpConns.lookup (hdr.key h)
    match found with
    | some c => handleSegment cfg ch turns hdr (hdr.key h) c
    | none =>
      if !hdr.has tcpFlagSYN then pure ()
      else
        let opts ← parsed (parseTCPOptions turns hdr.options)
        openConn cfg ch h hdr (hdr.key h) opts

/-! ## Frames of the guest -/

def ipv4ChecksumOK (h : IPv4Header) (payload : Bytes) : Parse Bool :=
  if cfg.validateChecksums ∧ h.ihl.toNat * 4 ≤ payload.length then do
    let header ← sliceOf payload 0 (h.ihl.toNat * 4)
    pure (checksumWithInitial header 0 = 0)
  else pure true

/-- `handleIPv4Internal`. -/
def handleIPv4 (payload : Bytes) : NetProg Unit := do
  let h ← parsed (parseIPv4Header payload)
  let ok ← parsed (ipv4ChecksumOK cfg h payload)
  if !ok then pure ()
  else if h.protocol = udpProtocolNumber then handleUDP cfg ch h
  else if h.protocol = tcpProtocolNumber then handleTCP cfg ch turns h
  else if h.protocol = icmpProtocol then handleICMP cfg ch h
  else pure ()

def recordSourceViolation (v : SourceViolation) : NetProg Unit :=
  change fun s => { s with sourceViolations := Function.update s.sourceViolations v (s.sourceViolations v + 1) }

def recordGuestMAC (mac : Bytes) : NetProg Unit :=
  change fun s => if isBroadcast mac ∨ mac = cfg.hostMAC then s else { s with observedGuestMAC := some mac }

/-- The frame is for the host, the guest itself or everyone. -/
def acceptsL2 (dst : Bytes) : Bool := isBroadcast dst || dst = cfg.hostMAC || some dst = cfg.guestMAC

/-- `handleEthernetFrameWithReuse`. -/
def handleEthernetFrame (frame : Bytes) : NetProg Unit := do
  let dst ← parsed (sliceOf frame 0 6)
  let src ← parsed (sliceOf frame 6 12)
  let etherType ← parsed (uint16At frame 12)
  let payload ← parsed (sliceOf frame ethernetHeaderLen frame.length)
  let violation ← parsed (validateGuestSource frame cfg.guestMAC cfg.guestIPv4)
  if violation ≠ .valid then
    if violation ≠ .unsupportedProtocol then recordSourceViolation violation else pure ()
  else do
    recordGuestMAC cfg src
    if !acceptsL2 cfg dst then pure ()
    else if etherType = etherTypeARP then handleARP cfg ch src payload
    else if etherType = etherTypeIPv4 then handleIPv4 cfg ch turns payload
    else if etherType = etherTypeCustom then handleCustom cfg ch src payload
    else pure ()

def deliverGuestPacket (packet : Bytes) : NetProg Unit :=
  if packet.length < ethernetHeaderLen then .fail (.packetTooShort packet.length)
    else handleEthernetFrame cfg ch turns packet

end Stack

end CrumbleCracker.Netstack.Frames
