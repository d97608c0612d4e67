import CrumbleCracker.Lib.Checked

/-!
# Frames of the guest

The headers that the network stack reads from a frame of the guest, with every index and range checked as Go checks it.
-/

namespace CrumbleCracker.Netstack.Frames

open Checked

/-! ## Faults -/

/-- How the handling of a frame ends when it does not end with nil. -/
inductive NetFault where
  | packetTooShort (n : Nat)
  | arpTooShort (n : Nat)
  | ipv4TooShort (n : Nat)
  | ipv4Version (version : Nat)
  | ipv4LengthMismatch (headerLen : Nat)
  | udpTooShort (n : Nat)
  | udpLengthShort (length : Nat)
  | udpLengthExceeds (length n : Nat)
  | tcpTooShort (n : Nat)
  | tcpLengthMismatch (hdrLen : Nat)
  | guestMACUnknown (transmit : String)
  /-- The error of the backend, of a dial or of a write to a host socket. -/
  | host
  | panics
  /-- A loop has not ended after the turns it was given. -/
  | unfinished
deriving DecidableEq

def NetFault.IsError (e : NetFault) : Prop := e ≠ .panics ∧ e ≠ .unfinished

abbrev Parse (α : Type) := Except NetFault α

def byteOf (b : Bytes) (i : Nat) : Parse UInt8 := index .panics b i

def sliceOf (b : Bytes) (lo hi : Nat) : Parse Bytes := slice .panics b lo hi

/-- `binary.BigEndian.Uint16(b[lo:lo+2])`. -/
def uint16At (b : Bytes) (lo : Nat) : Parse UInt16 := do
  let x ← sliceOf b lo (lo + 2)
  pure (UInt16.ofNat (natBE x))

/-- `binary.BigEndian.Uint32(b[lo:lo+4])`. -/
def uint32At (b : Bytes) (lo : Nat) : Parse UInt32 := do
  let x ← sliceOf b lo (lo + 4)
  pure (UInt32.ofNat (natBE x))

variable {b : Bytes}

theorem byteOf_eq {i : Nat} (h : i < b.length) : byteOf b i = .ok (b.get ⟨i, h⟩) := index_eq _ h

/-- The parse ends with a value that has `Q` or with a Go error. -/
def Safe {α : Type} (x : Parse α) (Q : α → Prop) : Prop := Yields x Q NetFault.IsError

theorem safe_byteOf {i : Nat} (h : i < b.length) : Safe (byteOf b i) fun _ => True := yields_index _ h

variable {lo : Nat}

theorem safe_sliceOf {hi : Nat} (hle : lo ≤ hi) (h : hi ≤ b.length) :
    Safe (sliceOf b lo hi) fun x => x.length = hi - lo := yields_slice _ hle h

theorem yields_uint16At {E : NetFault → Prop} (h : lo + 2 ≤ b.length) :
    Yields (uint16At b lo) (fun _ => True) E := (yields_slice _ (by omega) h).bind fun _ _ => trivial

theorem safe_uint16At (h : lo + 2 ≤ b.length) : Safe (uint16At b lo) fun _ => True := yields_uint16At h

theorem safe_uint32At (h : lo + 4 ≤ b.length) : Safe (uint32At b lo) fun _ => True :=
  (safe_sliceOf (by omega) h).bind fun _ _ => trivial

/-! ## Sources -/

def ethernetHeaderLen : Nat := 14
def ipv4HeaderLen : Nat := 20
def udpHeaderLen : Nat := 8
def tcpHeaderLen : Nat := 20

def etherTypeIPv4 : UInt16 := 0x0800
def etherTypeIPv6 : UInt16 := 0x86dd
def etherTypeARP : UInt16 := 0x0806
def etherTypeCustom : UInt16 := 0x1234

def icmpProtocol : UInt8 := 1
def tcpProtocolNumber : UInt8 := 6
def udpProtocolNumber : UInt8 := 17

def arpHardwareEthernet : UInt16 := 1
def arpProtoIPv4 : UInt16 := 0x0800

def ipv4Zero : Bytes := [0, 0, 0, 0]

inductive SourceViolation where
  | valid
  | malformed
  | mac
  | arp
  | ipv4
  | unsupportedProtocol
deriving DecidableEq

def validateARPSource (packet expectedMAC expectedIPv4 : Bytes) : Parse SourceViolation :=
  if packet.length < 28 then pure .malformed
  else do
    let hwType ← uint16At packet 0
    let protoType ← uint16At packet 2
    let hwSize ← byteOf packet 4
    let protoSize ← byteOf packet 5
    if hwType ≠ arpHardwareEthernet ∨ protoType ≠ arpProtoIPv4 ∨ hwSize ≠ 6 ∨ protoSize ≠ 4 then pure .malformed
    else
      let senderMAC ← sliceOf packet 8 14
      if senderMAC ≠ expectedMAC then pure .arp
      else
        let senderIP ← sliceOf packet 14 18
        if senderIP = expectedIPv4 then pure .valid
        else
          let targetIP ← sliceOf packet 24 28
          -- an address probe
          if senderIP = ipv4Zero ∧ targetIP = expectedIPv4 then pure .valid else pure .arp

def validateIPv4Source (packet expectedIPv4 : Bytes) : Parse SourceViolation :=
  if packet.length < ipv4HeaderLen then pure .malformed
  else do
    let verIHL ← byteOf packet 0
    if verIHL >>> 4 ≠ 4 then pure .malformed
    else
      let headerLen := (verIHL &&& 0x0f).toNat * 4
      if headerLen < ipv4HeaderLen ∨ packet.length < headerLen then pure .malformed
      else
        let sourceIP ← sliceOf packet 12 16
        if sourceIP = expectedIPv4 then pure .valid
        else
          let protocol ← byteOf packet 9
          if sourceIP ≠ ipv4Zero ∨ protocol ≠ udpProtocolNumber ∨
            packet.length < headerLen + udpHeaderLen then pure .ipv4
          else
            let udp ← sliceOf packet headerLen packet.length
            let srcPort ← uint16At udp 0
            let dstPort ← uint16At udp 2
            -- DHCP discovery
            if srcPort = 68 ∧ dstPort = 67 then pure .valid else pure .ipv4

/-- `ValidateGuestSource`; the expected MAC is nil when none is configured. -/
def validateGuestSource (frame : Bytes) (expectedMAC : Option Bytes) (expectedIPv4 : Bytes) : Parse SourceViolation :=
  match expectedMAC with
  | none => pure .malformed
  | some mac =>
    if frame.length < ethernetHeaderLen then pure .malformed
    else do
      let source ← sliceOf frame 6 12
      if source ≠ mac then pure .mac
      else
        let etherType ← uint16At frame 12
        let packet ← sliceOf frame ethernetHeaderLen frame.length
        if etherType = etherTypeARP then validateARPSource packet mac expectedIPv4
        else if etherType = etherTypeIPv4 then validateIPv4Source packet expectedIPv4
        else if etherType = etherTypeIPv6 then pure .unsupportedProtocol
        else pure .valid

theorem validateARPSource_safe (packet mac ip : Bytes) : Safe (validateARPSource packet mac ip) fun _ => True := by
  refine yields_ite (fun _ => trivial) fun hlen => ?_
  refine (safe_uint16At (by omega)).bind fun _ _ => (safe_uint16At (by omega)).bind fun _ _ => ?_
  refine (safe_byteOf (by omega)).bind fun _ _ => (safe_byteOf (by omega)).bind fun _ _ => ?_
  refine yields_ite (fun _ => trivial) fun _ => (safe_sliceOf (by omega) (by omega)).bind fun _ _ => ?_
  refine yields_ite (fun _ => trivial) fun _ => (safe_sliceOf (by omega) (by omega)).bind fun _ _ => ?_
  refine yields_ite (fun _ => trivial) fun _ => (safe_sliceOf (by omega) (by omega)).bind fun _ _ => ?_
  exact yields_ite (fun _ => trivial) fun _ => trivial

theorem validateIPv4Source_safe (packet ip : Bytes) :
    Safe (validateIPv4Source packet ip) fun v => v = .valid → ipv4HeaderLen ≤ packet.length := by
  refine yields_ite (fun _ => nofun) fun hlen => ?_
  unfold ipv4HeaderLen at hlen
  refine (safe_byteOf (by omega)).bind fun verIHL _ => yields_ite (fun _ => nofun) fun _ => ?_
  refine yields_ite (fun _ => nofun) fun hheader => (safe_sliceOf (by omega) (by omega)).bind fun _ _ => ?_
  refine yields_ite (fun _ _ => by unfold ipv4HeaderLen; omega) fun _ => (safe_byteOf (by omega)).bind fun _ _ => ?_
  refine yields_ite (fun _ => nofun) fun hudp => ?_
  unfold udpHeaderLen at hudp
  refine (safe_sliceOf (by omega) (by omega)).bind fun udp hlength => ?_
  refine (safe_uint16At (by omega)).bind fun _ _ => (safe_uint16At (by omega)).bind fun _ _ => ?_
  exact yields_ite (fun _ _ => by unfold ipv4HeaderLen; omega) fun _ => nofun

theorem validateGuestSource_safe (frame : Bytes) (mac : Option Bytes) (ip : Bytes) :
    Safe (validateGuestSource frame mac ip) fun _ => True := by
  unfold validateGuestSource
  rcases mac with - | mac
  · trivial
  refine yields_ite (fun _ => trivial) fun hlen => ?_
  unfold ethernetHeaderLen at hlen
  refine (safe_sliceOf (by omega) (by omega)).bind fun _ _ => yields_ite (fun _ => trivial) fun _ => ?_
  refine (safe_uint16At (by omega)).bind fun etherType _ => ?_
  refine (safe_sliceOf (by unfold ethernetHeaderLen; omega) (Nat.le_refl _)).bind fun packet _ => ?_
  refine yields_ite (fun _ => validateARPSource_safe packet mac ip) fun _ => ?_
  refine yields_ite (fun _ => (validateIPv4Source_safe packet ip).mono (fun _ _ => trivial) fun _ h => h) fun _ => ?_
  exact yields_ite (fun _ => trivial) fun _ => trivial

/-! ## Checksums -/

def foldCarries (sum : UInt32) : UInt32 :=
  if h : sum.toNat < 2 ^ 16 then sum else foldCarries ((sum >>> 16) + (sum &&& 0xffff))
termination_by sum.toNat
decreasing_by
  have hlt := sum.toNat_lt
  have hand : (sum &&& 0xffff).toNat = sum.toNat % 2 ^ 16 := by
    rw [UInt32.toNat_and]
    exact Nat.and_two_pow_sub_one_eq_mod sum.toNat 16
  have hshift : (sum >>> 16).toNat = sum.toNat / 2 ^ 16 := by
    rw [UInt32.toNat_shiftRight]
    exact Nat.shiftRight_eq_div_pow _ _
  rw [UInt32.toNat_add, hand, hshift]
  clear hand hshift
  generalize sum.toNat = n at h hlt ⊢
  rw [Nat.mod_eq_of_lt (by omega)]
  omega

/-- The sum of the 16-bit words; an odd byte at the end is the high byte of a last one. -/
def sumWords (sum : UInt32) : Bytes → UInt32
  | a :: b :: rest => sumWords (sum + UInt32.ofNat (a.toNat * 256 + b.toNat)) rest
  | [a] => sum + (a.toUInt32 <<< 8)
  | [] => sum

/-- `checksumWithInitial`; `checksum` and `ipv4Checksum` are the same with 0. -/
def checksumWithInitial (data : Bytes) (initial : UInt32) : UInt16 := ~~~(foldCarries (sumWords initial data)).toUInt16

def pseudoHeaderChecksum (src dst : Bytes) (protocol : UInt8) (length : Nat) : Parse UInt32 := do
  let src0 ← uint16At src 0
  let src2 ← uint16At src 2
  let dst0 ← uint16At dst 0
  let dst2 ← uint16At dst 2
  pure (src0.toUInt32 + src2.toUInt32 + dst0.toUInt32 + dst2.toUInt32 + protocol.toUInt32 + UInt32.ofNat length)

def transportChecksum (protocol : UInt8) (src dst payload : Bytes) : Parse UInt16 := do
  let initial ← pseudoHeaderChecksum src dst protocol payload.length
  pure (checksumWithInitial payload initial)

theorem transportChecksum_safe (protocol : UInt8) {src dst : Bytes} (payload : Bytes) (hsrc : src.length = 4)
    (hdst : dst.length = 4) : Safe (transportChecksum protocol src dst payload) fun _ => True := by
  refine Yields.bind (Q := fun _ => True) ?_ fun _ _ => trivial
  refine (safe_uint16At (by omega)).bind fun _ _ => (safe_uint16At (by omega)).bind fun _ _ => ?_
  exact (safe_uint16At (by omega)).bind fun _ _ => (safe_uint16At (by omega)).bind fun _ _ => trivial

/-! ## IPv4 and UDP -/

/-- `ipv4Header`, as far as the stack reads it. -/
structure IPv4Header where
  ihl : UInt8
  protocol : UInt8
  src : Bytes
  dst : Bytes
  payload : Bytes
deriving DecidableEq

def parseIPv4Header (data : Bytes) : Parse IPv4Header :=
  if data.length < ipv4HeaderLen then .error (.ipv4TooShort data.length)
  else do
    let verIHL ← byteOf data 0
    if verIHL >>> 4 ≠ 4 then .error (.ipv4Version (verIHL >>> 4).toNat)
    else
      let headerLen := (verIHL &&& 0x0f).toNat * 4
      if data.length < headerLen then .error (.ipv4LengthMismatch headerLen)
      else
        let protocol ← byteOf data 9
        let src ← sliceOf data 12 16
        let dst ← sliceOf data 16 20
        let payload ← sliceOf data headerLen data.length
        pure { ihl := verIHL &&& 0x0f, protocol, src, dst, payload }

theorem parseIPv4Header_safe (data : Bytes) : Safe (parseIPv4Header data) fun h =>
      h.src.length = 4 ∧ h.dst.length = 4 ∧ h.ihl.toNat * 4 ≤ data.length ∧ h.payload.length ≤ data.length := by
  refine yields_ite (fun _ => ⟨nofun, nofun⟩) fun hlen => ?_
  unfold ipv4HeaderLen at hlen
  refine (safe_byteOf (by omega)).bind fun verIHL _ => ?_
  refine yields_ite (fun _ => ⟨nofun, nofun⟩) fun _ => yields_ite (fun _ => ⟨nofun, nofun⟩) fun hheader => ?_
  refine (safe_byteOf (by omega)).bind fun _ _ => (safe_sliceOf (by omega) (by omega)).bind fun src hsrc => ?_
  refine (safe_sliceOf (by omega) (by omega)).bind fun dst hdst => ?_
  refine (safe_sliceOf (by omega) (Nat.le_refl _)).bind fun payload hpayload => ?_
  exact ⟨hsrc, hdst, by dsimp only; omega, by dsimp only; omega⟩

structure UdpPacket where
  srcPort : UInt16
  dstPort : UInt16
  length : UInt16
  checksum : UInt16
  data : Bytes
deriving DecidableEq

/-- The head of `handleUDPWithReuse`. -/
def parseUDP (payload : Bytes) : Parse UdpPacket :=
  if payload.length < 8 then .error (.udpTooShort payload.length)
  else do
    let srcPort ← uint16At payload 0
    let dstPort ← uint16At payload 2
    let length ← uint16At payload 4
    if length.toNat < udpHeaderLen then .error (.udpLengthShort length.toNat)
    else if payload.length < length.toNat then .error (.udpLengthExceeds length.toNat payload.length)
    else
      let checksum ← uint16At payload 6
      let data ← sliceOf payload 8 length.toNat
      pure { srcPort, dstPort, length, checksum, data }

theorem parseUDP_safe (payload : Bytes) : Safe (parseUDP payload) fun u => u.length.toNat ≤ payload.length := by
  refine yields_ite (fun _ => ⟨nofun, nofun⟩) fun hlen => ?_
  refine (safe_uint16At (by omega)).bind fun _ _ => (safe_uint16At (by omega)).bind fun _ _ => ?_
  refine (safe_uint16At (by omega)).bind fun length _ => yields_ite (fun _ => ⟨nofun, nofun⟩) fun hshort => ?_
  refine yields_ite (fun _ => ⟨nofun, nofun⟩) fun hfits => ?_
  unfold udpHeaderLen at hshort
  refine (safe_uint16At (by omega)).bind fun _ _ => (safe_sliceOf (by omega) (by omega)).bind fun data _ => ?_
  show length.toNat ≤ payload.length
  omega

/-! ## TCP -/

structure TcpHeader where
  srcPort : UInt16
  dstPort : UInt16
  seq : UInt32
  ack : UInt32
  flags : UInt8
  window : UInt16
  options : Bytes
  payload : Bytes
deriving DecidableEq

def tcpFlagSYN : UInt8 := 0x02
def tcpFlagRST : UInt8 := 0x04
def tcpFlagACK : UInt8 := 0x10

def TcpHeader.has (h : TcpHeader) (flag : UInt8) : Bool := h.flags &&& flag ≠ 0

/-- The options between the fixed header and the payload. -/
def tcpOptionBytes (data : Bytes) (hdrLen : Nat) : Parse Bytes :=
  if tcpHeaderLen < hdrLen then sliceOf data tcpHeaderLen hdrLen else pure []

/-- `parseTCPHeader`. The length is computed in eight bits. -/
def parseTCPHeader (data : Bytes) : Parse TcpHeader :=
  if data.length < tcpHeaderLen then .error (.tcpTooShort data.length)
  else do
    let dataOff ← byteOf data 12
    let hdrLen := ((dataOff >>> 4) * 4).toNat
    if data.length < hdrLen then .error (.tcpLengthMismatch hdrLen)
    else
      let srcPort ← uint16At data 0
      let dstPort ← uint16At data 2
      let seq ← uint32At data 4
      let ack ← uint32At data 8
      let flags ← byteOf data 13
      let window ← uint16At data 14
      let payload ← sliceOf data hdrLen data.length
      let options ← tcpOptionBytes data hdrLen
      pure { srcPort, dstPort, seq, ack, flags, window, options, payload }

theorem parseTCPHeader_safe (data : Bytes) : Safe (parseTCPHeader data) fun h => h.options.length ≤ data.length := by
  refine yields_ite (fun _ => ⟨nofun, nofun⟩) fun hlen => ?_
  unfold tcpHeaderLen at hlen
  refine (safe_byteOf (by omega)).bind fun dataOff _ => yields_ite (fun _ => ⟨nofun, nofun⟩) fun hfits => ?_
  refine (safe_uint16At (by omega)).bind fun _ _ => (safe_uint16At (by omega)).bind fun _ _ => ?_
  refine (safe_uint32At (by omega)).bind fun _ _ => (safe_uint32At (by omega)).bind fun _ _ => ?_
  refine (safe_byteOf (by omega)).bind fun _ _ => (safe_uint16At (by omega)).bind fun _ _ => ?_
  refine (safe_sliceOf (by omega) (Nat.le_refl _)).bind fun _ _ => ?_
  have hoptions : Safe (tcpOptionBytes data ((dataOff >>> 4) * 4).toNat) fun o => o.length ≤ data.length := by
    refine yields_ite (fun hlong => ?_) fun _ => Nat.zero_le _
    refine (safe_sliceOf (Nat.le_of_lt hlong) (by omega)).mono (fun o ho => ?_) fun _ h => h
    rw [ho]
    omega
  exact hoptions.bind fun _ h => h

/-! ## TCP options -/

structure TcpOptions where
  mss : UInt16 := 0
  wndScale : UInt8 := 0
  hasMSS : Bool := false
  hasWndScale : Bool := false
deriving DecidableEq

def tcpOptEnd : UInt8 := 0
def tcpOptNOP : UInt8 := 1
def tcpOptMSS : UInt8 := 2
def tcpOptWndScale : UInt8 := 3

/-- The maximum segment size at `i`, if the option is whole. -/
def readMSS (options : Bytes) (i : Nat) (opts : TcpOptions) : Parse TcpOptions :=
  if i + 4 ≤ options.length then do
    let length ← byteOf options (i + 1)
    if length = 4 then
      let mss ← uint16At options (i + 2)
      pure { opts with mss, hasMSS := true }
    else pure opts
  else pure opts

/-- The window scale at `i`, if the option is whole. -/
def readWndScale (options : Bytes) (i : Nat) (opts : TcpOptions) : Parse TcpOptions :=
  if i + 3 ≤ options.length then do
    let length ← byteOf options (i + 1)
    if length = 3 then
      let wndScale ← byteOf options (i + 2)
      pure { opts with wndScale, hasWndScale := true }
    else pure opts
  else pure opts

/-- The loop of `parseTCPOptions` from `i` on, for so many turns. -/
def optionsLoop (options : Bytes) : Nat → Nat → TcpOptions → Parse TcpOptions
  | 0, _, _ => .error .unfinished
  | turns + 1, i, opts =>
    if i < options.length then do
      let kind ← byteOf options i
      if kind = tcpOptEnd then pure opts
      else if kind = tcpOptNOP then optionsLoop options turns (i + 1) opts
      else if kind = tcpOptMSS then do
        let opts ← readMSS options i opts
        if i + 1 < options.length then do
          let length ← byteOf options (i + 1)
          optionsLoop options turns (i + length.toNat) opts
        else pure opts
      else if kind = tcpOptWndScale then do
        let opts ← readWndScale options i opts
        if i + 1 < options.length then do
          let length ← byteOf options (i + 1)
          optionsLoop options turns (i + length.toNat) opts
        else pure opts
      else if options.length ≤ i + 1 then pure opts
      else do
        let length ← byteOf options (i + 1)
        if length.toNat < 2 then pure opts
        else optionsLoop options turns (i + length.toNat) opts
    else pure opts

def parseTCPOptions (turns : Nat) (options : Bytes) : Parse TcpOptions := optionsLoop options turns 0 {}

/-- The options, taken one after the other by their length bytes, come to a maximum segment size or a window scale whose
length byte is 0. -/
inductive Stuck : Bytes → Prop where
  | here (kind : UInt8) (rest : Bytes) : kind = tcpOptMSS ∨ kind = tcpOptWndScale → Stuck (kind :: 0 :: rest)
  | nop {rest : Bytes} : Stuck rest → Stuck (tcpOptNOP :: rest)
  | skip (kind length : UInt8) (rest : Bytes) : kind ≠ tcpOptEnd → kind ≠ tcpOptNOP → 0 < length.toNat →
    (kind = tcpOptMSS ∨ kind = tcpOptWndScale ∨ 2 ≤ length.toNat) →
    Stuck ((kind :: length :: rest).drop length.toNat) → Stuck (kind :: length :: rest)

variable (options : Bytes)

theorem readMSS_safe (i : Nat) (opts : TcpOptions) : ∃ opts', readMSS options i opts = .ok opts' := by
  refine Yields.ok (yields_ite (fun hlen => ?_) fun _ => trivial)
  refine (yields_index _ (by omega)).bind fun length _ => yields_ite (fun _ => ?_) fun _ => trivial
  exact (yields_uint16At (by omega)).bind fun _ _ => trivial

theorem readWndScale_safe (i : Nat) (opts : TcpOptions) : ∃ opts', readWndScale options i opts = .ok opts' := by
  refine Yields.ok (yields_ite (fun hlen => ?_) fun _ => trivial)
  refine (yields_index _ (by omega)).bind fun length _ => yields_ite (fun _ => ?_) fun _ => trivial
  exact (yields_index _ (by omega)).bind fun _ _ => trivial

theorem not_stuck_end (rest : Bytes) : ¬Stuck (tcpOptEnd :: rest) := by
  intro h
  cases h with
  | here _ _ hkind => exact absurd hkind (by decide)
  | skip _ _ _ hend => exact hend rfl

theorem not_stuck_singleton {kind : UInt8} (h : kind ≠ tcpOptNOP) : ¬Stuck [kind] := by
  intro hs
  cases hs
  exact h rfl

theorem stuck_nop_iff (rest : Bytes) : Stuck (tcpOptNOP :: rest) ↔ Stuck rest := by
  refine ⟨fun h => ?_, Stuck.nop⟩
  cases h with
  | here _ _ hkind => exact absurd hkind (by decide)
  | nop h => exact h
  | skip _ _ _ _ hnop => exact absurd rfl hnop

theorem stuck_option_iff {kind : UInt8} (hend : kind ≠ tcpOptEnd) (hnop : kind ≠ tcpOptNOP) (length : UInt8)
    (rest : Bytes) :
    Stuck (kind :: length :: rest) ↔ ((kind = tcpOptMSS ∨ kind = tcpOptWndScale) ∧ length.toNat = 0) ∨
      (0 < length.toNat ∧ (kind = tcpOptMSS ∨ kind = tcpOptWndScale ∨ 2 ≤ length.toNat) ∧
        Stuck ((kind :: length :: rest).drop length.toNat)) := by
  constructor
  · intro h
    cases h with
    | here _ _ hkind => exact .inl ⟨hkind, rfl⟩
    | nop h => exact absurd rfl hnop
    | skip _ _ _ _ _ hpos hkind hrest => exact .inr ⟨hpos, hkind, hrest⟩
  · rintro (⟨hkind, hzero⟩ | ⟨hpos, hkind, hrest⟩)
    · have h0 : length = 0 := UInt8.toNat.inj hzero
      rw [h0]
      exact .here kind rest hkind
    · exact .skip kind length rest hend hnop hpos hkind hrest

theorem drop_cons {i : Nat} (h : i < b.length) : b.drop i = b.get ⟨i, h⟩ :: b.drop (i + 1) :=
  List.drop_eq_getElem_cons h

/-- A turn at `i` ends, or it goes on behind a no-op or behind an option, by its length byte. -/
def TurnAt (options : Bytes) (turns i : Nat) (r : Parse TcpOptions) : Prop :=
  (¬Stuck (options.drop i) ∧ ∃ opts', r = .ok opts') ∨
  ∃ k opts', r = optionsLoop options turns (i + k) opts' ∧
    i < options.length ∧ (k = 0 → Stuck (options.drop i)) ∧ (Stuck (options.drop i) ↔ Stuck (options.drop (i + k)))

theorem optionsLoop_turn (turns i : Nat) (opts : TcpOptions) :
    TurnAt options turns i (optionsLoop options (turns + 1) i opts) := by
  rw [optionsLoop]
  by_cases hi : i < options.length
  swap
  · rw [if_neg hi, TurnAt, List.drop_eq_nil_of_le (by omega)]
    exact .inl ⟨nofun, opts, rfl⟩
  rw [if_pos hi, byteOf_eq hi]
  have hdrop := drop_cons hi
  generalize options.get ⟨i, hi⟩ = kind at hdrop ⊢
  show TurnAt options turns i (if kind = tcpOptEnd then _ else _)
  by_cases hend : kind = tcpOptEnd
  · rw [if_pos hend, TurnAt, hdrop, hend]
    exact .inl ⟨not_stuck_end _, opts, rfl⟩
  rw [if_neg hend]
  by_cases hnop : kind = tcpOptNOP
  · rw [if_pos hnop, TurnAt, hdrop, hnop]
    exact .inr ⟨1, opts, rfl, hi, nofun, stuck_nop_iff _⟩
  rw [if_neg hnop]
  -- an option that goes on by its length byte
  have hskip : ∀ (hlen : i + 1 < options.length) (opts' : TcpOptions),
      (kind = tcpOptMSS ∨ kind = tcpOptWndScale ∨ 2 ≤ (options.get ⟨i + 1, hlen⟩).toNat) →
      TurnAt options turns i (optionsLoop options turns (i + (options.get ⟨i + 1, hlen⟩).toNat) opts') := by
    intro hlen opts' hkind
    have hcons := drop_cons hlen
    generalize options.get ⟨i + 1, hlen⟩ = length at hcons hkind ⊢
    have hiff := stuck_option_iff hend hnop length (options.drop (i + 1 + 1))
    rw [← hcons, ← hdrop, List.drop_drop] at hiff
    refine .inr ⟨length.toNat, opts', rfl, hi, fun hzero => hiff.mpr (.inl ⟨?_, hzero⟩), ?_⟩
    · rcases hkind with h | h | h
      · exact .inl h
      · exact .inr h
      · omega
    · by_cases hzero : length.toNat = 0
      · rw [hzero, Nat.add_zero]
      · rw [hiff]
        constructor
        · rintro (⟨-, h0⟩ | ⟨-, -, h⟩)
          · exact absurd h0 hzero
          · exact h
        · exact fun h => .inr ⟨Nat.pos_of_ne_zero hzero, hkind, h⟩
  have hlast : ¬i + 1 < options.length → ¬Stuck (options.drop i) := by
    intro hlen
    rw [hdrop, List.drop_eq_nil_of_le (by omega)]
    exact not_stuck_singleton hnop
  -- a maximum segment size or a window scale, after it is read
  have hread : kind = tcpOptMSS ∨ kind = tcpOptWndScale → ∀ opts', TurnAt options turns i
      (if i + 1 < options.length then do
        let length ← byteOf options (i + 1)
        optionsLoop options turns (i + length.toNat) opts'
      else pure opts') := by
    intro hkind opts'
    by_cases hlen : i + 1 < options.length
    · rw [if_pos hlen, byteOf_eq hlen]
      exact hskip hlen opts' (hkind.imp_right .inl)
    · rw [if_neg hlen]
      exact .inl ⟨hlast hlen, opts', rfl⟩
  by_cases hmss : kind = tcpOptMSS
  · rw [if_pos hmss]
    obtain ⟨opts', heq⟩ := readMSS_safe options i opts
    rw [heq]
    exact hread (.inl hmss) opts'
  rw [if_neg hmss]
  by_cases hscale : kind = tcpOptWndScale
  · rw [if_pos hscale]
    obtain ⟨opts', heq⟩ := readWndScale_safe options i opts
    rw [heq]
    exact hread (.inr hscale) opts'
  rw [if_neg hscale]
  by_cases hlen : i + 1 < options.length
  · rw [if_neg (by omega), byteOf_eq hlen]
    show TurnAt options turns i (if (options.get ⟨i + 1, hlen⟩).toNat < 2 then _ else _)
    by_cases hshort : (options.get ⟨i + 1, hlen⟩).toNat < 2
    · rw [if_pos hshort, TurnAt, hdrop, drop_cons hlen, stuck_option_iff hend hnop]
      refine .inl ⟨?_, opts, rfl⟩
      rintro (⟨hkind, -⟩ | ⟨-, h | h | h, -⟩)
      · exact hkind.elim hmss hscale
      · exact hmss h
      · exact hscale h
      · omega
    · rw [if_neg hshort]
      exact hskip hlen opts (.inr (.inr (by omega)))
  · rw [if_pos (by omega)]
    exact .inl ⟨hlast hlen, opts, rfl⟩

theorem optionsLoop_stuck (turns i : Nat) (opts : TcpOptions) (h : Stuck (options.drop i)) :
    optionsLoop options turns i opts = .error .unfinished := by
  induction turns generalizing i opts with
  | zero => rfl
  | succ turns ih =>
    rcases optionsLoop_turn options turns i opts with ⟨hnot, -⟩ | ⟨k, opts', heq, -, -, hiff⟩
    · exact absurd h hnot
    · rw [heq]
      exact ih _ _ (hiff.mp h)

theorem optionsLoop_ends (turns i : Nat) (opts : TcpOptions) (h : ¬Stuck (options.drop i))
    (hturns : options.length - i < turns) : ∃ opts', optionsLoop options turns i opts = .ok opts' := by
  induction turns generalizing i opts with
  | zero => omega
  | succ turns ih =>
    rcases optionsLoop_turn options turns i opts with ⟨-, hok⟩ | ⟨k, opts', heq, hi, hzero, hiff⟩
    · exact hok
    · rw [heq]
      have hk : k ≠ 0 := fun h0 => h (hzero h0)
      exact ih _ _ (fun hs => h (hiff.mpr hs)) (by omega)

theorem optionsLoop_ne_panics (turns i : Nat) (opts : TcpOptions) :
    optionsLoop options turns i opts ≠ .error .panics := by
  induction turns generalizing i opts with
  | zero => nofun
  | succ turns ih =>
    rcases optionsLoop_turn options turns i opts with ⟨-, opts', hok⟩ | ⟨k, opts', heq, -⟩
    · rw [hok]
      nofun
    · rw [heq]
      exact ih _ _

theorem parseTCPOptions_stuck {options : Bytes} (h : Stuck options) (turns : Nat) :
    parseTCPOptions turns options = .error .unfinished := optionsLoop_stuck options turns 0 {} h

theorem parseTCPOptions_ends {options : Bytes} (h : ¬Stuck options) {turns : Nat} (hturns : options.length < turns) :
    ∃ opts, parseTCPOptions turns options = .ok opts := optionsLoop_ends options turns 0 {} h hturns

end CrumbleCracker.Netstack.Frames
