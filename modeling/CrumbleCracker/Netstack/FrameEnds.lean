import CrumbleCracker.Netstack.Stack

/-!
# Frames are handled to the end

The handling of a frame of the guest never indexes out of range, and it ends exactly when the frame does not bring a
segment whose options are read and are stuck (`deliverGuestPacket_ends_iff`). A SYN with a maximum segment size of
length 0 keeps the loop running, with the lock of the connection table held (`synOptions_spin`).
-/

namespace CrumbleCracker.Netstack.Frames

open Checked Prog

/-! ## Programs that end -/

def Ends {α : Type} (x : NetProg α) (Q : α → Prop) : Prop := ∀ s, Yields (x s).1 Q NetFault.IsError

variable {s : NetStack}

section Rules

variable {α β : Type} {Q : α → Prop} {R : β → Prop}

theorem Ends.bind {x : NetProg α} {f : α → NetProg β} (hx : Ends x Q) (hf : ∀ a, Q a → Ends (f a) R) :
    Ends (x >>= f) R := by
  intro s
  have hrun := hx s
  rw [bind_run]
  rcases hxs : x s with ⟨e | a, s'⟩
  · rw [hxs] at hrun
    exact hrun
  · rw [hxs] at hrun
    exact hf a hrun s'

theorem ends_pure {a : α} (h : Q a) : Ends (pure a : NetProg α) Q := fun _ => h

theorem ends_fail {e : NetFault} (h : e.IsError) : Ends (.fail e : NetProg α) Q := fun _ => h

theorem ends_parsed {x : Parse α} (h : Safe x Q) : Ends (parsed x) Q := fun _ => h

theorem parsed_ok_bind (a : α) (f : α → NetProg β) : parsed (.ok a) >>= f = f a := rfl

theorem ends_read (f : NetStack → α) : Ends (read f : NetProg α) fun _ => True := fun _ => trivial

theorem ends_change (f : NetStack → NetStack) : Ends (change f) fun _ => True := fun _ => trivial

theorem ends_require (p : Prop) [Decidable p] : Ends (require p .host : NetProg Unit) fun _ => True := by
  intro s
  rw [require]
  split
  · trivial
  · exact ⟨nofun, nofun⟩

theorem ends_ite {c : Prop} [Decidable c] {x y : NetProg α} (hx : c → Ends x Q) (hy : ¬c → Ends y Q) :
    Ends (if c then x else y) Q := by
  by_cases h : c
  · rw [if_pos h]
    exact hx h
  · rw [if_neg h]
    exact hy h

theorem yields_parsed_bind {E : NetFault → Prop} {x : Parse α} {f : α → NetProg β} (hx : Yields x Q E)
    (hf : ∀ a, x = .ok a → Q a → Yields (f a s).1 R E) : Yields ((parsed x >>= f) s).1 R E := by
  cases x with
  | ok a => exact hf a rfl hx
  | error e => exact hx

end Rules

variable {h : IPv4Header}

section Handlers

variable (cfg : StackConfig) (ch : FrameChoice)

theorem ends_sendFrame (frame : Bytes) : Ends (sendFrame ch frame) fun _ => True :=
  (ends_change _).bind fun _ _ => ends_require _

theorem length_array4 (ip : Bytes) : (array4 ip).length = 4 := by simp [array4]

theorem ends_sendTCP (localIPv4 : Bytes) (key : FourTuple) (seq ack : UInt32) (flags : UInt8)
    (payload options : Bytes) :
    Ends (sendTCPPacketWithOptions cfg ch localIPv4 key seq ack flags payload options) fun _ => True := by
  refine (ends_parsed (transportChecksum_safe _ _ (length_array4 _) (length_array4 _))).bind fun check _ => ?_
  refine (ends_read _).bind fun dstMAC _ => ?_
  cases dstMAC with
  | none => exact ends_fail ⟨nofun, nofun⟩
  | some mac => exact ends_sendFrame ch _

theorem ends_ignoreError {x : NetProg Unit} (hx : Ends x fun _ => True) : Ends (ignoreError x) fun _ => True := by
  intro s
  have hrun := hx s
  unfold ignoreError
  rcases hs : x s with ⟨e | a, s'⟩
  · rw [hs] at hrun
    dsimp only
    rw [if_neg (not_or.2 hrun)]
    trivial
  · trivial

theorem ends_handleARP (srcMAC payload : Bytes) : Ends (handleARP cfg ch srcMAC payload) fun _ => True := by
  refine ends_ite (fun _ => ends_fail ⟨nofun, nofun⟩) fun hlen => ?_
  refine (ends_parsed (safe_uint16At (by omega))).bind fun _ _ => (ends_parsed (safe_uint16At (by omega))).bind
    fun _ _ => ?_
  refine (ends_parsed (safe_byteOf (by omega))).bind fun _ _ => (ends_parsed (safe_byteOf (by omega))).bind
    fun _ _ => ?_
  refine (ends_parsed (safe_uint16At (by omega))).bind fun _ _ => ends_ite (fun _ => ends_pure trivial) fun _ => ?_
  refine (ends_parsed (safe_sliceOf (by omega) (by omega))).bind fun _ _ => ?_
  refine (ends_parsed (safe_sliceOf (by omega) (by omega))).bind fun _ _ => ?_
  refine (ends_parsed (safe_sliceOf (by omega) (by omega))).bind fun _ _ => ?_
  refine ends_ite (fun _ => ends_pure trivial) fun _ => ?_
  exact ends_ite (fun _ => ends_sendFrame ch _) fun _ => ends_pure trivial

theorem ends_sendICMPEchoReply (src dst : Bytes) {request : Bytes} (h : 8 ≤ request.length) :
    Ends (sendICMPEchoReply cfg ch src dst request) fun _ => True := by
  refine (ends_parsed (safe_byteOf (by omega))).bind fun _ _ => ?_
  refine (ends_parsed (safe_sliceOf (by omega) (Nat.le_refl _))).bind fun _ _ => (ends_read _).bind fun dstMAC _ => ?_
  cases dstMAC with
  | none => exact ends_fail ⟨nofun, nofun⟩
  | some mac => exact ends_sendFrame ch _

theorem icmpChecksumOK_safe {payload : Bytes} (h : 8 ≤ payload.length) :
    Safe (icmpChecksumOK cfg payload) fun _ => True := by
  refine yields_ite (fun _ => ?_) fun _ => trivial
  refine (safe_uint16At (by omega)).bind fun _ _ => (safe_sliceOf (by omega) (by omega)).bind fun _ _ => ?_
  exact (safe_sliceOf (by omega) (Nat.le_refl _)).bind fun _ _ => trivial

theorem ends_handleICMP (h : IPv4Header) : Ends (handleICMP cfg ch h) fun _ => True := by
  refine ends_ite (fun _ => ends_pure trivial) fun hlen => ?_
  refine (ends_parsed (safe_byteOf (by omega))).bind fun _ _ => ends_ite (fun _ => ends_pure trivial) fun _ => ?_
  refine (ends_parsed (icmpChecksumOK_safe cfg (by omega))).bind fun ok _ => ?_
  exact ends_ite (fun _ => ends_sendICMPEchoReply cfg ch h.dst h.src (by omega)) fun _ => ends_pure trivial

theorem ends_getUDPServiceProxy (key : UdpProxyKey) : Ends (getUDPServiceProxy ch key) fun _ => True := by
  refine (ends_read _).bind fun known _ => ends_ite (fun _ => ends_pure trivial) fun _ => ?_
  exact (ends_require _).bind fun _ _ => ends_change _

theorem udpChecksumOK_safe {u : UdpPacket} (hsrc : h.src.length = 4) (hdst : h.dst.length = 4)
    (hlen : u.length.toNat ≤ h.payload.length) : Safe (udpChecksumOK cfg h u) fun _ => True := by
  refine yields_ite (fun _ => ?_) fun _ => trivial
  refine (safe_sliceOf (Nat.zero_le _) hlen).bind fun data _ => ?_
  exact (transportChecksum_safe _ data hsrc hdst).bind fun _ _ => trivial

theorem ends_handleUDP (hsrc : h.src.length = 4) (hdst : h.dst.length = 4) :
    Ends (handleUDP cfg ch h) fun _ => True := by
  refine (ends_parsed (parseUDP_safe h.payload)).bind fun u hlen => ?_
  refine (ends_parsed (udpChecksumOK_safe cfg hsrc hdst hlen)).bind fun ok _ => ?_
  refine ends_ite (fun _ => ends_pure trivial) fun _ => ends_ite (fun _ => ?_) fun _ => ?_
  · exact ends_ite (fun _ => ends_pure trivial) fun _ =>
      (ends_getUDPServiceProxy ch _).bind fun _ _ => (ends_require _).bind fun _ _ => ends_change _
  · refine ends_ite (fun _ => ends_change _) fun _ => ?_
    exact ends_ite (fun _ => ends_change _) fun _ => ends_pure trivial

theorem ends_openConn (hdr : TcpHeader) (key : FourTuple) (opts : TcpOptions) :
    Ends (openConn cfg ch h hdr key opts) fun _ => True := by
  unfold openConn
  split
  · exact ends_sendTCP cfg ch _ _ _ _ _ _ _
  · exact (ends_change _).bind fun _ _ => ends_ignoreError (ends_sendTCP cfg ch _ _ _ _ _ _ _)

theorem ipv4ChecksumOK_safe {payload : Bytes} : Safe (ipv4ChecksumOK cfg h payload) fun _ => True := by
  refine yields_ite (fun hlen => ?_) fun _ => trivial
  exact (safe_sliceOf (Nat.zero_le _) hlen.2).bind fun _ _ => trivial

theorem tcpChecksumOK_safe (hsrc : h.src.length = 4) (hdst : h.dst.length = 4) :
    Safe (tcpChecksumOK cfg h) fun _ => True := by
  refine yields_ite (fun _ => ?_) fun _ => trivial
  exact (transportChecksum_safe _ _ hsrc hdst).bind fun _ _ => trivial

end Handlers

/-! ## Segments -/

/-- The options of the segment are read: it is a SYN without a connection, or the SYN that answers a dial of the
host. -/
def ReadsOptions (s : NetStack) (h : IPv4Header) (hdr : TcpHeader) : Prop :=
  match s.tcpConns.lookup (hdr.key h) with
  | none => hdr.has tcpFlagSYN = true
  | some c => c.closed = false ∧ c.state = .synSent ∧ hdr.has tcpFlagRST = false ∧
    (hdr.has tcpFlagSYN ∧ hdr.has tcpFlagACK ∧ hdr.ack = c.resynced hdr)

section Segments

variable (cfg : StackConfig) (ch : FrameChoice) (turns : Nat) {E : NetFault → Prop}

theorem Ends.yields {α : Type} {x : NetProg α} {Q : α → Prop} (h : Ends x Q) (hE : ∀ e, e.IsError → E e)
    (s : NetStack) :
    Yields (x s).1 Q E := (h s).mono (fun _ h => h) hE

theorem handleTCP_yields (hE : ∀ e, e.IsError → E e) (hsrc : h.src.length = 4) (hdst : h.dst.length = 4) (s : NetStack)
    (hread : ∀ hdr, tcpChecksumOK cfg h = .ok true → parseTCPHeader h.payload = .ok hdr → ReadsOptions s h hdr →
      Yields (parseTCPOptions turns hdr.options) (fun _ => True) E) :
    Yields (handleTCP cfg ch turns h s).1 (fun _ => True) E := by
  refine yields_parsed_bind ((tcpChecksumOK_safe cfg hsrc hdst).mono (fun _ h => h) hE) fun ok hc _ => ?_
  cases ok with
  | false => exact trivial
  | true =>
    refine yields_parsed_bind ((parseTCPHeader_safe h.payload).mono (fun _ h => h) hE) fun hdr hp _ => ?_
    have hopts := hread hdr hc hp
    unfold ReadsOptions at hopts
    show Yields ((read (fun s => s.tcpConns.lookup (hdr.key h)) >>= _ : NetProg Unit) s).1 _ _
    rw [bind_run, read_run]
    dsimp only
    rcases hfound : s.tcpConns.lookup (hdr.key h) with - | c
    · rw [hfound] at hopts
      show Yields ((if !hdr.has tcpFlagSYN then _ else _ : NetProg Unit) s).1 _ _
      by_cases hsyn : hdr.has tcpFlagSYN = true
      · rw [hsyn]
        exact yields_parsed_bind (hopts hsyn) fun opts _ _ => (ends_openConn cfg ch hdr (hdr.key h) opts).yields hE s
      · rw [Bool.not_eq_true] at hsyn
        rw [hsyn]
        exact trivial
    · rw [hfound] at hopts
      dsimp only at hopts ⊢
      unfold handleSegment
      by_cases hclosed : c.closed = true
      · rw [if_pos hclosed]
        exact trivial
      rw [if_neg hclosed]
      dsimp only
      cases hstate : c.state with
      | synSent =>
        dsimp only
        by_cases hrst : hdr.has tcpFlagRST = true
        · rw [if_pos hrst]
          exact trivial
        rw [if_neg hrst]
        by_cases hsyn : hdr.has tcpFlagSYN ∧ hdr.has tcpFlagACK ∧ hdr.ack = c.resynced hdr
        · rw [if_pos hsyn]
          refine yields_parsed_bind (hopts ⟨by simpa using hclosed, hstate, by simpa using hrst, hsyn⟩) fun _ _ _ => ?_
          refine Ends.yields ((ends_change _).bind fun _ _ => ?_) hE s
          exact ends_ignoreError (ends_sendTCP cfg ch _ _ _ _ _ _ _)
        · rw [if_neg hsyn]
          exact trivial
      | synRcvd =>
        refine Ends.yields (ends_ite (fun _ => ?_) fun _ => ends_change _) hE s
        refine (ends_change _).bind fun _ _ => (ends_change _).bind fun _ _ => ?_
        exact ends_ite (fun _ => ends_change _) fun _ => ends_pure trivial
      | established => exact Ends.yields (ends_ite (fun _ => ends_change _) fun _ => ends_change _) hE s
      | closed => exact trivial

theorem handleTCP_stuck {hdr : TcpHeader} (hcheck : tcpChecksumOK cfg h = .ok true)
    (hparse : parseTCPHeader h.payload = .ok hdr) (hread : ReadsOptions s h hdr) (hstuck : Stuck hdr.options) :
    (handleTCP cfg ch turns h s).1 = .error .unfinished := by
  have hopts := parseTCPOptions_stuck hstuck turns
  rw [handleTCP, hcheck, parsed_ok_bind, if_neg (by decide), hparse, parsed_ok_bind, bind_run, read_run]
  unfold ReadsOptions at hread
  dsimp only
  rcases hfound : s.tcpConns.lookup (hdr.key h) with - | c
  · rw [hfound] at hread
    dsimp only at hread ⊢
    rw [hread]
    show ((parsed (parseTCPOptions turns hdr.options) >>= _ : NetProg Unit) s).1 = _
    rw [hopts]
    rfl
  · rw [hfound] at hread
    obtain ⟨hclosed, hstate, hrst, hsyn⟩ := hread
    have hnot : ¬c.closed = true := by rw [hclosed]; decide
    have hrst' : ¬hdr.has tcpFlagRST = true := by rw [hrst]; decide
    simp only [handleSegment, if_neg hnot, hstate, if_neg hrst', if_pos hsyn, hopts]
    rfl

end Segments

/-! ## Frames -/

/-- The frame has a valid source, is for the stack, and holds a TCP segment whose checksums are right. -/
structure BringsSegment (cfg : StackConfig) (packet : Bytes) (h : IPv4Header) (hdr : TcpHeader) : Prop where
  source : validateGuestSource packet cfg.guestMAC cfg.guestIPv4 = .ok .valid
  addressed : acceptsL2 cfg (packet.take 6) = true
  etherType : uint16At packet 12 = .ok etherTypeIPv4
  ipv4 : parseIPv4Header (packet.drop 14) = .ok h
  ipv4Checksum : ipv4ChecksumOK cfg h (packet.drop 14) = .ok true
  protocol : h.protocol = tcpProtocolNumber
  tcpChecksum : tcpChecksumOK cfg h = .ok true
  tcp : parseTCPHeader h.payload = .ok hdr

variable {packet : Bytes}

theorem BringsSegment.options_length {cfg : StackConfig} {hdr : TcpHeader} (hb : BringsSegment cfg packet h hdr) :
    hdr.options.length ≤ packet.length := by
  have htcp := parseTCPHeader_safe h.payload
  rw [hb.tcp] at htcp
  have hipv4 := parseIPv4Header_safe (packet.drop 14)
  rw [hb.ipv4] at hipv4
  obtain ⟨-, -, -, hpayload⟩ := hipv4
  rw [List.length_drop] at hpayload
  change hdr.options.length ≤ h.payload.length at htcp
  omega

/-- The frame brings a segment whose options are read and come to a maximum segment size or a window scale of length
0. -/
def BringsStuckOptions (cfg : StackConfig) (s : NetStack) (packet : Bytes) : Prop :=
  ∃ h hdr, BringsSegment cfg packet h hdr ∧ ReadsOptions s h hdr ∧ Stuck hdr.options

section Frame

variable (cfg : StackConfig) (ch : FrameChoice) (turns : Nat) {E : NetFault → Prop}

theorem handleIPv4_yields (hE : ∀ e, e.IsError → E e) (payload : Bytes) (s : NetStack)
    (hread : ∀ h hdr, parseIPv4Header payload = .ok h → ipv4ChecksumOK cfg h payload = .ok true →
      h.protocol = tcpProtocolNumber → tcpChecksumOK cfg h = .ok true → parseTCPHeader h.payload = .ok hdr →
      ReadsOptions s h hdr → Yields (parseTCPOptions turns hdr.options) (fun _ => True) E) :
    Yields (handleIPv4 cfg ch turns payload s).1 (fun _ => True) E := by
  refine yields_parsed_bind ((parseIPv4Header_safe payload).mono (fun _ h => h) hE) fun h hp ⟨hsrc, hdst, _⟩ => ?_
  refine yields_parsed_bind ((ipv4ChecksumOK_safe cfg).mono (fun _ h => h) hE) fun ok hc _ => ?_
  cases ok with
  | false => exact trivial
  | true =>
    show Yields ((if h.protocol = udpProtocolNumber then _ else _ : NetProg Unit) s).1 _ _
    split
    · exact (ends_handleUDP cfg ch hsrc hdst).yields hE s
    split
    · rename_i htcp
      exact handleTCP_yields cfg ch turns hE hsrc hdst s fun hdr => hread h hdr hp hc htcp
    split
    · exact (ends_handleICMP cfg ch h).yields hE s
    · exact trivial

theorem sliceOf_rest {b : Bytes} {lo : Nat} (h : lo ≤ b.length) : sliceOf b lo b.length = .ok (b.drop lo) := by
  rw [sliceOf, slice_eq _ h (Nat.le_refl _), field, List.take_of_length_le]
  rw [List.length_drop]

theorem handleEthernetFrame_run {frame : Bytes} (h : 14 ≤ frame.length) {etherType : UInt16}
    (htype : uint16At frame 12 = .ok etherType) (s : NetStack) :
    handleEthernetFrame cfg ch turns frame s =
      (do
        let violation ← parsed (validateGuestSource frame cfg.guestMAC cfg.guestIPv4)
        if violation ≠ .valid then
          if violation ≠ .unsupportedProtocol then recordSourceViolation violation else pure ()
        else do
          recordGuestMAC cfg (field frame 6 6)
          if !acceptsL2 cfg (frame.take 6) then pure ()
          else if etherType = etherTypeARP then handleARP cfg ch (field frame 6 6) (frame.drop 14)
          else if etherType = etherTypeIPv4 then handleIPv4 cfg ch turns (frame.drop 14)
          else if etherType = etherTypeCustom then handleCustom cfg ch (field frame 6 6) (frame.drop 14)
          else pure () : NetProg Unit) s := by
  have hdst : sliceOf frame 0 6 = .ok (frame.take 6) := by
    rw [sliceOf, slice_eq _ (by omega) (by omega)]
    rfl
  have hsrc : sliceOf frame 6 12 = .ok (field frame 6 6) := slice_eq _ (by omega) (by omega)
  rw [handleEthernetFrame, hdst, hsrc, htype, ethernetHeaderLen, sliceOf_rest h]
  rfl

theorem recordGuestMAC_conns (mac : Bytes) (s : NetStack) :
    ∃ s', recordGuestMAC cfg mac s = (.ok (), s') ∧ s'.tcpConns = s.tcpConns := by
  refine ⟨_, rfl, ?_⟩
  dsimp only
  split
  · rfl
  · rfl

theorem deliverGuestPacket_yields (hE : ∀ e, e.IsError → E e) (h14 : 14 ≤ packet.length) (s : NetStack)
    (hread : ∀ h hdr, BringsSegment cfg packet h hdr → ReadsOptions s h hdr →
      Yields (parseTCPOptions turns hdr.options) (fun _ => True) E) :
    Yields (deliverGuestPacket cfg ch turns packet s).1 (fun _ => True) E := by
  obtain ⟨etherType, htype⟩ : ∃ t, uint16At packet 12 = .ok t := (yields_uint16At (by omega)).ok
  rw [deliverGuestPacket, if_neg (by unfold ethernetHeaderLen; omega), handleEthernetFrame_run cfg ch turns h14 htype]
  refine yields_parsed_bind ((validateGuestSource_safe packet _ _).mono (fun _ h => h) hE) fun v hv _ => ?_
  by_cases hvalid : v = .valid
  · rw [if_neg (not_not_intro hvalid), bind_run]
    subst hvalid
    obtain ⟨s', hs', hconns⟩ := recordGuestMAC_conns cfg (field packet 6 6) s
    rw [hs']
    show Yields ((if !acceptsL2 cfg (packet.take 6) then _ else _ : NetProg Unit) s').1 _ _
    rcases hl2 : acceptsL2 cfg (packet.take 6) with - | -
    · exact trivial
    show Yields ((if etherType = etherTypeARP then _ else _ : NetProg Unit) s').1 _ _
    split
    · exact (ends_handleARP cfg ch _ _).yields hE s'
    split
    · rename_i hipv4
      rw [hipv4] at htype
      refine handleIPv4_yields cfg ch turns hE (packet.drop 14) s' fun h hdr hp hc ht hck hparse hreads => ?_
      refine hread h hdr ⟨hv, hl2, htype, hp, hc, ht, hck, hparse⟩ ?_
      rw [ReadsOptions, hconns] at hreads
      exact hreads
    split
    · exact (ends_sendFrame ch _).yields hE s'
    · exact trivial
  · rw [if_pos hvalid]
    split
    · exact trivial
    · exact trivial

theorem deliverGuestPacket_stuck (h14 : 14 ≤ packet.length) (h : BringsStuckOptions cfg s packet) :
    (deliverGuestPacket cfg ch turns packet s).1 = .error .unfinished := by
  obtain ⟨h, hdr, hb, hread, hstuck⟩ := h
  rw [deliverGuestPacket, if_neg (by unfold ethernetHeaderLen; omega),
    handleEthernetFrame_run cfg ch turns h14 hb.etherType, hb.source, parsed_ok_bind, if_neg (not_not_intro rfl)]
  obtain ⟨s', hs', hconns⟩ := recordGuestMAC_conns cfg (field packet 6 6) s
  rw [bind_run, hs', hb.addressed]
  dsimp only
  rw [if_neg (by decide), if_neg (by decide), if_pos rfl, handleIPv4, hb.ipv4, parsed_ok_bind, hb.ipv4Checksum,
    parsed_ok_bind, if_neg (by decide), hb.protocol, if_neg (by decide), if_pos rfl]
  refine handleTCP_stuck cfg ch turns hb.tcpChecksum hb.tcp ?_ hstuck
  rw [ReadsOptions, hconns]
  exact hread

end Frame

theorem deliverGuestPacket_ends_iff (cfg : StackConfig) (ch : FrameChoice) (s : NetStack) (packet : Bytes)
    (h14 : 14 ≤ packet.length) : (∀ turns, (deliverGuestPacket cfg ch turns packet s).1 ≠ .error .panics) ∧
    ((∃ turns, (deliverGuestPacket cfg ch turns packet s).1 ≠ .error .unfinished) ↔
      ¬BringsStuckOptions cfg s packet) := by
  refine ⟨fun turns heq => ?_, fun ⟨turns, hne⟩ hstuck => ?_, fun hnot => ?_⟩
  · have hyields :=
      deliverGuestPacket_yields cfg ch turns (E := (· ≠ .panics)) (fun _ h => h.1) h14 s fun h hdr _ _ => by
      have hne := optionsLoop_ne_panics hdr.options turns 0 {}
      rcases ho : parseTCPOptions turns hdr.options with e | opts
      · rw [parseTCPOptions] at ho
        rw [ho] at hne
        exact fun he => hne (congrArg Except.error he)
      · trivial
    rw [heq] at hyields
    exact hyields rfl
  · exact hne (deliverGuestPacket_stuck cfg ch turns h14 hstuck)
  · refine ⟨packet.length + 1, fun heq => ?_⟩
    have hyields := deliverGuestPacket_yields cfg ch (packet.length + 1) (E := NetFault.IsError) (fun _ h => h) h14 s
      fun h hdr hb hread => by
        obtain ⟨opts, hopts⟩ := parseTCPOptions_ends (fun hs => hnot ⟨h, hdr, hb, hread, hs⟩)
          (Nat.lt_succ_of_le hb.options_length)
        rw [hopts]
        trivial
    rw [heq] at hyields
    exact hyields.2 rfl

/-! ## A SYN -/

/-- The settings of `New`, with the addresses of the guest and the host. -/
def defaultConfig : StackConfig where
  guestMAC := some [0x02, 0x42, 0x0a, 0x2a, 0, 2]
  hostMAC := [0x02, 0x42, 0x0a, 0x2a, 0, 1]
  hostIPv4 := [10, 42, 0, 1]
  guestIPv4 := [10, 42, 0, 2]
  serviceIPv4 := [10, 42, 0, 100]
  hostDNSName := []
  serviceProxyEnabled := true
  hostAccessEnabled := true
  allowInternet := true
  validateChecksums := false
  serviceProxyPorts := []
  tcpListen := []
  udpSockets := []
  dnsServer := false

/-- A frame of the guest with an IPv4 packet from `src` to `dst`. -/
def guestIPv4Frame (src dst : Bytes) (protocol : UInt8) (payload : Bytes) : Bytes :=
  [0x02, 0x42, 0x0a, 0x2a, 0, 1] ++ [0x02, 0x42, 0x0a, 0x2a, 0, 2] ++ [8, 0] ++ [0x45, 0] ++
    bytesBE 2 (20 + payload.length) ++ [0, 0, 0, 0, 64, protocol, 0, 0] ++ src ++ dst ++ payload

/-- A segment of the guest with `flags`, to port `dstPort`. -/
def guestSegment (dstPort : Nat) (seq ack : Nat) (flags : UInt8) (options : Bytes) : Bytes :=
  bytesBE 2 40000 ++ bytesBE 2 dstPort ++ bytesBE 4 seq ++ bytesBE 4 ack ++
    [UInt8.ofNat ((20 + options.length) / 4) <<< 4, flags, 0xff, 0xff, 0, 0, 0, 0] ++ options

/-- A SYN to 93.184.216.34. -/
def synFrame (options : Bytes) : Bytes :=
  guestIPv4Frame [10, 42, 0, 2] [93, 184, 216, 34] tcpProtocolNumber (guestSegment 80 1 0 tcpFlagSYN options)

theorem not_stuck_mss : ¬Stuck [2, 4, 5, 180] := by
  intro h
  cases h with
  | skip _ _ _ _ _ _ _ hrest => cases hrest

/-- A SYN with a maximum segment size of 1460 is handled to its end. -/
theorem deliverGuestPacket_ends_iff_syn : 14 ≤ (synFrame [2, 4, 5, 180]).length ∧
    (∀ turns, (deliverGuestPacket defaultConfig {} turns (synFrame [2, 4, 5, 180]) {}).1 ≠ .error .panics) ∧
    ∃ turns, (deliverGuestPacket defaultConfig {} turns (synFrame [2, 4, 5, 180]) {}).1 ≠ .error .unfinished := by
  have hlen : 14 ≤ (synFrame [2, 4, 5, 180]).length := by decide
  obtain ⟨hpanics, hends⟩ := deliverGuestPacket_ends_iff defaultConfig {} {} _ hlen
  refine ⟨hlen, hpanics, hends.2 ?_⟩
  rintro ⟨h, hdr, hb, -, hstuck⟩
  have hparsed : (do
      let h ← parseIPv4Header ((synFrame [2, 4, 5, 180]).drop 14)
      let hdr ← parseTCPHeader h.payload
      pure hdr.options : Parse Bytes) = .ok [2, 4, 5, 180] := rfl
  rw [hb.ipv4] at hparsed
  change (do
      let hdr ← parseTCPHeader h.payload
      pure hdr.options : Parse Bytes) = .ok [2, 4, 5, 180] at hparsed
  rw [hb.tcp] at hparsed
  rw [Except.ok.inj hparsed] at hstuck
  exact not_stuck_mss hstuck

/-- A maximum segment size of length 0 keeps the handling of a SYN running for every number of turns. -/
theorem synOptions_spin : 14 ≤ (synFrame [2, 0, 1, 1]).length ∧
    ∀ turns, (deliverGuestPacket defaultConfig {} turns (synFrame [2, 0, 1, 1]) {}).1 = .error .unfinished := by
  have hlen : 14 ≤ (synFrame [2, 0, 1, 1]).length := by decide
  have hstuck : Stuck [2, 0, 1, 1] := .here 2 [1, 1] (.inl rfl)
  refine ⟨hlen, fun turns => deliverGuestPacket_stuck defaultConfig {} turns hlen ?_⟩
  exact ⟨_, _, ⟨rfl, rfl, rfl, rfl, rfl, rfl, rfl, rfl⟩, rfl, hstuck⟩

end CrumbleCracker.Netstack.Frames
