import CrumbleCracker.Netstack.FrameEnds

/-!
# What the guest can open on the host

With host access disabled, every host socket the stack opens is for a frame of the guest that asked for it, within the
settings (`hostSockets_justified`). A frame with a foreign source only counts; the exceptions are the two that the
source names, address probes and DHCP discovery with the address zero, and with internet access the DNS server asks the
host's resolver (`zeroSource_and_lookup`).
-/

namespace CrumbleCracker.Netstack.Frames

open Checked Prog List

variable {fs : List Bytes} {key : FourTuple} {role : ConnRole} {s : NetStack} {cfg : StackConfig} {packet : Bytes}

/-! ## The DNS server -/

structure DnsQuestion where
  name : Bytes
  qtype : UInt16
  qclass : UInt16
deriving DecidableEq

def dnsTypeA : UInt16 := 1
def dnsTypeAAAA : UInt16 := 28
def dnsTypeSRV : UInt16 := 33
def dnsClassIN : UInt16 := 1

def lowerByte (c : UInt8) : UInt8 := if 65 ≤ c ∧ c ≤ 90 then c + 32 else c

/-- The labels of a name from `off` on, in lower case with dots between them, and the offset behind it. -/
def dnsLabels (msg : Bytes) : Nat → Nat → Bytes → Option (Bytes × Nat)
  | 0, _, _ => none
  | turns + 1, off, name =>
    match msg[off]? with
    | none => none
    | some 0 => some (name, off + 1)
    | some len =>
      if len &&& 0xc0 ≠ 0 ∨ 63 < len ∨ msg.length < off + 1 + len.toNat then none
      else dnsLabels msg turns (off + 1 + len.toNat)
        ((if name = [] then [] else name ++ [46]) ++ (field msg (off + 1) len.toNat).map lowerByte)

def parseDNSQuestion (msg : Bytes) (off : Nat) : Option (DnsQuestion × Nat) :=
  match dnsLabels msg (msg.length + 1) off [] with
  | none => none
  | some (name, off) =>
    if msg.length < off + 4 then none
    else some (
      { name, qtype := UInt16.ofNat (natBE (field msg off 2)), qclass := UInt16.ofNat (natBE (field msg (off + 2) 2)) },
      off + 4)

def dnsQuestions (msg : Bytes) : Nat → Nat → Option (List DnsQuestion)
  | 0, _ => some []
  | n + 1, off =>
    match parseDNSQuestion msg off with
    | none => none
    | some (q, next) => (dnsQuestions msg n next).map (q :: ·)

def trimDot (name : Bytes) : Bytes := if name.getLast? = some 46 then name.dropLast else name

def nameBytes (s : String) : Bytes := s.toList.map fun c => UInt8.ofNat c.toNat

/-- `lookupDNSName` answers. -/
def syntheticName (cfg : StackConfig) (name : Bytes) : Bool :=
  let n := trimDot name
  if n = cfg.hostDNSName ∨ n = nameBytes "host.internal" then cfg.hostAccessEnabled
  else if n = nameBytes "guest.internal" then true
  else if n = nameBytes "service.internal" then cfg.hostAccessEnabled
  else false

/-- `resolveDNSQuestion`: what is asked of the host's resolver; `targets` are the names of the records it finds. -/
def resolveDNSQuestion (cfg : StackConfig) (targets : List Bytes) (q : DnsQuestion) : List HostSocket :=
  if !cfg.allowInternet then []
  else if q.qtype = dnsTypeA ∨ q.qtype = dnsTypeAAAA then [.lookup q.qtype (trimDot q.name)]
  else if q.qtype = dnsTypeSRV then
    .lookup q.qtype (trimDot q.name) ::
      targets.flatMap fun name => [HostSocket.lookup dnsTypeA name, .lookup dnsTypeAAAA name]
  else []

/-- The questions of a query that can be read. -/
def queryQuestions (query : Bytes) : Option (List DnsQuestion) :=
  if query.length < 12 then none else dnsQuestions query (natBE (field query 4 2)) 12

/-- The lookups of `buildDNSResponse`; the resolver answers question `i` with records for the names `targets i`. -/
def dnsLookups (cfg : StackConfig) (targets : Nat → List Bytes) (query : Bytes) : List HostSocket :=
  match queryQuestions query with
  | none => []
  | some questions => questions.zipIdx.flatMap fun q =>
    if q.1.qclass ≠ dnsClassIN then []
    else if q.1.qtype = dnsTypeA ∧ syntheticName cfg q.1.name then []
    else resolveDNSQuestion cfg (targets q.2) q.1

/-- The buffer of `serve`: what is longer is cut. -/
def dnsBufferSize : Nat := 1500

/-! ## Events -/

/-- Where `startServiceProxy` and `startOutboundTCPProxy` connect to. -/
def dialAddress (key : FourTuple) : ConnRole → List HostSocket
  | .service => [.tcp loopback key.dstPort]
  | .outbound => [.tcp key.dstIP key.dstPort]
  | .listener | .dialed => []

inductive StackEvent where
  | frame (ch : FrameChoice) (packet : Bytes)
  /-- The goroutine of an established connection dials. -/
  | dial (i : Nat)
  | close (key : FourTuple)
  /-- A UDP proxy has been idle. -/
  | expire (key : UdpProxyKey)
  /-- The DNS server takes a datagram; `targets i` are the names in the resolver's answer to question `i`. -/
  | dns (targets : Nat → List Bytes)
  /-- `DialInternalContext`: the host connects to the guest. -/
  | dialInternal (key : FourTuple) (initialSeq : UInt32)

def StackEvent.frames : StackEvent → List Bytes
  | .frame _ packet => [packet]
  | _ => []

/-- One event; a loop that has not ended after `turns` turns is cut off. -/
def step (cfg : StackConfig) (turns : Nat) (s : NetStack) : StackEvent → NetStack
  | .frame ch packet => (deliverGuestPacket cfg ch turns packet s).2
  | .dial i => match s.dialing[i]? with
    | some (key, role) => { s with dialing := s.dialing.eraseIdx i, sockets := s.sockets ++ dialAddress key role }
    | none => s
  | .close key => { s with tcpConns := s.tcpConns.filter fun e => e.1 ≠ key }
  | .expire key => { s with udpServiceProxies := s.udpServiceProxies.filter (· ≠ key) }
  | .dns targets => match s.dnsQueue with
    | query :: rest => { s with
        dnsQueue := rest, answered := s.answered ++ [(query, targets)]
        sockets := s.sockets ++ dnsLookups cfg targets (query.take dnsBufferSize) }
    | [] => s
  | .dialInternal key initialSeq =>
    let c : GuestConn :=
      { role := .dialed, localIPv4 := cfg.hostIPv4, state := .synSent, guestSeq := 0, hostSeq := initialSeq + 1 }
    { s with tcpConns := (key, c) :: s.tcpConns.filter fun e => e.1 ≠ key }

/-! ## What justifies a host socket -/

variable {k : HostSocket}

section Justify

variable (cfg : StackConfig)

/-- The frame is a SYN of the guest to `ip` and `port`. -/
def BringsSyn (packet ip : Bytes) (port : UInt16) : Prop :=
  ∃ h hdr, BringsSegment cfg packet h hdr ∧ hdr.has tcpFlagSYN = true ∧ h.dst = ip ∧ hdr.dstPort = port

/-- The frame has a valid source, is for the stack, and holds a UDP datagram to `ip` and `port` with `data`. -/
def BringsDatagram (packet ip : Bytes) (port : UInt16) (data : Bytes) : Prop :=
  validateGuestSource packet cfg.guestMAC cfg.guestIPv4 = .ok .valid ∧ acceptsL2 cfg (packet.take 6) = true ∧
  uint16At packet 12 = .ok etherTypeIPv4 ∧ ∃ h u, parseIPv4Header (packet.drop 14) = .ok h ∧
    h.protocol = udpProtocolNumber ∧ parseUDP h.payload = .ok u ∧ h.dst = ip ∧ u.dstPort = port ∧ u.data = data

/-- The frame is a datagram for the DNS server. -/
def BringsQuery (packet query : Bytes) : Prop := cfg.dnsServer = true ∧ ∃ ip, BringsDatagram cfg packet ip dnsPort query

/-- A connection of that role may be there for the key, after the frames. -/
def RoleJustified (fs : List Bytes) (key : FourTuple) : ConnRole → Prop
  | .service => cfg.serviceProxyEnabled = true ∧ key.dstPort ∈ cfg.serviceProxyPorts ∧
    ∃ f ∈ fs, BringsSyn cfg f cfg.serviceIPv4 key.dstPort
  | .outbound => cfg.allowInternet = true ∧ isHostLocalIPv4 key.dstIP = false ∧
    ∃ f ∈ fs, BringsSyn cfg f key.dstIP key.dstPort
  | .listener | .dialed => True

/-- The query has a question for that name, or one for a service whose answer names it. -/
def AsksFor (query : Bytes) (targets : Nat → List Bytes) (qtype : UInt16) (name : Bytes) : Prop :=
  ∃ questions i q, queryQuestions query = some questions ∧ questions[i]? = some q ∧ q.qclass = dnsClassIN ∧
    ((qtype = q.qtype ∧ name = trimDot q.name) ∨
      (q.qtype = dnsTypeSRV ∧ (qtype = dnsTypeA ∨ qtype = dnsTypeAAAA) ∧ name ∈ targets i))

/-- The host socket is for one of the frames: a connection or datagram to an allowed port of the service address, which
goes to that port of the loopback address; or, with internet access, a connection to the very address of a SYN, not a
local one, or a name that one of the queries answered so far asks for. -/
def Justified (fs : List Bytes) (answered : List (Bytes × (Nat → List Bytes))) : HostSocket → Prop
  | .tcp ip port =>
    (ip = loopback ∧ cfg.serviceProxyEnabled = true ∧ port ∈ cfg.serviceProxyPorts ∧
      ∃ f ∈ fs, BringsSyn cfg f cfg.serviceIPv4 port) ∨
    (cfg.allowInternet = true ∧ isHostLocalIPv4 ip = false ∧ ∃ f ∈ fs, BringsSyn cfg f ip port)
  | .udp ip port => ip = loopback ∧ cfg.serviceProxyEnabled = true ∧ port ∈ cfg.serviceProxyPorts ∧
    ∃ f ∈ fs, ∃ data, BringsDatagram cfg f cfg.serviceIPv4 port data
  | .lookup qtype name => cfg.allowInternet = true ∧ ∃ a ∈ answered,
    AsksFor (a.1.take dnsBufferSize) a.2 qtype name ∧ ∃ f ∈ fs, BringsQuery cfg f a.1

/-- Every connection, goroutine, waiting query and socket has a frame that accounts for it. -/
structure Accounts (fs : List Bytes) (s : NetStack) : Prop where
  conns : ∀ e ∈ s.tcpConns, RoleJustified cfg fs e.1 e.2.role
  dialing : ∀ e ∈ s.dialing, RoleJustified cfg fs e.1 e.2
  queries : ∀ q ∈ s.dnsQueue, ∃ f ∈ fs, BringsQuery cfg f q
  sockets : ∀ k ∈ s.sockets, Justified cfg fs s.answered k

variable {cfg} {fs' : List Bytes} {as as' : List (Bytes × (Nat → List Bytes))}

theorem brought_mono (hsub : fs ⊆ fs') {P : Bytes → Prop} (h : ∃ f ∈ fs, P f) : ∃ f ∈ fs', P f := by
  obtain ⟨f, hf, hp⟩ := h
  exact ⟨f, hsub hf, hp⟩

theorem RoleJustified.mono (hsub : fs ⊆ fs') (h : RoleJustified cfg fs key role) : RoleJustified cfg fs' key role := by
  cases role with
  | service | outbound => exact ⟨h.1, h.2.1, brought_mono hsub h.2.2⟩
  | listener | dialed => trivial

theorem Justified.mono (hsub : fs ⊆ fs') (has : as ⊆ as') (h : Justified cfg fs as k) : Justified cfg fs' as' k := by
  cases k with
  | tcp ip port =>
    rcases h with ⟨hip, henabled, hport, h⟩ | ⟨hinternet, hlocal, h⟩
    · exact .inl ⟨hip, henabled, hport, brought_mono hsub h⟩
    · exact .inr ⟨hinternet, hlocal, brought_mono hsub h⟩
  | udp ip port => exact ⟨h.1, h.2.1, h.2.2.1, brought_mono hsub h.2.2.2⟩
  | lookup qtype name =>
    obtain ⟨hinternet, a, ha, hasks, hf⟩ := h
    exact ⟨hinternet, a, has ha, hasks, brought_mono hsub hf⟩

theorem Accounts.mono (hsub : fs ⊆ fs') (h : Accounts cfg fs s) : Accounts cfg fs' s := by
  exact ⟨fun e he => (h.conns e he).mono hsub, fun e he => (h.dialing e he).mono hsub,
    fun q hq => brought_mono hsub (h.queries q hq), fun k hk => (h.sockets k hk).mono hsub (Subset.refl _)⟩

end Justify

/-! ## Decisions -/

/-- A connection that a SYN opens has a role the SYN accounts for. -/
theorem synAdmission_justified (hhost : cfg.hostAccessEnabled = false) {l : Bytes}
    (hsyn : ∃ f ∈ fs, BringsSyn cfg f key.dstIP key.dstPort)
    (h : synAdmission cfg key.dstIP key.dstPort = .conn role l) :
    RoleJustified cfg fs key role := by
  unfold synAdmission at h
  dsimp only at h
  split at h
  · cases h
    trivial
  split at h
  · cases h
  rename_i hlocal
  split at h
  · rename_i hservice
    split at h
    · cases h
    rename_i hnot
    cases h
    simp only [hhost, serviceProxyAllowed, hservice, Bool.not_false, Bool.true_and, Bool.false_or, Bool.or_eq_true,
      Bool.not_eq_true', decide_eq_false_iff_not, not_or, Bool.not_eq_false, not_not] at hnot
    have hdst : key.dstIP = cfg.serviceIPv4 := by simpa [shouldProxyService] using hservice
    exact ⟨hnot.1, hnot.2, hdst ▸ hsyn⟩
  rename_i hservice
  split at h
  · cases h
  rename_i hinternet
  split at h
  · rename_i hne
    cases h
    have hallow : serviceProxyAllowed cfg key.dstIP key.dstPort = false := by
      rw [serviceProxyAllowed, Bool.eq_false_of_not_eq_true hservice, Bool.false_and]
    rw [hhost, hallow] at hlocal
    exact ⟨by simpa [hne.1] using hinternet, by simpa using hlocal, hsyn⟩
  · cases h

/-! ## A frame -/

section Keep

variable {cfg : StackConfig} (ch : FrameChoice) (turns : Nat) {fs : List Bytes} {I : NetStack → Prop}

theorem keeps_parsed_bind {α β : Type} {x : Parse α} {f : α → NetProg β} (h : ∀ a, x = .ok a → Keeps I (f a)) :
    Keeps I (parsed x >>= f) := by
  cases x with
  | ok a => exact h a rfl
  | error e => exact fun s hs => hs

theorem keeps_ite' {α : Type} {c : Prop} [Decidable c] {x y : NetProg α} (hx : c → Keeps I x) (hy : ¬c → Keeps I y) :
    Keeps I (if c then x else y) := triple_ite hx hy

theorem keeps_sendFrame (frame : Bytes) : Keeps (Accounts cfg fs) (sendFrame ch frame) :=
  Keeps.bind (keeps_update fun _ h => ⟨h.conns, h.dialing, h.queries, h.sockets⟩) fun _ => keeps_require _ _

theorem keeps_sendTCP (localIPv4 : Bytes) (key : FourTuple) (seq ack : UInt32) (flags : UInt8)
    (payload options : Bytes) :
    Keeps (Accounts cfg fs) (sendTCPPacketWithOptions cfg ch localIPv4 key seq ack flags payload options) := by
  refine keeps_parsed_bind fun check _ => (keeps_read _).bind fun dstMAC => ?_
  cases dstMAC with
  | none => exact keeps_fail _
  | some mac => exact keeps_sendFrame ch _

theorem keeps_ignoreError {x : NetProg Unit} (h : Keeps I x) : Keeps I (ignoreError x) := by
  refine keeps_iff.mpr fun s hs => ?_
  have hrun := keeps_iff.mp h s hs
  unfold ignoreError
  rcases hx : x s with ⟨e | a, s'⟩
  · rw [hx] at hrun
    exact hrun
  · rw [hx] at hrun
    exact hrun

theorem keeps_handleARP (srcMAC payload : Bytes) : Keeps (Accounts cfg fs) (handleARP cfg ch srcMAC payload) := by
  refine keeps_ite (keeps_fail _) ?_
  refine keeps_parsed_bind fun _ _ => keeps_parsed_bind fun _ _ => keeps_parsed_bind fun _ _ => ?_
  refine keeps_parsed_bind fun _ _ => keeps_parsed_bind fun _ _ => keeps_ite (keeps_pure _) ?_
  refine keeps_parsed_bind fun _ _ => keeps_parsed_bind fun _ _ => keeps_parsed_bind fun _ _ => ?_
  exact keeps_ite (keeps_pure _) (keeps_ite (keeps_sendFrame ch _) (keeps_pure _))

theorem keeps_handleICMP (h : IPv4Header) : Keeps (Accounts cfg fs) (handleICMP cfg ch h) := by
  refine keeps_ite (keeps_pure _)
    (keeps_parsed_bind fun _ _ => keeps_ite (keeps_pure _) (keeps_parsed_bind fun _ _ => ?_))
  refine keeps_ite (keeps_parsed_bind fun _ _ => keeps_parsed_bind fun _ _ => (keeps_read _).bind fun dstMAC => ?_)
    (keeps_pure _)
  cases dstMAC with
  | none => exact keeps_fail _
  | some mac => exact keeps_sendFrame ch _

theorem keeps_setConn {c : GuestConn} (h : RoleJustified cfg fs key c.role) :
    Keeps (Accounts cfg fs) (setConn key c) := by
  refine keeps_update fun s hs => ⟨forall_mem_cons.2 ⟨h, fun e he => ?_⟩, hs.dialing, hs.queries, hs.sockets⟩
  exact hs.conns e (mem_of_mem_filter he)

theorem keeps_removeConn (key : FourTuple) : Keeps (Accounts cfg fs) (removeConn key) :=
  keeps_update fun _ hs => ⟨fun e he => hs.conns e (mem_of_mem_filter he), hs.dialing, hs.queries, hs.sockets⟩

theorem keeps_established (h : RoleJustified cfg fs key role) : Keeps (Accounts cfg fs) (established key role) := by
  refine keeps_update fun s hs => ?_
  have hadd : Accounts cfg fs { s with dialing := s.dialing ++ [(key, role)] } :=
    ⟨hs.conns, forall_mem_append.2 ⟨hs.dialing, forall_mem_singleton.2 h⟩, hs.queries, hs.sockets⟩
  cases role with
  | service | outbound => exact hadd
  | listener | dialed => exact hs

theorem keeps_handleSegment (hdr : TcpHeader) {c : GuestConn} (h : RoleJustified cfg fs key c.role) :
    Keeps (Accounts cfg fs) (handleSegment cfg ch turns hdr key c) := by
  refine keeps_ite (keeps_pure _) ?_
  dsimp only
  split
  · refine keeps_ite (keeps_removeConn _) (keeps_ite (keeps_parsed_bind fun opts _ => ?_) (keeps_setConn h))
    exact Keeps.bind (keeps_setConn h) fun _ => keeps_ignoreError (keeps_sendTCP ch _ _ _ _ _ _ _)
  · refine keeps_ite (Keeps.bind (keeps_setConn h) fun _ => ?_) (keeps_setConn h)
    exact (keeps_established h).bind fun _ => keeps_ite (keeps_removeConn _) (keeps_pure _)
  · exact keeps_ite (keeps_removeConn _) (keeps_setConn h)
  · exact keeps_setConn h

variable {h : IPv4Header}

theorem keeps_openConn (hhost : cfg.hostAccessEnabled = false) (hmem : packet ∈ fs) {hdr : TcpHeader}
    (hb : BringsSegment cfg packet h hdr) (hsyn : hdr.has tcpFlagSYN = true) (opts : TcpOptions) :
    Keeps (Accounts cfg fs) (openConn cfg ch h hdr (hdr.key h) opts) := by
  unfold openConn
  split
  · exact keeps_sendTCP ch _ _ _ _ _ _ _
  · rename_i role localIPv4 hadmit
    refine Keeps.bind (keeps_setConn ?_) fun _ => keeps_ignoreError (keeps_sendTCP ch _ _ _ _ _ _ _)
    exact synAdmission_justified hhost ⟨packet, hmem, h, hdr, hb, hsyn, rfl, rfl⟩ hadmit

theorem lookup_mem {α β : Type} [BEq α] [LawfulBEq α] {l : List (α × β)} {a : α} {b : β}
    (h : l.lookup a = some b) : (a, b) ∈ l := by
  obtain ⟨l₁, l₂, heq, -⟩ := lookup_eq_some_iff.1 h
  rw [heq]
  exact mem_append_right _ mem_cons_self

theorem keeps_handleTCP (hhost : cfg.hostAccessEnabled = false) (hmem : packet ∈ fs)
    (hb : ∀ hdr, tcpChecksumOK cfg h = .ok true → parseTCPHeader h.payload = .ok hdr → BringsSegment cfg packet h hdr) :
    Keeps (Accounts cfg fs) (handleTCP cfg ch turns h) := by
  refine keeps_parsed_bind fun ok hok => keeps_ite' (fun _ => keeps_pure _) fun hnot =>
    keeps_parsed_bind fun hdr hparse => ?_
  have htrue : ok = true := by simpa using hnot
  have hsegment := hb hdr (htrue ▸ hok) hparse
  -- a connection in the table has a frame that accounts for its role
  refine Triple.bind (Q := fun found s => Accounts cfg fs s ∧ ∀ c, found = some c →
    RoleJustified cfg fs (hdr.key h) c.role)
    (triple_read fun s hs => ⟨hs, fun c hc => hs.conns _ (lookup_mem hc)⟩) fun found => ?_
  cases found with
  | some c => exact fun s hs => keeps_handleSegment ch turns hdr (hs.2 c rfl) s hs.1
  | none =>
    refine Triple.conseq (P := Accounts cfg fs) (Q := fun _ => Accounts cfg fs) (E := fun _ => Accounts cfg fs) ?_
      (fun _ hs => hs.1) (fun _ _ h => h) fun _ _ h => h
    refine keeps_ite' (fun _ => keeps_pure _) fun hsyn => keeps_parsed_bind fun opts _ => ?_
    exact keeps_openConn ch hhost hmem hsegment (by simpa using hsyn) opts

theorem keeps_handleUDP (hhost : cfg.hostAccessEnabled = false) (hmem : packet ∈ fs)
    (hb : ∀ u, parseUDP h.payload = .ok u → BringsDatagram cfg packet h.dst u.dstPort u.data) :
    Keeps (Accounts cfg fs) (handleUDP cfg ch h) := by
  refine keeps_parsed_bind fun u hu => keeps_parsed_bind fun ok _ => keeps_ite (keeps_pure _) ?_
  have hdatagram := hb u hu
  refine keeps_ite' (fun hservice => ?_) fun _ => ?_
  · have hdst : h.dst = cfg.serviceIPv4 := by simpa [shouldProxyService] using hservice
    refine keeps_ite' (fun _ => keeps_pure _) fun hallowed => ?_
    simp only [serviceProxyAllowed, hservice, hhost, Bool.true_and, Bool.false_or, Bool.or_eq_true, Bool.not_eq_true',
      decide_eq_false_iff_not, not_or, Bool.not_eq_false, not_not] at hallowed
    have hsocket (as) : Justified cfg fs as (.udp loopback u.dstPort) :=
      ⟨rfl, hallowed.1, hallowed.2, packet, hmem, u.data, hdst ▸ hdatagram⟩
    refine Keeps.bind ?_ fun _ => (keeps_require _ _).bind fun _ =>
      keeps_update fun _ hs => ⟨hs.conns, hs.dialing, hs.queries, hs.sockets⟩
    refine (keeps_read _).bind fun known => keeps_ite (keeps_pure _) ((keeps_require _ _).bind fun _ => ?_)
    refine keeps_update fun s hs => ⟨hs.conns, hs.dialing, hs.queries, forall_mem_append.2 ⟨hs.sockets, ?_⟩⟩
    exact forall_mem_singleton.2 (hsocket _)
  · refine keeps_ite' (fun hdns => ?_) fun _ =>
      keeps_ite (keeps_update fun _ hs => ⟨hs.conns, hs.dialing, hs.queries, hs.sockets⟩) (keeps_pure _)
    rw [Bool.and_eq_true, decide_eq_true_eq] at hdns
    refine keeps_update fun s hs => ⟨hs.conns, hs.dialing, forall_mem_append.2 ⟨hs.queries, ?_⟩, hs.sockets⟩
    exact forall_mem_singleton.2 ⟨packet, hmem, hdns.1, h.dst, hdns.2 ▸ hdatagram⟩

/-- A frame is accounted for by itself and the frames before it. -/
theorem keeps_deliverGuestPacket (hhost : cfg.hostAccessEnabled = false) (hmem : packet ∈ fs) :
    Keeps (Accounts cfg fs) (deliverGuestPacket cfg ch turns packet) := by
  refine keeps_ite' (fun _ => keeps_fail _) fun hlen => ?_
  have h14 : 14 ≤ packet.length := Nat.not_lt.1 hlen
  obtain ⟨etherType, htype⟩ : ∃ t, uint16At packet 12 = .ok t := (yields_uint16At (by omega)).ok
  refine keeps_iff.mpr fun s hs => ?_
  rw [handleEthernetFrame_run cfg ch turns h14 htype]
  refine keeps_iff.mp (keeps_parsed_bind fun v hv => ?_) s hs
  refine keeps_ite' (fun _ => ?_) fun hvalid => ?_
  · exact keeps_ite (keeps_update fun _ hs => ⟨hs.conns, hs.dialing, hs.queries, hs.sockets⟩) (keeps_pure _)
  rw [not_not.1 hvalid] at hv
  refine Keeps.bind (keeps_update fun s hs => ?_) fun _ => ?_
  · split
    · exact hs
    · exact ⟨hs.conns, hs.dialing, hs.queries, hs.sockets⟩
  refine keeps_ite' (fun _ => keeps_pure _) fun hl2 =>
    keeps_ite (keeps_handleARP ch _ _) (keeps_ite' (fun hipv4 => ?_) fun _ => ?_)
  · have haddressed : acceptsL2 cfg (packet.take 6) = true := by simpa using hl2
    rw [hipv4] at htype
    refine keeps_parsed_bind fun h hp => keeps_parsed_bind fun ok hok => keeps_ite' (fun _ => keeps_pure _)
      fun hnot => ?_
    have htrue : ok = true := by simpa using hnot
    subst htrue
    refine keeps_ite' (fun hudp => ?_) fun _ => keeps_ite' (fun htcp => ?_) fun _ =>
      keeps_ite (keeps_handleICMP ch h) (keeps_pure _)
    · exact keeps_handleUDP ch hhost hmem fun u hu => ⟨hv, haddressed, htype, h, u, hp, hudp, hu, rfl, rfl, rfl⟩
    · exact keeps_handleTCP ch turns hhost hmem fun hdr hck hparse =>
        ⟨hv, haddressed, htype, hp, hok, htcp, hck, hparse⟩
  · exact keeps_ite (keeps_sendFrame ch _) (keeps_pure _)

end Keep

/-! ## Foreign sources -/

/-- DHCP discovery: UDP from the address zero, port 68, to port 67. -/
def IsDhcpDiscovery (p : Bytes) : Prop :=
  field p 12 4 = ipv4Zero ∧ byteOf p 9 = .ok udpProtocolNumber ∧ ∃ verIHL, byteOf p 0 = .ok verIHL ∧
    uint16At (p.drop ((verIHL &&& 0x0f).toNat * 4)) 0 = .ok 68 ∧
    uint16At (p.drop ((verIHL &&& 0x0f).toNat * 4)) 2 = .ok 67

/-- An ARP probe for `ip`, sent from the address zero. -/
def IsAddressProbe (p ip : Bytes) : Prop := field p 14 4 = ipv4Zero ∧ field p 24 4 = ip

/-- The source MAC of the frame, or its IPv4 source or ARP sender, is not the guest's, and it is neither DHCP discovery
nor a probe for the guest's address. -/
def ForeignSource (cfg : StackConfig) (packet : Bytes) : Prop :=
  cfg.guestMAC ≠ some (field packet 6 6) ∨
  (uint16At packet 12 = .ok etherTypeIPv4 ∧ field (packet.drop 14) 12 4 ≠ cfg.guestIPv4 ∧
    ¬IsDhcpDiscovery (packet.drop 14)) ∨
  (uint16At packet 12 = .ok etherTypeARP ∧ field (packet.drop 14) 14 4 ≠ cfg.guestIPv4 ∧
    ¬IsAddressProbe (packet.drop 14) cfg.guestIPv4)

theorem bind_eq_ok {α β : Type} {x : Parse α} {f : α → Parse β} {b : β} (h : (x >>= f) = .ok b) :
    ∃ a, x = .ok a ∧ f a = .ok b := by
  cases x with
  | ok a => exact ⟨a, rfl, h⟩
  | error e => cases h

theorem sliceOf_ok {b x : Bytes} {lo hi : Nat} (h : sliceOf b lo hi = .ok x) : x = field b lo (hi - lo) := by
  rw [sliceOf, slice] at h
  split at h
  · exact (Except.ok.inj h).symm
  · cases h

theorem validateIPv4Source_valid {p ip : Bytes} (h : validateIPv4Source p ip = .ok .valid) :
    field p 12 4 = ip ∨ IsDhcpDiscovery p := by
  unfold validateIPv4Source at h
  split at h
  · cases h
  obtain ⟨verIHL, hver, h⟩ := bind_eq_ok h
  dsimp only at h
  split at h
  · cases h
  split at h
  · cases h
  rename_i hheader
  obtain ⟨src, hsrc, h⟩ := bind_eq_ok h
  rw [sliceOf_ok hsrc] at h
  split at h
  · rename_i hip
    exact .inl hip
  obtain ⟨protocol, hprotocol, h⟩ := bind_eq_ok h
  split at h
  · cases h
  rename_i hudp
  simp only [not_or, not_not] at hudp
  rw [sliceOf_rest (by omega)] at h
  obtain ⟨udp, hrest, h⟩ := bind_eq_ok h
  cases hrest
  obtain ⟨srcPort, hsrcPort, h⟩ := bind_eq_ok h
  obtain ⟨dstPort, hdstPort, h⟩ := bind_eq_ok h
  split at h
  · rename_i hports
    rw [hports.1] at hsrcPort
    rw [hports.2] at hdstPort
    rw [hudp.2.1] at hprotocol
    exact .inr ⟨hudp.1, hprotocol, verIHL, hver, hsrcPort, hdstPort⟩
  · cases h

theorem validateARPSource_valid {p mac ip : Bytes} (h : validateARPSource p mac ip = .ok .valid) :
    field p 14 4 = ip ∨ IsAddressProbe p ip := by
  unfold validateARPSource at h
  split at h
  · cases h
  obtain ⟨hwType, -, h⟩ := bind_eq_ok h
  obtain ⟨protoType, -, h⟩ := bind_eq_ok h
  obtain ⟨hwSize, -, h⟩ := bind_eq_ok h
  obtain ⟨protoSize, -, h⟩ := bind_eq_ok h
  split at h
  · cases h
  obtain ⟨senderMAC, -, h⟩ := bind_eq_ok h
  split at h
  · cases h
  obtain ⟨senderIP, hsender, h⟩ := bind_eq_ok h
  rw [sliceOf_ok hsender] at h
  split at h
  · rename_i hip
    exact .inl hip
  obtain ⟨targetIP, htarget, h⟩ := bind_eq_ok h
  rw [sliceOf_ok htarget] at h
  split at h
  · rename_i hprobe
    exact .inr hprobe
  · cases h

theorem ForeignSource.not_valid (h : ForeignSource cfg packet) :
    validateGuestSource packet cfg.guestMAC cfg.guestIPv4 ≠ .ok .valid := by
  intro hv
  unfold validateGuestSource at hv
  rcases hmac : cfg.guestMAC with - | mac
  · rw [hmac] at hv
    cases hv
  rw [hmac] at hv
  dsimp only at hv
  split at hv
  · cases hv
  rename_i hlen
  unfold ethernetHeaderLen at hlen hv
  obtain ⟨source, hsource, hv⟩ := bind_eq_ok hv
  rw [sliceOf_ok hsource] at hv
  split at hv
  · cases hv
  rename_i hsame
  obtain ⟨etherType, htype, hv⟩ := bind_eq_ok hv
  rw [sliceOf_rest (by omega)] at hv
  obtain ⟨p, hp, hv⟩ := bind_eq_ok hv
  cases hp
  rcases h with hother | ⟨hipv4, hip, hdhcp⟩ | ⟨harp, hip, hprobe⟩
  · rw [hmac] at hother
    exact hother (congrArg some (not_not.1 hsame).symm)
  · rw [htype] at hipv4
    cases hipv4
    rw [if_neg (by decide), if_pos rfl] at hv
    exact (validateIPv4Source_valid hv).elim hip hdhcp
  · rw [htype] at harp
    cases harp
    rw [if_pos rfl] at hv
    exact (validateARPSource_valid hv).elim hip hprobe

/-- A frame with a foreign source only counts. -/
theorem foreignSource_counts (ch : FrameChoice) (turns : Nat) (h : ForeignSource cfg packet) (s : NetStack) :
    ∃ counters, (deliverGuestPacket cfg ch turns packet s).2 = { s with sourceViolations := counters } := by
  unfold deliverGuestPacket
  split
  · exact ⟨s.sourceViolations, rfl⟩
  rename_i hlen
  have h14 : 14 ≤ packet.length := Nat.not_lt.1 hlen
  obtain ⟨etherType, htype⟩ : ∃ t, uint16At packet 12 = .ok t := (yields_uint16At (by omega)).ok
  rw [handleEthernetFrame_run cfg ch turns h14 htype]
  rcases hv : validateGuestSource packet cfg.guestMAC cfg.guestIPv4 with e | v
  · exact ⟨s.sourceViolations, rfl⟩
  have hne : v ≠ .valid := fun heq => h.not_valid (heq ▸ hv)
  rw [parsed_ok_bind, if_pos hne]
  split
  · exact ⟨_, rfl⟩
  · exact ⟨s.sourceViolations, rfl⟩

/-! ## Runs -/

theorem resolveDNSQuestion_lookup {targets : List Bytes} {q : DnsQuestion} (h : k ∈ resolveDNSQuestion cfg targets q) :
    cfg.allowInternet = true ∧ ∃ qtype name, k = .lookup qtype name ∧ ((qtype = q.qtype ∧ name = trimDot q.name) ∨
      (q.qtype = dnsTypeSRV ∧ (qtype = dnsTypeA ∨ qtype = dnsTypeAAAA) ∧ name ∈ targets)) := by
  unfold resolveDNSQuestion at h
  split at h
  · cases h
  rename_i hinternet
  refine ⟨by simpa using hinternet, ?_⟩
  split at h
  · exact ⟨_, _, mem_singleton.1 h, .inl ⟨rfl, rfl⟩⟩
  split at h
  · rename_i hsrv
    rcases mem_cons.1 h with rfl | h
    · exact ⟨_, _, rfl, .inl ⟨rfl, rfl⟩⟩
    · obtain ⟨name, hname, hk⟩ := mem_flatMap.1 h
      rcases mem_cons.1 hk with rfl | hk
      · exact ⟨_, _, rfl, .inr ⟨hsrv, .inl rfl, hname⟩⟩
      · exact ⟨_, _, mem_singleton.1 hk, .inr ⟨hsrv, .inr rfl, hname⟩⟩
  · cases h

theorem dnsLookups_lookup {targets : Nat → List Bytes} {query : Bytes} (h : k ∈ dnsLookups cfg targets query) :
    cfg.allowInternet = true ∧ ∃ qtype name, k = .lookup qtype name ∧ AsksFor query targets qtype name := by
  unfold dnsLookups at h
  split at h
  · cases h
  rename_i questions hquestions
  obtain ⟨⟨q, i⟩, hq, hk⟩ := mem_flatMap.1 h
  split at hk
  · cases hk
  rename_i hclass
  split at hk
  · cases hk
  obtain ⟨hinternet, qtype, name, hlookup, hasks⟩ := resolveDNSQuestion_lookup hk
  exact ⟨hinternet, qtype, name, hlookup, questions, i, q, hquestions, mem_zipIdx_iff_getElem?.1 hq,
    not_not.1 hclass, hasks⟩

theorem dialAddress_justified (h : RoleJustified cfg fs key role) (hk : k ∈ dialAddress key role) :
    Justified cfg fs s.answered k := by
  cases role with
  | service =>
    rw [mem_singleton.1 hk]
    exact .inl ⟨rfl, h⟩
  | outbound =>
    rw [mem_singleton.1 hk]
    exact .inr h
  | listener | dialed => cases hk

theorem step_accounts (hhost : cfg.hostAccessEnabled = false) (turns : Nat) (h : Accounts cfg fs s) (e : StackEvent) :
    Accounts cfg (fs ++ e.frames) (step cfg turns s e) := by
  have hquiet {t : NetStack} (ht : Accounts cfg fs t) : Accounts cfg (fs ++ []) t := (append_nil fs).symm ▸ ht
  cases e with
  | frame ch packet =>
    have hsub : Accounts cfg (fs ++ [packet]) s := h.mono (subset_append_left _ _)
    exact keeps_iff.mp (keeps_deliverGuestPacket ch turns hhost (mem_append_right _ mem_cons_self)) s hsub
  | dial i =>
    refine hquiet ?_
    rw [step]
    rcases hd : s.dialing[i]? with - | ⟨key, role⟩
    · exact h
    have hrole := h.dialing _ (mem_of_getElem? hd)
    exact ⟨h.conns, fun e he => h.dialing e (mem_of_mem_eraseIdx he), h.queries,
      forall_mem_append.2 ⟨h.sockets, fun k hk => dialAddress_justified hrole hk⟩⟩
  | close key => exact hquiet ⟨fun e he => h.conns e (mem_of_mem_filter he), h.dialing, h.queries, h.sockets⟩
  | expire key => exact hquiet ⟨h.conns, h.dialing, h.queries, h.sockets⟩
  | dns targets =>
    refine hquiet ?_
    rw [step]
    rcases hq : s.dnsQueue with - | ⟨query, rest⟩
    · exact h
    obtain ⟨hquery, hrest⟩ := forall_mem_cons.1 (hq ▸ h.queries)
    refine ⟨h.conns, h.dialing, hrest, forall_mem_append.2 ⟨fun k hk => ?_, fun k hk => ?_⟩⟩
    · exact (h.sockets k hk).mono (Subset.refl _) (subset_append_left _ _)
    · obtain ⟨hinternet, qtype, name, rfl, hasks⟩ := dnsLookups_lookup hk
      exact ⟨hinternet, _, mem_append_right _ mem_cons_self, hasks, hquery⟩
  | dialInternal key initialSeq =>
    refine hquiet ⟨forall_mem_cons.2 ⟨trivial, fun e he => ?_⟩, h.dialing, h.queries, h.sockets⟩
    exact h.conns e (mem_of_mem_filter he)

theorem run_accounts (hhost : cfg.hostAccessEnabled = false) (turns : Nat) (es : List StackEvent)
    (h : Accounts cfg fs s) :
    Accounts cfg (fs ++ es.flatMap StackEvent.frames) (runFrom (step cfg turns) s es) := by
  induction es generalizing fs s with
  | nil =>
    rw [flatMap_nil, append_nil]
    exact h
  | cons e es ih =>
    rw [flatMap_cons, ← append_assoc]
    exact ih (step_accounts hhost turns h e)

theorem hostSockets_justified (cfg : StackConfig) (hhost : cfg.hostAccessEnabled = false) (turns : Nat)
    (es : List StackEvent) :
    (∀ k ∈ (runFrom (step cfg turns) {} es).sockets,
      Justified cfg (es.flatMap StackEvent.frames) (runFrom (step cfg turns) {} es).answered k) ∧
    (cfg.allowInternet = false → ∀ k ∈ (runFrom (step cfg turns) {} es).sockets,
      ∃ port, k = .tcp loopback port ∨ k = .udp loopback port) ∧
    ∀ ch packet, ForeignSource cfg packet → ∃ counters,
      step cfg turns (runFrom (step cfg turns) {} es) (.frame ch packet) =
        { runFrom (step cfg turns) {} es with sourceViolations := counters } := by
  have hempty : Accounts cfg [] {} := ⟨nofun, nofun, nofun, nofun⟩
  have hrun := run_accounts hhost turns es hempty
  rw [nil_append] at hrun
  refine ⟨hrun.sockets, fun hoff k hk => ?_, fun ch packet hforeign => foreignSource_counts ch turns hforeign _⟩
  have hjust := hrun.sockets k hk
  cases k with
  | tcp ip port =>
    rcases hjust with ⟨rfl, -⟩ | ⟨hon, -⟩
    · exact ⟨port, .inl rfl⟩
    · rw [hoff] at hon
      cases hon
  | udp ip port =>
    obtain ⟨rfl, -⟩ := hjust
    exact ⟨port, .inr rfl⟩
  | lookup qtype name =>
    rw [hjust.1] at hoff
    cases hoff

/-! ## A guest -/

/-- Host access is disabled, port 67 of the service address is allowed, and the DNS server runs. -/
def guardedConfig : StackConfig :=
  { defaultConfig with hostAccessEnabled := false, serviceProxyPorts := [67], dnsServer := true }

/-- A datagram from `src` to `dst`, from port `srcPort` to `dstPort`. -/
def datagramFrame (src dst : Bytes) (srcPort dstPort : Nat) (data : Bytes) : Bytes :=
  guestIPv4Frame src dst udpProtocolNumber
    (bytesBE 2 srcPort ++ bytesBE 2 dstPort ++ bytesBE 2 (8 + data.length) ++ [0, 0] ++ data)

/-- A question for the address of `a`. -/
def questionFrame : Bytes :=
  datagramFrame [10, 42, 0, 2] [10, 42, 0, 1] 5000 53
    ([0, 1, 1, 0, 0, 1, 0, 0, 0, 0, 0, 0] ++ [1, 97, 0] ++ [0, 1, 0, 1])

/-- The acknowledgement that completes the handshake of `synFrame`. -/
def ackFrame : Bytes :=
  guestIPv4Frame [10, 42, 0, 2] [93, 184, 216, 34] tcpProtocolNumber (guestSegment 80 2 1 tcpFlagACK [])

/-- A connection to the internet, a datagram to the service address, and a question. -/
def hostRun : List StackEvent :=
  [.frame {} (synFrame []), .frame {} ackFrame, .dial 0,
    .frame {} (datagramFrame [10, 42, 0, 2] [10, 42, 0, 100] 5000 67 [1]), .frame {} questionFrame, .dns fun _ => []]

theorem hostSockets_justified_hostRun :
    (runFrom (step guardedConfig 10) {} hostRun).sockets =
      [.tcp [93, 184, 216, 34] 80, .udp loopback 67, .lookup dnsTypeA [97]] ∧
    ∀ k ∈ (runFrom (step guardedConfig 10) {} hostRun).sockets,
      Justified guardedConfig (hostRun.flatMap StackEvent.frames)
        (runFrom (step guardedConfig 10) {} hostRun).answered k :=
  ⟨by decide +kernel, (hostSockets_justified guardedConfig rfl 10 hostRun).1⟩

/-- A frame from the address zero, which is not the guest's, opens a socket; and a DNS question makes the stack ask the
host's resolver, which is neither of the two kinds of sockets. -/
theorem zeroSource_and_lookup :
    (runFrom (step guardedConfig 10) {} [.frame {} (datagramFrame ipv4Zero [10, 42, 0, 100] 68 67 [1])]).sockets =
      [.udp loopback 67] ∧
    (runFrom (step guardedConfig 10) {} [.frame {} questionFrame, .dns fun _ => []]).sockets =
      [.lookup dnsTypeA [97]] := by
  decide +kernel

end CrumbleCracker.Netstack.Frames
