import CrumbleCracker.Virtio.VsockReuse

/-!
# Vsock byte streams

What the guest receives on a connection is what the backend's reads returned, cut into packets that fit its buffer and
delivered when there are receive buffers. `wire` is everything that was delivered or waits to be: the receive ring only
moves the mark between the two, so it is the packets' order in the queue that counts.
-/

namespace CrumbleCracker.Virtio

open List Function Option

/-! ## What the guest reads -/

def Delivery.op (d : Delivery) : Option VsockOp := (parseVsockHeader d.data).bind fun hdr => VsockOp.ofCode hdr.op

def Delivery.payload (d : Delivery) : Bytes := d.data.drop vsockHeaderSize

def Delivery.Ends (d : Delivery) : Prop := d.op = some .shutdown ∨ d.op = some .rst

/-- The bytes the guest receives on connection `b`, in order. -/
def received (b : Nat) (ds : List Delivery) : Bytes :=
  (ds.filter fun d => d.on = some b ∧ d.op = some .rw).flatMap Delivery.payload

theorem received_append (b : Nat) (ds es : List Delivery) : received b (ds ++ es) = received b ds ++ received b es := by
  simp [received]

theorem received_mono (b : Nat) {ds es : List Delivery} (h : ds <+: es) : received b ds <+: received b es := by
  obtain ⟨rest, rfl⟩ := h
  rw [received_append]
  exact prefix_append _ _

theorem received_singleton (b : Nat) (d : Delivery) :
    received b [d] = if d.on = some b ∧ d.op = some .rw then d.payload else [] := by
  unfold received
  split <;> simp_all

theorem received_eq_nil {b : Nat} {ds : List Delivery} (h : ∀ d ∈ ds, d.on ≠ some b) : received b ds = [] := by
  have hfilter : ds.filter (fun d => d.on = some b ∧ d.op = some .rw) = [] := by
    rw [filter_eq_nil_iff]
    intro d hd hon
    simp only [decide_eq_true_eq] at hon
    exact h d hd hon.1
  rw [received, hfilter]
  rfl

theorem VsockOp.ofCode_code (op : VsockOp) : VsockOp.ofCode op.code = some op := by
  cases op <;> rfl

namespace Vsock

variable {M : Type} (G : GuestMemory M)

@[simp] theorem delivery_op (v : Vsock M) (p : RxPacket) : (v.delivery p p.bytes).op = VsockOp.ofCode p.hdr.op := by
  simp [Delivery.op, delivery, RxPacket.bytes, parseVsockHeader_encode]

@[simp] theorem delivery_payload (v : Vsock M) (p : RxPacket) : (v.delivery p p.bytes).payload = p.payload := by
  have hlen := length_encodeVsockHeader p.hdr
  simp [Delivery.payload, delivery, RxPacket.bytes, ← hlen]

@[simp] theorem delivery_on (v : Vsock M) (p : RxPacket) : (v.delivery p p.bytes).on = v.accepted p.key := rfl

def waiting (v : Vsock M) : List Delivery := v.pendingRx.map fun p => v.delivery p p.bytes

/-- What was delivered, and what will be while the memory is attached. -/
def wire (v : Vsock M) : List Delivery := v.delivered ++ if v.mem.isSome then v.waiting else []

theorem delivered_prefix_wire (v : Vsock M) : v.delivered <+: v.wire := prefix_append _ _

theorem wire_queueRxPacket (v : Vsock M) (p : RxPacket) :
    (v.queueRxPacket p).wire = v.wire ++ if v.mem.isSome then [v.delivery p p.bytes] else [] := by
  unfold wire
  show v.delivered ++ (if v.mem.isSome then (v.queueRxPacket p).waiting else []) = _
  split
  · simp [waiting, queueRxPacket, delivery]
  · simp

variable {p : RxPacket}

theorem mem_wire_queueRxPacket {v : Vsock M} {d : Delivery} (hd : d ∈ (v.queueRxPacket p).wire) :
    d ∈ v.wire ∨ d = v.delivery p p.bytes := by
  rw [wire_queueRxPacket] at hd
  rcases mem_append.1 hd with h | h
  · exact .inl h
  · split at h
    · exact .inr (mem_singleton.1 h)
    · cases h

theorem delivery_not_ends (v : Vsock M) {op : VsockOp} (hop : VsockOp.ofCode p.hdr.op = some op)
    (hmild : op ≠ .shutdown ∧ op ≠ .rst) : ¬ (v.delivery p p.bytes).Ends := by
  rw [Delivery.Ends, delivery_op, hop, some_inj, some_inj]
  exact fun h => h.elim hmild.1 hmild.2

structure Streams (v : Vsock M) : Prop where
  /-- Connections have the numbers of their readers. -/
  known : ∀ d ∈ v.wire, ∀ j, d.on = some j → j < v.readers.length
  accepted : ∀ k j, v.accepted k = some j → ∃ r : Reader, v.readers[j]? = some r ∧ r.key = k
  /-- The device starts no connection itself. -/
  settled : ∀ k c, v.connections k = some c → c.state ≠ .connecting
  isPrefix : ∀ (b : Nat) (r : Reader), v.readers[b]? = some r → received b v.wire <+: r.got
  /-- Of an open connection, all that was read is on the wire or about to be sent. -/
  exact : v.mem.isSome → ∀ (b : Nat) (r : Reader) (c : VsockConnection), v.readers[b]? = some r →
    v.connections r.key = some c → c.backend = b → c.state = .connected → received b v.wire ++ r.pc.unsent = r.got
  /-- No data follows the end of a connection. -/
  ordered : ∀ b : Nat, (v.wire.filter fun d => d.on = some b).Pairwise fun d₁ d₂ => d₁.Ends → d₂.op ≠ some .rw
  /-- An open connection with a running reader has not ended. -/
  unended : ∀ (b : Nat) (r : Reader) (c : VsockConnection), v.readers[b]? = some r → r.pc ≠ .done →
    v.connections r.key = some c → c.state = .connected → ∀ d ∈ v.wire, d.on = some b → ¬ d.Ends

variable {v : Vsock M}

theorem narrower_opened {t t₀ : VsockConnKey → Option VsockConnection} (ht : Narrower t t₀) {k : VsockConnKey}
    {c' : VsockConnection} (h : t k = some c') (hopen : c'.state = .connected) :
    ∃ c, t₀ k = some c ∧ c'.backend = c.backend ∧ c.state = .connected := by
  obtain ⟨c, hc, -, hbackend, hstate | hstate⟩ := ht k c' h
  · exact ⟨c, hc, hbackend, hstate.symm.trans hopen⟩
  · rw [hstate] at hopen
    cases hopen

section Kept

variable (hs : v.Streams)

include hs

theorem Streams.narrow {t : VsockConnKey → Option VsockConnection} (ht : Narrower t v.connections) :
    Streams { v with connections := t } := by
  refine ⟨hs.known, hs.accepted, ?_, hs.isPrefix, ?_, hs.ordered, ?_⟩
  · intro k c' h
    obtain ⟨c, hc, -, -, hstate⟩ := ht k c' h
    rcases hstate with h | h
    · exact h ▸ hs.settled k c hc
    · rw [h]
      exact VsockConnState.noConfusion
  · intro hmem b r c' hr h hb hopen
    obtain ⟨c, hc, hbackend, hopen⟩ := narrower_opened ht h hopen
    exact hs.exact hmem b r c hr hc (hbackend.symm.trans hb) hopen
  · intro b r c' hr hlive h hopen
    obtain ⟨c, hc, -, hopen⟩ := narrower_opened ht h hopen
    exact hs.unended b r c hr hlive hc hopen

theorem Streams.setConnection {k : VsockConnKey} {c c' : VsockConnection} (hc : v.connections k = some c)
    (hkey : c'.key = c.key) (hbackend : c'.backend = c.backend) (hstate : c'.state = c.state ∨ c'.state = .closing) :
    (v.setConnection k (some c')).Streams :=
  hs.narrow (narrower_set hc hkey hbackend hstate)

theorem Streams.remove (k : VsockConnKey) : (v.setConnection k none).Streams :=
  hs.narrow (narrower_remove _ _)

/-- Data may not follow a packet that ends its connection. -/
theorem Streams.ordered_queue {b : Nat}
    (h : ∀ d ∈ v.wire, d.on = some b → v.accepted p.key = some b → d.Ends → VsockOp.ofCode p.hdr.op ≠ some .rw) :
    ((v.queueRxPacket p).wire.filter fun d => d.on = some b).Pairwise fun d₁ d₂ => d₁.Ends → d₂.op ≠ some .rw := by
  rw [wire_queueRxPacket, filter_append, pairwise_append]
  refine ⟨hs.ordered b, ?_, fun d₁ hd₁ d₂ hd₂ hends => ?_⟩
  · split
    · exact List.Pairwise.filter _ (pairwise_singleton _ _)
    · exact List.Pairwise.nil
  · obtain ⟨hd₁, hon₁⟩ := mem_filter.1 hd₁
    obtain ⟨hd₂, hon₂⟩ := mem_filter.1 hd₂
    split at hd₂
    · obtain rfl := mem_singleton.1 hd₂
      rw [delivery_op]
      exact h d₁ hd₁ (of_decide_eq_true hon₁) (of_decide_eq_true hon₂) hends
    · cases hd₂

/-- A packet without data may be queued at any time, one that ends its connection only when no running reader has it
open. -/
theorem Streams.queue (hdata : VsockOp.ofCode p.hdr.op ≠ some .rw)
    (hend : (v.delivery p p.bytes).Ends → ∀ r ∈ v.readers, r.key = p.key → r.pc ≠ .done →
      ∀ c, v.connections p.key = some c → c.state ≠ .connected) :
    (v.queueRxPacket p).Streams := by
  have hreceived : ∀ b, received b (v.queueRxPacket p).wire = received b v.wire := by
    intro b
    rw [wire_queueRxPacket, received_append]
    split
    · simp [received_singleton, hdata]
    · simp [received]
  refine ⟨?_, hs.accepted, hs.settled, ?_, ?_, fun b => hs.ordered_queue fun _ _ _ _ _ => hdata, ?_⟩
  · intro d hd j hj
    rcases mem_wire_queueRxPacket hd with h | rfl
    · exact hs.known d h j hj
    · obtain ⟨r, hr, -⟩ := hs.accepted _ j hj
      exact (List.getElem?_eq_some_iff.1 hr).1
  · intro b r hr
    rw [hreceived]
    exact hs.isPrefix b r hr
  · intro hsome b r c hr hc hb hopen
    rw [hreceived]
    exact hs.exact hsome b r c hr hc hb hopen
  · intro b r c hr hlive hc hopen d hd hon hends
    rcases mem_wire_queueRxPacket hd with h | rfl
    · exact hs.unended b r c hr hlive hc hopen d h hon hends
    · -- the packet is on the reader's connection, so on its ports
      obtain ⟨r', hr', hkey⟩ := hs.accepted _ b hon
      obtain rfl := some.inj (hr.symm.trans hr')
      exact hend hends r (mem_of_getElem? hr) hkey hlive c (hkey ▸ hc) hopen

theorem Streams.queueMild {op : VsockOp} (hop : VsockOp.ofCode p.hdr.op = some op)
    (hmild : op ≠ .rw ∧ op ≠ .shutdown ∧ op ≠ .rst) : (v.queueRxPacket p).Streams :=
  hs.queue (fun h => hmild.1 (some.inj (hop.symm.trans h))) fun h => absurd h (v.delivery_not_ends hop hmild.2)

variable {hdr : VsockHeader}

theorem Streams.sendReset
    (hclosed : ∀ r ∈ v.readers, r.key = hdr.key → r.pc ≠ .done → ∀ c, v.connections hdr.key = some c →
      c.state ≠ .connected) :
    (v.sendReset hdr).Streams :=
  hs.queue (show VsockOp.ofCode VsockOp.rst.code ≠ some .rw by decide) fun _ => hclosed

theorem Streams.sendCreditUpdate (c : VsockConnection) : (v.sendCreditUpdate c).Streams :=
  hs.queueMild (VsockOp.ofCode_code .creditUpdate) (by decide)

/-! ## Readers -/

/-- Every reader of `rs'` has got further than the one of `rs` at its place only by what it has left to send. -/
structure Progress (rs' rs : List Reader) : Prop where
  length_eq : rs'.length = rs.length
  of_getElem? : ∀ (i : Nat) (r' : Reader), rs'[i]? = some r' → ∃ (r : Reader) (x : Bytes), rs[i]? = some r ∧
    r'.key = r.key ∧ (r.pc = .done → r'.pc = .done) ∧ r'.got = r.got ++ x ∧ r'.pc.unsent = r.pc.unsent ++ x

omit hs in
theorem progress_wake (rs : List Reader) : Progress (rs.map wake) rs := by
  refine ⟨length_map _, ?_⟩
  intro i r' h
  rw [getElem?_map] at h
  obtain ⟨r, hr, rfl⟩ := map_eq_some_iff.1 h
  refine ⟨r, [], hr, ?_⟩
  unfold wake
  split
  · rename_i hpc
    simp [hpc, ReaderPC.unsent]
  · simp

variable {i : Nat}

omit hs in
theorem progress_modify {rs : List Reader} {f : Reader → Reader}
    (hf : ∀ r, (f r).key = r.key ∧ (r.pc = .done → (f r).pc = .done) ∧
      ∃ x, (f r).got = r.got ++ x ∧ (f r).pc.unsent = r.pc.unsent ++ x) : Progress (rs.modify i f) rs := by
  refine ⟨length_modify _ _ _, ?_⟩
  intro j r' h
  rw [getElem?_modify] at h
  obtain ⟨r, hr, hr'⟩ := map_eq_some_iff.1 h
  split at hr'
  · subst hr'
    obtain ⟨hkey, hdone, x, hgot, hunsent⟩ := hf r
    exact ⟨r, x, hr, hkey, hdone, hgot, hunsent⟩
  · subst hr'
    exact ⟨r, [], hr, rfl, id, by simp, by simp⟩

omit hs in
theorem progress_readReturns (rs : List Reader) (i : Nat) (result : Option Bytes) :
    Progress (rs.modify i (readReturns result)) rs := by
  apply progress_modify
  intro r
  refine ⟨(readReturns_done result r).1, (readReturns_done result r).2, ?_⟩
  unfold readReturns
  split
  · rename_i hpc
    exact ⟨[], by simp, by simp [hpc, ReaderPC.unsent]⟩
  · rename_i data hpc
    refine ⟨data.take readBufSize, rfl, ?_⟩
    dsimp only
    split
    · rename_i hnil
      simp [hpc, ReaderPC.unsent, hnil]
    · simp [hpc, ReaderPC.unsent]
  · exact ⟨[], by simp, by simp⟩

omit hs in
theorem progress_readerStops (rs : List Reader) (i : Nat) : Progress (rs.modify i readerStops) rs := by
  apply progress_modify
  intro r
  refine ⟨(readerStops_done r).1, (readerStops_done r).2, [], ?_⟩
  unfold readerStops
  split
  · rename_i hpc
    simp [hpc, ReaderPC.unsent]
  · rename_i hpc
    simp [hpc, ReaderPC.unsent]
  · simp

theorem Streams.readers {rs : List Reader} (hrs : Progress rs v.readers) : Streams { v with readers := rs } := by
  refine ⟨?_, ?_, hs.settled, ?_, ?_, hs.ordered, ?_⟩
  · intro d hd j hj
    show j < rs.length
    rw [hrs.length_eq]
    exact hs.known d hd j hj
  · intro k j hj
    obtain ⟨r, hr, hkey⟩ := hs.accepted k j hj
    have hlt : j < rs.length := by
      rw [hrs.length_eq]
      exact (List.getElem?_eq_some_iff.1 hr).1
    obtain ⟨r', x, hr', hkey', -⟩ := hrs.of_getElem? j _ (getElem?_eq_getElem hlt)
    obtain rfl := some.inj (hr.symm.trans hr')
    exact ⟨_, getElem?_eq_getElem hlt, hkey'.trans hkey⟩
  · intro b r' hr'
    obtain ⟨r, x, hr, -, -, hgot, -⟩ := hrs.of_getElem? b r' hr'
    rw [hgot]
    exact (hs.isPrefix b r hr).trans (prefix_append _ _)
  · intro hsome b r' c hr' hc hb hopen
    obtain ⟨r, x, hr, hkey, -, hgot, hunsent⟩ := hrs.of_getElem? b r' hr'
    rw [hkey] at hc
    rw [hgot, hunsent, ← append_assoc]
    exact congrArg (· ++ x) (hs.exact hsome b r c hr hc hb hopen)
  · intro b r' c hr' hlive hc hopen
    obtain ⟨r, x, hr, hkey, hdone, -⟩ := hrs.of_getElem? b r' hr'
    rw [hkey] at hc
    exact hs.unended b r c hr (fun h => hlive (hdone h)) hc hopen

theorem Streams.broadcast : v.broadcast.Streams := hs.readers (progress_wake _)

variable {r : Reader} {pc : ReaderPC}

omit hs in
theorem setPc_cases (hr : v.readers[i]? = some r) {b : Nat} {r' : Reader} (h : (v.setPc i pc).readers[b]? = some r') :
    b = i ∧ r' = { r with pc := pc } ∨ b ≠ i ∧ v.readers[b]? = some r' := by
  rw [Vsock.setPc, getElem?_modify] at h
  obtain ⟨r₀, hr₀, hr'⟩ := map_eq_some_iff.1 h
  split at hr'
  · rename_i hi
    subst hi hr'
    obtain rfl := some.inj (hr.symm.trans hr₀)
    exact .inl ⟨rfl, rfl⟩
  · rename_i hi
    exact .inr ⟨fun h => hi h.symm, hr' ▸ hr₀⟩

omit hs in
theorem length_setPc (v : Vsock M) (i : Nat) (pc : ReaderPC) : (v.setPc i pc).readers.length = v.readers.length :=
  length_modify _ _ _

theorem Streams.accepted_setPc (i : Nat) (pc : ReaderPC) (k : VsockConnKey) (j : Nat) (hj : v.accepted k = some j) :
    ∃ r : Reader, (v.setPc i pc).readers[j]? = some r ∧ r.key = k := by
  obtain ⟨r₀, hr₀, hkey⟩ := hs.accepted k j hj
  refine ⟨if i = j then { r₀ with pc := pc } else r₀, ?_, ?_⟩
  · show (v.readers.modify i _)[j]? = _
    rw [getElem?_modify, hr₀]
    split <;> rfl
  · split
    · exact hkey
    · exact hkey

theorem Streams.setPc (hr : v.readers[i]? = some r) (hlive : r.pc ≠ .done) (pc : ReaderPC)
    (hexact : v.mem.isSome → ∀ c, v.connections r.key = some c → c.backend = i → c.state = .connected →
      received i v.wire ++ pc.unsent = r.got) :
    (v.setPc i pc).Streams := by
  refine ⟨?_, hs.accepted_setPc i pc, hs.settled, ?_, ?_, hs.ordered, ?_⟩
  · intro d hd j hj
    rw [length_setPc]
    exact hs.known d hd j hj
  · intro b r' hr'
    rcases setPc_cases hr hr' with ⟨rfl, rfl⟩ | ⟨-, h⟩
    · exact hs.isPrefix b r hr
    · exact hs.isPrefix b r' h
  · intro hsome b r' c hr' hc hb hopen
    rcases setPc_cases hr hr' with ⟨rfl, rfl⟩ | ⟨-, h⟩
    · exact hexact hsome c hc hb hopen
    · exact hs.exact hsome b r' c h hc hb hopen
  · intro b r' c hr' hlive' hc hopen
    rcases setPc_cases hr hr' with ⟨rfl, rfl⟩ | ⟨-, h⟩
    · exact hs.unended b r c hr hlive hc hopen
    · exact hs.unended b r' c h hlive' hc hopen

/-- The reader of an open connection puts the next bytes it has left on the wire. -/
theorem Streams.queueData (hr : v.readers[i]? = some r) (hlive : r.pc ≠ .done) {c : VsockConnection}
    (hc : v.connections r.key = some c) (hb : c.backend = i) (hopen : c.state = .connected)
    (hop : VsockOp.ofCode p.hdr.op = some .rw) (hon : v.accepted p.key = some i)
    (hunsent : p.payload ++ pc.unsent = r.pc.unsent) : ((v.queueRxPacket p).setPc i pc).Streams := by
  have hwire : ((v.queueRxPacket p).setPc i pc).wire = v.wire ++ if v.mem.isSome then [v.delivery p p.bytes] else [] :=
    wire_queueRxPacket v p
  have hr' : (v.queueRxPacket p).readers[i]? = some r := hr
  have hown : v.mem.isSome → received i ((v.queueRxPacket p).setPc i pc).wire = received i v.wire ++ p.payload := by
    intro hsome
    rw [hwire, received_append, if_pos hsome, received_singleton, delivery_on, delivery_op, delivery_payload,
      if_pos ⟨hon, hop⟩]
  have hother : ∀ b, b ≠ i → received b ((v.queueRxPacket p).setPc i pc).wire = received b v.wire := by
    intro b hbi
    rw [hwire, received_append]
    split
    · rw [received_singleton, delivery_on, hon, if_neg fun h => hbi (some.inj h.1).symm, append_nil]
    · exact append_nil _
  refine ⟨?_, hs.accepted_setPc i pc, hs.settled, ?_, ?_, fun b => hs.ordered_queue ?_, ?_⟩
  · intro d hd j hj
    rw [length_setPc]
    rcases mem_wire_queueRxPacket (v := v) (p := p) hd with h | rfl
    · exact hs.known d h j hj
    · rw [delivery_on, hon] at hj
      obtain rfl := some.inj hj
      exact (List.getElem?_eq_some_iff.1 hr).1
  · intro b r₁ hr₁
    rcases setPc_cases hr' hr₁ with ⟨rfl, rfl⟩ | ⟨hbi, h⟩
    · by_cases hsome : v.mem.isSome
      · rw [hown hsome, ← hs.exact hsome b r c hr hc hb hopen, ← hunsent, ← append_assoc]
        exact prefix_append _ _
      · rw [hwire, if_neg hsome, append_nil]
        exact hs.isPrefix b r hr
    · rw [hother b hbi]
      exact hs.isPrefix b r₁ h
  · intro hsome b r₁ c₁ hr₁ hc₁ hb₁ hopen₁
    rcases setPc_cases hr' hr₁ with ⟨rfl, rfl⟩ | ⟨hbi, h⟩
    · rw [hown hsome, append_assoc]
      exact hunsent ▸ hs.exact hsome b r c hr hc hb hopen
    · rw [hother b hbi]
      exact hs.exact hsome b r₁ c₁ h hc₁ hb₁ hopen₁
  · -- the connection has not ended, so nothing before the new data ends it
    intro d hd hond honp hends
    obtain rfl := some.inj (hon.symm.trans honp)
    exact absurd hends (hs.unended i r c hr hlive hc hopen d hd hond)
  · intro b r₁ c₁ hr₁ hlive₁ hc₁ hopen₁ d hd hon₁
    rcases mem_wire_queueRxPacket (v := v) (p := p) hd with h | rfl
    · rcases setPc_cases hr' hr₁ with ⟨rfl, rfl⟩ | ⟨-, h₁⟩
      · exact hs.unended b r c₁ hr hlive hc₁ hopen₁ d h hon₁
      · exact hs.unended b r₁ c₁ h₁ hlive₁ hc₁ hopen₁ d h hon₁
    · exact v.delivery_not_ends hop (by decide)

/-! ## The receive ring -/

omit hs in
theorem wire_flush (v : Vsock M) {k : Nat} (rx : Queue) {m : Option M} (hnone : v.mem = none → k = 0)
    (hm : m.isSome = v.mem.isSome) : wire { v with
        rx := rx, mem := m, pendingRx := v.pendingRx.drop k
        delivered := v.delivered ++ (v.pendingRx.take k).map fun p => v.delivery p p.bytes } = v.wire := by
  unfold wire
  simp only [hm]
  split
  · rw [append_assoc]
    congr 1
    show _ ++ (v.pendingRx.drop k).map (fun p => v.delivery p p.bytes) = v.waiting
    rw [waiting, ← map_append, take_append_drop]
  · rename_i h
    have hk := hnone (by simpa using h)
    simp [hk]

theorem Streams.flush {k : Nat} (rx : Queue) {m : Option M} (hnone : v.mem = none → k = 0)
    (hm : m.isSome = v.mem.isSome) :
    Streams { v with
        rx := rx, mem := m, pendingRx := v.pendingRx.drop k
        delivered := v.delivered ++ (v.pendingRx.take k).map fun p => v.delivery p p.bytes } := by
  have hwire := wire_flush v rx hnone hm
  refine ⟨?_, hs.accepted, hs.settled, ?_, ?_, ?_, ?_⟩
  · rw [hwire]
    exact hs.known
  · rw [hwire]
    exact hs.isPrefix
  · rw [hwire]
    exact fun hsome => hs.exact (hm ▸ hsome)
  · rw [hwire]
    exact hs.ordered
  · rw [hwire]
    exact hs.unended

omit hs in
/-- A lock section ends with the receive ring, after which its reader moves on. -/
theorem Streams.processRX_setPc (hs : (v.setPc i pc).Streams) (hidx : v.rx.IndexWritable G) :
    ((v.processRX G).setPc i pc).Streams := by
  obtain ⟨k, j, rx, m, hj, hnone, hm, heq⟩ := processRX_eq G v
  obtain rfl := hj hidx
  rw [heq]
  exact hs.flush rx hnone hm

theorem Streams.processRX (hidx : v.rx.IndexWritable G) : (v.processRX G).Streams := by
  obtain ⟨k, j, rx, m, hj, hnone, hm, heq⟩ := processRX_eq G v
  obtain rfl := hj hidx
  rw [heq]
  exact hs.flush rx hnone hm

/-! ## Packets of the guest -/

/-- A guest that leaves the streams of its connections alone: it connects on unused ports, and sends a response, which
it never owes the device, on no ports with a running reader. -/
def StreamFair (v : Vsock M) (hdr : VsockHeader) : Prop :=
  FreshPorts v hdr ∧ (VsockOp.ofCode hdr.op = some .response → ∀ r ∈ v.readers, r.key = hdr.key → r.pc = .done)
deriving Decidable

/-- The device with a new connection, before it answers the request. -/
def accept (hdr : VsockHeader) (v : Vsock M) : Vsock M :=
  { v.setConnection hdr.key
      (some { key := hdr.key, state := .connected, peerAlloc := hdr.bufAlloc, peerCnt := hdr.fwdCnt
              backend := v.readers.length }) with
    readers := v.readers ++ [{ key := hdr.key }]
    accepted := update v.accepted hdr.key (some v.readers.length) }

omit hs in
/-- The packets that wait are for other ports, so they stay with their connections. -/
theorem wire_accept (hpending : ∀ p ∈ v.pendingRx, p.key ≠ hdr.key) : (v.accept hdr).wire = v.wire := by
  have hwaiting : (v.accept hdr).waiting = v.waiting := by
    apply map_congr_left
    intro p hp
    show Delivery.mk _ _ (update v.accepted hdr.key _ p.key) = _
    rw [update_of_ne (hpending p hp)]
    rfl
  unfold wire
  rw [hwaiting]
  rfl

theorem Streams.accept (hfresh : v.Unused hdr.key) : (v.accept hdr).Streams := by
  obtain ⟨hreaders, hpending⟩ := hfresh
  have hwire := wire_accept hpending
  have hnew : ∀ d ∈ v.wire, d.on ≠ some v.readers.length := fun d hd hon => absurd (hs.known d hd _ hon) (by omega)
  -- a reader is an earlier one, or the new one with nothing read
  have hcases : ∀ (b : Nat) (r : Reader), (v.accept hdr).readers[b]? = some r →
      v.readers[b]? = some r ∨ b = v.readers.length ∧ r = { key := hdr.key } := by
    intro b r h
    change (v.readers ++ [{ key := hdr.key }])[b]? = some r at h
    rw [getElem?_append] at h
    split at h
    · exact .inl h
    · rw [getElem?_singleton] at h
      split at h
      · exact .inr ⟨by omega, (some.inj h).symm⟩
      · cases h
  have hconn : ∀ (k : VsockConnKey) (c : VsockConnection), (v.accept hdr).connections k = some c →
      k = hdr.key ∧ c.backend = v.readers.length ∧ c.state = .connected ∨ k ≠ hdr.key ∧ v.connections k = some c := by
    intro k c h
    change update v.connections hdr.key _ k = some c at h
    rw [update_apply] at h
    split at h
    · rename_i hk
      obtain rfl := some.inj h
      exact .inl ⟨hk, rfl, rfl⟩
    · rename_i hk
      exact .inr ⟨hk, h⟩
  refine ⟨?_, ?_, ?_, ?_, ?_, ?_, ?_⟩
  · intro d hd j hj
    rw [hwire] at hd
    show j < (v.readers ++ _).length
    rw [length_append]
    exact Nat.lt_add_right _ (hs.known d hd j hj)
  · intro k j hj
    change update v.accepted hdr.key _ k = some j at hj
    show ∃ r : Reader, (v.readers ++ [{ key := hdr.key }])[j]? = some r ∧ r.key = k
    rw [update_apply] at hj
    split at hj
    · rename_i hk
      obtain rfl := some.inj hj
      exact ⟨{ key := hdr.key }, by simp, hk.symm⟩
    · obtain ⟨r, hr, hkey⟩ := hs.accepted k j hj
      exact ⟨r, by rw [getElem?_append_left (List.getElem?_eq_some_iff.1 hr).1, hr], hkey⟩
  · intro k c hc
    rcases hconn k c hc with ⟨-, -, hstate⟩ | ⟨-, h⟩
    · rw [hstate]
      exact VsockConnState.noConfusion
    · exact hs.settled k c h
  · intro b r hr
    rw [hwire]
    rcases hcases b r hr with h | ⟨rfl, rfl⟩
    · exact hs.isPrefix b r h
    · rw [received_eq_nil hnew]
  · intro hsome b r c hr hc hb hopen
    rw [hwire]
    rcases hcases b r hr with h | ⟨rfl, rfl⟩
    · rcases hconn _ c hc with ⟨-, hbackend, -⟩ | ⟨-, h'⟩
      · have hlt := (List.getElem?_eq_some_iff.1 h).1
        omega
      · exact hs.exact hsome b r c h h' hb hopen
    · rw [received_eq_nil hnew]
      rfl
  · rw [hwire]
    exact hs.ordered
  · intro b r c hr hlive hc hopen d hd hon
    rw [hwire] at hd
    rcases hcases b r hr with h | ⟨rfl, rfl⟩
    · rcases hconn _ c hc with ⟨hkey, -, -⟩ | ⟨-, h'⟩
      · exact absurd (hreaders r (mem_of_getElem? h) hkey) hlive
      · exact hs.unended b r c h hlive h' hopen d hd hon
    · exact absurd hon (hnew d hd)

theorem Streams.handleConnect (o : BackendAnswer) (hfresh : v.Unused hdr.key) : (v.handleConnect o hdr).Streams := by
  have hreset : (v.sendReset hdr).Streams := hs.sendReset fun r hr hkey hlive => absurd (hfresh.1 r hr hkey) hlive
  unfold Vsock.handleConnect
  split
  · exact hreset
  split
  · exact hreset
  · show ((v.accept hdr).sendResponse hdr).Streams
    exact (hs.accept hfresh).queueMild (VsockOp.ofCode_code .response) (by decide)

theorem Streams.dispatch (o : BackendAnswer) (hfair : StreamFair v hdr) (payload : Bytes) :
    (v.dispatch o hdr payload).Streams := by
  -- ports without an open connection may be reset at any time
  have hreset : (∀ c, v.connections hdr.key = some c → c.state ≠ .connected) → (v.sendReset hdr).Streams :=
    fun hclosed => hs.sendReset fun _ _ _ _ => hclosed
  have hremoved : ((v.sendReset hdr).setConnection hdr.key none).Streams := by
    show ((v.setConnection hdr.key none).sendReset hdr).Streams
    apply (hs.remove hdr.key).sendReset
    intro r _ _ _ c hc
    change update v.connections hdr.key none hdr.key = some c at hc
    rw [update_self] at hc
    cases hc
  unfold Vsock.dispatch
  split
  · rename_i hop
    exact hs.handleConnect o (hfair.1 hop)
  · rename_i hop
    have hquiet : (v.sendReset hdr).Streams := hs.sendReset fun r hr hkey hlive => absurd (hfair.2 hop r hr hkey) hlive
    unfold handleResponse
    split
    · exact hquiet
    rename_i c hc
    split
    · exact hquiet
    · rename_i hconnecting
      exact absurd (not_not.1 hconnecting) (hs.settled _ c hc)
  · exact hs.remove _
  · unfold handleShutdown
    split
    · exact hs
    · exact hremoved
  · unfold handleData
    split
    · rename_i hnone
      apply hreset
      intro c hc
      rw [hnone] at hc
      cases hc
    rename_i c hc
    split
    · rename_i hclosed
      apply hreset
      intro c' hc'
      obtain rfl := some.inj (hc.symm.trans hc')
      exact hclosed
    dsimp only
    split
    · apply Streams.sendCreditUpdate
      exact hs.setConnection hc rfl rfl (.inl rfl)
    split
    · exact hremoved
    · apply Streams.sendCreditUpdate
      exact hs.setConnection hc rfl rfl (.inl rfl)
  · unfold handleCreditUpdate
    split
    · exact hs
    rename_i c hc
    apply Streams.broadcast
    exact hs.setConnection hc rfl rfl (.inl rfl)
  · unfold handleCreditRequest
    split
    · exact hs
    · exact hs.sendCreditUpdate _
  · exact hs

/-! ## Lock sections of readers -/

theorem Streams.returns (hr : v.readers[i]? = some r) (hlive : r.pc ≠ .done)
    (hclosed : ∀ c, v.connections r.key = some c → c.state ≠ .connected) : (v.setPc i .done).Streams :=
  hs.setPc hr hlive .done fun _ c hc _ hopen => absurd hopen (hclosed c hc)

theorem Streams.endSection (hidx : v.rx.IndexWritable G) (hr : v.readers[i]? = some r) (hpc : r.pc = .failing) :
    (v.endSection G i r).Streams := by
  have hlive : r.pc ≠ .done := by rw [hpc]; exact ReaderPC.noConfusion
  unfold Vsock.endSection
  split
  · rename_i hnone
    exact hs.returns hr hlive fun c hc => by rw [hnone] at hc; cases hc
  rename_i c hc
  split
  · -- the connection is closing when the packet that says so is queued
    have hclosing : ∀ c', (v.setConnection r.key (some { c with state := .closing })).connections r.key = some c' →
        c'.state ≠ .connected := by
      intro c' h
      change update v.connections r.key _ r.key = some c' at h
      rw [update_self] at h
      obtain rfl := some.inj h
      exact VsockConnState.noConfusion
    have hqueued : ((v.sendShutdown i r.key).setConnection r.key (some { c with state := .closing })).Streams := by
      show ((v.setConnection r.key (some { c with state := .closing })).sendShutdown i r.key).Streams
      refine Streams.queue ?_ (show VsockOp.ofCode VsockOp.shutdown.code ≠ some .rw by decide) ?_
      · exact hs.setConnection hc rfl rfl (.inr rfl)
      · exact fun _ _ _ _ _ => hclosing
    exact Streams.processRX_setPc G (hqueued.returns hr hlive hclosing) hidx
  · rename_i hclosed
    refine hs.returns hr hlive fun c' hc' => ?_
    obtain rfl := some.inj (hc.symm.trans hc')
    exact hclosed

omit hs in
theorem unsent_afterChunk (rest : Bytes) (n : Nat) : rest.take n ++ (afterChunk rest n).unsent = rest := by
  unfold afterChunk
  split
  · rename_i h
    show rest.take n ++ [] = rest
    rw [← h, take_append_drop]
  · exact take_append_drop n rest

theorem Streams.sendSection (hsep : v.Separate) (hidx : v.rx.IndexWritable G) {rest : Bytes}
    (hr : v.readers[i]? = some r) (hpc : r.pc = .sending rest) : (v.sendSection G i r rest).Streams := by
  have hlive : r.pc ≠ .done := by rw [hpc]; exact ReaderPC.noConfusion
  unfold Vsock.sendSection
  split
  · rename_i hnone
    exact hs.returns hr hlive fun c hc => by rw [hnone] at hc; cases hc
  rename_i c hc
  obtain ⟨hkey, hb⟩ := hsep.finds_own hr hlive hc
  split
  · rename_i hclosed
    refine hs.returns hr hlive fun c' hc' => ?_
    obtain rfl := some.inj (hc.symm.trans hc')
    exact hclosed
  rename_i hopen
  have hopen := not_not.1 hopen
  have hck : v.connections c.key = some c := by rw [hkey]; exact hc
  have haccepted : v.accepted c.key = some i := by rw [hkey]; exact hsep.running i r hr hlive
  split
  · have hqueued : (v.sendCreditRequest i c).Streams := by
      unfold sendCreditRequest
      split
      · exact hs
      refine Streams.queueMild ?_ (VsockOp.ofCode_code .creditRequest) (by decide)
      exact hs.setConnection hck rfl rfl (.inl rfl)
    have hsame : (v.sendCreditRequest i c).readers = v.readers ∧ (v.sendCreditRequest i c).rx = v.rx := by
      unfold sendCreditRequest
      split <;> exact ⟨rfl, rfl⟩
    have hr' : (v.sendCreditRequest i c).readers[i]? = some r := by rw [hsame.1]; exact hr
    apply Streams.processRX_setPc G _ (by rw [hsame.2]; exact hidx)
    refine hqueued.setPc hr' hlive _ fun hsome c' hc' hb' hopen' => ?_
    have hexact := hqueued.exact hsome i r c' hr' hc' hb' hopen'
    rw [hpc] at hexact
    exact hexact
  · dsimp only
    set n := min rest.length (vsockPeerCredit c).toNat
    set c' : VsockConnection :=
      { c with txCnt := c.txCnt + UInt32.ofNat (rest.take n).length, sent := c.sent + (rest.take n).length } with hc'
    have hset : (v.setConnection c.key (some c')).Streams := hs.setConnection hck rfl rfl (.inl rfl)
    have hfound : (v.setConnection c.key (some c')).connections r.key = some c' := by
      show update v.connections c.key (some c') r.key = some c'
      rw [hkey, update_self]
    refine Streams.processRX_setPc G (v := v.sendData i c (rest.take n)) ?_ hidx
    refine hset.queueData hr hlive hfound hb hopen ?_ ?_ ?_
    · exact VsockOp.ofCode_code .rw
    · exact haccepted
    · rw [hpc]
      exact unsent_afterChunk rest n

theorem Streams.dropped (m : Option M) (hm : m.isSome → ∀ k, v.connections k = none) :
    Streams { v with mem := m, pendingRx := [] } := by
  have hwire : wire { v with mem := m, pendingRx := [] } = v.delivered := by
    unfold wire
    split <;> exact append_nil _
  have hsub : v.delivered <+: v.wire := v.delivered_prefix_wire
  refine ⟨?_, hs.accepted, hs.settled, ?_, ?_, ?_, ?_⟩
  · rw [hwire]
    exact fun d hd => hs.known d (hsub.mem hd)
  · rw [hwire]
    exact fun b r hr => (received_mono b hsub).trans (hs.isPrefix b r hr)
  · intro hsome b r c _ hc
    rw [hm hsome] at hc
    cases hc
  · rw [hwire]
    exact fun b => (hs.ordered b).sublist (hsub.sublist.filter _)
  · rw [hwire]
    exact fun b r c hr hlive hc hopen d hd => hs.unended b r c hr hlive hc hopen d (hsub.mem hd)

end Kept

theorem Streams.step (hs : v.Streams) (hsep : v.Separate) {e : VsockEvent M} (hfair : Handles G StreamFair v e)
    (hidx : v.rx.IndexWritable G) : (v.step G e).Streams := by
  have hregs : ∀ {v : Vsock M} (rx tx : Queue) (m : Option M), v.Streams → m.isSome = v.mem.isSome →
      Streams { v with rx := rx, tx := tx, mem := m } := by
    intro v rx tx m hs hm
    have hflush := hs.flush (k := 0) rx (fun _ => rfl) hm
    rw [take_zero, drop_zero, map_nil, append_nil] at hflush
    exact ⟨hflush.known, hflush.accepted, hflush.settled, hflush.isPrefix, hflush.exact, hflush.ordered, hflush.unended⟩
  cases e with
  | guestWrites m => exact hregs v.rx v.tx _ hs (by rw [isSome_map])
  | setQueues rx tx => exact hregs rx tx v.mem hs rfl
  | notifyTX env =>
    refine processTX_rule G (P := fun v _ => StreamFair v) (I := fun v => v.Streams ∧ v.rx.IndexWritable G)
      (J := Streams)
      ?_ ?_ (fun _ hv => hv.1) (fun v hv => hv.1.processRX G hv.2) ⟨hs, hidx⟩ hfair
    · intro v k hdr payload hv hP
      refine ⟨hv.1.dispatch (env k) hP payload, ?_⟩
      rw [(dispatch_mem_rx (env k) hdr payload v).2]
      exact hv.2
    · intro v tx m hsome hv
      exact ⟨hregs v.rx tx (some m) hv.1 hsome.symm, hv.2⟩
  | notifyRX => exact hs.processRX G hidx
  | reset =>
    have hgone := (hs.narrow (narrower_none _)).dropped v.mem fun _ _ => rfl
    exact (hregs {} {} v.mem hgone rfl).broadcast
  | detach => exact hs.dropped none fun h => (nomatch h)
  | closeChannel =>
    exact ⟨hs.known, hs.accepted, hs.settled, hs.isPrefix, hs.exact, hs.ordered, hs.unended⟩
  | closeConnections =>
    simp only [Vsock.step]
    split
    · exact (hs.narrow (narrower_none _)).broadcast
    · exact hs
  | readReturns i result => exact hs.readers (progress_readReturns _ _ _)
  | readerRuns i =>
    simp only [Vsock.step, Vsock.readerRuns]
    split
    · exact hs
    rename_i r hr
    split
    · rename_i hpc
      exact hs.endSection G hidx hr hpc
    · rename_i rest hpc
      exact hs.sendSection G hsep hidx hr hpc
    · exact hs
  | readerStops i =>
    simp only [Vsock.step]
    split
    · exact hs.readers (progress_readerStops _ _)
    · exact hs

/-- A step with a fair guest, whose used index can be written wherever its used entries can. -/
def StreamStep (v : Vsock M) (e : VsockEvent M) : Prop := Handles G StreamFair v e ∧ v.rx.IndexWritable G

theorem streams_run (guestCID : UInt64) (backend : Bool) (m : M) {es : List (VsockEvent M)}
    (hfair : RunAll G (StreamStep G) (newVsock guestCID backend m) es) :
    ((newVsock guestCID backend m).run G es).Streams := by
  have hrun : ((newVsock guestCID backend m).run G es).Streams ∧ ((newVsock guestCID backend m).run G es).Separate := by
    refine run_rule G (I := fun v => v.Streams ∧ v.Separate) ?_
      ⟨⟨nofun, nofun, nofun, nofun, nofun, fun _ => .nil, nofun⟩, separate_newVsock _ _ _⟩ hfair
    intro v e hv hQ
    exact ⟨hv.1.step G hv.2 hQ.1 hQ.2, hv.2.step G (Answers.mono G (fun _ _ _ h => h.1) hQ.1)⟩
  exact hrun.1

/-- The guest sends a response on an open connection: it is told of a reset, and then gets data. -/
def responseRun : List (VsockEvent (UInt64 → UInt8)) :=
  [.setQueues guestRx guestTx, .guestWrites (guestRam [guestPacket .request]), .notifyTX fun _ => {},
    .guestWrites (guestRam [guestPacket .request, guestPacket .response]), .notifyTX fun _ => {},
    .readReturns 0 (some [7]), .readerRuns 0]

end Vsock

end CrumbleCracker.Virtio
