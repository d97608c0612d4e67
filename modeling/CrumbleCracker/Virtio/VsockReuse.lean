import CrumbleCracker.Virtio.Vsock

/-!
# Vsock ports used again

A reader goroutine finds its connection by the two ports. When the guest connects again on the same ports, a reader of
the earlier connection that is still running finds the new one: it sends its bytes there
(`old_reader_on_new_connection`), and closes it when its own backend ends. Packets of the earlier connection that wait
for receive buffers reach the guest on the new one as well.
-/

namespace CrumbleCracker.Virtio

open Function List Option

/-! ## How tables change -/

/-- Every connection of `t'` is one of `t`, perhaps further on in its life. -/
def Narrower (t' t : VsockConnKey → Option VsockConnection) : Prop :=
  ∀ k c', t' k = some c' → ∃ c, t k = some c ∧ c'.key = c.key ∧ c'.backend = c.backend ∧
    (c'.state = c.state ∨ c'.state = .closing)

theorem narrower_none (t : VsockConnKey → Option VsockConnection) : Narrower (fun _ => none) t := fun _ _ h => nomatch h

theorem narrower_remove (t : VsockConnKey → Option VsockConnection) (k : VsockConnKey) :
    Narrower (update t k none) t := by
  intro k' c' h
  rw [update_apply] at h
  split at h
  · cases h
  · exact ⟨c', h, rfl, rfl, .inl rfl⟩

variable {c : VsockConnection} {k : VsockConnKey}

theorem narrower_set {t : VsockConnKey → Option VsockConnection} {c' : VsockConnection} (hc : t k = some c)
    (hkey : c'.key = c.key) (hbackend : c'.backend = c.backend) (hstate : c'.state = c.state ∨ c'.state = .closing) :
    Narrower (update t k (some c')) t := by
  intro k' d h
  rw [update_apply] at h
  split at h
  · rename_i heq
    obtain rfl := some.inj h
    exact ⟨c, heq ▸ hc, hkey, hbackend, hstate⟩
  · exact ⟨d, h, rfl, rfl, .inl rfl⟩

/-- Every reader of `rs'` is the one of `rs` at its place, and one that has returned has not come back. -/
def ReadersFrom (rs' rs : List Reader) : Prop :=
  ∀ (i : Nat) (r' : Reader), rs'[i]? = some r' → ∃ r : Reader, rs[i]? = some r ∧ r'.key = r.key ∧
    (r.pc = .done → r'.pc = .done)

variable {i : Nat}

theorem readersFrom_modify {rs : List Reader} {f : Reader → Reader}
    (hf : ∀ r, rs[i]? = some r → (f r).key = r.key ∧ (r.pc = .done → (f r).pc = .done)) :
    ReadersFrom (rs.modify i f) rs := by
  intro j r' h
  rw [getElem?_modify] at h
  obtain ⟨r, hr, hr'⟩ := map_eq_some_iff.1 h
  refine ⟨r, hr, ?_⟩
  split at hr'
  · rename_i heq
    subst heq hr'
    exact hf r hr
  · subst hr'
    exact ⟨rfl, id⟩

theorem readersFrom_wake (rs : List Reader) : ReadersFrom (rs.map Vsock.wake) rs := by
  intro i r' h
  rw [getElem?_map] at h
  obtain ⟨r, hr, rfl⟩ := map_eq_some_iff.1 h
  refine ⟨r, hr, ?_⟩
  unfold Vsock.wake
  split
  · rename_i hpc
    exact ⟨rfl, fun hdone => by rw [hpc] at hdone; cases hdone⟩
  · exact ⟨rfl, id⟩

namespace Vsock

variable {M : Type} (G : GuestMemory M)

theorem readReturns_done (result : Option Bytes) (r : Reader) :
    (readReturns result r).key = r.key ∧ (r.pc = .done → (readReturns result r).pc = .done) := by
  unfold readReturns
  split
  · rename_i hpc
    exact ⟨rfl, fun hdone => by rw [hpc] at hdone; cases hdone⟩
  · rename_i hpc
    exact ⟨rfl, fun hdone => by rw [hpc] at hdone; cases hdone⟩
  · exact ⟨rfl, id⟩

theorem readerStops_done (r : Reader) : (readerStops r).key = r.key ∧ (r.pc = .done → (readerStops r).pc = .done) := by
  unfold readerStops
  split <;> exact ⟨rfl, fun h => by simp [h]⟩

/-! ## Each connection to itself -/

/-- No reader of the ports is running and no packet for them is waiting. -/
def Unused (v : Vsock M) (key : VsockConnKey) : Prop :=
  (∀ r ∈ v.readers, r.key = key → r.pc = .done) ∧ ∀ p ∈ v.pendingRx, p.key ≠ key
deriving Decidable

/-- A connect request finds its ports unused. -/
def FreshPorts (v : Vsock M) (hdr : VsockHeader) : Prop :=
  VsockOp.ofCode hdr.op = some .request → v.Unused hdr.key
deriving Decidable

/-- Running readers, connections and packets belong to the last connection accepted on their ports. -/
structure Separate (v : Vsock M) : Prop where
  running : ∀ (i : Nat) (r : Reader), v.readers[i]? = some r → r.pc ≠ .done → v.accepted r.key = some i
  filed : ∀ k c, v.connections k = some c → c.key = k ∧ v.accepted k = some c.backend
  pending : ∀ p ∈ v.pendingRx, ∀ o, p.origin = some o → v.accepted p.key = some o
  delivered : ∀ d ∈ v.delivered, ∀ o, d.origin = some o → d.on = some o

variable {v : Vsock M}

section

variable (hv : v.Separate)

include hv

theorem Separate.narrow {t : VsockConnKey → Option VsockConnection} (ht : Narrower t v.connections) :
    Separate { v with connections := t } := by
  refine ⟨hv.running, ?_, hv.pending, hv.delivered⟩
  intro k c' h
  obtain ⟨c, hc, hkey, hbackend, -⟩ := ht k c' h
  obtain ⟨hk, haccepted⟩ := hv.filed k c hc
  exact ⟨hkey.trans hk, by rw [haccepted, hbackend]⟩

theorem Separate.queue {p : RxPacket} (hp : ∀ o, p.origin = some o → v.accepted p.key = some o) :
    (v.queueRxPacket p).Separate :=
  ⟨hv.running, hv.filed, forall_mem_append.2 ⟨hv.pending, forall_mem_singleton.2 hp⟩, hv.delivered⟩

theorem Separate.sendReset (hdr : VsockHeader) : (v.sendReset hdr).Separate := hv.queue nofun

theorem Separate.sendCreditUpdate (c : VsockConnection) : (v.sendCreditUpdate c).Separate := hv.queue nofun

theorem Separate.setConnection {c' : VsockConnection} (hc : v.connections k = some c) (hkey : c'.key = c.key)
    (hbackend : c'.backend = c.backend) (hstate : c'.state = c.state ∨ c'.state = .closing) :
    (v.setConnection k (some c')).Separate :=
  hv.narrow (narrower_set hc hkey hbackend hstate)

theorem Separate.remove (k : VsockConnKey) : (v.setConnection k none).Separate :=
  hv.narrow (narrower_remove _ _)

theorem Separate.readers {rs : List Reader} (hrs : ReadersFrom rs v.readers) : Separate { v with readers := rs } := by
  refine ⟨?_, hv.filed, hv.pending, hv.delivered⟩
  intro i r' h hlive
  obtain ⟨r, hr, hkey, hdone⟩ := hrs i r' h
  rw [hkey]
  exact hv.running i r hr fun h => hlive (hdone h)

theorem Separate.broadcast : v.broadcast.Separate := hv.readers (readersFrom_wake _)

/-- What the receive ring takes from the queue is delivered on the connection it was queued for. -/
theorem Separate.flush (k n : Nat) (rx : Queue) (m : Option M) : Separate { v with
        rx := rx, mem := m, pendingRx := v.pendingRx.drop k
        delivered := v.delivered ++ (v.pendingRx.take n).map fun p => v.delivery p p.bytes } := by
  refine ⟨hv.running, hv.filed, fun p hp => hv.pending p (mem_of_mem_drop hp), ?_⟩
  exact forall_mem_append.2 ⟨hv.delivered, forall_mem_map.2 fun p hp => hv.pending p (mem_of_mem_take hp)⟩

theorem Separate.processRX : (v.processRX G).Separate := by
  obtain ⟨k, j, rx, m, -, -, -, heq⟩ := processRX_eq G v
  rw [heq]
  exact hv.flush k (k + j) rx m

variable {r : Reader}

theorem Separate.setPc (hr : v.readers[i]? = some r) (hlive : r.pc ≠ .done) (pc : ReaderPC) :
    (v.setPc i pc).Separate := by
  apply hv.readers
  apply readersFrom_modify
  intro r' hr'
  obtain rfl := some.inj (hr.symm.trans hr')
  exact ⟨rfl, fun h => absurd h hlive⟩

/-! ## Steps -/

theorem Separate.handleConnect (o : BackendAnswer) {hdr : VsockHeader} (hfresh : v.Unused hdr.key) :
    (v.handleConnect o hdr).Separate := by
  unfold Vsock.handleConnect
  split
  · exact hv.sendReset hdr
  split
  · exact hv.sendReset hdr
  obtain ⟨hreaders, hpending⟩ := hfresh
  refine ⟨?_, ?_, ?_, hv.delivered⟩
  · intro i r hr hlive
    show update v.accepted hdr.key (some v.readers.length) r.key = some i
    change (v.readers ++ [{ key := hdr.key }])[i]? = some r at hr
    rw [getElem?_append] at hr
    split at hr
    · -- a running reader of the ports would have kept the request from being made
      have hother : r.key ≠ hdr.key := fun h => hlive (hreaders r (mem_of_getElem? hr) h)
      rw [update_of_ne hother]
      exact hv.running i r hr hlive
    · rename_i hlast
      rw [getElem?_singleton] at hr
      split at hr
      · obtain rfl := some.inj hr
        rw [update_self, show i = v.readers.length by omega]
      · cases hr
  · intro k c hc
    show c.key = k ∧ update v.accepted hdr.key (some v.readers.length) k = some c.backend
    change update v.connections hdr.key _ k = some c at hc
    rw [update_apply] at hc
    split at hc
    · rename_i hk
      obtain rfl := some.inj hc
      rw [hk, update_self]
      exact ⟨rfl, rfl⟩
    · rename_i hk
      rw [update_of_ne hk]
      exact hv.filed k c hc
  · intro p hp o ho
    show update v.accepted hdr.key (some v.readers.length) p.key = some o
    rcases mem_append.1 hp with h | h
    · rw [update_of_ne (hpending p h)]
      exact hv.pending p h o ho
    · obtain rfl := mem_singleton.1 h
      cases ho

theorem Separate.dispatch (o : BackendAnswer) {hdr : VsockHeader} (hfresh : FreshPorts v hdr)
    (payload : Bytes) : (v.dispatch o hdr payload).Separate := by
  unfold Vsock.dispatch
  split
  · rename_i hop
    exact hv.handleConnect o (hfresh hop)
  · unfold handleResponse
    split
    · exact hv.sendReset hdr
    rename_i c hc
    split
    · exact hv.sendReset hdr
    · refine ⟨hv.running, ?_, hv.pending, hv.delivered⟩
      intro k c' h
      change update v.connections hdr.key _ k = some c' at h
      rw [update_apply] at h
      split at h
      · rename_i hk
        obtain rfl := some.inj h
        exact hk ▸ hv.filed hdr.key c hc
      · exact hv.filed k c' h
  · exact hv.remove _
  · unfold handleShutdown
    split
    · exact hv
    · exact (hv.remove _).sendReset hdr
  · unfold handleData
    split
    · exact hv.sendReset hdr
    rename_i c hc
    split
    · exact hv.sendReset hdr
    dsimp only
    split
    · apply Separate.sendCreditUpdate
      exact hv.setConnection hc rfl rfl (.inl rfl)
    split
    · exact (hv.remove _).sendReset hdr
    · apply Separate.sendCreditUpdate
      exact hv.setConnection hc rfl rfl (.inl rfl)
  · unfold handleCreditUpdate
    split
    · exact hv
    rename_i c hc
    apply Separate.broadcast
    exact hv.setConnection hc rfl rfl (.inl rfl)
  · unfold handleCreditRequest
    split
    · exact hv
    · exact hv.queue fun _ h => nomatch h
  · exact hv

theorem Separate.finds_own (hr : v.readers[i]? = some r) (hlive : r.pc ≠ .done) (hc : v.connections r.key = some c) :
    c.key = r.key ∧ c.backend = i := by
  obtain ⟨hkey, haccepted⟩ := hv.filed r.key c hc
  have hown := hv.running i r hr hlive
  rw [hown] at haccepted
  exact ⟨hkey, (some.inj haccepted).symm⟩

theorem Separate.endSection (hr : v.readers[i]? = some r) (hlive : r.pc ≠ .done) : (v.endSection G i r).Separate := by
  unfold Vsock.endSection
  split
  · exact hv.setPc hr hlive _
  rename_i c hc
  split
  · have hclosing : (v.setConnection r.key (some { c with state := .closing })).Separate :=
      hv.setConnection hc rfl rfl (.inr rfl)
    have hqueued : ((v.sendShutdown i r.key).setConnection r.key (some { c with state := .closing })).Separate := by
      apply hclosing.queue
      rintro o ⟨⟩
      exact hv.running i r hr hlive
    exact (hqueued.processRX G).setPc (by rw [processRX_readers]; exact hr) hlive _
  · exact hv.setPc hr hlive _

theorem Separate.sendSection (hr : v.readers[i]? = some r) (hlive : r.pc ≠ .done) (rest : Bytes) :
    (v.sendSection G i r rest).Separate := by
  unfold Vsock.sendSection
  split
  · exact hv.setPc hr hlive _
  rename_i c hc
  obtain ⟨hkey, -⟩ := hv.finds_own hr hlive hc
  rw [← hkey] at hc
  have haccepted : v.accepted c.key = some i := hkey ▸ hv.running i r hr hlive
  split
  · exact hv.setPc hr hlive _
  split
  · have hqueued : (v.sendCreditRequest i c).Separate := by
      unfold sendCreditRequest
      split
      · exact hv
      refine Separate.queue ?_ ?_
      · exact hv.setConnection hc rfl rfl (.inl rfl)
      · rintro o ⟨⟩
        exact haccepted
    have hreaders : (v.sendCreditRequest i c).readers = v.readers := by
      unfold sendCreditRequest
      split <;> rfl
    exact (hqueued.processRX G).setPc (by rw [processRX_readers, hreaders]; exact hr) hlive _
  · have hqueued : (v.sendData i c (rest.take (min rest.length (vsockPeerCredit c).toNat))).Separate := by
      refine Separate.queue ?_ ?_
      · exact hv.setConnection hc rfl rfl (.inl rfl)
      · rintro o ⟨⟩
        exact haccepted
    exact (hqueued.processRX G).setPc (by rw [processRX_readers]; exact hr) hlive _

theorem Separate.step {e : VsockEvent M} (hfresh : Handles G FreshPorts v e) : (v.step G e).Separate := by
  cases e with
  | guestWrites m | setQueues rx tx | closeChannel => exact ⟨hv.running, hv.filed, hv.pending, hv.delivered⟩
  | notifyTX env =>
    refine processTX_rule G (fun v _ hdr payload hv hP => hv.dispatch _ hP payload) ?_ (fun _ hv => hv) ?_ hv hfresh
    · exact fun v tx m _ hv => ⟨hv.running, hv.filed, hv.pending, hv.delivered⟩
    · exact fun v hv => hv.processRX G
  | notifyRX => exact hv.processRX G
  | reset =>
    have hgone := hv.narrow (narrower_none _)
    have hreset : Separate { v with rx := {}, tx := {}, connections := fun _ => none, pendingRx := [] } :=
      ⟨hgone.running, hgone.filed, fun p hp => (nomatch hp), hgone.delivered⟩
    exact hreset.broadcast
  | detach => exact ⟨hv.running, hv.filed, fun p hp => (nomatch hp), hv.delivered⟩
  | closeConnections =>
    simp only [Vsock.step]
    split
    · exact (hv.narrow (narrower_none _)).broadcast
    · exact hv
  | readReturns i result => exact hv.readers (readersFrom_modify fun r _ => readReturns_done result r)
  | readerRuns i =>
    simp only [Vsock.step, Vsock.readerRuns]
    split
    · exact hv
    rename_i r hr
    split
    · rename_i hpc
      exact hv.endSection G hr (by rw [hpc]; exact ReaderPC.noConfusion)
    · rename_i rest hpc
      exact hv.sendSection G hr (by rw [hpc]; exact ReaderPC.noConfusion) rest
    · exact hv
  | readerStops i =>
    simp only [Vsock.step]
    split
    · exact hv.readers (readersFrom_modify fun r _ => readerStops_done r)
    · exact hv

end

theorem separate_newVsock (guestCID : UInt64) (backend : Bool) (m : M) : (newVsock guestCID backend m).Separate :=
  ⟨fun _ _ h => (nomatch h), fun _ _ h => (nomatch h), fun _ h => (nomatch h), fun _ h => (nomatch h)⟩

theorem Separate.readerRuns_connections (hv : v.Separate) (hc : v.connections k = some c) (hother : c.backend ≠ i) :
    (v.readerRuns G i).connections k = some c := by
  -- a section changes the connection at the reader's ports, which is the reader's own
  have hkey : ∀ {r : Reader}, v.readers[i]? = some r → r.pc ≠ .done → k ≠ r.key := by
    rintro r hr hlive rfl
    exact hother (hv.finds_own hr hlive hc).2
  unfold Vsock.readerRuns
  split
  · exact hc
  rename_i r hr
  split
  · rename_i hpc
    have hne := hkey hr (by rw [hpc]; exact ReaderPC.noConfusion)
    unfold Vsock.endSection
    split
    · exact hc
    split
    · show (Vsock.processRX G _).connections k = some c
      rw [processRX_connections]
      exact (update_of_ne hne _ _).trans hc
    · exact hc
  · rename_i rest hpc
    have hlive : r.pc ≠ .done := by rw [hpc]; exact ReaderPC.noConfusion
    have hne := hkey hr hlive
    unfold Vsock.sendSection
    split
    · exact hc
    rename_i own hown
    rw [← (hv.finds_own hr hlive hown).1] at hne
    split
    · exact hc
    split
    · show (Vsock.processRX G _).connections k = some c
      rw [processRX_connections]
      unfold sendCreditRequest
      split
      · exact hc
      · exact (update_of_ne hne _ _).trans hc
    · show (Vsock.processRX G _).connections k = some c
      rw [processRX_connections]
      exact (update_of_ne hne _ _).trans hc
  · exact hc

/-- When the guest connects again only on ports that are unused, nothing of one connection reaches another: the bytes
and the end of a backend are delivered on its own connection, and its reader leaves the others alone. -/
theorem reused_ports_separate (guestCID : UInt64) (backend : Bool) (m : M) (es : List (VsockEvent M))
    (hfresh : RunAll G (Handles G FreshPorts) (newVsock guestCID backend m) es) :
    (∀ d ∈ ((newVsock guestCID backend m).run G es).delivered, ∀ o, d.origin = some o → d.on = some o) ∧
    ∀ i k c, ((newVsock guestCID backend m).run G es).connections k = some c → c.backend ≠ i →
      (((newVsock guestCID backend m).run G es).step G (.readerRuns i)).connections k = some c := by
  have hrun := run_rule G (fun _ _ hv hQ => hv.step G hQ) (separate_newVsock guestCID backend m) hfresh
  exact ⟨hrun.delivered, fun i k c hc hother => hrun.readerRuns_connections G hc hother⟩

/-- A packet of a guest that uses port 5 to reach port 1024. -/
def guestPacket (op : VsockOp) : VsockHeader := { srcPort := 5, dstPort := 1024, op := op.code, bufAlloc := 64 }

/-- The first connection is reset, its backend's read returns `result`, and the guest connects again; the first reader
runs before the second request or, if `late`, after it. -/
def reuseRun (late : Bool) (result : Option Bytes) : List (VsockEvent (UInt64 → UInt8)) :=
  [.setQueues guestRx guestTx, .guestWrites (guestRam [guestPacket .request]), .notifyTX fun _ => {},
    .readReturns 0 result, .guestWrites (guestRam [guestPacket .request, guestPacket .rst]), .notifyTX fun _ => {}] ++
  (if late then [] else [.readerRuns 0]) ++
  [.guestWrites (guestRam [guestPacket .request, guestPacket .rst, guestPacket .request]), .notifyTX fun _ => {},
    .readReturns 1 (some [9])] ++
  if late then [.readerRuns 0, .readerRuns 1] else [.readerRuns 1]

theorem reused_ports_separate_reuseRun :
    (∀ d ∈ ((newVsock 3 true (guestRam [])).run ram (reuseRun false (some [7]))).delivered,
      ∀ o, d.origin = some o → d.on = some o) ∧
    (((newVsock 3 true (guestRam [])).run ram (reuseRun false (some [7]))).delivered.map Delivery.on =
      [some 0, some 1, some 1]) := by
  have hfresh : RunAll ram (Handles ram FreshPorts) (newVsock 3 true (guestRam [])) (reuseRun false (some [7])) := by
    decide +kernel
  exact ⟨(reused_ports_separate ram 3 true (guestRam []) (reuseRun false (some [7])) hfresh).1, by decide +kernel⟩

theorem old_reader_on_new_connection :
    (∃ d ∈ ((newVsock 3 true (guestRam [])).run ram (reuseRun true (some [7]))).delivered,
      d.origin = some 0 ∧ d.on = some 1 ∧ d.data.drop vsockHeaderSize = [7]) ∧
    (((newVsock 3 true (guestRam [])).run ram (reuseRun true none)).connections ⟨1024, 5⟩).map
      (fun c => (c.backend, c.state)) = some (1, .closing) := by
  decide +kernel

end Vsock

end CrumbleCracker.Virtio
