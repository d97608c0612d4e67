import CrumbleCracker.Virtio.Vsock

/-!
# Vsock credit

The device sends no more than the guest's buffer takes. `txCnt`, `peerCnt` and `peerAlloc` are 32-bit counters that
wrap; the ghosts `sent` and `acked` count the same bytes without wrapping.
-/

namespace CrumbleCracker.Virtio

open Function

/-- The wrapped counters say how many bytes are on their way, and the guest's buffer holds them. -/
structure VsockConnection.Credited (c : VsockConnection) : Prop where
  acked_le : c.acked ≤ c.sent
  outstanding : (c.txCnt - c.peerCnt).toNat = c.sent - c.acked
  within : c.txCnt - c.peerCnt ≤ c.peerAlloc

/-- The guest acknowledges only bytes on their way, and takes back buffer space only for bytes not yet sent. -/
structure FairUpdate (c : VsockConnection) (hdr : VsockHeader) : Prop where
  acknowledges : c.txCnt - hdr.fwdCnt ≤ c.txCnt - c.peerCnt
  reduces : hdr.bufAlloc < c.peerAlloc → c.txCnt - hdr.fwdCnt ≤ hdr.bufAlloc

namespace VsockConnection

variable {c : VsockConnection} {hdr : VsockHeader}

theorem toNat_sub_fwdCnt (h : c.txCnt - hdr.fwdCnt ≤ c.txCnt - c.peerCnt) :
    (hdr.fwdCnt - c.peerCnt).toNat + (c.txCnt - hdr.fwdCnt).toNat = (c.txCnt - c.peerCnt).toNat := by
  rw [UInt32.le_iff_toNat_le] at h
  rw [UInt32.toNat_sub, UInt32.toNat_sub] at h
  rw [UInt32.toNat_sub, UInt32.toNat_sub, UInt32.toNat_sub]
  have htx := c.txCnt.toNat_lt
  have hpeer := c.peerCnt.toNat_lt
  have hfwd := hdr.fwdCnt.toNat_lt
  omega

theorem Credited.setPeer (hc : c.Credited) (hfair : FairUpdate c hdr) : (c.setPeer hdr).Credited := by
  have hsplit := toNat_sub_fwdCnt hfair.acknowledges
  have hout := hc.outstanding
  have hle := hc.acked_le
  refine ⟨?_, ?_, ?_⟩
  · show c.acked + (hdr.fwdCnt - c.peerCnt).toNat ≤ c.sent
    omega
  · show (c.txCnt - hdr.fwdCnt).toNat = c.sent - (c.acked + (hdr.fwdCnt - c.peerCnt).toNat)
    omega
  · show c.txCnt - hdr.fwdCnt ≤ hdr.bufAlloc
    by_cases hsmaller : hdr.bufAlloc < c.peerAlloc
    · exact hfair.reduces hsmaller
    · exact UInt32.le_trans hfair.acknowledges (UInt32.le_trans hc.within (UInt32.not_lt.1 hsmaller))

theorem toNat_vsockPeerCredit (hc : c.txCnt - c.peerCnt ≤ c.peerAlloc) :
    (Vsock.vsockPeerCredit c).toNat = c.peerAlloc.toNat - (c.txCnt - c.peerCnt).toNat := by
  unfold Vsock.vsockPeerCredit
  rw [UInt32.le_iff_toNat_le] at hc
  split
  · rename_i hzero
    simp [hzero]
  dsimp only
  split
  · rename_i hfull
    rw [UInt32.le_iff_toNat_le] at hfull
    simp only [UInt32.toNat_zero]
    omega
  · rename_i hroom
    rw [UInt32.toNat_sub_of_le _ _ (UInt32.le_of_lt (UInt32.not_le.1 hroom))]

/-- Data no longer than the credit stays within the buffer, also when `txCnt` wraps. -/
theorem Credited.send (hc : c.Credited) {data : Bytes} (hlen : data.length ≤ (Vsock.vsockPeerCredit c).toNat) :
    Credited { c with txCnt := c.txCnt + UInt32.ofNat data.length, sent := c.sent + data.length } := by
  rw [toNat_vsockPeerCredit hc.within] at hlen
  have hwithin := UInt32.le_iff_toNat_le.1 hc.within
  have hout := hc.outstanding
  have hle := hc.acked_le
  have halloc := c.peerAlloc.toNat_lt
  have hnew : (c.txCnt + UInt32.ofNat data.length - c.peerCnt).toNat = (c.txCnt - c.peerCnt).toNat + data.length := by
    have hdata : (UInt32.ofNat data.length).toNat = data.length % 2 ^ 32 := UInt32.toNat_ofNat'
    have htx := c.txCnt.toNat_lt
    have hpeer := c.peerCnt.toNat_lt
    rw [UInt32.toNat_sub] at hwithin hlen ⊢
    rw [UInt32.toNat_sub, UInt32.toNat_add, hdata]
    omega
  refine ⟨?_, ?_, ?_⟩
  · show c.acked ≤ c.sent + data.length
    omega
  · show (c.txCnt + UInt32.ofNat data.length - c.peerCnt).toNat = c.sent + data.length - c.acked
    omega
  · show c.txCnt + UInt32.ofNat data.length - c.peerCnt ≤ c.peerAlloc
    rw [UInt32.le_iff_toNat_le]
    omega

end VsockConnection

/-! ## The table of connections -/

/-- Every connection is filed under its own ports and within the guest's buffer. -/
def CreditedTable (t : VsockConnKey → Option VsockConnection) : Prop := ∀ k c, t k = some c → c.key = k ∧ c.Credited

theorem CreditedTable.set {t : VsockConnKey → Option VsockConnection} (ht : CreditedTable t) {k : VsockConnKey}
    {c : VsockConnection} (hkey : c.key = k) (hc : c.Credited) : CreditedTable (update t k (some c)) := by
  intro k' c' h
  rw [update_apply] at h
  split at h
  · rename_i heq
    obtain rfl := Option.some.inj h
    exact ⟨hkey.trans heq.symm, hc⟩
  · exact ht k' c' h

theorem CreditedTable.remove {t : VsockConnKey → Option VsockConnection} (ht : CreditedTable t) (k : VsockConnKey) :
    CreditedTable (update t k none) := by
  intro k' c' h
  rw [update_apply] at h
  split at h
  · cases h
  · exact ht k' c' h

/-- A packet of the guest that keeps to the credit protocol. -/
def FairPacket {M : Type} (v : Vsock M) (hdr : VsockHeader) : Prop :=
  match VsockOp.ofCode hdr.op with
  | some .request => hdr.fwdCnt = 0
  | some .response | some .rw | some .creditUpdate => ∀ c ∈ v.connections hdr.key, FairUpdate c hdr
  | _ => True

namespace Vsock

variable {M : Type} (G : GuestMemory M)

variable {v : Vsock M}

theorem credited_dispatch (hv : CreditedTable v.connections) (o : BackendAnswer) {hdr : VsockHeader}
    (hfair : FairPacket v hdr) (payload : Bytes) : CreditedTable (v.dispatch o hdr payload).connections := by
  unfold dispatch
  unfold FairPacket at hfair
  split
  · -- a connection starts with nothing sent, so with nothing to acknowledge
    rename_i hop
    simp only [hop] at hfair
    unfold handleConnect
    split
    · exact hv
    split
    · exact hv
    refine hv.set rfl ?_
    rw [hfair]
    exact ⟨le_rfl, by simp, by simp [UInt32.le_iff_toNat_le]⟩
  · rename_i hop
    simp only [hop] at hfair
    unfold handleResponse
    split
    · exact hv
    rename_i c hc
    have hpeer := (hv _ _ hc).2.setPeer (hfair c hc)
    split
    · exact hv
    · exact hv.set (hv _ _ hc).1 ⟨hpeer.acked_le, hpeer.outstanding, hpeer.within⟩
  · exact hv.remove _
  · unfold handleShutdown
    split
    · exact hv
    · exact hv.remove _
  · rename_i hop
    simp only [hop] at hfair
    unfold handleData
    split
    · exact hv
    rename_i c hc
    have hpeer := (hv _ _ hc).2.setPeer (hfair c hc)
    split
    · exact hv
    dsimp only
    split
    · exact hv.set (hv _ _ hc).1 hpeer
    split
    · exact hv.remove _
    · exact hv.set (hv _ _ hc).1 ⟨hpeer.acked_le, hpeer.outstanding, hpeer.within⟩
  · rename_i hop
    simp only [hop] at hfair
    unfold handleCreditUpdate
    split
    · exact hv
    rename_i c hc
    have hpeer := (hv _ _ hc).2.setPeer (hfair c hc)
    exact hv.set (hv _ _ hc).1 ⟨hpeer.acked_le, hpeer.outstanding, hpeer.within⟩
  · unfold handleCreditRequest
    split
    · exact hv
    · exact hv
  · exact hv

/-- A reader sends no more than the credit it finds in the same lock section. -/
theorem credited_sendSection (hv : CreditedTable v.connections) (i : Nat) (r : Reader) (rest : Bytes) :
    CreditedTable (v.sendSection G i r rest).connections := by
  unfold sendSection
  split
  · exact hv
  rename_i c hc
  obtain ⟨hkey, hcredit⟩ := hv _ _ hc
  split
  · exact hv
  split
  · show CreditedTable ((v.sendCreditRequest i c).processRX G).connections
    rw [processRX_connections]
    unfold sendCreditRequest
    split
    · exact hv
    · exact hv.set rfl ⟨hcredit.acked_le, hcredit.outstanding, hcredit.within⟩
  · show CreditedTable ((v.sendData i c _).processRX G).connections
    rw [processRX_connections]
    have hlen : (rest.take (min rest.length (vsockPeerCredit c).toNat)).length ≤ (vsockPeerCredit c).toNat := by
      rw [List.length_take]
      omega
    exact hv.set rfl (hcredit.send hlen)

theorem credited_endSection (hv : CreditedTable v.connections) (i : Nat) (r : Reader) :
    CreditedTable (v.endSection G i r).connections := by
  unfold endSection
  split
  · exact hv
  rename_i c hc
  obtain ⟨hkey, hcredit⟩ := hv _ _ hc
  split
  · show CreditedTable (processRX G _).connections
    rw [processRX_connections]
    exact hv.set hkey ⟨hcredit.acked_le, hcredit.outstanding, hcredit.within⟩
  · exact hv

theorem credited_step {e : VsockEvent M} (hv : CreditedTable v.connections) (hfair : Handles G FairPacket v e) :
    CreditedTable (v.step G e).connections := by
  have hnone : CreditedTable (fun _ => none) := fun _ _ h => nomatch h
  cases e with
  | guestWrites m => exact hv
  | setQueues rx tx => exact hv
  | notifyTX env =>
    refine processTX_rule G (I := fun v => CreditedTable v.connections) ?_ ?_ (fun _ hv => hv) ?_ hv hfair
    · exact fun v _ hdr payload hv hP => credited_dispatch hv _ hP payload
    · exact fun v tx m _ hv => hv
    · intro v hv
      rw [processRX_connections]
      exact hv
  | notifyRX =>
    show CreditedTable (v.processRX G).connections
    rw [processRX_connections]
    exact hv
  | reset => exact hnone
  | detach => exact hv
  | closeChannel => exact hv
  | closeConnections =>
    simp only [step]
    split
    · exact hnone
    · exact hv
  | readReturns i result => exact hv
  | readerRuns i =>
    simp only [step, readerRuns]
    split
    · exact hv
    split
    · exact credited_endSection G hv i _
    · exact credited_sendSection G hv i _ _
    · exact hv
  | readerStops i =>
    simp only [step]
    split
    · exact hv
    · exact hv

/-- In every interleaving with a guest that keeps to the credit protocol, the bytes of a connection that are sent and
not acknowledged are what the wrapped counters say, and no more than the buffer the guest last advertised. -/
theorem outstanding_le_peerAlloc (guestCID : UInt64) (backend : Bool) (m : M) (es : List (VsockEvent M))
    (hfair : RunAll G (Handles G FairPacket) (newVsock guestCID backend m) es) (k : VsockConnKey) (c : VsockConnection)
    (hc : ((newVsock guestCID backend m).run G es).connections k = some c) :
    c.acked ≤ c.sent ∧ (c.txCnt - c.peerCnt).toNat = c.sent - c.acked ∧ c.txCnt - c.peerCnt ≤ c.peerAlloc := by
  have hnew : CreditedTable (newVsock guestCID backend m).connections := fun _ _ h => nomatch h
  have hrun : CreditedTable ((newVsock guestCID backend m).run G es).connections :=
    run_rule G (I := fun v => CreditedTable v.connections) (fun v e hv hQ => credited_step G hv hQ) hnew hfair
  have hcredit := (hrun k c hc).2
  exact ⟨hcredit.acked_le, hcredit.outstanding, hcredit.within⟩

instance (c : VsockConnection) (hdr : VsockHeader) : Decidable (FairUpdate c hdr) :=
  decidable_of_iff (c.txCnt - hdr.fwdCnt ≤ c.txCnt - c.peerCnt ∧
    (hdr.bufAlloc < c.peerAlloc → c.txCnt - hdr.fwdCnt ≤ hdr.bufAlloc)) ⟨fun h => ⟨h.1, h.2⟩, fun h => ⟨h.1, h.2⟩⟩

instance (v : Vsock M) (hdr : VsockHeader) : Decidable (FairPacket v hdr) := by
  unfold FairPacket
  split <;> infer_instance

/-- A guest that offers a buffer of two bytes and acknowledges them once they have come. -/
def creditRun : List (VsockEvent (UInt64 → UInt8)) :=
  [.setQueues guestRx guestTx,
    .guestWrites (guestRam [{ srcPort := 5, dstPort := 1024, op := VsockOp.request.code, bufAlloc := 2 }]),
    .notifyTX fun _ => {}, .readReturns 0 (some [1, 2, 3]), .readerRuns 0, .readerRuns 0,
    .guestWrites (guestRam
      [{ srcPort := 5, dstPort := 1024, op := VsockOp.request.code, bufAlloc := 2 },
        { srcPort := 5, dstPort := 1024, op := VsockOp.creditUpdate.code, bufAlloc := 2, fwdCnt := 2 }]),
    .notifyTX fun _ => {}, .readerRuns 0]

theorem outstanding_le_peerAlloc_creditRun :
    ∃ c, ((newVsock 3 true (guestRam [])).run ram creditRun).connections ⟨1024, 5⟩ = some c ∧
      c.sent = 3 ∧ c.acked = 2 ∧ c.acked ≤ c.sent ∧ (c.txCnt - c.peerCnt).toNat = c.sent - c.acked ∧
      c.txCnt - c.peerCnt ≤ c.peerAlloc := by
  have hfair : RunAll ram (Handles ram FairPacket) (newVsock 3 true (guestRam [])) creditRun := by decide +kernel
  have hc : ((newVsock 3 true (guestRam [])).run ram creditRun).connections ⟨1024, 5⟩ =
      some { key := ⟨1024, 5⟩, state := .connected, peerAlloc := 2, peerCnt := 2, txCnt := 3, backend := 0,
             sent := 3, acked := 2 } := by
    decide +kernel
  exact ⟨_, hc, rfl, rfl, outstanding_le_peerAlloc ram 3 true (guestRam []) creditRun hfair ⟨1024, 5⟩ _ hc⟩

/-- A connect request that acknowledges five bytes before any were sent. -/
def aheadRun : List (VsockEvent (UInt64 → UInt8)) :=
  [.setQueues guestRx guestTx,
    .guestWrites (guestRam
      [{ srcPort := 5, dstPort := 1024, op := VsockOp.request.code, bufAlloc := 8, fwdCnt := 5 }]),
    .notifyTX fun _ => {}]

/-- The bytes on their way are counted round the end of the counter: `2 ^ 32 - 5` of them, where none was sent. -/
theorem outstanding_gt_peerAlloc :
    ∃ c, ((newVsock 3 true (guestRam [])).run ram aheadRun).connections ⟨1024, 5⟩ = some c ∧
      c.sent = 0 ∧ ¬ c.txCnt - c.peerCnt ≤ c.peerAlloc := by
  have hc : ((newVsock 3 true (guestRam [])).run ram aheadRun).connections ⟨1024, 5⟩ =
      some { key := ⟨1024, 5⟩, state := .connected, peerAlloc := 8, peerCnt := 5, backend := 0 } := by
    decide +kernel
  exact ⟨_, hc, rfl, by decide⟩

end Vsock

end CrumbleCracker.Virtio
