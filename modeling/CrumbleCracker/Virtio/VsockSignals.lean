import CrumbleCracker.Virtio.Vsock

/-!
# Signals to waiting vsock readers

A reader without credit waits for `creditCond`. Only `handleCreditUpdate`, a reset of the device and `Close` broadcast
it: a data packet, a new connection, a reset or a shutdown of the guest and the end of another reader on the same ports
also change what a reader waits for.
-/

namespace CrumbleCracker.Virtio

open List Option Function

/-- The reader is in `creditCond.Wait` and has not been signalled. -/
def ReaderPC.waits : ReaderPC → Bool
  | .waiting _ => true
  | _ => false

namespace Vsock

variable {M : Type} (G : GuestMemory M) {v : Vsock M}

/-- A live connection without credit: what a reader waits on. -/
def Lacking (entry : Option VsockConnection) : Prop :=
  ∃ c, entry = some c ∧ c.state = .connected ∧ vsockPeerCredit c = 0

def Waited (v : Vsock M) (key : VsockConnKey) : Prop := ∃ r ∈ v.readers, r.key = key ∧ r.pc.waits

/-- Connections are filed under their ports, and every reader that waits lacks credit on a live one. -/
structure Signalled (v : Vsock M) : Prop where
  filed : ∀ k c, v.connections k = some c → c.key = k
  lacking : ∀ r ∈ v.readers, r.pc.waits → Lacking (v.connections r.key)

variable {key : VsockConnKey}

theorem Signalled.waited (h : v.Signalled) (hw : v.Waited key) : Lacking (v.connections key) := by
  obtain ⟨r, hr, rfl, hwaits⟩ := hw
  exact h.lacking r hr hwaits

theorem keyed {c : VsockConnection} (h : c.key = key) : ∀ c' ∈ some c, c'.key = key := by
  rintro c' ⟨⟩
  exact h

theorem filed_update {t : VsockConnKey → Option VsockConnection} (h : ∀ k c, t k = some c → c.key = k)
    {entry : Option VsockConnection} (hkey : ∀ c ∈ entry, c.key = key) :
    ∀ k c, update t key entry k = some c → c.key = k := by
  intro k c hc
  rw [update_apply] at hc
  split at hc
  · rename_i heq
    rw [heq]
    exact hkey c hc
  · exact h k c hc

variable {v' : Vsock M}

theorem Signalled.set (h : v.Signalled) {entry : Option VsockConnection}
    (hconn : v'.connections = update v.connections key entry) (hkey : ∀ c ∈ entry, c.key = key)
    (hlack : v.Waited key → Lacking entry) (hreaders : ∀ r ∈ v'.readers, r.pc.waits → r ∈ v.readers) :
    v'.Signalled := by
  refine ⟨hconn ▸ filed_update h.filed hkey, fun r hr hwaits => ?_⟩
  have hmem := hreaders r hr hwaits
  rw [hconn, update_apply]
  split
  · rename_i heq
    exact hlack ⟨r, hmem, heq, hwaits⟩
  · exact h.lacking r hmem hwaits

theorem Signalled.same (h : v.Signalled) (hconn : v'.connections = v.connections)
    (hreaders : ∀ r ∈ v'.readers, r.pc.waits → r ∈ v.readers) : v'.Signalled := by
  refine ⟨fun k c hc => h.filed k c (hconn ▸ hc), fun r hr hwaits => ?_⟩
  rw [hconn]
  exact h.lacking r (hreaders r hr hwaits) hwaits

theorem wake_waits (r : Reader) : (wake r).pc.waits = false := by
  unfold wake
  split
  · rfl
  · rename_i hpc
    cases heq : r.pc with
    | waiting rest => exact absurd heq (hpc rest)
    | _ => rfl

theorem signalled_broadcast (h : ∀ k c, v.connections k = some c → c.key = k) : v.broadcast.Signalled := by
  refine ⟨h, fun r hr hwaits => ?_⟩
  obtain ⟨r', -, rfl⟩ := mem_map.1 hr
  rw [wake_waits] at hwaits
  cases hwaits

variable {i : Nat}

theorem mem_modify {α : Type} {l : List α} {f : α → α} {a : α} (h : a ∈ l.modify i f) :
    a ∈ l ∨ ∃ b, l[i]? = some b ∧ a = f b := by
  obtain ⟨j, hj⟩ := mem_iff_getElem?.1 h
  rw [getElem?_modify] at hj
  obtain ⟨b, hb, rfl⟩ := map_eq_some_iff.1 hj
  split
  · rename_i heq
    exact .inr ⟨b, heq ▸ hb, rfl⟩
  · exact .inl (mem_of_getElem? hb)

theorem Signalled.modify (h : v.Signalled) {f : Reader → Reader} (hconn : v'.connections = v.connections)
    (hreaders : v'.readers = v.readers.modify i f) (hf : ∀ r, (f r).pc.waits → f r = r) : v'.Signalled := by
  refine h.same hconn fun r hr hwaits => ?_
  rw [hreaders] at hr
  rcases mem_modify hr with hr | ⟨r', hr', rfl⟩
  · exact hr
  · rw [hf r' hwaits]
    exact mem_of_getElem? hr'

/-! ## Packets -/

/-- While a reader of the packet's ports waits, the packet opens no connection there and ends none, and one with data
brings no credit and its write does not fail. -/
def QuietPacket (v : Vsock M) (o : BackendAnswer) (hdr : VsockHeader) : Prop :=
  v.Waited hdr.key →
    match VsockOp.ofCode hdr.op with
    | some .request => o.connects = false
    | some .rst | some .shutdown => False
    | some .rw => (∀ c ∈ v.connections hdr.key, vsockPeerCredit (c.setPeer hdr) = 0) ∧ o.writes = true
    | _ => True

theorem Signalled.dispatch (h : v.Signalled) {o : BackendAnswer} {hdr : VsockHeader} (hquiet : QuietPacket v o hdr)
    (payload : Bytes) : (v.dispatch o hdr payload).Signalled := by
  have hmem : ∀ r ∈ v.readers, r.pc.waits → r ∈ v.readers := fun _ hr _ => hr
  unfold QuietPacket at hquiet
  unfold Vsock.dispatch
  split
  · rename_i hop
    simp only [hop] at hquiet
    unfold handleConnect
    split
    · exact h.same rfl hmem
    split
    · exact h.same rfl hmem
    rename_i hconnects
    refine h.set rfl (keyed rfl) (fun hw => ?_) fun r hr hwaits => ?_
    · rw [hquiet hw] at hconnects
      exact absurd rfl hconnects
    · -- the new reader reads first
      rcases mem_append.1 hr with hr | hr
      · exact hr
      · obtain rfl := mem_singleton.1 hr
        cases hwaits
  · unfold handleResponse
    split
    · exact h.same rfl hmem
    rename_i c hc
    have hkey := h.filed _ _ hc
    split
    · exact h.same rfl hmem
    rename_i hstate
    refine h.set rfl (keyed hkey) (fun hw => ?_) hmem
    obtain ⟨c', hc', hconnected, -⟩ := h.waited hw
    obtain rfl := some.inj (hc.symm.trans hc')
    rw [hconnected] at hstate
    exact absurd nofun hstate
  · rename_i hop
    simp only [hop] at hquiet
    exact h.set rfl nofun (fun hw => (hquiet hw).elim) hmem
  · rename_i hop
    simp only [hop] at hquiet
    unfold handleShutdown
    split
    · exact h
    · exact h.set rfl nofun (fun hw => (hquiet hw).elim) hmem
  · rename_i hop
    simp only [hop] at hquiet
    unfold handleData
    split
    · exact h.same rfl hmem
    rename_i c hc
    have hkey := h.filed _ _ hc
    split
    · exact h.same rfl hmem
    rename_i hstate
    rw [not_not] at hstate
    dsimp only
    split
    · refine h.set rfl (keyed hkey) (fun hw => ?_) hmem
      exact ⟨_, rfl, hstate, (hquiet hw).1 c hc⟩
    split
    · rename_i hwrites
      refine h.set rfl nofun (fun hw => ?_) hmem
      rw [(hquiet hw).2] at hwrites
      cases hwrites
    · refine h.set rfl (keyed hkey) (fun hw => ?_) hmem
      exact ⟨_, rfl, hstate, (hquiet hw).1 c hc⟩
  · unfold handleCreditUpdate
    split
    · exact h
    rename_i c hc
    have hkey := h.filed _ _ hc
    exact signalled_broadcast (filed_update h.filed (keyed hkey))
  · unfold handleCreditRequest
    split
    · exact h
    · exact h.same rfl hmem
  · exact h

/-! ## Readers -/

/-- The reader that starts to wait has found no credit in the same lock section. -/
theorem Signalled.sendSection (h : v.Signalled) {r : Reader} (hr : v.readers[i]? = some r) (rest : Bytes) :
    (v.sendSection G i r rest).Signalled := by
  unfold Vsock.sendSection
  split
  · exact h.modify rfl rfl nofun
  rename_i c hc
  have hkey := h.filed _ _ hc
  split
  · exact h.modify rfl rfl nofun
  rename_i hstate
  rw [not_not] at hstate
  split
  · rename_i hcredit
    have hasked : (v.sendCreditRequest i c).Signalled ∧ Lacking ((v.sendCreditRequest i c).connections r.key) ∧
        (v.sendCreditRequest i c).readers = v.readers := by
      unfold sendCreditRequest
      split
      · exact ⟨h, ⟨c, hc, hstate, hcredit⟩, rfl⟩
      · have hlack : Lacking (some { c with creditRequestPending := true }) := ⟨_, rfl, hstate, hcredit⟩
        refine ⟨h.set rfl (keyed rfl) (fun _ => hlack) fun _ hr _ => hr, ?_, rfl⟩
        show Lacking (update v.connections c.key _ r.key)
        rw [← hkey, update_self]
        exact hlack
    obtain ⟨hsig, hlack, hreaders⟩ := hasked
    refine ⟨fun k c' hc' => hsig.filed k c' ?_, fun r' hr' hwaits => ?_⟩
    · rwa [setPc, processRX_connections] at hc'
    · rw [setPc, processRX_connections]
      rw [setPc, processRX_readers, hreaders] at hr'
      rcases mem_modify hr' with hr' | ⟨r'', hr'', rfl⟩
      · exact hsig.lacking r' (hreaders ▸ hr') hwaits
      · obtain rfl := some.inj (hr.symm.trans hr'')
        exact hlack
  · -- with credit nobody of these ports waits
    rename_i hcredit
    have hsent : (v.sendData i c (rest.take (min rest.length (vsockPeerCredit c).toNat))).Signalled := by
      refine h.set rfl (keyed rfl) (fun hw => ?_) fun _ hr _ => hr
      obtain ⟨c', hc', -, hzero⟩ := h.waited hw
      rw [hkey, hc] at hc'
      exact absurd (some.inj hc' ▸ hzero) hcredit
    refine hsent.modify (processRX_connections G _) (congrArg _ (processRX_readers G _)) fun r' hwaits => ?_
    unfold afterChunk at hwaits
    split at hwaits
    · cases hwaits
    · cases hwaits

theorem Signalled.endSection (h : v.Signalled) {r : Reader} (hquiet : ¬v.Waited r.key) :
    (v.endSection G i r).Signalled := by
  unfold Vsock.endSection
  split
  · exact h.modify rfl rfl nofun
  rename_i c hc
  have hkey := h.filed _ _ hc
  split
  · have hclosing : ((v.sendShutdown i r.key).setConnection r.key (some { c with state := .closing })).Signalled :=
      h.set rfl (keyed hkey) (fun hw => absurd hw hquiet) fun _ hr _ => hr
    exact hclosing.modify (processRX_connections G _) (congrArg _ (processRX_readers G _)) nofun
  · exact h.modify rfl rfl nofun

/-! ## Runs -/

/-- The event brings no quiet change to what a waiting reader waits for: neither with a packet nor by the end of another
reader on the same ports. -/
def Quiet (v : Vsock M) : VsockEvent M → Prop
  | .notifyTX env => Answers G QuietPacket v (.notifyTX env)
  | .readerRuns i => ∀ r ∈ v.readers[i]?, r.pc = .failing → ¬v.Waited r.key
  | _ => True

theorem Signalled.step (h : v.Signalled) {e : VsockEvent M} (hquiet : Quiet G v e) : (v.step G e).Signalled := by
  have hmem : ∀ r ∈ v.readers, r.pc.waits → r ∈ v.readers := fun _ hr _ => hr
  cases e with
  | notifyTX env =>
    refine processTX_rule G (fun v _ hdr payload hv hP => hv.dispatch hP payload) (fun v tx m _ hv => ?_)
      (fun _ hv => hv) (fun v hv => ?_) h hquiet
    · exact hv.same rfl fun _ hr _ => hr
    · exact hv.same (processRX_connections G v) fun r hr _ => processRX_readers G v ▸ hr
  | notifyRX => exact h.same (processRX_connections G v) fun r hr _ => processRX_readers G v ▸ hr
  | reset => exact signalled_broadcast nofun
  | closeConnections =>
    simp only [Vsock.step]
    split
    · exact signalled_broadcast nofun
    · exact h
  | readReturns i result =>
    refine h.modify rfl rfl fun r hwaits => ?_
    unfold readReturns at hwaits ⊢
    split at hwaits
    · cases hwaits
    · dsimp only at hwaits
      split at hwaits
      · cases hwaits
      · cases hwaits
    · rfl
  | readerRuns i =>
    simp only [Vsock.step, Vsock.readerRuns]
    split
    · exact h
    rename_i r hr
    split
    · rename_i hpc
      exact h.endSection G (hquiet r hr hpc)
    · exact h.sendSection G hr _
    · exact h
  | readerStops i =>
    simp only [Vsock.step]
    split
    · refine h.modify rfl rfl fun r hwaits => ?_
      unfold readerStops at hwaits ⊢
      split at hwaits
      · cases hwaits
      · cases hwaits
      · rfl
    · exact h
  | _ => exact h.same rfl hmem

theorem waiting_lacking (guestCID : UInt64) (backend : Bool) (m : M) (es : List (VsockEvent M))
    (hquiet : RunAll G (Quiet G) (newVsock guestCID backend m) es) (r : Reader)
    (hr : r ∈ ((newVsock guestCID backend m).run G es).readers) (hwaits : r.pc.waits) :
    Lacking (((newVsock guestCID backend m).run G es).connections r.key) := by
  have hnew : (newVsock guestCID backend m).Signalled := ⟨nofun, nofun⟩
  exact (run_rule G (I := Signalled) (fun v e hv hQ => hv.step G hQ) hnew hquiet).lacking r hr hwaits

/-- A guest connects without a buffer, and the backend has a byte for it. -/
def waitingRun : List (VsockEvent (UInt64 → UInt8)) :=
  [.setQueues guestRx guestTx, .guestWrites (guestRam [{ srcPort := 5, dstPort := 1024, op := VsockOp.request.code }]),
    .notifyTX fun _ => {}, .readReturns 0 (some [1]), .readerRuns 0]

theorem waiting_lacking_waitingRun : ∃ r ∈ ((newVsock 3 true (guestRam [])).run ram waitingRun).readers, r.pc.waits ∧
      Lacking (((newVsock 3 true (guestRam [])).run ram waitingRun).connections r.key) := by
  have hconnect : Handles ram (fun v _ => v.readers = []) ((newVsock 3 true (guestRam [])).run ram (waitingRun.take 2))
      (.notifyTX fun _ => {}) := by
    decide +kernel
  have hsends : ((newVsock 3 true (guestRam [])).run ram (waitingRun.take 4)).readers[0]? =
      some { key := ⟨1024, 5⟩, pc := .sending [1], got := [1] } := by
    decide +kernel
  have hwaits : { key := ⟨1024, 5⟩, pc := .waiting [1], got := [1] } ∈
      ((newVsock 3 true (guestRam [])).run ram waitingRun).readers := by
    decide +kernel
  have hquiet : RunAll ram (Quiet ram) (newVsock 3 true (guestRam [])) waitingRun := by
    refine ⟨trivial, trivial, hconnect.mono ram ?_, trivial, ?_, trivial⟩
    · rintro v o hdr hnone ⟨r, hr, -⟩
      rw [hnone] at hr
      cases hr
    · intro r hr hfailing
      obtain rfl := some.inj (hsends.symm.trans hr)
      cases hfailing
  exact ⟨_, hwaits, rfl, waiting_lacking ram 3 true (guestRam []) waitingRun hquiet _ hwaits rfl⟩

/-- Then a data packet of the guest offers eight bytes. -/
def offeringRun : List (VsockEvent (UInt64 → UInt8)) :=
  waitingRun ++
    [.guestWrites (guestRam [{ srcPort := 5, dstPort := 1024, op := VsockOp.request.code },
      { srcPort := 5, dstPort := 1024, op := VsockOp.rw.code, bufAlloc := 8 }]), .notifyTX fun _ => {}]

theorem offeringRun_waits : ∃ r ∈ ((newVsock 3 true (guestRam [])).run ram offeringRun).readers, r.pc.waits ∧
      ∃ c, ((newVsock 3 true (guestRam [])).run ram offeringRun).connections r.key = some c ∧ vsockPeerCredit c = 8 :=
  ⟨{ key := ⟨1024, 5⟩, pc := .waiting [1], got := [1] }, by decide +kernel, rfl,
    { key := ⟨1024, 5⟩, state := .connected, peerAlloc := 8, peerCnt := 0, backend := 0, creditRequestPending := true },
    by decide +kernel, by decide +kernel⟩

end Vsock

end CrumbleCracker.Virtio
