import CrumbleCracker.Netstack.TcpSteps

/-!
# What the stack acknowledges it keeps

Every byte of the guest below an acknowledgement was handed to a reader, or is in `readPending`, in the channel
`recvBuf` or in the hands of a call in progress, in every run in which the channel has room when a payload is put into
it, `readPending` is free when `Read` keeps the rest of a payload, the writer of `WriteTo` takes what it is given and
the guest's FIN comes in order (`acknowledged_kept`). With no reader, the 513th payload is acknowledged and dropped
(`acknowledged_dropped`).
-/

namespace CrumbleCracker.Netstack

open List

variable {i n : Nat} {t : Task}

/-! ## Pieces of the guest's stream -/

/-- One of the pieces holds the byte at place `n`. -/
def Covers (ps : List Piece) (n : Nat) : Prop := ∃ p ∈ ps, p.off ≤ n ∧ n < p.off + p.data.length
deriving Decidable

@[simp] theorem covers_nil (n : Nat) : ¬ Covers [] n := by simp [Covers]

@[simp] theorem covers_cons (p : Piece) (ps : List Piece) (n : Nat) :
    Covers (p :: ps) n ↔ (p.off ≤ n ∧ n < p.off + p.data.length) ∨ Covers ps n := by
  simp [Covers]

@[simp] theorem covers_append (ps qs : List Piece) (n : Nat) : Covers (ps ++ qs) n ↔ Covers ps n ∨ Covers qs n := by
  simp only [Covers, mem_append, or_and_right, exists_or]

theorem covers_split (p : Piece) (k : Nat) (h : p.off ≤ n ∧ n < p.off + p.data.length) :
    (p.off ≤ n ∧ n < p.off + (p.data.take k).length) ∨ (p.off + k ≤ n ∧ n < p.off + k + (p.data.drop k).length) := by
  rw [length_take, length_drop]
  omega

theorem covers_piecesAt (bs : List Bytes) {off : Nat} (hlo : off ≤ n) (hhi : n < off + bs.flatten.length) :
    Covers (piecesAt off bs) n := by
  induction bs generalizing off with
  | nil => simp at hhi; omega
  | cons b bs ih =>
    rw [flatten_cons, length_append] at hhi
    rw [piecesAt, covers_cons]
    by_cases hb : n < off + b.length
    · exact .inl ⟨hlo, hb⟩
    · apply Or.inr
      apply ih
      · omega
      · omega

/-- What is kept for readers or was handed to them. -/
def RecvSide.pieces (r : RecvSide) : List Piece := r.returned ++ r.readPending.toList ++ r.recvBuf.filterMap id

theorem hands_enqueue (ps : List Piece) (as : List Action) :
    (Task.actions (ps.map (fun p => Action.enqueue (some p)) ++ as)).hands = ps ++ (Task.actions as).hands := by
  induction ps with
  | nil => rfl
  | cons p ps ih => exact congrArg (p :: ·) ih

theorem frames_enqueue (ps : List Piece) (as : List Action) :
    (Task.actions (ps.map (fun p => Action.enqueue (some p)) ++ as)).frames = (Task.actions as).frames := by
  induction ps with
  | nil => rfl
  | cons p ps ih => exact ih

/-- What is in hands before a task moves is in its hands or stays in the others'. -/
theorem covers_hands_set {ts : List Task} (t' : Task) (hi : ts[i]? = some t) (h : Covers (ts.flatMap Task.hands) n) :
    Covers t.hands n ∨ Covers ((ts.set i t').flatMap Task.hands) n := by
  obtain ⟨us, vs, heq, hset⟩ := split_tasks hi
  rw [heq] at h
  rw [hset]
  simp only [flatMap_append, flatMap_cons, covers_append] at h ⊢
  tauto

variable {t' : Task}

theorem covers_hands_moved {ts : List Task} (hi : ts[i]? = some t) (h : Covers t'.hands n) :
    Covers ((ts.set i t').flatMap Task.hands) n := by
  obtain ⟨us, vs, -, hset⟩ := split_tasks hi
  rw [hset, flatMap_append, flatMap_cons, covers_append, covers_append]
  exact .inr (.inl h)

namespace TcpConn

/-! ## The invariant -/

/-- A frame acknowledges what the connection has moved over, by its place. -/
structure AcksUpTo (irs : UInt32) (place : Nat) (f : Frame) : Prop where
  ack : f.ack = seqAt irs f.ackOff
  le : f.ackOff ≤ place

variable {irs : UInt32}

theorem AcksUpTo.mono {m : Nat} {f : Frame} (h : AcksUpTo irs m f) (hmn : m ≤ n) : AcksUpTo irs n f :=
  ⟨h.ack, h.le.trans hmn⟩

/-- What an open connection has moved over it has kept. -/
structure Acked (irs : UInt32) (c : TcpConn) : Prop where
  state : Connected c.state
  sized : OOOSized c.recv.oooRecvBuf
  seq : c.recv.guestSeq = seqAt irs c.recv.place
  fin : ∀ s, c.recv.finSeq = some s → s = seqAt irs c.recv.got ∧ c.state ≠ .established
  wire : ∀ f ∈ c.wire, AcksUpTo irs c.recv.place f
  frames : ∀ t ∈ c.tasks, ∀ f ∈ t.frames, AcksUpTo irs c.recv.place f
  kept : c.closed = false → ∀ n < c.recv.got, Covers (c.recv.pieces ++ c.tasks.flatMap Task.hands) n

/-- Task `i` moves from `t` to `t'` without losing a piece, and the numbers of the receiving side stay. -/
structure Carries (i : Nat) (t t' : Task) (c c' : TcpConn) : Prop where
  tasks : c'.tasks = c.tasks.set i t'
  guestSeq : c'.recv.guestSeq = c.recv.guestSeq
  got : c'.recv.got = c.recv.got
  finSeq : c'.recv.finSeq = c.recv.finSeq
  sized : OOOSized c.recv.oooRecvBuf → OOOSized c'.recv.oooRecvBuf
  state : c'.state = c.state ∨ c'.state = .closed
  wire : ∀ f ∈ c'.wire, f ∈ c.wire ∨ f ∈ t.frames
  frames : ∀ f ∈ t'.frames, f ∈ t.frames ∨ (f.ack = c.recv.guestSeq ∧ f.ackOff = c.recv.place)
  pieces : c'.closed = false → c.closed = false ∧
    ∀ n, Covers (c.recv.pieces ++ t.hands) n → Covers (c'.recv.pieces ++ t'.hands) n

variable {c c' : TcpConn}

theorem Carries.place (h : Carries i t t' c c') : c'.recv.place = c.recv.place := by
  rw [RecvSide.place, RecvSide.place, h.got, h.finSeq]

section Kept

variable (h : Acked irs c)

include h

theorem Acked.carries (hi : c.tasks[i]? = some t) (hc : Carries i t t' c c') : Acked irs c' := by
  have hmem : t ∈ c.tasks := mem_of_getElem? hi
  have hown : ∀ f ∈ t'.frames, AcksUpTo irs c.recv.place f := by
    intro f hf
    rcases hc.frames f hf with hold | ⟨hack, hoff⟩
    · exact h.frames t hmem f hold
    · exact ⟨by rw [hack, hoff, h.seq], hoff.le⟩
  refine ⟨?_, hc.sized h.sized, ?_, ?_, ?_, ?_, ?_⟩
  · rcases hc.state with hs | hs
    · rw [hs]; exact h.state
    · rw [hs]; exact .inr (.inr rfl)
  · rw [hc.guestSeq, hc.place, h.seq]
  · intro s hs
    rw [hc.finSeq] at hs
    obtain ⟨hgot, hstate⟩ := h.fin s hs
    refine ⟨by rw [hc.got, hgot], ?_⟩
    rcases hc.state with hs | hs <;> rw [hs]
    · exact hstate
    · exact nofun
  · intro f hf
    rw [hc.place]
    rcases hc.wire f hf with hold | hown
    · exact h.wire f hold
    · exact h.frames t hmem f hown
  · rw [hc.place, hc.tasks]
    exact forall_mem_set h.frames hown
  · intro hopen n hn
    obtain ⟨hopen, hpool⟩ := hc.pieces hopen
    rw [hc.got] at hn
    have hmoved : Covers (c.recv.pieces ++ t.hands) n →
        Covers (c'.recv.pieces ++ (c.tasks.set i t').flatMap Task.hands) n := by
      intro hcov
      rcases (covers_append ..).1 (hpool n hcov) with hr | ht
      · exact (covers_append ..).2 (.inl hr)
      · exact (covers_append ..).2 (.inr (covers_hands_moved hi ht))
    rw [hc.tasks]
    rcases (covers_append ..).1 (h.kept hopen n hn) with hr | ht
    · exact hmoved ((covers_append ..).2 (.inl hr))
    · rcases covers_hands_set t' hi ht with hmine | hothers
      · exact hmoved ((covers_append ..).2 (.inr hmine))
      · exact (covers_append ..).2 (.inr hothers)

/-- What the invariant looks at. -/
def passing (c : TcpConn) : List Task × RecvSide × TcpState × Bool × List Frame :=
  (c.tasks, c.recv, c.state, c.closed, c.wire)

omit h in
theorem Carries.same (t' : Task) (hsame : c'.passing = (c.goto i t').passing) (hhands : t'.hands = t.hands)
    (hframes : ∀ f ∈ t'.frames, f ∈ t.frames ∨ (f.ack = c.recv.guestSeq ∧ f.ackOff = c.recv.place)) :
    Carries i t t' c c' := by
  simp only [passing, goto, Prod.mk.injEq] at hsame
  obtain ⟨htasks, hrecv, hstate, hclosed, hwire⟩ := hsame
  refine ⟨htasks, by rw [hrecv], by rw [hrecv], by rw [hrecv], ?_, .inl hstate, ?_, hframes, ?_⟩
  · rw [hrecv]; exact id
  · rw [hwire]; exact fun f hf => .inl hf
  · rw [hclosed, hrecv, hhands]; exact fun hopen => ⟨hopen, fun n hn => hn⟩

/-! ## Segments -/

/-- The guest's FIN lies where the receiving side stands: right behind the segment's payload, with nothing buffered
behind that. -/
def FinInOrder (r : RecvSide) (hdr : TcpHeader) : Prop :=
  if hdr.payload = [] then hdr.seq = r.guestSeq
  else hdr.seq = r.guestSeq → r.ready hdr.payload = [hdr.payload]
deriving Decidable

variable {r : RecvSide}

omit h in
theorem keep_sized (h : OOOSized r.oooRecvBuf) (hdr : TcpHeader) : OOOSized (r.keep hdr).oooRecvBuf := by
  unfold RecvSide.keep
  split
  · exact h.insert rfl
  · exact h

omit h in
theorem keep_carries (hdr : TcpHeader) (hh : t.hands = []) :
    Carries i t (.actions [.sendAck]) c ({ c with recv := c.recv.keep hdr }.release i (.actions [.sendAck])) := by
  obtain ⟨buf, hkeep⟩ : ∃ buf, c.recv.keep hdr = { c.recv with oooRecvBuf := buf } := by
    unfold RecvSide.keep
    split <;> exact ⟨_, rfl⟩
  have hsized := fun h => keep_sized (r := c.recv) h hdr
  rw [hkeep] at hsized ⊢
  refine ⟨rfl, rfl, rfl, rfl, hsized, .inl rfl, fun f hf => .inl hf, nofun, fun hopen => ⟨hopen, fun n hn => ?_⟩⟩
  rw [hh] at hn
  exact hn

omit h in
/-- `guestSeq` moves over the payloads that are let through, and their pieces are in the hands of the call. -/
theorem accept_seq (hsized : OOOSized r.oooRecvBuf) (hfin : r.finSeq = none) (hseq : r.guestSeq = seqAt irs r.place)
    (payload : Bytes) :
    OOOSized (r.accept payload).oooRecvBuf ∧ (r.accept payload).guestSeq = seqAt irs (r.accept payload).got := by
  have hgot : r.place = r.got := by rw [RecvSide.place, hfin]; rfl
  obtain ⟨hkept, hnext⟩ := collectContiguous_spec hsized (r.guestSeq + UInt32.ofNat payload.length)
  refine ⟨hkept, ?_⟩
  show (collectContiguous r.oooRecvBuf _).2.2 = seqAt irs (r.got + (r.ready payload).flatten.length)
  rw [hnext, RecvSide.ready, flatten_cons, length_append, hseq, hgot, ← Nat.add_assoc, seqAt_add, seqAt_add]
  rfl

/-- The connection after a payload in order was accepted: the receiving side is `r`, at or behind the FIN. -/
theorem accepts {s : TcpState} (bs : List Bytes) (as : List Action) (hi : c.tasks[i]? = some t) (hh : t.hands = [])
    (hs : Connected s) (hsized : OOOSized r.oooRecvBuf) (hseq : r.guestSeq = seqAt irs r.place)
    (hfin : ∀ q, r.finSeq = some q → q = seqAt irs r.got ∧ s ≠ .established)
    (hgot : r.got = c.recv.got + bs.flatten.length)
    (hplace : c.recv.place ≤ r.place) (hpieces : r.pieces = c.recv.pieces) (has : (Task.actions as).frames = []) :
    Acked irs ({ c with recv := r, state := s }.release i
      (.actions ((piecesAt c.recv.got bs).map (fun p => Action.enqueue (some p)) ++ as))) := by
  refine ⟨hs, hsized, hseq, hfin, fun f hf => (h.wire f hf).mono hplace, ?_, ?_⟩
  · apply forall_mem_set fun u hu f hf => (h.frames u hu f hf).mono hplace
    rw [frames_enqueue, has]
    exact nofun
  · intro hopen n hn
    apply (covers_append ..).2
    show Covers r.pieces n ∨ _
    rw [hpieces]
    by_cases hold : n < c.recv.got
    · rcases (covers_append ..).1 (h.kept hopen n hold) with hr | ht
      · exact .inl hr
      · rcases covers_hands_set _ hi ht with hmine | hothers
        · rw [hh] at hmine
          exact absurd hmine (covers_nil n)
        · exact .inr hothers
    · apply Or.inr
      apply covers_hands_moved hi
      rw [hands_enqueue]
      apply (covers_append ..).2
      refine .inl (covers_piecesAt bs (by omega) ?_)
      show n < c.recv.got + bs.flatten.length
      rw [← hgot]
      exact hn

theorem Acked.finSeq_none (hs : c.state = .established) : c.recv.finSeq = none := by
  cases hfin : c.recv.finSeq with
  | none => rfl
  | some q => exact absurd hs (h.fin q hfin).2

omit h in
theorem place_of_finSeq_none (h : r.finSeq = none) : r.place = r.got := by
  rw [RecvSide.place, h]
  rfl

variable {hdr : TcpHeader}

theorem receivePayload_acked (hi : c.tasks[i]? = some t) (hh : t.hands = []) (hs : c.state = .established)
    (hp : hdr.payload ≠ []) (hfin : hdr.fin = true → FinInOrder c.recv hdr) : Acked irs (c.receivePayload i hdr) := by
  have hnone := h.finSeq_none hs
  have hplace := place_of_finSeq_none hnone
  obtain ⟨hsized, hseq⟩ := accept_seq h.sized hnone h.seq hdr.payload
  unfold receivePayload
  split
  · exact h.carries hi (keep_carries hdr hh)
  rename_i hin
  have hin : hdr.seq = c.recv.guestSeq := Decidable.not_not.1 hin
  dsimp only
  split
  · rename_i hf
    -- nothing is buffered behind the FIN, so its number is the next one
    have hready : c.recv.ready hdr.payload = [hdr.payload] := by
      have := hfin hf
      rw [FinInOrder, if_neg hp] at this
      exact this hin
    have hgot : (c.recv.accept hdr.payload).got = c.recv.got + hdr.payload.length := by
      show c.recv.got + (c.recv.ready hdr.payload).flatten.length = _
      rw [hready]
      simp
    refine accepts h _ _ hi hh (.inr (.inl rfl)) hsized ?_ ?_ rfl ?_ rfl (finActions_frames _)
    · show (c.recv.accept hdr.payload).guestSeq + 1 = seqAt irs ((c.recv.accept hdr.payload).got + 1)
      rw [hseq, seqAt_add]
      rfl
    · intro q hq
      have hq : hdr.seq + UInt32.ofNat hdr.payload.length = q := Option.some.inj hq
      refine ⟨?_, nofun⟩
      show q = seqAt irs (c.recv.accept hdr.payload).got
      rw [← hq, hin, h.seq, hplace, hgot, seqAt_add]
    · show c.recv.place ≤ (c.recv.accept hdr.payload).got + 1
      rw [hplace, hgot]
      omega
  · refine accepts h _ _ hi hh h.state hsized ?_ ?_ rfl ?_ rfl rfl
    · rw [place_of_finSeq_none (show (c.recv.accept hdr.payload).finSeq = none from hnone)]
      exact hseq
    · intro q hq
      have hq : c.recv.finSeq = some q := hq
      rw [hnone] at hq
      cases hq
    · rw [place_of_finSeq_none (show (c.recv.accept hdr.payload).finSeq = none from hnone), hplace]
      exact Nat.le_add_right ..

theorem bareFin_acked (hi : c.tasks[i]? = some t) (hh : t.hands = []) (hs : c.state = .established)
    (hp : hdr.payload = []) (hfin : FinInOrder c.recv hdr) :
    Acked irs
      ({ c with recv := c.recv.acceptFin hdr, state := .finWait }.release i (.actions (finActions c.writeClosed))) := by
  have hplace := place_of_finSeq_none (h.finSeq_none hs)
  rw [FinInOrder, if_pos hp] at hfin
  refine accepts h (r := c.recv.acceptFin hdr) [] (finActions c.writeClosed) hi hh (.inr (.inl rfl)) h.sized ?_
    ?_ rfl ?_ rfl
    (finActions_frames _)
  · show c.recv.guestSeq + 1 = seqAt irs (c.recv.got + 1)
    rw [h.seq, hplace, seqAt_add]
    rfl
  · intro q hq
    have hq : hdr.seq + UInt32.ofNat hdr.payload.length = q := Option.some.inj hq
    refine ⟨?_, nofun⟩
    show q = seqAt irs c.recv.got
    rw [← hq, hp, hfin, h.seq, hplace]
    simp
  · show c.recv.place ≤ c.recv.got + 1
    rw [hplace]
    omega

variable (ch : Choice)

theorem segmentSwitch_acked (hi : c.tasks[i]? = some t) (hh : t.hands = [])
    (hfin : c.state = .established → hdr.fin = true → FinInOrder c.recv hdr) :
    Acked irs (c.segmentSwitch i hdr ch) := by
  -- a call that stops here without taking anything
  have hquiet : ∀ {s : TcpState} {t' : Task}, s = c.state ∨ s = .closed → t'.hands = [] → t'.frames = [] →
      Acked irs ({ c with state := s }.release i t') := by
    intro s t' hs hhands hframes
    refine h.carries hi ⟨rfl, rfl, rfl, rfl, id, hs, fun f hf => .inl hf, ?_, fun hopen => ⟨hopen, fun n hn => ?_⟩⟩
    · rw [hframes]; exact nofun
    · rw [hhands]; rw [hh] at hn; exact hn
  unfold segmentSwitch
  rcases h.state with hs | hs | hs
  · rw [hs]
    dsimp only
    split
    · exact receivePayload_acked h hi hh hs ‹_› (hfin hs)
    rename_i hp
    have hp : hdr.payload = [] := Decidable.not_not.1 hp
    split
    · exact bareFin_acked h hi hh hs hp (hfin hs ‹_›)
    split
    · exact hquiet (.inl rfl) rfl rfl
    · exact hquiet (.inl rfl) rfl rfl
  · rw [hs]
    dsimp only
    split
    · exact hquiet (.inr rfl) rfl rfl
    · exact hquiet (.inl rfl) rfl rfl
  · rw [hs]
    exact hquiet (.inl rfl) rfl rfl

theorem Acked.other (s : SendSide) (tm : TimerSide) (m : Option Nat) :
    Acked irs { c with send := s, timer := tm, mu := m } :=
  ⟨h.state, h.sized, h.seq, h.fin, h.wire, h.frames, h.kept⟩

theorem segmentRest_acked (hi : c.tasks[i]? = some t) (hh : t.hands = [])
    (hfin : c.state = .established → hdr.fin = true → FinInOrder c.recv hdr) : Acked irs (c.segmentRest i hdr ch) := by
  unfold segmentRest
  split
  · exact segmentSwitch_acked (h.other _ c.timer c.mu) ch hi hh hfin
  · exact segmentSwitch_acked h ch hi hh hfin

omit h in
theorem Sending.carries (h : Sending i t t' c c') (hh : t.hands = []) : Carries i t t' c c' := by
  refine ⟨h.tasks, by rw [h.recv], by rw [h.recv], by rw [h.recv], ?_, .inl h.state, h.wire, h.frames, fun hopen => ?_⟩
  · rw [h.recv]
    exact id
  · rw [h.hands, h.recv, ← hh]
    exact ⟨h.closed.symm.trans hopen, fun n hn => hn⟩

/-! ## The rest of a call -/

omit h in
theorem transmit_carries {f : Frame} (ok : Bool) (hf : f ∈ t.frames) (hhands : t'.hands = t.hands)
    (hframes : ∀ g ∈ t'.frames, g ∈ t.frames) : Carries i t t' c ((c.transmit f ok).goto i t') := by
  have hwire : ∀ g ∈ (c.transmit f ok).wire, g ∈ c.wire ∨ g ∈ t.frames :=
    fun g hg => (mem_transmit_wire hg).imp id fun (hgf : g = f) => hgf ▸ hf
  have hpieces : c.closed = false → c.closed = false ∧
      ∀ n, Covers (c.recv.pieces ++ t.hands) n → Covers (c.recv.pieces ++ t'.hands) n := by
    rw [hhands]
    exact fun hopen => ⟨hopen, fun n hn => hn⟩
  cases ok <;> exact ⟨rfl, rfl, rfl, rfl, id, .inl rfl, hwire, fun g hg => .inl (hframes g hg), hpieces⟩

omit h in
theorem enqueue_carries {data : Option Piece} {as : List Action}
    (hroom : ∀ p, data = some p → c.recv.recvBuf.length < recvBufCapacity) :
    Carries i (.actions (.enqueue data :: as)) (.actions as) c
      ({ c with recv := c.recv.enqueue data }.goto i (.actions as)) := by
  have hpieces : ∀ n, Covers (c.recv.pieces ++ (Task.actions (.enqueue data :: as)).hands) n →
      Covers ((c.recv.enqueue data).pieces ++ as.filterMap Action.piece) n := by
    intro n hn
    cases data with
    | none =>
      have hn : Covers (c.recv.pieces ++ as.filterMap Action.piece) n := hn
      unfold RecvSide.enqueue
      split
      · simpa [RecvSide.pieces] using hn
      · exact hn
    | some p =>
      rw [RecvSide.enqueue, if_pos (hroom p rfl)]
      simpa [RecvSide.pieces, Task.hands, Action.piece, or_assoc] using hn
  obtain ⟨buf, henq⟩ : ∃ buf, c.recv.enqueue data = { c.recv with recvBuf := buf } := by
    unfold RecvSide.enqueue
    split <;> exact ⟨_, rfl⟩
  rw [henq] at hpieces ⊢
  exact ⟨rfl, rfl, rfl, rfl, id, .inl rfl, fun f hf => .inl hf, fun f hf => .inl hf, fun hopen => ⟨hopen, hpieces⟩⟩

theorem act_acked {a : Action} {as : List Action} (hi : c.tasks[i]? = some (.actions (a :: as)))
    (hroom : ∀ p, a = .enqueue (some p) → c.closed = false → c.recv.recvBuf.length < recvBufCapacity) :
    Acked irs (c.act i a as ch) := by
  cases a with
  | enqueue data =>
    rw [act]
    split
    · rename_i hclosed
      refine h.carries hi ⟨rfl, rfl, rfl, rfl, id, .inl rfl, fun f hf => .inl hf, fun f hf => .inl hf, fun hopen => ?_⟩
      have hopen : c.closed = false := hopen
      rw [hclosed] at hopen
      cases hopen
    · rename_i hopen
      have hopen : c.closed = false := by simpa using hopen
      apply h.carries hi
      apply enqueue_carries
      rintro p rfl
      exact hroom p rfl hopen
  | sendAck | sendFin =>
    refine h.carries hi (.same (.actions (.transmit _ :: as)) rfl rfl ?_)
    rintro f (_ | ⟨_, hf⟩)
    · exact .inr ⟨rfl, rfl⟩
    · exact .inl hf
  | transmit f =>
    exact h.carries hi (transmit_carries ch.ok mem_cons_self rfl fun g hg => mem_cons_of_mem f hg)
  | close =>
    rw [act, closeSection]
    split
    · exact h.carries hi (.same (.actions as) rfl rfl fun f hf => .inl hf)
    · refine h.carries hi ⟨rfl, rfl, rfl, rfl, id, .inr rfl, fun f hf => .inl hf, fun f hf => .inl ?_, by rintro ⟨⟩⟩
      split at hf <;> exact hf
  | stopTimer | clearSend => exact h.carries hi (.same (.actions as) rfl rfl fun f hf => .inl hf)
  | clearRecv =>
    exact h.carries hi ⟨rfl, rfl, rfl, rfl, fun _ => (by rintro _ ⟨⟩), .inl rfl, fun f hf => .inl hf,
      fun f hf => .inl hf, fun hopen => ⟨hopen, fun n hn => hn⟩⟩

/-! ## Readers -/

omit h in
theorem covers_pieces (r : RecvSide) (n : Nat) :
    Covers r.pieces n ↔ Covers r.returned n ∨ Covers r.readPending.toList n ∨ Covers (r.recvBuf.filterMap id) n := by
  rw [RecvSide.pieces, covers_append, covers_append, or_assoc]

theorem Acked.reads (hi : c.tasks[i]? = some t) (buf : List (Option Piece)) (pending : Option Piece)
    (returned : List Piece) (t' : Task) (hframes : t'.frames = [])
    (hpieces : c.closed = false → ∀ n, Covers c.recv.pieces n ∨ Covers t.hands n →
      Covers returned n ∨ Covers pending.toList n ∨ Covers (buf.filterMap id) n ∨ Covers t'.hands n) :
    Acked irs ({ c with
      recv := { c.recv with recvBuf := buf, readPending := pending, returned := returned } }.goto i t') := by
  refine h.carries hi ⟨rfl, rfl, rfl, rfl, id, .inl rfl, fun f hf => .inl hf, ?_, fun hopen => ⟨hopen, fun n hn => ?_⟩⟩
  · rw [hframes]
    exact nofun
  · apply (covers_append ..).2
    rw [covers_pieces, or_assoc, or_assoc]
    exact hpieces hopen n ((covers_append ..).1 hn)

theorem read_acked (hi : c.tasks[i]? = some (.read n)) : Acked irs (c.read i n ch) := by
  unfold read
  split
  · rename_i p hp
    refine h.reads hi _ _ _ .done rfl fun _ m hm => ?_
    split
    · rename_i hle
      simp [covers_pieces, hp, Task.hands, take_of_length_le hle] at hm ⊢
      tauto
    · have hsplit := covers_split (n := m) p n
      simp [covers_pieces, hp, Task.hands] at hm hsplit ⊢
      tauto
  · split
    · exact h.carries hi (.same .done rfl rfl nofun)
    · exact h.carries hi (.same (.readTake n) rfl rfl nofun)

theorem readTake_acked (hi : c.tasks[i]? = some (.readTake n)) : Acked irs (c.readTake i n ch) := by
  unfold readTake
  split
  · split
    · exact h.carries hi (.same .done rfl rfl nofun)
    · exact h
  · rename_i rest hbuf
    refine h.reads hi _ _ _ .done rfl fun _ m hm => ?_
    simp [covers_pieces, hbuf, Task.hands] at hm ⊢
    exact hm
  · rename_i p rest hbuf
    split
    · refine h.reads hi _ _ _ .done rfl fun _ m hm => ?_
      simp [covers_pieces, hbuf, Task.hands] at hm ⊢
      tauto
    · refine h.reads hi _ _ _ (.readStore _ _) rfl fun _ m hm => ?_
      have hsplit := covers_split (n := m) p n
      simp [covers_pieces, hbuf, Task.hands] at hm hsplit ⊢
      tauto

theorem readStore_acked {head rest : Piece} (hi : c.tasks[i]? = some (.readStore head rest))
    (hfree : c.closed = false → c.recv.readPending = none) : Acked irs (c.readStore i head rest) := by
  refine h.reads hi _ _ _ .done rfl fun hopen m hm => ?_
  simp [covers_pieces, hopen, hfree hopen, Task.hands] at hm ⊢
  tauto

variable {ch : Choice}

theorem writeTo_acked {batch : List Piece} (hi : c.tasks[i]? = some (.writeTo batch))
    (hok : c.closed = false → ch.alt = true → ch.ok = true ∨ batch = []) : Acked irs (c.writeTo i batch ch) := by
  unfold writeTo
  split
  · rename_i halt
    split
    · refine h.reads hi _ _ _ (.writeTo []) rfl fun _ m hm => ?_
      simp [covers_pieces, Task.hands] at hm ⊢
      tauto
    · rename_i hbad
      refine h.reads hi _ _ _ .done rfl fun hopen m hm => ?_
      obtain rfl : batch = [] := (hok hopen halt).resolve_left hbad
      simpa [covers_pieces, Task.hands] using hm
  · split
    · rename_i p hp
      refine h.reads hi _ _ _ (.writeTo (batch ++ [p])) rfl fun _ m hm => ?_
      simp [covers_pieces, hp, Task.hands] at hm ⊢
      tauto
    · exact h.carries hi (.same (.writeToTake batch) rfl rfl nofun)

theorem writeToTake_acked {batch : List Piece} (hi : c.tasks[i]? = some (.writeToTake batch))
    (hok : c.closed = false → c.recv.recvBuf.head? = some none → ch.ok = true ∨ batch = []) :
    Acked irs (c.writeToTake i batch ch) := by
  unfold writeToTake
  split
  · split
    · exact h.carries hi (.same (.writeTo batch) rfl rfl nofun)
    · rename_i hnil
      have hnil : batch = [] := Decidable.not_not.1 hnil
      subst hnil
      split
      · exact h.carries hi (.same .done rfl rfl nofun)
      · exact h
  · rename_i rest hbuf
    refine h.reads hi _ _ _ .done rfl fun hopen m hm => ?_
    rcases hok hopen (by rw [hbuf]; rfl) with hgood | rfl
    · simp [covers_pieces, hbuf, hgood, Task.hands] at hm ⊢
      tauto
    · simpa [covers_pieces, hbuf, Task.hands] using hm
  · rename_i p rest hbuf
    refine h.reads hi _ _ _ (.writeTo (batch ++ [p])) rfl fun _ m hm => ?_
    simp [covers_pieces, hbuf, Task.hands] at hm ⊢
    tauto

/-! ## Runs -/

/-- The step takes care of what it holds: a payload finds room in the channel, `Read` finds `readPending` free for the
rest of a payload, the writer of `WriteTo` takes what it is given, and a FIN comes in order. -/
def Kept (c : TcpConn) : TcpEvent → Prop
  | .run i ch =>
    match c.tasks[i]? with
    | some (.actions (.enqueue (some _) :: _)) => c.closed = false → c.recv.recvBuf.length < recvBufCapacity
    | some (.readStore _ _) => c.closed = false → c.recv.readPending = none
    | some (.writeTo batch) => c.closed = false → ch.alt = true → ch.ok = true ∨ batch = []
    | some (.writeToTake batch) => c.closed = false → c.recv.recvBuf.head? = some none → ch.ok = true ∨ batch = []
    | some (.segment hdr) | some (.segmentTimer hdr _) | some (.segmentResume hdr) =>
      c.state = .established → hdr.fin = true → FinInOrder c.recv hdr
    | _ => True
  | _ => True

instance (c : TcpConn) (e : TcpEvent) : Decidable (Kept c e) := by
  unfold Kept
  rcases e with k | id | ⟨i, ch⟩
  · infer_instance
  · infer_instance
  · dsimp only
    rcases c.tasks[i]? with _ | (_ | _ | _ | _ | _ | ⟨_ | ⟨⟨_ | _⟩ | _, _⟩⟩ | _) <;> infer_instance

theorem runTask_acked (hi : c.tasks[i]? = some t) (hk : Kept c (.run i ch)) : Acked irs (c.runTask i t ch) := by
  simp only [Kept, hi] at hk
  have hsender : t.isSender = true → t.hands = [] → Acked irs (c.runTask i t ch) := by
    intro ht hh
    rcases sender_cases ht i ch c with heq | ⟨t', hs⟩
    · rwa [heq]
    · exact h.carries hi (hs.carries hh)
  cases t with
  | segment hdr =>
    refine segment_rule ?_ (fun wnd dup _ => segmentRest_acked (h.other _ c.timer c.mu) ch hi rfl hk) ?_ ?_
    · exact h.carries hi (.same .done rfl rfl (forall_mem_nil _))
    · exact fun _ _ _ _ _ => h.carries hi (.same (.segmentSend hdr _) rfl rfl (current_singleton rfl rfl _))
    · exact fun _ _ _ => h.carries hi (.same (.segmentLen hdr) rfl rfl (forall_mem_nil _))
  | segmentTimer hdr left =>
    refine segmentTimer_rule (fun tm _ _ => segmentRest_acked (h.other c.send tm c.mu) ch hi rfl hk) fun _ _ => ?_
    exact h.carries hi (.same (.segmentSend hdr _) rfl rfl (current_singleton rfl rfl _))
  | segmentResume hdr => exact segmentRest_acked h ch hi rfl hk
  | actions as =>
    cases as with
    | nil => exact h.carries hi (.same .done rfl rfl (forall_mem_nil _))
    | cons a as =>
      refine act_acked h ch hi ?_
      rintro p rfl
      exact hk
  | read n => exact read_acked h ch hi
  | readTake n => exact readTake_acked h ch hi
  | readStore head rest => exact readStore_acked h hi hk
  | writeTo batch => exact writeTo_acked h hi hk
  | writeToTake batch => exact writeToTake_acked h hi hk
  | done => exact h
  | _ => exact hsender rfl rfl

theorem Acked.starts (t : Task) (hframes : t.frames = []) : Acked irs { c with tasks := c.tasks ++ [t] } := by
  refine ⟨h.state, h.sized, h.seq, h.fin, h.wire, ?_, ?_⟩
  · apply forall_mem_starts h.frames
    rw [hframes]
    exact nofun
  · intro hopen n hn
    show Covers (c.recv.pieces ++ (c.tasks ++ [t]).flatMap Task.hands) n
    rw [flatMap_append, ← append_assoc]
    exact (covers_append ..).2 (.inl (h.kept hopen n hn))

end Kept

theorem step_acked (c : TcpConn) (e : TcpEvent) (h : Acked irs c) (hk : Kept c e) : Acked irs (c.step e) := by
  refine step_rule h (fun k _ => h.starts k.task (by cases k <;> rfl)) (fun _ => ?_) ?_
  · exact (h.starts .timeout rfl).other c.send _ c.mu
  · rintro i ch t rfl hi -
    exact runTask_acked h hi hk

/-- While the connection is open, every byte below an acknowledgement that was sent was handed to a reader, or is in
`readPending`, in the channel or in the hands of a call in progress. The place behind the last byte may be the FIN's. -/
theorem acknowledged_kept (iss irs : UInt32) (peerWnd : UInt16) (wndScaleOK : Bool) (peerWndScale : UInt8)
    (es : List TcpEvent) (hrun : RunAll Kept (established iss irs peerWnd wndScaleOK peerWndScale) es)
    (hopen : ((established iss irs peerWnd wndScaleOK peerWndScale).run es).closed = false) :
    let c := (established iss irs peerWnd wndScaleOK peerWndScale).run es
    ∀ f ∈ c.wire, f.ack = seqAt irs f.ackOff ∧
      ∀ n < f.ackOff, Covers (c.recv.pieces ++ c.tasks.flatMap Task.hands) n ∨
        (n = c.recv.got ∧ c.recv.finSeq = some (seqAt irs n)) := by
  intro c f hf
  have h : Acked irs c := run_rule step_acked ⟨.inl rfl, nofun, (seqAt_zero irs).symm, nofun, nofun, nofun, nofun⟩ hrun
  obtain ⟨hack, hle⟩ := h.wire f hf
  refine ⟨hack, fun n hn => ?_⟩
  by_cases hgot : n < c.recv.got
  · exact .inl (h.kept hopen n hgot)
  -- beyond the last byte there is only the FIN
  unfold RecvSide.place at hle
  split at hle
  · rename_i hfin
    obtain ⟨q, hq⟩ := Option.isSome_iff_exists.1 hfin
    have hn : n = c.recv.got := by omega
    refine .inr ⟨hn, ?_⟩
    rw [hq, (h.fin q hq).1, hn]
  · omega

/-- Two payloads that arrive in the wrong order, and a `Read` into a buffer of one byte. -/
def readRun : List TcpEvent :=
  [.call (.segment { seq := 2, payload := [3] }), .run 0 {}, .run 0 {}, .run 0 {}, .run 0 {},
    .call (.segment { payload := [1, 2] }), .run 1 {}, .run 1 {}, .run 1 {}, .run 1 {}, .run 1 {}, .run 1 {},
    .call (.read 1), .run 2 {}, .run 2 {}, .run 2 {}]

theorem acknowledged_kept_readRun : RunAll Kept (established 0 0 65535 false 0) readRun ∧
    ∀ f ∈ ((established 0 0 65535 false 0).run readRun).wire, ∀ n < f.ackOff,
      Covers ((established 0 0 65535 false 0).run readRun).recv.pieces n := by
  have hrun : RunAll Kept (established 0 0 65535 false 0) readRun := by decide +kernel
  refine ⟨hrun, fun f hf n hn => ?_⟩
  rcases (acknowledged_kept 0 0 65535 false 0 readRun hrun (by decide +kernel) f hf).2 n hn with hcov | ⟨-, hfin⟩
  · have hhands : ((established 0 0 65535 false 0).run readRun).tasks.flatMap Task.hands = [] := by decide +kernel
    rw [hhands, append_nil] at hcov
    exact hcov
  · have hnone : ((established 0 0 65535 false 0).run readRun).recv.finSeq = none := by decide +kernel
    rw [hnone] at hfin
    cases hfin

/-! ## A reader that does not read -/

/-- The segment of one byte at place `k`, and its whole call. -/
def oneByte (k : Nat) : List TcpEvent :=
  [.call (.segment { seq := UInt32.ofNat k, payload := [0] }), .run k {}, .run k {}, .run k {}, .run k {}, .run k {}]

/-- The connection after `k` segments of one byte that no one reads. -/
def unread (k : Nat) : TcpConn :=
  { recv :=
      { guestSeq := UInt32.ofNat k, recvBuf := (List.range (min k recvBufCapacity)).map fun j => some ⟨j, [0]⟩,
        got := k }
    send := { hostSeq := 0, sendAcked := 0, peerWnd := 65535 }
    tasks := List.replicate k .done
    wire :=
      (List.range k).map fun j => { seq := 0, ack := UInt32.ofNat (j + 1), off := 0, ackOff := j + 1, limit := 65535 } }

/-- The connection while call `k` stands at `t`. -/
def during (k : Nat) (r : RecvSide) (w : List Frame) (t : Task) : TcpConn :=
  { unread k with recv := r, tasks := List.replicate k .done ++ [t], wire := w }

variable (k : Nat)

theorem during_run (r : RecvSide) (w : List Frame) (t : Task) :
    (during k r w t).step (.run k {}) = (during k r w t).runTask k t {} := by
  simp [step, during, unread]

theorem during_goto (r r' : RecvSide) (w w' : List Frame) (t t' : Task) :
    { during k r w t with recv := r', wire := w' }.goto k t' = during k r' w' t' := by
  simp [goto, during]

theorem during_moves (r : RecvSide) (w : List Frame) (t t' : Task) : (during k r w t).goto k t' = during k r w t' := by
  simp [goto, during]

theorem unread_limit : (unread k).send.ackOff + (unread k).send.window.toNat = 65535 := by
  simp [unread, SendSide.window]

/-- One more segment: its byte is put into the channel if there is room, and acknowledged in any case. -/
theorem unread_oneByte : (unread k).run (oneByte k) = unread (k + 1) := by
  let r : RecvSide := { (unread k).recv with guestSeq := UInt32.ofNat (k + 1), got := k + 1 }
  let f : Frame := { seq := 0, ack := UInt32.ofNat (k + 1), off := 0, ackOff := k + 1, limit := 65535 }
  have hseg : (during k (unread k).recv (unread k).wire (.segment { seq := UInt32.ofNat k, payload := [0] })).step
      (.run k {}) =
      during k r (unread k).wire (.actions [.enqueue (some ⟨k, [0]⟩), .sendAck]) := by
    rw [during_run]
    simp [runTask, segment, segmentRest, segmentSwitch, receivePayload, during, unread, release, r, piecesAt,
      RecvSide.accept, RecvSide.ready, collectContiguous, collectLoop, collectPass]
  have hbuf : r.enqueue (some ⟨k, [0]⟩) = (unread (k + 1)).recv := by
    unfold RecvSide.enqueue
    have hlen : r.recvBuf.length = min k recvBufCapacity := by simp [r, unread]
    rw [hlen]
    split
    · rename_i hroom
      have hk : min k recvBufCapacity = k := by omega
      have hk' : min (k + 1) recvBufCapacity = k + 1 := by omega
      simp [r, unread, hk, hk', range_succ]
    · rename_i hfull
      have hk : min (k + 1) recvBufCapacity = min k recvBufCapacity := by omega
      simp [r, unread, hk]
  have henq : (during k r (unread k).wire (.actions [.enqueue (some ⟨k, [0]⟩), .sendAck])).step (.run k {}) =
      during k (unread (k + 1)).recv (unread k).wire (.actions [.sendAck]) := by
    rw [during_run, ← hbuf]
    exact during_goto k r (r.enqueue _) _ _ _ _
  have hack : (during k (unread (k + 1)).recv (unread k).wire (.actions [.sendAck])).step (.run k {}) =
      during k (unread (k + 1)).recv (unread k).wire (.actions [.transmit f]) := by
    have hf : (during k (unread (k + 1)).recv (unread k).wire (.actions [.sendAck])).frame = f := by
      show ({ seq := 0, ack := UInt32.ofNat (k + 1), off := 0, ackOff := k + 1
              limit := (unread k).send.ackOff + (unread k).send.window.toNat } : Frame) = f
      rw [unread_limit]
    rw [during_run, runTask, act, hf]
    exact during_moves k _ _ _ _
  have hsend : (during k (unread (k + 1)).recv (unread k).wire (.actions [.transmit f])).step (.run k {}) =
      during k (unread (k + 1)).recv ((unread k).wire ++ [f]) (.actions []) := by
    rw [during_run]
    exact during_goto k _ _ _ _ _ _
  have hdone : (during k (unread (k + 1)).recv ((unread k).wire ++ [f]) (.actions [])).step (.run k {}) =
      during k (unread (k + 1)).recv ((unread k).wire ++ [f]) .done := by
    rw [during_run]
    exact during_moves k _ _ _ _
  have hcall : (unread k).step (.call (.segment { seq := UInt32.ofNat k, payload := [0] })) =
      during k (unread k).recv (unread k).wire (.segment { seq := UInt32.ofNat k, payload := [0] }) := rfl
  rw [run, oneByte, foldl_cons, foldl_cons, foldl_cons, foldl_cons, foldl_cons, foldl_cons,
    foldl_nil, hcall, hseg, henq, hack, hsend, hdone]
  simp [during, unread, f, range_succ, replicate_succ']

theorem unread_run : (unread 0).run ((List.range k).flatMap oneByte) = unread k := by
  induction k with
  | zero => rfl
  | succ k ih =>
    rw [range_succ, flatMap_append, run_append, ih, flatMap_singleton, unread_oneByte]

theorem unread_acks : ∃ f ∈ (unread (k + 1)).wire, f.ack = seqAt 0 (k + 1) ∧ f.ackOff = k + 1 := by
  refine ⟨{ seq := 0, ack := UInt32.ofNat (k + 1), off := 0, ackOff := k + 1, limit := 65535 }, ?_, ?_, rfl⟩
  · rw [unread, range_succ, map_append]
    exact mem_append_right _ mem_cons_self
  · rw [seqAt, UInt32.zero_add]

theorem unread_done {k : Nat} (ht : t ∈ (unread k).tasks) : t = .done := eq_of_mem_replicate ht

theorem unread_not_covers (hn : recvBufCapacity ≤ n) :
    ¬ Covers ((unread k).recv.pieces ++ (unread k).tasks.flatMap Task.hands) n := by
  rintro ⟨p, hp, hlo, hhi⟩
  rcases mem_append.1 hp with hp | hp
  · have hp : ∃ j, (j < k ∧ j < recvBufCapacity) ∧ (⟨j, [0]⟩ : Piece) = p := by
      simpa [RecvSide.pieces, unread] using hp
    obtain ⟨j, ⟨-, hj⟩, rfl⟩ := hp
    have hhi : n < j + 1 := hhi
    omega
  · obtain ⟨t, ht, hp⟩ := mem_flatMap.1 hp
    rw [unread_done ht] at hp
    cases hp

/-- The last of 513 segments of one byte that no one reads is acknowledged, and its byte is nowhere. -/
theorem acknowledged_dropped :
    let c := (established 0 0 65535 false 0).run ((List.range 513).flatMap oneByte)
    c.closed = false ∧ (∀ t ∈ c.tasks, t = .done) ∧ c.recv.finSeq = none ∧
      (∃ f ∈ c.wire, f.ack = seqAt 0 513 ∧ f.ackOff = 513) ∧
      ¬ Covers (c.recv.pieces ++ c.tasks.flatMap Task.hands) 512 := by
  have hrun : (established 0 0 65535 false 0).run ((List.range 513).flatMap oneByte) = unread 513 := unread_run 513
  rw [hrun]
  exact ⟨rfl, fun t ht => unread_done ht, rfl, unread_acks 512, unread_not_covers 513 le_rfl⟩

end TcpConn

end CrumbleCracker.Netstack
