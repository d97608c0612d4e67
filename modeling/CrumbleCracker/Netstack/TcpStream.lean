import CrumbleCracker.Netstack.TcpSend

/-!
# The stream to the guest

The bytes of the calls of `Write` go to the guest in order, without gaps or overlaps and inside the window it advertised
(`stream_exact`), in every run in which the guest acknowledges nothing beyond what was sent and takes no window back,
and what is numbered goes out before more is; what Nagle's algorithm holds back has to fit the window when it is
flushed. Else bytes are sent beyond the window, and after an acknowledgement beyond what was sent the stream has a gap
(`stream_not_exact`).
-/

namespace CrumbleCracker.Netstack

open List

variable {t : Task} {i : Nat} {f : Frame}

/-! ## Calls of `Write` -/

/-- The part of its buffer that `Write` has numbered or left to Nagle's algorithm. -/
def Task.part : Task → Bytes
  | .write b written => b.take written
  | .writeTransmit b written f => b.take (written + f.payload.length)
  | .writeAppend b written seg | .writeFull b written seg | .writeFullAck b written seg _ | .writeRetry b written seg
  | .writeSettle b written seg | .writeAck b written seg _ | .writeLen b written seg | .writeTimer b written seg =>
    b.take (written + seg.payload.length)
  | _ => []

/-- What a call has numbered and not yet sent: the chunk of a `Write`, or what `handleSegment` flushes. -/
def Task.inHand : Task → Bytes
  | .writeTransmit _ _ f => f.payload
  | .segmentSend _ f => if f.again then [] else f.payload
  | _ => []

/-- A call that is no `Write` and has numbered nothing. -/
def Task.Idle (t : Task) : Prop := t.isWrite = false ∧ t.inHand = []

theorem Task.part_of_not_write (h : t.isWrite = false) : t.part = [] := by cases t <;> first | rfl | cases h

theorem Task.idle_reader (h : t.isReader = true) : t.Idle := by cases t <;> first | exact ⟨rfl, rfl⟩ | cases h

variable {t' : Task} {ts : List Task} {α : Type}

theorem flatMap_set_same {g : Task → List α} (hi : ts[i]? = some t) (h : g t' = g t) :
    (ts.set i t').flatMap g = ts.flatMap g := by
  obtain ⟨us, vs, heq, hset⟩ := split_tasks hi
  rw [hset, heq, flatMap_append, flatMap_append, flatMap_cons, flatMap_cons, h]

theorem flatMap_lone {g : Task → List α} (hi : ts[i]? = some t)
    (h : ∀ (j : Nat) (u : Task), j ≠ i → ts[j]? = some u → g u = []) : ts.flatMap g = g t := by
  induction ts generalizing i with
  | nil => cases hi
  | cons u us ih =>
    cases i with
    | zero =>
      have hut : u = t := Option.some.inj hi
      subst hut
      have hnil : us.flatMap g = [] := by
        apply flatMap_eq_nil_iff.2
        intro v hv
        obtain ⟨j, hj⟩ := getElem?_of_mem hv
        exact h (j + 1) v (Nat.succ_ne_zero j) hj
      show g u ++ us.flatMap g = g u
      rw [hnil, append_nil]
    | succ i =>
      have hu : g u = [] := h 0 u (Nat.succ_ne_zero i).symm rfl
      show g u ++ us.flatMap g = g t
      rw [hu, nil_append]
      exact ih hi fun j v hj hv => h (j + 1) v (fun heq => hj (Nat.succ.inj heq)) hv

/-- The parts of all calls are that of the one call in progress, before and after it moves. -/
theorem Lone.flatMap_eq (h : Lone ts) (hi : ts[i]? = some t) (ht : t.isWrite = true) {g : Task → List α}
    (hg : ∀ u : Task, u.isWrite = false → g u = []) (t' : Task) :
    ts.flatMap g = g t ∧ (ts.set i t').flatMap g = g t' := by
  have hlt : i < ts.length := (List.getElem?_eq_some_iff.1 hi).1
  constructor
  · exact flatMap_lone hi fun j u hj hu => hg u (h.others hi ht j u hj hu)
  · apply flatMap_lone (getElem?_set_self hlt)
    intro j u hj hu
    rw [getElem?_set_ne (Ne.symm hj)] at hu
    exact hg u (h.others hi ht j u hj hu)

/-- At most one call has bytes in hand. -/
def Single (ts : List Task) : Prop := ∃ i : Nat, ∀ (j : Nat) (u : Task), ts[j]? = some u → j ≠ i → u.inHand = []

theorem Single.others (h : Single ts) (hi : ts[i]? = some t) (ht : t.inHand ≠ []) (j : Nat) (u : Task) (hj : j ≠ i)
    (hu : ts[j]? = some u) : u.inHand = [] := by
  obtain ⟨k, hk⟩ := h
  obtain rfl : i = k := by
    by_contra hne
    exact ht (hk i t hi hne)
  exact hk j u hu hj

theorem Single.set (h : Single ts) (hi : ts[i]? = some t) (ht : t'.inHand ≠ [] → t.inHand ≠ []) :
    Single (ts.set i t') := by
  obtain ⟨k, hk⟩ := h
  refine ⟨k, fun j u hu hj => ?_⟩
  by_cases hij : i = j
  · subst hij
    rw [getElem?_set_self (List.getElem?_eq_some_iff.1 hi).1] at hu
    cases hu
    by_contra hne
    exact ht hne (hk i t hi hj)
  · rw [getElem?_set_ne hij] at hu
    exact hk j u hu hj

theorem Single.starts (h : Single ts) (ht : t.inHand = []) : Single (ts ++ [t]) := by
  obtain ⟨k, hk⟩ := h
  refine ⟨k, fun j u hu hj => ?_⟩
  rcases Nat.lt_or_ge j ts.length with hlt | hge
  · rw [getElem?_append_left hlt] at hu
    exact hk j u hu hj
  · rw [getElem?_append_right hge] at hu
    rw [mem_singleton.1 (mem_of_getElem? hu)]
    exact ht

/-- A call takes something in hand when no other has. -/
theorem single_set (hidle : ∀ u ∈ ts, u.inHand = []) : Single (ts.set i t') := by
  refine ⟨i, fun j u hu hj => ?_⟩
  rw [getElem?_set_ne (Ne.symm hj)] at hu
  exact hidle u (mem_of_getElem? hu)

/-! ## Frames -/

/-- The data frames that are no retransmissions. -/
def fresh (wire : List Frame) : List Frame := wire.filter fun f => !f.again && f.payload ≠ []

/-- Each frame starts where the one before it ends. -/
def Consecutive : Nat → List Frame → Prop
  | _, [] => True
  | off, f :: fs => f.off = off ∧ Consecutive (off + f.payload.length) fs

theorem Consecutive.append {off : Nat} {fs : List Frame} (h : Consecutive off fs)
    (hf : f.off = off + (fs.flatMap Frame.payload).length) : Consecutive off (fs ++ [f]) := by
  induction fs generalizing off with
  | nil => exact ⟨hf, trivial⟩
  | cons g gs ih =>
    refine ⟨h.1, ih h.2 ?_⟩
    rw [hf, flatMap_cons, length_append]
    omega

/-- A frame that brings nothing new: a retransmission, or one without data. -/
def Stale (f : Frame) : Prop := f.again = true ∨ f.payload = []

theorem fresh_stale (h : Stale f) (wire : List Frame) : fresh (wire ++ [f]) = fresh wire := by
  rw [fresh, filter_append]
  rcases h with h | h
  · simp [h, fresh]
  · simp [h, fresh]

/-- The frame ends inside the window it was made under. -/
def InWindow (f : Frame) : Prop := f.payload ≠ [] → f.off + f.payload.length ≤ f.limit

/-- What the returned calls of `Write` have reported as written. -/
def reported (writes : List (Bytes × Nat × Bool)) : Bytes := writes.flatMap fun w => w.1.take w.2.1

theorem reported_append (writes : List (Bytes × Nat × Bool)) (b : Bytes) (n : Nat) (ok : Bool) :
    reported (writes ++ [(b, n, ok)]) = reported writes ++ b.take n := by
  simp [reported]

namespace TcpConn

/-! ## The invariant -/

/-- What a call holds: frames inside the window, and old ones, unless it has bytes in hand, which end the stream. -/
structure Holds (n : Nat) (t : Task) : Prop where
  inWindow : ∀ f ∈ t.frames, InWindow f
  stale : t.inHand = [] → ∀ f ∈ t.frames, Stale f
  last : t.inHand ≠ [] → ∀ f ∈ t.frames, f.again = false ∧ f.off + f.payload.length = n

structure Streams (c : TcpConn) : Prop where
  window : c.send.stream.length ≤ c.send.ackOff + c.send.window.toNat
  wire : ∀ f ∈ c.wire, InWindow f
  tasks : ∀ t ∈ c.tasks, Holds c.send.stream.length t
  single : Single c.tasks
  consecutive : Consecutive 0 (fresh c.wire)
  sent : (fresh c.wire).flatMap Frame.payload ++ c.tasks.flatMap Task.inHand = c.send.stream
  parts : ∃ rest, c.send.stream ++ c.send.nagleBuf = reported c.writes ++ c.tasks.flatMap Task.part ++ rest ∧
    (rest ≠ [] → c.closed = true ∧ c.tasks.flatMap Task.part = [])
  full : ∀ w ∈ c.writes, w.2.2 = true → w.2.1 = w.1.length

/-- A step of a call that is no `Write`. -/
structure Aside (i : Nat) (t t' : Task) (c c' : TcpConn) : Prop where
  tasks : c'.tasks = c.tasks.set i t'
  stream : c'.send.stream = c.send.stream
  nagle : c'.send.nagleBuf = c.send.nagleBuf
  writes : c'.writes = c.writes
  closed : c.closed = true → c'.closed = true
  wire : c'.wire = c.wire ∨ ∃ f ∈ t.frames, c'.wire = c.wire ++ [f]
  window : c.send.ackOff + c.send.window.toNat ≤ c'.send.ackOff + c'.send.window.toNat ∨
    c.send.stream.length ≤ c'.send.ackOff + c'.send.window.toNat
  idle : t.Idle ∧ t'.Idle
  frames : ∀ f ∈ t'.frames, f ∈ t.frames ∨ (Stale f ∧ InWindow f)

variable {c c' : TcpConn}

section Kept

variable (h : Streams c)

include h

theorem Streams.aside (hi : c.tasks[i]? = some t) (ha : Aside i t t' c c') : Streams c' := by
  have hmem : t ∈ c.tasks := mem_of_getElem? hi
  have hwindow := h.window
  have hpart : c'.tasks.flatMap Task.part = c.tasks.flatMap Task.part := by
    rw [ha.tasks]
    apply flatMap_set_same hi
    rw [Task.part_of_not_write ha.idle.1.1, Task.part_of_not_write ha.idle.2.1]
  have hhand : c'.tasks.flatMap Task.inHand = c.tasks.flatMap Task.inHand := by
    rw [ha.tasks]
    exact flatMap_set_same hi (ha.idle.2.2.trans ha.idle.1.2.symm)
  -- a frame that goes out is an old one
  have hfresh : fresh c'.wire = fresh c.wire := by
    rcases ha.wire with hw | ⟨f, hf, hw⟩
    · rw [hw]
    · rw [hw, fresh_stale ((h.tasks t hmem).stale ha.idle.1.2 f hf)]
  refine ⟨?_, ?_, ?_, ?_, ?_, ?_, ?_, ?_⟩
  · rw [ha.stream]
    rcases ha.window with hle | hle
    · omega
    · exact hle
  · rcases ha.wire with hw | ⟨g, hg, hw⟩
    · rw [hw]
      exact h.wire
    · rw [hw]
      exact forall_mem_append.2 ⟨h.wire, forall_mem_singleton.2 ((h.tasks t hmem).inWindow g hg)⟩
  · rw [ha.stream, ha.tasks]
    refine forall_mem_set h.tasks ⟨fun f hf => ?_, fun _ f hf => ?_, ?_⟩
    · rcases ha.frames f hf with hf | ⟨-, hf⟩
      · exact (h.tasks t hmem).inWindow f hf
      · exact hf
    · rcases ha.frames f hf with hf | ⟨hf, -⟩
      · exact (h.tasks t hmem).stale ha.idle.1.2 f hf
      · exact hf
    · exact fun hne => absurd ha.idle.2.2 hne
  · rw [ha.tasks]
    exact h.single.set hi fun hne => absurd ha.idle.2.2 hne
  · rw [hfresh]
    exact h.consecutive
  · rw [hfresh, hhand, ha.stream]
    exact h.sent
  · obtain ⟨rest, heq, hrest⟩ := h.parts
    refine ⟨rest, ?_, fun hne => ?_⟩
    · rw [ha.stream, ha.nagle, ha.writes, hpart]
      exact heq
    · rw [hpart]
      exact ⟨ha.closed (hrest hne).1, (hrest hne).2⟩
  · rw [ha.writes]
    exact h.full

/-- What `Streams` reads of a connection. -/
def streaming (c : TcpConn) : List Task × Bytes × Bytes × Nat × List (Bytes × Nat × Bool) × List Frame × Bool :=
  (c.tasks, c.send.stream, c.send.nagleBuf, c.send.ackOff + c.send.window.toNat, c.writes, c.wire, c.closed)

theorem Streams.goes (t' : Task) (hi : c.tasks[i]? = some t) (hsame : c'.streaming = (c.goto i t').streaming)
    (ht : t.Idle) (ht' : t'.Idle) (hframes : ∀ f ∈ t'.frames, f ∈ t.frames ∨ (Stale f ∧ InWindow f)) :
    Streams c' := by
  simp only [streaming, goto, Prod.mk.injEq] at hsame
  obtain ⟨htasks, hstream, hnagle, hwindow, hwrites, hwire, hclosed⟩ := hsame
  exact h.aside hi ⟨htasks, hstream, hnagle, hwrites, fun hc => hclosed.trans hc, .inl hwire, .inl hwindow.ge,
    ⟨ht, ht'⟩, hframes⟩

theorem Streams.other (tm : TimerSide) (m : Option Nat) : Streams { c with timer := tm, mu := m } :=
  ⟨h.window, h.wire, h.tasks, h.single, h.consecutive, h.sent, h.parts, h.full⟩

theorem Streams.resends (s : SendSide) (hs : SameNumbers c.send s)
    (hw : c.send.stream.length ≤ s.ackOff + s.window.toNat) :
    Streams { c with send := s } := by
  have hstream := hs.stream
  have hnagle : s.nagleBuf = c.send.nagleBuf := by rw [hs]
  refine ⟨?_, h.wire, ?_, h.single, h.consecutive, ?_, ?_, h.full⟩
  · show s.stream.length ≤ _
    rw [hstream]
    exact hw
  · show ∀ t ∈ c.tasks, Holds s.stream.length t
    rw [hstream]
    exact h.tasks
  · show _ = s.stream
    rw [hstream]
    exact h.sent
  · show ∃ rest, s.stream ++ s.nagleBuf = _ ∧ _
    rw [hstream, hnagle]
    exact h.parts

/-! ## Segments -/

variable {iss : UInt32} {seg : TcpSendSegment}

theorem retransmission_inWindow (hseg : SegSound iss c.send.stream seg) : InWindow (c.retransmission seg) := by
  intro hne
  have hend := hseg.slice.end_le hne
  have hwindow := h.window
  show seg.off + seg.payload.length ≤ c.send.ackOff + c.send.window.toNat
  omega

theorem retransmission_frames (hseg : SegSound iss c.send.stream seg) (fs : List Frame) :
    ∀ f ∈ [c.retransmission seg], f ∈ fs ∨ (Stale f ∧ InWindow f) := by
  rintro f (_ | ⟨_, ⟨⟩⟩)
  exact .inr ⟨.inl rfl, retransmission_inWindow h hseg⟩

variable {hdr : TcpHeader}

variable (ch : Choice)

theorem segmentSwitch_streams (hc : Connected c.state) (hi : c.tasks[i]? = some t) (ht : t.Idle) :
    Streams (c.segmentSwitch i hdr ch) := by
  obtain ⟨r, s, t', heq, hto⟩ := segmentSwitch_cases hc i hdr ch
  rw [heq]
  obtain ⟨rfl | ⟨as, rfl⟩, hframes⟩ := hto.shape
  · exact h.goes .done hi rfl ht ⟨rfl, rfl⟩ nofun
  · refine h.goes (.actions as) hi rfl ht ⟨rfl, rfl⟩ ?_
    rw [hframes]
    exact nofun

theorem segmentRest_streams (hc : Connected c.state) (hi : c.tasks[i]? = some t) (ht : t.Idle)
    (ho : SegmentOrderly c hdr) : Streams (c.segmentRest i hdr ch) := by
  rw [segmentRest_eq ho.1]
  exact segmentSwitch_streams h ch hc hi ht

/-- An acknowledgement that is taken leaves everything sent inside the window it advertises. -/
def WindowKept (c : TcpConn) (hdr : TcpHeader) : Prop :=
  c.closed = false → hdr.hasAck = true →
    c.send.hostSeq - (if c.send.sendAcked < hdr.ack then hdr.ack else c.send.sendAcked) ≤
      { c.send with peerWnd := hdr.window }.window
deriving Decidable

variable {N : Prop} {B : Nat}

omit h in
/-- What is in flight fits the window, so the stream ends inside it. -/
theorem window_of_inFlight {s : SendSide} (hB : B + 1 < 2 ^ 32) (h : Numbers N iss B s) (hle : s.inFlight ≤ s.window) :
    s.stream.length ≤ s.ackOff + s.window.toNat := by
  have hflight := h.toNat_inFlight hB
  have hle := UInt32.le_iff_toNat_le.1 hle
  have hoff := h.off
  omega

theorem segment_streams (hB : B + 1 < 2 ^ 32) (hs : Sends N iss B c) (hi : c.tasks[i]? = some t) (ht : t.Idle)
    (ho : SegmentOrderly c hdr) (hw : WindowKept c hdr) : Streams (c.segment i hdr ch) := by
  have hnumbers : Numbers N iss B { c.send with peerWnd := hdr.window } := hs.numbers.same rfl
  have hlooks : ∀ wnd dup, Looked c hdr wnd → Streams (c.looks wnd dup) := by
    intro wnd dup hlooked
    refine h.resends (c.looks wnd dup).send rfl ?_
    rcases hlooked.window with rfl | ⟨hhas, rfl⟩
    · exact h.window
    · have hkept := hw hlooked.isOpen hhas
      rw [if_neg fun hlt => hlooked.noAck ⟨hhas, hlt⟩] at hkept
      exact window_of_inFlight hB hnumbers hkept
  refine segment_rule (h.goes .done hi rfl ht ⟨rfl, rfl⟩ nofun) ?_ ?_ ?_
  · exact fun wnd dup hlooked => segmentRest_streams (hlooks wnd dup hlooked) ch hs.state hi ht ho
  · intro wnd dup hlooked seg hseg
    have hnew := hlooks wnd dup hlooked
    exact hnew.goes (.segmentSend hdr _) hi rfl ht ⟨rfl, rfl⟩ (retransmission_frames hnew (hs.buf seg hseg) _)
  · intro hopen hhas hlt
    have hkept := hw hopen hhas
    rw [if_pos hlt] at hkept
    have hacked := hnumbers.acknowledge hB hlt (UInt32.not_lt.1 (ho.1 hhas))
    refine h.aside hi ⟨rfl, rfl, rfl, rfl, id, .inl rfl, .inr ?_, ⟨ht, rfl, rfl⟩, nofun⟩
    exact window_of_inFlight hB hacked hkept

/-! ## The rest of a call, and the timer -/

omit h in
theorem transmit_aside (ok : Bool) (hf : f ∈ t.frames) (ht : t.Idle) (ht' : t'.Idle)
    (hframes : ∀ g ∈ t'.frames, g ∈ t.frames) : Aside i t t' c ((c.transmit f ok).goto i t') := by
  have hkept : ∀ g ∈ t'.frames, g ∈ t.frames ∨ (Stale g ∧ InWindow g) := fun g hg => .inl (hframes g hg)
  cases ok with
  | false => exact ⟨rfl, rfl, rfl, rfl, id, .inl rfl, .inl le_rfl, ⟨ht, ht'⟩, hkept⟩
  | true => exact ⟨rfl, rfl, rfl, rfl, id, .inr ⟨f, hf, rfl⟩, .inl le_rfl, ⟨ht, ht'⟩, hkept⟩

variable {as : List Action}

omit h in
theorem frames_rest {a : Action} : ∀ g ∈ (Task.actions as).frames, g ∈ (Task.actions (a :: as)).frames := by
  intro g hg
  obtain ⟨b, hb, hbg⟩ := mem_filterMap.1 hg
  exact mem_filterMap.2 ⟨b, mem_cons_of_mem a hb, hbg⟩

theorem act_streams {a : Action} (hi : c.tasks[i]? = some (.actions (a :: as))) : Streams (c.act i a as ch) := by
  have hrest : ∀ {c' : TcpConn}, c'.streaming = (c.goto i (.actions as)).streaming → Streams c' :=
    fun hsame => h.goes (.actions as) hi hsame ⟨rfl, rfl⟩ ⟨rfl, rfl⟩ fun f hf => .inl (frames_rest f hf)
  have hsends : ∀ {c' : TcpConn} (f : Frame), f.payload = [] →
      c'.streaming = (c.goto i (.actions (.transmit f :: as))).streaming → Streams c' := by
    intro c' f hf hsame
    refine h.goes (.actions (.transmit f :: as)) hi hsame ⟨rfl, rfl⟩ ⟨rfl, rfl⟩ fun g hg => ?_
    rcases mem_cons.1 (show g ∈ f :: as.filterMap Action.frame from hg) with rfl | hg
    · exact .inr ⟨.inr hf, fun hne => absurd hf hne⟩
    · exact .inl (frames_rest g hg)
  cases a with
  | enqueue data =>
    rw [act]
    split <;> exact hrest rfl
  | sendAck => exact hsends c.frame rfl rfl
  | sendFin => exact hsends { c.frame with fin := true } rfl rfl
  | transmit f => exact h.aside hi (transmit_aside ch.ok mem_cons_self ⟨rfl, rfl⟩ ⟨rfl, rfl⟩ frames_rest)
  | close =>
    rw [act, closeSection]
    split
    · exact hrest rfl
    · refine h.aside hi ⟨rfl, rfl, rfl, rfl, fun _ => rfl, .inl rfl, .inl le_rfl, ⟨⟨rfl, rfl⟩, rfl, rfl⟩,
        fun f hf => .inl ?_⟩
      split at hf <;> exact hf
  | stopTimer | clearSend | clearRecv => exact hrest rfl

/-! ## Steps of `Write` -/

omit h in
theorem holds_empty {n : Nat} (h : t.frames = []) : Holds n t := by
  refine ⟨?_, ?_, ?_⟩ <;> rw [h]
  · exact nofun
  · exact fun _ => nofun
  · exact fun _ => nofun

theorem Streams.proceeds (t' : Task) (hi : c.tasks[i]? = some t) (hsame : c'.streaming = (c.goto i t').streaming)
    (hpart : t'.part = t.part) (hhand : t'.inHand = t.inHand) (hframes : t'.frames = []) : Streams c' := by
  simp only [streaming, goto, Prod.mk.injEq] at hsame
  obtain ⟨htasks, hstream, hnagle, hwindow, hwrites, hwire, hclosed⟩ := hsame
  have hparts : c'.tasks.flatMap Task.part = c.tasks.flatMap Task.part := by
    rw [htasks]
    exact flatMap_set_same hi hpart
  have hhands : c'.tasks.flatMap Task.inHand = c.tasks.flatMap Task.inHand := by
    rw [htasks]
    exact flatMap_set_same hi hhand
  refine ⟨?_, ?_, ?_, ?_, ?_, ?_, ?_, ?_⟩
  · rw [hstream, hwindow]
    exact h.window
  · rw [hwire]
    exact h.wire
  · rw [hstream, htasks]
    exact forall_mem_set h.tasks (holds_empty hframes)
  · rw [htasks]
    exact h.single.set hi fun hne => hhand ▸ hne
  · rw [hwire]
    exact h.consecutive
  · rw [hwire, hhands, hstream]
    exact h.sent
  · rw [hstream, hnagle, hwrites, hparts, hclosed]
    exact h.parts
  · rw [hwrites]
    exact h.full

variable {b : Bytes}

/-- `Write` returns. What it numbered it has reported, unless the connection was closed under it. -/
theorem Streams.returns (hl : Lone c.tasks) (hi : c.tasks[i]? = some t) (ht : t.isWrite = true) {n : Nat} {ok : Bool}
    (hhand : t.inHand = []) (hpart : ∃ x, t.part = b.take n ++ x ∧ (x ≠ [] → c.closed = true))
    (hok : ok = true → n = b.length) : Streams (c.writeReturns i b n ok) := by
  obtain ⟨hparts, hparts'⟩ := hl.flatMap_eq hi ht (fun _ => Task.part_of_not_write) .done
  refine ⟨h.window, h.wire, forall_mem_set h.tasks (holds_empty rfl), h.single.set hi fun hne => absurd rfl hne,
    h.consecutive, ?_, ?_, ?_⟩
  · show _ ++ (c.tasks.set i .done).flatMap Task.inHand = c.send.stream
    rw [flatMap_set_same hi hhand.symm]
    exact h.sent
  · obtain ⟨x, hx, hclosed⟩ := hpart
    obtain ⟨rest, heq, hrest⟩ := h.parts
    refine ⟨x ++ rest, ?_, fun hne => ⟨?_, hparts'⟩⟩
    · show c.send.stream ++ c.send.nagleBuf = reported (c.writes ++ [(b, n, ok)]) ++
        (c.tasks.set i .done).flatMap Task.part ++ (x ++ rest)
      rw [heq, hparts, hparts', hx, reported_append]
      simp [Task.part]
    · by_cases hxe : x = []
      · rw [hxe] at hne
        exact (hrest hne).1
      · exact hclosed hxe
  · exact forall_mem_append.2 ⟨h.full, forall_mem_singleton.2 hok⟩

omit h in
theorem take_append_chunk (c : TcpConn) (b : Bytes) (written : Nat) :
    b.take written ++ c.chunk b written = b.take (written + (c.chunk b written).length) := by
  have hchunk : c.chunk b written = (b.drop written).take (c.chunk b written).length := by
    rw [chunk, length_take, take_eq_take_min]
  rw [take_add, ← hchunk]

variable {written : Nat}

omit h in
/-- A chunk that fills what may be sent goes out as far as there is room; a smaller one was the rest of the buffer. -/
theorem take_outgoing (c : TcpConn) (b : Bytes) (written : Nat) :
    b.take (written + (c.outgoing b written).length) = b.take written ++ c.chunk b written := by
  rw [take_append_chunk]
  have hlen : (c.chunk b written).length = min (maxChunk c.send) (b.length - written) := by simp [chunk]
  have hout : (c.outgoing b written).length =
      min (maxChunk c.send) (c.send.nagleBuf.length + (c.chunk b written).length) := by
    simp [outgoing]
  by_cases hfull : (c.chunk b written).length = maxChunk c.send
  · rw [hout, hfull, Nat.min_eq_left (Nat.le_add_left _ _)]
  · rw [take_of_length_le (by omega), take_of_length_le (by omega)]

/-- On an open connection nothing is numbered that is neither reported nor part of a call. -/
theorem Streams.parts_open (hopen : ¬c.Closing) :
    c.send.stream ++ c.send.nagleBuf = reported c.writes ++ c.tasks.flatMap Task.part := by
  obtain ⟨rest, heq, hrest⟩ := h.parts
  have hnil : rest = [] := by
    by_contra hne
    exact hopen (.inr (hrest hne).1)
  rw [heq, hnil, append_nil]

/-- Bytes that fit the window are numbered while nothing else is in hand. -/
theorem Streams.takes (t' : Task) (hs : Sends N iss B c) (hopen : ¬c.Closing) (hidle : ∀ u ∈ c.tasks, u.inHand = [])
    {left : Bytes} (hfits : c.send.hostOff + f.payload.length ≤ c.send.ackOff + c.send.window.toNat)
    (hoff : f.off = c.send.hostOff) (hlimit : f.limit = c.send.ackOff + c.send.window.toNat) (hagain : f.again = false)
    (hlt : i < c.tasks.length) (hframes : t'.frames = [f]) (hhand : t'.inHand = f.payload)
    (hparts : c.send.stream ++ f.payload ++ left = reported c.writes ++ (c.tasks.set i t').flatMap Task.part) :
    Streams ({ c with send := { c.send.take f.payload with nagleBuf := left } }.goto i t') := by
  have hend : c.send.hostOff = c.send.stream.length := by
    rw [hs.numbers.off, hs.finOffs_nil hopen]
    rfl
  have hlen : (c.send.stream ++ f.payload).length = c.send.stream.length + f.payload.length := length_append
  have hnone : c.tasks.flatMap Task.inHand = [] := flatMap_eq_nil_iff.2 hidle
  have hhands : (c.tasks.set i t').flatMap Task.inHand = f.payload := by
    rw [flatMap_lone (getElem?_set_self hlt) fun j u hj hu => ?_, hhand]
    rw [getElem?_set_ne (Ne.symm hj)] at hu
    exact hidle u (mem_of_getElem? hu)
  refine ⟨?_, h.wire, ?_, single_set hidle, h.consecutive, ?_, ?_, h.full⟩
  · show (c.send.stream ++ f.payload).length ≤ c.send.ackOff + c.send.window.toNat
    omega
  · refine forall_mem_set
      (fun u hu => ⟨(h.tasks u hu).inWindow, (h.tasks u hu).stale, fun hne => absurd (hidle u hu) hne⟩) ?_
    refine ⟨?_, ?_, ?_⟩ <;> rw [hframes]
    · refine forall_mem_singleton.2 fun _ => ?_
      rw [hoff, hlimit]
      exact hfits
    · exact fun hnil => forall_mem_singleton.2 (.inr (hhand.symm.trans hnil))
    · refine fun _ => forall_mem_singleton.2 ⟨hagain, ?_⟩
      show f.off + f.payload.length = (c.send.stream ++ f.payload).length
      omega
  · show (fresh c.wire).flatMap Frame.payload ++ (c.tasks.set i t').flatMap Task.inHand = c.send.stream ++ f.payload
    have hsent := h.sent
    rw [hnone, append_nil] at hsent
    rw [hhands, hsent]
  · exact ⟨[], hparts.trans (append_nil _).symm, fun hne => absurd rfl hne⟩

theorem take_streams (hB : B + 1 < 2 ^ 32) (hs : Sends N iss B c) (hl : Lone c.tasks)
    (hi : c.tasks[i]? = some (.write b written)) (hidle : ∀ u ∈ c.tasks, u.inHand = []) (ht : c.Takes b written) :
    Streams ({ c with send := { c.send.take (c.outgoing b written) with nagleBuf := c.held b written } }.goto i
      (.writeTransmit b written (c.outgoingFrame b written))) := by
  obtain ⟨hparts, hparts'⟩ := hl.flatMap_eq hi rfl (fun _ => Task.part_of_not_write)
    (.writeTransmit b written (c.outgoingFrame b written))
  have hfits := hs.numbers.fits hB ht.2.1 (c.length_outgoing_le b written)
  have hlt : i < c.tasks.length := (List.getElem?_eq_some_iff.1 hi).1
  refine h.takes (.writeTransmit b written _) (f := c.outgoingFrame b written) hs ht.1 hidle hfits rfl rfl rfl hlt rfl rfl ?_
  have heq := h.parts_open ht.1
  rw [hparts] at heq
  have hpart : Task.part (.writeTransmit b written (c.outgoingFrame b written)) = b.take written ++ c.chunk b written :=
    c.take_outgoing b written
  rw [hparts', hpart, ← append_assoc, ← show _ = reported c.writes ++ b.take written from heq, append_assoc,
    append_assoc]
  exact congrArg (c.send.stream ++ ·) (take_append_drop _ _)

theorem hold_streams (hl : Lone c.tasks) (hi : c.tasks[i]? = some (.write b written)) (hopen : ¬c.Closing) :
    Streams ({ c with send := { c.send with nagleBuf := c.send.nagleBuf ++ c.chunk b written } }.goto i
      (.write b (written + (c.chunk b written).length))) := by
  obtain ⟨hparts, hparts'⟩ := hl.flatMap_eq hi rfl (fun _ => Task.part_of_not_write)
    (.write b (written + (c.chunk b written).length))
  refine ⟨h.window, h.wire, forall_mem_set h.tasks (holds_empty rfl), h.single.set hi fun hne => absurd rfl hne,
    h.consecutive, ?_, ⟨[], ?_, fun hne => absurd rfl hne⟩, h.full⟩
  · have hhands : (c.tasks.set i (.write b (written + (c.chunk b written).length))).flatMap Task.inHand =
        c.tasks.flatMap Task.inHand := flatMap_set_same hi rfl
    show _ ++ (c.tasks.set i _).flatMap Task.inHand = c.send.stream
    rw [hhands]
    exact h.sent
  · have heq := h.parts_open hopen
    show c.send.stream ++ (c.send.nagleBuf ++ c.chunk b written) = reported c.writes ++
      (c.tasks.set i _).flatMap Task.part ++ []
    rw [hparts', append_nil, ← append_assoc, heq, hparts, append_assoc]
    exact congrArg (reported c.writes ++ ·) (c.take_append_chunk b written)

theorem flush_streams (hB : B + 1 < 2 ^ 32) (hs : Sends N iss B c) (hi : c.tasks[i]? = some t) (ht : t.Idle)
    (hf : FlushFits c) (hne : c.send.nagleBuf ≠ []) (hidle : ∀ u ∈ c.tasks, u.inHand = []) (hdr : TcpHeader) (tm : TimerSide) :
    Streams ({ c with timer := tm, send := { c.send.take c.send.nagleBuf with nagleBuf := [] } }.release i
      (.segmentSend hdr c.flushFrame)) := by
  have hlt : i < c.tasks.length := (List.getElem?_eq_some_iff.1 hi).1
  have hparts : (c.tasks.set i (.segmentSend hdr c.flushFrame)).flatMap Task.part = c.tasks.flatMap Task.part :=
    flatMap_set_same hi (Task.part_of_not_write ht.1).symm
  refine (h.takes (.segmentSend hdr c.flushFrame) (f := c.flushFrame) hs (hf hne).1 hidle
    (FlushFits.fits hs hB hf hne) rfl rfl rfl hlt rfl rfl ?_).other tm none
  rw [hparts, append_nil]
  exact h.parts_open (hf hne).1

theorem writeSection_streams (hB : B + 1 < 2 ^ 32) (hs : Sends N iss B c) (hl : Lone c.tasks)
    (hi : c.tasks[i]? = some (.write b written)) (ho : c.Takes b written → ∀ u ∈ c.tasks, u.inHand = []) :
    Streams (c.writeSection i b written ch) := by
  refine writeSection_cases h (fun hall => ?_) ?_ (fun _ hopen => hold_streams h hl hi hopen)
    fun ht => take_streams h hB hs hl hi (ho ht) ht
  · apply h.returns hl hi rfl rfl
    · refine ⟨[], ?_, fun hne => absurd rfl hne⟩
      show b.take written = _
      rw [take_of_length_le hall, take_length, append_nil]
    · exact fun _ => rfl
  · apply h.returns hl hi rfl rfl
    · exact ⟨[], (append_nil _).symm, fun hne => absurd rfl hne⟩
    · exact nofun

/-- What is in hand goes out: it starts where the data sent before it ends. -/
theorem transmit_streams (t' : Task) (hi : c.tasks[i]? = some t) (hf : t.frames = [f]) (hhand : t.inHand = f.payload)
    (hpart : t'.part = t.part) (hhand' : t'.inHand = []) (hframes' : t'.frames = []) :
    Streams ((c.transmit f true).goto i t') := by
  have hown := h.tasks _ (mem_of_getElem? hi)
  have hmem : f ∈ t.frames := hf ▸ mem_singleton_self f
  -- a frame without data is no part of the stream
  have hfresh : (fresh (c.wire ++ [f])).flatMap Frame.payload ++ (c.tasks.set i t').flatMap Task.inHand =
      c.send.stream ∧ Consecutive 0 (fresh (c.wire ++ [f])) := by
    by_cases hnil : f.payload = []
    · rw [fresh_stale (.inr hnil), flatMap_set_same hi (hhand'.trans (hhand.trans hnil).symm)]
      exact ⟨h.sent, h.consecutive⟩
    · have hne : t.inHand ≠ [] := hhand ▸ hnil
      have hothers := h.single.others hi hne
      obtain ⟨hagain, hend⟩ := hown.last hne f hmem
      have hsent : (fresh c.wire).flatMap Frame.payload ++ f.payload = c.send.stream := by
        have hsent := h.sent
        rwa [flatMap_lone hi hothers, hhand] at hsent
      have hnone : (c.tasks.set i t').flatMap Task.inHand = [] := by
        rw [flatMap_lone (getElem?_set_self (List.getElem?_eq_some_iff.1 hi).1) fun j u hj hu => ?_, hhand']
        rw [getElem?_set_ne (Ne.symm hj)] at hu
        exact hothers j u hj hu
      have happ : fresh (c.wire ++ [f]) = fresh c.wire ++ [f] := by
        simp [fresh, hagain, hnil]
      rw [happ, hnone, append_nil, flatMap_append, flatMap_singleton]
      refine ⟨hsent, h.consecutive.append ?_⟩
      rw [← hsent, length_append] at hend
      omega
  refine ⟨h.window, ?_, forall_mem_set h.tasks (holds_empty hframes'), h.single.set hi fun hne =>
    absurd hhand' hne, hfresh.2, hfresh.1, ?_, h.full⟩
  · exact forall_mem_append.2 ⟨h.wire, forall_mem_singleton.2 (hown.inWindow f hmem)⟩
  · show ∃ rest, c.send.stream ++ c.send.nagleBuf = reported c.writes ++ (c.tasks.set i t').flatMap Task.part ++ rest ∧
      (rest ≠ [] → c.closed = true ∧ (c.tasks.set i t').flatMap Task.part = [])
    rw [flatMap_set_same hi hpart]
    exact h.parts

theorem writeAppend_streams {full : Task} (hi : c.tasks[i]? = some t)
    (hpart : t.part = b.take (written + seg.payload.length)) (hhand : t.inHand = []) (hfull : full.part = t.part)
    (hfullHand : full.inHand = []) (hframes : full.frames = []) : Streams (c.writeAppend i b written seg full) := by
  apply writeAppend_rule
  · exact h.proceeds full hi rfl hfull (hfullHand.trans hhand.symm) hframes
  · exact h.proceeds (.writeSettle b written seg) hi rfl hpart.symm hhand.symm rfl

/-! ## Runs -/

/-- The run is `Numbered`, no window is taken back, and bytes that were numbered go out, before more are numbered. -/
def Steady (c : TcpConn) (e : TcpEvent) : Prop :=
  Numbered False c e ∧
  match e with
  | .run i ch =>
    match c.tasks[i]? with
    | some (.segment hdr) => WindowKept c hdr
    | some (.write b written) => c.Takes b written → ∀ t ∈ c.tasks, t.inHand = []
    | some (.segmentTimer _ left) => left = false → c.send.nagleBuf ≠ [] → ∀ t ∈ c.tasks, t.inHand = []
    | some (.writeTransmit _ _ _) => ch.ok = true
    | some (.segmentSend hdr f) => Task.inHand (.segmentSend hdr f) ≠ [] → ch.ok = true
    | _ => True
  | _ => True

instance (c : TcpConn) (e : TcpEvent) : Decidable (Steady c e) := by
  unfold Steady
  apply @instDecidableAnd _ _ _ ?_
  rcases e with k | id | ⟨i, ch⟩
  · infer_instance
  · infer_instance
  · dsimp only
    rcases c.tasks[i]? with _ | (_ | _) <;> infer_instance

theorem runTask_streams {ch : Choice} (hB : B + 1 < 2 ^ 32) (hs : Sends N iss B c) (hl : Lone c.tasks)
    (hi : c.tasks[i]? = some t) (ho : Steady c (.run i ch)) : Streams (c.runTask i t ch) := by
  simp only [Steady, Numbered, hi] at ho
  have hsound := hs.tasks t (mem_of_getElem? hi)
  have hreader : t.isReader = true → Streams (c.runTask i t ch) := by
    intro ht
    refine reader_keeps ht h fun r t' ht' => h.goes t' hi rfl (Task.idle_reader ht) (Task.idle_reader ht') ?_
    rw [Task.frames_reader ht']
    simp
  cases t with
  | segment hdr => exact segment_streams h ch hB hs hi ⟨rfl, rfl⟩ ho.1 ho.2
  | segmentLen _ | timeoutClear | timeoutArm => exact h.goes _ hi rfl ⟨rfl, rfl⟩ ⟨rfl, rfl⟩ (forall_mem_nil _)
  | segmentTimer hdr left =>
    exact segmentTimer_rule (fun tm _ _ => segmentRest_streams (h.other tm c.mu) ch hs.state hi ⟨rfl, rfl⟩ ho.1.1)
      fun hleft hne => flush_streams h hB hs hi ⟨rfl, rfl⟩ (ho.1.2 hleft) hne (ho.2 hleft hne) hdr _
  | segmentSend hdr f =>
    by_cases hhand : Task.inHand (.segmentSend hdr f) = []
    · exact h.aside hi (transmit_aside ch.ok mem_cons_self ⟨rfl, hhand⟩ ⟨rfl, rfl⟩ (forall_mem_nil _))
    · have hpayload : Task.inHand (.segmentSend hdr f) = f.payload := if_neg fun hagain => hhand (if_pos hagain)
      rw [runTask, ho.2 hhand]
      exact transmit_streams h (.segmentResume hdr) hi rfl hpayload rfl rfl rfl
  | timeoutSend f => exact h.aside hi (transmit_aside ch.ok mem_cons_self ⟨rfl, rfl⟩ ⟨rfl, rfl⟩ (forall_mem_nil _))
  | segmentResume hdr => exact segmentRest_streams h ch hs.state hi ⟨rfl, rfl⟩ ho.1
  | actions as =>
    cases as with
    | nil => exact h.goes .done hi rfl ⟨rfl, rfl⟩ ⟨rfl, rfl⟩ (forall_mem_nil _)
    | cons a as => exact act_streams h ch hi
  | write b written => exact writeSection_streams h ch hB hs hl hi ho.2
  | writeTransmit b written f =>
    have hok : ch.ok = true := ho.2
    show Streams (c.writeTransmit i b written f ch)
    rw [writeTransmit, if_pos hok]
    exact transmit_streams h (.writeAppend b written f.segment) hi rfl rfl rfl rfl rfl
  | writeAppend b written seg | writeRetry b written seg => exact writeAppend_streams h hi rfl rfl rfl rfl rfl
  | writeFull b written seg =>
    rw [runTask]
    split
    · rename_i hclosed
      apply h.returns hl hi rfl rfl
      · exact ⟨(b.drop written).take seg.payload.length, take_add, fun _ => hclosed⟩
      · simp
    · exact h.proceeds (.writeFullAck b written seg _) hi rfl rfl rfl rfl
  | writeLen b written seg =>
    rw [runTask]
    split
    · exact h.proceeds (.write b _) hi rfl rfl rfl rfl
    · exact h.proceeds (.writeTimer b written seg) hi rfl rfl rfl rfl
  | timeout =>
    refine timeout_rule (fun _ => h.goes .done hi rfl ⟨rfl, rfl⟩ ⟨rfl, rfl⟩ (forall_mem_nil _))
      (fun _ => h.goes .timeoutClear hi rfl ⟨rfl, rfl⟩ ⟨rfl, rfl⟩ (forall_mem_nil _)) fun seg hhead => ?_
    have hseg := hs.buf seg (mem_of_mem_head? hhead)
    exact ⟨h.goes .timeoutArm hi rfl ⟨rfl, rfl⟩ ⟨rfl, rfl⟩ (forall_mem_nil _),
      fun _ => h.goes (.actions [.close]) hi rfl ⟨rfl, rfl⟩ ⟨rfl, rfl⟩ (forall_mem_nil _),
      h.goes (.timeoutResume seg) hi rfl ⟨rfl, rfl⟩ ⟨rfl, rfl⟩ (forall_mem_nil _),
      h.goes (.timeoutMark _) hi rfl ⟨rfl, rfl⟩ ⟨rfl, rfl⟩ (retransmission_frames h hseg _)⟩
  | timeoutResume seg =>
    have hseg := hsound.segs seg mem_cons_self
    exact h.goes (.timeoutMark _) hi rfl ⟨rfl, rfl⟩ ⟨rfl, rfl⟩ (retransmission_frames h hseg _)
  | timeoutMark f => exact h.goes (.timeoutSend f) hi rfl ⟨rfl, rfl⟩ ⟨rfl, rfl⟩ fun g hg => .inl hg
  | closeWrite =>
    exact closeWrite_rule (h.goes .done hi rfl ⟨rfl, rfl⟩ ⟨rfl, rfl⟩ (forall_mem_nil _)) fun _ _ =>
      h.goes (.actions [.sendFin]) hi rfl ⟨rfl, rfl⟩ ⟨rfl, rfl⟩ (forall_mem_nil _)
  | setNoDelay noDelay => exact h.goes .done hi rfl ⟨rfl, rfl⟩ ⟨rfl, rfl⟩ (forall_mem_nil _)
  | read _ | readTake _ | readStore _ _ | writeTo _ | writeToTake _ | done => exact hreader rfl
  | _ => exact h.proceeds _ hi rfl rfl rfl rfl

theorem Streams.starts (t : Task) (hframes : t.frames = []) (hpart : t.part = []) (hhand : t.inHand = []) :
    Streams { c with tasks := c.tasks ++ [t] } := by
  have hparts : (c.tasks ++ [t]).flatMap Task.part = c.tasks.flatMap Task.part := by
    rw [flatMap_append, flatMap_singleton, hpart, append_nil]
  have hhands : (c.tasks ++ [t]).flatMap Task.inHand = c.tasks.flatMap Task.inHand := by
    rw [flatMap_append, flatMap_singleton, hhand, append_nil]
  refine ⟨h.window, h.wire, ?_, h.single.starts hhand, h.consecutive, ?_, ?_, h.full⟩
  · exact forall_mem_starts h.tasks (holds_empty hframes)
  · show _ ++ (c.tasks ++ [t]).flatMap Task.inHand = _
    rw [hhands]
    exact h.sent
  · show ∃ rest, c.send.stream ++ c.send.nagleBuf = _ ++ (c.tasks ++ [t]).flatMap Task.part ++ rest ∧
      (rest ≠ [] → c.closed = true ∧ (c.tasks ++ [t]).flatMap Task.part = [])
    rw [hparts]
    exact h.parts

theorem step_streams (hB : B + 1 < 2 ^ 32) {e : TcpEvent} (hs : Sends N iss B c) (hl : Lone c.tasks) (ho : Steady c e) :
    Streams (c.step e) := by
  refine step_rule h (fun k _ => ?_) (fun _ => (h.starts .timeout rfl rfl rfl).other _ c.mu) ?_
  · apply h.starts
    · cases k <;> rfl
    · cases k <;> rfl
    · cases k <;> rfl
  · rintro i ch t rfl hi -
    exact runTask_streams h hB hs hl hi ho

end Kept

/-- A `Write` that does not fit the window, a retransmission, and the acknowledgement that lets the rest out; then, with
Nagle's algorithm on, a byte that waits for the acknowledgement of what is in flight. -/
def writeRun : List TcpEvent :=
  [.call (.write [1, 2, 3, 4, 5]), .run 0 {}, .run 0 {}, .run 0 {}, .run 0 {}, .run 0 {}, .run 0 {},
    .run 0 {}, .run 0 {}, .fire 0, .run 1 {}, .run 1 {}, .run 1 {}, .run 1 {},
    .call (.segment { ack := 3, hasAck := true, window := 3 }), .run 2 {}, .run 2 {}, .run 2 {},
    .run 0 {}, .run 0 {}, .run 0 {}, .run 0 {}, .run 0 {}, .run 0 {}, .run 0 {}, .run 0 {},
    .call (.setNoDelay false), .run 3 {}, .call (.write [6]), .run 4 {}, .run 4 {},
    .call (.segment { ack := 5, hasAck := true, window := 3 }), .run 5 {}, .run 5 {}, .run 5 {}, .run 5 {}, .run 5 {}]

/-- The second byte waits in `nagleBuf`, and the acknowledgement that closes the window sends it. -/
def nagleRun : List TcpEvent :=
  [.call (.setNoDelay false), .run 0 {}] ++ writeOnce 1 [1] ++ [.call (.write [2]), .run 2 {}, .run 2 {},
    .call (.segment { ack := 1, hasAck := true }), .run 3 {}, .run 3 {}, .run 3 {}, .run 3 {}]

/-- The guest acknowledges 100 when one byte was sent. -/
def farAckRun : List TcpEvent :=
  writeOnce 0 [1] ++ [.call (.segment { ack := 100, hasAck := true, window := 10 }), .run 1 {}, .run 1 {}, .run 1 {}] ++
    writeOnce 2 [2]

end TcpConn

end CrumbleCracker.Netstack
