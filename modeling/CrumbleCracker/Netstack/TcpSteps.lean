import CrumbleCracker.Netstack.TcpConn

/-!
# What a step of a connection can do

The ways a step can go, and one rule for each call, from which the invariants of both sides follow.
-/

namespace CrumbleCracker.Netstack

open List

variable {t : Task} {as : List Action}

/-! ## What a call holds -/

def Action.frame : Action → Option Frame
  | .transmit f => some f
  | _ => none

/-- The frames a call is about to send. -/
def Task.frames : Task → List Frame
  | .actions as => as.filterMap Action.frame
  | .segmentSend _ f | .writeTransmit _ _ f | .timeoutMark f | .timeoutSend f => [f]
  | _ => []

def Task.segs : Task → List TcpSendSegment
  | .writeAppend _ _ seg | .writeFull _ _ seg | .writeFullAck _ _ seg _ | .writeRetry _ _ seg | .writeSettle _ _ seg
  | .writeAck _ _ seg _ | .writeLen _ _ seg | .writeTimer _ _ seg | .timeoutResume seg => [seg]
  | _ => []

/-- The FINs a call is about to number. -/
def Task.fins : Task → Nat
  | .actions as => as.count .sendFin
  | _ => 0

def Action.piece : Action → Option Piece
  | .enqueue data => data
  | _ => none

def Task.hands : Task → List Piece
  | .actions as => as.filterMap Action.piece
  | .readStore head rest => [head, rest]
  | .writeTo batch | .writeToTake batch => batch
  | _ => []

/-- A call of `Read` or `WriteTo`, or one that has returned. -/
def Task.isReader : Task → Bool
  | .read _ | .readTake _ | .readStore _ _ | .writeTo _ | .writeToTake _ | .done => true
  | _ => false

def Task.isWrite : Task → Bool
  | .write _ _ | .writeTransmit _ _ _ | .writeAppend _ _ _ | .writeFull _ _ _ | .writeFullAck _ _ _ _
  | .writeRetry _ _ _
  | .writeSettle _ _ _ | .writeAck _ _ _ _ | .writeLen _ _ _ | .writeTimer _ _ _ => true
  | _ => false

/-- A step of `Write`, of the timer or of `CloseWrite`, and of `handleSegment` where it only sends. -/
def Task.isSender : Task → Bool
  | .segmentLen _ | .segmentSend _ _ | .timeout | .timeoutClear | .timeoutResume _ | .timeoutMark _ | .timeoutSend _
  | .timeoutArm | .closeWrite | .setNoDelay _ => true
  | t => t.isWrite

theorem Task.frames_reader (h : t.isReader = true) : t.frames = [] := by cases t <;> first | rfl | cases h

theorem Task.segs_reader (h : t.isReader = true) : t.segs = [] := by cases t <;> first | rfl | cases h

theorem Task.fins_reader (h : t.isReader = true) : t.fins = 0 := by cases t <;> first | rfl | cases h

theorem Task.isWrite_reader (h : t.isReader = true) : t.isWrite = false := by cases t <;> first | rfl | cases h

/-- Actions of the receiving side. -/
def Quiet (as : List Action) : Prop := ∀ a ∈ as, a = .sendAck ∨ ∃ data, a = .enqueue data

theorem Quiet.frames (h : Quiet as) : (Task.actions as).frames = [] := by
  apply filterMap_eq_nil_iff.2
  intro a ha
  rcases h a ha with rfl | ⟨data, rfl⟩
  · rfl
  · rfl

theorem Quiet.fins (h : Quiet as) : (Task.actions as).fins = 0 := by
  apply count_eq_zero.2
  intro hmem
  rcases h _ hmem with heq | ⟨data, heq⟩
  · cases heq
  · cases heq

theorem Quiet.append {bs : List Action} (ha : Quiet as) (hb : Quiet bs) : Quiet (as ++ bs) :=
  forall_mem_append.2 ⟨ha, hb⟩

theorem quiet_enqueue (ps : List Piece) : Quiet (ps.map fun p => Action.enqueue (some p)) := by
  intro a ha
  obtain ⟨p, -, rfl⟩ := mem_map.1 ha
  exact .inr ⟨some p, rfl⟩

theorem quiet_sendAck : Quiet [.sendAck] := by
  intro a ha
  exact .inl (mem_singleton.1 ha)

/-! ## One task moves -/

section

variable {ts : List Task} {i : Nat}

theorem split_tasks (hi : ts[i]? = some t) : ∃ us vs, ts = us ++ t :: vs ∧ ∀ t', ts.set i t' = us ++ t' :: vs := by
  obtain ⟨hlt, rfl⟩ := List.getElem?_eq_some_iff.1 hi
  refine ⟨ts.take i, ts.drop (i + 1), by simp, fun t' => ?_⟩
  rw [set_eq_take_append_cons_drop, if_pos hlt]

theorem sum_set (g : Task → Nat) (hi : ts[i]? = some t) (t' : Task) :
    ((ts.set i t').map g).sum + g t = (ts.map g).sum + g t' := by
  obtain ⟨us, vs, heq, hset⟩ := split_tasks hi
  rw [hset, heq]
  simp only [map_append, map_cons, sum_append, sum_cons]
  omega

theorem forall_mem_set {P : Task → Prop} {t' : Task} (h : ∀ u ∈ ts, P u) (ht' : P t') : ∀ u ∈ ts.set i t', P u := by
  intro u hu
  rcases mem_or_eq_of_mem_set hu with hu | rfl
  · exact h u hu
  · exact ht'

theorem forall_mem_starts {P : Task → Prop} (h : ∀ u ∈ ts, P u) (ht : P t) : ∀ u ∈ ts ++ [t], P u :=
  forall_mem_append.2 ⟨h, forall_mem_singleton.2 ht⟩

end

/-! ## One `Write` at a time -/

/-- At most one call of `Write` is in progress. -/
def Lone (ts : List Task) : Prop :=
  ∀ (i j : Nat) (t u : Task), ts[i]? = some t → ts[j]? = some u → t.isWrite = true → u.isWrite = true → i = j

theorem lone_nil : Lone [] := by
  intro i j t u hi
  cases hi

variable {ts : List Task} {i : Nat}

theorem Lone.set (h : Lone ts) (hi : ts[i]? = some t) (t' : Task) (ht : t'.isWrite = true → t.isWrite = true) :
    Lone (ts.set i t') := by
  have hback : ∀ (j : Nat) (u : Task), (ts.set i t')[j]? = some u → u.isWrite = true →
      ∃ v, ts[j]? = some v ∧ v.isWrite = true := by
    intro j u hj hu
    by_cases hij : i = j
    · subst hij
      have hlt : i < ts.length := (List.getElem?_eq_some_iff.1 hi).1
      rw [getElem?_set_self hlt] at hj
      cases hj
      exact ⟨t, hi, ht hu⟩
    · rw [getElem?_set_ne hij] at hj
      exact ⟨u, hj, hu⟩
  intro j k u v hj hk hu hv
  obtain ⟨u', hj', hu'⟩ := hback j u hj hu
  obtain ⟨v', hk', hv'⟩ := hback k v hk hv
  exact h j k u' v' hj' hk' hu' hv'

theorem Lone.others (h : Lone ts) (hi : ts[i]? = some t) (ht : t.isWrite = true) (j : Nat) (u : Task) (hj : j ≠ i)
    (hu : ts[j]? = some u) : u.isWrite = false := by
  cases hw : u.isWrite with
  | false => rfl
  | true => exact absurd (h j i u t hu hi hw ht) hj

theorem Lone.append (h : Lone ts) (ht : t.isWrite = true → ∀ u ∈ ts, u.isWrite = false) : Lone (ts ++ [t]) := by
  have hlast : ∀ (j : Nat) (u : Task), (ts ++ [t])[j]? = some u → ts[j]? = some u ∨ (j = ts.length ∧ u = t) := by
    intro j u hj
    by_cases hlt : j < ts.length
    · rw [getElem?_append_left hlt] at hj
      exact .inl hj
    · rw [getElem?_append_right (by omega), getElem?_singleton] at hj
      split at hj
      · cases hj
        exact .inr ⟨by omega, rfl⟩
      · cases hj
  intro j k u v hj hk hu hv
  rcases hlast j u hj with hj' | ⟨hj', hut⟩ <;> rcases hlast k v hk with hk' | ⟨hk', hvt⟩
  · exact h j k u v hj' hk' hu hv
  · rw [hvt] at hv
    rw [ht hv u (mem_of_getElem? hj')] at hu
    cases hu
  · rw [hut] at hu
    rw [ht hu v (mem_of_getElem? hk')] at hv
    cases hv
  · rw [hj', hk']

namespace TcpConn

/-- The states of a connection after the handshake. -/
def Connected (s : TcpState) : Prop := s = .established ∨ s = .finWait ∨ s = .closed

theorem transmit_recv (f : Frame) (ok : Bool) (c : TcpConn) : (c.transmit f ok).recv = c.recv := by
  unfold transmit
  split <;> rfl

theorem transmit_state (f : Frame) (ok : Bool) (c : TcpConn) : (c.transmit f ok).state = c.state := by
  unfold transmit
  split <;> rfl

theorem transmit_closed (f : Frame) (ok : Bool) (c : TcpConn) : (c.transmit f ok).closed = c.closed := by
  unfold transmit
  split <;> rfl

theorem transmit_tasks (f : Frame) (ok : Bool) (c : TcpConn) : (c.transmit f ok).tasks = c.tasks := by
  unfold transmit
  split <;> rfl

variable {c : TcpConn} {f : Frame}

theorem mem_transmit_wire {g : Frame} {ok : Bool} (h : g ∈ (c.transmit f ok).wire) : g ∈ c.wire ∨ g = f := by
  unfold transmit at h
  split at h
  · simpa using h
  · exact .inl h

/-! ## The switch of `handleSegment` -/

def AcceptsFin (c : TcpConn) (hdr : TcpHeader) : Prop :=
  c.state = .established ∧ hdr.fin = true ∧ (hdr.payload = [] ∨ hdr.seq = c.recv.guestSeq)
deriving Decidable

/-- The ways out of the switch: the state, and what the call does next. -/
inductive SwitchTo (c : TcpConn) (hdr : TcpHeader) : TcpState → Task → Prop
  | done : SwitchTo c hdr c.state .done
  | stay {as : List Action} (h : Quiet as) : SwitchTo c hdr c.state (.actions as)
  /-- the guest resets the connection -/
  | reset : SwitchTo c hdr c.state (.actions [.close])
  /-- an acknowledgement after the guest's FIN ends the connection -/
  | discard (hs : c.state = .finWait) (hack : hdr.hasAck = true) : SwitchTo c hdr .closed (.actions [.close])
  | fin {as : List Action} (h : Quiet as) (hf : AcceptsFin c hdr) :
      SwitchTo c hdr .finWait (.actions (as ++ finActions c.writeClosed))

theorem segmentSwitch_cases (hs : Connected c.state) (i : Nat) (hdr : TcpHeader) (ch : Choice) :
    ∃ r s t, c.segmentSwitch i hdr ch = { c with recv := r, state := s }.release i t ∧ SwitchTo c hdr s t := by
  unfold segmentSwitch
  rcases hs with hs | hs | hs
  · rw [hs]
    dsimp only
    split
    · unfold receivePayload
      split
      · exact ⟨_, _, _, rfl, .stay quiet_sendAck⟩
      rename_i hin
      dsimp only
      split
      · exact ⟨_, _, _, rfl, .fin (quiet_enqueue _) ⟨hs, ‹_›, .inr (Decidable.not_not.1 hin)⟩⟩
      · exact ⟨_, _, _, rfl, .stay ((quiet_enqueue _).append quiet_sendAck)⟩
    rename_i hp
    split
    · exact ⟨_, _, _, rfl, .fin (show Quiet [] from nofun) ⟨hs, ‹_›, .inl (Decidable.not_not.1 hp)⟩⟩
    split
    · exact ⟨_, _, _, rfl, .reset⟩
    · exact ⟨_, _, _, rfl, .done⟩
  · rw [hs]
    dsimp only
    split
    · exact ⟨_, _, _, rfl, .discard hs ‹_›⟩
    · exact ⟨_, _, _, rfl, .done⟩
  · rw [hs]
    exact ⟨_, _, _, rfl, .done⟩

theorem SwitchTo.connected {hdr : TcpHeader} {s : TcpState} (h : SwitchTo c hdr s t) (hc : Connected c.state) :
    Connected s := by
  cases h with
  | done | stay _ | reset => exact hc
  | discard _ _ => exact .inr (.inr rfl)
  | fin _ _ => exact .inr (.inl rfl)

theorem finActions_frames (writeClosed : Bool) : (Task.actions (finActions writeClosed)).frames = [] := by
  cases writeClosed <;> rfl

theorem SwitchTo.shape {hdr : TcpHeader} {s : TcpState} (h : SwitchTo c hdr s t) :
    (t = .done ∨ ∃ as, t = .actions as) ∧ t.frames = [] := by
  cases h with
  | done => exact ⟨.inl rfl, rfl⟩
  | stay hq => exact ⟨.inr ⟨_, rfl⟩, hq.frames⟩
  | reset | discard _ _ => exact ⟨.inr ⟨_, rfl⟩, rfl⟩
  | fin hq hf =>
    rename_i as
    refine ⟨.inr ⟨_, rfl⟩, ?_⟩
    show (as ++ finActions c.writeClosed).filterMap Action.frame = []
    rw [filterMap_append]
    exact append_eq_nil_iff.2 ⟨hq.frames, finActions_frames c.writeClosed⟩

/-! ## Readers -/

theorem reader_cases (ht : t.isReader = true) (i : Nat) (ch : Choice) (c : TcpConn) :
    c.runTask i t ch = c ∨ ∃ r t', t'.isReader = true ∧ c.runTask i t ch = { c with recv := r }.goto i t' := by
  cases t with
  | read n =>
    show _ ∨ ∃ r t', _ ∧ c.read i n ch = _
    unfold read
    repeat' split
    all_goals exact .inr ⟨_, _, rfl, rfl⟩
  | readTake n =>
    show c.readTake i n ch = c ∨ ∃ r t', _ ∧ c.readTake i n ch = _
    unfold readTake
    repeat' split
    all_goals first | exact .inl rfl | exact .inr ⟨_, _, rfl, rfl⟩
  | readStore head rest => exact .inr ⟨_, _, rfl, rfl⟩
  | writeTo batch =>
    show _ ∨ ∃ r t', _ ∧ c.writeTo i batch ch = _
    unfold writeTo
    repeat' split
    all_goals exact .inr ⟨_, _, rfl, rfl⟩
  | writeToTake batch =>
    show c.writeToTake i batch ch = c ∨ ∃ r t', _ ∧ c.writeToTake i batch ch = _
    unfold writeToTake
    repeat' split
    all_goals first | exact .inl rfl | exact .inr ⟨_, _, rfl, rfl⟩
  | done => exact .inl rfl
  | _ => cases ht

theorem reader_keeps {P : TcpConn → Prop} {ch : Choice} (ht : t.isReader = true) (h : P c)
    (hgoes : ∀ r t', t'.isReader = true → P ({ c with recv := r }.goto i t')) : P (c.runTask i t ch) := by
  rcases reader_cases ht i ch c with heq | ⟨r, t', ht', heq⟩
  · rwa [heq]
  · rw [heq]
    exact hgoes r t' ht'

/-! ## Senders -/

/-- Task `i` moves from `t` to `t'` and leaves the receiving side alone: it sends what it held, and makes only frames
that carry the connection's acknowledgement. -/
structure Sending (i : Nat) (t t' : Task) (c c' : TcpConn) : Prop where
  tasks : c'.tasks = c.tasks.set i t'
  recv : c'.recv = c.recv
  state : c'.state = c.state
  closed : c'.closed = c.closed
  wire : ∀ f ∈ c'.wire, f ∈ c.wire ∨ f ∈ t.frames
  hands : t'.hands = []
  frames : ∀ f ∈ t'.frames, f ∈ t.frames ∨ f.ack = c.recv.guestSeq ∧ f.ackOff = c.recv.place
  isWrite : t'.isWrite = true → t.isWrite = true

section Senders

variable {i : Nat} {t' : Task} {c' : TcpConn}

theorem Sending.goes (hsame : (c'.tasks, c'.recv, c'.state, c'.closed, c'.wire) =
      (c.tasks.set i t', c.recv, c.state, c.closed, c.wire)) (hhands : t'.hands = [])
    (hframes : ∀ f ∈ t'.frames, f ∈ t.frames ∨ f.ack = c.recv.guestSeq ∧ f.ackOff = c.recv.place)
    (hwrite : t'.isWrite = true → t.isWrite = true) : Sending i t t' c c' := by
  simp only [Prod.mk.injEq] at hsame
  obtain ⟨htasks, hrecv, hstate, hclosed, hwire⟩ := hsame
  exact ⟨htasks, hrecv, hstate, hclosed, fun f hf => .inl (hwire ▸ hf), hhands, hframes, hwrite⟩

theorem Sending.transmits (ok : Bool) (hf : f ∈ t.frames) (hhands : t'.hands = []) (hframes : t'.frames = [])
    (hwrite : t'.isWrite = true → t.isWrite = true) : Sending i t t' c ((c.transmit f ok).goto i t') := by
  refine ⟨?_, transmit_recv f ok c, transmit_state f ok c, transmit_closed f ok c, fun g hg => ?_, hhands, ?_, hwrite⟩
  · rw [goto, transmit_tasks]
  · rcases mem_transmit_wire hg with hg | rfl
    · exact .inl hg
    · exact .inr hf
  · rw [hframes]
    exact nofun

theorem current_singleton (hack : f.ack = c.recv.guestSeq) (hoff : f.ackOff = c.recv.place) (fs : List Frame) :
    ∀ g ∈ [f], g ∈ fs ∨ g.ack = c.recv.guestSeq ∧ g.ackOff = c.recv.place := by
  rintro g (_ | ⟨_, ⟨⟩⟩)
  exact .inr ⟨hack, hoff⟩

theorem sender_cases (ht : t.isSender = true) (i : Nat) (ch : Choice) (c : TcpConn) :
    c.runTask i t ch = c ∨ ∃ t', Sending i t t' c (c.runTask i t ch) := by
  cases t with
  | segmentSend hdr f => exact .inr ⟨.segmentResume hdr, .transmits ch.ok mem_cons_self rfl rfl nofun⟩
  | timeoutSend f => exact .inr ⟨.timeoutArm, .transmits ch.ok mem_cons_self rfl rfl nofun⟩
  | timeoutMark f => exact .inr ⟨.timeoutSend f, .goes rfl rfl (fun g hg => .inl hg) nofun⟩
  | timeoutResume seg => exact .inr ⟨.timeoutMark _, .goes rfl rfl (current_singleton rfl rfl _) nofun⟩
  | segmentLen _ | timeoutClear | timeoutArm | setNoDelay _ => exact .inr ⟨_, .goes rfl rfl nofun nofun⟩
  | timeout =>
    refine .inr ?_
    rw [runTask, timeout]
    split
    · exact ⟨.done, .goes rfl rfl nofun nofun⟩
    split
    · exact ⟨.timeoutClear, .goes rfl rfl nofun nofun⟩
    rename_i seg _ _
    split
    · exact ⟨.timeoutArm, .goes rfl rfl nofun nofun⟩
    split
    · exact ⟨.actions [.close], .goes rfl rfl nofun nofun⟩
    split
    · exact ⟨.timeoutResume seg, .goes rfl rfl nofun nofun⟩
    · exact ⟨.timeoutMark _, .goes rfl rfl (current_singleton rfl rfl _) nofun⟩
  | closeWrite =>
    refine .inr ?_
    rw [runTask, closeWrite]
    split
    · exact ⟨.done, .goes rfl rfl nofun nofun⟩
    split
    · exact ⟨.done, .goes rfl rfl nofun nofun⟩
    · exact ⟨.actions [.sendFin], .goes rfl rfl nofun nofun⟩
  | write b written =>
    rw [runTask, writeSection]
    split
    · exact .inr ⟨.done, .goes rfl rfl nofun nofun⟩
    split
    · exact .inr ⟨.done, .goes rfl rfl nofun nofun⟩
    split
    · dsimp only
      split
      · exact .inr ⟨.write b _, .goes rfl rfl nofun fun _ => rfl⟩
      · exact .inr ⟨.writeTransmit b written _, .goes rfl rfl (current_singleton rfl rfl _) fun _ => rfl⟩
    split
    · exact .inr ⟨.done, .goes rfl rfl nofun nofun⟩
    · exact .inl rfl
  | writeTransmit b written f =>
    refine .inr ?_
    rw [runTask, writeTransmit]
    split
    · exact ⟨.writeAppend b written f.segment, .transmits true mem_cons_self rfl rfl fun _ => rfl⟩
    · exact ⟨.done, .goes rfl rfl nofun nofun⟩
  | writeAppend b written seg | writeRetry b written seg =>
    refine .inr ?_
    rw [runTask, writeAppend]
    split
    · exact ⟨_, .goes rfl rfl nofun fun _ => rfl⟩
    · exact ⟨.writeSettle b written seg, .goes rfl rfl nofun fun _ => rfl⟩
  | writeFull b written seg =>
    refine .inr ?_
    rw [runTask]
    split
    · exact ⟨.done, .goes rfl rfl nofun nofun⟩
    · exact ⟨.writeFullAck b written seg _, .goes rfl rfl nofun fun _ => rfl⟩
  | writeLen b written seg =>
    refine .inr ?_
    rw [runTask]
    split
    · exact ⟨.write b _, .goes rfl rfl nofun fun _ => rfl⟩
    · exact ⟨.writeTimer b written seg, .goes rfl rfl nofun fun _ => rfl⟩
  | writeFullAck _ _ _ _ | writeSettle _ _ _ | writeAck _ _ _ _ | writeTimer _ _ _ =>
    exact .inr ⟨_, .goes rfl rfl nofun fun _ => rfl⟩
  | _ => cases ht

end Senders

/-! ## Rules for the longer calls -/

/-- `handleSegment` has looked at the acknowledgement. -/
def looks (wnd : UInt16) (dup : Nat) (c : TcpConn) : TcpConn :=
  { c with send := { c.send with peerWnd := wnd, dupAcks := dup } }

/-- The acknowledgement does not move `sendAcked` on; its window is taken. -/
structure Looked (c : TcpConn) (hdr : TcpHeader) (wnd : UInt16) : Prop where
  isOpen : c.closed = false
  noAck : ¬ (hdr.hasAck = true ∧ c.send.sendAcked < hdr.ack)
  window : wnd = c.send.peerWnd ∨ hdr.hasAck = true ∧ wnd = hdr.window

section Rules

variable {P : TcpConn → Prop} {i : Nat} {hdr : TcpHeader} {ch : Choice}

theorem segment_rule (hdone : P (c.goto i .done))
    (hrest : ∀ wnd dup, Looked c hdr wnd → P ((c.looks wnd dup).segmentRest i hdr ch))
    (hagain : ∀ wnd dup, Looked c hdr wnd → ∀ seg ∈ c.send.sendBuf,
      P ((c.looks wnd dup).goto i (.segmentSend hdr ((c.looks wnd dup).retransmission seg))))
    (hack : c.closed = false → hdr.hasAck = true → c.send.sendAcked < hdr.ack →
      P ({ c with send := { c.send with peerWnd := hdr.window }.acknowledge hdr.ack, mu := some i }.goto i
        (.segmentLen hdr))) : P (c.segment i hdr ch) := by
  unfold segment
  split
  · exact hdone
  rename_i hopen
  have hopen : c.closed = false := by simpa using hopen
  split
  · rename_i hhas
    exact hrest c.send.peerWnd c.send.dupAcks ⟨hopen, fun hh => by simp [hh.1] at hhas, .inl rfl⟩
  rename_i hhas
  have hhas : hdr.hasAck = true := by simpa using hhas
  dsimp only
  split
  · exact hack hopen hhas ‹_›
  rename_i hlt
  have hlooked : Looked c hdr hdr.window := ⟨hopen, fun hh => hlt hh.2, .inr ⟨hhas, rfl⟩⟩
  split
  · unfold duplicateAck
    dsimp only
    split
    · rename_i seg rest hbuf
      have hmem : seg ∈ c.send.sendBuf := by
        rw [show c.send.sendBuf = seg :: rest from hbuf]
        exact mem_cons_self
      split
      · exact hagain _ _ hlooked seg hmem
      · exact hrest _ _ hlooked
    · exact hrest _ _ hlooked
  · exact hrest _ _ hlooked

theorem segmentTimer_rule {left : Bool}
    (hrest : ∀ tm, (left = true → tm = c.timer.restart) → (left = false → tm = c.timer.stop) →
      P (segmentRest i hdr ch { c with timer := tm }))
    (hflush : left = false → c.send.nagleBuf ≠ [] → P ({ c with
      timer := c.timer.stop, send := { c.send.take c.send.nagleBuf with nagleBuf := [] } }.release i
        (.segmentSend hdr { c.frame with psh := true, payload := c.send.nagleBuf }))) :
    P (c.segmentTimer i hdr left ch) := by
  unfold segmentTimer
  cases left with
  | true => exact hrest _ (fun _ => rfl) nofun
  | false =>
    dsimp only
    split
    · cases ‹false = true›
    split
    · exact hrest _ nofun fun _ => rfl
    · exact hflush rfl ‹_›

theorem timeout_rule (hdone : c.closed = true → P (c.goto i .done))
    (hclear : c.send.sendBuf = [] → P ({ c with mu := some i }.goto i .timeoutClear))
    (hseg : ∀ seg ∈ c.send.sendBuf.head?, P (c.goto i .timeoutArm) ∧
      (maxRetries ≤ seg.retxCount → P (c.goto i (.actions [.close]))) ∧ P (c.goto i (.timeoutResume seg)) ∧
      P (c.backoff i seg)) : P (c.timeout i ch) := by
  unfold timeout
  split
  · exact hdone ‹_›
  split
  · exact hclear ‹_›
  rename_i seg rest hbuf
  obtain ⟨harm, hclose, hresume, hback⟩ := hseg seg (by rw [hbuf]; rfl)
  split
  · exact harm
  split
  · exact hclose ‹_›
  split
  · exact hresume
  · exact hback

theorem closeWrite_rule (hdone : P (c.goto i .done)) (hcloses : c.closed = false → c.writeClosed = false →
      P ({ c with writeClosed := true }.goto i (.actions [.sendFin]))) : P (c.closeWrite i) := by
  unfold closeWrite
  split
  · exact hdone
  rename_i hopen
  split
  · exact hdone
  · simp only [Bool.or_eq_true, not_or, Bool.not_eq_true] at hopen
    exact hcloses hopen.1 hopen.2

/-- A step of the connection is a call that starts, a timer that fires, or a step of a task whose lock is free. -/
theorem step_rule {e : TcpEvent} (h : P c) (hcall : ∀ k, e = .call k → P { c with tasks := c.tasks ++ [k.task] })
    (hfire : ∀ id, P { c with
      timer := { c.timer with armed := c.timer.armed.filter (· ≠ id) }, tasks := c.tasks ++ [.timeout] })
    (hrun : ∀ i ch t, e = .run i ch → c.tasks[i]? = some t → (needsMu t = true → c.mu = none) → P (c.runTask i t ch)) :
    P (c.step e) := by
  cases e with
  | call k => exact hcall k rfl
  | fire id =>
    rw [step]
    split
    · exact hfire id
    · exact h
  | run i ch =>
    rw [step]
    split
    · exact h
    rename_i t hi
    split
    · exact h
    rename_i hfree
    refine hrun i ch t rfl hi fun hneeds => ?_
    rw [hneeds, Bool.true_and] at hfree
    simpa using hfree

end Rules

/-! ## Only `Write` goes on as `Write` -/

/-- Task `i` moved, and is a `Write` only if it was one. -/
def MovesOn (i : Nat) (t : Task) (c c' : TcpConn) : Prop :=
  ∃ t', c'.tasks = c.tasks.set i t' ∧ (t'.isWrite = true → t.isWrite = true)

/-- Every way out of the switch leaves the call with actions or done. -/
theorem segmentRest_movesOn (i : Nat) (t : Task) (hdr : TcpHeader) (ch : Choice) (c : TcpConn) :
    MovesOn i t c (c.segmentRest i hdr ch) := by
  unfold segmentRest segmentSwitch receivePayload
  dsimp only
  repeat' split
  all_goals exact ⟨_, rfl, nofun⟩

theorem act_movesOn (i : Nat) (t : Task) (ch : Choice) (c : TcpConn) (a : Action) (as : List Action) :
    MovesOn i t c (c.act i a as ch) := by
  cases a with
  | enqueue data =>
    rw [act]
    split <;> exact ⟨_, rfl, nofun⟩
  | transmit f => exact ⟨.actions as, by rw [act, goto, transmit_tasks], nofun⟩
  | close =>
    rw [act, closeSection]
    split <;> exact ⟨_, rfl, nofun⟩
  | _ => exact ⟨_, rfl, nofun⟩

theorem stays (hi : c.tasks[i]? = some t) : MovesOn i t c c := by
  obtain ⟨us, vs, heq, hset⟩ := split_tasks hi
  exact ⟨t, by rw [hset, heq], id⟩

theorem runTask_movesOn (hi : c.tasks[i]? = some t) (ch : Choice) : MovesOn i t c (c.runTask i t ch) := by
  have hsender : t.isSender = true → MovesOn i t c (c.runTask i t ch) := by
    intro ht
    rcases sender_cases ht i ch c with heq | ⟨t', hs⟩
    · rw [heq]
      exact stays hi
    · exact ⟨t', hs.tasks, hs.isWrite⟩
  cases t with
  | segment hdr =>
    refine segment_rule ⟨_, rfl, nofun⟩ (fun wnd dup _ => ?_) (fun _ _ _ _ _ => ⟨_, rfl, nofun⟩)
      fun _ _ _ => ⟨_, rfl, nofun⟩
    exact segmentRest_movesOn i _ hdr ch (c.looks wnd dup)
  | segmentTimer hdr left =>
    exact segmentTimer_rule (fun tm _ _ => segmentRest_movesOn i _ hdr ch { c with timer := tm })
      fun _ _ => ⟨_, rfl, nofun⟩
  | segmentResume hdr => exact segmentRest_movesOn i _ hdr ch c
  | actions as =>
    cases as with
    | nil => exact ⟨_, rfl, nofun⟩
    | cons a as => exact act_movesOn i _ ch c a as
  | read _ | readTake _ | readStore _ _ | writeTo _ | writeToTake _ | done =>
    refine reader_keeps rfl (stays hi) fun r t' ht' => ⟨t', rfl, fun hw => ?_⟩
    rw [Task.isWrite_reader ht'] at hw
    cases hw
  | _ => exact hsender rfl

/-- Calls of `Write` that are made one after the other run one at a time. -/
theorem step_lone {e : TcpEvent} (h : Lone c.tasks)
    (he : ∀ b, e = .call (.write b) → ∀ t ∈ c.tasks, t.isWrite = false) :
    Lone (c.step e).tasks := by
  refine step_rule (P := fun c => Lone c.tasks) h ?_ (fun _ => h.append nofun) ?_
  · rintro k rfl
    apply h.append
    intro hk
    cases k with
    | write b => exact he b rfl
    | _ => cases hk
  · intro i ch t _ hi _
    obtain ⟨t', heq, ht'⟩ := runTask_movesOn hi ch
    rw [heq]
    exact h.set hi t' ht'

/-- A whole call of `Write` of task `i` that sends one chunk and starts the timer. -/
def writeOnce (i : Nat) (b : Bytes) : List TcpEvent :=
  [.call (.write b), .run i {}, .run i {}, .run i {}, .run i {}, .run i {}, .run i {}, .run i {}, .run i {}]

end TcpConn

end CrumbleCracker.Netstack
