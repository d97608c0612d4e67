import CrumbleCracker.Netstack.TcpSteps

/-!
# What the application reads

Bytes that were accepted by `enqueueData` and not read wait in three places: the rest of a payload that a `Read` did not
take whole (`readPending`, or still with the call), the payloads that a `WriteTo` holds, and the channel. `Close` drops
the first and leaves the channel. While calls of `Read` and `WriteTo` come one after another, the writer takes what it
is given, and no rest is dropped while payloads wait in the channel, the application gets a prefix of what was accepted
(`returned_in_order`); otherwise it gets bytes behind those that were dropped (`rest_skipped`).
-/

namespace CrumbleCracker.Netstack

open List

/-- A call of `Read` or `WriteTo` in progress. -/
def Task.reads : Task → Bool
  | .read _ | .readTake _ | .readStore _ _ | .writeTo _ | .writeToTake _ => true
  | _ => false

/-- A call that has found no rest of a payload. -/
def Task.takes : Task → Bool
  | .readTake _ | .readStore _ _ | .writeToTake _ => true
  | _ => false

/-- What was handed out, and after it what is still to be handed out, where the reading call holds `ps`. -/
def RecvSide.content (r : RecvSide) (ps : List Piece) : Bytes :=
  (r.returned ++ ps ++ r.readPending.toList ++ r.recvBuf.reduceOption).flatMap Piece.data

namespace TcpConn

variable {c c' : TcpConn} {i n : Nat} {t : Task} {acc : Bytes}

def readers (c : TcpConn) : List Task := c.tasks.filter Task.reads

def content (c : TcpConn) : Bytes := c.recv.content (c.readers.flatMap Task.hands)

/-- What `enqueueData` accepts in a step. -/
def enqueued (c : TcpConn) : TcpEvent → Bytes
  | .run i _ => match c.tasks[i]? with
    | some (.actions (.enqueue (some p) :: _)) =>
      if c.closed = false ∧ c.mu = none ∧ c.recv.recvBuf.length < recvBufCapacity then p.data else []
    | _ => []
  | _ => []

/-- What it accepts in a run. -/
def accepted : TcpConn → List TcpEvent → Bytes
  | _, [] => []
  | c, e :: es => c.enqueued e ++ accepted (c.step e) es

/-- The condition on one step: calls of `Read` and `WriteTo` do not overlap, the writer takes what it is given, and
where the rest of a payload is dropped no payload waits in the channel. -/
def Gapless (c : TcpConn) : TcpEvent → Prop
  | .run i ch => c.readers.length ≤ 1 ∧ match c.tasks[i]? with
    | some (.actions (.close :: _)) => c.closed = false → c.recv.readPending ≠ none → c.recv.recvBuf.reduceOption = []
    | some (.readStore _ _) => c.closed = true → c.recv.recvBuf.reduceOption = []
    | some (.writeTo batch) | some (.writeToTake batch) => batch ≠ [] → ch.ok = true
    | _ => True
  | _ => True

instance (c : TcpConn) (e : TcpEvent) : Decidable (Gapless c e) := by
  unfold Gapless
  repeat' split
  all_goals infer_instance

/-- A call that takes from the channel finds no rest before it, and nothing that was accepted is missing before what is
held; while the connection is open, nothing at all. -/
structure InOrder (acc : Bytes) (c : TcpConn) : Prop where
  rest : ∀ t ∈ c.readers, t.takes = true → c.recv.readPending = none
  held : c.content <+: acc
  whole : c.closed = false → c.content = acc

/-! ## Steps that do not read -/

theorem readers_same (hi : c.tasks[i]? = some t) (ht : t.reads = false) {t' : Task} (ht' : t'.reads = false)
    (htasks : c'.tasks = c.tasks.set i t') : c'.readers = c.readers := by
  obtain ⟨us, vs, heq, hset⟩ := split_tasks hi
  rw [readers, readers, htasks, hset, heq]
  simp [ht, ht']

theorem readers_sole (hi : c.tasks[i]? = some t) (ht : t.reads = true) (hsole : c.readers.length ≤ 1) :
    c.readers = [t] ∧ ∀ {c' : TcpConn} {t' : Task}, c'.tasks = c.tasks.set i t' →
    c'.readers = [t'].filter Task.reads := by
  obtain ⟨us, vs, heq, hset⟩ := split_tasks hi
  have hall : c.readers = us.filter Task.reads ++ t :: vs.filter Task.reads := by
    rw [readers, heq, filter_append, filter_cons_of_pos ht]
  rw [hall, length_append, length_cons] at hsole
  have hus : us.filter Task.reads = [] := length_eq_zero_iff.1 (by omega)
  have hvs : vs.filter Task.reads = [] := length_eq_zero_iff.1 (by omega)
  refine ⟨by rw [hall, hus, hvs, nil_append], fun {c' t'} htasks => ?_⟩
  rw [readers, htasks, hset, filter_append, hus, nil_append, ← singleton_append, filter_append, hvs,
    append_nil]

/-- Task `i` moves on and neither reads nor touches what is read. -/
def Unread (i : Nat) (c c' : TcpConn) : Prop :=
  ∃ t', t'.reads = false ∧ c'.tasks = c.tasks.set i t' ∧ c'.closed = c.closed ∧
    (c'.recv.returned, c'.recv.readPending, c'.recv.recvBuf) = (c.recv.returned, c.recv.readPending, c.recv.recvBuf)

theorem segmentRest_unread (hdr : TcpHeader) (ch : Choice) (c : TcpConn) : Unread i c (c.segmentRest i hdr ch) := by
  unfold segmentRest segmentSwitch receivePayload RecvSide.keep
  dsimp only
  repeat' split
  all_goals exact ⟨_, rfl, rfl, rfl, rfl⟩

theorem runTask_unread (ht : t.reads = false) (hi : c.tasks[i]? = some t) (ch : Choice)
    (hact : ∀ a as, t = .actions (a :: as) → a ≠ .close ∧ ∀ data, a ≠ .enqueue data) :
    Unread i c (c.runTask i t ch) := by
  have hstays : Unread i c c := by
    obtain ⟨us, vs, heq, hset⟩ := split_tasks hi
    exact ⟨t, ht, by rw [hset, heq], rfl, rfl⟩
  have htransmit : ∀ f ok t', t'.reads = false → Unread i c ((c.transmit f ok).goto i t') := by
    intro f ok t' ht'
    refine ⟨t', ht', ?_, transmit_closed f ok c, ?_⟩
    · rw [goto, transmit_tasks]
    · rw [goto, transmit_recv]
  cases t with
  | segment hdr =>
    refine segment_rule ⟨_, rfl, rfl, rfl, rfl⟩ (fun wnd dup _ => ?_) (fun _ _ _ _ _ => ⟨_, rfl, rfl, rfl, rfl⟩)
      fun _ _ _ => ⟨_, rfl, rfl, rfl, rfl⟩
    exact segmentRest_unread hdr ch (c.looks wnd dup)
  | segmentTimer hdr left =>
    exact segmentTimer_rule (fun tm _ _ => segmentRest_unread hdr ch { c with timer := tm })
      fun _ _ => ⟨_, rfl, rfl, rfl, rfl⟩
  | segmentResume hdr => exact segmentRest_unread hdr ch c
  | actions as =>
    cases as with
    | nil => exact ⟨_, rfl, rfl, rfl, rfl⟩
    | cons a as =>
      cases a with
      | enqueue data => exact absurd rfl ((hact _ as rfl).2 data)
      | close => exact absurd rfl (hact _ as rfl).1
      | transmit f => exact htransmit f ch.ok _ rfl
      | _ => exact ⟨_, rfl, rfl, rfl, rfl⟩
  | segmentSend hdr f => exact htransmit f ch.ok _ rfl
  | timeoutSend f => exact htransmit f ch.ok _ rfl
  | writeTransmit b written f =>
    rw [runTask, writeTransmit]
    split
    · exact htransmit f true _ rfl
    · exact ⟨_, rfl, rfl, rfl, rfl⟩
  | read _ | readTake _ | readStore _ _ | writeTo _ | writeToTake _ => cases ht
  | done => exact hstays
  | _ =>
    simp only [runTask, timeout, backoff, closeWrite, writeSection, writeAppend, writeReturns]
    repeat' split
    all_goals first | exact hstays | exact ⟨_, rfl, rfl, rfl, rfl⟩

section Kept

variable (h : InOrder acc c)

include h

theorem InOrder.moves {acc' : Bytes} {u : Task} (hi : c.tasks[i]? = some t) (ht : t.reads = false)
    (hu : u.reads = false)
    (htasks : c'.tasks = c.tasks.set i u) (hrest : c.recv.readPending = none → c'.recv.readPending = none)
    (hheld : c'.recv.content (c.readers.flatMap Task.hands) <+: acc')
    (hwhole : c'.closed = false → c'.recv.content (c.readers.flatMap Task.hands) = acc') : InOrder acc' c' := by
  have hreaders := readers_same hi ht hu htasks
  rw [← hreaders] at hheld hwhole
  exact ⟨fun v hv htakes => hrest (h.rest v (hreaders ▸ hv) htakes), hheld, hwhole⟩

theorem InOrder.unread (hi : c.tasks[i]? = some t) (ht : t.reads = false) (ha : Unread i c c') : InOrder acc c' := by
  obtain ⟨t', ht', htasks, hclosed, hsame⟩ := ha
  simp only [Prod.mk.injEq] at hsame
  obtain ⟨hreturned, hpending, hbuf⟩ := hsame
  have hcontent : c'.recv.content (c.readers.flatMap Task.hands) = c.content := by
    simp only [content, RecvSide.content, hreturned, hpending, hbuf]
  exact h.moves hi ht ht' htasks hpending.trans (hcontent ▸ h.held) (hclosed ▸ hcontent ▸ h.whole)

theorem InOrder.enqueue {data : Option Piece} {as : List Action}
    (hi : c.tasks[i]? = some (.actions (.enqueue data :: as)))
    (hmu : c.mu = none) (ch : Choice) : InOrder (acc ++ c.enqueued (.run i ch)) (c.act i (.enqueue data) as ch) := by
  have hnothing : c.enqueued (.run i ch) = [] → InOrder (acc ++ c.enqueued (.run i ch)) (c.goto i (.actions as)) := by
    intro hnone
    rw [hnone, append_nil]
    exact h.unread hi rfl ⟨_, rfl, rfl, rfl, rfl⟩
  rw [act]
  split
  · next hclosed => exact hnothing (by cases data <;> simp [enqueued, hi, hclosed])
  next hopen =>
  rw [Bool.not_eq_true] at hopen
  unfold RecvSide.enqueue
  split
  · next hroom =>
    have hput : { c.recv with recvBuf := c.recv.recvBuf ++ [data] }.content (c.readers.flatMap Task.hands) =
        acc ++ c.enqueued (.run i ch) := by
      rw [← h.whole hopen, content]
      cases data <;> simp [enqueued, hi, hopen, hmu, hroom, RecvSide.content, reduceOption_append]
    exact h.moves (u := .actions as) hi rfl rfl rfl id (hput ▸ prefix_refl _) fun _ => hput
  · next hfull => exact hnothing (by cases data <;> simp [enqueued, hi, hfull])

/-- A close that drops no rest before payloads of the channel. -/
theorem InOrder.close {as : List Action} (hi : c.tasks[i]? = some (.actions (.close :: as)))
    (hdrop : c.closed = false → c.recv.readPending ≠ none → c.recv.recvBuf.reduceOption = []) :
    InOrder acc (c.closeSection i as) := by
  unfold closeSection
  split
  · exact h.unread hi rfl ⟨_, rfl, rfl, rfl, rfl⟩
  next hopen =>
  refine h.moves hi rfl rfl rfl (fun _ => rfl) (List.IsPrefix.trans ?_ h.held) nofun
  rw [content]
  cases hpending : c.recv.readPending with
  | none => simp [RecvSide.content, goto, hpending]
  | some p =>
    have hbuf := hdrop (by simpa using hopen) (by simp [hpending])
    simp [RecvSide.content, goto, hpending, hbuf]

/-! ## Steps that read -/

omit h in
theorem take_append_drop_append (n : Nat) (data bs : Bytes) : data.take n ++ (data.drop n ++ bs) = data ++ bs := by
  rw [← append_assoc, take_append_drop]

variable {ch : Choice}

section Readers

variable (hsole : c.readers.length ≤ 1)

include hsole

/-- The reading call moves on, and hands out what comes next; after a close it may drop what comes last. -/
theorem InOrder.reads (hi : c.tasks[i]? = some t) (ht : t.reads = true) (r : RecvSide) (t' : Task)
    (ht' : t' = .done ∨ t'.reads = true) (hrest : t'.takes = true → r.readPending = none)
    (hheld : r.content t'.hands = c.recv.content t.hands ∨ c.closed = true ∧
      r.content t'.hands <+: c.recv.content t.hands) :
    InOrder acc ({ c with recv := r }.goto i t') := by
  obtain ⟨hone, hset⟩ := readers_sole hi ht hsole
  have hold : c.content = c.recv.content t.hands := by simp [content, hone]
  have hreaders : ({ c with recv := r }.goto i t').readers = [t'].filter Task.reads := hset rfl
  have hnew : ({ c with recv := r }.goto i t').content = r.content t'.hands := by
    rw [content, hreaders]
    rcases ht' with rfl | ht'
    · rfl
    · simp [ht', goto]
  rw [← hold, ← hnew] at hheld
  refine ⟨fun u hu => ?_, ?_, fun hopen => ?_⟩
  · rw [hreaders] at hu
    rw [mem_singleton.1 (mem_filter.1 hu).1]
    exact hrest
  · rcases hheld with heq | ⟨-, hsub⟩
    · exact heq ▸ h.held
    · exact hsub.trans h.held
  · rcases hheld with heq | ⟨hclosed, -⟩
    · exact heq.trans (h.whole hopen)
    · exact absurd (hopen.symm.trans hclosed) (by simp)

theorem InOrder.rest_taken (hi : c.tasks[i]? = some t) (ht : t.reads = true) (htakes : t.takes = true) :
    c.recv.readPending = none :=
  h.rest t (by simp [(readers_sole hi ht hsole).1]) htakes

theorem InOrder.read (hi : c.tasks[i]? = some (.read n)) (ch : Choice) : InOrder acc (c.read i n ch) := by
  unfold TcpConn.read
  split
  · next p hpending =>
    refine h.reads hsole hi rfl _ .done (.inl rfl) nofun (.inl ?_)
    dsimp only
    split
    · next hall => simp [RecvSide.content, Task.hands, hpending, take_of_length_le hall]
    · simp [RecvSide.content, Task.hands, hpending, take_append_drop_append]
  · next hnone =>
    split
    · exact h.reads hsole hi rfl c.recv .done (.inl rfl) nofun (.inl rfl)
    · exact h.reads hsole hi rfl c.recv (.readTake n) (.inr rfl) (fun _ => hnone) (.inl rfl)

theorem InOrder.readTake (hi : c.tasks[i]? = some (.readTake n)) (ch : Choice) : InOrder acc (c.readTake i n ch) := by
  have hrest : c.recv.readPending = none := h.rest_taken hsole hi rfl rfl
  unfold TcpConn.readTake
  split
  · split
    · exact h.reads hsole hi rfl c.recv .done (.inl rfl) nofun (.inl rfl)
    · exact h
  · next rest hbuf =>
    exact h.reads hsole hi rfl _ .done (.inl rfl) nofun (.inl (by simp [RecvSide.content, Task.hands, hbuf]))
  · next p rest hbuf =>
    split
    · exact h.reads hsole hi rfl _ .done (.inl rfl) nofun (.inl (by simp [RecvSide.content, Task.hands, hbuf, hrest]))
    · refine h.reads hsole hi rfl _ (.readStore _ _) (.inr rfl) (fun _ => hrest) (.inl ?_)
      simp [RecvSide.content, Task.hands, hbuf, hrest, take_append_drop_append]

theorem InOrder.readStore {head rest : Piece} (hi : c.tasks[i]? = some (.readStore head rest))
    (hdrop : c.closed = true → c.recv.recvBuf.reduceOption = []) : InOrder acc (c.readStore i head rest) := by
  have hrest : c.recv.readPending = none := h.rest_taken hsole hi rfl rfl
  refine h.reads hsole hi rfl _ .done (.inl rfl) nofun ?_
  cases hclosed : c.closed with
  | false => exact .inl (by simp [RecvSide.content, Task.hands, hrest])
  | true => exact .inr ⟨rfl, by simp [RecvSide.content, Task.hands, hrest, hdrop hclosed]⟩

theorem InOrder.writeTo {batch : List Piece} (hi : c.tasks[i]? = some (.writeTo batch))
    (hok : batch ≠ [] → ch.ok = true) :
    InOrder acc (c.writeTo i batch ch) := by
  unfold TcpConn.writeTo
  split
  · split
    · exact h.reads hsole hi rfl _ (.writeTo []) (.inr rfl) nofun (.inl (by simp [RecvSide.content, Task.hands]))
    · next hfails =>
      have hnil : batch = [] := Decidable.byContradiction fun hne => hfails (hok hne)
      exact h.reads hsole hi rfl c.recv .done (.inl rfl) nofun (.inl (by rw [hnil]; rfl))
  · split
    · next p hpending =>
      exact h.reads hsole hi rfl _ (.writeTo _) (.inr rfl) nofun
        (.inl (by simp [RecvSide.content, Task.hands, hpending]))
    · next hnone => exact h.reads hsole hi rfl c.recv (.writeToTake batch) (.inr rfl) (fun _ => hnone) (.inl rfl)

theorem InOrder.writeToTake {batch : List Piece} (hi : c.tasks[i]? = some (.writeToTake batch))
    (hok : batch ≠ [] → ch.ok = true) : InOrder acc (c.writeToTake i batch ch) := by
  have hrest : c.recv.readPending = none := h.rest_taken hsole hi rfl rfl
  unfold TcpConn.writeToTake
  split
  · split
    · exact h.reads hsole hi rfl c.recv (.writeTo batch) (.inr rfl) nofun (.inl rfl)
    next hnil =>
    rw [not_not] at hnil
    split
    · exact h.reads hsole hi rfl c.recv .done (.inl rfl) nofun (.inl (by rw [hnil]; rfl))
    · exact h
  · next rest hbuf =>
    refine h.reads hsole hi rfl _ .done (.inl rfl) nofun (.inl ?_)
    by_cases hnil : batch = []
    · simp [RecvSide.content, Task.hands, hbuf, hnil]
    · simp [RecvSide.content, Task.hands, hbuf, hok hnil]
  · next p rest hbuf =>
    exact h.reads hsole hi rfl _ (.writeTo _) (.inr rfl) nofun
      (.inl (by simp [RecvSide.content, Task.hands, hbuf, hrest]))

end Readers

/-! ## Runs -/

theorem InOrder.start (ht : t.takes = false ∧ (t.reads = true → t.hands = [])) (htasks : c'.tasks = c.tasks ++ [t])
    (hrecv : c'.recv = c.recv) (hclosed : c'.closed = c.closed) : InOrder acc c' := by
  have hreaders : c'.readers = c.readers ++ [t].filter Task.reads := by rw [readers, htasks, filter_append, readers]
  have hcontent : c'.content = c.content := by
    rw [content, hreaders, hrecv, content, flatMap_append]
    cases hreads : t.reads <;> simp [hreads, ht.2]
  refine ⟨fun u hu htakes => ?_, hcontent ▸ h.held, hclosed ▸ hcontent ▸ h.whole⟩
  rw [hrecv]
  rw [hreaders] at hu
  rcases mem_append.1 hu with hu | hu
  · exact h.rest u hu htakes
  · rw [mem_singleton.1 (mem_filter.1 hu).1, ht.1] at htakes
    cases htakes

omit h in
theorem enqueued_nothing (hi : c.tasks[i]? = some t)
    (ht : ∀ p as, t = .actions (.enqueue (some p) :: as) → c.mu ≠ none) :
    c.enqueued (.run i ch) = [] := by
  rw [enqueued, hi]
  split
  · next p as heq => simp [ht p as (Option.some.inj heq)]
  · rfl

theorem InOrder.runTask (hi : c.tasks[i]? = some t) (hmu : (needsMu t && c.mu.isSome) = false)
    (hg : Gapless c (.run i ch)) :
    InOrder (acc ++ c.enqueued (.run i ch)) (c.runTask i t ch) := by
  rw [Gapless, hi] at hg
  obtain ⟨hsole, hg⟩ := hg
  by_cases henqueue : ∃ data as, t = .actions (.enqueue data :: as)
  · obtain ⟨data, as, rfl⟩ := henqueue
    exact h.enqueue hi (by simpa [needsMu] using hmu) ch
  rw [enqueued_nothing hi fun p as ht => absurd ⟨_, as, ht⟩ henqueue, append_nil]
  cases t with
  | read n => exact h.read hsole hi ch
  | readTake n => exact h.readTake hsole hi ch
  | readStore head rest => exact h.readStore hsole hi hg
  | writeTo batch => exact h.writeTo hsole hi hg
  | writeToTake batch => exact h.writeToTake hsole hi hg
  | actions as =>
    by_cases hclose : ∃ bs, as = .close :: bs
    · obtain ⟨bs, rfl⟩ := hclose
      exact h.close hi hg
    · refine h.unread hi rfl (runTask_unread rfl hi ch fun a bs hab => ?_)
      rw [Task.actions.injEq] at hab
      exact ⟨fun ha => hclose ⟨bs, ha ▸ hab⟩, fun data ha => henqueue ⟨data, bs, by rw [hab, ha]⟩⟩
  | _ => exact h.unread hi rfl (runTask_unread rfl hi ch nofun)

theorem InOrder.step {e : TcpEvent} (hg : Gapless c e) : InOrder (acc ++ c.enqueued e) (c.step e) := by
  cases e with
  | call k =>
    rw [show c.enqueued (.call k) = [] from rfl, append_nil]
    exact h.start (t := k.task) (by cases k <;> exact ⟨rfl, fun _ => rfl⟩) rfl rfl rfl
  | fire id =>
    rw [show c.enqueued (.fire id) = [] from rfl, append_nil, TcpConn.step]
    split
    · exact h.start (t := .timeout) ⟨rfl, by rintro ⟨⟩⟩ rfl rfl rfl
    · exact h
  | run i ch =>
    rw [TcpConn.step]
    split
    · next hi => simpa [enqueued, hi] using h
    next t hi =>
    split
    · next hheld =>
      have hmu : c.mu ≠ none := fun hmu => by simp [hmu] at hheld
      rwa [enqueued_nothing hi fun _ _ _ => hmu, append_nil]
    · next hfree => exact h.runTask hi (by simpa using hfree) hg

theorem InOrder.run {es : List TcpEvent} (hes : RunAll Gapless c es) : InOrder (acc ++ c.accepted es) (c.run es) := by
  induction es generalizing c acc with
  | nil => simpa [accepted, TcpConn.run] using h
  | cons e es ih =>
    rw [accepted, ← append_assoc]
    exact ih (h.step hes.1) hes.2

end Kept

/-- What the application was given is a prefix of what `enqueueData` accepted. -/
theorem returned_in_order (iss irs : UInt32) (peerWnd : UInt16) (wndScaleOK : Bool) (peerWndScale : UInt8)
    (es : List TcpEvent) (hes : RunAll Gapless (established iss irs peerWnd wndScaleOK peerWndScale) es) :
    ((established iss irs peerWnd wndScaleOK peerWndScale).run es).recv.returned.flatMap Piece.data <+:
      (established iss irs peerWnd wndScaleOK peerWndScale).accepted es := by
  have hstart : InOrder [] (established iss irs peerWnd wndScaleOK peerWndScale) :=
    ⟨fun _ ht => (not_mem_nil ht).elim, prefix_refl _, fun _ => rfl⟩
  refine List.IsPrefix.trans ?_ (hstart.run hes).held
  simp [content, RecvSide.content]

/-- Two payloads have arrived, and a `Read` into a buffer of one byte has kept the rest of the first. -/
def partRun : List TcpEvent :=
  [.call (.segment { payload := [1, 2] }), .run 0 {}, .run 0 {}, .run 0 {}, .run 0 {}, .run 0 {},
    .call (.segment { seq := 2, payload := [3] }), .run 1 {}, .run 1 {}, .run 1 {}, .run 1 {}, .run 1 {},
    .call (.read 1), .run 2 {}, .run 2 {}, .run 2 {}]

/-- The rest is read before the connection is closed, the second payload after it. -/
def drainRun : List TcpEvent :=
  partRun ++ [.call (.read 8), .run 3 {}, .call .close, .run 4 {}, .call (.read 8), .run 5 {}, .run 5 {}]

/-- The connection is closed before the rest is read. -/
def skipRun : List TcpEvent := partRun ++ [.call .close, .run 3 {}, .call (.read 8), .run 4 {}, .run 4 {}]

theorem returned_in_order_drainRun : RunAll Gapless (established 0 0 10 false 0) drainRun ∧
    ((established 0 0 10 false 0).run drainRun).recv.returned.flatMap Piece.data <+:
      (established 0 0 10 false 0).accepted drainRun ∧ (established 0 0 10 false 0).accepted drainRun = [1, 2, 3] := by
  have hrun : RunAll Gapless (established 0 0 10 false 0) drainRun := by decide +kernel
  exact ⟨hrun, returned_in_order 0 0 10 false 0 drainRun hrun, by decide +kernel⟩

theorem rest_skipped : ((established 0 0 10 false 0).run skipRun).recv.returned.flatMap Piece.data = [1, 3] ∧
    (established 0 0 10 false 0).accepted skipRun = [1, 2, 3] := by
  decide +kernel

end TcpConn

end CrumbleCracker.Netstack
