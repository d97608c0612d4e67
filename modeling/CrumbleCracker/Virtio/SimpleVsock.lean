import CrumbleCracker.Lib.Bytes

/-!
# `simpleVsockConn`

The two ends of an in-process connection. Each has a channel of chunks, the rest of a chunk that a `Read` did not take
whole, and a channel that `Close` closes. A `select` takes any of its ready alternatives; the events say which. Calls
take effect there and interleave freely, the `Read`s of one end one after another.

`Read` looks at the channels of the chunks and of the closing at once, so after a `Close` it may report the end of the
stream before the bytes that were written: exactly when it takes that alternative while such bytes wait
(`reads_exact_iff`).
-/

namespace CrumbleCracker.Virtio.SimpleVsock

open List Function

def readChCapacity : Nat := 64

structure SimpleVsockConn where
  readCh : List Bytes := []
  readBuf : Bytes := []
  closed : Bool := false
  /-- Ghost: what the peer's successful `Write`s have put into `readCh`. -/
  written : Bytes := []
  /-- Ghost: how many bytes that were when the peer was closed. -/
  owed : Nat := 0
  /-- Ghost: what `Read` has returned. -/
  returned : Bytes := []

/-- Two ends; the peer of `s` is `!s`. -/
abbrev Pair := Bool → SimpleVsockConn

/-- The alternatives of the `select`s of `Read` and `Write`. -/
inductive Alternative
  | channel
  | closed
  | peerClosed
  deriving DecidableEq

inductive Event
  | write (s : Bool) (b : Bytes) (alt : Alternative)
  /-- `Read` into a buffer of `n` bytes -/
  | read (s : Bool) (n : Nat) (alt : Alternative)
  | close (s : Bool)

/-- What a call returns; one whose alternative is not ready still waits. -/
inductive Reply
  | data (data : Bytes)
  | wrote (n : Nat)
  | eof
  | failed
  | blocked
  | closed
  deriving DecidableEq

def SimpleVsockConn.read (n : Nat) (alt : Alternative) (peerClosed : Bool) (c : SimpleVsockConn) :
    SimpleVsockConn × Reply :=
  if c.readBuf ≠ [] then
    ({ c with readBuf := c.readBuf.drop n, returned := c.returned ++ c.readBuf.take n }, .data (c.readBuf.take n))
  else
    match alt with
    | .channel =>
      match c.readCh with
      | [] => (c, .blocked)
      | data :: rest =>
        ({ c with readCh := rest, readBuf := data.drop n, returned := c.returned ++ data.take n }, .data (data.take n))
    | .closed => (c, if c.closed then .eof else .blocked)
    | .peerClosed => (c, if peerClosed then .eof else .blocked)

/-- `Write` at the peer of `c`. -/
def SimpleVsockConn.write (b : Bytes) (alt : Alternative) (writerClosed : Bool) (c : SimpleVsockConn) :
    SimpleVsockConn × Reply :=
  match alt with
  | .channel =>
    if c.readCh.length < readChCapacity then
      ({ c with readCh := c.readCh ++ [b], written := c.written ++ b }, .wrote b.length)
    else (c, .blocked)
  | .closed => (c, if writerClosed then .failed else .blocked)
  | .peerClosed => (c, if c.closed then .failed else .blocked)

def close (s : Bool) (p : Pair) : Pair :=
  if (p s).closed then p
  else fun t => if t = s then { p t with closed := true } else { p t with owed := (p t).written.length }

def step (p : Pair) : Event → Pair × Reply
  | .write s b alt =>
    let r := (p !s).write b alt (p s).closed
    (update p (!s) r.1, r.2)
  | .read s n alt =>
    let r := (p s).read n alt (p !s).closed
    (update p s r.1, r.2)
  | .close s => (close s p, .closed)

/-- `Q` holds of the pair and the event at each step of a run. -/
def RunAll (Q : Pair → Event → Prop) : Pair → List Event → Prop
  | _, [] => True
  | p, e :: es => Q p e ∧ RunAll Q (step p e).1 es

def newPair : Pair := fun _ => {}

/-! ## Prefixes -/

/-- What was written is what was returned and what still waits, and no more was owed. -/
def Sound (p : Pair) : Prop :=
  ∀ s, (p s).written = (p s).returned ++ (p s).readBuf ++ (p s).readCh.flatten ∧ (p s).owed ≤ (p s).written.length

theorem sound_newPair : Sound newPair := fun _ => ⟨rfl, le_rfl⟩

variable {p : Pair}

theorem Sound.update (h : Sound p) {s : Bool} {c : SimpleVsockConn}
    (hc : c.written = c.returned ++ c.readBuf ++ c.readCh.flatten ∧ c.owed ≤ c.written.length) :
    Sound (update p s c) := by
  intro t
  rw [update_apply]
  split
  · exact hc
  · exact h t

theorem Sound.step (h : Sound p) (e : Event) : Sound (step p e).1 := by
  cases e with
  | write s b alt =>
    refine h.update ?_
    obtain ⟨heq, hle⟩ := h !s
    unfold SimpleVsockConn.write
    split
    · split
      · refine ⟨?_, ?_⟩
        · simp [heq]
        · rw [length_append]
          exact hle.trans (Nat.le_add_right _ _)
      · exact ⟨heq, hle⟩
    · exact ⟨heq, hle⟩
    · exact ⟨heq, hle⟩
  | read s n alt =>
    refine h.update ?_
    obtain ⟨heq, hle⟩ := h s
    unfold SimpleVsockConn.read
    split
    · refine ⟨?_, hle⟩
      rw [heq]
      simp only [append_assoc]
      rw [← append_assoc (List.take n _), take_append_drop]
    · rename_i hbuf
      rw [not_not] at hbuf
      split
      · split
        · exact ⟨heq, hle⟩
        · rename_i data rest hch
          refine ⟨?_, hle⟩
          rw [heq, hbuf, hch]
          simp
      · exact ⟨heq, hle⟩
      · exact ⟨heq, hle⟩
  | close s =>
    show Sound (close s p)
    unfold close
    split
    · exact h
    · intro t
      dsimp only
      split
      · exact h t
      · exact ⟨(h t).1, le_rfl⟩

/-! ## The end of the stream -/

/-- The event is a `Read` that reports the end of the stream after the peer was closed. -/
def Ends (p : Pair) : Event → Option Bool
  | .read s n alt => if ((p s).read n alt (p !s).closed).2 = .eof ∧ (p !s).closed then some s else none
  | _ => none

/-- A `Read` that reports the end has returned what was written before the `Close`. -/
def Complete (p : Pair) (e : Event) : Prop := ∀ s ∈ Ends p e, (p s).owed ≤ (p s).returned.length

/-- A `Read` without the rest of a chunk takes a closed alternative, after the peer was closed, only when what waits in
its channel was written after the `Close`. -/
def Drained (p : Pair) : Event → Prop
  | .read s _ alt =>
    (p s).readBuf = [] → alt ≠ .channel → (alt = .closed → (p s).closed = true) → (p !s).closed = true →
    (p s).owed + (p s).readCh.flatten.length ≤ (p s).written.length
  | _ => True

theorem SimpleVsockConn.read_eof {n : Nat} {alt : Alternative} {c : SimpleVsockConn} : (c.read n alt true).2 = .eof ↔
    c.readBuf = [] ∧ alt ≠ .channel ∧ (alt = .closed → c.closed = true) := by
  unfold SimpleVsockConn.read
  by_cases hbuf : c.readBuf = []
  · cases alt with
    | channel => cases hch : c.readCh <;> simp [hbuf]
    | closed => cases hc : c.closed <;> simp [hbuf]
    | peerClosed => simp [hbuf]
  · simp [hbuf]

theorem complete_iff_drained (h : Sound p) (e : Event) : Complete p e ↔ Drained p e := by
  cases e with
  | write s b alt => simp [Complete, Drained, Ends]
  | close s => simp [Complete, Drained, Ends]
  | read s n alt =>
    cases hpeer : (p !s).closed with
    | false => simp [Complete, Drained, Ends, hpeer]
    | true =>
      have hwaits (hbuf : (p s).readBuf = []) :
          (p s).written.length = (p s).returned.length + (p s).readCh.flatten.length := by
        rw [(h s).1, hbuf, append_nil, length_append]
      have hends : Complete p (.read s n alt) ↔
          (((p s).read n alt true).2 = .eof → (p s).owed ≤ (p s).returned.length) := by
        simp [Complete, Ends, hpeer]
      rw [hends, SimpleVsockConn.read_eof]
      constructor
      · intro hc hbuf halt hclosed _
        have := hc ⟨hbuf, halt, hclosed⟩
        have := hwaits hbuf
        omega
      · rintro hd ⟨hbuf, halt, hclosed⟩
        have := hd hbuf halt hclosed hpeer
        have := hwaits hbuf
        omega

theorem runAll_complete_iff (h : Sound p) (es : List Event) : RunAll Complete p es ↔ RunAll Drained p es := by
  induction es generalizing p with
  | nil => rfl
  | cons e es ih => exact and_congr (complete_iff_drained h e) (ih (h.step e))

theorem runAll_sound (h : Sound p) (es : List Event) :
    RunAll (fun p _ => ∀ s, (p s).returned <+: (p s).written) p es := by
  induction es generalizing p with
  | nil => trivial
  | cons e es ih =>
    refine ⟨fun s => ?_, ih (h.step e)⟩
    rw [(h s).1, append_assoc]
    exact prefix_append _ _

theorem reads_exact_iff (es : List Event) : RunAll (fun p _ => ∀ s, (p s).returned <+: (p s).written) newPair es ∧
      (RunAll Complete newPair es ↔ RunAll Drained newPair es) :=
  ⟨runAll_sound sound_newPair es, runAll_complete_iff sound_newPair es⟩

/-- One end writes a byte and closes; the other takes the closed alternative first. -/
theorem eof_before_data :
    ¬RunAll Complete newPair [.write true [7] .channel, .close true, .read false 8 .peerClosed] := by
  rintro ⟨-, -, h, -⟩
  exact absurd (h false rfl) (by decide)

/-- After any run, enough `Read`s of any size that take the channel return everything the peer has written. -/
theorem reads_drain (es : List Event) (s : Bool) (n : Nat) :
    ∃ k, let p := (es ++ replicate k (Event.read s (n + 1) .channel)).foldl (fun p e => (step p e).1) newPair
      (p s).returned = (p s).written := by
  have hrun : Sound (es.foldl (fun p e => (step p e).1) newPair) :=
    foldlRecOn es _ sound_newPair fun _ h e _ => h.step e
  simp only [foldl_append]
  generalize es.foldl (fun p e => (step p e).1) newPair = p at hrun
  -- a `Read` takes some of the rest of a chunk, or the next chunk
  induction hm : (p s).readBuf.length + (p s).readCh.flatten.length + (p s).readCh.length using Nat.strong_induction_on
    generalizing p with
  | _ m ih =>
    by_cases hempty : (p s).readBuf = [] ∧ (p s).readCh = []
    · refine ⟨0, ?_⟩
      simp [(hrun s).1, hempty]
    · refine (ih _ ?_ _ (hrun.step (.read s (n + 1) .channel)) rfl).imp' (· + 1) fun k hk => hk
      simp only [step, update_self, SimpleVsockConn.read]
      cases hb : (p s).readBuf <;> cases hc : (p s).readCh <;> simp_all <;> omega

end CrumbleCracker.Virtio.SimpleVsock
