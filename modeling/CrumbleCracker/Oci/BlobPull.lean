import CrumbleCracker.Lib.Turns
import CrumbleCracker.Oci.Layers

/-!
# The layers of an image downloaded ahead

`startLayerBlobPull` starts a goroutine that hands the layers to a few workers. Whoever waits for a layer waits for the
channel of its digest, which `complete` closes. A run is what the goroutine, the workers and those who cancel do, in any
order.

* `pull_sound` : each channel is closed once, and no layer is reported as cached that is not, in a run in which the pull
  is not cancelled by its own `cancel` while there are layers left to hand out and nothing has failed.
* `cancel_reported_cached` : after such a call layers that nobody tried to cache are reported as cached.
-/

namespace CrumbleCracker.Oci

open List

inductive PullError
  | invalidSize (digest : Text) (size : Int)
  | notPlanned (digest : Text)
  | cacheLayer (digest : Text)
  | context
deriving DecidableEq

/-- Where the goroutine of `startLayerBlobPull` is; behind `waiting` the channel of the layers is closed. -/
inductive Loop
  | sending (rest : List Text)
  | waiting
  | completing (failure : Option PullError) (rest : List Text)
  | done
deriving DecidableEq

inductive Worker
  | idle
  | caching (digest : Text)
  | exited
deriving DecidableEq

/-- `layerBlobPull` with its goroutines. `closed` has the channels in the order they were closed, and `cached` the
layers for which `cacheLayerBlob` has returned nil. -/
structure LayerBlobPull where
  plan : List Text
  results : Text → Option (Option PullError) := fun _ => none
  closed : List Text := []
  err : Option PullError := none
  cancelled : Bool := false
  ctxDone : Bool := false
  loop : Loop
  workers : List Worker
  cached : List Text := []

namespace LayerBlobPull

def complete (p : LayerBlobPull) (digest : Text) (err : Option PullError) : LayerBlobPull :=
  if p.results digest ≠ none then p
  else { p with
    results := fun d => if d = digest then some err else p.results d
    closed := digest :: p.closed
    err := p.err.or err
    cancelled := p.cancelled || (err.isSome && p.err.isNone) }

/-- What `waitLayer` may return now; `ctxDone` is about the context of whoever waits. -/
def waitLayer (p : LayerBlobPull) (ctxDone : Bool) (digest : Text) : List (Option PullError) :=
  if digest ∉ p.plan then [some (.notPlanned digest)]
  else (if digest ∈ p.closed then [(p.results digest).getD none] else []) ++ if ctxDone then [some .context] else []

def wait (p : LayerBlobPull) (ctxDone : Bool) : List (Option PullError) :=
  (if p.loop = .done then [p.err] else []) ++ if ctxDone then [some .context] else []

inductive Event
  | send (worker : Nat)
  /-- All layers are sent, or the context of the pull is done. -/
  | closeJobs
  /-- `cacheLayerBlob` returns, and the result is recorded. -/
  | cached (worker : Nat) (ok : Bool)
  | exit (worker : Nat)
  | collect
  | completeNext
  | cancelCaller
  | cancelPull

/-- The failure when the workers are done. -/
def failure (p : LayerBlobPull) : Option PullError := p.err.or (if p.ctxDone then some .context else none)

def step (p : LayerBlobPull) : Event → LayerBlobPull
  | .send i => match p.loop, p.workers[i]? with
    | .sending (d :: rest), some .idle => { p with loop := .sending rest, workers := p.workers.set i (.caching d) }
    | _, _ => p
  | .closeJobs => match p.loop with
    | .sending rest => if rest = [] ∨ p.cancelled then { p with loop := .waiting } else p
    | _ => p
  | .cached i ok => match p.workers[i]? with
    | some (.caching d) =>
      { p.complete d (if ok then none else some (.cacheLayer d)) with
        workers := p.workers.set i (if ok then .idle else .exited)
        cached := if ok then d :: p.cached else p.cached }
    | _ => p
  | .exit i => match p.loop, p.workers[i]? with
    | .waiting, some .idle => { p with workers := p.workers.set i .exited }
    | _, _ => p
  | .collect =>
    if p.loop = .waiting ∧ ∀ w ∈ p.workers, w = .exited then
      { p with err := p.failure, loop := .completing p.failure p.plan }
    else p
  | .completeNext => match p.loop with
    | .completing failure (d :: rest) => { p.complete d failure with loop := .completing failure rest }
    | .completing _ [] => { p with loop := .done }
    | _ => p
  | .cancelCaller => { p with ctxDone := true, cancelled := true }
  | .cancelPull => { p with cancelled := true }

end LayerBlobPull

def defaultOCIBlobDownloadWorkers : Nat := 4

def startLayerBlobPull (layers : List Descriptor) : Except PullError LayerBlobPull :=
  match layers.find? (·.size ≤ 0) with
  | some layer => .error (.invalidSize layer.digest layer.size)
  | none =>
    let unique := (layers.map (·.digest)).reverse.dedup.reverse
    .ok { plan := unique, loop := if unique = [] then .done else .sending unique,
          workers := List.replicate (min defaultOCIBlobDownloadWorkers unique.length) .idle }

namespace LayerBlobPull

variable {p : LayerBlobPull} {d : Text} {err : Option PullError}

/-! ## Results -/

/-- What is recorded is right. -/
structure Recorded (p : LayerBlobPull) : Prop where
  once : p.closed.Nodup
  closed : ∀ d, d ∈ p.closed ↔ p.results d ≠ none
  good : ∀ d, p.results d = some none → d ∈ p.cached
  failed : ∀ d e, p.results d = some (some e) → p.err ≠ none

theorem Recorded.complete (h : Recorded p) {cached : List Text} (hcached : p.cached ⊆ cached)
    (hnil : err = none → d ∈ cached ∨ p.results d ≠ none) : Recorded { p.complete d err with cached } := by
  have := h.closed
  have := h.good
  have := h.failed
  unfold LayerBlobPull.complete
  split_ifs with hd
  · exact { h with good := fun d hd => hcached (h.good d hd) }
  · exact ⟨nodup_cons.2 ⟨by grind, h.once⟩, by grind, by grind, by grind [Option.or]⟩

/-! ## The goroutine -/

def Excused (p : LayerBlobPull) : Prop := p.err ≠ none ∨ p.ctxDone

def Accounted (p : LayerBlobPull) (d : Text) : Prop := p.results d ≠ none ∨ ∃ i : Nat, p.workers[i]? = some (.caching d)

/-- While layers are sent, no two workers have the same one. -/
structure Sending (p : LayerBlobPull) (rest : List Text) : Prop where
  accounted : ∀ d ∈ p.plan, d ∈ rest ∨ p.Accounted d
  cancelled : p.cancelled → p.Excused ∨ rest = []
  stops : p.err ≠ none → p.cancelled
  exited : ∀ i : Nat, p.workers[i]? = some .exited → p.err ≠ none
  nodup : rest.Nodup
  fresh : ∀ d ∈ rest, ¬p.Accounted d
  alone : ∀ (i : Nat) d, p.workers[i]? = some (.caching d) →
    p.results d = none ∧ ∀ j : Nat, p.workers[j]? = some (.caching d) → j = i

def Stage (p : LayerBlobPull) : Loop → Prop
  | .sending rest => p.Sending rest
  | .waiting => p.Excused ∨ ∀ d ∈ p.plan, p.Accounted d
  | .completing failure rest => (∀ d ∈ p.plan, d ∈ rest ∨ p.results d ≠ none) ∧
      (failure = none → ∀ d ∈ rest, p.results d ≠ none)
  | .done => ∀ d ∈ p.plan, p.results d ≠ none

/-- The invariant of the runs. -/
structure Valid (p : LayerBlobPull) : Prop extends Recorded p where
  workers : p.plan ≠ [] → p.workers ≠ []
  stage : p.Stage p.loop

/-- The pull's own `cancel` is not called while there are layers left to send, unless something has failed. -/
def Timely (p : LayerBlobPull) : Event → Prop
  | .cancelPull => p.Excused ∨ ∀ d rest, p.loop ≠ .sending (d :: rest)
  | _ => True

theorem getElem?_set_of_some {α : Type} {l : List α} {i : Nat} {a : α} (h : l[i]? = some a) (b : α) (j : Nat) :
    (l.set i b)[j]? = if i = j then some b else l[j]? := by
  rw [getElem?_set, if_pos (List.getElem?_eq_some_iff.1 h).1]

section Steps

variable {i : Nat} {w : Worker} {l : Loop} {rest : List Text}

theorem Sending.send (h : p.Sending (d :: rest)) (hi : p.workers[i]? = some .idle) :
    { p with loop := .sending rest, workers := p.workers.set i (.caching d) }.Sending rest := by
  obtain ⟨ha, hc, hs, he, hn, hf, hw⟩ := h
  simp only [Accounted, Excused] at *
  refine ⟨?_, ?_, hs, ?_, hn.of_cons, ?_, ?_⟩ <;> simp only [Accounted, Excused, getElem?_set_of_some hi] <;> grind

theorem Sending.returns (h : p.Sending rest) (hi : p.workers[i]? = some (.caching d))
    (hw : w = .idle ∨ w = .exited ∧ err ≠ none) (cached : List Text) :
    { p.complete d err with cached, workers := p.workers.set i w }.Sending rest := by
  have hd := (h.alone i d hi).1
  obtain ⟨ha, hc, hs, he, hn, hf, hal⟩ := h
  simp only [complete, hd, ne_eq, not_true_eq_false, if_false, Accounted, Excused] at *
  refine ⟨?_, ?_, ?_, ?_, hn, ?_, ?_⟩ <;> simp only [Accounted, Excused, getElem?_set_of_some hi]
  all_goals cases herr : p.err <;> cases err <;> simp only [herr] at * <;> grind

theorem Stage.returns (h : p.Stage l) (hi : p.workers[i]? = some (.caching d))
    (hw : w = .idle ∨ w = .exited ∧ err ≠ none)
    (cached : List Text) : { p.complete d err with cached, workers := p.workers.set i w }.Stage l := by
  cases l with
  | sending rest => exact Sending.returns h hi hw cached
  | waiting =>
    simp only [Stage, Accounted, Excused, complete, getElem?_set_of_some hi] at *
    grind
  | _ => simp only [Stage, complete] at *; grind

theorem Stage.cancel {ctxDone : Bool} (h : p.Stage l) (hctx : p.ctxDone → ctxDone)
    (hl : (p.err ≠ none ∨ ctxDone) ∨ ∀ d rest, l ≠ .sending (d :: rest)) :
    { p with ctxDone, cancelled := true }.Stage l := by
  cases l with
  | sending rest =>
    have : rest = [] ∨ ∃ d rest', rest = d :: rest' := by cases rest <;> simp
    exact { h with cancelled := fun _ => by grind [Excused], stops := fun _ => rfl }
  | waiting => exact h.imp_left (.imp_right hctx)
  | _ => exact h

theorem Stage.closeJobs (h : p.Stage (.sending rest)) (hc : rest = [] ∨ p.cancelled) : p.Stage .waiting := by
  have := h.accounted
  have := h.cancelled
  simp only [Stage]
  grind

theorem Stage.exit (h : p.Stage .waiting) (hi : p.workers[i]? = some .idle) :
    { p with workers := p.workers.set i .exited }.Stage .waiting := by
  simp only [Stage, Excused, Accounted, getElem?_set_of_some hi] at *
  grind

theorem Stage.collect (h : p.Stage .waiting) (hw : ∀ w ∈ p.workers, w = .exited) :
    p.Stage (.completing p.failure p.plan) := by
  refine ⟨fun d hd => .inl hd, fun hnil d hd => ?_⟩
  obtain he | ha := h
  · grind [Excused, failure]
  · obtain hr | ⟨i, hi⟩ := ha d hd
    · exact hr
    · cases hw _ (mem_of_getElem? hi)

theorem Stage.completeNext (h : p.Stage (.completing err (d :: rest))) :
    (p.complete d err).Stage (.completing err rest) := by
  simp only [Stage, complete] at *
  grind

end Steps

theorem complete_frame : (p.complete d err).loop = p.loop ∧ (p.complete d err).plan = p.plan ∧
    (p.complete d err).workers = p.workers ∧ (p.complete d err).cached = p.cached := by
  unfold complete
  split <;> exact ⟨rfl, rfl, rfl, rfl⟩

theorem Valid.step (h : Valid p) {e : Event} (he : p.Timely e) : Valid (p.step e) := by
  have hs := h.stage
  cases e <;> simp only [LayerBlobPull.step]
  case send i =>
    split
    next d rest hl hi =>
      rw [hl] at hs
      exact { h with workers := by simpa using h.workers, stage := Sending.send hs hi }
    next => exact h
  case closeJobs =>
    split
    next rest hl =>
      split_ifs with hc
      · have hw : p.Stage .waiting := Stage.closeJobs (hl ▸ hs) hc
        exact { h with stage := hw }
      · exact h
    next => exact h
  case cached i ok =>
    split
    next d hi =>
      have hw : (if ok then Worker.idle else .exited) = .idle ∨ (if ok then Worker.idle else .exited) = .exited ∧
          (if ok then none else some (PullError.cacheLayer d)) ≠ none := by cases ok <;> simp
      have hr := hs.returns hi hw (if ok then d :: p.cached else p.cached)
      have hc : p.cached ⊆ if ok then d :: p.cached else p.cached := by cases ok <;> simp
      exact { h.complete hc (by cases ok <;> simp) with
        workers := by simpa [complete_frame] using h.workers
        stage := by rwa [← complete_frame.1] at hr }
    next => exact h
  case exit i =>
    split
    next hl hi =>
      exact { h with workers := by simpa using h.workers, stage := hl ▸ Stage.exit (hl ▸ hs) hi }
    next => exact h
  case collect =>
    split_ifs with hc
    · exact { h with
        failed := fun d e hd hn => h.failed d e hd (Option.or_eq_none_iff.1 hn).1
        stage := Stage.collect (hc.1 ▸ hs) hc.2 }
    · exact h
  case completeNext =>
    split
    next failure d rest hl =>
      rw [hl] at hs
      exact { h.complete (complete_frame.2.2.2 ▸ Subset.refl _) fun hf => .inr (hs.2 hf d (.head _)) with
        workers := by simpa [complete_frame] using h.workers, stage := Stage.completeNext hs }
    next failure hl =>
      rw [hl] at hs
      exact { h with stage := fun d hd => (hs.1 d hd).resolve_left (by simp) }
    next => exact h
  case cancelCaller => exact { h with stage := hs.cancel (fun _ => rfl) (.inl (.inr rfl)) }
  case cancelPull => exact { h with stage := hs.cancel id he }

/-! ## Runs -/

def Event.cancels (e : Event) : Bool := e matches .cancelCaller | .cancelPull

/-- None of the goroutines can do anything. -/
def Halted (p : LayerBlobPull) : Prop := ∀ e : Event, e.cancels = false → p.step e = p

def toDo : Worker → Nat
  | .idle => 1
  | .caching _ => 2
  | .exited => 0

/-- What the goroutines have left to do. -/
def left (p : LayerBlobPull) : Nat :=
  (p.workers.map toDo).sum + match p.loop with
    | .sending rest => 2 * rest.length + p.plan.length + 3
    | .waiting => p.plan.length + 2
    | .completing _ rest => rest.length + 1
    | .done => 0

theorem sum_left_set {ws : List Worker} {i : Nat} {w : Worker} (h : ws[i]? = some w) (w' : Worker) :
    ((ws.set i w').map toDo).sum + toDo w = (ws.map toDo).sum + toDo w' := by
  induction ws generalizing i with
  | nil => cases h
  | cons v ws ih => cases i <;> grind

theorem left_step {e : Event} (he : e.cancels = false) : p.step e = p ∨ (p.step e).left < p.left := by
  cases e with
  | cancelCaller | cancelPull => cases he
  | send i | cached i ok | exit i =>
    simp only [step]
    split
    next hi =>
      have hsum := sum_left_set hi
      simp only [left, complete_frame]
      grind [toDo]
    next => exact .inl rfl
  | _ =>
    simp only [step]
    repeat' split
    all_goals simp only [left, complete_frame]; grind

theorem Halted.worker (h : Halted p) {i : Nat} {w : Worker} (hi : p.workers[i]? = some w) :
    w = .exited ∨ w = .idle := by
  cases w with
  | caching d =>
    have hc := congrArg (·.workers[i]?) (h (.cached i true) rfl)
    simp [step, hi, getElem?_set_of_some hi] at hc
  | _ => simp

theorem Halted.done (h : Halted p) (hv : Valid p) (hp : p.plan ≠ []) : p.loop = .done := by
  have hs := hv.stage
  cases hl : p.loop with
  | sending rest =>
    have hclose := congrArg (·.loop) (h .closeJobs rfl)
    rw [hl] at hs
    cases rest with
    | nil => simp [step, hl] at hclose
    | cons d rest =>
      obtain ⟨w, ws, hws⟩ := exists_cons_of_ne_nil (hv.workers hp)
      have h0 : p.workers[0]? = some w := by simp [hws]
      obtain rfl | rfl := h.worker h0
      · simp [step, hl, hs.stops (hs.exited 0 h0)] at hclose
      · have hsend := congrArg (·.loop) (h (.send 0) rfl)
        simp [step, hl, h0] at hsend
  | waiting =>
    have hex : ∀ w ∈ p.workers, w = .exited := by
      intro w hmem
      obtain ⟨i, hi⟩ := mem_iff_getElem?.1 hmem
      obtain rfl | rfl := h.worker hi
      · rfl
      · have hexit := congrArg (·.workers[i]?) (h (.exit i) rfl)
        simp [step, hl, hi, getElem?_set_of_some hi] at hexit
    have hc := congrArg (·.loop) (h .collect rfl)
    rw [step, if_pos ⟨hl, hex⟩, hl] at hc
    cases hc
  | completing failure rest =>
    have hc := congrArg (·.loop) (h .completeNext rfl)
    cases rest <;> simp [step, hl] at hc
  | done => rfl

theorem plan_step (e : Event) : (p.step e).plan = p.plan := by
  cases e <;> simp only [step] <;> repeat' split
  all_goals simp [complete_frame]

end LayerBlobPull

open LayerBlobPull

variable {layers : List Descriptor} {p : LayerBlobPull}

theorem startLayerBlobPull_ok (h : startLayerBlobPull layers = .ok p) :
    Valid p ∧ ∀ layer ∈ layers, layer.digest ∈ p.plan := by
  unfold startLayerBlobPull at h
  split at h
  · cases h
  · cases h
    refine ⟨?_, fun layer hl => by simpa using ⟨layer, hl, rfl⟩⟩
    generalize hu : (layers.map (·.digest)).reverse.dedup.reverse = unique
    have hn : unique.Nodup := hu ▸ nodup_reverse.2 (nodup_dedup _)
    refine { once := by simp, closed := by simp, good := by simp, failed := by simp,
             workers := by simp [defaultOCIBlobDownloadWorkers], stage := ?_ }
    split_ifs with hnil
    · simp [Stage, hnil]
    · exact ⟨fun d hd => .inl hd, by simp, by simp, by simp [getElem?_replicate], hn,
        by simp [Accounted, getElem?_replicate], by simp [getElem?_replicate]⟩

/-- In every run in which the pull's own `cancel` does not come too early each channel is closed at most once, and
exactly once when the goroutines have come to their end, to which each of their steps brings them closer; `waitLayer`
returns nil for cached layers only, and `wait` when all of them are. -/
theorem pull_sound (h : startLayerBlobPull layers = .ok p) {es : List Event} (hes : Throughout step Timely p es) :
    let q := runFrom step p es
    q.closed.Nodup ∧ (∀ e : Event, e.cancels = false → q.step e = q ∨ (q.step e).left < q.left) ∧
    (Halted q → ∀ layer ∈ layers, q.closed.count layer.digest = 1) ∧
    (∀ ctxDone digest, none ∈ q.waitLayer ctxDone digest → digest ∈ q.cached) ∧
    ∀ ctxDone, none ∈ q.wait ctxDone → ∀ layer ∈ layers, layer.digest ∈ q.cached := by
  intro q
  obtain ⟨hv, hplan⟩ : Valid q ∧ ∀ layer ∈ layers, layer.digest ∈ q.plan :=
    hes.invariant (I := fun q => Valid q ∧ ∀ layer ∈ layers, layer.digest ∈ q.plan)
      (fun _ e h he => ⟨h.1.step he, by rw [plan_step]; exact h.2⟩) (startLayerBlobPull_ok h)
  have hdone (hl : q.loop = .done) (layer : Descriptor) (hm : layer ∈ layers) : q.results layer.digest ≠ none := by
    have hs := hv.stage
    rw [hl] at hs
    exact hs _ (hplan layer hm)
  refine ⟨hv.once, fun _ => left_step, fun hh layer hl => ?_, fun c d hd => ?_, fun c hw layer hl => ?_⟩
  · have hd := hh.done hv (ne_nil_of_mem (hplan layer hl))
    exact count_eq_one_of_mem hv.once ((hv.closed _).2 (hdone hd layer hl))
  · unfold waitLayer at hd
    have hc := hv.closed d
    have hg := hv.good d
    cases hr : q.results d <;> grind
  · unfold wait at hw
    have hg := hv.good layer.digest
    have hf := hv.failed layer.digest
    rcases hr : q.results layer.digest with _ | _ | e <;> grind

/-- Three layers of two digests and two workers, the second of which ends first; `cancel` comes between. -/
theorem pull_sound_cancelled :
    let layers : List Descriptor := [⟨[], ['a'], 1⟩, ⟨[], ['b'], 1⟩, ⟨[], ['a'], 1⟩]
    let p : LayerBlobPull :=
      { plan := [['a'], ['b']], loop := .sending [['a'], ['b']], workers := [.idle, .idle] }
    let es : List Event := [.send 0, .send 1, .cached 1 true, .cancelPull, .cached 0 true, .closeJobs, .exit 0,
      .exit 1, .collect, .completeNext, .completeNext, .completeNext]
    startLayerBlobPull layers = .ok p ∧ (runFrom step p es).wait false = [none] ∧
      ∀ layer ∈ layers, layer.digest ∈ (runFrom step p es).cached := by
  intro layers p es
  have h : startLayerBlobPull layers = .ok p := rfl
  have hes : Throughout step Timely p es :=
    ⟨trivial, trivial, trivial, .inr (by simp [step, p, complete_frame]), trivial, trivial, trivial, trivial, trivial,
      trivial, trivial, trivial, trivial⟩
  exact ⟨h, by decide, (pull_sound h hes).2.2.2.2 false (by decide)⟩

/-- `cancel` comes before the layer is sent: it is reported as cached, and so are all of them. -/
theorem cancel_reported_cached : ∃ p, startLayerBlobPull [⟨[], ['a'], 1⟩] = .ok p ∧
    let q := runFrom step p [.cancelPull, .closeJobs, .exit 0, .collect, .completeNext, .completeNext]
    q.waitLayer false ['a'] = [none] ∧ q.wait false = [none] ∧ q.cached = [] :=
  ⟨_, rfl, by decide⟩

end CrumbleCracker.Oci
