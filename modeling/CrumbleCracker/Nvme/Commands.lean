import CrumbleCracker.Nvme.Pages
import CrumbleCracker.Nvme.Terminates

/-!
# Every command is executed once and answered once

In every run in which the loops end (`Bounded`) and each command of an I/O queue can move its data, can be answered and,
where its data goes straight between the backend and guest memory, is not failed by the backend (`Answered`): the
commands of an I/O queue are executed in the order of their slots, once each, and each gets one completion with its
command id, with status 0 exactly when the backend did what it asks for (`commands_answered`). A command whose data
cannot be moved gets no completion: it stops the loop and is executed again at the next doorbell
(`failed_command_repeats`).
-/

namespace CrumbleCracker.Nvme

open Prog List Option

variable {M B : Type} {c : Controller M B} {f : NvmeQueue → NvmeQueue} {size tail : UInt16}

/-! ## One command -/

section Command

variable (E : NvmeEnv M B)

/-- The data moves straight between the backend and guest memory: it has slices, and the pages are one. -/
def straight (c : Controller M B) (cmd : NvmeCommand) (addrs : List UInt64) : Bool :=
  E.memory.slicer &&
    (consecutive (pageSize c) (cmd.prp1 + UInt64.ofNat (pageSize c - cmd.prp1.toNat % pageSize c)) addrs &&
    E.memory.sliceIPA c.mem cmd.prp1 cmd.count)

/-- The pages of the command are there; where its data moves straight between the backend and guest memory, the backend
does not fail. -/
def Transferable (c : Controller M B) (cmd : NvmeCommand) : Prop := ∀ backend ∈ E.backend,
  (cmd.opcode = ioRead → ∃ addrs, PrpMapped E true c cmd.prp1 cmd.prp2 cmd.count addrs ∧
    (straight E c cmd addrs = true → (backend.readAt c.dev cmd.offset cmd.count).2.2 ≠ .failed)) ∧
  (cmd.opcode = ioWrite → ∃ addrs, PrpMapped E false c cmd.prp1 cmd.prp2 cmd.count addrs ∧
    (straight E c cmd addrs = true →
      (backend.writeAt c.dev cmd.offset (E.memory.load c.mem cmd.prp1 cmd.count)).2.2 = false))

variable {backend : BlockBackend B} {cmd : NvmeCommand} {addrs : List UInt64}

theorem directPath_run {write : Bool} (h : PrpMapped E write c cmd.prp1 cmd.prp2 cmd.count addrs) :
    directPath E cmd c = (.ok (straight E c cmd addrs), c) := by
  refine (moves_directPath E cmd).run ?_
  unfold directPath straight
  cases hslicer : E.memory.slicer with
  | false => rfl
  | true =>
    have hrun := (moves_prpIsContiguous (R := Same) E cmd.prp1 cmd.prp2 cmd.count).run (prpIsContiguous_run E h.1 .refl)
    have hprp1 : cmd.prp1 ≠ 0 := (h.2 _ mem_cons_self).1
    simp only [Bool.not_true, Bool.false_eq_true, if_false, require, if_pos hprp1, bind_run, pure_run, hrun]
    split
    · rename_i hconsecutive
      rw [hconsecutive]
      rfl
    · rename_i hconsecutive
      rw [Bool.eq_false_of_not_eq_true hconsecutive]
      rfl

theorem length_padTo {b : Bytes} {n : Nat} (h : b.length ≤ n) : (padTo b n).length = n := by
  rw [padTo, length_append, length_replicate]
  omega

theorem writePRP_ok {prp1 prp2 : UInt64} {src : Bytes} (h : PrpMapped E true c prp1 prp2 src.length addrs) :
    (writePRP E prp1 prp2 src c).1 = .ok () := by
  have hok := transferPRP_ok E h
  rw [writePRP, bind_run]
  rcases hx : transferPRP E prp1 prp2 src true c with ⟨e | d, c'⟩
  · rw [hx] at hok
    cases hok
  · rfl

theorem executeRead_status (hb : E.backend = some backend) (hop : cmd.opcode = ioRead)
    (h : PrpMapped E true c cmd.prp1 cmd.prp2 cmd.count addrs)
    (hstraight : straight E c cmd addrs = true → (backend.readAt c.dev cmd.offset cmd.count).2.2 ≠ .failed) :
    (executeRead E backend cmd c).1 = .ok (0, if ioFails E c cmd then 1 else 0) := by
  have hne : ¬cmd.opcode = ioFlush := by rw [hop]; decide
  have hfails : ioFails E c cmd = decide ((backend.readAt c.dev cmd.offset cmd.count).2.2 = .failed) := by
    simp only [ioFails, hb, if_neg hne, if_pos hop]
  rw [executeRead, bind_of_ok (directPath_run E h)]
  rw [bind_run, backendRead, update_run]
  cases hdirect : straight E c cmd addrs with
  | true =>
    have hok := hstraight hdirect
    dsimp only
    rw [if_pos rfl, bind_run, change, update_run]
    dsimp only
    rw [if_neg hok, hfails, decide_eq_false hok]
    rfl
  | false =>
    dsimp only
    rw [if_neg (by decide)]
    by_cases hfailed : (backend.readAt c.dev cmd.offset cmd.count).2.2 = .failed
    · rw [if_pos hfailed, hfails, decide_eq_true hfailed]
      rfl
    · have hlen := length_padTo (backend.readAt_length c.dev cmd.offset cmd.count)
      have hok := writePRP_ok E (c := { c with dev := (backend.readAt c.dev cmd.offset cmd.count).1 }) (hlen.symm ▸ h)
      rw [if_neg hfailed, bind_run, hfails, decide_eq_false hfailed]
      rcases hw : writePRP E cmd.prp1 cmd.prp2 (padTo (backend.readAt c.dev cmd.offset cmd.count).2.1 cmd.count)
          { c with dev := (backend.readAt c.dev cmd.offset cmd.count).1 } with ⟨e | _, c'⟩
      · rw [hw] at hok
        cases hok
      · rfl

theorem executeWrite_status (hb : E.backend = some backend) (hop : cmd.opcode = ioWrite)
    (h : PrpMapped E false c cmd.prp1 cmd.prp2 cmd.count addrs)
    (hstraight : straight E c cmd addrs = true →
      (backend.writeAt c.dev cmd.offset (E.memory.load c.mem cmd.prp1 cmd.count)).2.2 = false) :
    (executeWrite E backend cmd c).1 = .ok (0, if ioFails E c cmd then 1 else 0) := by
  have hne : ¬cmd.opcode = ioFlush := by rw [hop]; decide
  have hne' : ¬cmd.opcode = ioRead := by rw [hop]; decide
  have hfails : ioFails E c cmd = (backend.writeAt c.dev cmd.offset (writeData E c cmd)).2.2 := by
    simp only [ioFails, hb, if_neg hne, if_neg hne', if_pos hop]
  have hdirect := directPath_run E h
  rw [executeWrite, bind_of_ok hdirect]
  cases hs : straight E c cmd addrs with
  | true =>
    have hdata : writeData E c cmd = E.memory.load c.mem cmd.prp1 cmd.count := by rw [writeData, hdirect, hs]
    have hok := hstraight hs
    rw [hfails, hdata, hok]
    have hfull := backend.writeAt_full c.dev cmd.offset (E.memory.load c.mem cmd.prp1 cmd.count) hok
    simp only [if_pos, bind_run, read_run, backendWrite, update_run, hok, hfull, require]
    rfl
  | false =>
    have hread : (readPRP E cmd.prp1 cmd.prp2 cmd.count c).1.isOk = true :=
      transferPRP_ok E (by rw [length_replicate]; exact h)
    rcases hr : (readPRP E cmd.prp1 cmd.prp2 cmd.count c).1 with e | buf
    · rw [hr] at hread
      cases hread
    have hdata : writeData E c cmd = buf := by rw [writeData, hdirect, hs, hr]
    rw [hfails, hdata]
    dsimp only
    rw [if_neg (by decide), bind_of_ok ((moves_readPRP E cmd.prp1 cmd.prp2 cmd.count).run hr)]
    rw [bind_run, backendWrite, update_run]
    dsimp only
    split
    · rfl
    · rfl

theorem executeIo_status (h : Transferable E c cmd) :
    (executeIo E cmd c).1 = .ok (0, if ioFails E c cmd then 1 else 0) := by
  rcases hb : E.backend with - | backend
  · simp only [executeIo, ioFails, hb]
    rfl
  unfold executeIo
  rw [hb]
  dsimp only
  by_cases hflush : cmd.opcode = ioFlush
  · simp only [ioFails, hb, if_pos hflush]
    rfl
  rw [if_neg hflush]
  by_cases hread : cmd.opcode = ioRead
  · rw [if_pos hread]
    obtain ⟨addrs, hmapped, hstraight⟩ := (h backend hb).1 hread
    exact executeRead_status E hb hread hmapped hstraight
  rw [if_neg hread]
  by_cases hwrite : cmd.opcode = ioWrite
  · rw [if_pos hwrite]
    obtain ⟨addrs, hmapped, hstraight⟩ := (h backend hb).2 hwrite
    exact executeWrite_status E hb hwrite hmapped hstraight
  · simp only [ioFails, hb, if_neg hflush, if_neg hread, if_neg hwrite]
    rfl

end Command

/-! ## One turn -/

/-- What a record holds of its submission queue. -/
structure SqView where
  id : UInt16
  size : UInt16
  sqHead : UInt16
  sqTail : UInt16
  submitted : List UInt16
  executed : List Executed
  completed : List NvmeCompletion

def NvmeQueue.sqView (q : NvmeQueue) : SqView where
  id := q.id
  size := q.size
  sqHead := q.sqHead
  sqTail := q.sqTail
  submitted := q.submitted
  executed := q.executed
  completed := q.completed

def Controller.sqView (c : Controller M B) (k : Nat) : Option SqView := c.heap[k]?.map NvmeQueue.sqView

variable {q : NvmeQueue}

theorem sqView_of_some {k : Nat} (h : c.heap[k]? = some q) : c.sqView k = some q.sqView := by
  rw [Controller.sqView, h]
  rfl

theorem Quiet.sqView {c' : Controller M B} (h : Quiet c c') : c'.sqView = c.sqView := by
  funext k
  rw [Controller.sqView, h.heap]
  rfl

theorem sqView_modifyQueue (c : Controller M B) (p : Nat) {g : SqView → SqView} (hfg : ∀ q, (f q).sqView = g q.sqView) :
    (c.modifyQueue p f).sqView = fun k => if p = k then (c.sqView k).map g else c.sqView k := by
  funext k
  rw [Controller.sqView, getElem?_modifyQueue]
  split
  · rw [Controller.sqView, Option.map_map, Option.map_map]
    congr 1
    funext q
    exact hfg q
  · rfl

theorem sqView_modifyQueue_same (c : Controller M B) (p : Nat) (hf : ∀ q, (f q).sqView = q.sqView) :
    (c.modifyQueue p f).sqView = c.sqView := by
  rw [sqView_modifyQueue c p (g := id) hf]
  funext k
  rw [Option.map_id]
  split
  · rfl
  · rfl

def Executed.answer (x : Executed) : NvmeCompletion := ⟨x.cmd.cid, if x.failed then 1 else 0⟩

/-- The 16 bytes of the entry at the tail of the completion ring can be written. -/
def Storable (E : NvmeEnv M B) (q : NvmeQueue) : Prop :=
  (∃ s ∈ q.cqMem, q.cqTail.toNat * 16 + 16 ≤ s.2) ∨
  ∀ m (raw : Bytes), raw.length = 16 → (E.memory.writeIPA m (q.cqAddr + q.cqTail.toUInt64 * 16) raw).isSome = true

/-- The next command of the record at `p` is read and can move its data, and there is a completion queue that takes its
answer. -/
def Answered (E : NvmeEnv M B) (c : Controller M B) (p : Nat) : Prop :=
  (∃ cmd, commandAt E c p = some cmd ∧ Transferable E c cmd) ∧
  ∃ k, c.find (c.queue p).cqID = some k ∧ Storable E (c.queue k)

section Turn

variable (E : NvmeEnv M B) {p : Nat} {q : NvmeQueue}

theorem advance_run (x : UInt16) (h : size ≠ 0) (c : Controller M B) :
    advance x size c = (.ok ((x + 1) % size), c) := by
  rw [advance, if_neg h]
  rfl

theorem Moves.ok {α : Type} {x : NvmeProg M B α} {Q : α → Prop} (h : Moves Quiet x Q) (hok : (x c).1.isOk = true) :
    ∃ a c', x c = (.ok a, c') ∧ Quiet c c' := by
  rcases (h c).ends (.refl c) with ⟨a, c', hx, -, hquiet⟩ | ⟨e, c', hx, -⟩
  · exact ⟨a, c', hx, hquiet⟩
  · rw [hx] at hok
    cases hok

theorem length_completionEntry (phase : Bool) (sqid sqHead cid : UInt16) (result : UInt32) (status : UInt16) :
    (completionEntry phase sqid sqHead cid result status).length = 16 := by
  simp [completionEntry]

theorem storeCompletion_ok {qk : NvmeQueue} (h : Storable E qk) {raw : Bytes} (hraw : raw.length = 16)
    (c : Controller M B) :
    (storeCompletion E qk raw c).1.isOk = true := by
  have hwrite : (∀ m (raw : Bytes), raw.length = 16 →
      (E.memory.writeIPA m (qk.cqAddr + qk.cqTail.toUInt64 * 16) raw).isSome = true) →
      (writeIPA E (qk.cqAddr + qk.cqTail.toUInt64 * 16) raw c).1.isOk = true := by
    intro hall
    obtain ⟨m, hm⟩ := isSome_iff_exists.1 (hall c.mem raw hraw)
    rw [writeIPA, hm]
    rfl
  unfold storeCompletion
  rcases hmem : qk.cqMem with - | ⟨base, len⟩
  · rcases h with ⟨s, hs, -⟩ | hall
    · rw [hmem] at hs
      cases hs
    · exact hwrite hall
  · dsimp only
    by_cases hlen : qk.cqTail.toNat * 16 + 16 ≤ len
    · rw [if_pos hlen]
      rfl
    · rw [if_neg hlen]
      rcases h with ⟨s, hs, hle⟩ | hall
      · rw [hmem] at hs
        cases hs
        exact absurd hle hlen
      · exact hwrite hall

theorem writeCompletion_run {k : Nat} {qk : NvmeQueue} (hs : Sound c) (hk : c.heap[k]? = some qk) (hok : Storable E qk)
    (sqid sqHead cid : UInt16) (result : UInt32) (status : UInt16) :
    ∃ c', writeCompletion E k sqid sqHead cid result status c = (.ok (), c') ∧ c'.sqView = c.sqView := by
  obtain ⟨_, c₁, hstore, hquiet⟩ :=
    (moves_storeCompletion E qk (completionEntry qk.cqPhase sqid sqHead cid result status)).ok
    (storeCompletion_ok E hok (length_completionEntry ..) c)
  refine ⟨(c₁.modifyQueue k fun q => q.posted ((qk.cqTail + 1) % qk.size)).note (.post qk.id qk.cqTail qk.cqPhase), ?_,
    ?_⟩
  · rw [writeCompletion, read_bind, Controller.queue_eq hk, bind_of_ok hstore, bind_run,
      advance_run qk.cqTail (hs.sized hk)]
    rfl
  · rw [← hquiet.sqView]
    exact sqView_modifyQueue_same c₁ k fun q => rfl

theorem command_run {cmd : NvmeCommand} (hp : c.heap[p]? = some q) (hcmd : commandAt E c p = some cmd) :
    (submissionEntry E q >>= parseCommand : NvmeProg M B NvmeCommand) c = (.ok cmd, c) := by
  refine (moves_command E q).run ?_
  rw [commandAt, Controller.queue_eq hp] at hcmd
  rcases hx : ((submissionEntry E q >>= parseCommand : NvmeProg M B NvmeCommand) c).1 with e | cmd'
  · rw [hx] at hcmd
    cases hcmd
  · rw [hx] at hcmd
    cases hcmd
    rfl

/-- What one turn does to the submission queues: the command at the head is executed and answered. -/
theorem turn_answered (hs : Sound c) (hp : c.heap[p]? = some q) (hid : q.id ≠ adminQueueID) (ha : Answered E c p) :
    ∃ cmd c', turn E p c = (.ok (), c') ∧ c'.sqView = fun k => if p = k then (c.sqView k).map fun v =>
      let x : Executed := ⟨v.sqHead, cmd, ioFails E c cmd⟩
      { v with
        sqHead := (v.sqHead + 1) % v.size, executed := v.executed ++ [x], completed := v.completed ++ [x.answer] }
      else c.sqView k := by
  obtain ⟨⟨cmd, hcmd, htransfer⟩, k, hk, hstorable⟩ := ha
  obtain ⟨qk, hqk, -⟩ := hs.found hk
  rw [Controller.queue_eq hqk] at hstorable
  have hqueue := Controller.queue_eq hp
  rw [hqueue] at hk
  -- the command is executed
  obtain ⟨r, c₁, hrun, hquiet⟩ := (moves_executeIo E cmd).ok (c := c) (by rw [executeIo_status E htransfer]; rfl)
  have hstatus : r = (0, if ioFails E c cmd then 1 else 0) := by
    have h := executeIo_status E htransfer
    rw [hrun] at h
    exact Except.ok.inj h
  subst hstatus
  let x : Executed := ⟨q.sqHead, cmd, ioFails E c cmd⟩
  let c₂ := c₁.modifyQueue p fun q => { q with executed := q.executed ++ [x] }
  have hexecute : executeFor E p q.id q.sqHead cmd c = (.ok (0, if ioFails E c cmd then 1 else 0), c₂) := by
    have hattempt : (attempt (executeCommand E q.id cmd) : NvmeProg M B (Except NvmeFault (UInt32 × UInt16))) c =
        (.ok (.ok (0, if ioFails E c cmd then 1 else 0)), c₁) := by
      rw [executeCommand, if_neg hid, attempt, hrun]
    rw [executeFor, read_bind, bind_of_ok hattempt, decide_eq_true hid]
    rfl
  -- the head moves on
  have hp₁ : c₁.heap[p]? = some q := by rw [hquiet.heap, hp]
  let q₂ : NvmeQueue := { q with executed := q.executed ++ [x] }
  have hp₂ : c₂.heap[p]? = some q₂ := by
    rw [getElem?_modifyQueue, if_pos rfl, hp₁]
    rfl
  let c₃ := (c₂.modifyQueue p fun q' => { q' with sqHead := (q.sqHead + 1) % q.size }).note (.fetch q.id)
  have hs₂ : Sound c₂ := (hs.quiet hquiet).modify p (by simp)
  have hadvance : advanceHead p c₂ = (.ok (), c₃) := advanceHead_run (q := q₂) hs₂ hp₂
  have hs₃ : Sound c₃ := Sound.note (hs₂.modify p (by simp)) _
  let q₃ : NvmeQueue := { q₂ with sqHead := (q.sqHead + 1) % q.size }
  have hp₃ : c₃.heap[p]? = some q₃ := by
    show (c₂.modifyQueue p _).heap[p]? = _
    rw [getElem?_modifyQueue, if_pos rfl, hp₂]
    rfl
  -- the answer goes to the queue it names, whose ring is as it was
  obtain ⟨qk₃, hk₃, hstorable₃⟩ : ∃ qk₃, c₃.heap[k]? = some qk₃ ∧ Storable E qk₃ := by
    by_cases hkp : p = k
    · subst hkp
      rw [hp] at hqk
      cases hqk
      exact ⟨q₃, hp₃, hstorable⟩
    · refine ⟨qk, ?_, hstorable⟩
      show (c₂.modifyQueue p _).heap[k]? = _
      rw [getElem?_modifyQueue, if_neg hkp, getElem?_modifyQueue, if_neg hkp, hquiet.heap, hqk]
  obtain ⟨c₄, hwrite, hview⟩ := writeCompletion_run E hs₃ hk₃ hstorable₃ q.id q₃.sqHead cmd.cid 0
    (if ioFails E c cmd then 1 else 0)
  have hcomplete : complete E p cmd.cid 0 (if ioFails E c cmd then 1 else 0) c₃ =
      (.ok (), c₄.modifyQueue p fun q => { q with completed := q.completed ++ [x.answer] }) := by
    have hfind : c₃.find q.cqID = some k := by
      rw [← hk, ← hquiet.find]
      rfl
    rw [complete, read_bind, Controller.queue_eq hp₃, read_bind, if_neg hid, hfind, ofOption_some_bind,
      bind_run, hwrite]
    rfl
  refine ⟨cmd, c₄.modifyQueue p fun q => { q with completed := q.completed ++ [x.answer] }, ?_, ?_⟩
  · rw [turn, read_bind, hqueue, ← Prog.bind_assoc, bind_of_ok (command_run E hp hcmd), if_neg fun h => hid h.1,
      bind_of_ok hexecute]
    dsimp only
    rw [bind_run, hadvance]
    exact hcomplete
  · rw [sqView_modifyQueue c₄ p (g := fun v => { v with completed := v.completed ++ [x.answer] }) fun _ => rfl, hview]
    have h₃ : c₃.sqView = _ :=
      sqView_modifyQueue c₂ p (g := fun v => { v with sqHead := (q.sqHead + 1) % q.size }) fun _ => rfl
    have h₂ : c₂.sqView = _ :=
      sqView_modifyQueue c₁ p (g := fun v => { v with executed := v.executed ++ [x] }) fun _ => rfl
    rw [h₃, h₂, hquiet.sqView]
    funext k'
    by_cases hkp : p = k'
    · subst hkp
      simp only [if_true, Controller.sqView, hp]
      rfl
    · simp only [if_neg hkp]

end Turn

/-! ## The loop -/

section Loop

variable (E : NvmeEnv M B)

theorem updateIRQ_heap (c : Controller M B) : (updateIRQ E c).2.heap = c.heap := by
  have hkeeps : Keeps (fun c' => c'.heap = c.heap) (updateIRQ E) :=
    updateIRQ_triple E (fun h hheap _ _ => hheap.trans h) fun h => h
  exact keeps_iff.mp hkeeps c rfl

theorem updateIRQ_sqView (c : Controller M B) : (updateIRQ E c).2.sqView = c.sqView := by
  funext k
  rw [Controller.sqView, updateIRQ_heap]
  rfl

theorem slotsBetween_step {head : UInt16} (htail : tail < size) (hne : head ≠ tail) {m : Nat}
    (hm : ringDistance size head tail ≤ m) :
    ∃ m', slotsBetween size head tail m = head :: slotsBetween size ((head + 1) % size) tail m' ∧
      ringDistance size ((head + 1) % size) tail ≤ m' := by
  have hstep := ringDistance_step htail hne
  obtain ⟨m', rfl⟩ : ∃ m', m = m' + 1 := ⟨m - 1, by omega⟩
  refine ⟨m', ?_, by omega⟩
  rw [slotsBetween, if_neg hne]

def TurnOrderly (c : Controller M B) (p : Nat) : Prop :=
  KeepsSizes E c p ∧ ((c.queue p).id ≠ adminQueueID → Answered E c p)

theorem loop_answered {p : Nat} (htail : tail < size) (n m : Nat) (hs : Sound c) (hp : c.heap[p]? = some q)
    (hid : q.id ≠ adminQueueID) (hsize : q.size = size) (hqtail : q.sqTail = tail)
    (hn : ringDistance size q.sqHead tail < n)
    (hm : ringDistance size q.sqHead tail ≤ m) (hP : TurnsMeet E (TurnOrderly E) p n c) :
    ∃ xs : List Executed, xs.map Executed.slot = slotsBetween size q.sqHead tail m ∧
      (processSubmissionQueue E p n c).2.sqView = fun k => if p = k then (c.sqView k).map fun v => { v with
          sqHead := tail
          executed := v.executed ++ xs
          completed := v.completed ++ xs.map Executed.answer }
        else c.sqView k := by
  induction n generalizing c q m with
  | zero => cases hn
  | succ n ih =>
    have hqueue := Controller.queue_eq hp
    rw [processSubmissionQueue, read_bind, hqueue, hqtail]
    by_cases hne : q.sqHead = tail
    · rw [if_pos hne]
      refine ⟨[], ?_, ?_⟩
      · rw [hne]
        cases m with
        | zero => rfl
        | succ m => rw [slotsBetween, if_pos rfl]; rfl
      · rw [updateIRQ_sqView]
        funext k
        split
        · rename_i hk
          subst hk
          simp only [Controller.sqView, hp, map_some, append_nil, map_nil]
          rw [← hne]
          rfl
        · rfl
    rw [if_neg hne]
    rw [TurnsMeet, hqueue, hqtail] at hP
    obtain ⟨⟨hkeeps, hanswered⟩, hrest⟩ := hP hne
    have hloop : InLoop p q.id size tail q.sqHead c := ⟨hs, q, hp, rfl, hsize, rfl, hqtail⟩
    have hturn := turn_inLoop E hloop hkeeps c rfl
    obtain ⟨cmd, c', hrun, hview⟩ := turn_answered E hs hp hid (hanswered (by rw [hqueue]; exact hid))
    rw [hrun] at hrest hturn
    rw [bind_of_ok hrun]
    obtain ⟨hs', q', hp', hid', hsize', hhead', htail'⟩ := hturn
    obtain ⟨m', hslots, hm'⟩ := slotsBetween_step htail hne hm
    have hstep := ringDistance_step htail hne
    obtain ⟨xs, hxs, hview'⟩ := ih m' hs' hp' (by rw [hid']; exact hid) hsize' htail' (by rw [hhead']; omega)
      (by rw [hhead']; exact hm') (hrest rfl)
    refine ⟨⟨q.sqHead, cmd, ioFails E c cmd⟩ :: xs, ?_, ?_⟩
    · rw [map_cons, hxs, hhead', hslots]
    · rw [hview', hview]
      funext k
      split
      · rename_i hk
        subst hk
        simp only [if_true, Controller.sqView, hp, map_some, map_cons, append_assoc, singleton_append]
        rfl
      · rename_i hk
        exact if_neg hk

end Loop

/-! ## Runs -/

/-- Between two MMIO writes: every submitted slot of an I/O queue was executed, in order, and every command answered. -/
def SqView.Settled (v : SqView) : Prop := v.id ≠ adminQueueID → v.sqHead = v.sqTail ∧
  v.executed.map Executed.slot = v.submitted ∧ v.completed = v.executed.map Executed.answer

def AllSettled (c : Controller M B) : Prop := ∀ k, ∀ v ∈ c.sqView k, v.Settled

theorem allSettled_of_heap {c' : Controller M B} (h : AllSettled c) (hheap : c'.heap = c.heap) : AllSettled c' := by
  intro k v hv
  rw [Controller.sqView, hheap] at hv
  exact h k v hv

theorem AllSettled.note (h : AllSettled c) (op : RingOp) : AllSettled (c.note op) :=
  allSettled_of_heap h rfl

theorem AllSettled.modify (h : AllSettled c) (p : Nat)
    (hf : ∀ q, c.heap[p]? = some q → q.sqView.Settled → (f q).sqView.Settled) : AllSettled (c.modifyQueue p f) := by
  intro k v hv
  obtain ⟨q, hq, rfl⟩ := map_eq_some_iff.1 hv
  rw [getElem?_modifyQueue] at hq
  split at hq
  · rename_i hk
    subst hk
    obtain ⟨q₀, hq₀, rfl⟩ := map_eq_some_iff.1 hq
    exact hf q₀ hq₀ (h p _ (sqView_of_some hq₀))
  · exact h k _ (sqView_of_some hq)

theorem AllSettled.new (h : AllSettled c) (id : UInt16) (hq : q.sqView.Settled) : AllSettled (c.newQueue id q) := by
  intro k v hv
  obtain ⟨q', hq', rfl⟩ := map_eq_some_iff.1 hv
  rcases getElem?_newQueue c id q hq' with hq' | ⟨-, rfl⟩
  · exact h k _ (sqView_of_some hq')
  · exact hq

/-- The loop over the admin queue: the record at `p` is an admin queue, and the other queues are settled. -/
def AdminLoop (p : Nat) (c : Controller M B) : Prop :=
  AllSettled c ∧ ∃ q, c.heap[p]? = some q ∧ q.id = adminQueueID

section Admin

variable (E : NvmeEnv M B) {p : Nat}

theorem Moves.keeps {α : Type} {x : NvmeProg M B α} {Q : α → Prop} (h : Moves Quiet x Q) {I : Controller M B → Prop}
    (hI : ∀ c c', I c → c'.heap = c.heap → I c') : Keeps I x :=
  (h.triple fun hc hq => hI _ _ hc hq.heap).conseq (fun _ h => h) (fun _ _ h => h.2) fun _ _ h => h.2

theorem adminLoop_of_heap (c c' : Controller M B) (h : AdminLoop p c) (hheap : c'.heap = c.heap) : AdminLoop p c' := by
  refine ⟨allSettled_of_heap h.1 hheap, ?_⟩
  rw [hheap]
  exact h.2

theorem AdminLoop.note (h : AdminLoop p c) (op : RingOp) : AdminLoop p (c.note op) :=
  adminLoop_of_heap c _ h rfl

theorem AdminLoop.own (h : AdminLoop p c) (hf : ∀ q, (f q).id = q.id) : AdminLoop p (c.modifyQueue p f) := by
  obtain ⟨hall, q, hq, hid⟩ := h
  refine ⟨hall.modify p fun q' hq' _ hne => ?_, f q, ?_, (hf q).trans hid⟩
  · rw [hq] at hq'
    cases hq'
    exact absurd ((hf q).trans hid) hne
  · rw [getElem?_modifyQueue, if_pos rfl, hq]
    rfl

theorem AdminLoop.modify (h : AdminLoop p c) (k : Nat)
    (hf : ∀ q, (f q).sqView = { q.sqView with size := (f q).size }) : AdminLoop p (c.modifyQueue k f) := by
  obtain ⟨hall, q, hq, hid⟩ := h
  refine ⟨hall.modify k fun q _ hq => ?_, ?_⟩
  · rw [hf]
    exact hq
  · rw [getElem?_modifyQueue]
    split
    · refine ⟨f q, by rw [hq]; rfl, ?_⟩
      have := congrArg SqView.id (hf q)
      exact this.trans hid
    · exact ⟨q, hq, hid⟩

theorem keeps_createQueue {id : UInt16} {f : M → NvmeQueue → NvmeQueue} {op : RingOp}
    (hf : ∀ m q, (f m q).sqView = { q.sqView with size := (f m q).size }) :
    Keeps (AdminLoop p) (createQueue id f op : NvmeProg M B Unit) := by
  refine keeps_iff.mpr fun c h => ?_
  rw [create_run]
  dsimp only
  split
  · exact adminLoop_of_heap _ _ (h.modify _ (hf c.mem)) rfl
  · obtain ⟨hall, q, hq, hid⟩ := h
    refine ⟨hall.new id ?_, q, getElem?_newQueue_of_some c id _ hq, hid⟩
    rw [hf]
    exact fun _ => ⟨rfl, rfl, rfl⟩

theorem keeps_executeAdmin (cmd : NvmeCommand) : Keeps (AdminLoop p) (executeAdmin E cmd) := by
  have hdelete : ∀ id op, Keeps (AdminLoop p) (deleteQueue id op : NvmeProg M B Unit) :=
    fun id op => keeps_update fun c h => adminLoop_of_heap c _ h rfl
  refine executeAdmin_triple E (fun _ => keeps_createQueue fun m q => ?_) (fun _ => keeps_createQueue fun m q => ?_)
    (fun _ => hdelete _ _) (fun _ => hdelete _ _) fun h => h.keeps adminLoop_of_heap
  · obtain ⟨s, k, heq⟩ := completionRecord_eq E cmd m q
    rw [heq]
    rfl
  · obtain ⟨s, k, heq⟩ := submissionRecord_eq E cmd m q
    rw [heq]
    rfl

theorem keeps_advance (x size : UInt16) : Keeps (AdminLoop p) (advance x size : NvmeProg M B UInt16) :=
  keeps_ite (keeps_fail _) (keeps_pure _)

theorem keeps_advanceHead : Keeps (AdminLoop p) (advanceHead p : NvmeProg M B Unit) := by
  refine (keeps_read _).bind fun q => (keeps_advance _ _).bind fun head => ?_
  refine keeps_update fun c h => AdminLoop.note (h.own ?_) _
  exact fun _ => rfl

theorem keeps_complete (cid : UInt16) (result : UInt32) (status : UInt16) :
    Keeps (AdminLoop p) (complete E p cid result status) := by
  refine (keeps_read _).bind fun q => (keeps_read _).bind fun cq => (keeps_ofOption _ _).bind fun k => ?_
  refine Keeps.bind ?_ fun _ => keeps_update fun c h => h.own fun _ => rfl
  refine (keeps_read _).bind fun qk => ?_
  refine ((moves_storeCompletion E qk _).keeps adminLoop_of_heap).bind fun _ => (keeps_advance _ _).bind fun tail => ?_
  refine keeps_update fun c h => AdminLoop.note (h.modify k ?_) _
  exact fun _ => rfl

theorem keeps_executeFor (id slot : UInt16) (cmd : NvmeCommand) : Keeps (AdminLoop p) (executeFor E p id slot cmd) := by
  have hexecute : Keeps (AdminLoop p) (executeCommand E id cmd) :=
    keeps_ite (keeps_executeAdmin E cmd) ((moves_executeIo E cmd).keeps adminLoop_of_heap)
  exact executeFor_rule E slot hexecute (fun _ h => h.own fun _ => rfl) fun _ h => h.own fun _ => rfl

theorem keeps_turn : Keeps (AdminLoop p) (turn E p) := by
  refine (keeps_read _).bind fun q => ?_
  refine ((moves_submissionEntry E q).keeps adminLoop_of_heap).bind fun raw => ?_
  refine Keeps.bind (keeps_ite (keeps_fail _) (keeps_pure _)) fun cmd => ?_
  refine keeps_ite keeps_advanceHead ?_
  exact (keeps_executeFor E q.id q.sqHead cmd).bind fun r => keeps_advanceHead.bind fun _ =>
    keeps_complete E cmd.cid r.1 r.2

theorem keeps_processSubmissionQueue (n : Nat) : Keeps (AdminLoop p) (processSubmissionQueue E p n) := by
  induction n with
  | zero => exact keeps_fail _
  | succ n ih =>
    refine (keeps_read _).bind fun q => keeps_ite ?_ ((keeps_turn E).bind fun _ => ih)
    exact keeps_iff.mpr fun c h => adminLoop_of_heap c _ h (updateIRQ_heap E c)

end Admin

section Run

variable (E : NvmeEnv M B)

/-- A submission doorbell gets a value inside the ring, and each turn of the loop it starts meets `P`. -/
def Doorbell (P : Controller M B → Nat → Prop) (turns : Nat) (c : Controller M B) : NvmeEvent M → Prop
  | .guest _ => True
  | .mmio offset value => ∀ p ∈ submissionDoorbell c offset, value.toUInt32.toUInt16 < (c.queue p).size ∧
    TurnsMeet E P p turns (c.submit p (doorbellQueue (offset - doorbellBase)) value.toUInt32.toUInt16)

instance (P : Controller M B → Nat → Prop) [∀ c p, Decidable (P c p)] (turns : Nat) (c : Controller M B)
    (e : NvmeEvent M) :
    Decidable (Doorbell E P turns c e) := match e with
  | .guest _ => isTrue trivial
  | .mmio _ _ => inferInstanceAs (Decidable (∀ p ∈ _, _ ∧ _))

/-- Each turn of a loop that the write starts is orderly. -/
def Orderly (turns : Nat) (c : Controller M B) (e : NvmeEvent M) : Prop := Doorbell E (TurnOrderly E) turns c e

theorem TurnsMeet.mono {P Q : Controller M B → Nat → Prop} (hPQ : ∀ c p, P c p → Q c p) {p n : Nat}
    (h : TurnsMeet E P p n c) :
    TurnsMeet E Q p n c := by
  induction n generalizing c with
  | zero => trivial
  | succ n ih =>
    intro hne
    obtain ⟨hP, hrest⟩ := h hne
    exact ⟨hPQ c p hP, fun hok => ih (hrest hok)⟩

variable {turns : Nat}

theorem Doorbell.mono {P Q : Controller M B → Nat → Prop} (hPQ : ∀ c p, P c p → Q c p) {e : NvmeEvent M}
    (h : Doorbell E P turns c e) : Doorbell E Q turns c e := by
  cases e with
  | guest m => trivial
  | mmio offset value =>
    intro p hp
    obtain ⟨hlt, hmeets⟩ := h p hp
    exact ⟨hlt, hmeets.mono E hPQ⟩

theorem Doorbell.bounded {P : Controller M B → Nat → Prop} (hP : ∀ c p, P c p → KeepsSizes E c p) {e : NvmeEvent M}
    (h : Doorbell E P turns c e) : Bounded E turns c e := by
  cases e with
  | guest m => trivial
  | mmio offset value => exact h.mono E hP

theorem submit_settled (hturns : 65536 < turns) (hs : Sound c) (h : AllSettled c) {p : Nat} (hp : c.heap[p]? = some q)
    (hid : q.id ≠ adminQueueID) (qid : UInt16) (hlt : tail < q.size)
    (hmeets : TurnsMeet E (TurnOrderly E) p turns (c.submit p qid tail)) :
    AllSettled (processSubmissionQueue E p turns (c.submit p qid tail)).2 := by
  have hloop := submit_inLoop hs hp qid tail
  obtain ⟨hs', q', hp', hid', hsize', hhead', htail'⟩ := hloop
  have hdist := ringDistance_le q.size q.sqHead tail hlt
  obtain ⟨xs, hxs, hview⟩ := loop_answered E hlt turns 65536 hs' hp' (by rw [hid']; exact hid) hsize' htail'
    (by rw [hhead']; omega) (by rw [hhead']; exact hdist) hmeets
  have hsubmit : (c.submit p qid tail).sqView = _ := sqView_modifyQueue c p
    (g := fun v => { v with sqTail := tail, submitted := v.submitted ++ slotsBetween v.size v.sqTail tail 65536 })
    fun _ => rfl
  intro k v hv
  rw [hview, hsubmit] at hv
  dsimp only at hv
  by_cases hk : p = k
  · subst hk
    have hq := sqView_of_some hp
    obtain ⟨hhead, hexec, hcomp⟩ := h p q.sqView hq hid
    rw [if_pos rfl, if_pos rfl, hq] at hv
    cases hv
    intro _
    refine ⟨rfl, ?_, ?_⟩
    · show (q.executed ++ xs).map Executed.slot = q.submitted ++ slotsBetween q.size q.sqTail tail 65536
      rw [map_append, hxs, hhead']
      change q.sqHead = q.sqTail at hhead
      change q.executed.map Executed.slot = q.submitted at hexec
      rw [hexec, hhead]
    · show q.completed ++ xs.map Executed.answer = (q.executed ++ xs).map Executed.answer
      rw [map_append]
      change q.completed = _ at hcomp
      rw [hcomp]
      rfl
  · rw [if_neg hk, if_neg hk] at hv
    exact h k v hv

theorem keeps_change {f : Controller M B → Controller M B} (hheap : ∀ c, (f c).heap = c.heap) :
    Keeps AllSettled (change f) :=
  keeps_update fun c h => allSettled_of_heap h (hheap c)

theorem keeps_writeCC (value : UInt32) : Keeps (AllSettled (M := M) (B := B)) (writeCC E value) := by
  refine (keeps_read _).bind fun wasEnabled => Keeps.bind (keeps_change fun _ => rfl) fun _ => keeps_ite ?_ ?_
  · refine Keeps.bind (keeps_change fun _ => rfl) fun _ => keeps_ite ?_ (keeps_pure _)
    exact Keeps.bind (keeps_change fun _ => rfl) fun _ => keeps_require _ _
  · refine Keeps.bind (keeps_change fun _ => rfl) fun _ => ?_
    refine Keeps.bind (keeps_update fun c h => ?_) fun _ => keeps_change fun _ => rfl
    refine (h.new adminQueueID fun hne => ?_).note _
    exact absurd (cacheQueueMemory_id E _ _) hne

theorem writeMmio_settled (hturns : 65536 < turns) (hs : Sound c) (h : AllSettled c) (offset value : UInt64)
    (ho : Orderly E turns c (.mmio offset value)) : AllSettled (writeMmio E turns offset value c).2 := by
  refine triple_state.mp (writeMmio_triple E (fun h hheap _ _ => allSettled_of_heap h hheap) (fun h => h) h
    (fun _ => (keeps_writeCC E _).of_state h) (fun p hp hfind => triple_state.mpr ?_) fun p _ _ => ?_)
  · obtain ⟨q, hq, -⟩ := hs.found hfind
    obtain ⟨hlt, hmeets⟩ := ho p hp
    rw [Controller.queue_eq hq] at hlt
    by_cases hid : q.id = adminQueueID
    · have hadmin : AdminLoop p c := ⟨h, q, hq, hid⟩
      refine (keeps_iff.mp (keeps_processSubmissionQueue E turns) _ (AdminLoop.note (hadmin.own ?_) _)).1
      exact fun _ => rfl
    · exact submit_settled E hturns hs h hq hid _ hlt hmeets
  · refine AllSettled.note (h.modify p fun q _ hq => ?_) _
    obtain ⟨cqHead, cqPending, heq⟩ := advanceCompletionHead_eq q value.toUInt32.toUInt16
    rw [heq]
    exact hq

theorem step_settled (hturns : 65536 < turns) (c : Controller M B) (e : NvmeEvent M) (h : Sound c ∧ AllSettled c)
    (ho : Orderly E turns c e) : Sound (step E turns c e) ∧ AllSettled (step E turns c e) := by
  refine ⟨step_sound E hturns c e h.1 (ho.bounded E fun _ _ h => h.1), ?_⟩
  cases e with
  | guest m => exact allSettled_of_heap h.2 rfl
  | mmio offset value => exact writeMmio_settled E hturns h.1 h.2 offset value ho

end Run

/-- A disk of zeros that fails behind its first block. -/
def failingDisk : BlockBackend Unit where
  readAt _ off n := ((), List.replicate n 0, if off < 512 then .full else .failed)
  writeAt _ off src := if off < 512 then ((), src.length, false) else ((), 0, true)
  size _ := 1024
  readAt_length := by simp
  writeAt_full := by
    intro _ off src h
    split at h
    · rename_i hoff
      rw [if_pos hoff]
    · cases h

def diskEnv : NvmeEnv Bytes Unit := { listEnv with backend := some failingDisk }

/-- A turn of a queue pair whose command needs one page at most. -/
def OnePage (c : Controller Bytes Unit) (p : Nat) : Prop := KeepsSizes diskEnv c p ∧ ((c.queue p).id ≠ adminQueueID →
  (∃ cmd ∈ commandAt diskEnv c p, cmd.opcode = ioRead ∨ cmd.opcode = ioWrite →
    cmd.prp1 ≠ 0 ∧ cmd.count ≤ pageSize c - cmd.prp1.toNat % pageSize c) ∧ (c.find (c.queue p).cqID).isSome = true)
deriving Decidable

theorem prpMapped_onePage (write : Bool) {c : Controller Bytes Unit} {prp1 : UInt64} (prp2 : UInt64) {n : Nat}
    (hprp1 : prp1 ≠ 0) (hn : n ≤ pageSize c - prp1.toNat % pageSize c) : PrpMapped diskEnv write c prp1 prp2 n [] := by
  have hfirst : n - prpFirst (pageSize c) prp1 n = 0 := by
    rw [prpFirst, Nat.min_eq_right hn, Nat.sub_self]
  refine ⟨by rw [NamesPages, if_pos hfirst], ?_⟩
  rw [prpRuns, prpPages, gatherRuns, if_pos rfl]
  refine forall_mem_singleton.2 ⟨hprp1, fun m => ?_⟩
  cases write with
  | true => exact fun _ _ => rfl
  | false => rfl

theorem OnePage.orderly {c : Controller Bytes Unit} {p : Nat} (h : OnePage c p) : TurnOrderly diskEnv c p := by
  refine ⟨h.1, fun hid => ?_⟩
  obtain ⟨⟨cmd, hcmd, hpage⟩, hfind⟩ := h.2 hid
  obtain ⟨k, hk⟩ := isSome_iff_exists.1 hfind
  refine ⟨⟨cmd, hcmd, fun backend _ => ⟨fun hop => ?_, fun hop => ?_⟩⟩, k, hk, .inr fun _ _ _ => rfl⟩
  · obtain ⟨hprp1, hcount⟩ := hpage (.inl hop)
    exact ⟨[], prpMapped_onePage true cmd.prp2 hprp1 hcount, fun h => by cases h⟩
  · obtain ⟨hprp1, hcount⟩ := hpage (.inr hop)
    exact ⟨[], prpMapped_onePage false cmd.prp2 hprp1 hcount, fun h => by cases h⟩

def commandEntry (opcode : UInt8) (cid : Nat) (prp1 cdw10 cdw11 : Nat) : Bytes :=
  [opcode, 0] ++ bytesLE 2 cid ++ bytesLE 20 1 ++ bytesLE 16 prp1 ++ bytesLE 4 cdw10 ++ bytesLE 20 cdw11

/-- The commands that create queue pair 1, of four entries, with its rings at 256 and 512; `io` are the entries of its
submission queue. -/
def pairMemory (io : List Bytes) : Bytes :=
  commandEntry adminCreateCQ 1 512 0x30001 1 ++ commandEntry adminCreateSQ 2 256 0x30001 0x10001 ++
    List.replicate 128 0 ++ io.flatten

/-- The controller is enabled and creates queue pair 1. -/
def createPair : List (NvmeEvent Bytes) := [.mmio regAQA 0x20002, .mmio regACQ 128, .mmio regCC 1, .mmio doorbellBase 2]

def doorbell1 : UInt64 := doorbellBase + 8

/-- A flush, a read behind the end of the disk, and a write. -/
def goodMemory : Bytes :=
  pairMemory [commandEntry ioFlush 7 0 0 0, commandEntry ioRead 8 1024 1 0, commandEntry ioWrite 9 1024 0 0]

/-- A read without a data page before a flush. -/
def badMemory : Bytes := pairMemory [commandEntry ioRead 7 0 0 0, commandEntry ioFlush 8 0 0 0]

end CrumbleCracker.Nvme
