import CrumbleCracker.Nvme.Commands

/-!
# Message-signalled interrupts

`updateIRQ` sends a message where it raises `irqHigh`, which stands for all queues together. So a completion that is
written while it is high gets none of its own (`completion_unheard`). Where commands are submitted only while it is low,
and each can be answered, every completion that waits had its message (`completions_heard`).
-/

namespace CrumbleCracker.Nvme

open Prog List

variable {M B : Type}

/-! ## Turns that end -/

section Served

variable (E : NvmeEnv M B)

/-- The pages an admin command writes to are there. -/
def AdminMapped (c : Controller M B) (cmd : NvmeCommand) : Prop :=
  (cmd.opcode = adminIdentify → ∃ addrs, PrpMapped E true c cmd.prp1 cmd.prp2 4096 addrs) ∧
  (cmd.opcode = adminGetLogPage →
    ∃ addrs, PrpMapped E true c cmd.prp1 cmd.prp2 ((((cmd.cdw10 >>> 16) &&& 0xfff).toNat + 1) * 4) addrs)

/-- The next command of the record at `p` can move its data and be answered. -/
def Served (c : Controller M B) (p : Nat) : Prop :=
  TurnOrderly E c p ∧ ((c.queue p).id = adminQueueID →
    (∃ cmd, commandAt E c p = some cmd ∧ AdminMapped E c cmd) ∧ Storable E (c.queue p))

variable {E} {c : Controller M B} {cmd : NvmeCommand} {p : Nat} {q : NvmeQueue} {tail : UInt16}

theorem length_putAll {n : Nat} {data : Bytes} {values : List (Nat × Bytes)} (hn : data.length = n)
    (h : ∀ v ∈ values, v.1 + v.2.length ≤ n) : (putAll data values).length = n := by
  induction values generalizing data with
  | nil => exact hn
  | cons v values ih =>
    obtain ⟨hv, hrest⟩ := forall_mem_cons.1 h
    refine ih ?_ hrest
    rw [length_writeAt]
    omega

theorem length_identifyNamespace (blocks : Nat) : (identifyNamespace blocks).length = 4096 := by
  rw [identifyNamespace]
  exact length_putAll length_replicate (by simp)

theorem length_identifyController : identifyController.length = 4096 := by
  rw [identifyController]
  exact length_putAll length_replicate (by decide)

theorem executeAdmin_ok (h : AdminMapped E c cmd) :
    Triple (· = c) (executeAdmin E cmd) (fun _ _ => True) fun _ _ => False := by
  have hwrite (src : Bytes) (hmapped : ∃ addrs, PrpMapped E true c cmd.prp1 cmd.prp2 src.length addrs) :
      Triple (· = c) (writePRP E cmd.prp1 cmd.prp2 src) (fun _ _ => True) fun _ _ => False := by
    rintro c rfl
    obtain ⟨addrs, hmapped⟩ := hmapped
    have hok := writePRP_ok E hmapped
    rcases hx : writePRP E cmd.prp1 cmd.prp2 src c with ⟨e | u, c'⟩
    · rw [hx] at hok
      cases hok
    · trivial
  have hcreate (id : UInt16) (f : M → NvmeQueue → NvmeQueue) (op : RingOp) :
      Triple (· = c) (do createQueue id f op; pure ((0, 0) : UInt32 × UInt16)) (fun _ _ => True) fun _ _ => False := by
    rintro c rfl
    rw [bind_run, create_run]
    trivial
  refine triple_ite (fun hop => ?_) fun _ => ?_
  · split
    · refine Triple.bind (Q := fun _ => (· = c)) (triple_read fun _ h => h) fun blocks => ?_
      refine Triple.bind (hwrite _ ?_) fun _ => triple_pure fun _ _ => trivial
      rw [length_identifyNamespace]
      exact h.1 hop
    · refine Triple.bind (hwrite _ ?_) fun _ => triple_pure fun _ _ => trivial
      rw [length_identifyController]
      exact h.1 hop
    · refine Triple.bind (hwrite _ ?_) fun _ => triple_pure fun _ _ => trivial
      rw [length_putAll length_replicate (by decide)]
      exact h.1 hop
    · exact triple_pure fun _ _ => trivial
  refine triple_ite (fun _ => hcreate _ _ _) fun _ => triple_ite (fun _ => hcreate _ _ _) fun _ => ?_
  iterate 2 refine triple_ite (fun _ => fun _ _ => trivial) fun _ => ?_
  refine triple_ite (fun hop => ?_) fun _ => triple_pure fun _ _ => trivial
  refine Triple.bind (hwrite _ ?_) fun _ => triple_pure fun _ _ => trivial
  rw [length_replicate]
  exact h.2 hop

/-- The record at `p` is an admin queue that takes one more completion. -/
def AdminReady (E : NvmeEnv M B) (p : Nat) (c : Controller M B) : Prop :=
  Sound c ∧ ∃ q, c.heap[p]? = some q ∧ q.id = adminQueueID ∧ Storable E q

theorem create_other {f : M → NvmeQueue → NvmeQueue} {op : RingOp} (hid : ∀ m q, (f m q).id = q.id)
    (hsize : ∀ m q, (f m q).size = cmd.sizeField + 1) (hfield : cmd.sizeField ≠ 0xffff) (hne : cmd.qid ≠ adminQueueID) :
    Keeps (AdminReady E p) (createQueue cmd.qid f op) := by
  refine keeps_iff.mpr fun c h => ?_
  obtain ⟨hs, q, hq, hadmin, hstorable⟩ := h
  rw [create_run]
  refine ⟨hs.create hid (fun m q => ?_) op, q, ?_, hadmin, hstorable⟩
  · rw [hsize]
    exact sizeField_succ hfield
  dsimp only
  split
  · rename_i k hk
    have hkp : k ≠ p := by
      rintro rfl
      exact hne ((hs.id_eq hk hq).symm.trans hadmin)
    show (c.modifyQueue k _).heap[p]? = _
    rw [getElem?_modifyQueue, if_neg hkp, hq]
  · exact getElem?_newQueue_of_some c cmd.qid _ hq

theorem executeAdmin_ready (hcmd : ¬cmd.Resizes) : Keeps (AdminReady E p) (executeAdmin E cmd) := by
  have hcreate (hop : cmd.opcode = adminCreateCQ ∨ cmd.opcode = adminCreateSQ) :
      cmd.sizeField ≠ 0xffff ∧ cmd.qid ≠ adminQueueID := ⟨fun h => hcmd ⟨hop, .inr h⟩, fun h => hcmd ⟨hop, .inl h⟩⟩
  have hdelete (op : RingOp) : Keeps (AdminReady E p) (deleteQueue cmd.qid op : NvmeProg M B Unit) :=
    keeps_update fun c h => ⟨⟨h.1.sized, fun e he => h.1.listed e (mem_of_mem_filter he)⟩, h.2⟩
  refine executeAdmin_triple E (fun hop => ?_) (fun hop => ?_) (fun _ => hdelete _) (fun _ => hdelete _)
    fun hmoves => ?_
  · obtain ⟨hfield, hne⟩ := hcreate (.inl hop)
    exact create_other (fun m q => cacheQueueMemory_id E m _) (fun m q => cacheQueueMemory_size E m _) hfield hne
  · obtain ⟨hfield, hne⟩ := hcreate (.inr hop)
    exact create_other (fun m q => cacheQueueMemory_id E m _) (fun m q => cacheQueueMemory_size E m _) hfield hne
  · refine (hmoves.triple (P := AdminReady E p) fun h hquiet => ?_).conseq (fun _ h => h) (fun _ _ h => h.2)
      fun _ _ h => h.2
    refine ⟨h.1.quiet hquiet, ?_⟩
    rw [hquiet.heap]
    exact h.2

theorem AdminReady.modify {f : NvmeQueue → NvmeQueue} (h : AdminReady E p c)
    (hf : ∀ q, (f q).id = q.id ∧ (f q).size = q.size ∧ (f q).cqMem = q.cqMem ∧ (f q).cqTail = q.cqTail ∧
      (f q).cqAddr = q.cqAddr) : AdminReady E p (c.modifyQueue p f) := by
  obtain ⟨hs, q, hq, hadmin, hstorable⟩ := h
  obtain ⟨hid, -, hmem, htail, haddr⟩ := hf q
  refine ⟨hs.modify p fun q => ⟨(hf q).1, by rw [(hf q).2.1]; exact fun h => h⟩, f q, ?_, hid.trans hadmin, ?_⟩
  · rw [getElem?_modifyQueue, if_pos rfl, hq]
    rfl
  · rw [Storable, hmem, htail, haddr]
    exact hstorable

theorem advanceHead_ready : Triple (AdminReady E p) (advanceHead p) (fun _ => AdminReady E p) fun _ _ => False := by
  intro c h
  obtain ⟨q, hq, -⟩ := h.2
  rw [advanceHead_run h.1 hq]
  obtain ⟨hs, hq⟩ := h.modify (f := fun q' => { q' with sqHead := (q.sqHead + 1) % q.size }) fun _ =>
    ⟨rfl, rfl, rfl, rfl, rfl⟩
  exact ⟨hs.note _, hq⟩

theorem complete_ready (cid : UInt16) (result : UInt32) (status : UInt16) :
    Triple (AdminReady E p) (complete E p cid result status) (fun _ _ => True) fun _ _ => False := by
  rintro c ⟨hs, q, hq, hadmin, hstorable⟩
  obtain ⟨c', hrun, -⟩ := writeCompletion_run E hs hq hstorable q.id q.sqHead cid result status
  rw [complete, read_bind, Controller.queue_eq hq, read_bind, if_pos hadmin, ofOption_some_bind, bind_run, hrun]
  trivial

theorem turn_ok (hs : Sound c) (hp : c.heap[p]? = some q) (h : Served E c p) : (turn E p c).1 = .ok () := by
  have hqueue := Controller.queue_eq hp
  obtain ⟨⟨hkeeps, hanswered⟩, hserved⟩ := h
  rw [hqueue] at hanswered hserved
  by_cases hid : q.id = adminQueueID
  · obtain ⟨⟨cmd, hcmd, hmapped⟩, hstorable⟩ := hserved hid
    have hready : AdminReady E p c := ⟨hs, q, hp, hid, hstorable⟩
    have hexecute : Triple (· = c) (executeCommand E q.id cmd) (fun _ => AdminReady E p) fun _ _ => False := by
      rw [executeCommand, if_pos hid]
      have hkept := (executeAdmin_ready (hkeeps (by rw [hqueue, hid]) cmd hcmd)).of_state hready
      exact ((executeAdmin_ok hmapped).and hkept).conseq (fun _ h => ⟨h, h⟩) (fun _ _ h => h.2) fun _ _ h => h.1
    have hturn : Triple (· = c) (if q.id = adminQueueID ∧ cmd.opcode = adminAsyncEvent then advanceHead p else
        executeFor E p q.id q.sqHead cmd >>= fun r => advanceHead p >>= fun _ => complete E p cmd.cid r.1 r.2)
        (fun _ _ => True) fun _ _ => False := by
      refine triple_ite (fun _ => ?_) fun _ => ?_
      · exact (advanceHead_ready.of_state hready).conseq (fun _ h => h) (fun _ _ _ => trivial) fun _ _ h => h
      · refine Triple.bind (executeFor_rule E q.sqHead hexecute (fun x h => h.modify fun _ => ⟨rfl, rfl, rfl, rfl, rfl⟩)
          fun _ h => h) fun r => ?_
        exact Triple.bind advanceHead_ready fun _ => complete_ready cmd.cid r.1 r.2
    rw [turn, read_bind, hqueue, ← Prog.bind_assoc, bind_of_ok (command_run E hp hcmd)]
    rcases hturn.ends rfl with ⟨_, c', hx, -⟩ | ⟨_, _, _, hfalse⟩
    · exact congrArg Prod.fst hx
    · exact hfalse.elim
  · obtain ⟨_, c', hrun, -⟩ := turn_answered E hs hp hid (hanswered hid)
    rw [hrun]

end Served

/-! ## Messages -/

/-- An interrupt-enabled queue has a completion pending, and interrupts are not masked. -/
def Controller.high (c : Controller M B) : Bool :=
  c.intMask &&& 1 = 0 && c.queues.any fun e => (c.queue e.2).interrupts && (c.queue e.2).cqPending ≠ 0

/-- The controller, and what happened to the rings since the last message. -/
structure Listened (M B : Type) where
  ctl : Controller M B
  since : List RingOp := []

/-- One event. A write that raises `irqHigh` does so at its end, in `updateIRQ`. -/
def listen (E : NvmeEnv M B) (turns : Nat) (l : Listened M B) (e : NvmeEvent M) : Listened M B :=
  let c := step E turns l.ctl e
  { ctl := c
    since := if E.msi.isSome && c.irqHigh && !l.ctl.irqHigh then [] else l.since ++ c.ops.drop l.ctl.ops.length }

/-- No queue with a completion pending has got one since the last message, unless interrupts are masked. -/
def Heard (l : Listened M B) : Prop := l.ctl.intMask &&& 1 = 0 → ∀ e ∈ l.ctl.queues,
  (l.ctl.queue e.2).interrupts = true → (l.ctl.queue e.2).cqPending ≠ 0 →
    ∀ slot phase, .post (l.ctl.queue e.2).id slot phase ∉ l.since

def RingOp.isPost : RingOp → Bool
  | .post .. => true
  | _ => false

/-- A submission doorbell is given the head of its queue. -/
def SubmitsNone (c : Controller M B) : NvmeEvent M → Prop
  | .guest _ => True
  | .mmio offset value => ∀ p ∈ submissionDoorbell c offset, value.toUInt32.toUInt16 = (c.queue p).sqHead

instance (c : Controller M B) (e : NvmeEvent M) : Decidable (SubmitsNone c e) := match e with
  | .guest _ => isTrue trivial
  | .mmio _ _ => inferInstanceAs (Decidable (∀ p ∈ _, _))

/-- Each command of the loop the write starts can be answered, and while `irqHigh` is high the write submits none. -/
def Spaced (E : NvmeEnv M B) (turns : Nat) (l : Listened M B) (e : NvmeEvent M) : Prop :=
  Doorbell E (Served E) turns l.ctl e ∧ (l.ctl.irqHigh = true → SubmitsNone l.ctl e)

/-- A pending completion is shown by `irqHigh`. -/
def Shown (c : Controller M B) : Prop := c.high = true → c.irqHigh = true

theorem Shown.newQueue {c : Controller M B} (h : Shown c) (id : UInt16) {q : NvmeQueue} (hq : q.cqPending = 0) :
    Shown (c.newQueue id q) := by
  intro hhigh
  rw [Controller.high, Bool.and_eq_true, any_eq_true] at hhigh
  obtain ⟨hmask, e, he, hpending⟩ := hhigh
  have hlt : e.2 < c.heap.length := by
    by_contra hle
    have hnew : ((c.newQueue id q).queue e.2).cqPending = 0 := by
      rw [Controller.queue, Controller.newQueue, getD_eq_getElem?_getD, getElem?_append_right (by omega)]
      cases e.2 - c.heap.length with
      | zero => exact hq
      | succ n => rfl
    simp [hnew] at hpending
  have hsame : (c.newQueue id q).queue e.2 = c.queue e.2 := by
    rw [Controller.queue, Controller.newQueue, getD_append _ _ _ _ hlt, Controller.queue]
  rw [hsame] at hpending
  rcases mem_cons.1 he with rfl | he
  · exact absurd hlt (Nat.lt_irrefl _)
  · refine h ?_
    rw [Controller.high, Bool.and_eq_true, any_eq_true]
    exact ⟨hmask, e, mem_of_mem_filter he, hpending⟩

section Settles

variable {E : NvmeEnv M B} {turns : Nat} {c : Controller M B} (hmsi : E.msi = some true)

include hmsi

theorem updateIRQ_shown : Triple (fun _ => True) (updateIRQ E) (fun _ => Shown) fun _ _ => False := by
  refine Triple.bind (Q := fun high c => c.high = high) (triple_read fun c _ => rfl) fun high => ?_
  refine Triple.bind (Q := fun was c => c.high = high ∧ c.irqHigh = was) (triple_read fun c h => ⟨h, rfl⟩) fun was => ?_
  refine triple_ite (fun heq => triple_pure fun c h hhigh => ?_) fun _ => ?_
  · rw [h.2, ← heq, ← h.1]
    exact hhigh
  · refine Triple.bind (Q := fun _ => Shown) (triple_update fun c h hhigh => h.1.symm.trans hhigh) fun _ => ?_
    rw [hmsi]
    exact triple_require_of fun _ => rfl

theorem change_updateIRQ_shown {P : Controller M B → Prop} (f : Controller M B → Controller M B) :
    Triple P (do change f; updateIRQ E) (fun _ => Shown) fun _ _ => False :=
  Triple.bind (Q := fun _ _ => True) (triple_update fun _ _ => trivial) fun _ => updateIRQ_shown hmsi

omit hmsi in
theorem writeCC_shown (hirq : E.setIRQ false = true) (value : UInt32) :
    Triple Shown (writeCC E value) (fun _ => Shown) fun _ _ => False := by
  refine Triple.bind (Q := fun _ => Shown) (triple_read fun _ h => h) fun wasEnabled => ?_
  refine Triple.bind (Q := fun _ => Shown) (triple_update fun _ h => h) fun _ => triple_ite (fun _ => ?_) fun _ => ?_
  · refine Triple.bind (Q := fun _ => Shown) (triple_update fun _ h => h) fun _ => ?_
    refine triple_ite (fun _ => ?_) fun _ => triple_pure fun _ h => h
    refine Triple.bind (Q := fun _ => Shown) (triple_update fun c _ hhigh => ?_) fun _ => triple_require_of hirq
    simp [Controller.high, Controller.note] at hhigh
  · refine Triple.bind (Q := fun _ => Shown) (triple_update fun _ h => h) fun _ => ?_
    refine Triple.bind (Q := fun _ => Shown) (triple_update fun c h => ?_) fun _ => triple_update fun _ h => h
    obtain ⟨sqMem, cqMem, heq⟩ := cacheQueueMemory_eq E c.mem
      { id := adminQueueID, size := _, sqAddr := c.asq, cqAddr := c.acq, cqPhase := true, interrupts := true }
    exact h.newQueue adminQueueID (heq ▸ rfl)

/-- The loop gets to the tail, and to `updateIRQ`. -/
theorem submit_shown (hturns : 65536 < turns) (hs : Sound c) {p : Nat} {q : NvmeQueue} (hp : c.heap[p]? = some q)
    {tail : UInt16} (hlt : tail < q.size) (qid : UInt16)
    (hmeets : TurnsMeet E (Served E) p turns (c.submit p qid tail)) :
    Triple (· = c.submit p qid tail) (processSubmissionQueue E p turns) (fun _ => Shown) fun _ _ => False := by
  have hdist := ringDistance_le q.size q.sqHead tail hlt
  refine processSubmissionQueue_rule E
    (J := fun n head c => ringDistance q.size head tail < n ∧ InLoop p q.id q.size tail head c) (fun h => h.2.2)
    (fun h => absurd h.1 (Nat.not_lt_zero _)) (fun _ => (updateIRQ_shown hmsi).of_state trivial)
    (fun hne h hserved => ?_)
    ⟨by omega, submit_inLoop hs hp qid tail⟩ hmeets
  have hstep := ringDistance_step hlt hne
  obtain ⟨hs', q', hp', -⟩ := h.2
  have hok := turn_ok hs' hp' hserved
  rintro c rfl
  rcases (turn_inLoop E h.2 hserved.1.1).ends rfl with ⟨_, c', hx, hloop⟩ | ⟨_, _, hx, -⟩
  · rw [hx]
    exact ⟨by omega, hloop⟩
  · rw [hx] at hok
    cases hok

theorem writeMmio_shown (hirq : E.setIRQ false = true) (hturns : 65536 < turns) (hs : Sound c) (hc : Shown c)
    {offset value : UInt64} (he : Doorbell E (Served E) turns c (.mmio offset value)) :
    Triple (· = c) (writeMmio E turns offset value) (fun _ => Shown) fun _ _ => False := by
  have hset {f : Controller M B → Controller M B} (hf : Shown (f c)) :
      Triple (· = c) (change f : NvmeProg M B Unit) (fun _ => Shown) fun _ _ => False :=
    triple_update fun c' h => h ▸ hf
  unfold writeMmio
  iterate 2 refine triple_ite (fun _ => change_updateIRQ_shown hmsi _) fun _ => ?_
  refine triple_ite (fun _ => (writeCC_shown hirq _).of_state hc) fun _ => ?_
  iterate 5 refine triple_ite (fun _ => hset hc) fun _ => ?_
  refine triple_ite (fun hbase => ?_) fun _ => triple_pure fun c' h => h ▸ hc
  rintro c rfl
  rw [writeDoorbell, read_bind]
  rcases hfind : c.find (doorbellQueue (offset - doorbellBase)) with - | p
  · exact hc
  dsimp only
  by_cases heven : (offset - doorbellBase) / 4 % 2 = 0
  · obtain ⟨q, hq, -⟩ := hs.found hfind
    obtain ⟨hlt, hmeets⟩ := he p (by rw [submissionDoorbell, if_pos ⟨hbase, heven⟩]; exact hfind)
    rw [Controller.queue_eq hq] at hlt
    rw [if_pos heven]
    exact submit_shown hmsi hturns hs hq hlt _ hmeets _ rfl
  · rw [if_neg heven]
    exact change_updateIRQ_shown hmsi _ c rfl

end Settles

/-- No completion has been written since `c`. -/
def NoPost (c c' : Controller M B) : Prop := ∃ ops, c'.ops = c.ops ++ ops ∧ ops.any RingOp.isPost = false

section NoPost

variable {E : NvmeEnv M B} {turns : Nat} {c c' : Controller M B}

theorem NoPost.refl (c : Controller M B) : NoPost c c := ⟨[], (append_nil _).symm, rfl⟩

theorem NoPost.of_ops (h : NoPost c c') {c'' : Controller M B} (hops : c''.ops = c'.ops) : NoPost c c'' := by
  rw [NoPost, hops]
  exact h

theorem NoPost.note (h : NoPost c c') {op : RingOp} (hop : op.isPost = false) : NoPost c (c'.note op) := by
  obtain ⟨ops, heq, hany⟩ := h
  refine ⟨ops ++ [op], ?_, ?_⟩
  · rw [← append_assoc, ← heq]
    rfl
  · rw [any_append, hany, any_cons, hop, any_nil]
    rfl

theorem keeps_writeCC_noPost (value : UInt32) : Keeps (NoPost c) (writeCC E value) := by
  have hset {f : Controller M B → Controller M B} (hops : ∀ c, (f c).ops = c.ops) : Keeps (NoPost c) (change f) :=
    keeps_update fun c h => h.of_ops (hops c)
  refine (keeps_read _).bind fun wasEnabled => Keeps.bind (hset fun _ => rfl) fun _ => keeps_ite ?_ ?_
  · refine Keeps.bind (hset fun _ => rfl) fun _ => keeps_ite ?_ (keeps_pure _)
    refine Keeps.bind (keeps_update fun c h => ?_) fun _ => keeps_require _ _
    exact NoPost.note (h.of_ops rfl) rfl
  · refine Keeps.bind (hset fun _ => rfl) fun _ => Keeps.bind (keeps_update fun c h => ?_) fun _ => hset fun _ => rfl
    exact NoPost.note (h.of_ops rfl) rfl

/-- A write that submits no command writes no completion. -/
theorem writeMmio_noPost (E : NvmeEnv M B) (hturns : 0 < turns) (hs : Sound c) {offset value : UInt64}
    (hnone : SubmitsNone c (.mmio offset value)) : NoPost c (writeMmio E turns offset value c).2 := by
  refine triple_state.mp (writeMmio_triple E (P := NoPost c) (fun h _ _ hops => h.of_ops hops) (fun h => h) (.refl c)
    (fun _ => (keeps_writeCC_noPost _).of_state (.refl c)) (fun p hp hfind => ?_) fun p _ _ => ?_)
  · obtain ⟨q, hq, -⟩ := hs.found hfind
    obtain ⟨n, rfl⟩ : ∃ n, turns = n + 1 := ⟨turns - 1, by omega⟩
    have hhead := hnone p hp
    rw [Controller.queue_eq hq] at hhead
    obtain ⟨-, q', hq', -, -, hhead', htail'⟩ := submit_inLoop hs hq (doorbellQueue (offset - doorbellBase))
      value.toUInt32.toUInt16
    rintro _ rfl
    rw [processSubmissionQueue, read_bind, Controller.queue_eq hq', if_pos (by rw [hhead', htail', hhead])]
    refine updateIRQ_triple E (P := NoPost c) (fun h _ _ hops => h.of_ops hops) (fun h => h) _ ?_
    exact NoPost.note (.of_ops (.refl c) rfl) rfl
  · exact NoPost.note (.of_ops (.refl c) rfl) rfl

end NoPost

/-- Completions have been written since the last message only while `irqHigh` is low, and it is high where one waits. -/
structure Spacing (l : Listened M B) : Prop where
  sound : Sound l.ctl
  shown : Shown l.ctl
  heard : l.ctl.irqHigh = true → l.since.any RingOp.isPost = false

theorem Spacing.listen {E : NvmeEnv M B} (hmsi : E.msi = some true) (hirq : E.setIRQ false = true) {turns : Nat}
    (hturns : 65536 < turns) (l : Listened M B) (e : NvmeEvent M) (h : Spacing l) (he : Spaced E turns l e) :
    Spacing (listen E turns l e) := by
  have hstep : Shown (step E turns l.ctl e) ∧ (l.ctl.irqHigh = true →
      ((step E turns l.ctl e).ops.drop l.ctl.ops.length).any RingOp.isPost = false) := by
    cases e with
    | guest m => exact ⟨h.shown, fun _ => by simp [step]⟩
    | mmio offset value =>
      constructor
      · rcases (writeMmio_shown hmsi hirq hturns h.sound h.shown he.1).ends rfl with ⟨_, c, hx, hend⟩ | ⟨_,
          _, _, hfalse⟩
        · rw [step, hx]
          exact hend
        · exact hfalse.elim
      · intro hwas
        obtain ⟨ops, heq, hany⟩ := writeMmio_noPost E (Nat.zero_lt_of_lt hturns) h.sound (he.2 hwas)
        rw [step, heq, drop_left, hany]
  refine ⟨step_sound E hturns l.ctl e h.sound (he.1.bounded E fun _ _ h => h.1.1), hstep.1, fun hhigh => ?_⟩
  unfold Nvme.listen at hhigh ⊢
  dsimp only at hhigh ⊢
  rw [hmsi, hhigh]
  by_cases hwas : l.ctl.irqHigh = true
  · simp [hwas, h.heard hwas, hstep.2 hwas]
  · simp [hwas]

/-- Message-signalled interrupts, and a ring of four admin commands that do nothing. -/
def msiEnv : NvmeEnv Bytes Unit := { listEnv with msi := some true }

def listening : Listened Bytes Unit := { ctl := newController (List.replicate 256 0xff) () }

/-- The next command is an admin command that does nothing. -/
def Idle (c : Controller Bytes Unit) (p : Nat) : Prop :=
  (c.queue p).id = adminQueueID ∧ ∃ cmd ∈ commandAt msiEnv c p, cmd.opcode = 0xff
deriving Decidable

theorem Idle.served {c : Controller Bytes Unit} {p : Nat} (h : Idle c p) : Served msiEnv c p := by
  obtain ⟨hid, cmd, hcmd, hop⟩ := h
  refine ⟨⟨fun _ cmd' hcmd' => ?_, fun hne => absurd hid hne⟩, fun _ => ⟨⟨cmd, hcmd, ?_⟩, .inr fun _ _ _ => rfl⟩⟩
  · rw [hcmd] at hcmd'
    cases hcmd'
    simp [NvmeCommand.Resizes, hop, adminCreateCQ, adminCreateSQ]
  · simp [AdminMapped, hop, adminIdentify, adminGetLogPage]

/-- Each completion is taken before the next command is submitted. -/
def inTurn : List (NvmeEvent Bytes) :=
  enableAdmin 4 ++ [.mmio doorbellBase 1, .mmio (doorbellBase + 4) 1, .mmio doorbellBase 2]

end CrumbleCracker.Nvme
