import CrumbleCracker.Lib.Turns
import CrumbleCracker.Nvme.Transfer

/-!
# MMIO writes end

A write to a register or a doorbell ends with a value or a Go error, in every run in which each submission doorbell gets
a value inside its ring and no create command names queue 0 or asks for 65536 entries (`writeMmio_ends`). A value at or
beyond the ring makes the loop run for ever, and a queue of 65536 entries has size 0, by which the loop divides
(`doorbell_spins_and_panics`).
-/

namespace CrumbleCracker.Nvme

open Prog List Controller

variable {M B : Type} {c c' : Controller M B} {q : NvmeQueue} {head id size tail : UInt16} {cmd : NvmeCommand}

/-! ## Records -/

structure Sound (c : Controller M B) : Prop where
  sized : ∀ {k : Nat} {q : NvmeQueue}, c.heap[k]? = some q → q.size ≠ 0
  listed : ∀ e ∈ c.queues, ∃ q : NvmeQueue, c.heap[e.2]? = some q ∧ q.id = e.1

/-- The record at `p`, as the loop over it goes. -/
def Ring (c : Controller M B) (p : Nat) (id size head tail : UInt16) : Prop :=
  ∃ q : NvmeQueue, c.heap[p]? = some q ∧ q.id = id ∧ q.size = size ∧ q.sqHead = head ∧ q.sqTail = tail

variable {p : Nat}

theorem Controller.queue_eq (h : c.heap[p]? = some q) : c.queue p = q := by
  rw [queue, getD_eq_getElem?_getD, h]
  rfl

theorem getElem?_modifyQueue (c : Controller M B) (p : Nat) (f : NvmeQueue → NvmeQueue) (k : Nat) :
    (c.modifyQueue p f).heap[k]? = if p = k then c.heap[k]?.map f else c.heap[k]? := by
  show (c.heap.modify p f)[k]? = _
  rw [getElem?_modify]
  split
  · rfl
  · exact id_map _

variable {k : Nat}

theorem getElem?_newQueue (c : Controller M B) (id : UInt16) (q : NvmeQueue) {q' : NvmeQueue}
    (h : (c.newQueue id q).heap[k]? = some q') : c.heap[k]? = some q' ∨ (k = c.heap.length ∧ q' = q) := by
  change (c.heap ++ [q])[k]? = some q' at h
  rcases lt_trichotomy k c.heap.length with hk | hk | hk
  · rw [getElem?_append_left hk] at h
    exact .inl h
  · subst hk
    rw [getElem?_append_right (Nat.le_refl _), Nat.sub_self] at h
    exact .inr ⟨rfl, (Option.some.inj h).symm⟩
  · rw [getElem?_eq_none (by rw [length_append, length_singleton]; omega)] at h
    cases h

theorem getElem?_newQueue_of_some (c : Controller M B) (id : UInt16) (q : NvmeQueue) {q' : NvmeQueue}
    (h : c.heap[k]? = some q') : (c.newQueue id q).heap[k]? = some q' := by
  show (c.heap ++ [q])[k]? = some q'
  rw [getElem?_append_left (List.getElem?_eq_some_iff.1 h).1, h]

theorem find_mem (h : c.find id = some k) : (id, k) ∈ c.queues := by
  unfold find at h
  obtain ⟨l₁, l₂, heq, -⟩ := lookup_eq_some_iff.1 h
  rw [heq]
  exact mem_append_right _ mem_cons_self

namespace Sound

variable {c : Controller M B}

theorem found (h : Sound c) (hk : c.find id = some k) : ∃ q, c.heap[k]? = some q ∧ q.id = id :=
  h.listed _ (find_mem hk)

theorem id_eq (h : Sound c) (hk : c.find id = some k) (hq : c.heap[k]? = some q) : q.id = id := by
  obtain ⟨q', hq', hid⟩ := h.found hk
  rw [hq] at hq'
  cases hq'
  exact hid

theorem of_eq (h : Sound c) (hheap : c'.heap = c.heap) (hqueues : c'.queues = c.queues) : Sound c' := by
  refine ⟨by rw [hheap]; exact h.sized, ?_⟩
  rw [hheap, hqueues]
  exact h.listed

theorem quiet (h : Sound c) (hq : Quiet c c') : Sound c' := h.of_eq hq.heap hq.queues

theorem modify (h : Sound c) (p : Nat) {f : NvmeQueue → NvmeQueue}
    (hf : ∀ q, (f q).id = q.id ∧ (q.size ≠ 0 → (f q).size ≠ 0)) : Sound (c.modifyQueue p f) := by
  constructor
  · intro k q hq
    rw [getElem?_modifyQueue] at hq
    split at hq
    · obtain ⟨q₀, hq₀, rfl⟩ := Option.map_eq_some_iff.1 hq
      exact (hf q₀).2 (h.sized hq₀)
    · exact h.sized hq
  · intro e he
    obtain ⟨q, hq, hqid⟩ := h.listed e he
    rw [getElem?_modifyQueue]
    split
    · exact ⟨f q, by rw [hq]; rfl, (hf q).1.trans hqid⟩
    · exact ⟨q, hq, hqid⟩

theorem new (h : Sound c) (hid : q.id = id) (hsize : q.size ≠ 0) : Sound (c.newQueue id q) := by
  constructor
  · intro k q' hq
    rcases getElem?_newQueue c id q hq with hq | ⟨-, rfl⟩
    · exact h.sized hq
    · exact hsize
  · intro e he
    rcases mem_cons.1 he with rfl | he
    · refine ⟨q, ?_, hid⟩
      show (c.heap ++ [q])[c.heap.length]? = some q
      rw [getElem?_append_right (Nat.le_refl _), Nat.sub_self]
      rfl
    · obtain ⟨q', hq', hid'⟩ := h.listed e (mem_of_mem_filter he)
      exact ⟨q', getElem?_newQueue_of_some c id q hq', hid'⟩

theorem note (h : Sound c) (op : RingOp) : Sound (c.note op) := ⟨h.sized, h.listed⟩

end Sound

namespace Ring

variable {c : Controller M B} {p : Nat} {id size head tail : UInt16}

section

variable (h : Ring c p id size head tail)

include h

theorem quiet (hq : Quiet c c') : Ring c' p id size head tail := by
  rw [Ring, hq.heap]
  exact h

theorem modify (k : Nat) {f : NvmeQueue → NvmeQueue}
    (hf : ∀ q, (f q).id = q.id ∧ (f q).size = q.size ∧ (f q).sqHead = q.sqHead ∧ (f q).sqTail = q.sqTail) :
    Ring (c.modifyQueue k f) p id size head tail := by
  obtain ⟨q, hq, hid, hsize, hhead, htail⟩ := h
  rw [Ring, getElem?_modifyQueue]
  split
  · obtain ⟨hid', hsize', hhead', htail'⟩ := hf q
    exact ⟨f q, by rw [hq]; rfl, hid'.trans hid, hsize'.trans hsize, hhead'.trans hhead, htail'.trans htail⟩
  · exact ⟨q, hq, hid, hsize, hhead, htail⟩

theorem other (hk : k ≠ p) (f : NvmeQueue → NvmeQueue) : Ring (c.modifyQueue k f) p id size head tail := by
  rw [Ring, getElem?_modifyQueue, if_neg hk]
  exact h

theorem new (id' : UInt16) (q' : NvmeQueue) : Ring (c.newQueue id' q') p id size head tail := by
  obtain ⟨q, hq, hrest⟩ := h
  exact ⟨q, getElem?_newQueue_of_some c id' q' hq, hrest⟩

end

end Ring

/-! ## Creating queues -/

variable (E : NvmeEnv M B)

theorem cacheQueueMemory_eq (m : M) (q : NvmeQueue) :
    ∃ sqMem cqMem, cacheQueueMemory E m q = { q with sqMem, cqMem } := by
  unfold cacheQueueMemory
  split
  · exact ⟨_, _, rfl⟩
  · dsimp only
    split
    · split
      · exact ⟨_, _, rfl⟩
      · exact ⟨_, _, rfl⟩
    · split
      · exact ⟨_, _, rfl⟩
      · exact ⟨_, _, rfl⟩

theorem cacheQueueMemory_id (m : M) (q : NvmeQueue) : (cacheQueueMemory E m q).id = q.id := by
  obtain ⟨s, k, heq⟩ := cacheQueueMemory_eq E m q
  rw [heq]

theorem cacheQueueMemory_size (m : M) (q : NvmeQueue) : (cacheQueueMemory E m q).size = q.size := by
  obtain ⟨s, k, heq⟩ := cacheQueueMemory_eq E m q
  rw [heq]

theorem completionRecord_eq (cmd : NvmeCommand) (m : M) (q : NvmeQueue) :
    ∃ sqMem cqMem, completionRecord E cmd m q = { q with
      size := cmd.sizeField + 1, cqAddr := cmd.prp1, cqPhase := true,
      interrupts := cmd.cdw11 &&& 2 ≠ 0, sqMem, cqMem } :=
  cacheQueueMemory_eq E m _

theorem submissionRecord_eq (cmd : NvmeCommand) (m : M) (q : NvmeQueue) :
    ∃ sqMem cqMem, submissionRecord E cmd m q = { q with
      size := cmd.sizeField + 1, sqAddr := cmd.prp1, cqID := (cmd.cdw11 >>> 16).toUInt16, sqMem, cqMem } :=
  cacheQueueMemory_eq E m _

theorem modify_length {α : Type} (l : List α) (a : α) (f : α → α) : (l ++ [a]).modify l.length f = l ++ [f a] := by
  induction l with
  | nil => rfl
  | cons b l ih => exact congrArg (b :: ·) ih

/-- What a create command does: a change to the record of that number, or to a new one. -/
theorem create_run (id : UInt16) (f : M → NvmeQueue → NvmeQueue) (op : RingOp) (c : Controller M B) :
    createQueue id f op c =
    (.ok (), match c.find id with
      | some k => (c.modifyQueue k (f c.mem)).note op
      | none => (c.newQueue id (f c.mem { id := id })).note op) := by
  rw [createQueue, bind_run]
  simp only [ensureQueue, update_run]
  rcases c.find id with - | k
  · have hheap := modify_length c.heap { id := id } (f c.mem)
    simp only [change, update_run, modifyQueue, newQueue, hheap]
  · rfl

theorem sizeField_succ (h : cmd.sizeField ≠ 0xffff) : cmd.sizeField + 1 ≠ 0 := by
  intro heq
  apply h
  have := congrArg UInt16.toNat heq
  rw [UInt16.toNat_add] at this
  apply UInt16.toNat.inj
  have hlt := cmd.sizeField.toNat_lt
  simp at this ⊢
  omega

section Create

variable {id : UInt16} {f : M → NvmeQueue → NvmeQueue} {c : Controller M B}

theorem Sound.create (h : Sound c) (hid : ∀ m q, (f m q).id = q.id) (hsize : ∀ m q, (f m q).size ≠ 0) (op : RingOp) :
    Sound (match c.find id with
      | some k => (c.modifyQueue k (f c.mem)).note op
      | none => (c.newQueue id (f c.mem { id := id })).note op) := by
  split
  · exact (h.modify _ fun q => ⟨hid c.mem q, fun _ => hsize c.mem q⟩).note op
  · exact (h.new (hid c.mem _) (hsize c.mem _)).note op

theorem Ring.create {id' : UInt16} (h : Ring c p id' size head tail) (hs : Sound c) (hne : id ≠ id') (op : RingOp) :
    Ring (match c.find id with
      | some k => (c.modifyQueue k (f c.mem)).note op
      | none => (c.newQueue id (f c.mem { id := id })).note op) p id' size head tail := by
  split
  · rename_i k hk
    refine h.other ?_ _
    rintro rfl
    obtain ⟨q, hq, hqid, -⟩ := h
    exact hne ((hs.id_eq hk hq).symm.trans hqid)
  · exact h.new id _

end Create

/-! ## The loop -/

section Rules

variable (E : NvmeEnv M B) {p : Nat} {R : Controller M B → Prop} {F : NvmeFault → Controller M B → Prop}

/-- A command is executed, and noted on its queue however it ends. -/
theorem executeFor_rule {P : Controller M B → Prop} {id : UInt16} (slot : UInt16)
    (hexecute : Triple P (executeCommand E id cmd) (fun _ => R) F)
    (hR : ∀ {c} x, R c → R (c.modifyQueue p fun q => { q with executed := q.executed ++ [x] }))
    (hF : ∀ {e c} x, F e c → F e (c.modifyQueue p fun q => { q with executed := q.executed ++ [x] })) :
    Triple P (executeFor E p id slot cmd) (fun _ => R) F := by
  refine Triple.bind (Q := fun _ => P) (triple_read fun _ h => h) fun failed => Triple.bind hexecute.attempt fun r => ?_
  cases r with
  | ok a => exact Triple.bind (Q := fun _ => R) (triple_update fun c h => hR _ h) fun _ => triple_pure fun _ h => h
  | error e => exact Triple.bind (Q := fun _ => F e) (triple_update fun c h => hF _ h) fun _ => triple_fail fun _ h => h

/-- A completion is stored in the ring of the record it goes to, and noted on the queue of the command. -/
theorem complete_rule {cid status : UInt16} (hs : Sound c) (hq : c.heap[p]? = some q) (result : UInt32)
    (hfail : ∀ {e c₁}, e.IsError → Quiet c c₁ → F e c₁)
    (hpost : ∀ {k qk c₁}, (if q.id = adminQueueID then some p else c.find q.cqID) = some k → c₁.heap[k]? = some qk →
      Quiet c c₁ → R (((c₁.modifyQueue k fun q => q.posted ((qk.cqTail + 1) % qk.size)).note
        (.post qk.id qk.cqTail qk.cqPhase)).modifyQueue p fun q =>
          { q with completed := q.completed ++ [⟨cid, status⟩] })) :
    Triple (· = c) (complete E p cid result status) (fun _ => R) F := by
  rintro c rfl
  simp only [complete, bind_run, read_run, queue_eq hq]
  rcases hcq : (if q.id = adminQueueID then some p else c.find q.cqID) with - | k
  · exact hfail (e := .completionQueueMissing) (by decide) (.refl c)
  -- the record the completion goes to is there
  obtain ⟨qk, hqk⟩ : ∃ qk, c.heap[k]? = some qk := by
    split at hcq
    · cases hcq
      exact ⟨q, hq⟩
    · obtain ⟨qk, hqk, -⟩ := hs.found hcq
      exact ⟨qk, hqk⟩
  have hne := hs.sized hqk
  simp only [ofOption, pure_run, writeCompletion, bind_run, read_run, queue_eq hqk]
  rcases (moves_storeCompletion E qk (completionEntry qk.cqPhase q.id q.sqHead cid result status) c).ends (.refl c) with
    ⟨_, c₁, hx, -, hquiet⟩ | ⟨e, c₁, hx, he, hquiet⟩ <;> rw [hx]
  · simp only [advance, if_neg hne, pure_run, change, update_run]
    exact hpost hcq (by rw [hquiet.heap, hqk]) hquiet
  · exact hfail he hquiet

end Rules

/-- The records are sound, and the loop over `p` stands at `head`. -/
def InLoop (p : Nat) (id size tail head : UInt16) (c : Controller M B) : Prop := Sound c ∧ Ring c p id size head tail

section Loop

variable (E : NvmeEnv M B) {p : Nat} {id size tail head : UInt16}

def Failed (e : NvmeFault) (c : Controller M B) : Prop := e.IsError ∧ Sound c

theorem InLoop.quiet (h : InLoop p id size tail head c) (hq : Quiet c c') : InLoop p id size tail head c' :=
  ⟨h.1.quiet hq, h.2.quiet hq⟩

theorem Moves.inLoop {α : Type} {x : NvmeProg M B α} {Q : α → Prop} (h : Moves Quiet x Q) :
    Triple (InLoop p id size tail head) x (fun _ => InLoop p id size tail head) Failed :=
  (h.triple InLoop.quiet).conseq (fun _ h => h) (fun _ _ h => h.2) fun _ _ h => ⟨h.1, h.2.1⟩

/-- A create command asks for fewer than 65536 entries and does not name queue 0. -/
def NvmeCommand.Resizes (cmd : NvmeCommand) : Prop :=
  (cmd.opcode = adminCreateCQ ∨ cmd.opcode = adminCreateSQ) ∧ (cmd.qid = adminQueueID ∨ cmd.sizeField = 0xffff)
deriving Decidable

theorem create_inLoop {f : M → NvmeQueue → NvmeQueue} {op : RingOp} (hid : ∀ m q, (f m q).id = q.id)
    (hsize : ∀ m q, (f m q).size = cmd.sizeField + 1) (hfield : cmd.sizeField ≠ 0xffff) (hne : cmd.qid ≠ id) :
    Triple (InLoop p id size tail head) (createQueue cmd.qid f op : NvmeProg M B Unit)
      (fun _ => InLoop p id size tail head)
      Failed := by
  intro c hc
  rw [create_run]
  refine ⟨hc.1.create hid (fun m q => ?_) op, hc.2.create hc.1 hne op⟩
  rw [hsize]
  exact sizeField_succ hfield

theorem deleteQueue_inLoop (qid : UInt16) (op : RingOp) :
    Triple (InLoop p id size tail head) (deleteQueue qid op : NvmeProg M B Unit) (fun _ => InLoop p id size tail head)
      Failed := by
  intro c hc
  exact ⟨⟨hc.1.sized, fun e he => hc.1.listed e (mem_of_mem_filter he)⟩, hc.2⟩

theorem executeAdmin_inLoop (hcmd : ¬cmd.Resizes) (hid : id = adminQueueID) :
    Triple (InLoop p id size tail head) (executeAdmin E cmd) (fun _ => InLoop p id size tail head) Failed := by
  have hcreate : cmd.opcode = adminCreateCQ ∨ cmd.opcode = adminCreateSQ → cmd.sizeField ≠ 0xffff ∧ cmd.qid ≠ id := by
    intro hop
    rw [hid]
    exact ⟨fun h => hcmd ⟨hop, .inr h⟩, fun h => hcmd ⟨hop, .inl h⟩⟩
  refine executeAdmin_triple E (fun hop => ?_) (fun hop => ?_) (fun _ => deleteQueue_inLoop _ _)
    (fun _ => deleteQueue_inLoop _ _) Moves.inLoop
  · obtain ⟨hfield, hne⟩ := hcreate (.inl hop)
    exact create_inLoop (fun m q => cacheQueueMemory_id E m _) (fun m q => cacheQueueMemory_size E m _) hfield hne
  · obtain ⟨hfield, hne⟩ := hcreate (.inr hop)
    exact create_inLoop (fun m q => cacheQueueMemory_id E m _) (fun m q => cacheQueueMemory_size E m _) hfield hne

theorem executeFor_inLoop (slot : UInt16) (hcmd : id = adminQueueID → ¬cmd.Resizes) :
    Triple (InLoop p id size tail head) (executeFor E p id slot cmd) (fun _ => InLoop p id size tail head) Failed := by
  have hexecute : Triple (InLoop p id size tail head) (executeCommand E id cmd) (fun _ => InLoop p id size tail head)
      Failed := by
    refine triple_ite (fun hid => executeAdmin_inLoop E (hcmd hid) hid) fun _ => ?_
    exact (moves_executeIo E cmd).inLoop
  exact executeFor_rule E slot hexecute (fun _ h => ⟨h.1.modify p (by simp), h.2.modify p (by simp)⟩)
    fun _ h => ⟨h.1, h.2.modify p (by simp)⟩

theorem advanceHead_run (hs : Sound c) (hq : c.heap[p]? = some q) : advanceHead p c =
    (.ok (), (c.modifyQueue p fun q' => { q' with sqHead := (q.sqHead + 1) % q.size }).note (.fetch q.id)) := by
  simp only [advanceHead, bind_run, read_run, queue_eq hq, advance, if_neg (hs.sized hq), pure_run, change,
    update_run]

theorem advanceHead_inLoop : Triple (InLoop p id size tail head) (advanceHead p : NvmeProg M B Unit)
      (fun _ => InLoop p id size tail ((head + 1) % size)) Failed := by
  intro c hc
  obtain ⟨hs, q, hq, hid, hsize, hhead, htail⟩ := hc
  rw [advanceHead_run hs hq]
  refine ⟨Sound.note (hs.modify p (by simp)) _, ?_⟩
  refine ⟨{ q with sqHead := (q.sqHead + 1) % q.size }, ?_, hid, hsize, ?_, htail⟩
  · show (c.modifyQueue p _).heap[p]? = _
    rw [getElem?_modifyQueue, if_pos rfl, hq]
    rfl
  · show (q.sqHead + 1) % q.size = _
    rw [hhead, hsize]

theorem complete_inLoop (cid : UInt16) (result : UInt32) (status : UInt16) :
    Triple (InLoop p id size tail head) (complete E p cid result status)
      (fun _ => InLoop p id size tail head) Failed := by
  intro c hc
  have hring := hc.2
  obtain ⟨q, hq, hid, -⟩ := hring
  refine complete_rule E hc.1 hq result (fun he h => ⟨he, hc.1.quiet h⟩) (fun {k qk c₁} _ _ h => ?_) c rfl
  have hc₁ := hc.quiet h
  refine ⟨Sound.modify (Sound.note (hc₁.1.modify k ?_) _) p (by simp), Ring.modify (hc₁.2.modify k ?_) p (by simp)⟩
  · exact fun _ => ⟨rfl, fun h => h⟩
  · exact fun _ => ⟨rfl, rfl, rfl, rfl⟩

def commandAt (c : Controller M B) (p : Nat) : Option NvmeCommand :=
  match ((submissionEntry E (c.queue p) >>= parseCommand : NvmeProg M B NvmeCommand) c).1 with
  | .ok cmd => some cmd
  | .error _ => none

/-- The next command, if it is an admin command, leaves the size of every queue below 65536 and queue 0 alone. -/
def KeepsSizes (c : Controller M B) (p : Nat) : Prop :=
  (c.queue p).id = adminQueueID → ∀ cmd ∈ commandAt E c p, ¬cmd.Resizes
deriving Decidable

/-- One turn reads the command at the head, and executes and answers it unless it is an asynchronous event request. -/
theorem turn_triple {P : Controller M B → Prop} {F : NvmeFault → Controller M B → Prop} (hq : c.heap[p]? = some q)
    (hread : ∀ {e c₁}, e.IsError → Quiet c c₁ → F e c₁)
    (hevent : ∀ {c₁}, Quiet c c₁ → Triple (· = c₁) (advanceHead p) (fun _ => P) F)
    (hexecute : ∀ {cmd c₁}, commandAt E c p = some cmd → Quiet c c₁ → Triple (· = c₁)
      (executeFor E p q.id q.sqHead cmd >>= fun r => advanceHead p >>= fun _ => complete E p cmd.cid r.1 r.2)
      (fun _ => P) F) :
    Triple (· = c) (turn E p) (fun _ => P) F := by
  rintro c rfl
  rw [turn, read_bind, queue_eq hq, ← Prog.bind_assoc, bind_run]
  rcases (moves_command E q c).ends (Quiet.refl c) with ⟨cmd, c₁, hx, -, hquiet⟩ | ⟨e, c₁, hx, he, hquiet⟩ <;> rw [hx]
  · refine triple_ite (fun _ => hevent hquiet) (fun _ => hexecute ?_ hquiet) c₁ rfl
    rw [commandAt, queue_eq hq, hx]
  · exact hread he hquiet

theorem turn_inLoop (hc : InLoop p id size tail head c) (hk : KeepsSizes E c p) :
    Triple (· = c) (turn E p) (fun _ => InLoop p id size tail ((head + 1) % size)) Failed := by
  obtain ⟨q, hq, rfl, -⟩ := hc.2
  refine turn_triple E hq (fun he h => ⟨he, hc.1.quiet h⟩) (fun h => ?_) fun {cmd c₁} hat h => ?_
  · exact advanceHead_inLoop.of_state (hc.quiet h)
  · have hcmd : q.id = adminQueueID → ¬cmd.Resizes := fun h0 => hk (by rw [queue_eq hq, h0]) cmd hat
    refine Triple.bind ((executeFor_inLoop E q.sqHead hcmd).of_state (hc.quiet h)) fun r => ?_
    exact Triple.bind advanceHead_inLoop fun _ => complete_inLoop E cmd.cid r.1 r.2

end Loop

/-! ## The turns up to the tail -/

/-- The turns the loop takes from `head` to `tail`; a head outside the ring is brought into it by the first. -/
def ringDistance (size head tail : UInt16) : Nat :=
  if size ≤ head then size.toNat + 1
  else if head ≤ tail then tail.toNat - head.toNat
  else tail.toNat + size.toNat - head.toNat

theorem ringDistance_le (size head tail : UInt16) (htail : tail < size) : ringDistance size head tail ≤ 65536 := by
  have hsize := size.toNat_lt
  rw [UInt16.lt_iff_toNat_lt] at htail
  unfold ringDistance
  simp only [UInt16.le_iff_toNat_le]
  split
  · omega
  split
  · omega
  · omega

theorem ringDistance_step (htail : tail < size) (hne : head ≠ tail) :
    ringDistance size ((head + 1) % size) tail < ringDistance size head tail := by
  have hsize := size.toNat_lt
  have hhead := head.toNat_lt
  rw [UInt16.lt_iff_toNat_lt] at htail
  have hne' : head.toNat ≠ tail.toNat := fun h => hne (UInt16.toNat.inj h)
  have hnext : ((head + 1) % size).toNat = (head.toNat + 1) % 2 ^ 16 % size.toNat := by
    rw [UInt16.toNat_mod, UInt16.toNat_add]
    rfl
  have hlt : ((head + 1) % size).toNat < size.toNat := by
    rw [hnext]
    exact Nat.mod_lt _ (by omega)
  -- inside the ring the head goes up by one, or back to the start
  have hmoves : head.toNat < size.toNat →
      ((head + 1) % size).toNat = if head.toNat + 1 = size.toNat then 0 else head.toNat + 1 := by
    intro hin
    rw [hnext, Nat.mod_eq_of_lt (show head.toNat + 1 < 2 ^ 16 by omega)]
    split
    · rename_i heq
      rw [heq, Nat.mod_self]
    · exact Nat.mod_eq_of_lt (by omega)
  unfold ringDistance
  simp only [UInt16.le_iff_toNat_le]
  rw [if_neg (by omega)]
  by_cases hin : head.toNat < size.toNat
  · rw [hmoves hin, if_neg (show ¬size.toNat ≤ head.toNat by omega)]
    split
    · split <;> split <;> omega
    · split <;> split <;> omega
  · rw [if_pos (show size.toNat ≤ head.toNat by omega)]
    split
    · omega
    · omega

/-- The record whose submission doorbell is at `offset`. -/
def submissionDoorbell (c : Controller M B) (offset : UInt64) : Option Nat :=
  if doorbellBase ≤ offset ∧ (offset - doorbellBase) / 4 % 2 = 0 then c.find (doorbellQueue (offset - doorbellBase))
    else none

def completionDoorbell (c : Controller M B) (offset : UInt64) : Option Nat :=
  if doorbellBase ≤ offset ∧ (offset - doorbellBase) / 4 % 2 ≠ 0 then c.find (doorbellQueue (offset - doorbellBase))
    else none

section Ends

variable (E : NvmeEnv M B)

section Rules

variable {P : Controller M B → Prop} {F : NvmeFault → Controller M B → Prop}
  (hP : ∀ {c c' : Controller M B}, P c → c'.heap = c.heap → c'.queues = c.queues → c'.ops = c.ops → P c')
  (hF : ∀ {c}, P c → F .irq c)

include hP hF

/-- What depends on the queues alone is kept by `updateIRQ`. -/
theorem updateIRQ_triple : Triple P (updateIRQ E) (fun _ => P) F := by
  refine Triple.bind (Q := fun _ => P) (triple_read fun _ h => h) fun high => ?_
  refine Triple.bind (Q := fun _ => P) (triple_read fun _ h => h) fun was => ?_
  refine triple_ite (fun _ => triple_pure fun _ h => h) fun _ => ?_
  refine Triple.bind (Q := fun _ => P) (triple_update fun c h => hP h rfl rfl rfl) fun _ => ?_
  split
  · exact triple_require (fun _ h _ => h) fun _ h _ => hF h
  · exact triple_require (fun _ h _ => h) fun _ h _ => hF h

/-- The registers but `regCC` and the doorbells leave the queues alone. A doorbell starts the loop with a new tail, or
moves the head of the completions. -/
theorem writeMmio_triple {turns : Nat} {offset value : UInt64} (hc : P c)
    (hcc : offset = regCC → Triple (· = c) (writeCC E value.toUInt32) (fun _ => P) F)
    (hsubmit : ∀ p ∈ submissionDoorbell c offset, c.find (doorbellQueue (offset - doorbellBase)) = some p →
      Triple (· = c.submit p (doorbellQueue (offset - doorbellBase)) value.toUInt32.toUInt16)
        (processSubmissionQueue E p turns) (fun _ => P) F)
    (hconsume : ∀ p ∈ completionDoorbell c offset, c.find (doorbellQueue (offset - doorbellBase)) = some p →
      P ((c.modifyQueue p fun q => q.advanceCompletionHead value.toUInt32.toUInt16).note
        (.consume (doorbellQueue (offset - doorbellBase)) value.toUInt32.toUInt16))) :
    Triple (· = c) (writeMmio E turns offset value) (fun _ => P) F := by
  have hset : ∀ {f : Controller M B → Controller M B}, (f c).heap = c.heap → (f c).queues = c.queues →
      (f c).ops = c.ops →
      Triple (· = c) (change f : NvmeProg M B Unit) (fun _ => P) F :=
    fun hheap hqueues hops => triple_update fun c' h => h ▸ hP hc hheap hqueues hops
  unfold writeMmio
  refine triple_ite (fun _ => (hset rfl rfl rfl).bind fun _ => updateIRQ_triple E hP hF) fun _ => ?_
  refine triple_ite (fun _ => (hset rfl rfl rfl).bind fun _ => updateIRQ_triple E hP hF) fun _ => ?_
  refine triple_ite hcc fun _ => triple_ite (fun _ => hset rfl rfl rfl) fun _ => ?_
  refine triple_ite (fun _ => hset rfl rfl rfl) fun _ => triple_ite (fun _ => hset rfl rfl rfl) fun _ => ?_
  refine triple_ite (fun _ => hset rfl rfl rfl) fun _ => triple_ite (fun _ => hset rfl rfl rfl) fun _ => ?_
  refine triple_ite (fun hbase => ?_) fun _ => triple_pure fun c' h => h ▸ hc
  rintro c rfl
  rw [writeDoorbell, read_bind]
  rcases hfind : c.find (doorbellQueue (offset - doorbellBase)) with - | p
  · exact hc
  dsimp only
  by_cases heven : (offset - doorbellBase) / 4 % 2 = 0
  · rw [if_pos heven]
    refine hsubmit p ?_ hfind _ rfl
    rw [submissionDoorbell, if_pos ⟨hbase, heven⟩]
    exact hfind
  · rw [if_neg heven]
    refine updateIRQ_triple E hP hF _ (hconsume p ?_ hfind)
    rw [completionDoorbell, if_pos ⟨hbase, heven⟩]
    exact hfind

end Rules

/-- `P` holds at each turn of the loop over `p`, up to `n` turns. -/
def TurnsMeet (P : Controller M B → Nat → Prop) (p : Nat) : Nat → Controller M B → Prop
  | 0, _ => True
  | n + 1, c => (c.queue p).sqHead ≠ (c.queue p).sqTail →
    P c p ∧ ((turn E p c).1.isOk = true → TurnsMeet P p n (turn E p c).2)

instance instDecidableTurnsMeet (P : Controller M B → Nat → Prop) [∀ c p, Decidable (P c p)] (p : Nat) :
    ∀ n c, Decidable (TurnsMeet E P p n c)
  | 0, _ => isTrue trivial
  | n + 1, c =>
    have : Decidable (TurnsMeet E P p n (turn E p c).2) := instDecidableTurnsMeet P p n _
    inferInstanceAs (Decidable (_ → _ ∧ (_ → _)))

/-- The rule of the loop: `J` counts the turns left and follows the head, one turn after the other. -/
theorem processSubmissionQueue_rule {J : Nat → UInt16 → Controller M B → Prop} {P : Controller M B → Nat → Prop}
    {R : Controller M B → Prop} {F : NvmeFault → Controller M B → Prop}
    (hring : ∀ {n head c}, J n head c → Ring c p id size head tail) (hzero : ∀ {head c}, J 0 head c → F .unfinished c)
    (hend : ∀ {n c}, J (n + 1) tail c → Triple (· = c) (updateIRQ E) (fun _ => R) F)
    (hturn : ∀ {n head c}, head ≠ tail → J (n + 1) head c → P c p →
      Triple (· = c) (turn E p) (fun _ => J n ((head + 1) % size)) F)
    {n : Nat} (hc : J n head c) (hP : TurnsMeet E P p n c) :
    Triple (· = c) (processSubmissionQueue E p n) (fun _ => R) F := by
  rintro c rfl
  induction n generalizing head c with
  | zero => exact hzero hc
  | succ n ih =>
    obtain ⟨q, hq, -, -, hhead, htail⟩ := hring hc
    have hqueue := queue_eq hq
    rw [processSubmissionQueue, read_bind, hqueue, hhead, htail]
    by_cases hne : head = tail
    · rw [if_pos hne]
      exact hend (hne ▸ hc) c rfl
    · rw [if_neg hne]
      rw [TurnsMeet, hqueue, hhead, htail] at hP
      obtain ⟨hmeets, hrest⟩ := hP hne
      rw [bind_run]
      rcases (hturn hne hc hmeets).ends rfl with ⟨_, c', hx, hrun⟩ | ⟨e, c', hx, hrun⟩ <;> rw [hx]
      · rw [hx] at hrest
        exact ih _ hrun (hrest rfl)
      · exact hrun

theorem processSubmissionQueue_ends (htail : tail < size) (n : Nat) (hc : InLoop p id size tail head c)
    (hn : ringDistance size head tail < n) (hP : TurnsMeet E (KeepsSizes E) p n c) :
    Triple (· = c) (processSubmissionQueue E p n) (fun _ => Sound) Failed := by
  refine processSubmissionQueue_rule E
    (J := fun n head c => ringDistance size head tail < n ∧ InLoop p id size tail head c)
    (fun h => h.2.2) (fun h => absurd h.1 (Nat.not_lt_zero _)) (fun h =>
      (updateIRQ_triple E (fun h hheap hqueues _ => h.of_eq hheap hqueues) fun h => ⟨by decide, h⟩).of_state h.2.1)
    (fun hne h hkeeps => ?_) ⟨hn, hc⟩ hP
  have hstep := ringDistance_step htail hne
  exact (turn_inLoop E h.2 hkeeps).conseq (fun _ h => h) (fun _ _ hc => ⟨by omega, hc⟩) fun _ _ h => h

theorem submit_inLoop (h : Sound c) (hq : c.heap[p]? = some q) (qid tail : UInt16) :
    InLoop p q.id q.size tail q.sqHead (c.submit p qid tail) := by
  refine ⟨Sound.note (h.modify p (by simp)) _, ?_⟩
  refine ⟨{ q with sqTail := tail, submitted := q.submitted ++ slotsBetween q.size q.sqTail tail 65536 }, ?_, rfl,
    rfl, rfl, rfl⟩
  show (c.modifyQueue p _).heap[p]? = _
  rw [getElem?_modifyQueue, if_pos rfl, hq]
  rfl

/-- A submission doorbell gets a value inside the ring, and no command of the loop it starts changes the size of the
ring or makes a queue of 65536 entries. -/
def Bounded (turns : Nat) (c : Controller M B) : NvmeEvent M → Prop
  | .guest _ => True
  | .mmio offset value => ∀ p ∈ submissionDoorbell c offset, value.toUInt32.toUInt16 < (c.queue p).size ∧
    TurnsMeet E (KeepsSizes E) p turns (c.submit p (doorbellQueue (offset - doorbellBase)) value.toUInt32.toUInt16)

instance (turns : Nat) (c : Controller M B) (e : NvmeEvent M) : Decidable (Bounded E turns c e) := match e with
  | .guest _ => isTrue trivial
  | .mmio _ _ => inferInstanceAs (Decidable (∀ p ∈ _, _ ∧ _))

theorem change_sound {f : Controller M B → Controller M B} (hheap : ∀ c, (f c).heap = c.heap)
    (hqueues : ∀ c, (f c).queues = c.queues) : Triple Sound (change f) (fun _ => Sound) (Failed (M := M) (B := B)) :=
  triple_update fun c h => h.of_eq (hheap c) (hqueues c)

theorem advanceCompletionHead_eq (q : NvmeQueue) (head : UInt16) :
    ∃ cqHead cqPending, q.advanceCompletionHead head = { q with cqHead, cqPending } := by
  unfold NvmeQueue.advanceCompletionHead
  dsimp only
  repeat' split
  all_goals exact ⟨_, _, rfl⟩

theorem advanceCompletionHead_keeps (head : UInt16) (q : NvmeQueue) : (q.advanceCompletionHead head).id = q.id ∧
    (q.size ≠ 0 → (q.advanceCompletionHead head).size ≠ 0) := by
  obtain ⟨cqHead, cqPending, heq⟩ := advanceCompletionHead_eq q head
  rw [heq]
  exact ⟨rfl, fun h => h⟩

variable {turns : Nat}

theorem orOne_ne_zero (size : UInt16) : (if size = 0 then 1 else size) ≠ 0 := by
  split
  · decide
  · assumption

theorem writeCC_ends (value : UInt32) : Triple Sound (writeCC E value) (fun _ => Sound) (Failed (M := M) (B := B)) := by
  refine Triple.bind (Q := fun _ => Sound) (triple_read fun _ h => h) fun wasEnabled => ?_
  refine Triple.bind (change_sound (fun _ => rfl) fun _ => rfl) fun _ => ?_
  refine triple_ite (fun _ => ?_) fun _ => ?_
  · refine Triple.bind (change_sound (fun _ => rfl) fun _ => rfl) fun _ => ?_
    refine triple_ite (fun _ => ?_) fun _ => triple_pure fun _ h => h
    refine Triple.bind (Q := fun _ => Sound) (triple_update fun c h => ⟨h.sized, nofun⟩) fun _ => ?_
    exact triple_require (fun _ h _ => h) fun _ h _ => ⟨by decide, h⟩
  · refine Triple.bind (change_sound (fun _ => rfl) fun _ => rfl) fun _ => ?_
    refine Triple.bind (Q := fun _ => Sound) (triple_update fun c h => ?_) fun _ => ?_
    · refine Sound.note (h.new (cacheQueueMemory_id E _ _) ?_) _
      rw [cacheQueueMemory_size]
      exact orOne_ne_zero _
    · exact change_sound (fun _ => rfl) fun _ => rfl

theorem writeMmio_sound (hturns : 65536 < turns) (h : Sound c) (offset value : UInt64)
    (hb : Bounded E turns c (.mmio offset value)) :
    Triple (· = c) (writeMmio E turns offset value) (fun _ => Sound) Failed := by
  refine writeMmio_triple E (fun h hheap hqueues _ => h.of_eq hheap hqueues) (fun h => ⟨by decide, h⟩) h
    (fun _ => (writeCC_ends E _).of_state h) (fun p hp hfind => ?_) fun p _ _ =>
      (h.modify p (advanceCompletionHead_keeps _)).note _
  obtain ⟨q, hq, -⟩ := h.found hfind
  obtain ⟨hlt, hmeets⟩ := hb p hp
  rw [queue_eq hq] at hlt
  have hdist := ringDistance_le q.size q.sqHead _ hlt
  exact processSubmissionQueue_ends E hlt turns (submit_inLoop h hq _ _) (by omega) hmeets

theorem step_sound (hturns : 65536 < turns) (c : Controller M B) (e : NvmeEvent M) (h : Sound c)
    (hb : Bounded E turns c e) :
    Sound (step E turns c e) := by
  cases e with
  | guest m => exact ⟨h.sized, h.listed⟩
  | mmio offset value =>
    exact triple_state.mp ((writeMmio_sound E hturns h offset value hb).conseq (fun _ h => h) (fun _ _ h => h)
      fun _ _ h => h.2)

end Ends

theorem writeMmio_ends (E : NvmeEnv M B) (turns : Nat) (hturns : 65536 < turns) (mem : M) (dev : B)
    (es : List (NvmeEvent M))
    (hrun : Throughout (step E turns) (Bounded E turns) (newController mem dev) es) (offset value : UInt64)
    (hb : Bounded E turns (runFrom (step E turns) (newController mem dev) es) (.mmio offset value)) :
    (writeMmio E turns offset value (runFrom (step E turns) (newController mem dev) es)).1 ≠ .error .panics ∧
    (writeMmio E turns offset value (runFrom (step E turns) (newController mem dev) es)).1 ≠ .error .unfinished := by
  have hnew : Sound (newController mem dev) := ⟨nofun, nofun⟩
  have hsound := Throughout.invariant (step_sound E hturns) hnew hrun
  rcases (writeMmio_sound E hturns hsound offset value hb).ends rfl with ⟨_, _, hx, -⟩ | ⟨e, _, hx, he, -⟩ <;> rw [hx]
  · exact ⟨nofun, nofun⟩
  · exact ⟨fun h => he.1 (Except.error.inj h), fun h => he.2 (Except.error.inj h)⟩

/-! ## A small guest -/

/-- Memory that is a list of bytes from address 0 on, zero behind its end. -/
def listMemory : NvmeMemory Bytes where
  readIPA m addr n := some ((List.range n).map fun i => byteAt m (addr.toNat + i))
  writeIPA m addr b := some (writeAt m addr.toNat b)
  slicer := false
  sliceIPA _ _ _ := false
  load m addr n := (List.range n).map fun i => byteAt m (addr.toNat + i)
  store m addr b := writeAt m addr.toNat b
  readIPA_length := by
    intro m addr n b h
    cases h
    simp
  load_length := by simp

def listEnv : NvmeEnv Bytes Unit := { memory := listMemory, backend := none, setIRQ := fun _ => true, msi := none }

/-- The admin queues are set up with `size` entries each, at address 0 and 4096. -/
def enableAdmin (size : UInt64) : List (NvmeEvent Bytes) :=
  let field := size - 1
  [.mmio regAQA (field ||| (field <<< (16 : UInt64))), .mmio regACQ 4096, .mmio regCC 1]

/-- A ring of four asynchronous event requests, of which the guest submits three. -/
theorem writeMmio_ends_adminRun :
    Throughout (step listEnv 65537) (Bounded listEnv 65537) (newController (List.replicate 256 adminAsyncEvent) ())
      (enableAdmin 4 ++ [.mmio doorbellBase 2]) ∧
    (writeMmio listEnv 65537 doorbellBase 3
      (runFrom (step listEnv 65537) (newController (List.replicate 256 adminAsyncEvent) ())
      (enableAdmin 4 ++ [.mmio doorbellBase 2]))).1 ≠ .error .unfinished := by
  have hrun : Throughout (step listEnv 65537) (Bounded listEnv 65537)
      (newController (List.replicate 256 adminAsyncEvent) ())
      (enableAdmin 4 ++ [.mmio doorbellBase 2]) := by decide +kernel
  refine ⟨hrun, (writeMmio_ends listEnv 65537 (by decide) _ () _ hrun doorbellBase 3 ?_).2⟩
  decide +kernel

/-- The admin queue of one entry, an asynchronous event request, with 5 as its tail. -/
def spinning (ops : List RingOp) : Controller Bytes Unit :=
  { newController [adminAsyncEvent] () with
    cc := 1, csts := 1, acq := 4096, queues := [(0, 0)], ops
    heap := [{
      id := 0, size := 1, cqAddr := 4096, cqPhase := true, interrupts := true, sqTail := 5
      submitted := slotsBetween 1 0 5 65536 }] }

theorem spinning_turn (ops : List RingOp) : turn listEnv 0 (spinning ops) = (.ok (), spinning (ops ++ [.fetch 0])) := by
  with_unfolding_all rfl

theorem spinning_unfinished (turns : Nat) (ops : List RingOp) :
    (processSubmissionQueue listEnv 0 turns (spinning ops)).1 = .error .unfinished := by
  induction turns generalizing ops with
  | zero => rfl
  | succ turns ih =>
    rw [processSubmissionQueue, read_bind]
    rw [if_neg (show ¬((spinning ops).queue 0).sqHead = ((spinning ops).queue 0).sqTail from
      (by decide : ¬(0 : UInt16) = 5)), bind_run, spinning_turn]
    exact ih _

theorem doorbell_spins_and_panics : (∀ turns, (writeMmio listEnv turns doorbellBase 5
      (runFrom (step listEnv 65537) (newController [adminAsyncEvent] ()) (enableAdmin 1))).1 = .error .unfinished) ∧
    (writeMmio listEnv 65537 doorbellBase 1 (runFrom (step listEnv 65537)
      (newController (writeAt [adminCreateSQ] 40 [0, 0, 0xff, 0xff]) ()) (enableAdmin 2))).1 = .error .panics := by
  refine ⟨fun turns => ?_, by decide +kernel⟩
  exact spinning_unfinished turns [.admin 1 1, .submit 0 5]

end CrumbleCracker.Nvme
