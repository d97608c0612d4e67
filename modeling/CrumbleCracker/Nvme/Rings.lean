import CrumbleCracker.Lib.RingCount
import CrumbleCracker.Nvme.Commands

/-!
# The two rings of a queue number

The submission queue and the completion queue of one number share a record. In every run in which the two are created
with one size, are deleted only when the other is gone, and the guest leaves room for the completions of what it submits
(`RingOrderly`), the record stands for two independent rings (`rings_independent`). Without that it does not: creating
one queue resizes the other, deleting one deletes both, and a full completion queue is written over (`rings_disturbed`).
-/

namespace CrumbleCracker.Nvme

open Prog List Function Option

variable {M B : Type} {op : RingOp} {head id size : UInt16} {q q' : NvmeQueue} {c c' : Controller M B}
  {f : NvmeQueue → NvmeQueue}

/-! ## Independent rings -/

/-- A submission ring: the slot fetched next and the guest's tail. -/
structure SqRing where
  size : Nat
  head : Nat := 0
  tail : Nat := 0
deriving DecidableEq

/-- The submission and the completion queues that exist, each by itself. -/
structure Rings where
  sq : UInt16 → Option SqRing
  cq : UInt16 → Option RingCount

def Rings.none : Rings := ⟨fun _ => Option.none, fun _ => Option.none⟩

/-- What an operation does to the rings. -/
def Rings.apply (r : Rings) : RingOp → Rings
  | .reset => .none
  | .admin sqSize cqSize =>
    { sq := update r.sq adminQueueID (some { size := sqSize.toNat })
      cq := update r.cq adminQueueID (some { size := cqSize.toNat }) }
  | .createCQ id size => { r with cq := update r.cq id (some { size := size.toNat }) }
  | .createSQ id size => { r with sq := update r.sq id (some { size := size.toNat }) }
  | .deleteSQ id => { r with sq := update r.sq id Option.none }
  | .deleteCQ id => { r with cq := update r.cq id Option.none }
  | .submit id tail => { r with sq := update r.sq id ((r.sq id).map fun s => { s with tail := tail.toNat }) }
  | .fetch id => { r with sq := update r.sq id ((r.sq id).map fun s => { s with head := (s.head + 1) % s.size }) }
  | .post id _ _ => { r with cq := update r.cq id ((r.cq id).map RingCount.push) }
  | .consume id head => { r with cq := update r.cq id ((r.cq id).map fun x => x.takeTo head.toNat) }

/-- A completion goes to the next slot of a completion queue that is there, with the phase of the lap, and not over an
entry that the guest has not taken. -/
def Rings.Allows (r : Rings) : RingOp → Prop
  | .post id slot phase => ∃ x ∈ r.cq id, slot.toNat = x.slot ∧ phase = x.phase ∧ x.held < x.size
  | _ => True

def rings (ops : List RingOp) : Rings := ops.foldl Rings.apply .none

/-- Each operation is allowed where it comes. -/
def PostsInOrder (ops : List RingOp) : Prop := ∀ before op after, ops = before ++ op :: after → (rings before).Allows op

theorem rings_concat (ops : List RingOp) (op : RingOp) : rings (ops ++ [op]) = (rings ops).apply op := by
  rw [rings, foldl_concat]
  rfl

theorem PostsInOrder.concat {ops : List RingOp} (h : PostsInOrder ops) (hop : (rings ops).Allows op) :
    PostsInOrder (ops ++ [op]) := by
  intro before op' after heq
  rcases eq_nil_or_concat after with rfl | ⟨after, last, rfl⟩
  · obtain ⟨rfl, hlast⟩ := append_inj' heq rfl
    cases hlast
    exact hop
  · rw [concat_eq_append, ← cons_append, ← append_assoc] at heq
    exact h before op' after (append_inj' heq rfl).1

def RingOp.Touches (id : UInt16) : RingOp → Prop
  | .reset => True
  | .admin _ _ => id = adminQueueID
  | .createCQ id' _ | .createSQ id' _ | .deleteSQ id' | .deleteCQ id' | .submit id' _ | .fetch id' | .post id' _ _
  | .consume id' _ => id = id'

theorem Rings.apply_other (r : Rings) (h : ¬op.Touches id) :
    (r.apply op).sq id = r.sq id ∧ (r.apply op).cq id = r.cq id := by
  cases op with
  | reset => exact absurd trivial h
  | admin s c => exact ⟨update_of_ne h _ _, update_of_ne h _ _⟩
  | createCQ id' size | deleteCQ id' | post id' slot phase | consume id' head => exact ⟨rfl, update_of_ne h _ _⟩
  | createSQ id' size | deleteSQ id' | submit id' tail | fetch id' => exact ⟨update_of_ne h _ _, rfl⟩

/-! ## A record and its rings -/

structure SqAgrees (q : NvmeQueue) (s : SqRing) : Prop where
  size : q.size.toNat = s.size
  head : q.sqHead.toNat = s.head
  tail : q.sqTail.toNat = s.tail
  inside : s.head < s.size

structure CqAgrees (q : NvmeQueue) (x : RingCount) : Prop where
  size : q.size.toNat = x.size
  fits : x.Fits
  tail : q.cqTail.toNat = x.slot
  phase : q.cqPhase = x.phase
  head : q.cqHead.toNat = x.first
  pending : q.cqPending.toNat = x.held

/-- The record stands for both rings; the half of a ring that is not there is as new. -/
structure Agrees (q : NvmeQueue) (s : Option SqRing) (x : Option RingCount) : Prop where
  sq : ∀ s' ∈ s, SqAgrees q s'
  noSq : s = none → q.sqHead = 0 ∧ q.sqTail = 0
  cq : ∀ x' ∈ x, CqAgrees q x'
  noCq : x = none → q.cqTail = 0 ∧ q.cqHead = 0 ∧ q.cqPending = 0

theorem toNat_pos (h : size ≠ 0) : 0 < size.toNat := by
  rcases Nat.eq_zero_or_pos size.toNat with h0 | h0
  · exact absurd (UInt16.toNat.inj h0) h
  · exact h0

theorem toNat_advance {x : UInt16} (h : x.toNat < size.toNat) :
    ((x + 1) % size).toNat = (x.toNat + 1) % size.toNat := by
  have hsize := size.toNat_lt
  rw [UInt16.toNat_mod, UInt16.toNat_add]
  show (x.toNat + 1) % 2 ^ 16 % size.toNat = _
  rw [Nat.mod_eq_of_lt (show x.toNat + 1 < 2 ^ 16 by omega)]

theorem SqAgrees.fetch {s : SqRing} (h : SqAgrees q s) :
    SqAgrees { q with sqHead := (q.sqHead + 1) % q.size } { s with head := (s.head + 1) % s.size } := by
  obtain ⟨hsize, hhead, htail, hin⟩ := h
  refine ⟨hsize, ?_, htail, Nat.mod_lt _ (by omega)⟩
  show ((q.sqHead + 1) % q.size).toNat = _
  rw [toNat_advance (by omega), hhead, hsize]

variable {x : RingCount}

theorem CqAgrees.post (h : CqAgrees q x) (hroom : x.held < x.size) :
    CqAgrees (q.posted ((q.cqTail + 1) % q.size)) x.push := by
  obtain ⟨hsize, hfits, htail, hphase, hhead, hpending⟩ := h
  have hslot := RingCount.slot_lt hfits.pos
  have hnext : ((q.cqTail + 1) % q.size).toNat = x.push.slot := by
    rw [toNat_advance (by omega), htail, hsize, RingCount.slot_push]
  refine ⟨hsize, hfits.push hroom, hnext, ?_, hhead, ?_⟩
  · have hzero : (q.cqTail + 1) % q.size = 0 ↔ x.push.slot = 0 := by
      rw [← hnext]
      exact UInt16.toNat_inj.symm
    show (if (q.cqTail + 1) % q.size = 0 then !q.cqPhase else q.cqPhase) = _
    rw [RingCount.phase_push, hphase]
    simp only [hzero]
  · have hlt : q.cqPending < q.size := by
      rw [UInt16.lt_iff_toNat_lt]
      omega
    show (if q.cqPending < q.size then q.cqPending + 1 else q.cqPending).toNat = _
    rw [if_pos hlt, UInt16.toNat_add, RingCount.held_push hfits, hpending]
    have := q.size.toNat_lt
    show (x.held + 1) % 2 ^ 16 = _
    rw [Nat.mod_eq_of_lt (by omega)]

theorem CqAgrees.consume (h : CqAgrees q x) (hlt : head.toNat < x.size) (hle : x.ahead head.toNat ≤ x.held) :
    CqAgrees (q.advanceCompletionHead head) (x.takeTo head.toNat) := by
  obtain ⟨hsize, hfits, htail, hphase, hhead, hpending⟩ := h
  have hfirst := RingCount.first_lt hfits.pos
  have hahead := RingCount.ahead_eq hlt
  have hne : q.size ≠ 0 := by
    intro h0
    rw [h0] at hsize
    have := hfits.pos
    change 0 = _ at hsize
    omega
  have hmod : head % q.size = head := by
    apply UInt16.toNat.inj
    rw [UInt16.toNat_mod, hsize, Nat.mod_eq_of_lt hlt]
  have hconsumed : (if head < q.cqHead then q.size - q.cqHead + head else head - q.cqHead).toNat =
      x.ahead head.toNat := by
    have hsz := q.size.toNat_lt
    rw [hahead]
    simp only [UInt16.lt_iff_toNat_lt, hhead]
    split
    · have hs : (q.size - q.cqHead).toNat = x.size - x.first := by
        rw [UInt16.toNat_sub_of_le _ _ (by rw [UInt16.le_iff_toNat_le]; omega), hsize, hhead]
      rw [UInt16.toNat_add, hs]
      exact Nat.mod_eq_of_lt (by omega)
    · rw [UInt16.toNat_sub_of_le _ _ (by rw [UInt16.le_iff_toNat_le]; omega), hhead]
  have hzero : (if head < q.cqHead then q.size - q.cqHead + head else head - q.cqHead) = 0 ↔
      x.ahead head.toNat = 0 := by
    rw [← hconsumed]
    exact UInt16.toNat_inj.symm
  have hfull : q.cqPending = q.size ↔ x.held = x.size := by
    rw [← hpending, ← hsize]
    exact UInt16.toNat_inj.symm
  have hheld := RingCount.held_takeTo x head.toNat
  have hfst := RingCount.first_takeTo hlt
  rw [NvmeQueue.advanceCompletionHead, if_neg hne]
  simp only [hmod, hfull]
  generalize (if head < q.cqHead then q.size - q.cqHead + head else head - q.cqHead) = consumed at hconsumed hzero ⊢
  simp only [hzero]
  have hagrees : ∀ n : UInt16, n.toNat = (x.takeTo head.toNat).held →
      CqAgrees { q with cqHead := head, cqPending := n } (x.takeTo head.toNat) :=
    fun n hn => ⟨hsize, hfits.takeTo hle, htail, hphase, hfst.symm, hn⟩
  by_cases hall : x.ahead head.toNat = 0 ∧ x.held = x.size
  · rw [if_pos hall] at hheld ⊢
    refine hagrees 0 ?_
    rw [hheld]
    show 0 = _
    omega
  · rw [if_neg hall] at hheld ⊢
    split
    · rename_i hpend
      rw [UInt16.le_iff_toNat_le, hconsumed, hpending] at hpend
      refine hagrees 0 ?_
      rw [hheld]
      show 0 = _
      omega
    · refine hagrees (q.cqPending - consumed) ?_
      rw [hheld, UInt16.toNat_sub_of_le _ _ (by rw [UInt16.le_iff_toNat_le, hconsumed, hpending]; exact hle),
        hpending, hconsumed]

theorem SqAgrees.congr {s : SqRing} (h : SqAgrees q s) (hsize : q'.size.toNat = s.size) (hhead : q'.sqHead = q.sqHead)
    (htail : q'.sqTail = q.sqTail) : SqAgrees q' s :=
  ⟨hsize, hhead ▸ h.head, htail ▸ h.tail, h.inside⟩

theorem CqAgrees.congr (h : CqAgrees q x) (hsize : q'.size.toNat = x.size) (htail : q'.cqTail = q.cqTail)
    (hhead : q'.cqHead = q.cqHead) (hpending : q'.cqPending = q.cqPending) (hphase : q'.cqPhase = q.cqPhase) :
    CqAgrees q' x :=
  ⟨hsize, h.fits, htail ▸ h.tail, hphase ▸ h.phase, hhead ▸ h.head, hpending ▸ h.pending⟩

def NvmeQueue.ringView (q : NvmeQueue) : UInt16 × UInt16 × UInt16 × UInt16 × UInt16 × UInt16 × Bool :=
  (q.size, q.sqHead, q.sqTail, q.cqTail, q.cqHead, q.cqPending, q.cqPhase)

theorem Agrees.congr {s : Option SqRing} {x : Option RingCount} (h : Agrees q s x) (hview : q'.ringView = q.ringView) :
    Agrees q' s x := by
  simp only [NvmeQueue.ringView, Prod.mk.injEq] at hview
  obtain ⟨hsize, hsqHead, hsqTail, hcqTail, hcqHead, hpending, hphase⟩ := hview
  constructor
  · exact fun s' hs => (h.sq s' hs).congr (hsize ▸ (h.sq s' hs).size) hsqHead hsqTail
  · rw [hsqHead, hsqTail]
    exact h.noSq
  · exact fun x' hx => (h.cq x' hx).congr (hsize ▸ (h.cq x' hx).size) hcqTail hcqHead hpending hphase
  · rw [hcqTail, hcqHead, hpending]
    exact h.noCq

theorem agrees_new (id : UInt16) : Agrees { id := id } none none :=
  ⟨nofun, fun _ => ⟨rfl, rfl⟩, nofun, fun _ => ⟨rfl, rfl, rfl⟩⟩

theorem Agrees.createCQ {s : Option SqRing} (h : Agrees q s none) (hne : size ≠ 0) (hs : ∀ s' ∈ s, s'.size = size.toNat)
    (hview : q'.ringView = { q with size := size, cqPhase := true }.ringView) :
    Agrees q' s (some { size := size.toNat }) := by
  simp only [NvmeQueue.ringView, Prod.mk.injEq] at hview
  obtain ⟨hsize, hsqHead, hsqTail, hcqTail, hcqHead, hpending, hphase⟩ := hview
  obtain ⟨htail, hhead, hpend⟩ := h.noCq rfl
  constructor
  · exact fun s' hs' => (h.sq s' hs').congr (by rw [hsize, hs s' hs']) hsqHead hsqTail
  · rw [hsqHead, hsqTail]
    exact h.noSq
  · rintro x' ⟨⟩
    have hpos := toNat_pos hne
    refine ⟨by rw [hsize], ⟨hpos, Nat.le_refl _, Nat.zero_le _⟩, ?_, ?_, ?_, ?_⟩
    · rw [hcqTail, htail]
      exact (Nat.zero_mod _).symm
    · rw [hphase]
      show true = decide (0 / size.toNat % 2 = 0)
      rw [Nat.zero_div]
      rfl
    · rw [hcqHead, hhead]
      exact (Nat.zero_mod _).symm
    · rw [hpending, hpend]
      rfl
  · nofun

theorem Agrees.createSQ {x : Option RingCount} (h : Agrees q none x) (hne : size ≠ 0)
    (hx : ∀ x' ∈ x, x'.size = size.toNat)
    (hview : q'.ringView = { q with size := size }.ringView) : Agrees q' (some { size := size.toNat }) x := by
  simp only [NvmeQueue.ringView, Prod.mk.injEq] at hview
  obtain ⟨hsize, hsqHead, hsqTail, hcqTail, hcqHead, hpending, hphase⟩ := hview
  obtain ⟨hhead, htail⟩ := h.noSq rfl
  constructor
  · rintro s' ⟨⟩
    have hpos := toNat_pos hne
    exact ⟨by rw [hsize], by rw [hsqHead, hhead]; rfl, by rw [hsqTail, htail]; rfl, hpos⟩
  · nofun
  · exact fun x' hx' => (h.cq x' hx').congr (by rw [hsize, hx x' hx']) hcqTail hcqHead hpending hphase
  · rw [hcqTail, hcqHead, hpending]
    exact h.noCq

/-! ## The records of the controller -/

theorem lookup_filter_ne {id' : UInt16} (h : id' ≠ id) (l : List (UInt16 × Nat)) :
    (l.filter fun e => e.1 ≠ id).lookup id' = l.lookup id' := by
  induction l with
  | nil => rfl
  | cons e l ih =>
    obtain ⟨k, v⟩ := e
    by_cases hk : k = id
    · subst hk
      have hne : (id' == k) = false := beq_eq_false_iff_ne.mpr h
      rw [filter_cons_of_neg (by simp), ih, lookup_cons, hne]
    · rw [filter_cons_of_pos (by simpa using hk), lookup_cons, lookup_cons, ih]

theorem lookup_filter_self (id : UInt16) (l : List (UInt16 × Nat)) : (l.filter fun e => e.1 ≠ id).lookup id = none := by
  rw [lookup_eq_none_iff]
  intro e he
  have := of_mem_filter he
  simp at this ⊢
  exact fun h => this h.symm

theorem find_newQueue (c : Controller M B) (id : UInt16) (q : NvmeQueue) (id' : UInt16) :
    (c.newQueue id q).find id' = if id' = id then some c.heap.length else c.find id' := by
  show ((id, c.heap.length) :: c.queues.filter fun e => e.1 ≠ id).lookup id' = _
  rw [lookup_cons]
  split
  · rename_i h
    rw [if_pos (eq_of_beq h)]
  · rename_i h
    have hne : id' ≠ id := beq_eq_false_iff_ne.mp h
    rw [if_neg hne, lookup_filter_ne hne]
    rfl

/-- The records stand for the rings that the operations so far leave. -/
structure Tracks (c : Controller M B) : Prop where
  sound : Sound c
  agrees : ∀ {id : UInt16} {k : Nat} {q : NvmeQueue}, c.find id = some k → c.heap[k]? = some q →
    Agrees q ((rings c.ops).sq id) ((rings c.ops).cq id)
  missing : ∀ {id : UInt16}, c.find id = none → (rings c.ops).sq id = none ∧ (rings c.ops).cq id = none
  ordered : PostsInOrder c.ops

namespace Tracks

variable {c : Controller M B}

theorem of_eq (h : Tracks c) (hheap : c'.heap = c.heap) (hqueues : c'.queues = c.queues) (hops : c'.ops = c.ops) :
    Tracks c' := by
  have hfind : ∀ id, c'.find id = c.find id := fun id => congrArg (List.lookup id) hqueues
  constructor
  · exact ⟨hheap ▸ h.sound.sized, by rw [hheap, hqueues]; exact h.sound.listed⟩
  · intro id k q hk hq
    rw [hfind] at hk
    rw [hheap] at hq
    rw [hops]
    exact h.agrees hk hq
  · intro id hid
    rw [hfind] at hid
    rw [hops]
    exact h.missing hid
  · rw [hops]
    exact h.ordered

theorem ghost (h : Tracks c) (p : Nat) (hid : ∀ q, (f q).id = q.id) (hview : ∀ q, (f q).ringView = q.ringView) :
    Tracks (c.modifyQueue p f) := by
  refine ⟨h.sound.modify p fun q => ⟨hid q, fun hq => ?_⟩, fun {id k q} hk hq => ?_, h.missing, h.ordered⟩
  · have := congrArg Prod.fst (hview q)
    change (f q).size = q.size at this
    rwa [this]
  · rw [getElem?_modifyQueue] at hq
    split at hq
    · obtain ⟨q₀, hq₀, rfl⟩ := map_eq_some_iff.1 hq
      exact (h.agrees hk hq₀).congr (hview q₀)
    · exact h.agrees hk hq

theorem note (h : Tracks c) (hsound : Sound c') (hops : c'.ops = c.ops ++ [op])
    (htouch : ∀ id', op.Touches id' → id' = id)
    (hallow : (rings c.ops).Allows op) (hfind : ∀ id', id' ≠ id → c'.find id' = c.find id')
    (hheap : ∀ {id' : UInt16} {k : Nat}, id' ≠ id → c.find id' = some k → c'.heap[k]? = c.heap[k]?)
    (hself : ∀ {k : Nat} {q : NvmeQueue}, c'.find id = some k → c'.heap[k]? = some q →
      Agrees q (((rings c.ops).apply op).sq id) (((rings c.ops).apply op).cq id))
    (hgone : c'.find id = none → ((rings c.ops).apply op).sq id = none ∧ ((rings c.ops).apply op).cq id = none) :
    Tracks c' := by
  have hother := fun {id'} (hne : id' ≠ id) => (rings c.ops).apply_other fun ht : op.Touches id' => hne (htouch id' ht)
  refine ⟨hsound, fun {id' k q} hk hq => ?_, fun {id'} hid => ?_, hops ▸ h.ordered.concat hallow⟩ <;>
    rw [hops, rings_concat] <;> by_cases hne : id' = id
  · subst hne
    exact hself hk hq
  · rw [hfind id' hne] at hk
    rw [hheap hne hk] at hq
    rw [(hother hne).1, (hother hne).2]
    exact h.agrees hk hq
  · subst hne
    exact hgone hid
  · rw [hfind id' hne] at hid
    rw [(hother hne).1, (hother hne).2]
    exact h.missing hid

theorem modify (h : Tracks c) {k : Nat} (hk : c.find id = some k)
    (hf : ∀ q, c.heap[k]? = some q → Agrees q ((rings c.ops).sq id) ((rings c.ops).cq id) →
      Agrees (f q) (((rings c.ops).apply op).sq id) (((rings c.ops).apply op).cq id))
    (hallow : (rings c.ops).Allows op) (hkeeps : ∀ q, (f q).id = q.id ∧ (q.size ≠ 0 → (f q).size ≠ 0))
    (htouch : ∀ id', op.Touches id' → id' = id) : Tracks ((c.modifyQueue k f).note op) := by
  refine h.note ((h.sound.modify k hkeeps).note op) rfl htouch hallow (fun _ _ => rfl) (fun {id' k'} hne hk' => ?_)
    (fun {k' q} hk' hq => ?_) fun hnone => nomatch hk.symm.trans hnone
  · -- another number has another record
    change (c.modifyQueue k f).heap[k']? = _
    rw [getElem?_modifyQueue, if_neg]
    rintro rfl
    obtain ⟨q₁, hq₁, hid₁⟩ := h.sound.found hk
    exact hne ((h.sound.id_eq hk' hq₁).symm.trans hid₁)
  · cases hk.symm.trans hk'
    change (c.modifyQueue k f).heap[k]? = some q at hq
    rw [getElem?_modifyQueue, if_pos rfl] at hq
    obtain ⟨q₀, hq₀, rfl⟩ := map_eq_some_iff.1 hq
    exact hf q₀ hq₀ (h.agrees hk hq₀)

theorem new (h : Tracks c) (hid : q.id = id) (hsize : q.size ≠ 0) (htouch : ∀ id', op.Touches id' → id' = id)
    (hallow : (rings c.ops).Allows op)
    (hq : Agrees q (((rings c.ops).apply op).sq id) (((rings c.ops).apply op).cq id)) :
    Tracks ((c.newQueue id q).note op) := by
  have hfind : (c.newQueue id q).find id = some c.heap.length := (find_newQueue c id q id).trans (if_pos rfl)
  refine h.note ((h.sound.new hid hsize).note op) rfl htouch hallow (fun id' hne => ?_) (fun {id' k} hne hk => ?_)
    (fun {k q'} hk hq' => ?_) fun hnone => nomatch hfind.symm.trans hnone
  · exact (find_newQueue c id q id').trans (if_neg hne)
  · obtain ⟨q₀, hq₀, -⟩ := h.sound.found hk
    exact (getElem?_newQueue_of_some c id q hq₀).trans hq₀.symm
  · cases hfind.symm.trans hk
    rcases getElem?_newQueue c id q hq' with hold | ⟨-, rfl⟩
    · exact absurd (List.getElem?_eq_some_iff.1 hold).1 (Nat.lt_irrefl _)
    · exact hq

theorem remove (h : Tracks c) (htouch : ∀ id', op.Touches id' → id' = id) (hallow : (rings c.ops).Allows op)
    (hsq : ((rings c.ops).apply op).sq id = none) (hcq : ((rings c.ops).apply op).cq id = none) :
    Tracks ({ c with queues := c.queues.filter fun e => e.1 ≠ id }.note op) :=
  h.note ⟨h.sound.sized, fun e he => h.sound.listed e (mem_of_mem_filter he)⟩ rfl htouch hallow
    (fun _ hne => lookup_filter_ne hne c.queues) (fun _ _ => rfl)
    (fun hk _ => nomatch (lookup_filter_self id c.queues).symm.trans hk) fun _ => ⟨hsq, hcq⟩

theorem quiet (h : Tracks c) (hq : Quiet c c') : Tracks c' := h.of_eq hq.heap hq.queues hq.ops

end Tracks

/-! ## The loop -/

/-- The queue that gets the completions of a record's commands. -/
def NvmeQueue.completionID (q : NvmeQueue) : UInt16 := if q.id = adminQueueID then adminQueueID else q.cqID

/-- The loop runs over the record of queue `id`, whose completions go to queue `cid`, where there is room for `n` of
them. -/
structure Running (p : Nat) (id cid : UInt16) (n : Nat) (c : Controller M B) : Prop where
  tracks : Tracks c
  found : c.find id = some p
  listed : (rings c.ops).sq id ≠ none
  route : ∃ q, c.heap[p]? = some q ∧ q.completionID = cid
  room : c.find cid ≠ none → ∃ x ∈ (rings c.ops).cq cid, x.held + n ≤ x.size

namespace Running

variable {c : Controller M B} {p : Nat} {id cid : UInt16} {n : Nat}

section

variable (h : Running p id cid n c)

include h

theorem weaken {m : Nat} (hm : m ≤ n) : Running p id cid m c := by
  refine ⟨h.tracks, h.found, h.listed, h.route, fun hne => ?_⟩
  obtain ⟨x, hx, hle⟩ := h.room hne
  exact ⟨x, hx, by omega⟩

theorem quiet (hq : Quiet c c') : Running p id cid n c' := by
  refine ⟨h.tracks.quiet hq, ?_, ?_, ?_, ?_⟩
  · rw [hq.find]
    exact h.found
  · rw [hq.ops]
    exact h.listed
  · rw [hq.heap]
    exact h.route
  · rw [hq.find, hq.ops]
    exact h.room

theorem route_modify {k : Nat} (hf : ∀ q, (f q).completionID = q.completionID) :
    ∃ q, (c.modifyQueue k f).heap[p]? = some q ∧ q.completionID = cid := by
  obtain ⟨q, hq, hcid⟩ := h.route
  rw [getElem?_modifyQueue]
  split
  · exact ⟨f q, by rw [hq]; rfl, (hf q).trans hcid⟩
  · exact ⟨q, hq, hcid⟩

theorem ghost (k : Nat) (hid : ∀ q, (f q).id = q.id)
    (hcid : ∀ q, (f q).completionID = q.completionID) (hview : ∀ q, (f q).ringView = q.ringView) :
    Running p id cid n (c.modifyQueue k f) :=
  ⟨h.tracks.ghost k hid hview, h.found, h.listed, h.route_modify hcid, h.room⟩

theorem fetch (hq : c.heap[p]? = some q) : Running p id cid n
      ((c.modifyQueue p fun q' => { q' with sqHead := (q.sqHead + 1) % q.size }).note (.fetch q.id)) := by
  obtain ⟨s, hs⟩ := ne_none_iff_exists'.1 h.listed
  rw [h.tracks.sound.id_eq h.found hq]
  have hfetched : ((rings c.ops).apply (.fetch id)).sq id = some { s with head := (s.head + 1) % s.size } := by
    simp only [Rings.apply, update_self, hs, map_some]
  refine ⟨h.tracks.modify h.found ?_ trivial (by simp) fun _ h => h, h.found, ?_, h.route_modify ?_, ?_⟩
  · intro q' hq' hagrees
    rw [hq] at hq'
    cases hq'
    rw [hfetched]
    refine ⟨?_, nofun, fun x hx => (hagrees.cq x hx).congr (hagrees.cq x hx).size rfl rfl rfl rfl, hagrees.noCq⟩
    rintro s' ⟨⟩
    exact (hagrees.sq s hs).fetch
  · change (rings (c.ops ++ [_])).sq id ≠ none
    rw [rings_concat, hfetched]
    exact some_ne_none _
  · exact fun _ => rfl
  · show c.find cid ≠ none → ∃ x ∈ (rings (c.ops ++ [RingOp.fetch id])).cq cid, _
    rw [rings_concat]
    exact h.room

end

theorem post (h : Running p id cid (n + 1) c) {k : Nat} (hk : c.find cid = some k) (hq : c.heap[k]? = some q) :
    Running p id cid n
      ((c.modifyQueue k fun q' => q'.posted ((q.cqTail + 1) % q.size)).note (.post q.id q.cqTail q.cqPhase)) := by
  obtain ⟨x, hx, hroom⟩ := h.room (by rw [hk]; exact some_ne_none _)
  have hagrees := (h.tracks.agrees hk hq).cq x hx
  have hpushed : ((rings c.ops).apply (.post cid q.cqTail q.cqPhase)).cq cid = some x.push := by
    simp only [Rings.apply, update_self, mem_def.1 hx, map_some]
  rw [h.tracks.sound.id_eq hk hq]
  refine ⟨h.tracks.modify hk ?_ ⟨x, hx, hagrees.tail, hagrees.phase, by omega⟩ (by simp [NvmeQueue.posted]) fun _ h =>
    h, h.found, ?_, h.route_modify ?_, ?_⟩
  · intro q' hq' hall
    rw [hq] at hq'
    cases hq'
    rw [hpushed]
    refine ⟨fun s hs => (hall.sq s hs).congr (hall.sq s hs).size rfl rfl, hall.noSq, ?_, nofun⟩
    rintro x' ⟨⟩
    exact hagrees.post (by omega)
  · change (rings (c.ops ++ [_])).sq id ≠ none
    rw [rings_concat]
    exact h.listed
  · exact fun _ => rfl
  · show c.find cid ≠ none → ∃ x ∈ (rings (c.ops ++ [RingOp.post cid q.cqTail q.cqPhase])).cq cid, _
    rw [rings_concat]
    refine fun _ => ⟨x.push, hpushed, ?_⟩
    rw [RingCount.held_push hagrees.fits]
    show x.held + 1 + n ≤ x.size
    omega

theorem admin (h : Tracks c) (hfound : c.find adminQueueID = some p) (hlisted : (rings c.ops).sq adminQueueID ≠ none)
    (hroom : c.find adminQueueID ≠ none → ∃ x ∈ (rings c.ops).cq adminQueueID, x.held + n ≤ x.size) :
    Running p adminQueueID adminQueueID n c := by
  obtain ⟨q, hq, hqid⟩ := h.sound.found hfound
  exact ⟨h, hfound, hlisted, ⟨q, hq, if_pos hqid⟩, hroom⟩

theorem other (h : Running p adminQueueID adminQueueID n c) (ht : Tracks c') (hops : c'.ops = c.ops ++ [op])
    (hfind : c'.find adminQueueID = c.find adminQueueID) (htouch : ¬op.Touches adminQueueID) :
    Running p adminQueueID adminQueueID n c' := by
  obtain ⟨hsq, hcq⟩ := (rings c.ops).apply_other htouch
  refine Running.admin ht (hfind.trans h.found) ?_ ?_
  · rw [hops, rings_concat, hsq]
    exact h.listed
  · rw [hfind, hops, rings_concat, hcq]
    exact h.room

end Running

/-- A create command makes a ring that is not there, of the size of the other ring of that number; a delete command
comes when the other ring is gone. -/
def NvmeCommand.KeepsRings (cmd : NvmeCommand) (r : Rings) : Prop :=
  (cmd.opcode = adminCreateCQ → r.cq cmd.qid = none ∧ ∀ s ∈ r.sq cmd.qid, s.size = (cmd.sizeField + 1).toNat) ∧
  (cmd.opcode = adminCreateSQ → r.sq cmd.qid = none ∧ ∀ x ∈ r.cq cmd.qid, x.size = (cmd.sizeField + 1).toNat) ∧
  (cmd.opcode = adminDeleteSQ → r.cq cmd.qid = none) ∧
  (cmd.opcode = adminDeleteCQ → r.sq cmd.qid = none)
deriving Decidable

section Loop

variable (E : NvmeEnv M B) {p : Nat} {id cid : UInt16} {n : Nat}

/-- The records track the rings when a call fails. -/
def Tracked (_ : NvmeFault) (c : Controller M B) : Prop := Tracks c

theorem Moves.running {α : Type} {x : NvmeProg M B α} {Q : α → Prop} (h : Moves Quiet x Q) :
    Triple (Running p id cid n) x (fun _ => Running p id cid n) Tracked :=
  (h.triple Running.quiet).conseq (fun _ h => h) (fun _ _ h => h.2) fun _ _ h => h.2.tracks

theorem create_running {qid : UInt16} (hne : qid ≠ adminQueueID) {f : M → NvmeQueue → NvmeQueue}
    (hid : ∀ m q, (f m q).id = q.id) (hsize : ∀ m q, (f m q).size ≠ 0) (htouch : ∀ id', op.Touches id' → id' = qid)
    (hallow : ∀ r : Rings, r.Allows op) : Triple
      (fun c => Running p adminQueueID adminQueueID n c ∧ ∀ m q,
        Agrees q ((rings c.ops).sq qid) ((rings c.ops).cq qid) →
        Agrees (f m q) (((rings c.ops).apply op).sq qid) (((rings c.ops).apply op).cq qid))
      (createQueue qid f op : NvmeProg M B Unit) (fun _ => Running p adminQueueID adminQueueID n) Tracked := by
  intro c ⟨hc, hf⟩
  have htouch' : ¬op.Touches adminQueueID := fun h => hne (htouch _ h).symm
  rw [create_run]
  dsimp only
  rcases hk : c.find qid with - | k
  · obtain ⟨hsq, hcq⟩ := hc.tracks.missing hk
    refine hc.other (hc.tracks.new (hid _ _) (hsize _ _) htouch (hallow _) (hf _ _ ?_)) rfl ?_ htouch'
    · rw [hsq, hcq]
      exact agrees_new qid
    · show (c.newQueue qid (f c.mem { id := qid })).find adminQueueID = _
      rw [find_newQueue, if_neg hne.symm]
  · refine hc.other ?_ rfl rfl htouch'
    exact hc.tracks.modify hk (fun q _ hq => hf _ q hq) (hallow _) (fun q => ⟨hid _ q, fun _ => hsize _ q⟩) htouch

theorem delete_running {qid : UInt16} (hne : qid ≠ adminQueueID) (htouch : ∀ id', op.Touches id' → id' = qid)
    (hallow : ∀ r : Rings, r.Allows op) : Triple
      (fun c => Running p adminQueueID adminQueueID n c ∧ ((rings c.ops).apply op).sq qid = none ∧
        ((rings c.ops).apply op).cq qid = none)
      (deleteQueue qid op : NvmeProg M B Unit) (fun _ => Running p adminQueueID adminQueueID n) Tracked := by
  intro c ⟨hc, hsq, hcq⟩
  have htouch' : ¬op.Touches adminQueueID := fun h => hne (htouch _ h).symm
  exact hc.other (hc.tracks.remove htouch (hallow _) hsq hcq) rfl (lookup_filter_ne hne.symm c.queues) htouch'

theorem executeAdmin_running {cmd : NvmeCommand} (hcmd : ¬cmd.Resizes) :
    Triple (fun c => Running p adminQueueID adminQueueID n c ∧ cmd.KeepsRings (rings c.ops)) (executeAdmin E cmd)
      (fun _ => Running p adminQueueID adminQueueID n) Tracked := by
  have hcreate : cmd.opcode = adminCreateCQ ∨ cmd.opcode = adminCreateSQ → cmd.sizeField + 1 ≠ 0 ∧
      cmd.qid ≠ adminQueueID :=
    fun hop => ⟨sizeField_succ fun h => hcmd ⟨hop, .inr h⟩, fun h => hcmd ⟨hop, .inl h⟩⟩
  refine executeAdmin_triple E (fun hop => ?_) (fun hop => ?_) (fun hop => ?_) (fun hop => ?_)
    fun h => h.running.conseq (fun _ h => h.1) (fun _ _ h => h) fun _ _ h => h
  · obtain ⟨hfield, hne⟩ := hcreate (.inl hop)
    refine (create_running hne ?_ ?_ ?_ ?_).conseq ?_ (fun _ _ h => h) fun _ _ h => h
    · exact fun m q => cacheQueueMemory_id E m _
    · intro m q
      rw [completionRecord, cacheQueueMemory_size]
      exact hfield
    · exact fun _ h => h
    · exact fun _ => trivial
    · rintro c ⟨hc, hkeeps, -⟩
      obtain ⟨hnone, hsame⟩ := hkeeps hop
      refine ⟨hc, fun m q hq => ?_⟩
      rw [hnone] at hq
      simp only [Rings.apply, update_self]
      refine hq.createCQ hfield hsame ?_
      obtain ⟨s, k, heq⟩ := completionRecord_eq E cmd m q
      rw [heq]
      rfl
  · obtain ⟨hfield, hne⟩ := hcreate (.inr hop)
    refine (create_running hne ?_ ?_ ?_ ?_).conseq ?_ (fun _ _ h => h) fun _ _ h => h
    · exact fun m q => cacheQueueMemory_id E m _
    · intro m q
      rw [submissionRecord, cacheQueueMemory_size]
      exact hfield
    · exact fun _ h => h
    · exact fun _ => trivial
    · rintro c ⟨hc, -, hkeeps, -⟩
      obtain ⟨hnone, hsame⟩ := hkeeps hop
      refine ⟨hc, fun m q hq => ?_⟩
      rw [hnone] at hq
      simp only [Rings.apply, update_self]
      refine hq.createSQ hfield hsame ?_
      obtain ⟨s, k, heq⟩ := submissionRecord_eq E cmd m q
      rw [heq]
      rfl
  -- the admin queue has both its rings, so it is not the one deleted
  · rintro c ⟨hc, -, -, hkeeps, -⟩
    have hnone := hkeeps hop
    have hne : cmd.qid ≠ adminQueueID := by
      intro h0
      obtain ⟨x, hx, -⟩ := hc.room (by rw [hc.found]; exact some_ne_none _)
      rw [h0, hx] at hnone
      cases hnone
    refine delete_running hne ?_ ?_ c ⟨hc, update_self _ _ _, hnone⟩
    · exact fun _ h => h
    · exact fun _ => trivial
  · rintro c ⟨hc, -, -, -, hkeeps⟩
    have hnone := hkeeps hop
    have hne : cmd.qid ≠ adminQueueID := fun h0 => hc.listed (h0 ▸ hnone)
    refine delete_running hne ?_ ?_ c ⟨hc, hnone, update_self _ _ _⟩
    · exact fun _ h => h
    · exact fun _ => trivial

theorem executeFor_running {cmd : NvmeCommand} (slot : UInt16) (hc : Running p id cid n c)
    (hcmd : id = adminQueueID → ¬cmd.Resizes ∧ cmd.KeepsRings (rings c.ops)) :
    Triple (· = c) (executeFor E p id slot cmd) (fun _ => Running p id cid n) Tracked := by
  have hexecute : Triple (· = c) (executeCommand E id cmd) (fun _ => Running p id cid n) Tracked := by
    refine triple_ite (fun hid => ?_) fun _ => ?_
    · have hcid : cid = adminQueueID := by
        obtain ⟨q, hq, rfl⟩ := hc.route
        exact if_pos ((hc.tracks.sound.id_eq hc.found hq).trans hid)
      obtain ⟨hresizes, hkeeps⟩ := hcmd hid
      subst hid hcid
      exact (executeAdmin_running E hresizes).of_state ⟨hc, hkeeps⟩
    · exact (moves_executeIo E cmd).running.of_state hc
  refine executeFor_rule E slot hexecute (fun x h => ?_) fun x h => ?_
  · exact h.ghost p (fun _ => rfl) (fun _ => rfl) fun _ => rfl
  · exact Tracks.ghost h p (fun _ => rfl) fun _ => rfl

theorem advanceHead_running :
    Triple (Running p id cid n) (advanceHead p : NvmeProg M B Unit) (fun _ => Running p id cid n) Tracked := by
  intro c hc
  obtain ⟨q, hq, -⟩ := hc.route
  rw [advanceHead_run hc.tracks.sound hq]
  exact hc.fetch hq

theorem complete_running (cmdID : UInt16) (result : UInt32) (status : UInt16) :
    Triple (Running p id cid (n + 1)) (complete E p cmdID result status) (fun _ => Running p id cid n) Tracked := by
  intro c hc
  obtain ⟨q, hq, hcid⟩ := hc.route
  have hfind : (if q.id = adminQueueID then some p else c.find q.cqID) = c.find cid := by
    rw [← hcid, NvmeQueue.completionID]
    split
    · rename_i h0
      rw [← h0, hc.tracks.sound.id_eq hc.found hq]
      exact hc.found.symm
    · rfl
  refine complete_rule E hc.tracks.sound hq result (fun _ h => hc.tracks.quiet h) (fun {k qk c₁} hk hqk h => ?_) c rfl
  rw [hfind, ← h.find] at hk
  exact ((hc.quiet h).post hk hqk).ghost p (fun _ => rfl) (fun _ => rfl) fun _ => rfl

def KeepsRings (c : Controller M B) (p : Nat) : Prop :=
  KeepsSizes E c p ∧ ((c.queue p).id = adminQueueID → ∀ cmd ∈ commandAt E c p, cmd.KeepsRings (rings c.ops))
deriving Decidable

theorem turn_running (hc : Running p id cid (n + 1) c) (hk : KeepsRings E c p) :
    Triple (· = c) (turn E p) (fun _ => Running p id cid n) Tracked := by
  obtain ⟨q, hq, rfl⟩ := hc.tracks.sound.found hc.found
  refine turn_triple E hq (fun _ h => hc.tracks.quiet h) (fun h => ?_) fun {cmd c₁} hat h => ?_
  · exact advanceHead_running.of_state ((hc.quiet h).weaken (Nat.le_succ n))
  · have hcmd : q.id = adminQueueID → ¬cmd.Resizes ∧ cmd.KeepsRings (rings c₁.ops) := by
      intro h0
      have hadmin : (c.queue p).id = adminQueueID := by rw [Controller.queue_eq hq, h0]
      rw [h.ops]
      exact ⟨hk.1 hadmin cmd hat, hk.2 hadmin cmd hat⟩
    refine Triple.bind (executeFor_running E q.sqHead (hc.quiet h) hcmd) fun r => ?_
    exact Triple.bind advanceHead_running fun _ => complete_running E cmd.cid r.1 r.2

theorem updateIRQ_tracks : Keeps (Tracks (M := M) (B := B)) (updateIRQ E) := updateIRQ_triple E Tracks.of_eq fun h => h

theorem loop_tracks {tail : UInt16} (htail : tail < size) (turns : Nat) (hc : InLoop p id size tail head c)
    (hr : Running p id cid (ringDistance size head tail) c) (hP : TurnsMeet E (KeepsRings E) p turns c) :
    Tracks (processSubmissionQueue E p turns c).2 := by
  refine triple_state.mp (processSubmissionQueue_rule E
    (J := fun _ head c => InLoop p id size tail head c ∧ Running p id cid (ringDistance size head tail) c)
    (fun h => h.1.2) (fun h => h.2.tracks) (fun h => (updateIRQ_tracks E).of_state h.2.tracks)
    (fun {_ head c} hne h hkeeps => ?_) ⟨hc, hr⟩ hP)
  obtain ⟨hc, hr⟩ := h
  -- one turn uses up one of the places
  have hstep := ringDistance_step htail hne
  obtain ⟨n, hn⟩ : ∃ n, ringDistance size head tail = n + 1 := ⟨ringDistance size head tail - 1, by omega⟩
  rw [hn] at hr hstep
  exact ((turn_inLoop E hc hkeeps.1).and (turn_running E hr hkeeps)).conseq (fun _ h => ⟨h, h⟩)
    (fun _ _ h => ⟨h.1, h.2.weaken (by omega)⟩) fun _ _ h => h.2

end Loop

/-! ## Events -/

section Step

variable (E : NvmeEnv M B)

/-- The tail of submission queue `id`, with its record at `p`, moves inside its ring, and the completion queue has room
for all commands up to it; the admin commands among them keep the rings of one number together. -/
def Submits (turns : Nat) (c : Controller M B) (p : Nat) (id tail : UInt16) : Prop :=
  (rings c.ops).sq id ≠ none ∧ tail < (c.queue p).size ∧
  (c.find (c.queue p).completionID ≠ none → ∃ x ∈ (rings c.ops).cq (c.queue p).completionID,
    x.held + ringDistance (c.queue p).size (c.queue p).sqHead tail ≤ x.size) ∧
  TurnsMeet E (KeepsRings E) p turns (c.submit p id tail)

/-- The head of completion queue `id` moves inside its ring, over entries that were written. -/
def Consumes (c : Controller M B) (id head : UInt16) : Prop :=
  ∃ x ∈ (rings c.ops).cq id, head.toNat < x.size ∧ x.ahead head.toNat ≤ x.held

/-- The condition on one event. The two admin queues are enabled with one size. -/
def RingOrderly (turns : Nat) (c : Controller M B) : NvmeEvent M → Prop
  | .guest _ => True
  | .mmio offset value =>
    (offset = regCC → value.toUInt32 &&& 1 ≠ 0 → c.aqa &&& (0xfff : UInt32) = (c.aqa >>> 16) &&& (0xfff : UInt32)) ∧
    (∀ p ∈ submissionDoorbell c offset,
      Submits E turns c p (doorbellQueue (offset - doorbellBase)) value.toUInt32.toUInt16) ∧
    (completionDoorbell c offset ≠ none → Consumes c (doorbellQueue (offset - doorbellBase)) value.toUInt32.toUInt16)

theorem submit_tracks {turns : Nat} (h : Tracks c) {p : Nat} (hp : c.find id = some p) {tail : UInt16}
    (hs : Submits E turns c p id tail) : Tracks (processSubmissionQueue E p turns (c.submit p id tail)).2 := by
  obtain ⟨hlisted, hlt, hroom, hmeets⟩ := hs
  obtain ⟨q, hq, hqid⟩ := h.sound.found hp
  obtain ⟨s, hsq⟩ := ne_none_iff_exists'.1 hlisted
  rw [Controller.queue_eq hq] at hlt hroom
  have hnew : ((rings c.ops).apply (.submit id tail)).sq id = some { s with tail := tail.toNat } := by
    simp only [Rings.apply, update_self, hsq, map_some]
  have htracks : Tracks (c.submit p id tail) := by
    refine h.modify hp (fun q' hq' hagrees => ?_) trivial (by simp) fun _ h => h
    rw [hnew]
    refine ⟨?_, nofun, fun x hx => (hagrees.cq x hx).congr (hagrees.cq x hx).size rfl rfl rfl rfl, hagrees.noCq⟩
    rintro s' ⟨⟩
    obtain ⟨hsize, hhead, -, hin⟩ := hagrees.sq s hsq
    exact ⟨hsize, hhead, rfl, hin⟩
  have hloop := submit_inLoop h.sound hq id tail
  rw [hqid] at hloop
  have hrunning : Running p id q.completionID (ringDistance q.size q.sqHead tail) (c.submit p id tail) := by
    refine ⟨htracks, hp, ?_, ?_, ?_⟩
    · change (rings (c.ops ++ [_])).sq id ≠ none
      rw [rings_concat, hnew]
      exact some_ne_none _
    · show ∃ q', (c.modifyQueue p _).heap[p]? = some q' ∧ _
      rw [getElem?_modifyQueue, if_pos rfl, hq]
      exact ⟨_, rfl, rfl⟩
    · show c.find q.completionID ≠ none → ∃ x ∈ (rings (c.ops ++ [RingOp.submit id tail])).cq q.completionID, _
      rw [rings_concat]
      exact hroom
  exact loop_tracks E hlt turns hloop hrunning hmeets

theorem consume_tracks (h : Tracks c) {p : Nat} (hp : c.find id = some p) (hc : Consumes c id head) :
    Tracks ((c.modifyQueue p fun q => q.advanceCompletionHead head).note (.consume id head)) := by
  obtain ⟨x, hx, hlt, hle⟩ := hc
  have hnew : ((rings c.ops).apply (.consume id head)).cq id = some (x.takeTo head.toNat) := by
    simp only [Rings.apply, update_self, mem_def.1 hx, map_some]
  refine h.modify hp (fun q hq hagrees => ?_) trivial (advanceCompletionHead_keeps head) fun _ h => h
  have hcons := (hagrees.cq x hx).consume hlt hle
  obtain ⟨cqHead, cqPending, heq⟩ := advanceCompletionHead_eq q head
  rw [hnew]
  rw [heq] at hcons ⊢
  refine ⟨fun s hs => (hagrees.sq s hs).congr (hagrees.sq s hs).size rfl rfl, hagrees.noSq, ?_, nofun⟩
  rintro x' ⟨⟩
  exact hcons

theorem change_tracks {f : Controller M B → Controller M B} (hheap : ∀ c, (f c).heap = c.heap)
    (hqueues : ∀ c, (f c).queues = c.queues) (hops : ∀ c, (f c).ops = c.ops) : Keeps Tracks (change f) :=
  keeps_update fun c h => h.of_eq (hheap c) (hqueues c) (hops c)

theorem adminSize_ne_zero (x : UInt32) : (x &&& 0xfff).toUInt16 + 1 ≠ 0 := by
  intro h
  have hle : (x &&& 0xfff).toNat ≤ 0xfff := by
    rw [UInt32.toNat_and]
    exact Nat.and_le_right
  have hnat := congrArg UInt16.toNat h
  rw [UInt16.toNat_add, UInt32.toNat_toUInt16] at hnat
  change ((x &&& 0xfff).toNat % 2 ^ 16 + 1) % 2 ^ 16 = 0 at hnat
  omega

theorem configureAdminQueue_tracks (h : Tracks c)
    (hsame : c.aqa &&& (0xfff : UInt32) = (c.aqa >>> 16) &&& (0xfff : UInt32)) :
    Tracks (configureAdminQueue E c).2 := by
  have hne := adminSize_ne_zero c.aqa
  simp only [configureAdminQueue, change, update_run, ← hsame, if_neg hne, ite_self]
  generalize (c.aqa &&& 0xfff).toUInt16 + 1 = size at hne ⊢
  obtain ⟨sm, cm, heq⟩ := cacheQueueMemory_eq E c.mem
    { id := adminQueueID, size, sqAddr := c.asq, cqAddr := c.acq, cqPhase := true, interrupts := true }
  rw [heq]
  refine h.new rfl hne (fun _ h => h) trivial ?_
  simp only [Rings.apply, update_self]
  have hcq : Agrees { id := adminQueueID, size, cqPhase := true } none (some { size := size.toNat }) :=
    (agrees_new adminQueueID).createCQ hne (by simp) rfl
  refine hcq.createSQ hne ?_ rfl
  rintro x ⟨⟩
  rfl

theorem writeCC_tracks (h : Tracks c) (value : UInt32)
    (hsame : value &&& 1 ≠ 0 → c.aqa &&& (0xfff : UInt32) = (c.aqa >>> 16) &&& (0xfff : UInt32)) :
    Tracks (writeCC E value c).2 := by
  by_cases hoff : value &&& 1 = 0
  · have hkeeps : Keeps Tracks (writeCC E value : NvmeProg M B Unit) := by
      refine (keeps_read _).bind fun wasEnabled =>
        Keeps.bind (change_tracks (fun _ => rfl) (fun _ => rfl) fun _ => rfl) fun _ => ?_
      rw [if_pos hoff]
      refine Keeps.bind (change_tracks (fun _ => rfl) (fun _ => rfl) fun _ => rfl) fun _ => keeps_ite ?_ (keeps_pure _)
      refine Keeps.bind (keeps_update fun c h => ?_) fun _ => keeps_require _ _
      refine ⟨⟨h.sound.sized, nofun⟩, nofun, fun _ => ?_, h.ordered.concat trivial⟩
      show (rings (c.ops ++ [RingOp.reset])).sq _ = none ∧ (rings (c.ops ++ [RingOp.reset])).cq _ = none
      rw [rings_concat]
      exact ⟨rfl, rfl⟩
    exact keeps_iff.mp hkeeps c h
  · have hadmin :=
      configureAdminQueue_tracks E (c := { c with cc := value, pageSz := 4096 * 2 ^ ((value >>> 7) &&& 0xf).toNat })
      (h.of_eq rfl rfl rfl) (hsame hoff)
    simp only [writeCC, bind_run, read_run, change, update_run, if_neg hoff]
    exact hadmin.of_eq rfl rfl rfl

theorem step_tracks (turns : Nat) (c : Controller M B) (e : NvmeEvent M) (h : Tracks c) (ho : RingOrderly E turns c e) :
    Tracks (step E turns c e) := by
  cases e with
  | guest m => exact h.of_eq rfl rfl rfl
  | mmio offset value =>
    obtain ⟨hadmin, hsubmit, hconsume⟩ := ho
    refine triple_state.mp (writeMmio_triple E Tracks.of_eq (fun h => h) h (fun hcc => ?_) (fun p hp hfind => ?_)
      fun p hp hfind => ?_)
    · exact triple_state.mpr (writeCC_tracks E h _ (hadmin hcc))
    · exact triple_state.mpr (submit_tracks E h hfind (hsubmit p hp))
    · exact consume_tracks h hfind (hconsume (ne_none_iff_exists'.2 ⟨p, hp⟩))

end Step

instance (r : Rings) (op : RingOp) : Decidable (r.Allows op) := match op with
  | .post _ _ _ => inferInstanceAs (Decidable (∃ x ∈ _, _))
  | .reset | .admin _ _ | .createCQ _ _ | .createSQ _ _ | .deleteSQ _ | .deleteCQ _ | .submit _ _ | .fetch _
  | .consume _ _ =>
    isTrue trivial

instance (E : NvmeEnv M B) (turns : Nat) (c : Controller M B) (e : NvmeEvent M) : Decidable (RingOrderly E turns c e) :=
  match e with
  | .guest _ => isTrue trivial
  | .mmio _ _ => inferInstanceAs (Decidable ((_ → _ → _) ∧ (∀ p ∈ _, _ ∧ _ ∧ (_ → ∃ x ∈ _, _) ∧ _) ∧ (_ → ∃ x ∈ _, _)))

/-- Five commands on a queue pair of four entries; the guest takes three completions before the last two. -/
def wrappingRun : List (NvmeEvent Bytes) :=
  createPair ++ [.mmio doorbell1 2, .mmio doorbell1 3, .mmio (doorbell1 + 4) 3, .mmio doorbell1 0, .mmio doorbell1 1]

/-- Completion queue 1 with `cqField + 1` entries and submission queue 1 with two. -/
def unequalMemory (cqField : Nat) : Bytes :=
  commandEntry adminCreateCQ 1 512 (0x10000 * cqField + 1) 1 ++ commandEntry adminCreateSQ 2 256 0x10001 0x10001

def threeRun : List (NvmeEvent Bytes) := createPair ++ [.mmio doorbell1 1, .mmio doorbell1 0, .mmio doorbell1 1]

/-- Queue pair 1, of which the submission queue is then deleted. -/
def deleteMemory : Bytes :=
  commandEntry adminCreateCQ 1 512 0x30001 1 ++ commandEntry adminCreateSQ 2 256 0x30001 0x10001 ++
    commandEntry adminDeleteSQ 3 0 1 0

def deleteRun : List (NvmeEvent Bytes) := [.mmio regAQA 0x30003, .mmio regACQ 1024, .mmio regCC 1, .mmio doorbellBase 3]

end CrumbleCracker.Nvme
