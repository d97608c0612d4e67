import CrumbleCracker.Nvme.Controller

/-!
# What data transfers leave alone

`Moves R x Q` : the program ends with a value that has `Q` or with a Go error, and changes the controller as `R` allows.
Everything a command does with its data changes only guest memory and the backend (`Quiet`; `moves_transferPRP`,
`moves_executeIo`), so a panic, an endless loop or a change to a queue can only come from the loop over the commands and
from the admin commands that create and delete queues. What only reads guest memory changes nothing (`Same`).
-/

namespace CrumbleCracker.Nvme

open Prog

variable {M B : Type}

/-- Only guest memory and the backend differ. -/
def Quiet (c c' : Controller M B) : Prop := c' = { c with mem := c'.mem, dev := c'.dev }

namespace Quiet

variable (c : Controller M B)

theorem refl : Quiet c c := rfl

theorem trans {c₁ c₂ c₃ : Controller M B} (h : Quiet c₁ c₂) (h' : Quiet c₂ c₃) : Quiet c₁ c₃ := by
  unfold Quiet at h h' ⊢
  rw [h] at h'
  exact h'

theorem mem (m : M) : Quiet c { c with mem := m } := rfl

theorem dev (b : B) : Quiet c { c with dev := b } := rfl

variable {c c' : Controller M B} (h : Quiet c c')

include h

theorem heap : c'.heap = c.heap := by rw [h]

theorem queues : c'.queues = c.queues := by rw [h]

theorem ops : c'.ops = c.ops := by rw [h]

theorem find (id : UInt16) : c'.find id = c.find id := by rw [h]; rfl

end Quiet

def Same (c c' : Controller M B) : Prop := c' = c

/-- The program ends with a value that has `Q` or with a Go error, and changes the controller as `R` allows. -/
def Moves {α : Type} (R : Controller M B → Controller M B → Prop) (x : NvmeProg M B α) (Q : α → Prop) : Prop :=
  ∀ c, Triple (R c) x (fun a c' => Q a ∧ R c c') fun e c' => e.IsError ∧ R c c'

section Rules

variable {R : Controller M B → Controller M B → Prop} {α β : Type} {Q : α → Prop} {Q' : β → Prop} {x : NvmeProg M B α}

theorem moves_pure {a : α} (h : Q a) : Moves R (pure a) Q := fun _ => triple_pure fun _ hc => ⟨h, hc⟩

theorem moves_fail {e : NvmeFault} (h : e.IsError) : Moves R (.fail e : NvmeProg M B α) Q :=
  fun _ => triple_fail fun _ hc => ⟨h, hc⟩

theorem moves_read {f : Controller M B → α} (h : ∀ c, Q (f c)) : Moves R (read f) Q :=
  fun _ => triple_read fun c' hc => ⟨h c', hc⟩

theorem moves_update {f : Controller M B → α × Controller M B} (h : ∀ c, Q (f c).1 ∧ Quiet c (f c).2) :
    Moves Quiet (update f) Q := fun _ => triple_update fun c' hc => ⟨(h c').1, hc.trans (h c').2⟩

theorem moves_change {f : Controller M B → Controller M B} (h : ∀ c, Quiet c (f c)) :
    Moves Quiet (change f) fun _ => True :=
  moves_update fun c => ⟨trivial, h c⟩

theorem Moves.bind {f : α → NvmeProg M B β} (hx : Moves R x Q) (hf : ∀ a, Q a → Moves R (f a) Q') :
    Moves R (x >>= f) Q' := by
  intro c
  refine (hx c).bind fun a => ?_
  rintro c' ⟨ha, hc⟩
  exact hf a ha c c' hc

theorem Moves.mono {Q' : α → Prop} (h : Moves R x Q) (hQ : ∀ a, Q a → Q' a) : Moves R x Q' :=
  fun c => (h c).conseq (fun _ hc => hc) (fun a _ ha => ⟨hQ a ha.1, ha.2⟩) fun _ _ he => he

theorem moves_require {p : Prop} [Decidable p] {e : NvmeFault} (h : e.IsError) :
    Moves R (require p e : NvmeProg M B Unit) fun _ => p :=
  fun _ => triple_require (fun _ hc hp => ⟨hp, hc⟩) fun _ hc _ => ⟨h, hc⟩

theorem moves_ite {p : Prop} [Decidable p] {y : NvmeProg M B α} (hx : p → Moves R x Q) (hy : ¬p → Moves R y Q) :
    Moves R (if p then x else y) Q := by
  split
  · exact hx ‹_›
  · exact hy ‹_›

theorem moves_attempt (h : Moves R x Q) :
    Moves R (attempt x : NvmeProg M B (Except NvmeFault α)) fun r => ∀ e, r = .error e → e.IsError := by
  intro c c₁ hc
  show (∀ e, (x c₁).1 = .error e → e.IsError) ∧ R c (x c₁).2
  rcases (h c).ends hc with ⟨a, c₂, hx, hrun⟩ | ⟨e, c₂, hx, hrun⟩ <;> rw [hx]
  · exact ⟨nofun, hrun.2⟩
  · refine ⟨fun e' he => ?_, hrun.2⟩
    cases he
    exact hrun.1

theorem Moves.triple (h : Moves Quiet x Q) {P : Controller M B → Prop} (hP : ∀ {c c'}, P c → Quiet c c' → P c') :
    Triple P x (fun a c => Q a ∧ P c) fun e c => e.IsError ∧ P c :=
  fun c hc => (h c).conseq (fun _ h => h) (fun _ _ ha => ⟨ha.1, hP hc ha.2⟩)
    (fun _ _ he => ⟨he.1, hP hc he.2⟩) c (.refl c)

theorem Moves.run (h : Moves Same x Q) {c : Controller M B} {r : Except NvmeFault α} (hr : (x c).1 = r) :
    x c = (r, c) := by
  rcases (h c).ends rfl with ⟨a, c', hx, hrun⟩ | ⟨e, c', hx, hrun⟩ <;> rw [hx] at hr ⊢ <;> rw [← hr, hrun.2]

end Rules

/-- `R` allows the writes to guest memory of a transfer in this direction. -/
def Writes (R : Controller M B → Controller M B → Prop) (write : Bool) : Prop :=
  write = true → ∀ c₀ c m, R c₀ c → R c₀ { c with mem := m }

theorem Quiet.writes (write : Bool) : Writes (Quiet (M := M) (B := B)) write := fun _ _ c m h => h.trans (.mem c m)

theorem Same.writes : Writes (Same (M := M) (B := B)) false := nofun

section Data

variable (E : NvmeEnv M B) {R : Controller M B → Controller M B → Prop} {write : Bool} (hR : Writes R write)

theorem moves_readIPA (addr : UInt64) (n : Nat) : Moves R (readIPA E addr n) fun b => b.length = n := by
  intro c c' hc
  simp only [readIPA]
  rcases hb : E.memory.readIPA c'.mem addr n with - | b
  · exact ⟨by decide, hc⟩
  · exact ⟨E.memory.readIPA_length hb, hc⟩

theorem moves_writeIPA (hR : Writes R true) (addr : UInt64) (b : Bytes) :
    Moves R (writeIPA E addr b) fun _ => True := by
  intro c c' hc
  simp only [writeIPA]
  rcases E.memory.writeIPA c'.mem addr b with - | m
  · exact ⟨by decide, hc⟩
  · exact ⟨trivial, hR rfl c c' m hc⟩

theorem moves_slice {data : Bytes} {off n : Nat} (h : off + n ≤ data.length) :
    Moves R (slice data off n : NvmeProg M B Bytes) fun b => b.length = n := by
  rw [slice, if_pos h]
  apply moves_pure
  simp only [field, List.length_take, List.length_drop]
  omega

include hR in
theorem moves_transferPage (addr : UInt64) {data : Bytes} {off n : Nat} (h : off + n ≤ data.length) :
    Moves R (transferPage E addr data off n write) fun d => d.length = data.length := by
  refine (moves_slice h).bind fun part _ => ?_
  refine (moves_require (by decide)).bind fun _ _ => ?_
  refine moves_ite (fun hw => ?_) fun _ => ?_
  · subst hw
    exact (moves_writeIPA E hR addr part).bind fun _ _ => moves_pure rfl
  · refine (moves_readIPA E addr n).bind fun raw hraw => moves_pure ?_
    rw [length_writeAt, hraw]
    omega

/-! ## PRP lists -/

section Walk

variable {α : Type} {fn : α → UInt64 → Nat → NvmeProg M B α} {I : Nat → α → Prop}
  (hfn : ∀ a addr remaining chunk, chunk ≤ remaining → I remaining a →
    Moves R (fn a addr chunk) (I (remaining - chunk)))

include hfn

theorem moves_walkEntries (page : Nat) {list : Bytes} (n i : Nat) (hlist : (i + n) * 8 ≤ list.length) (remaining : Nat)
    (a : α) (ha : I remaining a) : Moves R (walkEntries page fn list n i remaining a) fun r => I r.1 r.2 := by
  induction n generalizing i remaining a with
  | zero => exact moves_pure ha
  | succ n ih =>
    refine (moves_slice (by omega)).bind fun raw _ => ?_
    refine (hfn a _ remaining _ (Nat.min_le_right page remaining) ha).bind fun a' ha' => ?_
    exact ih (i + 1) (by omega) _ a' ha'

/-- Every list page but the last takes entries away, so the lists end. -/
theorem moves_walkLists {page : Nat} (hpage : 2 ≤ page / 8) (turns : Nat) (listAddr : UInt64) (entries remaining : Nat)
    (hturns : entries < turns) (a : α) (ha : I remaining a) :
    Moves R (walkLists E page fn turns listAddr entries remaining a) fun a' => ∃ r, I r a' := by
  induction turns generalizing listAddr entries remaining a with
  | zero => cases hturns
  | succ turns ih =>
    rw [walkLists]
    refine moves_ite (fun _ => moves_pure ⟨remaining, ha⟩) fun hentries => ?_
    refine (moves_readIPA E listAddr page).bind fun list hlist => ?_
    refine moves_ite (fun hlast => ?_) fun hmore => ?_
    · refine (moves_walkEntries hfn page entries 0 (by omega) remaining a ha).bind fun r hr => ?_
      exact moves_pure ⟨r.1, hr⟩
    · refine (moves_walkEntries hfn page (page / 8 - 1) 0 (by omega) remaining a ha).bind fun r hr => ?_
      refine (moves_slice (by omega)).bind fun raw _ => ?_
      refine (moves_require (by decide)).bind fun _ _ => ?_
      exact ih _ _ _ (by omega) r.2 hr

theorem moves_walkPRPList (listAddr : UInt64) (remaining : Nat) (a : α) (ha : I remaining a) :
    Moves R (walkPRPList E listAddr remaining fn a) fun a' => ∃ r, I r a' := by
  refine moves_ite (fun _ => moves_pure ⟨remaining, ha⟩) fun _ => ?_
  refine (moves_require (by decide)).bind fun _ _ => ?_
  refine (moves_read (Q := fun _ => True) fun _ => trivial).bind fun page _ => ?_
  refine (moves_require (by decide)).bind fun _ hpage => ?_
  exact moves_walkLists E hfn hpage _ listAddr _ remaining (Nat.lt_succ_self _) a ha

end Walk

/-- The run lies before `off`, and what is left to place reaches to the end of the data. -/
def PrpRun.Within (len remaining : Nat) (r : PrpRun) : Prop :=
  r.data.length = len ∧ r.off + remaining = len ∧ r.runOff + r.runLen ≤ r.off

section Run

include hR

theorem moves_flushRun {len remaining : Nat} {r : PrpRun} (h : r.Within len remaining) :
    Moves R (flushRun E write r) (PrpRun.Within len remaining) := by
  obtain ⟨hlen, hoff, hrun⟩ := h
  refine moves_ite (fun _ => moves_pure ⟨hlen, hoff, hrun⟩) fun _ => ?_
  refine (moves_transferPage E hR r.runAddr (by omega)).bind fun data hdata => ?_
  exact moves_pure ⟨hdata.trans hlen, hoff, by show r.runOff + 0 ≤ r.off; omega⟩

theorem moves_gatherPage (len : Nat) (r : PrpRun) (addr : UInt64) (remaining chunk : Nat)
    (hchunk : chunk ≤ remaining) (h : r.Within len remaining) :
    Moves R (gatherPage E write r addr chunk) (PrpRun.Within len (remaining - chunk)) := by
  have hstart : ∀ r' : PrpRun, r'.Within len remaining →
      PrpRun.Within len (remaining - chunk)
        { r' with runAddr := addr, runOff := r'.off, runLen := chunk, off := r'.off + chunk } := by
    rintro r' ⟨hlen, hoff, -⟩
    exact ⟨hlen, by show r'.off + chunk + (remaining - chunk) = len; omega, Nat.le_refl _⟩
  refine moves_ite (fun _ => moves_pure (hstart r h)) fun _ => ?_
  refine moves_ite (fun _ => ?_) fun _ => ?_
  · obtain ⟨hlen, hoff, hrun⟩ := h
    apply moves_pure
    refine ⟨hlen, ?_, ?_⟩
    · show r.off + chunk + (remaining - chunk) = len
      omega
    · show r.runOff + (r.runLen + chunk) ≤ r.off + chunk
      omega
  · exact (moves_flushRun E hR h).bind fun r' hr' => moves_pure (hstart r' hr')

theorem moves_transferPRP (prp1 prp2 : UInt64) (data : Bytes) :
    Moves R (transferPRP E prp1 prp2 data write) fun d => d.length = data.length := by
  refine moves_ite (fun _ => moves_pure rfl) fun _ => ?_
  refine (moves_require (by decide)).bind fun _ _ => ?_
  refine (moves_read (Q := fun _ => True) fun _ => trivial).bind fun page _ => ?_
  refine (moves_transferPage E hR prp1 (by omega)).bind fun d hd => ?_
  refine moves_ite (fun _ => moves_pure hd) fun hmore => ?_
  refine moves_ite (fun _ => ?_) fun _ => ?_
  · refine (moves_transferPage E hR prp2 (by omega)).mono fun d' hd' => ?_
    exact hd'.trans hd
  · refine (moves_walkPRPList E (moves_gatherPage E hR data.length) prp2 _ _
      ⟨hd, ?_, Nat.zero_le _⟩).bind fun r hr => ?_
    · show min (page - prp1.toNat % page) data.length + (d.length - min (page - prp1.toNat % page) data.length) =
        data.length
      omega
    · obtain ⟨remaining, hwithin⟩ := hr
      refine (moves_flushRun E hR hwithin).bind fun r' hr' => ?_
      exact moves_pure hr'.1

end Run

theorem moves_prpIsContiguous (prp1 prp2 : UInt64) (size : Nat) :
    Moves R (prpIsContiguous E prp1 prp2 size) fun _ => True := by
  refine (moves_read (Q := fun _ => True) fun _ => trivial).bind fun page _ => ?_
  refine moves_ite (fun _ => moves_pure trivial) fun _ => ?_
  refine moves_ite (fun _ => moves_pure trivial) fun _ => ?_
  refine (moves_attempt (moves_walkPRPList (I := fun _ _ => True) E ?_ prp2 _ _ trivial)).bind fun r hr => ?_
  · intro expected addr _ _ _ _
    refine (moves_require (by decide)).bind fun _ _ => ?_
    exact moves_pure trivial
  · cases r with
    | ok a => exact moves_pure trivial
    | error e =>
      show Moves R (if e.IsError then pure false else .fail e) _
      rw [if_pos (hr e rfl)]
      exact moves_pure trivial

/-! ## Commands -/

theorem moves_writePRP (prp1 prp2 : UInt64) (src : Bytes) : Moves Quiet (writePRP E prp1 prp2 src) fun _ => True :=
  (moves_transferPRP E (Quiet.writes true) prp1 prp2 src).bind fun _ _ => moves_pure trivial

theorem moves_readPRP (prp1 prp2 : UInt64) (n : Nat) : Moves Same (readPRP E prp1 prp2 n) fun _ => True :=
  (moves_transferPRP E Same.writes prp1 prp2 _).mono fun _ _ => trivial

theorem moves_directPath (cmd : NvmeCommand) : Moves R (directPath E cmd) fun _ => True := by
  refine moves_ite (fun _ => moves_pure trivial) fun _ => ?_
  refine (moves_require (by decide)).bind fun _ _ => ?_
  refine (moves_prpIsContiguous E cmd.prp1 cmd.prp2 cmd.count).bind fun contiguous _ => ?_
  exact moves_ite (fun _ => moves_read fun _ => trivial) fun _ => moves_pure trivial

theorem moves_executeRead (backend : BlockBackend B) (cmd : NvmeCommand) :
    Moves Quiet (executeRead E backend cmd) fun _ => True := by
  refine (moves_directPath E cmd).bind fun direct _ => ?_
  refine (moves_update (Q := fun _ => True) fun c => ⟨trivial, .dev c _⟩).bind fun r _ => ?_
  refine moves_ite (fun _ => ?_) fun _ => ?_
  · refine (moves_change fun c => .mem c _).bind fun _ _ => ?_
    refine moves_ite (fun _ => moves_fail (by decide)) fun _ => ?_
    exact (moves_change fun c => .mem c _).bind fun _ _ => moves_pure trivial
  · refine moves_ite (fun _ => moves_pure trivial) fun _ => ?_
    exact (moves_writePRP E cmd.prp1 cmd.prp2 _).bind fun _ _ => moves_pure trivial

theorem moves_executeWrite (backend : BlockBackend B) (cmd : NvmeCommand) :
    Moves Quiet (executeWrite E backend cmd) fun _ => True := by
  refine (moves_directPath E cmd).bind fun direct _ => ?_
  refine moves_ite (fun _ => ?_) fun _ => ?_
  · refine (moves_read (Q := fun _ => True) fun _ => trivial).bind fun buf _ => ?_
    refine (moves_update (Q := fun _ => True) fun c => ⟨trivial, .dev c _⟩).bind fun r _ => ?_
    refine moves_ite (fun _ => moves_fail (by decide)) fun _ => ?_
    exact (moves_require (by decide)).bind fun _ _ => moves_pure trivial
  · refine (moves_transferPRP E (Quiet.writes false) cmd.prp1 cmd.prp2 _).bind fun buf _ => ?_
    refine (moves_update (Q := fun _ => True) fun c => ⟨trivial, .dev c _⟩).bind fun r _ => ?_
    exact moves_ite (fun _ => moves_pure trivial) fun _ => moves_pure trivial

theorem moves_executeIo (cmd : NvmeCommand) : Moves Quiet (executeIo E cmd) fun _ => True := by
  unfold executeIo
  split
  · exact moves_pure trivial
  · rename_i backend _
    refine moves_ite (fun _ => moves_pure trivial) fun _ => ?_
    refine moves_ite (fun _ => moves_executeRead E backend cmd) fun _ => ?_
    exact moves_ite (fun _ => moves_executeWrite E backend cmd) fun _ => moves_pure trivial

/-- The admin commands by what they do: two create a queue, two delete one, the others only move data. -/
theorem executeAdmin_triple {cmd : NvmeCommand} {P P' : Controller M B → Prop} {F : NvmeFault → Controller M B → Prop}
    (hcq : cmd.opcode = adminCreateCQ → Triple P
      (createQueue cmd.qid (completionRecord E cmd) (.createCQ cmd.qid (cmd.sizeField + 1))) (fun _ => P') F)
    (hsq : cmd.opcode = adminCreateSQ → Triple P
      (createQueue cmd.qid (submissionRecord E cmd) (.createSQ cmd.qid (cmd.sizeField + 1))) (fun _ => P') F)
    (hdsq : cmd.opcode = adminDeleteSQ → Triple P (deleteQueue cmd.qid (.deleteSQ cmd.qid)) (fun _ => P') F)
    (hdcq : cmd.opcode = adminDeleteCQ → Triple P (deleteQueue cmd.qid (.deleteCQ cmd.qid)) (fun _ => P') F)
    (hmoves : ∀ {x : NvmeProg M B (UInt32 × UInt16)}, Moves Quiet x (fun _ => True) → Triple P x (fun _ => P') F) :
    Triple P (executeAdmin E cmd) (fun _ => P') F := by
  refine triple_ite (fun _ => hmoves ?_) fun _ => ?_
  · split
    · refine (moves_read (Q := fun _ => True) fun _ => trivial).bind fun blocks _ => ?_
      exact (moves_writePRP E _ _ _).bind fun _ _ => moves_pure trivial
    · exact (moves_writePRP E _ _ _).bind fun _ _ => moves_pure trivial
    · exact (moves_writePRP E _ _ _).bind fun _ _ => moves_pure trivial
    · exact moves_pure trivial
  refine triple_ite (fun h => (hcq h).bind fun _ => triple_pure fun _ h => h) fun _ => ?_
  refine triple_ite (fun h => (hsq h).bind fun _ => triple_pure fun _ h => h) fun _ => ?_
  refine triple_ite (fun h => (hdsq h).bind fun _ => triple_pure fun _ h => h) fun _ => ?_
  refine triple_ite (fun h => (hdcq h).bind fun _ => triple_pure fun _ h => h) fun _ => hmoves ?_
  refine moves_ite (fun _ => ?_) fun _ => moves_pure trivial
  exact (moves_writePRP E _ _ _).bind fun _ _ => moves_pure trivial

theorem moves_submissionEntry (q : NvmeQueue) : Moves R (submissionEntry E q) fun raw => raw.length = 64 := by
  unfold submissionEntry
  split
  · refine moves_ite (fun _ => ?_) fun _ => moves_readIPA E _ 64
    exact moves_read fun c => E.memory.load_length c.mem _ 64
  · exact moves_readIPA E _ 64

theorem moves_command (q : NvmeQueue) :
    Moves R (submissionEntry E q >>= parseCommand : NvmeProg M B NvmeCommand) fun _ => True :=
  (moves_submissionEntry E q).bind fun _ h => by
    rw [parseCommand, if_neg (by omega)]
    exact moves_pure trivial

theorem moves_storeCompletion (q : NvmeQueue) (raw : Bytes) : Moves Quiet (storeCompletion E q raw) fun _ => True := by
  unfold storeCompletion
  split
  · exact moves_ite (fun _ => moves_change fun c => .mem c _) fun _ => moves_writeIPA E (Quiet.writes true) _ raw
  · exact moves_writeIPA E (Quiet.writes true) _ raw

end Data

end CrumbleCracker.Nvme
