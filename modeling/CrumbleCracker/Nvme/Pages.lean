import CrumbleCracker.Nvme.Transfer

/-!
# Pages that a command names

A command names its data by two addresses, the second of which may be a list of pages that goes on over several list
pages. A transfer succeeds when the pages are there (`transferPRP_ok`), and `prpIsContiguous` says whether they follow
one another (`prpIsContiguous_run`).
-/

namespace CrumbleCracker.Nvme

open Virtio (u64At)
open Prog List

variable {M B : Type}

/-! ## What is named -/

/-- Entries `i`, `i + 1`, … of a list page. -/
def entryAddrs (list : Bytes) : Nat → Nat → List UInt64
  | 0, _ => []
  | n + 1, i => u64At (field list (i * 8) 8) 0 :: entryAddrs list n (i + 1)

/-- The pages with the number of bytes that go to each. -/
def prpPages (page : Nat) : List UInt64 → Nat → List (UInt64 × Nat)
  | [], _ => []
  | addr :: addrs, remaining => (addr, min page remaining) :: prpPages page addrs (remaining - min page remaining)

/-- A page that begins where the ones before it end is moved together with them. -/
def gatherRuns : UInt64 × Nat → List (UInt64 × Nat) → List (UInt64 × Nat)
  | run, [] => if run.2 = 0 then [] else [run]
  | run, p :: ps =>
    if run.2 = 0 then gatherRuns p ps
    else if p.1 = run.1 + UInt64.ofNat run.2 then gatherRuns (run.1, run.2 + p.2) ps
    else run :: gatherRuns p ps

/-- The bytes that go to the page of the first address. -/
def prpFirst (page : Nat) (prp1 : UInt64) (n : Nat) : Nat := min (page - prp1.toNat % page) n

/-- The ranges that `n` bytes are moved in. -/
def prpRuns (page : Nat) (prp1 : UInt64) (n : Nat) (addrs : List UInt64) : List (UInt64 × Nat) :=
  (prp1, prpFirst page prp1 n) :: gatherRuns (0, 0) (prpPages page addrs (n - prpFirst page prp1 n))

/-- Each page begins where the one before it ends. -/
def consecutive (page : Nat) : UInt64 → List UInt64 → Bool
  | _, [] => true
  | expected, addr :: addrs => addr = expected && consecutive page (expected + UInt64.ofNat page) addrs

section Names

variable (E : NvmeEnv M B) (S : M → Prop) (page : Nat)

/-- A list of `entries` entries at `listAddr` names these pages, in every memory of `S`. -/
inductive ListNames : UInt64 → Nat → List UInt64 → Prop where
  | last {listAddr : UInt64} {entries : Nat} {list : Bytes} (hlast : entries ≤ page / 8)
      (hlist : ∀ m, S m → E.memory.readIPA m listAddr page = some list) :
      ListNames listAddr entries (entryAddrs list entries 0)
  | more {listAddr : UInt64} {entries : Nat} {list : Bytes} {addrs : List UInt64} (hmore : ¬entries ≤ page / 8)
      (hlist : ∀ m, S m → E.memory.readIPA m listAddr page = some list)
      (hnext : u64At (field list ((page / 8 - 1) * 8) 8) 0 ≠ 0)
      (rest : ListNames (u64At (field list ((page / 8 - 1) * 8) 8) 0) (entries - (page / 8 - 1)) addrs) :
      ListNames listAddr entries (entryAddrs list (page / 8 - 1) 0 ++ addrs)

/-- The pages behind the first one, for `n` bytes: none, the one at `prp2`, or those of the list there. -/
def NamesPages (prp1 prp2 : UInt64) (n : Nat) (addrs : List UInt64) : Prop :=
  if n - prpFirst page prp1 n = 0 then addrs = []
  else if n - prpFirst page prp1 n ≤ page then addrs = [prp2]
  else prp2 ≠ 0 ∧ 2 ≤ page / 8 ∧ ListNames E S page prp2 ((n - prpFirst page prp1 n + page - 1) / page) addrs

end Names

section Mapped

variable (E : NvmeEnv M B) (write : Bool)

/-- The range is not at address zero and can be written, or read, whatever guest memory holds. -/
def Mapped (run : UInt64 × Nat) : Prop :=
  run.1 ≠ 0 ∧ ∀ m, if write then ∀ b : Bytes, b.length = run.2 → (E.memory.writeIPA m run.1 b).isSome = true
    else (E.memory.readIPA m run.1 run.2).isSome = true

/-- Guest memory after writes to the ranges; a transfer in the other direction makes none. -/
inductive Overwritten (runs : List (UInt64 × Nat)) (m : M) : M → Prop where
  | refl : Overwritten runs m m
  | write {m₁ m₂ : M} {run : UInt64 × Nat} {b : Bytes} (h : Overwritten runs m m₁) (hwrite : write = true)
      (hrun : run ∈ runs) (hm : E.memory.writeIPA m₁ run.1 b = some m₂) : Overwritten runs m m₂

/-- The pages that the two addresses name for `n` bytes are `addrs`, also while the data is written, and they are
mapped. -/
def PrpMapped (c : Controller M B) (prp1 prp2 : UInt64) (n : Nat) (addrs : List UInt64) : Prop :=
  NamesPages E (Overwritten E write (prpRuns (pageSize c) prp1 n addrs) c.mem) (pageSize c) prp1 prp2 n addrs ∧
    ∀ run ∈ prpRuns (pageSize c) prp1 n addrs, Mapped E write run

end Mapped

/-! ## The walk over a list -/

theorem slice_bind {α : Type} {data : Bytes} {off n : Nat} (h : off + n ≤ data.length) (f : Bytes → NvmeProg M B α) :
    (slice data off n >>= f) = f (field data off n) := by
  rw [slice, if_pos h]
  rfl

section Walk

variable (E : NvmeEnv M B) {S : M → Prop} {page : Nat} {α : Type} {fn : α → UInt64 → Nat → NvmeProg M B α}
  {I : List (UInt64 × Nat) → α → Controller M B → Prop} {F : NvmeFault → Controller M B → Prop}
  (hfn : ∀ p ps a, Triple (I (p :: ps) a) (fn a p.1 p.2) (I ps) F)

include hfn

theorem walkEntries_triple {list : Bytes} (rest : List UInt64) (n i : Nat) (hlist : (i + n) * 8 ≤ list.length)
    (remaining : Nat) (a : α) : Triple (I (prpPages page (entryAddrs list n i ++ rest) remaining) a)
      (walkEntries page fn list n i remaining a) (fun r => I (prpPages page rest r.1) r.2) F := by
  induction n generalizing i remaining a with
  | zero => exact triple_pure fun _ h => h
  | succ n ih =>
    rw [walkEntries, slice_bind (by omega)]
    exact Triple.bind (hfn (u64At (field list (i * 8) 8) 0, min page remaining) _ a) fun a' =>
      ih (i + 1) (by omega) _ a'

/-- The walk takes the pages the list names, one after the other. -/
theorem walkLists_triple (hS : ∀ {ps a c}, I ps a c → S c.mem) {listAddr : UInt64} {entries : Nat} {addrs : List UInt64}
    (h : ListNames E S page listAddr entries addrs) (hpage : 2 ≤ page / 8) (turns : Nat) (hturns : entries < turns)
    (remaining : Nat) (a : α) : Triple (I (prpPages page addrs remaining) a)
      (walkLists E page fn turns listAddr entries remaining a) (I []) F := by
  have hread {listAddr : UInt64} {list : Bytes} (hlist : ∀ m, S m → E.memory.readIPA m listAddr page = some list)
      (ps : List (UInt64 × Nat)) (a : α) :
      Triple (I ps a) (readIPA E listAddr page) (fun b c => (b = list ∧ b.length = page) ∧ I ps a c) F := by
    intro c hc
    have hb := hlist c.mem (hS hc)
    simp only [readIPA, hb]
    exact ⟨⟨trivial, E.memory.readIPA_length hb⟩, hc⟩
  induction h generalizing turns remaining a with
  | @last listAddr entries list hlast hlist =>
    obtain ⟨turns, rfl⟩ : ∃ t, turns = t + 1 := ⟨turns - 1, by omega⟩
    rw [walkLists]
    refine triple_ite (fun hzero => triple_pure fun c hc => ?_) fun _ => (hread hlist _ a).bind fun b => ?_
    · rw [hzero] at hc
      exact hc
    refine triple_fact fun hb => ?_
    obtain ⟨rfl, hlen⟩ := hb
    rw [if_pos hlast]
    have hentries : Triple (I (prpPages page (entryAddrs b entries 0 ++ []) remaining) a)
        (walkEntries page fn b entries 0 remaining a) (fun r => I (prpPages page [] r.1) r.2) F :=
      walkEntries_triple hfn [] entries 0 (by omega) remaining a
    rw [append_nil] at hentries
    exact hentries.bind fun r => triple_pure (Q := I []) fun _ h => h
  | @more listAddr entries list addrs hmore hlist hnext _ ih =>
    obtain ⟨turns, rfl⟩ : ∃ t, turns = t + 1 := ⟨turns - 1, by omega⟩
    rw [walkLists, if_neg (by omega)]
    refine (hread hlist _ a).bind fun b => ?_
    refine triple_fact fun hb => ?_
    obtain ⟨rfl, hlen⟩ := hb
    rw [if_neg hmore]
    refine Triple.bind (walkEntries_triple hfn addrs (page / 8 - 1) 0 (by omega) remaining a) fun r => ?_
    dsimp only
    rw [slice_bind (by omega)]
    exact Triple.bind (triple_require_of hnext) fun _ => ih turns (by omega) r.1 r.2

theorem walkPRPList_triple (hS : ∀ {ps a c}, I ps a c → S c.mem ∧ pageSize c = page) {listAddr : UInt64}
    {remaining : Nat}
    {addrs : List UInt64} (hne : remaining ≠ 0)
    (h : listAddr ≠ 0 ∧ 2 ≤ page / 8 ∧ ListNames E S page listAddr ((remaining + page - 1) / page) addrs) (a : α) :
    Triple (I (prpPages page addrs remaining) a) (walkPRPList E listAddr remaining fn a) (I []) F := by
  obtain ⟨haddr, hper, hlist⟩ := h
  refine triple_ite (fun h => absurd h hne) fun _ => Triple.bind (triple_require_of haddr) fun _ => ?_
  refine Triple.bind (Q := fun p c => p = page ∧ I (prpPages page addrs remaining) a c)
    (triple_read fun c hc => ⟨(hS hc).2, hc⟩) fun p => triple_fact fun hp => ?_
  subst hp
  refine Triple.bind (triple_require_of hper) fun _ => ?_
  exact walkLists_triple E hfn (fun h => (hS h).1) hlist hper _ (Nat.lt_succ_self _) _ a

end Walk

/-! ## Transfers -/

section Transfer

variable (E : NvmeEnv M B) {write : Bool} {F : NvmeFault → Controller M B → Prop}

/-- What a transfer over the ranges changes. -/
def Touched (write : Bool) (runs : List (UInt64 × Nat)) (c₀ c : Controller M B) : Prop :=
  pageSize c = pageSize c₀ ∧ Overwritten E write runs c₀.mem c.mem

variable {runs : List (UInt64 × Nat)} {c₀ : Controller M B}

theorem transferPage_triple {addr : UInt64} {data : Bytes} {off n : Nat} (hmapped : Mapped E write (addr, n))
    (hrun : (addr, n) ∈ runs) (h : off + n ≤ data.length) :
    Triple (Touched E write runs c₀) (transferPage E addr data off n write)
      (fun d c => d.length = data.length ∧ Touched E write runs c₀ c) F := by
  have hlen : (field data off n).length = n := by
    rw [field, length_take, length_drop]
    omega
  rw [transferPage, slice_bind h]
  refine Triple.bind (triple_require_of hmapped.1) fun _ c hc => ?_
  have hm := hmapped.2 c.mem
  cases write with
  | true =>
    obtain ⟨m, hm⟩ := Option.isSome_iff_exists.1 (hm _ hlen)
    simp only [if_true, bind_run, pure_run, writeIPA, hm]
    exact ⟨trivial, hc.1, hc.2.write rfl hrun hm⟩
  | false =>
    obtain ⟨raw, hraw⟩ := Option.isSome_iff_exists.1 hm
    simp only [Bool.false_eq_true, if_false, bind_run, pure_run, readIPA, hraw]
    refine ⟨?_, hc⟩
    rw [length_writeAt, E.memory.readIPA_length hraw]
    omega

variable (hmapped : ∀ run ∈ runs, Mapped E write run)

/-- The run and the pages that are left lie in the ranges and in the data. -/
def Gathering (E : NvmeEnv M B) (write : Bool) (runs : List (UInt64 × Nat)) (c₀ : Controller M B) (len : Nat)
    (ps : List (UInt64 × Nat)) (r : PrpRun) (c : Controller M B) : Prop :=
  Touched E write runs c₀ c ∧ gatherRuns (r.runAddr, r.runLen) ps ⊆ runs ∧ r.data.length = len ∧
    r.runOff + r.runLen ≤ r.off ∧ r.off + (ps.map Prod.snd).sum ≤ len

variable {len : Nat}

include hmapped

theorem flushRun_triple {r : PrpRun} (hlen : r.data.length = len) (hoff : r.runOff + r.runLen ≤ len)
    (hrun : r.runLen ≠ 0 → (r.runAddr, r.runLen) ∈ runs) :
    Triple (Touched E write runs c₀) (flushRun E write r)
      (fun r' c => (r' = { r with data := r'.data, runLen := 0 } ∧ r'.data.length = len) ∧
        Touched E write runs c₀ c) F := by
  refine triple_ite (fun hzero => triple_pure fun c hc => ⟨⟨?_, hlen⟩, hc⟩) fun hne => ?_
  · cases r
    cases hzero
    rfl
  · refine Triple.bind (transferPage_triple E (hmapped _ (hrun hne)) (hrun hne) (by omega)) fun d => ?_
    exact triple_pure fun c' h => ⟨⟨rfl, h.1.trans hlen⟩, h.2⟩

theorem gatherPage_triple (p : UInt64 × Nat) (ps : List (UInt64 × Nat)) (r : PrpRun) :
    Triple (Gathering E write runs c₀ len (p :: ps) r) (gatherPage E write r p.1 p.2)
      (fun r' => Gathering E write runs c₀ len ps r') F := by
  rintro c ⟨hc, hruns, hlen, hrun, hoff⟩
  rw [map_cons, sum_cons] at hoff
  rw [gatherRuns] at hruns
  unfold gatherPage
  by_cases hzero : r.runLen = 0
  · rw [if_pos hzero]
    rw [if_pos hzero] at hruns
    exact ⟨hc, hruns, hlen, Nat.le_refl _, by show r.off + p.2 + _ ≤ len; omega⟩
  rw [if_neg hzero]
  rw [if_neg hzero] at hruns
  by_cases hnext : p.1 = r.runAddr + UInt64.ofNat r.runLen
  · rw [if_pos hnext]
    rw [if_pos hnext] at hruns
    refine ⟨hc, hruns, hlen, ?_, ?_⟩
    · show r.runOff + (r.runLen + p.2) ≤ r.off + p.2
      omega
    · show r.off + p.2 + _ ≤ len
      omega
  · rw [if_neg hnext]
    rw [if_neg hnext] at hruns
    refine Triple.bind (flushRun_triple E hmapped hlen (by omega) fun _ => hruns mem_cons_self) (fun r' => ?_) c hc
    rintro c' ⟨⟨hr', hlen'⟩, hc'⟩
    have hoff' : r'.off = r.off := by rw [hr']
    refine ⟨hc', fun x hx => hruns (mem_cons_of_mem _ hx), hlen', Nat.le_refl _, ?_⟩
    show r'.off + p.2 + _ ≤ len
    omega

omit hmapped

theorem sum_prpPages_le (page : Nat) (addrs : List UInt64) (remaining : Nat) :
    ((prpPages page addrs remaining).map Prod.snd).sum ≤ remaining := by
  induction addrs generalizing remaining with
  | nil => exact Nat.zero_le _
  | cons addr addrs ih =>
    have := ih (remaining - min page remaining)
    rw [prpPages, map_cons, sum_cons]
    omega

/-- The data of a command whose pages are there is moved. -/
theorem transferPRP_ok {c : Controller M B} {prp1 prp2 : UInt64} {data : Bytes} {addrs : List UInt64}
    (h : PrpMapped E write c prp1 prp2 data.length addrs) : (transferPRP E prp1 prp2 data write c).1.isOk = true := by
  obtain ⟨hnames, hmapped⟩ := h
  set page := pageSize c with hpage
  set runs := prpRuns page prp1 data.length addrs with hruns
  have hfirst := hmapped (prp1, prpFirst page prp1 data.length) mem_cons_self
  have hrest : gatherRuns (0, 0) (prpPages page addrs (data.length - prpFirst page prp1 data.length)) ⊆ runs :=
    fun x hx => mem_cons_of_mem _ hx
  have hle : prpFirst page prp1 data.length ≤ data.length := Nat.min_le_right _ _
  have hok : Triple (· = c) (transferPRP E prp1 prp2 data write) (fun _ _ => True) fun _ _ => False := by
    refine triple_ite (fun _ => triple_pure fun _ _ => trivial) fun _ => ?_
    refine Triple.bind (triple_require_of hfirst.1) fun _ => ?_
    refine Triple.bind (Q := fun p c' => p = page ∧ Touched E write runs c c') (triple_read fun c' h => ?_) fun p => ?_
    · rw [h]
      exact ⟨rfl, rfl, .refl⟩
    refine triple_fact fun hp => ?_
    subst hp
    rw [show min (page - prp1.toNat % page) data.length = prpFirst page prp1 data.length from rfl]
    refine Triple.bind (transferPage_triple E hfirst mem_cons_self (by omega)) fun d => triple_fact fun hd => ?_
    rw [hd]
    rw [NamesPages] at hnames
    refine triple_ite (fun _ => triple_pure fun _ _ => trivial) fun hdone => ?_
    rw [if_neg (by omega)] at hnames
    refine triple_ite (fun hsecond => ?_) fun hsecond => ?_
    · rw [if_pos hsecond] at hnames
      have hrun : (prp2, data.length - prpFirst page prp1 data.length) ∈ runs := by
        refine hrest ?_
        rw [hnames, prpPages, prpPages, gatherRuns, if_pos rfl, gatherRuns, Nat.min_eq_right hsecond,
          if_neg (show data.length - prpFirst page prp1 data.length ≠ 0 by omega)]
        exact mem_singleton_self _
      exact (transferPage_triple E (hmapped _ hrun) hrun (by rw [hd]; exact (Nat.add_sub_of_le hle).le)).conseq
        (fun _ h => h) (fun _ _ _ => trivial) fun _ _ h => h
    · rw [if_neg hsecond] at hnames
      let r₀ : PrpRun := { off := prpFirst page prp1 data.length, data := d }
      have hwalk : Triple (Gathering E write runs c data.length
          (prpPages page addrs (data.length - prpFirst page prp1 data.length)) r₀)
          (walkPRPList E prp2 (data.length - prpFirst page prp1 data.length) (gatherPage E write) r₀)
          (Gathering E write runs c data.length []) fun _ _ => False :=
        walkPRPList_triple E (gatherPage_triple E hmapped) (fun h => ⟨h.1.2, h.1.1⟩) (by omega) hnames r₀
      have hsum := sum_prpPages_le page addrs (data.length - prpFirst page prp1 data.length)
      refine Triple.bind (hwalk.conseq (fun _ hc' => ⟨hc', hrest, hd, Nat.zero_le _, ?_⟩) (fun _ _ h => h)
        fun _ _ h => h)
        fun r => ?_
      · show prpFirst page prp1 data.length + _ ≤ data.length
        omega
      · rintro c'' ⟨hc'', hlast, hlen, hrun, hoff⟩
        rw [gatherRuns] at hlast
        refine Triple.bind (flushRun_triple E hmapped hlen (by simp at hoff; omega) fun hne => ?_)
          (fun r' => ?_) c'' hc''
        · rw [if_neg hne] at hlast
          exact hlast mem_cons_self
        · exact triple_pure fun _ _ => trivial
  rcases hok.ends rfl with ⟨_, _, hx, -⟩ | ⟨_, _, -, h⟩
  · rw [hx]
    rfl
  · exact h.elim

end Transfer

/-! ## Contiguous pages -/

theorem map_fst_prpPages (page : Nat) (addrs : List UInt64) (remaining : Nat) :
    (prpPages page addrs remaining).map Prod.fst = addrs := by
  induction addrs generalizing remaining with
  | nil => rfl
  | cons addr addrs ih => rw [prpPages, map_cons, ih]

theorem prpIsContiguous_run (E : NvmeEnv M B) {S : M → Prop} {c : Controller M B} {prp1 prp2 : UInt64} {n : Nat}
    {addrs : List UInt64} (h : NamesPages E S (pageSize c) prp1 prp2 n addrs) (hS : S c.mem) :
    (prpIsContiguous E prp1 prp2 n c).1 = .ok (consecutive (pageSize c)
      (prp1 + UInt64.ofNat (pageSize c - prp1.toNat % pageSize c)) addrs) := by
  set page := pageSize c with hpage
  have hrest : n - prpFirst page prp1 n = n - (page - prp1.toNat % page) := by
    rw [prpFirst]
    omega
  rw [NamesPages, hrest] at h
  rw [prpIsContiguous, read_bind, ← hpage]
  by_cases hfirst : n ≤ page - prp1.toNat % page
  · rw [if_pos (by omega)] at h
    rw [if_pos hfirst, h]
    rfl
  rw [if_neg (by omega)] at h
  rw [if_neg hfirst]
  by_cases hsecond : n - (page - prp1.toNat % page) ≤ page
  · rw [if_pos hsecond] at h
    rw [if_pos hsecond, h]
    simp [consecutive]
  rw [if_neg hsecond] at h
  rw [if_neg hsecond]
  set expected := prp1 + UInt64.ofNat (page - prp1.toNat % page)
  -- the walk has come to a page where it is as contiguous as the whole list
  have hwalk : Triple (· = c) (walkPRPList E prp2 (n - (page - prp1.toNat % page))
      (fun expected addr _ => do
        require (addr = expected) .notContiguous
        pure (expected + UInt64.ofNat page)) expected)
      (fun _ _ => consecutive page expected addrs = true)
      fun e _ => e.IsError ∧ consecutive page expected addrs = false := by
    refine (walkPRPList_triple E (S := S) (I := fun ps e c' => c' = c ∧
      consecutive page expected addrs = consecutive page e (ps.map Prod.fst)) ?_
      (fun h => ⟨h.1 ▸ hS, by rw [h.1]⟩) (by omega) h expected).conseq (fun _ h => ⟨h, by rw [map_fst_prpPages]⟩)
      (fun _ _ h => h.2) fun _ _ h => h
    intro p ps e
    refine Triple.bind (Q := fun _ c' => c' = c ∧
      consecutive page expected addrs = consecutive page (e + UInt64.ofNat page) (ps.map Prod.fst)) ?_ fun _ =>
        triple_pure fun _ h => h
    refine triple_require (fun c' h heq => ⟨h.1, ?_⟩) fun c' h hne => ⟨by decide, ?_⟩
    · rw [h.2, map_cons, consecutive, heq]
      simp
    · rw [h.2, map_cons, consecutive, decide_eq_false hne]
      rfl
  rw [bind_run, attempt]
  rcases hwalk.ends rfl with ⟨_, _, hx, htrue⟩ | ⟨e, _, hx, he, hfalse⟩ <;> rw [hx]
  · rw [htrue]
    rfl
  · show ((if e.IsError then pure false else .fail e : NvmeProg M B Bool) _).1 = _
    rw [if_pos he, hfalse]
    rfl

end CrumbleCracker.Nvme
