import CrumbleCracker.Lib.HostFile
import CrumbleCracker.Lib.Prog
import CrumbleCracker.Virtio.Queue

/-!
# The NVMe controller

The guest drives the controller through MMIO writes; the commands themselves stand in rings in guest memory. A queue
record holds a submission queue and the completion queue of the same number, with one size for both.

A call ends with a value, with a Go error, or in one of two ways it should not: a panic, or not at all.
-/

namespace CrumbleCracker.Nvme

open Virtio (GuestMemory u16At u32At u64At)
open Prog

/-! ## What the controller is attached to -/

/-- `virtio.GuestMemory`, with `SliceIPA` where it has it (`slicer`). A slice is the memory itself: `load` and `store`
are reading and writing it. -/
structure NvmeMemory (M : Type) extends GuestMemory M where
  slicer : Bool
  sliceIPA : M → UInt64 → Nat → Bool
  load : M → UInt64 → Nat → Bytes
  store : M → UInt64 → Bytes → M
  readIPA_length : ∀ {m addr n b}, readIPA m addr n = some b → b.length = n
  load_length : ∀ m addr n, (load m addr n).length = n

/-- How `ReadAt` ended. -/
inductive ReadEnd where
  | full
  | eof
  | failed
deriving DecidableEq

/-- `virtio.BlockBackend`: what `ReadAt` put in the buffer, and how many bytes `WriteAt` took and whether it failed; it
fails when it takes fewer than all. -/
structure BlockBackend (B : Type) where
  readAt : B → Int → Nat → B × Bytes × ReadEnd
  writeAt : B → Int → Bytes → B × Nat × Bool
  size : B → Int
  readAt_length : ∀ b off n, (readAt b off n).2.1.length ≤ n
  writeAt_full : ∀ b off src, (writeAt b off src).2.2 = false → (writeAt b off src).2.1 = src.length

/-- What the controller is attached to. `backend` may be nil; `msi` is the result of `SetMSI` where it is configured. -/
structure NvmeEnv (M B : Type) where
  memory : NvmeMemory M
  backend : Option (BlockBackend B)
  setIRQ : Bool → Bool
  msi : Option Bool

/-! ## State -/

structure NvmeCommand where
  opcode : UInt8
  cid : UInt16
  nsid : UInt32
  prp1 : UInt64
  prp2 : UInt64
  cdw10 : UInt32
  cdw11 : UInt32
  cdw12 : UInt32
  cdw13 : UInt32
deriving DecidableEq

/-- A completion entry: the command it answers and its status. -/
structure NvmeCompletion where
  cid : UInt16
  status : UInt16
deriving DecidableEq

/-- A command that was executed: its slot, itself, and whether what it asks for could not be done. -/
structure Executed where
  slot : UInt16
  cmd : NvmeCommand
  failed : Bool
deriving DecidableEq

/-- `queue`. A slice is known by its address and length. -/
structure NvmeQueue where
  id : UInt16
  size : UInt16 := 0
  sqAddr : UInt64 := 0
  cqAddr : UInt64 := 0
  cqID : UInt16 := 0
  sqHead : UInt16 := 0
  sqTail : UInt16 := 0
  cqHead : UInt16 := 0
  cqTail : UInt16 := 0
  cqPending : UInt16 := 0
  cqPhase : Bool := false
  interrupts : Bool := false
  sqMem : Option (UInt64 × Nat) := none
  cqMem : Option (UInt64 × Nat) := none
  /-- Ghost: the slots the guest has submitted. -/
  submitted : List UInt16 := []
  /-- Ghost: the commands of this submission queue that were executed, asynchronous event requests apart. -/
  executed : List Executed := []
  /-- Ghost: the completions written for them. -/
  completed : List NvmeCompletion := []
deriving DecidableEq, Inhabited

/-- What happens to the rings, as the guest sees it. -/
inductive RingOp where
  | reset
  | admin (sqSize cqSize : UInt16)
  | createCQ (id size : UInt16)
  | createSQ (id size : UInt16)
  | deleteSQ (id : UInt16)
  | deleteCQ (id : UInt16)
  | submit (id tail : UInt16)
  | fetch (id : UInt16)
  | post (id slot : UInt16) (phase : Bool)
  | consume (id head : UInt16)
deriving DecidableEq

inductive NvmeFault where
  | memory
  | missingPRP1
  | prpListZero
  | prpPageSize
  | prpZero
  | notContiguous
  | backend
  | shortWrite
  | completionQueueMissing
  | irq
  | panics
  /-- The loop has not ended after the turns it was given. -/
  | unfinished
deriving DecidableEq

def NvmeFault.IsError (e : NvmeFault) : Prop := e ≠ .panics ∧ e ≠ .unfinished
deriving Decidable

/-- `Controller`, with guest memory and the backend. Queues are records that the map points to: one that is deleted
while the loop runs over it is still there for the loop. -/
structure Controller (M B : Type) where
  mem : M
  dev : B
  cc : UInt32 := 0
  csts : UInt32 := 0
  intMask : UInt32 := 0
  aqa : UInt32 := 0
  asq : UInt64 := 0
  acq : UInt64 := 0
  pageSz : Nat := 4096
  irqHigh : Bool := false
  heap : List NvmeQueue := []
  queues : List (UInt16 × Nat) := []
  /-- Ghost: what happened to the rings. -/
  ops : List RingOp := []

abbrev NvmeProg (M B α : Type) := Prog (Controller M B) NvmeFault α

variable {M B : Type}

namespace Controller

def queue (c : Controller M B) (p : Nat) : NvmeQueue := c.heap.getD p default

def find (c : Controller M B) (id : UInt16) : Option Nat := c.queues.lookup id

def modifyQueue (c : Controller M B) (p : Nat) (f : NvmeQueue → NvmeQueue) : Controller M B :=
  { c with heap := c.heap.modify p f }

def newQueue (c : Controller M B) (id : UInt16) (q : NvmeQueue) : Controller M B :=
  { c with heap := c.heap ++ [q], queues := (id, c.heap.length) :: c.queues.filter fun e => e.1 ≠ id }

def note (c : Controller M B) (op : RingOp) : Controller M B := { c with ops := c.ops ++ [op] }

end Controller

def change (f : Controller M B → Controller M B) : NvmeProg M B Unit := update fun c => ((), f c)

/-- `uint16` division by a size; zero panics. -/
def advance (x size : UInt16) : NvmeProg M B UInt16 := if size = 0 then .fail .panics else pure ((x + 1) % size)

section Access

variable (E : NvmeEnv M B)

def readIPA (addr : UInt64) (n : Nat) : NvmeProg M B Bytes := fun c => match E.memory.readIPA c.mem addr n with
  | some b => (.ok b, c)
  | none => (.error .memory, c)

def writeIPA (addr : UInt64) (b : Bytes) : NvmeProg M B Unit := fun c => match E.memory.writeIPA c.mem addr b with
  | some m => (.ok (), { c with mem := m })
  | none => (.error .memory, c)

/-! ## Data in guest memory -/

def slice (data : Bytes) (off n : Nat) : NvmeProg M B Bytes :=
  if off + n ≤ data.length then pure (field data off n) else .fail .panics

/-- `transferPage` on `data[off : off+n]`: the data after it. -/
def transferPage (addr : UInt64) (data : Bytes) (off n : Nat) (write : Bool) : NvmeProg M B Bytes := do
  let part ← slice data off n
  require (addr ≠ 0) .prpZero
  if write then
    writeIPA E addr part
    pure data
  else
    let raw ← readIPA E addr n
    pure (writeAt data off raw)

/-- The entries of one list page: the first `n` of them from the `i`-th on, with `remaining` bytes to place. -/
def walkEntries {α : Type} (page : Nat) (fn : α → UInt64 → Nat → NvmeProg M B α) (list : Bytes) :
    Nat → Nat → Nat → α → NvmeProg M B (Nat × α)
  | 0, _, remaining, a => pure (remaining, a)
  | n + 1, i, remaining, a => do
    let raw ← slice list (i * 8) 8
    let chunk := min page remaining
    let a ← fn a (u64At raw 0) chunk
    walkEntries page fn list n (i + 1) (remaining - chunk) a

/-- The loop of `walkPRPListLocked`: a list page that is not the last ends with the address of the next. -/
def walkLists {α : Type} (page : Nat) (fn : α → UInt64 → Nat → NvmeProg M B α) :
    Nat → UInt64 → Nat → Nat → α → NvmeProg M B α
  | 0, _, _, _, _ => .fail .unfinished
  | turns + 1, listAddr, entriesRemaining, remaining, a =>
    if entriesRemaining = 0 then pure a
    else do
      let list ← readIPA E listAddr page
      let entriesPerList := page / 8
      if entriesRemaining ≤ entriesPerList then
        let (_, a) ← walkEntries page fn list entriesRemaining 0 remaining a
        pure a
      else
        let usable := entriesPerList - 1
        let (remaining, a) ← walkEntries page fn list usable 0 remaining a
        let raw ← slice list (usable * 8) 8
        require (u64At raw 0 ≠ 0) .prpListZero
        walkLists page fn turns (u64At raw 0) (entriesRemaining - usable) remaining a

def pageSize (c : Controller M B) : Nat := if c.pageSz = 0 then 4096 else c.pageSz

/-- `walkPRPListLocked`. Each list page but the last takes entries away, so there are no more turns than entries. -/
def walkPRPList {α : Type} (listAddr : UInt64) (remaining : Nat) (fn : α → UInt64 → Nat → NvmeProg M B α) (a : α) :
    NvmeProg M B α :=
  if remaining = 0 then pure a
  else do
    require (listAddr ≠ 0) .prpListZero
    let page ← read pageSize
    require (2 ≤ page / 8) .prpPageSize
    let entries := (remaining + page - 1) / page
    walkLists E page fn (entries + 1) listAddr entries remaining a

/-- The pages a run of the list has gathered: `runAddr`, `runOff`, `runLen`, and `off` and the data. -/
structure PrpRun where
  runAddr : UInt64 := 0
  runOff : Nat := 0
  runLen : Nat := 0
  off : Nat
  data : Bytes

def flushRun (write : Bool) (r : PrpRun) : NvmeProg M B PrpRun :=
  if r.runLen = 0 then pure r
  else do
    let data ← transferPage E r.runAddr r.data r.runOff r.runLen write
    pure { r with data, runLen := 0 }

/-- One entry of the list joins the run or starts the next. -/
def gatherPage (write : Bool) (r : PrpRun) (addr : UInt64) (chunk : Nat) : NvmeProg M B PrpRun :=
  if r.runLen = 0 then pure { r with runAddr := addr, runOff := r.off, runLen := chunk, off := r.off + chunk }
  else if addr = r.runAddr + UInt64.ofNat r.runLen then pure { r with runLen := r.runLen + chunk, off := r.off + chunk }
  else do
    let r ← flushRun E write r
    pure { r with runAddr := addr, runOff := r.off, runLen := chunk, off := r.off + chunk }

/-- `transferPRP`: the data after it. -/
def transferPRP (prp1 prp2 : UInt64) (data : Bytes) (write : Bool) : NvmeProg M B Bytes :=
  if data = [] then pure data
  else do
    require (prp1 ≠ 0) .missingPRP1
    let page ← read pageSize
    let n := min (page - prp1.toNat % page) data.length
    let data ← transferPage E prp1 data 0 n write
    if data.length ≤ n then pure data
    else if data.length - n ≤ page then transferPage E prp2 data n (data.length - n) write
    else do
      let r ← walkPRPList E prp2 (data.length - n) (gatherPage E write) { off := n, data }
      let r ← flushRun E write r
      pure r.data

def writePRP (prp1 prp2 : UInt64) (src : Bytes) : NvmeProg M B Unit := do
  let _ ← transferPRP E prp1 prp2 src true

/-- `readPRP` into a buffer of `n` bytes. -/
def readPRP (prp1 prp2 : UInt64) (n : Nat) : NvmeProg M B Bytes :=
  transferPRP E prp1 prp2 (List.replicate n 0) false

/-- `prpIsContiguousLocked`: an error in the list counts as not contiguous. -/
def prpIsContiguous (prp1 prp2 : UInt64) (size : Nat) : NvmeProg M B Bool := do
  let page ← read pageSize
  let first := page - prp1.toNat % page
  let expected := prp1 + UInt64.ofNat first
  if size ≤ first then pure true
  else if size - first ≤ page then pure (prp2 = expected)
  else do
    let r ← attempt (walkPRPList E prp2 (size - first)
      (fun expected addr _ => do
        require (addr = expected) .notContiguous
        pure (expected + UInt64.ofNat page)) expected)
    match r with
    | .ok _ => pure true
    | .error e => if e.IsError then pure false else .fail e

/-! ## Commands -/

def parseCommand (raw : Bytes) : NvmeProg M B NvmeCommand :=
  if raw.length < 56 then .fail .panics
  else pure {
    opcode := byteAt raw 0
    cid := u16At raw 2
    nsid := u32At raw 4
    prp1 := u64At raw 24
    prp2 := u64At raw 32
    cdw10 := u32At raw 40
    cdw11 := u32At raw 44
    cdw12 := u32At raw 48
    cdw13 := u32At raw 52 }

def adminQueueID : UInt16 := 0
def blockSize : Nat := 512

def adminDeleteSQ : UInt8 := 0x00
def adminCreateSQ : UInt8 := 0x01
def adminGetLogPage : UInt8 := 0x02
def adminDeleteCQ : UInt8 := 0x04
def adminCreateCQ : UInt8 := 0x05
def adminIdentify : UInt8 := 0x06
def adminAsyncEvent : UInt8 := 0x0c

def ioFlush : UInt8 := 0x00
def ioWrite : UInt8 := 0x01
def ioRead : UInt8 := 0x02

def ascii (s : String) : Bytes := s.toList.map fun ch => UInt8.ofNat ch.toNat

/-- `data` with the values written at their offsets. -/
def putAll (data : Bytes) (values : List (Nat × Bytes)) : Bytes := values.foldl (fun d v => writeAt d v.1 v.2) data

def identifyController : Bytes :=
  putAll (List.replicate 4096 0) [
    (0, bytesLE 2 0x1b36),
    (2, bytesLE 2 0x0010),
    (4, ascii "cc-nvme-000000000001"),
    (24, ascii "cc NVMe Block Device"),
    (64, ascii "0.1"),
    (78, bytesLE 2 1),
    (80, bytesLE 4 0x00010400),
    (512, [0x66]),
    (513, [0x44]),
    (516, bytesLE 4 1)]

def identifyNamespace (blocks : Nat) : Bytes :=
  putAll (List.replicate 4096 0) [
    (0, bytesLE 8 blocks),
    (8, bytesLE 8 blocks),
    (16, bytesLE 8 blocks),
    (26, [0]),
    (130, [9])]

def backendBlocks (b : B) : Nat := match E.backend with
  | none => 0
  | some backend => (backend.size b).toNat / blockSize

/-- `cacheQueueMemoryLocked`: a slice that cannot be had leaves the one before in place. -/
def cacheQueueMemory (m : M) (q : NvmeQueue) : NvmeQueue :=
  if !E.memory.slicer || q.size = 0 then q
  else
    let q := if q.sqAddr ≠ 0 && E.memory.sliceIPA m q.sqAddr (q.size.toNat * 64) then
      { q with sqMem := some (q.sqAddr, q.size.toNat * 64) } else q
    if q.cqAddr ≠ 0 && E.memory.sliceIPA m q.cqAddr (q.size.toNat * 16) then
      { q with cqMem := some (q.cqAddr, q.size.toNat * 16) } else q

def ensureQueue (id : UInt16) : NvmeProg M B Nat := update fun c => match c.find id with
  | some p => (p, c)
  | none => (c.heap.length, c.newQueue id { id })

def NvmeCommand.sizeField (cmd : NvmeCommand) : UInt16 := (cmd.cdw10 >>> 16).toUInt16

/-- The queue a create or delete command names. -/
def NvmeCommand.qid (cmd : NvmeCommand) : UInt16 := cmd.cdw10.toUInt16

/-- A create command: a change to the record of queue `id`. -/
def createQueue (id : UInt16) (f : M → NvmeQueue → NvmeQueue) (op : RingOp) : NvmeProg M B Unit := do
  let p ← ensureQueue id
  change fun c => (c.modifyQueue p (f c.mem)).note op

def completionRecord (cmd : NvmeCommand) (m : M) (q : NvmeQueue) : NvmeQueue := cacheQueueMemory E m
  { q with size := cmd.sizeField + 1, cqAddr := cmd.prp1, cqPhase := true, interrupts := cmd.cdw11 &&& 2 ≠ 0 }

def submissionRecord (cmd : NvmeCommand) (m : M) (q : NvmeQueue) : NvmeQueue := cacheQueueMemory E m
  { q with size := cmd.sizeField + 1, sqAddr := cmd.prp1, cqID := (cmd.cdw11 >>> 16).toUInt16 }

def deleteQueue (id : UInt16) (op : RingOp) : NvmeProg M B Unit :=
  change fun c => { c with queues := c.queues.filter fun e => e.1 ≠ id }.note op

/-- `executeAdminLocked`: the result and the status. -/
def executeAdmin (cmd : NvmeCommand) : NvmeProg M B (UInt32 × UInt16) :=
  if cmd.opcode = adminIdentify then
    match cmd.cdw10 &&& 0xff with
    | 0 => do
      let blocks ← read fun c => backendBlocks E c.dev
      writePRP E cmd.prp1 cmd.prp2 (identifyNamespace blocks)
      pure (0, 0)
    | 1 => do
      writePRP E cmd.prp1 cmd.prp2 identifyController
      pure (0, 0)
    | 2 => do
      writePRP E cmd.prp1 cmd.prp2 (putAll (List.replicate 4096 0) [(0, bytesLE 4 1)])
      pure (0, 0)
    | _ => pure (0, 0)
  else if cmd.opcode = adminCreateCQ then do
    createQueue cmd.qid (completionRecord E cmd) (.createCQ cmd.qid (cmd.sizeField + 1))
    pure (0, 0)
  else if cmd.opcode = adminCreateSQ then do
    createQueue cmd.qid (submissionRecord E cmd) (.createSQ cmd.qid (cmd.sizeField + 1))
    pure (0, 0)
  else if cmd.opcode = adminDeleteSQ then do
    deleteQueue cmd.qid (.deleteSQ cmd.qid)
    pure (0, 0)
  else if cmd.opcode = adminDeleteCQ then do
    deleteQueue cmd.qid (.deleteCQ cmd.qid)
    pure (0, 0)
  else if cmd.opcode = adminGetLogPage then do
    writePRP E cmd.prp1 cmd.prp2 (List.replicate ((((cmd.cdw10 >>> 16) &&& 0xfff).toNat + 1) * 4) 0)
    pure (0, 0)
  -- the feature commands, too, have the answer of an unknown one
  else pure (0, 0)

def NvmeCommand.count (cmd : NvmeCommand) : Nat := ((cmd.cdw12 &&& 0xffff).toNat + 1) * blockSize

def NvmeCommand.offset (cmd : NvmeCommand) : Int :=
  ((cmd.cdw10.toUInt64 ||| (cmd.cdw11.toUInt64 <<< 32)) * 512).toBitVec.toInt

/-- The guest memory an I/O command names is one slice: the path without a buffer is taken. -/
def directPath (cmd : NvmeCommand) : NvmeProg M B Bool :=
  if !E.memory.slicer then pure false
  else do
    require (cmd.prp1 ≠ 0) .missingPRP1
    let contiguous ← prpIsContiguous E cmd.prp1 cmd.prp2 cmd.count
    if contiguous then read fun c => E.memory.sliceIPA c.mem cmd.prp1 cmd.count else pure false

def backendRead (backend : BlockBackend B) (off : Int) (n : Nat) : NvmeProg M B (Bytes × ReadEnd) :=
  update fun c => ((backend.readAt c.dev off n).2, { c with dev := (backend.readAt c.dev off n).1 })

def backendWrite (backend : BlockBackend B) (off : Int) (src : Bytes) : NvmeProg M B (Nat × Bool) :=
  update fun c => ((backend.writeAt c.dev off src).2, { c with dev := (backend.writeAt c.dev off src).1 })

/-- A buffer of `n` bytes after `ReadAt`, the rest cleared. -/
def padTo (b : Bytes) (n : Nat) : Bytes := b ++ List.replicate (n - b.length) 0

/-- `ioRead`: into the slice (`readBackendToPRP`), where a backend failure is a Go error, or through a buffer, where it
is a status. -/
def executeRead (backend : BlockBackend B) (cmd : NvmeCommand) : NvmeProg M B (UInt32 × UInt16) := do
  let direct ← directPath E cmd
  let (b, how) ← backendRead backend cmd.offset cmd.count
  if direct then
    change fun c => { c with mem := E.memory.store c.mem cmd.prp1 b }
    if how = .failed then .fail .backend
    else
      change fun c => { c with mem := E.memory.store c.mem cmd.prp1 (padTo b cmd.count) }
      pure (0, 0)
  else if how = .failed then pure (0, 1)
  else
    writePRP E cmd.prp1 cmd.prp2 (padTo b cmd.count)
    pure (0, 0)

/-- `ioWrite`. -/
def executeWrite (backend : BlockBackend B) (cmd : NvmeCommand) : NvmeProg M B (UInt32 × UInt16) := do
  let direct ← directPath E cmd
  if direct then
    let buf ← read fun c => E.memory.load c.mem cmd.prp1 cmd.count
    let (n, failed) ← backendWrite backend cmd.offset buf
    if failed then .fail .backend
    else
      require (n = buf.length) .shortWrite
      pure (0, 0)
  else
    let buf ← readPRP E cmd.prp1 cmd.prp2 cmd.count
    let (_, failed) ← backendWrite backend cmd.offset buf
    if failed then pure (0, 1) else pure (0, 0)

def executeIo (cmd : NvmeCommand) : NvmeProg M B (UInt32 × UInt16) :=
  match E.backend with
  | none => pure (0, 1)
  | some backend =>
    if cmd.opcode = ioFlush then pure (0, 0)
    else if cmd.opcode = ioRead then executeRead E backend cmd
    else if cmd.opcode = ioWrite then executeWrite E backend cmd
    else pure (0, 1)

def executeCommand (id : UInt16) (cmd : NvmeCommand) : NvmeProg M B (UInt32 × UInt16) :=
  if id = adminQueueID then executeAdmin E cmd else executeIo E cmd

/-- The data an I/O write takes from guest memory, when it can. -/
def writeData (c : Controller M B) (cmd : NvmeCommand) : Bytes := match (directPath E cmd c).1 with
  | .ok true => E.memory.load c.mem cmd.prp1 cmd.count
  | _ => match (readPRP E cmd.prp1 cmd.prp2 cmd.count c).1 with
    | .ok b => b
    | .error _ => []

/-- The backend does not do what the I/O command asks for: there is none, it fails, or there is no such command. -/
def ioFails (c : Controller M B) (cmd : NvmeCommand) : Bool := match E.backend with
  | none => true
  | some backend =>
    if cmd.opcode = ioFlush then false
    else if cmd.opcode = ioRead then (backend.readAt c.dev cmd.offset cmd.count).2.2 = .failed
    else if cmd.opcode = ioWrite then (backend.writeAt c.dev cmd.offset (writeData E c cmd)).2.2
    else true

/-! ## The submission loop -/

/-- The entry at `head`: from the slice when it reaches that far, else from memory. -/
def submissionEntry (q : NvmeQueue) : NvmeProg M B Bytes :=
  match q.sqMem with
  | some (base, len) =>
    if q.sqHead.toNat * 64 + 64 ≤ len then read fun c => E.memory.load c.mem (base + q.sqHead.toUInt64 * 64) 64
    else readIPA E (q.sqAddr + q.sqHead.toUInt64 * 64) 64
  | none => readIPA E (q.sqAddr + q.sqHead.toUInt64 * 64) 64

def completionEntry (phase : Bool) (sqid sqHead cid : UInt16) (result : UInt32) (status : UInt16) : Bytes :=
  bytesLE 4 result.toNat ++ bytesLE 4 0 ++ bytesLE 2 sqHead.toNat ++ bytesLE 2 sqid.toNat ++ bytesLE 2 cid.toNat ++
    bytesLE 2 ((status <<< 1) ||| (if phase then 1 else 0)).toNat

/-- The completion entry is stored at the tail of the ring. -/
def storeCompletion (q : NvmeQueue) (raw : Bytes) : NvmeProg M B Unit :=
  match q.cqMem with
  | some (base, len) =>
    if q.cqTail.toNat * 16 + 16 ≤ len then
      change fun c => { c with mem := E.memory.store c.mem (base + q.cqTail.toUInt64 * 16) raw }
    else writeIPA E (q.cqAddr + q.cqTail.toUInt64 * 16) raw
  | none => writeIPA E (q.cqAddr + q.cqTail.toUInt64 * 16) raw

/-- The completion ring after an entry; `tail` is the next slot. -/
def NvmeQueue.posted (q : NvmeQueue) (tail : UInt16) : NvmeQueue :=
  { q with
    cqTail := tail
    cqPending := if q.cqPending < q.size then q.cqPending + 1 else q.cqPending
    cqPhase := if tail = 0 then !q.cqPhase else q.cqPhase }

/-- `writeCompletionLocked` on the record at `k`. -/
def writeCompletion (k : Nat) (sqid sqHead cid : UInt16) (result : UInt32) (status : UInt16) : NvmeProg M B Unit := do
  let q ← read fun c => c.queue k
  storeCompletion E q (completionEntry q.cqPhase sqid sqHead cid result status)
  let tail ← advance q.cqTail q.size
  change fun c => (c.modifyQueue k fun q => q.posted tail).note (.post q.id q.cqTail q.cqPhase)

def advanceHead (p : Nat) : NvmeProg M B Unit := do
  let q ← read fun c => c.queue p
  let head ← advance q.sqHead q.size
  change fun c => (c.modifyQueue p fun q => { q with sqHead := head }).note (.fetch q.id)

/-- The command at `slot` is executed for the record at `p`. -/
def executeFor (p : Nat) (id slot : UInt16) (cmd : NvmeCommand) : NvmeProg M B (UInt32 × UInt16) := do
  let failed ← read fun c => id ≠ adminQueueID && ioFails E c cmd
  let r ← attempt (executeCommand E id cmd)
  change fun c => c.modifyQueue p fun q => { q with executed := q.executed ++ [⟨slot, cmd, failed⟩] }
  match r with
  | .ok a => pure a
  | .error e => .fail e

/-- The completion of a command of the record at `p`, in the queue it names. -/
def complete (p : Nat) (cid : UInt16) (result : UInt32) (status : UInt16) : NvmeProg M B Unit := do
  let q ← read fun c => c.queue p
  let cq ← read fun c => if q.id = adminQueueID then some p else c.find q.cqID
  let k ← ofOption cq .completionQueueMissing
  writeCompletion E k q.id q.sqHead cid result status
  change fun c => c.modifyQueue p fun q => { q with completed := q.completed ++ [⟨cid, status⟩] }

/-- One turn of `processSubmissionQueueLocked`. -/
def turn (p : Nat) : NvmeProg M B Unit := do
  let q ← read fun c => c.queue p
  let raw ← submissionEntry E q
  let cmd ← parseCommand raw
  if q.id = adminQueueID ∧ cmd.opcode = adminAsyncEvent then advanceHead p
  else
    let (result, status) ← executeFor E p q.id q.sqHead cmd
    advanceHead p
    complete E p cmd.cid result status

def updateIRQ : NvmeProg M B Unit := do
  let high ← read fun c => c.intMask &&& 1 = 0 &&
    c.queues.any fun e => (c.queue e.2).interrupts && (c.queue e.2).cqPending ≠ 0
  let was ← read Controller.irqHigh
  if high = was then pure ()
  else do
    change fun c => { c with irqHigh := high }
    match E.msi with
    | some ok => require (high = true → ok = true) .irq
    | none => require (E.setIRQ high = true) .irq

/-- `processSubmissionQueueLocked`, for so many turns. -/
def processSubmissionQueue (p : Nat) : Nat → NvmeProg M B Unit
  | 0 => .fail .unfinished
  | turns + 1 => do
    let q ← read fun c => c.queue p
    if q.sqHead = q.sqTail then updateIRQ E
    else do
      turn E p
      processSubmissionQueue p turns

/-! ## Registers -/

def NvmeQueue.advanceCompletionHead (q : NvmeQueue) (head : UInt16) : NvmeQueue :=
  if q.size = 0 then { q with cqHead := head, cqPending := 0 }
  else
    let newHead := head % q.size
    let consumed := if newHead < q.cqHead then q.size - q.cqHead + newHead else newHead - q.cqHead
    let q' := { q with cqHead := newHead }
    if consumed = 0 ∧ q.cqPending = q.size then { q' with cqPending := 0 }
    else if q.cqPending ≤ consumed then { q' with cqPending := 0 }
    else { q' with cqPending := q.cqPending - consumed }

/-- The slots from `tail` up to `tail'` in a ring of `size`, at most `n` of them. -/
def slotsBetween (size tail tail' : UInt16) : Nat → List UInt16
  | 0 => []
  | n + 1 => if tail = tail' then [] else tail :: slotsBetween size ((tail + 1) % size) tail' n

/-- The guest moves the tail of submission queue `qid`, whose record is at `p`. -/
def Controller.submit (c : Controller M B) (p : Nat) (qid tail : UInt16) : Controller M B :=
  (c.modifyQueue p fun q => { q with
    sqTail := tail
    submitted := q.submitted ++ slotsBetween q.size q.sqTail tail 65536 }).note (.submit qid tail)

def doorbellQueue (offset : UInt64) : UInt16 := (offset / 4 / 2).toUInt16

def writeDoorbell (turns : Nat) (offset : UInt64) (value : UInt32) : NvmeProg M B Unit := do
  let qid := doorbellQueue offset
  let found ← read fun c => c.find qid
  match found with
  | none => pure ()
  | some p =>
    if offset / 4 % 2 = 0 then do
      change fun c => c.submit p qid value.toUInt16
      processSubmissionQueue E p turns
    else do
      change fun c => (c.modifyQueue p fun q => q.advanceCompletionHead value.toUInt16).note
        (.consume qid value.toUInt16)
      updateIRQ E

def configureAdminQueue : NvmeProg M B Unit := change fun c =>
  let sqSize := (c.aqa &&& 0xfff).toUInt16 + 1
  let cqSize := ((c.aqa >>> 16) &&& 0xfff).toUInt16 + 1
  let size := if cqSize < sqSize then cqSize else sqSize
  let size := if size = 0 then 1 else size
  (c.newQueue adminQueueID (cacheQueueMemory E c.mem
    { id := adminQueueID, size, sqAddr := c.asq, cqAddr := c.acq, cqPhase := true, interrupts := true })).note
    (.admin sqSize cqSize)

def regINTMS : UInt64 := 0x0c
def regINTMC : UInt64 := 0x10
def regCC : UInt64 := 0x14
def regAQA : UInt64 := 0x24
def regASQ : UInt64 := 0x28
def regACQ : UInt64 := 0x30
def doorbellBase : UInt64 := 0x1000

def writeCC (value : UInt32) : NvmeProg M B Unit := do
  let wasEnabled : Bool ← read fun c => c.cc &&& 1 ≠ 0
  change fun c => { c with cc := value }
  if value &&& 1 = 0 then do
    change fun c => { c with csts := 0 }
    if wasEnabled then do
      change fun c => { c with queues := [], irqHigh := false }.note .reset
      require (E.setIRQ false = true) .irq
    else pure ()
  else do
    change fun c => { c with pageSz := 4096 * 2 ^ ((value >>> 7) &&& 0xf).toNat }
    configureAdminQueue E
    change fun c => { c with csts := 1 }

def withLow (r value : UInt64) : UInt64 := (r >>> 32 <<< 32) ||| (value &&& (0xffffffff : UInt64))

def withHigh (r value : UInt64) : UInt64 := (r &&& (0xffffffff : UInt64)) ||| (value <<< 32)

def writeMmio (turns : Nat) (offset value : UInt64) : NvmeProg M B Unit :=
  if offset = regINTMS then do
    change fun c => { c with intMask := c.intMask ||| value.toUInt32 }
    updateIRQ E
  else if offset = regINTMC then do
    change fun c => { c with intMask := c.intMask &&& ~~~value.toUInt32 }
    updateIRQ E
  else if offset = regCC then writeCC E value.toUInt32
  else if offset = regAQA then change fun c => { c with aqa := value.toUInt32 }
  else if offset = regASQ then change fun c => { c with asq := withLow c.asq value }
  else if offset = regASQ + 4 then change fun c => { c with asq := withHigh c.asq value }
  else if offset = regACQ then change fun c => { c with acq := withLow c.acq value }
  else if offset = regACQ + 4 then change fun c => { c with acq := withHigh c.acq value }
  else if doorbellBase ≤ offset then writeDoorbell E turns (offset - doorbellBase) value.toUInt32
  else pure ()

end Access

inductive NvmeEvent (M : Type) where
  | guest (m : M)
  | mmio (offset value : UInt64)

/-- `NewController`, attached. -/
def newController (mem : M) (dev : B) : Controller M B := { mem, dev }

/-- One event; a loop that has not ended after `turns` turns is cut off. -/
def step (E : NvmeEnv M B) (turns : Nat) (c : Controller M B) : NvmeEvent M → Controller M B
  | .guest m => { c with mem := m }
  | .mmio offset value => (writeMmio E turns offset value c).2

end CrumbleCracker.Nvme
