import CrumbleCracker.Lib.Bytes

/-!
# `UART8250`

The registers of the serial port. Each guest access and each turn of an `InjectRXBytes` loop takes the lock, so a run is
a list of them in any order. `uart_run` says what holds between them: the transmitter is reported empty unless the last
byte was sent in loopback mode, where `transmit` returns before it sets the bits again.
-/

namespace CrumbleCracker.Serial

open List

def uart8250Size : UInt64 := 0x1000

def uartRegisterCount : UInt64 := 8

def uartLCRDLAB : UInt8 := 0x80

def uartMCRLoop : UInt8 := 0x10

def uartLSRDataReady : UInt8 := 0x01

def uartLSRTHRE : UInt8 := 0x20

def uartLSRTEMT : UInt8 := 0x40

structure UART8250 where
  base : UInt64
  stride : UInt64
  /-- What has been written to `out`, if there is one. -/
  out : Option Bytes
  /-- Whether an interrupt controller is attached. -/
  irq : Bool := false
  irqLine : UInt32 := 0
  /-- The last level that `SetIRQ` was given. -/
  level : Option Bool := none
  dll : UInt8 := 0
  dlm : UInt8 := 0
  ier : UInt8 := 0
  fcr : UInt8 := 0
  lcr : UInt8 := 0
  mcr : UInt8 := 0
  lsr : UInt8 := uartLSRTHRE ||| uartLSRTEMT
  msrStatus : UInt8 := 0
  msrDelta : UInt8 := 0
  scr : UInt8 := 0
  rbr : UInt8 := 0
  pendingIIR : UInt8 := 1
  fifoEnabled : Bool := false
  skipLF : Bool := false
  /-- Ghost: the caller of `InjectRXBytes` whose byte is in `rbr`. -/
  sender : Option Nat := none
  /-- Ghost: the bytes read while one was ready, each with its sender. -/
  received : List (Option Nat × UInt8) := []
  /-- Ghost: the last byte was transmitted in loopback mode. -/
  looped : Bool := false
  /-- Ghost: the guest has cleared the receiver or entered loopback, or `InjectRXByte` has replaced a byte. -/
  disturbed : Bool := false

namespace UART8250

variable (u : UART8250)

def ready : Bool := u.lsr &&& uartLSRDataReady ≠ 0

def dlab : Bool := u.lcr &&& uartLCRDLAB ≠ 0

def loop : Bool := u.mcr &&& uartMCRLoop ≠ 0

/-! ## Interrupts -/

/-- The highest-priority enabled condition of the line and the modem, as the identification register shows it. -/
def interrupt : UInt8 :=
  if u.ier &&& 0x04 ≠ 0 ∧ u.lsr &&& 0x1e ≠ 0 then 0x06
  else if u.ier &&& 0x01 ≠ 0 ∧ u.ready then 0x04
  else if u.ier &&& 0x02 ≠ 0 ∧ u.lsr &&& uartLSRTHRE ≠ 0 then 0x02
  else if u.ier &&& 0x08 ≠ 0 ∧ u.msrDelta ≠ 0 then 0x00
  else 0x01

def updateInterrupts : UART8250 :=
  { u with
    pendingIIR := u.interrupt
    level := if u.irq ∧ u.irqLine ≠ 0 then some (u.interrupt ≠ 0x01) else u.level }

def updateModemStatus : UART8250 := { u with msrStatus := if u.mcr &&& 0x04 ≠ 0 then 0xf0 else 0xb0 }

def attachIRQ (irq : Bool) (irqLine : UInt32) : UART8250 := updateInterrupts { u with irq := irq, irqLine := irqLine }

/-! ## Registers -/

/-- What `transmit` writes to `out`, and `skipLF` after it: a carriage return is a newline, and a newline after it
nothing. -/
def printed (value : UInt8) : Bytes × Bool :=
  if value = 0x0d then ([0x0a], true)
  else if value = 0x0a then if u.skipLF then ([], false) else ([0x0a], u.skipLF)
  else ([value], false)

def transmit (value : UInt8) : UART8250 :=
  if u.loop then
    updateInterrupts { u with rbr := value, lsr := u.lsr ||| uartLSRDataReady, sender := none, looped := true }
  else
    updateInterrupts { u with
      out := u.out.map (· ++ (u.printed value).1)
      skipLF := if u.out.isSome then (u.printed value).2 else u.skipLF
      lsr := u.lsr ||| (uartLSRTHRE ||| uartLSRTEMT)
      looped := false }

def clearRX : UART8250 := updateInterrupts { u with rbr := 0, lsr := u.lsr &&& ~~~uartLSRDataReady }

def setIER (value : UInt8) : UART8250 := updateInterrupts { u with ier := value &&& 0x0f }

def setFCR (value : UInt8) : UART8250 :=
  let u := if value &&& 0x02 ≠ 0 then { u.clearRX with disturbed := true } else u
  { u with fcr := value, fifoEnabled := value &&& 0x01 ≠ 0 }

def setMCR (value : UInt8) : UART8250 :=
  let next : UART8250 := { u with mcr := value &&& 0x1f, disturbed := u.disturbed || value &&& uartMCRLoop ≠ 0 }
  (if u.loop ∧ ¬next.loop then next.clearRX else next).updateModemStatus.updateInterrupts

def writeRegister (reg : UInt16) (value : UInt8) : UART8250 :=
  match reg with
  | 0 => if u.dlab then { u with dll := value }
    else (updateInterrupts { u with lsr := u.lsr &&& ~~~uartLSRTHRE }).transmit value
  | 1 => if u.dlab then { u with dlm := value } else u.setIER value
  | 2 => u.setFCR value
  | 3 => { u with lcr := value }
  | 4 => u.setMCR value
  | 7 => { u with scr := value }
  | _ => u

def readRegister (reg : UInt16) : UInt8 × UART8250 :=
  match reg with
  | 0 => if u.dlab then (u.dll, u)
    else (u.rbr, updateInterrupts { u with
      rbr := 0
      lsr := u.lsr &&& ~~~uartLSRDataReady
      received := if u.ready then u.received ++ [(u.sender, u.rbr)] else u.received })
  | 1 => (if u.dlab then u.dlm else u.ier, u)
  | 2 => (u.pendingIIR, u)
  | 3 => (u.lcr, u)
  | 4 => (u.mcr, u)
  | 5 => (u.lsr, u)
  | 6 => (u.msrStatus ||| u.msrDelta, { u with msrDelta := 0 })
  | 7 => (u.scr, u)
  | _ => (0, u)

/-! ## Accesses -/

inductive UARTError
  | outside (addr start stop : UInt64)
  | notAligned (addr : UInt64)
  | outOfRange (reg : UInt64)
  deriving DecidableEq

def registerAt (addr : UInt64) : Except UARTError UInt16 :=
  if addr < u.base ∨ u.base + uart8250Size ≤ addr then .error (.outside addr u.base (u.base + uart8250Size))
  else if (addr - u.base) % u.stride ≠ 0 then .error (.notAligned addr)
  else if uartRegisterCount ≤ (addr - u.base) / u.stride then .error (.outOfRange ((addr - u.base) / u.stride))
  else .ok ((addr - u.base) / u.stride).toUInt16

end UART8250

open UART8250

/-- `Write`: the bytes before the first that no register has are written. -/
def write (u : UART8250) (addr : UInt64) : Bytes → Option UARTError × UART8250
  | [] => (none, u)
  | value :: data =>
    match u.registerAt addr with
    | .error e => (some e, u)
    | .ok reg => write (u.writeRegister reg value) (addr + 1) data

/-- `Read` of `n` bytes, with those read before an error. -/
def read (u : UART8250) (addr : UInt64) : (n : Nat) → (Option UARTError × Bytes) × UART8250
  | 0 => ((none, []), u)
  | n + 1 =>
    match u.registerAt addr with
    | .error e => ((some e, []), u)
    | .ok reg =>
      let r := read (u.readRegister reg).2 (addr + 1) n
      ((r.1.1, (u.readRegister reg).1 :: r.1.2), r.2)

def injectRXByte (u : UART8250) (value : UInt8) : UART8250 :=
  updateInterrupts { u with
    rbr := value, lsr := u.lsr ||| uartLSRDataReady, sender := none, disturbed := u.disturbed || u.ready }

def newUART8250 (base : UInt64) (regShift : UInt32) (out : Option Bytes) : UART8250 :=
  updateInterrupts (updateModemStatus
    { base := base, stride := if regShift < 64 then 1 <<< regShift.toUInt64 else 1, out := out })

/-- The port, and what each caller of `InjectRXBytes` has still to pass. -/
structure World where
  uart : UART8250
  todo : Nat → Bytes

inductive Event
  | attachIRQ (irq : Bool) (irqLine : UInt32)
  | write (addr : UInt64) (data : Bytes)
  | read (addr : UInt64) (n : Nat)
  | injectRXByte (value : UInt8)
  /-- One turn of the loop of `InjectRXBytes`, which waits while a byte is ready. -/
  | injectRXBytes (caller : Nat)

/-- A turn of the loop of `InjectRXBytes`. -/
def World.inject (w : World) (caller : Nat) : World :=
  match w.todo caller with
  | [] => w
  | value :: rest =>
    if w.uart.ready then w
    else
      { uart := updateInterrupts { w.uart with
          rbr := value, lsr := w.uart.lsr ||| uartLSRDataReady, sender := some caller }
        todo := Function.update w.todo caller rest }

def World.step (w : World) : Event → World
  | .attachIRQ irq irqLine => { w with uart := w.uart.attachIRQ irq irqLine }
  | .write addr data => { w with uart := (Serial.write w.uart addr data).2 }
  | .read addr n => { w with uart := (Serial.read w.uart addr n).2 }
  | .injectRXByte value => { w with uart := Serial.injectRXByte w.uart value }
  | .injectRXBytes caller => w.inject caller

/-- A run in which the caller `c` of `InjectRXBytes` passes the bytes `data c`. -/
def run (u : UART8250) (data : Nat → Bytes) (es : List Event) : World := es.foldl World.step ⟨u, data⟩

/-! ## Between accesses -/

theorem lsr_bits (x : UInt8) :
    (x ||| 1) &&& 0x60 = x &&& 0x60 ∧ (x ||| 1) &&& 1 ≠ 0 ∧
    (x &&& ~~~1) &&& 0x60 = x &&& 0x60 ∧ (x &&& ~~~1) &&& 1 = 0 ∧
    (x ||| 0x60) &&& 0x60 = 0x60 ∧ (x ||| 0x60) &&& 1 = x &&& 1 ∧
    (x &&& ~~~0x20) &&& 0x60 = (x &&& 0x60) &&& 0x40 ∧ (x &&& ~~~0x20) &&& 1 = x &&& 1 := by
  rcases x with ⟨x⟩
  revert x
  decide

namespace UART8250

variable (u : UART8250)

/-- What the guest has read of a caller's bytes, and the one that waits. -/
def got (caller : Nat) : Bytes :=
  (u.received.filter (·.1 = some caller)).map (·.2) ++ if u.ready ∧ u.sender = some caller then [u.rbr] else []

structure Sound : Prop where
  delta : u.msrDelta = 0
  transmitter : u.lsr &&& 0x60 = if u.looped then 0x40 else 0x60
  identified : u.pendingIIR = u.interrupt
  level : u.irq ∧ u.irqLine ≠ 0 → u.level = some (decide (u.interrupt ≠ 0x01))
  loop : u.disturbed = false → u.loop = false

/-- `u'` is sound, and if nothing disturbed the receiver, what was read and what waits is as in `u`. -/
structure Keeps (u' : UART8250) : Prop where
  sound : u'.Sound
  steady : u'.disturbed = false → u.disturbed = false ∧ ∀ caller, u'.got caller = u.got caller

variable {u} {u' u'' : UART8250}

theorem Keeps.trans (h : u.Keeps u') (h' : u'.Keeps u'') : u.Keeps u'' := by
  refine ⟨h'.sound, fun hd => ?_⟩
  obtain ⟨hd', hgot'⟩ := h'.steady hd
  obtain ⟨hd, hgot⟩ := h.steady hd'
  exact ⟨hd, fun caller => (hgot' caller).trans (hgot caller)⟩

theorem keeps_of_same (hu' : u'.Sound) (hready : u'.lsr &&& 1 = u.lsr &&& 1)
    (hsame : (u'.received, u'.sender, u'.rbr, u'.disturbed) = (u.received, u.sender, u.rbr, u.disturbed)) :
    u.Keeps u' := by
  simp only [Prod.mk.injEq] at hsame
  obtain ⟨hreceived, hsender, hrbr, hdisturbed⟩ := hsame
  have hready : u'.ready = u.ready := decide_eq_decide.2 (not_congr (by rw [uartLSRDataReady, hready]))
  refine ⟨hu', fun hd => ⟨hdisturbed ▸ hd, fun caller => ?_⟩⟩
  rw [got, got, hready, hreceived, hsender, hrbr]

theorem got_of_not_ready (hready : u.ready = false) (caller : Nat) :
    u.got caller = (u.received.filter (·.1 = some caller)).map (·.2) := by
  simp [got, hready]

theorem sound_updateInterrupts (hdelta : u.msrDelta = 0) (hbits : u.lsr &&& 0x60 = if u.looped then 0x40 else 0x60)
    (hloop : u.disturbed = false → u.loop = false) : u.updateInterrupts.Sound :=
  ⟨hdelta, hbits, rfl, fun h => if_pos h, hloop⟩

namespace Sound

variable (h : u.Sound)

include h

theorem clearRX : u.clearRX.Sound :=
  sound_updateInterrupts h.delta ((lsr_bits u.lsr).2.2.1.trans h.transmitter) h.loop

theorem transmit (value : UInt8) :
    u.Keeps ((updateInterrupts { u with lsr := u.lsr &&& ~~~uartLSRTHRE }).transmit value) := by
  obtain ⟨-, -, -, -, -, -, hthre, hthreReady⟩ := lsr_bits u.lsr
  obtain ⟨hset, -, -, -, hboth, hbothReady, -, -⟩ := lsr_bits (u.lsr &&& ~~~0x20)
  unfold UART8250.transmit
  split
  · next hloop =>
    refine ⟨sound_updateInterrupts h.delta ?_ h.loop, fun hd => ?_⟩
    · rw [h.transmitter] at hthre
      refine hset.trans (hthre.trans ?_)
      cases u.looped <;> rfl
    · exact (Bool.false_ne_true ((h.loop hd).symm.trans hloop)).elim
  · exact keeps_of_same (sound_updateInterrupts h.delta hboth h.loop) (hbothReady.trans hthreReady) rfl

theorem setFCR (value : UInt8) : u.Keeps (u.setFCR value) := by
  unfold UART8250.setFCR
  simp only
  split
  · exact ⟨{ h.clearRX with loop := nofun }, nofun⟩
  · exact keeps_of_same { h with } rfl rfl

theorem setMCR (value : UInt8) : u.Keeps (u.setMCR value) := by
  have hbit : (value &&& 0x1f) &&& uartMCRLoop = value &&& uartMCRLoop := UInt8.and_assoc ..
  have hnext : Sound { u with mcr := value &&& 0x1f, disturbed := u.disturbed || value &&& uartMCRLoop ≠ 0 } :=
    { h with
      loop := fun hd => by
        rw [UART8250.loop, hbit]
        exact (Bool.or_eq_false_iff.1 hd).2 }
  unfold UART8250.setMCR
  simp only
  split
  · next hleaves =>
    refine ⟨sound_updateInterrupts hnext.delta hnext.clearRX.transmitter hnext.loop, fun hd => ?_⟩
    exact (Bool.false_ne_true ((h.loop (Bool.or_eq_false_iff.1 hd).1).symm.trans hleaves.1)).elim
  · exact ⟨sound_updateInterrupts hnext.delta hnext.transmitter hnext.loop,
      fun hd => ⟨(Bool.or_eq_false_iff.1 hd).1, fun _ => rfl⟩⟩

theorem writeRegister (reg : UInt16) (value : UInt8) : u.Keeps (u.writeRegister reg value) := by
  unfold UART8250.writeRegister
  split
  · split
    · exact keeps_of_same { h with } rfl rfl
    · exact h.transmit value
  · split
    · exact keeps_of_same { h with } rfl rfl
    · exact keeps_of_same (sound_updateInterrupts h.delta h.transmitter h.loop) rfl rfl
  · exact h.setFCR value
  · exact keeps_of_same { h with } rfl rfl
  · exact h.setMCR value
  · exact keeps_of_same { h with } rfl rfl
  · exact keeps_of_same h rfl rfl

theorem readRegister (reg : UInt16) : u.Keeps (u.readRegister reg).2 := by
  unfold UART8250.readRegister
  split
  case h_1 =>
    split
    · exact keeps_of_same h rfl rfl
    · obtain ⟨-, -, hclear, hclearReady, -⟩ := lsr_bits u.lsr
      refine ⟨sound_updateInterrupts h.delta (hclear.trans h.transmitter) h.loop, fun hd => ⟨hd, fun caller => ?_⟩⟩
      refine (got_of_not_ready (decide_eq_false (not_not.2 hclearReady)) caller).trans ?_
      show ((if u.ready then u.received ++ [(u.sender, u.rbr)] else u.received).filter _).map _ = u.got caller
      rw [got]
      cases u.ready
      · simp
      · by_cases hsender : u.sender = some caller <;> simp [hsender]
  case h_7 => exact keeps_of_same (h.delta ▸ h) rfl rfl
  all_goals exact keeps_of_same h rfl rfl

theorem injectRXByte (value : UInt8) : u.Keeps (injectRXByte u value) := by
  refine ⟨sound_updateInterrupts h.delta ((lsr_bits u.lsr).1.trans h.transmitter) fun hd => ?_, fun hd => ?_⟩
  · exact h.loop (Bool.or_eq_false_iff.1 hd).1
  · obtain ⟨hd, hready⟩ := Bool.or_eq_false_iff.1 hd
    refine ⟨hd, fun caller => .trans ?_ (got_of_not_ready hready caller).symm⟩
    simp [got, Serial.injectRXByte, updateInterrupts]

end Sound

end UART8250

theorem keeps_write (u : UART8250) (h : u.Sound) (addr : UInt64) (data : Bytes) : u.Keeps (write u addr data).2 := by
  induction data generalizing u addr with
  | nil => exact keeps_of_same h rfl rfl
  | cons value data ih =>
    rw [write]
    split
    · exact keeps_of_same h rfl rfl
    · next reg _ => exact (h.writeRegister reg value).trans (ih _ (h.writeRegister reg value).sound _)

theorem keeps_read (u : UART8250) (h : u.Sound) (addr : UInt64) (n : Nat) : u.Keeps (read u addr n).2 := by
  induction n generalizing u addr with
  | zero => exact keeps_of_same h rfl rfl
  | succ n ih =>
    rw [read]
    split
    · exact keeps_of_same h rfl rfl
    · next reg _ => exact (h.readRegister reg).trans (ih _ (h.readRegister reg).sound _)

/-- The port is sound, and what each caller passes is read in its order. -/
def World.Sound (data : Nat → Bytes) (w : World) : Prop :=
  w.uart.Sound ∧ (w.uart.disturbed = false → ∀ caller, data caller = w.uart.got caller ++ w.todo caller)

variable {data : Nat → Bytes} {w : World}

theorem World.Sound.access (h : w.Sound data) {u : UART8250} (hu : w.uart.Keeps u) :
    World.Sound data { w with uart := u } := by
  refine ⟨hu.sound, fun hd caller => ?_⟩
  obtain ⟨hd, hgot⟩ := hu.steady hd
  rw [h.2 hd caller, hgot]

theorem World.Sound.inject (h : w.Sound data) (caller : Nat) : (w.inject caller).Sound data := by
  unfold World.inject
  split
  · exact h
  · next value rest htodo =>
    split
    · exact h
    · next hready =>
      obtain ⟨hset, hready', -⟩ := lsr_bits w.uart.lsr
      refine ⟨sound_updateInterrupts h.1.delta (hset.trans h.1.transmitter) h.1.loop, fun hd c => ?_⟩
      rw [h.2 hd c, got_of_not_ready (Bool.eq_false_iff.2 hready)]
      have hset : ready { w.uart with lsr := w.uart.lsr ||| uartLSRDataReady } = true := decide_eq_true hready'
      by_cases hc : c = caller
      · subst hc
        simp_all [got, updateInterrupts, ready]
      · simp [got, updateInterrupts, Ne.symm hc, hc]

theorem World.Sound.step (h : w.Sound data) (e : Event) : (w.step e).Sound data := by
  cases e with
  | attachIRQ irq irqLine =>
    exact h.access (keeps_of_same (sound_updateInterrupts h.1.delta h.1.transmitter h.1.loop) rfl rfl)
  | write addr data => exact h.access (keeps_write _ h.1 addr data)
  | read addr n => exact h.access (keeps_read _ h.1 addr n)
  | injectRXByte value => exact h.access (h.1.injectRXByte value)
  | injectRXBytes caller => exact h.inject caller

theorem sound_newUART8250 (base : UInt64) (regShift : UInt32) (out : Option Bytes) :
    (newUART8250 base regShift out).Sound := by
  refine sound_updateInterrupts rfl (?_ : (uartLSRTHRE ||| uartLSRTEMT) &&& 0x60 = 0x60)
    fun _ => (?_ : decide ((0 : UInt8) &&& uartMCRLoop ≠ 0) = false)
  · decide
  · decide

/-- After any run of a new port the line status register shows an empty transmitter exactly if the last byte was not
sent in loopback mode, the identification register and the interrupt line show the highest enabled condition, and the
bytes of each caller of `InjectRXBytes` were read in their order, each once, but for those that wait. -/
theorem uart_run (base : UInt64) (regShift : UInt32) (out : Option Bytes) (data : Nat → Bytes) (es : List Event) :
    let w := run (newUART8250 base regShift out) data es
    ((w.uart.readRegister 5).1 &&& 0x60 = 0x60 ↔ w.uart.looped = false) ∧
      (w.uart.readRegister 2).1 = w.uart.interrupt ∧
      (w.uart.irq ∧ w.uart.irqLine ≠ 0 → w.uart.level = some (decide (w.uart.interrupt ≠ 0x01))) ∧
      (w.uart.disturbed = false → ∀ caller, data caller = w.uart.got caller ++ w.todo caller) := by
  have hrun : ∀ w : World, w.Sound data → (es.foldl World.step w).Sound data := by
    induction es with
    | nil => exact fun _ h => h
    | cons e es ih => exact fun w h => ih _ (h.step e)
  have hready : (newUART8250 base regShift out).ready = false :=
    (by decide : decide ((uartLSRTHRE ||| uartLSRTEMT) &&& uartLSRDataReady ≠ 0) = false)
  obtain ⟨h, hread⟩ := hrun ⟨newUART8250 base regShift out, data⟩
    ⟨sound_newUART8250 base regShift out, fun _ caller => by rw [got_of_not_ready hready caller]; rfl⟩
  refine ⟨?_, h.identified, h.level, hread⟩
  show (run _ data es).uart.lsr &&& 0x60 = 0x60 ↔ _
  rw [run, h.transmitter]
  cases (es.foldl World.step _).uart.looped <;> decide

/-- After a byte sent in loopback mode the holding register is reported full. -/
theorem loopback_leaves_transmitter_full :
    ((run (newUART8250 0 0 none) (fun _ => []) [.write 4 [0x10], .write 0 [0x41]]).uart.readRegister 5).1 &&& 0x60 =
    0x40 := by
  decide

end CrumbleCracker.Serial
