import Kernel391.Base.Frames
import Kernel391.Model.I8259

/-!
# Interrupt vectors and their end

`idt.c` and the end of an interrupt in `i8259.c`. The in-service registers of the two controllers
are there as far as the kernel drives them: an interrupt that a chip hands to the processor is in
service until a command ends it, and holds back the lines of the same and of lower priority.
-/

namespace Kernel391
open Base

/-- `idt_desc_t`. -/
structure IdtDesc where
  offset1500 : BitVec 16
  segSelector : BitVec 16
  reserved4 : BitVec 8
  reserved3 : BitVec 1
  reserved2 : BitVec 1
  reserved1 : BitVec 1
  size : BitVec 1
  reserved0 : BitVec 1
  dpl : BitVec 2
  present : BitVec 1
  offset3116 : BitVec 16

/-- The handlers `idt_init` installs. -/
inductive Handler where
  | e (n : Nat)
  | pitInterruptHandler
  | rtcIrqWrap
  | keyboardIrqWrap
  | systemcall
  deriving DecidableEq

/-- `num_exception`. -/
def numException : Nat := 20

/-- `idt_size`. -/
def idtSize : Nat := 256

/-- `itr_rtc`. -/
def itrRtc : Nat := 0x28

/-- `itr_keyboard`. -/
def itrKeyboard : Nat := 0x21

/-- `pit_vector`. -/
def pitVector : Nat := 0x20

/-- `system_call`. -/
def systemCall : Nat := 0x80

/-- `KERNEL_CS`. -/
def kernelCs : BitVec 16 := 0x10

/-- `SET_IDT_ENTRY`. -/
def IdtDesc.setEntry (str : IdtDesc) (handler : BitVec 32) : IdtDesc :=
  { str with
    offset3116 := ((handler &&& 0xFFFF0000) >>> 16).setWidth 16
    offset1500 := (handler &&& 0xFFFF).setWidth 16 }

/-- The body of the first loop of `idt_init`. -/
def IdtDesc.clear (d : IdtDesc) : IdtDesc :=
  { d with
    segSelector := kernelCs
    reserved3 := 1
    reserved2 := 1
    reserved1 := 1
    size := 1
    reserved0 := 0
    dpl := 0
    present := 0 }

/-- An assignment to fields of one entry. -/
def changeEntry (v : Nat) (f : IdtDesc → IdtDesc) (idt : Nat → IdtDesc) : Nat → IdtDesc :=
  Function.update idt v (f (idt v))

/-- A loop over the entries below `n`. -/
def forEntries (n : Nat) (f : Nat → IdtDesc → IdtDesc) (idt : Nat → IdtDesc) : Nat → IdtDesc :=
  (List.range n).foldl (fun idt v => changeEntry v (f v) idt) idt

/-- `idt_init`, for handlers at the addresses `address`. -/
def idtInit (address : Handler → BitVec 32) (idt : Nat → IdtDesc) : Nat → IdtDesc :=
  let idt := forEntries idtSize (fun _ => .clear) idt
  let idt := forEntries numException (fun n d => d.setEntry (address (.e n))) idt
  let idt := forEntries numException (fun _ d => { d with present := 1 }) idt
  let idt := changeEntry pitVector (·.setEntry (address .pitInterruptHandler)) idt
  let idt := changeEntry pitVector (fun d => { d with reserved3 := 0, present := 1 }) idt
  let idt := changeEntry itrRtc (·.setEntry (address .rtcIrqWrap)) idt
  let idt := changeEntry itrRtc (fun d => { d with reserved3 := 0, present := 1 }) idt
  let idt := changeEntry itrKeyboard (·.setEntry (address .keyboardIrqWrap)) idt
  let idt := changeEntry itrKeyboard (fun d => { d with reserved3 := 0, present := 1 }) idt
  let idt := changeEntry systemCall (·.setEntry (address .systemcall)) idt
  changeEntry systemCall (fun d => { d with dpl := 3, present := 1 }) idt

/-- What the processor makes of an entry: 32-bit interrupt and trap gates differ in the lowest bit
of their type. -/
def IdtDesc.gate (d : IdtDesc) : Option Gate :=
  if d.present = 1 ∧ d.reserved0 = 0 ∧ d.size = 1 ∧ d.reserved1 = 1 ∧ d.reserved2 = 1 then
    some
      { selector := d.segSelector
        offset := d.offset3116 ++ d.offset1500
        trap := d.reserved3 == 1 }
  else none

/-- The handler of a vector that has a gate. -/
def vectorHandler (v : Nat) : Option Handler :=
  if v < numException then some (.e v)
  else if v = pitVector then some .pitInterruptHandler
  else if v = itrRtc then some .rtcIrqWrap
  else if v = itrKeyboard then some .keyboardIrqWrap
  else if v = systemCall then some .systemcall
  else none

/-! ## The end of an interrupt -/

/-- The controllers and their in-service registers. -/
structure Controllers where
  pic : Pic
  masterService : UInt8
  slaveService : UInt8

namespace Controllers

/-- `EOI`. -/
def eoi : Nat := 0x60

/-- What a byte on the command port does to an in-service register: a word that starts the
initialization clears it, and a specific end of interrupt clears the bit of its line. -/
def serviceOut (service : UInt8) (b : UInt8) : UInt8 :=
  if byteBit b 4 then 0
  else if byteBit b 3 = false ∧ b.toNat / 32 = 3 then service &&& ~~~(1 <<< (b % 8))
  else service

/-- `outb`. -/
def outb (c : Controllers) (b : UInt8) (port : Nat) : Controllers where
  pic := c.pic.outb b port
  masterService := if port = master8259Port then serviceOut c.masterService b else c.masterService
  slaveService := if port = slave8259Port then serviceOut c.slaveService b else c.slaveService

/-- `send_eoi`. -/
def sendEoi (c : Controllers) (irqNum : BitVec 32) : Controllers :=
  if 15 < irqNum.toNat then c
  else if irqNum.toNat ≤ 7 ∧ irqNum ≠ 2 then
    c.outb (UInt8.ofNat (irqNum ||| BitVec.ofNat 32 eoi).toNat) master8259Port
  else
    let signal := irqNum - 8 ||| BitVec.ofNat 32 eoi
    (c.outb (UInt8.ofNat signal.toNat) slave8259Port).outb (UInt8.ofNat (2 ||| eoi)) master8259Port

/-- No line of a register up to `n` is in service. -/
def quiet (service : UInt8) (n : Nat) : Bool := (List.range (n + 1)).all fun k => !byteBit service k

/-- A chip hands a requested line to the processor: it is not masked, and no line of its priority or
a higher one is in service. The slave is on line 2 of the master. -/
def delivers (c : Controllers) (irq : Nat) : Bool :=
  if irq ≤ 7 then irq != 2 && !byteBit c.pic.master.maskRegister irq && quiet c.masterService irq
  else
    !byteBit c.pic.slave.maskRegister (irq - 8) && quiet c.slaveService (irq - 8) &&
      !byteBit c.pic.master.maskRegister 2 && quiet c.masterService 2

/-- The line is in service from then on. -/
def accept (c : Controllers) (irq : Nat) : Controllers :=
  if irq ≤ 7 then { c with masterService := c.masterService ||| 1 <<< UInt8.ofNat irq }
  else
    { c with
      masterService := c.masterService ||| (1 : UInt8) <<< 2
      slaveService := c.slaveService ||| 1 <<< UInt8.ofNat (irq - 8) }

/-- What a function of `i8259.c` writes to the ports reaches the in-service registers, too. -/
def through (c : Controllers) (f : Pic → Pic) : Controllers :=
  let p := f c.pic
  let written := (p.writes.take (p.writes.length - c.pic.writes.length)).reverse
  let service (port : Nat) (old : UInt8) :=
    written.foldl (fun s w => if w.1 = port then serviceOut s w.2 else s) old
  { pic := p
    masterService := service master8259Port c.masterService
    slaveService := service slave8259Port c.slaveService }

/-- The calls `entry` makes: `i8259_init`, `keyboard_init`, and both ends of `rtc_init`. -/
def boot (c : Controllers) : Controllers :=
  (((c.through Pic.i8259Init).through (·.enableIrq 1)).through (·.disableIrq 8)).through
    (·.enableIrq 8)

/-- The ends of interrupt a handler sends. `pit_handler` sends its own, and `process_switch` another
one if it gets there. -/
def acknowledge (c : Controllers) (switches : Bool) : Handler → Controllers
  | .pitInterruptHandler => if switches then (c.sendEoi 0).sendEoi 0 else c.sendEoi 0
  | .keyboardIrqWrap => c.sendEoi 1
  | .rtcIrqWrap => c.sendEoi 8
  | _ => c

/-- A device requests an interrupt. A line whose vector has no gate leads to exception 11, whose
handler never returns. -/
def interrupt (c : Controllers) (irq : Nat) (switches : Bool) : Controllers :=
  if c.delivers irq then
    match vectorHandler (icw2Master.toNat + irq) with
    | some h => (c.accept irq).acknowledge switches h
    | none => c.accept irq
  else c

end Controllers

end Kernel391
