import Kernel391.Model.Filesystem

/-!
# The interrupt controllers

`i8259.c`: the two mask bytes the kernel keeps and the bytes it writes to the ports of the two
chips. The chips are there as the ports show them: a byte with bit 4 set on the command port starts
the initialization, which clears the mask register and takes the words it announces from the data
port; any other byte on the data port is the new mask.
-/

namespace Kernel391
open Base

/-- `MASTER_8259_PORT`, the command port of the master; its data port is the next one. -/
def master8259Port : Nat := 0x20

/-- `SLAVE_8259_PORT`. -/
def slave8259Port : Nat := 0xA0

/-- `ICW1`. -/
def icw1 : UInt8 := 0x11

/-- `ICW2_MASTER`. -/
def icw2Master : UInt8 := 0x20

/-- `ICW2_SLAVE`. -/
def icw2Slave : UInt8 := 0x28

/-- `ICW3_MASTER`. -/
def icw3Master : UInt8 := 0x04

/-- `ICW3_SLAVE`, also the line of the master the slave is on. -/
def icw3Slave : UInt8 := 0x02

/-- `ICW4`. -/
def icw4 : UInt8 := 0x01

/-- Bit `n` of a byte. -/
def byteBit (b : UInt8) (n : Nat) : Bool := b.toBitVec.getLsbD n

/-- A chip: the initialization words it still takes on its data port, and its mask register. -/
structure Chip where
  expected : Nat
  maskRegister : UInt8

/-- A byte on the command port. Bits 0 and 1 of `ICW1` say whether `ICW4` and `ICW3` follow. -/
def Chip.command (c : Chip) (b : UInt8) : Chip :=
  if byteBit b 4 then
    { expected := 1 + (!byteBit b 1).toNat + (byteBit b 0).toNat
      maskRegister := 0 }
  else c

/-- A byte on the data port. -/
def Chip.data (c : Chip) (b : UInt8) : Chip :=
  if c.expected = 0 then { c with maskRegister := b } else { c with expected := c.expected - 1 }

/-- A byte on a port, seen by the chip whose command port is `port`. -/
def Chip.out (c : Chip) (port : Nat) (w : Nat × UInt8) : Chip :=
  if w.1 = port then c.command w.2 else if w.1 = port + 1 then c.data w.2 else c

/-- The globals of `i8259.c`, the two chips, and the bytes written to their ports with the last one
first. -/
structure Pic where
  masterMask : UInt8
  slaveMask : UInt8
  master : Chip
  slave : Chip
  writes : List (Nat × UInt8)

namespace Pic

/-- `outb`. -/
def outb (p : Pic) (b : UInt8) (port : Nat) : Pic :=
  { p with
    master := p.master.out master8259Port (port, b)
    slave := p.slave.out slave8259Port (port, b)
    writes := (port, b) :: p.writes }

/-- `enable_irq`. -/
def enableIrq (p : Pic) (irqNum : Nat) : Pic :=
  if irqNum > 15 then p
  else if irqNum ≤ 7 then
    let p := { p with masterMask := p.masterMask &&& ~~~(1 <<< UInt8.ofNat irqNum) }
    let p := p.outb p.masterMask (master8259Port + 1)
    if irqNum = icw3Slave.toNat then
      let p := { p with slaveMask := 0 }
      p.outb p.slaveMask (slave8259Port + 1)
    else p
  else
    let p := { p with slaveMask := p.slaveMask &&& ~~~(1 <<< UInt8.ofNat (irqNum - 8)) }
    let p := p.outb p.slaveMask (slave8259Port + 1)
    let p := { p with masterMask := p.masterMask &&& ~~~((1 : UInt8) <<< 2) }
    p.outb p.masterMask (master8259Port + 1)

/-- `disable_irq`. -/
def disableIrq (p : Pic) (irqNum : Nat) : Pic :=
  if irqNum > 15 then p
  else if irqNum ≤ 7 then
    let p := { p with masterMask := p.masterMask ||| (1 <<< UInt8.ofNat irqNum) }
    let p := p.outb p.masterMask (master8259Port + 1)
    if irqNum = icw3Slave.toNat then
      let p := { p with slaveMask := 0xFF }
      p.outb p.slaveMask (slave8259Port + 1)
    else p
  else
    let p := { p with slaveMask := p.slaveMask ||| (1 <<< UInt8.ofNat (irqNum - 8)) }
    -- the command port, where the other three branches write to the data port
    p.outb p.slaveMask slave8259Port

/-- `i8259_init` up to its calls of `enable_irq`. -/
def initWords (p : Pic) : Pic :=
  let p := p.outb 0xFF (master8259Port + 1)
  let p := p.outb 0xFF (slave8259Port + 1)
  let p := p.outb icw1 master8259Port
  let p := p.outb icw2Master (master8259Port + 1)
  let p := p.outb icw3Master (master8259Port + 1)
  let p := p.outb icw4 (master8259Port + 1)
  let p := p.outb icw1 slave8259Port
  let p := p.outb icw2Slave (slave8259Port + 1)
  let p := p.outb icw3Slave (slave8259Port + 1)
  let p := p.outb icw4 (slave8259Port + 1)
  let p := p.outb p.masterMask (master8259Port + 1)
  let p := p.outb p.slaveMask (slave8259Port + 1)
  { p with masterMask := 0xFF, slaveMask := 0xFF }

/-- `i8259_init`. -/
def i8259Init (p : Pic) : Pic := (p.initWords.enableIrq 2).enableIrq 8

/-- The controllers when the kernel starts, with nothing written yet: the uninitialised globals are
zero, and the chips are as the machine left them. -/
def start (master slave : Chip) : Pic := ⟨0, 0, master, slave, []⟩

end Pic

end Kernel391
