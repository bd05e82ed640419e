import Kernel391.Base.While
import Kernel391.Model.I8259

/-!
# The rate of the real-time clock

`getRate` and `rtc_init` of `RTC.c`. A loop of the source is given a number of passes, and `none` is
a loop that needs more of them.
-/

namespace Kernel391
open Base

/-- The loop of `getRate`, over `freq` and `ret`. -/
def getRateLoop (passes : Nat) (freq ret : Int) : Option (Int × Int) :=
  whileLoop (fun x => decide (x.1 ≠ 2)) (fun x => some (x.1.tdiv 2, x.2 - 1)) passes (freq, ret)

/-- `getRate`. -/
def getRate (passes : Nat) (freq : BitVec 32) : Option Int :=
  if freq.toInt < 2 ∨ freq.toInt > 1024 then some (-1)
  else (getRateLoop passes freq.toInt 0x0F).map Prod.snd

/-- The registers behind the ports of the clock, and the one that is selected. -/
structure Cmos where
  index : UInt8
  registers : UInt8 → UInt8

/-- A byte on `RTC_CMD` selects a register; its highest bit disables the NMI. -/
def Cmos.outCmd (c : Cmos) (b : UInt8) : Cmos := { c with index := b &&& 0x7F }

/-- A byte on `RTC_CMOS` goes to the register that is selected. -/
def Cmos.outCmos (c : Cmos) (b : UInt8) : Cmos :=
  { c with registers := Function.update c.registers c.index b }

/-- A byte from `RTC_CMOS`; it selects register D. -/
def Cmos.inCmos (c : Cmos) : UInt8 × Cmos := (c.registers c.index, { c with index := 0x0D })

/-- `rtc_init`. -/
def rtcInit (passes : Nat) (p : Pic) (c : Cmos) : Option (Pic × Cmos) :=
  let p := p.disableIrq 8
  let (prev, c) := (c.outCmd 0x8B).inCmos
  let c := (c.outCmd 0x8B).outCmos (prev ||| 0x40)
  let (prev, c) := (c.outCmd 0x8A).inCmos
  let c := c.outCmd 0x8A
  (getRate passes 1024).map fun rate =>
    (p.enableIrq 8, c.outCmos ((prev &&& 0xF0) ||| UInt8.ofInt rate))

end Kernel391
