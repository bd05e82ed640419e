import Kernel391.Base.Frames

/-!
# The assembly between user code and the kernel

`syscall.S`, `Keyboard_Interrupt_wrapper.S` and the system call library `ece391syscall.S` of the
user programs, instruction by instruction.
-/

namespace Kernel391
open Base

/-- The C functions the assembly calls. -/
inductive Routine where
  | halt | execute | read | write | open | close | getargs | vidmap | setHandler | sigreturn
  | pitHandler | handleKeyboardIrq | rtcInterruptHandler
  deriving DecidableEq

/-- `sysJumpTable`; entry 0 is no function. -/
def sysJumpTable : List (Option Routine) :=
  [none, some .halt, some .execute, some .read, some .write, some .open, some .close, some .getargs,
    some .vidmap, some .setHandler, some .sigreturn]

/-- The labels of `syscall.S`. -/
inductive CallLabel where
  | done | invalid
  deriving DecidableEq

/-- `systemcall`. -/
def systemcall : List (Instr CallLabel Routine) :=
  [.pushl .esi,
   .pushl .edi,
   .pushl .esp,
   .pushl .edx,
   .pushl .ecx,
   .pushl .ebx,
   .cmplImm 10 .eax,
   .jg .invalid,
   .cmplImm 1 .eax,
   .jl .invalid,
   .callTable sysJumpTable .eax,
   .label .done,
   .popl .ebx,
   .popl .ecx,
   .popl .edx,
   .popl .esp,
   .popl .edi,
   .popl .esi,
   .iret,
   .label .invalid,
   .movlImm (-1) .eax,
   .jmp .done]

/-- The wrapper of an interrupt handler. -/
def irqWrap (handler : Routine) : List (Instr Empty Routine) :=
  [.pushal,
   .pushfl,
   .call handler,
   .popfl,
   .popal,
   .iret]

/-- `pit_interrupt_handler`. -/
def pitInterruptHandler : List (Instr Empty Routine) := irqWrap .pitHandler

/-- `keyboard_irq_wrap`. -/
def keyboardIrqWrap : List (Instr Empty Routine) := irqWrap .handleKeyboardIrq

/-- `rtc_irq_wrap`. -/
def rtcIrqWrap : List (Instr Empty Routine) := irqWrap .rtcInterruptHandler

/-- `DO_CALL`: the wrapper of a system call in user code. -/
def doCall (number : BitVec 32) : List (Instr Empty Empty) :=
  [.pushl .ebx,
   .movlImm number .eax,
   .movlLoad 8 .esp .ebx,
   .movlLoad 12 .esp .ecx,
   .movlLoad 16 .esp .edx,
   .int 0x80,
   .popl .ebx,
   .ret]

/-- The numbers of `ece391sysnum.h`, by the function of the kernel they stand for. -/
def sysNumber : Routine → Option (BitVec 32)
  | .halt => some 1
  | .execute => some 2
  | .read => some 3
  | .write => some 4
  | .open => some 5
  | .close => some 6
  | .getargs => some 7
  | .vidmap => some 8
  | .setHandler => some 9
  | .sigreturn => some 10
  | _ => none

/-- What `int n` does from user code: the processor goes through the gate for system calls,
`systemcall` runs, for at most `fuel` instructions, and returns. Every other gate is closed to user
code. -/
def trapInto (kernel : Outside Routine) (g : Gate) (t : TaskStack) (fuel n : Nat) (u : Cpu) :
    Option Cpu :=
  if n = 0x80 then
    (whileLoop (fun x => !x.1.isEmpty) (step kernel systemcall) fuel
      (systemcall, u.accept g t)).map Prod.snd
  else none

/-- User code under a kernel. -/
def underKernel (kernel : Outside Routine) (g : Gate) (t : TaskStack) (fuel : Nat) :
    Outside Empty where
  call := Empty.elim
  trap := trapInto kernel g t fuel
  back := 0

end Kernel391
