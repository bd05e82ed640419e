import Kernel391.Model.Filesystem

/-!
# The kernel's state

The globals of the kernel, grouped by the source file that owns them, and the memory they live
beside. `mem` is physical memory as far as it is reached through byte pointers: the boot image, the
user pages and the video pages. Kernel addresses are mapped to themselves, so a kernel pointer is a
physical address. The process control blocks sit at fixed addresses below `END_OF_KERNEL`, one per
kernel stack, and are kept as records under their addresses; so are the other named globals. Process
identifiers are integers, with `-1` for the pattern `0xFFFFFFFF` of an unsigned field.
-/

namespace Kernel391
open Base

/-- `USER_MEM`. -/
def userMem : Nat := 0x08000000

/-- `USER_END`. -/
def userEnd : Nat := 0x08400000

/-- `USER_PADDR`, the address programs are loaded at. -/
def userPaddr : Nat := 0x08048000

/-- `USER_STACK_SIZE`. -/
def userStackSize : Nat := 0x00400000

/-- `KERNEL_STACK_SIZE`. -/
def kernelStackSize : Int := 0x2000

/-- `END_OF_KERNEL`. -/
def endOfKernel : Int := 0x00800000

/-- `KERNEL_DS`. -/
def kernelDs : Nat := 0x0018

/-- `MAX_PROCESS_NUMBER`. -/
def maxProcessNumber : Nat := 6

/-- `FDARRAY_MAX`. -/
def fdarrayMax : Nat := 8

/-- `MAX_TERMINAL_SIZE`. -/
def maxTerminalSize : Nat := 3

/-- `MAX_TERMINAL_BUFFER_SIZE`. -/
def maxTerminalBufferSize : Nat := 128

/-- `VIDEO_MEM`, also `VIDEO` of `lib.c`. -/
def videoMem : Nat := 0x000B8000

/-- `FOUR_KB`. -/
def fourKb : Nat := 4096

/-- `fdarray`. The operation table pointer is kept as the index into `file_operation_table`. -/
structure FdArray where
  fileotPointer : Nat
  inode : Nat
  position : Nat
  flags : Nat

/-- `PCB_t`. From offset 32 on, `arg` is whatever memory follows the record. -/
structure PCB where
  fdArray : Nat → FdArray
  pid : Int
  parentPid : Int
  tssEsp0 : Int
  scheduledEsp : Nat
  scheduledEbp : Nat
  arg : Nat → UInt8

/-- The process globals of `scall.c` and the control blocks by address; `NULL` is 0. -/
structure Proc where
  pidCheck : Int → UInt8
  newPid : Int
  filedArray : Int
  curPid : Int
  curProcessPtr : Int
  pcbs : Int → PCB

/-- `terminal_t`. -/
structure Terminal where
  screenCursorX : Nat
  screenCursorY : Nat
  terminalBuffer : Nat → UInt8
  videoBufferAddr : Nat
  bufPos : Nat
  currentProcessId : Int

/-- The globals of `terminal.c`. -/
structure Term where
  terminalArray : Nat → Terminal
  currentTerminalId : Nat

/-- The modifier keys `keyboard.c` keeps track of. -/
structure Mods where
  ctrlPressed : Bool
  shiftPressed : Bool
  capslockState : Bool
  altPressed : Bool
  deriving DecidableEq

/-- The globals of `keyboard.c`. -/
structure Kbd where
  keyboardBuffer : Nat → UInt8
  bufferPosition : Nat
  mods : Mods

/-- The visible cursor: `screen_x` and `screen_y` of `lib.c`, and the position the cursor registers
of the display were last set to. -/
structure Screen where
  screenX : Nat
  screenY : Nat
  cursor : Nat

/-- The globals of `sched.c` that it reads. -/
structure Sched where
  schduleTid : Int
  nTerminal : Nat

/-- The task state segment fields the kernel sets. -/
structure Tss where
  esp0 : Int
  ss0 : Nat

/-- The globals of `RTC.c`. -/
structure Rtc where
  rtcInterrupt : Bool
  rtcFreq : Nat

/-- The page directory, the page table of the first 4 MB and the one for `vidmap`, as 32-bit
entries, with the addresses the linker gave the three tables. -/
structure Paging where
  DT : Nat → Nat
  PT : Nat → Nat
  PTVidmem : Nat → Nat
  dtAddr : Nat
  ptAddr : Nat
  ptVidmemAddr : Nat

/-- The state of the kernel. -/
structure Kernel where
  mem : Mem
  fs : Fs
  proc : Proc
  term : Term
  kbd : Kbd
  screen : Screen
  sched : Sched
  tss : Tss
  rtc : Rtc
  paging : Paging

/-- What a call finds in the registers and in its uninitialised locals: the stack registers, the
buffer `data_buf` of `execute` and the directory record of `execute` and `open`. -/
structure Frame where
  esp : Nat
  ebp : Nat
  dataBuf : Nat → UInt8
  dentry : Nat → UInt8

/-- How a call ends: it returns to its caller, starts user code in a fresh process, or resumes the
`execute` call of a parent process with a value. -/
inductive Control where
  | ret (v : Int)
  | user (pid : Int) (eip : Nat)
  | resume (pid : Int) (v : Nat)
  deriving DecidableEq

/-! ## Paging -/

/-- The physical address the kernel reaches through a linear address, walking the two levels of the
page tables; `none` is a page fault. -/
def Paging.translate (pg : Paging) (va : Nat) : Option Nat :=
  let pde := pg.DT (va / 2 ^ 22)
  if pde % 2 = 0 then none
  else if pde / 2 ^ 7 % 2 = 1 then some (pde / 2 ^ 22 * 2 ^ 22 + va % 2 ^ 22)
  else
    let table := pde / 2 ^ 12 * 2 ^ 12
    let pte :=
      if table = pg.ptAddr then pg.PT (va / 2 ^ 12 % 1024)
      else if table = pg.ptVidmemAddr then pg.PTVidmem (va / 2 ^ 12 % 1024)
      else 0
    if pte % 2 = 0 then none else some (pte / 2 ^ 12 * 2 ^ 12 + va % 2 ^ 12)

/-- The directory entry `PD_MASK | (pd_addr << 22)` of the user page; `PD_MASK` is `0x87`. -/
def userPde (pdAddr : Nat) : Nat := 0x87 ||| (pdAddr <<< 22)

/-- `USER_MEM >> 22`. -/
def userPdIndex : Nat := userMem >>> 22

/-- The page directory with the user page at `pd_addr`. -/
def Paging.mapUserPage (pg : Paging) (pdAddr : Nat) : Paging :=
  { pg with DT := Function.update pg.DT userPdIndex (userPde pdAddr) }

/-- The byte a pointer refers to. -/
def Kernel.load (s : Kernel) (va : Nat) : Option UInt8 := (s.paging.translate va).map s.mem

/-- Memory as the kernel's pointers see it; a byte that is not mapped is 0 here. -/
def Kernel.linear (s : Kernel) : Mem := fun va => (s.load va).getD 0

/-- All of these addresses are mapped, so that a read of them does not fault. -/
def Paging.Mapped (pg : Paging) (addresses : List Nat) : Prop :=
  ∀ a ∈ addresses, (pg.translate (a % 2 ^ 32)).isSome

/-- Whether addresses are mapped can be read from the page tables. -/
instance (pg : Paging) (addresses : List Nat) : Decidable (pg.Mapped addresses) :=
  inferInstanceAs (Decidable (∀ a ∈ addresses, _))

/-- The word a pointer refers to. -/
def Kernel.loadWord (s : Kernel) (va : Nat) : Option Nat := do
  let b0 ← s.load va
  let b1 ← s.load (va + 1)
  let b2 ← s.load (va + 2)
  let b3 ← s.load (va + 3)
  return b0.toNat + 2 ^ 8 * b1.toNat + 2 ^ 16 * b2.toNat + 2 ^ 24 * b3.toNat

/-- The memory after consecutive bytes were stored through a pointer. -/
def storeThrough (pg : Paging) : Mem → Nat → List UInt8 → Option Mem
  | m, _, [] => some m
  | m, va, b :: bs =>
    match pg.translate va with
    | none => none
    | some pa => storeThrough pg (Function.update m pa b) (add32 va 1) bs

/-- The entries of the table at `a` after a byte was stored at a physical address. -/
def storeEntry (a : Nat) (table : Nat → Nat) (pa : Nat) (b : UInt8) : Nat → Nat :=
  if a ≤ pa ∧ pa < a + 4096 then
    let i := (pa - a) / 4
    Function.update table i (setByte (table i) ((pa - a) % 4) b)
  else table

/-- The page tables after a byte was stored at a physical address, where one of them may lie. -/
def Paging.storeByte (pg : Paging) (pa : Nat) (b : UInt8) : Paging :=
  { pg with
    DT := storeEntry pg.dtAddr pg.DT pa b
    PT := storeEntry pg.ptAddr pg.PT pa b
    PTVidmem := storeEntry pg.ptVidmemAddr pg.PTVidmem pa b }

/-- The page tables after consecutive bytes were stored through a pointer that `pg` translates. -/
def Paging.storeTables (pg : Paging) : Paging → Nat → List UInt8 → Paging
  | pg', _, [] => pg'
  | pg', va, b :: bs =>
    match pg.translate va with
    | none => pg'
    | some pa => storeTables pg (pg'.storeByte pa b) (add32 va 1) bs

/-- `*p = w` for a pointer that may point anywhere, also into the page tables. -/
def Kernel.storePointer (s : Kernel) (p w : Nat) : Option Kernel :=
  (storeThrough s.paging s.mem p (wordBytes w)).map fun m =>
    { s with mem := m, paging := s.paging.storeTables s.paging p (wordBytes w) }

/-! ## Process control blocks -/

/-- The address of the control block of a process: `END_OF_KERNEL - KERNEL_STACK_SIZE * (pid +
1)`. -/
def pcbAddr (pid : Int) : Int := endOfKernel - kernelStackSize * (pid + 1)

/-- An address in the page of the kernel; dereferencing a control block pointer outside it
faults. -/
def KernelPtr (a : Int) : Prop := 0x00400000 ≤ a ∧ a < endOfKernel

/-- Whether an address is in the kernel's page is a comparison. -/
instance (a : Int) : Decidable (KernelPtr a) := inferInstanceAs (Decidable (_ ∧ _))

/-- The control block at an address. -/
def Proc.pcb (p : Proc) (a : Int) : PCB := p.pcbs a

/-- The processes' globals with the control block at `a` replaced. -/
def Proc.setPcb (p : Proc) (a : Int) (b : PCB) : Proc :=
  { p with pcbs := Function.update p.pcbs a b }

/-- `filed_array[fd]`; the descriptor array is the first field of a control block. -/
def Proc.fd (p : Proc) (fd : Nat) : FdArray := (p.pcbs p.filedArray).fdArray fd

/-- The processes' globals with `filed_array[fd]` replaced. -/
def Proc.setFd (p : Proc) (fd : Nat) (e : FdArray) : Proc :=
  let b := p.pcbs p.filedArray
  p.setPcb p.filedArray { b with fdArray := Function.update b.fdArray fd e }

/-- The terminals with entry `t` of `terminal_array` replaced. -/
def Term.setTerminal (tm : Term) (t : Nat) (e : Terminal) : Term :=
  { tm with terminalArray := Function.update tm.terminalArray t e }

/-- `terminal_array[current_terminal_id]`. -/
def Term.current (tm : Term) : Terminal := tm.terminalArray tm.currentTerminalId

end Kernel391
