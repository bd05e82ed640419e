import Kernel391.Model.Scall

/-!
# The scheduler

`sched.c`: the timer interrupt and the switch to the process of the next terminal.
-/

namespace Kernel391
open Base

namespace Kernel

/-- The loop of `process_switch` that looks for the next terminal with a process. -/
def nextTerminal (s : Kernel) : (fuel nTerminal : Nat) → Nat
  | 0, nTerminal => nTerminal
  | fuel + 1, nTerminal =>
    let nTerminal := (nTerminal + 1) % maxTerminalSize
    if (s.term.terminalArray nTerminal).currentProcessId ≠ -1 then nTerminal
    else nextTerminal s fuel nTerminal

/-- The first statements of `process_switch`: `n_terminal` becomes the terminal to run next. -/
def selectTerminal (s : Kernel) : Kernel :=
  let schduleTid : Int :=
    if s.sched.schduleTid = -1 then s.term.currentTerminalId else s.sched.schduleTid
  { s with
    sched := { schduleTid, nTerminal := s.nextTerminal maxTerminalSize schduleTid.toNat } }

/-- The remapping of the user video page when the next terminal is not the visible one. -/
def remapVideo (s : Kernel) (newScreen : Nat) : Kernel :=
  if s.sched.nTerminal ≠ s.term.currentTerminalId then
    let pAdd := (s.term.terminalArray s.sched.nTerminal).videoBufferAddr
    { s with
      paging :=
        { s.paging with
          DT := Function.update s.paging.DT (newScreen / 0x400000)
            (s.paging.ptAddr ||| 1 ||| 2 ||| 4)
          PT := Function.update s.paging.PT 0 (pAdd ||| 1 ||| 2 ||| 4) } }
  else s

/-- The write-back `terminal_array[current_terminal_id].current_process_id = cur_pid`. -/
def writeBack (s : Kernel) : Kernel :=
  { s with
    term := s.term.setTerminal s.term.currentTerminalId
      { s.term.current with currentProcessId := s.proc.curPid } }

/-- The running process keeps its stack registers and kernel stack. -/
def saveRunning (fr : Frame) (s : Kernel) : Kernel :=
  let a := s.proc.curProcessPtr
  let b := { s.proc.pcb a with
    scheduledEsp := fr.esp, scheduledEbp := fr.ebp, tssEsp0 := s.tss.esp0 }
  { s with proc := s.proc.setPcb a b }

/-- `forward`. -/
def forward (s : Kernel) : Kernel :=
  let curPid := (s.term.terminalArray s.sched.nTerminal).currentProcessId
  { s with
    sched.schduleTid := s.sched.nTerminal
    proc := { s.proc with curPid, curProcessPtr := pcbAddr curPid } }

/-- The last statements of `process_switch`: the user page and the descriptors of the new
process. -/
def enterProcess (s : Kernel) : Kernel :=
  { s with
    paging := s.paging.mapUserPage (2 + s.proc.curPid).toNat
    proc := { s.proc with filedArray := s.proc.curProcessPtr } }

/-- `process_switch`; `newScreen` is the address of its local of that name, a kernel stack address.
It leaves by the stack of the process it switched to. -/
def processSwitch (fr : Frame) (newScreen : Nat) (s : Kernel) : Option Kernel :=
  let s := s.selectTerminal
  -- the address is not the user's, so `vidmap` refuses it and leaves `USER_END - 4` in the local
  match s.vidmap newScreen with
  | none => none
  | some (s, _) =>
    match s.loadWord newScreen with
    | none => none
    | some screen =>
      let s := (s.remapVideo screen).writeBack
      if s.proc.curPid = -1 then
        match execute fr s.forward (some shellCommand) with
        | none => none
        | some (s, .ret _) => some s.enterProcess
        | some (s, _) => some s
      else if ¬ KernelPtr s.proc.curProcessPtr then none
      else
        let s := (s.saveRunning fr).forward
        if ¬ KernelPtr s.proc.curProcessPtr then none else some s.setTss.enterProcess

/-- `pit_handler`: a timer interrupt. -/
def pitHandler (fr : Frame) (newScreen : Nat) (s : Kernel) : Option Kernel :=
  if (s.term.terminalArray 1).currentProcessId ≠ -1
      ∨ (s.term.terminalArray 2).currentProcessId ≠ -1 then
    if s.proc.curPid ≠ -1 then s.processSwitch fr newScreen else some s
  else if s.proc.curProcessPtr ≠ 0 then
    if KernelPtr s.proc.curProcessPtr then some (s.saveRunning fr) else none
  else some s

end Kernel

end Kernel391
