import Kernel391.Model.Execute
import Kernel391.Model.LineBuffer

/-!
# Terminals

`terminal.c`: the read and write operations of the terminal driver and the switch between the three
terminals.
-/

namespace Kernel391
open Base

/-- `VEDIO_BUFFER_1` to `VEDIO_BUFFER_3`. -/
def videoBuffer (t : Nat) : Nat := 0xB9000 + fourKb * t

namespace Kernel

/-- The copy loop of `terminal_read` from index `i` on, with `fuel` bytes of `terminal_buffer` left;
`none` when it runs past the end of the buffer. -/
def copyLine (terminalBuffer : Nat → UInt8) : (fuel i : Nat) → Option (List UInt8)
  | 0, _ => none
  | fuel + 1, i =>
    if terminalBuffer i = 10 then some []
    else (copyLine terminalBuffer fuel (i + 1)).map (terminalBuffer i :: ·)

/-- The last two statements of `terminal_read`: `clean_buffer()` and `buf_pos = 0`. -/
def finishRead (s : Kernel) : Kernel :=
  let s := s.cleanBuffer
  { s with
    term := s.term.setTerminal s.term.currentTerminalId { s.term.current with bufPos := 0 } }

/-- `terminal_read` executed without interruption: the return value, the bytes stored at `buf` and
the state after. While no Enter is pending it waits, and does not complete. -/
def terminalRead (s : Kernel) (buf : Nat) (nbytes : Int) : Option (Int × List UInt8 × Kernel) :=
  if buf = 0 then some (-1, [], s)
  else if nbytes < 0 then some (-1, [], s)
  else if nbytes ≥ 1024 then some (-1, [], s)
  else if s.checkEnter = false then none
  else
    (copyLine s.term.current.terminalBuffer maxTerminalBufferSize 0).map fun line =>
      (line.length, line, s.finishRead)

/-- The loops of `terminal_write`: `out` prints the `n` bytes from `buf` on. -/
def writeLoop (out : Kernel → UInt8 → Kernel) : (n buf : Nat) → Kernel → Option Kernel
  | 0, _, s => some s
  | n + 1, buf, s =>
    match s.load buf with
    | none => none
    | some c => writeLoop out n (add32 buf 1) (out s c)

/-- `get_n_terminal`. -/
def getNTerminal (s : Kernel) : Nat := s.sched.nTerminal

/-- `terminal_write`: the return value and the state after. -/
def terminalWrite (s : Kernel) (buf : Nat) (nbytes : Int) : Option (Int × Kernel) :=
  if buf = 0 then some (-1, s)
  else
    -- the terminal of the scheduler, which is not always that of the process that writes
    let nnTerminal := s.getNTerminal
    let out := if s.term.currentTerminalId = nnTerminal then putc else (putcTerm · · nnTerminal)
    (writeLoop out nbytes.toNat buf s).map fun s' => (nbytes.toNat, s')

/-- `save_terminal`. -/
def saveTerminal (s : Kernel) (tid : Nat) : Kernel :=
  let e := s.term.terminalArray tid
  let e :=
    { e with
      screenCursorX := s.screen.screenX
      screenCursorY := s.screen.screenY
      bufPos := s.kbd.bufferPosition
      currentProcessId := s.proc.curPid }
  let s :=
    { s with
      mem := s.mem.blit e.videoBufferAddr videoMem fourKb
      term := s.term.setTerminal tid e }
  s.cleanKeyboardBuffer

/-- `restore_terminal`. -/
def restoreTerminal (s : Kernel) (tid : Nat) : Kernel :=
  let s := s.cleanKeyboardBuffer
  let e := s.term.terminalArray tid
  let s := { s with screen.screenX := e.screenCursorX, screen.screenY := e.screenCursorY }
  let s := s.updateCursor.giveBufPos e.bufPos
  let curPid := e.currentProcessId
  -- `filed_array`, the user page and the task state segment stay as they are
  let s := { s with proc.curPid := curPid, proc.curProcessPtr := pcbAddr curPid }
  { s with mem := s.mem.blit videoMem e.videoBufferAddr fourKb }

/-- The common statements of both branches of `terminal_switch`. -/
def changeTerminal (s : Kernel) (newTerminalId : Nat) : Kernel :=
  let s := (s.saveTerminal s.term.currentTerminalId).restoreTerminal newTerminalId
  { s with term.currentTerminalId := newTerminalId }

/-- `terminal_switch`. -/
def terminalSwitch (fr : Frame) (s : Kernel) (newTerminalId : Nat) : Option (Kernel × Control) :=
  if newTerminalId = s.term.currentTerminalId then some (s, .ret 0)
  else if (s.term.terminalArray newTerminalId).currentProcessId = -1 then
    match execute fr (s.changeTerminal newTerminalId) (some shellCommand) with
    | none => none
    | some (s', .ret _) => some (s', .ret 0)
    | some (s', c) => some (s', c)
  else some (s.changeTerminal newTerminalId, .ret 0)

/-- `terminal_init`. -/
def terminalInit (s : Kernel) : Kernel :=
  let entry (t : Nat) : Terminal :=
    { screenCursorX := 0
      screenCursorY := 0
      terminalBuffer := fun _ => 0
      videoBufferAddr := videoBuffer t
      bufPos := 0
      currentProcessId := -1 }
  let present (pt : Nat → Nat) (t : Nat) : Nat → Nat :=
    Function.update pt (videoBuffer t >>> 12) (pt (videoBuffer t >>> 12) ||| 1)
  { s with
    term := { terminalArray := entry, currentTerminalId := 0 }
    paging := { s.paging with PT := present (present (present s.paging.PT 0) 1) 2 } }

end Kernel

end Kernel391
