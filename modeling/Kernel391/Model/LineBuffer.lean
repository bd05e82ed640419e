import Kernel391.Model.Console

/-!
# The line buffers

The functions of `keyboard.c` and `terminal.c` that edit `keyboard_buffer`, `buffer_position` and
the visible terminal's `terminal_buffer`.
-/

namespace Kernel391.Kernel
open Base

/-- `MAX_BUFFER_SIZE`. -/
def maxBufferSize : Nat := 127

/-- `read_to_cur_terminal_buffer`. -/
def readToCurTerminalBuffer (s : Kernel) (index : Nat) (input : UInt8) : Kernel :=
  let e := s.term.current
  { s with
    term := s.term.setTerminal s.term.currentTerminalId
      { e with terminalBuffer := Function.update e.terminalBuffer index input } }

/-- The pair of stores the handler makes for a character at `buffer_position`:
`keyboard_buffer[buffer_position] = c`, then the same byte to the terminal buffer. -/
def putBuffer (s : Kernel) (c : UInt8) : Kernel :=
  let kb := Function.update s.kbd.keyboardBuffer s.kbd.bufferPosition c
  { s with kbd.keyboardBuffer := kb }.readToCurTerminalBuffer s.kbd.bufferPosition
    (kb s.kbd.bufferPosition)

/-- One pass of the loop of `clean_buffer`. -/
def cleanIndex (s : Kernel) (i : Nat) : Kernel :=
  let kb := Function.update s.kbd.keyboardBuffer i 0
  { s with kbd.keyboardBuffer := kb }.readToCurTerminalBuffer i (kb i)

/-- The loop of `clean_buffer`. -/
@[irreducible] def cleanIndices (s : Kernel) : Kernel := (List.range 128).foldl cleanIndex s

/-- `clean_buffer`. -/
def cleanBuffer (s : Kernel) : Kernel := { s.cleanIndices with kbd.bufferPosition := 0 }

/-- The loop of `clean_keyboard_buffer`. -/
@[irreducible] def zeroBuffer (kb : Nat → UInt8) : Nat → UInt8 :=
  (List.range 128).foldl (fun kb i => Function.update kb i 0) kb

/-- `clean_keyboard_buffer`. -/
def cleanKeyboardBuffer (s : Kernel) : Kernel :=
  { s with
    kbd := { s.kbd with keyboardBuffer := zeroBuffer s.kbd.keyboardBuffer, bufferPosition := 0 } }

/-- `clean_terminal_buffer`. -/
@[irreducible] def cleanTerminalBuffer (s : Kernel) : Kernel :=
  (List.range maxTerminalBufferSize).foldl (fun s i => s.readToCurTerminalBuffer i 0) s

/-- `check_enter`. -/
def checkEnter (s : Kernel) : Bool := s.kbd.keyboardBuffer s.kbd.bufferPosition == 10

/-- `give_buf_pos`. -/
def giveBufPos (s : Kernel) (bufPos : Nat) : Kernel := { s with kbd.bufferPosition := bufPos }

/-- `terminal_close`; it always succeeds. -/
def terminalClose (s : Kernel) : Kernel := s.cleanBuffer.cleanTerminalBuffer

end Kernel391.Kernel
