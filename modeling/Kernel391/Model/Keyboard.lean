import Kernel391.Model.Terminal

/-!
# The keyboard interrupt

`handle_keyboard_irq` and `handle_special_key` of `keyboard.c`. A handler run takes the scancode
read from the keyboard port.
-/

namespace Kernel391
open Base

/-- `scancode_map`: the four characters of a key, plain, with shift, with caps lock, with both. -/
def scancodeMap : List (List Char) := [
  [Char.ofNat 0, Char.ofNat 0, Char.ofNat 0, Char.ofNat 0],
  [Char.ofNat 0, Char.ofNat 0, Char.ofNat 0, Char.ofNat 0],
  ['1', '!', '1', '!'],
  ['2', '@', '2', '@'],
  ['3', '#', '3', '#'],
  ['4', '$', '4', '$'],
  ['5', '%', '5', '%'],
  ['6', '^', '6', '^'],
  ['7', '&', '7', '&'],
  ['8', '*', '8', '*'],
  ['9', '(', '9', '('],
  ['0', ')', '0', ')'],
  ['-', '_', '-', '_'],
  ['=', '+', '=', '+'],
  [Char.ofNat 8, Char.ofNat 8, Char.ofNat 8, Char.ofNat 8],
  [Char.ofNat 0, Char.ofNat 0, Char.ofNat 0, Char.ofNat 0],
  ['q', 'Q', 'Q', 'q'],
  ['w', 'W', 'W', 'w'],
  ['e', 'E', 'E', 'e'],
  ['r', 'R', 'R', 'r'],
  ['t', 'T', 'T', 't'],
  ['y', 'Y', 'Y', 'y'],
  ['u', 'U', 'U', 'u'],
  ['i', 'I', 'I', 'i'],
  ['o', 'O', 'O', 'o'],
  ['p', 'P', 'P', 'p'],
  [Char.ofNat 91, Char.ofNat 123, Char.ofNat 91, Char.ofNat 123],
  [Char.ofNat 93, Char.ofNat 125, Char.ofNat 93, Char.ofNat 125],
  [Char.ofNat 10, Char.ofNat 10, Char.ofNat 10, Char.ofNat 10],
  [Char.ofNat 0, Char.ofNat 0, Char.ofNat 0, Char.ofNat 0],
  ['a', 'A', 'A', 'a'],
  ['s', 'S', 'S', 's'],
  ['d', 'D', 'D', 'd'],
  ['f', 'F', 'F', 'f'],
  ['g', 'G', 'G', 'g'],
  ['h', 'H', 'H', 'h'],
  ['j', 'J', 'J', 'j'],
  ['k', 'K', 'K', 'k'],
  ['l', 'L', 'L', 'l'],
  [';', ':', ':', ':'],
  [Char.ofNat 39, Char.ofNat 34, Char.ofNat 39, Char.ofNat 34],
  [Char.ofNat 96, Char.ofNat 126, Char.ofNat 96, Char.ofNat 126],
  [Char.ofNat 0, Char.ofNat 0, Char.ofNat 0, Char.ofNat 0],
  [Char.ofNat 92, Char.ofNat 124, Char.ofNat 92, Char.ofNat 124],
  ['z', 'Z', 'Z', 'z'],
  ['x', 'X', 'X', 'x'],
  ['c', 'C', 'C', 'c'],
  ['v', 'V', 'V', 'v'],
  ['b', 'B', 'V', 'b'],
  ['n', 'N', 'N', 'n'],
  ['m', 'M', 'M', 'm'],
  [',', '<', ',', '<'],
  ['.', '>', '.', '>'],
  ['/', '?', '/', '?'],
  [Char.ofNat 0, Char.ofNat 0, Char.ofNat 0, Char.ofNat 0],
  [Char.ofNat 0, Char.ofNat 0, Char.ofNat 0, Char.ofNat 0],
  [Char.ofNat 0, Char.ofNat 0, Char.ofNat 0, Char.ofNat 0],
  [' ', ' ', ' ', ' ']]

/-- `scancode_map[scancode][mode]`. -/
def scancodeChar (scancode : UInt8) (mode : Nat) : UInt8 :=
  UInt8.ofNat ((scancodeMap.getD scancode.toNat []).getD mode (Char.ofNat 0)).toNat

/-- The column of `scancode_map` the shift and caps lock states select. -/
def Mods.keyMode (md : Mods) : Nat :=
  match md.shiftPressed, md.capslockState with
  | true, true => 3
  | true, false => 1
  | false, true => 2
  | false, false => 0

namespace Kernel

/-- One round of the loop for the tab key. -/
def tabSpace (s : Kernel) : Kernel :=
  if s.kbd.bufferPosition < maxBufferSize then
    let s := s.putBuffer 32
    { s with kbd.bufferPosition := s.kbd.bufferPosition + 1 }.putc 32
  else s

/-- The cases of `handle_special_key` for the function keys. -/
def functionKey (fr : Frame) (s : Kernel) (t : Nat) : Option Kernel :=
  if s.kbd.mods.altPressed then (s.terminalSwitch fr t).map Prod.fst else some s

/-- `handle_special_key`: the state after, and whether the key was one of the special keys. -/
def handleSpecialKey (fr : Frame) (s : Kernel) (scancode : UInt8) : Option (Kernel × Bool) :=
  if scancode = 0x3A then
    some ({ s with kbd.mods.capslockState := !s.kbd.mods.capslockState }, true)
  else if scancode = 0xBA then some (s, true)
  else if scancode = 0x2A ∨ scancode = 0x36 then
    some ({ s with kbd.mods.shiftPressed := true }, true)
  else if scancode = 0xAA ∨ scancode = 0xB6 then
    some ({ s with kbd.mods.shiftPressed := false }, true)
  else if scancode = 0x38 then some ({ s with kbd.mods.altPressed := true }, true)
  else if scancode = 0xB8 then some ({ s with kbd.mods.altPressed := false }, true)
  else if scancode = 0x1D then some ({ s with kbd.mods.ctrlPressed := true }, true)
  else if scancode = 0x9D then some ({ s with kbd.mods.ctrlPressed := false }, true)
  else if scancode = 0x0E then
    if s.kbd.bufferPosition > 0 then
      some ({ s with kbd.bufferPosition := s.kbd.bufferPosition - 1 }.backspaceHandler, true)
    else some (s, true)
  else if scancode = 0x0F then some (s.tabSpace.tabSpace.tabSpace.tabSpace, true)
  else if scancode = 0x3B then (s.functionKey fr 0).map (·, true)
  else if scancode = 0x3C then (s.functionKey fr 1).map (·, true)
  else if scancode = 0x3D then (s.functionKey fr 2).map (·, true)
  else some (s, false)

/-- The part of `handle_keyboard_irq` after the special keys. -/
def handleCharacter (s : Kernel) (scancode : UInt8) : Kernel :=
  if scancode < 58 then
    let keyPressed := scancodeChar scancode s.kbd.mods.keyMode
    if s.kbd.mods.ctrlPressed ∧ (keyPressed = 76 ∨ keyPressed = 108) then s.cleanScreen.cleanBuffer
    -- Enter leaves `buffer_position` on the newline
    else if keyPressed = 10 then (s.putBuffer 10).putc keyPressed
    else if s.kbd.bufferPosition < maxBufferSize then
      let s := s.putBuffer keyPressed
      { s with kbd.bufferPosition := s.kbd.bufferPosition + 1 }.putc keyPressed
    else s
  else s

/-- `handle_keyboard_irq`. -/
def handleKeyboardIrq (fr : Frame) (s : Kernel) (scancode : UInt8) : Option Kernel :=
  match s.handleSpecialKey fr scancode with
  | none => none
  | some (s, true) => some s
  | some (s, false) => some (s.handleCharacter scancode)

end Kernel

end Kernel391
