import Kernel391.Model.State

/-!
# Console output

The screen functions of `lib.c`. `putc` with `vertical_scrolling` and `putc_term` with
`vertical_scrolling_term` are the same code over two sets of variables: a page of video memory at a
base address with a cursor. `putcAt` and `verticalScrollingAt` are that code, `putc` and `putcTerm`
its two instances.
-/

namespace Kernel391
open Base

/-- `NUM_COLS`. -/
def numCols : Nat := 80

/-- `NUM_ROWS`. -/
def numRows : Nat := 25

/-- `ATTRIB`. -/
def attrib : UInt8 := 7

/-- The variables a console function works on: the memory and the cursor. -/
structure Page where
  mem : Mem
  x : Nat
  y : Nat

/-- The address of cell `(i, j)`, row `i` and column `j`, of the page at `base`. -/
def cellAddr (base i j : Nat) : Nat := base + 2 * (numCols * i + j)

/-- Store a character and an attribute in cell `(i, j)`. -/
def setCell (base i j : Nat) (c a : UInt8) (m : Mem) : Mem :=
  Function.update (Function.update m (cellAddr base i j) c) (cellAddr base i j + 1) a

/-- One step of the row loop: cell `(i, j)` takes what cell `(i + 1, j)` holds. -/
def liftCell (base i j : Nat) (m : Mem) : Mem :=
  let m := Function.update m (cellAddr base i j) (m (cellAddr base (i + 1) j))
  Function.update m (cellAddr base i j + 1) (m (cellAddr base (i + 1) j + 1))

/-- The loop of the scrolling functions that moves every row up by one. -/
@[irreducible] def liftRows (base : Nat) (m : Mem) : Mem :=
  (List.range (numRows - 1)).foldl
    (fun m i => (List.range numCols).foldl (fun m j => liftCell base i j m) m) m

/-- The loop that empties row `i`. -/
@[irreducible] def blankRow (base i : Nat) (m : Mem) : Mem :=
  (List.range numCols).foldl (fun m j => setCell base i j 32 attrib m) m

/-- The loop of `clean_screen` that empties every row. -/
@[irreducible] def blankRows (base : Nat) (m : Mem) : Mem :=
  (List.range numRows).foldl (fun m i => blankRow base i m) m

/-- The common code of `vertical_scrolling` and `vertical_scrolling_term`. -/
def verticalScrollingAt (base : Nat) (p : Page) : Page :=
  if p.y ≥ numRows then
    { mem := blankRow base (numRows - 1) (liftRows base p.mem), x := p.x, y := numRows - 1 }
  else p

/-- The common code of `putc` and `putc_term`. -/
def putcAt (base : Nat) (c : UInt8) (p : Page) : Page :=
  if c = 10 ∨ c = 13 then verticalScrollingAt base { p with x := 0, y := p.y + 1 }
  else
    let m := setCell base p.y p.x c attrib p.mem
    if p.x + 1 ≥ numCols then verticalScrollingAt base { mem := m, x := 0, y := p.y + 1 }
    else verticalScrollingAt base { mem := m, x := p.x + 1, y := p.y }

namespace Kernel

/-- The visible page: video memory and `screen_x`, `screen_y`. -/
def page (s : Kernel) : Page := ⟨s.mem, s.screen.screenX, s.screen.screenY⟩

/-- `update_cursor(screen_x, screen_y)`; the position is a `uint16_t`. -/
def updateCursor (s : Kernel) : Kernel :=
  { s with screen.cursor := (numCols * s.screen.screenY + s.screen.screenX) % 2 ^ 16 }

/-- The state with the variables of the visible page written back. -/
def setPage (s : Kernel) (p : Page) : Kernel :=
  { s with mem := p.mem, screen := { s.screen with screenX := p.x, screenY := p.y } }

/-- `putc`. -/
def putc (s : Kernel) (c : UInt8) : Kernel := (s.setPage (putcAt videoMem c s.page)).updateCursor

/-- The saved page of terminal `t`: its video buffer and saved cursor. -/
def savedPage (s : Kernel) (t : Nat) : Page :=
  let e := s.term.terminalArray t
  ⟨s.mem, e.screenCursorX, e.screenCursorY⟩

/-- The state with the variables of the saved page of terminal `t` written back. -/
def setSavedPage (s : Kernel) (t : Nat) (p : Page) : Kernel :=
  { s with
    mem := p.mem
    term := s.term.setTerminal t
      { s.term.terminalArray t with screenCursorX := p.x, screenCursorY := p.y } }

/-- `putc_term`. -/
def putcTerm (s : Kernel) (c : UInt8) (t : Nat) : Kernel :=
  s.setSavedPage t (putcAt (s.term.terminalArray t).videoBufferAddr c (s.savedPage t))

/-- `puts`, and `printf` of a text without conversions. -/
def puts (s : Kernel) (text : List UInt8) : Kernel := text.foldl putc s

/-- `backspace_handler`. -/
def backspaceHandler (s : Kernel) : Kernel :=
  if s.screen.screenX = 0 ∧ s.screen.screenY = 0 then s
  else
    let p := s.page
    let p := if p.x = 0 then { p with x := numCols - 1, y := p.y - 1 } else { p with x := p.x - 1 }
    (s.setPage { p with mem := Function.update p.mem (cellAddr videoMem p.y p.x) 32 }).updateCursor

/-- `clean_screen`. -/
def cleanScreen (s : Kernel) : Kernel :=
  (s.setPage { mem := blankRows videoMem s.mem, x := 0, y := 0 }).updateCursor

end Kernel

end Kernel391
