import Kernel391.Base.Logged
import Kernel391.Terminal.Isolation

/-!
# Screen bounds

The console functions once more, each with a log of the cells it writes, by their index on the page.
The log changes nothing else and holds no cell beyond the 25 rows of 80. The copies of
`save_terminal` and `restore_terminal` are of whole pages and write no cell by an index; they
exchange the cursors.
-/

namespace Kernel391
open Base

/-- A call of the console or of the two halves of a terminal switch. -/
inductive ConsoleCall where
  | putc (c : UInt8)
  | putcTerm (c : UInt8) (t : Fin 3)
  | backspaceHandler
  | cleanScreen
  | terminalWrite (buf : Nat) (nbytes : Int)
  | saveTerminal (t : Fin 3)
  | restoreTerminal (t : Fin 3)

/-- A call that completes. -/
def ConsoleCall.step (s : Kernel) : ConsoleCall → Option Kernel
  | .putc c => some (s.putc c)
  | .putcTerm c t => some (s.putcTerm c t)
  | .backspaceHandler => some s.backspaceHandler
  | .cleanScreen => some s.cleanScreen
  | .terminalWrite buf nbytes => (s.terminalWrite buf nbytes).map Prod.snd
  | .saveTerminal t => some (s.saveTerminal t)
  | .restoreTerminal t => some (s.restoreTerminal t)

/-! ## Watched calls -/

/-- A write to cell `(i, j)`, and its index `NUM_COLS * i + j`. -/
def markCell (i j : Nat) (f : Mem → Mem) (x : Mem × List Nat) : Mem × List Nat :=
  (f x.1, (numCols * i + j) :: x.2)

/-- The row loop of the scrolling functions, and the cells it writes. -/
@[irreducible] def watchLiftRows (base : Nat) (x : Mem × List Nat) : Mem × List Nat :=
  (List.range (numRows - 1)).foldl
    (fun x i => (List.range numCols).foldl (fun x j => markCell i j (liftCell base i j) x) x) x

/-- The loop that empties row `i`, and the cells it writes. -/
@[irreducible] def watchBlankRow (base i : Nat) (x : Mem × List Nat) : Mem × List Nat :=
  (List.range numCols).foldl (fun x j => markCell i j (setCell base i j 32 attrib) x) x

/-- The loop of `clean_screen`, and the cells it writes. -/
@[irreducible] def watchBlankRows (base : Nat) (x : Mem × List Nat) : Mem × List Nat :=
  (List.range numRows).foldl (fun x i => watchBlankRow base i x) x

/-- `vertical_scrolling` and `vertical_scrolling_term`, and the cells they write. -/
def watchScrollingAt (base : Nat) (x : Page × List Nat) : Page × List Nat :=
  if x.1.y ≥ numRows then
    let r := watchBlankRow base (numRows - 1) (watchLiftRows base (x.1.mem, x.2))
    ({ mem := r.1, x := x.1.x, y := numRows - 1 }, r.2)
  else x

/-- `putc` and `putc_term`, and the cells they write. -/
def watchPutcAt (base : Nat) (c : UInt8) (x : Page × List Nat) : Page × List Nat :=
  let p := x.1
  if c = 10 ∨ c = 13 then watchScrollingAt base ({ p with x := 0, y := p.y + 1 }, x.2)
  else
    let m := markCell p.y p.x (setCell base p.y p.x c attrib) (p.mem, x.2)
    if p.x + 1 ≥ numCols then watchScrollingAt base ({ mem := m.1, x := 0, y := p.y + 1 }, m.2)
    else watchScrollingAt base ({ mem := m.1, x := p.x + 1, y := p.y }, m.2)

namespace Kernel

/-- `putc`, and the cells it writes. -/
def watchPutc (x : Kernel × List Nat) (c : UInt8) : Kernel × List Nat :=
  let r := watchPutcAt videoMem c (x.1.page, x.2)
  ((x.1.setPage r.1).updateCursor, r.2)

/-- `putc_term`, and the cells it writes. -/
def watchPutcTerm (x : Kernel × List Nat) (c : UInt8) (t : Nat) : Kernel × List Nat :=
  let r := watchPutcAt (x.1.term.terminalArray t).videoBufferAddr c (x.1.savedPage t, x.2)
  (x.1.setSavedPage t r.1, r.2)

/-- `backspace_handler`, and the cell it writes. -/
def watchBackspaceHandler (x : Kernel × List Nat) : Kernel × List Nat :=
  if x.1.screen.screenX = 0 ∧ x.1.screen.screenY = 0 then x
  else
    let p := x.1.page
    let p := if p.x = 0 then { p with x := numCols - 1, y := p.y - 1 } else { p with x := p.x - 1 }
    let m := markCell p.y p.x (fun m => Function.update m (cellAddr videoMem p.y p.x) 32)
      (p.mem, x.2)
    ((x.1.setPage { p with mem := m.1 }).updateCursor, m.2)

/-- `clean_screen`, and the cells it writes. -/
def watchCleanScreen (x : Kernel × List Nat) : Kernel × List Nat :=
  let r := watchBlankRows videoMem (x.1.mem, x.2)
  ((x.1.setPage { mem := r.1, x := 0, y := 0 }).updateCursor, r.2)

/-- The loops of `terminal_write`, and the cells they write. -/
def watchWriteLoop (out : Kernel × List Nat → UInt8 → Kernel × List Nat) :
    (n buf : Nat) → Kernel × List Nat → Option (Kernel × List Nat)
  | 0, _, x => some x
  | n + 1, buf, x =>
    match x.1.load buf with
    | none => none
    | some c => watchWriteLoop out n (add32 buf 1) (out x c)

/-- `terminal_write`, and the cells it writes. -/
def watchTerminalWrite (x : Kernel × List Nat) (buf : Nat) (nbytes : Int) :
    Option (Kernel × List Nat) :=
  if buf = 0 then some x
  else
    let nnTerminal := x.1.getNTerminal
    let out :=
      if x.1.term.currentTerminalId = nnTerminal then watchPutc else (watchPutcTerm · · nnTerminal)
    watchWriteLoop out nbytes.toNat buf x

end Kernel

/-- A call that completes, and the cells it writes, after those written before. -/
def ConsoleCall.watch (x : Kernel × List Nat) : ConsoleCall → Option (Kernel × List Nat)
  | .putc c => some (Kernel.watchPutc x c)
  | .putcTerm c t => some (Kernel.watchPutcTerm x c t)
  | .backspaceHandler => some (Kernel.watchBackspaceHandler x)
  | .cleanScreen => some (Kernel.watchCleanScreen x)
  | .terminalWrite buf nbytes => Kernel.watchTerminalWrite x buf nbytes
  | .saveTerminal t => some (x.1.saveTerminal t, x.2)
  | .restoreTerminal t => some (x.1.restoreTerminal t, x.2)

/-- The index is that of a cell of the page. -/
def IsCell (k : Nat) : Prop := k < numCols * numRows

section Loops

variable {base i j : Nat}

/-- A cell inside the screen is drawn. -/
lemma draws_markCell (hi : i < numRows) (hj : j < numCols) (f : Mem → Mem) (x : Mem × List Nat) :
    Logs IsCell f (markCell i j f) x := by
  refine ⟨rfl, fun k hk => ?_⟩
  rcases List.mem_cons.mp hk with rfl | old
  · simp only [IsCell, numRows, numCols] at hi hj ⊢
    omega
  · exact .inl old

/-- Lifting the rows draws cells. -/
lemma draws_liftRows (base : Nat) (x : Mem × List Nat) :
    Logs IsCell (liftRows base) (watchLiftRows base) x := by
  unfold liftRows watchLiftRows
  refine .foldl (fun i hi x => ?_) x
  refine .foldl (fun j hj x => ?_) x
  have row := List.mem_range.mp hi
  exact draws_markCell (by omega) (List.mem_range.mp hj) _ x

/-- Blanking a row draws cells. -/
lemma draws_blankRow (base : Nat) (hi : i < numRows) (x : Mem × List Nat) :
    Logs IsCell (blankRow base i) (watchBlankRow base i) x := by
  unfold blankRow watchBlankRow
  exact .foldl (fun j hj x => draws_markCell hi (List.mem_range.mp hj) _ x) x

/-- Blanking all rows draws cells. -/
lemma draws_blankRows (base : Nat) (x : Mem × List Nat) :
    Logs IsCell (blankRows base) (watchBlankRows base) x := by
  unfold blankRows watchBlankRows
  exact .foldl (fun i hi x => draws_blankRow base (List.mem_range.mp hi) x) x

end Loops

section Pages

variable {base : Nat} {x : Page × List Nat}

/-- Scrolling draws cells. -/
lemma draws_scrollingAt (base : Nat) (x : Page × List Nat) :
    Logs IsCell (verticalScrollingAt base) (watchScrollingAt base) x := by
  by_cases below : x.1.y ≥ numRows
  · have lift := draws_liftRows base (x.1.mem, x.2)
    have row := draws_blankRow base (show numRows - 1 < numRows by decide)
      (watchLiftRows base (x.1.mem, x.2))
    refine ⟨?_, fun k hk => ?_⟩
    · rw [watchScrollingAt, verticalScrollingAt, if_pos below, if_pos below]
      dsimp only
      rw [row.same, lift.same]
    · rw [watchScrollingAt, if_pos below] at hk
      exact row.after lift.entries k hk
  · refine ⟨?_, fun k hk => .inl ?_⟩
    · rw [watchScrollingAt, verticalScrollingAt, if_neg below, if_neg below]
    · rw [watchScrollingAt, if_neg below] at hk
      exact hk

/-- A character is stored at the cursor, and what follows are whole rows. -/
lemma draws_putcAt (base : Nat) (c : UInt8) (h : Fits x.1.x x.1.y) :
    Logs IsCell (putcAt base c) (watchPutcAt base c) x := by
  obtain ⟨p, cells⟩ := x
  obtain ⟨hx, hy⟩ := h
  have cell := draws_markCell hy hx (setCell base p.y p.x c attrib) (p.mem, cells)
  by_cases newline : c = 10 ∨ c = 13
  · have scroll := draws_scrollingAt base ({ p with x := 0, y := p.y + 1 }, cells)
    refine ⟨?_, fun k hk => ?_⟩
    · rw [watchPutcAt, putcAt, if_pos newline, if_pos newline]
      exact scroll.same
    · rw [watchPutcAt, if_pos newline] at hk
      exact scroll.entries k hk
  by_cases last : p.x + 1 ≥ numCols
  · have scroll := draws_scrollingAt base
      (⟨setCell base p.y p.x c attrib p.mem, 0, p.y + 1⟩, (numCols * p.y + p.x) :: cells)
    refine ⟨?_, fun k hk => ?_⟩
    · rw [watchPutcAt, putcAt, if_neg newline, if_neg newline]
      dsimp only
      rw [if_pos last, if_pos last]
      exact scroll.same
    · rw [watchPutcAt, if_neg newline] at hk
      dsimp only at hk
      rw [if_pos last] at hk
      exact scroll.after cell.entries k hk
  · have scroll := draws_scrollingAt base
      (⟨setCell base p.y p.x c attrib p.mem, p.x + 1, p.y⟩, (numCols * p.y + p.x) :: cells)
    refine ⟨?_, fun k hk => ?_⟩
    · rw [watchPutcAt, putcAt, if_neg newline, if_neg newline]
      dsimp only
      rw [if_neg last, if_neg last]
      exact scroll.same
    · rw [watchPutcAt, if_neg newline] at hk
      dsimp only at hk
      rw [if_neg last] at hk
      exact scroll.after cell.entries k hk

end Pages

section Calls

variable {s s' : Kernel} {x : Kernel × List Nat}

/-- `putc` draws cells. -/
lemma draws_putc (c : UInt8) (h : x.1.display.Ok) :
    Logs IsCell (Kernel.putc · c) (Kernel.watchPutc · c) x := by
  have draws := draws_putcAt (x := (x.1.page, x.2)) videoMem c h.visible
  refine ⟨?_, draws.entries⟩
  rw [Kernel.watchPutc, Kernel.putc, ← draws.same]

/-- `putc_term` draws cells. -/
lemma draws_putcTerm (c : UInt8) (t : Nat) (h : x.1.display.Ok) :
    Logs IsCell (Kernel.putcTerm · c t) (Kernel.watchPutcTerm · c t) x := by
  have draws := draws_putcAt (x := (x.1.savedPage t, x.2))
    (x.1.term.terminalArray t).videoBufferAddr c (h.saved t)
  refine ⟨?_, draws.entries⟩
  rw [Kernel.watchPutcTerm, Kernel.putcTerm, ← draws.same]

/-- `backspace_handler` draws cells. -/
lemma draws_backspaceHandler (h : x.1.display.Ok) :
    Logs IsCell Kernel.backspaceHandler Kernel.watchBackspaceHandler x := by
  have fits : Fits x.1.backspaceHandler.screen.screenX x.1.backspaceHandler.screen.screenY :=
    (worksHere_backspaceHandler h.visible).fits
  by_cases origin : x.1.screen.screenX = 0 ∧ x.1.screen.screenY = 0
  · refine ⟨?_, fun k hk => .inl ?_⟩
    · rw [Kernel.watchBackspaceHandler, Kernel.backspaceHandler, if_pos origin, if_pos origin]
    · rw [Kernel.watchBackspaceHandler, if_pos origin] at hk
      exact hk
  · rw [Kernel.backspaceHandler, if_neg origin] at fits
    refine ⟨?_, fun k hk => ?_⟩
    · rw [Kernel.watchBackspaceHandler, Kernel.backspaceHandler, if_neg origin, if_neg origin]
      rfl
    · rw [Kernel.watchBackspaceHandler, if_neg origin] at hk
      exact (draws_markCell fits.2 fits.1 id (x.1.mem, x.2)).entries k hk

/-- `clean_screen` draws cells. -/
lemma draws_cleanScreen (x : Kernel × List Nat) :
    Logs IsCell Kernel.cleanScreen Kernel.watchCleanScreen x := by
  have draws := draws_blankRows videoMem (x.1.mem, x.2)
  refine ⟨?_, draws.entries⟩
  rw [Kernel.watchCleanScreen, Kernel.cleanScreen, ← draws.same]

/-- The loop of `terminal_write` draws cells when its prints do. -/
lemma logsTo_writeLoop {f : Kernel → UInt8 → Kernel}
    {w : Kernel × List Nat → UInt8 → Kernel × List Nat} {n buf : Nat}
    (draws : ∀ x c, x.1.display.Ok → Logs IsCell (f · c) (w · c) x)
    (keep : ∀ s c, s.display.Ok → (f s c).display.Ok) (h : x.1.display.Ok)
    (run : Kernel.writeLoop f n buf x.1 = some s') :
    LogsTo IsCell x s' (Kernel.watchWriteLoop w n buf x) := by
  induction n generalizing buf x with
  | zero =>
      cases run
      exact .refl
  | succ n ih =>
      rw [Kernel.writeLoop] at run
      cases byte : x.1.load buf with
      | none => rw [byte] at run; cases run
      | some c =>
          rw [byte] at run
          have step := draws x c h
          have same : (w x c).1 = f x.1 c := step.same
          have rest : Kernel.writeLoop f n (add32 buf 1) (f x.1 c) = some s' := run
          rw [← same] at rest
          rw [Kernel.watchWriteLoop, byte]
          exact .after step.entries (ih (same ▸ keep x.1 c h) rest)

/-- `terminal_write` draws cells. -/
lemma logsTo_terminalWrite {buf : Nat} {n r : Int} (h : x.1.display.Ok)
    (run : x.1.terminalWrite buf n = some (r, s')) :
    LogsTo IsCell x s' (Kernel.watchTerminalWrite x buf n) := by
  rw [Kernel.terminalWrite] at run
  rw [Kernel.watchTerminalWrite]
  split at run
  next null =>
    cases run
    rw [if_pos null]
    exact .refl
  next some_buffer =>
    rw [if_neg some_buffer]
    obtain ⟨t, loop, e⟩ := Option.map_eq_some_iff.mp run
    cases e
    dsimp only
    split at loop
    next shown =>
      rw [if_pos shown]
      exact logsTo_writeLoop (fun x c ok => draws_putc c ok) (fun _ c ok => ok.putc c) h loop
    next away =>
      rw [if_neg away]
      exact logsTo_writeLoop (fun x c ok => draws_putcTerm c _ ok)
        (fun _ c ok => ok.putcTerm c _) h loop

/-- `backspace_handler` keeps the cursors on the screen. -/
lemma Display.Ok.backspaceHandler (h : s.display.Ok) : s.backspaceHandler.display.Ok :=
  (worksHere_backspaceHandler h.visible).display h

/-- `clean_screen` keeps the cursors on the screen. -/
lemma Display.Ok.cleanScreen (h : s.display.Ok) : s.cleanScreen.display.Ok :=
  (worksHere_cleanScreen s).display h

/-- `save_terminal` puts the cursor of the screen into a terminal. -/
lemma Display.Ok.saveTerminal (h : s.display.Ok) (t : Nat) : (s.saveTerminal t).display.Ok := by
  refine ⟨h.visible, fun u => ?_, fun u => ?_⟩
  · by_cases hu : u = t
    · subst hu
      simp only [Kernel.display, Kernel.saveTerminal, Kernel.cleanKeyboardBuffer, Term.setTerminal,
        Function.update_self]
      exact h.visible
    · simp only [Kernel.display, Kernel.saveTerminal, Kernel.cleanKeyboardBuffer, Term.setTerminal,
        Function.update_of_ne hu]
      exact h.saved u
  · by_cases hu : u = t
    · subst hu
      simp only [Kernel.display, Kernel.saveTerminal, Kernel.cleanKeyboardBuffer, Term.setTerminal,
        Function.update_self]
      exact h.base u
    · simp only [Kernel.display, Kernel.saveTerminal, Kernel.cleanKeyboardBuffer, Term.setTerminal,
        Function.update_of_ne hu]
      exact h.base u

/-- `restore_terminal` puts the cursor of a terminal onto the screen. -/
lemma Display.Ok.restoreTerminal (h : s.display.Ok) (t : Nat) :
    (s.restoreTerminal t).display.Ok :=
  ⟨h.saved t, h.saved, h.base⟩

/-- Every call keeps the cursors on their pages. -/
lemma Display.Ok.console {c : ConsoleCall} (h : s.display.Ok) (run : c.step s = some s') :
    s'.display.Ok := by
  cases c with
  | putc c => cases run; exact h.putc c
  | putcTerm c t => cases run; exact h.putcTerm c t
  | backspaceHandler => cases run; exact h.backspaceHandler
  | cleanScreen => cases run; exact h.cleanScreen
  | terminalWrite buf nbytes =>
      obtain ⟨⟨r, t⟩, write, e⟩ := Option.map_eq_some_iff.mp run
      cases e
      exact h.terminalWrite write
  | saveTerminal t => cases run; exact h.saveTerminal t
  | restoreTerminal t => cases run; exact h.restoreTerminal t

/-- Every call writes cells of a page. -/
lemma ConsoleCall.logsTo {c : ConsoleCall} (h : x.1.display.Ok) (run : c.step x.1 = some s') :
    LogsTo IsCell x s' (c.watch x) := by
  cases c with
  | putc c => cases run; exact (draws_putc c h).to
  | putcTerm c t => cases run; exact (draws_putcTerm c t h).to
  | backspaceHandler => cases run; exact (draws_backspaceHandler h).to
  | cleanScreen => cases run; exact (draws_cleanScreen x).to
  | terminalWrite buf nbytes =>
      obtain ⟨⟨r, t⟩, write, e⟩ := Option.map_eq_some_iff.mp run
      cases e
      exact logsTo_terminalWrite h write
  | saveTerminal t => cases run; exact (Logs.silent (Kernel.saveTerminal · t) x).to
  | restoreTerminal t => cases run; exact (Logs.silent (Kernel.restoreTerminal · t) x).to

end Calls

/-- The cursors are on the screen when the terminals are set up. -/
lemma display_terminalInit (s : Kernel) : s.terminalInit.cleanScreen.display.Ok := by
  have origin : Fits 0 0 := by decide
  exact ⟨origin, fun _ => origin, fun _ => rfl⟩

/-- **Screen bounds.** From `terminal_init` and `clean_screen`, whatever is printed, erased, saved
and restored, the cursor of the screen and the saved cursor of every terminal are on their pages
between calls, and every cell that is written has an index below 80 * 25. -/
theorem screen_bounds (s s' : Kernel) (cs : List ConsoleCall)
    (run : runs ConsoleCall.step s.terminalInit.cleanScreen cs = some s') :
    (s'.screen.screenX < 80 ∧ s'.screen.screenY < 25) ∧
    (∀ t, (s'.term.terminalArray t).screenCursorX < 80 ∧
      (s'.term.terminalArray t).screenCursorY < 25) ∧
    ∃ cells, runs ConsoleCall.watch (Kernel.watchCleanScreen (s.terminalInit, [])) cs
        = some (s', cells) ∧ ∀ k ∈ cells, k < 80 * 25 := by
  have first := draws_cleanScreen (s.terminalInit, [])
  have same : (Kernel.watchCleanScreen (s.terminalInit, [])).1 = s.terminalInit.cleanScreen :=
    first.same
  obtain ⟨ok, cells, watched, bound⟩ := logsTo_runs (fun s : Kernel => s.display.Ok)
    (fun x c s' ok step => ⟨ok.console step, ConsoleCall.logsTo ok step⟩)
    (same ▸ display_terminalInit s) (same ▸ run)
  refine ⟨ok.visible, ok.saved, cells, watched, fun k hk => ?_⟩
  rcases bound k hk with old | new
  · exact (first.entries k old).resolve_left List.not_mem_nil
  · exact new

/-- A line feed in the last row scrolls, beside a terminal that is saved and restored. -/
theorem screen_bounds_sample : ∃ s', runs ConsoleCall.step
      (Kernel.boot sampleBoot).terminalInit.cleanScreen
      (List.replicate 25 (.putc 10) ++ [.putcTerm 65 1, .saveTerminal 0, .restoreTerminal 1,
        .backspaceHandler]) = some s' ∧
    s'.screen.screenX < 80 ∧ s'.screen.screenY < 25 := by
  have completes : (runs ConsoleCall.step (Kernel.boot sampleBoot).terminalInit.cleanScreen
      (List.replicate 25 (.putc 10) ++ [.putcTerm 65 1, .saveTerminal 0, .restoreTerminal 1,
        .backspaceHandler])).isSome = true := rfl
  obtain ⟨s', run⟩ := Option.isSome_iff_exists.mp completes
  exact ⟨s', run, (screen_bounds _ s' _ run).1⟩

end Kernel391
