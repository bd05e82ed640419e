import Mathlib.Data.List.DropRight
import Kernel391.Terminal.Agreement

/-!
# The unbounded page

The reference layout of console output is a list of rows that only grows: the rows above the cursor
and the row the cursor is in. The screen shows its last 25 rows and its cursor (`ShowsLast`), which
every character keeps, wrapped, ended or scrolled.
-/

namespace Kernel391
open Base

/-- The rows above the cursor, and the row the cursor is in. -/
structure Layout where
  above : List (List UInt8)
  row : List UInt8

namespace Layout

/-- The page before anything is printed. -/
def blank : Layout := ⟨[], []⟩

/-- A byte printed: a newline or a carriage return ends the row, every other byte takes a cell, and
the cell of the last column ends the row too. -/
def print (l : Layout) (c : UInt8) : Layout :=
  if c = 10 ∨ c = 13 then ⟨l.above ++ [l.row], []⟩
  else if l.row.length = numCols - 1 then ⟨l.above ++ [l.row ++ [c]], []⟩
  else ⟨l.above, l.row ++ [c]⟩

/-- All rows. -/
def rows (l : Layout) : List (List UInt8) := l.above ++ [l.row]

/-- The last 25 rows. -/
def shown (l : Layout) : List (List UInt8) := l.rows.rtake numRows

/-- The character in a cell of the last 25 rows; unused cells are blank. -/
def cell (l : Layout) (i j : Nat) : UInt8 := (l.shown.getD i []).getD j 32

end Layout

/-- The page at `base` shows the last 25 rows of the layout and its cursor. -/
structure Page.ShowsLast (base : Nat) (p : Page) (l : Layout) : Prop where
  cells : ∀ i < numRows, ∀ j < numCols, cellOf base p.mem i j = (l.cell i j, attrib)
  x : p.x = l.row.length
  y : p.y + 1 = l.shown.length
  fits : l.row.length < numCols

section Layout

variable {base i j : Nat} {p : Page} {l : Layout} {c : UInt8} {above : List (List UInt8)}
  {row : List UInt8}

/-- The rows shown are those there are, at most all of the screen. -/
lemma length_shown (l : Layout) : l.shown.length = min numRows (l.above.length + 1) := by
  rw [Layout.shown, Layout.rows, List.rtake, List.length_drop, List.length_append,
    List.length_singleton, numRows]
  omega

/-- Row `i` of the screen is row `i` behind the rows that are scrolled off; behind the last row
everything is blank. -/
lemma cell_eq (above : List (List UInt8)) (row : List UInt8) (i j : Nat) :
    Layout.cell ⟨above, row⟩ i j =
      (if above.length + 1 - numRows + i < above.length then
          above.getD (above.length + 1 - numRows + i) []
        else if above.length + 1 - numRows + i = above.length then row else []).getD j 32 := by
  have length : (above ++ [row]).length = above.length + 1 := List.length_append
  show (((above ++ [row]).drop ((above ++ [row]).length - numRows)).getD i []).getD j 32 = _
  rw [length]
  congr 1
  rw [List.getD_eq_getElem?_getD, List.getElem?_drop, ← List.getD_eq_getElem?_getD]
  generalize above.length + 1 - numRows + i = k
  split_ifs with before last
  · exact List.getD_append above [row] [] k before
  · rw [List.getD_append_right _ _ _ _ (Nat.le_of_eq last.symm), last, Nat.sub_self]
    rfl
  · exact List.getD_eq_default _ _ (by omega)

/-- A row with one character more. -/
lemma getD_concat (row : List UInt8) (c : UInt8) (j : Nat) :
    (row ++ [c]).getD j 32 = if j = row.length then c else row.getD j 32 := by
  split_ifs with last
  · rw [last, List.getD_append_right _ _ _ _ (Nat.le_refl _), Nat.sub_self]
    rfl
  · by_cases before : j < row.length
    · exact List.getD_append row [c] 32 j before
    · have length : (row ++ [c]).length = row.length + 1 := List.length_append
      rw [List.getD_eq_default _ _ (by omega), List.getD_eq_default _ _ (by omega)]

/-- A character at the end of the row takes the cell under the cursor. -/
lemma cell_append (hi : i < numRows) : Layout.cell ⟨above, row ++ [c]⟩ i j
    = if i + 1 = (Layout.shown ⟨above, row⟩).length ∧ j = row.length then c
      else Layout.cell ⟨above, row⟩ i j := by
  have shown : (Layout.shown ⟨above, row⟩).length = min numRows (above.length + 1) := length_shown _
  rw [cell_eq, cell_eq]
  by_cases last : above.length + 1 - numRows + i = above.length
  · have here : i + 1 = (Layout.shown ⟨above, row⟩).length := by omega
    have notBefore : ¬ above.length + 1 - numRows + i < above.length := by omega
    rw [if_neg notBefore, if_pos last, if_neg notBefore, if_pos last, getD_concat]
    by_cases column : j = row.length
    · rw [if_pos column, if_pos ⟨here, column⟩]
    · rw [if_neg column, if_neg fun h => column h.2]
  · have elsewhere : ¬ (i + 1 = (Layout.shown ⟨above, row⟩).length ∧ j = row.length) := by omega
    rw [if_neg last, if_neg last, if_neg elsewhere]

/-- A new row scrolls only when the screen is full. -/
lemma cell_newRow (hi : i < numRows) : Layout.cell ⟨above ++ [row], []⟩ i j
    = if above.length + 1 < numRows then Layout.cell ⟨above, row⟩ i j
      else if i + 1 < numRows then Layout.cell ⟨above, row⟩ (i + 1) j else 32 := by
  have length : (above ++ [row]).length = above.length + 1 := List.length_append
  -- the new row is as empty as the rows behind the last
  have rows (k : Nat) : (if k < above.length + 1 then (above ++ [row]).getD k []
      else if k = above.length + 1 then [] else [])
      = if k < above.length then above.getD k [] else if k = above.length then row else [] := by
    rcases Nat.lt_trichotomy k above.length with before | last | behind
    · rw [if_pos (by omega), if_pos before, List.getD_append _ _ _ _ before]
    · rw [if_pos (by omega), if_neg (by omega), if_pos last,
        List.getD_append_right _ _ _ _ (Nat.le_of_eq last.symm), last, Nat.sub_self]
      rfl
    · rw [if_neg (by omega), ite_self, if_neg (by omega), if_neg (by omega)]
  rw [cell_eq, length, rows]
  by_cases room : above.length + 1 < numRows
  · have same : above.length + 1 + 1 - numRows + i = above.length + 1 - numRows + i := by omega
    rw [if_pos room, cell_eq, same]
  · rw [if_neg room]
    by_cases more : i + 1 < numRows
    · have next : above.length + 1 + 1 - numRows + i
        = above.length + 1 - numRows + (i + 1) := by omega
      rw [if_pos more, cell_eq, next]
    · rw [if_neg more, if_neg (by omega), if_neg (by omega)]
      rfl

/-- The row is ended: the page is scrolled when the cursor leaves it. -/
lemma showsLast_newRow {m : Mem} {y : Nat}
    (cells : ∀ i < numRows, ∀ j < numCols,
      cellOf base m i j = (Layout.cell ⟨above, row⟩ i j, attrib))
    (hy : y + 1 = (Layout.shown ⟨above, row⟩).length) :
    Page.ShowsLast base (verticalScrollingAt base ⟨m, 0, y + 1⟩) ⟨above ++ [row], []⟩ := by
  have length : (above ++ [row]).length = above.length + 1 := List.length_append
  have zero : 0 < numCols := by decide
  rw [length_shown] at hy
  dsimp only at hy
  rw [verticalScrollingAt]
  by_cases full : y + 1 ≥ numRows
  · rw [if_pos full]
    refine ⟨fun i hi j hj => ?_, rfl, ?_, zero⟩
    · rw [cell_newRow hi, if_neg (by omega)]
      dsimp only
      rw [cellOf_blankRow _ _ _ hj]
      by_cases last : i = numRows - 1
      · rw [if_pos last, if_neg (by omega)]
      · rw [if_neg last, cellOf_liftRows _ _ hj, if_pos (by omega), if_pos (by omega),
          cells (i + 1) (by omega) j hj]
    · rw [length_shown]
      dsimp only
      rw [length]
      omega
  · rw [if_neg full]
    refine ⟨fun i hi j hj => ?_, rfl, ?_, zero⟩
    · rw [cell_newRow hi, if_pos (by omega)]
      exact cells i hi j hj
    · rw [length_shown]
      dsimp only
      rw [length]
      omega

/-- A character keeps what the page shows. -/
lemma Page.ShowsLast.putcAt (h : p.ShowsLast base l) (c : UInt8) :
    (putcAt base c p).ShowsLast base (l.print c) := by
  obtain ⟨above, row⟩ := l
  obtain ⟨cells, x, y, fits⟩ := h
  rw [Kernel391.putcAt, Layout.print]
  by_cases newline : c = 10 ∨ c = 13
  · rw [if_pos newline, if_pos newline]
    exact showsLast_newRow cells y
  rw [if_neg newline, if_neg newline]
  dsimp only at x fits
  dsimp only
  have cells' : ∀ i < numRows, ∀ j < numCols, cellOf base (setCell base p.y p.x c attrib p.mem) i j
      = (Layout.cell ⟨above, row ++ [c]⟩ i j, attrib) := by
    intro i hi j hj
    have column : p.x < numCols := x ▸ fits
    rw [cellOf_setCell c attrib column hj, cell_append hi, cells i hi j hj, ← y, x]
    by_cases here : i = p.y ∧ j = row.length
    · rw [if_pos here, if_pos ⟨congrArg (· + 1) here.1, here.2⟩]
    · rw [if_neg here, if_neg fun h => here ⟨Nat.succ.inj h.1, h.2⟩]
  have shown : (Layout.shown ⟨above, row ++ [c]⟩).length = (Layout.shown ⟨above, row⟩).length := by
    rw [length_shown, length_shown]
  have length : (row ++ [c]).length = row.length + 1 := List.length_append
  by_cases last : row.length = numCols - 1
  · rw [if_pos (by omega), if_pos last]
    exact showsLast_newRow cells' (y.trans shown.symm)
  · have inside : p.y < numRows := by
      rw [length_shown] at y
      omega
    rw [if_neg (by omega), if_neg last, verticalScrollingAt, if_neg (Nat.not_le.mpr inside)]
    exact ⟨cells', by rw [length, x], y.trans shown.symm, by rw [length]; omega⟩

end Layout

/-- The screen shows the last 25 rows of the layout, and the cursor of the kernel and of the display
is the layout's. -/
structure OnScreen (s : Kernel) (l : Layout) : Prop where
  page : s.page.ShowsLast videoMem l
  synced : s.Synced

/-- One call of `terminal_write`, of the bytes at a buffer. -/
def writeStep (s : Kernel) (w : Nat × List UInt8) : Option Kernel :=
  (s.terminalWrite w.1 w.2.length).map Prod.snd

section Output

variable {s s' : Kernel} {l : Layout} {bs : List UInt8} {buf : Nat}

/-- `clean_screen` shows the blank layout. -/
lemma onScreen_cleanScreen (s : Kernel) : OnScreen s.cleanScreen .blank := by
  refine ⟨⟨fun i hi j hj => ?_, rfl, rfl, by decide⟩, rfl⟩
  have empty : Layout.blank.cell i j = 32 := by
    rw [Layout.blank, cell_eq]
    split_ifs <;> rfl
  rw [empty]
  exact cellOf_blankRows videoMem s.mem hi hj

/-- One printed character keeps screen and layout in step. -/
lemma OnScreen.putc (h : OnScreen s l) (c : UInt8) : OnScreen (s.putc c) (l.print c) :=
  ⟨h.page.putcAt c, rfl⟩

/-- A printed text keeps screen and layout in step. -/
lemma OnScreen.foldl (h : OnScreen s l) (bs : List UInt8) :
    OnScreen (bs.foldl Kernel.putc s) (bs.foldl Layout.print l) := by
  induction bs generalizing s l with
  | nil => exact h
  | cons c bs ih => exact ih (h.putc c)

/-- A printed text works on the current terminal. -/
lemma WorksHere.putcs (h : WorksHere s s') (bs : List UInt8) :
    WorksHere s (bs.foldl Kernel.putc s') := h.trans (worksHere_puts h.fits bs)

/-- A call of `terminal_write` to the visible terminal prints its bytes. -/
lemma OnScreen.write (h : OnScreen s' l) (works : WorksHere s s')
    (visible : s.term.currentTerminalId = s.getNTerminal) (ne : buf ≠ 0) (holds : s.Holds buf bs) :
    ∃ s'', writeStep s' (buf, bs) = some s'' ∧ WorksHere s s'' ∧
      OnScreen s'' (bs.foldl Layout.print l) := by
  have visible' : s'.term.currentTerminalId = s'.getNTerminal := by
    rw [works.current, visible, Kernel.getNTerminal, Kernel.getNTerminal, works.sched]
  have frame (t : Kernel) (ht : WorksHere s t) :
      t.paging = s.paging ∧ SameOn OffScreens s.mem t.mem :=
    ⟨ht.paging, ht.mem.mono fun a off => off.1⟩
  have keep (t : Kernel) (c : UInt8) (ht : WorksHere s t) : WorksHere s (t.putc c) :=
    ht.trans (worksHere_putc ht.fits c)
  have loop := writeLoop_eq holds frame keep works
  refine ⟨bs.foldl Kernel.putc s', ?_, works.putcs bs, h.foldl bs⟩
  rw [writeStep, Kernel.terminalWrite]
  dsimp only
  rw [if_neg ne, if_pos visible', Int.toNat_natCast, loop]
  rfl

end Output

/-- **Console output.** Whatever is written to the visible terminal after `clean_screen`, in one
call or in several, the screen shows the last 25 rows and the cursor of the unbounded page. -/
theorem console_layout (s : Kernel) (ws : List (Nat × List UInt8))
    (visible : s.term.currentTerminalId = s.getNTerminal)
    (holds : ∀ w ∈ ws, w.1 ≠ 0 ∧ s.Holds w.1 w.2) :
    ∃ s', runs writeStep s.cleanScreen ws = some s' ∧
      OnScreen s' ((ws.flatMap Prod.snd).foldl Layout.print .blank) := by
  have written {t : Kernel} {l : Layout} (works : WorksHere s t) (shown : OnScreen t l) :
      ∃ s', runs writeStep t ws = some s' ∧
        OnScreen s' ((ws.flatMap Prod.snd).foldl Layout.print l) := by
    induction ws generalizing t l with
    | nil => exact ⟨t, rfl, shown⟩
    | cons w ws ih =>
        obtain ⟨⟨ne, first⟩, rest⟩ := List.forall_mem_cons.mp holds
        obtain ⟨t', step, works', shown'⟩ := shown.write works visible ne first
        obtain ⟨s', run, last⟩ := ih rest works' shown'
        refine ⟨s', by rw [runs_cons, step, Option.bind_some, run], ?_⟩
        rw [List.flatMap_cons, List.foldl_append]
        exact last
  exact written (worksHere_cleanScreen s) (onScreen_cleanScreen s)

/-- Two bytes of the shell's program, written twice. -/
theorem console_layout_sample : ∃ s s', bootShell sampleFrame sampleBoot = some s ∧
    runs writeStep s.cleanScreen [(0x08048001, [0x45, 0x4C]),
      (0x08048001, [0x45, 0x4C])] = some s' ∧
    OnScreen s' ⟨[], [0x45, 0x4C, 0x45, 0x4C]⟩ := by
  have facts : (bootShell sampleFrame sampleBoot).map (fun s =>
      (s.term.currentTerminalId == s.getNTerminal, s.paging.translate 0x08048001,
        s.paging.translate 0x08048002, s.mem 0x848001, s.mem 0x848002))
      = some (true, some 0x848001, some 0x848002, 0x45, 0x4C) := by decide +kernel
  obtain ⟨s, hs, e⟩ := Option.map_eq_some_iff.mp facts
  simp only [Prod.mk.injEq] at e
  obtain ⟨visible, place, place', byte, byte'⟩ := e
  have holds : s.Holds 0x08048001 [0x45, 0x4C] :=
    ⟨⟨0x848001, place, byte, offScreens_user (by decide)⟩,
      ⟨0x848002, place', byte', offScreens_user (by decide)⟩, trivial⟩
  obtain ⟨s', run, shown⟩ := console_layout s
    [(0x08048001, [0x45, 0x4C]), (0x08048001, [0x45, 0x4C])] (beq_iff_eq.mp visible)
    (List.forall_mem_cons.mpr ⟨⟨by decide, holds⟩,
      List.forall_mem_singleton.mpr ⟨by decide, holds⟩⟩)
  exact ⟨s, s', hs, run, shown⟩

/-- Eighty characters and a newline are two rows: the last column ends the first. -/
example : ((List.replicate 80 97 ++ [(10 : UInt8)]).foldl Layout.print .blank).above
    = [List.replicate 80 97, []] := by decide +kernel

end Kernel391
