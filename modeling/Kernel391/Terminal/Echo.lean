import Kernel391.Terminal.Reads

/-!
# Echo

The keyboard driver keeps the line in its buffers and echoes it with the console functions, which
know nothing of lines. While only characters, tabs and backspaces come, the cells before the cursor
hold the line, whatever was on the screen: the invariant ties the cursor to the position in the line
and to the number of times the screen has scrolled.
-/

namespace Kernel391
open Base

/-- The character in cell `k` of the screen, in row-major order. -/
def charAt (m : Mem) (k : Nat) : UInt8 := m (videoMem + 2 * k)

/-- The cell the cursor is in, in row-major order. -/
def Page.offset (p : Page) : Nat := numCols * p.y + p.x

/-- The `n` characters before the cursor. -/
def Kernel.charsBefore (s : Kernel) (n : Nat) : List UInt8 :=
  (List.range n).map fun i => charAt s.mem (s.page.offset - n + i)

/-! ## Counting scrolls -/

/-- `vertical_scrolling`, with the number of times the screen has scrolled. -/
def countScrollingAt (base : Nat) (x : Page × Nat) : Page × Nat :=
  (verticalScrollingAt base x.1, if x.1.y ≥ numRows then x.2 + 1 else x.2)

/-- `putc` on a page, with the number of times the screen has scrolled. -/
def countPutcAt (base : Nat) (c : UInt8) (x : Page × Nat) : Page × Nat :=
  let p := x.1
  if c = 10 ∨ c = 13 then countScrollingAt base ({ p with x := 0, y := p.y + 1 }, x.2)
  else
    let m := setCell base p.y p.x c attrib p.mem
    if p.x + 1 ≥ numCols then countScrollingAt base ({ mem := m, x := 0, y := p.y + 1 }, x.2)
    else countScrollingAt base ({ mem := m, x := p.x + 1, y := p.y }, x.2)

namespace Kernel

/-- `putc`, with the number of times the screen has scrolled. -/
def countPutc (x : Kernel × Nat) (c : UInt8) : Kernel × Nat :=
  let r := countPutcAt videoMem c (x.1.page, x.2)
  ((x.1.setPage r.1).updateCursor, r.2)

/-- A character at the end of the line, with the number of times the screen has scrolled. -/
def countTypeChar (x : Kernel × Nat) (c : UInt8) : Kernel × Nat :=
  if x.1.kbd.bufferPosition < maxBufferSize then
    let s := x.1.putBuffer c
    countPutc ({ s with kbd.bufferPosition := s.kbd.bufferPosition + 1 }, x.2) c
  else x

/-- What a key that is no switch does, with the number of times the screen has scrolled. -/
def countPress (x : Kernel × Nat) : Key → Kernel × Nat
  | .tab => countTypeChar (countTypeChar (countTypeChar (countTypeChar x 32) 32) 32) 32
  | .enter => countPutc (x.1.putBuffer 10, x.2) 10
  | .type c => countTypeChar x c
  | k => (x.1.press k, x.2)

end Kernel

/-- A keyboard interrupt, with the number of times the screen has scrolled. -/
def echoStep (x : Kernel × Nat) (e : KeyEvent) : Option (Kernel × Nat) :=
  (x.1.handleKeyboardIrq e.fr e.scancode).map fun s' =>
    (s', (Kernel.countPress x (x.1.kbd.mods.key e.scancode)).2)

/-- A character, a tab or a backspace, or a key that prints nothing. -/
def Key.Echoes : Key → Prop
  | .backspace => True
  | .tab => True
  | .type _ => True
  | .mods _ => True
  | .ignored => True
  | .switch _ => False
  | .clear => False
  | .enter => False

/-- The line stands before the cursor, and before it stands what stood before the cursor in `s₀`,
moved up by the scrolls. -/
structure Echo (s₀ : Kernel) (x : Kernel × Nat) : Prop where
  fits : Fits x.1.screen.screenX x.1.screen.screenY
  pos : x.1.line.pos ≤ 127
  start : x.1.page.offset + 80 * x.2 = s₀.page.offset + x.1.line.pos
  inside : x.1.line.pos ≤ x.1.page.offset
  line : ∀ i < x.1.line.pos,
    charAt x.1.mem (x.1.page.offset - x.1.line.pos + i) = x.1.line.terminal i
  earlier : ∀ k < x.1.page.offset - x.1.line.pos,
    charAt x.1.mem k = charAt s₀.mem (k + 80 * x.2)

section Cells

variable {m : Mem} {p : Page} {n k : Nat} {c : UInt8}

/-- The character of a cell. -/
lemma charAt_cellOf (m : Mem) (i j : Nat) : charAt m (numCols * i + j)
    = (cellOf videoMem m i j).1 :=
  rfl

/-- A store to the cell under the cursor. -/
lemma charAt_setCell (a : UInt8) (i j : Nat) : charAt (setCell videoMem i j c a m) k =
    if k = numCols * i + j then c else charAt m k := by
  have odd : videoMem + 2 * k ≠ cellAddr videoMem i j + 1 := by
    rw [cellAddr]
    omega
  rw [charAt, setCell, Function.update_of_ne odd]
  by_cases here : k = numCols * i + j
  · rw [if_pos here, here]
    exact Function.update_self ..
  · have ne : videoMem + 2 * k ≠ cellAddr videoMem i j := by
      rw [cellAddr]
      omega
    rw [if_neg here, Function.update_of_ne ne]
    rfl

/-- A scroll moves every cell up by a row. -/
lemma charAt_scroll (hk : k < 1920) :
    charAt (blankRow videoMem (numRows - 1) (liftRows videoMem m)) k = charAt m (k + 80) := by
  have column : k % 80 < numCols := Nat.mod_lt k (by decide)
  have place : k = numCols * (k / 80) + k % 80 := (Nat.div_add_mod k 80).symm
  have above : numCols * (k / 80 + 1) + k % 80 = k + 80 := by
    rw [Nat.mul_succ, Nat.add_right_comm, ← place]
    rfl
  have row : k / 80 < numRows - 1 := by
    rw [numRows]
    omega
  rw [place, charAt_cellOf, cellOf_blankRow _ _ _ column, if_neg (Nat.ne_of_lt row),
    cellOf_liftRows _ _ column, if_pos row, ← charAt_cellOf, above, ← place]

/-- With the cursor on the screen nothing scrolls. -/
lemma countScrollingAt_inside (base : Nat) {x y : Nat} (h : y < numRows) :
    countScrollingAt base (⟨m, x, y⟩, n) = (⟨m, x, y⟩, n) := by
  have above : ¬ y ≥ numRows := Nat.not_le.mpr h
  rw [countScrollingAt, verticalScrollingAt, if_neg above, if_neg above]

/-- With the cursor below the screen one row scrolls. -/
lemma countScrollingAt_below (base : Nat) {x y : Nat} (h : y ≥ numRows) :
    countScrollingAt base (⟨m, x, y⟩, n)
      = (⟨blankRow base (numRows - 1) (liftRows base m), x, numRows - 1⟩, n + 1) := by
  rw [countScrollingAt, verticalScrollingAt, if_pos h, if_pos h]

/-- A character that is no line break moves the cursor on by a cell; in the last cell it scrolls. -/
lemma countPutcAt_cases (h : Fits p.x p.y) (newline : ¬ (c = 10 ∨ c = 13)) :
    let q := countPutcAt videoMem c (p, n)
    (p.offset + 1 < 2000 ∧ q.2 = n ∧ q.1.offset = p.offset + 1 ∧
      ∀ k, charAt q.1.mem k = if k = p.offset then c else charAt p.mem k) ∨
    (p.offset + 1 = 2000 ∧ q.2 = n + 1 ∧ q.1.offset = 1920 ∧
      ∀ k < 1920, charAt q.1.mem k = if k + 80 = p.offset then c else charAt p.mem (k + 80)) := by
  obtain ⟨hx, hy⟩ := h
  intro q
  have stored (k : Nat) : charAt (setCell videoMem p.y p.x c attrib p.mem) k =
      if k = p.offset then c else charAt p.mem k := charAt_setCell attrib p.y p.x
  by_cases last : p.x + 1 ≥ numCols
  · have next : q = countScrollingAt videoMem
        (⟨setCell videoMem p.y p.x c attrib p.mem, 0, p.y + 1⟩, n) := by
      show countPutcAt videoMem c (p, n) = _
      rw [countPutcAt, if_neg newline]
      exact if_pos last
    by_cases bottom : p.y + 1 ≥ numRows
    · rw [next, countScrollingAt_below videoMem bottom]
      refine .inr ⟨?_, rfl, rfl, fun k hk => (charAt_scroll hk).trans (stored (k + 80))⟩
      simp only [Page.offset, numCols, numRows] at hx hy last bottom ⊢
      omega
    · rw [next, countScrollingAt_inside videoMem (Nat.not_le.mp bottom)]
      refine .inl ⟨?_, rfl, ?_, stored⟩
      · simp only [Page.offset, numCols, numRows] at hx hy last bottom ⊢
        omega
      · simp only [Page.offset, numCols] at hx last ⊢
        omega
  · have next : q = countScrollingAt videoMem
        (⟨setCell videoMem p.y p.x c attrib p.mem, p.x + 1, p.y⟩, n) := by
      show countPutcAt videoMem c (p, n) = _
      rw [countPutcAt, if_neg newline]
      exact if_neg last
    rw [next, countScrollingAt_inside videoMem hy]
    refine .inl ⟨?_, rfl, rfl, stored⟩
    simp only [Page.offset, numCols, numRows] at hx hy last ⊢
    omega

/-- The count changes nothing else. -/
lemma countPutcAt_fst (base : Nat) (c : UInt8) (x : Page × Nat) :
    (countPutcAt base c x).1 = putcAt base c x.1 := by
  rw [countPutcAt, putcAt]
  dsimp only
  split_ifs <;> rfl

end Cells

section Keys

variable {s₀ s s' : Kernel} {x x' : Kernel × Nat} {c scancode : UInt8} {k : Key}

/-- Counting does not change `putc`. -/
lemma countPutc_fst (x : Kernel × Nat) (c : UInt8) : (Kernel.countPutc x c).1 = x.1.putc c := by
  rw [Kernel.countPutc, Kernel.putc, ← countPutcAt_fst videoMem c (x.1.page, x.2)]

/-- Counting does not change a typed character. -/
lemma countTypeChar_fst (x : Kernel × Nat) (c : UInt8) :
    (Kernel.countTypeChar x c).1 = x.1.typeChar c := by
  rw [Kernel.countTypeChar, Kernel.typeChar]
  split_ifs
  · exact countPutc_fst _ c
  · rfl

/-- Counting does not change a key. -/
lemma countPress_fst (x : Kernel × Nat) (k : Key) : (Kernel.countPress x k).1 = x.1.press k := by
  cases k with
  | tab =>
      show (Kernel.countTypeChar (Kernel.countTypeChar (Kernel.countTypeChar
        (Kernel.countTypeChar x 32) 32) 32) 32).1 = _
      rw [countTypeChar_fst, countTypeChar_fst, countTypeChar_fst, countTypeChar_fst]
      rfl
  | enter => exact countPutc_fst _ 10
  | type c => exact countTypeChar_fst x c
  | _ => rfl

/-- The line grows by the character that takes the cell under the cursor, and moves up with it when
the screen scrolls. -/
lemma Echo.grow (h : Echo s₀ x) {y : Kernel × Nat} (room : x.1.line.pos < 127)
    (fits : Fits y.1.screen.screenX y.1.screen.screenY)
    (line : y.1.line = { x.1.line.put c with pos := x.1.line.pos + 1 })
    (cells : (x.1.page.offset + 1 < 2000 ∧ y.2 = x.2 ∧ y.1.page.offset = x.1.page.offset + 1 ∧
        ∀ k, charAt y.1.mem k = if k = x.1.page.offset then c else charAt x.1.mem k) ∨
      (x.1.page.offset + 1 = 2000 ∧ y.2 = x.2 + 1 ∧ y.1.page.offset = 1920 ∧
        ∀ k < 1920, charAt y.1.mem k =
          if k + 80 = x.1.page.offset then c else charAt x.1.mem (k + 80))) :
    Echo s₀ y := by
  obtain ⟨-, pos, start, inside, shown, earlier⟩ := h
  have pos' : y.1.line.pos = x.1.line.pos + 1 := congrArg Line.pos line
  have terminal (i : Nat) : y.1.line.terminal i =
      if i = x.1.line.pos then c else x.1.line.terminal i := by
    rw [line]
    exact Function.update_apply ..
  rcases cells with ⟨below, count, moved, cells⟩ | ⟨last, count, moved, cells⟩
  · have same : x.1.page.offset + 1 - (x.1.line.pos + 1)
      = x.1.page.offset - x.1.line.pos := by omega
    refine ⟨fits, by omega, by omega, by omega, fun i hi => ?_, fun k hk => ?_⟩
    · rw [pos'] at hi
      rw [cells, terminal, moved, pos', same]
      by_cases newest : i = x.1.line.pos
      · rw [if_pos (by omega), if_pos newest]
      · rw [if_neg (by omega), if_neg newest]
        exact shown i (by omega)
    · rw [moved, pos', same] at hk
      rw [cells, if_neg (by omega), count]
      exact earlier k hk
  · refine ⟨fits, by omega, by omega, by omega, fun i hi => ?_, fun k hk => ?_⟩
    · rw [pos'] at hi
      have place : y.1.page.offset - y.1.line.pos + i + 80
          = x.1.page.offset - x.1.line.pos + i := by omega
      rw [cells _ (by omega), terminal, place]
      by_cases newest : i = x.1.line.pos
      · rw [if_pos (by omega), if_pos newest]
      · rw [if_neg (by omega), if_neg newest]
        exact shown i (by omega)
    · rw [moved, pos'] at hk
      have up : k + 80 + 80 * x.2 = k + 80 * y.2 := by omega
      rw [cells k (by omega), if_neg (by omega), earlier (k + 80) (by omega), up]

/-- A character joins the line while there is room. -/
lemma Echo.typeChar (h : Echo s₀ x) (newline : ¬ (c = 10 ∨ c = 13)) :
    Echo s₀ (Kernel.countTypeChar x c) := by
  by_cases room : x.1.kbd.bufferPosition < Kernel.maxBufferSize
  · have same : (Kernel.countTypeChar x c).1 = x.1.typeChar c := countTypeChar_fst x c
    have printed : Kernel.countTypeChar x c = Kernel.countPutc
        ({ x.1.putBuffer c with kbd.bufferPosition := (x.1.putBuffer c).kbd.bufferPosition + 1 },
          x.2) c := by
      rw [Kernel.countTypeChar, if_pos room]
    apply h.grow room
    · rw [same]
      exact (worksHere_typeChar h.fits c).fits
    · have room' : x.1.line.pos < 127 := room
      rw [same, line_typeChar, Line.type, if_pos room']
    · rw [printed]
      exact countPutcAt_cases (n := x.2) h.fits newline
  · rw [Kernel.countTypeChar, if_neg room]
    exact h

/-- Backspace moves the cursor back by a cell and empties it. -/
lemma backspaceHandler_spec (s : Kernel) (inside : 0 < s.page.offset) :
    s.backspaceHandler.page.offset = s.page.offset - 1 ∧
      ∀ k, k + 1 ≠ s.page.offset → charAt s.backspaceHandler.mem k = charAt s.mem k := by
  have cells (i j k : Nat) (ne : k ≠ numCols * i + j) :
      charAt (Function.update s.mem (cellAddr videoMem i j) 32) k = charAt s.mem k := by
    have other : videoMem + 2 * k ≠ cellAddr videoMem i j := by
      rw [cellAddr]
      omega
    exact Function.update_of_ne other ..
  have offset : s.page.offset = numCols * s.screen.screenY + s.screen.screenX := rfl
  have away : ¬ (s.screen.screenX = 0 ∧ s.screen.screenY = 0) := by
    rintro ⟨x, y⟩
    rw [offset, x, y] at inside
    exact absurd inside (by decide)
  rw [Kernel.backspaceHandler, if_neg away]
  by_cases first : s.page.x = 0
  · have x : s.screen.screenX = 0 := first
    have place : numCols * (s.screen.screenY - 1) + (numCols - 1) = s.page.offset - 1 := by
      rw [offset]
      simp only [numCols]
      omega
    simp only [if_pos first]
    refine ⟨place, fun k hk => cells _ _ k ?_⟩
    show k ≠ numCols * (s.screen.screenY - 1) + (numCols - 1)
    omega
  · have x : s.screen.screenX ≠ 0 := first
    have place : numCols * s.screen.screenY + (s.screen.screenX - 1) = s.page.offset - 1 := by
      rw [offset]
      omega
    simp only [if_neg first]
    refine ⟨place, fun k hk => cells _ _ k ?_⟩
    show k ≠ numCols * s.screen.screenY + (s.screen.screenX - 1)
    omega

/-- Backspace takes the last character from the line. -/
lemma Echo.backspace (h : Echo s₀ x) : Echo s₀ (x.1.press .backspace, x.2) := by
  by_cases some_char : x.1.kbd.bufferPosition > 0
  · have pressed : x.1.press .backspace
        = { x.1 with kbd.bufferPosition := x.1.kbd.bufferPosition - 1 }.backspaceHandler :=
      if_pos some_char
    have fits := (worksHere_press h.fits .backspace).fits
    have line : (x.1.press .backspace).line = { x.1.line with pos := x.1.line.pos - 1 } :=
      line_press x.1 .backspace
    obtain ⟨-, pos, start, inside, shown, earlier⟩ := h
    have nonempty : 0 < x.1.line.pos := some_char
    have behind : 0 < x.1.page.offset := by omega
    obtain ⟨moved, cells⟩ := backspaceHandler_spec
      { x.1 with kbd.bufferPosition := x.1.kbd.bufferPosition - 1 } behind
    rw [← pressed] at moved cells
    have moved : (x.1.press .backspace).page.offset = x.1.page.offset - 1 := moved
    have cells (k : Nat) (hk : k + 1 ≠ x.1.page.offset) :
        charAt (x.1.press .backspace).mem k = charAt x.1.mem k := cells k hk
    have same : x.1.page.offset - 1 - (x.1.line.pos - 1)
      = x.1.page.offset - x.1.line.pos := by omega
    have pos' : (x.1.press .backspace).line.pos = x.1.line.pos - 1 := congrArg Line.pos line
    refine ⟨fits, ?_, ?_, ?_, fun i hi => ?_, fun k hk => ?_⟩
    · dsimp only
      omega
    · dsimp only
      omega
    · dsimp only
      omega
    · dsimp only at hi ⊢
      rw [pos'] at hi
      rw [moved, pos', same, cells _ (by omega), line]
      exact shown i (by omega)
    · dsimp only at hk ⊢
      rw [moved, pos', same] at hk
      rw [cells k (by omega)]
      exact earlier k hk
  · have same : x.1.press .backspace = x.1 := if_neg some_char
    rw [same]
    exact h

/-- One key keeps the echo in step with the line. -/
lemma Echo.press (h : Echo s₀ x) (echoes : k.Echoes)
    (typed : ∀ c, k = .type c → ¬ (c = 10 ∨ c = 13)) :
    Echo s₀ (Kernel.countPress x k) := by
  have space : ¬ ((32 : UInt8) = 10 ∨ (32 : UInt8) = 13) := by decide
  cases k with
  | backspace => exact h.backspace
  | tab => exact (((h.typeChar space).typeChar space).typeChar space).typeChar space
  | type c => exact h.typeChar (typed c rfl)
  | mods md => exact ⟨h.fits, h.pos, h.start, h.inside, h.line, h.earlier⟩
  | ignored => exact h
  | switch t => exact echoes.elim
  | clear => exact echoes.elim
  | enter => exact echoes.elim

/-- No key of the map types a carriage return. -/
lemma scancodeChar_ne_return (low : scancode < 58) {mode : Nat} (hm : mode < 4) :
    scancodeChar scancode mode ≠ 13 := by
  have table : ((List.range 58).all fun n => (List.range 4).all fun mode =>
      decide (scancodeChar (UInt8.ofNat n) mode ≠ 13)) = true := by
    decide +kernel
  have row := List.all_eq_true.mp table scancode.toNat (List.mem_range.mpr low)
  have cell := List.all_eq_true.mp row mode (List.mem_range.mpr hm)
  rw [UInt8.ofNat_toNat] at cell
  exact of_decide_eq_true cell

/-- The interrupt of such a key completes, and keeps the line before the cursor. -/
lemma Echo.step {e : KeyEvent} (h : Echo s₀ x) (echoes : (x.1.kbd.mods.key e.scancode).Echoes) :
    ∃ x', echoStep x e = some x' ∧ Echo s₀ x' := by
  have irq : x.1.handleKeyboardIrq e.fr e.scancode
      = some (Kernel.countPress x (x.1.kbd.mods.key e.scancode)).1 := by
    rw [handleKeyboardIrq_eq, countPress_fst]
    apply act_of_press
    intro t switch
    rw [switch] at echoes
    exact echoes
  refine ⟨_, by rw [echoStep, irq, Option.map_some], ?_⟩
  apply h.press echoes
  intro c key
  obtain ⟨low, -, rfl, newline⟩ := Mods.key_type key
  exact not_or.mpr ⟨newline, scancodeChar_ne_return low x.1.kbd.mods.keyMode_lt⟩

end Keys

/-- **Echo.** With an empty line and the cursor anywhere on a screen that shows anything, any
characters, tabs and backspaces are taken; afterwards the cells before the cursor hold the line, and
every cell before those holds what the screen had shown there, moved up by a row for each scroll. -/
theorem echo_matches (s : Kernel) (es : List KeyEvent)
    (fits : Fits s.screen.screenX s.screen.screenY) (empty : s.kbd.bufferPosition = 0)
    (echoes : Admits echoStep (fun x e => (x.1.kbd.mods.key e.scancode).Echoes) (s, 0) es) :
    ∃ x, runs echoStep (s, 0) es = some x ∧
    let line := x.1.line.text
    line.length ≤ x.1.page.offset ∧ x.1.charsBefore line.length = line ∧
    x.1.page.offset - line.length + 80 * x.2 = s.page.offset ∧
    ∀ k < x.1.page.offset - line.length, charAt x.1.mem k = charAt s.mem (k + 80 * x.2) := by
  have start : Echo s (s, 0) := by
    have none : s.line.pos = 0 := empty
    refine ⟨fits, ?_, ?_, ?_, fun i hi => ?_, fun k _ => rfl⟩
    · dsimp only
      omega
    · dsimp only
      omega
    · dsimp only
      omega
    · dsimp only at hi
      omega
  obtain ⟨x, run, echo⟩ := runs_of_admits (Echo s) (fun x e h ok => h.step ok) start echoes
  have length : x.1.line.text.length = x.1.line.pos := Line.length_text ..
  have begun := echo.start
  have inside := echo.inside
  refine ⟨x, run, by omega, ?_, by omega, fun k hk => echo.earlier k (by omega)⟩
  rw [length]
  exact List.map_congr_left fun i hi => echo.line i (List.mem_range.mp hi)

/-- With the cursor in the last cell, `a`, a tab and a backspace scroll once and leave four
characters. -/
theorem echo_matches_sample : ∃ x, runs echoStep
      ({ Kernel.boot sampleBoot with screen := ⟨79, 24, 0⟩ }, 0)
      [⟨sampleFrame, 0x1E⟩, ⟨sampleFrame, 0x0F⟩, ⟨sampleFrame, 0x0E⟩] = some x ∧ x.2 = 1 ∧
    x.1.charsBefore 4 = bytesOf ['a', ' ', ' ', ' '] := by
  have facts : (runs echoStep
      ({ Kernel.boot sampleBoot with screen := ⟨79, 24, 0⟩ }, 0)
      [⟨sampleFrame, 0x1E⟩, ⟨sampleFrame, 0x0F⟩, ⟨sampleFrame, 0x0E⟩]).map
        (fun x => (x.2, x.1.line.text)) = some (1, bytesOf ['a', ' ', ' ', ' ']) := by
    decide +kernel
  obtain ⟨x, run, e⟩ := Option.map_eq_some_iff.mp facts
  obtain ⟨scrolls, text⟩ := Prod.mk.inj e
  have echoes : Admits echoStep (fun x e => (x.1.kbd.mods.key e.scancode).Echoes)
      ({ Kernel.boot sampleBoot with screen := ⟨79, 24, 0⟩ }, 0)
      [⟨sampleFrame, 0x1E⟩, ⟨sampleFrame, 0x0F⟩, ⟨sampleFrame, 0x0E⟩] :=
    Admits.cons trivial rfl (Admits.cons trivial rfl (Admits.cons trivial rfl trivial))
  obtain ⟨x', run', -, shown, -⟩ := echo_matches _ _ (by decide) rfl echoes
  obtain rfl := Option.some.inj (run.symm.trans run')
  rw [text] at shown
  exact ⟨x, run, scrolls, shown⟩

end Kernel391
