import Kernel391.Terminal.Isolation

/-!
# Typing

What every sequence of keyboard interrupts and reads keeps of the line buffers: positions stay
inside the buffers, nothing before a position is a newline, and a newline in `keyboard_buffer` is
also in the terminal buffer of the current terminal. So the newline `check_enter` looks for ends the
line.
-/

namespace Kernel391
open Base

namespace Line

/-- The line buffers are in order. -/
structure Ok (l : Line) : Prop where
  pos : l.pos ≤ 127
  before : ∀ j < l.pos, l.terminal j ≠ 10
  newline : ∀ j < 128, l.keyboard j = 10 → l.terminal j = 10

variable {l : Line} {c : UInt8}

/-- A cell of the buffer is wiped. -/
lemma wipe_of_lt {f : Nat → UInt8} {j : Nat} (h : j < 128) : wipe f j = 0 := if_pos h

/-- A stored character keeps the position in the buffer. -/
lemma Ok.put (h : l.Ok) (c : UInt8) : (l.put c).Ok := by
  refine ⟨h.pos, fun j hj => ?_, fun j hj => ?_⟩
  · have ne : j ≠ l.pos := Nat.ne_of_lt hj
    show Function.update l.terminal l.pos c j ≠ 10
    rw [Function.update_of_ne ne]
    exact h.before j hj
  · show Function.update l.keyboard l.pos c j = 10 → Function.update l.terminal l.pos c j = 10
    by_cases e : j = l.pos
    · subst e
      rw [Function.update_self, Function.update_self]
      exact id
    · rw [Function.update_of_ne e, Function.update_of_ne e]
      exact h.newline j hj

/-- A typed character keeps the position in the buffer. -/
lemma Ok.type (h : l.Ok) (hc : c ≠ 10) : (l.type c).Ok := by
  rw [Line.type]
  split_ifs with room
  · have put := h.put c
    refine ⟨by show l.pos + 1 ≤ 127; omega, fun j hj => ?_, put.newline⟩
    show Function.update l.terminal l.pos c j ≠ 10
    by_cases e : j = l.pos
    · rw [e, Function.update_self]
      exact hc
    · rw [Function.update_of_ne e]
      have hj : j < l.pos + 1 := hj
      exact h.before j (by omega)
  · exact h

/-- A cleared line is in order. -/
lemma Ok.clear (l : Line) : l.clear.Ok := by
  refine ⟨Nat.zero_le _, fun j hj => absurd hj (Nat.not_lt_zero j), fun j hj e => ?_⟩
  have zero : wipe l.keyboard j = 10 := e
  rw [wipe_of_lt hj] at zero
  exact absurd zero (by decide)

/-- Keys keep the line buffers in order. -/
lemma Ok.press (h : l.Ok) {k : Key} (hk : ∀ c, k = .type c → c ≠ 10) : (l.press k).Ok := by
  have space : (32 : UInt8) ≠ 10 := by decide
  cases k with
  | mods md => exact h
  | backspace =>
      have pos := h.pos
      refine ⟨by show l.pos - 1 ≤ 127; omega, fun j hj => ?_, h.newline⟩
      have hj : j < l.pos - 1 := hj
      exact h.before j (by omega)
  | tab => exact (((h.type space).type space).type space).type space
  | switch t => exact h
  | clear => exact .clear l
  | enter => exact h.put 10
  | type c => exact h.type (hk c rfl)
  | ignored => exact h

end Line

/-- The pane of a terminal is in order. -/
structure Pane.Ok (p : Pane) : Prop where
  pos : p.pos ≤ 127
  before : ∀ j < p.pos, p.terminalBuffer j ≠ 10

/-- The two panes hold the same line. -/
def Pane.SameLine (p q : Pane) : Prop := q.terminalBuffer = p.terminalBuffer ∧ q.pos = p.pos

/-- Equal panes have the same line. -/
lemma Pane.SameLine.of_eq {p q : Pane} (h : q = p) : p.SameLine q := h ▸ ⟨rfl, rfl⟩

/-- Panes with the same line as a third. -/
lemma Pane.SameLine.trans {p q r : Pane} (h : p.SameLine q) (h' : q.SameLine r) : p.SameLine r :=
  ⟨h'.1.trans h.1, h'.2.trans h.2⟩

/-- A pane with the same line is as much in order. -/
lemma Pane.Ok.sameLine {p q : Pane} (h : p.Ok) (same : p.SameLine q) : q.Ok := by
  obtain ⟨tb, pos⟩ := same
  refine ⟨pos ▸ h.pos, fun j hj => ?_⟩
  rw [tb]
  exact h.before j (pos ▸ hj)

/-- The line buffers of all terminals are in order. -/
structure Typing (s : Kernel) : Prop where
  display : s.display.Ok
  pages : UserPages s.paging
  current : s.term.currentTerminalId < 3
  pane : ∀ t : Fin 3, (s.pane t).Ok
  newline : ∀ j < 128, s.kbd.keyboardBuffer j = 10 → s.term.current.terminalBuffer j = 10

section Buffers

variable {s s' : Kernel} {t : Nat}

/-- The current terminal's pane holds the line. -/
lemma pane_line (ht : t = s.term.currentTerminalId) :
    (s.pane t).terminalBuffer = s.line.terminal ∧ (s.pane t).pos = s.line.pos := by
  rw [pane_current ht]
  exact ⟨rfl, rfl⟩

/-- The loop of `clean_keyboard_buffer`. -/
lemma zeroBuffer_eq (kb : Nat → UInt8) : Kernel.zeroBuffer kb = Line.wipe kb := by
  unfold Kernel.zeroBuffer
  exact foldl_range_update kb 0 128

/-- After a switch no newline is left in `keyboard_buffer`. -/
lemma keyboard_changeTerminal (s : Kernel) (u : Nat) {j : Nat} (hj : j < 128) :
    (s.changeTerminal u).kbd.keyboardBuffer j = 0 := by
  have e : (s.changeTerminal u).kbd.keyboardBuffer
      = Kernel.zeroBuffer (Kernel.zeroBuffer s.kbd.keyboardBuffer) := rfl
  rw [e, zeroBuffer_eq, Line.wipe_of_lt hj]

/-- Everything a switch does to the line buffers, whether or not a shell it has to start is
started. -/
lemma terminalSwitch_keeps (display : s.display.Ok) (pages : UserPages s.paging) {fr : Frame}
    {u : Fin 3} {c : Control} (run : s.terminalSwitch fr u = some (s', c)) :
    s' = s ∨ ((u : Nat) ≠ s.term.currentTerminalId ∧ s'.display.Ok ∧ UserPages s'.paging ∧
      s'.term.currentTerminalId = u ∧ (∀ t : Fin 3, (s.pane t).SameLine (s'.pane t)) ∧
      ∀ j < 128, s'.kbd.keyboardBuffer j = 0) := by
  rcases terminalSwitch_cases run with
    ⟨-, e⟩ | ⟨hu, -, e⟩ | ⟨hu, -, ⟨text, e⟩ | ⟨_, pid, eip, he, e⟩⟩
  · exact .inl (Prod.mk.inj e).1
  · obtain ⟨rfl, -⟩ := Prod.mk.inj e
    exact .inr ⟨hu, display.changeTerminal hu, pages, rfl,
      fun t => .of_eq (pane_changeTerminal display hu t),
        fun j hj => keyboard_changeTerminal s u hj⟩
  · -- the shell is not started, and a message may be printed: no line buffer changes
    obtain ⟨rfl, -⟩ := Prod.mk.inj e
    have display' := display.changeTerminal hu
    have works := worksHere_puts display'.visible text
    have pages' : UserPages (s.changeTerminal u).paging := pages
    have line := line_puts (s.changeTerminal u) text
    refine .inr ⟨hu, works.display display', works.paging ▸ pages', works.current, fun t => ?_,
      fun j hj => ?_⟩
    · apply Pane.SameLine.trans (.of_eq (pane_changeTerminal display hu t))
      by_cases ht : (t : Nat) = u
      · obtain ⟨tb, pos⟩ := pane_line (ht.trans works.current.symm)
        obtain ⟨tb', pos'⟩ := pane_line (s := s.changeTerminal u) ht
        rw [Pane.SameLine, tb, pos, tb', pos', line]
        exact ⟨rfl, rfl⟩
      · exact .of_eq (works.pane ht)
    · have keyboard := congrFun (congrArg Line.keyboard line) j
      exact keyboard.trans (keyboard_changeTerminal s u hj)
  · obtain ⟨rfl, -⟩ := Prod.mk.inj e
    have pages' : UserPages (s.changeTerminal u).paging := pages
    obtain ⟨-, -, kbd, -, -, -, pages'', term⟩ := execute_user_frame pages' he
    refine .inr ⟨hu, display_execute_user he ▸ display.changeTerminal hu, pages'', ?_, fun t => ?_,
      fun j hj => ?_⟩
    · rw [term]
      rfl
    · exact .of_eq ((pane_execute pages' he t.isLt).trans (pane_changeTerminal display hu t))
    · rw [kbd]
      exact keyboard_changeTerminal s u hj

/-- The line of the current terminal is in order. -/
lemma Typing.line (h : Typing s) : s.line.Ok := by
  have pane := h.pane ⟨_, h.current⟩
  obtain ⟨tb, pos⟩ := pane_line (s := s) rfl
  refine ⟨pos ▸ pane.pos, fun j hj => ?_, h.newline⟩
  have before := pane.before j (pos.symm ▸ hj)
  rw [tb] at before
  exact before

/-- What works on the current terminal and keeps its line in order keeps all lines in order. -/
lemma Typing.worksHere (h : Typing s) (works : WorksHere s s') (ok : s'.line.Ok) : Typing s' := by
  refine ⟨works.display h.display, works.paging ▸ h.pages, works.current ▸ h.current, fun t => ?_,
    ok.newline⟩
  by_cases ht : (t : Nat) = s.term.currentTerminalId
  · obtain ⟨tb, pos⟩ := pane_line (ht.trans works.current.symm)
    refine ⟨pos ▸ ok.pos, fun j hj => ?_⟩
    rw [tb]
    exact ok.before j (pos ▸ hj)
  · rw [works.pane ht]
    exact h.pane t

/-- Keys that are no switch keep the line buffers in order. -/
lemma Typing.press (h : Typing s) {k : Key} (hk : ∀ c, k = .type c → c ≠ 10) : Typing (s.press k) :=
  h.worksHere (worksHere_press h.display.visible k) (line_press s k ▸ h.line.press hk)

/-- Switches keep the line buffers in order. -/
lemma Typing.switch (h : Typing s) {fr : Frame} {u : Fin 3} {c : Control}
    (run : s.terminalSwitch fr u = some (s', c)) : Typing s' := by
  rcases terminalSwitch_keeps h.display h.pages run with
    rfl | ⟨-, display, pages, current, pane, keyboard⟩
  · exact h
  · refine ⟨display, pages, current ▸ u.isLt, fun t => (h.pane t).sameLine (pane t),
      fun j hj e => ?_⟩
    rw [keyboard j hj] at e
    exact absurd e (by decide)

/-- Keyboard interrupts keep the line buffers in order. -/
lemma Typing.handleKeyboardIrq (h : Typing s) {e : KeyEvent}
    (run : s.handleKeyboardIrq e.fr e.scancode = some s') : Typing s' := by
  rcases handleKeyboardIrq_cases run with ⟨u, c, -, switch⟩ | ⟨-, rfl⟩
  · exact h.switch switch
  · exact h.press fun c hk => Mods.type_ne_newline hk

/-- `terminal_read` empties the line. -/
lemma line_finishRead (s : Kernel) : s.finishRead.line = s.line.clear := by
  have current : (s.cleanBuffer.term.setTerminal s.cleanBuffer.term.currentTerminalId
      { s.cleanBuffer.term.current with bufPos := 0 }).current
      = { s.cleanBuffer.term.current with bufPos := 0 } := Kernel.current_setTerminal ..
  have line := line_cleanBuffer s
  have same : s.finishRead.line = s.cleanBuffer.line := by
    show Line.mk s.cleanBuffer.kbd.keyboardBuffer
      (s.cleanBuffer.term.setTerminal s.cleanBuffer.term.currentTerminalId
        { s.cleanBuffer.term.current with bufPos := 0 }).current.terminalBuffer
      s.cleanBuffer.kbd.bufferPosition = _
    rw [current]
    rfl
  rw [same, line]

/-- It leaves the panes of the other terminals alone. -/
lemma finishRead_spec (fits : Fits s.screen.screenX s.screen.screenY) :
    s.finishRead.line = s.line.clear ∧ s.finishRead.term.currentTerminalId
      = s.term.currentTerminalId ∧
      s.finishRead.paging = s.paging ∧ ∀ u, u ≠ s.term.currentTerminalId →
        s.finishRead.pane u = s.pane u := by
  have works := worksHere_cleanBuffer fits
  have last (t : Kernel) (tm : Term) (e : tm = t.term.setTerminal t.term.currentTerminalId
      { t.term.current with bufPos := 0 }) : tm.currentTerminalId = t.term.currentTerminalId ∧
      ∀ u, u ≠ t.term.currentTerminalId → { t with term := tm }.pane u = t.pane u := by
    have here : tm.currentTerminalId = t.term.currentTerminalId := by
      rw [e]
      rfl
    refine ⟨here, fun u hu => ?_⟩
    have entry : tm.terminalArray u = t.term.terminalArray u := by
      rw [e]
      exact Function.update_of_ne hu ..
    have hu' : u ≠ { t with term := tm }.term.currentTerminalId := here.symm ▸ hu
    rw [pane_parked hu, pane_parked hu', entry]
  obtain ⟨current, pane⟩ := last s.cleanBuffer _ rfl
  refine ⟨line_finishRead s, current.trans works.current, works.paging, fun u hu => ?_⟩
  exact (pane u (works.current.symm ▸ hu)).trans (works.pane hu)

/-- The end of a read keeps the lines in order. -/
lemma Typing.finishRead (h : Typing s) : Typing s.finishRead := by
  obtain ⟨line, current, paging, pane⟩ := finishRead_spec h.display.visible
  have ok : s.finishRead.line.Ok := line ▸ Line.Ok.clear s.line
  refine ⟨display_finishRead s ▸ h.display, paging ▸ h.pages, current ▸ h.current, fun t => ?_,
    ok.newline⟩
  by_cases ht : (t : Nat) = s.term.currentTerminalId
  · obtain ⟨tb, pos⟩ := pane_line (ht.trans current.symm)
    refine ⟨pos ▸ ok.pos, fun j hj => ?_⟩
    rw [tb]
    exact ok.before j (pos ▸ hj)
  · rw [pane t ht]
    exact h.pane t

/-- The boot shell starts with empty lines. -/
lemma pane_bootShell {fr : Frame} {b : BootInfo} (h : bootShell fr b = some s) (t : Fin 3) :
    (s.pane t).pos = 0 := by
  obtain ⟨pid, eip, he⟩ := bootShell_spec h
  rw [pane_execute (UserPages.boot b) he t.isLt, Kernel.pane]
  split_ifs <;> rfl

/-- The keyboard's variables of the first shell. -/
lemma kbd_bootShell {fr : Frame} {b : BootInfo} (h : bootShell fr b = some s) :
    s.kbd = ⟨fun _ => 0, 0, ⟨false, false, false, false⟩⟩ ∧ s.term.currentTerminalId = 0 := by
  obtain ⟨pid, eip, he⟩ := bootShell_spec h
  obtain ⟨-, -, kbd, -, -, -, -, term⟩ := execute_user_frame (UserPages.boot b) he
  refine ⟨kbd, ?_⟩
  rw [term]
  rfl

/-- The lines are in order at boot. -/
lemma typing_boot (b : BootInfo) : Typing (Kernel.boot b) := by
  refine ⟨display_boot b, UserPages.boot b, ?_, fun t => ?_, fun j _ e => ?_⟩
  · show 0 < 3
    omega
  · have pos : ((Kernel.boot b).pane t).pos = 0 := by
      rw [Kernel.pane]
      split_ifs <;> rfl
    exact ⟨by omega, fun j hj => by omega⟩
  · have zero : (Kernel.boot b).kbd.keyboardBuffer j = 0 := rfl
    rw [zero] at e
    exact absurd e (by decide)

/-- The lines are in order for the first shell. -/
lemma typing_bootShell {fr : Frame} {b : BootInfo} (h : bootShell fr b = some s) : Typing s := by
  obtain ⟨kbd, current⟩ := kbd_bootShell h
  refine ⟨display_bootShell h, (synced_bootShell h).2, by omega, fun t => ?_, fun j _ e => ?_⟩
  · have pos := pane_bootShell h t
    exact ⟨by omega, fun j hj => by omega⟩
  · rw [kbd] at e
    exact absurd e (by decide : ¬ (0 : UInt8) = 10)

end Buffers

end Kernel391
