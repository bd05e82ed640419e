import Kernel391.Process.UserPages
import Kernel391.Terminal.Keys

/-!
# Panes

What a terminal shows and holds, wherever the kernel keeps it: on the screen while the terminal is
current, in its video buffer and its entry of `terminal_array` while it is not. A key changes the
pane of the current terminal only, as a function of that pane; a switch and a program start change
none.
-/

namespace Kernel391
open Base

/-- The screen cells, the cursor, the line buffer and the position in it of a terminal. -/
structure Pane where
  cells : Fin 4096 → UInt8
  x : Nat
  y : Nat
  terminalBuffer : Nat → UInt8
  pos : Nat

/-- The pane of terminal `t`. -/
def Kernel.pane (s : Kernel) (t : Nat) : Pane :=
  let e := s.term.terminalArray t
  if t = s.term.currentTerminalId then
    { cells := fun k => s.mem (videoMem + k)
      x := s.screen.screenX
      y := s.screen.screenY
      terminalBuffer := e.terminalBuffer
      pos := s.kbd.bufferPosition }
  else
    { cells := fun k => s.mem (videoBuffer t + k)
      x := e.screenCursorX
      y := e.screenCursorY
      terminalBuffer := e.terminalBuffer
      pos := e.bufPos }

/-- The display's cursor is where `screen_x` and `screen_y` say. -/
def Kernel.Synced (s : Kernel) : Prop :=
  s.screen.cursor = (numCols * s.screen.screenY + s.screen.screenX) % 2 ^ 16

/-- The current terminals of two states show and hold the same. -/
structure SameHere (s a : Kernel) : Prop where
  page : Page.Same videoMem s.page a.page
  terminalBuffer : a.term.current.terminalBuffer = s.term.current.terminalBuffer
  pos : a.kbd.bufferPosition = s.kbd.bufferPosition

section Places

variable {s a : Kernel} {t : Nat}

/-- The pane of the current terminal is on the screen. -/
lemma pane_current (ht : t = s.term.currentTerminalId) : s.pane t =
    { cells := fun k => s.mem (videoMem + k)
      x := s.screen.screenX
      y := s.screen.screenY
      terminalBuffer := s.term.current.terminalBuffer
      pos := s.kbd.bufferPosition } := by
  rw [Kernel.pane, if_pos ht, Term.current, ← ht]

/-- The pane of another terminal is in its buffer. -/
lemma pane_parked (ht : t ≠ s.term.currentTerminalId) : s.pane t =
    { cells := fun k => s.mem (videoBuffer t + k)
      x := (s.term.terminalArray t).screenCursorX
      y := (s.term.terminalArray t).screenCursorY
      terminalBuffer := (s.term.terminalArray t).terminalBuffer
      pos := (s.term.terminalArray t).bufPos } := if_neg ht

/-- The addresses of a page. -/
lemma onPage_iff {base a : Nat} : OnPage base a ↔ ∃ k : Fin 4096, a = base + k := by
  constructor
  · rintro ⟨h, h'⟩
    rw [fourKb] at h'
    exact ⟨⟨a - base, by omega⟩, by show a = base + (a - base); omega⟩
  · rintro ⟨k, rfl⟩
    have := k.isLt
    rw [OnPage, fourKb]
    omega

/-- The buffer of a terminal is off the page of the display. -/
lemma offPage_videoBuffer (t : Nat) (k : Fin 4096) : OffPage videoMem (videoBuffer t + k) := by
  rintro ⟨-, h⟩
  simp only [videoMem, videoBuffer, fourKb] at h
  omega

/-- With the same terminal current in both, equal panes are equal screens and line buffers. -/
lemma pane_eq_iff (hs : t = s.term.currentTerminalId) (ha : t = a.term.currentTerminalId) :
    s.pane t = a.pane t ↔ SameHere s a := by
  rw [pane_current hs, pane_current ha]
  constructor
  · intro h
    obtain ⟨cells, x, y, tb, pos⟩ := Pane.mk.inj h
    refine ⟨⟨fun b hb => ?_, x.symm, y.symm⟩, tb.symm, pos.symm⟩
    obtain ⟨k, rfl⟩ := onPage_iff.mp hb
    exact (congrFun cells k).symm
  · rintro ⟨⟨mem, x, y⟩, tb, pos⟩
    have cells : (fun k : Fin 4096 => s.mem (videoMem + k))
        = fun k : Fin 4096 => a.mem (videoMem + k) := by
      funext k
      exact (mem _ (onPage_iff.mpr ⟨k, rfl⟩)).symm
    have x : a.screen.screenX = s.screen.screenX := x
    have y : a.screen.screenY = s.screen.screenY := y
    rw [cells, x, y, tb, pos]

/-- A key leaves the panes of the other terminals alone. -/
lemma WorksHere.pane {s' : Kernel} (h : WorksHere s s') (ht : t ≠ s.term.currentTerminalId) :
    s'.pane t = s.pane t := by
  have ht' : t ≠ s'.term.currentTerminalId := h.current.symm ▸ ht
  have cells : (fun k : Fin 4096 => s'.mem (videoBuffer t + k))
      = fun k : Fin 4096 => s.mem (videoBuffer t + k) := by
    funext k
    exact h.mem _ (offPage_videoBuffer t k)
  rw [pane_parked ht, pane_parked ht', h.others t ht, cells]

end Places

/-! ## Keys -/

section Keys

variable {s a : Kernel}

/-- The same page drawn on both kernels. -/
lemma SameHere.setPage (h : SameHere s a) {p q : Page} (hp : Page.Same videoMem p q) :
    SameHere (s.setPage p).updateCursor (a.setPage q).updateCursor :=
  ⟨hp, h.terminalBuffer, h.pos⟩

/-- The same character printed on both kernels. -/
lemma SameHere.putc (h : SameHere s a) (c : UInt8) : SameHere (s.putc c) (a.putc c) :=
  h.setPage (putcAt_same c h.page)

/-- The same character stored on both kernels. -/
lemma SameHere.putBuffer (h : SameHere s a) (c : UInt8) :
    SameHere (s.putBuffer c) (a.putBuffer c) := by
  have line := line_putBuffer s c
  have line' := line_putBuffer a c
  refine ⟨h.page, ?_, h.pos⟩
  have e : (s.putBuffer c).term.current.terminalBuffer = (s.line.put c).terminal :=
    congrArg Line.terminal line
  have e' : (a.putBuffer c).term.current.terminalBuffer = (a.line.put c).terminal :=
    congrArg Line.terminal line'
  rw [e, e']
  show Function.update a.term.current.terminalBuffer a.kbd.bufferPosition c
    = Function.update s.term.current.terminalBuffer s.kbd.bufferPosition c
  rw [h.terminalBuffer, h.pos]

/-- The same position set on both kernels. -/
lemma SameHere.setPos (h : SameHere s a) (pos : Nat) :
    SameHere { s with kbd.bufferPosition := pos } { a with kbd.bufferPosition := pos } :=
  ⟨h.page, h.terminalBuffer, rfl⟩

/-- The same character typed on both kernels. -/
lemma SameHere.typeChar (h : SameHere s a) (c : UInt8) :
    SameHere (s.typeChar c) (a.typeChar c) := by
  rw [Kernel.typeChar, Kernel.typeChar, h.pos]
  split_ifs
  · have put := h.putBuffer c
    dsimp only
    rw [put.pos]
    exact (put.setPos _).putc c
  · exact h

/-- A character erased on both kernels. -/
lemma SameHere.backspaceHandler (h : SameHere s a) :
    SameHere s.backspaceHandler a.backspaceHandler := by
  have x : a.page.x = s.page.x := h.page.x
  have y : a.page.y = s.page.y := h.page.y
  have origin : (a.screen.screenX = 0 ∧ a.screen.screenY = 0)
      ↔ (s.screen.screenX = 0 ∧ s.screen.screenY = 0) := by
    show (a.page.x = 0 ∧ a.page.y = 0) ↔ (s.page.x = 0 ∧ s.page.y = 0)
    rw [x, y]
  rw [Kernel.backspaceHandler, Kernel.backspaceHandler]
  by_cases ho : s.screen.screenX = 0 ∧ s.screen.screenY = 0
  · rw [if_pos ho, if_pos (origin.mpr ho)]
    exact h
  · rw [if_neg ho, if_neg (mt origin.mp ho)]
    apply h.setPage
    rw [x, y]
    split_ifs
    · exact ⟨h.page.mem.update_both 32, rfl, rfl⟩
    · exact ⟨h.page.mem.update_both 32, rfl, rfl⟩

/-- Both screens cleaned. -/
lemma SameHere.cleanScreen (h : SameHere s a) : SameHere s.cleanScreen a.cleanScreen := by
  have blank : Page.Same videoMem { mem := blankRows videoMem s.mem, x := 0, y := 0 }
      { mem := blankRows videoMem a.mem, x := 0, y := 0 } :=
    ⟨sameCells_iff.mp (blankRows_both (sameCells_iff.mpr h.page.mem)), rfl, rfl⟩
  exact h.setPage blank

/-- The loop of `clean_buffer` never looks at the screen. -/
lemma screen_cleanBuffer (s : Kernel) :
    s.cleanBuffer.screen = s.screen ∧ s.cleanBuffer.mem = s.mem := by
  have loop (l : List Nat) (s : Kernel) : (l.foldl Kernel.cleanIndex s).screen = s.screen
      ∧ (l.foldl Kernel.cleanIndex s).mem = s.mem := by
    induction l generalizing s with
    | nil => exact ⟨rfl, rfl⟩
    | cons i l ih => exact ih (s.cleanIndex i)
  have indices : s.cleanIndices.screen = s.screen ∧ s.cleanIndices.mem = s.mem := by
    unfold Kernel.cleanIndices
    exact loop _ s
  have reset (t : Kernel) : { t with kbd.bufferPosition := 0 }.screen = t.screen
      ∧ { t with kbd.bufferPosition := 0 }.mem = t.mem := ⟨rfl, rfl⟩
  rw [Kernel.cleanBuffer, (reset s.cleanIndices).1, (reset s.cleanIndices).2]
  exact indices

/-- `clean_buffer` leaves the page. -/
lemma page_cleanBuffer (s : Kernel) : s.cleanBuffer.page = s.page := by
  obtain ⟨screen, mem⟩ := screen_cleanBuffer s
  rw [Kernel.page, Kernel.page, screen, mem]

/-- Both buffers cleaned. -/
lemma SameHere.cleanBuffer (h : SameHere s a) : SameHere s.cleanBuffer a.cleanBuffer := by
  have line := line_cleanBuffer s
  have line' := line_cleanBuffer a
  rw [Kernel.line] at line line'
  obtain ⟨-, tb, pos⟩ := Line.mk.inj line
  obtain ⟨-, tb', pos'⟩ := Line.mk.inj line'
  refine ⟨?_, ?_, pos'.trans pos.symm⟩
  · rw [page_cleanBuffer, page_cleanBuffer]
    exact h.page
  · rw [tb, tb']
    exact congrArg Line.wipe h.terminalBuffer

/-- What a key does to the current terminal only depends on what that terminal shows and holds. -/
theorem SameHere.press (h : SameHere s a) (k : Key) : SameHere (s.press k) (a.press k) := by
  cases k with
  | mods md => exact ⟨h.page, h.terminalBuffer, h.pos⟩
  | backspace =>
      show SameHere (if s.kbd.bufferPosition > 0 then
          { s with kbd.bufferPosition := s.kbd.bufferPosition - 1 }.backspaceHandler else s)
        (if a.kbd.bufferPosition > 0 then
          { a with kbd.bufferPosition := a.kbd.bufferPosition - 1 }.backspaceHandler else a)
      rw [h.pos]
      split_ifs
      · exact (h.setPos _).backspaceHandler
      · exact h
  | tab => exact (((h.typeChar 32).typeChar 32).typeChar 32).typeChar 32
  | switch t => exact h
  | clear => exact h.cleanScreen.cleanBuffer
  | enter => exact (h.putBuffer 10).putc 10
  | type c => exact h.typeChar c
  | ignored => exact h

/-- A typed character keeps terminal and keyboard in step. -/
lemma synced_typeChar (h : s.Synced) (c : UInt8) : (s.typeChar c).Synced := by
  rw [Kernel.typeChar]
  split_ifs
  · exact rfl
  · exact h

/-- Every key that moves the cursor updates the display's. -/
lemma Kernel.Synced.press (h : s.Synced) (k : Key) : (s.press k).Synced := by
  cases k with
  | mods md => exact h
  | backspace =>
      show Kernel.Synced (if s.kbd.bufferPosition > 0 then
        { s with kbd.bufferPosition := s.kbd.bufferPosition - 1 }.backspaceHandler else s)
      split_ifs
      · rw [Kernel.backspaceHandler]
        split_ifs
        · exact h
        · exact rfl
      · exact h
  | tab => exact synced_typeChar (synced_typeChar (synced_typeChar (synced_typeChar h 32) 32) 32) 32
  | switch t => exact h
  | clear =>
      show s.cleanScreen.cleanBuffer.Synced
      rw [Kernel.Synced, (screen_cleanBuffer s.cleanScreen).1]
      exact rfl
  | enter => exact rfl
  | type c => exact synced_typeChar h c
  | ignored => exact h

end Keys

/-! ## Switches and program starts -/

section Switch

variable {s s' : Kernel} {t u : Nat}

/-- A change of terminals copies two pages. -/
lemma mem_changeTerminal (hb : s.display.Ok) (hu : u ≠ s.term.currentTerminalId) :
    (s.changeTerminal u).mem
      = (s.mem.blit (videoBuffer s.term.currentTerminalId) videoMem fourKb).blit
      videoMem (videoBuffer u) fourKb := by
  have here : (s.term.terminalArray s.term.currentTerminalId).videoBufferAddr
      = videoBuffer s.term.currentTerminalId := hb.base _
  have there : (s.term.terminalArray u).videoBufferAddr = videoBuffer u := hb.base u
  simp only [Kernel.changeTerminal, Kernel.restoreTerminal, Kernel.saveTerminal,
    Kernel.cleanKeyboardBuffer, Kernel.updateCursor, Kernel.giveBufPos, Term.setTerminal,
    Function.update_of_ne hu, here, there]

/-- `save_terminal` and `restore_terminal` move panes between their places and change none. -/
theorem pane_changeTerminal (hb : s.display.Ok) (hu : u ≠ s.term.currentTerminalId) (t : Nat) :
    (s.changeTerminal u).pane t = s.pane t := by
  have mem := mem_changeTerminal hb hu
  have current : (s.changeTerminal u).term.currentTerminalId = u := rfl
  by_cases htu : t = u
  · -- the terminal that becomes current is copied to the screen
    subst htu
    have cells : (fun k : Fin 4096 => (s.changeTerminal t).mem (videoMem + k))
        = fun k : Fin 4096 => s.mem (videoBuffer t + k) := by
      funext k
      have := k.isLt
      rw [mem, Mem.blit_at (by rw [fourKb]; omega), Mem.blit_frame]
      simp only [videoBuffer, fourKb]
      omega
    obtain ⟨x, y, pos⟩ := changeTerminal_visible hu
    have entry := changeTerminal_other t hu
    rw [pane_current current.symm, pane_parked hu, cells, x, y, pos, Term.current, current, entry]
  · by_cases htc : t = s.term.currentTerminalId
    · -- the screen is copied to the video buffer of the terminal that is left
      subst htc
      have cells : (fun k : Fin 4096 =>
          (s.changeTerminal u).mem (videoBuffer s.term.currentTerminalId + k))
          = fun k : Fin 4096 => s.mem (videoMem + k) := by
        funext k
        have := k.isLt
        rw [mem, Mem.blit_frame, Mem.blit_at (by rw [fourKb]; omega)]
        simp only [videoBuffer, videoMem, fourKb]
        omega
      rw [pane_parked htu, pane_current rfl, cells, changeTerminal_left]
    · have cells : (fun k : Fin 4096 => (s.changeTerminal u).mem (videoBuffer t + k))
          = fun k : Fin 4096 => s.mem (videoBuffer t + k) := by
        funext k
        have := k.isLt
        rw [mem, Mem.blit_frame, Mem.blit_frame]
        · simp only [videoBuffer, fourKb]
          omega
        · simp only [videoBuffer, videoMem, fourKb]
          omega
      rw [pane_parked htu, pane_parked htc, cells, changeTerminal_other u htc]

/-- After a change the terminal is in step with the keyboard. -/
lemma synced_changeTerminal (s : Kernel) (u : Nat) : (s.changeTerminal u).Synced := rfl

/-- A program start draws nothing and moves no cursor. -/
lemma pane_execute (hp : UserPages s.paging) {fr : Frame} {command : Option (List UInt8)}
    {pid : Int} {eip : Nat} (run : s.execute fr command = some (s', .user pid eip)) (ht : t < 3) :
    s'.pane t = s.pane t := by
  obtain ⟨low, -, kbd, screen, -, -, -, term⟩ := execute_user_frame hp run
  have current : s'.term.currentTerminalId = s.term.currentTerminalId := by
    rw [term]
    rfl
  have visible : (fun k : Fin 4096 => s'.mem (videoMem + k))
      = fun k : Fin 4096 => s.mem (videoMem + k) := by
    funext k
    have := k.isLt
    exact low _ (by simp only [Low, videoMem]; omega)
  have buffer : (fun k : Fin 4096 => s'.mem (videoBuffer t + k))
      = fun k : Fin 4096 => s.mem (videoBuffer t + k) := by
    funext k
    have := k.isLt
    exact low _ (by simp only [Low, videoBuffer, fourKb]; omega)
  by_cases htc : t = s.term.currentTerminalId
  · have entry : s'.term.current = { s.term.current with currentProcessId := pid } := by
      rw [term]
      exact Kernel.current_setTerminal ..
    rw [pane_current (htc.trans current.symm), pane_current htc, visible, screen, kbd, entry]
  · have entry : s'.term.terminalArray t = s.term.terminalArray t := by
      rw [term]
      exact Function.update_of_ne htc ..
    rw [pane_parked (current.symm ▸ htc), pane_parked htc, buffer, entry]

end Switch

end Kernel391
