import Kernel391.Base.Logged
import Kernel391.Terminal.Typing

/-!
# Keyboard buffers

The functions that store in `keyboard_buffer` and in a `terminal_buffer`, each with a log of the
indices it stores at. With the invariant of `Typing`, and the saved positions beside it, every index
is inside the buffers, and the newline `check_enter` sees stands in both.
-/

namespace Kernel391
open Base

/-- A keyboard interrupt, a switch, a read that completes, or one of the two cleaning functions. -/
inductive BufferCall where
  | keyboardIrq (fr : Frame) (scancode : UInt8)
  | terminalSwitch (fr : Frame) (t : Fin 3)
  | cleanBuffer
  | cleanKeyboardBuffer
  | terminalRead (buf : Nat) (nbytes : Int)

/-- A call that completes. -/
def BufferCall.step (s : Kernel) : BufferCall → Option Kernel
  | .keyboardIrq fr scancode => s.handleKeyboardIrq fr scancode
  | .terminalSwitch fr t => (s.terminalSwitch fr t).map Prod.fst
  | .cleanBuffer => some s.cleanBuffer
  | .cleanKeyboardBuffer => some s.cleanKeyboardBuffer
  | .terminalRead buf nbytes => (s.terminalRead buf nbytes).map fun r => r.2.2

/-- The position of terminal `t` in its line: `buffer_position` while it is current, else the saved
one. -/
def Kernel.linePosition (s : Kernel) (t : Nat) : Nat :=
  if t = s.term.currentTerminalId then s.kbd.bufferPosition else (s.term.terminalArray t).bufPos

/-! ## Logged calls -/

namespace Kernel

/-- The two stores of a character, and their index. -/
def logPutBuffer (x : Kernel × List Nat) (c : UInt8) : Kernel × List Nat :=
  (x.1.putBuffer c, x.1.kbd.bufferPosition :: x.2)

/-- The loop of `clean_buffer`, and the indices it stores at. -/
@[irreducible] def logCleanIndices (x : Kernel × List Nat) : Kernel × List Nat :=
  (List.range 128).foldl (fun x i => (x.1.cleanIndex i, i :: x.2)) x

/-- `clean_buffer`, and the indices it stores at. -/
def logCleanBuffer (x : Kernel × List Nat) : Kernel × List Nat :=
  let r := logCleanIndices x
  ({ r.1 with kbd.bufferPosition := 0 }, r.2)

/-- The loop of `clean_keyboard_buffer`, and the indices it stores at. -/
@[irreducible] def logZeroBuffer (x : (Nat → UInt8) × List Nat) : (Nat → UInt8) × List Nat :=
  (List.range 128).foldl (fun x i => (Function.update x.1 i 0, i :: x.2)) x

/-- `clean_keyboard_buffer`, and the indices it stores at. -/
def logCleanKeyboardBuffer (x : Kernel × List Nat) : Kernel × List Nat :=
  let r := logZeroBuffer (x.1.kbd.keyboardBuffer, x.2)
  ({ x.1 with kbd := { x.1.kbd with keyboardBuffer := r.1, bufferPosition := 0 } }, r.2)

/-- A character at the end of the line, and the index it is stored at. -/
def logTypeChar (x : Kernel × List Nat) (c : UInt8) : Kernel × List Nat :=
  if x.1.kbd.bufferPosition < maxBufferSize then
    let r := logPutBuffer x c
    ({ r.1 with kbd.bufferPosition := r.1.kbd.bufferPosition + 1 }.putc c, r.2)
  else x

/-- What a key that is no switch does, and the indices it stores at. -/
def logPress (x : Kernel × List Nat) : Key → Kernel × List Nat
  | .tab => logTypeChar (logTypeChar (logTypeChar (logTypeChar x 32) 32) 32) 32
  | .clear => logCleanBuffer (x.1.cleanScreen, x.2)
  | .enter =>
    let r := logPutBuffer x 10
    (r.1.putc 10, r.2)
  | .type c => logTypeChar x c
  | k => (x.1.press k, x.2)

/-- `save_terminal`, and the indices it stores at. -/
def logSaveTerminal (x : Kernel × List Nat) (tid : Nat) : Kernel × List Nat :=
  let s := x.1
  let e := s.term.terminalArray tid
  let e :=
    { e with
      screenCursorX := s.screen.screenX
      screenCursorY := s.screen.screenY
      bufPos := s.kbd.bufferPosition
      currentProcessId := s.proc.curPid }
  let s :=
    { s with
      mem := s.mem.blit e.videoBufferAddr videoMem fourKb
      term := s.term.setTerminal tid e }
  logCleanKeyboardBuffer (s, x.2)

/-- `restore_terminal`, and the indices it stores at. -/
def logRestoreTerminal (x : Kernel × List Nat) (tid : Nat) : Kernel × List Nat :=
  let r := logCleanKeyboardBuffer x
  let s := r.1
  let e := s.term.terminalArray tid
  let s := { s with screen.screenX := e.screenCursorX, screen.screenY := e.screenCursorY }
  let s := s.updateCursor.giveBufPos e.bufPos
  let curPid := e.currentProcessId
  let s := { s with proc.curPid := curPid, proc.curProcessPtr := pcbAddr curPid }
  ({ s with mem := s.mem.blit videoMem e.videoBufferAddr fourKb }, r.2)

/-- The common statements of both branches of `terminal_switch`, and the indices they store at. -/
def logChangeTerminal (x : Kernel × List Nat) (newTerminalId : Nat) : Kernel × List Nat :=
  let r := logRestoreTerminal (logSaveTerminal x x.1.term.currentTerminalId) newTerminalId
  ({ r.1 with term.currentTerminalId := newTerminalId }, r.2)

/-- `terminal_switch`, and the indices it stores at; a shell it starts stores in no line buffer. -/
def logTerminalSwitch (fr : Frame) (x : Kernel × List Nat) (newTerminalId : Nat) :
    Option (Kernel × List Nat) :=
  if newTerminalId = x.1.term.currentTerminalId then some x
  else
    let r := logChangeTerminal x newTerminalId
    if (x.1.term.terminalArray newTerminalId).currentProcessId = -1 then
      (execute fr r.1 (some shellCommand)).map fun q => (q.1, r.2)
    else some r

/-- `handle_keyboard_irq`, and the indices it stores at. -/
def logKeyboardIrq (fr : Frame) (x : Kernel × List Nat) (scancode : UInt8) :
    Option (Kernel × List Nat) :=
  match x.1.kbd.mods.key scancode with
  | .switch t => logTerminalSwitch fr x t
  | k => some (logPress x k)

/-- `terminal_read`, and the indices it stores at; it stores in no line buffer before it cleans
both. -/
def logTerminalRead (x : Kernel × List Nat) (buf : Nat) (nbytes : Int) :
    Option (Kernel × List Nat) :=
  if buf = 0 then some x
  else if nbytes < 0 then some x
  else if nbytes ≥ 1024 then some x
  else if x.1.checkEnter = false then none
  else
    (copyLine x.1.term.current.terminalBuffer maxTerminalBufferSize 0).map fun _ =>
      let r := logCleanBuffer x
      ({ r.1 with
        term := r.1.term.setTerminal r.1.term.currentTerminalId
          { r.1.term.current with bufPos := 0 } }, r.2)

end Kernel

/-- A call that completes, and the indices it stores at. -/
def BufferCall.log (x : Kernel × List Nat) : BufferCall → Option (Kernel × List Nat)
  | .keyboardIrq fr scancode => Kernel.logKeyboardIrq fr x scancode
  | .terminalSwitch fr t => Kernel.logTerminalSwitch fr x t
  | .cleanBuffer => some (Kernel.logCleanBuffer x)
  | .cleanKeyboardBuffer => some (Kernel.logCleanKeyboardBuffer x)
  | .terminalRead buf nbytes => Kernel.logTerminalRead x buf nbytes

/-- The index is inside a line buffer. -/
def InBuffer (k : Nat) : Prop := k < 128

section Logs

variable {s' : Kernel} {x : Kernel × List Nat}

/-- A typed character is stored inside the buffers. -/
lemma logs_putBuffer (h : x.1.kbd.bufferPosition ≤ 127) (c : UInt8) :
    Logs InBuffer (Kernel.putBuffer · c) (Kernel.logPutBuffer · c) x := by
  refine ⟨rfl, fun k hk => ?_⟩
  rcases List.mem_cons.mp hk with rfl | old
  · exact .inr (Nat.lt_succ_of_le h)
  · exact .inl old

/-- A loop over the 128 places stores inside. -/
lemma logs_range {σ : Type} (f : σ → Nat → σ) (x : σ × List Nat) :
    Logs InBuffer ((List.range 128).foldl f ·)
      ((List.range 128).foldl (fun x i => (f x.1 i, i :: x.2)) ·) x := by
  apply Logs.foldl
  intro i hi x
  refine ⟨rfl, fun k hk => ?_⟩
  rcases List.mem_cons.mp hk with rfl | old
  · exact .inr (List.mem_range.mp hi)
  · exact .inl old

/-- `clean_buffer` stays inside the buffers. -/
lemma logs_cleanBuffer (x : Kernel × List Nat) :
    Logs InBuffer Kernel.cleanBuffer Kernel.logCleanBuffer x := by
  have loop : Logs InBuffer Kernel.cleanIndices Kernel.logCleanIndices x := by
    unfold Kernel.cleanIndices Kernel.logCleanIndices
    exact logs_range Kernel.cleanIndex x
  refine ⟨?_, loop.entries⟩
  rw [Kernel.logCleanBuffer, Kernel.cleanBuffer, ← loop.same]

/-- `clean_keyboard_buffer` stays inside the buffers. -/
lemma logs_cleanKeyboardBuffer (x : Kernel × List Nat) :
    Logs InBuffer Kernel.cleanKeyboardBuffer Kernel.logCleanKeyboardBuffer x := by
  have loop : Logs InBuffer Kernel.zeroBuffer Kernel.logZeroBuffer
      (x.1.kbd.keyboardBuffer, x.2) := by
    unfold Kernel.zeroBuffer Kernel.logZeroBuffer
    exact logs_range (fun kb i => Function.update kb i 0) _
  refine ⟨?_, loop.entries⟩
  rw [Kernel.logCleanKeyboardBuffer, Kernel.cleanKeyboardBuffer, ← loop.same]

/-- A typed character stays inside the buffers. -/
lemma logs_typeChar (x : Kernel × List Nat) (c : UInt8) :
    Logs InBuffer (Kernel.typeChar · c) (Kernel.logTypeChar · c) x := by
  by_cases room : x.1.kbd.bufferPosition < Kernel.maxBufferSize
  · have put := logs_putBuffer (x := x) (Nat.le_of_lt room) c
    refine ⟨?_, fun k hk => ?_⟩
    · show (Kernel.logTypeChar x c).1 = x.1.typeChar c
      rw [Kernel.logTypeChar, Kernel.typeChar, if_pos room, if_pos room]
      rfl
    · have hk : k ∈ (Kernel.logTypeChar x c).2 := hk
      rw [Kernel.logTypeChar, if_pos room] at hk
      exact put.entries k hk
  · refine ⟨?_, fun k hk => .inl ?_⟩
    · show (Kernel.logTypeChar x c).1 = x.1.typeChar c
      rw [Kernel.logTypeChar, Kernel.typeChar, if_neg room, if_neg room]
    · have hk : k ∈ (Kernel.logTypeChar x c).2 := hk
      rw [Kernel.logTypeChar, if_neg room] at hk
      exact hk

/-- A key stays inside the buffers. -/
lemma logs_press (h : x.1.kbd.bufferPosition ≤ 127) (k : Key) :
    Logs InBuffer (Kernel.press · k) (Kernel.logPress · k) x := by
  cases k with
  | tab =>
      have spaces := fun x => logs_typeChar x 32
      exact (((spaces x).comp (spaces _)).comp (spaces _)).comp (spaces _)
  | clear =>
      have screen : Logs InBuffer Kernel.cleanScreen _ x := .silent Kernel.cleanScreen x
      exact screen.comp (logs_cleanBuffer _)
  | enter =>
      have echo := Logs.silent (P := InBuffer) (Kernel.putc · 10) (Kernel.logPutBuffer x 10)
      exact (logs_putBuffer h 10).comp echo
  | type c => exact logs_typeChar x c
  | mods md => exact .silent (Kernel.press · (.mods md)) x
  | backspace => exact .silent (Kernel.press · .backspace) x
  | switch t => exact .silent (Kernel.press · (.switch t)) x
  | ignored => exact .silent (Kernel.press · .ignored) x

/-- `save_terminal` stays inside the buffers. -/
lemma logs_saveTerminal (x : Kernel × List Nat) (tid : Nat) :
    Logs InBuffer (Kernel.saveTerminal · tid) (Kernel.logSaveTerminal · tid) x := by
  have clean (s : Kernel) := logs_cleanKeyboardBuffer (s, x.2)
  exact ⟨(clean _).same, (clean _).entries⟩

/-- `restore_terminal` stays inside the buffers. -/
lemma logs_restoreTerminal (x : Kernel × List Nat) (tid : Nat) :
    Logs InBuffer (Kernel.restoreTerminal · tid) (Kernel.logRestoreTerminal · tid) x := by
  have clean := logs_cleanKeyboardBuffer x
  refine ⟨?_, clean.entries⟩
  show (Kernel.logRestoreTerminal x tid).1 = x.1.restoreTerminal tid
  rw [Kernel.logRestoreTerminal, Kernel.restoreTerminal, ← clean.same]

/-- A change of terminals stays inside the buffers. -/
lemma logs_changeTerminal (x : Kernel × List Nat) (u : Nat) :
    Logs InBuffer (Kernel.changeTerminal · u) (Kernel.logChangeTerminal · u) x := by
  have save := logs_saveTerminal x x.1.term.currentTerminalId
  have restore := logs_restoreTerminal (Kernel.logSaveTerminal x x.1.term.currentTerminalId) u
  refine ⟨?_, restore.after save.entries⟩
  show (Kernel.logChangeTerminal x u).1 = x.1.changeTerminal u
  rw [Kernel.logChangeTerminal, Kernel.changeTerminal, ← save.same, ← restore.same]

/-- `terminal_switch` stays inside the buffers. -/
lemma logsTo_terminalSwitch {fr : Frame} {u : Nat} {c : Control}
    (run : x.1.terminalSwitch fr u = some (s', c)) :
    LogsTo InBuffer x s' (Kernel.logTerminalSwitch fr x u) := by
  have change := logs_changeTerminal x u
  have moved : (Kernel.logChangeTerminal x u).1 = x.1.changeTerminal u := change.same
  rw [Kernel.logTerminalSwitch]
  rcases terminalSwitch_cases run with
    ⟨same, e⟩ | ⟨other, shell, e⟩ | ⟨other, none, -⟩
  · rw [if_pos same]
    cases e
    exact .refl
  · have shell : (x.1.term.terminalArray u).currentProcessId ≠ -1 := shell
    rw [if_neg other]
    dsimp only
    rw [if_neg shell]
    cases e
    exact change.to
  · have none : (x.1.term.terminalArray u).currentProcessId = -1 := none
    rw [if_neg other]
    dsimp only
    rw [if_pos none, moved]
    rw [Kernel.terminalSwitch, if_neg other, if_pos none] at run
    refine ⟨(Kernel.logChangeTerminal x u).2, ?_, change.entries⟩
    split at run
    · cases run
    next t v start =>
      cases run
      rw [start]
      rfl
    next t d _ start =>
      cases run
      rw [start]
      rfl

/-- A keyboard interrupt stays inside the buffers. -/
lemma logsTo_keyboardIrq {fr : Frame} {scancode : UInt8} (h : x.1.kbd.bufferPosition ≤ 127)
    (run : x.1.handleKeyboardIrq fr scancode = some s') :
    LogsTo InBuffer x s' (Kernel.logKeyboardIrq fr x scancode) := by
  rw [Kernel.logKeyboardIrq]
  rcases handleKeyboardIrq_cases run with ⟨u, c, key, switch⟩ | ⟨ne, rfl⟩
  · rw [key]
    exact logsTo_terminalSwitch switch
  · cases key : x.1.kbd.mods.key scancode with
    | switch u => exact absurd key (ne u)
    | _ => exact (logs_press h _).to

/-- `terminal_read` stays inside the buffers. -/
lemma logsTo_terminalRead {buf : Nat} {n r : Int} {bytes : List UInt8}
    (run : x.1.terminalRead buf n = some (r, bytes, s')) :
    LogsTo InBuffer x s' (Kernel.logTerminalRead x buf n) := by
  rw [Kernel.terminalRead] at run
  rw [Kernel.logTerminalRead]
  split_ifs at run ⊢
  · cases run
    exact .refl
  · cases run
    exact .refl
  · cases run
    exact .refl
  · obtain ⟨line, copied, e⟩ := Option.map_eq_some_iff.mp run
    cases e
    have clean := logs_cleanBuffer x
    refine ⟨(Kernel.logCleanBuffer x).2, ?_, clean.entries⟩
    rw [copied, Option.map_some]
    dsimp only
    rw [clean.same]
    rfl

/-- A call stores inside the buffers, as long as the position is inside. -/
lemma BufferCall.logsTo {c : BufferCall} (h : x.1.kbd.bufferPosition ≤ 127)
    (run : c.step x.1 = some s') : LogsTo InBuffer x s' (c.log x) := by
  cases c with
  | keyboardIrq fr scancode => exact logsTo_keyboardIrq h run
  | terminalSwitch fr t =>
      obtain ⟨c, switch⟩ := map_fst_eq_some run
      exact logsTo_terminalSwitch switch
  | cleanBuffer => cases run; exact (logs_cleanBuffer x).to
  | cleanKeyboardBuffer => cases run; exact (logs_cleanKeyboardBuffer x).to
  | terminalRead buf nbytes =>
      obtain ⟨⟨r, bytes, t⟩, read, e⟩ := Option.map_eq_some_iff.mp run
      cases e
      exact logsTo_terminalRead read

end Logs

/-- The line buffers are in order, and so are the saved positions. -/
structure Buffered (s : Kernel) : Prop where
  typing : Typing s
  saved : ∀ t, (s.term.terminalArray t).bufPos ≤ 127

section Runs

variable {s s' : Kernel}

/-- The position is inside the buffer. -/
lemma Typing.position (h : Typing s) : s.kbd.bufferPosition ≤ 127 := h.line.pos

/-- What works on the current terminal leaves the saved positions. -/
lemma WorksHere.bufPos (h : WorksHere s s') (t : Nat) :
    (s'.term.terminalArray t).bufPos = (s.term.terminalArray t).bufPos := by
  by_cases ht : t = s.term.currentTerminalId
  · have own := h.own
    rw [Term.current, Term.current, h.current, ← ht] at own
    rw [own]
  · rw [h.others t ht]

/-- What works on the current terminal keeps the positions, if its own is kept. -/
lemma Buffered.worksHere (h : Buffered s) (works : WorksHere s s') (ok : s'.line.Ok) :
    Buffered s' :=
  ⟨h.typing.worksHere works ok, fun t => works.bufPos t ▸ h.saved t⟩

/-- The saved positions after one was saved. -/
lemma bufPos_setTerminal {tm : Term} {t : Nat} {e : Terminal} (here : e.bufPos ≤ 127)
    (all : ∀ u, (tm.terminalArray u).bufPos ≤ 127) (u : Nat) :
    ((tm.setTerminal t e).terminalArray u).bufPos ≤ 127 := by
  by_cases hu : u = t
  · subst hu
    simp only [Term.setTerminal, Function.update_self]
    exact here
  · simp only [Term.setTerminal, Function.update_of_ne hu]
    exact all u

/-- A switch saves the position of the terminal it leaves. -/
lemma saved_changeTerminal (h : Buffered s) (u t : Nat) :
    ((s.changeTerminal u).term.terminalArray t).bufPos ≤ 127 := by
  by_cases ht : t = s.term.currentTerminalId
  · rw [ht, changeTerminal_left]
    exact h.typing.position
  · rw [changeTerminal_other u ht]
    exact h.saved t

/-- `terminal_switch` keeps the positions. -/
lemma Buffered.switch (h : Buffered s) {fr : Frame} {u : Fin 3} {c : Control}
    (run : s.terminalSwitch fr u = some (s', c)) : Buffered s' := by
  refine ⟨h.typing.switch run, fun t => ?_⟩
  have changed := saved_changeTerminal h u t
  rcases terminalSwitch_cases run with
    ⟨-, e⟩ | ⟨-, -, e⟩ | ⟨other, -, ⟨text, e⟩ | ⟨_, pid, eip, start, e⟩⟩
  · cases e
    exact h.saved t
  · cases e
    exact changed
  · cases e
    have works := worksHere_puts (h.typing.display.changeTerminal other).visible text
    exact works.bufPos t ▸ changed
  · cases e
    have pages : UserPages (s.changeTerminal u).paging := h.typing.pages
    obtain ⟨-, -, -, -, -, -, -, term⟩ := execute_user_frame pages start
    have own : (s.changeTerminal u).term.current.bufPos ≤ 127 := saved_changeTerminal h u _
    rw [term]
    apply bufPos_setTerminal _ (saved_changeTerminal h u)
    exact own

/-- `clean_buffer` keeps the positions. -/
lemma Buffered.cleanBuffer (h : Buffered s) : Buffered s.cleanBuffer :=
  h.worksHere (worksHere_cleanBuffer h.typing.display.visible) (line_cleanBuffer s ▸ .clear s.line)

/-- `clean_keyboard_buffer` leaves the terminal buffer, of which nothing is before the position. -/
lemma Buffered.cleanKeyboardBuffer (h : Buffered s) : Buffered s.cleanKeyboardBuffer := by
  apply h.worksHere (worksHere_setKbd h.typing.display.visible _)
  refine ⟨Nat.zero_le _, fun j hj => absurd hj (Nat.not_lt_zero j), fun j hj newline => ?_⟩
  have zero : Kernel.zeroBuffer s.kbd.keyboardBuffer j = 10 := newline
  rw [zeroBuffer_eq, Line.wipe_of_lt hj] at zero
  exact absurd zero (by decide)

/-- The end of a read keeps the positions. -/
lemma Buffered.finishRead (h : Buffered s) : Buffered s.finishRead := by
  refine ⟨h.typing.finishRead, fun t => ?_⟩
  exact bufPos_setTerminal (Nat.zero_le _) h.cleanBuffer.saved t

/-- Every call keeps the line buffers in order. -/
lemma Buffered.step {c : BufferCall} (h : Buffered s) (run : c.step s = some s') : Buffered s' := by
  cases c with
  | keyboardIrq fr scancode =>
      have typing := h.typing.handleKeyboardIrq (e := ⟨fr, scancode⟩) run
      rcases handleKeyboardIrq_cases run with ⟨u, c, -, switch⟩ | ⟨-, rfl⟩
      · exact h.switch switch
      · have works := worksHere_press h.typing.display.visible (s.kbd.mods.key scancode)
        exact ⟨typing, fun t => works.bufPos t ▸ h.saved t⟩
  | terminalSwitch fr t =>
      obtain ⟨c, switch⟩ := map_fst_eq_some run
      exact h.switch switch
  | cleanBuffer => cases run; exact h.cleanBuffer
  | cleanKeyboardBuffer => cases run; exact h.cleanKeyboardBuffer
  | terminalRead buf nbytes =>
      obtain ⟨⟨r, bytes, t⟩, read, e⟩ := Option.map_eq_some_iff.mp run
      cases e
      rcases terminalRead_cases read with ⟨-, -, same⟩ | ⟨-, -, same, -⟩
      · rw [same]
        exact h
      · rw [same]
        exact h.finishRead

/-- The positions of the first shell. -/
lemma buffered_bootShell {fr : Frame} {b : BootInfo} (h : bootShell fr b = some s) :
    Buffered s := by
  refine ⟨typing_bootShell h, fun t => ?_⟩
  obtain ⟨pid, eip, start⟩ := bootShell_spec h
  obtain ⟨-, -, -, -, -, -, -, term⟩ := execute_user_frame (UserPages.boot b) start
  rw [term]
  exact bufPos_setTerminal (Nat.zero_le _) (fun _ => Nat.zero_le _) t

/-- Nothing before a terminal's position is a newline. -/
lemma Typing.no_newline (h : Typing s) (t : Fin 3) {j : Nat} (hj : j < s.linePosition t) :
    (s.term.terminalArray t).terminalBuffer j ≠ 10 := by
  have ok := h.pane t
  rw [Kernel.linePosition] at hj
  by_cases ht : (t : Nat) = s.term.currentTerminalId
  · rw [if_pos ht] at hj
    rw [pane_current ht] at ok
    rw [ht]
    exact ok.before j hj
  · rw [if_neg ht] at hj
    rw [pane_parked ht] at ok
    exact ok.before j hj

end Runs

/-- **Keyboard buffers.** Through any interrupts, switches, cleanings and completed reads, from boot
or from the boot shell, the position and all saved positions stay below 128, no terminal has a
newline before its position, the newline `check_enter` sees is also in the terminal buffer, and
every store in a line buffer has an index below 128. -/
theorem buffers_in_bounds (fr : Frame) (b : BootInfo) (s s' : Kernel) (cs : List BufferCall)
    (start : s = Kernel.boot b ∨ bootShell fr b = some s)
    (run : runs BufferCall.step s cs = some s') :
    s'.kbd.bufferPosition < 128 ∧ (∀ t, (s'.term.terminalArray t).bufPos < 128) ∧
    (∀ t : Fin 3, ∀ j < s'.linePosition t, (s'.term.terminalArray t).terminalBuffer j ≠ 10) ∧
    (s'.checkEnter = true → s'.term.current.terminalBuffer s'.kbd.bufferPosition = 10) ∧
    ∃ indices, runs BufferCall.log (s, []) cs = some (s', indices) ∧ ∀ k ∈ indices, k < 128 := by
  have begin : Buffered s := by
    rcases start with rfl | shell
    · exact ⟨typing_boot b, fun t => Nat.zero_le _⟩
    · exact buffered_bootShell shell
  obtain ⟨buffered, indices, logged, inside⟩ := logsTo_runs (P := InBuffer) (x := (s, [])) Buffered
    (fun x c s' h step => ⟨h.step step, BufferCall.logsTo h.typing.position step⟩) begin run
  have position := buffered.typing.position
  refine ⟨Nat.lt_succ_of_le position, fun t => Nat.lt_succ_of_le (buffered.saved t),
    fun t j hj => buffered.typing.no_newline t hj, fun enter => ?_, indices, logged, fun k hk => ?_⟩
  · have newline : s'.kbd.keyboardBuffer s'.kbd.bufferPosition = 10 := beq_iff_eq.mp enter
    exact buffered.typing.newline _ (Nat.lt_succ_of_le position) newline
  · exact (inside k hk).resolve_left List.not_mem_nil

/-- A key, Alt+F2 and Enter on the second terminal, whose line is then read. -/
theorem buffers_in_bounds_sample : ∃ s', runs BufferCall.step (Kernel.boot sampleBoot)
      [.keyboardIrq sampleFrame 0x1E, .keyboardIrq sampleFrame 0x38, .keyboardIrq sampleFrame 0x3C,
        .keyboardIrq sampleFrame 0x1C, .terminalRead 0x08048000 100,
          .cleanKeyboardBuffer] = some s' ∧
    s'.kbd.bufferPosition < 128 := by
  have completes : (runs BufferCall.step (Kernel.boot sampleBoot)
      [.keyboardIrq sampleFrame 0x1E, .keyboardIrq sampleFrame 0x38, .keyboardIrq sampleFrame 0x3C,
        .keyboardIrq sampleFrame 0x1C, .terminalRead 0x08048000 100,
        .cleanKeyboardBuffer]).isSome = true := by
    decide +kernel
  obtain ⟨s', run⟩ := Option.isSome_iff_exists.mp completes
  exact ⟨s', run, (buffers_in_bounds sampleFrame sampleBoot _ s' _ (.inl rfl) run).1⟩

end Kernel391
