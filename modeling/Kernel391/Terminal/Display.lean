import Kernel391.Process.System
import Kernel391.Terminal.Page

/-!
# The display view

Where output goes is governed by the visible cursor and, for each terminal, its saved cursor and the
address of its video buffer. `display` is that part of the state. Console output moves one cursor
and keeps it on its page; a switch exchanges the visible cursor with a saved one; nothing else
changes it.
-/

namespace Kernel391
open Base

/-- A saved cursor and the page it is on. -/
structure SavedCursor where
  x : Nat
  y : Nat
  base : Nat

/-- The cursors and the addresses of the video buffers. -/
structure Display where
  x : Nat
  y : Nat
  saved : Nat → SavedCursor

/-- The display view of a state. -/
def Kernel.display (s : Kernel) : Display where
  x := s.screen.screenX
  y := s.screen.screenY
  saved t :=
    let e := s.term.terminalArray t
    ⟨e.screenCursorX, e.screenCursorY, e.videoBufferAddr⟩

/-- Every cursor is on its page, and every terminal has its own page. -/
structure Display.Ok (d : Display) : Prop where
  visible : Fits d.x d.y
  saved : ∀ t, Fits (d.saved t).x (d.saved t).y
  base : ∀ t, (d.saved t).base = videoBuffer t

section Frames

variable {s s' : Kernel} {fr : Frame} {r : Int}

/-- The cursors depend on the parts they are in. -/
lemma display_congr (hx : s'.screen.screenX = s.screen.screenX)
    (hy : s'.screen.screenY = s.screen.screenY) (hs : s'.display.saved = s.display.saved) :
    s'.display = s.display := by
  have e : s'.display = ⟨s'.screen.screenX, s'.screen.screenY, s'.display.saved⟩ := rfl
  rw [e, hx, hy, hs]
  rfl

/-- Replacing a terminal by one with the same saved cursor. -/
lemma display_setTerminal (s : Kernel) {t : Nat} {e : Terminal}
    (hx : e.screenCursorX = (s.term.terminalArray t).screenCursorX)
    (hy : e.screenCursorY = (s.term.terminalArray t).screenCursorY)
    (hb : e.videoBufferAddr = (s.term.terminalArray t).videoBufferAddr) :
    { s with term := s.term.setTerminal t e }.display = s.display := by
  refine display_congr rfl rfl ?_
  funext u
  by_cases hu : u = t
  · subst hu
    simp only [Kernel.display, Term.setTerminal, Function.update_self, hx, hy, hb]
  · simp only [Kernel.display, Term.setTerminal, Function.update_of_ne hu]

/-- `read_to_cur_terminal_buffer` moves no cursor. -/
lemma display_readToCurTerminalBuffer (s : Kernel) (i : Nat) (c : UInt8) :
    (s.readToCurTerminalBuffer i c).display = s.display :=
  display_setTerminal s rfl rfl rfl

/-- `clean_buffer` moves no cursor. -/
lemma display_cleanBuffer (s : Kernel) : s.cleanBuffer.display = s.display := by
  have h : s.cleanIndices.display = s.display := by
    unfold Kernel.cleanIndices
    apply foldl_keeps Kernel.display
    intro s i
    rw [Kernel.cleanIndex]
    exact display_readToCurTerminalBuffer ..
  exact h

/-- `terminal_close` moves no cursor. -/
lemma display_terminalClose (s : Kernel) : s.terminalClose.display = s.display := by
  have h (t : Kernel) : t.cleanTerminalBuffer.display = t.display := by
    unfold Kernel.cleanTerminalBuffer
    apply foldl_keeps Kernel.display
    intro s i
    exact display_readToCurTerminalBuffer ..
  exact (h s.cleanBuffer).trans (display_cleanBuffer s)

/-- The end of a read moves no cursor. -/
lemma display_finishRead (s : Kernel) : s.finishRead.display = s.display := by
  have h (t : Kernel) : { t with
      term := t.term.setTerminal t.term.currentTerminalId
        { t.term.current with bufPos := 0 } }.display
      = t.display := display_setTerminal t rfl rfl rfl
  exact (h s.cleanBuffer).trans (display_cleanBuffer s)

/-- `open` moves no cursor. -/
lemma display_open {filename : Option (List UInt8)}
    (run : s.sysOpen fr filename = some (s', r)) : s'.display = s.display := by
  rcases sysOpen_cases run with
    ⟨rfl, -⟩ | ⟨name, ret, st, d, counter, t, ret', -, -, -, -, -, -, ht, rfl, -⟩
  · rfl
  rcases tableOpen_cases ht with ⟨-, st', -, rfl⟩ | ⟨-, -, -, a, freq, rfl⟩ <;> rfl

/-- `close` moves no cursor. -/
lemma display_close {i : Int} (run : s.sysClose i = some (s', r)) : s'.display = s.display := by
  rcases sysClose_cases run with ⟨rfl, -⟩ | ⟨fd, -, -, -, -, -, rfl | rfl⟩
  · rfl
  · rfl
  · exact display_terminalClose _

/-- The loop of `halt` over the descriptors moves no cursor. -/
lemma display_closeFrom {k i : Nat} (run : Kernel.closeFrom k i s = some s') :
    s'.display = s.display :=
  closeFrom_rel (fun a b => b.display = a.display) (fun _ => rfl)
    (fun _ _ _ h h' => h'.trans h) (fun _ _ _ _ close => display_close close) run

/-- Clearing the descriptors moves no cursor. -/
lemma display_clearFd {i : Nat} (run : s.clearFd i = some s') : s'.display = s.display := by
  obtain ⟨⟨t, r⟩, hx, e⟩ := Option.map_eq_some_iff.mp run
  cases e
  exact (display_close hx).trans rfl

/-- `read` moves no cursor. -/
lemma display_read {fd buf n : BitVec 32} (run : s.sysRead fd buf n = some (s', r)) :
    s'.display = s.display := by
  obtain ⟨res, m, hres, -, rfl⟩ := sysRead_spec run
  have same : { res.after with mem := m }.display = res.after.display := rfl
  rw [same]
  rcases readResult_cases hres with rfl | ⟨-, ht | ⟨p, a, i, -, after⟩⟩
  · rfl
  · rcases terminalRead_cases ht with ⟨-, -, e⟩ | ⟨-, -, e, -⟩
    · rw [e]
    · rw [e]
      exact display_finishRead s
  · rw [after]
    rfl

/-- `getargs` moves no cursor. -/
lemma display_getargs {buf n : BitVec 32} (run : s.getargs buf n = some (s', r)) :
    s'.display = s.display := by
  obtain ⟨res, m, hres, -, rfl⟩ := getargs_spec run
  have same : { res.after with mem := m }.display = res.after.display := rfl
  rw [same, (getargsResult_cases hres).1]

/-- Starting a program draws nothing. -/
lemma display_startProcess (s : Kernel) (fr : Frame) (arg : List UInt8) :
    (s.startProcess fr arg).display = s.display := by
  have init : (s.initializePCB.setArg arg).display = s.display := by
    refine display_congr rfl rfl ?_
    funext u
    by_cases hu : u = s.term.currentTerminalId
    · subst hu
      simp only [Kernel.display, Kernel.setArg, Kernel.initializePCB, Term.setTerminal,
        Term.current, Function.update_self]
    · simp only [Kernel.display, Kernel.setArg, Kernel.initializePCB, Term.setTerminal,
        Function.update_of_ne hu]
  obtain ⟨pcbs, hs, -⟩ := saveParent_spec (s.initializePCB.setArg arg) fr
  rw [Kernel.startProcess, hs]
  exact init

/-- An `execute` that starts a process moves no cursor. -/
lemma display_execute_user {command : Option (List UInt8)} {pid : Int} {eip : Nat}
    (run : s.execute fr command = some (s', .user pid eip)) : s'.display = s.display := by
  obtain ⟨line, inode, loaded, -, -, -, -, -, hl, rfl, -⟩ := execute_user run
  obtain ⟨_, m, -, rfl⟩ := loadFile_some hl
  exact display_startProcess ..

/-- A return to the parent moves no cursor. -/
lemma display_returnToParent {parentpid : Int} {status : UInt8} {c : Control}
    (run : s.returnToParent parentpid status = some (s', c)) : s'.display = s.display := by
  obtain ⟨-, s₁, s₂, s₃, h₁, h₂, h₃, e⟩ := returnToParent_steps run
  cases e
  have h := display_closeFrom h₁
  exact ((display_clearFd h₃).trans (display_clearFd h₂)).trans h

end Frames

section Switch

variable {s : Kernel} {t u : Nat}

/-- A switch saves the cursor, the position and the process of the terminal it leaves. -/
lemma changeTerminal_left (s : Kernel) (t : Nat) :
    (s.changeTerminal t).term.terminalArray s.term.currentTerminalId
      = { s.term.current with
          screenCursorX := s.screen.screenX
          screenCursorY := s.screen.screenY
          bufPos := s.kbd.bufferPosition
          currentProcessId := s.proc.curPid } := Function.update_self ..

/-- A change of terminals leaves what other terminals have saved. -/
lemma changeTerminal_other (t : Nat) (hu : u ≠ s.term.currentTerminalId) :
    (s.changeTerminal t).term.terminalArray u = s.term.terminalArray u :=
  Function.update_of_ne hu ..

/-- A switch takes the cursor and the position over from the terminal it goes to. -/
lemma changeTerminal_visible (ht : t ≠ s.term.currentTerminalId) :
    (s.changeTerminal t).screen.screenX = (s.term.terminalArray t).screenCursorX ∧
      (s.changeTerminal t).screen.screenY = (s.term.terminalArray t).screenCursorY ∧
      (s.changeTerminal t).kbd.bufferPosition = (s.term.terminalArray t).bufPos := by
  simp only [Kernel.changeTerminal, Kernel.restoreTerminal, Kernel.saveTerminal,
    Kernel.cleanKeyboardBuffer, Kernel.updateCursor, Kernel.giveBufPos, Term.setTerminal,
    Function.update_of_ne ht, and_self]

end Switch

section Output

variable {s s' : Kernel} {fr : Frame} {r : Int}

/-- `putc` keeps the cursors on the screen. -/
lemma Display.Ok.putc (h : s.display.Ok) (c : UInt8) : (s.putc c).display.Ok :=
  ⟨(putcAt_spec videoMem s.page c h.visible).1, h.saved, h.base⟩

/-- `puts` keeps the cursors on the screen. -/
lemma Display.Ok.puts (h : s.display.Ok) (text : List UInt8) : (s.puts text).display.Ok := by
  rw [Kernel.puts]
  induction text generalizing s with
  | nil => exact h
  | cons c text ih => exact ih (h.putc c)

/-- `putc_term` keeps the cursors on the screen. -/
lemma Display.Ok.putcTerm (h : s.display.Ok) (c : UInt8) (t : Nat) :
    (s.putcTerm c t).display.Ok := by
  have fits := (putcAt_spec (s.term.terminalArray t).videoBufferAddr (s.savedPage t) c
    (h.saved t)).1
  refine ⟨h.visible, fun u => ?_, fun u => ?_⟩
  · by_cases hu : u = t
    · subst hu
      simp only [Kernel.display, Kernel.putcTerm, Kernel.setSavedPage, Term.setTerminal,
        Function.update_self]
      exact fits
    · simp only [Kernel.display, Kernel.putcTerm, Kernel.setSavedPage, Term.setTerminal,
        Function.update_of_ne hu]
      exact h.saved u
  · by_cases hu : u = t
    · subst hu
      simp only [Kernel.display, Kernel.putcTerm, Kernel.setSavedPage, Term.setTerminal,
        Function.update_self]
      exact h.base u
    · simp only [Kernel.display, Kernel.putcTerm, Kernel.setSavedPage, Term.setTerminal,
        Function.update_of_ne hu]
      exact h.base u

/-- A change of terminals keeps the cursors on the screen. -/
lemma Display.Ok.changeTerminal (h : s.display.Ok) {t : Nat} (ht : t ≠ s.term.currentTerminalId) :
    (s.changeTerminal t).display.Ok := by
  obtain ⟨hx, hy, -⟩ := changeTerminal_visible ht
  refine ⟨?_, fun u => ?_, fun u => ?_⟩
  · show Fits (s.changeTerminal t).screen.screenX (s.changeTerminal t).screen.screenY
    rw [hx, hy]
    exact h.saved t
  · show Fits ((s.changeTerminal t).term.terminalArray u).screenCursorX
      ((s.changeTerminal t).term.terminalArray u).screenCursorY
    by_cases hu : u = s.term.currentTerminalId
    · rw [hu, changeTerminal_left]
      exact h.visible
    · rw [changeTerminal_other t hu]
      exact h.saved u
  · show ((s.changeTerminal t).term.terminalArray u).videoBufferAddr = videoBuffer u
    by_cases hu : u = s.term.currentTerminalId
    · rw [hu, changeTerminal_left]
      exact h.base _
    · rw [changeTerminal_other t hu]
      exact h.base u

/-- `terminal_write` keeps the cursors on the screen. -/
lemma Display.Ok.terminalWrite (h : s.display.Ok) {buf : Nat} {n : Int}
    (run : s.terminalWrite buf n = some (r, s')) : s'.display.Ok :=
  terminalWrite_inv (P := fun t => t.display.Ok) h (fun _ _ c ok => ok.putc c)
    (fun _ _ c ok => ok.putcTerm c _) run

end Output

section Steps

variable {s s' : Kernel} {fr : Frame} {r : Int}

/-- Everything `write` can do: nothing, set the frequency of the rtc, or print on the terminal. -/
lemma sysWrite_cases {fd buf n : BitVec 32} (run : s.sysWrite fd buf n = some (s', r)) :
    s' = s ∨ s' = { s with rtc.rtcFreq := 2 } ∨
      ((userBuffer buf n ∧ fd.toNat < 7 ∧ fd.toNat ≠ 0 ∧ (s.proc.fd fd.toNat).flags ≠ 0 ∧
        (s.proc.fd fd.toNat).fileotPointer = 3) ∧
        s.terminalWrite buf.toNat n.toInt = some (r, s')) := by
  rw [Kernel.sysWrite] at run
  split at run
  · cases run; exact .inl rfl
  next hb =>
  split at run
  · cases run; exact .inl rfl
  next hfd =>
  split at run
  · cases run
  split at run
  · cases run; exact .inl rfl
  next hfl =>
  unfold Kernel.tableWrite at run
  split at run
  · cases run; exact .inr (.inl rfl)
  · cases run; exact .inl rfl
  · cases run; exact .inl rfl
  next hfp =>
    obtain ⟨⟨v, t⟩, hx, e⟩ := Option.map_eq_some_iff.mp run
    cases e
    rw [not_or] at hfd
    exact .inr (.inr ⟨⟨not_not.mp hb, by omega, hfd.2, hfl, hfp⟩, hx⟩)
  · cases run

/-- Every step of the system keeps the cursors on their pages. -/
lemma Display.Ok.step (h : s.display.Ok) {c : Call} (run : Call.step s c = some s') :
    s'.display.Ok := by
  cases c with
  | execute fr command =>
      obtain ⟨c, hc⟩ := map_fst_eq_some run
      cases c with
      | ret v =>
          obtain ⟨text, rfl⟩ := execute_ret hc
          exact h.puts text
      | user pid eip => exact display_execute_user hc ▸ h
      | resume pid v => exact absurd hc execute_ne_resume
  | halt fr status =>
      obtain ⟨c, hc⟩ := map_fst_eq_some run
      obtain ⟨-, ⟨-, hr⟩ | ⟨-, text, t, pid, eip, he, e⟩⟩ := halt_cases hc
      · exact display_returnToParent hr ▸ h
      · obtain ⟨rfl, -⟩ := Prod.mk.inj e
        have quiet : { s with
            proc.pidCheck := Function.update s.proc.pidCheck s.proc.curPid 0 }.display.Ok := h
        exact display_execute_user he ▸ quiet.puts text
  | terminalSwitch fr t =>
      rcases step_terminalSwitch run with ⟨hc, rfl⟩ | ⟨hc, hp, rfl⟩ | ⟨hc, hp, pid, eip, he⟩
      · exact h
      · exact h.changeTerminal hc
      · rw [display_execute_user he]
        exact h.changeTerminal hc
  | sysOpen fr filename =>
      obtain ⟨r, hr⟩ := map_fst_eq_some run
      exact display_open hr ▸ h
  | sysClose i =>
      obtain ⟨r, hr⟩ := map_fst_eq_some run
      exact display_close hr ▸ h
  | sysRead fd buf n =>
      obtain ⟨r, hr⟩ := map_fst_eq_some run
      exact display_read hr ▸ h
  | sysWrite fd buf n =>
      obtain ⟨r, hr⟩ := map_fst_eq_some run
      rcases sysWrite_cases hr with rfl | rfl | ⟨-, ht⟩
      · exact h
      · exact h
      · exact h.terminalWrite ht
  | getargs buf n =>
      obtain ⟨r, hr⟩ := map_fst_eq_some run
      exact display_getargs hr ▸ h

/-- The cursors are on the screen at boot. -/
lemma display_boot (b : BootInfo) : (Kernel.boot b).display.Ok :=
  have origin : Fits 0 0 := by decide
  ⟨origin, fun _ => origin, fun _ => rfl⟩

/-- The cursors are on the screen for the first shell. -/
lemma display_bootShell {b : BootInfo} (h : bootShell fr b = some s) : s.display.Ok := by
  obtain ⟨pid, eip, he⟩ := bootShell_spec h
  rw [display_execute_user he]
  exact display_boot b

end Steps

end Kernel391
