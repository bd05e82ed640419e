import Kernel391.Process.System
import Kernel391.Terminal.Pane

/-!
# Terminal isolation

The three terminals share one keyboard buffer, one position, one cursor and one video page. A run of
keyboard interrupts is compared, for one terminal, with the same kernel alone with that terminal: it
gets only the interrupts that come while the terminal is current, under the modifiers of the whole
run. The invariant is that the terminal has the same pane in both, wherever the whole kernel keeps
it.
-/

namespace Kernel391
open Base

/-- A keyboard interrupt. -/
structure KeyEvent where
  fr : Frame
  scancode : UInt8

/-- The keyboard interrupt, when a shell it has to start can be started. -/
def Kernel.keyEvent (s : Kernel) (e : KeyEvent) : Option Kernel :=
  match s.kbd.mods.key e.scancode with
  | .switch t => Call.step s (.terminalSwitch e.fr t)
  | _ => s.handleKeyboardIrq e.fr e.scancode

/-- The keyboard interrupt to a kernel that is alone with its terminal, under the modifiers `md`; it
never leaves the terminal. -/
def Kernel.alone (a : Kernel) (md : Mods) (e : KeyEvent) : Kernel :=
  match md.key e.scancode with
  | .switch _ => a
  | _ => ({ a with kbd.mods := md }.handleKeyboardIrq e.fr e.scancode).getD a

/-- The kernel alone with terminal `t`, with what the terminal shows and holds in `s`. -/
def Kernel.aloneWith (s : Kernel) (t : Nat) : Kernel :=
  if t = s.term.currentTerminalId then s
  else { s.restoreTerminal t with term.currentTerminalId := t }

/-- A run of keyboard interrupts, beside the kernel alone with terminal `t`. -/
def besideAlone (t : Nat) (x : Kernel × Kernel) (e : KeyEvent) : Option (Kernel × Kernel) :=
  (x.1.keyEvent e).map fun s' =>
    (s', if x.1.term.currentTerminalId = t then x.2.alone x.1.kbd.mods e else x.2)

section Lemmas

variable {s s' a : Kernel} {e : KeyEvent} {t : Nat}

/-- Everything a keyboard interrupt can do: switch terminals, or do what its key means here. -/
lemma keyEvent_cases (run : s.keyEvent e = some s') :
    (∃ u, s.kbd.mods.key e.scancode = .switch u ∧
      Call.step s (.terminalSwitch e.fr u) = some s') ∨
    ((∀ u, s.kbd.mods.key e.scancode ≠ .switch u) ∧ s' = s.press (s.kbd.mods.key e.scancode)) := by
  rw [Kernel.keyEvent] at run
  split at run
  next u hk => exact .inl ⟨u, hk, run⟩
  next hne =>
    rcases handleKeyboardIrq_cases run with ⟨u, -, hk, -⟩ | press
    · exact absurd hk (hne u)
    · exact .inr press

/-- A switch does nothing to a kernel alone with its terminal. -/
lemma alone_of_switch {md : Mods} {u : Fin 3} (h : md.key e.scancode = .switch u) :
    a.alone md e = a := by
  rw [Kernel.alone, h]

/-- Another key does on a kernel alone with its terminal what it does. -/
lemma alone_of_press {md : Mods} (h : ∀ u, md.key e.scancode ≠ .switch u) :
    a.alone md e = { a with kbd.mods := md }.press (md.key e.scancode) := by
  have acts : { a with kbd.mods := md }.handleKeyboardIrq e.fr e.scancode
      = some ({ a with kbd.mods := md }.press (md.key e.scancode)) :=
    (handleKeyboardIrq_eq ..).trans (act_of_press h)
  rw [Kernel.alone, acts]
  cases hk : md.key e.scancode with
  | switch u => exact absurd hk (h u)
  | _ => rfl

/-- What works on the current terminal keeps the cursors on the screen. -/
lemma WorksHere.display (h : WorksHere s s') (ok : s.display.Ok) : s'.display.Ok := by
  have entry (u : Nat) :
      (s'.term.terminalArray u).screenCursorX = (s.term.terminalArray u).screenCursorX
      ∧ (s'.term.terminalArray u).screenCursorY = (s.term.terminalArray u).screenCursorY
      ∧ (s'.term.terminalArray u).videoBufferAddr = (s.term.terminalArray u).videoBufferAddr := by
    by_cases hu : u = s.term.currentTerminalId
    · have own := h.own
      rw [Term.current, Term.current, h.current, ← hu] at own
      rw [own]
      exact ⟨rfl, rfl, rfl⟩
    · rw [h.others u hu]
      exact ⟨rfl, rfl, rfl⟩
  refine ⟨h.fits, fun u => ?_, fun u => ?_⟩
  · show Fits (s'.term.terminalArray u).screenCursorX (s'.term.terminalArray u).screenCursorY
    rw [(entry u).1, (entry u).2.1]
    exact ok.saved u
  · exact (entry u).2.2.trans (ok.base u)

end Lemmas

/-- What a run keeps: the terminal has the same pane in the whole kernel and alone. -/
structure Isolated (t : Fin 3) (x : Kernel × Kernel) : Prop where
  display : x.1.display.Ok
  pages : UserPages x.1.paging
  synced : x.1.Synced
  current : x.2.term.currentTerminalId = t
  fits : Fits x.2.screen.screenX x.2.screen.screenY
  syncedAlone : x.2.Synced
  pane : x.1.pane t = x.2.pane t

section Runs

variable {s s' a : Kernel} {t : Fin 3} {e : KeyEvent}

/-- A switch changes no pane. -/
lemma Isolated.switch (h : Isolated t (s, a)) {fr : Frame} {u : Fin 3}
    (run : Call.step s (.terminalSwitch fr u) = some s') : Isolated t (s', a) := by
  obtain ⟨display, pages, synced, current, fits, syncedAlone, pane⟩ := h
  rcases step_terminalSwitch run with ⟨-, rfl⟩ | ⟨hu, -, rfl⟩ | ⟨hu, -, pid, eip, he⟩
  · exact ⟨display, pages, synced, current, fits, syncedAlone, pane⟩
  · have moved : (s.changeTerminal u).pane t = a.pane t :=
        (pane_changeTerminal display hu t).trans pane
    exact ⟨display.changeTerminal hu, pages, synced_changeTerminal s u, current, fits, syncedAlone,
      moved⟩
  · have pages' : UserPages (s.changeTerminal u).paging := pages
    obtain ⟨-, -, -, screen, -, -, pages'', -⟩ := execute_user_frame pages' he
    have moved : s'.pane t = a.pane t :=
      ((pane_execute pages' he t.isLt).trans (pane_changeTerminal display hu t)).trans pane
    have synced' : s'.Synced := by
      rw [Kernel.Synced, screen]
      exact synced_changeTerminal s u
    exact ⟨display_execute_user he ▸ display.changeTerminal hu, pages'', synced', current, fits,
      syncedAlone, moved⟩

/-- A key works on the terminal in both kernels while it is current, and in neither while it is
not. -/
lemma Isolated.press (h : Isolated t (s, a)) (k : Key) :
    Isolated t (s.press k, if s.term.currentTerminalId = t then
      { a with kbd.mods := s.kbd.mods }.press k else a) := by
  obtain ⟨display, pages, synced, current, fits, syncedAlone, pane⟩ := h
  have works := worksHere_press display.visible k
  have pages' : UserPages (s.press k).paging := works.paging ▸ pages
  split_ifs with ht
  · have fits' : Fits { a with kbd.mods := s.kbd.mods }.screen.screenX
        { a with kbd.mods := s.kbd.mods }.screen.screenY := fits
    have works' := worksHere_press fits' k
    have same : SameHere s { a with kbd.mods := s.kbd.mods } := by
      obtain ⟨page, tb, pos⟩ := (pane_eq_iff ht.symm current.symm).mp pane
      exact ⟨page, tb, pos⟩
    have synced' : Kernel.Synced { a with kbd.mods := s.kbd.mods } := syncedAlone
    refine ⟨works.display display, pages', synced.press k, works'.current.trans current,
      works'.fits, synced'.press k, ?_⟩
    apply (pane_eq_iff _ _).mpr (same.press k)
    · exact (works.current.trans ht).symm
    · exact (works'.current.trans current).symm
  · -- the key works on another terminal, and the kernel that is alone does not get it
    have pane' : (s.press k).pane t = a.pane t := (works.pane (fun e => ht e.symm)).trans pane
    exact ⟨works.display display, pages', synced.press k, current, fits, syncedAlone, pane'⟩

/-- A keyboard interrupt keeps the terminal's pane the same in both. -/
lemma Isolated.step {x x' : Kernel × Kernel} (h : Isolated t x)
    (run : besideAlone t x e = some x') : Isolated t x' := by
  obtain ⟨s, a⟩ := x
  obtain ⟨s', he, rfl⟩ := Option.map_eq_some_iff.mp run
  rcases keyEvent_cases he with ⟨u, hk, step⟩ | ⟨hne, rfl⟩
  · rw [alone_of_switch hk, ite_self]
    exact h.switch step
  · rw [alone_of_press hne]
    exact h.press _

/-- The kernel alone with a terminal starts with the terminal's pane. -/
lemma isolated_aloneWith (ok : s.display.Ok) (pages : UserPages s.paging) (synced : s.Synced) :
    Isolated t (s, s.aloneWith t) := by
  rw [Kernel.aloneWith]
  split_ifs with ht
  · exact ⟨ok, pages, synced, ht.symm, ok.visible, synced, rfl⟩
  · refine ⟨ok, pages, synced, rfl, ok.saved t, rfl, ?_⟩
    have base : (s.term.terminalArray t).videoBufferAddr = videoBuffer t := ok.base t
    have mem : (s.restoreTerminal t).mem = s.mem.blit videoMem (videoBuffer t) fourKb :=
      congrArg (fun b => s.mem.blit videoMem b fourKb) base
    have cells : (fun k : Fin 4096 => (s.restoreTerminal t).mem (videoMem + k))
        = fun k : Fin 4096 => s.mem (videoBuffer t + k) := by
      funext k
      have := k.isLt
      rw [mem, Mem.blit_at (by rw [fourKb]; omega)]
    rw [pane_parked ht, ← cells]
    exact (pane_current (s := { s.restoreTerminal t with term.currentTerminalId := t }) rfl).symm

/-- The first shell's terminal is in step with the keyboard. -/
lemma synced_bootShell {fr : Frame} {b : BootInfo} (h : bootShell fr b = some s) :
    s.Synced ∧ UserPages s.paging := by
  obtain ⟨pid, eip, he⟩ := bootShell_spec h
  obtain ⟨-, -, -, screen, -, -, pages, -⟩ := execute_user_frame (UserPages.boot b) he
  refine ⟨?_, pages⟩
  rw [Kernel.Synced, screen]
  rfl

end Runs

/-- **Terminal isolation.** In a run of keyboard interrupts from the boot shell, whenever terminal
`t` is current its screen cells, cursor, line buffer and position are those of the kernel that is
alone with the terminal and got only the interrupts that came while `t` was current, under the
modifiers of the whole run. -/
theorem terminals_isolated (fr : Frame) (b : BootInfo) (s : Kernel) (t : Fin 3) (es : List KeyEvent)
    (h : bootShell fr b = some s) :
    Throughout (besideAlone t) (fun x => x.2.term.currentTerminalId = t ∧
      (x.1.term.currentTerminalId = t → SameHere x.1 x.2 ∧ x.2.screen.cursor = x.1.screen.cursor))
      (s, s.aloneWith t) es := by
  have same (x : Kernel × Kernel) (inv : Isolated t x) : x.2.term.currentTerminalId = t ∧
      (x.1.term.currentTerminalId = t →
        SameHere x.1 x.2 ∧ x.2.screen.cursor = x.1.screen.cursor) := by
    refine ⟨inv.current, fun ht => ?_⟩
    have here := (pane_eq_iff ht.symm inv.current.symm).mp inv.pane
    have x' : x.2.screen.screenX = x.1.screen.screenX := here.page.x
    have y' : x.2.screen.screenY = x.1.screen.screenY := here.page.y
    refine ⟨here, ?_⟩
    rw [inv.synced, inv.syncedAlone, x', y']
  obtain ⟨synced, pages⟩ := synced_bootShell h
  have start : Isolated t (s, s.aloneWith t) := isolated_aloneWith
    (display_bootShell h) pages synced
  refine ⟨same _ start, along_of_inv (Isolated t) ?_ start⟩
  intro x e x' inv run
  exact ⟨inv.step run, same x' (inv.step run)⟩

/-- a on terminal 0; Alt-F2, and b on terminal 1. -/
theorem terminals_isolated_sample : ∃ s x, bootShell sampleFrame sampleBoot = some s ∧
    runs (besideAlone 1) (s, s.aloneWith 1)
      [⟨sampleFrame, 0x1E⟩, ⟨sampleFrame, 0x38⟩, ⟨sampleFrame, 0x3C⟩,
        ⟨sampleFrame, 0x30⟩] = some x ∧
    SameHere x.1 x.2 := by
  -- a, then Alt+F2, then b on the second terminal
  have facts : ((bootShell sampleFrame sampleBoot).bind fun s =>
      runs (besideAlone 1) (s, s.aloneWith 1)
      [⟨sampleFrame, 0x1E⟩, ⟨sampleFrame, 0x38⟩, ⟨sampleFrame, 0x3C⟩, ⟨sampleFrame, 0x30⟩]).map
        (fun x => x.1.term.currentTerminalId) = some 1 := by decide +kernel
  obtain ⟨x, h, current⟩ := Option.map_eq_some_iff.mp facts
  obtain ⟨s, hs, run⟩ := Option.bind_eq_some_iff.mp h
  have last := (terminals_isolated sampleFrame sampleBoot s 1
    [⟨sampleFrame, 0x1E⟩, ⟨sampleFrame, 0x38⟩, ⟨sampleFrame, 0x3C⟩,
      ⟨sampleFrame, 0x30⟩] hs).last run
  exact ⟨s, x, hs, run, (last.2 current).1⟩

end Kernel391
