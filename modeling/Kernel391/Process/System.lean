import Kernel391.Base.Run
import Kernel391.Process.Calls

/-!
# The system of calls

One system of everything that can happen between two instructions of user code while the timer is
off: system calls of the process that runs, and terminal switches from the keyboard. Its runs start
in the state in which the boot shell runs. `Effect` says what a step does to processes.
-/

namespace Kernel391
open Base

/-- A call the kernel serves; `terminalSwitch` is Alt and a function key. -/
inductive Call where
  | execute (fr : Frame) (command : Option (List UInt8))
  | halt (fr : Frame) (status : UInt8)
  | terminalSwitch (fr : Frame) (t : Fin 3)
  | sysOpen (fr : Frame) (filename : Option (List UInt8))
  | sysClose (i : Int)
  | sysRead (fd buf n : BitVec 32)
  | sysWrite (fd buf n : BitVec 32)
  | getargs (buf n : BitVec 32)

/-- A switch to terminal `t` has to start its shell. -/
def Kernel.launches (s : Kernel) (t : Nat) : Prop :=
  t ≠ s.term.currentTerminalId ∧ (s.term.terminalArray t).currentProcessId = -1

/-- Whether a switch starts a shell can be read from the state. -/
instance (s : Kernel) (t : Nat) : Decidable (s.launches t) := inferInstanceAs (Decidable (_ ∧ _))

/-- A call that completes. A switch that has to start a shell and cannot is no step. -/
def Call.step (s : Kernel) : Call → Option Kernel
  | .execute fr command => (s.execute fr command).map Prod.fst
  | .halt fr status => (s.halt fr status).map Prod.fst
  | .terminalSwitch fr t =>
    match s.terminalSwitch fr t with
    | none => none
    | some (s', .ret _) => if s.launches t then none else some s'
    | some (s', _) => some s'
  | .sysOpen fr filename => (s.sysOpen fr filename).map Prod.fst
  | .sysClose i => (s.sysClose i).map Prod.fst
  | .sysRead fd buf n => (s.sysRead fd buf n).map Prod.fst
  | .sysWrite fd buf n => (s.sysWrite fd buf n).map Prod.fst
  | .getargs buf n => (s.getargs buf n).map Prod.fst

/-- The state in which the program `execute` started runs. -/
def Kernel.launch (fr : Frame) (s : Kernel) (command : Option (List UInt8)) : Option Kernel :=
  match s.execute fr command with
  | some (s', .user _ _) => some s'
  | _ => none

/-- The state in which the boot shell runs, when its launch succeeded. -/
def bootShell (fr : Frame) (b : BootInfo) : Option Kernel :=
  (Kernel.boot b).launch fr (some Kernel.shellCommand)

/-- What a call does to processes. -/
def Call.Effect (v : ProcView) : Call → ProcView → Prop
  | .execute _ _ => fun v' => v' = v ∨ ∃ pid, Started v pid v'
  | .halt _ _ => fun v' => Exited v v' ∨ v.parent = -1 ∧ ∃ pid, Started v.vacate pid v'
  | .terminalSwitch _ t => fun v' =>
    (t : Nat) = v.currentTerminalId ∧ v' = v ∨
    (t : Nat) ≠ v.currentTerminalId ∧ v.processOf t ≠ -1 ∧ v' = v.change t ∨
    (t : Nat) ≠ v.currentTerminalId ∧ v.processOf t = -1 ∧ ∃ pid, Started (v.change t) pid v'
  | _ => fun v' => FdsChanged v v'

/-- A launch is an `execute` that starts a process. -/
lemma launch_spec {fr : Frame} {s s' : Kernel} {command : Option (List UInt8)}
    (h : s.launch fr command = some s') :
    ∃ pid eip, s.execute fr command = some (s', .user pid eip) := by
  rw [Kernel.launch] at h
  split at h
  next t pid eip he =>
    cases h
    exact ⟨pid, eip, he⟩
  · cases h

/-- The first shell is started by `execute`. -/
lemma bootShell_spec {fr : Frame} {b : BootInfo} {s : Kernel} (h : bootShell fr b = some s) :
    ∃ pid eip, (Kernel.boot b).execute fr (some Kernel.shellCommand) = some (s, .user pid eip) :=
  launch_spec h

/-- A pair with a known first component. -/
lemma map_fst_eq_some {α β : Type} {o : Option (α × β)} {a : α} (h : o.map Prod.fst = some a) :
    ∃ b, o = some (a, b) := by
  obtain ⟨⟨a', b⟩, ho, rfl⟩ := Option.map_eq_some_iff.mp h
  exact ⟨b, ho⟩

/-- Everything a completed switch can do: nothing, move to a terminal with a process, or move to one
without and start its shell. -/
lemma step_terminalSwitch {s s' : Kernel} {fr : Frame} {t : Fin 3}
    (run : Call.step s (.terminalSwitch fr t) = some s') :
    ((t : Nat) = s.term.currentTerminalId ∧ s' = s) ∨
    ((t : Nat) ≠ s.term.currentTerminalId ∧ s.procView.processOf t ≠ -1 ∧ s' = s.changeTerminal t) ∨
    ((t : Nat) ≠ s.term.currentTerminalId ∧ s.procView.processOf t = -1 ∧ ∃ pid eip,
      (s.changeTerminal t).execute fr (some Kernel.shellCommand) = some (s', .user pid eip)) := by
  rw [Call.step] at run
  split at run
  · cases run
  next r v hs =>
    rcases terminalSwitch_cases hs with ⟨hc, e⟩ | ⟨hc, hp, e⟩ | ⟨hc, hp, h⟩
    · obtain ⟨rfl, -⟩ := Prod.mk.inj e
      split_ifs at run
      exact .inl ⟨hc, (Option.some.inj run).symm⟩
    · obtain ⟨rfl, -⟩ := Prod.mk.inj e
      split_ifs at run
      exact .inr (.inl ⟨hc, hp, (Option.some.inj run).symm⟩)
    · rw [if_pos ⟨hc, hp⟩] at run
      cases run
  next r c hne hs =>
    rcases terminalSwitch_cases hs with ⟨-, e⟩ | ⟨-, -, e⟩ | ⟨hc, hp, ⟨_, e⟩ | ⟨_, pid, eip, he, e⟩⟩
    · exact absurd (Prod.mk.inj e).2 (hne _)
    · exact absurd (Prod.mk.inj e).2 (hne _)
    · exact absurd (Prod.mk.inj e).2 (hne _)
    · obtain ⟨rfl, -⟩ := Prod.mk.inj e
      obtain rfl := Option.some.inj run
      exact .inr (.inr ⟨hc, hp, pid, eip, he⟩)

/-- Every step of the system has its effect on processes. -/
theorem Call.effect {s s' : Kernel} {c : Call} (run : Call.step s c = some s') :
    c.Effect s.procView s'.procView := by
  cases c with
  | execute fr command =>
      obtain ⟨r, h⟩ := map_fst_eq_some run
      cases r with
      | ret v => exact .inl (procView_execute_ret h)
      | user pid eip => exact .inr ⟨pid, started_execute h⟩
      | resume pid v => exact absurd h execute_ne_resume
  | halt fr status =>
      obtain ⟨r, h⟩ := map_fst_eq_some run
      cases r with
      | ret v => exact absurd h halt_ne_ret
      | user pid eip =>
          obtain ⟨hp, st⟩ := restarted_halt h
          exact .inr ⟨hp, pid, st⟩
      | resume pid v => exact .inl (exited_halt h)
  | terminalSwitch fr t =>
      rcases step_terminalSwitch run with ⟨hc, rfl⟩ | ⟨hc, hp, rfl⟩ | ⟨hc, hp, pid, eip, he⟩
      · exact .inl ⟨hc, rfl⟩
      · exact .inr (.inl ⟨hc, hp, procView_changeTerminal hc⟩)
      · refine .inr (.inr ⟨hc, hp, pid, ?_⟩)
        rw [← procView_changeTerminal hc]
        exact started_execute he
  | sysOpen fr filename =>
      obtain ⟨r, h⟩ := map_fst_eq_some run
      exact fdsChanged_open h
  | sysClose i =>
      obtain ⟨r, h⟩ := map_fst_eq_some run
      exact fdsChanged_close h
  | sysRead fd buf n =>
      obtain ⟨r, h⟩ := map_fst_eq_some run
      exact fdsChanged_read h
  | sysWrite fd buf n =>
      obtain ⟨r, h⟩ := map_fst_eq_some run
      exact fdsChanged_write h
  | getargs buf n =>
      obtain ⟨r, h⟩ := map_fst_eq_some run
      exact fdsChanged_getargs h

end Kernel391
