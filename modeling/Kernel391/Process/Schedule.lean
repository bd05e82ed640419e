import Kernel391.Base.Run
import Kernel391.Base.RoundRobin
import Kernel391.Process.System
import Kernel391.Model.Scheduler

/-!
# The scheduler

With the timer on, each tick of `pit_handler` may move to the process of the next terminal. Before
it moves, `process_switch` writes `cur_pid` back to the entry of the terminal that is visible, which
is the entry of the process that runs only while that terminal is the scheduled one. So a run of
ticks keeps the processes of the terminals exactly as long as the visible terminal shows `cur_pid`
at every switch.
-/

namespace Kernel391
open Base

/-- A timer interrupt: the registers and the stack address it finds, and the terminal that is
visible when it comes. -/
structure Tick where
  fr : Frame
  newScreen : Nat
  visible : Fin 3

/-- The state with terminal `t` visible. -/
def Kernel.show (s : Kernel) (t : Nat) : Kernel := { s with term.currentTerminalId := t }

/-- The process of terminal `t`. -/
def Kernel.processOf (s : Kernel) (t : Nat) : Int := (s.term.terminalArray t).currentProcessId

/-- `pit_handler` calls `process_switch`. -/
def Switches (s : Kernel) : Prop :=
  (s.processOf 1 ≠ -1 ∨ s.processOf 2 ≠ -1) ∧ s.proc.curPid ≠ -1

/-- Whether a tick switches can be read from the state. -/
instance (s : Kernel) : Decidable (Switches s) := inferInstanceAs (Decidable (_ ∧ _))

/-- A run of ticks also keeps the terminals that were selected, the latest first. -/
def tickStep (x : Kernel × List Nat) (i : Tick) : Option (Kernel × List Nat) :=
  ((x.1.show i.visible).pitHandler i.fr i.newScreen).map fun s' =>
    (s', if Switches x.1 then s'.sched.nTerminal :: x.2 else x.2)

/-- Each terminal has no process or a live one of its own, and `cur_pid` is one of them. -/
structure Scheduled (s : Kernel) : Prop where
  live : ∀ t : Fin 3, s.processOf t = -1 ∨ s.proc.pidCheck (s.processOf t) = 1
  own : ∀ t u : Fin 3, s.processOf t ≠ -1 → s.processOf t = s.processOf u → t = u
  curPid : s.proc.curPid ≠ -1
  running : ∃ t : Fin 3, s.processOf t = s.proc.curPid

/-- What the scheduler promises, with `of` the processes of the terminals before the first tick. -/
structure KeepsProcesses (of : Nat → Int) (x : Kernel × List Nat) : Prop where
  processOf : ∀ t : Fin 3, x.1.processOf t = of t
  curPid : x.2 ≠ [] → x.1.proc.curPid = x.1.processOf x.1.sched.nTerminal
  fair : 3 ≤ x.2.length → ∀ t : Fin 3, of t ≠ -1 → (t : Nat) ∈ x.2.take 3

/-- If the tick switches processes, the visible terminal's process is the one that runs. -/
def ShowsRunning (x : Kernel × List Nat) (i : Tick) : Prop :=
  Switches x.1 → x.1.processOf i.visible = x.1.proc.curPid

section Lemmas

variable {s s' : Kernel} {fr : Frame} {newScreen : Nat}

/-- The scan for the next terminal with a process. -/
lemma nextTerminal_eq (s : Kernel) (fuel i : Nat) :
    s.nextTerminal fuel i = nextMarked 3 (fun t => s.processOf t ≠ -1) fuel i := by
  induction fuel generalizing i with
  | zero => rfl
  | succ fuel ih =>
      rw [Kernel.nextTerminal, nextMarked, ih]
      rfl

/-- A store through a pointer changes memory and page tables only. -/
lemma storePointer_keeps {p w : Nat} (run : s.storePointer p w = some s') :
    ∃ m pg, s' = { s with mem := m, paging := pg } := by
  obtain ⟨m, -, rfl⟩ := Option.map_eq_some_iff.mp run
  exact ⟨m, _, rfl⟩

/-- `vidmap` changes memory and page tables only. -/
lemma vidmap_keeps {a : Nat} {r : Int} (run : s.vidmap a = some (s', r)) :
    ∃ m pg, s' = { s with mem := m, paging := pg } := by
  rw [Kernel.vidmap] at run
  split at run
  · cases run
    exact ⟨s.mem, s.paging, rfl⟩
  split at run
  · cases run
  next t first =>
  obtain ⟨m, pg, rfl⟩ := storePointer_keeps first
  split at run
  · cases run
    exact ⟨m, pg, rfl⟩
  · obtain ⟨t, second, e⟩ := Option.map_eq_some_iff.mp run
    obtain ⟨m', pg', rfl⟩ := storePointer_keeps second
    cases e
    exact ⟨m', pg', rfl⟩

/-- Remapping the display changes page tables only. -/
lemma remapVideo_keeps (s : Kernel) (a : Nat) : ∃ pg, s.remapVideo a = { s with paging := pg } := by
  rw [Kernel.remapVideo]
  split_ifs
  · exact ⟨_, rfl⟩
  · exact ⟨s.paging, rfl⟩

/-- The index the search for the next terminal starts from. -/
def Kernel.searchStart (s : Kernel) : Nat :=
  (if s.sched.schduleTid = -1 then (s.term.currentTerminalId : Int) else s.sched.schduleTid).toNat

/-- Everything `process_switch` does to the terminals and to `cur_pid` when a process runs. -/
lemma processSwitch_spec (hcur : s.proc.curPid ≠ -1)
    (run : s.processSwitch fr newScreen = some s') :
    s'.sched.nTerminal = s.nextTerminal 3 s.searchStart ∧
      s'.sched.schduleTid = (s.nextTerminal 3 s.searchStart : Nat) ∧
      s'.processOf = Function.update s.processOf s.term.currentTerminalId s.proc.curPid ∧
      s'.proc.curPid = s'.processOf s'.sched.nTerminal := by
  rw [Kernel.processSwitch] at run
  dsimp only at run
  split at run
  · cases run
  next t v ht =>
  split at run
  · cases run
  next screen _ =>
  obtain ⟨m, pg, rfl⟩ := vidmap_keeps ht
  obtain ⟨pg', hre⟩ := remapVideo_keeps { s.selectTerminal with mem := m, paging := pg } screen
  rw [hre] at run
  split at run
  next h => exact absurd h hcur
  split at run
  · cases run
  split at run
  · cases run
  cases run
  refine ⟨rfl, rfl, ?_, rfl⟩
  funext u
  exact currentProcessId_update s.term s.term.currentTerminalId _ u

/-- A tick that does not switch changes no terminal, no index and not `cur_pid`. -/
lemma pitHandler_of_not_switches (h : ¬ Switches s) (run : s.pitHandler fr newScreen = some s') :
    s'.term = s.term ∧ s'.sched = s.sched ∧ s'.proc.curPid = s.proc.curPid := by
  rw [Kernel.pitHandler] at run
  split at run
  next hp =>
    split at run
    next hc => exact absurd ⟨hp, hc⟩ h
    · cases run
      exact ⟨rfl, rfl, rfl⟩
  · split at run
    · split_ifs at run
      cases run
      exact ⟨rfl, rfl, rfl⟩
    · cases run
      exact ⟨rfl, rfl, rfl⟩

/-- A tick that switches is a `process_switch`. -/
lemma pitHandler_of_switches (h : Switches s) (run : s.pitHandler fr newScreen = some s') :
    s.processSwitch fr newScreen = some s' := by
  rw [Kernel.pitHandler] at run
  have hp : (s.term.terminalArray 1).currentProcessId ≠ -1
      ∨ (s.term.terminalArray 2).currentProcessId ≠ -1 := h.1
  rw [if_pos hp, if_pos h.2] at run
  exact run

end Lemmas

/-- What carries the promise from tick to tick: a process runs, the scheduler's index is the
terminal selected last, and the selections followed the round. -/
structure InRound (of : Nat → Int) (x : Kernel × List Nat) : Prop where
  curPid : x.1.proc.curPid ≠ -1
  last : ∀ t l, x.2 = t :: l → x.1.sched.schduleTid = (t : Nat)
  selections : Selections 3 (fun t => of t ≠ -1) x.2

section Rounds

variable {of : Nat → Int} {x x' : Kernel × List Nat} {i : Tick}

/-- The start of a run. -/
lemma keepsProcesses_start {s : Kernel} (h : Scheduled s) :
    InRound s.processOf (s, []) ∧ KeepsProcesses s.processOf (s, []) := by
  refine ⟨⟨h.curPid, fun t l e => ?_, ?_, ?_⟩, ⟨fun t => rfl, fun ne => ?_, fun len => ?_⟩⟩
  · cases e
  · intro j hj
    cases hj
  · exact List.isChain_nil
  · exact absurd rfl ne
  · rw [List.length_nil] at len
    omega

/-- A tick that does not switch keeps everything. -/
lemma tickStep_of_not_switches (hr : InRound of x) (hk : KeepsProcesses of x) (hs : ¬ Switches x.1)
    (run : tickStep x i = some x') : InRound of x' ∧ KeepsProcesses of x' := by
  obtain ⟨s', hp, rfl⟩ := Option.map_eq_some_iff.mp run
  have hs' : ¬ Switches (x.1.show i.visible) := hs
  obtain ⟨ht, hsch, hcur⟩ := pitHandler_of_not_switches hs' hp
  have of' : s'.processOf = x.1.processOf := by
    funext u
    rw [Kernel.processOf, ht]
    rfl
  rw [if_neg hs]
  refine ⟨⟨?_, fun t l e => ?_, hr.selections⟩, ⟨fun t => ?_, fun ne => ?_, hk.fair⟩⟩
  · rw [hcur]
    exact hr.curPid
  · rw [hsch]
    exact hr.last t l e
  · rw [of']
    exact hk.processOf t
  · rw [of', hsch, hcur]
    exact hk.curPid ne

/-- A tick that switches selects the next terminal of the round and writes `cur_pid` back to the
visible one. -/
lemma tickStep_of_switches (hs : Switches x.1) (run : tickStep x i = some x') :
    ∃ n, x'.2 = n :: x.2 ∧ x'.1.sched.nTerminal = n ∧ x'.1.sched.schduleTid = (n : Nat) ∧
      n = nextMarked 3 (fun t => x.1.processOf t ≠ -1) 3 (x.1.show i.visible).searchStart ∧
      x'.1.processOf = Function.update x.1.processOf i.visible x.1.proc.curPid ∧
      x'.1.proc.curPid = x'.1.processOf n := by
  obtain ⟨s', hp, rfl⟩ := Option.map_eq_some_iff.mp run
  have hs' : Switches (x.1.show i.visible) := hs
  obtain ⟨h1, h2, h3, h4⟩ := processSwitch_spec hs'.2 (pitHandler_of_switches hs' hp)
  rw [nextTerminal_eq] at h1 h2
  rw [if_pos hs]
  refine ⟨_, rfl, rfl, ?_, h1, h3, h4⟩
  rw [h1, h2]

/-- A tick keeps what the scheduler promises exactly when it does not switch, or finds the process
that runs on the visible terminal. -/
lemma keepsProcesses_tick (hr : InRound of x) (hk : KeepsProcesses of x)
    (run : tickStep x i = some x') :
    (KeepsProcesses of x' → InRound of x') ∧ (KeepsProcesses of x' ↔ ShowsRunning x i) := by
  by_cases hs : Switches x.1
  case neg =>
    obtain ⟨hr', hk'⟩ := tickStep_of_not_switches hr hk hs run
    exact ⟨fun _ => hr', iff_of_true hk' (fun h => absurd h hs)⟩
  obtain ⟨n, hist, hn, hsch, next, of', cur⟩ := tickStep_of_switches hs run
  by_cases hv : x.1.processOf i.visible = x.1.proc.curPid
  case neg =>
    -- the entry of the visible terminal is overwritten
    have lost : ¬ KeepsProcesses of x' := by
      intro hk'
      have h := hk'.processOf i.visible
      rw [of', Function.update_self, ← hk.processOf i.visible] at h
      exact hv h.symm
    exact ⟨fun h => absurd h lost, iff_of_false lost (fun h => hv (h hs))⟩
  have kept : x'.1.processOf = x.1.processOf := by
    rw [of', ← hv, Function.update_eq_self]
  have same : ∀ t < 3, (x.1.processOf t ≠ -1 ↔ of t ≠ -1) := by
    intro t ht
    rw [hk.processOf ⟨t, ht⟩]
  rw [nextMarked_congr (by omega) same] at next
  obtain ⟨t, ht, hm⟩ : ∃ t < 3, of t ≠ -1 := by
    rcases hs.1 with h | h
    · exact ⟨1, by omega, (same 1 (by omega)).mp h⟩
    · exact ⟨2, by omega, (same 2 (by omega)).mp h⟩
  have marked : of n ≠ -1 := by
    rw [next]
    exact marked_nextMarked (fun t => of t ≠ -1) ht hm _
  have hn3 : n < 3 := next ▸ nextMarked_lt (by omega)
  -- the search starts from the terminal selected last, so no process is passed over
  have selections : Selections 3 (fun t => of t ≠ -1) x'.2 := by
    rw [hist]
    apply hr.selections.cons hn3
    intro m l hm
    have start : (x.1.show i.visible).searchStart = m := by
      have := hr.last m l hm
      rw [Kernel.searchStart]
      show (if x.1.sched.schduleTid = -1 then _ else x.1.sched.schduleTid).toNat = m
      rw [this, if_neg (by omega), Int.toNat_natCast]
    rw [next, start]
  have keeps : KeepsProcesses of x' := by
    refine ⟨fun t => ?_, fun _ => ?_, fun len t ht => ?_⟩
    · rw [kept]
      exact hk.processOf t
    · rw [hn]
      exact cur
    · apply (selections.take 3).mem _ t.isLt ht
      rw [List.length_take]
      omega
  refine ⟨fun _ => ⟨?_, fun t l e => ?_, selections⟩, iff_of_true keeps (fun _ => hv)⟩
  · rw [cur, kept]
    exact (same n hn3).mpr marked
  · rw [hist] at e
    obtain ⟨rfl, -⟩ := List.cons.inj e
    exact hsch

end Rounds

/-- A run of ticks keeps the process of every terminal, runs the process of the selected terminal
after every switch and selects every terminal with a process within three consecutive switches,
exactly when the visible terminal shows `cur_pid` at every tick that switches. -/
theorem keepsProcesses_iff (s : Kernel) (is : List Tick) (h : Scheduled s) :
    Throughout tickStep (KeepsProcesses s.processOf) (s, []) is ↔
      Meets tickStep ShowsRunning (s, []) is := by
  obtain ⟨hr, hk⟩ := keepsProcesses_start h
  exact throughout_iff_meets (InRound s.processOf) (fun _ _ _ => keepsProcesses_tick) hr hk

/-- The boot shell, a shell that a switch to terminal `t` started, and a switch to terminal `u`. -/
def twoShells (t u : Fin 3) : Option Kernel :=
  (bootShell sampleFrame sampleBoot).bind fun s =>
    runs Call.step s [.terminalSwitch sampleFrame t, .terminalSwitch sampleFrame u]

/-- With two shells the scheduler's records are in order. -/
lemma scheduled_twoShells :
    ∃ s, twoShells 1 0 = some s ∧ Scheduled s ∧ s.processOf 0 = 0 := by
  have facts :
    (twoShells 1 0).map (fun s => (s.processOf 0, s.processOf 1, s.processOf 2, s.proc.curPid,
      s.proc.pidCheck 0, s.proc.pidCheck 1)) = some (0, 1, -1, 0, 1, 1) := by decide +kernel
  obtain ⟨s, hs, e⟩ := Option.map_eq_some_iff.mp facts
  simp only [Prod.mk.injEq] at e
  obtain ⟨h0, h1, h2, hc, p0, p1⟩ := e
  refine ⟨s, hs, ⟨fun t => ?_, fun t u => ?_, ?_, ⟨0, ?_⟩⟩, h0⟩
  · match t with
    | 0 => exact .inr (h0.symm ▸ p0)
    | 1 => exact .inr (h1.symm ▸ p1)
    | 2 => exact .inl h2
  · match t, u with
    | 0, 0 | 1, 1 | 2, 2 => exact fun _ _ => rfl
    | 0, 1 => exact fun _ e => absurd (h0.symm.trans (e.trans h1)) (by decide)
    | 0, 2 => exact fun _ e => absurd (h0.symm.trans (e.trans h2)) (by decide)
    | 1, 0 => exact fun _ e => absurd (h1.symm.trans (e.trans h0)) (by decide)
    | 1, 2 => exact fun _ e => absurd (h1.symm.trans (e.trans h2)) (by decide)
    | 2, 0 => exact fun ne _ => absurd h2 ne
    | 2, 1 => exact fun ne _ => absurd h2 ne
  · rw [hc]
    decide
  · exact h0.trans hc.symm

/-- A timer interrupt with terminal `t` visible. -/
def sampleTick (t : Fin 3) : Tick := ⟨sampleFrame, 0x7FE000, t⟩

/-- Three ticks, each with the terminal visible whose process runs, give the processor to the
shells in turns. -/
theorem keepsProcesses_iff_sample : ∃ s, twoShells 1 0 = some s ∧
    (∃ x, runs tickStep (s, []) [sampleTick 0, sampleTick 1, sampleTick 0] = some x ∧
      x.2 = [1, 0, 1]) ∧
    Throughout tickStep (KeepsProcesses s.processOf) (s, [])
      [sampleTick 0, sampleTick 1, sampleTick 0] := by
  obtain ⟨s, hs, sched, -⟩ := scheduled_twoShells
  have facts : ((twoShells 1 0).bind fun s =>
      (tickStep (s, []) (sampleTick 0)).bind fun x₁ =>
      (tickStep x₁ (sampleTick 1)).bind fun x₂ =>
      (tickStep x₂ (sampleTick 0)).map fun x₃ => (decide (s.processOf 0 = s.proc.curPid),
        decide (x₁.1.processOf 1 = x₁.1.proc.curPid), decide (x₂.1.processOf 0 = x₂.1.proc.curPid),
        x₃.2))
      = some (true, true, true, [1, 0, 1]) := by decide +kernel
  rw [hs, Option.bind_some] at facts
  obtain ⟨x₁, h₁, h⟩ := Option.bind_eq_some_iff.mp facts
  obtain ⟨x₂, h₂, h⟩ := Option.bind_eq_some_iff.mp h
  obtain ⟨x₃, h₃, e⟩ := Option.map_eq_some_iff.mp h
  simp only [Prod.mk.injEq, decide_eq_true_eq] at e
  obtain ⟨shown₀, shown₁, shown₂, selected⟩ := e
  refine ⟨s, hs, ⟨x₃, ?_, selected⟩, (keepsProcesses_iff s _ sched).mpr ?_⟩
  · simp only [runs_cons, runs_nil, h₁, h₂, h₃, Option.bind_some]
  · exact .cons (fun _ => shown₀) h₁ (.cons (fun _ => shown₁) h₂
      (.cons (fun _ => shown₂) h₃ trivial))

/-- Two ticks with terminal 0 visible give the process of terminal 1 to terminal 0. -/
theorem not_always_keepsProcesses : ¬ ∀ (s : Kernel) (is : List Tick), Scheduled s →
    Throughout tickStep (KeepsProcesses s.processOf) (s, []) is := by
  intro claim
  obtain ⟨s, hs, sched, h0⟩ := scheduled_twoShells
  have stolen :
    ((twoShells 1 0).bind fun s => runs tickStep (s, []) [sampleTick 0, sampleTick 0]).map
      (fun x => x.1.processOf 0) = some 1 := by decide +kernel
  rw [hs] at stolen
  obtain ⟨x, run, e⟩ := Option.map_eq_some_iff.mp stolen
  have keeps := ((claim s [sampleTick 0, sampleTick 0] sched).last run).processOf 0
  exact absurd (e.symm.trans (keeps.trans h0)) (by decide)

end Kernel391
