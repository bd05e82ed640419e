import Kernel391.Base.Stacks
import Kernel391.Process.System

/-!
# The process forest

The live processes form one chain of parents per terminal. The chain of the current terminal starts
at `cur_pid`, whatever `terminal_array` still says about that terminal; the chains of the others
start at the process their entry keeps. `Planted` is this shape, which also a half-changed state
has: one whose current terminal has no process yet. `Forest` adds what holds between calls.
-/

namespace Kernel391
open Base

namespace ProcView

/-- The process that heads the chain of terminal `t`; `-1` when the terminal has none. -/
def leader (v : ProcView) (t : Nat) : Int :=
  if t = v.currentTerminalId then v.proc.curPid else v.processOf t

/-- The parent of a process. -/
def parentOf (v : ProcView) (p : Int) : Int := (v.proc.pcb (pcbAddr p)).parentPid

/-- `chain t` is the chain of parents from the leader of terminal `t` down, for every terminal. -/
def Chains (v : ProcView) (chain : Fin 3 → List Int) : Prop :=
  ∀ t : Fin 3, Linked v.parentOf (-1) (v.leader t) (chain t)

/-- The processes whose `pid_check` is set are the disjoint union of the chains of the terminals. -/
def ProcessForest (v : ProcView) : Prop :=
  ∃ chain : Fin 3 → List Int, v.Chains chain ∧ Stacks (fun p => v.proc.pidCheck p = 1) chain

/-- A live process without a parent. -/
def IsRoot (v : ProcView) (p : Int) : Prop := v.proc.pidCheck p = 1 ∧ v.parentOf p = -1

/-- The chains of a state, also of one between two statements of a call. -/
structure Planted (v : ProcView) (chain : Fin 3 → List Int) : Prop where
  current : v.currentTerminalId < 3
  stale : v.processOf v.currentTerminalId = -1 → v.proc.curPid = -1
  chains : v.Chains chain
  stacked : Stacks (fun p => v.proc.pidCheck p = 1) chain

/-- What holds of the processes between two calls. -/
structure Forest (v : ProcView) : Prop where
  planted : ∃ chain, v.Planted chain
  curPid : v.proc.curPid ≠ -1
  curProcessPtr : v.proc.curProcessPtr = pcbAddr v.proc.curPid
  processOf : v.processOf v.currentTerminalId ≠ -1

end ProcView

section Lemmas

open ProcView

variable {v v' : ProcView} {chain : Fin 3 → List Int} {pid : Int}

/-- The process at the top of the visible terminal is the current one. -/
lemma ProcView.leader_current (v : ProcView) : v.leader v.currentTerminalId = v.proc.curPid :=
  if_pos rfl

/-- The process at the top of another terminal is the one it has recorded. -/
lemma ProcView.leader_of_ne (v : ProcView) {t : Nat} (ht : t ≠ v.currentTerminalId) :
    v.leader t = v.processOf t := if_neg ht

/-- The current terminal as an index of the family of chains. -/
lemma ProcView.Planted.exists_index (h : v.Planted chain) :
    ∃ c : Fin 3, (c : Nat) = v.currentTerminalId := ⟨⟨_, h.current⟩, rfl⟩

/-- A call that changes descriptors changes no parent. -/
lemma FdsChanged.parentOf (h : FdsChanged v v') : v'.parentOf = v.parentOf := by
  funext p
  obtain ⟨fa, hp⟩ := h.pcb (pcbAddr p)
  rw [ProcView.parentOf, hp]
  rfl

/-- The end of a process changes no parent. -/
lemma Exited.parentOf (h : Exited v v') : v'.parentOf = v.parentOf := by
  funext p
  obtain ⟨fa, hp⟩ := h.pcb (pcbAddr p)
  rw [ProcView.parentOf, hp]
  rfl

/-- The start of a process changes no other's parent. -/
lemma Started.parentOf_of_ne (h : Started v pid v') {p : Int} (hp : p ≠ pid) :
    v'.parentOf p = v.parentOf p := by
  have same := h.others (pcbAddr p) (fun e => hp (pcbAddr_inj.mp e))
  rw [PCB.SameButStack] at same
  rw [ProcView.parentOf, same]
  rfl

/-- Descriptor calls leave the forest alone. -/
lemma ProcView.Forest.fdsChanged (h : v.Forest) (fds : FdsChanged v v') : v'.Forest := by
  obtain ⟨⟨chain, hp⟩, hc, hptr, ho⟩ := h
  have leader : v'.leader = v.leader := by
    funext t
    rw [ProcView.leader, ProcView.leader, fds.currentTerminalId, fds.curPid, fds.processOf]
  refine ⟨⟨chain, ?_, ?_, fun t => ?_, ?_⟩, ?_, ?_, ?_⟩
  · rw [fds.currentTerminalId]
    exact hp.current
  · rw [fds.processOf, fds.currentTerminalId, fds.curPid]
    exact hp.stale
  · rw [fds.parentOf, leader]
    exact hp.chains t
  · rw [fds.pidCheck]
    exact hp.stacked
  · rw [fds.curPid]
    exact hc
  · rw [fds.curProcessPtr, fds.curPid]
    exact hptr
  · rw [fds.processOf, fds.currentTerminalId]
    exact ho

/-- Starting a process pushes it on the chain of the current terminal. -/
lemma ProcView.Planted.started (h : v.Planted chain) (st : Started v pid v') : v'.Forest := by
  obtain ⟨c, hc⟩ := h.exists_index
  have ne : pid ≠ -1 := by
    have := st.nonneg
    omega
  have fresh : ¬ v.proc.pidCheck pid = 1 := by
    rw [st.free]
    decide
  have off : ∀ t, pid ∉ chain t := fun t ht => fresh (h.stacked.live_of_mem ht)
  have parent : v'.parentOf pid = v.proc.curPid := by
    rw [ProcView.parentOf, st.parentPid]
    split_ifs with hs
    · exact (h.stale hs).symm
    · rfl
  -- no chain mentions the new process, so its block may be overwritten
  have link (t : Fin 3) : Linked v'.parentOf (-1) (v.leader t) (chain t) := by
    apply (h.chains t).congr
    intro q hq
    exact st.parentOf_of_ne (fun e => off t (e ▸ hq))
  refine ⟨⟨Function.update chain c (pid :: chain c), ?_, ?_, fun t => ?_, ?_⟩, ?_, ?_, ?_⟩
  · rw [st.currentTerminalId]
    exact h.current
  · rw [st.currentTerminalId, st.processOf, Function.update_self]
    intro e
    exact absurd e ne
  · by_cases ht : t = c
    · subst ht
      have hl : v'.leader t = pid := by
        rw [hc, ← st.currentTerminalId, ProcView.leader_current, st.curPid]
      rw [Function.update_self, hl]
      refine ⟨rfl, ne, ?_⟩
      rw [parent, ← v.leader_current, ← hc]
      exact link t
    · have htc : (t : Nat) ≠ v.currentTerminalId := by
        rw [← hc]
        exact fun e => ht (Fin.ext e)
      have hl : v'.leader t = v.leader t := by
        rw [v'.leader_of_ne (st.currentTerminalId ▸ htc), v.leader_of_ne htc,
          st.processOf, Function.update_of_ne htc]
      rw [Function.update_of_ne ht, hl]
      exact link t
  · have pushed := h.stacked.push fresh c
    have live : (fun q => q = pid ∨ v.proc.pidCheck q = 1) = fun q => v'.proc.pidCheck q = 1 := by
      funext q
      rw [st.pidCheck]
      by_cases hq : q = pid
      · subst hq
        simp only [Function.update_self, true_or]
      · simp only [Function.update_of_ne hq, hq, false_or]
    exact live ▸ pushed
  · rw [st.curPid]
    exact ne
  · rw [st.curProcessPtr, st.curPid]
  · rw [st.currentTerminalId, st.processOf, Function.update_self]
    exact ne

/-- The chain of the current terminal is the process that runs on top of its ancestors. -/
lemma ProcView.Forest.current_chain (h : v.Forest) {c : Fin 3}
    (hc : (c : Nat) = v.currentTerminalId) (hp : v.Planted chain) :
    ∃ l, chain c = v.proc.curPid :: l ∧ Linked v.parentOf (-1) v.parent l := by
  have top := hp.chains c
  rw [hc, ProcView.leader_current] at top
  obtain ⟨l, hl, rest⟩ := top.exists_cons h.curPid
  refine ⟨l, hl, ?_⟩
  rw [ProcView.parent, h.curProcessPtr]
  exact rest

/-- Clearing the slot of the process that runs pops it from its chain. -/
lemma ProcView.Planted.popped (hp : v.Planted chain) {c : Fin 3} {l : List Int}
    (hl : chain c = v.proc.curPid :: l) :
    Stacks (fun p => Function.update v.proc.pidCheck v.proc.curPid 0 p = 1)
      (Function.update chain c l) := by
  have popped := hp.stacked.pop hl
  have live : (fun q => q ≠ v.proc.curPid ∧ v.proc.pidCheck q = 1)
      = fun q => Function.update v.proc.pidCheck v.proc.curPid 0 q = 1 := by
    funext q
    by_cases hq : q = v.proc.curPid
    · subst hq
      simp only [Function.update_self, ne_eq, not_true_eq_false, false_and, eq_iff_iff, false_iff]
      decide
    · simp only [Function.update_of_ne hq, ne_eq, hq, not_false_eq_true, true_and]
  exact live ▸ popped

/-- A process that ends leaves its parent on top of the chain. -/
lemma ProcView.Forest.exited (h : v.Forest) (ex : Exited v v') : v'.Forest := by
  obtain ⟨chain, hp⟩ := h.planted
  obtain ⟨c, hc⟩ := hp.exists_index
  obtain ⟨l, hl, rest⟩ := h.current_chain hc hp
  -- the terminal's entry stays at the process that ended, but is not -1
  refine ⟨⟨Function.update chain c l, ?_, ?_, fun t => ?_, ?_⟩, ?_, ?_, ?_⟩
  · rw [ex.currentTerminalId]
    exact hp.current
  · rw [ex.processOf, ex.currentTerminalId]
    intro e
    exact absurd e h.processOf
  · rw [ex.parentOf]
    by_cases ht : t = c
    · subst ht
      have hlead : v'.leader t = v.parent := by
        rw [hc, ← ex.currentTerminalId, ProcView.leader_current, ex.curPid]
      rw [Function.update_self, hlead]
      exact rest
    · have htc : (t : Nat) ≠ v.currentTerminalId := by
        rw [← hc]
        exact fun e => ht (Fin.ext e)
      have hlead : v'.leader t = v.leader t := by
        rw [v'.leader_of_ne (ex.currentTerminalId ▸ htc), v.leader_of_ne htc,
          ex.processOf]
      rw [Function.update_of_ne ht, hlead]
      exact hp.chains t
  · rw [ex.pidCheck]
    exact hp.popped hl
  · rw [ex.curPid]
    exact ex.parent
  · rw [ex.curProcessPtr, ex.curPid]
  · rw [ex.processOf, ex.currentTerminalId]
    exact h.processOf

/-- A terminal's first process gives up its slot: the chain of the current terminal is empty. -/
lemma ProcView.Forest.vacated (h : v.Forest) (root : v.parent = -1) :
    ∃ chain, v.vacate.Planted chain := by
  obtain ⟨chain, hp⟩ := h.planted
  obtain ⟨c, hc⟩ := hp.exists_index
  obtain ⟨l, hl, rest⟩ := h.current_chain hc hp
  -- a process without a parent is alone on its chain
  have nil : l = [] := by
    rw [root] at rest
    exact rest.unique rfl
  subst nil
  refine ⟨Function.update chain c [], hp.current, fun _ => rfl, fun t => ?_, hp.popped hl⟩
  by_cases ht : t = c
  · subst ht
    rw [Function.update_self, hc]
    exact v.vacate.leader_current
  · have htc : (t : Nat) ≠ v.currentTerminalId := by
      rw [← hc]
      exact fun e => ht (Fin.ext e)
    have chain_t := hp.chains t
    rw [v.leader_of_ne htc] at chain_t
    rw [Function.update_of_ne ht, v.vacate.leader_of_ne htc]
    exact chain_t

/-- Moving to another terminal changes no leader, so no chain. -/
lemma ProcView.Planted.changed (hp : v.Planted chain) {t : Fin 3}
    (ht : (t : Nat) ≠ v.currentTerminalId) : (v.change t).Planted chain := by
  have other : (v.change t).processOf t = v.processOf t := Function.update_of_ne ht ..
  have leader (u : Nat) : (v.change t).leader u = v.leader u := by
    by_cases hu : u = t
    · subst hu
      rw [v.leader_of_ne ht]
      exact (v.change t).leader_current
    · rw [(v.change t).leader_of_ne hu]
      by_cases huc : u = v.currentTerminalId
      · subst huc
        rw [ProcView.leader_current]
        exact Function.update_self ..
      · rw [v.leader_of_ne huc]
        exact Function.update_of_ne huc ..
  refine ⟨t.isLt, fun e => ?_, fun u => ?_, hp.stacked⟩
  · exact other.symm.trans e
  · rw [leader u]
    exact hp.chains u

/-- What `Forest` needs of a call: every effect of a call keeps it. -/
lemma ProcView.Forest.effect (h : v.Forest) {c : Call} (eff : c.Effect v v') : v'.Forest := by
  obtain ⟨chain, hp⟩ := h.planted
  cases c with
  | execute fr command =>
      rcases eff with rfl | ⟨pid, st⟩
      · exact h
      · exact hp.started st
  | halt fr status =>
      rcases eff with ex | ⟨root, pid, st⟩
      · exact h.exited ex
      · obtain ⟨chain', hp'⟩ := h.vacated root
        exact hp'.started st
  | terminalSwitch fr t =>
      rcases eff with ⟨-, rfl⟩ | ⟨ht, ho, rfl⟩ | ⟨ht, -, pid, st⟩
      · exact h
      · have other : (v.change t).processOf t = v.processOf t := Function.update_of_ne ht ..
        exact ⟨⟨chain, hp.changed ht⟩, ho, rfl, other ▸ ho⟩
      · exact (hp.changed ht).started st
  | sysOpen fr filename => exact h.fdsChanged eff
  | sysClose i => exact h.fdsChanged eff
  | sysRead fd buf n => exact h.fdsChanged eff
  | sysWrite fd buf n => exact h.fdsChanged eff
  | getargs buf n => exact h.fdsChanged eff

/-- Only a call that starts a shell makes a process without a parent. -/
lemma ProcView.Forest.isRoot_of_effect (h : v.Forest) {c : Call} (eff : c.Effect v v') {p : Int}
    (root : v'.IsRoot p) :
    v.IsRoot p ∨ (∃ fr status, c = .halt fr status) ∨ ∃ fr t, c = .terminalSwitch fr t := by
  have keep (fds : FdsChanged v v') : v.IsRoot p := by
    rw [ProcView.IsRoot, fds.pidCheck, fds.parentOf] at root
    exact root
  cases c with
  | execute fr command =>
      rcases eff with rfl | ⟨pid, st⟩
      · exact .inl root
      · obtain ⟨live, hp⟩ := root
        by_cases hpid : p = pid
        · -- the terminal has a process, so the parent of the new one is `cur_pid`
          subst hpid
          rw [ProcView.parentOf, st.parentPid, if_neg h.processOf] at hp
          exact absurd hp h.curPid
        · rw [st.pidCheck, Function.update_of_ne hpid] at live
          rw [st.parentOf_of_ne hpid] at hp
          exact .inl ⟨live, hp⟩
  | halt fr status => exact .inr (.inl ⟨fr, status, rfl⟩)
  | terminalSwitch fr t => exact .inr (.inr ⟨fr, t, rfl⟩)
  | sysOpen fr filename => exact .inl (keep eff)
  | sysClose i => exact .inl (keep eff)
  | sysRead fd buf n => exact .inl (keep eff)
  | sysWrite fd buf n => exact .inl (keep eff)
  | getargs buf n => exact .inl (keep eff)

/-- Before the boot shell there are no processes. -/
lemma planted_boot (b : BootInfo) : (Kernel.boot b).procView.Planted fun _ => [] := by
  refine ⟨?_, fun _ => rfl, fun t => ?_, fun _ => List.nodup_nil, fun _ _ _ => ?_, fun p => ?_⟩
  · show 0 < 3
    omega
  · show (if (t : Nat) = 0 then (-1 : Int) else -1) = -1
    split_ifs <;> rfl
  · exact List.disjoint_nil_left _
  · constructor
    · intro h
      exact absurd h (by decide : ¬ (0 : UInt8) = 1)
    · rintro ⟨t, ht⟩
      cases ht

/-- The boot shell is the first tree of the forest. -/
lemma forest_bootShell {fr : Frame} {b : BootInfo} {s : Kernel} (h : bootShell fr b = some s) :
    s.procView.Forest := by
  obtain ⟨pid, eip, he⟩ := bootShell_spec h
  exact (planted_boot b).started (started_execute he)

/-- The forest is an invariant of every run. -/
lemma forest_step {s s' : Kernel} {c : Call} (h : s.procView.Forest)
    (run : Call.step s c = some s') :
    s'.procView.Forest := h.effect (Call.effect run)

/-- The invariant holds what is claimed of the forest. -/
lemma ProcView.Forest.processForest (h : v.Forest) : v.ProcessForest := by
  obtain ⟨chain, hp⟩ := h.planted
  exact ⟨chain, hp.chains, hp.stacked⟩

end Lemmas

/-- In every state of every run from the boot shell the processes whose `pid_check` is set are the
disjoint union of the parent chains that start at `cur_pid` for the current terminal and at the kept
process for every other, and a chain ends at a process only `shell` was executed for. -/
theorem process_forest (fr : Frame) (b : BootInfo) (s : Kernel) (cs : List Call)
    (h : bootShell fr b = some s) :
    Throughout Call.step (fun s => s.procView.ProcessForest) s cs ∧
      Along Call.step (fun s c s' => ∀ p, s'.procView.IsRoot p → s.procView.IsRoot p ∨
        (∃ fr status, c = .halt fr status) ∨ ∃ fr t, c = .terminalSwitch fr t) s cs := by
  have h0 := forest_bootShell h
  refine ⟨⟨h0.processForest, ?_⟩, ?_⟩
  · apply along_of_inv (fun s => s.procView.Forest) _ h0
    intro s c s' inv run
    have inv' := forest_step inv run
    exact ⟨inv', inv'.processForest⟩
  · apply along_of_inv (fun s => s.procView.Forest) _ h0
    intro s c s' inv run
    exact ⟨forest_step inv run, fun p root => inv.isRoot_of_effect (Call.effect run) root⟩

/-- A second terminal is opened, and its shell runs another and ends it. -/
theorem process_forest_sample :
    ∃ s s', bootShell sampleFrame sampleBoot = some s ∧
      runs Call.step s [.terminalSwitch sampleFrame 1,
        .execute sampleFrame (some Kernel.shellCommand), .halt sampleFrame 0, .halt sampleFrame 0]
        = some s' ∧ s'.procView.ProcessForest := by
  have completes : ((bootShell sampleFrame sampleBoot).bind fun s =>
      runs Call.step s [.terminalSwitch sampleFrame 1,
        .execute sampleFrame (some Kernel.shellCommand), .halt sampleFrame 0,
        .halt sampleFrame 0]).isSome = true := by decide +kernel
  obtain ⟨s', run⟩ := Option.isSome_iff_exists.mp completes
  obtain ⟨s, hs, run⟩ := Option.bind_eq_some_iff.mp run
  exact ⟨s, s', hs, run, (process_forest sampleFrame sampleBoot s _ hs).1.last run⟩

end Kernel391
