import Kernel391.Process.Forest

/-!
# Coherence of the current process

The kernel keeps five views of the process that runs. `execute`, `initialize_PCB` and `halt` set all
of them; `restore_terminal` sets `cur_pid` and `cur_process_ptr` only, while `process_switch` of the
scheduler, which also moves to another process, sets the descriptors, the user page and the kernel
stack as well. So the views agree exactly as long as no switch goes to a terminal with a process.
-/

namespace Kernel391
open Base

/-- The views of the process that runs agree. -/
structure ProcView.Coherent (v : ProcView) : Prop where
  curProcessPtr : v.proc.curProcessPtr = pcbAddr v.proc.curPid
  filedArray : v.proc.filedArray = pcbAddr v.proc.curPid
  userPage : v.paging.DT userPdIndex = userPde (2 + v.proc.curPid).toNat
  esp0 : v.tss.esp0 = (v.proc.pcb (pcbAddr v.proc.curPid)).tssEsp0

/-- The call switches to another terminal, which has a process already. -/
def SwitchesToProcess (s : Kernel) (c : Call) : Prop :=
  ∃ fr t, c = .terminalSwitch fr t ∧ (t : Nat) ≠ s.term.currentTerminalId ∧
    s.procView.processOf t ≠ -1

section Lemmas

variable {v v' : ProcView} {pid : Int}

/-- A call that changes descriptors keeps the records coherent. -/
lemma ProcView.Coherent.fdsChanged (h : v.Coherent) (fds : FdsChanged v v') : v'.Coherent := by
  obtain ⟨hptr, hfa, hpg, hesp⟩ := h
  obtain ⟨fa, hp⟩ := fds.pcb (pcbAddr v.proc.curPid)
  refine ⟨?_, ?_, ?_, ?_⟩
  · rw [fds.curProcessPtr, fds.curPid]
    exact hptr
  · rw [fds.filedArray, fds.curPid]
    exact hfa
  · rw [fds.paging, fds.curPid]
    exact hpg
  · rw [fds.tss, fds.curPid, hp]
    exact hesp

/-- A process that starts is coherent, whatever was before. -/
lemma Started.coherent (st : Started v pid v') : v'.Coherent := by
  refine ⟨?_, ?_, ?_, ?_⟩
  · rw [st.curProcessPtr, st.curPid]
  · rw [st.filedArray, st.curPid]
  · rw [st.paging, st.curPid, Paging.mapUserPage_DT]
  · rw [st.esp0, st.curPid]

/-- A process that is returned to is coherent, whatever was before. -/
lemma Exited.coherent (ex : Exited v v') : v'.Coherent := by
  obtain ⟨fa, hp⟩ := ex.pcb (pcbAddr v.parent)
  refine ⟨?_, ?_, ?_, ?_⟩
  · rw [ex.curProcessPtr, ex.curPid]
  · rw [ex.filedArray, ex.curPid]
  · rw [ex.paging, ex.curPid, Paging.mapUserPage_DT]
  · rw [ex.esp0, ex.curPid, hp]

/-- Two terminals never show the same process. -/
lemma ProcView.Forest.processOf_ne (h : v.Forest) {t : Fin 3} (ht : (t : Nat) ≠ v.currentTerminalId)
    (ho : v.processOf t ≠ -1) : v.processOf t ≠ v.proc.curPid := by
  obtain ⟨chain, hp⟩ := h.planted
  obtain ⟨c, hc⟩ := hp.exists_index
  obtain ⟨l, hl, -⟩ := h.current_chain hc hp
  have link := hp.chains t
  rw [v.leader_of_ne ht] at link
  obtain ⟨l', hl', -⟩ := link.exists_cons ho
  intro e
  have same : t = c := hp.stacked.eq_of_mem (hl' ▸ List.mem_cons_self) (e ▸ hl ▸ List.mem_cons_self)
  exact ht (same ▸ hc)

/-- After a switch to a terminal with a process the descriptors are those of the process before. -/
lemma ProcView.Coherent.not_change (h : v.Coherent) (hf : v.Forest) {t : Fin 3}
    (ht : (t : Nat) ≠ v.currentTerminalId) (ho : v.processOf t ≠ -1) : ¬ (v.change t).Coherent := by
  intro hc
  have fa : v.proc.filedArray = pcbAddr (v.processOf t) := hc.filedArray
  rw [h.filedArray] at fa
  exact hf.processOf_ne ht ho (pcbAddr_inj.mp fa).symm

/-- One call keeps the views in agreement exactly when it does not switch to a process. -/
lemma coherent_step {s s' : Kernel} {c : Call} (hf : s.procView.Forest) (h : s.procView.Coherent)
    (run : Call.step s c = some s') : s'.procView.Coherent ↔ ¬ SwitchesToProcess s c := by
  have eff := Call.effect run
  have keep (hc : s'.procView.Coherent) (other : ∀ fr t, c ≠ .terminalSwitch fr t) :
      s'.procView.Coherent ↔ ¬ SwitchesToProcess s c := by
    refine iff_of_true hc ?_
    rintro ⟨fr, t, e, -⟩
    exact other fr t e
  cases c with
  | execute fr command =>
      apply keep _ (fun _ _ => Call.noConfusion)
      rcases eff with e | ⟨pid, st⟩
      · exact e ▸ h
      · exact st.coherent
  | halt fr status =>
      apply keep _ (fun _ _ => Call.noConfusion)
      rcases eff with ex | ⟨-, pid, st⟩
      · exact ex.coherent
      · exact st.coherent
  | terminalSwitch fr t =>
      rcases eff with ⟨ht, e⟩ | ⟨ht, ho, e⟩ | ⟨ht, ho, pid, st⟩
      · refine iff_of_true (e ▸ h) ?_
        rintro ⟨fr', t', he, hne, -⟩
        cases he
        exact hne ht
      · -- `restore_terminal` alone is not enough
        refine iff_of_false (e ▸ h.not_change hf ht ho) (not_not.mpr ?_)
        exact ⟨fr, t, rfl, ht, ho⟩
      · refine iff_of_true st.coherent ?_
        rintro ⟨fr', t', he, -, hne⟩
        cases he
        exact hne ho
  | sysOpen fr filename => exact keep (h.fdsChanged eff) (fun _ _ => Call.noConfusion)
  | sysClose i => exact keep (h.fdsChanged eff) (fun _ _ => Call.noConfusion)
  | sysRead fd buf n => exact keep (h.fdsChanged eff) (fun _ _ => Call.noConfusion)
  | sysWrite fd buf n => exact keep (h.fdsChanged eff) (fun _ _ => Call.noConfusion)
  | getargs buf n => exact keep (h.fdsChanged eff) (fun _ _ => Call.noConfusion)

/-- The forest is an invariant under which `coherent_step` lifts to runs. -/
lemma coherent_keep (s : Kernel) (c : Call) (s' : Kernel) (hf : s.procView.Forest)
    (hc : s.procView.Coherent) (run : Call.step s c = some s') :
    (s'.procView.Coherent → s'.procView.Forest) ∧
      (s'.procView.Coherent ↔ ¬ SwitchesToProcess s c) :=
  ⟨fun _ => forest_step hf run, coherent_step hf hc run⟩

/-- The records of the first shell are coherent. -/
lemma coherent_bootShell {fr : Frame} {b : BootInfo} {s : Kernel} (h : bootShell fr b = some s) :
    s.procView.Coherent := by
  obtain ⟨pid, eip, he⟩ := bootShell_spec h
  exact (started_execute he).coherent

end Lemmas

/-- In a run from the boot shell the views of the process that runs agree in every state exactly
when no terminal switch of the run goes to another terminal that has a process already. -/
theorem coherent_iff (fr : Frame) (b : BootInfo) (s : Kernel) (cs : List Call)
    (h : bootShell fr b = some s) :
    Throughout Call.step (fun s => s.procView.Coherent) s cs ↔
      Meets Call.step (fun s c => ¬ SwitchesToProcess s c) s cs :=
  throughout_iff_meets (fun s : Kernel => s.procView.Forest) coherent_keep
    (forest_bootShell h) (coherent_bootShell h)

/-- The first shell starts another, which ends; then the user starts one on terminal 1. -/
theorem coherent_iff_sample : ∃ s s', bootShell sampleFrame sampleBoot = some s ∧
    runs Call.step s [.execute sampleFrame (some Kernel.shellCommand), .halt sampleFrame 0,
      .terminalSwitch sampleFrame 1] = some s' ∧
    Throughout Call.step (fun s => s.procView.Coherent) s
      [.execute sampleFrame (some Kernel.shellCommand), .halt sampleFrame 0,
        .terminalSwitch sampleFrame 1] := by
  have facts : ((bootShell sampleFrame sampleBoot).bind fun s =>
      (Call.step s (.execute sampleFrame (some Kernel.shellCommand))).bind fun s₁ =>
      (Call.step s₁ (.halt sampleFrame 0)).bind fun s₂ =>
      (Call.step s₂ (.terminalSwitch sampleFrame 1)).map fun _ => s₂.procView.processOf 1)
      = some (-1) := by decide +kernel
  obtain ⟨s, hs, h⟩ := Option.bind_eq_some_iff.mp facts
  obtain ⟨s₁, h₁, h⟩ := Option.bind_eq_some_iff.mp h
  obtain ⟨s₂, h₂, h⟩ := Option.bind_eq_some_iff.mp h
  obtain ⟨s₃, h₃, empty⟩ := Option.map_eq_some_iff.mp h
  refine ⟨s, s₃, hs, ?_, (coherent_iff sampleFrame sampleBoot s _ hs).mpr ?_⟩
  · simp only [runs_cons, runs_nil, h₁, h₂, h₃, Option.bind_some]
  · refine .cons ?_ h₁ (.cons ?_ h₂ (.cons ?_ h₃ trivial))
    · rintro ⟨_, _, ⟨⟩, -⟩
    · rintro ⟨_, _, ⟨⟩, -⟩
    · rintro ⟨_, t, switch, -, taken⟩
      obtain ⟨-, rfl⟩ := Call.terminalSwitch.inj switch
      exact taken empty

/-- Alt+F2 starts a second shell; Alt+F1 goes back to the first with the descriptors of the
second. -/
theorem not_always_coherent : ¬ ∀ (fr : Frame) (b : BootInfo) (s : Kernel) (cs : List Call),
    bootShell fr b = some s → Throughout Call.step (fun s => s.procView.Coherent) s cs := by
  intro claim
  have there : ((bootShell sampleFrame sampleBoot).bind fun s =>
      runs Call.step s [.terminalSwitch sampleFrame 1, .terminalSwitch sampleFrame 0]).map
        (fun s => (s.proc.filedArray, s.proc.curPid)) = some (pcbAddr 1, 0) := by decide +kernel
  obtain ⟨s', run, e⟩ := Option.map_eq_some_iff.mp there
  obtain ⟨s, hs, run⟩ := Option.bind_eq_some_iff.mp run
  have fa := ((claim sampleFrame sampleBoot s _ hs).last run).filedArray
  obtain ⟨e1, e2⟩ := Prod.mk.inj e
  change s'.proc.filedArray = pcbAddr s'.proc.curPid at fa
  rw [e1, e2] at fa
  exact absurd (pcbAddr_inj.mp fa) (by decide)

end Kernel391
