import Kernel391.Process.Coherence

/-!
# Execute and halt as brackets

What a child does between the `execute` that starts it and its `halt` is a body: descriptor calls,
programs it fails to start, and further children from `execute` to `halt`, to any depth. `Kept` is
what a body keeps of the state its process sees, `Restored` what the parent finds again.
-/

namespace Kernel391
open Base

/-- A call that only works on descriptors. -/
inductive DescriptorCall : Call → Prop
  | sysOpen (fr filename) : DescriptorCall (.sysOpen fr filename)
  | sysClose (i) : DescriptorCall (.sysClose i)
  | sysRead (fd buf n) : DescriptorCall (.sysRead fd buf n)
  | sysWrite (fd buf n) : DescriptorCall (.sysWrite fd buf n)
  | getargs (buf n) : DescriptorCall (.getargs buf n)

/-- What a process does between two of its own instructions and its `halt`, from one state to
another. -/
inductive Body : Kernel → Kernel → Prop
  | done (s) : Body s s
  | call {s s' s'' c} : DescriptorCall c → Call.step s c = some s' → Body s' s'' → Body s s''
  | failed {s s' s'' fr command v} :
      s.execute fr command = some (s', .ret v) → Body s' s'' → Body s s''
  | child {s s₁ s₂ s₃ s' fr command pid eip fr' status c} :
      s.execute fr command = some (s₁, .user pid eip) → Body s₁ s₂ →
      s₂.halt fr' status = some (s₃, c) → Body s₃ s' → Body s s'

/-- What the body of the process that runs keeps. -/
structure Kept (v v' : ProcView) : Prop where
  forest : v'.Forest
  coherent : v'.Coherent
  curPid : v'.proc.curPid = v.proc.curPid
  pidCheck : v'.proc.pidCheck = v.proc.pidCheck
  parent : v'.parentOf v.proc.curPid = v.parentOf v.proc.curPid
  tssEsp0 : (v'.proc.pcb (pcbAddr v.proc.curPid)).tssEsp0 =
    (v.proc.pcb (pcbAddr v.proc.curPid)).tssEsp0
  others : ∀ q, v.proc.pidCheck q = 1 → q ≠ v.proc.curPid →
    (v.proc.pcb (pcbAddr q)).SameButStack (v'.proc.pcb (pcbAddr q))

/-- What a process finds again when its child has ended. -/
structure Restored (v v' : ProcView) : Prop where
  curPid : v'.proc.curPid = v.proc.curPid
  curProcessPtr : v'.proc.curProcessPtr = v.proc.curProcessPtr
  filedArray : v'.proc.filedArray = v.proc.filedArray
  pidCheck : v'.proc.pidCheck = v.proc.pidCheck
  userPage : v'.paging.DT userPdIndex = v.paging.DT userPdIndex
  esp0 : v'.tss.esp0 = v.tss.esp0
  live : ∀ q, v.proc.pidCheck q = 1 →
    (v.proc.pcb (pcbAddr q)).SameButStack (v'.proc.pcb (pcbAddr q))

section Lemmas

variable {v v' v'' v₁ v₂ v₃ : ProcView} {pid : Int}

/-- Nothing done keeps everything. -/
lemma Kept.refl (hf : v.Forest) (hc : v.Coherent) : Kept v v :=
  ⟨hf, hc, rfl, rfl, rfl, rfl, fun _ _ _ => .refl _⟩

/-- What two stretches keep, both in sequence keep. -/
lemma Kept.trans (h : Kept v v') (h' : Kept v' v'') : Kept v v'' := by
  refine ⟨h'.forest, h'.coherent, ?_, ?_, ?_, ?_, fun q hq ne => ?_⟩
  · rw [h'.curPid, h.curPid]
  · rw [h'.pidCheck, h.pidCheck]
  · have hp := h'.parent
    rw [h.curPid] at hp
    rw [hp, h.parent]
  · have ht := h'.tssEsp0
    rw [h.curPid] at ht
    rw [ht, h.tssEsp0]
  · apply (h.others q hq ne).trans
    apply h'.others q
    · rw [h.pidCheck]
      exact hq
    · rw [h.curPid]
      exact ne

/-- Descriptor calls work on the descriptors of the process that runs. -/
lemma Kept.fdsChanged (hf : v.Forest) (hc : v.Coherent) (fds : FdsChanged v v') : Kept v v' := by
  obtain ⟨fa, hp⟩ := fds.pcb (pcbAddr v.proc.curPid)
  refine ⟨hf.fdsChanged fds, hc.fdsChanged fds, fds.curPid, fds.pidCheck, ?_, ?_, fun q _ ne => ?_⟩
  · rw [fds.parentOf]
  · rw [hp]
  · have other : pcbAddr q ≠ v.proc.filedArray := by
      rw [hc.filedArray]
      exact fun e => ne (pcbAddr_inj.mp e)
    rw [fds.pcb_of_ne other]
    exact .refl _

/-- A descriptor call changes descriptors only. -/
lemma fdsChanged_of_descriptorCall {c : Call} (isCall : DescriptorCall c) (eff : c.Effect v v') :
    FdsChanged v v' := by
  cases isCall with
  | sysOpen fr filename => exact eff
  | sysClose i => exact eff
  | sysRead fd buf n => exact eff
  | sysWrite fd buf n => exact eff
  | getargs buf n => exact eff

/-- The process that runs is live. -/
lemma ProcView.Forest.live_curPid (h : v.Forest) : v.proc.pidCheck v.proc.curPid = 1 := by
  obtain ⟨chain, hp⟩ := h.planted
  obtain ⟨c, hc⟩ := hp.exists_index
  obtain ⟨l, hl, -⟩ := h.current_chain hc hp
  exact hp.stacked.live_of_mem (hl ▸ List.mem_cons_self)

/-- The process that runs and its ancestors are live. -/
lemma ProcView.Forest.exists_ancestors (h : v.Forest) :
    ∃ l, Linked v.parentOf (-1) v.proc.curPid l ∧ ∀ q ∈ l, v.proc.pidCheck q = 1 := by
  obtain ⟨chain, hp⟩ := h.planted
  obtain ⟨c, hc⟩ := hp.exists_index
  refine ⟨chain c, ?_, fun q hq => hp.stacked.live_of_mem hq⟩
  rw [← v.leader_current, ← hc]
  exact hp.chains c

/-- The parent of a process that was started and kept what a body keeps is the one that started
it. -/
lemma Kept.parent_started (hf : v.Forest) (st : Started v pid v₁) (kept : Kept v₁ v₂) :
    v₂.parent = v.proc.curPid := by
  have h : v₂.parent = v₂.parentOf v₂.proc.curPid := by
    rw [ProcView.parent, kept.coherent.curProcessPtr]
    rfl
  rw [h, kept.curPid, kept.parent, st.curPid, ProcView.parentOf, st.parentPid, if_neg hf.processOf]

/-- A live process is not the one that starts. -/
lemma Started.ne_of_live (st : Started v pid v₁) {q : Int} (live : v.proc.pidCheck q = 1) :
    q ≠ pid := by
  rintro rfl
  rw [st.free] at live
  exact absurd live (by decide)

/-- A child that was started, kept what a body keeps and ended gives everything back. -/
lemma restored_of_kept (hf : v.Forest) (hc : v.Coherent) (st : Started v pid v₁) (kept : Kept v₁ v₂)
    (ex : Exited v₂ v₃) : Restored v v₃ := by
  have ptr := kept.parent_started hf st
  have cur : v₂.proc.curPid = pid := kept.curPid.trans st.curPid
  -- `execute`, the body and `halt` each leave the blocks of the other live processes alone
  have same {q : Int} (hq : v.proc.pidCheck q = 1) :
      (v.proc.pcb (pcbAddr q)).SameButStack (v₃.proc.pcb (pcbAddr q)) := by
    have ne := st.ne_of_live hq
    have first := st.others (pcbAddr q) (fun e => ne (pcbAddr_inj.mp e))
    have live₁ : v₁.proc.pidCheck q = 1 := by
      rw [st.pidCheck, Function.update_of_ne ne]
      exact hq
    have second := kept.others q live₁ (st.curPid.symm ▸ ne)
    have other : pcbAddr q ≠ v₂.proc.filedArray := by
      rw [kept.coherent.filedArray, cur]
      exact fun e => ne (pcbAddr_inj.mp e)
    have third := ex.pcb_of_ne (pcbAddr q) other
    rw [third]
    exact first.trans second
  refine ⟨?_, ?_, ?_, ?_, ?_, ?_, fun q hq => same hq⟩
  · rw [ex.curPid, ptr]
  · rw [ex.curProcessPtr, ptr, hc.curProcessPtr]
  · rw [ex.filedArray, ptr, hc.filedArray]
  · -- the child's slot was free, so setting and clearing it again changes nothing
    rw [ex.pidCheck, cur, kept.pidCheck, st.pidCheck, Function.update_idem, ← st.free,
      Function.update_eq_self]
  · rw [ex.paging, ptr, Paging.mapUserPage_DT, hc.userPage]
  · have own := same hf.live_curPid
    rw [PCB.SameButStack] at own
    have coh := ex.coherent.esp0
    rw [ex.curPid, ptr, own] at coh
    rw [coh, hc.esp0]

/-- A bracket keeps what it restores. -/
lemma Restored.kept (hf : v.Forest) (h : Restored v v') (hf' : v'.Forest) (hc' : v'.Coherent) :
    Kept v v' := by
  have own := h.live _ hf.live_curPid
  rw [PCB.SameButStack] at own
  refine ⟨hf', hc', h.curPid, h.pidCheck, ?_, ?_, fun q hq _ => h.live q hq⟩
  · rw [ProcView.parentOf, own]
    rfl
  · rw [own]

/-- A child's halt ends it: its parent is the process that started it. -/
lemma exited_of_kept (hf : v.Forest) (st : Started v pid v₁) (kept : Kept v₁ v₂) {s₂ s₃ : Kernel}
    (hs : s₂.procView = v₂) {fr : Frame} {status : UInt8} {c : Control}
    (run : s₂.halt fr status = some (s₃, c)) : Exited v₂ s₃.procView := by
  subst hs
  have parent := kept.parent_started hf st
  cases c with
  | ret r => exact absurd run halt_ne_ret
  | user p eip => exact absurd (parent.symm.trans (restarted_halt run).1) hf.curPid
  | resume p r => exact exited_halt run

/-- A body keeps what its process sees. -/
lemma kept_of_body {s s' : Kernel} (body : Body s s') (hf : s.procView.Forest)
    (hc : s.procView.Coherent) : Kept s.procView s'.procView := by
  induction body with
  | done s => exact .refl hf hc
  | call isCall step _ ih =>
      have fds := fdsChanged_of_descriptorCall isCall (Call.effect step)
      have kept := Kept.fdsChanged hf hc fds
      exact kept.trans (ih kept.forest kept.coherent)
  | failed run _ ih =>
      have same := procView_execute_ret run
      rw [same] at ih
      exact ih hf hc
  | child start _ stop _ ih₁ ih₂ =>
      have st := started_execute start
      obtain ⟨chain, hp⟩ := hf.planted
      have kept := ih₁ (hp.started st) st.coherent
      have ex := exited_of_kept hf st kept rfl stop
      -- the child as a whole is one more call of its parent that keeps what a body keeps
      have restored := restored_of_kept hf hc st kept ex
      have kept' := restored.kept hf (kept.forest.exited ex) ex.coherent
      exact kept'.trans (ih₂ kept'.forest kept'.coherent)

/-- A run that never switched to a process ends in agreement. -/
lemma coherent_of_meets {fr : Frame} {b : BootInfo} {s₀ s : Kernel} {cs : List Call}
    (boot : bootShell fr b = some s₀)
    (noSwitch : Meets Call.step (fun s c => ¬ SwitchesToProcess s c) s₀ cs)
    (run : runs Call.step s₀ cs = some s) : s.procView.Coherent := by
  have all := (throughout_iff_meets (fun s : Kernel => s.procView.Forest) coherent_keep
    (forest_bootShell boot) (coherent_bootShell boot)).mpr noSwitch
  exact all.last run

end Lemmas

/-- **Bracketing.** In a state reached from the boot shell without a switch to a process, a process
that executes a child finds everything again when the child, whatever it did, has halted: `cur_pid`,
the pointers, `pid_check`, the user page, the kernel stack, and its own control block and those of
all its ancestors up to the saved stack registers. -/
theorem bracket (fr : Frame) (b : BootInfo) (s₀ s s₁ s₂ s₃ : Kernel) (cs : List Call)
    (boot : bootShell fr b = some s₀) (run : runs Call.step s₀ cs = some s)
    (noSwitch : Meets Call.step (fun s c => ¬ SwitchesToProcess s c) s₀ cs)
    (fr' : Frame) (command : Option (List UInt8)) (pid : Int) (eip : Nat)
    (start : s.execute fr' command = some (s₁, .user pid eip)) (body : Body s₁ s₂)
    (fr'' : Frame) (status : UInt8) (c : Control) (stop : s₂.halt fr'' status = some (s₃, c)) :
    Restored s.procView s₃.procView ∧
      ∃ l, Linked s.procView.parentOf (-1) s.proc.curPid l ∧
        ∀ q ∈ l, (s.proc.pcb (pcbAddr q)).SameButStack (s₃.proc.pcb (pcbAddr q)) := by
  have hf : s.procView.Forest :=
    inv_runs (fun s : Kernel => s.procView.Forest) (fun _ _ _ => forest_step)
      (forest_bootShell boot) run
  have hc := coherent_of_meets boot noSwitch run
  have st := started_execute start
  obtain ⟨chain, hp⟩ := hf.planted
  have kept := kept_of_body body (hp.started st) st.coherent
  have restored := restored_of_kept hf hc st kept (exited_of_kept hf st kept rfl stop)
  obtain ⟨l, hl, live⟩ := hf.exists_ancestors
  exact ⟨restored, l, hl, fun q hq => restored.live q (live q hq)⟩

/-- A shell that runs another shell is back as it was when that halts. -/
theorem bracket_sample : ∃ s s₁ s₂ s₃ c, bootShell sampleFrame sampleBoot = some s ∧
    s.launch sampleFrame (some Kernel.shellCommand) = some s₁ ∧ Body s₁ s₂ ∧
    s₂.halt sampleFrame 7 = some (s₃, c) ∧ Restored s.procView s₃.procView := by
  have completes : ((bootShell sampleFrame sampleBoot).bind fun s =>
      (s.launch sampleFrame (some Kernel.shellCommand)).bind fun s₁ =>
      (Call.step s₁ (.sysOpen sampleFrame (some (bytesOf ['r', 't', 'c'])))).bind fun t =>
      (t.launch sampleFrame (some Kernel.shellCommand)).bind fun t₁ =>
      (t₁.halt sampleFrame 0).bind fun r => r.1.halt sampleFrame 7).isSome = true := by
    decide +kernel
  obtain ⟨⟨s₃, c⟩, h⟩ := Option.isSome_iff_exists.mp completes
  obtain ⟨s, hs, h⟩ := Option.bind_eq_some_iff.mp h
  obtain ⟨s₁, h₁, h⟩ := Option.bind_eq_some_iff.mp h
  obtain ⟨t, ht, h⟩ := Option.bind_eq_some_iff.mp h
  obtain ⟨t₁, ht₁, h⟩ := Option.bind_eq_some_iff.mp h
  obtain ⟨⟨s₂, d⟩, h₂, stop⟩ := Option.bind_eq_some_iff.mp h
  obtain ⟨pid, eip, start⟩ := launch_spec h₁
  obtain ⟨_, _, start'⟩ := launch_spec ht₁
  -- the child opens the rtc, and runs a child of its own
  have body : Body s₁ s₂ := .call (.sysOpen _ _) ht (.child start' (.done t₁) h₂ (.done s₂))
  exact ⟨s, s₁, s₂, s₃, c, hs, h₁, body, stop,
    (bracket sampleFrame sampleBoot s s s₁ s₂ s₃ [] hs rfl
    trivial sampleFrame _ pid eip start body sampleFrame 7 c stop).1⟩

end Kernel391
