import Kernel391.Process.Bracket
import Kernel391.Process.Descriptors
import Kernel391.Process.Protection

/-!
# Exit statuses

A child's status reaches its parent through the frame that `execute` left in the parent's control
block. `Exits` is a body with a record of every child that ended in it; what the running process
leaves alone in the blocks of the other live processes carries the frames over bodies of any depth.
The marker of exceptions is one of the 256 statuses, so that status arrives as 256.
-/

namespace Kernel391
open Base

/-- `EXCEPTION_STATUS`. -/
def exceptionStatus : UInt8 := 0x0F

/-- The end of a child: the process that executed it and the frame of that call, the status the
child halted with, and what `halt` did, with the stack registers it took from the block of the
process it resumed. -/
structure Exit where
  caller : Int
  frame : Frame
  status : UInt8
  control : Control
  esp : Nat
  ebp : Nat

/-- The `execute` call of the process that started the child returns the status. -/
structure Exit.Delivered (e : Exit) : Prop where
  value : e.control = .resume e.caller e.status.toNat
  esp : e.esp = e.frame.esp
  ebp : e.ebp = e.frame.ebp

/-- What a process does between two of its own instructions and its `halt`, with the children that
end in it, their own children before them. A chain of nested `execute` calls is the case of one
child in each. -/
inductive Exits : Kernel → List Exit → Kernel → Prop
  | done (s) : Exits s [] s
  | call {s s' s'' c es} : DescriptorCall c → Call.step s c = some s' → Exits s' es s'' →
    Exits s es s''
  | failed {s s' s'' fr command v es} :
      s.execute fr command = some (s', .ret v) → Exits s' es s'' → Exits s es s''
  | child {s s₁ s₂ s₃ s' fr command pid eip fr' status c inner es} :
      s.execute fr command = some (s₁, .user pid eip) → Exits s₁ inner s₂ →
      s₂.halt fr' status = some (s₃, c) → Exits s₃ es s' →
      Exits s
        (inner ++
          { caller := s.proc.curPid
            frame := fr
            status := status
            control := c
            esp := (s₃.proc.pcb s₃.proc.curProcessPtr).scheduledEsp
            ebp := (s₃.proc.pcb s₃.proc.curProcessPtr).scheduledEbp } :: es) s'

/-- The blocks of the live processes other than the running one are as they were, saved stack
registers included. -/
def Untouched (v v' : ProcView) : Prop :=
  ∀ q, v.proc.pidCheck q = 1 → q ≠ v.proc.curPid →
    v'.proc.pcb (pcbAddr q) = v.proc.pcb (pcbAddr q)

section Lemmas

variable {s s' s₁ s₂ s₃ : Kernel} {es : List Exit} {fr fr' : Frame} {command : Option (List UInt8)}
variable {pid : Int} {eip : Nat} {status : UInt8} {c : Control} {v v' v'' : ProcView}

/-- A sequence of halts is a body. -/
lemma Exits.body (h : Exits s es s') : Body s s' := by
  induction h with
  | done s => exact .done s
  | call isCall step _ ih => exact .call isCall step ih
  | failed run _ ih => exact .failed run ih
  | child start _ stop _ ih₁ ih₂ => exact .child start ih₁ stop ih₂

/-- Nothing done touches nothing. -/
lemma Untouched.refl (v : ProcView) : Untouched v v := fun _ _ _ => rfl

/-- What two stretches leave untouched, both in sequence do. -/
lemma Untouched.trans (kept : Kept v v') (h : Untouched v v') (h' : Untouched v' v'') :
    Untouched v v'' := by
  intro q live ne
  have live' : v'.proc.pidCheck q = 1 := by
    rw [kept.pidCheck]
    exact live
  have ne' : q ≠ v'.proc.curPid := by
    rw [kept.curPid]
    exact ne
  rw [h' q live' ne', h q live ne]

/-- Descriptor calls work on the block of the process that runs. -/
lemma untouched_of_fdsChanged (hc : v.Coherent) (fds : FdsChanged v v') : Untouched v v' := by
  intro q _ ne
  have other : pcbAddr q ≠ v.proc.filedArray := by
    rw [hc.filedArray]
    exact fun e => ne (pcbAddr_inj.mp e)
  exact fds.pcb_of_ne other

/-- `saveParent` writes the frame to the block of the parent and to no other. -/
lemma saveParent_pcb (t : Kernel) (fr : Frame)
    (hp : (t.proc.pcb t.proc.curProcessPtr).parentPid ≠ -1) (a : Int) :
    (t.saveParent fr).proc.pcb a =
      if a = pcbAddr (t.proc.pcb t.proc.curProcessPtr).parentPid then
        { t.proc.pcb a with scheduledEsp := fr.esp, scheduledEbp := fr.ebp }
      else t.proc.pcb a := by
  rw [Kernel.saveParent]
  dsimp only
  rw [if_pos hp]
  show Function.update t.proc.pcbs _ _ a = _
  by_cases ha : a = pcbAddr (t.proc.pcb t.proc.curProcessPtr).parentPid
  · subst ha
    rw [Function.update_self, if_pos rfl]
  · rw [Function.update_of_ne ha, if_neg ha]
    rfl

/-- A process that starts a child has the frame of its call in its block; the blocks of all others
but the child's are as they were. -/
lemma pcb_execute (hf : s.procView.Forest) (run : s.execute fr command = some (s₁, .user pid eip)) :
    (s₁.proc.pcb (pcbAddr s.proc.curPid)).scheduledEsp = fr.esp ∧
      (s₁.proc.pcb (pcbAddr s.proc.curPid)).scheduledEbp = fr.ebp ∧
      ∀ a, a ≠ pcbAddr pid → a ≠ pcbAddr s.proc.curPid → s₁.proc.pcb a = s.proc.pcb a := by
  obtain ⟨line, inode, loaded, -, -, -, -, -, hl, rfl, -⟩ := execute_user run
  obtain ⟨ptr, parent, -, other⟩ :=
    pcb_initialized hl (upToNul (parseCommand (upToNul line)).argCommand)
  have shown : s.term.current.currentProcessId ≠ -1 := hf.processOf
  rw [if_neg shown, ← ptr] at parent
  have blocks := saveParent_pcb _ fr (parent.symm ▸ hf.curPid)
  rw [parent] at blocks
  refine ⟨?_, ?_, fun a child caller => ?_⟩
  · rw [Kernel.startProcess]
    exact congrArg PCB.scheduledEsp ((blocks _).trans (if_pos rfl))
  · rw [Kernel.startProcess]
    exact congrArg PCB.scheduledEbp ((blocks _).trans (if_pos rfl))
  · rw [Kernel.startProcess]
    exact ((blocks a).trans (if_neg caller)).trans (other a child)

/-- What the halt of a process with a parent gives that parent. -/
lemma halt_control (run : s.halt fr status = some (s', c)) (hp : s.procView.parent ≠ -1) :
    c = .resume s.procView.parent (if status = exceptionStatus then 256 else status.toNat) := by
  obtain ⟨-, ⟨-, ret⟩ | ⟨root, -⟩⟩ := halt_cases run
  · obtain ⟨-, _, _, _, -, -, -, e⟩ := returnToParent_steps ret
    exact (Prod.mk.inj e).2
  · exact absurd root hp

/-- A child that leaves the other blocks alone until it halts leaves those of its ancestors as its
start left them. -/
lemma pcb_child (st : Started s.procView pid s₁.procView)
    (kept : Kept s₁.procView s₂.procView) (inner : Untouched s₁.procView s₂.procView)
    (ex : Exited s₂.procView s₃.procView) {q : Int} (live : s.proc.pidCheck q = 1) :
    s₃.proc.pcb (pcbAddr q) = s₁.proc.pcb (pcbAddr q) := by
  have ne : q ≠ pid := st.ne_of_live live
  have live₁ : s₁.procView.proc.pidCheck q = 1 := by
    rw [st.pidCheck, Function.update_of_ne ne]
    exact live
  have body := inner q live₁ (st.curPid.symm ▸ ne)
  have other : pcbAddr q ≠ s₂.procView.proc.filedArray := by
    rw [kept.coherent.filedArray, kept.curPid, st.curPid]
    exact fun e => ne (pcbAddr_inj.mp e)
  exact (ex.pcb_of_ne (pcbAddr q) other).trans body

/-- Along a body the frames stay, and every child that ends resumes the call that started it, with
its status or the marker. -/
lemma exits_spec (h : Exits s es s') (hf : s.procView.Forest) (hc : s.procView.Coherent) :
    Untouched s.procView s'.procView ∧ ∀ e ∈ es,
      e.control = .resume e.caller (if e.status = exceptionStatus then 256 else e.status.toNat) ∧
      e.esp = e.frame.esp ∧ e.ebp = e.frame.ebp := by
  induction h with
  | done s => exact ⟨.refl _, fun e he => absurd he List.not_mem_nil⟩
  | call isCall step _ ih =>
      have fds := fdsChanged_of_descriptorCall isCall (Call.effect step)
      have kept := Kept.fdsChanged hf hc fds
      obtain ⟨rest, all⟩ := ih kept.forest kept.coherent
      exact ⟨.trans kept (untouched_of_fdsChanged hc fds) rest, all⟩
  | failed run _ ih =>
      have same := procView_execute_ret run
      rw [same] at ih
      exact ih hf hc
  | @child s s₁ s₂ s₃ s' fr command pid eip fr' status c inner es start inside stop rest ih₁ ih₂ =>
      have st := started_execute start
      obtain ⟨chain, hp⟩ := hf.planted
      have kept := kept_of_body inside.body (hp.started st) st.coherent
      have ex := exited_of_kept hf st kept rfl stop
      have restored := restored_of_kept hf hc st kept ex
      have kept' := restored.kept hf (kept.forest.exited ex) ex.coherent
      obtain ⟨untouched, all⟩ := ih₁ (hp.started st) st.coherent
      obtain ⟨untouched', all'⟩ := ih₂ kept'.forest kept'.coherent
      obtain ⟨esp, ebp, others⟩ := pcb_execute hf start
      refine ⟨.trans kept' (fun q live ne => ?_) untouched', fun e he => ?_⟩
      · have child : pcbAddr q ≠ pcbAddr pid := fun eq => st.ne_of_live live (pcbAddr_inj.mp eq)
        have start_kept := others (pcbAddr q) child (fun eq => ne (pcbAddr_inj.mp eq))
        exact (pcb_child st kept untouched ex live).trans start_kept
      · rcases List.mem_append.mp he with before | he
        · exact all e before
        rcases List.mem_cons.mp he with rfl | later
        · -- the parent's block still holds the frame of the call
          have own := pcb_child st kept untouched ex hf.live_curPid
          have parent := kept.parent_started hf st
          have ptr : s₃.proc.curProcessPtr = pcbAddr s.proc.curPid :=
            restored.curProcessPtr.trans hf.curProcessPtr
          refine ⟨?_, ?_, ?_⟩
          · have control := halt_control stop (parent.symm ▸ hf.curPid)
            rw [parent] at control
            exact control
          · dsimp only
            rw [ptr]
            exact (congrArg PCB.scheduledEsp own).trans esp
          · dsimp only
            rw [ptr]
            exact (congrArg PCB.scheduledEbp own).trans ebp
        · exact all' e later

/-- The marker is the only status that does not arrive. -/
lemma delivered_iff (h : Exits s es s') (hf : s.procView.Forest) (hc : s.procView.Coherent) :
    (∀ e ∈ es, e.Delivered) ↔ ∀ e ∈ es, e.status ≠ exceptionStatus := by
  obtain ⟨-, all⟩ := exits_spec h hf hc
  constructor
  · intro delivered e he marker
    obtain ⟨control, -, -⟩ := all e he
    rw [(delivered e he).value, marker, if_pos rfl] at control
    exact absurd (Control.resume.inj control).2 (by decide)
  · intro none e he
    obtain ⟨control, esp, ebp⟩ := all e he
    rw [if_neg (none e he)] at control
    exact ⟨control, esp, ebp⟩

end Lemmas

/-! ### Chains -/

/-- A chain of nested `execute` calls, the outermost first, each of which starts a program. -/
def Kernel.nest (s : Kernel) : List (Frame × Option (List UInt8)) → Option Kernel
  | [] => some s
  | (fr, command) :: rest => (s.launch fr command).bind fun s₁ => s₁.nest rest

/-- The processes halt one after the other, the innermost first; what each of them did. -/
def Kernel.unwind (s : Kernel) : List (Frame × UInt8) → Option (Kernel × List Control)
  | [] => some (s, [])
  | (fr, status) :: rest =>
    (s.halt fr status).bind fun r => (r.1.unwind rest).map fun q => (q.1, r.2 :: q.2)

/-- A process in one of the six slots, with no file open. -/
structure Idle (s : Kernel) (p : Int) : Prop where
  nonneg : 0 ≤ p
  below : p < 6
  flags : ∀ i, 2 ≤ i → i < 8 → ((s.proc.pcb (pcbAddr p)).fdArray i).flags = 0

section Chains

variable {s s' s₁ : Kernel} {fr : Frame} {pid : Int} {eip : Nat} {status : UInt8}

/-- A process starts with nothing open. -/
lemma idle_execute {command : Option (List UInt8)}
    (run : s.execute fr command = some (s₁, .user pid eip)) : Idle s₁ pid := by
  have st := started_execute run
  obtain ⟨old, block⟩ := fdArray_execute run
  refine ⟨st.nonneg, st.below, fun i low high => ?_⟩
  rw [block, Kernel.initFdArray, if_neg (by omega), if_pos high]

/-- Closing free descriptors does nothing. -/
lemma closeFrom_idle {k i : Nat} (low : 2 ≤ i) (high : i + k ≤ 8)
    (free : ∀ j, 2 ≤ j → j < 8 → (s.proc.fd j).flags = 0) : Kernel.closeFrom k i s = some s := by
  induction k generalizing i with
  | zero => rfl
  | succ k ih =>
      have refused : s.sysClose i = some (s, -1) := by
        rw [Kernel.sysClose]
        split_ifs with range null unused
        · rfl
        · rfl
        · rfl
        · exact absurd (.inr (.inr (free i low (by omega)))) unused
        · exact absurd (.inr (.inr (free i low (by omega)))) unused
      rw [Kernel.closeFrom, refused]
      exact ih (by omega) (by omega)

/-- The descriptors of a process with nothing open can be cleared. -/
lemma clearFd_idle {i : Nat} (h : i = 0 ∨ i = 1) : (s.clearFd i).isSome := by
  rw [Kernel.clearFd, Option.isSome_map, Kernel.sysClose]
  split_ifs with range null unused
  · rfl
  · rfl
  · rfl
  · omega
  · omega

/-- The block of a process in one of the six slots is in the kernel's page. -/
lemma kernelPtr_pcbAddr {p : Int} (h0 : 0 ≤ p) (h6 : p < 6) : KernelPtr (pcbAddr p) := by
  rw [KernelPtr, pcbAddr, endOfKernel, kernelStackSize]
  omega

/-- A process with nothing open returns to its parent. -/
lemma returnToParent_completes {p : Int} (h0 : 0 ≤ p) (h6 : p < 6)
    (free : ∀ i, 2 ≤ i → i < 8 → (s.proc.fd i).flags = 0) :
    ∃ r, s.returnToParent p status = some r := by
  let parent : Kernel :=
    { s with
      tss := { esp0 := (s.proc.pcb (pcbAddr p)).tssEsp0, ss0 := kernelDs }
      paging := s.paging.mapUserPage (2 + p).toNat }
  have files : Kernel.closeFrom 6 2 parent = some parent :=
    closeFrom_idle (by omega) (by omega) free
  obtain ⟨s₂, input⟩ := Option.isSome_iff_exists.mp (clearFd_idle (s := parent) (.inl rfl))
  obtain ⟨s₃, output⟩ := Option.isSome_iff_exists.mp (clearFd_idle (s := s₂) (.inr rfl))
  rw [Kernel.returnToParent]
  dsimp only
  rw [if_neg (not_not.mpr (kernelPtr_pcbAddr h0 h6))]
  show ∃ r, (Kernel.closeFrom 6 2 parent).bind _ = some r
  rw [files]
  show ∃ r, (parent.clearFd 0).bind _ = some r
  rw [input]
  show ∃ r, (s₂.clearFd 1).bind _ = some r
  rw [output]
  exact ⟨_, rfl⟩

/-- A process without open files can halt. -/
lemma halt_completes (fr : Frame) (status : UInt8) (hc : s.procView.Coherent)
    (idle : Idle s s.proc.curPid) (h0 : 0 ≤ s.procView.parent) (h6 : s.procView.parent < 6) :
    ∃ r, s.halt fr status = some r := by
  have array : s.proc.filedArray = pcbAddr s.proc.curPid := hc.filedArray
  have ptr : s.proc.curProcessPtr = pcbAddr s.proc.curPid := hc.curProcessPtr
  have own : KernelPtr s.proc.curProcessPtr := by
    rw [ptr]
    exact kernelPtr_pcbAddr idle.nonneg idle.below
  have free (i : Nat) (low : 2 ≤ i) (high : i < 8) : (s.proc.fd i).flags = 0 := by
    rw [Proc.fd, array]
    exact idle.flags i low high
  rw [Kernel.halt]
  dsimp only
  rw [if_neg (not_not.mpr own)]
  split
  next root =>
    have none : s.procView.parent = -1 := root
    omega
  · exact returnToParent_completes h0 h6 free

/-- Halts in two groups. -/
lemma unwind_append {hs hs' : List (Frame × UInt8)} {cs : List Control}
    (run : s.unwind hs = some (s₁, cs)) :
    s.unwind (hs ++ hs') = (s₁.unwind hs').map fun q => (q.1, cs ++ q.2) := by
  induction hs generalizing s cs with
  | nil =>
      cases run
      simp [Option.map_id']
  | cons h hs ih =>
      obtain ⟨fr, status⟩ := h
      rw [Kernel.unwind] at run
      obtain ⟨⟨t, c⟩, halted, run⟩ := Option.bind_eq_some_iff.mp run
      obtain ⟨⟨t', cs'⟩, rest, e⟩ := Option.map_eq_some_iff.mp run
      cases e
      rw [List.cons_append, Kernel.unwind, halted, Option.bind_some, ih rest, Option.map_map]
      rfl

/-- A chain from a process in one of the six slots unwinds, and leaves the block of that process as
it was up to the saved stack registers. -/
lemma unwind_spec (s t : Kernel) (chain : List (Frame × Option (List UInt8)))
    (hs : List (Frame × UInt8)) (hf : s.procView.Forest) (hc : s.procView.Coherent)
    (h0 : 0 ≤ s.proc.curPid) (h6 : s.proc.curPid < 6) (start : s.nest chain = some t)
    (length : hs.length = chain.length) :
    ∃ s' es, t.unwind hs = some (s', es.map Exit.control) ∧ Exits s es s' ∧
      es.map Exit.status = hs.map Prod.snd ∧
      (s.proc.pcb (pcbAddr s.proc.curPid)).SameButStack (s'.proc.pcb (pcbAddr s.proc.curPid)) := by
  induction chain generalizing s hs with
  | nil =>
      cases start
      obtain rfl : hs = [] := List.length_eq_zero_iff.mp length
      exact ⟨_, [], rfl, .done _, rfl, .refl _⟩
  | cons link chain ih =>
      obtain ⟨fr, command⟩ := link
      obtain ⟨s₁, launched, rest⟩ := Option.bind_eq_some_iff.mp start
      obtain ⟨pid, eip, run⟩ := launch_spec launched
      -- the outermost process of the chain halts last
      obtain ⟨inner, ⟨fr', status⟩, rfl⟩ : ∃ inner last, hs = inner ++ [last] := by
        rcases List.eq_nil_or_concat hs with rfl | concat
        · cases length
        · simpa using concat
      have st := started_execute run
      have cur : s₁.proc.curPid = pid := st.curPid
      obtain ⟨_, hp⟩ := hf.planted
      have shorter : inner.length = chain.length := by
        rw [List.length_append, List.length_cons] at length
        exact Nat.succ.inj length
      obtain ⟨s₂, es, unwound, inside, statuses, own⟩ :=
        ih s₁ inner (hp.started st) st.coherent (cur ▸ st.nonneg) (cur ▸ st.below) rest shorter
      have kept := kept_of_body inside.body (hp.started st) st.coherent
      have parent := kept.parent_started hf st
      have cur₂ : s₂.proc.curPid = pid := kept.curPid.trans cur
      have idle : Idle s₂ s₂.proc.curPid := by
        have before := idle_execute run
        rw [cur, PCB.SameButStack] at own
        rw [cur₂]
        refine ⟨before.nonneg, before.below, fun i low high => ?_⟩
        rw [own]
        exact before.flags i low high
      obtain ⟨⟨s₃, c⟩, stop⟩ :=
        halt_completes fr' status kept.coherent idle (parent.symm ▸ h0) (parent.symm ▸ h6)
      have ex := exited_of_kept hf st kept rfl stop
      have restored := restored_of_kept hf hc st kept ex
      refine ⟨s₃, _, ?_, .child run inside stop (.done s₃), ?_, restored.live _ hf.live_curPid⟩
      · rw [unwind_append unwound, Kernel.unwind, stop, List.map_append]
        rfl
      · rw [List.map_append, statuses, List.map_append]
        rfl

end Chains

/-- **Exit statuses.** In a state reached without a switch to a process, every child that ends in a
body, however deep, returns its status to the `execute` call that started it, exactly if none of
them halts with the marker of exceptions. The processes of a chain can halt with any statuses: all
these calls complete, and the chain is such a body. -/
theorem statuses_delivered_iff (fr : Frame) (b : BootInfo) (s₀ s : Kernel) (cs : List Call)
    (boot : bootShell fr b = some s₀) (run : runs Call.step s₀ cs = some s)
    (noSwitch : Meets Call.step (fun s c => ¬ SwitchesToProcess s c) s₀ cs) :
    (∀ es s', Exits s es s' →
      ((∀ e ∈ es, e.Delivered) ↔ ∀ e ∈ es, e.status ≠ exceptionStatus)) ∧
    ∀ chain hs t, s.nest chain = some t → hs.length = chain.length →
      ∃ s' es, t.unwind hs = some (s', es.map Exit.control) ∧ Exits s es s' ∧
        es.map Exit.status = hs.map Prod.snd := by
  have hf : s.procView.Forest :=
    inv_runs (fun s : Kernel => s.procView.Forest) (fun _ _ _ => forest_step)
      (forest_bootShell boot) run
  have hc := coherent_of_meets boot noSwitch run
  refine ⟨fun es s' exits => delivered_iff exits hf hc, fun chain hs t start length => ?_⟩
  obtain ⟨pid, eip, started⟩ := bootShell_spec boot
  have first : ∃ G, s₀.procView.Parented G :=
    ⟨_, (parented_boot b).started (started_execute started)⟩
  obtain ⟨G, processes⟩ := inv_runs (fun s : Kernel => ∃ G, s.procView.Parented G)
    (fun _ _ _ h step => h.elim fun _ h => h.step step) first run
  obtain ⟨h0, h6⟩ := processes.range _ (processes.curPid.resolve_left hf.curPid)
  obtain ⟨s', es, unwound, exits, statuses, -⟩ :=
    unwind_spec s t chain hs hf hc h0 h6 start length
  exact ⟨s', es, unwound, exits, statuses⟩

/-- Two shells above the first halt with 0 and 7. -/
theorem statuses_delivered_iff_sample : ∃ s t s', ∃ es : List Exit,
    bootShell sampleFrame sampleBoot = some s ∧
    s.nest [(sampleFrame, some Kernel.shellCommand), (sampleFrame, some Kernel.shellCommand)] =
      some t ∧
    t.unwind [(sampleFrame, 0), (sampleFrame, 7)] = some (s', es.map Exit.control) ∧
    es.map Exit.status = [0, 7] ∧ ∀ e ∈ es, e.Delivered := by
  have completes : ((bootShell sampleFrame sampleBoot).bind fun s =>
      s.nest [(sampleFrame, some Kernel.shellCommand),
        (sampleFrame, some Kernel.shellCommand)]).isSome = true := by
    decide +kernel
  obtain ⟨t, h⟩ := Option.isSome_iff_exists.mp completes
  obtain ⟨s, hs, start⟩ := Option.bind_eq_some_iff.mp h
  obtain ⟨delivered, unwinds⟩ :=
    statuses_delivered_iff sampleFrame sampleBoot s s [] hs rfl trivial
  obtain ⟨s', es, unwound, exits, statuses⟩ :=
    unwinds _ [(sampleFrame, 0), (sampleFrame, 7)] t start rfl
  refine ⟨s, t, s', es, hs, start, unwound, statuses, (delivered es s' exits).mpr fun e he => ?_⟩
  have mem : e.status ∈ es.map Exit.status := List.mem_map_of_mem he
  rw [statuses] at mem
  intro marker
  rw [marker] at mem
  exact absurd mem (by decide)

/-- A shell that halts with 15 looks like one that ended in an exception. -/
theorem not_always_statuses_delivered : ¬ ∀ (fr : Frame) (b : BootInfo) (s₀ s s' : Kernel)
    (cs : List Call) (es : List Exit), bootShell fr b = some s₀ → runs Call.step s₀ cs = some s →
    Meets Call.step (fun s c => ¬ SwitchesToProcess s c) s₀ cs → Exits s es s' →
    ∀ e ∈ es, e.Delivered := by
  intro claim
  have completes : ((bootShell sampleFrame sampleBoot).bind fun s =>
      (s.launch sampleFrame (some Kernel.shellCommand)).bind fun s₁ =>
      (s₁.halt sampleFrame 15).bind fun r =>
        if r.2 = .resume 0 256 then some r else none).isSome = true := by
    decide +kernel
  obtain ⟨r, h⟩ := Option.isSome_iff_exists.mp completes
  obtain ⟨s, hs, h⟩ := Option.bind_eq_some_iff.mp h
  obtain ⟨s₁, h₁, h⟩ := Option.bind_eq_some_iff.mp h
  obtain ⟨⟨s₂, c⟩, stop, h⟩ := Option.bind_eq_some_iff.mp h
  split at h
  next marker =>
    obtain ⟨pid, eip, start⟩ := launch_spec h₁
    have exits := Exits.child start (.done s₁) stop (.done s₂)
    have value := (claim _ _ s s s₂ [] _ hs rfl trivial exits _ List.mem_cons_self).value
    dsimp only at marker value
    rw [marker] at value
    exact absurd (Control.resume.inj value).2 (by decide)
  · cases h

end Kernel391
