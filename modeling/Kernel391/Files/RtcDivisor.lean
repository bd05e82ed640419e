import Kernel391.Files.RtcRate
import Kernel391.Process.Descriptors
import Kernel391.Process.Protection

/-!
# The divisor of the rtc

`rtc_read` divides by a frequency that is 0 at boot and that no descriptor owns. A descriptor comes
to the rtc only through `open`, which sets the frequency, and the control block of a process starts
with descriptors that are free or on the terminal, whatever was there before. So a process that
reads the rtc finds a frequency.
-/

namespace Kernel391
open Base

/-- The frequency is one of those `rtc_write` accepts. -/
def Kernel.RateSet (s : Kernel) : Prop := 2 ≤ s.rtc.rtcFreq ∧ s.rtc.rtcFreq ≤ 1024

/-- The descriptor is in use, and on the rtc. -/
def FdArray.OnRtc (e : FdArray) : Prop := e.flags ≠ 0 ∧ e.fileotPointer = 0

/-- What a step may do about the rtc: a frequency that is set stays so, and no descriptor comes to
the rtc without one. -/
structure RateKept (s s' : Kernel) : Prop where
  rate : s.RateSet → s'.RateSet
  slots : ∀ a, ∀ i < 8, ((s'.proc.pcb a).fdArray i).OnRtc →
    ((s.proc.pcb a).fdArray i).OnRtc ∨ s'.RateSet

/-- The processes in `G`, of which one has the descriptor array in use, have no descriptor on the
rtc while its frequency is not set. -/
structure RateSafe (G : Int → Prop) (s : Kernel) : Prop where
  processes : s.procView.Parented G
  array : s.proc.filedArray = 0 ∨ ∃ p, G p ∧ s.proc.filedArray = pcbAddr p
  rate : ∀ p, G p → ∀ i < 8, ((s.proc.pcb (pcbAddr p)).fdArray i).OnRtc → s.RateSet

section Kept

variable {s s' s'' : Kernel} {fr : Frame} {r : Int}

/-- Doing nothing keeps the rate. -/
lemma RateKept.refl (s : Kernel) : RateKept s s := ⟨id, fun _ _ _ => .inl⟩

/-- The rate is kept over two steps. -/
lemma RateKept.trans (h : RateKept s s') (h' : RateKept s' s'') : RateKept s s'' := by
  refine ⟨h'.rate ∘ h.rate, fun a i hi on => ?_⟩
  rcases h'.slots a i hi on with on | rate
  · exact (h.slots a i hi on).imp_right h'.rate
  · exact .inr rate

/-- What changes neither descriptors nor the rtc keeps the rate. -/
lemma RateKept.of_eq (hp : s'.proc = s.proc) (hr : s'.rtc = s.rtc) : RateKept s s' := by
  refine ⟨fun rate => ?_, fun a i _ on => .inl ?_⟩
  · rw [Kernel.RateSet, hr]
    exact rate
  · rw [hp] at on
    exact on

/-- A frequency from 2 to 1024 is a rate that is set. -/
lemma rateSet_of_eq {v : Nat} (hv : s.rtc.rtcFreq = v) (low : 2 ≤ v) (high : v ≤ 1024) :
    s.RateSet := by
  rw [Kernel.RateSet, hv]
  exact ⟨low, high⟩

/-- A step that sets the frequency. -/
lemma RateKept.of_rate (rate : s'.RateSet) : RateKept s s' :=
  ⟨fun _ => rate, fun _ _ _ _ => .inr rate⟩

/-- A descriptor that comes to the rtc only with a frequency. -/
lemma RateKept.setFd {k : Nat} {e : FdArray} (h : e.OnRtc → (s.proc.fd k).OnRtc ∨ s.RateSet) :
    RateKept s { s with proc := s.proc.setFd k e } := by
  refine ⟨id, fun a i _ on => ?_⟩
  by_cases here : a = s.proc.filedArray ∧ i = k
  · obtain ⟨rfl, rfl⟩ := here
    apply h
    simpa [Proc.setFd, Proc.setPcb, Proc.pcb] using on
  · refine .inl ?_
    by_cases array : a = s.proc.filedArray
    · subst array
      have other : i ≠ k := fun e => here ⟨rfl, e⟩
      simpa [Proc.setFd, Proc.setPcb, Proc.pcb, Function.update_of_ne other] using on
    · simpa [Proc.setFd, Proc.setPcb, Proc.pcb, Function.update_of_ne array] using on

/-- `clean_buffer` does not touch the rtc. -/
lemma rtc_cleanBuffer (s : Kernel) : s.cleanBuffer.rtc = s.rtc := by
  have h : s.cleanIndices.rtc = s.rtc := by
    unfold Kernel.cleanIndices
    exact foldl_keeps Kernel.rtc (f := Kernel.cleanIndex) (fun _ _ => rfl) _
  exact h

/-- `terminal_close` does not touch the rtc. -/
lemma rtc_terminalClose (s : Kernel) : s.terminalClose.rtc = s.rtc := by
  have h (t : Kernel) : t.cleanTerminalBuffer.rtc = t.rtc := by
    unfold Kernel.cleanTerminalBuffer
    exact foldl_keeps Kernel.rtc (f := fun s i => s.readToCurTerminalBuffer i 0) (fun _ _ => rfl) _
  exact (h s.cleanBuffer).trans (rtc_cleanBuffer s)

/-- Printing keeps the rate. -/
lemma rateKept_puts (s : Kernel) (text : List UInt8) : RateKept s (s.puts text) :=
  .of_eq (congrArg ProcView.proc (procView_puts s text))
    (foldl_keeps Kernel.rtc (f := Kernel.putc) (fun _ _ => rfl) text)

/-- `terminal_write` keeps the rate. -/
lemma rateKept_terminalWrite {buf : Nat} {n : Int} (run : s.terminalWrite buf n = some (r, s')) :
    RateKept s s' := by
  refine .of_eq (congrArg ProcView.proc (procView_terminalWrite run)) ?_
  exact terminalWrite_inv (P := fun t => t.rtc = s.rtc) rfl (fun _ _ _ h => h)
    (fun _ _ _ h => h) run

/-- An `open` of the tables keeps the rate, and that of the rtc sets it. -/
lemma rateKept_tableOpen {fname : List UInt8} {i : Nat} (run : s.tableOpen fname i = some (s', r)) :
    RateKept s s' ∧ (i = 0 → s'.RateSet) := by
  have set : s.rtcopen.RateSet := rateSet_of_eq (v := 1024) rfl (by decide) (by decide)
  unfold Kernel.tableOpen at run
  split at run
  · cases run
    exact ⟨.of_rate set, fun _ => set⟩
  · cases run
    exact ⟨.of_eq rfl rfl, nofun⟩
  · obtain ⟨x, -, e⟩ := Option.map_eq_some_iff.mp run
    cases e
    exact ⟨.of_eq rfl rfl, nofun⟩
  · cases run
    exact ⟨.refl _, nofun⟩
  · cases run

/-- `open` keeps the rate. -/
lemma rateKept_open {filename : Option (List UInt8)} (run : s.sysOpen fr filename = some (s', r)) :
    RateKept s s' := by
  rcases sysOpen_cases run with
    ⟨rfl, -⟩ | ⟨name, ret, st, d, counter, t, ret', -, -, -, -, -, -, ht, rfl, -⟩
  · exact .refl _
  obtain ⟨kept, set⟩ := rateKept_tableOpen ht
  have reserved : RateKept s { s with proc := s.proc.setFd counter (Kernel.openEntry d 0) } :=
    .setFd fun on => absurd rfl on.1
  -- the entry is on the rtc when its file type is 0, and then the frequency is set
  exact (reserved.trans kept).trans (.setFd fun on => .inr (set on.2))

/-- Clearing the flags of a descriptor. -/
lemma rateKept_clear (s : Kernel) (fd : Nat) :
    RateKept s { s with proc := s.proc.setFd fd { s.proc.fd fd with flags := 0 } } :=
  .setFd fun on => absurd rfl on.1

/-- `close` keeps the rate. -/
lemma rateKept_close {i : Int} (run : s.sysClose i = some (s', r)) : RateKept s s' := by
  rcases sysClose_cases run with ⟨rfl, -⟩ | ⟨fd, -, -, -, -, -, rfl | rfl⟩
  · exact .refl _
  · exact rateKept_clear s fd
  · exact (rateKept_clear s fd).trans (.of_eq (proc_terminalClose _) (rtc_terminalClose _))

/-- The loop of `halt` over the descriptors keeps the rate. -/
lemma rateKept_closeFrom {k i : Nat} (run : Kernel.closeFrom k i s = some s') : RateKept s s' :=
  closeFrom_rel RateKept .refl (fun _ _ _ h h' => h.trans h')
    (fun _ _ _ _ close => rateKept_close close) run

/-- Clearing the descriptors keeps the rate. -/
lemma rateKept_clearFd {i : Nat} (run : s.clearFd i = some s') : RateKept s s' := by
  obtain ⟨⟨t, r⟩, hx, e⟩ := Option.map_eq_some_iff.mp run
  cases e
  exact (rateKept_clear s i).trans (rateKept_close hx)

/-- `read` keeps the rate. -/
lemma rateKept_read {fd buf n : BitVec 32} (run : s.sysRead fd buf n = some (s', r)) :
    RateKept s s' := by
  obtain ⟨res, m, hres, -, rfl⟩ := sysRead_spec run
  have stored : RateKept res.after { res.after with mem := m } := .of_eq rfl rfl
  refine .trans ?_ stored
  rcases readResult_cases hres with rfl | ⟨-, ht | ⟨p, a, i, rfl | ⟨k, pos, rfl⟩, after⟩⟩
  · exact .refl _
  · rcases terminalRead_cases ht with ⟨-, -, e⟩ | ⟨-, -, e, -⟩
    · rw [e]
      exact .refl _
    · rw [e]
      exact .of_eq (congrArg ProcView.proc procView_finishRead) (rtc_cleanBuffer s)
  · rw [after]
    exact ⟨id, fun _ _ _ => .inl⟩
  · rw [after]
    have moved : RateKept s
        { s with proc := s.proc.setFd k { s.proc.fd k with position := pos } } := .setFd .inl
    exact ⟨moved.rate, moved.slots⟩

/-- `write` keeps the rate. -/
lemma rateKept_write {fd buf n : BitVec 32} (run : s.sysWrite fd buf n = some (s', r)) :
    RateKept s s' := by
  rcases sysWrite_cases run with rfl | rfl | ⟨-, ht⟩
  · exact .refl _
  · exact .of_rate (rateSet_of_eq (v := 2) rfl (by decide) (by decide))
  · exact rateKept_terminalWrite ht

/-- `getargs` keeps the rate. -/
lemma rateKept_getargs {buf n : BitVec 32} (run : s.getargs buf n = some (s', r)) :
    RateKept s s' := by
  obtain ⟨res, m, hres, -, rfl⟩ := getargs_spec run
  rw [(getargsResult_cases hres).1]
  exact .of_eq rfl rfl

/-- The start of a process does not touch the rtc. -/
lemma rtc_startProcess (fr : Frame) (loaded : Kernel) (arg : List UInt8) :
    (loaded.startProcess fr arg).rtc = loaded.rtc := by
  obtain ⟨pcbs, hs, -⟩ := saveParent_spec (loaded.initializePCB.setArg arg) fr
  rw [Kernel.startProcess, hs]
  rfl

/-- A process starts with no descriptor on the rtc; the blocks of the others stay. -/
lemma rateKept_execute {command : Option (List UInt8)} {pid : Int} {eip : Nat}
    (run : s.execute fr command = some (s', .user pid eip)) :
    RateKept s s' ∧ ∀ i < 8, ¬ ((s'.proc.pcb (pcbAddr pid)).fdArray i).OnRtc := by
  obtain ⟨old, block⟩ := fdArray_execute run
  have st := started_execute run
  have free (i : Nat) (hi : i < 8) : ¬ ((s'.proc.pcb (pcbAddr pid)).fdArray i).OnRtc := by
    rw [block, Kernel.initFdArray]
    split_ifs
    · exact fun on => absurd on.2 (by decide)
    · exact fun on => absurd rfl on.1
  have rtc : s'.rtc = s.rtc := by
    obtain ⟨line, inode, loaded, -, -, -, -, -, hl, rfl, -⟩ := execute_user run
    obtain ⟨_, m, -, rfl⟩ := loadFile_some hl
    exact rtc_startProcess fr _ _
  refine ⟨⟨fun rate => ?_, fun a i hi on => .inl ?_⟩, free⟩
  · rw [Kernel.RateSet, rtc]
    exact rate
  · have other : a ≠ pcbAddr pid := by
      rintro rfl
      exact free i hi on
    have same := st.others a other
    rw [PCB.SameButStack] at same
    have fds : (s'.procView.proc.pcb a).fdArray = (s.procView.proc.pcb a).fdArray := by rw [same]
    rw [← show (s'.proc.pcb a).fdArray = (s.proc.pcb a).fdArray from fds]
    exact on

/-- `halt` keeps the rate. -/
lemma rateKept_halt {p : Int} {v : Nat} {status : UInt8}
    (run : s.halt fr status = some (s', .resume p v)) : RateKept s s' := by
  obtain ⟨-, ⟨-, run⟩ | ⟨-, _, _, _, _, -, e⟩⟩ := halt_cases run
  · obtain ⟨-, s₁, s₂, s₃, h₁, h₂, h₃, e⟩ := returnToParent_steps run
    cases e
    have closed := ((rateKept_closeFrom h₁).trans (rateKept_clearFd h₂)).trans (rateKept_clearFd h₃)
    exact ⟨closed.rate, closed.slots⟩
  · exact Control.noConfusion (Prod.mk.inj e).2

end Kept

section Runs

variable {s s' : Kernel} {G : Int → Prop} {v : ProcView} {pid : Int}

/-- A descriptor that one of the processes has on the rtc has it with a frequency. -/
lemma RateSafe.slots (h : RateSafe G s) (kept : RateKept s s') {p : Int} {i : Nat} (hp : G p)
    (hi : i < 8) (on : ((s'.proc.pcb (pcbAddr p)).fdArray i).OnRtc) : s'.RateSet := by
  rcases kept.slots _ i hi on with on | rate
  · exact kept.rate (h.rate p hp i hi on)
  · exact rate

/-- A state with the processes of another, the same descriptor array in use, and the rtc kept. -/
lemma RateSafe.kept (h : RateSafe G s) (processes : s'.procView.Parented G)
    (array : s'.proc.filedArray = s.proc.filedArray) (kept : RateKept s s') : RateSafe G s' :=
  ⟨processes, array ▸ h.array, fun _ hp _ hi on => h.slots kept hp hi on⟩

/-- At boot no descriptor is on the rtc. -/
lemma rateSafe_boot (b : BootInfo) : RateSafe (fun _ => False) (Kernel.boot b) :=
  ⟨parented_boot b, .inl rfl, fun _ none => none.elim⟩

/-- A descriptor call. -/
lemma RateSafe.fdsChanged (h : RateSafe G s) (fds : FdsChanged s.procView s'.procView)
    (kept : RateKept s s') : RateSafe G s' :=
  h.kept (h.processes.fdsChanged fds) fds.filedArray kept

/-- A process that starts joins the others. -/
lemma RateSafe.started {fr : Frame} {command : Option (List UInt8)} {eip : Nat} (h : RateSafe G s)
    (run : s.execute fr command = some (s', .user pid eip)) :
    RateSafe (fun p => G p ∨ p = pid) s' := by
  obtain ⟨kept, none⟩ := rateKept_execute run
  have st := started_execute run
  refine ⟨h.processes.started st, .inr ⟨pid, .inr rfl, st.filedArray⟩, fun p hp i hi on => ?_⟩
  rcases hp with hp | rfl
  · exact h.slots kept hp hi on
  · exact absurd on (none i hi)

/-- Printing keeps the rate safe. -/
lemma RateSafe.puts (h : RateSafe G s) (text : List UInt8) : RateSafe G (s.puts text) := by
  have same := procView_puts s text
  exact h.kept (same ▸ h.processes) (congrArg (fun v => v.proc.filedArray) same)
    (rateKept_puts s text)

/-- The end of a process keeps the rate safe. -/
lemma RateSafe.vacated (h : RateSafe G s) (text : List UInt8) : RateSafe G (s.vacated text) := by
  have view := procView_vacated s text
  have printed := rateKept_puts
    { s with proc.pidCheck := Function.update s.proc.pidCheck s.proc.curPid 0 } text
  exact h.kept (view ▸ h.processes.vacate) (congrArg (fun v => v.proc.filedArray) view)
    ⟨printed.rate, printed.slots⟩

/-- A switch to another terminal keeps the rate safe. -/
lemma RateSafe.change (h : RateSafe G s) {t : Nat} (ht : t ≠ s.term.currentTerminalId) :
    RateSafe G (s.changeTerminal t) := by
  have view := procView_changeTerminal ht
  refine h.kept (view ▸ h.processes.change t) (congrArg (fun v => v.proc.filedArray) view) ?_
  have blocks : (s.changeTerminal t).proc.pcbs = s.proc.pcbs :=
    congrArg (fun v => v.proc.pcbs) view
  refine ⟨id, fun a i _ on => .inl ?_⟩
  rw [Proc.pcb, blocks] at on
  exact on

/-- Every step of the system keeps the rtc safe. -/
lemma RateSafe.step {c : Call} (h : RateSafe G s) (run : Call.step s c = some s') :
    ∃ G, RateSafe G s' := by
  have effect := Call.effect run
  cases c with
  | execute fr command =>
      obtain ⟨r, call⟩ := map_fst_eq_some run
      cases r with
      | ret v =>
          obtain ⟨text, rfl⟩ := execute_ret call
          exact ⟨G, h.puts text⟩
      | user pid eip => exact ⟨_, h.started call⟩
      | resume pid v => exact absurd call execute_ne_resume
  | halt fr status =>
      obtain ⟨r, call⟩ := map_fst_eq_some run
      obtain ⟨valid, ⟨-, ret⟩ | ⟨-, text, t, pid, eip, start, e⟩⟩ := halt_cases call
      · cases r with
        | ret v => exact absurd call halt_ne_ret
        | user pid eip =>
            obtain ⟨-, _, _, -, e⟩ := returnToParent_spec ret
            exact Control.noConfusion (Prod.mk.inj e).2
        | resume p v =>
            have ex := exited_halt call
            have parent := h.processes.parent_of_exited valid ex
            have kept := rateKept_halt call
            exact ⟨G, h.processes.exited valid ex, .inr ⟨_, parent, ex.filedArray⟩,
              fun p hp i hi on => h.slots kept hp hi on⟩
      · obtain ⟨rfl, -⟩ := Prod.mk.inj e
        exact ⟨_, (h.vacated text).started start⟩
  | terminalSwitch fr t =>
      rcases step_terminalSwitch run with ⟨-, rfl⟩ | ⟨ht, -, rfl⟩ | ⟨ht, -, pid, eip, start⟩
      · exact ⟨G, h⟩
      · exact ⟨G, h.change ht⟩
      · exact ⟨_, (h.change ht).started start⟩
  | sysOpen fr filename =>
      obtain ⟨r, call⟩ := map_fst_eq_some run
      exact ⟨G, h.fdsChanged effect (rateKept_open call)⟩
  | sysClose i =>
      obtain ⟨r, call⟩ := map_fst_eq_some run
      exact ⟨G, h.fdsChanged effect (rateKept_close call)⟩
  | sysRead fd buf n =>
      obtain ⟨r, call⟩ := map_fst_eq_some run
      exact ⟨G, h.fdsChanged effect (rateKept_read call)⟩
  | sysWrite fd buf n =>
      obtain ⟨r, call⟩ := map_fst_eq_some run
      exact ⟨G, h.fdsChanged effect (rateKept_write call)⟩
  | getargs buf n =>
      obtain ⟨r, call⟩ := map_fst_eq_some run
      exact ⟨G, h.fdsChanged effect (rateKept_getargs call)⟩

/-- A read that comes to `rtc_read` goes through a descriptor of one of the processes. -/
lemma RateSafe.reads {fd buf n : BitVec 32} (h : RateSafe G s) (reads : s.ReadsRtc fd buf n) :
    s.RateSet := by
  obtain ⟨-, high, -, mapped, flags, table⟩ := reads
  rcases h.array with null | ⟨p, hp, array⟩
  · rw [Kernel.fdArrayMapped, null] at mapped
    exact absurd mapped (by decide)
  · apply h.rate p hp fd.toNat (by omega)
    rw [← array]
    exact ⟨flags, table⟩

/-- What a reader of the rtc keeps of the state it began in; in the loop, the frequency is set. -/
structure Dividing (s : Kernel) (x : RtcReader) : Prop where
  proc : x.kernel.proc = s.proc
  freq : x.kernel.rtc.rtcFreq = s.rtc.rtcFreq
  rate : x.point ≠ .outside → s.RateSet

/-- One step of a read never divides by zero. -/
lemma Dividing.step {fd : BitVec 32} {x x' : RtcReader} {e : RtcEvent} (h : Dividing s x)
    (safe : RateSafe G s) (run : rtcStep fd x e = some x') : Dividing s x' := by
  obtain ⟨t, point, interrupts⟩ := x
  obtain ⟨proc, freq, rate⟩ := h
  cases e with
  | interrupt =>
      cases run
      exact ⟨proc, freq, rate⟩
  | read buf n =>
      rw [rtcStep] at run
      split_ifs at run with begins
      cases run
      obtain ⟨-, reads⟩ := begins
      have reads : s.ReadsRtc fd buf n := by
        rw [Kernel.ReadsRtc, Kernel.fdArrayMapped, proc] at reads
        exact reads
      exact ⟨proc, freq, fun _ => safe.reads reads⟩
  | step =>
      cases point with
      | outside => cases run
      | test i =>
          have set : s.RateSet := rate fun outside => by cases outside
          rw [rtcStep] at run
          dsimp only at run
          split_ifs at run
          · cases run
            exact ⟨proc, freq, fun _ => set⟩
          · cases run
            exact ⟨proc, freq, fun _ => set⟩
      | wait i =>
          have set : s.RateSet := rate fun outside => by cases outside
          rw [rtcStep] at run
          dsimp only at run
          split_ifs at run
          · cases run
            exact ⟨proc, freq, fun _ => set⟩
          · cases run
            exact ⟨proc, freq, fun _ => set⟩
      | clear i =>
          have set : s.RateSet := rate fun outside => by cases outside
          cases run
          exact ⟨proc, freq, fun _ => set⟩

end Runs

/-- **The divisor of the rtc.** In a state that any calls of any processes, and any terminal
switches, lead to from boot, a read that comes to `rtc_read` finds a frequency from 2 to 1024; it
divides by such a frequency at every test of its loop, whatever reads and interrupts came before. -/
theorem rtc_divisor_set (b : BootInfo) (cs : List Call) (s : Kernel)
    (run : runs Call.step (Kernel.boot b) cs = some s) :
    (∀ fd buf n, s.ReadsRtc fd buf n → 2 ≤ s.rtc.rtcFreq ∧ s.rtc.rtcFreq ≤ 1024) ∧
    ∀ fd es x, runs (rtcStep fd) ⟨s, .outside, 0⟩ es = some x →
      ∀ i, x.point = .test i → 2 ≤ x.kernel.rtc.rtcFreq ∧ x.kernel.rtc.rtcFreq ≤ 1024 := by
  have start : ∃ G, RateSafe G (Kernel.boot b) := ⟨_, rateSafe_boot b⟩
  obtain ⟨G, safe⟩ := inv_runs (fun s => ∃ G, RateSafe G s)
    (fun s c s' h step => h.elim fun G safe => safe.step step) start run
  refine ⟨fun fd buf n reads => safe.reads reads, fun fd es x events i test => ?_⟩
  have outside : Dividing s ⟨s, .outside, 0⟩ := ⟨rfl, rfl, fun inside => absurd rfl inside⟩
  have dividing := inv_runs (Dividing s) (fun _ _ _ h step => h.step safe step) outside events
  have set : s.RateSet := dividing.rate (by rw [test]; nofun)
  rw [dividing.freq]
  exact set

/-- A shell opens the rtc and reads it. -/
theorem rtc_divisor_set_sample : ∃ s, runs Call.step (Kernel.boot sampleBoot)
      [.execute sampleFrame (some Kernel.shellCommand),
        .sysOpen sampleFrame (some (bytesOf ['r', 't', 'c']))] = some s ∧
    s.ReadsRtc 2 0x08048100 4 ∧ 2 ≤ s.rtc.rtcFreq ∧ s.rtc.rtcFreq ≤ 1024 := by
  have reads : (runs Call.step (Kernel.boot sampleBoot)
      [.execute sampleFrame (some Kernel.shellCommand),
        .sysOpen sampleFrame (some (bytesOf ['r', 't', 'c']))]).any
          (fun s => decide (s.ReadsRtc 2 0x08048100 4)) = true := by
    decide +kernel
  obtain ⟨s, run, reads⟩ := (Option.any_eq_true _ _).mp reads
  have reads := of_decide_eq_true reads
  exact ⟨s, run, reads, (rtc_divisor_set sampleBoot _ s run).1 2 0x08048100 4 reads⟩

end Kernel391
