import Kernel391.Files.RtcDivisor
import Kernel391.Process.Statuses
import Kernel391.User.Launching

/-!
# Starting and ending a process

A process that executes a program finds its world again when the program has halted: its descriptors
and arguments are as they were, what the program printed follows on what it had printed itself, and
the call returns the program's status (`command_returns`). What the program does meanwhile is a run
in a world of its own, of which nothing is left but its output, the line it read and the header of
the volume.
-/

namespace Kernel391.User
open Base

/-- The RTC kept its frequency, or was set to one above 128. -/
def Fast (s s' : Kernel) : Prop := s'.rtc.rtcFreq = s.rtc.rtcFreq ∨ 128 < s'.rtc.rtcFreq

/-- What the calls of a process leave of the processes beside it. -/
structure Aside (s s' : Kernel) : Prop where
  kept : Kept s.procView s'.procView
  fast : Fast s s'
  paging : s'.paging = s.paging

section Asides

variable {m : Mem} {modStart k : Nat} {pane : Pane} {w w' : World} {s s' s'' : Kernel} {fr : Frame}
  {area : BitVec 32} {r : Int} {a : Answer} {c : Syscall}

/-- Two steps that keep the rate fast. -/
lemma Fast.trans (h : Fast s s') (h' : Fast s' s'') : Fast s s'' := by
  rcases h' with same | fast
  · rw [Fast, same]
    exact h
  · exact .inr fast

/-- Nothing done is aside. -/
lemma Aside.refl (hf : s.procView.Forest) (hc : s.procView.Coherent) : Aside s s :=
  ⟨.refl hf hc, .inl rfl, rfl⟩

/-- Two stretches aside. -/
lemma Aside.trans (h : Aside s s') (h' : Aside s' s'') : Aside s s'' :=
  ⟨h.kept.trans h'.kept, h.fast.trans h'.fast, h'.paging.trans h.paging⟩

/-- `open` keeps the rate fast. -/
lemma fast_open {filename : Option (List UInt8)} (run : s.sysOpen fr filename = some (s', r)) :
    Fast s s' := by
  rcases sysOpen_cases run with
    ⟨rfl, -⟩ | ⟨name, ret, st, d, counter, t, ret', -, -, -, -, -, -, opened, rfl, -⟩
  · exact .inl rfl
  · unfold Kernel.tableOpen at opened
    split at opened
    · cases opened
      exact .inr (show 128 < 1024 by decide)
    · cases opened
      exact .inl rfl
    · obtain ⟨x, -, e⟩ := Option.map_eq_some_iff.mp opened
      cases e
      exact .inl rfl
    · cases opened
      exact .inl rfl
    · cases opened

/-- `close` keeps the rate fast. -/
lemma fast_close {i : Int} (run : s.sysClose i = some (s', r)) : Fast s s' := by
  rcases sysClose_cases run with ⟨rfl, -⟩ | ⟨fd, -, -, -, -, -, rfl | rfl⟩
  · exact .inl rfl
  · exact .inl rfl
  · exact .inl (congrArg Rtc.rtcFreq (rtc_terminalClose _))

/-- `read` keeps the rate fast. -/
lemma fast_read {fd buf n : BitVec 32} (run : s.sysRead fd buf n = some (s', r)) : Fast s s' := by
  obtain ⟨res, mem, result, -, rfl⟩ := sysRead_spec run
  have freq : res.after.rtc.rtcFreq = s.rtc.rtcFreq := by
    rcases readResult_cases result with e | ⟨-, line | ⟨p, a, i, -, after⟩⟩
    · rw [e]
    · rcases terminalRead_cases line with ⟨-, -, e⟩ | ⟨-, -, e, -⟩
      · rw [e]
      · rw [e]
        exact congrArg Rtc.rtcFreq (rtc_cleanBuffer s)
    · rw [after]
  exact .inl freq

/-- `getargs` keeps the rate fast. -/
lemma fast_getargs {buf n : BitVec 32} (run : s.getargs buf n = some (s', r)) : Fast s s' := by
  obtain ⟨res, mem, result, -, rfl⟩ := getargs_spec run
  have rtc : res.after.rtc = s.rtc := by rw [(getargsResult_cases result).1]
  exact .inl (congrArg Rtc.rtcFreq rtc)

/-- A write to anything but the RTC. -/
lemma fast_write {fd buf n : BitVec 32} (run : s.sysWrite fd buf n = some (s', r))
    (other : fd.toNat < 7 → fd.toNat ≠ 0 → (s.proc.fd fd.toNat).flags ≠ 0 →
      (s.proc.fd fd.toNat).fileotPointer ≠ 0) : Fast s s' := by
  rw [Kernel.sysWrite] at run
  split_ifs at run with inside range mapped unused
  · cases run
    exact .inl rfl
  · cases run
    exact .inl rfl
  · have table := other (by omega) (by omega) unused
    unfold Kernel.tableWrite at run
    split at run
    next zero => exact absurd zero table
    · cases run
      exact .inl rfl
    · cases run
      exact .inl rfl
    · obtain ⟨⟨x, t⟩, written, e⟩ := Option.map_eq_some_iff.mp run
      cases e
      exact .inl (terminalWrite_inv (P := fun t => t.rtc.rtcFreq = s.rtc.rtcFreq) rfl
        (fun _ _ _ h => h)
        (fun _ _ _ h => h) written)
    · cases run
  · cases run
    exact .inl rfl

/-- A process writes to no descriptor of the RTC, as its world has no answer then. -/
lemma Hosts.write_table (h : Hosts m modStart k pane w s) {fd : Int} {bs : List UInt8}
    (range : World.Int32 fd) (run : w.write fd bs = some (w', a))
    (low : (BitVec.ofInt 32 fd).toNat < 7)
    (used : (s.proc.fd (BitVec.ofInt 32 fd).toNat).flags ≠ 0) :
    (s.proc.fd (BitVec.ofInt 32 fd).toNat).fileotPointer ≠ 0 := by
  have inside : 0 ≤ fd ∧ fd < 7 := by
    by_contra out
    have := toNat_descriptor_ge range (by omega)
    omega
  rw [toNat_descriptor inside.1 inside.2] at used ⊢
  obtain ⟨fd, rfl⟩ := Int.eq_ofNat_of_zero_le inside.1
  rw [Int.toNat_natCast] at used ⊢
  rcases Nat.lt_or_ge fd 2 with terminal | file
  · rw [(h.standard fd terminal).2]
    decide
  · have entry := h.stream fd file (by omega)
    rw [World.write, if_neg (by omega), if_neg (by omega), Int.toNat_natCast] at run
    rcases opened : w.fds fd with _ | _ | _ | _ | _
    · rw [opened] at entry
      exact absurd entry used
    · rw [opened] at run
      cases run
    · rw [opened] at entry
      rw [entry.2.1]
      decide
    · rw [opened] at entry
      rw [entry.2.1]
      decide
    · rw [opened] at entry
      rcases entry.2 with table | table
      · rw [table]
        decide
      · rw [table]
        decide

/-- Every call of a hosted process leaves the processes beside it alone. -/
lemma aside_serve (h : Hosts m modStart k pane w s) (hf : s.procView.Forest)
    (hc : s.procView.Coherent) (step : World.step w c = some (w', a))
    (run : serve fr area s c = some (s', a)) :
    Aside s s' := by
  have calls (fds : FdsChanged s.procView s'.procView) (fast : Fast s s') : Aside s s' :=
    ⟨.fdsChanged hf hc fds, fast, fds.paging⟩
  cases c with
  | getargs n =>
    obtain ⟨res, -, run⟩ := Option.bind_eq_some_iff.mp run
    obtain ⟨⟨t, r⟩, got, e⟩ := Option.map_eq_some_iff.mp run
    cases e
    exact calls (fdsChanged_getargs got) (fast_getargs got)
  | «open» filename =>
    obtain ⟨⟨t, r⟩, opened, e⟩ := Option.map_eq_some_iff.mp run
    cases e
    exact calls (fdsChanged_open opened) (fast_open opened)
  | read fd n =>
    obtain ⟨res, -, run⟩ := Option.bind_eq_some_iff.mp run
    obtain ⟨⟨t, r⟩, read, e⟩ := Option.map_eq_some_iff.mp run
    cases e
    exact calls (fdsChanged_read read) (fast_read read)
  | write fd bs =>
    obtain ⟨mem, -, run⟩ := Option.bind_eq_some_iff.mp run
    obtain ⟨⟨t, r⟩, written, e⟩ := Option.map_eq_some_iff.mp run
    cases e
    rw [World.step] at step
    split_ifs at step with out
    rw [not_or, not_not] at out
    have fds : FdsChanged ({ s with mem := mem } : Kernel).procView t.procView :=
      fdsChanged_write written
    have fast : Fast ({ s with mem := mem } : Kernel) t :=
      fast_write written fun low _ used => h.write_table out.2 step low used
    exact calls fds fast
  | close fd =>
    obtain ⟨⟨t, r⟩, closed, e⟩ := Option.map_eq_some_iff.mp run
    cases e
    exact calls (fdsChanged_close closed) (fast_close closed)
  | vidmap screenStart =>
    rw [World.step] at step
    split_ifs at step with out
    rcases out with rfl | rfl
    · cases run
      exact .refl hf hc
    · rw [h.vidmap_stores] at run
      cases run
      exact calls (.refl s.procView) (.inl rfl)
  | number eax =>
    rw [serve] at run
    split_ifs at run
    cases run
    exact .refl hf hc
  | execute command => cases run

/-- So does a whole program. -/
lemma aside_run {α : Type} {x : α} (fr : Frame) (page : InUserPage area 1024) (p : Prog α)
    (h : Hosts m modStart k pane w s) (hf : s.procView.Forest) (hc : s.procView.Coherent)
    (run : p.run World.step w = some (w', x)) :
    ∃ s', p.run (serve fr area) s = some (s', x) ∧ Hosts m modStart k pane w' s' ∧ Aside s s' := by
  refine Program.run_simulates (R := fun t w => Hosts m modStart k pane w t ∧ Aside s t) ?_ p
    ⟨h, .refl hf hc⟩ run
  rintro t w c w' a ⟨hosts, aside⟩ step
  obtain ⟨t', answer, hosts'⟩ := serve_simulates fr page t w c w' a hosts step
  exact ⟨t', answer, hosts',
    aside.trans (aside_serve hosts aside.kept.forest aside.kept.coherent step answer)⟩

end Asides

/-! ## Ending -/

section Ending

variable {m : Mem} {modStart k : Nat} {pane : Pane} {w : World} {s : Kernel} {fr : Frame}
  {status : UInt8}

/-- `close` of descriptors that are not the terminal's changes the descriptors only. -/
lemma closeFrom_files {n i : Nat} (scan : s.closeScan = true) (array : s.proc.filedArray ≠ 0)
    (low : 2 ≤ i)
    (tables : ∀ fd, i ≤ fd → fd < 7 → (s.proc.fd fd).flags ≠ 0 → (s.proc.fd fd).fileotPointer ≤ 2) :
    ∃ p, Kernel.closeFrom n i s = some { s with proc := p } := by
  induction n generalizing i s with
  | zero => exact ⟨s.proc, rfl⟩
  | succ n ih =>
    by_cases used : i < 7 ∧ (s.proc.fd i).flags ≠ 0
    · have closed := sysClose_file array low used.1 used.2 (tables i (Nat.le_refl i) used.1 used.2)
      rw [scan, if_neg (by decide)] at closed
      rw [Kernel.closeFrom, closed]
      refine ih (s := { s with proc := s.proc.setFd i { s.proc.fd i with flags := 0 } }) scan array
        (by omega)
        fun fd above high => ?_
      rw [Proc.fd_setFd, if_neg (by omega)]
      exact tables fd (by omega) high
    · have refused : s.sysClose i = some (s, -1) := by
        apply sysClose_refuses
        rintro ⟨fd, e, -, high, flags⟩
        obtain rfl := Int.ofNat.inj e
        exact used ⟨high, flags⟩
      rw [Kernel.closeFrom, refused]
      exact ih scan array (by omega) fun fd above => tables fd (by omega)

/-- The terminal's descriptors are not closed. -/
lemma clearFd_terminal {i : Nat} (terminal : i < 2) : ∃ p,
    s.clearFd i = some { s with proc := p } := by
  refine ⟨s.proc.setFd i { s.proc.fd i with flags := 0 }, ?_⟩
  rw [Kernel.clearFd, sysClose_refuses]
  · rfl
  · rintro ⟨fd, e, low, -⟩
    obtain rfl := Int.ofNat.inj e
    omega

/-- A process whose descriptors can be closed returns to its parent. -/
lemma returnToParent_files {q : Int} (block : KernelPtr (pcbAddr q)) (scan : s.closeScan = true)
    (array : s.proc.filedArray ≠ 0)
    (tables : ∀ fd, 2 ≤ fd → fd < 7 → (s.proc.fd fd).flags ≠ 0 → (s.proc.fd fd).fileotPointer ≤ 2) :
    ∃ p tss, s.returnToParent q status
      = some ({ s with proc := p, tss := tss, paging := s.paging.mapUserPage (2 + q).toNat },
          .resume q (if status = 0x0F then 256 else status.toNat)) := by
  let parting : Kernel :=
    { s with
      tss := { esp0 := (s.proc.pcb (pcbAddr q)).tssEsp0, ss0 := kernelDs }
      paging := s.paging.mapUserPage (2 + q).toNat }
  obtain ⟨p, files⟩ := closeFrom_files (s := parting) (n := 6) scan array (Nat.le_refl 2) tables
  obtain ⟨p₁, input⟩ := clearFd_terminal (s := { parting with proc := p }) (i := 0) (by decide)
  obtain ⟨p₂, output⟩ := clearFd_terminal (s := { parting with proc := p₁ }) (i := 1) (by decide)
  refine ⟨{ p₂ with filedArray := pcbAddr q, curPid := q, curProcessPtr := pcbAddr q },
    parting.tss, ?_⟩
  rw [Kernel.returnToParent]
  dsimp only
  rw [if_neg (not_not.mpr block)]
  show (Kernel.closeFrom 6 2 parting).bind _ = _
  rw [files]
  show (Kernel.clearFd { parting with proc := p } 0).bind _ = _
  rw [input]
  show (Kernel.clearFd { parting with proc := p₁ } 1).bind _ = _
  rw [output]
  rfl

/-- A hosted process with a parent halts. -/
lemma Hosts.halt (h : Hosts m modStart k pane w s) (fr : Frame) (status : UInt8) {q : Int}
    (parent : s.procView.parent = q) (live : q ≠ -1)
    (block : KernelPtr (pcbAddr q)) : ∃ p tss, s.halt fr status
      = some ({ s with proc := p, tss := tss, paging := s.paging.mapUserPage (2 + q).toNat },
          .resume q (if status = 0x0F then 256 else status.toNat)) := by
  have own : (s.proc.pcb s.proc.curProcessPtr).parentPid = q := parent
  have halted : s.halt fr status = Kernel.returnToParent
      { s with proc.pidCheck := Function.update s.proc.pidCheck s.proc.curPid 0 } q status := by
    rw [Kernel.halt]
    dsimp only
    rw [if_neg (not_not.mpr h.block), ← own]
    exact if_neg (own.trans_ne live)
  rw [halted]
  refine returnToParent_files block h.closeScan h.array fun fd low high used => ?_
  have entry := h.stream fd low (by omega)
  cases opened : w.fds fd with
  | none =>
    rw [opened] at entry
    exact absurd entry used
  | some x =>
    rw [opened] at entry
    exact entry.table

end Ending

/-! ## Starting and ending -/

/-- A process is hosted by a kernel whose processes are in order. -/
structure Steady (m : Mem) (modStart k : Nat) (pane : Pane) (w : World) (s : Kernel) : Prop where
  hosts : Hosts m modStart k pane w s
  forest : s.procView.Forest
  coherent : s.procView.Coherent
  pages : UserPages s.paging

/-- The world of a process after a program it executed, which ended in `w'`. -/
def World.after (w w' : World) : World :=
  { w with header := w'.header, input := w'.input, output := w.output ++ w'.output }

/-- What `execute` returns for a program that returned `x` to its `_start`. -/
def exitValue (x : Int) : Nat := if UInt8.ofInt x = 0x0F then 256 else (UInt8.ofInt x).toNat

section Command

variable {m : Mem} {modStart k eip : Nat} {pane : Pane} {w w' : World} {s s' s₁ s₂ : Kernel}
  {fr : Frame}
  {pid : Int} {command word a : List UInt8} {area : BitVec 32} {x : Int}

/-- The page of the parent comes back for the one of its child. -/
lemma mapUserPage_back {pg : Paging} {k n : Nat} (user : pg.DT userPdIndex = userPde k) :
    (pg.mapUserPage n).mapUserPage k = pg := by
  rw [Paging.mapUserPage, Paging.mapUserPage]
  dsimp only
  rw [Function.update_idem, ← user, Function.update_eq_self]

/-- A steady host is ready for another program. -/
lemma Steady.ready (h : Steady m modStart k pane w s) : Ready m modStart s :=
  ⟨h.hosts.image, h.hosts.files.same, h.hosts.files.serves, h.pages, h.hosts.start, h.hosts.display,
    h.hosts.terminal⟩

/-- A stretch aside keeps the host steady. -/
lemma Steady.aside (h : Steady m modStart k pane w s) (aside : Aside s s')
    (hosts : Hosts m modStart k pane w' s') :
    Steady m modStart k pane w' s' :=
  ⟨hosts, aside.kept.forest, aside.kept.coherent, aside.paging.symm ▸ h.pages⟩

/-- The process that goes on after its child has ended. -/
lemma Steady.resumed (h : Steady m modStart k pane w s)
    (hosts : Hosts m modStart (2 + pid).toNat (s.pane s.getNTerminal) w' s₂) {p : Proc} {tss : Tss}
    (fast : Fast s s₂)
    (restored :
      Restored s.procView { s₂ with proc := p, tss := tss, paging := s.paging }.procView) :
    Hosts m modStart k pane (w.after w') { s₂ with proc := p, tss := tss, paging := s.paging } := by
  have runs := h.hosts.files.runs
  have ptr : p.curProcessPtr = s.proc.curProcessPtr := restored.curProcessPtr
  have array : p.filedArray = s.proc.filedArray := restored.filedArray
  have own := restored.live _ h.forest.live_curPid
  rw [PCB.SameButStack] at own
  have block : s.proc.curProcessPtr = pcbAddr s.proc.curPid := h.coherent.curProcessPtr
  have mine : s.proc.filedArray = pcbAddr s.proc.curPid := h.coherent.filedArray
  have fdArray : (p.pcb (pcbAddr s.proc.curPid)).fdArray
    = (s.proc.pcb (pcbAddr s.proc.curPid)).fdArray :=
    (congrArg PCB.fdArray own :)
  have arg : (p.pcb (pcbAddr s.proc.curPid)).arg = (s.proc.pcb (pcbAddr s.proc.curPid)).arg :=
    (congrArg PCB.arg own :)
  have fds (fd : Nat) : p.fd fd = s.proc.fd fd := by
    rw [Proc.fd, Proc.fd, array, mine]
    exact congrFun fdArray fd
  constructor
  · exact h.hosts.image
  · refine ⟨h.hosts.files.image, hosts.files.same, hosts.files.serves, ?_, ?_, runs.low, runs.high⟩
    · rw [Kernel.fdArrayMapped]
      exact array.symm ▸ runs.fdArray
    · exact runs.page
  · exact h.hosts.start
  · exact hosts.display
  · exact hosts.terminal
  · exact ptr.symm ▸ h.hosts.block
  · exact h.hosts.volume
  · exact hosts.header
  · show ArgIs (p.pcb p.curProcessPtr).arg w.args
    rw [ptr, block, arg, ← block]
    exact h.hosts.args
  · intro l waits
    obtain ⟨fits, enter, chars, single, newline⟩ := hosts.input l waits
    exact ⟨fits, enter, chars, single, newline⟩
  · intro fd low
    rw [fds]
    exact h.hosts.standard fd low
  · intro fd low high
    rw [fds]
    exact (h.hosts.stream fd low high).freq fast
  · show screenOf (s₂.pane s₂.getNTerminal) = screenOf
      ((w.output ++ w'.output).foldl Pane.print pane)
    rw [hosts.output, List.foldl_append]
    exact screenOf_print h.hosts.output w'.output

/-- The end of a child: it halts with what its `_start` got, and its parent goes on. -/
lemma Steady.ended (h : Steady m modStart k pane w s)
    (started : s.execute fr (some command) = some (s₁, .user pid eip))
    (hosts : Hosts m modStart (2 + pid).toNat (s.pane s.getNTerminal) w' s₂) (aside : Aside s₁ s₂)
    (fr' : Frame) (x : Int) : ∃ p tss, s₂.halt fr' (UInt8.ofInt x)
        = some ({ s₂ with proc := p, tss := tss, paging := s.paging },
          .resume s.proc.curPid (exitValue x)) ∧
      Hosts m modStart k pane (w.after w') { s₂ with proc := p, tss := tss, paging := s.paging } ∧
      Aside s { s₂ with proc := p, tss := tss, paging := s.paging } := by
  have hf := h.forest
  have hc := h.coherent
  have st := started_execute started
  obtain ⟨-, -, -, -, -, rtc, -⟩ := execute_user_frame h.pages started
  have fast : Fast s s₂ := .trans (.inl (congrArg Rtc.rtcFreq rtc)) aside.fast
  have parent : s₂.procView.parent = s.proc.curPid := aside.kept.parent_started hf st
  have block : KernelPtr (pcbAddr s.proc.curPid) := hf.curProcessPtr ▸ h.hosts.block
  have back : s₂.paging.mapUserPage (2 + s.proc.curPid).toNat = s.paging := by
    rw [aside.paging, show s₁.paging = _ from st.paging]
    exact mapUserPage_back hc.userPage
  obtain ⟨p, tss, halted⟩ := hosts.halt fr' (UInt8.ofInt x) parent hf.curPid block
  rw [back] at halted
  have ex := exited_of_kept hf st aside.kept rfl halted
  have restored := restored_of_kept hf hc st aside.kept ex
  exact ⟨p, tss, halted, h.resumed hosts fast restored,
    restored.kept hf (aside.kept.forest.exited ex) ex.coherent, fast, rfl⟩

/-- A process that is started on a kernel that is ready goes on in order. -/
lemma steady_execute {chain : Fin 3 → List Int} {input : Option (List UInt8)}
    (ready : Ready m modStart s) (planted : s.procView.Planted chain)
    (line : CommandLine command word a) (short : a.length < 32) (waits : ∀ l ∈ input, Waiting s l)
    (started : s.execute fr (some command) = some (s₁, .user pid eip)) :
    Steady m modStart (2 + pid).toNat (s.pane s.getNTerminal)
      (freshWorld m modStart s a input) s₁ := by
  have st := started_execute started
  obtain ⟨-, -, -, -, -, -, pages, -⟩ := execute_user_frame ready.pages started
  exact ⟨hosts_execute ready line short waits started, planted.started st, st.coherent, pages⟩

end Command

/-- **A command returns**: a process that executes a program gets back its status, and goes on in
its world with what the program printed behind what it had printed itself. -/
theorem command_returns {m : Mem} {modStart k eip : Nat} {pane : Pane} {w w' : World}
    {s s₁ : Kernel} {fr : Frame} {pid x : Int} {command word a : List UInt8} {area : BitVec 32}
    (fr' fr'' : Frame) (steady : Steady m modStart k pane w s) (line : CommandLine command word a)
    (short : a.length < 32) (started : s.execute fr (some command) = some (s₁, .user pid eip))
    (page : InUserPage area 1024) (p : Prog Int)
    (run : p.run World.step (freshWorld m modStart s a w.input) = some (w', x)) :
    ∃ s₂ s₃, p.run (serve fr' area) s₁ = some (s₂, x) ∧
      s₂.halt fr'' (UInt8.ofInt x) = some (s₃, .resume s.proc.curPid (exitValue x)) ∧
      Steady m modStart k pane (w.after w') s₃ := by
  have st := started_execute started
  obtain ⟨chain, planted⟩ := steady.forest.planted
  have hosted := hosts_execute steady.ready line short steady.hosts.input started
  obtain ⟨s₂, run', hosts, aside⟩ :=
    aside_run fr' page p hosted (planted.started st) st.coherent run
  obtain ⟨p', tss, halted, resumed, back⟩ := steady.ended started hosts aside fr'' x
  exact ⟨s₂, _, run', halted, steady.aside back resumed⟩

/-- The shell of the small machine executes a program that does what `cat shell` does. -/
theorem command_returns_sample : ∃ s s₁ s₂ s₃ : Kernel,
    sampleStart [] = some (s, .user 0 0x08048018) ∧
    s.execute sampleFrame (some (Kernel.shellCommand ++ bytesOf [' ', 's', 'h', 'e', 'l', 'l']))
      = some (s₁, .user 1 0x08048018) ∧
    (cat 4 (List.replicate 1024 0)).run (serve sampleFrame 0x08048100) s₁ = some (s₂, 0) ∧
    s₂.halt sampleFrame 0 = some (s₃, .resume 0 0) := by
  have first : (sampleStart []).map Prod.snd = some (.user 0 0x08048018) := by decide +kernel
  obtain ⟨⟨s, c⟩, started, rfl⟩ := Option.map_eq_some_iff.mp first
  have facts : ((sampleStart []).bind fun r => (r.1.execute sampleFrame
      (some (Kernel.shellCommand ++ bytesOf [' ', 's', 'h', 'e', 'l', 'l']))).map fun r' =>
        (r.1.proc.curPid, r'.2, ((cat 4 (List.replicate 1024 0)).run World.step
          (freshWorld sampleRam 0x600000 r.1 (bytesOf ['s', 'h', 'e', 'l', 'l']) none)).map
            Prod.snd))
        = some (0, .user 1 0x08048018, some 0) := by decide +kernel
  rw [started, Option.bind_some] at facts
  obtain ⟨⟨s₁, c⟩, started', e⟩ := Option.map_eq_some_iff.mp facts
  obtain ⟨current, e⟩ := Prod.mk.inj e
  obtain ⟨rfl, ends⟩ := Prod.mk.inj e
  obtain ⟨⟨w, x⟩, ends, rfl⟩ := Option.map_eq_some_iff.mp ends
  have steady := steady_execute ready_sample (planted_boot sampleBoot)
    (commandLine_sample (a := []) (List.forall_mem_nil _) (by decide)) (by decide)
    (fun l hl => absurd hl (Option.not_mem_none l)) started
  have plain : ∀ b ∈ bytesOf ['s', 'h', 'e', 'l', 'l'],
    b ≠ 0 := List.all_iff_forall_prop.mp (by decide)
  have page : InUserPage 0x08048100 1024 := ⟨by decide, by decide⟩
  obtain ⟨s₂, s₃, run, halted, -⟩ := command_returns sampleFrame sampleFrame steady
    (commandLine_sample plain (by decide)) (by decide) started' page
      (cat 4 (List.replicate 1024 0)) ends
  rw [current] at halted
  exact ⟨s, s₁, s₂, s₃, started, started', run, halted⟩

end Kernel391.User
