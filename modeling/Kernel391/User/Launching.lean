import Kernel391.User.Refinement

/-!
# Starting a process

A kernel that is ready to run programs hosts every process it starts, with the argument of its
command line and with no descriptor open but the terminal's (`hosts_execute`). From there on the
process does what it does in its world (`program_refines`), as the kernel simulates that.
-/

namespace Kernel391.User
open Base

/-- The kernel is ready to run the programs of the image: the image is in place, with whatever
became of its header, and so are the page tables and the terminals. -/
structure Ready (m : Mem) (modStart : Nat) (s : Kernel) : Prop where
  image : VolumeImage m modStart
  same : SameOn (InBody m modStart) m s.mem
  serves : s.fs.Serves m modStart
  pages : UserPages s.paging
  start : KernelStart s.paging
  display : s.display.Ok
  terminal : s.getNTerminal < 3

/-- What `getargs` has to return for the argument text `a`. -/
def argsOf (a : List UInt8) : Option (List UInt8) := if a.head? = some 10 then none else some a

/-- The world of a process that was just started on the kernel `s` with argument `a`, when the line
`input` waits on the terminal. -/
def freshWorld (m : Mem) (modStart : Nat) (s : Kernel) (a : List UInt8)
    (input : Option (List UInt8)) :
    World where
  volume := volumeOf m modStart
  args := argsOf a
  input := input
  header := fun j => s.mem (modStart + j)
  fds := fun _ => none
  output := []

section Start

variable {m : Mem} {modStart k : Nat} {s s' : Kernel} {fr : Frame} {pid : Int} {eip : Nat}
variable {command word a : List UInt8} {input : Option (List UInt8)}

/-- The page of a process is not the kernel's. -/
lemma KernelStart.mapUserPage {pg : Paging} (h : KernelStart pg) (frame : Nat) :
    KernelStart (pg.mapUserPage frame) := by
  refine ⟨fun j hj => ?_, h.tables⟩
  have other : (0x00400000 + j) / 2 ^ 22 ≠ userPdIndex := by
    rw [userPdIndex_eq]
    omega
  have entry : (pg.mapUserPage frame).DT ((0x00400000 + j) / 2 ^ 22)
    = pg.DT ((0x00400000 + j) / 2 ^ 22) :=
    Function.update_of_ne other ..
  rw [← h.mapped j hj, Paging.translate, Paging.translate, entry]
  rfl

/-- The argument of the process is what `getargs` has to return. -/
lemma argIs_execute (line : CommandLine command word a) (short : a.length < 32)
    (run : s.execute fr (some command) = some (s', .user pid eip)) :
    ArgIs (s'.proc.pcb (pcbAddr pid)).arg (argsOf a) := by
  obtain ⟨-, -, field⟩ := arg_execute line run
  have first := field 0 (by decide)
  rw [argsOf]
  split_ifs with newline
  · exact first.trans ((head_iff line.arg).mp newline)
  · refine ⟨fun e => newline ((head_iff line.arg).mpr (first.symm.trans e)), line.arg,
      fun j hj => ?_⟩
    exact field j (by omega)

/-- **A process that is started is hosted**: with the argument text of its command line, no
descriptor open but the terminal's, and nothing printed yet. -/
theorem hosts_execute (ready : Ready m modStart s) (line : CommandLine command word a)
    (short : a.length < 32) (waits : ∀ l ∈ input, Waiting s l)
    (run : s.execute fr (some command) = some (s', .user pid eip)) :
    Hosts m modStart (2 + pid).toNat (s.pane s.getNTerminal)
      (freshWorld m modStart s a input) s' := by
  have st := started_execute run
  obtain ⟨low, fs, kbd, screen, sched, rtc, pages, term⟩ := execute_user_frame ready.pages run
  obtain ⟨old, block⟩ := fdArray_execute run
  have nonneg := st.nonneg
  have below := st.below
  have paging : s'.paging = s.paging.mapUserPage (2 + pid).toNat := st.paging
  have ptr : s'.proc.curProcessPtr = pcbAddr pid := st.curProcessPtr
  have array : s'.proc.filedArray = pcbAddr pid := st.filedArray
  have terminal : s'.getNTerminal = s.getNTerminal := congrArg Sched.nTerminal sched
  have fds (fd : Nat) : s'.proc.fd fd = Kernel.initFdArray old fd := by
    rw [Proc.fd, array]
    exact congrFun block fd
  have current : s'.term.current = { s.term.current with currentProcessId := pid } := by
    rw [term]
    exact Kernel.current_setTerminal ..
  constructor
  · exact ready.image
  · exact filesServed_execute ready.image.toWellFormedImage ready.same ready.serves ready.pages run
  · exact paging.symm ▸ ready.start.mapUserPage _
  · exact display_execute_user run ▸ ready.display
  · exact terminal.symm ▸ ready.terminal
  · rw [ptr, KernelPtr, pcbAddr, endOfKernel, kernelStackSize]
    omega
  · rfl
  · intro j hj
    have inside := ready.image.lt (ready.image.inHead (k := j) (by omega))
    exact (low _ inside.2).symm
  · rw [ptr]
    exact argIs_execute line short run
  · intro l hl
    obtain ⟨fits, enter, chars, single, newline⟩ := waits l hl
    rw [Kernel.checkEnter, ← kbd] at enter
    refine ⟨fits, enter, ?_, single, ?_⟩
    · rw [current]
      exact chars
    · rw [current]
      exact newline
  · intro fd hfd
    rw [fds, Kernel.initFdArray, if_pos hfd]
    exact ⟨Nat.one_ne_zero, rfl⟩
  · intro fd hlow high
    rw [fds, Kernel.initFdArray, if_neg (by omega), if_pos high]
    rfl
  · rw [terminal, pane_execute ready.pages run ready.terminal]
    rfl

/-- A machine that boots is ready, when the linker put no page table at the start of the kernel. -/
lemma ready_boot {b : BootInfo} (image : VolumeImage b.ram b.modStart)
    (tables : ∀ t ∈ [b.dtAddr, b.ptAddr, b.ptVidmemAddr], t + 4096 ≤ 0x00400000 ∨ 0x00400004 ≤ t) :
    Ready b.ram b.modStart (Kernel.boot b) := by
  have pde : (Kernel.boot b).paging.DT 1 = 0x00400183 := rfl
  refine ⟨image, .refl, ⟨_, rfl⟩, UserPages.boot b, ⟨fun j hj => ?_, tables⟩, display_boot b, ?_⟩
  · have index : (0x00400000 + j) / 2 ^ 22 = 1 := by omega
    rw [Paging.translate, index, pde]
    dsimp only
    rw [if_neg (by decide), if_pos (by decide)]
    congr 1
    omega
  · show 0 < 3
    omega

end Start

/-- **A program does on the kernel what it does in its world**: started with an argument, it ends
with the same result, and the terminal shows what it printed. -/
theorem program_refines {α : Type} {m : Mem} {modStart : Nat} {s s' : Kernel} {fr : Frame}
    {pid : Int} {eip : Nat} {command word a : List UInt8} {input : Option (List UInt8)}
    {area : BitVec 32} {w : World} {x : α} (fr' : Frame) (ready : Ready m modStart s)
    (line : CommandLine command word a) (short : a.length < 32) (waits : ∀ l ∈ input, Waiting s l)
    (started : s.execute fr (some command) = some (s', .user pid eip)) (page : InUserPage area 1024)
    (p : Prog α) (run : p.run World.step (freshWorld m modStart s a input) = some (w, x)) :
    ∃ s'', p.run (serve fr' area) s' = some (s'', x) ∧
      Hosts m modStart (2 + pid).toNat (s.pane s.getNTerminal) w s'' ∧
      screenOf (s''.pane s''.getNTerminal) = screenOf
        (w.output.foldl Pane.print (s.pane s.getNTerminal)) := by
  obtain ⟨s'', run', hosts⟩ := Program.run_simulates (serve_simulates fr' page) p
    (hosts_execute ready line short waits started) run
  exact ⟨s'', run', hosts, hosts.output⟩

/-- So does one that is known to end in its world. -/
lemma ends_execute {α : Type} {Q : α → World → Prop} {m : Mem} {modStart : Nat} {s s' : Kernel}
    {fr : Frame} {pid : Int} {eip : Nat} {command word a : List UInt8} {input : Option (List UInt8)}
    {area : BitVec 32} (fr' : Frame) (ready : Ready m modStart s)
    (line : CommandLine command word a) (short : a.length < 32) (waits : ∀ l ∈ input, Waiting s l)
    (started : s.execute fr (some command) = some (s', .user pid eip)) (page : InUserPage area 1024)
    {p : Prog α} (ends : Program.Ends World.step Q p (freshWorld m modStart s a input)) :
    Program.Ends (serve fr' area) (fun x s'' => ∃ w, Q x w ∧
      screenOf (s''.pane s''.getNTerminal) = screenOf
        (w.output.foldl Pane.print (s.pane s.getNTerminal))) p s' := by
  refine (ends.simulates (serve_simulates fr' page)
    (hosts_execute ready line short waits started)).mono ?_
  rintro x s'' ⟨w, hosts, q⟩
  exact ⟨w, q, hosts.output⟩

/-! ## The small machine -/

/-- The small image is a volume. -/
lemma volumeImage_sample : VolumeImage sampleRam 0x600000 where
  toWellFormedImage := wellFormedImage_sample
  behind := by decide
  room := by decide +kernel
  blank := by decide +kernel

/-- The small machine starts the program `shell` with an argument. -/
def sampleStart (a : List Char) : Option (Kernel × Control) :=
  (Kernel.boot sampleBoot).execute sampleFrame (some (Kernel.shellCommand ++ bytesOf (' ' :: a)))

/-- The small machine is ready. -/
lemma ready_sample : Ready sampleRam 0x600000 (Kernel.boot sampleBoot) :=
  ready_boot (b := sampleBoot) volumeImage_sample (by decide)

/-- The command line that starts `shell` with an argument. -/
lemma commandLine_sample {a : List Char} (plain : ∀ b ∈ bytesOf a, b ≠ 0)
    (first : (bytesOf a).head? ≠ some 32) :
    CommandLine (Kernel.shellCommand ++ bytesOf (' ' :: a)) Kernel.shellCommand (bytesOf a) where
  parts := ⟨0, 1, rfl, fun h => absurd h (by decide)⟩
  word_ne := by decide
  word := List.all_iff_forall_prop.mp (by decide)
  arg := plain
  start := first

/-- `cat shell` on the small machine: the kernel shows what the world of the run printed. -/
theorem program_refines_sample : ∃ s s' : Kernel, ∃ w : World,
    sampleStart ['s', 'h', 'e', 'l', 'l'] = some (s, .user 0 0x08048018) ∧
    (cat 4 (List.replicate 1024 0)).run World.step (freshWorld sampleRam 0x600000
      (Kernel.boot sampleBoot) (bytesOf ['s', 'h', 'e', 'l', 'l']) none) = some (w, 0) ∧
    w.output.length = 28 ∧
    (cat 4 (List.replicate 1024 0)).run (serve sampleFrame 0x08048100) s = some (s', 0) ∧
    screenOf (s'.pane s'.getNTerminal)
      = screenOf (w.output.foldl Pane.print ((Kernel.boot sampleBoot).pane 0)) := by
  have start : (sampleStart ['s', 'h', 'e', 'l', 'l']).map Prod.snd
      = some (.user 0 0x08048018) := by decide +kernel
  obtain ⟨⟨s, c⟩, started, rfl⟩ := Option.map_eq_some_iff.mp start
  have facts : ((cat 4 (List.replicate 1024 0)).run World.step (freshWorld sampleRam 0x600000
      (Kernel.boot sampleBoot) (bytesOf ['s', 'h', 'e', 'l', 'l']) none)).map
        (fun r => (r.2, r.1.output.length)) = some (0, 28) := by decide +kernel
  obtain ⟨⟨w, x⟩, ends, e⟩ := Option.map_eq_some_iff.mp facts
  obtain ⟨rfl, length⟩ := Prod.mk.inj e
  have page : InUserPage 0x08048100 1024 := ⟨by decide, by decide⟩
  have plain : ∀ b ∈ bytesOf ['s', 'h', 'e', 'l', 'l'], b ≠ 0 :=
    List.all_iff_forall_prop.mp (by decide)
  obtain ⟨s', run, -, shows⟩ := program_refines sampleFrame ready_sample
    (commandLine_sample plain (by decide)) (by decide)
    (fun l hl => absurd hl (Option.not_mem_none l)) started page
    (cat 4 (List.replicate 1024 0)) ends
  exact ⟨s, s', w, started, ends, length, run, shows⟩

end Kernel391.User
