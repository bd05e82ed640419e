import Kernel391.Files.Lookup
import Kernel391.Terminal.Typing

/-!
# The file system is read-only

Runs of file system calls and program starts. Their stores go to user pages, to the screen, to line
buffers and to descriptors; the one exception is the second lookup `open` makes for a regular file,
which copies the entry to `*curdentry`, and that is the boot block. So the image stays what it was
exactly as long as no regular file is opened.
-/

namespace Kernel391
open Base

/-- The calls that work with files. -/
inductive FileCall where
  | sysOpen (fr : Frame) (filename : Option (List UInt8))
  | sysClose (i : Int)
  | sysRead (fd buf n : BitVec 32)
  | getargs (buf n : BitVec 32)
  | execute (fr : Frame) (command : Option (List UInt8))

/-- The call as one of the system's. -/
def FileCall.toCall : FileCall → Call
  | .sysOpen fr filename => .sysOpen fr filename
  | .sysClose i => .sysClose i
  | .sysRead fd buf n => .sysRead fd buf n
  | .getargs buf n => .getargs buf n
  | .execute fr command => .execute fr command

/-- A call of a process on files. -/
def FileCall.step (s : Kernel) (c : FileCall) : Option Kernel := c.toCall.step s

/-- `open` finds the name in a directory slot with a regular file, and has a descriptor for it. -/
def Kernel.FindsFile (s : Kernel) (filename : Option (List UInt8)) : Prop :=
  ∃ name i, filename = some name ∧ s.proc.filedArray ≠ 0 ∧ s.freeFd ≠ none ∧
    lookupSlot s.mem s.fs (upToNul name) = some (some i) ∧ i ≤ s.fs.dentryNum s.mem ∧
    s.fs.fileType s.mem i = 2

/-- The call opens a regular file. -/
def OpensFile (s : Kernel) : FileCall → Prop
  | .sysOpen _ filename => s.FindsFile filename
  | _ => False

/-- The image is as `filesystem_init` found it, and so answer lookups and the reads of its files
that do not wrap. -/
structure Unchanged (b : BootInfo) (s : Kernel) : Prop where
  bytes : SameOn (InImage b.ram b.modStart) b.ram s.mem
  byName : ∀ fname, readDentryByName s.mem s.fs fname
    = readDentryByName b.ram (filesystemInit b.ram b.modStart) fname
  byIndex : ∀ index, RecordInImage b.ram b.modStart index → readDentryByIndex s.mem s.fs index
    = readDentryByIndex b.ram (filesystemInit b.ram b.modStart) index
  data : ∀ inode offset length, inode < (filesystemInit b.ram b.modStart).inodesNum b.ram →
    offset + length < 2 ^ 32 → readData s.mem s.fs inode offset length
      = readData b.ram (filesystemInit b.ram b.modStart) inode offset length

/-! ## Where the calls store -/

/-- The addresses of the kernel's page, where the image is. -/
def KernelPage (a : Nat) : Prop := 0x00400000 ≤ a ∧ a < 0x00800000

/-- From `s` to `s'` the kernel's page stayed as it is, and the file system where it is. -/
structure Quiet (s s' : Kernel) : Prop where
  mem : SameOn KernelPage s.mem s'.mem
  fs : ∃ a, s'.fs = s.fs.atEntry a
  paging : UserPages s'.paging

section Calls

variable {s s' : Kernel} {r : Int}

/-- The kernel's page is below the pages of the processes. -/
lemma KernelPage.low {a : Nat} (h : KernelPage a) : Low a := h.2

/-- The kernel's page is off the page of the display. -/
lemma KernelPage.off {a : Nat} (h : KernelPage a) : OffPage videoMem a := by
  rintro ⟨-, high⟩
  obtain ⟨low, -⟩ := h
  simp only [videoMem, fourKb] at high
  omega

/-- Doing nothing is quiet. -/
lemma Quiet.refl (pages : UserPages s.paging) : Quiet s s := ⟨.refl, ⟨s.fs.curfile, rfl⟩, pages⟩

/-- Console output and line editing. -/
lemma WorksHere.quiet (h : WorksHere s s') (pages : UserPages s.paging) : Quiet s s' :=
  ⟨h.mem.mono fun _ => KernelPage.off, ⟨s.fs.curfile, h.fs⟩, h.paging ▸ pages⟩

/-- Stores at a user buffer that passed the check. -/
lemma Quiet.stores (h : Quiet s s') {m : Mem} {buf n : BitVec 32} {bytes : List UInt8}
    (ok : bytes = [] ∨ userBuffer buf n)
    (run : storeThrough s'.paging s'.mem buf.toNat bytes = some m) :
    Quiet s { s' with mem := m } := by
  have same : SameOn Low s'.mem m := by
    rcases ok with rfl | ok
    · obtain rfl := Option.some.inj run
      exact .refl
    · exact h.paging.storeThrough (userBuffer_start ok).1 run
  exact ⟨h.mem.trans (same.mono fun _ => KernelPage.low), h.fs, h.paging⟩

/-- The end of a read of the terminal is quiet. -/
lemma quiet_finishRead (fits : Fits s.screen.screenX s.screen.screenY)
    (pages : UserPages s.paging) :
    Quiet s s.finishRead := by
  have clean := (worksHere_cleanBuffer fits).quiet pages
  have last (t : Kernel) (tm : Term) (h : Quiet s t) : Quiet s { t with term := tm } :=
    ⟨h.mem, h.fs, h.paging⟩
  exact last s.cleanBuffer _ clean

/-- `execute` is quiet. -/
lemma quiet_execute (ok : s.display.Ok) (pages : UserPages s.paging) {fr : Frame}
    {command : Option (List UInt8)} {c : Control} (run : s.execute fr command = some (s', c)) :
    Quiet s s' := by
  cases c with
  | ret v =>
      obtain ⟨text, rfl⟩ := execute_ret run
      exact (worksHere_puts ok.visible text).quiet pages
  | user pid eip =>
      obtain ⟨low, fs, -, -, -, -, pages', -⟩ := execute_user_frame pages run
      exact ⟨low.mono fun _ => KernelPage.low, ⟨s.fs.curfile, fs⟩, pages'⟩
  | resume pid v => exact absurd run execute_ne_resume

/-- `close` is quiet. -/
lemma quiet_close (ok : s.display.Ok) (pages : UserPages s.paging) {i : Int}
    (run : s.sysClose i = some (s', r)) : Quiet s s' := by
  rcases sysClose_cases run with ⟨rfl, -⟩ | ⟨fd, -, -, -, -, -, rfl | rfl⟩
  · exact .refl pages
  · exact ⟨.refl, ⟨s.fs.curfile, rfl⟩, pages⟩
  · let t : Kernel := { s with proc := s.proc.setFd fd { s.proc.fd fd with flags := 0 } }
    have closed := worksHere_terminalClose (s := t) ok.visible
    exact ⟨(closed.quiet pages).mem, (closed.quiet pages).fs, (closed.quiet pages).paging⟩

/-- `read` is quiet. -/
lemma quiet_read (ok : s.display.Ok) (pages : UserPages s.paging) {fd buf n : BitVec 32}
    (run : s.sysRead fd buf n = some (s', r)) : Quiet s s' := by
  obtain ⟨res, m, hres, hm, rfl⟩ := sysRead_spec run
  rcases readResult_cases hres with rfl | ⟨passed, ht | ⟨p, a, i, -, after⟩⟩
  · exact (Quiet.refl pages).stores (n := n) (.inl rfl) hm
  · rcases terminalRead_cases ht with ⟨-, none, e⟩ | ⟨-, -, e, -⟩
    · rw [e] at hm ⊢
      exact (Quiet.refl pages).stores (n := n) (.inl none) hm
    · have quiet := quiet_finishRead ok.visible pages
      obtain ⟨-, -, paging, -⟩ := finishRead_spec ok.visible
      rw [e] at hm ⊢
      rw [← paging] at hm
      exact quiet.stores (.inr passed) hm
  · have quiet : Quiet s res.after := by
      rw [after]
      exact ⟨.refl, ⟨a, rfl⟩, pages⟩
    have paging : res.after.paging = s.paging := by rw [after]
    rw [← paging] at hm
    exact quiet.stores (.inr passed) hm

/-- `getargs` is quiet. -/
lemma quiet_getargs (pages : UserPages s.paging) {buf n : BitVec 32}
    (run : s.getargs buf n = some (s', r)) : Quiet s s' := by
  obtain ⟨res, m, hres, hm, rfl⟩ := getargs_spec run
  obtain ⟨after, ok⟩ := getargsResult_cases hres
  rw [after] at hm ⊢
  exact (Quiet.refl pages).stores ok hm

/-- `open` stores in memory only when it opens a regular file, and then at `*curdentry`. -/
lemma sysOpen_stores {fr : Frame} {filename : Option (List UInt8)}
    (run : s.sysOpen fr filename = some (s', r)) :
    (∃ a, s'.fs = s.fs.atEntry a) ∧ s'.paging = s.paging ∧
    (¬ s.FindsFile filename ∧ s'.mem = s.mem ∨ s.FindsFile filename ∧ ∃ i v st,
      readDentryByIndex s.mem s.fs i = some (v, st) ∧ i ≤ s.fs.dentryNum s.mem ∧
      s.fs.fileType s.mem i = 2 ∧ (∀ ob ∈ st, ob.1 < 64) ∧
      s'.mem = applyStores s.mem s.fs.curdentry st) := by
  rcases sysOpen_cases run with
    ⟨rfl, -, reason⟩ | ⟨name, ret, st, d, counter, t, ret', rfl, hf, lookup, found, hd,
      hc, ht, rfl, -⟩
  · refine ⟨⟨s'.fs.curfile, rfl⟩, rfl, .inl ⟨?_, rfl⟩⟩
    rintro ⟨name, i, rfl, hf, free, slot, -⟩
    rcases reason with h | h | h | ⟨_, st, ⟨⟩, lookup⟩
    · cases h
    · exact hf h
    · exact free h
    · rcases readDentryByName_cases lookup with ⟨-, -, none⟩ | ⟨_, _, h, -⟩
      · cases none.symm.trans slot
      · exact Int.noConfusion h
  -- the slot the first lookup stopped at decides; the second stops there as well
  rcases readDentryByName_cases lookup with ⟨h, -⟩ | ⟨i, v, rfl, slot, entry⟩
  · exact absurd h found
  have finds : s.FindsFile (some name) ↔ i ≤ s.fs.dentryNum s.mem ∧ s.fs.fileType s.mem i = 2 := by
    constructor
    · rintro ⟨_, j, ⟨⟩, -, -, slot', valid, file⟩
      obtain rfl := Option.some.inj (Option.some.inj (slot.symm.trans slot'))
      exact ⟨valid, file⟩
    · rintro ⟨valid, file⟩
      exact ⟨name, i, rfl, hf, by rw [hc]; exact Option.some_ne_none _, slot, valid, file⟩
  rcases tableOpen_cases ht with ⟨file, st', again, rfl⟩ | ⟨other, -, -, a, freq, rfl⟩
  · refine ⟨⟨s.fs.curfile, rfl⟩, rfl, ?_⟩
    obtain ⟨-, rfl⟩ := Prod.mk.inj (Option.some.inj (again.symm.trans lookup))
    by_cases valid : i ≤ s.fs.dentryNum s.mem
    · obtain ⟨type, -, fits⟩ := localDentry_fields entry valid hd
      rw [type] at file
      exact .inr ⟨finds.mpr ⟨valid, file⟩, i, v, st', entry, valid, file, fits, rfl⟩
    · -- an entry past the count is not copied
      rw [readDentryByIndex, if_pos (by omega)] at entry
      obtain ⟨-, rfl⟩ := Prod.mk.inj (Option.some.inj entry)
      exact .inl ⟨fun h => valid (finds.mp h).1, rfl⟩
  · refine ⟨⟨a, rfl⟩, rfl, .inl ⟨fun h => ?_, rfl⟩⟩
    obtain ⟨valid, file⟩ := finds.mp h
    exact other ((localDentry_fields entry valid hd).1.trans file)

end Calls

/-- What a run keeps: cursors on their pages, user pages, and the file system at the image. -/
structure Serving (b : BootInfo) (s : Kernel) : Prop where
  display : s.display.Ok
  pages : UserPages s.paging
  serves : s.fs.Serves b.ram b.modStart

section Runs

variable {b : BootInfo} {s s' : Kernel} {c : FileCall}

/-- With the bytes of a well-formed image everything that is read of it is the same. -/
lemma unchanged_of_bytes (wf : WellFormedImage b.ram b.modStart)
    (serves : s.fs.Serves b.ram b.modStart)
    (bytes : SameOn (InImage b.ram b.modStart) b.ram s.mem) : Unchanged b s :=
  ⟨bytes, readDentryByName_image wf bytes serves,
    fun _ record => readDentryByIndex_image wf bytes serves record,
    fun _ _ _ hi nowrap => readData_image wf bytes serves hi nowrap⟩

/-- What is quiet keeps the image served. -/
lemma Serving.quiet (inv : Serving b s) (display : s'.display.Ok) (h : Quiet s s') :
    Serving b s' := by
  obtain ⟨a, ha⟩ := h.fs
  obtain ⟨e, he⟩ := inv.serves
  refine ⟨display, h.paging, a, ?_⟩
  rw [ha, he]
  rfl

/-- What is quiet keeps the image unchanged. -/
lemma Unchanged.quiet (same : Unchanged b s) (wf : WellFormedImage b.ram b.modStart)
    (inv : Serving b s') (h : Quiet s s') : Unchanged b s' :=
  unchanged_of_bytes wf inv.serves
    (same.bytes.trans (h.mem.mono fun _ ha => wf.lt ha))

/-- A call keeps the invariant, and the image exactly when it opens no regular file. -/
lemma unchanged_step (wf : WellFormedImage b.ram b.modStart) (inv : Serving b s)
    (same : Unchanged b s)
    (run : c.step s = some s') :
    (Unchanged b s' → Serving b s') ∧ (Unchanged b s' ↔ ¬ OpensFile s c) := by
  have display : s'.display.Ok := inv.display.step run
  -- a call that is quiet keeps both
  have of_quiet (quiet : Quiet s s') (not : ¬ OpensFile s c) :
      (Unchanged b s' → Serving b s') ∧ (Unchanged b s' ↔ ¬ OpensFile s c) := by
    have inv' := inv.quiet display quiet
    exact ⟨fun _ => inv', fun _ => not, fun _ => same.quiet wf inv' quiet⟩
  cases c with
  | execute fr command =>
      obtain ⟨r, h⟩ := map_fst_eq_some run
      exact of_quiet (quiet_execute inv.display inv.pages h) id
  | sysClose i =>
      obtain ⟨r, h⟩ := map_fst_eq_some run
      exact of_quiet (quiet_close inv.display inv.pages h) id
  | sysRead fd buf n =>
      obtain ⟨r, h⟩ := map_fst_eq_some run
      exact of_quiet (quiet_read inv.display inv.pages h) id
  | getargs buf n =>
      obtain ⟨r, h⟩ := map_fst_eq_some run
      exact of_quiet (quiet_getargs inv.pages h) id
  | sysOpen fr filename =>
      obtain ⟨r, h⟩ := map_fst_eq_some run
      obtain ⟨fs, paging, ⟨not, mem⟩ | ⟨finds, i, v, st, entry, valid, file, fits, mem⟩⟩ :=
        sysOpen_stores h
      · exact of_quiet ⟨mem ▸ .refl, fs, paging ▸ inv.pages⟩ not
      · have head : s.fs.curdentry = b.modStart := by
          obtain ⟨e, he⟩ := inv.serves
          rw [he]
          rfl
        have in_image : InImage b.ram b.modStart (b.modStart + 32) := wf.inHead (by omega)
        have room := (wf.lt in_image).2
        have two := applyStores_fileType entry valid file fits (a := b.modStart) (by omega)
        have zero : b.ram (b.modStart + 12 + 20) = 0 := wf.header 20 (by omega)
        have changed : ¬ Unchanged b s' := by
          intro kept
          have byte := kept.bytes _ in_image
          rw [mem, head, two] at byte
          exact absurd (byte.trans zero) (by decide)
        exact ⟨fun kept => absurd kept changed, iff_of_false changed (not_not.mpr finds)⟩

end Runs

/-- **The file system is read-only** in a run exactly when the run opens no regular file. -/
theorem unchanged_iff (b : BootInfo) (cs : List FileCall) (wf : WellFormedImage b.ram b.modStart) :
    Throughout FileCall.step (Unchanged b) (Kernel.boot b) cs ↔
      Meets FileCall.step (fun s c => ¬ OpensFile s c) (Kernel.boot b) cs := by
  have start : Serving b (Kernel.boot b) :=
    ⟨display_boot b, UserPages.boot b, (filesystemInit b.ram b.modStart).curfile, rfl⟩
  exact throughout_iff_meets (Serving b)
      (fun _ _ _ inv same run => unchanged_step wf inv same run) start
    (unchanged_of_bytes wf start.serves .refl)

/-- The first shell opens the directory. -/
theorem unchanged_iff_sample : ∃ s, runs FileCall.step (Kernel.boot sampleBoot)
      [.execute sampleFrame (some Kernel.shellCommand), .sysOpen sampleFrame (some [46])] = some s ∧
    Throughout FileCall.step (Unchanged sampleBoot) (Kernel.boot sampleBoot)
      [.execute sampleFrame (some Kernel.shellCommand), .sysOpen sampleFrame (some [46])] := by
  have facts : ((FileCall.step (Kernel.boot sampleBoot)
      (.execute sampleFrame (some Kernel.shellCommand))).bind fun s₁ =>
      (FileCall.step s₁ (.sysOpen sampleFrame (some [46]))).map fun _ =>
        (lookupSlot s₁.mem s₁.fs (upToNul [46]), s₁.fs.fileType s₁.mem 0))
      = some (some (some 0), 1) := by decide +kernel
  obtain ⟨s₁, h₁, h⟩ := Option.bind_eq_some_iff.mp facts
  obtain ⟨s₂, h₂, e⟩ := Option.map_eq_some_iff.mp h
  obtain ⟨slot, directory⟩ := Prod.mk.inj e
  refine ⟨s₂, ?_, (unchanged_iff sampleBoot _ wellFormedImage_sample).mpr
    (.cons id h₁ (.cons ?_ h₂ trivial))⟩
  · simp only [runs_cons, runs_nil, h₁, h₂, Option.bind_some]
  · rintro ⟨_, i, ⟨⟩, -, -, found, -, file⟩
    rw [slot] at found
    obtain rfl : 0 = i := Option.some.inj (Option.some.inj found)
    exact absurd (directory.symm.trans file) (by decide)

/-- The shell opens the file `shell`: its type is stored in the header of the boot block. -/
theorem not_always_unchanged : ¬ ∀ (b : BootInfo) (cs : List FileCall),
    WellFormedImage b.ram b.modStart →
    Throughout FileCall.step (Unchanged b) (Kernel.boot b) cs := by
  intro claim
  have facts : (runs FileCall.step (Kernel.boot sampleBoot)
      [.execute sampleFrame (some Kernel.shellCommand),
        .sysOpen sampleFrame (some Kernel.shellCommand)]).map (fun s => s.mem 0x600020)
          = some 2 := by
    decide +kernel
  obtain ⟨s, run, two⟩ := Option.map_eq_some_iff.mp facts
  have same := (claim sampleBoot _ wellFormedImage_sample).last run
  have in_image : InImage sampleRam 0x600000 0x600020 :=
    wellFormedImage_sample.inHead (k := 32) (by decide)
  have byte := same.bytes 0x600020 in_image
  rw [two] at byte
  exact absurd byte (by decide +kernel)

end Kernel391
