import Kernel391.Files.ReadOnly
import Kernel391.Files.Slice
import Mathlib.Data.List.Basic

/-!
# Descriptor streams

Reads of open files, interleaved in any way. Each descriptor delivers the bytes of its file from its
own position on, whatever the other descriptors do and whatever block boundaries the reads fall on.
The log of a run says what was asked for and what came back on each descriptor; the invariant is
that what came back is the slice of the file that was asked for. Two defects show: descriptor 7,
which `open` hands out like the others, is refused by `read`, and the record `open` writes over the
boot block's header changes the number of inodes that `read_data` compares with.
-/

namespace Kernel391
open Base

/-- The kernel serves the boot image `m` at `modStart`, whatever became of its header, and the
process that reads has frame `k`. -/
structure FilesServed (m : Mem) (modStart k : Nat) (s : Kernel) : Prop where
  image : WellFormedImage m modStart
  same : SameOn (InBody m modStart) m s.mem
  serves : s.fs.Serves m modStart
  runs : RunsIn k s

/-- Descriptor `fd` is open on a regular file, with its position in the file. The first two
descriptors of a process are always the terminal's. -/
structure FileOpen (m : Mem) (s : Kernel) (fd : Nat) : Prop where
  low : 2 ≤ fd
  high : fd < fdarrayMax
  flags : (s.proc.fd fd).flags ≠ 0
  table : (s.proc.fd fd).fileotPointer = 2
  inode : (s.proc.fd fd).inode < s.fs.inodesNum m
  within : (s.proc.fd fd).position ≤ s.fs.fileLength m (s.proc.fd fd).inode

/-- Whether a file is open can be read from the descriptor. -/
instance (m : Mem) (s : Kernel) (fd : Nat) : Decidable (FileOpen m s fd) :=
  decidable_of_iff (2 ≤ fd ∧ fd < fdarrayMax ∧ (s.proc.fd fd).flags ≠ 0 ∧
      (s.proc.fd fd).fileotPointer = 2 ∧ (s.proc.fd fd).inode < s.fs.inodesNum m ∧
      (s.proc.fd fd).position ≤ s.fs.fileLength m (s.proc.fd fd).inode)
    ⟨fun ⟨low, high, flags, table, inode, within⟩ => ⟨low, high, flags, table, inode, within⟩,
      fun ⟨low, high, flags, table, inode, within⟩ => ⟨low, high, flags, table, inode, within⟩⟩

/-- A read of a descriptor that is open in `s`, to a buffer in the user page. -/
structure FileRead (m : Mem) (s : Kernel) where
  fd : BitVec 32
  buf : BitVec 32
  n : BitVec 32
  file : FileOpen m s fd.toNat
  page : InUserPage buf n

/-- How many bytes were asked for on each descriptor, and the bytes that came back. -/
structure ReadLog where
  asked : Nat → Nat
  got : Nat → List UInt8

/-- The ledger before the first read. -/
def ReadLog.empty : ReadLog := ⟨fun _ => 0, fun _ => []⟩

/-- The ledger after a read of `n` bytes that returned `bytes`. -/
def ReadLog.record (l : ReadLog) (fd n : Nat) (bytes : List UInt8) : ReadLog where
  asked := Function.update l.asked fd (l.asked fd + n)
  got := Function.update l.got fd (l.got fd ++ bytes)

/-- One read. -/
def fileReadStep {m : Mem} {s₀ : Kernel} (x : Kernel × ReadLog) (c : FileRead m s₀) :
    Option (Kernel × ReadLog) :=
  (x.1.sysRead c.fd c.buf c.n).map fun r =>
    (r.1, x.2.record c.fd.toNat c.n.toNat (r.1.returned c.buf r.2))

/-- `read_data` lets a read of descriptor `fd` through: it compares the inode with the count that
the boot block holds now, but at the end of the file. -/
def Kernel.Passes (s : Kernel) (m : Mem) (fd : Nat) : Prop :=
  let e := s.proc.fd fd
  e.inode ≤ s.fs.inodesNum s.mem ∨ e.position = s.fs.fileLength m e.inode

/-- What descriptor `fd` has to deliver: its file from its position in `s` on. -/
def Kernel.rest (s : Kernel) (m : Mem) (fd : Nat) : List UInt8 :=
  (s.fs.contents m (s.proc.fd fd).inode).drop (s.proc.fd fd).position

/-- The bytes that came back on descriptor `fd` are the file's from its first position up to the
number asked for or the end of the file, and its position is that bound. -/
def Delivered (m : Mem) (s₀ : Kernel) (fd : Nat) (x : Kernel × ReadLog) : Prop :=
  let e := s₀.proc.fd fd
  x.2.got fd = (s₀.rest m fd).take (x.2.asked fd) ∧
    (x.1.proc.fd fd).position = min (e.position + x.2.asked fd) (s₀.fs.fileLength m e.inode)

/-- The read is let through. Descriptor 7 is refused, so its reads must ask for nothing, before the
end of the file. -/
def FileRead.Served {m : Mem} {s : Kernel} (c : FileRead m s) : Prop :=
  if c.fd.toNat = 7 then
    c.n.toNat = 0 ∧ (s.proc.fd 7).position < s.fs.fileLength m (s.proc.fd 7).inode
  else s.Passes m c.fd.toNat

/-- After the read every descriptor has delivered its part of its file, the read returned 0 if it
was at the end of its file, and it changed no other descriptor. -/
def ReadInStream (m : Mem) (s₀ : Kernel) (x : Kernel × ReadLog) (c : FileRead m s₀)
    (x' : Kernel × ReadLog) : Prop :=
  (∀ fd, FileOpen m s₀ fd → Delivered m s₀ fd x') ∧
  ((x.1.proc.fd c.fd.toNat).position = s₀.fs.fileLength m (s₀.proc.fd c.fd.toNat).inode →
    x.1.sysRead c.fd c.buf c.n = some (x'.1, 0)) ∧
  ∀ fd ≠ c.fd.toNat, x'.1.proc.fd fd = x.1.proc.fd fd

/-- Every read of the run returns, and keeps the streams. -/
def Streams (m : Mem) (s₀ : Kernel) (cs : List (FileRead m s₀)) : Prop :=
  (∃ x, runs fileReadStep (s₀, .empty) cs = some x) ∧
    Along fileReadStep (ReadInStream m s₀) (s₀, .empty) cs

section Reads

variable {m : Mem} {modStart k : Nat} {s s' s₀ : Kernel} {x x' : Kernel × ReadLog}

/-- No file of a well-formed image is longer than 1023 blocks. -/
lemma Fs.Serves.fileLength_le {fs : Fs} (serves : fs.Serves m modStart)
    (wf : WellFormedImage m modStart)
    {inode : Nat} (hi : inode < fs.inodesNum m) : fs.fileLength m inode ≤ 1023 * 4096 := by
  obtain ⟨e, rfl⟩ := serves
  exact wf.length inode hi

/-- An image is mounted. -/
lemma FilesServed.boot (h : FilesServed m modStart k s) : s.fs.bootblockHead ≠ 0 := by
  obtain ⟨e, served⟩ := h.serves
  have above := h.image.above
  have start : s.fs.bootblockHead = modStart := by rw [served]; rfl
  omega

/-- The files are those of the image. -/
lemma FilesServed.files (h : FilesServed m modStart k s) : SameOn (InFiles m modStart) m s.mem :=
  h.same.mono fun _ ha => ⟨ha.1, Nat.le_trans (Nat.add_le_add_left (by decide) _) ha.2⟩

/-- The lengths of the files are those of the image. -/
lemma FilesServed.fileLength (h : FilesServed m modStart k s)
    {inode : Nat} (hi : inode < s.fs.inodesNum m) :
    s.fs.fileLength s.mem inode = s.fs.fileLength m inode := by
  obtain ⟨e, served⟩ := h.serves
  have valid : inode < (filesystemInit m modStart).inodesNum m := by
    rw [served] at hi
    exact hi
  rw [h.image.fileLength_eq h.files h.serves valid, h.image.fileLength_eq .refl h.serves valid]

/-- `file_read` of a file of the image that passes the check. -/
lemma FilesServed.fileRead (h : FilesServed m modStart k s) {fd : Nat} {n : BitVec 32}
    (inode : (s.proc.fd fd).inode < s.fs.inodesNum m)
    (within : (s.proc.fd fd).position ≤ s.fs.fileLength m (s.proc.fd fd).inode)
    (passes : s.Passes m fd) (small : n.toNat < 2 ^ 31) :
    let bytes := (s.rest m fd).take n.toNat
    s.fileRead fd n = ⟨bytes.length, bytes, s.advance fd bytes.length⟩ := by
  have most := h.serves.fileLength_le h.image inode
  have length := h.fileLength inode
  have boot := h.boot
  rw [Kernel.Passes] at passes
  dsimp only
  generalize he : s.proc.fd fd = e at inode within most length passes
  have image : readData s.mem s.fs e.inode e.position n.toNat
      = readData m s.fs e.inode e.position n.toNat := by
    rcases passes with counted | at_end
    · obtain ⟨entry, served⟩ := h.serves
      have valid : e.inode < (filesystemInit m modStart).inodesNum m := by
        rw [served] at inode
        exact inode
      rw [readData_files h.image h.files h.serves valid counted (by omega),
        readData_image h.image .refl h.serves valid (by omega)]
    · rw [readData_at_end boot (at_end.trans length.symm), readData_at_end boot at_end]
  have slice : s.fs.fileBytes m e.inode e.position
      (min n.toNat (s.fs.fileLength m e.inode - e.position))
      = (s.rest m fd).take n.toNat := by
    rw [← Fs.slice_contents (by omega), Kernel.rest, he, List.take_eq_take_iff, List.length_drop,
      Fs.length_contents]
    omega
  rw [Kernel.fileRead, he, image,
      readData_slice boot (Nat.le_of_lt inode) within (by omega) (by omega),
    slice]
  have count : min n.toNat (s.fs.fileLength m e.inode - e.position)
      = ((s.rest m fd).take n.toNat).length := by
    rw [← slice, Fs.length_fileBytes]
  have wrap : ((min n.toNat (s.fs.fileLength m e.inode - e.position) : Nat) : Int) % 2 ^ 32
      = (min n.toNat (s.fs.fileLength m e.inode - e.position) : Nat) := by omega
  rw [wrap, Int.toNat_natCast, count, Kernel.advance, he]

/-- Otherwise the position moves back by one. -/
lemma FilesServed.fileRead_refused (h : FilesServed m modStart k s) {fd : Nat} {n : BitVec 32}
    (inode : (s.proc.fd fd).inode < s.fs.inodesNum m) (refused : ¬ s.Passes m fd) :
    s.fileRead fd n = ⟨-1, [], s.advance fd (2 ^ 32 - 1)⟩ := by
  have length := h.fileLength inode
  rw [Kernel.Passes, not_or, ← length] at refused
  rw [Kernel.fileRead]
  rw [readData_refused h.boot refused.2 (.inl (Nat.lt_of_not_le refused.1))]
  rfl

/-- What is left of a file begins at the position. -/
lemma FileOpen.position_le {fd : Nat} (h : FileOpen m s fd) :
    (s.proc.fd fd).position + (s.rest m fd).length = s.fs.fileLength m (s.proc.fd fd).inode := by
  have within := h.within
  rw [Kernel.rest, List.length_drop, Fs.length_contents]
  omega

/-- A read of an open file goes by `file_read`. -/
lemma FileOpen.tableRead {fd : Nat} (file : FileOpen m s fd) (buf n : BitVec 32) :
    s.tableRead fd buf n (s.proc.fd fd).fileotPointer = some (s.fileRead fd n) := by
  rw [file.table, Kernel.tableRead, if_pos file.high]

/-- A read that is let through delivers the next bytes of the file. -/
lemma FilesServed.sysRead_passes (h : FilesServed m modStart k s) {fd buf n : BitVec 32}
    (file : FileOpen m s fd.toNat) (page : InUserPage buf n) (other : fd.toNat ≠ 7)
    (passes : s.Passes m fd.toNat) :
    let bytes := (s.rest m fd.toNat).take n.toNat
    s.sysRead fd buf n
      = some (s.deliver k fd.toNat buf bytes bytes.length, ((bytes.length : Nat) : Int)) := by
  have small : n.toNat < 2 ^ 31 := by
    have within := page.2
    have top : userEnd < 2 ^ 31 := by decide
    omega
  have high := file.high
  rw [fdarrayMax] at high
  have result := file.tableRead buf n
  rw [h.fileRead file.inode file.within passes small] at result
  refine h.runs.sysRead page file.low (by omega) file.flags result fun res hres => ?_
  obtain rfl := Option.some.inj hres
  exact ⟨rfl, List.length_take_le ..⟩

/-- Otherwise it returns -1, and the position moves back by one. -/
lemma FilesServed.sysRead_refused (h : FilesServed m modStart k s) {fd buf n : BitVec 32}
    (file : FileOpen m s fd.toNat) (page : InUserPage buf n) (other : fd.toNat ≠ 7)
    (refused : ¬ s.Passes m fd.toNat) :
    s.sysRead fd buf n = some (s.deliver k fd.toNat buf [] (2 ^ 32 - 1), -1) := by
  have high := file.high
  rw [fdarrayMax] at high
  have result := file.tableRead buf n
  rw [h.fileRead_refused file.inode refused] at result
  refine h.runs.sysRead page file.low (by omega) file.flags result fun res hres => ?_
  obtain rfl := Option.some.inj hres
  exact ⟨rfl, Nat.zero_le _⟩

/-- A process that was started can read the files of the image. -/
lemma filesServed_execute {fr : Frame} {command : Option (List UInt8)} {pid : Int} {eip : Nat}
    (wf : WellFormedImage m modStart) (same : SameOn (InBody m modStart) m s.mem)
    (serves : s.fs.Serves m modStart) (pages : UserPages s.paging)
    (run : s.execute fr command = some (s', .user pid eip)) :
    FilesServed m modStart (2 + pid).toNat s' := by
  have st := started_execute run
  obtain ⟨low, fs, -⟩ := execute_user_frame pages run
  have nonneg := st.nonneg
  have below := st.below
  refine ⟨wf, same.trans fun a ha => low a (wf.lt ha.1).2, fs.symm ▸ serves, ?_⟩
  constructor
  · have array : s'.proc.filedArray = pcbAddr pid := st.filedArray
    rw [Kernel.fdArrayMapped, array, KernelPtr, pcbAddr, endOfKernel, kernelStackSize]
    omega
  · have paging : s'.paging = s.paging.mapUserPage (2 + pid).toNat := st.paging
    rw [paging]
    exact Paging.mapUserPage_DT ..
  · omega
  · omega

/-- `open` stores in the boot block only. -/
lemma FilesServed.sysOpen (h : FilesServed m modStart k s) {fr : Frame}
    {filename : Option (List UInt8)}
    {r : Int} (run : s.sysOpen fr filename = some (s', r)) : FilesServed m modStart k s' := by
  obtain ⟨⟨a, fs⟩, paging, mem⟩ := sysOpen_stores run
  obtain ⟨e, served⟩ := h.serves
  have array : s'.proc.filedArray = s.proc.filedArray := (fdsChanged_open run).filedArray
  constructor
  · exact h.image
  · refine h.same.trans ?_
    rcases mem with ⟨-, mem⟩ | ⟨-, i, v, st, -, -, -, fits, mem⟩
    · rw [mem]
      exact .refl
    · have start : s.fs.curdentry = modStart := by rw [served]; rfl
      rw [mem, applyStores, start]
      refine SameOn.foldl fun ob hob m => .update _ fun inside => ?_
      have small := fits ob hob
      have top := h.image.below
      have behind := inside.2
      have place : (modStart + ob.1) % 2 ^ 32 = modStart + ob.1 := Nat.mod_eq_of_lt (by omega)
      omega
  · rw [fs, served]
    exact ⟨a, rfl⟩
  · refine ⟨?_, paging.symm ▸ h.runs.page, h.runs.low, h.runs.high⟩
    rw [Kernel.fdArrayMapped, array]
    exact h.runs.fdArray

/-- A read keeps what reading relies on. -/
lemma FilesServed.deliver (h : FilesServed m modStart k s) (fd n : Nat) (buf : BitVec 32)
    (bytes : List UInt8) : FilesServed m modStart k (s.deliver k fd buf bytes n) := by
  refine ⟨h.image, ?_, ?_, h.runs.deliver fd n⟩
  · exact h.same.trans fun a ha => h.runs.low_deliver fd n a (h.image.lt ha.1).2
  · rw [fs_deliver]
    exact h.serves

/-- It leaves the header as it is. -/
lemma FilesServed.inodesNum_deliver (h : FilesServed m modStart k s) (fd n : Nat) (buf : BitVec 32)
    (bytes : List UInt8) :
    s.fs.inodesNum (s.deliver k fd buf bytes n).mem = s.fs.inodesNum s.mem := by
  obtain ⟨e, served⟩ := h.serves
  have start : s.fs.bootblockHead = modStart := by rw [served]; rfl
  rw [Fs.inodesNum, Fs.inodesNum, start]
  apply Mem.word_congr
  intro j hj
  have inside : InImage m modStart (modStart + (4 + j)) := h.image.inHead (by omega)
  have below := (h.image.lt inside).2
  rw [Nat.add_assoc, Mem.byte_of_lt (by omega), Mem.byte_of_lt (by omega)]
  exact h.runs.low_deliver fd n _ below

/-- A descriptor that moves within its file stays open. -/
lemma FileOpen.move {fd p : Nat} (h : FileOpen m s fd) (fs : s'.fs = s.fs)
    (entry : s'.proc.fd fd = { s.proc.fd fd with position := p })
    (within : p ≤ s.fs.fileLength m (s.proc.fd fd).inode) : FileOpen m s' fd := by
  constructor
  · exact h.low
  · exact h.high
  all_goals rw [entry]
  · exact h.flags
  · exact h.table
  · rw [fs]
    exact h.inode
  · rw [fs]
    exact within

/-- The position after a read that delivered bytes of the file. -/
lemma FilesServed.position (h : FilesServed m modStart k s) {fd : Nat} (file : FileOpen m s fd)
    {bytes : List UInt8} (most : bytes.length ≤ (s.rest m fd).length) :
    add32 (s.proc.fd fd).position bytes.length = (s.proc.fd fd).position + bytes.length := by
  have bound := file.position_le
  have length := h.serves.fileLength_le h.image file.inode
  exact add32_of_lt (by omega)

/-! ## Runs -/

/-- What reads that are let through keep: the files that were open in `s₀` still are. -/
structure FilesKept (m : Mem) (modStart k : Nat) (s₀ : Kernel) (x : Kernel × ReadLog) : Prop where
  reading : FilesServed m modStart k x.1
  fs : x.1.fs = s₀.fs
  header : x.1.fs.inodesNum x.1.mem = s₀.fs.inodesNum s₀.mem
  file : ∀ fd, FileOpen m s₀ fd → FileOpen m x.1 fd
  inode : ∀ fd, FileOpen m s₀ fd → (x.1.proc.fd fd).inode = (s₀.proc.fd fd).inode

/-- The three ways a read goes. -/
lemma FilesKept.readStep (h : FilesKept m modStart k s₀ x) (c : FileRead m s₀) :
    c.fd.toNat = 7 ∧ x.1.sysRead c.fd c.buf c.n = some (x.1, -1) ∧
      fileReadStep x c = some (x.1, x.2.record 7 c.n.toNat []) ∨
    c.fd.toNat ≠ 7 ∧ x.1.Passes m c.fd.toNat ∧
      (∃ bytes, bytes = (x.1.rest m c.fd.toNat).take c.n.toNat ∧
        x.1.sysRead c.fd c.buf c.n = some (x.1.deliver k c.fd.toNat c.buf bytes bytes.length,
          ((bytes.length : Nat) : Int)) ∧
        fileReadStep x c = some (x.1.deliver k c.fd.toNat c.buf bytes bytes.length,
          x.2.record c.fd.toNat c.n.toNat bytes)) ∨
    c.fd.toNat ≠ 7 ∧ ¬ x.1.Passes m c.fd.toNat ∧
      fileReadStep x c = some (x.1.deliver k c.fd.toNat c.buf [] (2 ^ 32 - 1),
        x.2.record c.fd.toNat c.n.toNat []) := by
  by_cases seven : c.fd.toNat = 7
  · have refused : x.1.sysRead c.fd c.buf c.n = some (x.1, -1) := sysRead_seven c.page seven
    refine .inl ⟨seven, refused, ?_⟩
    rw [fileReadStep, refused, seven]
    rfl
  have file := h.file _ c.file
  by_cases passes : x.1.Passes m c.fd.toNat
  · have read := h.reading.sysRead_passes file c.page seven passes
    have most : ((x.1.rest m c.fd.toNat).take c.n.toNat).length ≤ c.n.toNat :=
      List.length_take_le ..
    have returned := (h.reading.runs.advance c.fd.toNat
      ((x.1.rest m c.fd.toNat).take c.n.toNat).length).returned c.page most
    refine .inr (.inl ⟨seven, passes, _, rfl, read, ?_⟩)
    rw [fileReadStep, read, Option.map_some, Kernel.deliver, returned]
  · have read := h.reading.sysRead_refused file c.page seven passes
    refine .inr (.inr ⟨seven, passes, ?_⟩)
    rw [fileReadStep, read]
    rfl

/-- One read keeps what a run of reads needs. -/
lemma FilesKept.step (h : FilesKept m modStart k s₀ x) {c : FileRead m s₀}
    (run : fileReadStep x c = some x') (through : c.fd.toNat = 7 ∨ x.1.Passes m c.fd.toNat) :
    FilesKept m modStart k s₀ x' := by
  rcases h.readStep c with ⟨-, -, step⟩ | ⟨-, -, bytes, e, -, step⟩ | ⟨other, refused, -⟩
  · obtain rfl := Option.some.inj (run.symm.trans step)
    exact ⟨h.reading, h.fs, h.header, h.file, h.inode⟩
  · obtain rfl := Option.some.inj (run.symm.trans step)
    have entry (fd : Nat) : (x.1.deliver k c.fd.toNat c.buf bytes bytes.length).proc.fd fd = _ :=
      (fd_deliver ..).trans (fd_advance ..)
    have fs : (x.1.deliver k c.fd.toNat c.buf bytes bytes.length).fs = x.1.fs := fs_deliver ..
    refine ⟨h.reading.deliver .., fs.trans h.fs, ?_, fun fd open_fd => ?_, fun fd open_fd => ?_⟩
    · dsimp only
      rw [fs, h.reading.inodesNum_deliver]
      exact h.header
    · have file := h.file fd open_fd
      by_cases same : fd = c.fd.toNat
      · subst same
        have bound := file.position_le
        have most : bytes.length ≤ (x.1.rest m c.fd.toNat).length := e ▸ List.length_take_le' ..
        have next := h.reading.position file most
        exact file.move fs ((entry _).trans (if_pos rfl)) (by omega)
      · exact file.move fs ((entry fd).trans (if_neg same)) file.within
    · rw [entry]
      split_ifs with same
      · subst same
        exact h.inode _ open_fd
      · exact h.inode fd open_fd
  · rcases through with seven | passes
    · exact absurd seven other
    · exact absurd passes refused

/-- What the ledger has after one more read. -/
lemma ReadLog.record_got (l : ReadLog) (fd n : Nat) (bytes : List UInt8) (j : Nat) :
    (l.record fd n bytes).got j = if j = fd then l.got fd ++ bytes else l.got j :=
  Function.update_apply ..

/-- What the ledger asked for after one more read. -/
lemma ReadLog.record_asked (l : ReadLog) (fd n : Nat) (bytes : List UInt8) (j : Nat) :
    (l.record fd n bytes).asked j = if j = fd then l.asked fd + n else l.asked j :=
  Function.update_apply ..

/-- A read of nothing leaves the log alone. -/
lemma ReadLog.record_nil (l : ReadLog) (fd : Nat) : l.record fd 0 [] = l := by
  rw [ReadLog.record, Nat.add_zero, List.append_nil, Function.update_eq_self,
    Function.update_eq_self]

/-- Slices join. -/
lemma slice_append {l : List UInt8} (p a n : Nat) :
    (l.drop p).take a ++ (l.drop (min (p + a) l.length)).take n = (l.drop p).take (a + n) := by
  rw [List.take_add, List.drop_drop]
  congr 2
  rcases Nat.le_total (p + a) l.length with inside | beyond
  · rw [Nat.min_eq_left inside]
  · rw [Nat.min_eq_right beyond, List.drop_length, List.drop_eq_nil_of_le beyond]

/-- What a run keeps while the streams are kept: a descriptor that is refused was not read yet. -/
structure InStreams (m : Mem) (modStart k : Nat) (s₀ : Kernel) (x : Kernel × ReadLog) : Prop where
  kept : FilesKept m modStart k s₀ x
  delivered : ∀ fd, FileOpen m s₀ fd → Delivered m s₀ fd x
  unread : ∀ fd, FileOpen m s₀ fd → fd = 7 ∨ ¬ s₀.Passes m fd → x.2.asked fd = 0

/-- Whether a descriptor passes the check does not change. -/
lemma InStreams.passes_iff (h : InStreams m modStart k s₀ x) {fd : Nat} (file : FileOpen m s₀ fd) :
    x.1.Passes m fd ↔ s₀.Passes m fd := by
  have position := (h.delivered fd file).2
  have within := file.within
  have header := h.kept.header
  have fs := h.kept.fs
  have unread := h.unread fd file
  rw [fs] at header
  have here : x.1.Passes m fd ↔ (s₀.proc.fd fd).inode ≤ s₀.fs.inodesNum s₀.mem ∨
      (x.1.proc.fd fd).position = s₀.fs.fileLength m (s₀.proc.fd fd).inode := by
    rw [Kernel.Passes, h.kept.inode fd file, fs, header]
  rw [here, Kernel.Passes]
  constructor
  · rintro (counted | at_end)
    · exact .inl counted
    · by_contra refused
      rw [unread (.inr refused)] at position
      exact refused (.inr (by omega))
  · rintro (counted | at_end)
    · exact .inl counted
    · exact .inr (by omega)

/-- A read that delivers keeps the streams. -/
lemma InStreams.deliver (h : InStreams m modStart k s₀ x) (c : FileRead m s₀) {bytes : List UInt8}
    (e : bytes = (x.1.rest m c.fd.toNat).take c.n.toNat) {fd : Nat} (file : FileOpen m s₀ fd) :
    Delivered m s₀ fd (x.1.deliver k c.fd.toNat c.buf bytes bytes.length,
      x.2.record c.fd.toNat c.n.toNat bytes) := by
  obtain ⟨got, position⟩ := h.delivered fd file
  have entry : (x.1.deliver k c.fd.toNat c.buf bytes bytes.length).proc.fd fd = _ :=
    (fd_deliver ..).trans (fd_advance ..)
  have most : bytes.length ≤ (x.1.rest m c.fd.toNat).length := e ▸ List.length_take_le' ..
  have next := h.kept.reading.position (h.kept.file _ c.file) most
  rw [Delivered]
  dsimp only
  rw [ReadLog.record_got, ReadLog.record_asked]
  by_cases same : fd = c.fd.toNat
  · subst same
    rw [if_pos rfl] at entry
    have rest : x.1.rest m c.fd.toNat
        = (s₀.fs.contents m (s₀.proc.fd c.fd.toNat).inode).drop
          (x.1.proc.fd c.fd.toNat).position := by
      rw [Kernel.rest, h.kept.fs, h.kept.inode _ file]
    have length : (s₀.fs.contents m (s₀.proc.fd c.fd.toNat).inode).length
        = s₀.fs.fileLength m (s₀.proc.fd c.fd.toNat).inode := Fs.length_contents
    rw [rest, position, ← length] at e
    rw [if_pos rfl, if_pos rfl, got, entry]
    dsimp only
    rw [next, e]
    refine ⟨slice_append _ _ _, ?_⟩
    rw [position, List.length_take, List.length_drop, length]
    omega
  · rw [if_neg same] at entry
    rw [if_neg same, if_neg same, entry]
    exact ⟨got, position⟩

/-- A read of descriptor 7 keeps the streams if it was asked for nothing, and not at its end. -/
lemma InStreams.seven_iff (h : InStreams m modStart k s₀ x)
    {c : FileRead m s₀} (seven : c.fd.toNat = 7)
    (refused : x.1.sysRead c.fd c.buf c.n = some (x.1, -1)) :
    ReadInStream m s₀ x c (x.1, x.2.record 7 c.n.toNat []) ↔ c.Served := by
  have file := c.file
  rw [seven] at file
  obtain ⟨got, position⟩ := h.delivered 7 file
  have unread := h.unread 7 file (.inl rfl)
  have within := file.within
  have bound := file.position_le
  rw [unread] at got position
  rw [FileRead.Served, if_pos seven]
  constructor
  · rintro ⟨delivered, at_end, -⟩
    have before : (s₀.proc.fd 7).position < s₀.fs.fileLength m (s₀.proc.fd 7).inode := by
      rcases Nat.eq_or_lt_of_le within with last | before
      · rw [seven, refused] at at_end
        have zero := at_end (by omega)
        exact absurd (Prod.mk.inj (Option.some.inj zero)).2 (by decide)
      · exact before
    have bytes := (delivered 7 file).1
    rw [ReadLog.record_got, ReadLog.record_asked, if_pos rfl, if_pos rfl, unread, got] at bytes
    have length := congrArg List.length bytes
    rw [List.length_append, List.length_take, List.length_take, List.length_nil] at length
    exact ⟨by omega, before⟩
  · rintro ⟨zero, before⟩
    rw [zero, ReadLog.record_nil]
    refine ⟨h.delivered, fun at_end => ?_, fun fd _ => rfl⟩
    rw [seven] at at_end
    omega

/-- A read that fails the check moves its position out of the stream. -/
lemma InStreams.not_refused (h : InStreams m modStart k s₀ x) {c : FileRead m s₀}
    (refused : ¬ x.1.Passes m c.fd.toNat) :
    ¬ ReadInStream m s₀ x c (x.1.deliver k c.fd.toNat c.buf [] (2 ^ 32 - 1),
      x.2.record c.fd.toNat c.n.toNat []) := by
  rintro ⟨delivered, -⟩
  have before := (h.delivered _ c.file).2
  have after := (delivered _ c.file).2
  have most := h.kept.reading.serves.fileLength_le h.kept.reading.image (h.kept.file _ c.file).inode
  rw [h.kept.fs, h.kept.inode _ c.file] at most
  rw [Kernel.Passes, not_or, h.kept.fs, h.kept.inode _ c.file] at refused
  have not_end := refused.2
  dsimp only at before after not_end
  rw [ReadLog.record_asked, if_pos rfl, fd_deliver, fd_advance, if_pos rfl] at after
  dsimp only [add32] at after
  omega

/-- One read keeps the streams exactly when it is let through. -/
lemma InStreams.step (h : InStreams m modStart k s₀ x) {c : FileRead m s₀}
    (run : fileReadStep x c = some x') :
    (ReadInStream m s₀ x c x' → InStreams m modStart k s₀ x') ∧
      (ReadInStream m s₀ x c x' ↔ c.Served) := by
  rcases h.kept.readStep c with
    ⟨seven, refused, step⟩ | ⟨other, passes, bytes, e, read, step⟩ | ⟨other, refused, step⟩
  · obtain rfl := Option.some.inj (run.symm.trans step)
    have served := h.seven_iff seven refused
    refine ⟨fun stream => ⟨h.kept.step run (.inl seven), stream.1, ?_⟩, served⟩
    have asked := served.mp stream
    rw [FileRead.Served, if_pos seven] at asked
    rw [asked.1, ReadLog.record_nil]
    exact h.unread
  · obtain rfl := Option.some.inj (run.symm.trans step)
    have stream : ReadInStream m s₀ x c (x.1.deliver k c.fd.toNat c.buf bytes bytes.length,
        x.2.record c.fd.toNat c.n.toNat bytes) := by
      refine ⟨fun fd file => h.deliver c e file, fun at_end => ?_, fun fd ne => ?_⟩
      · have done : bytes = [] := by
          rw [e, Kernel.rest, h.kept.fs, h.kept.inode _ c.file, at_end, ← Fs.length_contents,
            List.drop_length, List.take_nil]
        rw [read, done]
        rfl
      · exact (fd_deliver ..).trans ((fd_advance ..).trans (if_neg ne))
    have served : c.Served := by
      rw [FileRead.Served, if_neg other]
      exact (h.passes_iff c.file).mp passes
    refine ⟨fun _ => ⟨h.kept.step run (.inr passes), stream.1, fun fd file out => ?_⟩,
      fun _ => served, fun _ => stream⟩
    have ne : fd ≠ c.fd.toNat := by
      rintro rfl
      rcases out with seven | refused
      · exact other seven
      · exact refused ((h.passes_iff file).mp passes)
    rw [ReadLog.record_asked, if_neg ne]
    exact h.unread fd file out
  · obtain rfl := Option.some.inj (run.symm.trans step)
    have broken := h.not_refused refused
    refine ⟨fun stream => absurd stream broken, fun stream => absurd stream broken,
      fun served => ?_⟩
    rw [FileRead.Served, if_neg other] at served
    exact absurd ((h.passes_iff c.file).mpr served) refused

/-- **The streams are kept** exactly when every read is let through: descriptor 7 is asked for
nothing, and before the end of its file, and the count in the boot block covers the inodes of the
others, but for those that begin at the end of their file. -/
theorem streams_iff (h : FilesServed m modStart k s) (cs : List (FileRead m s)) :
    Streams m s cs ↔ ∀ c ∈ cs, c.Served := by
  have kept : FilesKept m modStart k s (s, .empty) :=
    ⟨h, rfl, rfl, fun _ file => file, fun _ _ => rfl⟩
  have start : InStreams m modStart k s (s, .empty) := by
    refine ⟨kept, fun fd file => ⟨rfl, ?_⟩, fun _ _ _ => rfl⟩
    exact (Nat.min_eq_left file.within).symm
  have step (x : Kernel × ReadLog) (c : FileRead m s) (x' : Kernel × ReadLog)
      (hx : InStreams m modStart k s x) (run : fileReadStep x c = some x') := hx.step run
  have complete (x : Kernel × ReadLog) (c : FileRead m s) (hx : InStreams m modStart k s x)
      (served : c.Served) : ∃ x', fileReadStep x c = some x' ∧ InStreams m modStart k s x' := by
    obtain ⟨x', run⟩ : ∃ x', fileReadStep x c = some x' := by
      rcases hx.kept.readStep c with ⟨-, -, run⟩ | ⟨-, -, bytes, -, -, run⟩ | ⟨-, -, run⟩
      · exact ⟨_, run⟩
      · exact ⟨_, run⟩
      · exact ⟨_, run⟩
    obtain ⟨keep, iff⟩ := hx.step run
    exact ⟨x', run, keep (iff.mpr served)⟩
  constructor
  · rintro ⟨⟨x, run⟩, along⟩
    exact (meets_inputs run).mp ((along_iff_meets _ step start).mp along)
  · intro served
    obtain ⟨x, run, -⟩ := runs_complete _ complete start served
    exact ⟨⟨x, run⟩, (along_iff_meets _ step start).mpr ((meets_inputs run).mpr served)⟩

end Reads

/-- The shell of the small machine with a file open. -/
def fileShell (name : List Char) : Option Kernel :=
  (bootShell sampleFrame sampleBoot).bind fun s =>
    (s.sysOpen sampleFrame (some (bytesOf name))).map Prod.fst

/-- The shell with a file open can read the files. -/
lemma filesServed_fileShell {name : List Char} {s : Kernel} (h : fileShell name = some s) :
    ∃ k, FilesServed sampleRam 0x600000 k s := by
  obtain ⟨t, boot, h⟩ := Option.bind_eq_some_iff.mp h
  obtain ⟨⟨s', r⟩, run, rfl⟩ := Option.map_eq_some_iff.mp h
  obtain ⟨pid, eip, start⟩ := launch_spec boot
  have serves : (Kernel.boot sampleBoot).fs.Serves sampleRam 0x600000 := ⟨_, rfl⟩
  have shell := filesServed_execute wellFormedImage_sample .refl serves (UserPages.boot _) start
  exact ⟨_, shell.sysOpen run⟩

/-- The program `shell`, open twice, is read in turns: five bytes, all 28, and the next five. -/
theorem streams_iff_sample : ∃ s, ((fileShell ['s', 'h', 'e', 'l', 'l']).bind fun s =>
      s.sysOpen sampleFrame (some (bytesOf ['s', 'h', 'e', 'l', 'l']))) = some (s, 3) ∧
    ∃ c d : FileRead sampleRam s, (c.fd, c.n) = (2, 5) ∧ (d.fd, d.n) = (3, 100) ∧
      Streams sampleRam s [c, d, c] := by
  have facts : ((fileShell ['s', 'h', 'e', 'l', 'l']).bind fun s =>
      s.sysOpen sampleFrame (some (bytesOf ['s', 'h', 'e', 'l', 'l']))).map
        (fun o => (o.2, decide (FileOpen sampleRam o.1 2 ∧ FileOpen sampleRam o.1 3 ∧
          (o.1.proc.fd 2).inode ≤ o.1.fs.inodesNum o.1.mem ∧
          (o.1.proc.fd 3).inode ≤ o.1.fs.inodesNum o.1.mem))) = some (3, true) := by decide +kernel
  obtain ⟨⟨s, r⟩, hs, e⟩ := Option.map_eq_some_iff.mp facts
  simp only [Prod.mk.injEq, decide_eq_true_eq] at e
  obtain ⟨rfl, file₂, file₃, counted₂, counted₃⟩ := e
  obtain ⟨s₁, h₁, again⟩ := Option.bind_eq_some_iff.mp hs
  obtain ⟨k, served⟩ := filesServed_fileShell h₁
  let c : FileRead sampleRam s := ⟨2, 0x08048100, 5, file₂, by decide, by decide⟩
  let d : FileRead sampleRam s := ⟨3, 0x08048200, 100, file₃, by decide, by decide⟩
  refine ⟨s, hs, c, d, rfl, rfl, (streams_iff (served.sysOpen again) [c, d, c]).mpr ?_⟩
  intro c' hc'
  simp only [List.mem_cons, List.not_mem_nil, or_false] at hc'
  rcases hc' with rfl | rfl | rfl
  · exact Or.inl counted₂
  · exact Or.inl counted₃
  · exact Or.inl counted₂

/-- The first read of the file `text` fails: the number of inodes is now bytes 4 to 7 of its
name. -/
theorem not_always_streams : ¬ ∀ (m : Mem) (modStart k : Nat) (s : Kernel),
    FilesServed m modStart k s → ∀ cs : List (FileRead m s), Streams m s cs := by
  intro claim
  have facts : (fileShell ['t', 'e', 'x', 't']).map (fun s => (decide (FileOpen sampleRam s 2),
      (s.rest sampleRam 2).length, (s.sysRead 2 0x08048100 5).map Prod.snd))
      = some (true, 5, some (-1)) := by decide +kernel
  obtain ⟨s, hs, e⟩ := Option.map_eq_some_iff.mp facts
  simp only [Prod.mk.injEq, decide_eq_true_eq] at e
  obtain ⟨file, length, refused⟩ := e
  obtain ⟨k, served⟩ := filesServed_fileShell hs
  let c : FileRead sampleRam s := ⟨2, 0x08048100, 5, file, by decide, by decide⟩
  obtain ⟨⟨s', r⟩, run, rfl⟩ := Option.map_eq_some_iff.mp refused
  have step : fileReadStep (s, .empty) c = some (s', ReadLog.empty.record 2 5 []) := by
    rw [fileReadStep, show (s, ReadLog.empty).1.sysRead c.fd c.buf c.n = some (s', -1) from run]
    rfl
  have along := (claim _ _ k s served [c]).2
  have got := ((along _ step).1.1 2 file).1
  have bytes : ([] : List UInt8) = (s.rest sampleRam 2).take 5 := got
  have count := congrArg List.length bytes
  rw [List.length_take, length] at count
  exact absurd count (by decide)

end Kernel391
