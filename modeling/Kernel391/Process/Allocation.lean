import Kernel391.Process.Descriptors
import Kernel391.Files.Absent

/-!
# Allocation of descriptors

A process opens and closes files in any order. `open` fills the slot it hands out before the file's
own operation runs and sets the flags last; for a regular file that operation copies the entry over
the header of the boot block, which leaves the directory behind it. What every call does to the
slots is stated for one call and carried along the histories of a process (`allocates_iff`).
-/

namespace Kernel391
open Base

/-- The directory of an image: 17 entries or more, of types 0 to 2, whose names are printable and
not empty and whose reserved bytes are zero. -/
structure NamedDirectory (m : Mem) (modStart : Nat) : Prop where
  below : modStart + 4096 ≤ 2 ^ 32
  entries : 17 ≤ (filesystemInit m modStart).dentryNum m
  slots : (filesystemInit m modStart).dentryNum m ≤ 63
  fileType : ∀ i < (filesystemInit m modStart).dentryNum m,
    (filesystemInit m modStart).fileType m i ≤ 2
  nonempty : ∀ i < (filesystemInit m modStart).dentryNum m,
    (filesystemInit m modStart).entryName m i ≠ []
  printable : ∀ i < (filesystemInit m modStart).dentryNum m,
    ∀ b ∈ (filesystemInit m modStart).entryName m i, 32 ≤ b.toNat ∧ b.toNat ≤ 126
  reserved : ∀ i < (filesystemInit m modStart).dentryNum m, ∀ k < 24,
    (filesystemInit m modStart).reserved m i k = 0

/-- The descriptor of directory entry `i`, just opened. -/
def Fs.opened (fs : Fs) (m : Mem) (i : Nat) : FdArray where
  fileotPointer := fs.fileType m i
  inode := if fs.fileType m i = 0 then 2 ^ 32 - 1 else fs.inodeIndex m i
  position := 0
  flags := 1

/-- What `open` does. It fails exactly when there is no such name or the six slots are in use, and
then changes nothing of the process; else it returns the lowest free slot, which is all it changes:
the slot holds an entry of that name. -/
structure Opens (m : Mem) (modStart : Nat) (s : Kernel) (filename : Option (List UInt8))
    (x : Kernel × Int) : Prop where
  fails : x.2 = -1 ↔ (filename = none ∨ ∃ name st, filename = some name ∧
      readDentryByName s.mem s.fs (upToNul name) = some (-1, st)) ∨
    ∀ fd, 2 ≤ fd → fd < 8 → (s.proc.fd fd).flags ≠ 0
  unchanged : x.2 = -1 → x.1.proc = s.proc
  gives : x.2 ≠ -1 → ∃ fd i name, x.2 = (fd : Nat) ∧ 2 ≤ fd ∧ fd < 8 ∧ (s.proc.fd fd).flags = 0 ∧
    (∀ k, 2 ≤ k → k < fd → (s.proc.fd k).flags ≠ 0) ∧
    filename = some name ∧ i < (filesystemInit m modStart).dentryNum m ∧
    (filesystemInit m modStart).entryName m i = upToNul name ∧
    x.1.proc = s.proc.setFd fd ((filesystemInit m modStart).opened m i)

/-- What `close` does: nothing to the process, or it frees the slot. -/
structure Closes (s : Kernel) (i : Int) (x : Kernel × Int) : Prop where
  unchanged : x.2 = -1 → x.1.proc = s.proc
  frees : x.2 ≠ -1 → ∃ fd : Nat, i = fd ∧ 2 ≤ fd ∧ fd < 8 ∧
    x.1.proc = s.proc.setFd fd { s.proc.fd fd with flags := 0 }

/-- A call, from the state and the result of the call before. -/
def FdCall.call (x : Kernel × Int) : FdCall → Option (Kernel × Int)
  | .sysOpen fr filename => x.1.sysOpen fr filename
  | .sysClose i => x.1.sysClose i

/-- What a call does to the slots of the process. -/
def Allocates (m : Mem) (modStart : Nat) (x : Kernel × Int) : FdCall → Kernel × Int → Prop
  | .sysOpen _ filename => Opens m modStart x.1 filename
  | .sysClose i => Closes x.1 i

/-- The name fits the local copy of the lookup, and the slots of the directory fit the local record
when a slot in use is closed. -/
def Workable (x : Kernel × Int) : FdCall → Prop
  | .sysOpen _ filename => ∀ name, filename = some name → (upToNul name).length ≤ 32
  | .sysClose i => ∀ fd : Nat, i = fd → 2 ≤ fd → fd < 7 → (x.1.proc.fd fd).flags ≠ 0 →
    SlotsFit x.1.mem x.1.fs

/-- The addresses of the directory, behind the header of the boot block. -/
def InDirectory (modStart a : Nat) : Prop := modStart + 64 ≤ a ∧ a < modStart + 4096

/-- What the calls of a process keep: the directory is the image's and its header counts 17 entries
or more; the slots 0 and 1 are in use, and the others that are have the operations of a file. -/
structure Allocating (m : Mem) (modStart : Nat) (s : Kernel) : Prop where
  serves : s.fs.Serves m modStart
  directory : SameOn (InDirectory modStart) m s.mem
  entries : 17 ≤ s.fs.dentryNum s.mem
  mapped : s.proc.filedArray ≠ 0
  std : ∀ fd < 2, (s.proc.fd fd).flags ≠ 0
  table : ∀ fd, 2 ≤ fd → fd < 8 → (s.proc.fd fd).flags ≠ 0 → (s.proc.fd fd).fileotPointer ≤ 2

/-! ## The directory behind the header -/

section Directory

variable {m : Mem} {modStart i k : Nat} {s : Kernel}

/-- A byte of a directory slot is the image's. -/
lemma NamedDirectory.byte (image : NamedDirectory m modStart) (inv : Allocating m modStart s)
    (hi : i < 63) (hk : k < 64) :
    s.mem.byte (s.fs.dentry i + k) = m.byte ((filesystemInit m modStart).dentry i + k) := by
  have below := image.below
  obtain ⟨a, e⟩ := inv.serves
  have place : s.fs.dentry i = modStart + 64 + 64 * i := by
    rw [e]
    rfl
  have place' : (filesystemInit m modStart).dentry i = modStart + 64 + 64 * i := rfl
  rw [place, place', Mem.byte_of_lt (by omega), Mem.byte_of_lt (by omega)]
  exact inv.directory _ ⟨by omega, by omega⟩

/-- A byte of a name is the image's. -/
lemma NamedDirectory.fileName_eq (image : NamedDirectory m modStart) (inv : Allocating m modStart s)
    (hi : i < 63) (hk : k < 64) :
    s.fs.fileName s.mem i k = (filesystemInit m modStart).fileName m i k := image.byte inv hi hk

/-- The name of a slot is the image's. -/
lemma NamedDirectory.entryName_eq (image : NamedDirectory m modStart)
    (inv : Allocating m modStart s) (hi : i < 63) :
    s.fs.entryName s.mem i = (filesystemInit m modStart).entryName m i := by
  rw [Fs.entryName, Fs.entryName]
  congr 1
  apply List.map_congr_left
  intro k hk
  have lt : k < 32 := List.mem_range.mp hk
  exact image.fileName_eq inv hi (by omega)

/-- The type of a slot is the image's. -/
lemma NamedDirectory.fileType_eq (image : NamedDirectory m modStart) (inv : Allocating m modStart s)
    (hi : i < 63) : s.fs.fileType s.mem i = (filesystemInit m modStart).fileType m i := by
  refine word_transfer fun k hk => ?_
  rw [Nat.add_assoc, Nat.add_assoc]
  exact image.byte inv hi (by omega)

/-- The inode of a slot is the image's. -/
lemma NamedDirectory.inodeIndex_eq (image : NamedDirectory m modStart)
    (inv : Allocating m modStart s) (hi : i < 63) :
    s.fs.inodeIndex s.mem i = (filesystemInit m modStart).inodeIndex m i := by
  refine word_transfer fun k hk => ?_
  rw [Nat.add_assoc, Nat.add_assoc]
  exact image.byte inv hi (by omega)

/-- Every name of the directory ends, at the latest behind the first byte of the type. -/
lemma NamedDirectory.name_ends (image : NamedDirectory m modStart) (inv : Allocating m modStart s)
    (hi : i < 17) : s.fs.fileName s.mem i 33 = 0 := by
  have entries := image.entries
  have type := image.fileType i (by omega)
  rw [image.fileName_eq inv (by omega) (by decide)]
  rw [Fs.fileType, Mem.word] at type
  apply UInt8.toNat_inj.mp
  show (m.byte ((filesystemInit m modStart).dentry i + 32 + 1)).toNat = 0
  omega

/-- The names of the scan end. -/
lemma NamedDirectory.scanEnds (image : NamedDirectory m modStart) (inv : Allocating m modStart s) :
    ScanEnds s.mem s.fs := fun _ hi => ⟨33, by decide, image.name_ends inv hi⟩

/-- So the first 17 entries fit a record. -/
lemma NamedDirectory.entry_fits (image : NamedDirectory m modStart) (inv : Allocating m modStart s)
    (hi : i < 17) :
    ∃ st, readDentryByIndex s.mem s.fs i = some (0, st) ∧ ∀ ob ∈ st, ob.1 < 64 := by
  have entries := inv.entries
  have entries' := image.entries
  have reserved : s.fs.reserved s.mem i 0 = 0 := by
    have zero := image.reserved i (by omega) 0 (by decide)
    exact (image.byte (k := 40) inv (by omega) (by decide)).trans zero
  exact readDentryByIndex_fits (by omega) ⟨33, by decide, image.name_ends inv hi⟩
    ⟨0, by decide, reserved⟩

/-- A name that fits is refused or found among the first 17 entries. -/
lemma NamedDirectory.lookup (image : NamedDirectory m modStart) (inv : Allocating m modStart s)
    {fname : List UInt8} (nonzero : ∀ b ∈ fname, b ≠ 0) (short : fname.length ≤ 32) :
    readDentryByName s.mem s.fs fname = some (-1, []) ∨ ∃ i < 17,
      (filesystemInit m modStart).entryName m i = fname ∧ ∃ st,
        readDentryByIndex s.mem s.fs i = some (0, st) ∧ (∀ ob ∈ st, ob.1 < 64) ∧
        readDentryByName s.mem s.fs fname = some (0, st) := by
  rcases readDentryByName_scan (image.scanEnds inv) nonzero short with
    ⟨-, refused⟩ | ⟨i, lt, named, -, run⟩
  · exact .inl refused
  · obtain ⟨st, entry, fits⟩ := image.entry_fits inv lt
    rw [image.entryName_eq inv (by omega)] at named
    refine .inr ⟨i, lt, named, st, entry, fits, ?_⟩
    rw [run, entry, Option.map_some]

/-- A lookup that succeeds found one of them. -/
lemma NamedDirectory.found (image : NamedDirectory m modStart) (inv : Allocating m modStart s)
    {fname : List UInt8} {ret : Int} {st : Stores} (nonzero : ∀ b ∈ fname, b ≠ 0)
    (short : fname.length ≤ 32) (run : readDentryByName s.mem s.fs fname = some (ret, st))
    (success : ret ≠ -1) : ∃ i < 17, (filesystemInit m modStart).entryName m i = fname ∧
      readDentryByIndex s.mem s.fs i = some (0, st) ∧ ∀ ob ∈ st, ob.1 < 64 := by
  rcases image.lookup inv nonzero short with refused | ⟨i, hi, named, st', entry, fits, run'⟩
  · cases run.symm.trans refused
    exact absurd rfl success
  · cases run.symm.trans run'
    exact ⟨i, hi, named, entry, fits⟩

/-- A record that holds an entry gives its descriptor. -/
lemma NamedDirectory.openEntry (image : NamedDirectory m modStart) (inv : Allocating m modStart s)
    (hi : i < 17) {st : Stores} {old d : Nat → UInt8}
    (entry : readDentryByIndex s.mem s.fs i = some (0, st)) (record : localDentry old st = some d) :
    Kernel.openEntry d 1 = (filesystemInit m modStart).opened m i := by
  have entries := inv.entries
  obtain ⟨type, inode, -⟩ := localDentry_fields entry (by omega) record
  rw [image.fileType_eq inv (by omega)] at type
  rw [image.inodeIndex_eq inv (by omega)] at inode
  rw [Kernel.openEntry, Fs.opened, type, inode]

/-- The copy of an entry over the header leaves the directory, and a header that begins with the
entry's name. -/
lemma NamedDirectory.header (image : NamedDirectory m modStart) (inv : Allocating m modStart s)
    (hi : i < 17) {st : Stores} (entry : readDentryByIndex s.mem s.fs i = some (0, st))
    (fits : ∀ ob ∈ st, ob.1 < 64) :
    SameOn (InDirectory modStart) m (applyStores s.mem s.fs.curdentry st) ∧
      17 ≤ s.fs.dentryNum (applyStores s.mem s.fs.curdentry st) := by
  have below := image.below
  have entries := inv.entries
  have entries' := image.entries
  obtain ⟨a, e⟩ := inv.serves
  have cur : s.fs.curdentry = modStart := by
    rw [e]
    rfl
  have head := inv.serves.bootblockHead
  rw [cur]
  constructor
  · refine inv.directory.trans (SameOn.foldl fun ob h t => ?_)
    have lt := fits ob h
    apply SameOn.update
    rintro ⟨low, -⟩
    omega
  · -- the name is not empty, and its first byte is printable
    obtain ⟨l, -, name, nonzero, -⟩ := entryName_spec (filesystemInit m modStart) m i
    have first : 0 < l := by
      rcases Nat.eq_zero_or_pos l with rfl | pos
      · exact absurd name (image.nonempty i (by omega))
      · exact pos
    have mem : (filesystemInit m modStart).fileName m i 0
        ∈ (filesystemInit m modStart).entryName m i := by
      rw [name]
      exact List.mem_map.mpr ⟨0, List.mem_range.mpr first, rfl⟩
    have printable := (image.printable i (by omega) _ mem).1
    have same := image.fileName_eq (k := 0) inv (show i < 63 by omega) (by decide)
    obtain ⟨copies, -⟩ := readDentryByIndex_copies entry (by omega)
    obtain ⟨ob, h, zero⟩ := readDentryByIndex_name (k := 0) entry (by omega)
      fun j hj => absurd hj (Nat.not_lt_zero j)
    have byte : applyStores s.mem modStart st modStart = s.fs.fileName s.mem i 0 := by
      apply foldl_stores (φ := fun o => (modStart + o) % 2 ^ 32)
      · intro ob' h' at_start
        have lt := fits ob' h'
        have offset : ob'.1 = 0 := by omega
        rw [copies ob' h', offset]
        rfl
      · exact .inr ⟨ob, h, by omega⟩
    rw [Fs.dentryNum, head, Mem.word, Mem.byte_of_lt (by omega), byte, same]
    omega

end Directory

/-! ## One call -/

section Calls

variable {m : Mem} {modStart : Nat} {s s' : Kernel} {fr : Frame} {r : Int}

/-- A call that changes one slot above 1, and not the directory, keeps what the calls keep. -/
lemma Allocating.of_setFd (inv : Allocating m modStart s) {k : Nat} {e : FdArray} (above : 2 ≤ k)
    (proc : s'.proc = s.proc.setFd k e) (table : e.flags ≠ 0 → e.fileotPointer ≤ 2)
    (serves : s'.fs.Serves m modStart) (directory : SameOn (InDirectory modStart) m s'.mem)
    (entries : 17 ≤ s'.fs.dentryNum s'.mem) : Allocating m modStart s' := by
  have fds (fd : Nat) : s'.proc.fd fd = if fd = k then e else s.proc.fd fd := by
    rw [proc]
    exact Proc.fd_setFd ..
  refine ⟨serves, directory, entries, ?_, fun fd low => ?_, fun fd low high used => ?_⟩
  · rw [proc]
    exact inv.mapped
  · rw [fds, if_neg (by omega)]
    exact inv.std fd low
  · rw [fds] at used ⊢
    split_ifs at used ⊢
    · exact table used
    · exact inv.table fd low high used

/-- `open` of a name that fits completes. -/
lemma Allocating.sysOpen_completes (inv : Allocating m modStart s) (fr : Frame)
    (image : NamedDirectory m modStart) {filename : Option (List UInt8)}
    (short : ∀ name, filename = some name → (upToNul name).length ≤ 32) :
    ∃ s' r, s.sysOpen fr filename = some (s', r) := by
  cases filename with
  | none => exact ⟨s, -1, rfl⟩
  | some name =>
      have entries := inv.entries
      have entries' := image.entries
      rcases image.lookup inv (upToNul_nonzero name) (short name rfl) with
        refused | ⟨i, hi, -, st, entry, fits, found⟩
      · refine ⟨s, -1, ?_⟩
        rw [Kernel.sysOpen]
        simp only [if_neg inv.mapped, refused, if_true]
      · have record := localDentry_of_fits fr.dentry fits
        have type := (localDentry_fields entry (by omega) record).1
        rw [image.fileType_eq inv (by omega)] at type
        cases free : s.freeFd with
        | none =>
            have ok : ¬ (0 : Int) = -1 := by decide
            refine ⟨s, -1, ?_⟩
            simp only [Kernel.sysOpen, if_neg inv.mapped, found, if_neg ok, record, free]
        | some counter =>
            obtain ⟨s', run⟩ := sysOpen_found inv.mapped found record
              (type.symm ▸ image.fileType i (by omega)) free
            exact ⟨s', counter, run⟩

/-- `open` of a name that does not fit does not complete. -/
lemma sysOpen_long (fr : Frame) (mapped : s.proc.filedArray ≠ 0) {name : List UInt8}
    (long : 32 < (upToNul name).length) : s.sysOpen fr (some name) = none := by
  rw [Kernel.sysOpen]
  simp only [if_neg mapped, readDentryByName_long long]

/-- Everything an `open` that completes does, to the slots and to the directory. -/
lemma Allocating.sysOpen (inv : Allocating m modStart s) (image : NamedDirectory m modStart)
    {filename : Option (List UInt8)}
    (short : ∀ name, filename = some name → (upToNul name).length ≤ 32)
    (run : s.sysOpen fr filename = some (s', r)) :
    Opens m modStart s filename (s', r) ∧ Allocating m modStart s' := by
  have entries' := image.entries
  rcases sysOpen_cases run with ⟨rfl, rfl, reason⟩ |
    ⟨name, ret, st, d, counter, t, ret', rfl, -, lookup, found, record, free, table, rfl, rfl⟩
  · refine ⟨⟨iff_of_true rfl ?_, fun _ => rfl, fun ne => absurd rfl ne⟩, inv⟩
    rcases reason with h | h | h | h
    · exact .inl (.inl h)
    · exact absurd h inv.mapped
    · exact .inr fun fd _ high => freeFd_none h fd high
    · exact .inl (.inr h)
  · obtain ⟨i, hi, named, entry, fits⟩ :=
      image.found inv (upToNul_nonzero name) (short name rfl) lookup found
    obtain ⟨lt, unused, lower⟩ := freeFd_spec free
    have ge : 2 ≤ counter := by
      by_contra low
      exact inv.std counter (by omega) unused
    -- the operation of the table leaves the process as it is
    have proc : t.proc.setFd counter (Kernel.openEntry d 1)
        = s.proc.setFd counter ((filesystemInit m modStart).opened m i) := by
      rw [tableOpen_proc table, image.openEntry inv hi entry record]
      exact Proc.setFd_setFd ..
    have given : ¬ (counter : Int) = -1 := by omega
    constructor
    · refine ⟨iff_of_false given ?_, fun failed => absurd failed given, fun _ =>
        ⟨counter, i, name, rfl, ge, lt, unused, fun k _ hk => lower k hk,
          rfl, by omega, named, proc⟩⟩
      rintro ((h | ⟨name', st', same, failed⟩) | full)
      · cases h
      · cases same
        cases lookup.symm.trans failed
        exact found rfl
      · exact full counter ge lt unused
    · -- a regular file is looked up once more, into the header
      rcases tableOpen_cases table with ⟨-, st', lookup', rfl⟩ | ⟨-, -, -, a, freq, rfl⟩
      · cases lookup.symm.trans lookup'
        obtain ⟨same, header⟩ := image.header inv hi entry fits
        exact inv.of_setFd ge proc (fun _ => image.fileType i (by omega)) inv.serves same header
      · have serves : (s.fs.atEntry a).Serves m modStart := by
          obtain ⟨a', e⟩ := inv.serves
          refine ⟨a, ?_⟩
          rw [e]
          rfl
        exact inv.of_setFd ge proc (fun _ => image.fileType i (by omega)) serves inv.directory
          inv.entries

/-- `close` refuses what is no slot in use from 2 to 6. -/
lemma sysClose_refuses {i : Int}
    (none : ¬ ∃ fd : Nat, i = fd ∧ 2 ≤ fd ∧ fd < 7 ∧ (s.proc.fd fd).flags ≠ 0) :
    s.sysClose i = some (s, -1) := by
  rw [Kernel.sysClose]
  split_ifs with range unset unused
  · rfl
  · rfl
  · rfl
  all_goals
    obtain ⟨fd, rfl⟩ := Int.eq_ofNat_of_zero_le (a := i) (by omega)
    exact absurd ⟨fd, rfl, by omega, by omega, fun h => unused (.inr (.inr h))⟩ none

/-- `close` of the slot of a file. -/
lemma sysClose_file {fd : Nat} (mapped : s.proc.filedArray ≠ 0) (low : 2 ≤ fd) (high : fd < 7)
    (used : (s.proc.fd fd).flags ≠ 0) (table : (s.proc.fd fd).fileotPointer ≤ 2) :
    s.sysClose fd = if s.closeScan = false then none
      else some ({ s with proc := s.proc.setFd fd { s.proc.fd fd with flags := 0 } }, 0) := by
  rw [sysClose_used mapped low high used]
  congr 1
  obtain e | e | e : (s.proc.fd fd).fileotPointer = 0 ∨ (s.proc.fd fd).fileotPointer = 1 ∨
      (s.proc.fd fd).fileotPointer = 2 := by omega
  all_goals
    rw [e, Kernel.tableClose]

/-- What a `close` that completes does. -/
lemma Allocating.sysClose (inv : Allocating m modStart s) {i : Int}
    (run : s.sysClose i = some (s', r)) : Closes s i (s', r) ∧ Allocating m modStart s' := by
  by_cases used : ∃ fd : Nat, i = fd ∧ 2 ≤ fd ∧ fd < 7 ∧ (s.proc.fd fd).flags ≠ 0
  · obtain ⟨fd, rfl, low, high, used⟩ := used
    rw [sysClose_file inv.mapped low high used (inv.table fd low (by omega) used)] at run
    split_ifs at run
    cases run
    have done : ¬ (0 : Int) = -1 := by decide
    exact ⟨⟨fun failed => absurd failed done, fun _ => ⟨fd, rfl, low, by omega, rfl⟩⟩,
      inv.of_setFd low rfl (fun open_flags => absurd rfl open_flags) inv.serves inv.directory
        inv.entries⟩
  · rw [sysClose_refuses used] at run
    cases run
    exact ⟨⟨fun _ => rfl, fun ne => absurd rfl ne⟩, inv⟩

/-- `close` completes exactly when the directory fits its local record or there is nothing to
close. -/
lemma Allocating.sysClose_iff (inv : Allocating m modStart s) {i : Int} :
    (∃ s' r, s.sysClose i = some (s', r)) ↔ ∀ fd : Nat, i = fd → 2 ≤ fd → fd < 7 →
      (s.proc.fd fd).flags ≠ 0 → SlotsFit s.mem s.fs := by
  constructor
  · rintro ⟨s', r, run⟩ fd rfl low high used
    rw [sysClose_file inv.mapped low high used (inv.table fd low (by omega) used)] at run
    split_ifs at run with scan
    rw [← closeScan_iff]
    exact Bool.not_eq_false _ ▸ scan
  · intro fit
    by_cases used : ∃ fd : Nat, i = fd ∧ 2 ≤ fd ∧ fd < 7 ∧ (s.proc.fd fd).flags ≠ 0
    · obtain ⟨fd, rfl, low, high, used⟩ := used
      have scan := (closeScan_iff s).mpr (fit fd rfl low high used)
      have scanned : ¬ s.closeScan = false := by
        rw [scan]
        decide
      rw [sysClose_file inv.mapped low high used (inv.table fd low (by omega) used), if_neg scanned]
      exact ⟨_, _, rfl⟩
    · exact ⟨s, -1, sysClose_refuses used⟩

/-- One call: it completes, and does to the slots what it should, exactly when it is workable. -/
lemma Allocating.call (image : NamedDirectory m modStart) (x : Kernel × Int) (c : FdCall)
    (inv : Allocating m modStart x.1) :
    ((∃ x', c.call x = some x' ∧ Allocates m modStart x c x') ↔ Workable x c) ∧
      ∀ x', c.call x = some x' → Workable x c → Allocating m modStart x'.1 := by
  cases c with
  | sysOpen fr filename =>
      refine ⟨⟨?_, fun short => ?_⟩, fun x' run short => (inv.sysOpen image short run).2⟩
      · rintro ⟨x', run, -⟩ name rfl
        by_contra long
        have stuck := sysOpen_long fr inv.mapped (Nat.lt_of_not_le long)
        cases stuck.symm.trans run
      · obtain ⟨s', r, run⟩ := inv.sysOpen_completes fr image short
        exact ⟨(s', r), run, (inv.sysOpen image short run).1⟩
  | sysClose i =>
      refine ⟨⟨?_, fun fit => ?_⟩, fun x' run _ => (inv.sysClose run).2⟩
      · rintro ⟨⟨s', r⟩, run, -⟩
        exact inv.sysClose_iff.mp ⟨s', r, run⟩
      · obtain ⟨s', r, run⟩ := inv.sysClose_iff.mpr fit
        exact ⟨(s', r), run, (inv.sysClose run).1⟩

end Calls

/-! ## The histories of a process -/

/-- A control block that was just initialised. -/
lemma allocating_start {s : Kernel} {modStart : Nat} {old : Nat → FdArray}
    (image : NamedDirectory s.mem modStart) (serves : s.fs.Serves s.mem modStart)
    (mapped : s.proc.filedArray ≠ 0) (fresh : s.proc.fd = Kernel.initFdArray old) :
    Allocating s.mem modStart s := by
  have head : s.fs.dentryNum s.mem = (filesystemInit s.mem modStart).dentryNum s.mem := by
    obtain ⟨a, e⟩ := serves
    rw [e]
    rfl
  refine ⟨serves, SameOn.refl, head ▸ image.entries, mapped, fun fd lt => ?_,
    fun fd low high used => ?_⟩
  · rw [fresh, Kernel.initFdArray, if_pos lt]
    exact Nat.one_ne_zero
  · rw [fresh, Kernel.initFdArray, if_neg (by omega), if_pos high] at used
    exact absurd rfl used

/-- **Descriptors are allocated as they should be** by every call of a history exactly when no name
opened is longer than 32 bytes, and the slots of the directory fit a record whenever a slot in use
is closed. -/
theorem allocates_iff {s : Kernel} {modStart : Nat} {old : Nat → FdArray}
    (image : NamedDirectory s.mem modStart) (serves : s.fs.Serves s.mem modStart)
    (mapped : s.proc.filedArray ≠ 0) (fresh : s.proc.fd = Kernel.initFdArray old) (r : Int)
    (cs : List FdCall) :
    Performs FdCall.call (Allocates s.mem modStart) (s, r) cs ↔
      Admits FdCall.call Workable (s, r) cs :=
  performs_iff_admits (fun x => Allocating s.mem modStart x.1) (fun x c inv => inv.call image x c)
    (allocating_start image serves mapped fresh)

/-- A process in an image of 18 directories. -/
def sampleProcess : Kernel :=
  ((Kernel.boot { sampleBoot with ram := directoriesRam 18 }).allocate 0).initializePCB

/-- The names of the 18 directories are as they should be. -/
lemma namedDirectory_sample : NamedDirectory sampleProcess.mem 0x600000 where
  below := by decide
  entries := by decide +kernel
  slots := by decide +kernel
  fileType := by decide +kernel
  nonempty := by decide +kernel
  printable := by decide +kernel
  reserved := by decide +kernel

/-- The process opens the directory `A`, closes it, and opens `B`. -/
theorem allocates_iff_sample :
    Performs FdCall.call (Allocates sampleProcess.mem 0x600000) (sampleProcess, 0)
      [.sysOpen sampleFrame (some [65]), .sysClose 2, .sysOpen sampleFrame (some [66])] := by
  have short (b : UInt8) : ∀ name, some [b] = some name → (upToNul name).length ≤ 32 := by
    rintro _ ⟨rfl⟩
    exact (List.takeWhile_sublist _).length_le.trans (Nat.le_of_ble_eq_true rfl)
  have scanned : (FdCall.call (sampleProcess, 0) (.sysOpen sampleFrame (some [65]))).map
      (fun x => x.1.closeScan) = some true := by decide +kernel
  refine (allocates_iff namedDirectory_sample ⟨0, rfl⟩ (by decide +kernel) rfl 0 _).mpr
    ⟨short 65, fun x opened => ⟨fun fd _ _ _ _ => ?_, fun x' _ => ⟨short 66, fun _ _ => trivial⟩⟩⟩
  rw [opened] at scanned
  exact (closeScan_iff x.1).mp (Option.some.inj scanned)

/-- A name of 100 letters overruns the local copy of the lookup, up to the return address. -/
theorem not_always_allocates : ¬ ∀ (s : Kernel) (modStart : Nat) (old : Nat → FdArray) (r : Int)
    (cs : List FdCall), NamedDirectory s.mem modStart → s.fs.Serves s.mem modStart →
    s.proc.filedArray ≠ 0 → s.proc.fd = Kernel.initFdArray old →
    Performs FdCall.call (Allocates s.mem modStart) (s, r) cs := by
  intro claim
  obtain ⟨x, run, -⟩ := claim sampleProcess 0x600000 _ 0
    [.sysOpen sampleFrame (some (List.replicate 100 97))] namedDirectory_sample ⟨0, rfl⟩
    (by decide +kernel) rfl
  have stuck : (sampleProcess.sysOpen sampleFrame (some (List.replicate 100 97))).isNone := by
    decide +kernel
  have opened : sampleProcess.sysOpen sampleFrame (some (List.replicate 100 97)) = some x := run
  rw [opened] at stuck
  cases stuck

end Kernel391
