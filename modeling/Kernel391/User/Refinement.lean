import Mathlib.Data.List.Find
import Kernel391.Process.Allocation
import Kernel391.Process.Arguments
import Kernel391.User.Serving

/-!
# The kernel refines the world of a process

The calls that work with names, descriptors and arguments, and with them all calls: a kernel that
hosts a world simulates it (`serve_simulates`). So a program does on the kernel what it does in its
world, and the terminal shows what it prints there (`program_refines`).
-/

namespace Kernel391.User
open Base

section Slots

variable {m : Mem} {modStart k i : Nat} {pane : Pane} {w w' : World} {s s' : Kernel}
variable {area : BitVec 32} {name : List UInt8} {fr : Frame} {a : Answer}

/-- The strings of every directory slot end in time. -/
lemma VolumeImage.ends (image : VolumeImage m modStart) (hi : i < 63) :
    m.byte ((filesystemInit m modStart).dentry i + 33) = 0 ∧
      m.byte ((filesystemInit m modStart).dentry i + 40) = 0 := by
  rcases Nat.lt_or_ge i ((filesystemInit m modStart).dentryNum m) with used | unused
  · have type := image.fileType i used
    refine ⟨?_, image.reserved i used 0 (by decide)⟩
    rw [Fs.fileType, Mem.word] at type
    apply UInt8.toNat_inj.mp
    show (m.byte ((filesystemInit m modStart).dentry i + 32 + 1)).toNat = 0
    omega
  · have below := image.below
    have start : (filesystemInit m modStart).dentry i = modStart + 64 + 64 * i := rfl
    rw [imageSize] at below
    rw [Mem.byte_of_lt (by omega), Mem.byte_of_lt (by omega)]
    exact ⟨image.blank i hi unused 33 (by decide), image.blank i hi unused 40 (by decide)⟩

/-- So they do in the memory the kernel has now. -/
lemma Hosts.ends (h : Hosts m modStart k pane w s) (hi : i < 63) :
    s.fs.fileName s.mem i 33 = 0 ∧ s.fs.reserved s.mem i 0 = 0 := by
  have served := h.files.directoryServed
  obtain ⟨name, reserved⟩ := h.image.ends hi
  exact ⟨(served.byte (by omega)).trans name, (served.byte (j := 40) (by omega)).trans reserved⟩

/-- The directory slots are those of the volume. -/
lemma Hosts.slot (h : Hosts m modStart k pane w s) (hi : i < 63) :
    w.volume.entry i = ⟨s.fs.entryName s.mem i, s.fs.fileType s.mem i,
      s.fs.inodeIndex s.mem i⟩ := by
  have served := h.files.directoryServed
  have word (o : Nat) (ho : o + 4 ≤ 64) : s.mem.word (s.fs.dentry i + o)
      = m.word ((filesystemInit m modStart).dentry i + o) := by
    apply word_transfer
    intro j hj
    rw [Nat.add_assoc, Nat.add_assoc]
    exact served.byte (by omega)
  have name : s.fs.entryName s.mem i = (filesystemInit m modStart).entryName m i := by
    rw [Fs.entryName, Fs.entryName]
    congr 1
    apply List.map_congr_left
    intro j hj
    have below := List.mem_range.mp hj
    rw [fileNameLength] at below
    exact served.byte (by omega)
  rw [h.volume, name, Fs.fileType, Fs.inodeIndex, word 32 (by decide), word 36 (by decide)]
  rfl

/-- The names of the scan end. -/
lemma Hosts.scanEnds (h : Hosts m modStart k pane w s) : ScanEnds s.mem s.fs :=
  fun i hi => ⟨33, by decide, (h.ends (i := i) (by omega)).1⟩

/-- The lookup stops at the slot that the volume has for the name. -/
lemma Hosts.lookup (h : Hosts m modStart k pane w s) (nonzero : ∀ b ∈ name, b ≠ 0)
    (short : name.length ≤ 32) : lookupSlot s.mem s.fs name = some (w.volume.find name) := by
  rw [lookupSlot_find h.scanEnds nonzero short, Volume.find]
  congr 1
  apply List.find?_congr
  intro i hi
  rw [h.slot (by have := List.mem_range.mp hi; omega)]

/-- A slot up to the count in the header is copied to a record. -/
lemma Hosts.record (h : Hosts m modStart k pane w s) (hi : i < 63) (valid : i ≤ w.header.word 0) :
    ∃ st, readDentryByIndex s.mem s.fs i = some (0, st) ∧ ∀ ob ∈ st, ob.1 < 64 := by
  obtain ⟨name, reserved⟩ := h.ends hi
  rw [h.counts.1] at valid
  exact readDentryByIndex_fits valid ⟨33, by decide, name⟩ ⟨0, by decide, reserved⟩

/-- The directory fits the copies of `close`. -/
lemma Hosts.closeScan (h : Hosts m modStart k pane w s) : s.closeScan = true := by
  rw [closeScan_iff]
  intro i hi _
  obtain ⟨name, reserved⟩ := h.ends hi
  exact ⟨⟨33, by decide, name⟩, ⟨0, by decide, reserved⟩⟩

/-- The lowest free descriptor. -/
lemma Hosts.freeFd (h : Hosts m modStart k pane w s) : s.freeFd = w.free := by
  have low (i : Nat) (hi : i < 2) : ((s.proc.fd i).flags == 0) = false := by
    rw [beq_eq_false_iff_ne]
    exact (h.standard i hi).1
  have split : List.range fdarrayMax = 0 :: 1 :: List.range' 2 6 := by decide
  rw [Kernel.freeFd, split, List.find?_cons_of_neg (by rw [low 0 (by decide)]; decide),
    List.find?_cons_of_neg (by rw [low 1 (by decide)]; decide), World.free]
  apply List.find?_congr
  intro i hi
  rw [List.mem_range'_1] at hi
  rw [Bool.eq_iff_iff, beq_iff_eq, (h.stream i hi.1 (by omega)).flags, Option.isNone_iff_eq_none]

end Slots

/-! ## Names and descriptors -/

section Calls

variable {m : Mem} {modStart k n i len : Nat} {pane : Pane} {w w' : World} {s s' : Kernel}
variable {area : BitVec 32} {name : List UInt8} {fr : Frame} {a : Answer} {fs : Fs} {ret : Int}
  {st : Stores}

/-- A copy stores from its offset on. -/
lemma storesAt_ge (o : Nat) (l : List UInt8) : ∀ ob ∈ storesAt o l, o ≤ ob.1 := by
  induction l generalizing o with
  | nil => exact fun ob h => absurd h List.not_mem_nil
  | cons b l ih =>
    intro ob h
    rw [storesAt] at h
    rcases List.mem_cons.mp h with rfl | h
    · exact Nat.le_refl o
    · exact Nat.le_of_succ_le (ih (o + 1) ob h)

/-- The record of an entry is stored up to the end of its name, and from its type on. -/
lemma readDentryByIndex_offsets (run : readDentryByIndex m fs i = some (ret, st))
    (ends : fs.fileName m i len = 0) : ∀ ob ∈ st, ob.1 ≤ len ∨ 32 ≤ ob.1 := by
  rw [readDentryByIndex] at run
  split at run
  · obtain ⟨-, rfl⟩ := Prod.mk.inj (Option.some.inj run)
    exact fun ob h => absurd h List.not_mem_nil
  split at run
  next name reserved hname _ =>
    obtain ⟨-, rfl⟩ := Prod.mk.inj (Option.some.inj run)
    obtain ⟨l, hl, rfl⟩ := Option.map_eq_some_iff.mp hname
    have first : l ≤ len := by
      by_contra beyond
      exact (strlen_spec hl).2 len (by omega) ends
    intro ob h
    rcases List.mem_append.mp h with h | h
    · rcases List.mem_append.mp h with h | h
      · rcases List.mem_append.mp h with h | h
        · exact .inr (storesAt_ge 32 _ ob h)
        · exact .inr (Nat.le_trans (by decide) (storesAt_ge 36 _ ob h))
      · have below := storesAt_lt 0 _ ob h
        rw [List.length_append, List.length_map, List.length_range, List.length_singleton] at below
        exact .inl (by omega)
    · exact .inr (Nat.le_trans (by decide) (storesAt_ge 40 _ ob h))
  next => cases run

/-- The header after an entry was copied over it. -/
lemma applyStores_header {m : Mem} {a j : Nat} {header : Mem}
    (run : readDentryByIndex m fs i = some (ret, st)) (valid : i ≤ fs.dentryNum m)
    (fits : ∀ ob ∈ st, ob.1 < 64) (room : a + 64 ≤ 2 ^ 32) (hj : j < 8)
    (same : header j = m (a + j)) :
    World.overwrite header (fs.entryName m i) j = applyStores m a st (a + j) := by
  obtain ⟨copies, -⟩ := readDentryByIndex_copies run valid
  obtain ⟨l, le, e, nonzero, zero⟩ := entryName_spec fs m i
  have length : (fs.entryName m i).length = l := by rw [e, List.length_map, List.length_range]
  have offset {o : Nat} (fit : o < 64) (here : (a + o) % 2 ^ 32 = a + j) : o = j := by omega
  symm
  rw [applyStores, World.overwrite]
  rcases Nat.lt_or_ge l j with behind | within
  · have ends := readDentryByIndex_offsets run (zero (by omega))
    apply foldl_stores (φ := fun o => (a + o) % 2 ^ 32)
    · intro ob hob here
      obtain rfl := offset (fits ob hob) here
      rcases ends ob hob with le' | far <;> omega
    · rw [List.getD_eq_default _ _
        (by rw [List.length_append, length, List.length_singleton]; omega)]
      exact .inl same.symm
  · have byte : (fs.entryName m i ++ [0]).getD j (header j) = fs.fileName m i j := by
      rcases Nat.lt_or_ge j l with inside | last
      · rw [List.getD_append _ _ _ _ (by omega), e,
          List.getD_eq_getElem _ _ (by simpa using inside)]
        simp
      · obtain rfl : j = l := Nat.le_antisymm within last
        rw [List.getD_append_right _ _ _ _ (by omega), length, Nat.sub_self, zero (by omega)]
        rfl
    rw [byte]
    apply foldl_stores (φ := fun o => (a + o) % 2 ^ 32)
    · intro ob hob here
      obtain rfl := offset (fits ob hob) here
      exact copies ob hob
    · obtain ⟨ob, hob, rfl⟩ := readDentryByIndex_name (k := j) run valid
        fun i hi => nonzero i (by omega)
      exact .inr ⟨ob, hob, Nat.mod_eq_of_lt (by omega)⟩

/-- The lookup of a name in the volume. -/
lemma Hosts.readDentryByName (h : Hosts m modStart k pane w s) (nonzero : ∀ b ∈ name, b ≠ 0)
    (short : name.length ≤ 32) : readDentryByName s.mem s.fs name = match w.volume.find name with
      | none => some (-1, [])
      | some i => (readDentryByIndex s.mem s.fs i).map fun r => (0, r.2) := by
  rw [Kernel391.readDentryByName, h.lookup nonzero short]
  cases w.volume.find name <;> rfl

/-- The slot a name is found in. -/
lemma Volume.find_spec {v : Volume} (h : v.find name = some i) :
    i < 17 ∧ (v.entry i).name = name := by
  obtain ⟨named, lt, -⟩ := List.find?_range_eq_some.mp h
  exact ⟨List.mem_range.mp lt, (of_decide_eq_true named).symm⟩

/-- The lowest free descriptor is one of a process's own. -/
lemma World.free_spec {c : Nat} (h : w.free = some c) : 2 ≤ c ∧ c < 8 := by
  have mem := List.mem_of_find?_eq_some h
  rw [List.mem_range'_1] at mem
  exact mem

/-- What `open` does for a name that is found: the state of the open operation, with the descriptor
in use. -/
lemma Hosts.sysOpen (h : Hosts m modStart k pane w s) {filename : List UInt8}
    {d : Nat → UInt8} {c : Nat}
    {t : Kernel} (found : Kernel391.readDentryByName s.mem s.fs (upToNul filename) = some (0, st))
    (record : localDentry fr.dentry st = some d) (free : s.freeFd = some c)
    (opens : ({ s with proc := s.proc.setFd c (Kernel.openEntry d 0) } : Kernel).tableOpen
      (upToNul filename) (dentryFileType d) = some (t, 0))
    (proc : t.proc = s.proc.setFd c (Kernel.openEntry d 0)) :
    s.sysOpen fr (some filename)
      = some ({ t with proc := s.proc.setFd c (Kernel.openEntry d 1) }, (c : Int)) := by
  have ok : (0 : Int) ≠ -1 := by decide
  rw [Kernel.sysOpen]
  dsimp only
  rw [if_neg h.array, found]
  dsimp only
  rw [if_neg ok, record]
  dsimp only
  rw [free]
  dsimp only
  rw [opens]
  dsimp only
  rw [if_neg ok, proc, Proc.setFd_setFd]

/-- A regular file is an entry of the directory. -/
lemma VolumeImage.file (image : VolumeImage m modStart) (hi : i < 63)
    (file : (filesystemInit m modStart).fileType m i = 2) :
    (filesystemInit m modStart).inodeIndex m i < (filesystemInit m modStart).inodesNum m := by
  rcases Nat.lt_or_ge i ((filesystemInit m modStart).dentryNum m) with used | unused
  · exact image.inode i used file
  · have below := image.below
    have start : (filesystemInit m modStart).dentry i = modStart + 64 + 64 * i := rfl
    rw [imageSize] at below
    have zero (j : Nat) (hj : j < 64) : m.byte ((filesystemInit m modStart).dentry i + j) = 0 := by
      rw [Mem.byte_of_lt (by omega)]
      exact image.blank i hi unused j hj
    rw [Fs.fileType, Mem.word, Nat.add_assoc, Nat.add_assoc, Nat.add_assoc, zero 32 (by decide),
      zero (32 + 1) (by decide), zero (32 + 2) (by decide), zero (32 + 3) (by decide)] at file
    exact absurd file (by decide)

/-- The open operation of a slot, and what the process sees behind it. -/
lemma Hosts.enter (h : Hosts m modStart k pane w s) {d : Nat → UInt8} {c : Nat} {x : World × Stream}
    (hi : i < 17) (valid : i ≤ w.header.word 0)
    (entry : readDentryByIndex s.mem s.fs i = some (0, st))
    (found : Kernel391.readDentryByName s.mem s.fs name = some (0, st))
    (record : localDentry fr.dentry st = some d) (low : 2 ≤ c) (entering : w.enter i = some x) :
    ∃ t : Kernel, ({ s with proc := s.proc.setFd c (Kernel.openEntry d 0) } : Kernel).tableOpen name
        (dentryFileType d) = some (t, 0) ∧ t.proc = s.proc.setFd c (Kernel.openEntry d 0) ∧
      Hosts m modStart k pane (x.1.setFd c (some x.2))
        { t with proc := s.proc.setFd c (Kernel.openEntry d 1) } := by
  have slot := h.slot (i := i) (by omega)
  have counted := valid
  rw [h.counts.1] at counted
  obtain ⟨type, inode, fits⟩ := localDentry_fields entry counted record
  have slot' : w.volume.entry i = ⟨(filesystemInit m modStart).entryName m i,
      (filesystemInit m modStart).fileType m i, (filesystemInit m modStart).inodeIndex m i⟩ := by
    rw [h.volume]
    rfl
  obtain ⟨name_eq, type_eq, inode_eq⟩ := Entry.mk.inj (slot'.symm.trans slot)
  have fds (e : FdArray) (j : Nat) : (s.proc.setFd c e).fd j = if j = c then e else s.proc.fd j :=
    Proc.fd_setFd ..
  rw [World.enter, slot] at entering
  dsimp only at entering
  rw [← type] at entering
  split at entering
  next device =>
    obtain rfl := Option.some.inj entering
    have fast : 128 < 1024 := by decide
    refine ⟨Kernel.rtcopen { s with proc := s.proc.setFd c (Kernel.openEntry d 0) },
      by rw [device]; rfl, rfl, ?_⟩
    exact h.change (beside_setFd s c (Kernel.openEntry d 1) s.fs.curfile 1024) low (fds _)
      (.inr fast) h.header ⟨Nat.one_ne_zero, device, fast⟩
  next directory =>
    obtain rfl := Option.some.inj entering
    refine ⟨Kernel.directoryOpen { s with proc := s.proc.setFd c (Kernel.openEntry d 0) },
      by rw [directory]; rfl, rfl, ?_⟩
    have names : w.volume.names = (volumeOf m modStart).names := by rw [h.volume]
    exact h.change (beside_setFd s c (Kernel.openEntry d 1)
      (s.fs.dentry 0) s.rtc.rtcFreq) low (fds _)
      (.inl rfl) h.header ⟨Nat.one_ne_zero, directory, Nat.zero_le _, names⟩
  next file =>
    obtain rfl := Option.some.inj entering
    obtain ⟨e, serves⟩ := h.files.serves
    have start : s.fs.curdentry = modStart := by rw [serves]; rfl
    have room := (h.header_lt (j := 0) (by decide)).2
    have body : SameOn (fun b => b < 0x00400000 ∨ InBody m modStart b) s.mem
        (applyStores s.mem modStart st) := by
      rw [applyStores]
      refine SameOn.foldl fun ob hob m' => .update _ fun inside => ?_
      have small := fits ob hob
      have behind := (h.header_lt (j := 0) (by decide)).1
      rcases inside with below | ⟨-, above⟩ <;> omega
    have stream : ¬ dentryFileType d = 0 := by omega
    have inode' : (Kernel.openEntry d 1).inode = s.fs.inodeIndex s.mem i := by
      rw [Kernel.openEntry, if_neg stream]
      exact inode
    refine ⟨{ s with
        proc := s.proc.setFd c (Kernel.openEntry d 0)
        mem := applyStores s.mem modStart st }, ?_, rfl, ?_⟩
    · rw [file, ← start]
      show Option.map _ (Kernel391.readDentryByName s.mem s.fs name) = _
      rw [found]
      rfl
    · have b : Beside m modStart s { s with
          proc := s.proc.setFd c (Kernel.openEntry d 1)
          mem := applyStores s.mem modStart st } :=
        ⟨body, ⟨s.fs.curfile, rfl⟩, rfl, rfl, rfl, rfl, rfl, rfl, rfl, arg_setFd s.proc c _⟩
      refine h.change b low (fds _) (.inl rfl) (fun j hj => ?_) ?_
      · exact applyStores_header entry counted fits (by omega) hj (h.header j hj)
      · have image_type : (filesystemInit m modStart).fileType m i = 2 := by
          rw [type_eq, ← type, file]
        refine ⟨Nat.one_ne_zero, file, inode', ?_, Nat.zero_le _, ?_⟩
        · rw [← inode_eq]
          exact h.image.file (by omega) image_type
        · rw [h.volume]
          rfl
  next => cases entering

/-- `open`. -/
lemma Hosts.openFile (h : Hosts m modStart k pane w s) {filename : List UInt8}
    (run : w.openFile (upToNul filename) = some (w', a)) :
    ∃ s', serve fr area s (.open filename) = some (s', a) ∧ Hosts m modStart k pane w' s' := by
  have nonzero := upToNul_nonzero filename
  have refuse (result : s.sysOpen fr (some filename) = some (s, -1))
      (e : some (w, (⟨-1, []⟩ : Answer)) = some (w', a)) :
      ∃ s', serve fr area s (.open filename) = some (s', a) ∧ Hosts m modStart k pane w' s' := by
    obtain ⟨rfl, rfl⟩ := Prod.mk.inj (Option.some.inj e)
    exact ⟨s, by rw [serve, result]; rfl, h⟩
  rw [World.openFile] at run
  split_ifs at run with long
  have looked := h.readDentryByName nonzero (Nat.le_of_not_lt long)
  cases found : w.volume.find (upToNul filename) with
  | none =>
    rw [found] at run looked
    refine refuse ?_ run
    rw [Kernel.sysOpen]
    dsimp only
    rw [if_neg h.array, looked]
    rfl
  | some i =>
    rw [found] at run looked
    dsimp only at run looked
    split_ifs at run with late
    obtain ⟨hi, named⟩ := Volume.find_spec found
    obtain ⟨st, entry, fits⟩ := h.record (i := i) (by omega) (Nat.le_of_not_lt late)
    rw [entry, Option.map_some] at looked
    have record := localDentry_of_fits fr.dentry fits
    cases free : w.free with
    | none =>
      rw [free] at run
      refine refuse ?_ run
      have ok : (0 : Int) ≠ -1 := by decide
      rw [Kernel.sysOpen]
      dsimp only
      rw [if_neg h.array, looked]
      dsimp only
      rw [if_neg ok, record]
      dsimp only
      rw [h.freeFd, free]
    | some c =>
      rw [free] at run
      obtain ⟨x, entering, e⟩ := Option.map_eq_some_iff.mp run
      obtain ⟨rfl, rfl⟩ := Prod.mk.inj e
      obtain ⟨t, opens, proc, hosts⟩ := h.enter hi (Nat.le_of_not_lt late) entry looked record
        (World.free_spec free).1 entering
      refine ⟨_, ?_, hosts⟩
      rw [serve, h.sysOpen looked record (h.freeFd.trans free) opens proc]
      rfl

/-- `close`. -/
lemma Hosts.close (h : Hosts m modStart k pane w s) {fd : Int} (range : World.Int32 fd)
    (run : w.close fd = some (w', a)) :
    ∃ s', serve fr area s (.close fd) = some (s', a) ∧ Hosts m modStart k pane w' s' := by
  have value : (BitVec.ofInt 32 fd).toInt = fd := by
    obtain ⟨low, high⟩ := range
    rw [BitVec.toInt_ofInt]
    exact Int.bmod_eq_of_le (by omega) (by omega)
  have refuse (result : s.sysClose fd = some (s, -1))
      (e : some (w, (⟨-1, []⟩ : Answer)) = some (w', a)) :
      ∃ s', serve fr area s (.close fd) = some (s', a) ∧ Hosts m modStart k pane w' s' := by
    obtain ⟨rfl, rfl⟩ := Prod.mk.inj (Option.some.inj e)
    exact ⟨s, by rw [serve, value, result]; rfl, h⟩
  rw [World.close] at run
  split_ifs at run with out
  · refine refuse (sysClose_refuses ?_) run
    rintro ⟨i, rfl, low, high, -⟩
    omega
  · obtain ⟨fd, rfl⟩ := Int.eq_ofNat_of_zero_le (show 0 ≤ fd by omega)
    have entry := h.stream fd (by omega) (by omega)
    rw [Int.toNat_natCast] at run
    cases opened : w.fds fd with
    | none =>
      rw [opened] at run
      refine refuse (sysClose_refuses ?_) run
      rintro ⟨i, e, -, -, used⟩
      obtain rfl := Int.ofNat.inj e
      exact used (entry.flags.mpr opened)
    | some x =>
      rw [opened] at run
      rw [opened] at entry
      obtain ⟨rfl, rfl⟩ := Prod.mk.inj (Option.some.inj run)
      have used : (s.proc.fd fd).flags ≠ 0 := fun e => Option.some_ne_none _ (entry.flags.mp e)
      have result := sysClose_file h.array (by omega) (by omega) used entry.table
      rw [h.closeScan, if_neg (by decide)] at result
      refine ⟨_, by rw [serve, value, result]; rfl, ?_⟩
      exact h.change (beside_setFd s fd _ s.fs.curfile s.rtc.rtcFreq) (by omega)
        (fun j => Proc.fd_setFd ..) (.inl rfl) h.header rfl

/-- `strncpy` of a field that holds a text. -/
lemma strncpy_holds {field : Nat → UInt8} {text : List UInt8} (nonzero : ∀ b ∈ text, b ≠ 0)
    (holds : ∀ j ≤ text.length, field j = text.getD j 0) :
    strncpy field n = strncpy (cstring text) n := by
  apply List.ext_getElem (by rw [length_strncpy, length_strncpy])
  intro j hj hj'
  rw [← List.getD_eq_getElem _ 0 hj, ← List.getD_eq_getElem _ 0 hj']
  rw [length_strncpy] at hj
  rw [strncpy_cstring nonzero hj]
  rcases Nat.lt_or_ge j text.length with inside | behind
  · rw [strncpy_copied (fun i hi => ?_) hj, holds j (Nat.le_of_lt inside)]
    rw [holds i (by omega), List.getD_eq_getElem _ _ (by omega)]
    exact nonzero _ (List.getElem_mem _)
  · have ends : field text.length = 0 :=
      (holds _ (Nat.le_refl _)).trans (List.getD_eq_default _ _ (Nat.le_refl _))
    rw [strncpy_padded ends behind, List.getD_eq_default _ _ behind]

/-- `getargs`. -/
lemma Hosts.getargs (h : Hosts m modStart k pane w s) (page : InUserPage area 1024)
    (run : World.step w (.getargs n) = some (w', a)) :
    ∃ s', serve fr area s (.getargs n) = some (s', a) ∧ Hosts m modStart k pane w' s' := by
  rw [World.step] at run
  split_ifs at run with long
  have in_page := inUserPage_short page (Nat.le_of_not_lt long)
  have args := h.args
  have give (ret : Int) (bytes : List UInt8) (short : bytes.length ≤ 1024)
      (result : s.getargsResult area (.ofNat 32 n) = some ⟨ret, bytes, s⟩)
      (e : some (w, (⟨ret, bytes⟩ : Answer)) = some (w', a)) :
      ∃ s', serve fr area s (.getargs n) = some (s', a) ∧ Hosts m modStart k pane w' s' := by
    obtain ⟨rfl, rfl⟩ := Prod.mk.inj (Option.some.inj e)
    obtain ⟨m, hm, e⟩ := Option.map_eq_some_iff.mp (storeThrough_area h.files.runs page short)
    have call : s.getargs area (.ofNat 32 n) = some (s.storeUser k area bytes, ret) := by
      rw [Kernel.getargs, result, Option.bind_eq_bind, Option.bind_some, hm, Option.bind_eq_bind,
        Option.bind_some, ← e]
      rfl
    refine ⟨s.storeUser k area bytes, ?_, h.storeUser area bytes⟩
    rw [serve, result, Option.bind_eq_bind, Option.bind_some, call]
    rfl
  have result : s.getargsResult area (.ofNat 32 n)
      = if (s.proc.pcb s.proc.curProcessPtr).arg 0 = 10 then some ⟨-1, [], s⟩
        else some ⟨0, strncpy (s.proc.pcb s.proc.curProcessPtr).arg n, s⟩ := by
    rw [Kernel.getargsResult, if_neg (not_not.mpr in_page.userBuffer), if_neg (not_not.mpr h.block),
      toNat_count (Nat.le_of_not_lt long)]
  cases held : w.args with
  | none =>
    rw [held] at run args
    exact give _ _ (Nat.zero_le _) (result.trans (if_pos args)) run
  | some text =>
    rw [held] at run args
    obtain ⟨other, nonzero, holds⟩ := args
    rw [if_neg other, strncpy_holds nonzero holds] at result
    exact give _ _ (by rw [length_strncpy]; omega) result run

/-- A byte stored outside the page tables. -/
lemma storeByte_outside {pg : Paging} {pa : Nat} (b : UInt8)
    (outside : ∀ t ∈ [pg.dtAddr, pg.ptAddr, pg.ptVidmemAddr], ¬ (t ≤ pa ∧ pa < t + 4096)) :
    pg.storeByte pa b = pg := by
  have one (t : Nat) (table : Nat → Nat) (ht : t ∈ [pg.dtAddr, pg.ptAddr, pg.ptVidmemAddr]) :
      storeEntry t table pa b = table := if_neg (outside t ht)
  rw [Paging.storeByte, one _ _ (by simp), one _ _ (by simp), one _ _ (by simp)]

/-- A store outside the page tables leaves them. -/
lemma storeTables_outside {pg : Paging} {bs : List UInt8} {va : Nat}
    (walk : ∀ j < bs.length, pg.translate (va + j) = some (va + j)) (top : va + bs.length < 2 ^ 32)
    (outside : ∀ j < bs.length, ∀ t ∈ [pg.dtAddr, pg.ptAddr, pg.ptVidmemAddr],
      ¬ (t ≤ va + j ∧ va + j < t + 4096)) : pg.storeTables pg va bs = pg := by
  induction bs generalizing va with
  | nil => rfl
  | cons b bs ih =>
    rw [List.length_cons] at walk top outside
    have next : add32 va 1 = va + 1 := add32_of_lt (by omega)
    have here : pg.storeByte va b = pg := storeByte_outside b (outside 0 (by omega))
    rw [Paging.storeTables, show pg.translate va = some va from walk 0 (by omega)]
    dsimp only
    rw [here, next]
    refine ih (fun j hj => ?_) (by omega) fun j hj => ?_
    · rw [Nat.add_assoc, Nat.add_comm 1 j]
      exact walk (j + 1) (by omega)
    · rw [Nat.add_assoc, Nat.add_comm 1 j]
      exact outside (j + 1) (by omega)

/-- `vidmap` of a pointer that is not one to the user page: it stores a word at the start of the
kernel before it refuses. -/
lemma Hosts.vidmap_stores (h : Hosts m modStart k pane w s) :
    serve fr area s (.vidmap 0x00400000)
      = some ({ s with mem := s.mem.store 0x00400000 (wordBytes (userEnd - 4)) }, ⟨-1, []⟩) := by
  let bytes := wordBytes (userEnd - 4)
  have length : bytes.length = 4 := rfl
  have stored : storeThrough s.paging s.mem 0x00400000 bytes
    = some (s.mem.store 0x00400000 bytes) :=
    storeThrough_walk (fun j hj => h.start.mapped j (length ▸ hj)) (by rw [length]; decide) s.mem
  have tables : s.paging.storeTables s.paging 0x00400000 bytes = s.paging := by
    refine storeTables_outside (fun j hj => h.start.mapped j (length ▸ hj)) (by rw [length]; decide)
      fun j hj t ht => ?_
    have away := h.start.tables t ht
    rw [length] at hj
    omega
  have pointer : s.storePointer 0x00400000 (userEnd - 4)
      = some { s with mem := s.mem.store 0x00400000 bytes } := by
    rw [Kernel.storePointer, stored, Option.map_some, tables]
  rw [serve, Kernel.vidmap, if_neg (by decide), pointer]
  rfl

/-- `vidmap` of the kernel's page is refused, and the world goes on. -/
lemma Hosts.vidmap (h : Hosts m modStart k pane w s) :
    ∃ s', serve fr area s (.vidmap 0x00400000) = some (s', ⟨-1, []⟩) ∧
      Hosts m modStart k pane w s' := by
  have frame {x : Nat} (away : x < 0x00400000 ∨ 0x00400004 ≤ x) :
      s.mem.store 0x00400000 (wordBytes (userEnd - 4)) x = s.mem x := Mem.store_frame away
  have behind := h.image.behind
  have b :
    Beside m modStart s { s with mem := s.mem.store 0x00400000 (wordBytes (userEnd - 4)) } := by
    refine ⟨?_, ⟨s.fs.curfile, rfl⟩, rfl, rfl, rfl, rfl, rfl, rfl, rfl, fun _ => rfl⟩
    rintro x (below | ⟨-, above⟩)
    · exact frame (.inl below)
    · exact frame (.inr (by omega))
  refine ⟨_, h.vidmap_stores, h.beside b (fun j hj => ?_) h.standard h.stream⟩
  exact (h.header j hj).trans (frame (.inr (by have := (h.header_lt hj).1; omega))).symm

end Calls

/-- **The kernel simulates the world** of the process it hosts, call by call. -/
theorem serve_simulates {m : Mem} {modStart k : Nat} {pane : Pane} {area : BitVec 32} (fr : Frame)
    (page : InUserPage area 1024) :
    Program.Simulates (fun s w => Hosts m modStart k pane w s) (serve fr area) World.step := by
  intro s w c w' a h run
  cases c with
  | execute command => cases run
  | getargs n => exact h.getargs page run
  | «open» filename => exact h.openFile run
  | read fd n =>
    rw [World.step] at run
    split_ifs at run with out
    rw [not_or, not_not] at out
    exact h.read page (Nat.le_of_not_lt out.1) out.2 run
  | write fd bs =>
    rw [World.step] at run
    split_ifs at run with out
    rw [not_or, not_not] at out
    exact h.write page (Nat.le_of_not_lt out.1) out.2 run
  | close fd =>
    rw [World.step] at run
    split_ifs at run with range
    exact h.close range run
  | vidmap screenStart =>
    rw [World.step] at run
    split_ifs at run with out
    obtain ⟨rfl, rfl⟩ := Prod.mk.inj (Option.some.inj run)
    rcases out with rfl | rfl
    · exact ⟨s, rfl, h⟩
    · exact h.vidmap
  | number eax =>
    rw [World.step] at run
    split_ifs at run with out
    obtain ⟨rfl, rfl⟩ := Prod.mk.inj (Option.some.inj run)
    exact ⟨s, if_neg out.2, h⟩

end Kernel391.User
