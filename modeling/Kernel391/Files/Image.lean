import Kernel391.Files.Contents
import Kernel391.Model.Boot

/-!
# The boot image

The bytes of a well-formed image, and what is read of it: lookups by name and by index, and reads of
its files, look at bytes of the image only. Names need no terminator of their own, but the high byte
of the first file's length ends every one of them inside the image.
-/

namespace Kernel391
open Base

/-- The addresses of the image at `modStart`. -/
def InImage (m : Mem) (modStart a : Nat) : Prop :=
  modStart ≤ a ∧ a < modStart + imageSize m modStart

/-- The addresses of its index nodes and data blocks, behind the boot block. -/
def InFiles (m : Mem) (modStart a : Nat) : Prop := InImage m modStart a ∧ modStart + 4096 ≤ a

/-- The addresses of the image behind its 64-byte header. -/
def InBody (m : Mem) (modStart a : Nat) : Prop := InImage m modStart a ∧ modStart + 64 ≤ a

/-- The file system with another `curfile`. -/
def Fs.atEntry (fs : Fs) (a : Nat) : Fs := { fs with curfile := a }

/-- The file system is the one at `modStart`, whatever directory entry was read last. -/
def Fs.Serves (fs : Fs) (m : Mem) (modStart : Nat) : Prop :=
  ∃ a, fs = (filesystemInit m modStart).atEntry a

/-- The boot block is at the start of the image. -/
lemma Fs.Serves.bootblockHead {fs : Fs} {m : Mem} {modStart : Nat} (h : fs.Serves m modStart) :
    fs.bootblockHead = modStart := by
  obtain ⟨e, rfl⟩ := h
  rfl

/-- The index nodes come behind it. -/
lemma Fs.Serves.indexnodeHead {fs : Fs} {m : Mem} {modStart : Nat} (h : fs.Serves m modStart) :
    fs.indexnodeHead = modStart + 4096 := by
  obtain ⟨e, rfl⟩ := h
  rfl

/-- The record at directory index `index` is in the image. Only index 63, which a count of 63 lets
through, is no directory slot: its reserved bytes are the tenth block number of the first file, and
a string that ends there if that number is small. -/
def RecordInImage (m : Mem) (modStart index : Nat) : Prop :=
  index ≠ 63 ∨ (filesystemInit m modStart).dataBlocks m 0 9 < 2 ^ 24

section Addresses

variable {m : Mem} {modStart : Nat}

/-- The image lies in the kernel's page. -/
lemma WellFormedImage.lt (wf : WellFormedImage m modStart) {a : Nat} (ha : InImage m modStart a) :
    0x00400000 ≤ a ∧ a < 0x00800000 := by
  have above := wf.above
  have below := wf.below
  obtain ⟨low, high⟩ := ha
  omega

/-- The boot block and the first index node. -/
lemma WellFormedImage.inHead (wf : WellFormedImage m modStart) {k : Nat} (hk : k < 8192) :
    InImage m modStart (modStart + k) := by
  have inodes : 0 < m.word (modStart + 4) := wf.inodesNum
  refine ⟨Nat.le_add_right .., ?_⟩
  rw [imageSize]
  omega

/-- The index nodes. -/
lemma inNode {inode k : Nat}
    (hi : inode < (filesystemInit m modStart).inodesNum m) (hk : k < 4096) :
    InFiles m modStart (modStart + 4096 + 4096 * inode + k) := by
  have inodes : inode < m.word (modStart + 4) := hi
  refine ⟨⟨by omega, ?_⟩, by omega⟩
  rw [imageSize]
  omega

/-- The data blocks. -/
lemma WellFormedImage.inBlock (wf : WellFormedImage m modStart) {dataId k : Nat}
    (hd : dataId < m.word (modStart + 8)) (hk : k < 4096) :
    InFiles m modStart ((filesystemInit m modStart).datablock dataId + k) := by
  have above := wf.above
  have below := wf.below
  rw [imageSize] at below
  have start : (filesystemInit m modStart).datablock dataId
      = modStart + 4096 + 4096 * m.word (modStart + 4) + 4096 * dataId := by
    rw [Fs.datablock, filesystemInit]
    dsimp only
    rw [add32_of_lt (by omega)]
  rw [start, InFiles, InImage, imageSize]
  omega

/-- A word below 16 MB has no fourth byte. -/
lemma high_byte {a : Nat} (h : m.word a < 2 ^ 24) : m.byte (a + 3) = 0 := by
  rw [Mem.word] at h
  have zero : (m.byte (a + 3)).toNat = 0 := by omega
  exact UInt8.toNat_inj.mp zero

/-- Every name ends inside the image. -/
lemma WellFormedImage.name_ends (wf : WellFormedImage m modStart) {i : Nat} (hi : i ≤ 63) :
    ∃ z < 2 ^ 32, (filesystemInit m modStart).fileName m i z = 0 ∧
      ∀ k ≤ z, InImage m modStart ((filesystemInit m modStart).dentry i + k) := by
  have dentry : (filesystemInit m modStart).dentry i = modStart + 64 + 64 * i := rfl
  have length : m.word (modStart + 4096) ≤ 1023 * 4096 := wf.length 0 wf.inodesNum
  -- at the latest at the high byte of the first index node's length, behind the last slot
  refine ⟨4099 - (64 + 64 * i), by omega, ?_, fun k hk => ?_⟩
  · have nul := high_byte (m := m) (a := modStart + 4096) (by omega)
    have place : modStart + 64 + 64 * i + (4099 - (64 + 64 * i)) = modStart + 4096 + 3 := by omega
    rw [Fs.fileName, dentry, place]
    exact nul
  · have place : modStart + 64 + 64 * i + k = modStart + (64 + 64 * i + k) := by omega
    rw [dentry, place]
    exact wf.inHead (by omega)

/-- So do the reserved bytes of an entry, read as a string. -/
lemma WellFormedImage.reserved_ends (wf : WellFormedImage m modStart) {i : Nat} (hi : i ≤ 63)
    (record : RecordInImage m modStart i) :
    ∃ z < 2 ^ 32, (filesystemInit m modStart).reserved m i z = 0 ∧
      ∀ k ≤ z, InImage m modStart ((filesystemInit m modStart).dentry i + 40 + k) := by
  have dentry : (filesystemInit m modStart).dentry i = modStart + 64 + 64 * i := rfl
  have inside (z : Nat) (hz : 64 + 64 * i + 40 + z < 8192) (k : Nat) (hk : k ≤ z) :
      InImage m modStart ((filesystemInit m modStart).dentry i + 40 + k) := by
    have place : modStart + 64 + 64 * i + 40 + k = modStart + (64 + 64 * i + 40 + k) := by omega
    rw [dentry, place]
    exact wf.inHead (by omega)
  rcases Nat.lt_or_ge i 63 with lt | ge
  · have length : m.word (modStart + 4096) ≤ 1023 * 4096 := wf.length 0 wf.inodesNum
    refine ⟨4099 - (64 + 64 * i + 40), by omega, ?_, inside _ (by omega)⟩
    have nul := high_byte (m := m) (a := modStart + 4096) (by omega)
    have place : modStart + 64 + 64 * i + 40 + (4099 - (64 + 64 * i + 40))
        = modStart + 4096 + 3 := by
      omega
    rw [Fs.reserved, dentry, place]
    exact nul
  · -- index 63 is no slot: its reserved bytes are block numbers of the first file
    have last : i = 63 := by omega
    subst last
    have small : (filesystemInit m modStart).dataBlocks m 0 9 < 2 ^ 24 := by
      rcases record with other | small
      · exact absurd rfl other
      · exact small
    exact ⟨3, by omega, high_byte small, inside 3 (by omega)⟩

end Addresses

section Answers

variable {m m' : Mem} {modStart : Nat} {fs' : Fs}

/-- A byte of the image. -/
lemma WellFormedImage.byte_eq (wf : WellFormedImage m modStart)
    (same : SameOn (InImage m modStart) m m') {a : Nat} (ha : InImage m modStart a) :
    m'.byte a = m.byte a := by
  have lt := (wf.lt ha).2
  rw [Mem.byte_of_lt (by omega), Mem.byte_of_lt (by omega)]
  exact same a ha

/-- A word of the image. -/
lemma WellFormedImage.word_eq (wf : WellFormedImage m modStart)
    (same : SameOn (InImage m modStart) m m') {a : Nat} (ha : ∀ k < 4, InImage m modStart (a + k)) :
    m'.word a = m.word a :=
  Mem.word_congr fun k hk => wf.byte_eq same (ha k hk)

/-- A word of the boot block or the first index node. -/
lemma WellFormedImage.header_eq (wf : WellFormedImage m modStart)
    (same : SameOn (InImage m modStart) m m') {k : Nat} (hk : k + 4 ≤ 8192) :
    m'.word (modStart + k) = m.word (modStart + k) :=
  wf.word_eq same fun j hj => by
    rw [Nat.add_assoc]
    exact wf.inHead (by omega)

/-- A word of a directory slot. -/
lemma WellFormedImage.dentry_eq (wf : WellFormedImage m modStart)
    (same : SameOn (InImage m modStart) m m') {i k : Nat} (hi : i ≤ 63) (hk : k + 4 ≤ 64) :
    m'.word ((filesystemInit m modStart).dentry i + k)
      = m.word ((filesystemInit m modStart).dentry i + k) := by
  have place : (filesystemInit m modStart).dentry i + k = modStart + (64 + 64 * i + k) := by
    show modStart + 64 + 64 * i + k = _
    omega
  rw [place]
  exact wf.header_eq same (by omega)

/-- `read_dentry_by_index` answers from the image. -/
lemma readDentryByIndex_image (wf : WellFormedImage m modStart)
    (same : SameOn (InImage m modStart) m m') (serves : fs'.Serves m modStart) {index : Nat}
    (record : RecordInImage m modStart index) :
    readDentryByIndex m' fs' index = readDentryByIndex m (filesystemInit m modStart) index := by
  obtain ⟨e, rfl⟩ := serves
  have num : m'.word (modStart + 0) = m.word (modStart + 0) := wf.header_eq same (by omega)
  have dentryNum : ((filesystemInit m modStart).atEntry e).dentryNum m'
      = (filesystemInit m modStart).dentryNum m := num
  rw [readDentryByIndex, readDentryByIndex, dentryNum]
  split_ifs with out
  · rfl
  have entries := wf.dentryNum
  have hi : index ≤ 63 := by omega
  obtain ⟨z, hz, zero, inside⟩ := wf.name_ends hi
  obtain ⟨z', hz', zero', inside'⟩ := wf.reserved_ends hi record
  have name : strcpy (((filesystemInit m modStart).atEntry e).fileName m' index)
      = strcpy ((filesystemInit m modStart).fileName m index) :=
    strcpy_congr (fun k hk => wf.byte_eq same (inside k hk)) zero hz
  have reserved : strcpy (((filesystemInit m modStart).atEntry e).reserved m' index)
      = strcpy ((filesystemInit m modStart).reserved m index) :=
    strcpy_congr (fun k hk => wf.byte_eq same (inside' k hk)) zero' hz'
  have fileType : ((filesystemInit m modStart).atEntry e).fileType m' index
      = (filesystemInit m modStart).fileType m index := wf.dentry_eq same hi (by omega)
  have inodeIndex : ((filesystemInit m modStart).atEntry e).inodeIndex m' index
      = (filesystemInit m modStart).inodeIndex m index := wf.dentry_eq same hi (by omega)
  rw [name, reserved, fileType, inodeIndex]

/-- Whether a slot carries a name depends on the image only. -/
lemma slotMatches_image (wf : WellFormedImage m modStart)
    (same : SameOn (InImage m modStart) m m') (serves : fs'.Serves m modStart) (fname : List UInt8)
    {i : Nat} (hi : i ≤ 63) :
    slotMatches m' fs' fname i = slotMatches m (filesystemInit m modStart) fname i := by
  obtain ⟨e, rfl⟩ := serves
  obtain ⟨z, hz, zero, inside⟩ := wf.name_ends hi
  have name (k : Nat) (hk : k ≤ z) : ((filesystemInit m modStart).atEntry e).fileName m' i k
      = (filesystemInit m modStart).fileName m i k := wf.byte_eq same (inside k hk)
  obtain ⟨len, le, hlen⟩ := strlen_of_nul zero hz
  rw [slotMatches, slotMatches, strlen_congr name zero, hlen, Option.map_some, Option.map_some]
  dsimp only
  rw [strncmp_congr]
  intro k hk
  apply name
  split_ifs at hk <;> omega

/-- The slot a lookup stops at depends on the image only. -/
lemma lookupSlot_image (wf : WellFormedImage m modStart) (same : SameOn (InImage m modStart) m m')
    (serves : fs'.Serves m modStart) (fname : List UInt8) :
    lookupSlot m' fs' fname = lookupSlot m (filesystemInit m modStart) fname := by
  have scan (fuel i : Nat) (hi : i + fuel ≤ 17) :
      scanDentries m' fs' fname fuel i = scanDentries m
        (filesystemInit m modStart) fname fuel i := by
    induction fuel generalizing i with
    | zero => rfl
    | succ fuel ih =>
        rw [scanDentries, scanDentries, slotMatches_image wf same serves fname (by omega),
          ih (i + 1) (by omega)]
  rw [lookupSlot, lookupSlot, scan 17 0 (by omega)]

/-- A lookup looks at 17 slots. -/
lemma lookupSlot_lt {fs : Fs} {fname : List UInt8} {i : Nat}
    (found : lookupSlot m fs fname = some (some i)) : i < 17 := by
  have scan (fuel j : Nat) (h : scanDentries m fs fname fuel j = some (some i)) : i < j + fuel := by
    induction fuel generalizing j with
    | zero => cases h
    | succ fuel ih =>
        rw [scanDentries] at h
        split at h
        · cases h
        · cases h
          omega
        · have := ih (j + 1) h
          omega
  rw [lookupSlot] at found
  split_ifs at found
  have := scan 17 0 found
  omega

/-- `read_dentry_by_name` answers from the image. -/
lemma readDentryByName_image (wf : WellFormedImage m modStart)
    (same : SameOn (InImage m modStart) m m') (serves : fs'.Serves m modStart)
    (fname : List UInt8) :
    readDentryByName m' fs' fname = readDentryByName m (filesystemInit m modStart) fname := by
  rw [readDentryByName, readDentryByName, lookupSlot_image wf same serves]
  split
  · rfl
  · rfl
  next i found =>
    have below : i < 17 := lookupSlot_lt found
    rw [readDentryByIndex_image wf same serves (.inl (by omega))]

/-- A byte of the index nodes or the data blocks. -/
lemma WellFormedImage.fileByte_eq (wf : WellFormedImage m modStart)
    (same : SameOn (InFiles m modStart) m m') {a : Nat} (ha : InFiles m modStart a) :
    m'.byte a = m.byte a := by
  have lt := (wf.lt ha.1).2
  rw [Mem.byte_of_lt (by omega), Mem.byte_of_lt (by omega)]
  exact same a ha

/-- The length of a file of the image. -/
lemma WellFormedImage.fileLength_eq (wf : WellFormedImage m modStart)
    (same : SameOn (InFiles m modStart) m m') (serves : fs'.Serves m modStart) {inode : Nat}
    (hi : inode < (filesystemInit m modStart).inodesNum m) :
    fs'.fileLength m' inode = (filesystemInit m modStart).fileLength m inode := by
  obtain ⟨e, rfl⟩ := serves
  exact Mem.word_congr fun k hk => wf.fileByte_eq same (inNode hi (by omega))

/-- `read_data` answers from the index nodes and the data blocks, for a file of the image that
passes the check of its index and a range that does not wrap. -/
lemma readData_files (wf : WellFormedImage m modStart)
    (same : SameOn (InFiles m modStart) m m') (serves : fs'.Serves m modStart)
    {inode offset length : Nat} (hi : inode < (filesystemInit m modStart).inodesNum m)
    (valid : inode ≤ fs'.inodesNum m') (nowrap : offset + length < 2 ^ 32) :
    readData m' fs' inode offset length
      = readData m (filesystemInit m modStart) inode offset length := by
  have fileLength := wf.fileLength_eq same serves hi
  obtain ⟨e, rfl⟩ := serves
  have above := wf.above
  have boot : (filesystemInit m modStart).bootblockHead ≠ 0 := by
    show modStart ≠ 0
    omega
  have boot' : ((filesystemInit m modStart).atEntry e).bootblockHead ≠ 0 := boot
  have size := wf.length inode hi
  rcases Nat.lt_trichotomy offset ((filesystemInit m modStart).fileLength m inode) with lt | eq | gt
  · have lt' := fileLength.symm ▸ lt
    have size' := fileLength.symm ▸ size
    rw [readData_spec boot (Nat.le_of_lt hi) lt (by omega) nowrap,
      readData_spec boot' valid lt' (by omega) nowrap, fileLength]
    congr 1
    apply List.map_congr_left
    intro p hp
    rw [List.mem_range'_1] at hp
    -- the byte's block number is in the index node, the byte in a block that exists
    have number : ((filesystemInit m modStart).atEntry e).dataBlocks m' inode (p / 4096)
        = (filesystemInit m modStart).dataBlocks m inode (p / 4096) :=
      Mem.word_congr fun k hk => by
        have place : modStart + 4096 + 4096 * inode + 4 + 4 * (p / 4096) + k
            = modStart + 4096 + 4096 * inode + (4 + 4 * (p / 4096) + k) := by
          omega
        show m'.byte (modStart + 4096 + 4096 * inode + 4 + 4 * (p / 4096) + k)
          = m.byte (modStart + 4096 + 4096 * inode + 4 + 4 * (p / 4096) + k)
        rw [place]
        exact wf.fileByte_eq same (inNode hi (by omega))
    have exists_block := wf.blocks inode hi (p / 4096) (by omega) (by omega)
    rw [Fs.fileByte, Fs.fileByte, dataBlockSize, number]
    exact wf.fileByte_eq same (wf.inBlock exists_block (Nat.mod_lt _ (by omega)))
  · have eq' := fileLength.symm ▸ eq
    rw [readData_at_end boot eq, readData_at_end boot' eq']
  · have gt' := fileLength.symm ▸ gt
    rw [readData_refused boot (Nat.ne_of_gt gt) (.inr gt),
      readData_refused boot' (Nat.ne_of_gt gt') (.inr gt')]

/-- So it answers from the image. -/
lemma readData_image (wf : WellFormedImage m modStart)
    (same : SameOn (InImage m modStart) m m') (serves : fs'.Serves m modStart)
    {inode offset length : Nat}
    (hi : inode < (filesystemInit m modStart).inodesNum m) (nowrap : offset + length < 2 ^ 32) :
    readData m' fs' inode offset length
      = readData m (filesystemInit m modStart) inode offset length := by
  have inodesNum : fs'.inodesNum m' = (filesystemInit m modStart).inodesNum m := by
    obtain ⟨e, rfl⟩ := serves
    exact wf.header_eq same (by omega)
  exact readData_files wf (same.mono fun _ h => h.1) serves hi
    (inodesNum.symm ▸ Nat.le_of_lt hi) nowrap

end Answers

/-- The small image is well formed. -/
lemma wellFormedImage_sample : WellFormedImage sampleRam 0x600000 where
  above := by decide
  below := by decide +kernel
  header := by decide +kernel
  dentryNum := by decide +kernel
  inodesNum := by decide +kernel
  nonempty := by decide +kernel
  distinct := by decide +kernel
  fileType := by decide +kernel
  inode := by decide +kernel
  reserved := by decide +kernel
  length := by decide +kernel
  blocks := by decide +kernel

end Kernel391
