import Kernel391.Files.Image

/-!
# Reads through the page tables

`execute` reads the image through pointers, and a pointer to memory that is not mapped faults. The
image lies in the kernel's page, which is mapped to itself: whatever is read of the image is mapped
and is what physical memory holds. So the lookups and the reads of files that exist complete, with
the answers the image gives; only an inode number behind the last leads anywhere else.
-/

namespace Kernel391
open Base

/-- The kernel's page is mapped to itself. -/
def KernelMapped (pg : Paging) : Prop :=
  ∀ a, 0x00400000 ≤ a → a < 0x00800000 → pg.translate a = some a

/-- `read_data` can read the first four bytes of an inode: the length of its index node is mapped,
and if the inode is not refused and its file not empty, so are the first block number and the bytes
it leads to. -/
def Kernel.FirstMapped (s : Kernel) (inode : Nat) : Prop :=
  s.paging.Mapped (dataReads s.linear s.fs inode 0 4)

section Paging

variable {pg : Paging} {s : Kernel} {l l' : List Nat} {a k : Nat}

/-- Mapping the page of a process leaves the rest mapped as it is. -/
lemma translate_mapUserPage (k : Nat) (outside : a / 2 ^ 22 ≠ userPdIndex) :
    (pg.mapUserPage k).translate a = pg.translate a := by
  have entry : (pg.mapUserPage k).DT (a / 2 ^ 22) = pg.DT (a / 2 ^ 22) :=
    Function.update_of_ne outside ..
  rw [Paging.translate, entry]
  rfl

/-- Mapping the page of a process leaves the kernel's page. -/
lemma KernelMapped.mapUserPage (h : KernelMapped pg) (k : Nat) :
    KernelMapped (pg.mapUserPage k) := by
  intro a low high
  have index : a / 2 ^ 22 ≠ userPdIndex := by
    have user : userPdIndex = 32 := rfl
    omega
  rw [translate_mapUserPage k index]
  exact h a low high

/-- A kernel pointer reads physical memory. -/
lemma KernelMapped.linear (h : KernelMapped s.paging) (low : 0x00400000 ≤ a)
    (high : a < 0x00800000) : s.linear a = s.mem a := by
  rw [Kernel.linear, Kernel.load, h a low high]
  rfl

/-- No address needs no mapping. -/
@[simp] lemma Paging.mapped_nil : pg.Mapped [] := fun _ h => absurd h List.not_mem_nil

/-- Addresses are mapped when the two lists of them are. -/
@[simp] lemma Paging.mapped_append : pg.Mapped (l ++ l') ↔ pg.Mapped l ∧ pg.Mapped l' :=
  List.forall_mem_append

/-- A range of addresses is mapped if each of its bytes is. -/
lemma Paging.mapped_range : pg.Mapped (List.range' a k) ↔
    ∀ j < k, (pg.translate ((a + j) % 2 ^ 32)).isSome := by
  constructor
  · intro h j hj
    exact h (a + j) (List.mem_range'_1.mpr ⟨by omega, by omega⟩)
  · intro h b hb
    obtain ⟨low, high⟩ := List.mem_range'_1.mp hb
    have inside := h (b - a) (by omega)
    have place : a + (b - a) = b := by omega
    rw [place] at inside
    exact inside

end Paging

/-! ## The first bytes of a file -/

section First

variable {m : Mem} {fs : Fs} {inode : Nat}

/-- An inode number that is too large is refused, unless the length that is found for it is 0. -/
lemma readData_over (boot : fs.bootblockHead ≠ 0) (larger : fs.inodesNum m < inode) :
    readData m fs inode 0 4 = if fs.fileLength m inode = 0 then (0, []) else (-1, []) := by
  split_ifs with empty
  · exact readData_at_end boot empty.symm
  · exact readData_refused boot (Ne.symm empty) (.inl larger)

/-- The length a read of four bytes goes on with. -/
lemma first_length (fs : Fs) (m : Mem) (inode : Nat) :
    (if add32 4 0 > fs.fileLength m inode then sub32 (fs.fileLength m inode) 0 else 4)
      = min 4 (fs.fileLength m inode) := by
  have small : fs.fileLength m inode < 2 ^ 32 := Mem.word_lt ..
  rw [clamped_length (Nat.zero_le _) small (by decide), Nat.sub_zero]

/-- It ends in the block it starts in. -/
lemma first_block {n : Nat} (hn : n ≤ 4) :
    add32 n 0 = n ∧ add32 0 n = n ∧ n / 4096 = 0 ∧ (if 4096 > n then n else 4096) = n := by
  refine ⟨Nat.mod_eq_of_lt (by omega), ?_, by omega, if_pos (by omega)⟩
  rw [add32, Nat.zero_add]
  exact Nat.mod_eq_of_lt (by omega)

/-- The others are not, and what is read are the first bytes of the first block. -/
lemma readData_first (boot : fs.bootblockHead ≠ 0) (valid : inode ≤ fs.inodesNum m) :
    readData m fs inode 0 4 = (((min 4 (fs.fileLength m inode) : Nat) : Int),
      m.fetch (fs.datablock (fs.dataBlocks m inode 0)) (min 4 (fs.fileLength m inode))) := by
  rw [readData]
  dsimp only
  rw [if_neg boot]
  by_cases empty : 0 = fs.fileLength m inode
  · rw [if_pos empty, ← empty]
    rfl
  · rw [if_neg empty, if_neg (by omega)]
    rw [first_length]
    generalize hn : min 4 (fs.fileLength m inode) = n
    obtain ⟨sum, sum', last, whole⟩ := first_block (n := n) (by omega)
    have start : 0 - 4096 * (0 / 4096) = 0 := rfl
    rw [dataBlockSize, start, sum, sum', last, Nat.sub_zero, whole]
    show (int32 n, m.fetch _ n ++ []) = _
    rw [int32_of_lt (by omega), List.append_nil]
    rfl

/-- What is read for them. -/
lemma dataReads_first (boot : fs.bootblockHead ≠ 0) : dataReads m fs inode 0 4 =
    if fs.fileLength m inode = 0 then List.range' (fs.indexnodeHead + 4096 * inode) 4
    else if fs.inodesNum m < inode then
      List.range' (fs.indexnodeHead + 4096 * inode) 4 ++ List.range' (fs.bootblockHead + 4) 4
    else
      List.range' (fs.indexnodeHead + 4096 * inode) 4 ++ List.range' (fs.bootblockHead + 4) 4
        ++ List.range' (fs.indexnodeHead + 4096 * inode + 4) 4
        ++ List.range' (fs.datablock (fs.dataBlocks m inode 0))
            (min 4 (fs.fileLength m inode)) := by
  rw [dataReads]
  dsimp only
  rw [if_neg boot]
  by_cases empty : 0 = fs.fileLength m inode
  · rw [if_pos empty, if_pos empty.symm]
  rw [if_neg empty, if_neg (Ne.symm empty)]
  by_cases larger : fs.inodesNum m < inode
  · rw [if_pos (.inl larger), if_pos larger]
  rw [if_neg (by omega), if_neg larger]
  rw [first_length]
  generalize hn : min 4 (fs.fileLength m inode) = n
  obtain ⟨sum, sum', last, whole⟩ := first_block (n := n) (by omega)
  have start : 0 - 4096 * (0 / 4096) = 0 := rfl
  rw [dataBlockSize, start, sum, sum', last, Nat.sub_zero, whole]
  exact List.append_nil _

variable {s : Kernel}

/-- The length of an inode is read in any case. -/
lemma firstMapped_node (boot : s.fs.bootblockHead ≠ 0) (first : s.FirstMapped inode) :
    s.paging.Mapped (List.range' (s.fs.indexnodeHead + 4096 * inode) 4) := by
  rw [Kernel.FirstMapped, dataReads_first boot] at first
  split_ifs at first
  · exact first
  · exact (Paging.mapped_append.mp first).1
  · exact (Paging.mapped_append.mp (Paging.mapped_append.mp (Paging.mapped_append.mp first).1).1).1

/-- Of a number that is too large nothing else is read but the header. -/
lemma firstMapped_over (boot : s.fs.bootblockHead ≠ 0) (larger : s.fs.inodesNum s.linear < inode)
    (node : s.paging.Mapped (List.range' (s.fs.indexnodeHead + 4096 * inode) 4))
    (header : s.paging.Mapped (List.range' (s.fs.bootblockHead + 4) 4)) : s.FirstMapped inode := by
  rw [Kernel.FirstMapped, dataReads_first boot, if_pos larger]
  split_ifs
  · exact node
  · exact Paging.mapped_append.mpr ⟨node, header⟩

end First

/-! ## Strings -/

section Strings

variable {m : Mem} {a b z : Nat}

/-- A string is read up to its first NUL. -/
lemma mem_stringReads (zero : m.byte (b + z) = 0) (hz : z < 2 ^ 32) (h : a ∈ stringReads m b) :
    b ≤ a ∧ a ≤ b + z := by
  obtain ⟨len, le, hlen⟩ : ∃ len ≤ z, strlen (fun k => m.byte (b + k)) = some len :=
    strlen_of_nul zero hz
  rw [stringReads, hlen] at h
  have range := List.mem_range'_1.mp h
  omega

end Strings

/-! ## The image -/

section Image

variable {m m' : Mem} {fs' : Fs} {modStart : Nat} {s : Kernel} {fname : List UInt8}
variable {inode offset length : Nat}

/-- What the pointers of the kernel read of the image. -/
lemma WellFormedImage.linear (wf : WellFormedImage m modStart)
    (same : SameOn (InImage m modStart) m s.mem) (kernel : KernelMapped s.paging) :
    SameOn (InImage m modStart) m s.linear := by
  intro a ha
  obtain ⟨low, high⟩ := wf.lt ha
  exact (kernel.linear low high).trans (same a ha)

/-- The image is mapped. -/
lemma WellFormedImage.mapped (wf : WellFormedImage m modStart) (kernel : KernelMapped s.paging)
    {l : List Nat} (inside : ∀ a ∈ l, InImage m modStart a) : s.paging.Mapped l := by
  intro a ha
  obtain ⟨low, high⟩ := wf.lt (inside a ha)
  rw [Nat.mod_eq_of_lt (by omega), kernel a low high]
  rfl

/-- The strings of the slots that are looked at end in the image. -/
lemma slot_in_image (wf : WellFormedImage m modStart) (same : SameOn (InImage m modStart) m m')
    (serves : fs'.Serves m modStart) {i : Nat} (hi : i < 63) :
    (∀ a ∈ stringReads m' (fs'.dentry i), InImage m modStart a) ∧
      ∀ a ∈ stringReads m' (fs'.dentry i + 40), InImage m modStart a := by
  obtain ⟨e, rfl⟩ := serves
  have walk {b z : Nat} (zero : m.byte (b + z) = 0) (hz : z < 2 ^ 32)
      (inside : ∀ k ≤ z, InImage m modStart (b + k)) :
      ∀ a ∈ stringReads m' b, InImage m modStart a := by
    intro a ha
    have nul : m'.byte (b + z) = 0 := (wf.byte_eq same (inside z (Nat.le_refl z))).trans zero
    obtain ⟨low, high⟩ := mem_stringReads nul hz ha
    obtain ⟨k, rfl⟩ := Nat.exists_eq_add_of_le low
    exact inside k (by omega)
  obtain ⟨z, hz, zero, inside⟩ := wf.name_ends (Nat.le_of_lt hi)
  obtain ⟨z', hz', zero', inside'⟩ := wf.reserved_ends (Nat.le_of_lt hi) (.inl (by omega))
  exact ⟨walk zero hz inside, walk zero' hz' inside'⟩

/-- A range of the boot block. -/
lemma WellFormedImage.head_range (wf : WellFormedImage m modStart) {k n : Nat}
    (h : k + n ≤ 8192) : ∀ a ∈ List.range' (modStart + k) n, InImage m modStart a := by
  intro a ha
  obtain ⟨low, high⟩ := List.mem_range'_1.mp ha
  obtain ⟨j, rfl⟩ := Nat.exists_eq_add_of_le low
  rw [Nat.add_assoc]
  exact wf.inHead (by omega)

/-- A lookup by index reads the image. -/
lemma indexReads_in_image (wf : WellFormedImage m modStart)
    (same : SameOn (InImage m modStart) m m') (serves : fs'.Serves m modStart) {i : Nat}
    (hi : i < 63) : ∀ a ∈ indexReads m' fs' i, InImage m modStart a := by
  obtain ⟨name, reserved⟩ := slot_in_image wf same serves hi
  obtain ⟨e, rfl⟩ := serves
  have header := wf.head_range (k := 0) (n := 4) (by omega)
  have fields := wf.head_range (k := 64 + 64 * i + 32) (n := 8) (by omega)
  have place : ((filesystemInit m modStart).atEntry e).dentry i + 32
      = modStart + (64 + 64 * i + 32) := by
    show modStart + 64 + 64 * i + 32 = _
    omega
  intro a ha
  rw [indexReads, List.mem_append] at ha
  rcases ha with ha | ha
  · exact header a ha
  · split_ifs at ha
    · exact absurd ha List.not_mem_nil
    · rw [place, List.mem_append, List.mem_append] at ha
      rcases ha with (ha | ha) | ha
      · exact fields a ha
      · exact name a ha
      · exact reserved a ha

/-- `read_dentry_by_name` reads the boot block and what follows it up to the first index node. -/
lemma nameReads_in_image (wf : WellFormedImage m modStart)
    (same : SameOn (InImage m modStart) m m') (serves : fs'.Serves m modStart) :
    ∀ a ∈ nameReads m' fs' fname, InImage m modStart a := by
  have scan (fuel i : Nat) (hi : i + fuel ≤ 17) :
      ∀ a ∈ scanReads m' fs' fname fuel i, InImage m modStart a := by
    induction fuel generalizing i with
    | zero => exact fun a ha => absurd ha List.not_mem_nil
    | succ fuel ih =>
        intro a ha
        rw [scanReads, List.mem_append] at ha
        rcases ha with ha | ha
        · exact (slot_in_image wf same serves (by omega)).1 a ha
        · split at ha
          · exact absurd ha List.not_mem_nil
          · exact indexReads_in_image wf same serves (by omega) a ha
          · exact ih (i + 1) (by omega) a ha
  exact scan 17 0 (by omega)

/-- A range of an index node, up to one word behind its last block number: the index nodes are not
the end of the image while there is a block. -/
lemma node_range {k n : Nat} (hi : inode < (filesystemInit m modStart).inodesNum m)
    (h : k + n ≤ 4096 ∨ k + n ≤ 8192 ∧ 0 < m.word (modStart + 8)) :
    ∀ a ∈ List.range' (modStart + 4096 + 4096 * inode + k) n, InImage m modStart a := by
  intro a ha
  have inodes : inode < m.word (modStart + 4) := hi
  obtain ⟨low, high⟩ := List.mem_range'_1.mp ha
  refine ⟨by omega, ?_⟩
  rw [imageSize]
  omega

/-- A range of a data block. -/
lemma block_range (wf : WellFormedImage m modStart) {dataId k n : Nat}
    (hd : dataId < m.word (modStart + 8)) (h : k + n ≤ 4096) :
    ∀ a ∈ List.range' ((filesystemInit m modStart).datablock dataId + k) n,
      InImage m modStart a := by
  intro a ha
  obtain ⟨low, high⟩ := List.mem_range'_1.mp ha
  obtain ⟨j, rfl⟩ := Nat.exists_eq_add_of_le low
  rw [Nat.add_assoc]
  exact (wf.inBlock hd (by omega)).1

/-- The block loop reads block numbers of the node and bytes of blocks that exist. -/
lemma blockReads_in_image (wf : WellFormedImage m modStart) (serves : fs'.Serves m modStart)
    (hi : inode < (filesystemInit m modStart).inodesNum m)
    (blocks : ∀ i, 4096 * i < offset + length → fs'.dataBlocks m' inode i < m.word (modStart + 8))
    (most : offset + length ≤ 1023 * 4096) {k i bufOffset : Nat}
    (last : i + k = (offset + length) / 4096 + 1) (le : bufOffset ≤ length)
    (aligned : offset + bufOffset = min (4096 * i) (offset + length))
    (numbers : 0 < m.word (modStart + 8)) :
    ∀ a ∈ blockReads m' fs' inode length k i bufOffset, InImage m modStart a := by
  induction k generalizing i bufOffset with
  | zero => exact fun a ha => absurd ha List.not_mem_nil
  | succ k ih =>
      have left : sub32 length bufOffset = length - bufOffset := sub32_of_le le (by omega)
      intro a ha
      rw [blockReads, dataBlockSize, left] at ha
      generalize hn : (if 4096 > length - bufOffset then length - bufOffset else 4096) = n at ha
      have n_eq : n = min 4096 (length - bufOffset) := by
        rw [← hn]
        split_ifs <;> omega
      have next : add32 bufOffset n = bufOffset + n := add32_of_lt (by omega)
      have rest : ∀ a ∈ blockReads m' fs' inode length k (i + 1) (bufOffset + n),
          InImage m modStart a := ih (by omega) (by omega) (by omega)
      have head := serves.indexnodeHead
      have place : fs'.indexnodeHead + 4096 * inode + 4 + 4 * i
          = modStart + 4096 + 4096 * inode + (4 + 4 * i) := by
        rw [head]
        omega
      have number := node_range (k := 4 + 4 * i) (n := 4) hi (.inr ⟨by omega, numbers⟩)
      rw [next, place, List.mem_append, List.mem_append] at ha
      rcases ha with (ha | ha) | ha
      · exact number a ha
      · -- a pass that copies anything copies from a block below the end
        rcases Nat.eq_zero_or_pos n with none | pos
        · rw [none] at ha
          exact absurd ha List.not_mem_nil
        · have exists_block := blocks i (by omega)
          obtain ⟨e, rfl⟩ := serves
          exact block_range wf (k := 0) exists_block (by omega) a ha
      · exact rest a ha

/-- A block number of a file is one of a data block, in a memory that holds the image. -/
lemma dataBlocks_lt {i : Nat} (wf : WellFormedImage m modStart)
    (same : SameOn (InImage m modStart) m m') (serves : fs'.Serves m modStart)
    (hi : inode < (filesystemInit m modStart).inodesNum m)
    (h : 4096 * i < (filesystemInit m modStart).fileLength m inode) :
    fs'.dataBlocks m' inode i < m.word (modStart + 8) := by
  have size := wf.length inode hi
  have exists_block := wf.blocks inode hi i (by omega) h
  have number : fs'.dataBlocks m' inode i = (filesystemInit m modStart).dataBlocks m inode i := by
    obtain ⟨e, rfl⟩ := serves
    apply wf.word_eq same
    intro k hk
    have inside := (inNode hi (k := 4 + 4 * i + k) (by omega)).1
    have place : modStart + 4096 + 4096 * inode + (4 + 4 * i + k)
        = modStart + 4096 + 4096 * inode + 4 + 4 * i + k := by omega
    rw [place] at inside
    exact inside
  exact number ▸ exists_block

/-- `read_data` reads nothing outside the image for an inode that exists. -/
lemma dataReads_in_image (wf : WellFormedImage m modStart)
    (same : SameOn (InImage m modStart) m m') (serves : fs'.Serves m modStart)
    (hi : inode < (filesystemInit m modStart).inodesNum m) (nowrap : offset + length < 2 ^ 32) :
    ∀ a ∈ dataReads m' fs' inode offset length, InImage m modStart a := by
  have size := wf.length inode hi
  have fileLength := wf.fileLength_eq (same.mono fun _ h => h.1) serves hi
  have numbers (i : Nat) (h : 4096 * i < (filesystemInit m modStart).fileLength m inode) :
      fs'.dataBlocks m' inode i < m.word (modStart + 8) := dataBlocks_lt wf same serves hi h
  have node := node_range (k := 0) (n := 4) hi (.inl (by omega))
  have header := wf.head_range (k := 4) (n := 4) (by omega)
  intro a ha
  rw [dataReads] at ha
  dsimp only at ha
  rw [serves.indexnodeHead, serves.bootblockHead, fileLength] at ha
  have mounted : modStart ≠ 0 := by
    have above := wf.above
    omega
  rw [if_neg mounted] at ha
  split at ha
  next => exact node a ha
  next notEnd =>
  split at ha
  next =>
    rw [List.mem_append] at ha
    rcases ha with ha | ha
    · exact node a ha
    · exact header a ha
  next inside =>
  have before : offset < (filesystemInit m modStart).fileLength m inode := by omega
  rw [clamped_length (Nat.le_of_lt before) (by omega) nowrap] at ha
  generalize hl : min length ((filesystemInit m modStart).fileLength m inode - offset) = l at ha
  have fits : offset + l < 2 ^ 32 := by omega
  have rest : offset - 4096 * (offset / 4096) = offset % 4096 := by omega
  rw [dataBlockSize, rest, add32_of_lt (a := l) (by omega), add32_of_lt fits] at ha
  generalize hc : (if 4096 > l + offset % 4096 then l else 4096 - offset % 4096) = c at ha
  have c_eq : c = min l (4096 - offset % 4096) := by
    rw [← hc]
    split_ifs <;> omega
  have place : modStart + 4096 + 4096 * inode + 4 + 4 * (offset / 4096)
      = modStart + 4096 + 4096 * inode + (4 + 4 * (offset / 4096)) := by omega
  rw [place, List.mem_append, List.mem_append, List.mem_append, List.mem_append] at ha
  rcases ha with (((ha | ha) | ha) | ha) | ha
  · exact node a ha
  · exact header a ha
  · exact node_range hi (.inl (by omega)) a ha
  · have first := numbers (offset / 4096) (by omega)
    obtain ⟨e, rfl⟩ := serves
    exact block_range wf first (by omega) a ha
  · have below (i : Nat) (h : 4096 * i < offset + l) :
        fs'.dataBlocks m' inode i < m.word (modStart + 8) := numbers i (by omega)
    have some : 0 < m.word (modStart + 8) := Nat.zero_lt_of_lt (numbers 0 (by omega))
    exact blockReads_in_image wf serves hi below (by omega) (by omega) (by omega)
      (by omega) some a ha

/-- `read_dentry_by_name`, made through the page tables, answers from the image. -/
lemma mappedDentryByName_image (wf : WellFormedImage m modStart)
    (same : SameOn (InImage m modStart) m s.mem) (serves : s.fs.Serves m modStart)
    (kernel : KernelMapped s.paging) :
    s.mappedDentryByName fname = readDentryByName m (filesystemInit m modStart) fname := by
  have seen := wf.linear same kernel
  rw [Kernel.mappedDentryByName, if_pos (wf.mapped kernel (nameReads_in_image wf seen serves)),
    readDentryByName_image wf seen serves]

/-- So does `read_data` for an inode that exists. -/
lemma mappedData_image (wf : WellFormedImage m modStart)
    (same : SameOn (InImage m modStart) m s.mem) (serves : s.fs.Serves m modStart)
    (kernel : KernelMapped s.paging) (hi : inode < (filesystemInit m modStart).inodesNum m)
    (nowrap : offset + length < 2 ^ 32) : s.mappedData inode offset length
      = some (readData m (filesystemInit m modStart) inode offset length) := by
  have seen := wf.linear same kernel
  rw [Kernel.mappedData,
    if_pos (wf.mapped kernel (dataReads_in_image wf seen serves hi nowrap)),
    readData_image wf seen serves hi nowrap]

end Image

end Kernel391
