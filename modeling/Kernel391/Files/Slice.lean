import Kernel391.Files.Image

/-!
# The slice of a file

A file is the bytes of its data blocks in the order of the block list. `read_data` copies a slice of
it to a buffer, a block at a time; the copies are followed here with the memory they change, for a
buffer apart from the image, and leave what `readData` says they store.
-/

namespace Kernel391
open Base

/-- The contents of a file: the blocks it needs, one after the other, cut at its length. -/
def Fs.contents (fs : Fs) (m : Mem) (inode : Nat) : List UInt8 :=
  ((List.range ((fs.fileLength m inode + 4095) / 4096)).flatMap fun i =>
    m.fetch (fs.datablock (fs.dataBlocks m inode i)) dataBlockSize).take (fs.fileLength m inode)

/-- What reading the files of an image relies on: the image lies in the address space, no file needs
more blocks than an index node lists, and the blocks a file needs exist. -/
structure FilesSound (m : Mem) (modStart : Nat) : Prop where
  start : modStart ≠ 0
  fits : modStart + imageSize m modStart ≤ 2 ^ 32
  length : ∀ i < (filesystemInit m modStart).inodesNum m,
    (filesystemInit m modStart).fileLength m i ≤ 1023 * 4096
  blocks : ∀ i < (filesystemInit m modStart).inodesNum m, ∀ j,
    j < ((filesystemInit m modStart).fileLength m i + 4095) / 4096 →
    (filesystemInit m modStart).dataBlocks m i j < m.word (modStart + 8)

/-- `memcpy` between two ranges that have no byte in common. -/
def memcpyInto (m : Mem) (dst src n : Nat) : Mem := m.store dst (m.fetch src n)

/-- The block loop of `read_data` and the memory it copies in, with `k` blocks left from block `i`
on. -/
def copyBlocks (fs : Fs) (inode length buf : Nat) : (k i bufOffset : Nat) → Mem → Nat × Mem
  | 0, _, bufOffset, m => (bufOffset, m)
  | k + 1, i, bufOffset, m =>
    let dataId := fs.dataBlocks m inode i
    let memcpyLen :=
      if dataBlockSize > sub32 length bufOffset then sub32 length bufOffset else dataBlockSize
    copyBlocks fs inode length buf k (i + 1) (add32 bufOffset memcpyLen)
      (memcpyInto m (buf + bufOffset) (fs.datablock dataId) memcpyLen)

/-- `read_data` with the memory it copies in: the return value and the memory after. -/
def copyData (fs : Fs) (inode offset buf length : Nat) (m : Mem) : Int × Mem :=
  let fileLength := fs.fileLength m inode
  if fs.bootblockHead = 0 then (-1, m)
  else if offset = fileLength then (0, m)
  else if inode > fs.inodesNum m ∨ offset > fileLength then (-1, m)
  else
    let length := if add32 length offset > fileLength then sub32 fileLength offset else length
    let starting := offset / dataBlockSize
    let ending := add32 offset length / dataBlockSize
    let offset := offset - dataBlockSize * starting
    let dataId := fs.dataBlocks m inode starting
    let memcpyLen :=
      if dataBlockSize > add32 length offset then length else dataBlockSize - offset
    let m := memcpyInto m buf (fs.datablock dataId + offset) memcpyLen
    let r := copyBlocks fs inode length buf (ending - starting) (starting + 1) memcpyLen m
    (int32 r.1, r.2)

section Contents

variable {m : Mem} {fs : Fs} {inode : Nat}

/-- The first blocks of a file are its first bytes. -/
lemma flatMap_blocks (k : Nat) :
    ((List.range k).flatMap fun i => m.fetch (fs.datablock (fs.dataBlocks m inode i)) dataBlockSize)
      = fs.fileBytes m inode 0 (4096 * k) := by
  induction k with
  | zero => rfl
  | succ k ih =>
      have start : 4096 * k / 4096 = k := by omega
      have aligned : 4096 * k % 4096 = 0 := by omega
      have block : m.fetch (fs.datablock (fs.dataBlocks m inode k)) 4096
          = fs.fileBytes m inode (4096 * k) 4096 := by
        rw [← fetch_block (by omega), start, aligned, Nat.add_zero]
      rw [List.range_succ, List.flatMap_append, ih, List.flatMap_singleton, dataBlockSize, block,
        Nat.mul_succ]
      have rest : fs.fileBytes m inode 0 (4096 * k) ++ fs.fileBytes m inode (0 + 4096 * k) 4096
          = fs.fileBytes m inode 0 (4096 * k + 4096) := Fs.fileBytes_append ..
      rw [Nat.zero_add] at rest
      exact rest

/-- The contents of a file are all its bytes. -/
lemma Fs.contents_eq : fs.contents m inode = fs.fileBytes m inode 0 (fs.fileLength m inode) := by
  rw [Fs.contents, flatMap_blocks]
  generalize fs.fileLength m inode = L
  have whole : 4096 * ((L + 4095) / 4096) = L + (4096 * ((L + 4095) / 4096) - L) := by omega
  rw [whole, ← Fs.fileBytes_append, List.take_left' (Fs.length_fileBytes 0 L)]

/-- A file has as many bytes as its length says. -/
lemma Fs.length_contents : (fs.contents m inode).length = fs.fileLength m inode := by
  rw [Fs.contents_eq, Fs.length_fileBytes]

/-- A slice of the contents. -/
lemma Fs.slice_contents {p n : Nat} (h : p + n ≤ fs.fileLength m inode) :
    ((fs.contents m inode).drop p).take n = fs.fileBytes m inode p n := by
  have split : fs.fileLength m inode = p + (n + (fs.fileLength m inode - p - n)) := by omega
  rw [Fs.contents_eq, split, ← Fs.fileBytes_append, List.drop_left' (Fs.length_fileBytes 0 p),
    ← Fs.fileBytes_append, Nat.zero_add, List.take_left' (Fs.length_fileBytes p n)]

end Contents

section Copies

variable {m m' : Mem} {modStart : Nat} {fs : Fs} {inode offset length buf : Nat}

/-- A byte of the image. -/
lemma FilesSound.byte_eq (sound : FilesSound m modStart)
    (same : SameOn (InImage m modStart) m m') {a : Nat} (ha : InImage m modStart a) :
    m'.byte a = m.byte a := by
  have fits := sound.fits
  have high := ha.2
  rw [Mem.byte_of_lt (by omega), Mem.byte_of_lt (by omega)]
  exact same a ha

/-- An image is mounted. -/
lemma FilesSound.boot (sound : FilesSound m modStart) (serves : fs.Serves m modStart) :
    fs.bootblockHead ≠ 0 := by
  obtain ⟨e, rfl⟩ := serves
  exact sound.start

/-- No file is longer than its index node can say. -/
lemma FilesSound.most (sound : FilesSound m modStart) (serves : fs.Serves m modStart)
    (hi : inode < fs.inodesNum m) : fs.fileLength m inode ≤ 1023 * 4096 := by
  obtain ⟨e, rfl⟩ := serves
  exact sound.length inode hi

/-- The number of a block a file needs is the same while the image is. -/
lemma FilesSound.dataBlocks_eq (sound : FilesSound m modStart) (serves : fs.Serves m modStart)
    (same : SameOn (InImage m modStart) m m') (hi : inode < fs.inodesNum m) {i : Nat}
    (hb : i < 1023) : fs.dataBlocks m' inode i = fs.dataBlocks m inode i := by
  obtain ⟨e, rfl⟩ := serves
  apply Mem.word_congr
  intro k hk
  have place : modStart + 4096 + 4096 * inode + 4 + 4 * i + k
      = modStart + 4096 + 4096 * inode + (4 + 4 * i + k) := by omega
  apply sound.byte_eq same
  show InImage m modStart (modStart + 4096 + 4096 * inode + 4 + 4 * i + k)
  rw [place]
  exact (inNode hi (by omega : 4 + 4 * i + k < 4096)).1

/-- The bytes of a block a file needs are the same while the image is. -/
lemma FilesSound.fetch_eq (sound : FilesSound m modStart) (serves : fs.Serves m modStart)
    (same : SameOn (InImage m modStart) m m') {dataId o n : Nat}
    (hd : dataId < m.word (modStart + 8)) (hn : o + n ≤ 4096) :
    m'.fetch (fs.datablock dataId + o) n = m.fetch (fs.datablock dataId + o) n := by
  obtain ⟨e, rfl⟩ := serves
  have fits := sound.fits
  rw [imageSize] at fits
  have start : ((filesystemInit m modStart).atEntry e).datablock dataId
      = modStart + 4096 + 4096 * m.word (modStart + 4) + 4096 * dataId := by
    show add32 (modStart + 4096) (4096 * m.word (modStart + 4)) + 4096 * dataId = _
    rw [add32_of_lt (by omega)]
  apply List.map_congr_left
  intro k hk
  have lt := List.mem_range.mp hk
  apply sound.byte_eq same
  rw [start, InImage, imageSize]
  omega

/-- Copying one piece of a block the file needs: it is a piece of the image as it was, and the copy
leaves the image alone. -/
lemma FilesSound.piece (sound : FilesSound m modStart) (serves : fs.Serves m modStart)
    (same : SameOn (InImage m modStart) m m') (hi : inode < fs.inodesNum m) {i o n : Nat}
    (needed : n ≠ 0 → i < (fs.fileLength m inode + 4095) / 4096) (hn : o + n ≤ 4096) :
    m'.fetch (fs.datablock (fs.dataBlocks m' inode i) + o) n
      = m.fetch (fs.datablock (fs.dataBlocks m inode i) + o) n := by
  rcases Nat.eq_zero_or_pos n with rfl | pos
  · rfl
  have inside := needed (by omega)
  have most := sound.most serves hi
  rw [sound.dataBlocks_eq serves same hi (by omega)]
  obtain ⟨e, rfl⟩ := serves
  exact sound.fetch_eq ⟨e, rfl⟩ same (sound.blocks inode hi i inside) hn

/-- A buffer apart from the image. -/
def Apart (m : Mem) (modStart buf n : Nat) : Prop :=
  buf + n ≤ modStart ∨ modStart + imageSize m modStart ≤ buf

/-- A store to the buffer leaves the image. -/
lemma Apart.store (apart : Apart m modStart buf length) {o : Nat} {bs : List UInt8}
    (h : o + bs.length ≤ length) (same : SameOn (InImage m modStart) m m') :
    SameOn (InImage m modStart) m (m'.store (buf + o) bs) := by
  intro a ha
  obtain ⟨low, high⟩ := ha
  rw [Mem.store_frame, same a ⟨low, high⟩]
  rcases apart with below | above
  · right
    omega
  · left
    omega

/-- The copies of the block loop add up to one store of the bytes it reads. -/
lemma copyBlocks_eq (sound : FilesSound m modStart) (serves : fs.Serves m modStart)
    (hi : inode < fs.inodesNum m) (apart : Apart m modStart buf length)
    (within : offset + length ≤ fs.fileLength m inode) (small : offset + length < 2 ^ 32)
    {k i bufOffset : Nat} (last : i + k = (offset + length) / 4096 + 1) (le : bufOffset ≤ length)
    (aligned : offset + bufOffset = min (4096 * i) (offset + length))
    (same : SameOn (InImage m modStart) m m') :
    copyBlocks fs inode length buf k i bufOffset m'
      = ((readBlocks m fs inode length k i bufOffset).2,
          m'.store (buf + bufOffset) (readBlocks m fs inode length k i bufOffset).1) := by
  induction k generalizing i bufOffset m' with
  | zero => rw [copyBlocks, readBlocks, Mem.store_nil]
  | succ k ih =>
      have left : sub32 length bufOffset = length - bufOffset := sub32_of_le le (by omega)
      rw [copyBlocks, readBlocks, dataBlockSize, left]
      generalize hn : (if 4096 > length - bufOffset then length - bufOffset else 4096) = n
      have n_eq : n = min 4096 (length - bufOffset) := by
        rw [← hn]
        split_ifs <;> omega
      have next : add32 bufOffset n = bufOffset + n := add32_of_lt (by omega)
      have piece := sound.piece serves same hi (i := i) (o := 0) (n := n) (by omega) (by omega)
      rw [Nat.add_zero, Nat.add_zero] at piece
      have length_piece : (m.fetch (fs.datablock (fs.dataBlocks m inode i)) n).length = n :=
        Mem.length_fetch
      have same' : SameOn (InImage m modStart) m
          (m'.store (buf + bufOffset) (m.fetch (fs.datablock (fs.dataBlocks m inode i)) n)) := by
        apply apart.store _ same
        omega
      have join := Mem.store_append m' (buf + bufOffset)
        (m.fetch (fs.datablock (fs.dataBlocks m inode i)) n)
        (readBlocks m fs inode length k (i + 1) (bufOffset + n)).1
      rw [length_piece, Nat.add_assoc] at join
      dsimp only
      rw [next, memcpyInto, piece, ih (by omega) (by omega) (by omega) same', join]

/-- The copies of `read_data` to a buffer apart from the image add up to one store, of the bytes
`readData` gives. -/
lemma copyData_eq (sound : FilesSound m modStart) (serves : fs.Serves m modStart)
    (hi : inode < fs.inodesNum m) (within : offset ≤ fs.fileLength m inode)
    (nowrap : offset + length < 2 ^ 32)
    (apart : Apart m modStart buf (min length (fs.fileLength m inode - offset))) :
    copyData fs inode offset buf length m
      = ((readData m fs inode offset length).1,
          m.store buf (readData m fs inode offset length).2) := by
  have most := sound.most serves hi
  have boot := sound.boot serves
  rw [copyData, readData]
  dsimp only
  rw [if_neg boot, if_neg boot]
  rcases Nat.eq_or_lt_of_le within with at_end | before
  · rw [if_pos at_end, if_pos at_end, Mem.store_nil]
  have inside : ¬ (inode > fs.inodesNum m ∨ offset > fs.fileLength m inode) := by omega
  rw [if_neg (Nat.ne_of_lt before), if_neg (Nat.ne_of_lt before), if_neg inside, if_neg inside]
  rw [clamped_length within (by omega) nowrap]
  generalize hn : min length (fs.fileLength m inode - offset) = n at apart
  have rest : offset - 4096 * (offset / 4096) = offset % 4096 := by omega
  rw [dataBlockSize, rest, add32_of_lt (by omega), add32_of_lt (by omega)]
  generalize hc : (if 4096 > n + offset % 4096 then n else 4096 - offset % 4096) = c
  have c_eq : c = min n (4096 - offset % 4096) := by
    rw [← hc]
    split_ifs <;> omega
  have piece := sound.piece serves .refl hi (i := offset / 4096) (o := offset % 4096) (n := c)
    (by omega) (by omega)
  generalize hb : m.fetch (fs.datablock (fs.dataBlocks m inode (offset / 4096)) + offset % 4096) c
    = first
  have length_first : first.length = c := by rw [← hb, Mem.length_fetch]
  have same : SameOn (InImage m modStart) m (m.store (buf + 0) first) :=
    apart.store (by omega) .refl
  rw [Nat.add_zero] at same
  have fits : offset + n ≤ fs.fileLength m inode := by omega
  have last : offset / 4096 + 1 + ((offset + n) / 4096 - offset / 4096)
      = (offset + n) / 4096 + 1 := by
    omega
  have aligned : offset + c = min (4096 * (offset / 4096 + 1)) (offset + n) := by omega
  have blocks := copyBlocks_eq sound serves hi apart fits (by omega) last (by omega) aligned same
  have join := Mem.store_append m buf first
    (readBlocks m fs inode n ((offset + n) / 4096 - offset / 4096) (offset / 4096 + 1) c).1
  rw [length_first] at join
  rw [memcpyInto, hb, blocks, join]

/-- `read_data` copies exactly the slice of the file it is asked for, cut at the end of the file,
and stores nothing else. -/
theorem copyData_slice (sound : FilesSound m modStart) (serves : fs.Serves m modStart)
    (hi : inode < fs.inodesNum m) (within : offset ≤ fs.fileLength m inode)
    (nowrap : offset + length < 2 ^ 32)
    (apart : Apart m modStart buf (min length (fs.fileLength m inode - offset)))
    (room : buf + min length (fs.fileLength m inode - offset) ≤ 2 ^ 32) :
    let n := min length (fs.fileLength m inode - offset)
    let r := copyData fs inode offset buf length m
    r.1 = n ∧ r.2.fetch buf n = ((fs.contents m inode).drop offset).take n ∧
      ∀ a, ¬ (buf ≤ a ∧ a < buf + n) → r.2 a = m a := by
  dsimp only
  have most := sound.most serves hi
  rw [copyData_eq sound serves hi within nowrap apart,
    readData_slice (sound.boot serves) (Nat.le_of_lt hi) within (by omega) nowrap,
    Fs.slice_contents (by omega)]
  generalize min length (fs.fileLength m inode - offset) = n at room
  have length_bytes : (fs.fileBytes m inode offset n).length = n := Fs.length_fileBytes ..
  have fetched := Mem.fetch_store m (length_bytes.symm ▸ room)
  rw [length_bytes] at fetched
  refine ⟨rfl, fetched, fun a outside => ?_⟩
  show m.store buf (fs.fileBytes m inode offset n) a = m a
  rw [Mem.store_frame (by omega)]

end Copies

/-- The files of a well-formed image are sound. -/
lemma WellFormedImage.filesSound {m : Mem} {modStart : Nat} (wf : WellFormedImage m modStart) :
    FilesSound m modStart where
  start := by
    have above := wf.above
    omega
  fits := by
    have below := wf.below
    omega
  length := wf.length
  blocks i hi j hj := by
    have most := wf.length i hi
    exact wf.blocks i hi j (by omega) (by omega)

/-- Two bytes from the middle of the text. -/
theorem copyData_slice_sample :
    let fs := filesystemInit sampleRam 0x600000
    let n := min 10 (fs.fileLength sampleRam 1 - 1)
    let r := copyData fs 1 1 0x1000 10 sampleRam
    r.1 = n ∧ r.2.fetch 0x1000 n = ((fs.contents sampleRam 1).drop 1).take n ∧
      ∀ a, ¬ (0x1000 ≤ a ∧ a < 0x1000 + n) → r.2 a = sampleRam a :=
  copyData_slice wellFormedImage_sample.filesSound ⟨0, rfl⟩ (by decide +kernel)
    (by decide +kernel) (by decide) (.inl (by decide +kernel)) (by decide +kernel)

end Kernel391
