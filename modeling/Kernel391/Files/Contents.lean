import Kernel391.Model.Filesystem

/-!
# File contents

A file is one sequence of bytes, scattered over data blocks. `read_data` cuts the range it is asked
for at the block boundaries; what it stores is the range. The induction is over the blocks that are
left, the invariant that the next byte to store is the first of its block.
-/

namespace Kernel391
open Base

/-- The byte at position `p` of a file. -/
def Fs.fileByte (fs : Fs) (m : Mem) (inode p : Nat) : UInt8 :=
  m.byte (fs.datablock (fs.dataBlocks m inode (p / dataBlockSize)) + p % dataBlockSize)

/-- The `n` bytes of a file from position `p` on. -/
def Fs.fileBytes (fs : Fs) (m : Mem) (inode p n : Nat) : List UInt8 :=
  (List.range' p n).map (fs.fileByte m inode)

section Contents

variable {m : Mem} {fs : Fs} {inode offset length : Nat}

/-- As many bytes as were asked for. -/
lemma Fs.length_fileBytes (p n : Nat) : (fs.fileBytes m inode p n).length = n := by
  rw [Fs.fileBytes, List.length_map, List.length_range']

/-- Two parts of a file that follow one another. -/
lemma Fs.fileBytes_append (p n k : Nat) :
    fs.fileBytes m inode p n ++ fs.fileBytes m inode (p + n) k
      = fs.fileBytes m inode p (n + k) := by
  rw [Fs.fileBytes, Fs.fileBytes, Fs.fileBytes, ← List.map_append, List.range'_append_1]

/-- A sum below 4 GB does not wrap. -/
lemma add32_of_lt {a b : Nat} (h : a + b < 2 ^ 32) : add32 a b = a + b := Nat.mod_eq_of_lt h

/-- A difference above 0 does not wrap. -/
lemma sub32_of_le {a b : Nat} (h : b ≤ a) (ha : a < 2 ^ 32) : sub32 a b = a - b := by
  rw [sub32]
  omega

/-- The length `read_data` goes on with: it is cut at the end of the file. -/
lemma clamped_length {length offset fileLength : Nat} (within : offset ≤ fileLength)
    (small : fileLength < 2 ^ 32) (nowrap : offset + length < 2 ^ 32) :
    (if add32 length offset > fileLength then sub32 fileLength offset else length)
      = min length (fileLength - offset) := by
  rw [add32_of_lt (by omega), sub32_of_le within small]
  split_ifs <;> omega

/-- A word below 2 GB is its own signed value. -/
lemma int32_of_lt {w : Nat} (h : w < 2 ^ 31) : int32 w = w := if_pos h

/-- One `memcpy`: bytes of a single block. -/
lemma fetch_block {p n : Nat} (h : p % 4096 + n ≤ 4096) :
    m.fetch (fs.datablock (fs.dataBlocks m inode (p / 4096)) + p % 4096) n
      = fs.fileBytes m inode p n := by
  rw [Mem.fetch, Fs.fileBytes, List.range'_eq_map_range, List.map_map]
  apply List.map_congr_left
  intro k hk
  have lt := List.mem_range.mp hk
  have block : (p + k) / 4096 = p / 4096 := by omega
  have within : (p + k) % 4096 = p % 4096 + k := by omega
  rw [Function.comp_apply, Fs.fileByte, dataBlockSize, block, within, Nat.add_assoc]

/-- The block loop stores the rest of the range, when the next byte is the first of block `i`. -/
lemma readBlocks_spec (small : offset + length < 2 ^ 32) {k i bufOffset : Nat}
    (last : i + k = (offset + length) / 4096 + 1) (le : bufOffset ≤ length)
    (aligned : offset + bufOffset = min (4096 * i) (offset + length)) :
    readBlocks m fs inode length k i bufOffset
      = (fs.fileBytes m inode (offset + bufOffset) (length - bufOffset), length) := by
  induction k generalizing i bufOffset with
  | zero =>
      have done : bufOffset = length := by omega
      rw [readBlocks, done, Nat.sub_self]
      rfl
  | succ k ih =>
      have start : offset + bufOffset = 4096 * i := by omega
      have left : sub32 length bufOffset = length - bufOffset := sub32_of_le le (by omega)
      rw [readBlocks, dataBlockSize, left]
      -- the last block is cut at the end of the range
      generalize hn : (if 4096 > length - bufOffset then length - bufOffset else 4096) = n
      have n_eq : n = min 4096 (length - bufOffset) := by
        rw [← hn]
        split_ifs <;> omega
      have next : add32 bufOffset n = bufOffset + n := add32_of_lt (by omega)
      have block : (offset + bufOffset) / 4096 = i := by omega
      have within : (offset + bufOffset) % 4096 = 0 := by omega
      have piece : m.fetch (fs.datablock (fs.dataBlocks m inode i)) n
          = fs.fileBytes m inode (offset + bufOffset) n := by
        rw [← fetch_block (by omega), block, within, Nat.add_zero]
      rw [next, ih (by omega) (by omega) (by omega), piece, ← Nat.add_assoc, Fs.fileBytes_append]
      congr 2
      omega

/-- `read_data` stores the range of the file it is asked for, cut at the end of the file. -/
theorem readData_spec (boot : fs.bootblockHead ≠ 0) (valid : inode ≤ fs.inodesNum m)
    (before : offset < fs.fileLength m inode) (small : fs.fileLength m inode < 2 ^ 31)
    (nowrap : offset + length < 2 ^ 32) :
    readData m fs inode offset length
      = (((min length (fs.fileLength m inode - offset) : Nat) : Int),
          fs.fileBytes m inode offset (min length (fs.fileLength m inode - offset))) := by
  have inside : ¬ (inode > fs.inodesNum m ∨ offset > fs.fileLength m inode) := by omega
  rw [readData]
  dsimp only
  rw [if_neg boot, if_neg (Nat.ne_of_lt before), if_neg inside]
  rw [clamped_length (Nat.le_of_lt before) (by omega) nowrap]
  generalize hn : min length (fs.fileLength m inode - offset) = n
  have fits : offset + n < 2 ^ 32 := by omega
  have rest : offset - 4096 * (offset / 4096) = offset % 4096 := by omega
  rw [dataBlockSize, rest, add32_of_lt (by omega), add32_of_lt (by omega)]
  generalize hc : (if 4096 > n + offset % 4096 then n else 4096 - offset % 4096) = c
  have c_eq : c = min n (4096 - offset % 4096) := by
    rw [← hc]
    split_ifs <;> omega
  rw [fetch_block (by omega), readBlocks_spec fits (by omega) (by omega) (by omega),
    Fs.fileBytes_append, int32_of_lt (by omega)]
  congr 2
  omega

/-- `read_data` refuses an inode above the count and a position behind the end. -/
lemma readData_refused (boot : fs.bootblockHead ≠ 0) (ne : offset ≠ fs.fileLength m inode)
    (h : fs.inodesNum m < inode ∨ fs.fileLength m inode < offset) :
    readData m fs inode offset length = (-1, []) := by
  rw [readData]
  dsimp only
  rw [if_neg boot, if_neg ne, if_pos h]

/-- `read_data` at the end of a file gives nothing. -/
lemma readData_at_end (boot : fs.bootblockHead ≠ 0) (e : offset = fs.fileLength m inode) :
    readData m fs inode offset length = (0, []) := by
  rw [readData]
  dsimp only
  rw [if_neg boot, if_pos e]

/-- The same up to the end of the file, where there is nothing to store. -/
lemma readData_slice (boot : fs.bootblockHead ≠ 0) (valid : inode ≤ fs.inodesNum m)
    (within : offset ≤ fs.fileLength m inode) (small : fs.fileLength m inode < 2 ^ 31)
    (nowrap : offset + length < 2 ^ 32) :
    readData m fs inode offset length
      = (((min length (fs.fileLength m inode - offset) : Nat) : Int),
          fs.fileBytes m inode offset (min length (fs.fileLength m inode - offset))) := by
  rcases Nat.eq_or_lt_of_le within with at_end | before
  · have none_left : min length (fs.fileLength m inode - offset) = 0 := by omega
    rw [readData_at_end boot at_end, none_left]
    rfl
  · exact readData_spec boot valid before small nowrap

end Contents

end Kernel391
