import Kernel391.Model.Strings

/-!
# The file system driver

`filesystem.c`. The boot image is a range of memory reached through the global pointers `Fs` that
`filesystem_init` sets up by casts: a boot block (a 64-byte header and 63 directory entries of 64
bytes), the index nodes and the data blocks, 4096 bytes each. The record a lookup fills is described
by the stores made relative to its address, so that the same lookup serves a local record and the
record `curdentry` points to.
-/

namespace Kernel391
open Base

/-- `FILE_NAME_LENGTH`. -/
def fileNameLength : Nat := 32

/-- `DATA_BLOCK_SIZE`. -/
def dataBlockSize : Nat := 4096

/-- Addition of `uint32_t`. -/
def add32 (a b : Nat) : Nat := (a + b) % 2 ^ 32

/-- Subtraction of `uint32_t`. -/
def sub32 (a b : Nat) : Nat := (a + 2 ^ 32 - b) % 2 ^ 32

/-- A 32-bit pattern read as an `int32_t`. -/
def int32 (w : Nat) : Int := if w < 2 ^ 31 then w else (w : Int) - 2 ^ 32

/-- The global pointers of `filesystem.c`; `NULL` is 0. -/
structure Fs where
  bootblockHead : Nat
  indexnodeHead : Nat
  datablockPtr : Nat
  curdentry : Nat
  curfile : Nat

namespace Fs

/-- `bootblock_head->dentry_num`. -/
def dentryNum (fs : Fs) (m : Mem) : Nat := m.word fs.bootblockHead

/-- `bootblock_head->inodes_num`. -/
def inodesNum (fs : Fs) (m : Mem) : Nat := m.word (fs.bootblockHead + 4)

/-- `&bootblock_head->dentry[index]`; the fields of an entry are its name (32 bytes), its type and
inode (4 bytes each) and 24 reserved bytes. -/
def dentry (fs : Fs) (index : Nat) : Nat := fs.bootblockHead + 64 + 64 * index

/-- `bootblock_head->dentry[index].file_name`, which may have no terminator of its own. -/
def fileName (fs : Fs) (m : Mem) (index : Nat) : Nat → UInt8 :=
  fun k => m.byte (fs.dentry index + k)

/-- `bootblock_head->dentry[index].file_type`. -/
def fileType (fs : Fs) (m : Mem) (index : Nat) : Nat := m.word (fs.dentry index + 32)

/-- `bootblock_head->dentry[index].inode_index`. -/
def inodeIndex (fs : Fs) (m : Mem) (index : Nat) : Nat := m.word (fs.dentry index + 36)

/-- `bootblock_head->dentry[index].reserved`. -/
def reserved (fs : Fs) (m : Mem) (index : Nat) : Nat → UInt8 :=
  fun k => m.byte (fs.dentry index + 40 + k)

/-- `indexnode_head[inode].file_length`. -/
def fileLength (fs : Fs) (m : Mem) (inode : Nat) : Nat := m.word (fs.indexnodeHead + 4096 * inode)

/-- `indexnode_head[inode].data_blocks[i]`. -/
def dataBlocks (fs : Fs) (m : Mem) (inode i : Nat) : Nat :=
  m.word (fs.indexnodeHead + 4096 * inode + 4 + 4 * i)

/-- `(datablock_ptr + data_id)->datablock`. -/
def datablock (fs : Fs) (dataId : Nat) : Nat := fs.datablockPtr + 4096 * dataId

end Fs

/-- `filesystem_init`. -/
def filesystemInit (m : Mem) (modstart : Nat) : Fs where
  bootblockHead := modstart
  indexnodeHead := modstart + 4096
  datablockPtr := add32 (modstart + 4096) (4096 * m.word (modstart + 4))
  curdentry := modstart
  curfile := 0

/-- Stores relative to the address of a record, in the order they are made. -/
abbrev Stores := List (Nat × UInt8)

/-- The stores of consecutive bytes from offset `o` on. -/
def storesAt (o : Nat) : List UInt8 → Stores
  | [] => []
  | b :: bs => (o, b) :: storesAt (o + 1) bs

/-- The memory after the stores to the record at `a`. -/
def applyStores (m : Mem) (a : Nat) (st : Stores) : Mem :=
  st.foldl (fun m ob => Function.update m ((a + ob.1) % 2 ^ 32) ob.2) m

/-- `read_dentry_by_index`: the return value and the stores to `mydentry`; `none` when one of its
two string copies never ends. -/
def readDentryByIndex (m : Mem) (fs : Fs) (index : Nat) : Option (Int × Stores) :=
  if index > fs.dentryNum m then some (-1, [])
  else
    match strcpy (fs.fileName m index), strcpy (fs.reserved m index) with
    | some name, some reserved =>
      some (0, storesAt 32 (wordBytes (fs.fileType m index))
        ++ storesAt 36 (wordBytes (fs.inodeIndex m index))
        ++ storesAt 0 name ++ storesAt 40 reserved)
    | _, _ => none

/-- One pass of the scan of `read_dentry_by_name`: does directory slot `i` carry the name that was
copied to `fnamecpy`? -/
def slotMatches (m : Mem) (fs : Fs) (fnamecpy : List UInt8) (i : Nat) : Option Bool :=
  (strlen (fs.fileName m i)).map fun len =>
    let comparelength := if len ≥ fileNameLength then fileNameLength else len
    if comparelength ≠ fnamecpy.length then false
    else strncmp (cstring fnamecpy) (fs.fileName m i) comparelength == 0

/-- The scan of `read_dentry_by_name` over its 17 slots, `fuel` of them left from `i` on: the first
slot that matches. -/
def scanDentries (m : Mem) (fs : Fs) (fnamecpy : List UInt8) : (fuel i : Nat) → Option (Option Nat)
  | 0, _ => some none
  | fuel + 1, i =>
    match slotMatches m fs fnamecpy i with
    | none => none
    | some true => some (some i)
    | some false => scanDentries m fs fnamecpy fuel (i + 1)

/-- The slot `read_dentry_by_name` stops at. `strcpy` to the 33 bytes of `fnamecpy` is undefined for
a longer name (`none`); the later store of a terminator at `fnamecpy[32]` never changes the
string. -/
def lookupSlot (m : Mem) (fs : Fs) (fname : List UInt8) : Option (Option Nat) :=
  if fname.length + 1 > fileNameLength + 1 then none else scanDentries m fs fname 17 0

/-- `read_dentry_by_name`: the return value and the stores to `mydentry`. The return value of
`read_dentry_by_index` is ignored. -/
def readDentryByName (m : Mem) (fs : Fs) (fname : List UInt8) : Option (Int × Stores) :=
  match lookupSlot m fs fname with
  | none => none
  | some none => some (-1, [])
  | some (some i) => (readDentryByIndex m fs i).map fun r => (0, r.2)

/-- The block loop of `read_data`, with `k` blocks left from block `i` on. -/
def readBlocks (m : Mem) (fs : Fs) (inode length : Nat) : (k i bufOffset : Nat) → List UInt8 × Nat
  | 0, _, bufOffset => ([], bufOffset)
  | k + 1, i, bufOffset =>
    let dataId := fs.dataBlocks m inode i
    let memcpyLen :=
      if dataBlockSize > sub32 length bufOffset then sub32 length bufOffset else dataBlockSize
    let rest := readBlocks m fs inode length k (i + 1) (add32 bufOffset memcpyLen)
    (m.fetch (fs.datablock dataId) memcpyLen ++ rest.1, rest.2)

/-- `read_data`: the return value and the bytes stored at `buf`, which are consecutive. -/
def readData (m : Mem) (fs : Fs) (inode offset length : Nat) : Int × List UInt8 :=
  let fileLength := fs.fileLength m inode
  if fs.bootblockHead = 0 then (-1, [])
  else if offset = fileLength then (0, [])
  else if inode > fs.inodesNum m ∨ offset > fileLength then (-1, [])
  else
    let length := if add32 length offset > fileLength then sub32 fileLength offset else length
    let starting := offset / dataBlockSize
    let ending := add32 offset length / dataBlockSize
    let offset := offset - dataBlockSize * starting
    let dataId := fs.dataBlocks m inode starting
    let memcpyLen :=
      if dataBlockSize > add32 length offset then length else dataBlockSize - offset
    let first := m.fetch (fs.datablock dataId + offset) memcpyLen
    let rest := readBlocks m fs inode length (ending - starting) (starting + 1) memcpyLen
    (int32 rest.2, first ++ rest.1)

/-! ## The addresses that are read

For a caller whose image may lie anywhere: the addresses the functions above read of the image, in
the order they come to them. A string that never ends is read for ever, and adds none.
-/

/-- The bytes of a string at `a`, its terminator included. -/
def stringReads (m : Mem) (a : Nat) : List Nat :=
  match strlen (fun k => m.byte (a + k)) with
  | none => []
  | some len => List.range' a (len + 1)

/-- What `read_dentry_by_index` reads. -/
def indexReads (m : Mem) (fs : Fs) (index : Nat) : List Nat :=
  List.range' fs.bootblockHead 4 ++
    if index > fs.dentryNum m then []
    else List.range' (fs.dentry index + 32) 8 ++ stringReads m (fs.dentry index)
      ++ stringReads m (fs.dentry index + 40)

/-- What the scan of `read_dentry_by_name` reads from slot `i` on, and then the copy of the slot it
stops at. -/
def scanReads (m : Mem) (fs : Fs) (fnamecpy : List UInt8) : (fuel i : Nat) → List Nat
  | 0, _ => []
  | fuel + 1, i =>
    stringReads m (fs.dentry i) ++
      match slotMatches m fs fnamecpy i with
      | none => []
      | some true => indexReads m fs i
      | some false => scanReads m fs fnamecpy fuel (i + 1)

/-- What `read_dentry_by_name` reads. -/
def nameReads (m : Mem) (fs : Fs) (fname : List UInt8) : List Nat := scanReads m fs fname 17 0

/-- What the block loop of `read_data` reads. -/
def blockReads (m : Mem) (fs : Fs) (inode length : Nat) : (k i bufOffset : Nat) → List Nat
  | 0, _, _ => []
  | k + 1, i, bufOffset =>
    let dataId := fs.dataBlocks m inode i
    let memcpyLen :=
      if dataBlockSize > sub32 length bufOffset then sub32 length bufOffset else dataBlockSize
    List.range' (fs.indexnodeHead + 4096 * inode + 4 + 4 * i) 4
      ++ List.range' (fs.datablock dataId) memcpyLen
      ++ blockReads m fs inode length k (i + 1) (add32 bufOffset memcpyLen)

/-- What `read_data` reads: the length of the file before it looks at the number of inodes. -/
def dataReads (m : Mem) (fs : Fs) (inode offset length : Nat) : List Nat :=
  let fileLength := fs.fileLength m inode
  let node := List.range' (fs.indexnodeHead + 4096 * inode) 4
  if fs.bootblockHead = 0 then []
  else if offset = fileLength then node
  else if inode > fs.inodesNum m ∨ offset > fileLength then
    node ++ List.range' (fs.bootblockHead + 4) 4
  else
    let length := if add32 length offset > fileLength then sub32 fileLength offset else length
    let starting := offset / dataBlockSize
    let ending := add32 offset length / dataBlockSize
    let offset := offset - dataBlockSize * starting
    let dataId := fs.dataBlocks m inode starting
    let memcpyLen :=
      if dataBlockSize > add32 length offset then length else dataBlockSize - offset
    node ++ List.range' (fs.bootblockHead + 4) 4
      ++ List.range' (fs.indexnodeHead + 4096 * inode + 4 + 4 * starting) 4
      ++ List.range' (fs.datablock dataId + offset) memcpyLen
      ++ blockReads m fs inode length (ending - starting) (starting + 1) memcpyLen

end Kernel391
