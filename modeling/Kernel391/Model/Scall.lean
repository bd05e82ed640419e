import Kernel391.Model.Terminal

/-!
# System calls

The file operations of `filesystem.c`, `RTC.c` and `terminal.c` behind `file_operation_table`, and
the system calls of `scall.c` that use them. A user buffer is a 32-bit address and its length a
32-bit integer; the bytes a read operation stores at the buffer are part of its result, and the
system call then stores them through the page tables.
-/

namespace Kernel391
open Base

/-- What a read operation did: its return value, the bytes it stored from the buffer's start on, and
the state after, memory apart. -/
structure ReadResult where
  ret : Int
  bytes : List UInt8
  after : Kernel

/-- The checks `read`, `write` and `getargs` make of a user buffer, as signed comparisons of its two
ends. -/
def userBuffer (buf n : BitVec 32) : Prop :=
  ¬ buf.toInt < userMem ∧ ¬ (buf + n).toInt > userEnd

/-- The check of a user buffer is a comparison. -/
instance (buf n : BitVec 32) : Decidable (userBuffer buf n) := inferInstanceAs (Decidable (_ ∧ _))

namespace Kernel

/-! ## File operations -/

/-- `file_open`: the lookup fills the record `curdentry` points to. -/
def fileOpen (s : Kernel) (fname : List UInt8) : Option (Kernel × Int) :=
  (readDentryByName s.mem s.fs fname).map fun r =>
    ({ s with mem := applyStores s.mem s.fs.curdentry r.2 }, r.1)

/-- `directory_open`. -/
def directoryOpen (s : Kernel) : Kernel := { s with fs.curfile := s.fs.dentry 0 }

/-- `rtcopen`, with `rtc_open`. -/
def rtcopen (s : Kernel) : Kernel := { s with rtc.rtcFreq := 1024 }

/-- `file_operation_table[i].open`; an index outside the table is no function. -/
def tableOpen (s : Kernel) (fname : List UInt8) : Nat → Option (Kernel × Int)
  | 0 => some (s.rtcopen, 0)
  | 1 => some (s.directoryOpen, 0)
  | 2 => s.fileOpen fname
  | 3 => some (s, 1)
  | _ => none

/-- `file_operation_table[i].close`; only the terminal's does anything. -/
def tableClose (s : Kernel) : Nat → Option (Kernel × Int)
  | 0 => some (s, 0)
  | 1 => some (s, 0)
  | 2 => some (s, 0)
  | 3 => some (s.terminalClose, 1)
  | _ => none

/-- `file_read`. -/
def fileRead (s : Kernel) (fd : Nat) (length : BitVec 32) : ReadResult :=
  let e := s.proc.fd fd
  let r := readData s.mem s.fs e.inode e.position length.toNat
  { ret := r.1
    bytes := r.2
    after :=
      { s with
        proc := s.proc.setFd fd
          { e with position := add32 e.position (r.1 % 2 ^ 32).toNat } } }

/-- Bytes `i` to `j` of the entry `curfile` points to lie in the kernel's page. Positions grow one
by one from the boot block on, and come to the end of that page, where nothing is mapped, before any
other. -/
def entryMapped (s : Kernel) (i j : Nat) : Prop :=
  KernelPtr (s.fs.curfile % 2 ^ 32 + i : Nat) ∧ KernelPtr (s.fs.curfile % 2 ^ 32 + j : Nat)

/-- Whether a descriptor is in mapped memory can be read from its address. -/
instance (s : Kernel) (i j : Nat) : Decidable (s.entryMapped i j) :=
  inferInstanceAs (Decidable (_ ∧ _))

/-- `directory_read`; the comparison with `strlen` is unsigned. An entry outside the mapped memory
is a page fault. -/
def directoryRead (s : Kernel) (fd : Nat) (buf length : BitVec 32) : Option ReadResult :=
  let e := s.proc.fd fd
  let s := { s with fs.curfile := s.fs.dentry e.position }
  let fileType := s.fs.fileType s.mem e.position
  if ¬ s.entryMapped 32 35 then none
  else if fileType ≠ 0 ∧ fileType ≠ 1 ∧ fileType ≠ 2 then some ⟨0, [], s⟩
  else if buf = 0 then some ⟨-1, [], s⟩
  else
    match strlen (s.fs.fileName s.mem e.position) with
    | none => none
    | some len =>
      if ¬ s.entryMapped 0 len then none
      else
        -- a negative length passes the first clamp and is cut by the second
        let length := if length.toInt > fileNameLength then fileNameLength else length.toNat
        let length := if length > len then len else length
        some
          { ret := int32 length
            bytes := s.mem.fetch (s.fs.dentry e.position) length
            after := { s with proc := s.proc.setFd fd { e with position := add32 e.position 1 } } }

/-- `rtcread`, with `rtc_read`: it waits for `128 / rtc_freq` interrupts; the division by zero of a
frequency never set is a fault. -/
def rtcread (s : Kernel) : Option ReadResult :=
  if s.rtc.rtcFreq = 0 then none
  else if 128 / s.rtc.rtcFreq = 0 then some ⟨0, [], s⟩
  else some ⟨0, [], { s with rtc.rtcInterrupt := false }⟩

/-- `file_operation_table[i].read`; what lies behind the descriptor array is not modelled. -/
def tableRead (s : Kernel) (fd : Nat) (buf n : BitVec 32) : Nat → Option ReadResult
  | 0 => s.rtcread
  | 1 => if fd < fdarrayMax then s.directoryRead fd buf n else none
  | 2 => if fd < fdarrayMax then some (s.fileRead fd n) else none
  | 3 => (s.terminalRead buf.toNat n.toInt).map fun r => ⟨r.1, r.2.1, r.2.2⟩
  | _ => none

/-- `file_operation_table[i].write`; `rtcwrite` sets the frequency 2 whatever the buffer holds. -/
def tableWrite (s : Kernel) (buf n : BitVec 32) : Nat → Option (Kernel × Int)
  | 0 => some ({ s with rtc.rtcFreq := 2 }, 0)
  | 1 => some (s, -1)
  | 2 => some (s, -1)
  | 3 => (s.terminalWrite buf.toNat n.toInt).map fun r => (r.2, r.1)
  | _ => none

/-! ## Descriptors -/

/-- The descriptor array lies in the kernel's page; using it through `NULL` faults. -/
def fdArrayMapped (s : Kernel) : Prop := KernelPtr s.proc.filedArray

/-- Whether the descriptors are in mapped memory can be read from their address. -/
instance (s : Kernel) : Decidable s.fdArrayMapped := inferInstanceAs (Decidable (KernelPtr _))

/-- The lowest descriptor whose flags are clear. -/
def freeFd (s : Kernel) : Option Nat :=
  (List.range fdarrayMax).find? fun i => (s.proc.fd i).flags == 0

/-- The descriptor `open` writes for a directory record, its flags still clear. -/
def openEntry (d : Nat → UInt8) (flags : Nat) : FdArray where
  fileotPointer := dentryFileType d
  inode := if dentryFileType d = 0 then 2 ^ 32 - 1 else dentryInodeIndex d
  position := 0
  flags := flags

/-- `open`. -/
def sysOpen (fr : Frame) (s : Kernel) (filename : Option (List UInt8)) : Option (Kernel × Int) :=
  match filename with
  | none => some (s, -1)
  | some filename =>
    if s.proc.filedArray = 0 then some (s, -1)
    else
      match readDentryByName s.mem s.fs (upToNul filename) with
      | none => none
      | some (ret, st) =>
        if ret = -1 then some (s, -1)
        else
          match localDentry fr.dentry st with
          | none => none
          | some current =>
            match s.freeFd with
            | none => some (s, -1)
            | some counter =>
              -- written before the open operation runs, and left so when it fails
              let s := { s with proc := s.proc.setFd counter (openEntry current 0) }
              match s.tableOpen (upToNul filename) (dentryFileType current) with
              | none => none
              | some (s, ret) =>
                if ret = -1 then some (s, -1)
                else
                  some ({ s with proc := s.proc.setFd counter (openEntry current 1) }, counter)

/-- The loops of `close` that look for the name of every open file: their result is not used, but
each directory entry is copied to a local record, which it must fit. The outer loop makes the same
pass once for each descriptor. -/
def closeScan (s : Kernel) : Bool :=
  (List.range 63).all fun i =>
    match readDentryByIndex s.mem s.fs i with
    | none => false
    | some (_, st) => st.all fun ob => ob.1 < 64

/-- `close`. -/
def sysClose (s : Kernel) (i : Int) : Option (Kernel × Int) :=
  if i ≥ 7 ∨ i < 0 then some (s, -1)
  else if s.proc.filedArray = 0 then some (s, -1)
  else if i = 0 ∨ i = 1 ∨ (s.proc.fd i.toNat).flags = 0 then some (s, -1)
  else if s.closeScan = false then none
  else
    let e := s.proc.fd i.toNat
    let s := { s with proc := s.proc.setFd i.toNat { e with flags := 0 } }
    s.tableClose e.fileotPointer

/-- The second argument `read` gives to the read operation: the descriptor, but its position for
descriptor 0. -/
def readFd (s : Kernel) (fd : Nat) : Nat := if fd = 0 then (s.proc.fd 0).position else fd

/-- `read` up to the stores at the buffer. -/
def readResult (s : Kernel) (fd buf n : BitVec 32) : Option ReadResult :=
  if ¬ userBuffer buf n then some ⟨-1, [], s⟩
  else if fd.toNat ≥ 7 ∨ fd.toNat = 1 then some ⟨-1, [], s⟩
  else if ¬ s.fdArrayMapped then none
  else if (s.proc.fd fd.toNat).flags = 0 then some ⟨-1, [], s⟩
  else s.tableRead (s.readFd fd.toNat) buf n (s.proc.fd fd.toNat).fileotPointer

/-- `read`. -/
def sysRead (s : Kernel) (fd buf n : BitVec 32) : Option (Kernel × Int) := do
  let r ← s.readResult fd buf n
  let m ← storeThrough s.paging r.after.mem buf.toNat r.bytes
  return ({ r.after with mem := m }, r.ret)

/-- `write`. -/
def sysWrite (s : Kernel) (fd buf n : BitVec 32) : Option (Kernel × Int) :=
  if ¬ userBuffer buf n then some (s, -1)
  else if fd.toNat ≥ 7 ∨ fd.toNat = 0 then some (s, -1)
  else if ¬ s.fdArrayMapped then none
  else if (s.proc.fd fd.toNat).flags = 0 then some (s, -1)
  else s.tableWrite buf n (s.proc.fd fd.toNat).fileotPointer

/-- `getargs` up to the stores at the buffer. -/
def getargsResult (s : Kernel) (buf n : BitVec 32) : Option ReadResult :=
  if ¬ userBuffer buf n then some ⟨-1, [], s⟩
  else if ¬ KernelPtr s.proc.curProcessPtr then none
  else
    let arg := (s.proc.pcb s.proc.curProcessPtr).arg
    if arg 0 = 10 then some ⟨-1, [], s⟩
    else some ⟨0, strncpy arg n.toNat, s⟩

/-- `getargs`. -/
def getargs (s : Kernel) (buf n : BitVec 32) : Option (Kernel × Int) := do
  let r ← s.getargsResult buf n
  let m ← storeThrough s.paging r.after.mem buf.toNat r.bytes
  return ({ r.after with mem := m }, r.ret)

/-- `vidmap`. -/
def vidmap (s : Kernel) (screenStart : Nat) : Option (Kernel × Int) :=
  if screenStart = 0 then some (s, -1)
  else
    -- the first store is made before the bounds are checked
    match s.storePointer screenStart (userEnd - 4) with
    | none => none
    | some s =>
      if screenStart < userMem ∨ screenStart > userEnd - 4 then some (s, -1)
      else
        let pg := s.paging
        let pg :=
          { pg with
            DT := Function.update pg.DT 34 (pg.ptVidmemAddr ||| 1 ||| 2 ||| 4)
            PTVidmem := Function.update pg.PTVidmem 0 (1 ||| 2 ||| 4 ||| videoMem) }
        ({ s with paging := pg }.storePointer screenStart 0x08800000).map fun s => (s, videoMem)

/-! ## Ending a process -/

/-- `close(i)` for the descriptors from `i` on, `k` of them. -/
def closeFrom : (k i : Nat) → Kernel → Option Kernel
  | 0, _, s => some s
  | k + 1, i, s =>
    match s.sysClose i with
    | none => none
    | some (s', _) => closeFrom k (i + 1) s'

/-- `filed_array[i].flags = 0; close(i);` -/
def clearFd (s : Kernel) (i : Nat) : Option Kernel :=
  ({ s with proc := s.proc.setFd i { s.proc.fd i with flags := 0 } }.sysClose i).map Prod.fst

/-- `halt` from the setting of the task state segment on: the parent process is resumed. -/
def returnToParent (s : Kernel) (parentpid : Int) (status : UInt8) : Option (Kernel × Control) :=
  let parentProcessPtr := pcbAddr parentpid
  if ¬ KernelPtr parentProcessPtr then none
  else do
    let s :=
      { s with
        tss := { esp0 := (s.proc.pcb parentProcessPtr).tssEsp0, ss0 := kernelDs }
        paging := s.paging.mapUserPage (2 + parentpid).toNat }
    let s ← closeFrom 6 2 s
    let s ← s.clearFd 0
    let s ← s.clearFd 1
    let s :=
      { s with
        proc :=
          { s.proc with
            filedArray := parentProcessPtr
            curPid := parentpid
            curProcessPtr := parentProcessPtr } }
    let result := if status = 0x0F then 256 else status.toNat
    return (s, .resume parentpid result)

/-- `halt`. -/
def halt (fr : Frame) (s : Kernel) (status : UInt8) : Option (Kernel × Control) :=
  let s := { s with proc.pidCheck := Function.update s.proc.pidCheck s.proc.curPid 0 }
  if ¬ KernelPtr s.proc.curProcessPtr then none
  else
    let parentpid := (s.proc.pcb s.proc.curProcessPtr).parentPid
    if parentpid = -1 then
      let s := s.puts (bytesOf "can't halt from this process\n".toList)
      match execute fr { s with proc.curPid := -1 } (some shellCommand) with
      | none => none
      -- a shell that cannot be started again lets `halt` go on with the parent -1
      | some (s, .ret _) => s.returnToParent parentpid status
      | some (s, c) => some (s, c)
    else s.returnToParent parentpid status

end Kernel

end Kernel391
