import Kernel391.Base.Bytes
import Kernel391.Model.Userland

/-!
# What a process sees

The system calls as a program can rely on them, without memory, page tables or control blocks: the
arguments and the line that waits for it, the files of the volume, the streams behind its
descriptors and what it has printed. The first eight bytes of the volume are part of it, as opening
a file overwrites them with the file's name, and reads and lookups go by the two counts in them.
Where the kernel makes no promise, the world has no answer.
-/

namespace Kernel391.User
open Base

/-- A directory slot. -/
structure Entry where
  name : List UInt8
  fileType : Nat
  inode : Nat

/-- The directory slots and the files. -/
structure Volume where
  count : Nat
  entry : Nat → Entry
  contents : Nat → List UInt8

/-- What a descriptor is open on, with what is still to be read. `broken` is a file of which a read
failed, and a directory that was read past its end. -/
inductive Stream where
  | device
  | directory (rest : List (List UInt8))
  | file (inode : Nat) (rest : List UInt8)
  | broken

/-- The world of a process. -/
structure World where
  volume : Volume
  args : Option (List UInt8)
  input : Option (List UInt8)
  header : Mem
  fds : Nat → Option Stream
  output : List UInt8

/-- The slot a name is found in. -/
def Volume.find (v : Volume) (name : List UInt8) : Option Nat :=
  (List.range 17).find? fun i => decide (name = (v.entry i).name)

/-- The names in the directory. -/
def Volume.names (v : Volume) : List (List UInt8) :=
  (List.range v.count).map fun i => (v.entry i).name

namespace World

/-- The lowest descriptor that is free. -/
def free (w : World) : Option Nat := (List.range' 2 6).find? fun i => (w.fds i).isNone

/-- The world with a descriptor replaced. -/
def setFd (w : World) (fd : Nat) (e : Option Stream) : World :=
  { w with fds := Function.update w.fds fd e }

/-- The header after a file of that name was opened. -/
def overwrite (header : Mem) (name : List UInt8) : Mem := fun k => (name ++ [0]).getD k (header k)

/-- Reads of a file go through: its inode is within the count in the header. -/
def Counts (w : World) (inode : Nat) : Prop := inode ≤ w.header.word 4

/-- Whether the header counts an inode is a comparison. -/
instance (w : World) (inode : Nat) : Decidable (w.Counts inode) :=
  inferInstanceAs (Decidable (_ ≤ _))

/-- The world and the stream after slot `i` was opened. -/
def enter (w : World) (i : Nat) : Option (World × Stream) :=
  let e := w.volume.entry i
  match e.fileType with
  | 0 => some (w, .device)
  | 1 => some (w, .directory w.volume.names)
  | 2 => some ({ w with header := overwrite w.header e.name },
      .file e.inode (w.volume.contents e.inode))
  | _ => none

/-- A descriptor is within the range of a 32-bit integer. -/
def Int32 (fd : Int) : Prop := -2 ^ 31 ≤ fd ∧ fd < 2 ^ 31

/-- Whether a number is a C int is a comparison. -/
instance (fd : Int) : Decidable (Int32 fd) := inferInstanceAs (Decidable (_ ∧ _))

/-- `open`. -/
def openFile (w : World) (name : List UInt8) : Option (World × Answer) :=
  if 32 < name.length then none
  else
    match w.volume.find name with
    | none => some (w, ⟨-1, []⟩)
    | some i =>
      -- the record of a slot behind the count is not filled
      if w.header.word 0 < i then none
      else
        match w.free with
        | none => some (w, ⟨-1, []⟩)
        | some fd => (w.enter i).map fun x => (x.1.setFd fd (some x.2), ⟨fd, []⟩)

/-- A read of a stream, which goes on as another. -/
def readStream (w : World) (n : Nat) : Stream → Option (Stream × Answer)
  | .device => some (.device, ⟨0, []⟩)
  | .directory names =>
    -- a shorter read returns a part of a name
    if n < 32 then none
    else
      match names with
      | [] => some (.broken, ⟨0, []⟩)
      | e :: es => some (.directory es, ⟨e.length, e⟩)
  | .file inode rest =>
    if w.Counts inode ∨ rest = [] then
      some (.file inode (rest.drop n), ⟨(rest.take n).length, rest.take n⟩)
    else some (.broken, ⟨-1, []⟩)
  | .broken => none

/-- `read`. -/
def read (w : World) (fd : Int) (n : Nat) : Option (World × Answer) :=
  if fd < 0 ∨ 7 ≤ fd ∨ fd = 1 then some (w, ⟨-1, []⟩)
  else if fd = 0 then
    if 1024 ≤ n then some (w, ⟨-1, []⟩)
    else w.input.map fun line => ({ w with input := none }, ⟨line.length, line⟩)
  else
    match w.fds fd.toNat with
    | none => some (w, ⟨-1, []⟩)
    | some e => (w.readStream n e).map fun x => (w.setFd fd.toNat (some x.1), x.2)

/-- `write`. -/
def write (w : World) (fd : Int) (bs : List UInt8) : Option (World × Answer) :=
  if fd < 0 ∨ 7 ≤ fd ∨ fd = 0 then some (w, ⟨-1, []⟩)
  else if fd = 1 then some ({ w with output := w.output ++ bs }, ⟨bs.length, []⟩)
  else
    match w.fds fd.toNat with
    | none => some (w, ⟨-1, []⟩)
    | some .device => none
    | some _ => some (w, ⟨-1, []⟩)

/-- `close`. -/
def close (w : World) (fd : Int) : Option (World × Answer) :=
  if fd < 2 ∨ 7 ≤ fd then some (w, ⟨-1, []⟩)
  else
    match w.fds fd.toNat with
    | none => some (w, ⟨-1, []⟩)
    | some _ => some (w.setFd fd.toNat none, ⟨0, []⟩)

/-- What a process may rely on, for buffers of at most 1024 bytes. -/
def step : Machine Syscall Answer World := fun w c =>
  match c with
  | .getargs n =>
    if 1024 < n then none
    else
      match w.args with
      | none => some (w, ⟨-1, []⟩)
      | some args => some (w, ⟨0, strncpy (cstring args) n⟩)
  | .open filename => w.openFile (upToNul filename)
  | .read fd n => if 1024 < n ∨ ¬ Int32 fd then none else w.read fd n
  | .write fd bs => if 1024 < bs.length ∨ ¬ Int32 fd then none else w.write fd bs
  | .close fd => if Int32 fd then w.close fd else none
  | .vidmap screenStart => if screenStart = 0 ∨ screenStart = 0x400000
      then some (w, ⟨-1, []⟩) else none
  | .number eax => if Int32 eax ∧ ¬ (1 ≤ eax ∧ eax ≤ 10) then some (w, ⟨-1, []⟩) else none
  | .execute _ => none

end World

end Kernel391.User
