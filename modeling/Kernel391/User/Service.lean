import Kernel391.Files.Listing
import Kernel391.Terminal.Agreement
import Kernel391.Terminal.Reads
import Kernel391.User.World

/-!
# The kernel under a process

The kernel as a machine that answers the calls of the process that runs, and what a state of it has
to do with the world of that process (`Hosts`). A pointer of the program is one buffer in its page:
the bytes a call reads are put there first, and the bytes a call stores are found there.
-/

namespace Kernel391.User
open Base

/-- The answer to a call: what it returned, and the bytes it stored. -/
def answer (bytes : List UInt8) (x : Kernel × Int) : Kernel × Answer := (x.1, ⟨x.2, bytes⟩)

/-- A call of the process that runs, through a buffer at `area`. A program that is executed has
calls of its own, so `execute` is no call of this machine. -/
def serve (fr : Frame) (area : BitVec 32) : Machine Syscall Answer Kernel := fun s c =>
  match c with
  | .getargs n => do
    let r ← s.getargsResult area (.ofNat 32 n)
    (s.getargs area (.ofNat 32 n)).map (answer r.bytes)
  | .open filename => (s.sysOpen fr (some filename)).map (answer [])
  | .read fd n => do
    let r ← s.readResult (.ofInt 32 fd) area (.ofNat 32 n)
    (s.sysRead (.ofInt 32 fd) area (.ofNat 32 n)).map (answer r.bytes)
  | .write fd bs => do
    let m ← storeThrough s.paging s.mem area.toNat bs
    (({ s with mem := m } : Kernel).sysWrite (.ofInt 32 fd) area
      (.ofNat 32 bs.length)).map (answer [])
  | .close fd => (s.sysClose (BitVec.ofInt 32 fd).toInt).map (answer [])
  | .vidmap screenStart => (s.vidmap screenStart).map (answer [])
  | .number eax => if 1 ≤ eax ∧ eax ≤ 10 then none else some (s, ⟨-1, []⟩)
  | .execute _ => none

/-- A boot image whose unused directory slots are blank, with one of them at the end, that lies
behind the first word of the kernel. -/
structure VolumeImage (m : Mem) (modStart : Nat) : Prop extends WellFormedImage m modStart where
  behind : 0x00400004 ≤ modStart
  room : (filesystemInit m modStart).dentryNum m < 63
  blank : ∀ i < 63, (filesystemInit m modStart).dentryNum m ≤ i →
    ∀ k < 64, m ((filesystemInit m modStart).dentry i + k) = 0

/-- The volume of a boot image. -/
def volumeOf (m : Mem) (modStart : Nat) : Volume :=
  let fs := filesystemInit m modStart
  { count := fs.dentryNum m
    entry := fun i => ⟨fs.entryName m i, fs.fileType m i, fs.inodeIndex m i⟩
    contents := fs.contents m }

/-- A descriptor of the kernel is what the process sees of it. -/
def OpenOn (m : Mem) (modStart rtcFreq : Nat) (e : FdArray) : Option Stream → Prop
  | none => e.flags = 0
  | some .device => e.flags ≠ 0 ∧ e.fileotPointer = 0 ∧ 128 < rtcFreq
  | some (.directory rest) => e.flags ≠ 0 ∧ e.fileotPointer = 1 ∧
    e.position ≤ (volumeOf m modStart).count ∧ rest = (volumeOf m modStart).names.drop e.position
  | some (.file inode rest) => e.flags ≠ 0 ∧ e.fileotPointer = 2 ∧ e.inode = inode ∧
    inode < (filesystemInit m modStart).inodesNum m ∧
    e.position ≤ (filesystemInit m modStart).fileLength m inode ∧
    rest = ((volumeOf m modStart).contents inode).drop e.position
  | some .broken => e.flags ≠ 0 ∧ (e.fileotPointer = 1 ∨ e.fileotPointer = 2)

/-- The argument of a control block is what `getargs` has to return: `none` for one that begins with
a newline. -/
def ArgIs (arg : Nat → UInt8) : Option (List UInt8) → Prop
  | none => arg 0 = 10
  | some a => arg 0 ≠ 10 ∧ (∀ b ∈ a, b ≠ 0) ∧ ∀ k ≤ a.length, arg k = a.getD k 0

/-- The screen cells of a pane and its cursor. -/
def screenOf (p : Pane) : (Fin 4096 → UInt8) × Nat × Nat := (p.cells, p.x, p.y)

/-- The first word of the kernel is mapped to itself, and no page table is there. -/
structure KernelStart (pg : Paging) : Prop where
  mapped : ∀ k < 4, pg.translate (0x00400000 + k) = some (0x00400000 + k)
  tables : ∀ a ∈ [pg.dtAddr, pg.ptAddr, pg.ptVidmemAddr], a + 4096 ≤ 0x00400000 ∨ 0x00400004 ≤ a

/-- The kernel hosts a process of frame `k` in the world `w`: it serves the image `m` at `modStart`,
the terminal it writes to shows what the process printed from `pane` on, and the control block of
the process holds its arguments and its descriptors. -/
structure Hosts (m : Mem) (modStart k : Nat) (pane : Pane) (w : World) (s : Kernel) : Prop where
  image : VolumeImage m modStart
  files : FilesServed m modStart k s
  start : KernelStart s.paging
  display : s.display.Ok
  terminal : s.getNTerminal < 3
  block : KernelPtr s.proc.curProcessPtr
  volume : w.volume = volumeOf m modStart
  header : ∀ j < 8, w.header j = s.mem (modStart + j)
  args : ArgIs (s.proc.pcb s.proc.curProcessPtr).arg w.args
  input : ∀ line ∈ w.input, Waiting s line
  standard : ∀ fd < 2, (s.proc.fd fd).flags ≠ 0 ∧ (s.proc.fd fd).fileotPointer = 3
  stream : ∀ fd, 2 ≤ fd → fd < 8 → OpenOn m modStart s.rtc.rtcFreq (s.proc.fd fd) (w.fds fd)
  output : screenOf (s.pane s.getNTerminal) = screenOf (w.output.foldl Pane.print pane)

end Kernel391.User
