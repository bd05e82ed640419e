import Kernel391.Model.Scall

/-!
# Booting

The state `entry` of `kernel.c` builds before it executes the first shell: `filesystem_init`,
`paging_init` and `terminal_init` over the globals' initial values, with the timer interrupt left
disabled. What the machine holds at that point is a parameter: the memory with the boot image in it
(and with the page the boot loader's messages were cleared from), the memory the control blocks will
occupy, and the addresses of the page tables.
-/

namespace Kernel391
open Base

/-- What the machine holds when `entry` has cleared the screen. -/
structure BootInfo where
  ram : Mem
  modStart : Nat
  pcbs : Int → PCB
  dtAddr : Nat
  ptAddr : Nat
  ptVidmemAddr : Nat

/-- `paging_init`, with `DT_init` and `PT_init`. -/
def pagingInit (dtAddr ptAddr ptVidmemAddr : Nat) : Paging where
  DT i :=
    if i = 0 then 1 ||| 2 ||| 4 ||| (ptAddr >>> 12 <<< 12)
    else if i = 1 then 1 ||| 2 ||| 0x80 ||| 0x100 ||| (1 <<< 22)
    else 0x80 ||| 0x100 ||| (1 <<< 22)
  PT i :=
    if i <<< 12 ≠ videoMem then 2 ||| (i <<< 12) else 1 ||| 2 ||| 0x100 ||| (i <<< 12)
  PTVidmem _ := 0
  dtAddr := dtAddr
  ptAddr := ptAddr
  ptVidmemAddr := ptVidmemAddr

/-- The state in which `entry` executes the first shell. -/
def Kernel.boot (b : BootInfo) : Kernel :=
  Kernel.terminalInit
    { mem := b.ram
      fs := filesystemInit b.ram b.modStart
      proc :=
        { pidCheck := fun _ => 0
          newPid := -1
          filedArray := 0
          curPid := -1
          curProcessPtr := 0
          pcbs := b.pcbs }
      term :=
        { terminalArray := fun _ => ⟨0, 0, fun _ => 0, 0, 0, 0⟩
          currentTerminalId := 0 }
      kbd :=
        { keyboardBuffer := fun _ => 0
          bufferPosition := 0
          mods := ⟨false, false, false, false⟩ }
      screen := { screenX := 0, screenY := 0, cursor := 0 }
      sched := { schduleTid := -1, nTerminal := 0 }
      tss := { esp0 := endOfKernel, ss0 := kernelDs }
      rtc := { rtcInterrupt := false, rtcFreq := 0 }
      paging := pagingInit b.dtAddr b.ptAddr b.ptVidmemAddr }

/-- The number of bytes of the boot image at `modStart`: the boot block, the index nodes and the
data blocks. -/
def imageSize (m : Mem) (modStart : Nat) : Nat :=
  4096 * (1 + m.word (modStart + 4) + m.word (modStart + 8))

/-- A well-formed boot image: it lies in the kernel's page below the kernel stacks, the reserved
bytes of its header and entries are zero, its names are distinct and not empty, and the inodes and
blocks its entries refer to exist. Nothing is said about unused directory slots and block
numbers. -/
structure WellFormedImage (m : Mem) (modStart : Nat) : Prop where
  above : 0x00400000 ≤ modStart
  below : modStart + imageSize m modStart ≤ 0x007F4000
  header : ∀ k < 52, m (modStart + 12 + k) = 0
  dentryNum : (filesystemInit m modStart).dentryNum m ≤ 63
  inodesNum : 0 < (filesystemInit m modStart).inodesNum m
  nonempty : ∀ i < (filesystemInit m modStart).dentryNum m,
    (filesystemInit m modStart).fileName m i 0 ≠ 0
  distinct : ∀ i < (filesystemInit m modStart).dentryNum m, ∀ j < i,
    ∃ k < 32, (filesystemInit m modStart).fileName m i k
      ≠ (filesystemInit m modStart).fileName m j k
  fileType : ∀ i < (filesystemInit m modStart).dentryNum m,
    (filesystemInit m modStart).fileType m i ≤ 2
  inode : ∀ i < (filesystemInit m modStart).dentryNum m,
    (filesystemInit m modStart).fileType m i = 2 →
    (filesystemInit m modStart).inodeIndex m i < (filesystemInit m modStart).inodesNum m
  reserved : ∀ i < (filesystemInit m modStart).dentryNum m, ∀ k < 24,
    (filesystemInit m modStart).reserved m i k = 0
  length : ∀ i < (filesystemInit m modStart).inodesNum m,
    (filesystemInit m modStart).fileLength m i ≤ 1023 * 4096
  blocks : ∀ i < (filesystemInit m modStart).inodesNum m, ∀ j < 1023,
    4096 * j < (filesystemInit m modStart).fileLength m i →
    (filesystemInit m modStart).dataBlocks m i j < m.word (modStart + 8)

/-! ## A small image -/

/-- A directory entry of a small image. -/
def sampleEntry (name : List Char) (fileType inode : Nat) : List UInt8 :=
  bytesOf name ++ List.replicate (32 - name.length) 0 ++ wordBytes fileType ++ wordBytes inode
    ++ List.replicate 24 0

/-- A small boot image at 6 MB: the directory itself, the rtc, the program `shell` and a text. -/
def sampleRam : Mem :=
  let m : Mem := fun _ => 0
  let m := m.store 0x600000 (wordBytes 4 ++ wordBytes 2 ++ wordBytes 2)
  let m := m.store 0x600040 (sampleEntry ['.'] 1 0)
  let m := m.store 0x600080 (sampleEntry ['r', 't', 'c'] 0 0)
  let m := m.store 0x6000C0 (sampleEntry ['s', 'h', 'e', 'l', 'l'] 2 0)
  let m := m.store 0x600100 (sampleEntry ['t', 'e', 'x', 't'] 2 1)
  let m := m.store 0x601000 (wordBytes 28 ++ wordBytes 1)
  let m := m.store 0x602000 (wordBytes 5 ++ wordBytes 0)
  let m := m.store 0x603000 (bytesOf ['h', 'e', 'l', 'l', 'o'])
  m.store 0x604000 ([0x7F, 0x45, 0x4C, 0x46] ++ List.replicate 20 0 ++ wordBytes 0x08048018)

/-- A machine that boots the small image. -/
def sampleBoot : BootInfo where
  ram := sampleRam
  modStart := 0x600000
  pcbs := fun _ => ⟨fun _ => ⟨0, 0, 0, 0⟩, 0, 0, 0, 0, 0, fun _ => 0⟩
  dtAddr := 0x41F000
  ptAddr := 0x420000
  ptVidmemAddr := 0x421000

/-- A call that finds zeros in its registers and locals. -/
def sampleFrame : Frame := ⟨0, 0, fun _ => 0, fun _ => 0⟩

end Kernel391
