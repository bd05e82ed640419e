import Kernel391.Base.StringOps

/-!
# Memory routines

The assembly of `memset`, `memset_word`, `memset_dword`, `memcpy` and `memmove` in `lib.c`,
instruction by instruction, with the registers the compiler loads for their operands.
-/

namespace Kernel391
open Base

/-- The labels of the routines. -/
inductive MemLabel where
  | memsetTop | memsetAligned | memsetBottom | memsetDone
  | memcpyTop | memcpyAligned | memcpyBottom | memcpyDone
  | memmoveGo
  deriving DecidableEq

/-- The assembly of `memset`. -/
def memset : List (Instr MemLabel Empty) :=
  [.label .memsetTop,
   .testl .ecx .ecx,
   .jz .memsetDone,
   .testlImm 0x3 .edi,
   .jz .memsetAligned,
   .movbStore .eax .edi,
   .addl 1 .edi,
   .subl 1 .ecx,
   .jmp .memsetTop,
   .label .memsetAligned,
   .movwDs .edx,
   .movwEs .edx,
   .movl .ecx .edx,
   .shrl 2 .ecx,
   .andl 0x3 .edx,
   .cld,
   .repStosl,
   .label .memsetBottom,
   .testl .edx .edx,
   .jz .memsetDone,
   .movbStore .eax .edi,
   .addl 1 .edi,
   .subl 1 .edx,
   .jmp .memsetBottom,
   .label .memsetDone]

/-- The assembly of `memset_word`. -/
def memsetWord : List (Instr MemLabel Empty) :=
  [.movwDs .edx,
   .movwEs .edx,
   .cld,
   .repStosw]

/-- The assembly of `memset_dword`. -/
def memsetDword : List (Instr MemLabel Empty) :=
  [.movwDs .edx,
   .movwEs .edx,
   .cld,
   .repStosl]

/-- The assembly of `memcpy`. -/
def memcpy : List (Instr MemLabel Empty) :=
  [.label .memcpyTop,
   .testl .ecx .ecx,
   .jz .memcpyDone,
   .testlImm 0x3 .edi,
   .jz .memcpyAligned,
   .movbLoad .esi .eax,
   .movbStore .eax .edi,
   .addl 1 .edi,
   .addl 1 .esi,
   .subl 1 .ecx,
   .jmp .memcpyTop,
   .label .memcpyAligned,
   .movwDs .edx,
   .movwEs .edx,
   .movl .ecx .edx,
   .shrl 2 .ecx,
   .andl 0x3 .edx,
   .cld,
   .repMovsl,
   .label .memcpyBottom,
   .testl .edx .edx,
   .jz .memcpyDone,
   .movbLoad .esi .eax,
   .movbStore .eax .edi,
   .addl 1 .edi,
   .addl 1 .esi,
   .subl 1 .edx,
   .jmp .memcpyBottom,
   .label .memcpyDone]

/-- The assembly of `memmove`. -/
def memmove : List (Instr MemLabel Empty) :=
  [.movwDs .edx,
   .movwEs .edx,
   .cld,
   .cmpl .edi .esi,
   .jae .memmoveGo,
   .leal (-1) .esi .ecx .esi,
   .leal (-1) .edi .ecx .edi,
   .std,
   .label .memmoveGo,
   .repMovsb]

/-- A call of one of the routines with its arguments. -/
inductive MemCall where
  | memset (s c n : BitVec 32)
  | memsetWord (s c n : BitVec 32)
  | memsetDword (s c n : BitVec 32)
  | memcpy (dest src n : BitVec 32)
  | memmove (dest src n : BitVec 32)

namespace MemCall

/-- The word `memset` loads `eax` with. -/
def spread (c : BitVec 32) : BitVec 32 :=
  let c := c &&& 0xFF
  c <<< 24 ||| c <<< 16 ||| c <<< 8 ||| c

/-- The assembly a call runs. -/
def listing : MemCall → List (Instr MemLabel Empty)
  | .memset .. => Kernel391.memset
  | .memsetWord .. => Kernel391.memsetWord
  | .memsetDword .. => Kernel391.memsetDword
  | .memcpy .. => Kernel391.memcpy
  | .memmove .. => Kernel391.memmove

/-- The processor with the operands of a call loaded; everything else is what was left there. -/
def load (p : Cpu) : MemCall → Cpu
  | .memset s c n => ((p.set .eax (spread c)).set .edi s).set .ecx n
  | .memsetWord s c n => ((p.set .eax c).set .edi s).set .ecx n
  | .memsetDword s c n => ((p.set .eax c).set .edi s).set .ecx n
  | .memcpy dest src n => ((p.set .esi src).set .edi dest).set .ecx n
  | .memmove dest src n => ((p.set .edi dest).set .esi src).set .ecx n

end MemCall

end Kernel391
