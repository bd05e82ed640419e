import Kernel391.Base.While
import Kernel391.Model.Console

/-!
# Formatted output

`strrev`, `itoa` and `printf` of `lib.c`. A buffer is the function giving the byte at each of its
indices, and a pointer into it an index. `none` is a loop that never ends, a digit outside the
table, a division by zero or a string that is not mapped. The buffer of a conversion is a local
variable, whose bytes before the conversion are a parameter.
-/

namespace Kernel391
open Base

/-- The variables of the loop of `strrev`. -/
structure Reversal where
  s : Nat → UInt8
  beg : Int
  last : Int

/-- One pass: the bytes at `beg` and at the end change places. -/
def Reversal.pass (p : Nat) (x : Reversal) : Reversal :=
  let tmp := x.s (p + x.last.toNat)
  let s := Function.update x.s (p + x.last.toNat) (x.s (p + x.beg.toNat))
  { s := Function.update s (p + x.beg.toNat) tmp
    beg := x.beg + 1
    last := x.last - 1 }

/-- `strrev` of the string at index `p`. -/
def strrev (s : Nat → UInt8) (p : Nat) : Option (Nat → UInt8) :=
  (strlen fun k => s (p + k)).bind fun len =>
    (whileLoop (fun x => decide (x.beg < x.last)) (fun x => some (x.pass p)) (2 ^ 32)
      ⟨s, 0, int32 (sub32 len 1)⟩).map Reversal.s

/-- `lookup`, with its terminator. -/
def lookup : List UInt8 :=
  bytesOf
    ['0', '1', '2', '3', '4', '5', '6', '7', '8', '9', 'A', 'B', 'C', 'D', 'E', 'F', 'G', 'H', 'I',
      'J', 'K', 'L', 'M', 'N', 'O', 'P', 'Q', 'R', 'S', 'T', 'U', 'V', 'W', 'X', 'Y', 'Z'] ++ [0]

/-- The variables of the loop of `itoa`. -/
structure Conversion where
  buf : Nat → UInt8
  newbuf : Nat
  newval : BitVec 32

/-- One pass: the lowest digit of `newval` goes to `newbuf`. -/
def Conversion.pass (radix : BitVec 32) (x : Conversion) : Option Conversion :=
  if radix = 0 then none
  else
    lookup[(x.newval % radix).toNat]?.map fun digit =>
      { buf := Function.update x.buf x.newbuf digit
        newbuf := x.newbuf + 1
        newval := x.newval / radix }

/-- `itoa` to index `p`. -/
def itoa (value : BitVec 32) (buf : Nat → UInt8) (p : Nat) (radix : BitVec 32) :
    Option (Nat → UInt8) :=
  if value = 0 then some (Function.update (Function.update buf p '0'.toUInt8) (p + 1) 0)
  else
    (whileLoop (fun x => decide (0 < x.newval)) (Conversion.pass radix) (2 ^ 32)
      ⟨buf, p, value⟩).bind fun x => strrev (Function.update x.buf x.newbuf 0) p

/-- The loop of `%#x` that puts zeros before the digits. -/
def zeroFill (startingIndex : Nat) (convBuf : Nat → UInt8) : Nat → UInt8 :=
  (List.range (8 - startingIndex)).foldl
    (fun convBuf j => Function.update convBuf (startingIndex + j) '0'.toUInt8) convBuf

/-- From `format_char_switch` to the conversion specifier, past any number of `#`. -/
def formatCharSwitch (format : Nat → UInt8) : (fuel buf : Nat) → (alternate : Bool) →
    Option (Nat × Bool)
  | 0, _, _ => none
  | fuel + 1, buf, alternate =>
    if format buf = '#'.toUInt8 then formatCharSwitch format fuel (buf + 1) true
    else some (buf, alternate)

namespace Kernel

/-- `puts` of a string in a buffer. -/
def putsBuffer (s : Kernel) (str : Nat → UInt8) : Option Kernel :=
  (strlen str).map fun len => s.puts ((List.range len).map str)

/-- `puts` of a string in memory; the screen it prints to is in memory too. -/
def putsFrom : (fuel : Nat) → Kernel → (va : Nat) → Option Kernel
  | 0, _, _ => none
  | fuel + 1, s, va =>
    match s.load va with
    | none => none
    | some c => if c = 0 then some s else putsFrom fuel (s.putc c) (add32 va 1)

/-- `%x`, and `%#x` if `alternate` is set. -/
def printHex (s : Kernel) (alternate : Bool) (value : BitVec 32) (convBuf : Nat → UInt8) :
    Option Kernel :=
  if alternate = false then (itoa value convBuf 0 16).bind s.putsBuffer
  else
    (itoa value convBuf 8 16).bind fun convBuf =>
      (strlen fun k => convBuf (8 + k)).bind fun startingIndex =>
        s.putsBuffer fun k => zeroFill startingIndex convBuf (startingIndex + k)

/-- `%u`. -/
def printUnsigned (s : Kernel) (value : BitVec 32) (convBuf : Nat → UInt8) : Option Kernel :=
  (itoa value convBuf 0 10).bind s.putsBuffer

/-- `%d`. -/
def printSigned (s : Kernel) (value : BitVec 32) (convBuf : Nat → UInt8) : Option Kernel :=
  if value.toInt < 0 then
    (itoa (-value) (Function.update convBuf 0 '-'.toUInt8) 1 10).bind s.putsBuffer
  else (itoa value convBuf 0 10).bind s.putsBuffer

/-- The conversion with a specifier, and `esp` behind the argument it took. -/
def convert (s : Kernel) (specifier : UInt8) (alternate : Bool) (args : Nat → BitVec 32) (esp : Nat)
    (convBuf : Nat → UInt8) : Option (Kernel × Nat) :=
  if specifier = '%'.toUInt8 then some (s.putc '%'.toUInt8, esp)
  else if specifier = 'x'.toUInt8 then
    (s.printHex alternate (args esp) convBuf).map fun s => (s, esp + 1)
  else if specifier = 'u'.toUInt8 then
    (s.printUnsigned (args esp) convBuf).map fun s => (s, esp + 1)
  else if specifier = 'd'.toUInt8 then
    (s.printSigned (args esp) convBuf).map fun s => (s, esp + 1)
  else if specifier = 'c'.toUInt8 then some (s.putc (UInt8.ofNat (args esp).toNat), esp + 1)
  else if specifier = 's'.toUInt8 then
    (putsFrom (2 ^ 32) s (args esp).toNat).map fun s => (s, esp + 1)
  else some (s, esp)

/-- The loop of `printf` from index `buf` of the format on; a `%` at its end takes the terminator
for a specifier, and the loop goes on behind it. -/
def printfFrom (format : Nat → UInt8) (args : Nat → BitVec 32) (locals : Nat → Nat → UInt8) :
    (fuel : Nat) → Kernel → (buf esp : Nat) → Option (Kernel × Nat)
  | 0, _, _, _ => none
  | fuel + 1, s, buf, esp =>
    if format buf = 0 then some (s, buf)
    else if format buf = '%'.toUInt8 then
      (formatCharSwitch format (2 ^ 32) (buf + 1) false).bind fun (buf, alternate) =>
        (s.convert (format buf) alternate args esp (locals buf)).bind fun (s, esp) =>
          printfFrom format args locals fuel s (buf + 1) esp
    else printfFrom format args locals fuel (s.putc (format buf)) (buf + 1) esp

/-- `printf`: the words of the arguments are `args`, the bytes of the buffer before the conversion
at index `i` of the format are `locals i`. -/
def printf (s : Kernel) (format : Nat → UInt8) (args : Nat → BitVec 32)
    (locals : Nat → Nat → UInt8) : Option (Kernel × Int) :=
  (printfFrom format args locals (2 ^ 32) s 0 0).map fun r => (r.1, int32 r.2)

end Kernel

end Kernel391
