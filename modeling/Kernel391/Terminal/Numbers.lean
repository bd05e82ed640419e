import Kernel391.Base.Loop
import Kernel391.Terminal.Itoa

/-!
# Printed numbers

What `printf` prints for a number. `%x`, `%u` and `%d` print the string of `itoa`, the last behind a
sign. `%#x` stores it behind eight bytes and prints from as many bytes after the start as there are
digits, which leaves place for the zeros. A format is taken in pieces, and `printf` prints what the
pieces print.
-/

namespace Kernel391
open Base

section Conversions

variable {radix : BitVec 32}

/-- `itoa` to the start of a buffer, and `puts` of the buffer. -/
lemma itoa_puts (two : 2 ≤ radix.toNat) (fits : radix.toNat ≤ 36) (value : BitVec 32) (s : Kernel)
    (buf : Nat → UInt8) :
    (itoa value buf 0 radix).bind s.putsBuffer =
      some (s.puts (ascii.numeral radix.toNat value.toNat)) := by
  obtain ⟨buf', conv, holds, -⟩ := itoa_spec radix two fits value buf 0
  rw [conv, Option.bind_some, holds.puts_start]

/-- The sign and the digits of a value. -/
def signedText (value : BitVec 32) : List UInt8 :=
  if value.toInt < 0 then '-'.toUInt8 :: ascii.numeral 10 (-value).toNat
  else ascii.numeral 10 value.toNat

/-- `%d` prints the signed numeral. -/
lemma printSigned_eq (s : Kernel) (value : BitVec 32) (buf : Nat → UInt8) :
    s.printSigned value buf = some (s.puts (signedText value)) := by
  rw [Kernel.printSigned, signedText]
  split_ifs with negative
  · obtain ⟨buf', conv, holds, outside⟩ := itoa_spec 10 (by decide) (by decide) (-value)
      (Function.update buf 0 '-'.toUInt8) 1
    have length := length_numeral_32 (r := (10 : BitVec 32).toNat) (by decide) (-value)
    have sign : buf' 0 = '-'.toUInt8 := by
      rw [outside 0 (by omega), Function.update_self]
    have all := holds.cons sign (by decide) (by omega)
    rw [conv, Option.bind_some, all.puts_start]
    rfl
  · exact itoa_puts (by decide) (by decide) value s buf

/-- The digits of a value behind zeros to eight digits. -/
def paddedText (value : BitVec 32) : List UInt8 :=
  List.replicate (8 - (ascii.numeral 16 value.toNat).length) (ascii.char 0) ++
    ascii.numeral 16 value.toNat

/-- A word has at most eight hexadecimal digits. -/
lemma length_hex_le (value : BitVec 32) : (ascii.numeral 16 value.toNat).length ≤ 8 :=
  Alphabet.length_numeral_le (by decide) (by decide) value.isLt

/-- `%#x` prints the padded numeral. -/
lemma printHex_alternate (s : Kernel) (value : BitVec 32) (buf : Nat → UInt8) :
    s.printHex true value buf = some (s.puts (paddedText value)) := by
  obtain ⟨buf', conv, holds, -⟩ := itoa_spec 16 (by decide) (by decide) value buf 8
  have sixteen : (16 : BitVec 32).toNat = 16 := rfl
  rw [sixteen] at holds
  have length := length_hex_le value
  rw [paddedText]
  generalize ascii.numeral 16 value.toNat = digits at holds length
  have filled (q : Nat) : zeroFill digits.length buf' q =
      if digits.length ≤ q ∧ q < 8 then '0'.toUInt8 else buf' q := by
    rw [zeroFill, foldl_range_update_from]
    simp only [Nat.add_sub_cancel' length]
  have all : HoldsString (zeroFill digits.length buf') digits.length
      (List.replicate (8 - digits.length) (ascii.char 0) ++ digits) := by
    have behind : HoldsString (zeroFill digits.length buf') 8 digits :=
      holds.congr fun q hq => by rw [filled, if_neg (by omega)]
    rw [← Nat.add_sub_cancel' length] at behind
    refine behind.pad (fun q low high => ?_) (by decide) (by omega)
    rw [filled, if_pos (by omega)]
    rfl
  rw [Kernel.printHex, if_neg (by decide), conv, Option.bind_some, holds.strlen, Option.bind_some]
  exact all.puts s

end Conversions

section Printf

variable {fmt : Nat → UInt8} {fuel i k : Nat} {alternate : Bool} {v : BitVec 32}

/-- A `printf` that comes to a conversion with the argument `v` prints a text and goes on behind the
conversion, with the next argument. -/
def Prints (spec : List UInt8) (v : BitVec 32) (text : List UInt8) : Prop :=
  ∀ (format : Nat → UInt8) (args : Nat → BitVec 32) (locals : Nat → Nat → UInt8) (fuel : Nat)
    (s : Kernel) (buf esp : Nat), format buf = '%'.toUInt8 →
    window format (buf + 1) spec.length = spec → args esp = v →
    Kernel.printfFrom format args locals (fuel + 1) s buf esp =
      Kernel.printfFrom format args locals fuel (s.puts text) (buf + 1 + spec.length) (esp + 1)

/-- Any number of `#` is passed over, and one is enough. -/
lemma formatCharSwitch_marks (enough : k < fuel)
    (marks : window fmt i k = List.replicate k '#'.toUInt8)
    (stop : fmt (i + k) ≠ '#'.toUInt8) :
    formatCharSwitch fmt fuel i alternate = some (i + k, alternate || decide (0 < k)) := by
  induction k generalizing fuel i alternate with
  | zero =>
      obtain ⟨fuel, rfl⟩ := Nat.exists_eq_add_of_lt enough
      rw [Nat.add_zero] at stop
      rw [formatCharSwitch, if_neg stop, decide_eq_false (Nat.lt_irrefl 0), Bool.or_false,
        Nat.add_zero]
  | succ k ih =>
      obtain ⟨fuel, rfl⟩ := Nat.exists_eq_add_of_lt enough
      rw [window_cons, List.replicate_succ, List.cons.injEq] at marks
      have place : i + (k + 1) = i + 1 + k := by omega
      rw [place] at stop ⊢
      rw [formatCharSwitch, if_pos marks.1, ih (by omega) marks.2 stop, Bool.true_or,
        decide_eq_true (Nat.succ_pos k), Bool.or_true]

/-- What a conversion prints is decided by its specifier. -/
lemma prints_of_convert {c : UInt8} {text : List UInt8} (small : k < 2 ^ 32)
    (plain : c ≠ '#'.toUInt8)
    (conversion : ∀ (s : Kernel) args esp convBuf, args esp = v →
      s.convert c (decide (0 < k)) args esp convBuf = some (s.puts text, esp + 1)) :
    Prints (List.replicate k '#'.toUInt8 ++ [c]) v text := by
  intro format args locals fuel s buf esp start spec arg
  rw [List.length_append, List.length_replicate, List.length_singleton] at spec ⊢
  rw [window_succ] at spec
  obtain ⟨marks, specifier⟩ := List.append_inj' spec rfl
  have at_specifier : format (buf + 1 + k) = c := (List.cons.inj specifier).1
  have switch : formatCharSwitch format (2 ^ 32) (buf + 1) false =
      some (buf + 1 + k, decide (0 < k)) := by
    rw [formatCharSwitch_marks small marks (at_specifier ▸ plain), Bool.false_or]
  rw [Kernel.printfFrom, start, if_neg (by decide), if_pos rfl, switch, Option.bind_some]
  simp only [at_specifier, conversion s args esp _ arg, Option.bind_some]
  rfl

/-- The conversions of `printf` that print a number. -/
inductive NumberFormat where
  | hex
  | padded
  | unsigned
  | signed
  deriving DecidableEq

/-- What stands behind the `%` of a conversion. -/
def NumberFormat.spec : NumberFormat → List UInt8
  | .hex => bytesOf ['x']
  | .padded => bytesOf ['#', 'x']
  | .unsigned => bytesOf ['u']
  | .signed => bytesOf ['d']

/-- What a conversion makes of a value. -/
def NumberFormat.text (v : BitVec 32) : NumberFormat → List UInt8
  | .hex => ascii.numeral 16 v.toNat
  | .padded => paddedText v
  | .unsigned => ascii.numeral 10 v.toNat
  | .signed => signedText v

/-- `printf` prints the text of a conversion. -/
lemma NumberFormat.prints (f : NumberFormat) (v : BitVec 32) : Prints f.spec v (f.text v) := by
  cases f with
  | hex =>
      refine prints_of_convert (k := 0) (c := 'x'.toUInt8) (by decide) (by decide) ?_
      rintro s args esp convBuf rfl
      rw [Kernel.convert, if_neg (by decide), if_pos rfl, Kernel.printHex,
        if_pos (by decide), itoa_puts (by decide) (by decide)]
      rfl
  | padded =>
      refine prints_of_convert (k := 1) (c := 'x'.toUInt8) (by decide) (by decide) ?_
      rintro s args esp convBuf rfl
      rw [Kernel.convert, if_neg (by decide), if_pos rfl]
      have pad := printHex_alternate s (args esp) convBuf
      exact congrArg (Option.map fun s => (s, esp + 1)) pad
  | unsigned =>
      refine prints_of_convert (k := 0) (c := 'u'.toUInt8) (by decide) (by decide) ?_
      rintro s args esp convBuf rfl
      rw [Kernel.convert, if_neg (by decide), if_neg (by decide), if_pos rfl, Kernel.printUnsigned,
        itoa_puts (by decide) (by decide)]
      rfl
  | signed =>
      refine prints_of_convert (k := 0) (c := 'd'.toUInt8) (by decide) (by decide) ?_
      rintro s args esp convBuf rfl
      rw [Kernel.convert, if_neg (by decide), if_neg (by decide), if_neg (by decide), if_pos rfl,
        printSigned_eq]
      rfl

/-- A format in pieces: characters that are printed as they are, and conversions, each with the
argument it takes. -/
inductive Piece where
  | char (c : UInt8)
  | number (f : NumberFormat) (v : BitVec 32)
  deriving DecidableEq

namespace Piece

/-- What a piece is in the format. -/
def format : Piece → List UInt8
  | char c => [c]
  | number f _ => '%'.toUInt8 :: f.spec

/-- The arguments a piece takes. -/
def args : Piece → List (BitVec 32)
  | char _ => []
  | number _ v => [v]

/-- What a piece prints. -/
def text : Piece → List UInt8
  | char c => [c]
  | number f v => f.text v

/-- A character that is no conversion and not the end. -/
def Plain : Piece → Prop
  | char c => c ≠ 0 ∧ c ≠ '%'.toUInt8
  | number _ _ => True

end Piece

/-- `printf` comes from one piece to the next. -/
lemma printfFrom_piece {piece : Piece} (plain : piece.Plain) {args : Nat → BitVec 32} {esp : Nat}
    (spelt : window fmt i piece.format.length = piece.format)
    (given : window args esp piece.args.length = piece.args) (locals : Nat → Nat → UInt8)
    (s : Kernel) :
    Kernel.printfFrom fmt args locals (fuel + 1) s i esp =
      Kernel.printfFrom fmt args locals fuel (s.puts piece.text) (i + piece.format.length)
        (esp + piece.args.length) := by
  cases piece with
  | char c =>
      have here : fmt i = c := (List.cons.inj spelt).1
      rw [Kernel.printfFrom, here, if_neg plain.1, if_neg plain.2]
      rfl
  | number f v =>
      rw [Piece.format, List.length_cons, window_cons, List.cons.injEq] at spelt
      have arg : args esp = v := (List.cons.inj given).1
      have place : i + (f.spec.length + 1) = i + 1 + f.spec.length := by omega
      rw [f.prints v fmt args locals fuel s i esp spelt.1 spelt.2 arg, Piece.format,
        List.length_cons, place]
      rfl

/-- The loop of `printf` prints the pieces of its format in order. -/
lemma printfFrom_pieces {ps : List Piece} (plain : ∀ piece ∈ ps, piece.Plain)
    {args : Nat → BitVec 32} {esp : Nat} (enough : ps.length < fuel)
    (spelt : window fmt i (ps.flatMap Piece.format).length = ps.flatMap Piece.format)
    (nul : fmt (i + (ps.flatMap Piece.format).length) = 0)
    (given : window args esp (ps.flatMap Piece.args).length = ps.flatMap Piece.args)
    (locals : Nat → Nat → UInt8) (s : Kernel) :
    Kernel.printfFrom fmt args locals fuel s i esp =
      some (s.puts (ps.flatMap Piece.text), i + (ps.flatMap Piece.format).length) := by
  induction ps generalizing fuel i esp s with
  | nil =>
      obtain ⟨fuel, rfl⟩ := Nat.exists_eq_add_of_lt enough
      rw [List.flatMap_nil, List.length_nil, Nat.add_zero] at nul
      rw [Kernel.printfFrom, if_pos nul]
      rfl
  | cons piece ps ih =>
      obtain ⟨fuel, rfl⟩ := Nat.exists_eq_add_of_lt enough
      obtain ⟨first, rest⟩ := List.forall_mem_cons.mp plain
      rw [List.flatMap_cons] at spelt given nul
      obtain ⟨spelt_first, spelt_rest⟩ := window_eq_append spelt
      obtain ⟨given_first, given_rest⟩ := window_eq_append given
      rw [List.length_append, ← Nat.add_assoc] at nul
      rw [printfFrom_piece first spelt_first given_first,
        ih rest (by rw [List.length_cons]; omega) spelt_rest nul given_rest, List.flatMap_cons,
        List.flatMap_cons, List.length_append, Nat.add_assoc, Kernel.puts, Kernel.puts, Kernel.puts,
        List.foldl_append]

/-- A format string is at least as long as it has pieces. -/
lemma length_le_format (ps : List Piece) : ps.length ≤ (ps.flatMap Piece.format).length := by
  induction ps with
  | nil => exact Nat.le_refl 0
  | cons piece ps ih =>
      have some_byte : 1 ≤ piece.format.length := by
        cases piece with
        | char c => exact Nat.le_refl 1
        | number f v => exact Nat.succ_le_succ (Nat.zero_le _)
      rw [List.flatMap_cons, List.length_append, List.length_cons]
      omega

/-- `printf` prints the texts of the pieces of its format, and returns the length of the format. -/
theorem printf_pieces {ps : List Piece} (plain : ∀ piece ∈ ps, piece.Plain)
    (holds : HoldsString fmt 0 (ps.flatMap Piece.format)) {args : Nat → BitVec 32}
    (given : window args 0 (ps.flatMap Piece.args).length = ps.flatMap Piece.args)
    (locals : Nat → Nat → UInt8) (s : Kernel) :
    s.printf fmt args locals =
      some (s.puts (ps.flatMap Piece.text), ((ps.flatMap Piece.format).length : Int)) := by
  have short := holds.short
  have enough : ps.length < 2 ^ 32 := by
    have each := length_le_format ps
    omega
  have length : int32 (ps.flatMap Piece.format).length
      = ((ps.flatMap Piece.format).length : Int) := by
    rw [int32, if_pos short]
  rw [Kernel.printf, printfFrom_pieces plain enough holds.bytes holds.nul given, Option.map_some,
    Nat.zero_add, length]

/-- A text without conversions is printed as it is. -/
theorem printf_text {text : List UInt8} (plain : ∀ c ∈ text, c ≠ '%'.toUInt8)
    (holds : HoldsString fmt 0 text) (args : Nat → BitVec 32) (locals : Nat → Nat → UInt8)
    (s : Kernel) : s.printf fmt args locals = some (s.puts text, (text.length : Int)) := by
  have chars (view : Piece → List UInt8) (one : ∀ c, view (.char c) = [c]) (l : List UInt8) :
      (l.map Piece.char).flatMap view = l := by
    rw [List.flatMap_map]
    simp only [one, List.flatMap_singleton']
  have no_args : (text.map Piece.char).flatMap Piece.args = [] := by
    rw [List.flatMap_map]
    exact List.flatMap_eq_nil_iff.mpr fun _ _ => rfl
  have pieces : ∀ piece ∈ text.map Piece.char, piece.Plain := by
    intro piece mem
    obtain ⟨c, hc, rfl⟩ := List.mem_map.mp mem
    exact ⟨holds.nonzero c hc, plain c hc⟩
  have start : HoldsString fmt 0 ((text.map Piece.char).flatMap Piece.format) := by
    rw [chars Piece.format fun _ => rfl]
    exact holds
  have given : window args 0 ((text.map Piece.char).flatMap Piece.args).length =
      (text.map Piece.char).flatMap Piece.args := by
    rw [no_args]
    rfl
  have run := printf_pieces pieces start given locals s
  rw [chars Piece.format fun _ => rfl, chars Piece.text fun _ => rfl] at run
  exact run

end Printf

end Kernel391
