import Kernel391.Base.Window
import Kernel391.Base.Numerals
import Kernel391.Model.Printf

/-!
# The string of a number

What `itoa` stores. It stores the digits of a number from the lowest to the highest and turns them
round in place, so that its string is the numeral of the number in the base.
-/

namespace Kernel391
open Base

section Buffers

variable {buf : Nat → UInt8} {p n : Nat} {text : List UInt8}

/-- A buffer holds a string at index `p`. -/
structure HoldsString (buf : Nat → UInt8) (p : Nat) (text : List UInt8) : Prop where
  bytes : window buf p text.length = text
  nul : buf (p + text.length) = 0
  nonzero : ∀ c ∈ text, c ≠ 0
  short : text.length < 2 ^ 31

/-- The length of a string in a buffer. -/
lemma HoldsString.strlen (h : HoldsString buf p text) :
    strlen (fun k => buf (p + k)) = some text.length := by
  have short := h.short
  refine strlen_eq h.nul (fun k hk => h.nonzero _ ?_) (by omega)
  rw [← h.bytes]
  exact mem_window hk

/-- `puts` prints the string. -/
lemma HoldsString.puts (h : HoldsString buf p text) (s : Kernel) :
    s.putsBuffer (fun k => buf (p + k)) = some (s.puts text) := by
  rw [Kernel.putsBuffer, h.strlen, Option.map_some]
  exact congrArg (fun text => some (s.puts text)) h.bytes

/-- A string in a buffer is printed. -/
lemma HoldsString.puts_start (h : HoldsString buf 0 text) (s : Kernel) :
    s.putsBuffer buf = some (s.puts text) := by
  have start : (fun k => buf (0 + k)) = buf := funext fun k => congrArg buf (Nat.zero_add k)
  rw [← h.puts, start]

/-- A NUL behind the bytes of a text makes it a string. -/
lemma HoldsString.terminate (bytes : window buf p text.length = text) (nonzero : ∀ c ∈ text, c ≠ 0)
    (short : text.length < 2 ^ 31) :
    HoldsString (Function.update buf (p + text.length) 0) p text where
  bytes := by
    have kept : window (Function.update buf (p + text.length) 0) p text.length =
        window buf p text.length :=
      window_congr fun k hk => Function.update_of_ne (by omega) _ _
    rw [kept, bytes]
  nul := Function.update_self ..
  nonzero := nonzero
  short := short

/-- A string with one character before it. -/
lemma HoldsString.cons {c : UInt8} (h : HoldsString buf (p + 1) text) (at_p : buf p = c)
    (ne : c ≠ 0) (room : text.length + 1 < 2 ^ 31) : HoldsString buf p (c :: text) where
  bytes := by rw [List.length_cons, window_cons, at_p, h.bytes]
  nul := by
    have place : p + (c :: text).length = p + 1 + text.length := by
      rw [List.length_cons]
      omega
    rw [place, h.nul]
  nonzero := List.forall_mem_cons.mpr ⟨ne, h.nonzero⟩
  short := room

/-- The same character before the string, any number of times. -/
lemma HoldsString.pad {c : UInt8} {k : Nat} (h : HoldsString buf (p + k) text)
    (filled : ∀ q, p ≤ q → q < p + k → buf q = c) (ne : c ≠ 0) (room : text.length + k < 2 ^ 31) :
    HoldsString buf p (List.replicate k c ++ text) := by
  induction k generalizing p with
  | zero => exact h
  | succ k ih =>
      have place : p + (k + 1) = p + 1 + k := by omega
      rw [place] at h
      have tail := ih h (fun q low high => filled q (by omega) (by omega)) (by omega)
      refine tail.cons (filled p (Nat.le_refl p) (by omega)) ne ?_
      rw [List.length_append, List.length_replicate]
      omega

/-- A string depends on its own bytes only. -/
lemma HoldsString.congr {buf' : Nat → UInt8} (h : HoldsString buf p text)
    (same : ∀ q, p ≤ q → buf' q = buf q) : HoldsString buf' p text where
  bytes := by rw [window_congr fun k _ => same (p + k) (by omega), h.bytes]
  nul := by rw [same _ (by omega), h.nul]
  nonzero := h.nonzero
  short := h.short

end Buffers

section Strrev

variable {buf buf' : Nat → UInt8} {p n : Nat} {text : List UInt8}

/-- The index of the byte that comes to index `q` when the `n` bytes from `p` on are reversed. -/
def mirror (p n q : Nat) : Nat := if p ≤ q ∧ q < p + n then 2 * p + n - 1 - q else q

/-- In the loop of `strrev` the bytes before `beg` and behind the end have changed places. -/
structure Reversal.Upto (buf : Nat → UInt8) (p n : Nat) (x : Reversal) : Prop where
  low : 0 ≤ x.beg
  sum : x.beg + x.last = (n : Int) - 1
  swapped (q : Nat) (hq : (q : Int) < p + x.beg ∨ p + x.last < q) : x.s q = buf (mirror p n q)
  rest (q : Nat) (hq : p + x.beg ≤ (q : Int) ∧ (q : Int) ≤ p + x.last) : x.s q = buf q

/-- A pass of `strrev` swaps one pair more. -/
lemma Reversal.Upto.pass {x : Reversal} (h : x.Upto buf p n) (go : x.beg < x.last) :
    (x.pass p).Upto buf p n := by
  obtain ⟨low, sum, swapped, rest⟩ := h
  have pass_beg : (x.pass p).beg = x.beg + 1 := rfl
  have pass_last : (x.pass p).last = x.last - 1 := rfl
  have pass_s (q : Nat) : (x.pass p).s q =
      if q = p + x.beg.toNat then buf (p + x.last.toNat)
      else if q = p + x.last.toNat then buf (p + x.beg.toNat) else x.s q := by
    rw [← rest (p + x.last.toNat) (by omega), ← rest (p + x.beg.toNat) (by omega)]
    simp only [Reversal.pass, Function.update_apply]
  refine ⟨by omega, by omega, fun q hq => ?_, fun q hq => ?_⟩
  · rw [pass_beg, pass_last] at hq
    rw [pass_s]
    split_ifs with first last
    · rw [mirror, if_pos (by omega)]
      congr 1
      omega
    · rw [mirror, if_pos (by omega)]
      congr 1
      omega
    · exact swapped q (by omega)
  · rw [pass_beg, pass_last] at hq
    rw [pass_s, if_neg (by omega), if_neg (by omega)]
    exact rest q (by omega)

/-- The index of the last character. -/
lemma int32_pred (short : n < 2 ^ 31) : int32 (sub32 n 1) = (n : Int) - 1 := by
  rw [int32, sub32]
  split_ifs <;> omega

/-- The variables of the loop at its start. -/
lemma Reversal.upto_start : (⟨buf, 0, (n : Int) - 1⟩ : Reversal).Upto buf p n where
  low := Int.le_refl 0
  sum := Int.zero_add _
  swapped q hq := by
    rw [mirror, if_neg]
    rintro ⟨low, high⟩
    rcases hq with before | behind
    · exact absurd before (by simp [low])
    · simp only [] at behind
      omega
  rest _ _ := rfl

/-- `strrev` of a string reverses its bytes and leaves all others alone. -/
lemma strrev_mirror (h : HoldsString buf p text) :
    strrev buf p = some fun q => buf (mirror p text.length q) := by
  have short := h.short
  have pass (x : Reversal) (upto : x.Upto buf p text.length) (go : decide (x.beg < x.last) = true) :
      ∃ x', some (x.pass p) = some x' ∧ x'.Upto buf p text.length ∧
        (x'.last + 1 - x'.beg).toNat < (x.last + 1 - x.beg).toNat := by
    have lt := of_decide_eq_true go
    have pass_beg : (x.pass p).beg = x.beg + 1 := rfl
    have pass_last : (x.pass p).last = x.last - 1 := rfl
    exact ⟨x.pass p, rfl, upto.pass lt, by omega⟩
  have enough : ((text.length : Int) - 1 + 1 - 0).toNat ≤ 2 ^ 32 := by omega
  obtain ⟨x, loop, upto, stop⟩ := whileLoop_total (Reversal.Upto buf p text.length)
    (fun x => (x.last + 1 - x.beg).toNat) pass Reversal.upto_start enough
  obtain ⟨low, sum, swapped, rest⟩ := upto
  have crossed : ¬ x.beg < x.last := of_decide_eq_false stop
  rw [strrev, h.strlen, Option.bind_some, int32_pred short, loop, Option.map_some, Option.some_inj]
  funext q
  by_cases outside : (q : Int) < p + x.beg ∨ p + x.last < q
  · exact swapped q outside
  · -- the byte in the middle is its own mirror image
    rw [rest q (by omega), mirror, if_pos (by omega)]
    congr 1
    omega

/-- `strrev` reverses a string. -/
lemma strrev_spec (h : HoldsString buf p text) :
    ∃ buf', strrev buf p = some buf' ∧ HoldsString buf' p text.reverse ∧
      ∀ q, q < p ∨ p + text.length ≤ q → buf' q = buf q := by
  refine ⟨_, strrev_mirror h, ⟨?_, ?_, fun c hc => h.nonzero c (List.mem_reverse.mp hc), ?_⟩, ?_⟩
  · rw [List.length_reverse]
    conv_rhs => rw [← h.bytes]
    apply List.ext_getElem
    · rw [length_window, List.length_reverse, length_window]
    · intro k hk _
      rw [length_window] at hk
      rw [getElem_window, List.getElem_reverse, getElem_window, length_window]
      rw [mirror, if_pos (by omega)]
      congr 1
      omega
  · rw [List.length_reverse, mirror, if_neg (by omega)]
    exact h.nul
  · rw [List.length_reverse]
    exact h.short
  · intro q outside
    rw [mirror, if_neg (by omega)]

end Strrev

section Itoa

variable {buf : Nat → UInt8} {p v d : Nat} {ws : List Nat} {value radix : BitVec 32}

/-- The digit a character stands for: `0` to `9`, and from ten on `A` to `Z`. -/
def digitValue (c : UInt8) : Option Nat :=
  if '0'.toUInt8 ≤ c ∧ c ≤ '9'.toUInt8 then some (c - '0'.toUInt8).toNat
  else if 'A'.toUInt8 ≤ c ∧ c ≤ 'Z'.toUInt8 then some ((c - 'A'.toUInt8).toNat + 10)
  else none

/-- The characters of `lookup`. -/
def ascii : Alphabet UInt8 36 where
  char d := lookup.getD d 0
  value := digitValue
  value_char := by decide

/-- The table of `itoa` spells digits in ASCII. -/
lemma lookup_digit (hd : d < 36) : lookup[d]? = some (ascii.char d) := by
  have inside : d < lookup.length := Nat.lt_trans hd (by decide)
  rw [List.getElem?_eq_getElem inside, ascii]
  exact congrArg some (List.getD_eq_getElem lookup 0 inside).symm

/-- No digit is spelt as NUL. -/
lemma ascii_char_ne_zero (hd : d < 36) : ascii.char d ≠ 0 := by
  intro zero
  have value := ascii.value_char d hd
  rw [zero] at value
  cases value

/-- In the loop of `itoa` the digits `ws` are stored, and those of `newval` are left. -/
structure Conversion.Stored (buf : Nat → UInt8) (p radix v : Nat) (ws : List Nat) (x : Conversion) :
    Prop where
  digits : Nat.digits radix v = ws ++ Nat.digits radix x.newval.toNat
  place : x.newbuf = p + ws.length
  bytes : window x.buf p ws.length = ws.map ascii.char
  others (q : Nat) (hq : q < p ∨ x.newbuf ≤ q) : x.buf q = buf q

/-- A pass of `itoa` stores one digit more. -/
lemma Conversion.Stored.pass {x : Conversion} (h : x.Stored buf p radix.toNat v ws)
    (two : 2 ≤ radix.toNat) (fits : radix.toNat ≤ 36) (go : 0 < x.newval) :
    ∃ x', x.pass radix = some x' ∧
      x'.Stored buf p radix.toNat v (ws ++ [x.newval.toNat % radix.toNat]) ∧
      x'.newval.toNat < x.newval.toNat := by
  obtain ⟨digits, place, bytes, others⟩ := h
  have pos : 0 < x.newval.toNat := BitVec.lt_def.mp go
  have nonzero : radix ≠ 0 := by
    rintro rfl
    exact absurd two (by decide)
  have small : x.newval.toNat % radix.toNat < 36 :=
    Nat.lt_of_lt_of_le (Nat.mod_lt _ (by omega)) fits
  have digit : lookup[(x.newval % radix).toNat]? =
      some (ascii.char (x.newval.toNat % radix.toNat)) := by
    rw [BitVec.toNat_umod]
    exact lookup_digit small
  have left : (x.newval / radix).toNat = x.newval.toNat / radix.toNat := BitVec.toNat_udiv
  rw [Conversion.pass, if_neg nonzero, digit, Option.map_some]
  refine ⟨_, rfl, ⟨?_, ?_, ?_, fun q hq => ?_⟩, ?_⟩
  · rw [digits, Nat.digits_def' (by omega) pos, List.append_assoc, left]
    rfl
  · rw [List.length_append, place]
    rfl
  · have kept (c : UInt8) : window (Function.update x.buf x.newbuf c) p ws.length =
        window x.buf p ws.length :=
      window_congr fun k hk => Function.update_of_ne (by omega) _ _
    simp only [List.length_append, List.length_singleton, window_succ, kept, bytes, ← place,
      Function.update_self, List.map_append, List.map_singleton]
  · simp only [] at hq ⊢
    rw [Function.update_of_ne (by omega)]
    exact others q (by omega)
  · rw [left]
    exact Nat.div_lt_self pos two

/-- The numeral of a 32-bit value has at most 32 digits. -/
lemma length_numeral_32 {r : Nat} (two : 2 ≤ r) (value : BitVec 32) :
    (ascii.numeral r value.toNat).length ≤ 32 :=
  Alphabet.length_numeral_le two (by decide)
    (Nat.lt_of_lt_of_le value.isLt (Nat.pow_le_pow_left two 32))

/-- The loop of `itoa` stores all digits of the value. -/
lemma itoa_loop (two : 2 ≤ radix.toNat) (fits : radix.toNat ≤ 36) (value : BitVec 32)
    (buf : Nat → UInt8) (p : Nat) :
    ∃ x : Conversion,
      whileLoop (fun x => decide (0 < x.newval)) (Conversion.pass radix) (2 ^ 32) ⟨buf, p, value⟩ =
        some x ∧
      x.Stored buf p radix.toNat value.toNat (Nat.digits radix.toNat value.toNat) := by
  have start : (⟨buf, p, value⟩ : Conversion).Stored buf p radix.toNat value.toNat [] :=
    ⟨rfl, rfl, rfl, fun q _ => rfl⟩
  have pass (x : Conversion) (inv : ∃ ws, x.Stored buf p radix.toNat value.toNat ws)
      (go : decide (0 < x.newval) = true) :
      ∃ x', x.pass radix = some x' ∧ (∃ ws, x'.Stored buf p radix.toNat value.toNat ws) ∧
        x'.newval.toNat < x.newval.toNat := by
    obtain ⟨ws, stored⟩ := inv
    obtain ⟨x', step, stored', less⟩ := stored.pass two fits (of_decide_eq_true go)
    exact ⟨x', step, ⟨_, stored'⟩, less⟩
  have enough : value.toNat ≤ 2 ^ 32 := Nat.le_of_lt value.isLt
  obtain ⟨x, loop, ⟨ws, stored⟩, stop⟩ := whileLoop_total
    (fun x => ∃ ws, Conversion.Stored buf p radix.toNat value.toNat ws x)
    (fun x : Conversion => x.newval.toNat) pass ⟨[], start⟩ enough
  have done : x.newval.toNat = 0 := by
    have not_pos : ¬ 0 < x.newval := of_decide_eq_false stop
    rw [BitVec.lt_def] at not_pos
    exact Nat.eq_zero_of_not_pos not_pos
  have all : ws = Nat.digits radix.toNat value.toNat := by
    rw [stored.digits, done, Nat.digits_zero, List.append_nil]
  exact ⟨x, loop, all ▸ stored⟩

/-- `itoa` stores the numeral of the value in the base, within 33 bytes. -/
lemma itoa_spec (radix : BitVec 32) (two : 2 ≤ radix.toNat) (fits : radix.toNat ≤ 36)
    (value : BitVec 32) (buf : Nat → UInt8) (p : Nat) :
    ∃ buf', itoa value buf p radix = some buf' ∧
      HoldsString buf' p (ascii.numeral radix.toNat value.toNat) ∧
      ∀ q, q < p ∨ p + 33 ≤ q → buf' q = buf q := by
  have nonzero : ∀ c ∈ ascii.numeral radix.toNat value.toNat, c ≠ 0 := by
    intro c hc
    obtain ⟨d, hd, rfl⟩ := Alphabet.mem_numeral two hc
    exact ascii_char_ne_zero (Nat.lt_of_lt_of_le hd fits)
  have length := length_numeral_32 two value
  by_cases zero : value = 0
  · rw [zero] at nonzero length ⊢
    rw [itoa, if_pos rfl]
    have bytes : window (Function.update buf p '0'.toUInt8) p 1 = ['0'.toUInt8] := by
      rw [window_succ, Nat.add_zero, Function.update_self]
      rfl
    refine ⟨_, rfl, HoldsString.terminate bytes nonzero (by omega), ?_⟩
    intro q hq
    rw [Function.update_of_ne (by omega), Function.update_of_ne (by omega)]
  · obtain ⟨x, loop, digits, place, bytes, others⟩ := itoa_loop two fits value buf p
    have ne : value.toNat ≠ 0 := fun h => zero (BitVec.eq_of_toNat_eq h)
    have turned : ((Nat.digits radix.toNat value.toNat).map ascii.char).reverse =
        ascii.numeral radix.toNat value.toNat := by
      rw [Alphabet.numeral, if_neg ne]
      rfl
    have stored : HoldsString (Function.update x.buf x.newbuf 0) p
        ((Nat.digits radix.toNat value.toNat).map ascii.char) := by
      rw [← turned, List.length_reverse] at length
      rw [← List.length_map (f := ascii.char)] at bytes place
      have h := HoldsString.terminate bytes
        (fun c hc => nonzero c (turned ▸ List.mem_reverse.mpr hc)) (by omega)
      rw [← place] at h
      exact h
    obtain ⟨buf', reversed, holds, outside⟩ := strrev_spec stored
    rw [turned] at holds
    rw [← turned, List.length_reverse, List.length_map] at length
    rw [List.length_map] at outside
    rw [itoa, if_neg zero, loop, Option.bind_some]
    refine ⟨buf', reversed, holds, fun q hq => ?_⟩
    rw [outside q (by omega), Function.update_of_ne (by omega)]
    exact others q (by omega)

end Itoa

end Kernel391
