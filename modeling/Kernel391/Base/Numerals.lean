import Mathlib.Tactic.Lemma
import Mathlib.Tactic.Common
import Mathlib.Data.Nat.Digits.Lemmas

/-!
# Numerals

An alphabet has a character for each digit and says which digit a character stands for. A text is
read in a base by its digits, the highest first; the numeral of a number is the text of its digits
without leading zeros, and reads back as the number.
-/

namespace Kernel391.Base

/-- Characters for the digits below `size`. -/
structure Alphabet (α : Type*) (size : Nat) where
  char : Nat → α
  value : α → Option Nat
  value_char : ∀ d < size, value (char d) = some d

namespace Alphabet

variable {α : Type*} {size : Nat} (A : Alphabet α size)

/-- Read on from a number that the digits before came to. -/
def readFrom (radix : Nat) : (n : Nat) → List α → Option Nat
  | n, [] => some n
  | n, c :: cs =>
    (A.value c).bind fun d => if d < radix then readFrom radix (n * radix + d) cs else none

/-- The number a text stands for, if it consists of digits of the base. -/
def read (radix : Nat) (text : List α) : Option Nat :=
  if text.isEmpty then none else A.readFrom radix 0 text

/-- The characters of digits given from the lowest to the highest. -/
def spell (ds : List Nat) : List α := (ds.map A.char).reverse

/-- The numeral of a number. -/
def numeral (radix n : Nat) : List α :=
  if n = 0 then [A.char 0] else A.spell (Nat.digits radix n)

variable {A} {radix n k : Nat} {ds : List Nat} {text : List α}

/-- A numeral consists of digits of its base. -/
lemma mem_numeral {c : α} (two : 2 ≤ radix) (hc : c ∈ A.numeral radix n) :
    ∃ d < radix, c = A.char d := by
  rw [numeral] at hc
  split_ifs at hc with zero
  · exact ⟨0, by omega, List.mem_singleton.mp hc⟩
  · obtain ⟨d, hd, rfl⟩ := List.mem_map.mp (List.mem_reverse.mp hc)
    exact ⟨d, Nat.digits_lt_base two hd, rfl⟩

/-- A number below the `k`-th power of the radix has at most `k` digits. -/
lemma length_numeral_le (two : 2 ≤ radix) (pos : 0 < k) (lt : n < radix ^ k) :
    (A.numeral radix n).length ≤ k := by
  rw [numeral]
  split_ifs with zero
  · exact pos
  · rw [spell, List.length_reverse, List.length_map]
    exact (Nat.digits_length_le_iff two n).mpr lt

end Alphabet

end Kernel391.Base
