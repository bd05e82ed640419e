import Kernel391.Base.Bytes
import Mathlib.Data.List.GetD
import Mathlib.Data.List.TakeWhile

/-!
# C strings

The string functions of `lib.c`. A string in memory is the function `src` giving the byte at each
offset from its start; its terminator is looked for in the whole 32-bit address space, and `none`
means that there is none, so that the loop of the source never ends. A string the caller passes as
an argument is the list of its bytes without the terminator.
-/

namespace Kernel391

/-- The bytes of a character literal string. -/
def bytesOf (s : List Char) : List UInt8 := s.map fun c => UInt8.ofNat c.toNat

/-- A list of bytes as a NUL-terminated string in memory. -/
def cstring (l : List UInt8) : Nat → UInt8 := fun i => l.getD i 0

/-- The bytes of `l` up to its first NUL. -/
def upToNul (l : List UInt8) : List UInt8 := l.takeWhile (· ≠ 0)

/-- The loop of `strlen` from offset `len` on. -/
def strlenFrom (src : Nat → UInt8) : (fuel len : Nat) → Option Nat
  | 0, _ => none
  | fuel + 1, len => if src len = 0 then some len else strlenFrom src fuel (len + 1)

/-- `strlen` of `lib.c`. -/
def strlen (src : Nat → UInt8) : Option Nat := strlenFrom src (2 ^ 32) 0

section Strlen

variable {src src' : Nat → UInt8} {z n : Nat}

/-- The loop of `strlen` stops at the first NUL. -/
lemma strlenFrom_spec {fuel len : Nat} (h : strlenFrom src fuel len = some n) :
    src n = 0 ∧ ∀ k, len ≤ k → k < n → src k ≠ 0 := by
  induction fuel generalizing len with
  | zero => cases h
  | succ fuel ih =>
      rw [strlenFrom] at h
      split_ifs at h with hz
      · obtain rfl := Option.some.inj h
        exact ⟨hz, fun k low high => absurd high (Nat.not_lt.mpr low)⟩
      · obtain ⟨zero, before⟩ := ih h
        refine ⟨zero, fun k low high => ?_⟩
        rcases Nat.eq_or_lt_of_le low with rfl | lt
        · exact hz
        · exact before k lt high

/-- The length of a string is the offset of its first NUL. -/
lemma strlen_spec (h : strlen src = some n) : src n = 0 ∧ ∀ k < n, src k ≠ 0 := by
  rw [strlen] at h
  obtain ⟨zero, before⟩ := strlenFrom_spec h
  exact ⟨zero, fun k hk => before k (Nat.zero_le k) hk⟩

/-- The loop of `strlen` stops at a NUL at the latest. -/
lemma strlenFrom_of_nul (zero : src z = 0) {fuel len : Nat} (le : len ≤ z) (room : z < len + fuel) :
    ∃ n ≤ z, strlenFrom src fuel len = some n := by
  induction fuel generalizing len with
  | zero => omega
  | succ fuel ih =>
      rw [strlenFrom]
      split_ifs with hz
      · exact ⟨len, le, rfl⟩
      · have ne : len ≠ z := by
          rintro rfl
          exact hz zero
        exact ih (by omega) (by omega)

/-- A string with a NUL in the address space has a length. -/
lemma strlen_of_nul (zero : src z = 0) (hz : z < 2 ^ 32) : ∃ n ≤ z, strlen src = some n := by
  rw [strlen]
  exact strlenFrom_of_nul zero (Nat.zero_le z) (by omega)

/-- The loop of `strlen` stays within its passes. -/
lemma strlenFrom_lt {fuel len : Nat} (h : strlenFrom src fuel len = some n) : n < len + fuel := by
  induction fuel generalizing len with
  | zero => cases h
  | succ fuel ih =>
      rw [strlenFrom] at h
      split_ifs at h
      · obtain rfl := Option.some.inj h
        omega
      · have lt := ih h
        omega

/-- Only such a string has a length. -/
lemma strlen_eq_none : strlen src = none ↔ ∀ z < 2 ^ 32, src z ≠ 0 := by
  constructor
  · intro none z hz zero
    obtain ⟨n, -, e⟩ := strlen_of_nul zero hz
    cases none.symm.trans e
  · intro nonzero
    cases h : strlen src with
    | none => rfl
    | some n =>
        have lt := strlenFrom_lt h
        exact absurd (strlen_spec h).1 (nonzero n (by omega))

/-- The loop of `strlen` looks at the string and its NUL only. -/
lemma strlenFrom_congr (same : ∀ k ≤ z, src' k = src k) (zero : src z = 0) {fuel len : Nat}
    (le : len ≤ z) : strlenFrom src' fuel len = strlenFrom src fuel len := by
  induction fuel generalizing len with
  | zero => rfl
  | succ fuel ih =>
      rw [strlenFrom, strlenFrom, same len le]
      split_ifs with hz
      · rfl
      · have ne : len ≠ z := by
          rintro rfl
          exact hz zero
        exact ih (by omega)

/-- Nothing after a NUL matters to `strlen`. -/
lemma strlen_congr (same : ∀ k ≤ z, src' k = src k) (zero : src z = 0) :
    strlen src' = strlen src := by
  rw [strlen, strlen]
  exact strlenFrom_congr same zero (Nat.zero_le z)

/-- A string whose first NUL is at `n` has length `n`. -/
lemma strlen_eq (zero : src n = 0) (before : ∀ k < n, src k ≠ 0) (hn : n < 2 ^ 32) :
    strlen src = some n := by
  obtain ⟨n', le, e⟩ := strlen_of_nul zero hn
  have same : n' = n := by
    by_contra ne
    exact before n' (by omega) (strlen_spec e).1
  rw [e, same]

end Strlen

/-- A string holds no NUL. -/
lemma upToNul_nonzero (l : List UInt8) : ∀ b ∈ upToNul l, b ≠ 0 := by
  intro b hb
  have go := List.mem_takeWhile_imp hb
  exact of_decide_eq_true go

/-- A name without NULs is a string of its own. -/
lemma upToNul_of_nonzero {l : List UInt8} (h : ∀ b ∈ l, b ≠ 0) : upToNul l = l :=
  List.takeWhile_eq_self_iff.mpr fun b hb => decide_eq_true (h b hb)

/-- A string and its NUL. -/
lemma upToNul_terminated {l : List UInt8} (h : ∀ b ∈ l, b ≠ 0) : upToNul (l ++ [0]) = l := by
  rw [upToNul, List.takeWhile_append_of_pos fun b hb => decide_eq_true (h b hb)]
  exact List.append_nil l

/-- The string in a field of `n` bytes, which may have no terminator of its own. -/
lemma upToNul_range' (src : Nat → UInt8) (n i : Nat) :
    ∃ l ≤ n, upToNul ((List.range' i n).map src) = (List.range' i l).map src ∧
      (∀ k, i ≤ k → k < i + l → src k ≠ 0) ∧ (l < n → src (i + l) = 0) := by
  induction n generalizing i with
  | zero => exact ⟨0, Nat.le_refl 0, rfl, fun k low high => by omega, fun h => by omega⟩
  | succ n ih =>
      rw [List.range'_succ, List.map_cons, upToNul]
      by_cases hz : src i = 0
      · rw [List.takeWhile_cons_of_neg (by rw [hz]; decide)]
        exact ⟨0, Nat.zero_le _, rfl, fun k low high => by omega, fun _ => hz⟩
      · have keep : (decide (src i ≠ 0)) = true := decide_eq_true hz
        rw [List.takeWhile_cons_of_pos (p := fun x => decide (x ≠ 0)) keep]
        obtain ⟨l, le, e, nonzero, zero⟩ := ih (i + 1)
        refine ⟨l + 1, by omega, ?_, fun k low high => ?_, fun h => ?_⟩
        · rw [List.range'_succ, List.map_cons, ← e, upToNul]
        · rcases Nat.eq_or_lt_of_le low with rfl | lt
          · exact hz
          · exact nonzero k lt (by omega)
        · have place : i + (l + 1) = i + 1 + l := by omega
          rw [place]
          exact zero (by omega)

/-- The bytes `strcpy` of `lib.c` stores at its destination, the terminator included. -/
def strcpy (src : Nat → UInt8) : Option (List UInt8) :=
  (strlen src).map fun n => (List.range n).map src ++ [0]

/-- `strcpy` looks at the string and its NUL only. -/
lemma strcpy_congr {src src' : Nat → UInt8} {z : Nat} (same : ∀ k ≤ z, src' k = src k)
    (zero : src z = 0) (hz : z < 2 ^ 32) : strcpy src' = strcpy src := by
  obtain ⟨n, le, e⟩ := strlen_of_nul zero hz
  rw [strcpy, strcpy, strlen_congr same zero, e, Option.map_some, Option.map_some]
  congr 2
  apply List.map_congr_left
  intro k hk
  have lt := List.mem_range.mp hk
  exact same k (by omega)

/-- The loop of `strncmp` at offset `i`, with `n` bytes left to compare; characters are signed. -/
def strncmpFrom (s1 s2 : Nat → UInt8) : (n i : Nat) → Int
  | 0, _ => 0
  | n + 1, i =>
    if s1 i ≠ s2 i ∨ s1 i = 0 then (s1 i).toInt8.toInt - (s2 i).toInt8.toInt
    else strncmpFrom s1 s2 n (i + 1)

/-- `strncmp` of `lib.c`. -/
def strncmp (s1 s2 : Nat → UInt8) (n : Nat) : Int := strncmpFrom s1 s2 n 0

/-- `strncmp` looks at `n` bytes at most. -/
lemma strncmp_congr {s1 s2 s2' : Nat → UInt8} {n : Nat} (same : ∀ k < n, s2' k = s2 k) :
    strncmp s1 s2' n = strncmp s1 s2 n := by
  have loop (m i : Nat) (hi : i + m ≤ n) : strncmpFrom s1 s2' m i = strncmpFrom s1 s2 m i := by
    induction m generalizing i with
    | zero => rfl
    | succ m ih => rw [strncmpFrom, strncmpFrom, same i (by omega), ih (i + 1) (by omega)]
  rw [strncmp, strncmp]
  exact loop n 0 (by omega)

/-- The loop of `strncmp` finds no difference exactly when there is none. -/
lemma strncmpFrom_eq_zero {s1 s2 : Nat → UInt8} {n i : Nat}
    (nonzero : ∀ k, i ≤ k → k < i + n → s1 k ≠ 0) :
    strncmpFrom s1 s2 n i = 0 ↔ ∀ k, i ≤ k → k < i + n → s1 k = s2 k := by
  induction n generalizing i with
  | zero => exact ⟨fun _ k low high => by omega, fun _ => rfl⟩
  | succ n ih =>
      have here : s1 i ≠ 0 := nonzero i (Nat.le_refl i) (by omega)
      rw [strncmpFrom]
      by_cases same : s1 i = s2 i
      · have go : ¬ (s1 i ≠ s2 i ∨ s1 i = 0) := by
          rintro (h | h)
          · exact h same
          · exact here h
        rw [if_neg go, ih fun k low high => nonzero k (by omega) (by omega)]
        constructor
        · intro h k low high
          rcases Nat.eq_or_lt_of_le low with rfl | lt
          · exact same
          · exact h k lt (by omega)
        · intro h k low high
          exact h k (by omega) (by omega)
      · rw [if_pos (.inl same)]
        constructor
        · intro h
          have bytes : (s1 i).toInt8.toInt = (s2 i).toInt8.toInt := by omega
          have bytes : (s1 i).toInt8 = (s2 i).toInt8 := Int8.toInt_inj.mp bytes
          exact absurd (congrArg Int8.toUInt8 bytes) same
        · intro h
          exact absurd (h i (Nat.le_refl i) (by omega)) same

/-- `strncmp` of two strings that do not end before `n` bytes compares those. -/
lemma strncmp_eq_zero {s1 s2 : Nat → UInt8} {n : Nat} (nonzero : ∀ k < n, s1 k ≠ 0) :
    strncmp s1 s2 n = 0 ↔ ∀ k < n, s1 k = s2 k := by
  rw [strncmp, strncmpFrom_eq_zero fun k _ high => nonzero k (by omega)]
  exact ⟨fun h k hk => h k (Nat.zero_le k) (by omega), fun h k _ high => h k (by omega)⟩

/-- The bytes `strncpy` of `lib.c` stores: `n` of them are left to store, the next one is at offset
`i`; once the source's NUL is met the rest is filled with NULs. -/
def strncpyFrom (src : Nat → UInt8) : (n i : Nat) → List UInt8
  | 0, _ => []
  | n + 1, i => if src i = 0 then List.replicate (n + 1) 0 else src i :: strncpyFrom src n (i + 1)

/-- The bytes `strncpy` of `lib.c` stores at its destination. -/
def strncpy (src : Nat → UInt8) (n : Nat) : List UInt8 := strncpyFrom src n 0

/-- `strncpy` writes `n` bytes. -/
@[simp] lemma length_strncpyFrom (src : Nat → UInt8) (n i : Nat) :
    (strncpyFrom src n i).length = n := by
  induction n generalizing i with
  | zero => rfl
  | succ n ih =>
    rw [strncpyFrom]
    split
    · exact List.length_replicate
    · rw [List.length_cons, ih]

/-- `strncpy` stores exactly as many bytes as it is asked to. -/
@[simp] lemma length_strncpy (src : Nat → UInt8) (n : Nat) : (strncpy src n).length = n :=
  length_strncpyFrom src n 0

/-- A byte of the source with no NUL before it is copied. -/
lemma strncpyFrom_copied {src : Nat → UInt8} {n i k : Nat} (nonzero : ∀ j ≤ k, src (i + j) ≠ 0)
    (hk : k < n) : (strncpyFrom src n i).getD k 0 = src (i + k) := by
  induction n generalizing i k with
  | zero => omega
  | succ n ih =>
      have here : src i ≠ 0 := nonzero 0 (Nat.zero_le k)
      rw [strncpyFrom, if_neg here]
      cases k with
      | zero => rfl
      | succ k =>
          rw [List.getD_cons_succ, ih (fun j hj => ?_) (by omega)]
          · congr 1
            omega
          · have shift : i + 1 + j = i + (j + 1) := by omega
            rw [shift]
            exact nonzero (j + 1) (by omega)

/-- From the source's NUL on there are NULs. -/
lemma strncpyFrom_padded {src : Nat → UInt8} {n i j k : Nat} (zero : src (i + j) = 0) (hj : j ≤ k) :
    (strncpyFrom src n i).getD k 0 = 0 := by
  induction n generalizing i j k with
  | zero => rfl
  | succ n ih =>
      rw [strncpyFrom]
      split_ifs with here
      · rw [List.getD_eq_getElem?_getD, List.getElem?_getD_replicate_default_eq]
      · cases j with
        | zero => exact absurd zero here
        | succ j =>
            obtain ⟨k, rfl⟩ : ∃ k', k = k' + 1 := ⟨k - 1, by omega⟩
            have shift : i + 1 + j = i + (j + 1) := by omega
            rw [List.getD_cons_succ]
            exact ih (by rw [shift]; exact zero) (by omega)

/-- `strncpy` copies up to the NUL. -/
lemma strncpy_copied {src : Nat → UInt8} {n k : Nat} (nonzero : ∀ j ≤ k, src j ≠ 0) (hk : k < n) :
    (strncpy src n).getD k 0 = src k := by
  rw [strncpy, strncpyFrom_copied (fun j hj => ?_) hk, Nat.zero_add]
  rw [Nat.zero_add]
  exact nonzero j hj

/-- `strncpy` pads with NULs. -/
lemma strncpy_padded {src : Nat → UInt8} {n j k : Nat} (zero : src j = 0) (hj : j ≤ k) :
    (strncpy src n).getD k 0 = 0 :=
  strncpyFrom_padded (by rw [Nat.zero_add]; exact zero) hj

/-- A copy of a string without NULs of its own is the string, padded. -/
lemma strncpy_cstring {a : List UInt8} {n k : Nat} (nonzero : ∀ b ∈ a, b ≠ 0) (hk : k < n) :
    (strncpy (cstring a) n).getD k 0 = a.getD k 0 := by
  rcases Nat.lt_or_ge k a.length with inside | beyond
  · apply strncpy_copied (fun j hj => ?_) hk
    rw [cstring, List.getD_eq_getElem a 0 (by omega)]
    exact nonzero _ (List.getElem_mem _)
  · have zero : cstring a a.length = 0 := List.getD_eq_default _ _ (Nat.le_refl _)
    rw [strncpy_padded zero beyond, List.getD_eq_default _ _ beyond]

end Kernel391
