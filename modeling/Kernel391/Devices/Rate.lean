import Mathlib.Data.Nat.Log
import Kernel391.Model.Rtc

/-!
# The rate for a frequency

What `getRate` returns, and whether it returns. Its loop halves the frequency until it is 2, so it
looks for the two highest bits of the frequency to be `10`; the bits below them it drops. A power of
two gets its rate. Another frequency in range with these two bits gets the rate of the power of two
below it, and for one with the bits `11` the loop goes past 2 to 0, where it stays.
-/

namespace Kernel391
open Base

/-- `getRate` returns `r` for `freq`. -/
def GetsRate (freq : BitVec 32) (r : Int) : Prop := ∃ passes, getRate passes freq = some r

/-- A frequency is a power of two. -/
def IsPowerOfTwo (freq : BitVec 32) : Prop := ∃ k : Nat, freq.toInt = 2 ^ k

/-- `getRate` is right for a frequency: it returns, -1 for a frequency that has no rate, and else
the rate at which the clock has the frequency. -/
structure RateExact (freq : BitVec 32) : Prop where
  returns : ∃ r, GetsRate freq r
  outside : freq.toInt < 2 ∨ 1024 < freq.toInt → GetsRate freq (-1)
  noPower : ¬ IsPowerOfTwo freq → GetsRate freq (-1)
  rate : 2 ≤ freq.toInt → freq.toInt ≤ 1024 → IsPowerOfTwo freq →
    ∃ r, GetsRate freq r ∧ 1 ≤ r ∧ ((32768 >>> (r - 1).toNat : Nat) : Int) = freq.toInt

section Halving

variable {n k : Nat} {r r' : Int} {freq : BitVec 32}

/-- The first of `k + 1` halvings. -/
lemma halves_succ (n k : Nat) : n / 2 ^ (k + 1) = n / 2 / 2 ^ k := by
  rw [Nat.div_div_eq_div_mul, Nat.mul_comm, Nat.pow_succ]

/-- Halving further makes no number greater. -/
lemma halves_succ_le (n k : Nat) : n / 2 ^ (k + 1) ≤ n / 2 := by
  rw [halves_succ]
  exact Nat.div_le_self (n / 2) (2 ^ k)

/-- The loop stops at 2. -/
lemma getRateLoop_stop (passes : Nat) (r : Int) : getRateLoop passes 2 r = some (2, r) :=
  whileLoop_stop passes rfl

/-- A pass of the loop halves the frequency and lowers the rate. -/
lemma getRateLoop_pass (go : n ≠ 2) (passes : Nat) (r : Int) :
    getRateLoop (passes + 1) (n : Int) r = getRateLoop passes ((n / 2 : Nat) : Int) (r - 1) := by
  have test : decide ((n : Int) ≠ 2) = true := by
    rw [decide_eq_true_iff]
    omega
  exact whileLoop_pass test rfl

/-- The loop ends after `k` passes if halving `k` times gives 2. -/
lemma getRateLoop_ends (two : n / 2 ^ k = 2) (r : Int) :
    getRateLoop k (n : Int) r = some (2, r - (k : Int)) := by
  induction k generalizing n r with
  | zero =>
      rw [Nat.pow_zero, Nat.div_one] at two
      rw [two, Nat.cast_zero, sub_zero]
      exact getRateLoop_stop 0 r
  | succ k ih =>
      have go : n ≠ 2 := by
        rintro rfl
        have small := halves_succ_le 2 k
        omega
      rw [halves_succ] at two
      rw [getRateLoop_pass go, ih two, sub_sub, add_comm, Nat.cast_succ]

/-- The loop does not end if no halving gives 2. -/
lemma getRateLoop_never (miss : ∀ k, n / 2 ^ k ≠ 2) (r : Int) (passes : Nat) :
    getRateLoop passes (n : Int) r = none := by
  refine whileLoop_never (fun x => ∃ n : Nat, x.1 = (n : Int) ∧ ∀ k, n / 2 ^ k ≠ 2) ?_
    ⟨n, rfl, miss⟩ passes
  rintro ⟨_, r⟩ ⟨n, rfl, miss⟩
  refine ⟨?_, ?_⟩
  · have go : n / 2 ^ 0 ≠ 2 := miss 0
    rw [Nat.pow_zero, Nat.div_one] at go
    rw [decide_eq_true_iff]
    omega
  · intro s pass
    cases pass
    refine ⟨n / 2, rfl, fun k => ?_⟩
    rw [← halves_succ]
    exact miss (k + 1)

/-- `getRate` returns one value. -/
lemma GetsRate.unique (h : GetsRate freq r) (h' : GetsRate freq r') : r = r' := by
  obtain ⟨passes, h⟩ := h
  obtain ⟨passes', h'⟩ := h'
  rw [getRate] at h h'
  split_ifs at h h' with range
  · exact (Option.some.inj h).symm.trans (Option.some.inj h')
  · obtain ⟨t, loop, rfl⟩ := Option.map_eq_some_iff.mp h
    obtain ⟨t', loop', rfl⟩ := Option.map_eq_some_iff.mp h'
    rw [whileLoop_unique loop loop']

/-- Outside 2 to 1024 the value is -1. -/
lemma getsRate_outside (range : freq.toInt < 2 ∨ 1024 < freq.toInt) : GetsRate freq (-1) :=
  ⟨0, by rw [getRate, if_pos range]⟩

/-- What `getRate` returns for a frequency in range, if it returns. -/
lemma getsRate_inside (low : 2 ≤ freq.toInt) (high : freq.toInt ≤ 1024) :
    GetsRate freq r ↔ ∃ k : Nat, freq.toInt.toNat / 2 ^ k = 2 ∧ r = 15 - (k : Int) := by
  have inside : ¬ (freq.toInt < 2 ∨ freq.toInt > 1024) := by omega
  have nat : freq.toInt = (freq.toInt.toNat : Int) := by omega
  have ends {k : Nat} (two : freq.toInt.toNat / 2 ^ k = 2) :
      getRate k freq = some (15 - (k : Int)) := by
    rw [getRate, if_neg inside, nat, getRateLoop_ends two]
    rfl
  constructor
  · intro h
    by_cases reach : ∃ k : Nat, freq.toInt.toNat / 2 ^ k = 2
    · obtain ⟨k, two⟩ := reach
      exact ⟨k, two, h.unique ⟨k, ends two⟩⟩
    · obtain ⟨passes, h⟩ := h
      rw [getRate, if_neg inside, nat, getRateLoop_never (not_exists.mp reach)] at h
      cases h
  · rintro ⟨k, two, rfl⟩
    exact ⟨k, ends two⟩

/-- A frequency in range is halved to 2 in at most nine passes. -/
lemma passes_le (high : freq.toInt ≤ 1024) (two : freq.toInt.toNat / 2 ^ k = 2) : k ≤ 9 := by
  by_contra more
  have small : freq.toInt.toNat / 2 ^ k ≤ 1024 / 2 ^ 10 :=
    Nat.div_le_div (by omega) (Nat.pow_le_pow_right (by decide) (by omega)) (by decide)
  omega

/-- A power of two in range gets its rate. -/
lemma getsRate_power (low : 2 ≤ freq.toInt) (high : freq.toInt ≤ 1024) (power : IsPowerOfTwo freq) :
    ∃ r, GetsRate freq r ∧ 1 ≤ r ∧ ((32768 >>> (r - 1).toNat : Nat) : Int) = freq.toInt := by
  obtain ⟨k, eq⟩ := power
  have nat : freq.toInt.toNat = 2 ^ k := by
    rw [eq]
    exact Int.toNat_pow_of_nonneg (by decide) k
  cases k with
  | zero =>
      rw [pow_zero] at eq
      omega
  | succ k =>
      have two : freq.toInt.toNat / 2 ^ k = 2 := by
        rw [nat, Nat.pow_succ, Nat.mul_div_cancel_left _ (Nat.two_pow_pos k)]
      have le : k ≤ 9 := passes_le high two
      have shift : (15 - (k : Int) - 1).toNat = 14 - k := by omega
      have split : 32768 = 2 ^ (k + 1) * 2 ^ (14 - k) := by
        have exponent : k + 1 + (14 - k) = 15 := by omega
        rw [← Nat.pow_add, exponent]
      refine ⟨15 - (k : Int), (getsRate_inside low high).mpr ⟨k, two, rfl⟩, by omega, ?_⟩
      rw [shift, Nat.shiftRight_eq_div_pow, eq]
      nth_rewrite 1 [split]
      rw [Nat.mul_div_cancel _ (Nat.two_pow_pos _), Nat.cast_pow]
      rfl

/-- The number of halvings down to 2 is the logarithm. -/
lemma log_of_two (two : n / 2 ^ k = 2) : Nat.log 2 n = k + 1 := by
  have pos : 0 < 2 ^ k := Nat.two_pow_pos k
  have low : 2 * 2 ^ k ≤ n := (Nat.le_div_iff_mul_le pos).mp (Nat.le_of_eq two.symm)
  have high : n < 3 * 2 ^ k := (Nat.div_lt_iff_lt_mul pos).mp (lt_of_eq_of_lt two (by decide))
  refine Nat.log_eq_of_pow_le_of_lt_pow ?_ ?_
  · rw [Nat.pow_succ]
    omega
  · rw [Nat.pow_succ, Nat.pow_succ]
    omega

/-- The two highest bits of a frequency in range decide. With `10` the rate is that of the power of
two with the same highest bit, with `11` the loop does not end. -/
theorem getRate_of_high_bits (low : 2 ≤ freq.toInt) (high : freq.toInt ≤ 1024) :
    let n := freq.toInt.toNat
    (n / 2 ^ (Nat.log 2 n - 1) = 2 ∧ GetsRate freq (16 - (Nat.log 2 n : Int))) ∨
      (n / 2 ^ (Nat.log 2 n - 1) = 3 ∧ ∀ passes, getRate passes freq = none) := by
  intro n
  have ne : n ≠ 0 := by omega
  have pos : 1 ≤ Nat.log 2 n := Nat.log_pos (by decide) (by omega)
  have split : 2 ^ Nat.log 2 n = 2 * 2 ^ (Nat.log 2 n - 1) := by
    rw [Nat.mul_comm, ← Nat.pow_succ]
    congr 1
    omega
  have below : 2 ^ Nat.log 2 n ≤ n := Nat.pow_log_le_self 2 ne
  have above : n < 2 ^ (Nat.log 2 n + 1) := Nat.lt_pow_succ_log_self (by decide) n
  rw [Nat.pow_succ] at above
  have least : 2 ≤ n / 2 ^ (Nat.log 2 n - 1) :=
    (Nat.le_div_iff_mul_le (Nat.two_pow_pos _)).mpr (by omega)
  have most : n / 2 ^ (Nat.log 2 n - 1) < 4 :=
    (Nat.div_lt_iff_lt_mul (Nat.two_pow_pos _)).mpr (by omega)
  rcases (by omega : n / 2 ^ (Nat.log 2 n - 1) = 2 ∨ n / 2 ^ (Nat.log 2 n - 1) = 3) with two | three
  · exact .inl ⟨two, (getsRate_inside low high).mpr ⟨_, two, by omega⟩⟩
  · refine .inr ⟨three, fun passes => ?_⟩
    cases ends : getRate passes freq with
    | none => rfl
    | some r =>
        obtain ⟨k, two, -⟩ := (getsRate_inside low high).mp ⟨passes, ends⟩
        have same : Nat.log 2 n - 1 = k := by
          rw [log_of_two two]
          rfl
        rw [same, two] at three
        cases three

end Halving

/-- The frequencies `getRate` is right for: those out of range, and the powers of two. -/
theorem rate_exact_iff (freq : BitVec 32) :
    RateExact freq ↔ freq.toInt < 2 ∨ 1024 < freq.toInt ∨ IsPowerOfTwo freq := by
  constructor
  · intro exact
    by_contra wrong
    obtain ⟨low, high, power⟩ := by rwa [not_or, not_or] at wrong
    have refused : GetsRate freq (-1) := exact.noPower power
    obtain ⟨k, two, eq⟩ := (getsRate_inside (not_lt.mp low) (not_lt.mp high)).mp refused
    have le : k ≤ 9 := passes_le (not_lt.mp high) two
    omega
  · intro right
    by_cases range : freq.toInt < 2 ∨ 1024 < freq.toInt
    · have refused : GetsRate freq (-1) := getsRate_outside range
      exact ⟨⟨-1, refused⟩, fun _ => refused, fun _ => refused, fun low high => by omega⟩
    · obtain ⟨low, high⟩ := not_or.mp range
      have power : IsPowerOfTwo freq := by
        rcases right with below | above | power
        · exact absurd below low
        · exact absurd above high
        · exact power
      obtain ⟨r, gets, rate⟩ := getsRate_power (not_lt.mp low) (not_lt.mp high) power
      exact ⟨⟨r, gets⟩, fun out => absurd out range, fun not => absurd power not,
        fun _ _ _ => ⟨r, gets, rate⟩⟩

/-- For a frequency of 3 `getRate` does not return: 3 is halved to 1 and then to 0. -/
theorem not_rate_exact_three : ¬ RateExact 3 := by
  intro exact
  obtain ⟨r, gets⟩ := exact.returns
  obtain ⟨k, two, -⟩ := (getsRate_inside (by decide) (by decide)).mp gets
  have three : (3 : BitVec 32).toInt.toNat = 3 := rfl
  rw [three] at two
  cases k with
  | zero => cases two
  | succ k =>
      have small := halves_succ_le 3 k
      omega

/-- The one call in the kernel, with a power of two, returns: `rtc_init` turns the periodic
interrupt on in register B, sets the rate of 1024 in register A, and leaves the other registers
alone. -/
theorem rtcInit_spec {passes : Nat} (enough : 9 ≤ passes) (p : Pic) (c : Cmos) :
    ∃ c', rtcInit passes p c = some ((p.disableIrq 8).enableIrq 8, c') ∧
      c'.registers = Function.update
        (Function.update c.registers 0x0B (c.registers 0x0B ||| 0x40))
        0x0A ((c.registers 0x0A &&& 0xF0) ||| 6) := by
  have rate : getRate passes 1024 = some 6 := by
    have loop : getRateLoop passes ((1024 : Nat) : Int) 0x0F = some (2, 6) :=
      whileLoop_mono (getRateLoop_ends (k := 9) rfl 0x0F) enough
    rw [getRate, if_neg (by decide)]
    exact congrArg (Option.map Prod.snd) loop
  rw [rtcInit, rate]
  exact ⟨_, rfl, rfl⟩

end Kernel391
