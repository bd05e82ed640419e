import Kernel391.Base.X86

/-!
# String instructions

What `rep stos` and `rep movs` do to memory, for every count. The ranges may run over the top of the
address space: an address belongs to the range of `n` bytes from `a` on when its distance from `a`,
modulo `2 ^ 32`, is less than `n`.
-/

namespace Kernel391.Base

/-- The memory after the `n` bytes from `a` on took the values of a pattern. -/
def fill (m : BitVec 32 → UInt8) (a : BitVec 32) (n : Nat) (p : Nat → UInt8) : BitVec 32 → UInt8 :=
  fun x => if (x - a).toNat < n then p (x - a).toNat else m x

/-- The memory after bytes `lo` to `hi` of the range at `src` were copied to the range at `dst`. -/
def copyRange (m : BitVec 32 → UInt8) (dst src : BitVec 32) (lo hi : Nat) : BitVec 32 → UInt8 :=
  fun x => if lo ≤ (x - dst).toNat ∧ (x - dst).toNat < hi then m (src + (x - dst)) else m x

/-- Copying `n` bytes upwards from the lowest never reads a byte it wrote: the destination does not
begin inside the source, unless it is the source. -/
def UpSafe (dst src : BitVec 32) (n : Nat) : Prop := n ≤ (dst - src).toNat ∨ dst = src

/-- Copying `n` bytes downwards from the highest never reads a byte it wrote. -/
def DownSafe (dst src : BitVec 32) (n : Nat) : Prop := UpSafe src dst n

/-- It is decidable whether an upward copy is safe. -/
instance (dst src : BitVec 32) (n : Nat) : Decidable (UpSafe dst src n) :=
  inferInstanceAs (Decidable (_ ∨ _))

section Lemmas

variable {m : BitVec 32 → UInt8} {a dst src x : BitVec 32} {p : Nat → UInt8} {k n i : Nat} {c : Cpu}

/-- A shorter copy is as safe. -/
lemma UpSafe.mono (h : UpSafe dst src n) (le : k ≤ n) : UpSafe dst src k :=
  h.imp_left (Nat.le_trans le)

/-- The copy is as safe when both ranges are moved. -/
lemma UpSafe.shift (h : UpSafe dst src n) (d : BitVec 32) : UpSafe (dst + d) (src + d) n := by
  have same : dst + d - (src + d) = dst - src := by bv_omega
  rw [UpSafe, same]
  exact h.imp_right fun e => congrArg (· + d) e

/-- A destination that is not above the source, of a range that ends in the address space. -/
lemma upSafe_of_le (le : dst.toNat ≤ src.toNat) (room : src.toNat + n ≤ 2 ^ 32) :
    UpSafe dst src n := by
  rcases Nat.eq_or_lt_of_le le with same | lt
  · exact .inr (BitVec.eq_of_toNat_eq same)
  · left
    rw [BitVec.toNat_sub]
    omega

/-- Filling nothing changes nothing. -/
@[simp] lemma fill_zero : fill m a 0 p = m := by
  funext x
  rw [fill, if_neg (Nat.not_lt_zero _)]

/-- Copying nothing changes nothing. -/
@[simp] lemma copyRange_self (lo : Nat) : copyRange m dst src lo lo = m := by
  funext x
  rw [copyRange, if_neg (by omega)]

/-- A copy of one element is a copy of its range. -/
lemma copyBytes_eq : copyBytes m dst src k = copyRange m dst src 0 k := by
  funext x
  rw [copyBytes, copyRange]
  simp only [Nat.zero_le, true_and]

/-- A stored word fills its bytes. -/
lemma storeBytes_eq (w : BitVec 32) : storeBytes m a k w = fill m a k (byteOf w) := rfl

/-- A fill depends on the bytes of its range only. -/
lemma fill_congr {q : Nat → UInt8} (same : ∀ j < n, p j = q j) : fill m a n p = fill m a n q := by
  funext x
  rw [fill, fill]
  split_ifs with inside
  · exact same _ inside
  · rfl

/-- The distance from an address further up. -/
lemma toNat_sub_add (x a : BitVec 32) (n : Nat) :
    (x - (a + BitVec.ofNat 32 n)).toNat = ((x - a).toNat + (2 ^ 32 - n % 2 ^ 32)) % 2 ^ 32 := by
  simp only [BitVec.toNat_sub, BitVec.toNat_add, BitVec.toNat_ofNat]
  omega

/-- A fill goes on where another one stopped. -/
lemma fill_append {q : Nat → UInt8} (room : n + k ≤ 2 ^ 32) :
    fill (fill m a n p) (a + BitVec.ofNat 32 n) k q =
      fill m a (n + k) fun j => if j < n then p j else q (j - n) := by
  funext x
  have lt := (x - a).isLt
  simp only [fill, toNat_sub_add]
  rcases Nat.lt_or_ge (x - a).toNat n with first | later
  · rw [if_neg (by omega), if_pos first, if_pos (by omega), if_pos first]
  · have place : ((x - a).toNat + (2 ^ 32 - n % 2 ^ 32)) % 2 ^ 32 = (x - a).toNat - n := by omega
    rw [place, if_neg (Nat.not_lt.mpr later), if_neg (Nat.not_lt.mpr later)]
    by_cases second : (x - a).toNat < n + k
    · rw [if_pos (by omega), if_pos second]
    · rw [if_neg (by omega), if_neg second]

/-- A fill with one byte goes on where another one stopped. -/
lemma fill_const_append (b : UInt8) (room : n + k ≤ 2 ^ 32) :
    fill (fill m a n fun _ => b) (a + BitVec.ofNat 32 n) k (fun _ => b) =
      fill m a (n + k) fun _ => b := by
  rw [fill_append room]
  congr 1
  funext j
  exact ite_self b

/-- A pattern of 2 or 4 bytes goes on at a multiple of its length, also over the top of the address
space. -/
lemma fill_pattern (hk : k = 2 ∨ k = 4) (w : BitVec 32) (n : Nat) :
    storeBytes (fill m a (k * n) fun j => byteOf w (j % k)) (a + BitVec.ofNat 32 (k * n)) k w =
      fill m a (k * (n + 1)) fun j => byteOf w (j % k) := by
  funext x
  have lt := (x - a).isLt
  simp only [fill, storeBytes, toNat_sub_add]
  generalize (x - a).toNat = e at lt ⊢
  have again : (e + (2 ^ 32 - k * n % 2 ^ 32)) % 2 ^ 32 % k = e % k := by
    rcases hk with rfl | rfl <;> omega
  by_cases here : (e + (2 ^ 32 - k * n % 2 ^ 32)) % 2 ^ 32 < k
  · have inside : e < k * (n + 1) := by rcases hk with rfl | rfl <;> omega
    rw [if_pos here, if_pos inside, ← again, Nat.mod_eq_of_lt here]
  · rw [if_neg here]
    by_cases before : e < k * n
    · rw [if_pos before, if_pos (by rcases hk with rfl | rfl <;> omega)]
    · rw [if_neg before, if_neg (by rcases hk with rfl | rfl <;> omega)]

/-- The distance between source and destination stays the same along a copy. -/
lemma add_sub_add (src dst x d : BitVec 32) : src + d + (x - (dst + d)) = src + (x - dst) := by
  apply BitVec.eq_of_toNat_eq
  simp only [BitVec.toNat_sub, BitVec.toNat_add]
  omega

/-- One more block of an upward copy. -/
lemma copyRange_up (safe : UpSafe dst src (n + k)) (room : n + k ≤ 2 ^ 32) :
    copyBytes (copyRange m dst src 0 n) (dst + BitVec.ofNat 32 n) (src + BitVec.ofNat 32 n) k =
      copyRange m dst src 0 (n + k) := by
  funext x
  have lt := (x - dst).isLt
  have read : (src + (x - dst) - dst).toNat
      = ((x - dst).toNat + (2 ^ 32 - (dst - src).toNat)) % 2 ^ 32 := by
    simp only [BitVec.toNat_sub, BitVec.toNat_add]
    omega
  have apart : n + k ≤ (dst - src).toNat ∨ (dst - src).toNat = 0 := by
    refine safe.imp_right fun same => ?_
    rw [same, BitVec.sub_self]
    rfl
  have far := (dst - src).isLt
  simp only [copyBytes, copyRange, add_sub_add, toNat_sub_add, read, Nat.zero_le, true_and]
  rcases Nat.lt_or_ge (x - dst).toNat n with first | later
  · rw [if_neg (by omega), if_pos first, if_pos (by omega)]
  · have place : ((x - dst).toNat + (2 ^ 32 - n % 2 ^ 32)) % 2 ^ 32
      = (x - dst).toNat - n := by omega
    rw [place, if_neg (Nat.not_lt.mpr later)]
    by_cases second : (x - dst).toNat < n + k
    · rw [if_pos (by omega), if_neg (by omega), if_pos second]
    · rw [if_neg (by omega), if_neg second]

/-- One more byte of a downward copy. -/
lemma copyRange_down (safe : DownSafe dst src n) (inside : k < n) (room : n ≤ 2 ^ 32) :
    copyBytes (copyRange m dst src (k + 1) n) (dst + BitVec.ofNat 32 k)
      (src + BitVec.ofNat 32 k) 1 =
      copyRange m dst src k n := by
  funext x
  have lt := (x - dst).isLt
  have read : (src + (x - dst) - dst).toNat = ((x - dst).toNat + (src - dst).toNat) % 2 ^ 32 := by
    simp only [BitVec.toNat_sub, BitVec.toNat_add]
    omega
  have apart : n ≤ (src - dst).toNat ∨ (src - dst).toNat = 0 := by
    refine Or.imp_right (fun same => ?_) safe
    rw [same, BitVec.sub_self]
    rfl
  have far := (src - dst).isLt
  simp only [copyBytes, copyRange, add_sub_add, toNat_sub_add, read]
  rcases Nat.lt_trichotomy (x - dst).toNat k with below | here | above
  · rw [if_neg (by omega), if_neg (by omega), if_neg (by omega)]
  · rw [if_pos (by omega), if_neg (by omega), if_pos (by omega)]
  · rw [if_neg (by omega)]
    by_cases copied : (x - dst).toNat < n
    · rw [if_pos (by omega), if_pos (by omega)]
    · rw [if_neg (by omega), if_neg (by omega)]

/-! ## Under a `rep` prefix -/

/-- The processor with other values in the string registers and another memory. -/
def Cpu.strings (c : Cpu) (edi esi ecx : BitVec 32) (m : BitVec 32 → UInt8) : Cpu :=
  { c with
    reg := fun
      | .edi => edi
      | .esi => esi
      | .ecx => ecx
      | r => c.reg r
    mem := m }

/-- The registers and memory that are there. -/
lemma strings_self : c.strings (c.reg .edi) (c.reg .esi) (c.reg .ecx) c.mem = c := by
  obtain ⟨reg, -⟩ := c
  simp only [Cpu.strings, Cpu.mk.injEq, and_true]
  funext r
  cases r <;> rfl

/-- One pass of `stos`. -/
lemma stos_strings (e s n : BitVec 32) (m : BitVec 32 → UInt8) : (c.strings e s n m).stos k =
    c.strings (e + c.stride k) s (n - 1) (storeBytes m e k (c.reg .eax)) := by
  simp only [Cpu.stos, Cpu.strings, Cpu.set, Cpu.put, Cpu.mk.injEq, and_true]
  funext r
  cases r <;> rfl

/-- One pass of `movs`. -/
lemma movs_strings (e s n : BitVec 32) (m : BitVec 32 → UInt8) : (c.strings e s n m).movs k =
    c.strings (e + c.stride k) (s + c.stride k) (n - 1) (copyBytes m e s k) := by
  simp only [Cpu.movs, Cpu.strings, Cpu.set, Cpu.put, Cpu.mk.injEq, and_true]
  funext r
  cases r <;> rfl

/-- One step further down. -/
lemma sub_ofNat_succ (v : BitVec 32) (n : Nat) :
    v - BitVec.ofNat 32 n - 1 = v - BitVec.ofNat 32 (n + 1) := by
  rw [BitVec.ofNat_add]
  bv_omega

/-- Two steps up are one of their sum. -/
lemma add_ofNat_add (v : BitVec 32) (n k : Nat) :
    v + BitVec.ofNat 32 n + BitVec.ofNat 32 k = v + BitVec.ofNat 32 (n + k) := by
  rw [BitVec.add_assoc, ← BitVec.ofNat_add]

/-- With the direction flag clear the strings go up. -/
lemma stride_up (up : c.flags.direction = false) : c.stride k = BitVec.ofNat 32 k := by
  rw [Cpu.stride, up]
  rfl

/-- With the direction flag set the strings go down. -/
lemma stride_down (down : c.flags.direction = true) : c.stride k = - BitVec.ofNat 32 k := by
  rw [Cpu.stride, down]
  rfl

/-- `n` times `stos`, upwards. -/
lemma iterate_stos (hk : k = 2 ∨ k = 4) (up : c.flags.direction = false) (n : Nat) :
    (Cpu.stos k)^[n] c =
      c.strings (c.reg .edi + BitVec.ofNat 32 (k * n)) (c.reg .esi) (c.reg .ecx - BitVec.ofNat 32 n)
        (fill c.mem (c.reg .edi) (k * n) fun j => byteOf (c.reg .eax) (j % k)) := by
  induction n with
  | zero =>
    rw [Nat.mul_zero, fill_zero, Function.iterate_zero_apply, BitVec.add_zero, BitVec.sub_zero,
      strings_self]
  | succ n ih =>
    rw [Function.iterate_succ_apply', ih, stos_strings, stride_up up, add_ofNat_add, sub_ofNat_succ,
      fill_pattern hk, Nat.mul_succ]

/-- `n` times `movs`, upwards. -/
lemma iterate_movs_up (up : c.flags.direction = false) (n : Nat)
    (safe : UpSafe (c.reg .edi) (c.reg .esi) (k * n)) (room : k * n ≤ 2 ^ 32) :
    (Cpu.movs k)^[n] c =
      c.strings (c.reg .edi + BitVec.ofNat 32 (k * n)) (c.reg .esi + BitVec.ofNat 32 (k * n))
        (c.reg .ecx - BitVec.ofNat 32 n) (copyRange c.mem (c.reg .edi) (c.reg .esi) 0 (k * n)) := by
  induction n with
  | zero =>
    rw [Nat.mul_zero, copyRange_self, Function.iterate_zero_apply, BitVec.add_zero, BitVec.add_zero,
      BitVec.sub_zero, strings_self]
  | succ n ih =>
    rw [Nat.mul_succ] at safe room ⊢
    have before : UpSafe (c.reg .edi) (c.reg .esi) (k * n) := safe.mono (Nat.le_add_right ..)
    rw [Function.iterate_succ_apply', ih before (Nat.le_of_add_right_le room), movs_strings,
      stride_up up, add_ofNat_add, add_ofNat_add, sub_ofNat_succ, copyRange_up safe room]

/-- `n` of `N` times `movsb`, downwards, with both pointers `N` behind the start of their ranges. -/
lemma iterate_movs_down {N : Nat} {dst src : BitVec 32} (ecx : BitVec 32) (m : BitVec 32 → UInt8)
    (down : c.flags.direction = true) (safe : DownSafe dst src N) (room : N ≤ 2 ^ 32) (h : n ≤ N) :
    ((Cpu.movs 1)^[n] (c.strings (dst + BitVec.ofNat 32 N - 1)
      (src + BitVec.ofNat 32 N - 1) ecx m)) =
      c.strings (dst + BitVec.ofNat 32 (N - n) - 1) (src + BitVec.ofNat 32 (N - n) - 1)
        (ecx - BitVec.ofNat 32 n) (copyRange m dst src (N - n) N) := by
  induction n with
  | zero => rw [Nat.sub_zero, copyRange_self, Function.iterate_zero_apply, BitVec.sub_zero]
  | succ n ih =>
    obtain ⟨j, hj⟩ : ∃ j, N - n = j + 1 := ⟨N - n - 1, by omega⟩
    have last : N - (n + 1) = j := by omega
    have back (v : BitVec 32) : v + BitVec.ofNat 32 (j + 1) - 1 = v + BitVec.ofNat 32 j := by
      rw [BitVec.ofNat_add]
      bv_omega
    have minus (v : BitVec 32) : v + - 1#32 = v - 1 := (BitVec.sub_eq_add_neg v 1).symm
    rw [Function.iterate_succ_apply', ih (by omega), movs_strings, stride_down down, hj, last,
      back, back, sub_ofNat_succ, copyRange_down safe (by omega) room, minus, minus]

/-- `rep stos`, upwards. -/
lemma rep_stos (hk : k = 2 ∨ k = 4) (up : c.flags.direction = false) (flat : c.es = c.ds) :
    c.rep (Cpu.stos k) = some
      (c.strings (c.reg .edi + BitVec.ofNat 32 (k * (c.reg .ecx).toNat)) (c.reg .esi) 0
        (fill c.mem (c.reg .edi) (k * (c.reg .ecx).toNat) fun j =>
          byteOf (c.reg .eax) (j % k))) := by
  rw [Cpu.rep, if_pos flat, iterate_stos hk up, BitVec.ofNat_toNat, BitVec.setWidth_eq,
    BitVec.sub_self]
  rfl

/-- `rep movs`, upwards. -/
lemma rep_movs_up (up : c.flags.direction = false) (flat : c.es = c.ds)
    (safe : UpSafe (c.reg .edi) (c.reg .esi) (k * (c.reg .ecx).toNat))
    (room : k * (c.reg .ecx).toNat ≤ 2 ^ 32) :
    c.rep (Cpu.movs k) = some
      (c.strings (c.reg .edi + BitVec.ofNat 32 (k * (c.reg .ecx).toNat))
        (c.reg .esi + BitVec.ofNat 32 (k * (c.reg .ecx).toNat)) 0
        (copyRange c.mem (c.reg .edi) (c.reg .esi) 0 (k * (c.reg .ecx).toNat))) := by
  rw [Cpu.rep, if_pos flat, iterate_movs_up up _ safe room, BitVec.ofNat_toNat, BitVec.setWidth_eq,
    BitVec.sub_self]
  rfl

/-- `rep movsb`, downwards, with both pointers at the last bytes of their ranges. -/
lemma rep_movsb_down {dst src : BitVec 32} (down : c.flags.direction = true) (flat : c.es = c.ds)
    (edi : c.reg .edi = dst + c.reg .ecx - 1) (esi : c.reg .esi = src + c.reg .ecx - 1)
    (safe : DownSafe dst src (c.reg .ecx).toNat) :
    c.rep (Cpu.movs 1) =
      some (c.strings (dst - 1) (src - 1) 0 (copyRange c.mem dst src 0 (c.reg .ecx).toNat)) := by
  have whole : BitVec.ofNat 32 (c.reg .ecx).toNat = c.reg .ecx := by
    rw [BitVec.ofNat_toNat, BitVec.setWidth_eq]
  have loop := iterate_movs_down (c.reg .ecx) c.mem down safe (Nat.le_of_lt (c.reg .ecx).isLt)
    (Nat.le_refl (c.reg .ecx).toNat)
  rw [whole, ← edi, ← esi, strings_self, Nat.sub_self, BitVec.add_zero, BitVec.add_zero,
    BitVec.sub_self] at loop
  exact (if_pos flat).trans (congrArg some loop)

end Lemmas

end Kernel391.Base
