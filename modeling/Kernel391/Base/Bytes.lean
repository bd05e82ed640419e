import Mathlib.Algebra.Group.Nat.Defs
import Mathlib.Algebra.Group.Int.Defs
import Mathlib.Tactic.Lemma
import Mathlib.Tactic.Common
import Mathlib.Tactic.IntervalCases
import Mathlib.Logic.Function.Basic
import Mathlib.Data.List.GetD

/-!
# Byte-addressed memory

A memory gives a byte to every address of a 32-bit address space; addresses are natural numbers and
a load reduces them modulo `2 ^ 32`. `word` reads a little-endian 32-bit word, `fetch` a range of
bytes, `store` writes a list of bytes from an address on and `blit` copies one range over another.
`SameOn` is the frame relation: two memories agree on a set of addresses.
-/

namespace Kernel391.Base

/-- A byte at every address. -/
abbrev Mem := Nat → UInt8

/-- The byte a 32-bit address refers to. -/
def Mem.byte (m : Mem) (a : Nat) : UInt8 := m (a % 2 ^ 32)

/-- The little-endian 32-bit word at `a`. -/
def Mem.word (m : Mem) (a : Nat) : Nat :=
  (m.byte a).toNat + 2 ^ 8 * (m.byte (a + 1)).toNat + 2 ^ 16 * (m.byte (a + 2)).toNat
    + 2 ^ 24 * (m.byte (a + 3)).toNat

/-- The four bytes of a 32-bit word, lowest first. -/
def wordBytes (w : Nat) : List UInt8 :=
  [UInt8.ofNat w, UInt8.ofNat (w / 2 ^ 8), UInt8.ofNat (w / 2 ^ 16), UInt8.ofNat (w / 2 ^ 24)]

/-- A 32-bit word with byte `k` replaced. -/
def setByte (w k : Nat) (b : UInt8) : Nat :=
  w - 2 ^ (8 * k) * (w / 2 ^ (8 * k) % 2 ^ 8) + 2 ^ (8 * k) * b.toNat

/-- The `n` bytes from `a` on. -/
def Mem.fetch (m : Mem) (a n : Nat) : List UInt8 :=
  (List.range n).map fun k => m.byte (a + k)

/-- The memory after the bytes `bs` were stored from `a` on. -/
def Mem.store (m : Mem) (a : Nat) (bs : List UInt8) : Mem := fun x =>
  if a ≤ x ∧ x < a + bs.length then bs.getD (x - a) 0 else m x

/-- The memory after `n` bytes were copied from `src` to a disjoint range at `dst`. -/
def Mem.blit (m : Mem) (dst src n : Nat) : Mem := fun x =>
  if dst ≤ x ∧ x < dst + n then m (src + (x - dst)) else m x

/-- Two memories agree on the addresses in `S`. -/
def SameOn (S : Nat → Prop) (m m' : Mem) : Prop := ∀ a, S a → m' a = m a

section Lemmas

variable {S T : Nat → Prop} {m m' m'' : Mem} {a dst src n k : Nat} {bs : List UInt8}

/-- A memory agrees with itself. -/
@[simp] lemma SameOn.refl : SameOn S m m := fun _ _ => rfl

/-- Agreement on a region is transitive. -/
lemma SameOn.trans (h : SameOn S m m') (h' : SameOn S m' m'') : SameOn S m m'' :=
  fun a ha => (h' a ha).trans (h a ha)

/-- Memories that agree on a region agree on every part of it. -/
lemma SameOn.mono (sub : ∀ a, T a → S a) (h : SameOn S m m') : SameOn T m m' :=
  fun a ha => h a (sub a ha)

/-- Stores at an address outside `S`. -/
lemma SameOn.update (v : UInt8) (h : ¬ S a) : SameOn S m (Function.update m a v) := by
  intro x hx
  rw [Function.update_of_ne]
  rintro rfl
  exact h hx

/-- The same store to both memories. -/
lemma SameOn.update_both (v : UInt8) (h : SameOn S m m') :
    SameOn S (Function.update m a v) (Function.update m' a v) := by
  intro x hx
  by_cases hxa : x = a
  · subst hxa
    rw [Function.update_self, Function.update_self]
  · rw [Function.update_of_ne hxa, Function.update_of_ne hxa]
    exact h x hx

/-- A loop that leaves `S` alone in every pass. -/
lemma SameOn.foldl {α : Type} {f : Mem → α → Mem} {l : List α}
    (h : ∀ i ∈ l, ∀ m, SameOn S m (f m i)) : SameOn S m (l.foldl f m) := by
  induction l generalizing m with
  | nil => exact .refl
  | cons i l ih =>
      have first := h i List.mem_cons_self m
      exact first.trans (ih fun j hj => h j (List.mem_cons_of_mem i hj))

/-- As many bytes are fetched as were asked for. -/
@[simp] lemma Mem.length_fetch : (m.fetch a n).length = n := by simp [Mem.fetch]

/-- The bytes fetched are those of the memory. -/
lemma Mem.getD_fetch (h : k < n) (d : UInt8) : (m.fetch a n).getD k d = m.byte (a + k) := by
  have inside : k < (m.fetch a n).length := by
    rw [Mem.length_fetch]
    exact h
  rw [List.getD_eq_getElem _ _ inside]
  simp [Mem.fetch]

/-- Below 4 GB an address is its own residue. -/
lemma Mem.byte_of_lt (h : a < 2 ^ 32) : m.byte a = m a := by
  rw [Mem.byte, Nat.mod_eq_of_lt h]

/-- A copy leaves what is outside its destination. -/
lemma Mem.blit_frame (h : dst + n ≤ k ∨ k < dst) : m.blit dst src n k = m k := by
  rw [Mem.blit, if_neg (by omega)]

/-- A copy puts the bytes of the source into the destination. -/
lemma Mem.blit_at (h : k < n) : m.blit dst src n (dst + k) = m (src + k) := by
  rw [Mem.blit, if_pos (by omega), Nat.add_sub_cancel_left]

/-- Storing nothing changes nothing. -/
lemma Mem.store_nil : m.store a [] = m := by
  funext x
  rw [Mem.store, List.length_nil, if_neg (by omega)]

/-- A store leaves what is outside its range. -/
lemma Mem.store_frame (h : k < a ∨ a + bs.length ≤ k) : m.store a bs k = m k := by
  rw [Mem.store, if_neg (by omega)]

/-- A store puts its bytes into its range. -/
lemma Mem.store_at (h : k < bs.length) : m.store a bs (a + k) = bs.getD k 0 := by
  rw [Mem.store, if_pos (by omega), Nat.add_sub_cancel_left]

/-- Two stores to adjacent ranges are one. -/
lemma Mem.store_append (m : Mem) (a : Nat) (bs cs : List UInt8) :
    (m.store a bs).store (a + bs.length) cs = m.store a (bs ++ cs) := by
  funext x
  have whole : (bs ++ cs).length = bs.length + cs.length := List.length_append
  rcases Nat.lt_or_ge x a with before | from_a
  · rw [Mem.store_frame (.inl (by omega)), Mem.store_frame (.inl before),
      Mem.store_frame (.inl before)]
  obtain ⟨k, rfl⟩ := Nat.exists_eq_add_of_le from_a
  rcases Nat.lt_or_ge k bs.length with first | second
  · rw [Mem.store_frame (.inl (by omega)), Mem.store_at first, Mem.store_at (by omega),
      List.getD_append bs cs 0 k first]
  obtain ⟨j, rfl⟩ := Nat.exists_eq_add_of_le second
  rcases Nat.lt_or_ge j cs.length with inside | after
  · rw [← Nat.add_assoc, Mem.store_at inside, Nat.add_assoc, Mem.store_at (by omega),
      List.getD_append_right bs cs 0 _ (by omega), Nat.add_sub_cancel_left]
  · rw [Mem.store_frame (.inr (by omega)), Mem.store_frame (.inr (by omega)),
      Mem.store_frame (.inr (by omega))]

/-- A store is the store of its first byte and then of the others. -/
lemma Mem.store_cons (m : Mem) (a : Nat) (b : UInt8) (bs : List UInt8) :
    Mem.store (Function.update m a b) (a + 1) bs = m.store a (b :: bs) := by
  have one : m.store a [b] = Function.update m a b := by
    funext x
    by_cases h : x = a
    · subst h
      rw [Function.update_self]
      exact Mem.store_at (k := 0) Nat.zero_lt_one
    · rw [Function.update_of_ne h]
      apply Mem.store_frame
      rw [List.length_singleton]
      omega
  rw [← one]
  exact Mem.store_append m a [b] bs

/-- The bytes a store put in memory. -/
lemma Mem.fetch_store (m : Mem) (h : a + bs.length ≤ 2 ^ 32) :
    (m.store a bs).fetch a bs.length = bs := by
  apply List.ext_getElem Mem.length_fetch
  intro k hk hk'
  simp only [Mem.fetch, List.getElem_map, List.getElem_range]
  rw [Mem.byte_of_lt (by omega), Mem.store_at hk', List.getD_eq_getElem bs 0 hk']

/-- A word has 32 bits. -/
lemma Mem.word_lt (m : Mem) (a : Nat) : m.word a < 2 ^ 32 := by
  have h0 := (m.byte a).toNat_lt
  have h1 := (m.byte (a + 1)).toNat_lt
  have h2 := (m.byte (a + 2)).toNat_lt
  have h3 := (m.byte (a + 3)).toNat_lt
  rw [Mem.word]
  omega

/-- A word is 0 exactly if its four bytes are. -/
lemma Mem.word_eq_zero : m.word a = 0 ↔ ∀ k < 4, m.byte (a + k) = 0 := by
  have zero (b : UInt8) : b.toNat = 0 ↔ b = 0 := UInt8.toNat_inj (b := 0)
  rw [Mem.word]
  constructor
  · intro h k hk
    rw [← zero]
    interval_cases k
    · rw [Nat.add_zero]
      omega
    all_goals omega
  · intro h
    have h0 := (zero _).mpr (h 0 (by omega))
    have h1 := (zero _).mpr (h 1 (by omega))
    have h2 := (zero _).mpr (h 2 (by omega))
    have h3 := (zero _).mpr (h 3 (by omega))
    rw [Nat.add_zero] at h0
    omega

/-- A word only depends on its four bytes. -/
lemma Mem.word_congr (h : ∀ k < 4, m'.byte (a + k) = m.byte (a + k)) : m'.word a = m.word a := by
  have h0 := h 0 (by omega)
  have h1 := h 1 (by omega)
  have h2 := h 2 (by omega)
  have h3 := h 3 (by omega)
  rw [Nat.add_zero] at h0
  rw [Mem.word, Mem.word, h0, h1, h2, h3]

/-- A byte and a higher one of a word can be replaced in either order. -/
lemma setByte_comm_of_lt (w : Nat) {j k : Nat} (hk : k < 4) (lt : j < k) (b c : UInt8) :
    setByte (setByte w j b) k c = setByte (setByte w k c) j b := by
  have hb := b.toNat_lt
  have hc := c.toNat_lt
  simp only [setByte]
  interval_cases k <;> interval_cases j <;> omega

/-- Two bytes of a word can be set in either order. -/
lemma setByte_comm (w : Nat) {j k : Nat} (hj : j < 4) (hk : k < 4) (ne : j ≠ k) (b c : UInt8) :
    setByte (setByte w j b) k c = setByte (setByte w k c) j b := by
  rcases Nat.lt_or_gt_of_ne ne with lt | gt
  · exact setByte_comm_of_lt w hk lt b c
  · exact (setByte_comm_of_lt w hj gt c b).symm

/-- Setting a byte of a word twice is setting it once. -/
lemma setByte_idem (w : Nat) {k : Nat} (hk : k < 4) (b : UInt8) :
    setByte (setByte w k b) k b = setByte w k b := by
  have hb := b.toNat_lt
  simp only [setByte]
  interval_cases k <;> omega

end Lemmas

end Kernel391.Base
