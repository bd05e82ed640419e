import Mathlib.Tactic.Lemma
import Mathlib.Tactic.Common
import Mathlib.Data.List.Chain

/-!
# Round robin

A cyclic search for the next marked position among `n`, and what it gives when it is repeated: the
distance to a marked position shrinks with every selection that is not that position, so any `n`
consecutive selections contain every marked one.
-/

namespace Kernel391.Base

/-- The first marked position after `i`, going round `n` positions, `fuel` of them at most. -/
def nextMarked (n : Nat) (marked : Nat → Prop) [DecidablePred marked] : (fuel i : Nat) → Nat
  | 0, i => i
  | fuel + 1, i =>
    if marked ((i + 1) % n) then (i + 1) % n else nextMarked n marked fuel ((i + 1) % n)

/-- How far position `t` is ahead of position `i`, from 1 to `n`. -/
def gap (n i t : Nat) : Nat := if i < t then t - i else t + n - i

section Lemmas

variable {n i t fuel : Nat} {l : List Nat} {marked : Nat → Prop} [DecidablePred marked]

/-- The next turn is at least one step away. -/
lemma gap_pos (t : Nat) (hi : i < n) : 0 < gap n i t := by
  rw [gap]
  split_ifs <;> omega

/-- Every index is at most a whole round away. -/
lemma gap_le (ht : t < n) : gap n i t ≤ n := by
  rw [gap]
  split_ifs <;> omega

/-- One position on, the distance to a position that was not reached is one less. -/
lemma gap_succ (hi : i < n) (ht : t < n) (ne : (i + 1) % n ≠ t) :
    gap n ((i + 1) % n) t + 1 = gap n i t := by
  by_cases last : i + 1 = n
  · rw [last, Nat.mod_self] at ne ⊢
    simp only [gap]
    split_ifs <;> omega
  · rw [Nat.mod_eq_of_lt (by omega)] at ne ⊢
    simp only [gap]
    split_ifs <;> omega

/-- The scan selects an index below `n`. -/
lemma nextMarked_lt (hn : 0 < n) : nextMarked n marked (fuel + 1) i < n := by
  induction fuel generalizing i with
  | zero =>
      rw [nextMarked]
      split_ifs
      · exact Nat.mod_lt _ hn
      · exact Nat.mod_lt _ hn
  | succ fuel ih =>
      rw [nextMarked]
      split_ifs
      · exact Nat.mod_lt _ hn
      · exact ih

/-- The search only depends on where it starts on the circle. -/
lemma nextMarked_mod : nextMarked n marked (fuel + 1) (i % n)
    = nextMarked n marked (fuel + 1) i := by
  rw [nextMarked, nextMarked, Nat.mod_add_mod]

/-- A search that may reach a marked position stops at a marked position, at that one or before. -/
lemma nextMarked_spec (hi : i < n) (ht : t < n) (hm : marked t) (far : gap n i t ≤ fuel) :
    marked (nextMarked n marked fuel i) ∧ (nextMarked n marked fuel i = t ∨
      gap n (nextMarked n marked fuel i) t < gap n i t) := by
  induction fuel generalizing i with
  | zero =>
      have := gap_pos t hi
      omega
  | succ fuel ih =>
      rw [nextMarked]
      by_cases stop : (i + 1) % n = t
      · rw [if_pos (stop ▸ hm)]
        exact ⟨stop ▸ hm, .inl stop⟩
      · have closer := gap_succ hi ht stop
        split_ifs with hs
        · exact ⟨hs, .inr (by omega)⟩
        · have hj : (i + 1) % n < n := Nat.mod_lt _ (by omega)
          obtain ⟨m, h⟩ := ih hj (by omega)
          refine ⟨m, ?_⟩
          rcases h with h | h
          · exact .inl h
          · exact .inr (by omega)

/-- The search only looks at the `n` positions. -/
lemma nextMarked_congr {marked' : Nat → Prop} [DecidablePred marked'] (hn : 0 < n)
    (same : ∀ t < n, (marked t ↔ marked' t)) :
    nextMarked n marked fuel i = nextMarked n marked' fuel i := by
  induction fuel generalizing i with
  | zero => rfl
  | succ fuel ih =>
      have hj : (i + 1) % n < n := Nat.mod_lt _ hn
      simp only [nextMarked, same _ hj, ih]

/-- If any position is marked, a full round finds one. -/
lemma marked_nextMarked (marked : Nat → Prop) [DecidablePred marked] (ht : t < n) (hm : marked t)
    (i : Nat) : marked (nextMarked n marked n i) := by
  obtain ⟨k, rfl⟩ : ∃ k, n = k + 1 := ⟨n - 1, by omega⟩
  rw [← nextMarked_mod]
  have hi : i % (k + 1) < k + 1 := Nat.mod_lt _ (by omega)
  exact (nextMarked_spec hi ht hm (gap_le ht)).1

/-- Successive selections, the latest first: each is the next marked position after the one
before. -/
def Selections (n : Nat) (marked : Nat → Prop) [DecidablePred marked] (l : List Nat) : Prop :=
  (∀ i ∈ l, i < n) ∧ l.IsChain fun later earlier => later = nextMarked n marked n earlier

/-- The last selections are selections. -/
lemma Selections.take (h : Selections n marked l) (k : Nat) : Selections n marked (l.take k) :=
  ⟨fun i hi => h.1 i (List.mem_of_mem_take hi), h.2.take k⟩

/-- A further selection. -/
lemma Selections.cons (h : Selections n marked l) (hi : i < n)
    (next : ∀ j l', l = j :: l' → i = nextMarked n marked n j) : Selections n marked (i :: l) := by
  constructor
  · intro j hj
    rcases List.mem_cons.mp hj with rfl | hj
    · exact hi
    · exact h.1 j hj
  · cases l with
    | nil => exact List.isChain_singleton i
    | cons j l => exact List.isChain_cons_cons.mpr ⟨next j l rfl, h.2⟩

/-- A marked position that successive selections have missed is ahead by less than they are many. -/
lemma Selections.mem_or_gap {i : Nat} {l : List Nat} (h : Selections n marked (i :: l)) (ht : t < n)
    (hm : marked t) : t ∈ i :: l ∨ gap n i t + (i :: l).length ≤ n := by
  induction l generalizing i with
  | nil =>
      by_cases e : i = t
      · exact .inl (e ▸ List.mem_singleton_self i)
      · have hi := h.1 i List.mem_cons_self
        refine .inr ?_
        rw [gap, List.length_singleton]
        split_ifs <;> omega
  | cons j l ih =>
      have rest : Selections n marked (j :: l) :=
        ⟨fun k hk => h.1 k (List.mem_cons_of_mem i hk), h.2.tail⟩
      rcases ih rest with hit | hg
      · exact .inl (List.mem_cons_of_mem i hit)
      · have next : i = nextMarked n marked n j := by
          have := h.2
          rw [List.isChain_cons_cons] at this
          exact this.1
        obtain ⟨-, hs⟩ := nextMarked_spec (h.1 j (by simp)) ht hm (gap_le ht)
        rw [← next] at hs
        rcases hs with e | hlt
        · exact .inl (e ▸ List.mem_cons_self)
        · refine .inr ?_
          rw [List.length_cons] at hg ⊢
          rw [List.length_cons]
          omega

/-- **Round robin is fair**: any `n` successive selections contain every marked position. -/
theorem Selections.mem (h : Selections n marked l) (len : n ≤ l.length) (ht : t < n)
    (hm : marked t) :
    t ∈ l := by
  cases l with
  | nil =>
      rw [List.length_nil] at len
      omega
  | cons i l =>
      rcases h.mem_or_gap ht hm with hit | hg
      · exact hit
      · have := gap_pos t (h.1 i List.mem_cons_self)
        omega

end Lemmas

end Kernel391.Base
