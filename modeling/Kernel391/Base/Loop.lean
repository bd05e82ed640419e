import Mathlib.Tactic.Lemma
import Mathlib.Tactic.Common
import Mathlib.Logic.Function.Basic

/-!
# Loops that set one place after the other

The counting loop of an array program is a fold over `List.range`. When pass `i` sets what is seen
at place `i`, and what it sets depends on nothing the passes before it changed, the loop sets every
place below its bound and no other.
-/

namespace Kernel391.Base

variable {σ γ : Type*} {f : σ → Nat → σ} {s : σ} {N n : Nat}

/-- What is seen after a loop, at the places below `N`. -/
lemma foldl_range_set (view : σ → Nat → γ) (new : Nat → γ)
    (pass : ∀ t, ∀ i < n, (∀ k < N, i ≤ k → view t k = view s k) →
      ∀ k < N, view (f t i) k = if k = i then new i else view t k) :
    ∀ k < N, view ((List.range n).foldl f s) k = if k < n then new k else view s k := by
  induction n with
  | zero =>
    intro k _
    rw [if_neg (Nat.not_lt_zero k)]
    rfl
  | succ n ih =>
    have before := ih fun t i hi => pass t i (Nat.lt_succ_of_lt hi)
    rw [List.range_succ, List.foldl_append, List.foldl_cons, List.foldl_nil]
    have unchanged : ∀ k < N, n ≤ k → view ((List.range n).foldl f s) k = view s k := by
      intro k hk le
      rw [before k hk, if_neg (Nat.not_lt.mpr le)]
    intro k hk
    rw [pass _ n (Nat.lt_succ_self n) unchanged k hk, before k hk]
    by_cases last : k = n
    · rw [if_pos last, if_pos (by omega), last]
    · rw [if_neg last]
      by_cases lt : k < n
      · rw [if_pos lt, if_pos (Nat.lt_succ_of_lt lt)]
      · rw [if_neg lt, if_neg (by omega)]

/-- A loop that stores the same value at one place after the other, from place `a` on. -/
lemma foldl_range_update_from (g : Nat → γ) (v : γ) (a n : Nat) :
    (List.range n).foldl (fun g i => Function.update g (a + i) v) g =
      fun k => if a ≤ k ∧ k < a + n then v else g k := by
  induction n with
  | zero =>
    funext k
    rw [if_neg (by omega)]
    rfl
  | succ n ih =>
    rw [List.range_succ, List.foldl_append, ih, List.foldl_cons, List.foldl_nil]
    funext k
    rw [Function.update_apply]
    by_cases last : k = a + n
    · rw [if_pos last, if_pos (by omega)]
    · rw [if_neg last]
      by_cases inside : a ≤ k ∧ k < a + n
      · rw [if_pos inside, if_pos (by omega)]
      · rw [if_neg inside, if_neg (by omega)]

/-- A loop that sets the first `n` entries to one value. -/
lemma foldl_range_update (g : Nat → γ) (v : γ) (n : Nat) :
    (List.range n).foldl (fun g i => Function.update g i v) g = fun k => if k < n then v
      else g k := by
  have loop := foldl_range_update_from g v 0 n
  simp only [Nat.zero_add, Nat.zero_le, true_and] at loop
  exact loop

/-- What no pass of a loop changes, the loop does not change. -/
lemma foldl_keeps {α : Type*} (view : σ → γ) {f : σ → α → σ} (h : ∀ t a, view (f t a) = view t)
    (l : List α) : view (l.foldl f s) = view s := by
  induction l generalizing s with
  | nil => rfl
  | cons a l ih => rw [List.foldl_cons, ih, h]

end Kernel391.Base
