import Mathlib.Tactic.Lemma
import Mathlib.Tactic.Common

/-!
# While loops

A loop is a test `c` and a partial body `f`; a body that is not defined is one that faults.
`whileLoop` gives the loop a number of passes: a loop that ends does so for every number of passes
that is large enough, and in the same state, and one that does not end has no result for any number.
An invariant with a measure shows the first, an invariant under which the test never fails the
second.
-/

namespace Kernel391.Base

variable {σ : Type*} {c : σ → Bool} {f : σ → Option σ} {s t t' : σ} {m n : Nat}

/-- The state a loop ends in, if it ends within `n` passes. -/
def whileLoop (c : σ → Bool) (f : σ → Option σ) : (n : Nat) → σ → Option σ
  | 0, s => if c s then none else some s
  | n + 1, s => if c s then (f s).bind (whileLoop c f n) else some s

/-- The loop stops where its condition fails. -/
lemma whileLoop_stop (n : Nat) (stop : c s = false) : whileLoop c f n s = some s := by
  cases n <;> rw [whileLoop, stop] <;> rfl

/-- The loop makes a pass where its condition holds. -/
lemma whileLoop_pass (go : c s = true) (pass : f s = some t) :
    whileLoop c f (n + 1) s = whileLoop c f n t := by
  rw [whileLoop, if_pos go, pass, Option.bind_some]

/-- More passes change nothing. -/
lemma whileLoop_mono (h : whileLoop c f n s = some t) (le : n ≤ m) :
    whileLoop c f m s = some t := by
  induction n generalizing s m with
  | zero =>
      rw [whileLoop] at h
      split_ifs at h with go
      cases h
      exact whileLoop_stop m (Bool.not_eq_true _ ▸ go)
  | succ n ih =>
      rw [whileLoop] at h
      split_ifs at h with go
      · obtain ⟨s', pass, rest⟩ := Option.bind_eq_some_iff.mp h
        obtain ⟨m, rfl⟩ := Nat.exists_eq_add_of_le le
        rw [Nat.add_right_comm, whileLoop_pass go pass]
        exact ih rest (Nat.le_add_right n m)
      · cases h
        exact whileLoop_stop m (Bool.not_eq_true _ ▸ go)

/-- A loop ends in one state. -/
lemma whileLoop_unique (h : whileLoop c f m s = some t) (h' : whileLoop c f n s = some t') :
    t = t' := by
  have all := whileLoop_mono h (Nat.le_max_left m n)
  have all' := whileLoop_mono h' (Nat.le_max_right m n)
  exact Option.some.inj (all.symm.trans all')

/-- A loop whose passes keep an invariant and decrease a measure ends, with the invariant. -/
lemma whileLoop_total (Inv : σ → Prop) (μ : σ → Nat)
    (pass : ∀ s, Inv s → c s = true → ∃ s', f s = some s' ∧ Inv s' ∧ μ s' < μ s)
    (h : Inv s) (enough : μ s ≤ n) : ∃ t, whileLoop c f n s = some t ∧ Inv t ∧ c t = false := by
  induction n generalizing s with
  | zero =>
      cases go : c s with
      | false => exact ⟨s, whileLoop_stop 0 go, h, go⟩
      | true =>
          obtain ⟨s', -, -, less⟩ := pass s h go
          omega
  | succ n ih =>
      cases go : c s with
      | false => exact ⟨s, whileLoop_stop (n + 1) go, h, go⟩
      | true =>
          obtain ⟨s', step, h', less⟩ := pass s h go
          rw [whileLoop_pass go step]
          exact ih h' (by omega)

/-- A loop does not end while an invariant holds under which its test does not fail. -/
lemma whileLoop_never (Inv : σ → Prop)
    (pass : ∀ s, Inv s → c s = true ∧ ∀ s', f s = some s' → Inv s') (h : Inv s) (n : Nat) :
    whileLoop c f n s = none := by
  induction n generalizing s with
  | zero => rw [whileLoop, if_pos (pass s h).1]
  | succ n ih =>
      obtain ⟨go, keep⟩ := pass s h
      rw [whileLoop, if_pos go]
      cases step : f s with
      | none => rfl
      | some s' => exact ih (keep s' step)

end Kernel391.Base
