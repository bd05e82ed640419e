import Mathlib.Tactic.Lemma
import Mathlib.Tactic.Common

/-!
# Windows of an array

An array without a bound is a function of the index. A window is the list of its entries from an
index on.
-/

namespace Kernel391.Base

variable {α : Type*} {g g' : Nat → α} {p n m : Nat}

/-- The `n` entries from index `p` on. -/
def window (g : Nat → α) (p n : Nat) : List α := (List.range n).map fun k => g (p + k)

/-- A window of `n` cells has `n` of them. -/
@[simp] lemma length_window : (window g p n).length = n := by
  rw [window, List.length_map, List.length_range]

/-- The cells of a window. -/
lemma getElem_window {k : Nat} (hk : k < (window g p n).length) :
    (window g p n)[k] = g (p + k) := by
  simp only [window, List.getElem_map, List.getElem_range]

/-- Every cell in range is in the window. -/
lemma mem_window {k : Nat} (hk : k < n) : g (p + k) ∈ window g p n :=
  List.mem_map.mpr ⟨k, List.mem_range.mpr hk, rfl⟩

/-- A window with one cell more at its end. -/
lemma window_succ : window g p (n + 1) = window g p n ++ [g (p + n)] := by
  rw [window, List.range_succ, List.map_append]
  rfl

/-- Two windows side by side. -/
lemma window_append : window g p (n + m) = window g p n ++ window g (p + n) m := by
  induction m with
  | zero => exact (List.append_nil _).symm
  | succ m ih => rw [← Nat.add_assoc, window_succ, ih, window_succ, List.append_assoc,
      Nat.add_assoc]

/-- A window with one cell more at its start. -/
lemma window_cons : window g p (n + 1) = g p :: window g (p + 1) n := by
  rw [Nat.add_comm, window_append]
  rfl

/-- A window depends on its own cells only. -/
lemma window_congr (same : ∀ k < n, g' (p + k) = g (p + k)) : window g' p n = window g p n :=
  List.map_congr_left fun k hk => same k (List.mem_range.mp hk)

/-- A window that shows two lists shows the first of them, and the second behind it. -/
lemma window_eq_append {l l' : List α} (h : window g p (l ++ l').length = l ++ l') :
    window g p l.length = l ∧ window g (p + l.length) l'.length = l' := by
  rw [List.length_append, window_append] at h
  exact List.append_inj h length_window

end Kernel391.Base
