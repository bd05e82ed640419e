import Mathlib.Tactic.Lemma
import Mathlib.Tactic.Common

/-!
# Editing a bounded line

A line is a list of at most `cap` elements, edited at its end. An `Edit` adds elements, as far as
there is room, drops the last one, or empties the line. Editing commutes with `map`, so a line of
keystrokes can be edited in place of the line of their characters.
-/

namespace Kernel391.Base

variable {α β : Type*}

/-- An edit at the end of a line. -/
inductive Edit (α : Type*) where
  | add (xs : List α)
  | dropLast
  | clear

namespace Edit

/-- The line of at most `cap` elements after an edit; what does not fit is ignored. -/
def on (cap : Nat) (line : List α) : Edit α → List α
  | add xs => (line ++ xs).take cap
  | dropLast => line.dropLast
  | clear => []

/-- The edit with every element it adds replaced by its image. -/
def map (f : α → β) : Edit α → Edit β
  | add xs => add (xs.map f)
  | dropLast => dropLast
  | clear => clear

section Lemmas

variable {cap : Nat} {line xs ys : List α} {a : α} {e : Edit α}

/-- Editing commutes with `map`. -/
lemma on_map (f : α → β) : (e.map f).on cap (line.map f) = (e.on cap line).map f := by
  cases e with
  | add xs =>
    show (line.map f ++ xs.map f).take cap = ((line ++ xs).take cap).map f
    rw [← List.map_append, List.map_take]
  | dropLast => exact List.map_dropLast.symm
  | clear => rfl

/-- Everything on a line was added to it. -/
lemma mem_on (h : a ∈ e.on cap line) : a ∈ line ∨ ∃ xs, e = add xs ∧ a ∈ xs := by
  cases e with
  | add xs =>
    rcases List.mem_append.mp (List.mem_of_mem_take h) with old | new
    · exact .inl old
    · exact .inr ⟨xs, rfl, new⟩
  | dropLast => exact .inl (List.dropLast_subset line h)
  | clear => exact absurd h List.not_mem_nil

/-- Nothing is added. -/
lemma on_add_nil (h : line.length ≤ cap) : (add []).on cap line = line := by
  show (line ++ []).take cap = line
  rw [List.append_nil, List.take_of_length_le h]

/-- Adding twice is adding once. -/
lemma on_add_append : (add (xs ++ ys)).on cap line = (add ys).on cap ((add xs).on cap line) := by
  show (line ++ (xs ++ ys)).take cap = ((line ++ xs).take cap ++ ys).take cap
  rw [← List.append_assoc]
  rcases Nat.le_total cap (line ++ xs).length with full | room
  · have filled : cap ≤ ((line ++ xs).take cap).length := by
      rw [List.length_take]
      omega
    rw [List.take_append_of_le_length full, List.take_append_of_le_length filled, List.take_take,
      Nat.min_self]
  · rw [List.take_of_length_le room]

end Lemmas

end Edit

end Kernel391.Base
