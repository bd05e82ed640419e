import Mathlib.Tactic.Lemma
import Mathlib.Tactic.Common

/-!
# Lines of a text

The lines of a text are what lies between its separators. A function of lines extends to texts, line
by line; what it gives for a text that comes in pieces is what it gives for the finished lines and
then for the rest.
-/

namespace Kernel391.Base

variable {α β : Type} [BEq α] [LawfulBEq α]

/-- A function of lines, over all lines of a text. -/
def onLines (sep : α) (f : List α → List β) (text : List α) : List β := (text.splitOn sep).flatMap f

/-- No line of the text is longer than `n`. -/
def LinesWithin (sep : α) (n : Nat) (text : List α) : Prop :=
  ∀ line ∈ text.splitOn sep, line.length ≤ n

section Lines

variable {sep : α} {f : List α → List β} {n : Nat} {line text rest : List α}

/-- A text is one line, or a line and more. -/
lemma line_or_more (sep : α) (text : List α) :
    sep ∉ text ∨ ∃ line rest, text = line ++ sep :: rest ∧ sep ∉ line := by
  by_cases h : sep ∈ text
  · exact .inr (List.eq_append_cons_of_mem h)
  · exact .inl h

/-- A text without separator is one line. -/
lemma onLines_line (h : sep ∉ line) : onLines sep f line = f line := by
  rw [onLines, List.splitOn_eq_singleton h, List.flatMap_singleton]

/-- The first line and the others. -/
lemma onLines_more (h : sep ∉ line) : onLines sep f (line ++ sep :: rest)
    = f line ++ onLines sep f rest := by
  rw [onLines, List.splitOn_append_cons_self_of_not_mem h, List.flatMap_cons]
  rfl

/-- An empty line to which `f` gives nothing can be left out. -/
lemma onLines_sep (h : f [] = []) : onLines sep f (sep :: rest) = onLines sep f rest := by
  rw [← List.nil_append (sep :: rest), onLines_more List.not_mem_nil, h, List.nil_append]

/-- The first line is within the bound. -/
lemma LinesWithin.first (h : LinesWithin sep n (line ++ sep :: rest)) (free : sep ∉ line) :
    line.length ≤ n := by
  rw [LinesWithin, List.splitOn_append_cons_self_of_not_mem free] at h
  exact h line List.mem_cons_self

/-- The other lines are within the bound. -/
lemma LinesWithin.more (h : LinesWithin sep n (line ++ sep :: rest)) (free : sep ∉ line) :
    LinesWithin sep n rest := by
  rw [LinesWithin, List.splitOn_append_cons_self_of_not_mem free] at h
  exact fun l hl => h l (List.mem_cons_of_mem line hl)

omit [LawfulBEq α] in
/-- The empty text is within every bound. -/
lemma LinesWithin.empty : LinesWithin sep n [] := by
  intro line hl
  rw [List.splitOn_nil, List.mem_singleton] at hl
  rw [hl]
  exact Nat.zero_le n

/-- The text may start at the end of its first line. -/
lemma LinesWithin.cut (h : LinesWithin sep n (line ++ sep :: rest)) (free : sep ∉ line) :
    LinesWithin sep n (sep :: rest) := by
  have whole : ([] ++ sep :: rest).splitOn sep = [] :: rest.splitOn sep :=
    List.splitOn_append_cons_self_of_not_mem List.not_mem_nil rest
  intro l hl
  rw [← List.nil_append (sep :: rest), whole] at hl
  cases hl with
  | head => exact Nat.zero_le n
  | tail _ hl => exact h.more free l hl

/-- Behind `n` elements of a line there is no more of the line. -/
lemma LinesWithin.full (h : LinesWithin sep n (line ++ rest)) (free : sep ∉ line)
    (long : n ≤ line.length) :
    rest = [] ∨ ∃ rest', rest = sep :: rest' := by
  rcases line_or_more sep rest with one | ⟨line', rest', rfl, free'⟩
  · have whole : sep ∉ line ++ rest := by
      rw [List.mem_append, not_or]
      exact ⟨free, one⟩
    rw [LinesWithin, List.splitOn_eq_singleton whole] at h
    have short := h _ List.mem_cons_self
    rw [List.length_append] at short
    exact .inl (List.eq_nil_of_length_eq_zero (by omega))
  · rw [← List.append_assoc] at h
    have whole : sep ∉ line ++ line' := by
      rw [List.mem_append, not_or]
      exact ⟨free, free'⟩
    have short := LinesWithin.first h whole
    rw [List.length_append] at short
    rw [List.eq_nil_of_length_eq_zero (l := line') (by omega)]
    exact .inr ⟨rest', rfl⟩

end Lines

end Kernel391.Base
