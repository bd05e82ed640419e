import Kernel391.Process.Arguments

/-!
# Parsing a command

Every command is spaces, a word, spaces and the rest. The parser of `execute` leaves the word and
the rest in its two buffers of 33 bytes when both fit with their terminators; it tests the length
one byte too late, so when one does not fit it has already stored outside its buffer (`parses_iff`).
-/

namespace Kernel391
open Base

/-- The program word of a command: what follows the leading spaces, up to the next space. -/
def commandWord (command : List UInt8) : List UInt8 :=
  (command.dropWhile (· = 32)).takeWhile (· ≠ 32)

/-- The argument text of a command: what follows the word and the spaces behind it. -/
def commandRest (command : List UInt8) : List UInt8 :=
  ((command.dropWhile (· = 32)).dropWhile (· ≠ 32)).dropWhile (· = 32)

/-- The parser stores inside its buffers; it refuses a word or a rest that is too long, with nothing
changed, and otherwise leaves exactly the word and the rest, terminated. -/
structure Parses (text : List UInt8) : Prop where
  inside : ¬ (parseCommand text).overrun
  long : 32 < (commandWord text).length ∨ 32 < (commandRest text).length →
    ∀ fr s command, upToNul command = text →
      Kernel.execute fr s (some command) = some (s, .ret (-1))
  short : (commandWord text).length ≤ 32 → (commandRest text).length ≤ 32 →
    parseCommand text = ⟨commandWord text ++ [0], commandRest text ++ [0], true⟩

section Parser

variable {text : List UInt8}

/-- What follows the word. -/
lemma commandWord_append (text : List UInt8) : commandWord text
    ++ (text.dropWhile (· = 32)).dropWhile (· ≠ 32) = text.dropWhile (· = 32) :=
  List.takeWhile_append_dropWhile

/-- The word of a command line holds no blank. -/
lemma commandWord_go : ∀ b ∈ commandWord text, decide (b = 32) = false := by
  intro b hb
  have ne := List.mem_takeWhile_imp hb
  exact decide_eq_false (of_decide_eq_true ne)

/-- The word ends with the command or at a space. -/
lemma commandWord_ends (rest : List UInt8) : rest.dropWhile (· ≠ 32) = [] ∨
    ∃ c cs, rest.dropWhile (· ≠ 32) = c :: cs ∧ decide (c = (32 : UInt8)) = true := by
  have stops := List.head?_dropWhile_not (fun b : UInt8 => decide (b ≠ 32)) rest
  cases h : rest.dropWhile (· ≠ 32) with
  | nil => exact .inl rfl
  | cons c cs =>
      rw [h] at stops
      have here : c = 32 := not_not.mp (of_decide_eq_false stops)
      exact .inr ⟨c, cs, rfl, decide_eq_true here⟩

/-- The first two loops. -/
lemma fillCommand_commandWord (h : (commandWord text).length ≤ 33) :
    fillCommand (· = 32) [] (text.dropWhile (· = 32))
      = (commandWord text, some ((text.dropWhile (· = 32)).dropWhile (· ≠ 32))) := by
  have fill := fillCommand_word [] commandWord_go h (commandWord_ends (text.dropWhile (· = 32)))
  rw [commandWord_append] at fill
  exact fill

/-- The last two loops. -/
lemma fillCommand_commandRest (h : (commandRest text).length ≤ 33) :
    fillCommand (fun _ => false) [] (commandRest text) = (commandRest text, some []) := by
  have fill := fillCommand_word [] (w := commandRest text)
    (fun _ _ => rfl) h (.inl rfl : ([] : List UInt8) = [] ∨ _)
  rw [List.append_nil] at fill
  exact fill

/-- A word and a rest that fit are left in the buffers. -/
lemma parseCommand_short (hw : (commandWord text).length ≤ 33)
    (ha : (commandRest text).length ≤ 33) :
    parseCommand text = ⟨commandWord text ++ [0], commandRest text ++ [0], true⟩ := by
  rw [parseCommand, fillCommand_commandWord hw]
  dsimp only
  rw [← commandRest, fillCommand_commandRest ha]

/-- A word that is too long is stored outside its buffer. -/
lemma overrun_word (h : 32 < (commandWord text).length) : (parseCommand text).overrun := by
  refine .inl ?_
  rw [fileNameLength]
  rcases Nat.lt_or_ge 33 (commandWord text).length with long | fits
  · -- the bound is tested behind the store of byte 34
    obtain ⟨stored, gave_up⟩ := fillCommand_long [] ((text.dropWhile (· = 32)).dropWhile (· ≠ 32))
      commandWord_go long (Nat.zero_le 33)
    rw [commandWord_append] at stored gave_up
    rw [parseCommand, ← Prod.eta (fillCommand _ _ _), gave_up]
    dsimp only
    omega
  · -- the word fills the buffer, and the terminator goes behind it
    rw [parseCommand, fillCommand_commandWord fits]
    dsimp only
    have length : (commandWord text ++ [0]).length = (commandWord text).length + 1 :=
      List.length_append
    split
    · dsimp only
      omega
    · dsimp only
      omega

/-- So is a rest that is too long. -/
lemma overrun_rest (hw : (commandWord text).length ≤ 32) (h : 32 < (commandRest text).length) :
    (parseCommand text).overrun := by
  refine .inr ?_
  rw [fileNameLength]
  rcases Nat.lt_or_ge 33 (commandRest text).length with long | fits
  · obtain ⟨stored, gave_up⟩ := fillCommand_long [] [] (w := commandRest text)
      (fun _ _ => rfl) long (Nat.zero_le 33)
    rw [List.append_nil] at stored gave_up
    rw [parseCommand, fillCommand_commandWord (Nat.le_succ_of_le hw)]
    dsimp only
    rw [← commandRest, ← Prod.eta (fillCommand _ _ _), gave_up]
    dsimp only
    omega
  · have length : (commandRest text ++ [0]).length = (commandRest text).length + 1 :=
      List.length_append
    rw [parseCommand_short (Nat.le_succ_of_le hw) fits]
    dsimp only
    omega

end Parser

/-- **Command parsing.** The parser does with a command what it should exactly when neither the word
nor the rest is longer than 32 bytes. -/
theorem parses_iff (text : List UInt8) :
    Parses text ↔ (commandWord text).length ≤ 32 ∧ (commandRest text).length ≤ 32 := by
  constructor
  · intro parses
    by_contra long
    refine parses.inside ?_
    by_cases hw : (commandWord text).length ≤ 32
    · exact overrun_rest hw (by omega)
    · exact overrun_word (by omega)
  · rintro ⟨hw, ha⟩
    have parsed := parseCommand_short (Nat.le_succ_of_le hw) (Nat.le_succ_of_le ha)
    refine ⟨?_, fun long => by omega, fun _ _ => parsed⟩
    rw [Parsed.overrun, parsed, fileNameLength, List.length_append, List.length_append,
      List.length_singleton]
    omega

/-- A word of 33 letters: the terminator is stored behind the buffer. -/
theorem not_always_parses : ¬ ∀ text, Parses text := by
  intro claim
  exact (claim (List.replicate 33 97)).inside (by decide)

end Kernel391
