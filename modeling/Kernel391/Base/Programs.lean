import Mathlib.Tactic.Lemma
import Mathlib.Tactic.Common

/-!
# Programs that make calls

A program is what it does with the answer to its next call. A machine answers calls and changes its
state; a program runs on any machine, and the same program on two machines of which one simulates
the other gives the same result. `Ends` says that a program ends on a machine, and what holds then;
it has one rule for each way to build a program.
-/

namespace Kernel391.Base

/-- A program over the calls `C` with answers `A`. `stuck` has no result: it stands for a loop that
has used up its passes, and for a step the program may not make. -/
inductive Program (C A α : Type) where
  | done (a : α)
  | call (c : C) (next : A → Program C A α)
  | stuck

/-- What answers the calls of a program. -/
abbrev Machine (C A σ : Type) := σ → C → Option (σ × A)

namespace Program

variable {C A α β γ σ τ : Type}

/-- One program after the other. -/
def andThen (p : Program C A α) (f : α → Program C A β) : Program C A β :=
  match p with
  | .done a => f a
  | .call c next => .call c fun a => (next a).andThen f
  | .stuck => .stuck

/-- Programs are sequenced by `andThen`. -/
instance : Monad (Program C A) where
  pure := .done
  bind := andThen

/-- The program that makes one call. -/
def perform (c : C) : Program C A A := .call c .done

/-- A value that may be missing; a program does not go on without it. -/
def need : Option α → Program C A α
  | some a => .done a
  | none => .stuck

/-- A loop of at most `n` passes; a pass ends the loop or says with what the next one starts. -/
def loop (body : β → Program C A (β ⊕ α)) : Nat → β → Program C A α
  | 0, _ => .stuck
  | n + 1, b => (body b).andThen fun
    | .inl b' => loop body n b'
    | .inr a => .done a

/-- What a program does on a machine. -/
def run (m : Machine C A σ) : Program C A α → σ → Option (σ × α)
  | .done a, s => some (s, a)
  | .call c next, s => (m s c).bind fun x => (next x.2).run m x.1
  | .stuck, _ => none

/-- The program ends on the machine, in a state and with a result of which `Q` holds. -/
def Ends (m : Machine C A σ) (Q : α → σ → Prop) (p : Program C A α) (s : σ) : Prop :=
  ∃ s' a, p.run m s = some (s', a) ∧ Q a s'

/-- Every answer of `m'` is one of `m`, and the states stay related. -/
def Simulates (R : σ → τ → Prop) (m : Machine C A σ) (m' : Machine C A τ) : Prop :=
  ∀ s t c t' a, R s t → m' t c = some (t', a) → ∃ s', m s c = some (s', a) ∧ R s' t'

section Rules

variable {m : Machine C A σ} {m' : Machine C A τ} {Q Q' : α → σ → Prop}
  {p : Program C A α} {s s' : σ} {c : C} {a : A}

/-- A run of two programs in sequence. -/
lemma run_andThen (p : Program C A α) (f : α → Program C A β) (s : σ) :
    (p.andThen f).run m s = (p.run m s).bind fun x => (f x.2).run m x.1 := by
  induction p generalizing s with
  | done a => rfl
  | stuck => rfl
  | call c next ih =>
    rw [andThen, run, run, Option.bind_assoc]
    exact congrArg _ (funext fun x => ih x.2 x.1)

/-- A program that is done ends. -/
lemma Ends.done {x : α} (h : Q x s) : Ends m Q (.done x) s := ⟨s, x, rfl, h⟩

/-- A program that starts with a call. -/
lemma Ends.call {next : A → Program C A α} (answer : m s c = some (s', a))
    (rest : Ends m Q (next a) s') : Ends m Q (.call c next) s := by
  obtain ⟨s'', x, run_rest, h⟩ := rest
  exact ⟨s'', x, by rw [run, answer, Option.bind_some, run_rest], h⟩

/-- A single call ends when the machine answers it. -/
lemma Ends.perform {Q : A → σ → Prop} (answer : m s c = some (s', a)) (h : Q a s') :
    Ends m Q (perform c) s := .call answer (.done h)

/-- The rule of sequence. -/
lemma Ends.andThen {f : α → Program C A β} {Q : β → σ → Prop}
    (first : Ends m (fun a s => Ends m Q (f a) s) p s) : Ends m Q (p.andThen f) s := by
  obtain ⟨s', a, run_first, s'', b, run_rest, h⟩ := first
  exact ⟨s'', b, by rw [run_andThen, run_first, Option.bind_some, run_rest], h⟩

/-- The rule of sequence, for `do` blocks. -/
lemma Ends.bind {f : α → Program C A β} {Q : β → σ → Prop}
    (first : Ends m (fun a s => Ends m Q (f a) s) p s) : Ends m Q (p >>= f) s := first.andThen

/-- A value that is there. -/
lemma Ends.need {o : Option α} {x : α} {f : α → Program C A β} {Q : β → σ → Prop} (h : o = some x)
    (rest : Ends m Q (f x) s) : Ends m Q (need o >>= f) s := by
  rw [h]
  exact .bind (.done rest)

/-- The rule of consequence. -/
lemma Ends.mono (h : Ends m Q p s) (imp : ∀ a s, Q a s → Q' a s) : Ends m Q' p s := by
  obtain ⟨s', a, run_p, q⟩ := h
  exact ⟨s', a, run_p, imp a s' q⟩

/-- A loop ends when every pass ends it or comes closer to its end. -/
lemma Ends.loop {body : β → Program C A (β ⊕ α)} (P : β → σ → Prop) (μ : β → σ → Nat)
    (pass : ∀ b s, P b s → Ends m (fun x s' => match x with
      | .inl b' => P b' s' ∧ μ b' s' < μ b s
      | .inr a => Q a s') (body b) s)
    {b : β} {n : Nat} (h : P b s) (enough : μ b s < n) : Ends m Q (loop body n b) s := by
  induction n generalizing b s with
  | zero => exact absurd enough (Nat.not_lt_zero _)
  | succ n ih =>
    refine .andThen ((pass b s h).mono fun x s' hx => ?_)
    cases x with
    | inl b' => exact ih hx.1 (by omega)
    | inr a => exact .done hx

end Rules

/-- **Simulation**: what a program does on a machine it does on every machine that simulates it. -/
theorem run_simulates {R : σ → τ → Prop} {m : Machine C A σ} {m' : Machine C A τ}
    (sim : Simulates R m m') (p : Program C A α) {s : σ} {t t' : τ} {x : α} (h : R s t)
    (done : p.run m' t = some (t', x)) :
    ∃ s', p.run m s = some (s', x) ∧ R s' t' := by
  induction p generalizing s t with
  | done a =>
    cases done
    exact ⟨s, rfl, h⟩
  | stuck => cases done
  | call c next ih =>
    obtain ⟨⟨t₁, a⟩, answer, rest⟩ := Option.bind_eq_some_iff.mp done
    obtain ⟨s₁, answer', h₁⟩ := sim s t c t₁ a h answer
    obtain ⟨s', run_rest, h'⟩ := ih a h₁ rest
    exact ⟨s', by rw [run, answer', Option.bind_some, run_rest], h'⟩

/-- A program that ends on the abstract machine ends on every machine that simulates it. -/
lemma Ends.simulates {R : σ → τ → Prop} {m : Machine C A σ} {m' : Machine C A τ}
    (sim : Simulates R m m') {p : Program C A α} {Q : α → τ → Prop} {s : σ} {t : τ} (h : R s t)
    (ends : Ends m' Q p t) :
    Ends m (fun a s' => ∃ t', R s' t' ∧ Q a t') p s := by
  obtain ⟨t', a, run_p, q⟩ := ends
  obtain ⟨s', run_p', h'⟩ := run_simulates sim p h run_p
  exact ⟨s', a, run_p', t', h', q⟩

end Program

end Kernel391.Base
