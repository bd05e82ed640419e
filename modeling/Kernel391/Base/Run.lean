import Mathlib.Tactic.Lemma
import Mathlib.Tactic.Common

/-!
# Runs of a partial deterministic system

A system is a partial step function `step : σ → ι → Option σ`; `none` means that the step does not
complete. `runs` iterates it over a list of inputs, `Along` says that every step a run takes meets a
relation between the state before, the input and the state after, and `Throughout` that every state
it passes through has a property. The rules below carry an invariant along a run, and turn an exact
condition on one step into an exact condition on whole runs.
-/

namespace Kernel391.Base

variable {σ τ ι : Type*}

/-- The state a run of `step` over the inputs ends in, if every step completes. -/
def runs (step : σ → ι → Option σ) : σ → List ι → Option σ
  | s, [] => some s
  | s, i :: is => (step s i).bind fun s' => runs step s' is

/-- Every step the run takes relates the state before, the input and the state after by `Q`. -/
def Along (step : σ → ι → Option σ) (Q : σ → ι → σ → Prop) : σ → List ι → Prop
  | _, [] => True
  | s, i :: is => ∀ s', step s i = some s' → Q s i s' ∧ Along step Q s' is

/-- Every state the run passes through, the first included, has property `P`. -/
def Throughout (step : σ → ι → Option σ) (P : σ → Prop) (s : σ) (is : List ι) : Prop :=
  P s ∧ Along step (fun _ _ s' => P s') s is

/-- Every step the run takes starts in a state, and with an input, that meet `C`. -/
def Meets (step : σ → ι → Option σ) (C : σ → ι → Prop) (s : σ) (is : List ι) : Prop :=
  Along step (fun s i _ => C s i) s is

/-- Every step of the run completes and relates the state before, the input and the state after by
`Q`. -/
def Performs (step : σ → ι → Option σ) (Q : σ → ι → σ → Prop) : σ → List ι → Prop
  | _, [] => True
  | s, i :: is => ∃ s', step s i = some s' ∧ Q s i s' ∧ Performs step Q s' is

/-- Every step the run comes to, whether it completes or not, starts in a state, and with an input,
that meet `C`. -/
def Admits (step : σ → ι → Option σ) (C : σ → ι → Prop) : σ → List ι → Prop
  | _, [] => True
  | s, i :: is => C s i ∧ ∀ s', step s i = some s' → Admits step C s' is

section Rules

variable {step : σ → ι → Option σ} {s s' : σ} {i : ι} {is : List ι}
variable {P : σ → Prop} {C : σ → ι → Prop} {Q : σ → ι → σ → Prop} (Inv : σ → Prop)

/-- A run over no input stays where it is. -/
@[simp] lemma runs_nil : runs step s [] = some s := rfl

/-- A run takes its first step and goes on. -/
@[simp] lemma runs_cons : runs step s (i :: is) = (step s i).bind fun s' => runs step s' is := rfl

/-- Nothing is to be shown along a run over no input. -/
@[simp] lemma along_nil : Along step Q s [] := trivial

/-- A run whose first step is known. -/
lemma Along.cons (hQ : Q s i s') (st : step s i = some s') (rest : Along step Q s' is) :
    Along step Q s (i :: is) := by
  intro t st'
  obtain rfl := Option.some.inj (st.symm.trans st')
  exact ⟨hQ, rest⟩

/-- The first state and input meet the condition, and the rest of the run does. -/
lemma Meets.cons (hC : C s i) (st : step s i = some s') (rest : Meets step C s' is) :
    Meets step C s (i :: is) := Along.cons (Q := fun s i _ => C s i) hC st rest

/-- The first state and input are admitted, and the rest of the run is. -/
lemma Admits.cons (hC : C s i) (st : step s i = some s') (rest : Admits step C s' is) :
    Admits step C s (i :: is) := by
  refine ⟨hC, fun t st' => ?_⟩
  obtain rfl := Option.some.inj (st.symm.trans st')
  exact rest

/-- A run over two lists of inputs. -/
lemma runs_append {js : List ι} :
    runs step s (is ++ js) = (runs step s is).bind fun t => runs step t js := by
  induction is generalizing s with
  | nil => rfl
  | cons i is ih =>
    rw [List.cons_append, runs_cons, runs_cons, Option.bind_assoc]
    congr 1
    funext t
    exact ih

/-- What holds along a run can be weakened. -/
lemma Along.imp {Q' : σ → ι → σ → Prop} (imp : ∀ s i s', Q s i s' → Q' s i s')
    (h : Along step Q s is) : Along step Q' s is := by
  induction is generalizing s with
  | nil => trivial
  | cons i is ih =>
    intro t st
    obtain ⟨ht, rest⟩ := h t st
    exact ⟨imp s i t ht, ih rest⟩

/-- What holds along a run holds of a step behind it. -/
lemma Along.next {t t' : σ} (h : Along step Q s (is ++ [i])) (run : runs step s is = some t)
    (st : step t i = some t') : Q t i t' := by
  induction is generalizing s with
  | nil =>
    cases run
    exact (h t' st).1
  | cons j is ih =>
    obtain ⟨u, first, rest⟩ := Option.bind_eq_some_iff.mp run
    exact ih (h u first).2 rest

/-- An invariant that every step keeps holds at the end of every run. -/
lemma inv_runs (keep : ∀ s i s', Inv s → step s i = some s' → Inv s') (h0 : Inv s)
    (run : runs step s is = some s') : Inv s' := by
  induction is generalizing s with
  | nil => cases run; exact h0
  | cons i is ih =>
    obtain ⟨t, st, run'⟩ := Option.bind_eq_some_iff.mp run
    exact ih (keep s i t h0 st) run'

/-- A run completes when, under an invariant, every step that meets `C` does, and all of its steps
meet `C`. -/
lemma runs_of_admits (keep : ∀ s i, Inv s → C s i → ∃ s', step s i = some s' ∧ Inv s')
    (h0 : Inv s) (admits : Admits step C s is) : ∃ s', runs step s is = some s' ∧ Inv s' := by
  induction is generalizing s with
  | nil => exact ⟨s, rfl, h0⟩
  | cons i is ih =>
    obtain ⟨hC, rest⟩ := admits
    obtain ⟨t, st, ht⟩ := keep s i h0 hC
    obtain ⟨s', run, h'⟩ := ih ht (rest t st)
    exact ⟨s', by rw [runs_cons, st, Option.bind_some, run], h'⟩

/-- A condition every input meets. -/
lemma admits_of_inputs {D : ι → Prop} (all : ∀ i ∈ is, D i) :
    Admits step (fun _ i => D i) s is := by
  induction is generalizing s with
  | nil => trivial
  | cons i is ih =>
    obtain ⟨hi, rest⟩ := List.forall_mem_cons.mp all
    exact ⟨hi, fun t _ => ih rest⟩

/-- A run completes when, under an invariant, every step with an input that meets `D` does. -/
lemma runs_complete {D : ι → Prop} (keep : ∀ s i, Inv s → D i → ∃ s', step s i = some s' ∧ Inv s')
    (h0 : Inv s) (all : ∀ i ∈ is, D i) : ∃ s', runs step s is = some s' ∧ Inv s' :=
  runs_of_admits Inv keep h0 (admits_of_inputs all)

/-- A condition every input meets. -/
lemma meets_of_inputs {D : ι → Prop} (all : ∀ i ∈ is, D i) : Meets step (fun _ i => D i) s is := by
  induction is generalizing s with
  | nil => trivial
  | cons i is ih =>
    obtain ⟨hi, rest⟩ := List.forall_mem_cons.mp all
    exact fun t _ => ⟨hi, ih rest⟩

/-- A condition on the inputs alone, along a run that completes. -/
lemma meets_inputs {D : ι → Prop} (run : runs step s is = some s') :
    Meets step (fun _ i => D i) s is ↔ ∀ i ∈ is, D i := by
  induction is generalizing s with
  | nil => exact ⟨fun _ i hi => absurd hi List.not_mem_nil, fun _ => trivial⟩
  | cons i is ih =>
    obtain ⟨t, st, run'⟩ := Option.bind_eq_some_iff.mp run
    rw [List.forall_mem_cons, ← ih run']
    exact ⟨fun meets => meets t st, fun ⟨hi, rest⟩ => Meets.cons hi st rest⟩

/-- Under an invariant, a relation on single steps that meet `C` holds of every step of a run whose
steps all meet `C`. -/
lemma along_of_meets
    (keep : ∀ s i s', Inv s → C s i → step s i = some s' → Inv s' ∧ Q s i s') (h0 : Inv s)
    (meets : Meets step C s is) : Along step Q s is := by
  induction is generalizing s with
  | nil => trivial
  | cons i is ih =>
    intro t st
    obtain ⟨hC, rest⟩ := meets t st
    obtain ⟨ht, hQ⟩ := keep s i t h0 hC st
    exact ⟨hQ, ih ht rest⟩

/-- A relation that holds of every step under an invariant holds along every run. -/
lemma along_of_inv (keep : ∀ s i s', Inv s → step s i = some s' → Inv s' ∧ Q s i s') (h0 : Inv s) :
    Along step Q s is := by
  induction is generalizing s with
  | nil => trivial
  | cons i is ih =>
    intro t st
    obtain ⟨ht, hQ⟩ := keep s i t h0 st
    exact ⟨hQ, ih ht⟩

/-- What holds throughout a run holds where it ends. -/
lemma Throughout.last (h : Throughout step P s is) (run : runs step s is = some s') : P s' := by
  obtain ⟨h0, rest⟩ := h
  induction is generalizing s with
  | nil => cases run; exact h0
  | cons i is ih =>
    obtain ⟨t, st, run'⟩ := Option.bind_eq_some_iff.mp run
    obtain ⟨ht, rest'⟩ := rest t st
    exact ih run' ht rest'

/-- Two relations hold along the same runs if, under an invariant the first one keeps, they hold of
the same steps. -/
lemma along_iff {Q' : σ → ι → σ → Prop}
    (keep : ∀ s i s', Inv s → step s i = some s' → (Q s i s' → Inv s') ∧ (Q s i s' ↔ Q' s i s'))
    (hI : Inv s) : Along step Q s is ↔ Along step Q' s is := by
  induction is generalizing s with
  | nil => exact Iff.rfl
  | cons i is ih =>
    constructor
    · intro along t st
      obtain ⟨hQ, rest⟩ := along t st
      obtain ⟨keepI, iff⟩ := keep s i t hI st
      exact ⟨iff.mp hQ, (ih (keepI hQ)).mp rest⟩
    · intro along t st
      obtain ⟨hQ', rest⟩ := along t st
      obtain ⟨keepI, iff⟩ := keep s i t hI st
      exact ⟨iff.mpr hQ', (ih (keepI (iff.mpr hQ'))).mpr rest⟩

/-- If, from every state that has the invariant, one step is related by `Q` exactly when it meets
`C`, and then keeps the invariant, then a run is related by `Q` all along exactly when every one of
its steps meets `C`. -/
lemma along_iff_meets
    (keep : ∀ s i s', Inv s → step s i = some s' → (Q s i s' → Inv s') ∧ (Q s i s' ↔ C s i))
    (hI : Inv s) : Along step Q s is ↔ Meets step C s is := along_iff Inv keep hI

/-- If, from every state that has the invariant, a step completes and is related by `Q` exactly when
it meets `C`, and then keeps the invariant, then a run completes with every step related by `Q`
exactly when every step it comes to meets `C`. -/
lemma performs_iff_admits
    (keep : ∀ s i, Inv s → ((∃ s', step s i = some s' ∧ Q s i s') ↔ C s i) ∧
      ∀ s', step s i = some s' → C s i → Inv s')
    (hI : Inv s) : Performs step Q s is ↔ Admits step C s is := by
  induction is generalizing s with
  | nil => exact Iff.rfl
  | cons i is ih =>
    obtain ⟨iff, kept⟩ := keep s i hI
    constructor
    · rintro ⟨t, st, hQ, rest⟩
      have hC := iff.mp ⟨t, st, hQ⟩
      refine ⟨hC, fun t' st' => ?_⟩
      obtain rfl := Option.some.inj (st.symm.trans st')
      exact (ih (kept t st hC)).mp rest
    · rintro ⟨hC, rest⟩
      obtain ⟨t, st, hQ⟩ := iff.mpr hC
      exact ⟨t, st, hQ, (ih (kept t st hC)).mpr (rest t st)⟩

/-- Two properties hold along a run exactly when each does. -/
lemma along_and {Q' : σ → ι → σ → Prop} :
    Along step (fun s i s' => Q s i s' ∧ Q' s i s') s is ↔ Along step Q s is ∧
      Along step Q' s is := by
  induction is generalizing s with
  | nil => exact ⟨fun _ => ⟨trivial, trivial⟩, fun _ => trivial⟩
  | cons i is ih =>
    constructor
    · intro both
      refine ⟨fun t st => ?_, fun t st => ?_⟩
      · obtain ⟨⟨hQ, -⟩, rest⟩ := both t st
        exact ⟨hQ, (ih.mp rest).1⟩
      · obtain ⟨⟨-, hQ'⟩, rest⟩ := both t st
        exact ⟨hQ', (ih.mp rest).2⟩
    · rintro ⟨along, along'⟩ t st
      obtain ⟨hQ, rest⟩ := along t st
      obtain ⟨hQ', rest'⟩ := along' t st
      exact ⟨⟨hQ, hQ'⟩, ih.mpr ⟨rest, rest'⟩⟩

/-- **Exact conditions lift to runs.** If, from every state that has the invariant and property `P`,
one step keeps `P` exactly when it meets `C`, then a run has `P` throughout exactly when every one
of its steps meets `C`. -/
lemma throughout_iff_meets
    (keep : ∀ s i s', Inv s → P s → step s i = some s' → (P s' → Inv s') ∧ (P s' ↔ C s i))
    (hI : Inv s) (hP : P s) : Throughout step P s is ↔ Meets step C s is := by
  rw [Throughout, and_iff_right hP]
  refine along_iff_meets (fun s => Inv s ∧ P s) (fun s i s' h st => ?_) ⟨hI, hP⟩
  obtain ⟨keepI, iff⟩ := keep s i s' h.1 h.2 st
  exact ⟨fun hP' => ⟨keepI hP', hP'⟩, iff⟩

end Rules

end Kernel391.Base
