import Kernel391.Base.Run

/-!
# Functions with a log

A function can keep a log beside the state it works on. `Logs P f w x` says that on `x` the logged
function `w` does what `f` does, and that the entries it adds have property `P`; `LogsTo` is the
same for a partial step, and carries over to runs.
-/

namespace Kernel391.Base

variable {σ ι α : Type*} {P : ι → Prop}

/-- On `x`, the logged function `w` does what `f` does and adds entries with property `P` only. -/
structure Logs (P : ι → Prop) (f : σ → σ) (w : σ × List ι → σ × List ι) (x : σ × List ι) :
    Prop where
  same : (w x).1 = f x.1
  entries : ∀ k ∈ (w x).2, k ∈ x.2 ∨ P k

/-- A logged step from `x` comes to `s'` and adds entries with property `P` only. -/
def LogsTo (P : ι → Prop) (x : σ × List ι) (s' : σ) (o : Option (σ × List ι)) : Prop :=
  ∃ l, o = some (s', l) ∧ ∀ k ∈ l, k ∈ x.2 ∨ P k

section Rules

variable {f g : σ → σ} {v w : σ × List ι → σ × List ι} {x : σ × List ι} {s' : σ}
variable {o : Option (σ × List ι)}

/-- A step that adds nothing. -/
lemma Logs.silent (f : σ → σ) (x : σ × List ι) : Logs P f (fun x => (f x.1, x.2)) x :=
  ⟨rfl, fun _ => .inl⟩

/-- Entries on top of others. -/
lemma Logs.after {l : List ι} (h : Logs P f w x) (old : ∀ k ∈ x.2, k ∈ l ∨ P k) :
    ∀ k ∈ (w x).2, k ∈ l ∨ P k := by
  intro k hk
  rcases h.entries k hk with before | new
  · exact old k before
  · exact .inr new

/-- One logged step after another. -/
lemma Logs.comp (h : Logs P f v x) (h' : Logs P g w (v x)) : Logs P (g ∘ f) (w ∘ v) x := by
  refine ⟨?_, h'.after h.entries⟩
  show (w (v x)).1 = g (f x.1)
  rw [h'.same, h.same]

/-- A loop adds what its passes add. -/
lemma Logs.foldl {f : σ → α → σ} {w : σ × List ι → α → σ × List ι} {l : List α}
    (pass : ∀ i ∈ l, ∀ x, Logs P (f · i) (w · i) x) (x : σ × List ι) :
    Logs P (l.foldl f ·) (l.foldl w ·) x := by
  induction l generalizing x with
  | nil => exact ⟨rfl, fun _ => .inl⟩
  | cons i l ih =>
      obtain ⟨first, rest⟩ := List.forall_mem_cons.mp pass
      exact (first x).comp (ih rest (w x i))

/-- A logged step that ends leads to the state it computes. -/
lemma Logs.to (h : Logs P f w x) : LogsTo P x (f x.1) (some (w x)) :=
  ⟨(w x).2, congrArg some (Prod.ext h.same rfl), h.entries⟩

/-- No step logs nothing. -/
lemma LogsTo.refl : LogsTo P x x.1 (some x) := ⟨x.2, rfl, fun _ => .inl⟩

/-- A step after what has been added. -/
lemma LogsTo.after {s : σ} {l : List ι} (h : ∀ k ∈ l, k ∈ x.2 ∨ P k) (h' : LogsTo P (s, l) s' o) :
    LogsTo P x s' o := by
  obtain ⟨l', e, new⟩ := h'
  refine ⟨l', e, fun k hk => ?_⟩
  rcases new k hk with old | new
  · exact h k old
  · exact .inr new

/-- Runs add what their steps add, under an invariant the steps keep. -/
lemma logsTo_runs {step : σ → α → Option σ} {watch : σ × List ι → α → Option (σ × List ι)}
    {is : List α} (Inv : σ → Prop)
    (keep : ∀ x i s', Inv x.1 → step x.1 i = some s' → Inv s' ∧ LogsTo P x s' (watch x i))
    (h0 : Inv x.1) (run : runs step x.1 is = some s') :
    Inv s' ∧ LogsTo P x s' (runs watch x is) := by
  induction is generalizing x with
  | nil =>
      cases run
      exact ⟨h0, .refl⟩
  | cons i is ih =>
      obtain ⟨t, st, rest⟩ := Option.bind_eq_some_iff.mp run
      obtain ⟨ht, l, first, added⟩ := keep x i t h0 st
      obtain ⟨hs, later⟩ := ih (x := (t, l)) ht rest
      refine ⟨hs, ?_⟩
      rw [runs_cons, first, Option.bind_some]
      exact .after added later

end Rules

end Kernel391.Base
