import Mathlib.Tactic.Lemma
import Mathlib.Tactic.Common
import Mathlib.Logic.Function.Basic
import Mathlib.Data.List.Basic

/-!
# Families of disjoint stacks

`Stacks live stack` says that the elements that are `live` are exactly those on some stack of a
family, and that no element occurs twice, neither on one stack nor on two. `Linked parent root p l`
says that `l` is the chain from `p` along `parent` down to `root`. The rules say how both change
when an element is pushed on a stack, popped from it, or replaces the only element of one.
-/

namespace Kernel391.Base

variable {α ι : Type*}

/-- The live elements are the disjoint union of the stacks. -/
structure Stacks (live : α → Prop) (stack : ι → List α) : Prop where
  nodup : ∀ t, (stack t).Nodup
  disjoint : ∀ t u, t ≠ u → (stack t).Disjoint (stack u)
  covers : ∀ p, live p ↔ ∃ t, p ∈ stack t

/-- `l` is the chain from `p` along `parent`, and it ends at `root`. -/
def Linked (parent : α → α) (root : α) : α → List α → Prop
  | p, [] => p = root
  | p, q :: l => p = q ∧ p ≠ root ∧ Linked parent root (parent p) l

section Linked

variable {parent parent' : α → α} {root p q : α} {l l' : List α}

/-- An empty stack links to the root. -/
@[simp] lemma linked_nil : Linked parent root p [] ↔ p = root := Iff.rfl

/-- A chain only depends on the parents of its elements. -/
lemma Linked.congr (same : ∀ q ∈ l, parent' q = parent q) (h : Linked parent root p l) :
    Linked parent' root p l := by
  induction l generalizing p with
  | nil => exact h
  | cons q l ih =>
    obtain ⟨rfl, ne, rest⟩ := h
    refine ⟨rfl, ne, ?_⟩
    rw [same p List.mem_cons_self]
    exact ih (fun q hq => same q (List.mem_cons_of_mem _ hq)) rest

/-- A chain that does not start at the root starts with its first element. -/
lemma Linked.exists_cons (h : Linked parent root p l) (ne : p ≠ root) :
    ∃ l', l = p :: l' ∧ Linked parent root (parent p) l' := by
  cases l with
  | nil => exact absurd h ne
  | cons q l =>
    obtain ⟨rfl, -, rest⟩ := h
    exact ⟨l, rfl, rest⟩

/-- There is at most one chain from an element. -/
lemma Linked.unique (h : Linked parent root p l) (h' : Linked parent root p l') : l = l' := by
  induction l generalizing p l' with
  | nil =>
    cases l' with
    | nil => rfl
    | cons q l' => exact absurd h h'.2.1
  | cons q l ih =>
    obtain ⟨l'', rfl, rest'⟩ := h'.exists_cons h.2.1
    obtain ⟨rfl, -, rest⟩ := h
    rw [ih rest rest']

end Linked

namespace Stacks

variable {live : α → Prop} {stack : ι → List α} {t u : ι} {p q : α} {l : List α}

/-- An element is on one stack only. -/
lemma eq_of_mem (h : Stacks live stack) (ht : p ∈ stack t) (hu : p ∈ stack u) : t = u := by
  by_contra ne
  exact h.disjoint t u ne ht hu

/-- What is on a stack is live. -/
lemma live_of_mem (h : Stacks live stack) (ht : p ∈ stack t) : live p := (h.covers p).mpr ⟨t, ht⟩

variable [DecidableEq ι]

/-- Pushing an element that is not live. -/
lemma push (h : Stacks live stack) (fresh : ¬ live p) (t : ι) :
    Stacks (fun q => q = p ∨ live q) (Function.update stack t (p :: stack t)) := by
  have off : ∀ u, p ∉ stack u := fun u hu => fresh (h.live_of_mem hu)
  have mem : ∀ u q, q ∈ Function.update stack t (p :: stack t) u ↔ (u = t ∧ q = p) ∨
    q ∈ stack u := by
    intro u q
    by_cases hu : u = t
    · subst hu
      simp only [Function.update_self, List.mem_cons, true_and]
    · simp only [Function.update_of_ne hu, hu, false_and, false_or]
  refine ⟨fun u => ?_, fun u w ne q hu hw => ?_, fun q => ?_⟩
  · by_cases hu : u = t
    · subst hu
      rw [Function.update_self]
      exact List.nodup_cons.mpr ⟨off u, h.nodup u⟩
    · rw [Function.update_of_ne hu]
      exact h.nodup u
  · rcases (mem u q).mp hu with ⟨ut, qp⟩ | hu'
    · rcases (mem w q).mp hw with ⟨wt, -⟩ | hw'
      · exact ne (ut.trans wt.symm)
      · exact off w (qp ▸ hw')
    · rcases (mem w q).mp hw with ⟨-, qp⟩ | hw'
      · exact off u (qp ▸ hu')
      · exact h.disjoint u w ne hu' hw'
  · constructor
    · rintro (rfl | hq)
      · exact ⟨t, (mem t q).mpr (.inl ⟨rfl, rfl⟩)⟩
      · obtain ⟨u, hu⟩ := (h.covers q).mp hq
        exact ⟨u, (mem u q).mpr (.inr hu)⟩
    · rintro ⟨u, hu⟩
      rcases (mem u q).mp hu with ⟨-, rfl⟩ | hu
      · exact .inl rfl
      · exact .inr (h.live_of_mem hu)

/-- Popping the first element of a stack. -/
lemma pop (h : Stacks live stack) (top : stack t = p :: l) :
    Stacks (fun q => q ≠ p ∧ live q) (Function.update stack t l) := by
  have nd : p ∉ l ∧ l.Nodup := List.nodup_cons.mp (top ▸ h.nodup t)
  have on : p ∈ stack t := top ▸ List.mem_cons_self
  have mem : ∀ u q, q ∈ Function.update stack t l u ↔ q ≠ p ∧ q ∈ stack u := by
    intro u q
    by_cases hu : u = t
    · subst hu
      rw [Function.update_self, top, List.mem_cons]
      constructor
      · intro hq
        exact ⟨fun e => nd.1 (e ▸ hq), .inr hq⟩
      · rintro ⟨ne, rfl | hq⟩
        · exact absurd rfl ne
        · exact hq
    · rw [Function.update_of_ne hu]
      constructor
      · intro hq
        exact ⟨fun e => hu (h.eq_of_mem (e ▸ hq) on), hq⟩
      · exact And.right
  refine ⟨fun u => ?_, fun u w ne q hu hw => ?_, fun q => ?_⟩
  · by_cases hu : u = t
    · subst hu
      rw [Function.update_self]
      exact nd.2
    · rw [Function.update_of_ne hu]
      exact h.nodup u
  · exact h.disjoint u w ne ((mem u q).mp hu).2 ((mem w q).mp hw).2
  · constructor
    · rintro ⟨ne, hq⟩
      obtain ⟨u, hu⟩ := (h.covers q).mp hq
      exact ⟨u, (mem u q).mpr ⟨ne, hu⟩⟩
    · rintro ⟨u, hu⟩
      obtain ⟨ne, hu⟩ := (mem u q).mp hu
      exact ⟨ne, h.live_of_mem hu⟩

end Stacks

end Kernel391.Base
