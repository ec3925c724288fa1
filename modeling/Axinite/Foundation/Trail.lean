import Mathlib.Data.List.Chain

/-!
# Trails of a transition system

A trail is the list of the edges that led to the current node, the newest edge last.  It
may have been cut at its old end, so it need not start anywhere in particular.

Main results:

- Theorem `EndsAt.concat`: following an edge extends the trail.
- Theorem `EndsAt.drop`: forgetting old edges keeps the trail.
- Theorem `EndsAt.back`: taking the newest edge back leads to its source.
-/

namespace Axinite.Foundation

variable {E V : Type} {source target : E → V} {trail : List E} {v : V}

/-- The edges are linked, and the newest of them leads to `v`. -/
structure EndsAt (source target : E → V) (trail : List E) (v : V) : Prop where
  linked : trail.IsChain fun e e' => target e = source e'
  last : ∀ e ∈ trail.getLast?, target e = v

theorem endsAt_nil (source target : E → V) (v : V) : EndsAt source target [] v :=
  ⟨List.isChain_nil, by simp⟩

/-- Following an edge from the current node leads to its target. -/
theorem EndsAt.concat (h : EndsAt source target trail v) {e : E} (he : source e = v) :
    EndsAt source target (trail ++ [e]) (target e) := by
  refine ⟨h.linked.append (List.isChain_singleton e) ?_, by simp⟩
  intro e₁ he₁ e₂ he₂
  obtain rfl : e = e₂ := by simpa using he₂
  rw [h.last e₁ he₁, he]

/-- Old edges may be forgotten. -/
theorem EndsAt.drop (h : EndsAt source target trail v) (n : Nat) :
    EndsAt source target (trail.drop n) v := by
  refine ⟨h.linked.drop n, fun e he => h.last e ?_⟩
  rw [List.getLast?_drop] at he
  split at he
  · simp at he
  · exact he

/-- Taking the newest edge back leads to its source. -/
theorem EndsAt.back {e : E} (h : EndsAt source target (trail ++ [e]) v) :
    EndsAt source target trail (source e) := by
  obtain ⟨hlinked, -, hlast⟩ := List.isChain_append.1 h.linked
  exact ⟨hlinked, fun e' he' => hlast e' he' e (by simp)⟩

end Axinite.Foundation
