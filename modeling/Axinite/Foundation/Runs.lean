import Mathlib.Data.List.Basic
import Mathlib.Tactic.Common

/-!
# Runs of a deterministic machine

A run feeds a list of inputs to a step function.  The two notions used by every
state-machine proof are collected here: the states a run visits, and a side
condition that holds at every step of a run.

Main results:

- Theorem `forall_mem_visited_iff`: when one step keeps an invariant exactly
  under a side condition, a run stays inside the invariant exactly when every
  step of it meets the condition.
- Theorem `forall_mem_visited`: the one-directional rule for steps with a side condition.
- Theorem `forall_mem_visited_iff_of_inv`: the same for a consequence of the invariant.
- Theorem `invariant_run`: the rule for unconditional steps.
- Theorem `allSteps_congr`: conditions that agree under an invariant agree along runs.
- Theorem `good_or_bad_run`: a run whose steps all meet a condition ends well, any other run
  ends badly.
-/

namespace Axinite.Foundation.Runs

open List

variable {σ α : Type}

/-- The states visited by a run, the starting state first. -/
def visited (step : σ → α → σ) : σ → List α → List σ
  | s, [] => [s]
  | s, a :: as => s :: visited step (step s a) as

/-- The condition `ok` holds before every step of the run. -/
def AllSteps (step : σ → α → σ) (ok : σ → α → Prop) : σ → List α → Prop
  | _, [] => True
  | s, a :: as => ok s a ∧ AllSteps step ok (step s a) as

instance (step : σ → α → σ) (ok : σ → α → Prop) [∀ s a, Decidable (ok s a)] :
    ∀ s as, Decidable (AllSteps step ok s as)
  | _, [] => .isTrue trivial
  | s, a :: as =>
    have := instDecidableAllSteps step ok (step s a) as
    inferInstanceAs (Decidable (ok s a ∧ AllSteps step ok (step s a) as))

theorem mem_visited_self (step : σ → α → σ) (s : σ) (as : List α) : s ∈ visited step s as := by
  cases as <;> simp [visited]

theorem foldl_mem_visited (step : σ → α → σ) (s : σ) (as : List α) :
    as.foldl step s ∈ visited step s as := by
  induction as generalizing s with
  | nil => simp [visited]
  | cons a as ih =>
    simp only [visited, mem_cons]
    exact .inr (ih _)

variable {step : σ → α → σ}

theorem allSteps_of_forall {P : σ → α → Prop} (h : ∀ s a, P s a) (s : σ) (as : List α) :
    AllSteps step P s as := by
  induction as generalizing s with
  | nil => exact trivial
  | cons a as ih => exact ⟨h s a, ih _⟩

variable {as : List α}

theorem allSteps_of_forall_mem {Q : α → Prop} (s : σ) (h : ∀ a ∈ as, Q a) :
    AllSteps step (fun _ a => Q a) s as := by
  induction as generalizing s with
  | nil => exact trivial
  | cons a as ih =>
    exact ⟨h a (mem_cons_self ..), ih _ fun a' ha' => h a' (mem_cons_of_mem a ha')⟩

variable {s : σ}

theorem AllSteps.and {P Q : σ → α → Prop} (hP : AllSteps step P s as)
    (hQ : AllSteps step Q s as) : AllSteps step (fun s a => P s a ∧ Q s a) s as := by
  induction as generalizing s with
  | nil => exact trivial
  | cons a as ih => exact ⟨⟨hP.1, hQ.1⟩, ih hP.2 hQ.2⟩

/-- The condition holds at the last step of a run. -/
theorem AllSteps.last {P : σ → α → Prop} {a : α}
    (h : AllSteps step P s (as ++ [a])) : P (as.foldl step s) a := by
  induction as generalizing s with
  | nil => exact h.1
  | cons b as ih => exact ih h.2

/-- If steps that meet `ok` keep an invariant that implies `P`, and a step that does not breaks
`P`, then a run stays in `P` exactly if all its steps meet `ok`. -/
theorem forall_mem_visited_iff_of_inv {side ok : σ → α → Prop} {inv P : σ → Prop}
    (hP : ∀ s, inv s → P s) (hkeep : ∀ s a, side s a → inv s → ok s a → inv (step s a))
    (hbreak : ∀ s a, side s a → inv s → ¬ ok s a → ¬ P (step s a)) (hs : inv s)
    (hside : AllSteps step side s as) :
    (∀ t ∈ visited step s as, P t) ↔ AllSteps step ok s as := by
  induction as generalizing s with
  | nil => exact iff_of_true (by simpa [visited] using hP s hs) trivial
  | cons a as ih =>
    constructor
    · intro h
      have hnext : P (step s a) :=
        h _ (mem_cons_of_mem s (mem_visited_self step _ as))
      have hok : ok s a := by_contra fun hnot => hbreak s a hside.1 hs hnot hnext
      refine ⟨hok, (ih (hkeep s a hside.1 hs hok) hside.2).1 fun t ht => ?_⟩
      exact h t (mem_cons_of_mem s ht)
    · intro hok t ht
      rcases mem_cons.1 ht with rfl | hlater
      · exact hP t hs
      · exact (ih (hkeep s a hside.1 hs hok.1) hside.2).2 hok.2 t hlater

variable {inv : σ → Prop}

/-- A step that keeps the invariant exactly under `ok`, provided that `side` holds, turns
the invariant of a whole run into the condition on its steps. -/
theorem forall_mem_visited_iff_of {side ok : σ → α → Prop}
    (hstep : ∀ s a, side s a → inv s → (inv (step s a) ↔ ok s a)) (hs : inv s)
    (hside : AllSteps step side s as) :
    (∀ t ∈ visited step s as, inv t) ↔ AllSteps step ok s as :=
  forall_mem_visited_iff_of_inv (fun _ hs => hs) (fun s a ha hs => (hstep s a ha hs).2)
    (fun s a ha hs => mt (hstep s a ha hs).1) hs hside

/-- A step that keeps the invariant exactly under `ok` turns the invariant of a
whole run into the condition on its steps. -/
theorem forall_mem_visited_iff {ok : σ → α → Prop}
    (hstep : ∀ s a, inv s → (inv (step s a) ↔ ok s a)) (hs : inv s) (as : List α) :
    (∀ t ∈ visited step s as, inv t) ↔ AllSteps step ok s as :=
  forall_mem_visited_iff_of (fun s a _ => hstep s a) hs
    (allSteps_of_forall (fun _ _ => trivial) s as)

/-- An invariant kept by every step that meets a condition holds in every state of a run
whose steps meet it. -/
theorem forall_mem_visited {side : σ → α → Prop}
    (hstep : ∀ s a, side s a → inv s → inv (step s a)) (hs : inv s)
    (hside : AllSteps step side s as) : ∀ t ∈ visited step s as, inv t :=
  (forall_mem_visited_iff_of (fun s a ha hs => iff_of_true (hstep s a ha hs) ha) hs hside).2 hside

/-- An invariant kept by every step holds at the end of every run. -/
theorem invariant_run (inv : σ → Prop) (hstep : ∀ s a, inv s → inv (step s a)) (hs : inv s)
    (as : List α) : inv (as.foldl step s) := by
  induction as generalizing s with
  | nil => exact hs
  | cons a as ih => exact ih (hstep s a hs)

/-- Two conditions on steps that agree wherever an invariant holds agree along every run
that starts in the invariant. -/
theorem allSteps_congr {P Q : σ → α → Prop} (inv : σ → Prop) (hiff : ∀ s a, inv s → (P s a ↔ Q s a))
    (hstep : ∀ s a, inv s → inv (step s a)) (hs : inv s) (as : List α) :
    AllSteps step P s as ↔ AllSteps step Q s as := by
  induction as generalizing s with
  | nil => exact .rfl
  | cons a as ih => exact and_congr (hiff s a hs) (ih (hstep s a hs))

/-- A condition that every step meets from within an invariant holds along the runs that keep
the invariant. -/
theorem allSteps_of_inv {side P : σ → α → Prop}
    (hP : ∀ s a, side s a → inv s → P s a) (hstep : ∀ s a, side s a → inv s → inv (step s a))
    (hs : inv s) (hside : AllSteps step side s as) :
    AllSteps step P s as := by
  induction as generalizing s with
  | nil => exact trivial
  | cons a as ih => exact ⟨hP s a hside.1 hs, ih (hstep s a hside.1 hs) hside.2⟩

/-- If steps that meet `ok` stay good, a step that does not turns bad, and nothing bad gets
better, then the condition on the steps decides how a run ends. -/
theorem good_or_bad_run {side : σ → α → Prop} (ok : σ → α → Prop) (good bad : σ → Prop)
    (hside : AllSteps step side s as) (hs : good s)
    (hgood : ∀ s a, side s a → good s → ok s a → good (step s a))
    (hturn : ∀ s a, side s a → good s → ¬ ok s a → bad (step s a))
    (hbad : ∀ s a, bad s → bad (step s a)) :
    (AllSteps step ok s as → good (as.foldl step s)) ∧
      (¬ AllSteps step ok s as → bad (as.foldl step s)) := by
  induction as generalizing s with
  | nil => exact ⟨fun _ => hs, absurd trivial⟩
  | cons a as ih =>
    by_cases hok : ok s a
    · have hrest := ih hside.2 (hgood s a hside.1 hs hok)
      exact ⟨fun h => hrest.1 h.2, fun h => hrest.2 fun hall => h ⟨hok, hall⟩⟩
    · have hend := invariant_run bad hbad (hturn s a hside.1 hs hok) as
      exact ⟨fun h => absurd h.1 hok, fun _ => hend⟩

end Axinite.Foundation.Runs
