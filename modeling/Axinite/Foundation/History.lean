import Mathlib.Data.List.Basic
import Mathlib.Tactic.Common

/-!
# Linear histories

A history is a present value between a past and a future.  Moving back and forward
walks along one line, so the moves undo each other.

Main results:

- Theorem `back_eq_some_iff`: the two moves are inverse to each other.
- Theorem `iterate_forward_of_iterate_back`: as many steps forward as back lead to
  the starting point.
-/

namespace Axinite.Foundation

/-- A present value between the past and the future, both nearest first. -/
@[ext]
structure History (α : Type) where
  past : List α
  present : α
  future : List α

namespace History

variable {α : Type}

/-- Step back to the nearest past value. -/
def back : History α → Option (History α)
  | ⟨[], _, _⟩ => none
  | ⟨p :: past, x, future⟩ => some ⟨past, p, x :: future⟩

/-- Step forward to the nearest future value. -/
def forward : History α → Option (History α)
  | ⟨_, _, []⟩ => none
  | ⟨past, x, f :: future⟩ => some ⟨x :: past, f, future⟩

/-- The two moves are inverse to each other. -/
theorem back_eq_some_iff {h h' : History α} : h.back = some h' ↔ h'.forward = some h := by
  constructor
  · intro hback
    rcases h with ⟨_ | ⟨p, past⟩, x, future⟩
    · simp [back] at hback
    · obtain rfl : (⟨past, p, x :: future⟩ : History α) = h' := by simpa [back] using hback
      rfl
  · intro hforward
    rcases h' with ⟨past, x, _ | ⟨f, future⟩⟩
    · simp [forward] at hforward
    · obtain rfl : (⟨x :: past, f, future⟩ : History α) = h := by simpa [forward] using hforward
      rfl

/-- Repeat a move `n` times. -/
def iterate (move : History α → Option (History α)) : Nat → History α → Option (History α)
  | 0, h => some h
  | n + 1, h => (move h).bind (iterate move n)

theorem iterate_succ_last (move : History α → Option (History α)) (n : Nat) (h : History α) :
    iterate move (n + 1) h = (iterate move n h).bind move := by
  induction n generalizing h with
  | zero => simp [iterate]
  | succ n ih =>
    rw [iterate, iterate]
    cases move h with
    | none => rfl
    | some h' => exact ih h'

/-- Walking back and then forward by the same number of steps changes nothing. -/
theorem iterate_forward_of_iterate_back {n : Nat} {h h' : History α}
    (hback : iterate back n h = some h') : iterate forward n h' = some h := by
  induction n generalizing h with
  | zero =>
    obtain rfl : h = h' := by simpa [iterate] using hback
    rfl
  | succ n ih =>
    rw [iterate, Option.bind_eq_some_iff] at hback
    rcases hback with ⟨h₁, hstep, hrest⟩
    rw [iterate_succ_last, ih hrest]
    exact back_eq_some_iff.1 hstep

end History

end Axinite.Foundation
