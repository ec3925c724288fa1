import Mathlib.Tactic.Common

/-!
# Computations that stop at the first error

A validation is a sequence of checks in the error monad.  The lemmas of this module say when
such a sequence succeeds, one per way of building it, so that a successful validation is
taken apart by rewriting.

Main results:

- Theorem `bind_eq_ok_iff`: a sequence succeeds when its parts do.
- Theorem `ensure_eq_ok_iff`: a check succeeds when its condition holds.
-/

namespace Axinite.Foundation.Fallible

variable {ε ε' α β : Type}

/-- Fail with `e` unless the condition holds. -/
def ensure (condition : Prop) [Decidable condition] (e : ε) : Except ε Unit :=
  if condition then .ok () else .error e

@[simp]
theorem ensure_eq_ok_iff {condition : Prop} [Decidable condition] {e : ε} {u : Unit} :
    ensure condition e = .ok u ↔ condition := by
  unfold ensure
  split <;> simp_all

/-- The value of an option, or the error `e`. -/
def okOr (o : Option α) (e : ε) : Except ε α :=
  o.elim (.error e) .ok

@[simp]
theorem okOr_eq_ok_iff {o : Option α} {e : ε} {a : α} : okOr o e = .ok a ↔ o = some a := by
  cases o <;> simp [okOr]

variable {x : Except ε α} {f : α → Except ε β}

theorem bind_eq_ok_iff {b : β} : (x >>= f) = .ok b ↔ ∃ a, x = .ok a ∧ f a = .ok b := by
  cases x with
  | error e => exact ⟨fun h => (nomatch h), fun ⟨_, h, _⟩ => nomatch h⟩
  | ok a =>
    constructor
    · exact fun h => ⟨a, rfl, h⟩
    · rintro ⟨_, ⟨⟩, h⟩
      exact h

theorem bind_eq_error_iff {e : ε} :
    (x >>= f) = .error e ↔ x = .error e ∨ ∃ a, x = .ok a ∧ f a = .error e := by
  cases x with
  | error e' => simp [bind, Except.bind]
  | ok a =>
    constructor
    · exact fun h => .inr ⟨a, rfl, h⟩
    · rintro (⟨⟨⟩⟩ | ⟨_, ⟨⟩, h⟩)
      exact h

@[simp]
theorem map_eq_ok_iff {f : α → β} {b : β} : x.map f = .ok b ↔ ∃ a, x = .ok a ∧ f a = b := by
  cases x <;> simp [Except.map]

@[simp]
theorem mapError_eq_ok_iff {f : ε → ε'} {a : α} : x.mapError f = .ok a ↔ x = .ok a := by
  cases x <;> simp [Except.mapError]

@[simp]
theorem pure_eq_ok_iff {a b : α} : (pure a : Except ε α) = .ok b ↔ a = b := by
  simp [pure, Except.pure]

theorem pure_ne_error {a : α} {e : ε} : (pure a : Except ε α) ≠ .error e :=
  fun h => nomatch h

/-- What a loop over a list collects comes from the items of the list. -/
theorem exists_of_mem_mapM {as : List α} {bs : List β} (h : as.mapM f = .ok bs) {b : β}
    (hmem : b ∈ bs) : ∃ a ∈ as, f a = .ok b := by
  induction as generalizing bs with
  | nil =>
    cases h
    cases hmem
  | cons a as ih =>
    rw [List.mapM_cons, bind_eq_ok_iff] at h
    obtain ⟨first, hfirst, h⟩ := h
    obtain ⟨rest, hrest, h⟩ := bind_eq_ok_iff.1 h
    obtain rfl := pure_eq_ok_iff.1 h
    rcases List.mem_cons.1 hmem with rfl | hlater
    · exact ⟨a, List.mem_cons_self, hfirst⟩
    · obtain ⟨found, hfound, hok⟩ := ih hrest hlater
      exact ⟨found, List.mem_cons_of_mem a hfound, hok⟩

theorem isOk_iff : x.isOk = true ↔ ∃ a, x = .ok a := by
  cases x <;> simp [Except.toBool]

end Axinite.Foundation.Fallible
