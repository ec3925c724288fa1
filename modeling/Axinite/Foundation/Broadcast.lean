import Mathlib.Data.List.Basic
import Mathlib.Tactic.Common

/-!
# Bounded broadcast channels

A channel keeps the last messages up to its capacity, and a receiver reads from the position at
which it subscribed.  A receiver that has fallen behind is told so, and goes on with the oldest
message that is kept; what it has missed is gone.  The channel is represented by the list of all
messages that were ever sent.

Main results:

- Theorem `recv_cases`: the possible results of a receive.
- Theorem `Caught.recv_missed`, `Caught.recv_value`: the messages before the position of a receiver
  are those it has read and those it has missed.
-/

namespace Axinite.Foundation.Broadcast

open List

/-- A subscription: where it began, where it goes on, and the positions it has missed. -/
structure Receiver where
  first : Nat
  next : Nat
  missed : List Nat
  deriving DecidableEq

/-- The result of a receive. -/
inductive Received (α : Type) where
  | value (a : α)
  | lagged (skipped : Nat)
  | empty

variable {α : Type}

/-- A subscription to a channel starts after the messages that have been sent. -/
def subscribe (log : List α) : Receiver :=
  { first := log.length, next := log.length, missed := [] }

/-- Receive the next message. -/
def Receiver.recv (capacity : Nat) (log : List α) (r : Receiver) : Received α × Receiver :=
  if r.next + capacity < log.length then
    let skipped := log.length - capacity - r.next
    (.lagged skipped,
      { r with next := r.next + skipped, missed := range' r.next skipped ++ r.missed })
  else
    match log[r.next]? with
    | some a => (.value a, { r with next := r.next + 1 })
    | none => (.empty, r)

/-- The messages that the receiver has read do not satisfy `P`: those before its position that
do were missed. -/
structure Caught (P : α → Prop) (log : List α) (r : Receiver) : Prop where
  started : r.first ≤ r.next
  passed : ∀ i a, r.first ≤ i → i < r.next → log[i]? = some a → P a → i ∈ r.missed
  behind : ∀ i ∈ r.missed, i < r.next

variable {P : α → Prop} {log : List α} {r : Receiver} {capacity : Nat}

theorem caught_subscribe (P : α → Prop) (log : List α) : Caught P log (subscribe log) where
  started := Nat.le_refl _
  passed := by
    intro i a hfirst hnext
    have hle : log.length ≤ i := hfirst
    have hlt : i < log.length := hnext
    omega
  behind := by
    intro i hi
    cases hi

/-- Messages that are sent later change nothing about those before. -/
theorem Caught.send (h : Caught P log r) (hnext : r.next ≤ log.length) (a : α) :
    Caught P (log ++ [a]) r where
  started := h.started
  passed := by
    intro i b hfirst hlt hb hP
    rw [getElem?_append_left (by omega)] at hb
    exact h.passed i b hfirst hlt hb hP
  behind := h.behind

/-- A receive skips what is no longer kept, or it gives the next message, or there is none. -/
theorem recv_cases (capacity : Nat) (log : List α) (r : Receiver) :
    (∃ skipped, r.next + skipped ≤ log.length ∧ r.recv capacity log = (.lagged skipped,
        { r with next := r.next + skipped, missed := range' r.next skipped ++ r.missed })) ∨
      (∃ a, log[r.next]? = some a ∧
        r.recv capacity log = (.value a, { r with next := r.next + 1 })) ∨
      log[r.next]? = none ∧ r.recv capacity log = (.empty, r) := by
  rw [Receiver.recv]
  split
  · exact .inl ⟨log.length - capacity - r.next, by omega, rfl⟩
  · cases hnext : log[r.next]? with
    | some a => exact .inr (.inl ⟨a, rfl, rfl⟩)
    | none => exact .inr (.inr ⟨rfl, rfl⟩)

/-- What was skipped is missed. -/
theorem Caught.recv_missed (h : Caught P log r) (skipped : Nat) : Caught P log
      { r with next := r.next + skipped, missed := range' r.next skipped ++ r.missed } where
  started := Nat.le_trans h.started (Nat.le_add_right _ _)
  passed := by
    intro i a hfirst hlt ha hP
    refine mem_append.2 ?_
    by_cases hold : i < r.next
    · exact .inr (h.passed i a hfirst hold ha hP)
    · exact .inl (mem_range'_1.2 ⟨by omega, hlt⟩)
  behind := by
    intro i hi
    rcases mem_append.1 hi with hnew | hold
    · exact (mem_range'_1.1 hnew).2
    · exact Nat.lt_of_lt_of_le (h.behind i hold) (Nat.le_add_right _ _)

/-- A message that was read does not satisfy the property. -/
theorem Caught.recv_value (h : Caught P log r) {a : α} (ha : log[r.next]? = some a)
    (hnot : ¬ P a) : Caught P log { r with next := r.next + 1 } where
  started := Nat.le_trans h.started (Nat.le_add_right _ _)
  passed := by
    intro i b hfirst hlt hb hP
    rcases Nat.lt_or_eq_of_le (Nat.le_of_lt_succ hlt) with hold | rfl
    · exact h.passed i b hfirst hold hb hP
    · rw [ha] at hb
      exact absurd (Option.some.inj hb ▸ hP) hnot
  behind := fun i hi => Nat.lt_trans (h.behind i hi) (Nat.lt_succ_self _)

end Axinite.Foundation.Broadcast
