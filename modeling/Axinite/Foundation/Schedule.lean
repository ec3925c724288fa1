import Axinite.Foundation.Interleaving

/-!
# Executable interleavings

The steps of an interleaved run are chosen by a scheduler.  A list of such choices can be
executed, and whatever it leads to is reachable; so a concrete interleaving is given by the
list of its choices.

Main results:

- Theorem `Reachable.moves`: executing choices that meet the guard stays among the
  reachable configurations.
- Theorem `quiescent_of_allDone`: the executable test that no program is running.
-/

namespace Axinite.Foundation

open Program List

variable {Op : Type} {Resp : Op → Type} {σ κ : Type}

/-- A choice of the scheduler. -/
inductive Move (κ : Type) where
  /-- A new call starts. -/
  | spawn (call : κ)
  /-- The program at this place performs its next operation. -/
  | advance (i : Nat)

/-- The program has finished. -/
def Program.isDone {α : Type} : Program Op Resp α → Bool
  | ret _ => true
  | act _ _ => false

/-- The executable test that no program is running. -/
def Config.allDone (c : Config Op Resp σ) : Bool :=
  c.tasks.all Program.isDone

variable {c : Config Op Resp σ}

theorem quiescent_of_allDone (h : c.allDone = true) : c.Quiescent := by
  intro p hp
  have hdone := all_eq_true.1 h p hp
  cases p with
  | ret a => rfl
  | act op next => simp [isDone] at hdone

section Moves

variable (exec : (op : Op) → σ → Resp op × σ) (ok : Op → σ → Prop)
  (prog : κ → Program Op Resp Unit)

/-- The state and the program after the next operation, if there is one. -/
def Program.advance (s : σ) : Program Op Resp Unit → σ × Program Op Resp Unit
  | ret a => (s, ret a)
  | act op next => ((exec op s).2, next (exec op s).1)

/-- The next operation of the program, if there is one, meets the guard. -/
def Program.AdvanceOk (s : σ) : Program Op Resp Unit → Prop
  | ret _ => True
  | act op _ => ok op s

instance [∀ op s, Decidable (ok op s)] (s : σ) :
    ∀ p : Program Op Resp Unit, Decidable (p.AdvanceOk ok s)
  | ret _ => .isTrue trivial
  | act op _ => inferInstanceAs (Decidable (ok op s))

/-- The configuration after a move; a place without a program is skipped. -/
def Config.move (c : Config Op Resp σ) : Move κ → Config Op Resp σ
  | .spawn call => ⟨c.shared, c.tasks ++ [prog call]⟩
  | .advance i =>
    let moved := (c.tasks[i]?.getD (ret ())).advance exec c.shared
    ⟨moved.1, c.tasks.set i moved.2⟩

/-- The operation that a move performs meets the guard. -/
def Config.MoveOk (c : Config Op Resp σ) : Move κ → Prop
  | .spawn _ => True
  | .advance i => (c.tasks[i]?.getD (ret ())).AdvanceOk ok c.shared

instance [∀ op s, Decidable (ok op s)] (c : Config Op Resp σ) :
    ∀ move : Move κ, Decidable (c.MoveOk ok move)
  | .spawn _ => .isTrue trivial
  | .advance i =>
    inferInstanceAs (Decidable ((c.tasks[i]?.getD (ret ())).AdvanceOk ok c.shared))

variable {exec ok prog} {may : Program Op Resp Unit → Prop} {s₀ : σ}

/-- A move that meets the guard is a step, or none. -/
theorem steps_move (hmay : ∀ call, may (prog call)) {move : Move κ} (hok : c.MoveOk ok move) :
    Relation.ReflTransGen (Step exec ok may) c (c.move exec prog move) := by
  cases move with
  | spawn call => exact .single (.spawn (hmay call))
  | advance i =>
    rcases c with ⟨s, tasks⟩
    by_cases hi : i < tasks.length
    · have hsplit := take_append_drop i tasks
      rw [drop_eq_getElem_cons hi] at hsplit
      have hget : tasks[i]? = some tasks[i] := getElem?_eq_getElem hi
      simp only [Config.move, Config.MoveOk, hget, Option.getD_some] at hok ⊢
      rw [set_eq_take_append_cons_drop, if_pos hi]
      cases hp : tasks[i] with
      | ret a =>
        rw [hp] at hsplit
        simp only [advance]
        rw [hsplit]
      | act op next =>
        rw [hp] at hsplit hok
        conv_lhs => rw [← hsplit]
        exact .single (.advance hok)
    · have hget : tasks[i]? = none := getElem?_eq_none (Nat.le_of_not_lt hi)
      simp only [Config.move, hget, Option.getD_none, advance]
      rw [set_eq_of_length_le (Nat.le_of_not_lt hi)]

theorem Reachable.move (hmay : ∀ call, may (prog call))
    (hc : Reachable exec ok may s₀ c) {move : Move κ} (hok : c.MoveOk ok move) :
    Reachable exec ok may s₀ (c.move exec prog move) :=
  hc.trans (steps_move hmay hok)

/-- Executing choices that meet the guard leads to a reachable configuration. -/
theorem Reachable.moves (hmay : ∀ call, may (prog call))
    (hc : Reachable exec ok may s₀ c) {moves : List (Move κ)}
    (hok : Runs.AllSteps (Config.move exec prog) (Config.MoveOk ok) c moves) :
    Reachable exec ok may s₀ (moves.foldl (Config.move exec prog) c) := by
  induction moves generalizing c with
  | nil => exact hc
  | cons move moves ih => exact ih (.move hmay hc hok.1) hok.2

theorem Reachable.of_moves {moves : List (Move κ)}
    (hok : Runs.AllSteps (Config.move exec prog) (Config.MoveOk ok) ⟨s₀, []⟩ moves) :
    Reachable exec ok (fun p => ∃ call, p = prog call) s₀
      (moves.foldl (Config.move exec prog) ⟨s₀, []⟩) :=
  .moves (fun call => ⟨call, rfl⟩) .refl hok

end Moves

end Axinite.Foundation
