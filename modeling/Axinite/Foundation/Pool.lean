import Mathlib.Data.List.Basic
import Mathlib.Tactic.Common

/-!
# Pools of tasks

Tasks stand in a list and work on a shared state.  In one step a task is replaced by what it
goes on as, the shared state changes, and new tasks are appended, so that the position of a
task never changes.

Main results:

- Theorem `advance_cases`: the effect of a step, or that there is no such task.
- Theorem `count_apply`: how a step changes the number of tasks of a kind.
- Theorem `count_any_apply`: the same for tasks that carry a value of a kind.
- Theorem `forall_mem_apply`: a property of all tasks is kept if the new tasks have it.
-/

namespace Axinite.Foundation

open List

variable {σ τ : Type}

/-- A shared state and the tasks that work on it. -/
structure Pool (σ τ : Type) where
  shared : σ
  tasks : List τ

/-- What a task does in a step: the new shared state, the task as it goes on, and the tasks it
starts. -/
structure Effect (σ τ : Type) where
  shared : σ
  task : τ
  spawned : List τ

namespace Pool

variable (act : Pool σ τ → τ → Effect σ τ)

/-- The pool after an effect of the task at a position. -/
def apply (p : Pool σ τ) (i : Nat) (e : Effect σ τ) : Pool σ τ where
  shared := e.shared
  tasks := p.tasks.set i e.task ++ e.spawned

/-- Let the task at a position take a step. -/
def advance (p : Pool σ τ) (i : Nat) : Pool σ τ :=
  match p.tasks[i]? with
  | some task => p.apply i (act p task)
  | none => p

/-- Add a task. -/
def start (p : Pool σ τ) (task : τ) : Pool σ τ :=
  { p with tasks := p.tasks ++ [task] }

/-- The number of tasks of a kind. -/
def count (kind : τ → Bool) (p : Pool σ τ) : Nat :=
  p.tasks.countP kind

theorem advance_cases (p : Pool σ τ) (i : Nat) : p.advance act i = p ∨
      ∃ task, p.tasks[i]? = some task ∧ p.advance act i = p.apply i (act p task) := by
  rw [advance]
  cases p.tasks[i]? with
  | none => exact .inl rfl
  | some task => exact .inr ⟨task, rfl, rfl⟩

variable {i : Nat}

/-- Replacing an element changes the number of elements of a kind by what the two are. -/
theorem countP_set_add {l : List τ} {a : τ} (h : l[i]? = some a) (b : τ) (kind : τ → Bool) :
    (l.set i b).countP kind + (if kind a then 1 else 0) =
      l.countP kind + if kind b then 1 else 0 := by
  obtain ⟨hi, rfl⟩ := List.getElem?_eq_some_iff.1 h
  have hpos : kind l[i] → 0 < l.countP kind := fun hkind =>
    countP_pos_iff.2 ⟨_, getElem_mem hi, hkind⟩
  rw [countP_set hi]
  by_cases hold : kind l[i] <;> simp only [hold, if_true, if_false, Bool.false_eq_true]
  · have := hpos hold
    omega
  · omega

variable {p : Pool σ τ}

/-- The tasks of a kind after a step: one may have ended and others may have come. -/
theorem count_apply {task : τ} (h : p.tasks[i]? = some task) (e : Effect σ τ) (kind : τ → Bool) :
    (p.apply i e).count kind + (if kind task then 1 else 0) =
      p.count kind + (if kind e.task then 1 else 0) + e.spawned.countP kind := by
  have hset := countP_set_add h e.task kind
  rw [count, count, apply, countP_append]
  omega

/-- The values that the tasks carry after a step: those of the new tasks take the place of that
of the old one. -/
theorem perm_apply {α : Type} {task : τ} (h : p.tasks[i]? = some task)
    (e : Effect σ τ) (value : τ → Option α) :
    (p.apply i e).tasks.filterMap value ++ (value task).toList ~
      p.tasks.filterMap value ++ (e.task :: e.spawned).filterMap value := by
  classical
  have hcons : ∀ task tasks,
      (task :: tasks).filterMap value = (value task).toList ++ tasks.filterMap value := by
    intro task tasks
    cases hvalue : value task <;> simp [hvalue]
  obtain ⟨hi, rfl⟩ := List.getElem?_eq_some_iff.1 h
  obtain ⟨front, back, htasks, -, hset⟩ := @exists_of_set _ i e.task _ hi
  refine perm_iff_count.2 fun a => ?_
  have hbefore := congrArg (fun tasks => (tasks.filterMap value).count a) htasks
  simp only [apply, hset, filterMap_append, hcons, count_append] at hbefore ⊢
  omega

theorem count_any {α : Type} (p : Pool σ τ) (value : τ → Option α) (kind : α → Bool) :
    p.count (fun task => (value task).any kind) = (p.tasks.filterMap value).countP kind := by
  rw [countP_filterMap]
  refine countP_congr fun task _ => ?_
  cases value task <;> simp

/-- The tasks that carry a value of a kind after a step. -/
theorem count_any_apply {α : Type} {task : τ}
    (h : p.tasks[i]? = some task) (e : Effect σ τ) (value : τ → Option α) (kind : α → Bool) :
    (p.apply i e).count (fun task => (value task).any kind) + (value task).toList.countP kind =
      p.count (fun task => (value task).any kind) +
        ((e.task :: e.spawned).filterMap value).countP kind := by
  rw [count_any, count_any, ← countP_append, ← countP_append]
  exact (perm_apply h e _).countP_eq kind

/-- A kind that is the disjoint union of two others. -/
theorem count_eq_add (p : Pool σ τ) {kind left right : τ → Bool}
    (h : ∀ task, (if kind task then 1 else 0) =
      (if left task then 1 else 0) + if right task then 1 else 0) :
    p.count kind = p.count left + p.count right := by
  unfold count
  induction p.tasks with
  | nil => rfl
  | cons task tasks ih =>
    have htask := h task
    rw [countP_cons, countP_cons, countP_cons]
    omega

theorem forall_mem_apply {e : Effect σ τ} {P Q : τ → Prop}
    (h : ∀ task ∈ p.tasks, P task) (hPQ : ∀ task, P task → Q task) (htask : Q e.task)
    (hspawned : ∀ task ∈ e.spawned, Q task) : ∀ task ∈ (p.apply i e).tasks, Q task := by
  intro task hmem
  rcases mem_append.1 hmem with hset | hnew
  · rcases mem_or_eq_of_mem_set hset with hold | rfl
    · exact hPQ task (h task hold)
    · exact htask
  · exact hspawned task hnew

theorem forall_mem_start {new : τ} {P : τ → Prop}
    (h : ∀ task ∈ p.tasks, P task) (hnew : P new) : ∀ task ∈ (p.start new).tasks, P task := by
  intro task hmem
  rcases mem_append.1 hmem with hold | hlast
  · exact h task hold
  · rw [mem_singleton.1 hlast]
    exact hnew

end Pool

end Axinite.Foundation
