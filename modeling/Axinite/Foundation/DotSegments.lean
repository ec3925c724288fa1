import Mathlib.Data.List.Basic
import Mathlib.Logic.Relation
import Mathlib.Tactic.Common

/-!
# Dot segments of a path

A path is a list of parts: names, the current directory and the parent directory.  The
meaning of the two special parts, apart from any file system, is a rewriting system: the
current directory disappears, a name cancels with the parent directory behind it, and the
root is its own parent.  The usual way to compute the result is a stack.

Main results:

- Theorem `resolves_iff`: the stack computes the only list of names to which a path can be
  rewritten.
- Theorem `resolve_append`: a path is resolved part by part.
-/

namespace Axinite.Foundation.DotSegments

open List

inductive PathPart (α : Type) where
  | current
  | parent
  | name (a : α)
  deriving DecidableEq

/-- What the text between two separators means in a path. -/
def toPart (segment : List Char) : PathPart (List Char) :=
  if segment = [] ∨ segment = ['.'] then .current
  else if segment = ['.', '.'] then .parent
  else .name segment

variable {α : Type}

/-- The parts of two texts with a separator between them. -/
theorem splitOn_append_cons [BEq α] [LawfulBEq α] (front back : List α) (separator : α) :
    (front ++ separator :: back).splitOn separator =
      front.splitOn separator ++ back.splitOn separator :=
  splitOnP_append_cons _ _ (by simp)

/-- Read the parts of a path on top of a stack of names. -/
def resolve : List α → List (PathPart α) → List α
  | stack, [] => stack
  | stack, .current :: parts => resolve stack parts
  | stack, .parent :: parts => resolve stack.dropLast parts
  | stack, .name a :: parts => resolve (stack ++ [a]) parts

/-- One simplification of a path that starts at the root. -/
inductive Step : List (PathPart α) → List (PathPart α) → Prop
  | current (front back : List (PathPart α)) : Step (front ++ .current :: back) (front ++ back)
  | cancel (front : List (PathPart α)) (a : α) (back : List (PathPart α)) :
      Step (front ++ .name a :: .parent :: back) (front ++ back)
  | root (back : List (PathPart α)) : Step (.parent :: back) back

/-- The path can be simplified to the names alone. -/
def Resolves (parts : List (PathPart α)) (names : List α) : Prop :=
  Relation.ReflTransGen Step parts (names.map .name)

theorem resolve_append (stack : List α) (front back : List (PathPart α)) :
    resolve stack (front ++ back) = resolve (resolve stack front) back := by
  induction front generalizing stack with
  | nil => rfl
  | cons part front ih => cases part <;> simp [resolve, ih]

theorem resolve_names (stack names : List α) :
    resolve stack (names.map .name) = stack ++ names := by
  induction names generalizing stack with
  | nil => simp [resolve]
  | cons a names ih => simp [resolve, ih]

/-- A simplification does not change what the stack computes. -/
theorem resolve_step {before after : List (PathPart α)} (h : Step before after) :
    resolve [] before = resolve [] after := by
  cases h with
  | current _ _ | cancel _ _ _ => simp [resolve_append, resolve]
  | root back => simp [resolve]

variable {parts : List (PathPart α)}

theorem resolve_eq_of_resolves {names : List α}
    (h : Resolves parts names) : resolve [] parts = names := by
  have hrun : ∀ after, Relation.ReflTransGen Step parts after →
      resolve [] parts = resolve [] after := by
    intro after hsteps
    induction hsteps with
    | refl => rfl
    | tail _ hstep ih => exact ih.trans (resolve_step hstep)
  rw [hrun _ h, resolve_names, nil_append]

/-- The stack is a way to simplify the path: its names stand in front of the parts that are
still to be read. -/
theorem steps_resolve (stack : List α) (parts : List (PathPart α)) :
    Relation.ReflTransGen Step (stack.map .name ++ parts) ((resolve stack parts).map .name) := by
  induction parts generalizing stack with
  | nil => rw [append_nil, resolve]
  | cons part parts ih =>
    cases part with
    | current => exact .head (.current _ _) (ih _)
    | name a =>
      have hrest := ih (stack ++ [a])
      rwa [map_append, append_assoc] at hrest
    | parent =>
      refine .head ?_ (ih _)
      rcases eq_nil_or_concat stack with rfl | ⟨stack, a, rfl⟩
      · exact .root _
      · rw [concat_eq_append, dropLast_concat, map_append, append_assoc]
        exact .cancel _ a _

/-- The stack computes the only list of names to which the path can be simplified. -/
theorem resolves_iff {names : List α} :
    Resolves parts names ↔ resolve [] parts = names := by
  refine ⟨resolve_eq_of_resolves, ?_⟩
  rintro rfl
  exact steps_resolve [] _

theorem mem_of_mem_resolve {stack : List α} {a : α}
    (h : a ∈ resolve stack parts) : a ∈ stack ∨ PathPart.name a ∈ parts := by
  induction parts generalizing stack with
  | nil => exact .inl h
  | cons part parts ih =>
    cases part with
    | current => exact (ih h).imp_right (mem_cons_of_mem _)
    | parent =>
      exact (ih h).imp (fun ha => (dropLast_sublist _).subset ha) (mem_cons_of_mem _)
    | name b =>
      rcases ih h with hstack | hparts
      · rcases mem_append.1 hstack with hstack | hb
        · exact .inl hstack
        · rw [mem_singleton.1 hb]
          exact .inr mem_cons_self
      · exact .inr (mem_cons_of_mem _ hparts)

end Axinite.Foundation.DotSegments
