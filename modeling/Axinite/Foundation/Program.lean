import Mathlib.Data.List.Basic
import Mathlib.Tactic.Common

/-!
# Programs over named critical sections

A handler of the modelled system is a sequence of critical sections: it takes a
lock, changes the shared state, reads an answer, releases the lock and decides
what to do next.  `Program` keeps that shape as data, so that the same handler
has a sequential meaning (`run`) and an interleaved one (see the module on
interleaving).

Main results:

- Theorem `run_bind`: the sequential meaning of a sequence of two programs.
- Theorem `run_frame`: what every operation of a program leaves alone, the whole
  program leaves alone.
-/

namespace Axinite.Foundation

/-- A program over operations `Op`; the operation `op` answers with `Resp op`. -/
inductive Program (Op : Type) (Resp : Op → Type) (α : Type) : Type where
  /-- The program has finished with a value. -/
  | ret (a : α)
  /-- The program performs one critical section and goes on with its answer. -/
  | act (op : Op) (next : Resp op → Program Op Resp α)

namespace Program

variable {Op : Type} {Resp : Op → Type} {α β γ σ : Type}

/-- Run one program and feed its value to the next one. -/
def bind : Program Op Resp α → (α → Program Op Resp β) → Program Op Resp β
  | ret a, f => f a
  | act op next, f => act op fun r => (next r).bind f

instance : Monad (Program Op Resp) where
  pure := ret
  bind := bind

/-- The program that performs a single operation. -/
def perform (op : Op) : Program Op Resp (Resp op) :=
  act op ret

@[simp]
theorem pure_bind (a : α) (f : α → Program Op Resp β) :
    ((pure a : Program Op Resp α) >>= f) = f a :=
  rfl

/-- Sequential meaning: every operation runs without interference. -/
def run (exec : (op : Op) → σ → Resp op × σ) : Program Op Resp α → σ → α × σ
  | ret a, s => (a, s)
  | act op next, s => run exec (next (exec op s).1) (exec op s).2

variable (exec : (op : Op) → σ → Resp op × σ)

@[simp]
theorem run_pure (a : α) (s : σ) : run exec (pure a : Program Op Resp α) s = (a, s) :=
  rfl

@[simp]
theorem run_perform (op : Op) (s : σ) : run exec (perform op : Program Op Resp _) s = exec op s :=
  rfl

/-- Sequencing two programs runs the second one where the first one stopped. -/
@[simp]
theorem run_bind (p : Program Op Resp α) (f : α → Program Op Resp β) (s : σ) :
    run exec (p >>= f) s = run exec (f (run exec p s).1) (run exec p s).2 := by
  induction p generalizing s with
  | ret a => rfl
  | act op next ih => exact ih _ _

/-- Every operation of a sequential run meets the guard `ok`. -/
def Allowed (ok : Op → σ → Prop) : Program Op Resp α → σ → Prop
  | ret _, _ => True
  | act op next, s => ok op s ∧ Allowed ok (next (exec op s).1) (exec op s).2

instance (ok : Op → σ → Prop) [∀ op s, Decidable (ok op s)] :
    ∀ (p : Program Op Resp α) (s : σ), Decidable (p.Allowed exec ok s)
  | ret _, _ => .isTrue trivial
  | act op next, s =>
    have := instDecidableAllowed ok (next (exec op s).1) (exec op s).2
    inferInstanceAs (Decidable (ok op s ∧ (next (exec op s).1).Allowed exec ok (exec op s).2))

theorem allowed_of_forall {ok : Op → σ → Prop} (h : ∀ op s, ok op s) (p : Program Op Resp α)
    (s : σ) : p.Allowed exec ok s := by
  induction p generalizing s with
  | ret a => exact trivial
  | act op next ih => exact ⟨h op s, ih _ _⟩

/-- Every operation that the program may perform satisfies `P`. -/
def Only (P : Op → Prop) : Program Op Resp α → Prop
  | ret _ => True
  | act op next => P op ∧ ∀ r, (next r).Only P

theorem only_pure (P : Op → Prop) (a : α) : (pure a : Program Op Resp α).Only P :=
  trivial

variable {P : Op → Prop}

theorem only_perform {op : Op} (h : P op) : (perform op : Program Op Resp _).Only P :=
  ⟨h, fun _ => trivial⟩

variable {p : Program Op Resp α}

theorem Only.mono {P Q : Op → Prop} (hp : p.Only P) (h : ∀ op, P op → Q op) : p.Only Q := by
  induction p with
  | ret a => exact trivial
  | act op next ih => exact ⟨h op hp.1, fun r => ih r (hp.2 r)⟩

theorem Only.bind {f : α → Program Op Resp β}
    (hp : p.Only P) (hf : ∀ a, (f a).Only P) : (p >>= f).Only P := by
  induction p with
  | ret a => exact hf a
  | act op next ih => exact ⟨hp.1, fun r => ih r (hp.2 r)⟩

/-- Rule for a program that begins with an operation. -/
theorem Only.act {op : Op} {f : Resp op → Program Op Resp β} (h : P op)
    (hf : ∀ r, (f r).Only P) : (perform op >>= f).Only P :=
  ⟨h, hf⟩

/-- Rule for a program that may fail. -/
theorem Only.bind_except {ε : Type} {p : Program Op Resp (Except ε α)}
    {f : Except ε α → Program Op Resp β} (hp : p.Only P) (herror : ∀ e, (f (.error e)).Only P)
    (hok : ∀ a, (f (.ok a)).Only P) : (p >>= f).Only P := by
  refine hp.bind fun result => ?_
  cases result with
  | error e => exact herror e
  | ok a => exact hok a

/-- A part of the state that no operation of the program changes is unchanged by the
whole program. -/
theorem run_frame {γ : Type} (part : σ → γ)
    (hop : ∀ op s, P op → part (exec op s).2 = part s) (hp : p.Only P)
    (s : σ) : part (run exec p s).2 = part s := by
  induction p generalizing s with
  | ret a => rfl
  | act op next ih =>
    have hnext := ih (exec op s).1 (hp.2 _) (exec op s).2
    exact hnext.trans (hop op s hp.1)

/-- Every operation that the program may perform, together with how the program goes on,
satisfies `Q`. -/
def Always (Q : (op : Op) → (Resp op → Program Op Resp α) → Prop) : Program Op Resp α → Prop
  | ret _ => True
  | act op next => Q op next ∧ ∀ r, (next r).Always Q

theorem Only.always {Q : (op : Op) → (Resp op → Program Op Resp α) → Prop}
    (hp : p.Only P) (h : ∀ op next, P op → Q op next) : p.Always Q := by
  induction p with
  | ret a => exact trivial
  | act op next ih => exact ⟨h op next hp.1, fun r => ih r (hp.2 r)⟩

theorem Only.bind_always {Q : (op : Op) → (Resp op → Program Op Resp β) → Prop}
    {f : α → Program Op Resp β} (hp : p.Only P)
    (h : ∀ op next, P op → Q op next) (hf : ∀ a, (f a).Always Q) : (p >>= f).Always Q := by
  induction p with
  | ret a => exact hf a
  | act op next ih => exact ⟨h op _ hp.1, fun r => ih r (hp.2 r)⟩

end Program

end Axinite.Foundation
