import Axinite.Foundation.Program
import Axinite.Foundation.Runs
import Mathlib.Algebra.BigOperators.Group.List.Basic
import Mathlib.Logic.Relation

/-!
# Interleaved execution of programs

Several programs share one state.  A step starts a new program or lets one
running program perform its next operation, so every interleaving of the
operations is a run.  Operations are atomic, which is what a lock scope provides.

Safety over all interleavings is proved one program at a time.  Each program owns
a ghost resource `m` of a commutative monoid, the invariant relates the shared
state to the sum of what all programs own, and `Safe` says that a program keeps
the invariant whatever the others own.

Main results:

- Theorem `Safe.bind`: sequencing rule of the program logic.
- Theorem `Safe.frame`: a program does not touch resources it does not own.
- Theorem `adequacy`: if every program that may start is safe from the empty
  resource, the invariant holds in every reachable configuration.
- Theorem `steps_preserve_ends`: the same from a pool of running programs.
- Theorem `adequacy_quiescent`: if every program also gives its resource back, the
  invariant holds without any resource whenever no program is running.
- Theorem `Reachable.invariant`: the rule for invariants that every operation keeps.
- Theorem `Reachable.run`: programs may also run one after the other, undisturbed.
-/

namespace Axinite.Foundation

open Program List

variable {Op : Type} {Resp : Op → Type} {α β σ M : Type}

/-- A shared state and the programs that are still running on it. -/
structure Config (Op : Type) (Resp : Op → Type) (σ : Type) where
  shared : σ
  tasks : List (Program Op Resp Unit)

section Steps

variable (exec : (op : Op) → σ → Resp op × σ) (ok : Op → σ → Prop)
  (may : Program Op Resp Unit → Prop)

/-- One step of an interleaved run whose operations all meet the guard `ok`. -/
inductive Step : Config Op Resp σ → Config Op Resp σ → Prop where
  /-- A program that may start is added to the pool. -/
  | spawn {s ts p} : may p → Step ⟨s, ts⟩ ⟨s, ts ++ [p]⟩
  /-- One running program performs its next operation. -/
  | advance {s before op next after} : ok op s →
      Step ⟨s, before ++ act op next :: after⟩
        ⟨(exec op s).2, before ++ next (exec op s).1 :: after⟩

/-- Configurations reached from an empty pool on the state `s₀`. -/
def Reachable (s₀ : σ) (c : Config Op Resp σ) : Prop :=
  Relation.ReflTransGen (Step exec ok may) ⟨s₀, []⟩ c

end Steps

section Safety

variable [AddCommMonoid M] (exec : (op : Op) → σ → Resp op × σ) (ok : Op → σ → Prop)
  (Inv : σ → M → Prop)

/-- A program that owns `m` keeps `Inv` with whatever the others own, and ends
with a value and a resource that satisfy the postcondition. -/
def Safe : Program Op Resp α → M → (α → M → Prop) → Prop
  | ret a, m, post => post a m
  | act op next, m, post =>
    ∀ s others, Inv s (m + others) → ok op s →
      ∃ m', Inv (exec op s).2 (m' + others) ∧ Safe (next (exec op s).1) m' post

variable {exec ok Inv} {p : Program Op Resp α}

/-- Rule of consequence. -/
theorem Safe.mono {m : M} {post post' : α → M → Prop}
    (hp : Safe exec ok Inv p m post) (h : ∀ a m', post a m' → post' a m') :
    Safe exec ok Inv p m post' := by
  induction p generalizing m with
  | ret a => exact h a m hp
  | act op next ih =>
    intro s others hinv hok
    obtain ⟨m', hinv', hnext⟩ := hp s others hinv hok
    exact ⟨m', hinv', ih _ hnext⟩

/-- Sequencing rule. -/
theorem Safe.bind {f : α → Program Op Resp β} {m : M}
    {mid : α → M → Prop} {post : β → M → Prop} (hp : Safe exec ok Inv p m mid)
    (hf : ∀ a m', mid a m' → Safe exec ok Inv (f a) m' post) :
    Safe exec ok Inv (p >>= f) m post := by
  induction p generalizing m with
  | ret a => exact hf a m hp
  | act op next ih =>
    intro s others hinv hok
    obtain ⟨m', hinv', hnext⟩ := hp s others hinv hok
    exact ⟨m', hinv', ih _ hnext⟩

/-- Frame rule: what a program does not own is still there at the end. -/
theorem Safe.frame {m : M} {post : α → M → Prop} (f : M) (hp : Safe exec ok Inv p m post) :
    Safe exec ok Inv p (m + f) (fun a m' => ∃ m₀, m' = m₀ + f ∧ post a m₀) := by
  induction p generalizing m with
  | ret a => exact ⟨m, rfl, hp⟩
  | act op next ih =>
    intro s others hinv hok
    obtain ⟨m', hinv', hnext⟩ := hp s (f + others) (by rwa [← add_assoc]) hok
    exact ⟨m' + f, by rwa [add_assoc], ih _ hnext⟩

/-- A program whose operations keep the invariant without any resource keeps its own. -/
theorem Safe.of_only {P : Op → Prop}
    (hop : ∀ op s m, P op → ok op s → Inv s m → Inv (exec op s).2 m)
    (hp : p.Only P) (m : M) : Safe exec ok Inv p m fun _ m' => m' = m := by
  induction p with
  | ret a => exact rfl
  | act op next ih =>
    intro s others hinv hok
    exact ⟨m, hop op s _ hp.1 hok hinv, ih _ (hp.2 _)⟩

variable {may : Program Op Resp Unit → Prop} {post : M → Prop}

/-- The pool is described by `ms`: every task is safe with its resource and ends with a
resource that satisfies `post`. -/
def PoolEnds (exec : (op : Op) → σ → Resp op × σ) (ok : Op → σ → Prop)
    (Inv : σ → M → Prop) (post : M → Prop) (ms : List M) (ts : List (Program Op Resp Unit)) :
    Prop :=
  List.Forall₂ (fun m p => Safe exec ok Inv p m fun _ => post) ms ts

/-- The pool is well described by `ms`: every task is safe with its resource. -/
def PoolSafe (exec : (op : Op) → σ → Resp op × σ) (ok : Op → σ → Prop)
    (Inv : σ → M → Prop) (ms : List M) (ts : List (Program Op Resp Unit)) : Prop :=
  List.Forall₂ (fun m p => Safe exec ok Inv p m fun _ _ => True) ms ts

variable {ms : List M}

theorem step_preserves_ends (hmay : ∀ p, may p → Safe exec ok Inv p 0 fun _ => post)
    {c c' : Config Op Resp σ} (hstep : Step exec ok may c c')
    (hpool : PoolEnds exec ok Inv post ms c.tasks) (hinv : Inv c.shared ms.sum) :
    ∃ ms', PoolEnds exec ok Inv post ms' c'.tasks ∧ Inv c'.shared ms'.sum := by
  cases hstep with
  | @spawn s ts p hp =>
    refine ⟨ms ++ [0], ?_, by simpa using hinv⟩
    exact rel_append hpool (.cons (hmay p hp) .nil)
  | @advance s before op next after hok =>
    -- the resources of the other tasks are the frame of the task that moves
    have h₁ := forall₂_take_append ms _ _ hpool
    have hrest := forall₂_drop_append ms _ _ hpool
    obtain ⟨m, ms₂, hm, h₂, hdrop⟩ := forall₂_cons_right_iff.1 hrest
    have hsum : ms.sum = m + ((ms.take before.length).sum + ms₂.sum) := by
      have hsplit := take_append_drop before.length ms
      calc ms.sum = (ms.take before.length ++ m :: ms₂).sum := by rw [← hdrop, hsplit]
        _ = _ := by simp [add_left_comm]
    obtain ⟨m', hinv', hnext⟩ := hm s _ (hsum ▸ hinv) hok
    refine ⟨ms.take before.length ++ m' :: ms₂, ?_, ?_⟩
    · exact rel_append h₁ (.cons hnext h₂)
    · simpa [add_left_comm] using hinv'

/-- A described pool is described after any number of steps. -/
theorem steps_preserve_ends (hmay : ∀ p, may p → Safe exec ok Inv p 0 fun _ => post)
    {c c' : Config Op Resp σ} (hsteps : Relation.ReflTransGen (Step exec ok may) c c')
    (hpool : PoolEnds exec ok Inv post ms c.tasks) (hinv : Inv c.shared ms.sum) :
    ∃ ms', PoolEnds exec ok Inv post ms' c'.tasks ∧ Inv c'.shared ms'.sum := by
  induction hsteps with
  | refl => exact ⟨ms, hpool, hinv⟩
  | tail _ hstep ih =>
    obtain ⟨ms', hpool', hinv'⟩ := ih
    exact step_preserves_ends hmay hstep hpool' hinv'

variable {c : Config Op Resp σ}

/-- Programs that are safe on their own are safe in every interleaving, and each of them
ends as it would on its own. -/
theorem adequacy_ends (hmay : ∀ p, may p → Safe exec ok Inv p 0 fun _ => post)
    {s₀ : σ} (h₀ : Inv s₀ 0) (hc : Reachable exec ok may s₀ c) :
    ∃ ms, PoolEnds exec ok Inv post ms c.tasks ∧ Inv c.shared ms.sum :=
  steps_preserve_ends hmay hc .nil (by simpa using h₀)

/-- Programs that are safe on their own are safe in every interleaving. -/
theorem adequacy (hmay : ∀ p, may p → Safe exec ok Inv p 0 fun _ _ => True) {s₀ : σ} (h₀ : Inv s₀ 0)
    (hc : Reachable exec ok may s₀ c) :
    ∃ ms, PoolSafe exec ok Inv ms c.tasks ∧ Inv c.shared ms.sum :=
  adequacy_ends hmay h₀ hc

/-- No program of the configuration is still running. -/
def Config.Quiescent (c : Config Op Resp σ) : Prop :=
  ∀ p ∈ c.tasks, p = ret ()

theorem sum_eq_zero_of_quiescent {ts : List (Program Op Resp Unit)}
    (hpool : PoolEnds exec ok Inv (fun m => m = 0) ms ts) (hdone : ∀ p ∈ ts, p = ret ()) :
    ms.sum = 0 := by
  induction hpool with
  | nil => rfl
  | @cons m p ms ts hm hrest ih =>
    have hnone : m = 0 := by
      rw [hdone p mem_cons_self] at hm
      exact hm
    rw [sum_cons, hnone, zero_add]
    exact ih fun q hq => hdone q (mem_cons_of_mem p hq)

/-- If every program gives its resources back at its end, the invariant holds without any
resource whenever no program is running. -/
theorem adequacy_quiescent (hmay : ∀ p, may p → Safe exec ok Inv p 0 fun _ m => m = 0)
    {s₀ : σ} (h₀ : Inv s₀ 0) (hc : Reachable exec ok may s₀ c)
    (hdone : c.Quiescent) : Inv c.shared 0 := by
  obtain ⟨ms, hpool, hinv⟩ := adequacy_ends hmay h₀ hc
  rwa [sum_eq_zero_of_quiescent hpool hdone] at hinv

end Safety

section Traces

variable {exec : (op : Op) → σ → Resp op × σ} {ok : Op → σ → Prop}
  {may : Program Op Resp Unit → Prop} {s₀ : σ}

variable {c : Config Op Resp σ}

/-- What every operation keeps holds in every reachable configuration. -/
theorem Reachable.invariant {I : σ → Prop}
    (hop : ∀ op s, ok op s → I s → I (exec op s).2) (h₀ : I s₀)
    (hc : Reachable exec ok may s₀ c) : I c.shared := by
  induction hc with
  | refl => exact h₀
  | tail _ hstep ih =>
    cases hstep with
    | spawn _ => exact ih
    | advance hok => exact hop _ _ hok ih

/-- What holds for all that the programs may still do holds in every reachable configuration. -/
theorem Reachable.always {Q : (op : Op) → (Resp op → Program Op Resp Unit) → Prop}
    (hmay : ∀ p, may p → p.Always Q) (hc : Reachable exec ok may s₀ c) :
    ∀ p ∈ c.tasks, p.Always Q := by
  induction hc with
  | refl => exact forall_mem_nil _
  | tail _ hstep ih =>
    cases hstep with
    | spawn hp =>
      intro p hmem
      rcases mem_append.1 hmem with hold | hnew
      · exact ih p hold
      · rw [mem_singleton.1 hnew]
        exact hmay _ hp
    | @advance s before op next after _ =>
      have hmoved := ih _ (mem_append_right _ mem_cons_self)
      intro p hmem
      rcases mem_append.1 hmem with hbefore | hrest
      · exact ih p (mem_append_left _ hbefore)
      · rcases mem_cons.1 hrest with rfl | hafter
        · exact hmoved.2 _
        · exact ih p (mem_append_right _ (mem_cons_of_mem _ hafter))

/-- A guard that the next operations of every reachable configuration meet restricts
nothing. -/
theorem Reachable.strengthen {ok' : Op → σ → Prop}
    (h : ∀ c, Reachable exec ok may s₀ c → ∀ op next, act op next ∈ c.tasks → ok' op c.shared)
    (hc : Reachable exec ok may s₀ c) : Reachable exec ok' may s₀ c := by
  induction hc with
  | refl => exact .refl
  | tail hreached hstep ih =>
    cases hstep with
    | spawn hp => exact ih.tail (.spawn hp)
    | advance _ =>
      have hnext := h _ hreached _ _ (mem_append_right _ mem_cons_self)
      exact ih.tail (.advance hnext)

/-- One program of the pool may run to its end while the others wait. -/
theorem Reachable.advance_run {s : σ} {before after : List (Program Op Resp Unit)}
    {p : Program Op Resp Unit} (hc : Reachable exec ok may s₀ ⟨s, before ++ p :: after⟩)
    (hok : p.Allowed exec ok s) :
    Reachable exec ok may s₀ ⟨(p.run exec s).2, before ++ ret (p.run exec s).1 :: after⟩ := by
  induction p generalizing s with
  | ret a => exact hc
  | act op next ih => exact ih _ (hc.tail (.advance hok.1)) hok.2

/-- Programs that may start can run undisturbed, one after the other, from any reachable
state. -/
theorem Reachable.run {ps : List (Program Op Resp Unit)}
    (hc : Reachable exec ok may s₀ c) (hps : ∀ p ∈ ps, may p)
    (hok : Runs.AllSteps (fun s p => (run exec p s).2) (fun s p => p.Allowed exec ok s)
      c.shared ps) :
    ∃ ts, Reachable exec ok may s₀ ⟨ps.foldl (fun s p => (run exec p s).2) c.shared, ts⟩ := by
  induction ps generalizing c with
  | nil => exact ⟨c.tasks, hc⟩
  | cons p ps ih =>
    have hp := advance_run (hc.tail (.spawn (hps p (by simp)))) hok.1
    exact ih hp (fun q hq => hps q (mem_cons_of_mem p hq)) hok.2

end Traces

end Axinite.Foundation
