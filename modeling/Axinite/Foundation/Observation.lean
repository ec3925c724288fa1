import Axinite.Foundation.Interleaving
import Mathlib.Algebra.Order.Group.Multiset

/-!
# What the callers of interleaved programs see

A program of the pool answers to nobody.  To speak about answers, a program is run together
with a record of what its caller sees: the answer is written to a log when the program ends.

The log owns resources, too.  A program that ends deposits what it knows about its answer,
and the log holds it for the rest of the run.  For knowledge that is never lost the resources
are multisets of facts, and a program may only learn.

Main results:

- Theorem `Safe.observe`: a program that ends with the resource of its answer may be observed.
- Theorem `observed_adequacy`: in every reachable configuration the log owns the resources
  of all answers.
- Theorem `Safe.learn`: the rule for an operation that keeps all facts.
-/

namespace Axinite.Foundation

open Program

variable {Op : Type} {Resp : Op → Type} {α σ M E F : Type}

/-! ## Observed programs -/

/-- An operation, or the record of something that a caller sees. -/
inductive Observed (Op E : Type) where
  | op (op : Op)
  | emit (event : E)

namespace Observed

/-- What an observed operation answers. -/
abbrev Answer (Resp : Op → Type) : Observed Op E → Type
  | op o => Resp o
  | emit _ => Unit

/-- Effect of an observed operation on the state and on the log, whose latest event comes
first. -/
def exec (exec : (op : Op) → σ → Resp op × σ) :
    (o : Observed Op E) → σ × List E → Observed.Answer Resp o × (σ × List E)
  | op o, s => ((exec o s.1).1, ((exec o s.1).2, s.2))
  | emit event, s => ((), (s.1, event :: s.2))

/-- The guard of the operation; recording is always possible. -/
def Guard (ok : Op → σ → Prop) : Observed Op E → σ × List E → Prop
  | op o, s => ok o s.1
  | emit _, _ => True

instance (ok : Op → σ → Prop) [∀ op s, Decidable (ok op s)] :
    ∀ (o : Observed Op E) (s : σ × List E), Decidable (Guard ok o s)
  | op o, s => inferInstanceAs (Decidable (ok o s.1))
  | emit _, _ => .isTrue trivial

end Observed

/-- Run a program and record what is to be seen of its answer. -/
def Program.observe (event : α → Option E) :
    Program Op Resp α → Program (Observed Op E) (Observed.Answer Resp) Unit
  | ret a =>
    match event a with
    | some e => act (.emit e) fun _ => ret ()
    | none => ret ()
  | act op next => act (.op op) fun r => (next r).observe event

/-- An observed program runs like the program, and its answer is recorded at the end. -/
theorem run_observe (exec : (op : Op) → σ → Resp op × σ) (event : α → Option E)
    (p : Program Op Resp α) (s : σ × List E) :
    run (Observed.exec exec) (p.observe event) s =
      ((), ((run exec p s.1).2, (event (run exec p s.1).1).toList ++ s.2)) := by
  induction p generalizing s with
  | ret a =>
    cases h : event a with
    | none => simp [observe, run, h]
    | some e => simp [observe, run, h, Observed.exec]
  | act op next ih => exact ih _ _

theorem Program.Always.observe {event : α → Option E}
    {Q : (op : Op) → (Resp op → Program Op Resp α) → Prop}
    {Q' : (o : Observed Op E) →
      (Observed.Answer Resp o → Program (Observed Op E) (Observed.Answer Resp) Unit) → Prop}
    {p : Program Op Resp α} (hp : p.Always Q)
    (hop : ∀ op next, Q op next → Q' (.op op) fun r => (next r).observe event)
    (hemit : ∀ e next, Q' (.emit e) next) : (p.observe event).Always Q' := by
  induction p with
  | ret a =>
    rw [Program.observe]
    cases event a with
    | none => exact trivial
    | some e => exact ⟨hemit e _, fun _ => trivial⟩
  | act op next ih => exact ⟨hop op next hp.1, fun r => ih r (hp.2 r)⟩

/-! ## The resources of the log -/

section Deposits

variable [AddCommMonoid M] (own : E → M)

/-- What the log owns. -/
def deposits : List E → M
  | [] => 0
  | event :: log => own event + deposits log

/-- The invariant holds for the resources of the programs and of the log. -/
def ObservedInv (Inv : σ → M → Prop) (s : σ × List E) (m : M) : Prop :=
  Inv s.1 (m + deposits own s.2)

variable {own} {exec : (op : Op) → σ → Resp op × σ} {ok : Op → σ → Prop} {Inv : σ → M → Prop}

/-- A program that ends with the resource of its answer may be observed. -/
theorem Safe.observe {event : α → Option E} {p : Program Op Resp α} {m : M}
    (hp : Safe exec ok Inv p m fun a m' => ∀ e, event a = some e → ∃ rest, m' = rest + own e) :
    Safe (Observed.exec exec) (Observed.Guard ok) (ObservedInv own Inv) (p.observe event) m
      fun _ _ => True := by
  induction p generalizing m with
  | ret a =>
    cases hevent : event a with
    | none =>
      simp only [Program.observe, hevent]
      exact trivial
    | some e =>
      obtain ⟨rest, rfl⟩ := hp e hevent
      simp only [Program.observe, hevent]
      -- the resource goes from the program to the log
      intro s others hinv _
      refine ⟨rest, ?_, trivial⟩
      have hmoved : rest + others + (own e + deposits own s.2) =
          rest + own e + others + deposits own s.2 := by
        rw [← add_assoc, add_right_comm rest _]
      show Inv s.1 (rest + others + (own e + deposits own s.2))
      rw [hmoved]
      exact hinv
  | act op next ih =>
    intro s others hinv hok
    obtain ⟨m', hinv', hnext⟩ := hp s.1 (others + deposits own s.2)
      (by rw [← add_assoc]; exact hinv) hok
    refine ⟨m', ?_, ih _ hnext⟩
    show Inv _ (m' + others + deposits own s.2)
    rw [add_assoc]
    exact hinv'

/-- In every interleaving the invariant holds with the resources of all recorded events. -/
theorem observed_adequacy {may : Program (Observed Op E) (Observed.Answer Resp) Unit → Prop}
    (hmay : ∀ p, may p → Safe (Observed.exec exec) (Observed.Guard ok) (ObservedInv own Inv) p 0
      fun _ _ => True)
    {s₀ : σ} (h₀ : Inv s₀ 0) {c : Config (Observed Op E) (Observed.Answer Resp) (σ × List E)}
    (hc : Reachable (Observed.exec exec) (Observed.Guard ok) may (s₀, []) c) :
    ∃ m, Inv c.shared.1 (m + deposits own c.shared.2) := by
  have hstart : ObservedInv own Inv (s₀, []) 0 := by
    show Inv s₀ (0 + 0)
    rw [add_zero]
    exact h₀
  obtain ⟨ms, -, hinv⟩ := adequacy hmay hstart hc
  exact ⟨ms.sum, hinv⟩

end Deposits

/-! ## Facts that stay known -/

section Facts

variable (I : σ → Prop) (Holds : F → σ → Prop)

/-- The state is sound and all known facts hold. -/
def Known (s : σ) (facts : Multiset F) : Prop :=
  I s ∧ ∀ fact ∈ facts, Holds fact s

variable {I Holds} {exec : (op : Op) → σ → Resp op × σ} {ok : Op → σ → Prop}

/-- An operation that keeps all facts may teach some more. -/
theorem Safe.learn {op : Op} {next : Resp op → Program Op Resp α} {facts : Multiset F}
    {post : α → Multiset F → Prop} (learned : Resp op → Multiset F)
    (hkeeps : ∀ s, ok op s → Known I Holds s facts →
      I (exec op s).2 ∧ ∀ fact, Holds fact s → Holds fact (exec op s).2)
    (hlearned : ∀ s, ok op s → Known I Holds s facts →
      ∀ fact ∈ learned (exec op s).1, Holds fact (exec op s).2)
    (hnext : ∀ r, Safe exec ok (Known I Holds) (next r) (learned r + facts) post) :
    Safe exec ok (Known I Holds) (act op next) facts post := by
  intro s others hinv hok
  have hknown : Known I Holds s facts :=
    ⟨hinv.1, fun fact hfact => hinv.2 fact (Multiset.mem_add.2 (.inl hfact))⟩
  obtain ⟨hsound, hkept⟩ := hkeeps s hok hknown
  refine ⟨learned _ + facts, ⟨hsound, ?_⟩, hnext _⟩
  intro fact hfact
  rw [add_assoc] at hfact
  rcases Multiset.mem_add.1 hfact with hnew | hold
  · exact hlearned s hok hknown fact hnew
  · exact hkept fact (hinv.2 fact hold)

theorem mem_deposits {own : E → Multiset F} {log : List E} {event : E} (h : event ∈ log)
    {fact : F} (hfact : fact ∈ own event) : fact ∈ deposits own log := by
  induction log with
  | nil => cases h
  | cons latest log ih =>
    rcases List.mem_cons.1 h with rfl | hold
    · exact Multiset.mem_add.2 (.inl hfact)
    · exact Multiset.mem_add.2 (.inr (ih hold))

end Facts

end Axinite.Foundation
