import Mathlib.Data.List.Basic
import Mathlib.Tactic.Common

/-!
# Framed encodings

Several values are written one after the other into one sequence.  The sequence determines
the values if every encoding can be told from what follows it.  `Reads` says so for the
values of a set, and the lemmas of this module derive it for the usual kinds of frames.

Main results:

- Theorem `reads_terminated`: a stop sign after encodings that do not contain it.
- Theorem `reads_optional`: an optional value before a stop sign that it cannot begin with.
- Theorem `reads_fixed`: encodings of one length.
- Theorem `flatMap_inj_of_reads`: a list of values up to the end of the sequence.
-/

namespace Axinite.Foundation.Framing

open List

variable {α β : Type} {P : α → Prop} {encode : α → List β} {stop : β}

/-- The encoding of a value in `P` is recognized in front of anything. -/
def Reads (P : α → Prop) (encode : α → List β) : Prop :=
  ∀ ⦃a b rest rest'⦄, P a → P b → encode a ++ rest = encode b ++ rest' → a = b ∧ rest = rest'

/-- The part before the first stop sign is determined. -/
theorem append_stop_inj {xs ys rest rest' : List β} (hxs : stop ∉ xs) (hys : stop ∉ ys)
    (h : xs ++ stop :: rest = ys ++ stop :: rest') : xs = ys ∧ rest = rest' := by
  induction xs generalizing ys with
  | nil =>
    cases ys with
    | nil => exact ⟨rfl, (cons.inj h).2⟩
    | cons y ys => exact absurd (mem_cons.2 (.inl (cons.inj h).1)) hys
  | cons x xs ih =>
    cases ys with
    | nil => exact absurd (mem_cons.2 (.inl (cons.inj h).1.symm)) hxs
    | cons y ys =>
      obtain ⟨hhead, htail⟩ := List.cons.inj h
      obtain ⟨rfl, hrest⟩ := ih (fun hmem => hxs (mem_cons_of_mem x hmem))
        (fun hmem => hys (mem_cons_of_mem y hmem)) htail
      exact ⟨by rw [hhead], hrest⟩

theorem reads_terminated (hinj : ∀ a b, P a → P b → encode a = encode b → a = b)
    (hstop : ∀ a, P a → stop ∉ encode a) : Reads P fun a => encode a ++ [stop] := by
  intro a b rest rest' ha hb h
  simp only [append_assoc] at h
  obtain ⟨heq, hrest⟩ := append_stop_inj (hstop a ha) (hstop b hb) h
  exact ⟨hinj a b ha hb heq, hrest⟩

theorem reads_fixed {n : Nat} (hinj : ∀ a b, P a → P b → encode a = encode b → a = b)
    (hlength : ∀ a, (encode a).length = n) : Reads P encode := by
  intro a b rest rest' ha hb h
  obtain ⟨heq, hrest⟩ := append_inj h ((hlength a).trans (hlength b).symm)
  exact ⟨hinj a b ha hb heq, hrest⟩

/-- An optional value can be left out if its encoding never begins with the stop sign. -/
theorem reads_optional (h : Reads P encode)
    (hfirst : ∀ a, P a → ∃ x xs, encode a = x :: xs ∧ x ≠ stop) :
    Reads (fun o : Option α => ∀ a, o = some a → P a) fun o => o.elim [] encode ++ [stop] := by
  intro o o' rest rest' ho ho' heq
  cases o with
  | none =>
    cases o' with
    | none => exact ⟨rfl, (cons.inj heq).2⟩
    | some b =>
      obtain ⟨x, xs, hx, hne⟩ := hfirst b (ho' b rfl)
      simp only [Option.elim_some, hx] at heq
      exact absurd (cons.inj heq).1.symm hne
  | some a =>
    obtain ⟨x, xs, hx, hne⟩ := hfirst a (ho a rfl)
    cases o' with
    | none =>
      simp only [Option.elim_some, hx] at heq
      exact absurd (cons.inj heq).1 hne
    | some b =>
      simp only [append_assoc] at heq
      obtain ⟨rfl, hrest⟩ := h (ho a rfl) (ho' b rfl) heq
      exact ⟨rfl, (cons.inj hrest).2⟩

/-- A list of values without an end mark is determined by the whole sequence. -/
theorem flatMap_inj_of_reads (h : Reads P encode) (hne : ∀ a, encode a ≠ []) {as bs : List α}
    (has : ∀ a ∈ as, P a) (hbs : ∀ b ∈ bs, P b) (heq : as.flatMap encode = bs.flatMap encode) :
    as = bs := by
  induction as generalizing bs with
  | nil =>
    cases bs with
    | nil => rfl
    | cons b bs => simp [hne b] at heq
  | cons a as ih =>
    cases bs with
    | nil => simp [hne a] at heq
    | cons b bs =>
      obtain ⟨rfl, hrest⟩ :=
        h (has a mem_cons_self) (hbs b mem_cons_self) heq
      rw [ih (fun a' ha' => has a' (mem_cons_of_mem _ ha'))
        (fun b' hb' => hbs b' (mem_cons_of_mem _ hb')) hrest]

end Axinite.Foundation.Framing
