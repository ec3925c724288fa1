import Axinite.Foundation.Utf8

/-!
# Words of a text

Splitting a text at white space and joining words with single spaces.

Main results:

- Theorem `isWord_of_mem_splitWhitespace`: what splitting returns are words.
- Theorem `splitWhitespace_joinWords`: joined words are split again.
- Theorem `joinWords_append`: joining in two parts.
- Theorem `joinWords_inj`: the joined text determines the words.
-/

namespace Axinite.Foundation.Words

open Utf8 List

/-- The parts of a text between white space. -/
def splitWhitespace (text : List Char) : List (List Char) :=
  (text.splitOnP isWhitespace).filter (· ≠ [])

/-- The words with a space between them. -/
def joinWords (words : List (List Char)) : List Char :=
  [' '].intercalate words

/-- A word has characters, and none of them is white space. -/
def IsWord (word : List Char) : Prop :=
  word ≠ [] ∧ ∀ c ∈ word, isWhitespace c = false

/-- The parts of a split text are free of separators. -/
theorem not_separator_of_mem_splitOnP {α : Type} {p : α → Bool} {text part : List α}
    (h : part ∈ text.splitOnP p) : ∀ x ∈ part, p x = false := by
  induction text generalizing part with
  | nil =>
    obtain rfl : part = [] := by simpa using h
    simp
  | cons c text ih =>
    rw [splitOnP_cons_eq_if_modifyHead] at h
    split at h
    · rcases mem_cons.1 h with rfl | hrest
      · simp
      · exact ih hrest
    · rename_i hc
      -- the character joins the first part of the rest
      cases hsplit : text.splitOnP p with
      | nil =>
        rw [hsplit] at h
        cases h
      | cons first parts =>
        rw [hsplit] at h
        rw [hsplit] at ih
        rcases mem_cons.1 h with rfl | hrest
        · intro x hx
          rcases mem_cons.1 hx with rfl | hx
          · exact Bool.eq_false_iff.2 hc
          · exact ih mem_cons_self x hx
        · exact ih (mem_cons_of_mem _ hrest)

theorem isWord_of_mem_splitWhitespace {text word : List Char}
    (h : word ∈ splitWhitespace text) : IsWord word := by
  obtain ⟨hpart, hne⟩ := mem_filter.1 h
  exact ⟨of_decide_eq_true hne, not_separator_of_mem_splitOnP hpart⟩

theorem joinWords_append {as bs : List (List Char)} (has : as ≠ []) (hbs : bs ≠ []) :
    joinWords (as ++ bs) = joinWords as ++ ' ' :: joinWords bs := by
  induction as with
  | nil => exact absurd rfl has
  | cons a as ih =>
    cases as with
    | nil => simp [joinWords, intercalate_cons_of_ne_nil hbs]
    | cons a' as =>
      have hrest := ih (by simp)
      simp only [joinWords, cons_append] at hrest ⊢
      rw [intercalate_cons_cons, hrest]
      simp

/-- Words that were joined are found again. -/
theorem splitWhitespace_joinWords {words : List (List Char)} (h : ∀ word ∈ words, IsWord word) :
    splitWhitespace (joinWords words) = words := by
  have hspace : isWhitespace ' ' = true := by decide
  unfold splitWhitespace joinWords
  induction words with
  | nil => simp
  | cons word words ih =>
    obtain ⟨hne, hword⟩ := h word mem_cons_self
    cases words with
    | nil =>
      rw [intercalate_singleton, splitOnP_eq_singleton hword]
      simp [hne]
    | cons next words =>
      have hrest := ih fun w hw => h w (mem_cons_of_mem _ hw)
      rw [intercalate_cons_cons, append_assoc, singleton_append,
        splitOnP_append_cons_of_forall_mem hword _ hspace,
        filter_cons_of_pos (by simp [hne]), hrest]

/-- The joined text determines the words. -/
theorem joinWords_inj {as bs : List (List Char)} (has : ∀ word ∈ as, IsWord word)
    (hbs : ∀ word ∈ bs, IsWord word) (h : joinWords as = joinWords bs) : as = bs := by
  rw [← splitWhitespace_joinWords has, h, splitWhitespace_joinWords hbs]

end Axinite.Foundation.Words
