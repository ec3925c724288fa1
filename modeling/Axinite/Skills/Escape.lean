import Axinite.Foundation.Utf8

/-!
# Escaping of skill content

The content of a skill stands between tags in the prompt, so what looks like such a tag in it is
escaped (`skills/escape.rs`), if it is written with at most one slash and with no control
character but NUL.

Main results:

- Theorem `escapeSkillContent_safe_iff`: the contents that cannot open or close a skill block.
-/

namespace Axinite.Skills

open Foundation List

/-! ## Escaping -/

/-- The letters of the word, each with those that a regular expression takes for it if case is
ignored. -/
def skillLetters : List (List Char) :=
  [['s', 'S', 'ſ'], ['k', 'K', 'K'], ['i', 'I'], ['l', 'L'], ['l', 'L']]

def startsWith : List (List Char) → List Char → Bool
  | [], _ => true
  | letter :: letters, c :: text => letter.contains c && startsWith letters text
  | _, [] => false

/-- The text goes on like a match of `</?[\s\x00]*skill` after the `<`. -/
def isSkillTag (text : List Char) : Bool :=
  let text := if text.head? = some '/' then text.tail else text
  startsWith skillLetters (text.dropWhile fun c => Utf8.isWhitespace c || c = '\x00')

/-- A match has no `<` but its first character, so what follows that is copied as the rest. -/
def escapeSkillContent : List Char → List Char
  | [] => []
  | c :: text =>
    if c = '<' && isSkillTag text then "&lt;".toList ++ escapeSkillContent text
    else c :: escapeSkillContent text

/-! ## Skill blocks -/

def isAsciiControl (c : Char) : Bool :=
  c.toNat < 32 || c.toNat = 127

/-- Slashes, white space and control characters, and then the word. -/
def goesOn (text : List Char) : Bool :=
  startsWith skillLetters
    (text.dropWhile fun c => c = '/' || Utf8.isWhitespace c || isAsciiControl c)

/-- Somewhere in the text a block is opened or closed. -/
def OpensBlock (text : List Char) : Prop :=
  ∃ rest, '<' :: rest <:+ text ∧ goesOn rest = true

/-- Replace every `&lt;` by `<`. -/
def unescape : List Char → List Char
  | [] => []
  | '&' :: 'l' :: 't' :: ';' :: text => '<' :: unescape text
  | c :: text => c :: unescape text

/-- A place where a tag may start is the first character or a later one. -/
theorem exists_suffix_cons (P : List Char → Prop) (c : Char) (text : List Char) :
    (∃ rest, '<' :: rest <:+ c :: text ∧ P rest) ↔
      (c = '<' ∧ P text) ∨ ∃ rest, '<' :: rest <:+ text ∧ P rest := by
  simp only [suffix_cons_iff, or_and_right, exists_or, cons.injEq]
  refine or_congr ⟨?_, ?_⟩ Iff.rfl
  · rintro ⟨_, ⟨rfl, rfl⟩, h⟩
    exact ⟨rfl, h⟩
  · rintro ⟨rfl, h⟩
    exact ⟨text, ⟨rfl, rfl⟩, h⟩

theorem dropWhile_escape {p : Char → Bool} (hopen : p '<' = false) (hamp : p '&' = false)
    (text : List Char) :
    (escapeSkillContent text).dropWhile p = escapeSkillContent (text.dropWhile p) := by
  induction text with
  | nil => rfl
  | cons c text ih =>
    by_cases htag : c = '<' ∧ isSkillTag text = true
    · simp [escapeSkillContent, htag, hopen, hamp]
    · by_cases hp : p c = true <;> simp [escapeSkillContent, htag, hp, ih]

theorem startsWith_escape {letters : List (List Char)}
    (h : ∀ letter ∈ letters, '<' ∉ letter ∧ '&' ∉ letter) (text : List Char) :
    startsWith letters (escapeSkillContent text) = startsWith letters text := by
  induction letters generalizing text with
  | nil => simp [startsWith]
  | cons letter letters ih =>
    obtain ⟨⟨hopen, hamp⟩, hrest⟩ := forall_mem_cons.1 h
    cases text with
    | nil => rfl
    | cons c text =>
      by_cases htag : c = '<' ∧ isSkillTag text = true
      · simp [escapeSkillContent, startsWith, htag, hopen, hamp]
      · simp [escapeSkillContent, startsWith, htag, ih hrest]

/-- Escaping leaves alone what a tag goes on with. -/
theorem goesOn_escape (text : List Char) : goesOn (escapeSkillContent text) = goesOn text := by
  rw [goesOn, dropWhile_escape (by decide) (by decide), startsWith_escape (by decide), goesOn]

/-- What is still opened is what was not taken for a tag. -/
theorem opensBlock_escape_iff (content : List Char) :
    OpensBlock (escapeSkillContent content) ↔
      ∃ rest, '<' :: rest <:+ content ∧ goesOn rest = true ∧ isSkillTag rest = false := by
  induction content with
  | nil => simp [OpensBlock, escapeSkillContent]
  | cons c text ih =>
    rw [OpensBlock] at ih ⊢
    rw [exists_suffix_cons, ← ih]
    by_cases htag : c = '<' ∧ isSkillTag text = true
    · simp [escapeSkillContent, htag, exists_suffix_cons]
    · simp only [escapeSkillContent, Bool.and_eq_true, decide_eq_true_eq, htag, if_false,
        exists_suffix_cons, goesOn_escape]
      have : c = '<' → isSkillTag text = false := by simpa using htag
      exact or_congr_left (by tauto)

theorem head_escape {text rest : List Char} {c : Char} (hc : c ≠ '&')
    (h : escapeSkillContent text = c :: rest) :
    ∃ text', text = c :: text' ∧ rest = escapeSkillContent text' := by
  cases text with
  | nil => cases h
  | cons d text =>
    rw [escapeSkillContent] at h
    split at h
    · cases h
      exact absurd rfl hc
    · cases h
      exact ⟨text, rfl, rfl⟩

theorem unescape_escape (content : List Char) :
    unescape (escapeSkillContent content) = unescape content := by
  fun_induction unescape content with
  | case1 => rfl
  | case2 text ih => simp [escapeSkillContent, unescape, ih]
  | case3 c text hnot ih =>
    by_cases htag : c = '<' ∧ isSkillTag text = true
    · simp [escapeSkillContent, htag, unescape, ih]
    · simp only [escapeSkillContent, Bool.and_eq_true, decide_eq_true_eq, htag, if_false]
      rw [unescape, ih]
      rintro rest rfl htext
      obtain ⟨_, rfl, hl⟩ := head_escape (by decide) htext
      obtain ⟨_, rfl, ht⟩ := head_escape (by decide) hl.symm
      obtain ⟨text, rfl, -⟩ := head_escape (by decide) ht.symm
      exact hnot text rfl rfl

/-- Content cannot open or close a skill block exactly if every place where it would do so is
written as the regular expression expects it. -/
theorem escapeSkillContent_safe_iff (content : List Char) :
    ¬ OpensBlock (escapeSkillContent content) ∧
        unescape (escapeSkillContent content) = unescape content ↔
      ∀ rest, '<' :: rest <:+ content → goesOn rest = true → isSkillTag rest = true := by
  rw [opensBlock_escape_iff, and_iff_left (unescape_escape content)]
  simp

/-- A second slash hides a closing tag. -/
theorem two_slashes_close : OpensBlock (escapeSkillContent "<//skill>".toList) :=
  ⟨"//skill>".toList, by decide, by decide⟩

end Axinite.Skills
