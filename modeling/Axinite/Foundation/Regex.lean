import Axinite.Foundation.Utf8
import Mathlib.Data.List.Infix
import Mathlib.Data.List.TakeWhile

/-!
# Regular expressions

A fragment of regular expressions: literals, character classes with a repetition count, word
boundaries, sequences, alternatives, optional and repeated parts and a switch to caseless
matching.

The ways to match at one place are listed in the order of preference: earlier alternatives come
before later ones and longer repetitions before shorter ones.  A search reports the first one at
the leftmost place that has one and goes on behind it.

What counts as white space, as a word character and as a case variant is a parameter.

Main results:

- Theorem `leading_prefix_of_mem_lengths`: where an expression matches, the text starts with the
  literal the expression starts with.
- Theorem `findIter_ne_nil_iff`: a search reports something exactly if the expression matches
  somewhere.
- Theorem `mem_findIter`: a reported match is a part of the text at which the expression matches.
- Theorem `not_mem_take_of_avoids`: a character that an expression avoids is in none of its
  matches.
-/

namespace Axinite.Foundation

open List

/-- What the matching of characters rests on; `variants` lists the case variants of a character,
the character itself included. -/
structure CharTables where
  isSpace : Char → Bool
  isWord : Char → Bool
  variants : Char → List Char

/-- A class of characters; a single character is a range of its own.  `any` is every character
but the line feed. -/
inductive CharClass where
  | ranges (bounds : List (Char × Char))
  | space
  | rangesOrSpace (bounds : List (Char × Char))
  | nonSpace
  | word
  | any
  | char (c : Char)

/-- Regular expressions. -/
inductive Regex where
  | literal (text : List Char)
  | repeated (cls : CharClass) (min : Nat) (max : Option Nat)
  | wordBoundary
  | seq (first second : Regex)
  | alt (first second : Regex)
  | group (r : Regex)
  | optional (r : Regex)
  | caseless (r : Regex)
  | capture (r : Regex)
  | many (r : Regex) (min : Nat)

/-! ## The text of an expression -/

namespace CharClass

/-- The text of a range. -/
def printRange (bound : Char × Char) : List Char :=
  if bound.1 = bound.2 then [bound.1] else [bound.1, '-', bound.2]

/-- The text of a class. -/
def print : CharClass → List Char
  | ranges bounds => '[' :: bounds.flatMap printRange ++ [']']
  | space => ['\\', 's']
  | rangesOrSpace bounds => '[' :: bounds.flatMap printRange ++ ['\\', 's', ']']
  | nonSpace => ['[', '^', '\\', 's', ']']
  | word => ['\\', 'w']
  | any => ['.']
  | char c => [c]

/-- The character is in the class. -/
def contains (tables : CharTables) : CharClass → Char → Bool
  | ranges bounds, c => bounds.any fun bound => bound.1 ≤ c && c ≤ bound.2
  | space, c => tables.isSpace c
  | rangesOrSpace bounds, c =>
    (bounds.any fun bound => bound.1 ≤ c && c ≤ bound.2) || tables.isSpace c
  | nonSpace, c => !tables.isSpace c
  | word, c => tables.isWord c
  | any, c => c != '\n'
  | char expected, c => expected == c

end CharClass

variable {r : Regex} {c : Char} {ignoreCase : Bool} {previous : Option Char}

namespace Regex

/-- The text of a repetition count. -/
def printCount (min : Nat) : Option Nat → List Char
  | none =>
    if min = 0 then ['*']
    else if min = 1 then ['+']
    else '{' :: Nat.toDigits 10 min ++ [',', '}']
  | some max =>
    if min = 1 ∧ max = 1 then []
    else if min = 0 ∧ max = 1 then ['?']
    else if min = max then '{' :: Nat.toDigits 10 min ++ ['}']
    else '{' :: Nat.toDigits 10 min ++ ',' :: Nat.toDigits 10 max ++ ['}']

/-- The text of a literal; characters with a meaning of their own and NUL are escaped. -/
def printLiteral (text : List Char) : List Char :=
  text.flatMap fun c =>
    if c = '.' ∨ c = '(' ∨ c = '|' then ['\\', c]
    else if c = '\x00' then ['\\', 'x', '0', '0']
    else [c]

/-- The text of an expression. -/
def print : Regex → List Char
  | literal text => printLiteral text
  | repeated cls min max => cls.print ++ printCount min max
  | wordBoundary => ['\\', 'b']
  | seq first second => first.print ++ second.print
  | alt first second => first.print ++ '|' :: second.print
  | group r => ['(', '?', ':'] ++ r.print ++ [')']
  | optional r => ['(', '?', ':'] ++ r.print ++ [')', '?']
  | caseless r => ['(', '?', 'i', ')'] ++ r.print
  | capture r => '(' :: r.print ++ [')']
  | many r min => r.print ++ printCount min none

/-! ## Building expressions -/

def lower : Char × Char := ('a', 'z')

def upper : Char × Char := ('A', 'Z')

def digit : Char × Char := ('0', '9')

/-- A range of one character. -/
def single (c : Char) : Char × Char := (c, c)

/-- A literal. -/
def text (expected : String) : Regex :=
  literal expected.toList

/-- At least `min` characters of the ranges. -/
def atLeast (min : Nat) (bounds : List (Char × Char)) : Regex :=
  repeated (.ranges bounds) min none

/-- Exactly `n` characters of the ranges. -/
def exactly (n : Nat) (bounds : List (Char × Char)) : Regex :=
  repeated (.ranges bounds) n (some n)

/-- At least `min` characters of white space. -/
def spaces (min : Nat) : Regex :=
  repeated .space min none

/-- Expressions one after the other. -/
def pieces (first : Regex) (rest : List Regex) : Regex :=
  rest.foldl seq first

/-! ## Matching -/

/-- The expression may match the empty text. -/
def nullable : Regex → Bool
  | literal text => text.isEmpty
  | repeated _ min _ => min == 0
  | wordBoundary => true
  | seq first second => first.nullable && second.nullable
  | alt first second => first.nullable || second.nullable
  | group r => r.nullable
  | optional _ => true
  | caseless r => r.nullable
  | capture r => r.nullable
  | many r min => min == 0 || r.nullable

/-- The literal that an expression starts with. -/
def leading : Regex → List Char
  | literal text => text
  | seq first _ => first.leading
  | _ => []

/-- A match: where it starts, in bytes, and its text. -/
structure Match where
  start : Nat
  text : List Char
  deriving DecidableEq, Repr

/-- The byte behind a match. -/
def Match.stop (m : Match) : Nat :=
  m.start + Utf8.byteLen m.text

section Matching

variable (tables : CharTables)

/-- Two characters match, caselessly or not. -/
def charMatches (ignoreCase : Bool) (expected c : Char) : Bool :=
  if ignoreCase then (tables.variants c).contains expected else expected == c

/-- A character matches a class, caselessly or not. -/
def classMatches (ignoreCase : Bool) (cls : CharClass) (c : Char) : Bool :=
  if ignoreCase then (tables.variants c).any (cls.contains tables) else cls.contains tables c

/-- The text starts with what is expected. -/
def literalMatches (ignoreCase : Bool) : List Char → List Char → Bool
  | [], _ => true
  | _ :: _, [] => false
  | e :: expected, c :: text =>
    charMatches tables ignoreCase e c && literalMatches ignoreCase expected text

/-- The character before what is left of the text behind its first characters. -/
def previousAfter (previous : Option Char) (text : List Char) : Nat → Option Char
  | 0 => previous
  | n + 1 => text[n]?

/-- A word starts or ends here. -/
def atBoundary (previous : Option Char) (text : List Char) : Bool :=
  previous.any tables.isWord != text.head?.any tables.isWord

/-- How many characters the class can match at most. -/
def longestRun (ignoreCase : Bool) (cls : CharClass) (max : Option Nat) (text : List Char) : Nat :=
  let run := (text.takeWhile (classMatches tables ignoreCase cls)).length
  max.elim run fun max => Nat.min max run

/-- The lengths of the ways to match at least `min` times, the preferred ones first; a repeated
part matches something, so that the length of the text bounds the number of rounds. -/
def iterated (step : Option Char → List Char → List Nat) :
    Nat → Nat → Option Char → List Char → List Nat
  | 0, min, _, _ => if min = 0 then [0] else []
  | rounds + 1, min, previous, text =>
    (((step previous text).filter (0 < ·)).flatMap fun n =>
      (iterated step rounds (min - 1) (previousAfter previous text n) (text.drop n)).map (n + ·)) ++
    if min = 0 then [0] else []

/-- The lengths of the ways to match at the beginning of the text, the preferred ones first;
`previous` is the character before the text. -/
def lengths (ignoreCase : Bool) (previous : Option Char) (text : List Char) : Regex → List Nat
  | literal expected =>
    if literalMatches tables ignoreCase expected text then [expected.length] else []
  | repeated cls min max =>
    ((List.range (longestRun tables ignoreCase cls max text + 1)).filter (min ≤ ·)).reverse
  | wordBoundary => if atBoundary tables previous text then [0] else []
  | seq first second =>
    (lengths ignoreCase previous text first).flatMap fun n =>
      (lengths ignoreCase (previousAfter previous text n) (text.drop n) second).map (n + ·)
  | alt first second =>
    lengths ignoreCase previous text first ++ lengths ignoreCase previous text second
  | group r => lengths ignoreCase previous text r
  | optional r => lengths ignoreCase previous text r ++ [0]
  | caseless r => lengths true previous text r
  | capture r => lengths ignoreCase previous text r
  | many r min =>
    iterated (fun previous text => lengths ignoreCase previous text r) text.length min previous
      text

/-- The matches of an expression that does not match the empty text, from left to right; `skip`
characters belong to the last match. -/
def findIterFrom (r : Regex) : Nat → Nat → Option Char → List Char → List Match
  | _, _, _, [] => []
  | skip + 1, position, _, c :: text => findIterFrom r skip (position + c.utf8Size) (some c) text
  | 0, position, previous, c :: text =>
    match (lengths tables false previous (c :: text) r).head? with
    | some (n + 1) =>
      ⟨position, (c :: text).take (n + 1)⟩ ::
        findIterFrom r n (position + c.utf8Size) (some c) text
    | _ => findIterFrom r 0 (position + c.utf8Size) (some c) text

/-- The matches in a text. -/
def findIter (r : Regex) (text : List Char) : List Match :=
  findIterFrom tables r 0 0 none text

/-- The expression matches somewhere in the text. -/
def MatchesIn (r : Regex) (text : List Char) : Prop :=
  ∃ before after, text = before ++ after ∧ lengths tables false before.getLast? after r ≠ []

end Matching

/-! ## Lengths of matches -/

variable {tables : CharTables} {expected text : List Char}

variable {previous : Option Char}

theorem mem_iterated {step : Option Char → List Char → List Nat} {rounds min n : Nat}
    (h : n ∈ iterated step rounds min previous text) :
    min = 0 ∧ n = 0 ∨ ∃ rounds' k m, k ∈ step previous text ∧ 0 < k ∧
      m ∈ iterated step rounds' (min - 1) (previousAfter previous text k) (text.drop k) ∧
        n = k + m ∧ rounds = rounds' + 1 := by
  cases rounds with
  | zero =>
    rw [iterated] at h
    split at h
    · exact .inl ⟨‹_›, mem_singleton.1 h⟩
    · exact absurd h not_mem_nil
  | succ rounds =>
    rcases mem_append.1 h with h | h
    · obtain ⟨k, hstep, hn⟩ := mem_flatMap.1 h
      obtain ⟨m, hm, rfl⟩ := mem_map.1 hn
      obtain ⟨hk, hpos⟩ := mem_filter.1 hstep
      exact .inr ⟨rounds, k, m, hk, of_decide_eq_true hpos, hm, rfl, rfl⟩
    · split at h
      · exact .inl ⟨‹_›, mem_singleton.1 h⟩
      · exact absurd h not_mem_nil

/-! ## The leading literal -/

variable (tables) in
theorem literalMatches_false_iff :
    literalMatches tables false expected text = true ↔ expected <+: text := by
  induction expected generalizing text with
  | nil => simp [literalMatches]
  | cons e expected ih =>
    cases text with
    | nil => simp [literalMatches]
    | cons c text => simp [literalMatches, charMatches, ih, cons_prefix_cons]

variable {n : Nat}

/-- Where an expression matches, the text starts with the literal the expression starts with,
caselessly or not. -/
theorem leading_of_mem_lengths (h : n ∈ lengths tables ignoreCase previous text r) :
    literalMatches tables ignoreCase r.leading text = true := by
  induction r generalizing n with
  | literal expected =>
    rw [lengths] at h
    split at h
    · next hmatches => exact hmatches
    · exact absurd h not_mem_nil
  | seq first second ihFirst _ =>
    rw [lengths, mem_flatMap] at h
    obtain ⟨k, hk, _⟩ := h
    exact ihFirst hk
  | _ => simp [leading, literalMatches]

theorem leading_prefix_of_mem_lengths
    (h : n ∈ lengths tables false previous text r) : r.leading <+: text :=
  (literalMatches_false_iff _).1 (leading_of_mem_lengths h)

/-- A text with a match contains the literal the expression starts with. -/
theorem MatchesIn.leading_infix (h : r.MatchesIn tables text) : r.leading <:+: text := by
  obtain ⟨before, after, rfl, hlengths⟩ := h
  obtain ⟨n, hn⟩ := exists_mem_of_ne_nil _ hlengths
  exact (leading_prefix_of_mem_lengths hn).isInfix.trans (suffix_append _ _).isInfix

/-- A literal matches somewhere exactly if the text contains it. -/
theorem matchesIn_literal_iff : (literal expected).MatchesIn tables text ↔ expected <:+: text := by
  have hlengths : ∀ previous text,
      lengths tables false previous text (literal expected) ≠ [] ↔ expected <+: text := by
    intro previous text
    rw [lengths, ← literalMatches_false_iff tables]
    split <;> simp_all
  simp only [MatchesIn, hlengths]
  constructor
  · rintro ⟨before, after, rfl, rest, rfl⟩
    exact ⟨before, rest, by simp⟩
  · rintro ⟨before, rest, rfl⟩
    exact ⟨before, expected ++ rest, by simp, prefix_append _ _⟩

/-! ## Characters that do not occur in matches -/

variable (tables) in
/-- No part of the expression matches the character. -/
def avoids (c : Char) (ignoreCase : Bool) : Regex → Bool
  | literal text => text.all fun e => !charMatches tables ignoreCase e c
  | repeated cls _ _ => !classMatches tables ignoreCase cls c
  | wordBoundary => true
  | seq first second => avoids c ignoreCase first && avoids c ignoreCase second
  | alt first second => avoids c ignoreCase first && avoids c ignoreCase second
  | group r => avoids c ignoreCase r
  | optional r => avoids c ignoreCase r
  | caseless r => avoids c true r
  | capture r => avoids c ignoreCase r
  | many r _ => avoids c ignoreCase r

/-- A character without other variants is avoided caselessly if it is avoided. -/
theorem avoids_of_no_variants (hc : ∀ d ∈ tables.variants c, d = c) {ignoreCase : Bool}
    (h : r.avoids tables c false = true) : r.avoids tables c ignoreCase = true := by
  have hclass : ∀ cls : CharClass, cls.contains tables c = false →
      classMatches tables true cls c = false := by
    intro cls hcls
    refine Bool.eq_false_iff.2 fun hmatches => ?_
    obtain ⟨d, hd, hcontains⟩ := any_eq_true.1 hmatches
    rw [hc d hd, hcls] at hcontains
    exact absurd hcontains Bool.false_ne_true
  have hchar : ∀ e, charMatches tables false e c = false → charMatches tables true e c = false := by
    intro e he
    refine Bool.eq_false_iff.2 fun hmatches => ?_
    have hvariant : e = c := hc e (by simpa [charMatches] using hmatches)
    simp [charMatches, hvariant] at he
  induction r generalizing ignoreCase with
  | literal text =>
    cases ignoreCase with
    | false => exact h
    | true =>
      simp only [avoids, all_eq_true, Bool.not_eq_true'] at h ⊢
      exact fun e he => hchar e (h e he)
  | repeated cls min max =>
    cases ignoreCase with
    | false => exact h
    | true =>
      simp only [avoids, Bool.not_eq_true'] at h ⊢
      exact hclass cls h
  | wordBoundary => rfl
  | seq _ _ ihFirst ihSecond | alt _ _ ihFirst ihSecond =>
    rw [avoids, Bool.and_eq_true] at h ⊢
    exact ⟨ihFirst h.1, ihSecond h.2⟩
  | group _ ih | optional _ ih => exact ih h
  | caseless r ih => exact h
  | capture _ ih | many _ _ ih => exact ih h

/-- The first characters of the text, none of which is to be avoided. -/
def Clear (avoided : Char → Prop) (text : List Char) (n : Nat) : Prop :=
  n ≤ text.length ∧ ∀ c, avoided c → c ∉ text.take n

section Clear

variable {avoided : Char → Prop}

theorem Clear.zero : Clear avoided text 0 :=
  ⟨Nat.zero_le _, by simp⟩

theorem Clear.add {k m : Nat} (hfirst : Clear avoided text k)
    (hsecond : Clear avoided (text.drop k) m) : Clear avoided text (k + m) := by
  refine ⟨?_, fun c hc => ?_⟩
  · have hrest := hsecond.1
    rw [length_drop] at hrest
    have := hfirst.1
    omega
  · rw [take_add, mem_append, not_or]
    exact ⟨hfirst.2 c hc, hsecond.2 c hc⟩

theorem Clear.mono {avoided' : Char → Prop} (h : Clear avoided text n)
    (himp : ∀ c, avoided' c → avoided c) : Clear avoided' text n :=
  ⟨h.1, fun c hc => h.2 c (himp c hc)⟩

theorem clear_of_literalMatches
    (havoids : ∀ c, avoided c → ∀ e ∈ expected, charMatches tables ignoreCase e c = false)
    (h : literalMatches tables ignoreCase expected text = true) :
    Clear avoided text expected.length := by
  induction expected generalizing text with
  | nil => exact .zero
  | cons e expected ih =>
    cases text with
    | nil => exact absurd h (by simp [literalMatches])
    | cons d text =>
      rw [literalMatches, Bool.and_eq_true] at h
      obtain ⟨hlength, hclear⟩ := ih (fun c hc e he => havoids c hc e (mem_cons_of_mem _ he)) h.2
      refine ⟨Nat.succ_le_succ hlength, fun c hc => ?_⟩
      rw [length_cons, take_succ_cons, mem_cons, not_or]
      refine ⟨?_, hclear c hc⟩
      rintro rfl
      rw [havoids c hc e mem_cons_self] at h
      exact absurd h.1 Bool.false_ne_true

theorem clear_of_mem_iterated {step : Option Char → List Char → List Nat}
    (hstep : ∀ previous text, ∀ n ∈ step previous text, Clear avoided text n) {rounds min n : Nat}
    (h : n ∈ iterated step rounds min previous text) : Clear avoided text n := by
  induction rounds generalizing min previous text n with
  | zero =>
    rcases mem_iterated h with ⟨_, rfl⟩ | ⟨_, _, _, _, _, _, _, hrounds⟩
    · exact .zero
    · cases hrounds
  | succ rounds ih =>
    rcases mem_iterated h with ⟨_, rfl⟩ | ⟨rounds', k, m, hk, _, hm, rfl, hrounds⟩
    · exact .zero
    · cases hrounds
      exact (hstep _ text k hk).add (ih hm)

end Clear

/-- A match is a part of the text without the characters that the expression avoids, and not
empty if the expression may not match the empty text. -/
theorem clear_of_mem_lengths (h : n ∈ lengths tables ignoreCase previous text r) :
    Clear (fun c => r.avoids tables c ignoreCase = true) text n ∧ (r.nullable = false → 0 < n) := by
  induction r generalizing ignoreCase previous text n with
  | literal expected =>
    rw [lengths] at h
    split at h
    · next hmatches =>
      rw [mem_singleton.1 h]
      refine ⟨clear_of_literalMatches (fun c hc => by simpa [avoids] using hc) hmatches, fun hr => ?_⟩
      exact length_pos_iff.2 fun hempty => absurd hr (by simp [nullable, hempty])
    · exact absurd h not_mem_nil
  | repeated cls min max =>
    rw [lengths, mem_reverse, mem_filter, mem_range, decide_eq_true_eq] at h
    have hrun : n ≤ (text.takeWhile (classMatches tables ignoreCase cls)).length := by
      cases max with
      | none => exact Nat.le_of_lt_succ h.1
      | some max => exact (Nat.le_of_lt_succ h.1).trans (min_le_right _ _)
    refine ⟨⟨hrun.trans ( takeWhile_prefix _).length_le, fun c hc hmem => ?_⟩, fun hr => ?_⟩
    swap
    · exact (Nat.pos_of_ne_zero (by simpa [nullable] using hr)).trans_le h.2
    have htaken : text.take n <+: text.takeWhile (classMatches tables ignoreCase cls) :=
      prefix_of_prefix_length_le ( take_prefix _ _) ( takeWhile_prefix _)
        ((length_take_le _ _).trans hrun)
    have hmatches := mem_takeWhile_imp (htaken.subset hmem)
    simp [avoids, hmatches] at hc
  | wordBoundary =>
    rw [lengths] at h
    split at h
    · rw [mem_singleton.1 h]
      exact ⟨.zero, by simp [nullable]⟩
    · exact absurd h not_mem_nil
  | seq first second ihFirst ihSecond =>
    simp only [avoids, nullable, Bool.and_eq_true, Bool.and_eq_false_iff]
    rw [lengths, mem_flatMap] at h
    obtain ⟨k, hk, hn⟩ := h
    obtain ⟨m, hm, rfl⟩ := mem_map.1 hn
    obtain ⟨hfirst, hposFirst⟩ := ihFirst hk
    obtain ⟨hsecond, hposSecond⟩ := ihSecond hm
    refine ⟨(hfirst.mono fun _ hc => hc.1).add (hsecond.mono fun _ hc => hc.2), ?_⟩
    rintro (hr | hr)
    · exact Nat.add_pos_left (hposFirst hr) m
    · exact Nat.add_pos_right k (hposSecond hr)
  | alt first second ihFirst ihSecond =>
    simp only [avoids, nullable, Bool.and_eq_true, Bool.or_eq_false_iff]
    rcases mem_append.1 h with h | h
    · exact ⟨(ihFirst h).1.mono fun _ hc => hc.1, fun hr => (ihFirst h).2 hr.1⟩
    · exact ⟨(ihSecond h).1.mono fun _ hc => hc.2, fun hr => (ihSecond h).2 hr.2⟩
  | optional r ih =>
    rcases mem_append.1 h with h | h
    · exact ⟨(ih h).1, by simp [nullable]⟩
    · rw [mem_singleton.1 h]
      exact ⟨.zero, by simp [nullable]⟩
  | group _ ih | caseless _ ih | capture _ ih => exact ih h
  | many r min ih =>
    refine ⟨clear_of_mem_iterated (fun _ _ _ hn => (ih hn).1) h, fun hr => ?_⟩
    rw [nullable, Bool.or_eq_false_iff, beq_eq_false_iff_ne] at hr
    rcases mem_iterated h with ⟨hmin, _⟩ | ⟨_, k, m, _, hpos, _, rfl, _⟩
    · exact absurd hmin hr.1
    · exact Nat.add_pos_left hpos m

/-- A character that an expression avoids is in none of its matches. -/
theorem not_mem_take_of_avoids (havoids : r.avoids tables c ignoreCase = true)
    (h : n ∈ lengths tables ignoreCase previous text r) : c ∉ text.take n :=
  (clear_of_mem_lengths h).1.2 c havoids

/-! ## The search -/

theorem getLast?_cons_or (c : Char) (before : List Char) (previous : Option Char) :
    (c :: before).getLast?.or previous = before.getLast?.or (some c) := by
  rw [getLast?_cons, Option.or_some, Option.some_or]

/-- A search reports something exactly if the expression matches somewhere in the text that
follows. -/
theorem findIterFrom_ne_nil_iff (hr : r.nullable = false) (position : Nat) (previous : Option Char)
    (text : List Char) :
    findIterFrom tables r 0 position previous text ≠ [] ↔ ∃ before after, text = before ++ after ∧
      lengths tables false (before.getLast?.or previous) after r ≠ [] := by
  induction text generalizing position previous with
  | nil =>
    refine iff_of_false (fun h => h rfl) ?_
    rintro ⟨before, after, htext, hlengths⟩
    obtain ⟨rfl, rfl⟩ := nil_eq_append_iff.1 htext
    obtain ⟨n, hn⟩ := exists_mem_of_ne_nil _ hlengths
    exact Nat.not_le_of_lt ((clear_of_mem_lengths hn).2 hr) (clear_of_mem_lengths hn).1.1
  | cons c text ih =>
    -- a match starts at the first character or later
    have hreport : findIterFrom tables r 0 position previous (c :: text) ≠ [] ↔
        lengths tables false previous (c :: text) r ≠ [] ∨
          findIterFrom tables r 0 (position + c.utf8Size) (some c) text ≠ [] := by
      rw [findIterFrom]
      cases hlengths : lengths tables false previous (c :: text) r with
      | nil => simp
      | cons n more =>
        have hpos : 0 < n := (clear_of_mem_lengths (hlengths ▸ mem_cons_self)).2 hr
        obtain ⟨m, rfl⟩ := Nat.exists_eq_succ_of_ne_zero (Nat.ne_of_gt hpos)
        simp
    rw [hreport, ih]
    constructor
    · rintro (hlengths | ⟨before, after, rfl, hlengths⟩)
      · exact ⟨[], c :: text, rfl, hlengths⟩
      · exact ⟨c :: before, after, rfl, by rwa [getLast?_cons_or]⟩
    · rintro ⟨_ | ⟨b, before⟩, after, htext, hlengths⟩
      · cases htext
        exact .inl hlengths
      · cases htext
        exact .inr ⟨before, after, rfl, by rwa [getLast?_cons_or] at hlengths⟩

theorem mem_findIterFrom {skip position : Nat}
    {m : Match} (h : m ∈ findIterFrom tables r skip position previous text) :
    ∃ before after, text = before ++ (m.text ++ after) ∧ m.start = position + Utf8.byteLen before ∧
      m.text.length ∈ lengths tables false (before.getLast?.or previous) (m.text ++ after) r := by
  induction text generalizing skip position previous with
  | nil => cases skip <;> exact absurd h not_mem_nil
  | cons c text ih =>
    -- a match behind the first character
    have hlater : ∀ skip, m ∈ findIterFrom tables r skip (position + c.utf8Size) (some c) text →
        ∃ before after, c :: text = before ++ (m.text ++ after) ∧
          m.start = position + Utf8.byteLen before ∧
          m.text.length ∈
            lengths tables false (before.getLast?.or previous) (m.text ++ after) r := by
      intro skip hm
      obtain ⟨before, after, htext, hstart, hlength⟩ := ih hm
      refine ⟨c :: before, after, by rw [htext, cons_append], ?_, ?_⟩
      · rw [hstart, Utf8.byteLen_cons, Nat.add_assoc]
      · rwa [getLast?_cons_or]
    cases skip with
    | succ skip => exact hlater skip h
    | zero =>
      rw [findIterFrom] at h
      split at h
      · next n hhead =>
        rcases mem_cons.1 h with rfl | h
        · have hmem := mem_of_mem_head? hhead
          have hlength : ((c :: text).take (n + 1)).length = n + 1 :=
            length_take_of_le (clear_of_mem_lengths hmem).1.1
          refine ⟨[], (c :: text).drop (n + 1), ?_, rfl, ?_⟩
          · exact (take_append_drop _ _).symm
          · rw [hlength, take_append_drop]
            exact hmem
        · exact hlater n h
      · exact hlater 0 h

/-- A reported match is a part of the text at which the expression matches. -/
theorem mem_findIter {m : Match} (h : m ∈ r.findIter tables text) :
    ∃ before after, text = before ++ (m.text ++ after) ∧ m.start = Utf8.byteLen before ∧
      m.text.length ∈ lengths tables false before.getLast? (m.text ++ after) r := by
  obtain ⟨before, after, htext, hstart, hlength⟩ := mem_findIterFrom h
  exact ⟨before, after, htext, by rw [hstart, Nat.zero_add], by rwa [Option.or_none] at hlength⟩

/-- A search reports something exactly if the expression matches somewhere. -/
theorem findIter_ne_nil_iff (hr : r.nullable = false) :
    r.findIter tables text ≠ [] ↔ r.MatchesIn tables text := by
  rw [findIter, findIterFrom_ne_nil_iff hr, MatchesIn]
  simp

end Regex

end Axinite.Foundation
