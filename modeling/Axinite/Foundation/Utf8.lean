import Mathlib.Data.List.Basic
import Mathlib.Data.List.DropRight
import Mathlib.Tactic.Common

/-!
# Byte offsets in UTF-8 text

Byte-indexed text operations on lists of characters: the byte length, the
character boundaries, the last boundary at or before an offset, and the slices up
to a boundary and behind it.

Main results:

- Theorem `isCharBoundary_iff`: boundaries are the byte lengths of prefixes.
- Theorem `sliceTo_append`: slicing at a boundary returns the prefix.
- Theorem `floorCharBoundary_eq_of_split`: the last boundary at or before an
  offset, read off from a split of the text.
- Theorem `lt_floorCharBoundary_add_four`: it is less than four bytes away.
-/

namespace Axinite.Foundation.Utf8

open List

/-- Number of bytes of the UTF-8 encoding. -/
def byteLen : List Char → Nat
  | [] => 0
  | c :: cs => c.utf8Size + byteLen cs

@[simp]
theorem byteLen_nil : byteLen [] = 0 :=
  rfl

@[simp]
theorem byteLen_cons (c : Char) (cs : List Char) : byteLen (c :: cs) = c.utf8Size + byteLen cs :=
  rfl

variable (as bs : List Char) (cs : List Char) (n : Nat)

@[simp]
theorem byteLen_append : byteLen (as ++ bs) = byteLen as + byteLen bs := by
  induction as with
  | nil => simp
  | cons a as ih => simp [ih, Nat.add_assoc]

theorem byteLen_replicate (c : Char) : byteLen (List.replicate n c) = n * c.utf8Size := by
  induction n with
  | zero => simp
  | succ n ih =>
    rw [replicate_succ, byteLen_cons, Nat.succ_mul]
    omega

/-- The offset `n` lies between two characters, or at an end of the text. -/
def isCharBoundary : List Char → Nat → Bool
  | _, 0 => true
  | [], _ + 1 => false
  | c :: cs, n + 1 => decide (c.utf8Size ≤ n + 1) && isCharBoundary cs (n + 1 - c.utf8Size)

/-- The text before the boundary `n`. -/
def sliceTo : List Char → Nat → List Char
  | _, 0 => []
  | [], _ + 1 => []
  | c :: cs, n + 1 =>
    if c.utf8Size ≤ n + 1 then c :: sliceTo cs (n + 1 - c.utf8Size) else []

/-- The text behind the boundary `n`. -/
def sliceFrom : List Char → Nat → List Char
  | cs, 0 => cs
  | [], _ + 1 => []
  | c :: cs, n + 1 => sliceFrom cs (n + 1 - c.utf8Size)

/-- The last boundary at or before `n`, found by walking backwards. -/
def floorCharBoundary (cs : List Char) : Nat → Nat
  | 0 => 0
  | n + 1 => if isCharBoundary cs (n + 1) then n + 1 else floorCharBoundary cs n

/-! ## Boundaries and prefixes -/

@[simp]
theorem isCharBoundary_zero : isCharBoundary cs 0 = true := by
  cases cs <;> rfl

theorem isCharBoundary_cons {c : Char} {cs : List Char} {n : Nat} (hn : 0 < n) :
    isCharBoundary (c :: cs) n = true ↔
      c.utf8Size ≤ n ∧ isCharBoundary cs (n - c.utf8Size) = true := by
  cases n with
  | zero => omega
  | succ n => simp [isCharBoundary]

/-- A boundary is the byte length of a prefix. -/
theorem isCharBoundary_iff {cs : List Char} {n : Nat} :
    isCharBoundary cs n = true ↔ ∃ as bs, cs = as ++ bs ∧ byteLen as = n := by
  induction cs generalizing n with
  | nil =>
    cases n with
    | zero => simp
    | succ n =>
      simp only [isCharBoundary]
      simp
  | cons c cs ih =>
    rcases Nat.eq_zero_or_pos n with rfl | hn
    · simp only [isCharBoundary_zero, true_iff]
      exact ⟨[], c :: cs, rfl, rfl⟩
    · rw [isCharBoundary_cons hn, ih]
      constructor
      · rintro ⟨hc, as, bs, rfl, has⟩
        exact ⟨c :: as, bs, rfl, by rw [byteLen_cons]; omega⟩
      · rintro ⟨as, bs, hcs, has⟩
        cases as with
        | nil => simp at has; omega
        | cons a as =>
          obtain ⟨rfl, rfl⟩ := cons_eq_cons.1 hcs
          rw [byteLen_cons] at has
          exact ⟨by omega, as, bs, rfl, by omega⟩

theorem isCharBoundary_append : isCharBoundary (as ++ bs) (byteLen as) = true :=
  isCharBoundary_iff.2 ⟨as, bs, rfl, rfl⟩

/-- Slicing at the end of a prefix returns the prefix. -/
@[simp]
theorem sliceTo_append : sliceTo (as ++ bs) (byteLen as) = as := by
  induction as with
  | nil => cases bs <;> rfl
  | cons a as ih =>
    have ha : 0 < a.utf8Size := Char.utf8Size_pos a
    obtain ⟨n, hn⟩ : ∃ n, byteLen (a :: as) = n + 1 :=
      Nat.exists_eq_succ_of_ne_zero (by rw [byteLen_cons]; omega)
    have hle : a.utf8Size ≤ n + 1 := by rw [← hn, byteLen_cons]; omega
    have hsub : n + 1 - a.utf8Size = byteLen as := by rw [← hn, byteLen_cons]; omega
    rw [hn, cons_append, sliceTo, if_pos hle, hsub, ih]

/-- Slicing behind a prefix returns the rest. -/
@[simp]
theorem sliceFrom_append : sliceFrom (as ++ bs) (byteLen as) = bs := by
  induction as with
  | nil => cases bs <;> rfl
  | cons a as ih =>
    have ha : 0 < a.utf8Size := Char.utf8Size_pos a
    obtain ⟨n, hn⟩ : ∃ n, byteLen (a :: as) = n + 1 :=
      Nat.exists_eq_succ_of_ne_zero (by rw [byteLen_cons]; omega)
    have hsub : n + 1 - a.utf8Size = byteLen as := by rw [← hn, byteLen_cons]; omega
    rw [hn, cons_append, sliceFrom, hsub, ih]

theorem sliceTo_prefix : sliceTo cs n <+: cs := by
  induction cs generalizing n with
  | nil => cases n <;> exact nil_prefix
  | cons c cs ih =>
    cases n with
    | zero => exact nil_prefix
    | succ n =>
      rw [sliceTo]
      split
      · exact cons_prefix_cons.2 ⟨rfl, ih _⟩
      · exact nil_prefix

theorem sliceFrom_suffix : sliceFrom cs n <:+ cs := by
  induction cs generalizing n with
  | nil => cases n <;> exact suffix_rfl
  | cons c cs ih =>
    cases n with
    | zero => exact suffix_rfl
    | succ n => exact (ih _).trans (suffix_cons c cs)

theorem sliceFrom_eq_nil {cs : List Char} {n : Nat} (h : byteLen cs ≤ n) : sliceFrom cs n = [] := by
  induction cs generalizing n with
  | nil => cases n <;> rfl
  | cons c cs ih =>
    have hc : 0 < c.utf8Size := Char.utf8Size_pos c
    rw [byteLen_cons] at h
    cases n with
    | zero => omega
    | succ n =>
      exact ih (by omega)

/-- Of two prefixes of a text, the one with fewer bytes is a prefix of the other. -/
theorem prefix_of_byteLen_le {as bs cs : List Char} (has : as <+: cs) (hbs : bs <+: cs)
    (hle : byteLen as ≤ byteLen bs) : as <+: bs := by
  rcases prefix_or_prefix_of_prefix has hbs with h | ⟨rest, rfl⟩
  · exact h
  · cases rest with
    | nil => simp
    | cons c rest =>
      have hc : 0 < c.utf8Size := Char.utf8Size_pos c
      rw [byteLen_append, byteLen_cons] at hle
      omega

/-! ## The last boundary before an offset -/

theorem floorCharBoundary_le : floorCharBoundary cs n ≤ n := by
  induction n with
  | zero => exact le_refl 0
  | succ n ih =>
    unfold floorCharBoundary
    split
    · exact le_refl _
    · omega

theorem isCharBoundary_floorCharBoundary : isCharBoundary cs (floorCharBoundary cs n) = true := by
  induction n with
  | zero => exact isCharBoundary_zero cs
  | succ n ih =>
    unfold floorCharBoundary
    split <;> rename_i h
    · exact h
    · exact ih

theorem le_floorCharBoundary {cs : List Char} {k n : Nat}
    (hk : isCharBoundary cs k = true) (hkn : k ≤ n) : k ≤ floorCharBoundary cs n := by
  induction n with
  | zero => omega
  | succ n ih =>
    unfold floorCharBoundary
    split <;> rename_i h
    · exact hkn
    · have hne : k ≠ n + 1 := fun hk' => h (hk' ▸ hk)
      exact ih (by omega)

/-- A boundary is its own floor. -/
theorem floorCharBoundary_eq_self {cs : List Char} {n : Nat}
    (hn : isCharBoundary cs n = true) : floorCharBoundary cs n = n :=
  le_antisymm (floorCharBoundary_le cs n) (le_floorCharBoundary hn (le_refl n))

/-- If the character after a prefix crosses the offset, the floor of the offset
is the end of the prefix. -/
theorem floorCharBoundary_eq_of_split {as bs : List Char} {c : Char} {n : Nat}
    (hlo : byteLen as ≤ n) (hhi : n < byteLen as + c.utf8Size) :
    floorCharBoundary (as ++ c :: bs) n = byteLen as := by
  refine le_antisymm ?_ (le_floorCharBoundary (isCharBoundary_append as _) hlo)
  obtain ⟨xs, ys, hsplit, hxs⟩ :=
    isCharBoundary_iff.1 (isCharBoundary_floorCharBoundary (as ++ c :: bs) n)
  rw [← hxs]
  have hle : byteLen xs ≤ n := hxs ▸ floorCharBoundary_le _ n
  -- a longer prefix would contain `c` and pass the offset
  rcases append_eq_append_iff.1 hsplit with ⟨zs, rfl, hz⟩ | ⟨zs, rfl, -⟩
  · cases zs with
    | nil => simp
    | cons z zs =>
      obtain ⟨rfl, -⟩ := cons_eq_cons.1 hz
      simp only [byteLen_append, byteLen_cons] at hle
      omega
  · simp

/-- Characters have at most four bytes, so the floor is never far away. -/
theorem lt_floorCharBoundary_add_four {cs : List Char} {n : Nat} (hn : n ≤ byteLen cs) :
    n < floorCharBoundary cs n + 4 := by
  suffices h : ∃ k, isCharBoundary cs k = true ∧ k ≤ n ∧ n < k + 4 by
    obtain ⟨k, hk, hkn, hlt⟩ := h
    have := le_floorCharBoundary hk hkn
    omega
  induction cs generalizing n with
  | nil =>
    have hn0 : n = 0 := by simpa using hn
    exact ⟨0, by simp, by omega, by omega⟩
  | cons c cs ih =>
    have hc4 : c.utf8Size ≤ 4 := Char.utf8Size_le_four c
    rw [byteLen_cons] at hn
    by_cases hcn : c.utf8Size ≤ n
    · obtain ⟨k, hk, hkn, hlt⟩ := ih (n := n - c.utf8Size) (by omega)
      have hc : 0 < c.utf8Size := Char.utf8Size_pos c
      refine ⟨c.utf8Size + k, ?_, by omega, by omega⟩
      rw [isCharBoundary_cons (by omega)]
      exact ⟨by omega, by simpa using hk⟩
    · exact ⟨0, by simp, by omega, by omega⟩

/-! ## White space -/

/-- The Unicode white space characters. -/
def isWhitespace (c : Char) : Bool :=
  let n := c.toNat
  (0x9 ≤ n && n ≤ 0xD) || n == 0x20 || n == 0x85 || n == 0xA0 || n == 0x1680 ||
    (0x2000 ≤ n && n ≤ 0x200A) || n == 0x2028 || n == 0x2029 || n == 0x202F ||
    n == 0x205F || n == 0x3000

/-- The text without its leading white space. -/
def trimStart (cs : List Char) : List Char :=
  cs.dropWhile isWhitespace

/-- The text without the white space at its ends. -/
def trim (cs : List Char) : List Char :=
  (trimStart cs).rdropWhile isWhitespace

/-- The text without the characters at its ends that satisfy `p`. -/
def trimMatches (p : Char → Bool) (cs : List Char) : List Char :=
  (cs.dropWhile p).rdropWhile p

section Trim

variable {p : Char → Bool} {cs : List Char}

theorem trimMatches_sublist : (trimMatches p cs).Sublist cs :=
  ( rdropWhile_prefix p _).sublist.trans (dropWhile_sublist p)

/-- Nothing is trimmed exactly if neither end satisfies `p`. -/
theorem trimMatches_eq_self_iff : trimMatches p cs = cs ↔
    (∀ c ∈ cs.head?, p c = false) ∧ ∀ c ∈ cs.getLast?, p c = false := by
  cases cs with
  | nil => simp [trimMatches]
  | cons c cs =>
    by_cases hc : p c = true
    · have hshort : (trimMatches p (c :: cs)).Sublist cs := by
        rw [trimMatches, dropWhile_cons_of_pos hc]
        exact trimMatches_sublist
      refine iff_of_false (fun h => ?_) (by simp [hc])
      rw [h] at hshort
      exact Nat.not_succ_le_self _ hshort.length_le
    · rw [trimMatches]
      simp [hc, getLast?_eq_some_getLast]

theorem trimMatches_trimMatches : trimMatches p (trimMatches p cs) = trimMatches p cs := by
  have hstart : (trimMatches p cs).dropWhile p = trimMatches p cs := by
    refine dropWhile_eq_self_iff.2 fun hlength => ?_
    -- the first character is the one at which the first pass has stopped
    have hfront : trimMatches p cs <+: cs.dropWhile p := rdropWhile_prefix p _
    have hstop : ¬ p ((cs.dropWhile p).get ⟨0, Nat.lt_of_lt_of_le hlength hfront.length_le⟩) :=
      dropWhile_get_zero_not p cs _
    rwa [get_eq_getElem, ← hfront.getElem _] at hstop
  rw [trimMatches, hstart]
  exact rdropWhile_idempotent p _

end Trim

/-- A trimmed text has no white space left to trim. -/
@[simp]
theorem trim_trim : trim (trim cs) = trim cs :=
  trimMatches_trimMatches

/-- Nothing is left of the text once white space is trimmed. -/
def isBlank (cs : List Char) : Bool :=
  cs.all isWhitespace

end Axinite.Foundation.Utf8
