import Axinite.Foundation.Utf8

/-!
# Previews of long texts

`truncatePreview` cuts a text at a byte budget, marks the cut with an ellipsis and
closes the `tool_output` element again when the text was wrapped in one.  The
result may be longer than the budget, so cutting twice is not always the same as
cutting once.

Main results:

- Theorem `truncatePreview_of_long`: the shape of a cut text.
- Theorem `truncatePreview_idem_iff`: the texts on which a second cut with the
  same budget changes nothing.
-/

namespace Axinite.Preview

open Foundation.Utf8 List

/-- Length of a text in bytes. -/
def len (s : String) : Nat :=
  byteLen s.toList

/-- The text starts with the given one. -/
def startsWith (s start : String) : Bool :=
  start.toList.isPrefixOf s.toList

/-- The text ends with the given one. -/
def endsWith (s ending : String) : Bool :=
  ending.toList.isSuffixOf s.toList

/-- Cut a text at the last character boundary within the budget. -/
def truncatePreview (s : String) (maxBytes : Nat) : String :=
  if len s ≤ maxBytes then s
  else
    let result :=
      String.ofList (sliceTo s.toList (floorCharBoundary s.toList maxBytes)) ++ "..."
    if startsWith s "<tool_output" && !endsWith result "</tool_output>" then
      result ++ "\n</tool_output>"
    else result

variable {s : String} {maxBytes : Nat}

theorem truncatePreview_of_short (h : len s ≤ maxBytes) : truncatePreview s maxBytes = s := by
  rw [truncatePreview, if_pos h]

/-- What a cut appends after the ellipsis. -/
def closing (s : String) : String :=
  if startsWith s "<tool_output" then "\n</tool_output>" else ""

theorem endsWith_ellipsis (s : String) : endsWith (s ++ "...") "</tool_output>" = false := by
  rw [endsWith, Bool.eq_false_iff, Ne, isSuffixOf_iff_suffix]
  rintro ⟨before, h⟩
  have hlast := congrArg getLast? h
  simp at hlast

/-- A cut text is the slice, the ellipsis and the closing tag of its element. -/
theorem truncatePreview_of_long (h : maxBytes < len s) : truncatePreview s maxBytes =
      String.ofList (sliceTo s.toList (floorCharBoundary s.toList maxBytes)) ++ "..." ++
        closing s := by
  rw [truncatePreview, if_neg (not_le.2 h)]
  simp only [endsWith_ellipsis, Bool.not_false, Bool.and_true, closing]
  split <;> simp

/-! ## Cutting twice -/

/-- A second cut of the text with the same budget changes nothing. -/
def TruncationStable (s : String) (maxBytes : Nat) : Prop :=
  len s ≤ maxBytes ∨ floorCharBoundary s.toList maxBytes = maxBytes ∨
    (floorCharBoundary s.toList maxBytes + 3 ≤ maxBytes ∧
      startsWith s "<tool_output" = false)
  deriving Decidable

/-- A long enough slice decides whether the text is wrapped. -/
theorem startsWith_slice {s t : String} {as bs cs : List Char} (hs : s.toList = as ++ bs)
    (ht : t.toList = as ++ cs) (has : 12 ≤ byteLen as) :
    startsWith t "<tool_output" = startsWith s "<tool_output" := by
  have hlen : byteLen "<tool_output".toList ≤ byteLen as :=
    le_trans (by decide : byteLen "<tool_output".toList ≤ 12) has
  rw [Bool.eq_iff_iff]
  simp only [startsWith, isPrefixOf_iff_prefix, hs, ht]
  constructor
  · intro h
    exact (prefix_of_byteLen_le h (prefix_append _ _) hlen).trans (prefix_append _ _)
  · intro h
    exact (prefix_of_byteLen_le h (prefix_append _ _) hlen).trans (prefix_append _ _)

theorem truncatePreview_toList (h : maxBytes < len s) :
    ∃ as bs, s.toList = as ++ bs ∧ byteLen as = floorCharBoundary s.toList maxBytes ∧
      (truncatePreview s maxBytes).toList = as ++ ("...".toList ++ (closing s).toList) := by
  obtain ⟨as, bs, hsplit, has⟩ :=
    isCharBoundary_iff.1 (isCharBoundary_floorCharBoundary s.toList maxBytes)
  rw [truncatePreview_of_long h, ← has, hsplit]
  simp

theorem closing_truncatePreview (hmax : 15 ≤ maxBytes) (h : maxBytes < len s) :
    closing (truncatePreview s maxBytes) = closing s := by
  obtain ⟨as, bs, hsplit, has, hcut⟩ := truncatePreview_toList h
  have hnear := lt_floorCharBoundary_add_four (le_of_lt h)
  rw [closing, closing, startsWith_slice hsplit hcut (by omega)]

theorem len_truncatePreview (h : maxBytes < len s) : len (truncatePreview s maxBytes) =
      floorCharBoundary s.toList maxBytes + 3 + len (closing s) := by
  obtain ⟨as, bs, hsplit, has, hcut⟩ := truncatePreview_toList h
  have hdots : byteLen "...".toList = 3 := by decide
  rw [len, hcut, byteLen_append, byteLen_append, len]
  omega

theorem len_closing (s : String) :
    len (closing s) = if startsWith s "<tool_output" then 15 else 0 := by
  unfold closing
  split
  · decide
  · rfl

/-- A cut text that is still too long is cut at the same place exactly when the
first cut used up the whole budget. -/
theorem truncatePreview_idem_iff_of_long (hmax : 15 ≤ maxBytes) (h : maxBytes < len s)
    (h' : maxBytes < len (truncatePreview s maxBytes)) :
    truncatePreview (truncatePreview s maxBytes) maxBytes = truncatePreview s maxBytes ↔
      floorCharBoundary s.toList maxBytes = maxBytes := by
  obtain ⟨as, bs, -, has, hcut⟩ := truncatePreview_toList h
  obtain ⟨as', bs', hsplit', has', hcut'⟩ := truncatePreview_toList h'
  have hle := floorCharBoundary_le s.toList maxBytes
  rw [closing_truncatePreview hmax h] at hcut'
  rw [← String.toList_inj, hcut', hcut, append_left_inj, ← has]
  constructor
  · rintro rfl
    -- the first dot of the ellipsis would fit into the rest of the budget
    by_contra hne
    have hdot : isCharBoundary (truncatePreview s maxBytes).toList (byteLen as' + 1) = true :=
      isCharBoundary_iff.2 ⟨as' ++ ['.'], '.' :: '.' :: (closing s).toList, by
        rw [hcut]; simp, by simp; decide⟩
    have := le_floorCharBoundary hdot (n := maxBytes) (by omega)
    omega
  · intro hfull
    have hsame : floorCharBoundary (truncatePreview s maxBytes).toList maxBytes = byteLen as := by
      rw [hcut, ← hfull]
      exact floorCharBoundary_eq_self (isCharBoundary_append _ _)
    calc as' = sliceTo (as' ++ bs') (byteLen as') := (sliceTo_append as' bs').symm
      _ = sliceTo (as ++ ("...".toList ++ (closing s).toList)) (byteLen as) := by
        rw [← hsplit', has', hsame, hcut]
      _ = as := sliceTo_append _ _

/-- Cutting twice equals cutting once exactly on the stable texts. -/
theorem truncatePreview_idem_iff (hmax : 15 ≤ maxBytes) :
    truncatePreview (truncatePreview s maxBytes) maxBytes = truncatePreview s maxBytes ↔
      TruncationStable s maxBytes := by
  by_cases hshort : len s ≤ maxBytes
  · simp [truncatePreview_of_short _, TruncationStable, hshort]
  have hlong : maxBytes < len s := not_le.1 hshort
  have hnear := lt_floorCharBoundary_add_four (le_of_lt hlong)
  have hlen := len_truncatePreview hlong
  rw [len_closing] at hlen
  by_cases hfit : len (truncatePreview s maxBytes) ≤ maxBytes
  · -- the ellipsis fits into the budget, which leaves no room for a closing tag
    rw [truncatePreview_of_short hfit]
    cases hwrap : startsWith s "<tool_output" <;> simp [hwrap] at hlen
    · simp [TruncationStable, hwrap]; omega
    · omega
  · rw [truncatePreview_idem_iff_of_long hmax hlong (not_le.1 hfit)]
    cases hwrap : startsWith s "<tool_output" <;> simp [hwrap] at hlen <;>
      simp [TruncationStable, hwrap] <;> omega

/-- A shorter cut in between is harmless exactly if it does not cut anything. -/
theorem truncatePreview_truncatePreview_iff {small large : Nat} (h : small + 18 < large) :
    truncatePreview (truncatePreview s small) large = truncatePreview s large ↔
      truncatePreview s small = s := by
  constructor
  · intro heq
    by_contra hcut
    have hlong : small < len s := by
      by_contra hshort
      exact hcut (truncatePreview_of_short (not_lt.1 hshort))
    have hle := floorCharBoundary_le s.toList small
    have hlen := len_truncatePreview hlong
    have hclosing : len (closing s) ≤ 15 := by
      rw [len_closing]
      split <;> omega
    rw [truncatePreview_of_short (by omega)] at heq
    by_cases hfits : len s ≤ large
    · -- the text itself fits, so the shorter cut would have to return it
      rw [truncatePreview_of_short hfits] at heq
      exact hcut heq
    · have hlong' : large < len s := not_le.1 hfits
      have hnear := lt_floorCharBoundary_add_four (le_of_lt hlong')
      have hlen' := len_truncatePreview hlong'
      rw [← heq] at hlen'
      omega
  · intro hsame
    rw [hsame]

end Axinite.Preview
