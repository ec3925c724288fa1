import Mathlib.Data.List.Infix
import Mathlib.Data.List.MinMax

/-!
# Searching a text for several needles

The search reads a text from left to right.  As soon as a needle ends at the place that has been
reached, the needle is reported and the search starts anew behind it; so reported needles do not
overlap.  An occurrence of a needle may therefore be missed when another needle ends inside of it.

The window is what has been read since the search started anew.  Where it is known, so is what
the search reports.

Main results:

- Theorem `mem_findIter_iff`: a needle is reported where it ends the window.
- Theorem `window_append_of_clear`: reading a text in which no needle can end extends the window.
- Theorem `exists_report_of_infix`: an occurrence of a needle is met by a report that ends in it.
- Theorem `reported_iff`: a needle is reported exactly where no needle ends before its last item.
- Theorem `reported_iff_of_clear`: if other needles can end in a needle only behind its first
  item, the needle is reported exactly where none does.
-/

namespace Axinite.Foundation.Needles

open List

variable {α : Type} [DecidableEq α] (needles : List (List α))

/-! ## The search -/

/-- The longest needle that ends what has been read, with its index; of equal needles the first
one. -/
def endingAt (seen : List α) : Option (List α × Nat) :=
  (needles.zipIdx.filter fun needle => needle.1 <:+ seen).argmax fun needle => needle.1.length

/-- The reports of a search that goes on after the window. -/
def findIterFrom (window : List α) : List α → List (List α × Nat)
  | [] => []
  | a :: rest =>
    match endingAt needles (window ++ [a]) with
    | some found => found :: findIterFrom [] rest
    | none => findIterFrom (window ++ [a]) rest

/-- The needles that a search of the text reports, with their indices. -/
def findIter (text : List α) : List (List α × Nat) :=
  findIterFrom needles [] text

/-- The reports of a search that goes on after the window, each with the number of items that
have been read by then. -/
def reportsFrom (window : List α) (read : Nat) : List α → List (Nat × List α × Nat)
  | [] => []
  | a :: rest =>
    match endingAt needles (window ++ [a]) with
    | some found => (read + 1, found) :: reportsFrom [] (read + 1) rest
    | none => reportsFrom (window ++ [a]) (read + 1) rest

/-- The reports of a search, with the places behind the needles. -/
def reports (text : List α) : List (Nat × List α × Nat) :=
  reportsFrom needles [] 0 text

theorem map_snd_reportsFrom (window : List α) (read : Nat) (text : List α) :
    (reportsFrom needles window read text).map Prod.snd = findIterFrom needles window text := by
  induction text generalizing window read with
  | nil => rfl
  | cons a text ih =>
    rw [reportsFrom, findIterFrom]
    cases endingAt needles (window ++ [a]) with
    | none => exact ih _ _
    | some found => exact congrArg _ (ih [] _)

theorem map_snd_reports (text : List α) :
    (reports needles text).map Prod.snd = findIter needles text :=
  map_snd_reportsFrom _ [] 0 text

/-- The window after another item. -/
def nextWindow (window : List α) (a : α) : List α :=
  match endingAt needles (window ++ [a]) with
  | some _ => []
  | none => window ++ [a]

/-- The window after a text. -/
def window (text : List α) : List α :=
  text.foldl (nextWindow needles) []

variable {needles}

/-! ## Needles at the end -/

variable {seen : List α}

theorem endingAt_eq_none_iff :
    endingAt needles seen = none ↔ ∀ needle ∈ needles, ¬ needle <:+ seen := by
  rw [endingAt, argmax_eq_none, filter_eq_nil_iff]
  constructor
  · intro h needle hneedle hsuffix
    obtain ⟨i, hi⟩ := mem_iff_getElem?.1 hneedle
    exact h (needle, i) (mem_zipIdx_iff_getElem?.2 hi) (decide_eq_true hsuffix)
  · intro h found hfound hsuffix
    have hmem := mem_of_getElem? (mem_zipIdx_iff_getElem?.1 hfound)
    exact h _ hmem (of_decide_eq_true hsuffix)

theorem endingAt_eq_some {found : List α × Nat} (h : endingAt needles seen = some found) :
    needles[found.2]? = some found.1 ∧ found.1 <:+ seen ∧
      ∀ needle ∈ needles, needle <:+ seen → needle.length ≤ found.1.length := by
  obtain ⟨hzip, hsuffix⟩ := mem_filter.1 (argmax_mem h)
  refine ⟨mem_zipIdx_iff_getElem?.1 hzip, of_decide_eq_true hsuffix, ?_⟩
  intro needle hneedle hends
  obtain ⟨i, hi⟩ := mem_iff_getElem?.1 hneedle
  have hmem : (needle, i) ∈ needles.zipIdx.filter fun needle => needle.1 <:+ seen :=
    mem_filter.2 ⟨mem_zipIdx_iff_getElem?.2 hi, decide_eq_true hends⟩
  exact le_of_mem_argmax (f := fun needle : List α × Nat => needle.1.length) hmem h

/-- A needle that no other needle ends with is found where it ends. -/
theorem endingAt_of_suffix {seen needle : List α} (hneedle : needle ∈ needles)
    (hsuffix : needle <:+ seen) (hlongest : ∀ other ∈ needles, needle <:+ other → other = needle) :
    ∃ i, endingAt needles seen = some (needle, i) := by
  cases hends : endingAt needles seen with
  | none => exact absurd hsuffix (endingAt_eq_none_iff.1 hends _ hneedle)
  | some found =>
    obtain ⟨hmem, hfound, hmax⟩ := endingAt_eq_some hends
    have hlonger := suffix_of_suffix_length_le hsuffix hfound (hmax _ hneedle hsuffix)
    have heq := hlongest _ (mem_of_getElem? hmem) hlonger
    exact ⟨found.2, by rw [← heq]⟩

/-! ## The window -/

variable {found : List α × Nat} {text : List α} {a : α}

theorem mem_findIterFrom_iff (w text : List α) :
    found ∈ findIterFrom needles w text ↔ ∃ before a after, text = before ++ a :: after ∧
      endingAt needles (before.foldl (nextWindow needles) w ++ [a]) = some found := by
  induction text generalizing w with
  | nil => simp [findIterFrom]
  | cons a text ih =>
    -- the report is made at the first item or later
    have hreport : found ∈ findIterFrom needles w (a :: text) ↔
        endingAt needles (w ++ [a]) = some found ∨
          found ∈ findIterFrom needles (nextWindow needles w a) text := by
      rw [findIterFrom, nextWindow]
      cases endingAt needles (w ++ [a]) <;> simp [eq_comm]
    rw [hreport, ih]
    constructor
    · rintro (hends | ⟨before, b, after, rfl, hends⟩)
      · exact ⟨[], a, text, rfl, hends⟩
      · exact ⟨a :: before, b, after, rfl, hends⟩
    · rintro ⟨_ | ⟨a', before⟩, b, after, htext, hends⟩
      · cases htext
        exact .inl hends
      · cases htext
        exact .inr ⟨before, b, after, rfl, hends⟩

/-- A needle is reported where it ends the window. -/
theorem mem_findIter_iff :
    found ∈ findIter needles text ↔ ∃ before a after, text = before ++ a :: after ∧
      endingAt needles (window needles before ++ [a]) = some found :=
  mem_findIterFrom_iff [] text

/-- A report names a needle by its index. -/
theorem getElem?_of_mem_findIter (h : found ∈ findIter needles text) :
    needles[found.2]? = some found.1 := by
  obtain ⟨before, a, after, _, hends⟩ := mem_findIter_iff.1 h
  exact (endingAt_eq_some hends).1

theorem window_concat (text : List α) (a : α) :
    window needles (text ++ [a]) = nextWindow needles (window needles text) a := by
  rw [window, foldl_append]
  rfl

variable (needles) in
theorem window_suffix (text : List α) : window needles text <:+ text := by
  induction text using List.reverseRecOn with
  | nil => exact suffix_refl _
  | append_singleton text a ih =>
    rw [window_concat, nextWindow]
    split
    · exact nil_suffix
    · exact suffix_concat_iff.2 (.inr ⟨_, rfl, ih⟩)

variable (needles) in
theorem window_concat_suffix (text : List α) (a : α) :
    window needles text ++ [a] <:+ text ++ [a] :=
  suffix_concat_iff.2 (.inr ⟨_, rfl, window_suffix needles text⟩)

/-- Reading an item after which no needle ends extends the window. -/
theorem window_concat_of_not_suffix
    (h : ∀ needle ∈ needles, ¬ needle <:+ window needles text ++ [a]) :
    window needles (text ++ [a]) = window needles text ++ [a] := by
  rw [window_concat, nextWindow, endingAt_eq_none_iff.2 h]

/-- Reading an item after which a needle ends empties the window. -/
theorem window_concat_of_suffix {text needle : List α} {a : α} (hneedle : needle ∈ needles)
    (h : needle <:+ window needles text ++ [a]) : window needles (text ++ [a]) = [] := by
  rw [window_concat, nextWindow]
  split
  · rfl
  · next hnone => exact absurd h (endingAt_eq_none_iff.1 hnone _ hneedle)

/-- What is reported occurs in the text. -/
theorem infix_of_mem_findIter (h : found ∈ findIter needles text) : found.1 <:+: text := by
  obtain ⟨before, a, after, rfl, hends⟩ := mem_findIter_iff.1 h
  have hseen := (endingAt_eq_some hends).2.1.trans (window_concat_suffix _ _ a)
  exact hseen.isInfix.trans ⟨[], after, by simp⟩

/-! ## Where needles cannot end -/

variable (needles) in
/-- No needle can end together with this text, whatever comes before. -/
def Clear (text : List α) : Prop :=
  ∀ needle ∈ needles, ¬ needle <:+ text ∧ ¬ text <:+ needle

instance (text : List α) : Decidable (Clear needles text) :=
  inferInstanceAs (Decidable (∀ needle ∈ needles, _))

omit [DecidableEq α] in
theorem Clear.not_suffix (h : Clear needles text) (before : List α) :
    ∀ needle ∈ needles, ¬ needle <:+ before ++ text := by
  intro needle hneedle hsuffix
  rcases suffix_or_suffix_of_suffix hsuffix (suffix_append before text) with hin | hin
  · exact (h needle hneedle).1 hin
  · exact (h needle hneedle).2 hin

omit [DecidableEq α] in
/-- If one needle only ends in an item, no needle ends there unless the rest of that needle comes
before. -/
theorem not_suffix_concat_iff {rest : List α} (hmem : rest ++ [a] ∈ needles)
    (honly : ∀ other ∈ needles, other ≠ [] ∧ ([a] <:+ other → other = rest ++ [a])) :
    (∀ other ∈ needles, ¬ other <:+ seen ++ [a]) ↔ ¬ rest <:+ seen := by
  constructor
  · rintro h ⟨t, rfl⟩
    exact h _ hmem ⟨t, by rw [append_assoc]⟩
  · intro h other hother hsuffix
    obtain ⟨hne, honly⟩ := honly other hother
    have hlast : [a] <:+ other :=
      suffix_of_suffix_length_le (suffix_append seen [a]) hsuffix (length_pos_iff.2 hne)
    obtain ⟨t, ht⟩ := honly hlast ▸ hsuffix
    rw [← append_assoc] at ht
    exact h ⟨t, (append_inj' ht rfl).1⟩

/-- No needle ends in a text in which none can end; `read` is what comes directly before it. -/
theorem not_suffix_window_of_clear {before read first rest : List α}
    (h : ∀ k ≤ (first ++ a :: rest).length, 0 < k →
      Clear needles (read ++ (first ++ a :: rest).take k)) :
    ∀ needle ∈ needles, ¬ needle <:+ window needles (before ++ read ++ first) ++ [a] := by
  intro needle hneedle hends
  refine (h (first.length + 1) (by simp) (Nat.succ_pos _)).not_suffix before _ hneedle ?_
  simpa [take_append, take_of_length_le] using hends.trans (window_concat_suffix _ _ a)

/-- Reading a text extends the window, or something is reported meanwhile. -/
theorem window_append_or_report (before text : List α) :
    window needles (before ++ text) = window needles before ++ text ∨
      ∃ read a rest found, text = read ++ a :: rest ∧
        endingAt needles (window needles (before ++ read) ++ [a]) = some found := by
  induction text using List.reverseRecOn with
  | nil => exact .inl (by rw [append_nil, append_nil])
  | append_singleton text a ih =>
    rcases ih with hread | ⟨read, b, rest, found, htext, hends⟩
    · cases hends : endingAt needles (window needles (before ++ text) ++ [a]) with
      | none =>
        refine .inl ?_
        rw [← append_assoc, window_concat, nextWindow, hends, hread, append_assoc]
      | some found => exact .inr ⟨text, a, [], found, rfl, hends⟩
    · exact .inr ⟨read, b, rest ++ [a], found, by rw [htext, append_assoc]; rfl, hends⟩

/-- Reading a text in which no needle can end extends the window. -/
theorem window_append_of_clear (before read text : List α)
    (h : ∀ k ≤ text.length, 0 < k → Clear needles (read ++ text.take k)) :
    window needles (before ++ read ++ text) = window needles (before ++ read) ++ text := by
  rcases window_append_or_report (before ++ read) text with
    hread | ⟨first, a, rest, found, rfl, hends⟩
  · exact hread
  · obtain ⟨hmem, hsuffix, _⟩ := endingAt_eq_some hends
    exact absurd hsuffix (not_suffix_window_of_clear h _ (mem_of_getElem? hmem))

/-! ## Reports -/

/-- The window never ends with a needle. -/
theorem not_suffix_window {needle : List α} (hneedle : needle ∈ needles) (hne : needle ≠ [])
    (text : List α) : ¬ needle <:+ window needles text := by
  induction text using List.reverseRecOn with
  | nil => exact fun h => hne (suffix_nil.1 h)
  | append_singleton text a _ =>
    rw [window_concat, nextWindow]
    split
    · exact fun h => hne (suffix_nil.1 h)
    · next hnone => exact endingAt_eq_none_iff.1 hnone _ hneedle

/-- Every occurrence of a needle is met by a report that ends in it. -/
theorem exists_report_of_infix {needle : List α} (hneedle : needle ∈ needles) (hne : needle ≠ [])
    (before after : List α) :
    ∃ found ∈ findIter needles (before ++ needle ++ after), ∃ read, read ≠ [] ∧
      read <+: needle ∧ (found.1 <:+ read ∨ read <:+ found.1) := by
  rcases window_append_or_report before needle with hread | ⟨read, a, rest, found, htext, hends⟩
  · have hsuffix : needle <:+ window needles (before ++ needle) := by
      rw [hread]
      exact suffix_append _ _
    exact absurd hsuffix (not_suffix_window hneedle hne _)
  · refine ⟨found, mem_findIter_iff.2 ⟨before ++ read, a, rest ++ after, ?_, hends⟩,
      read ++ [a], by simp, ⟨rest, by rw [htext]; simp⟩, ?_⟩
    · rw [htext]
      simp
    · have hfound := (endingAt_eq_some hends).2.1
      have hwindow := window_concat_suffix needles (before ++ read) a
      rw [append_assoc] at hwindow
      exact suffix_or_suffix_of_suffix (hfound.trans hwindow) (suffix_append _ _)

variable (needles) in
theorem length_window_append_le (before text : List α) :
    (window needles (before ++ text)).length ≤ (window needles before).length + text.length := by
  induction text using List.reverseRecOn with
  | nil => simp
  | append_singleton text a ih =>
    rw [← append_assoc, window_concat, nextWindow]
    split
    · exact Nat.zero_le _
    · simp only [length_append, length_singleton]
      omega

/-- A needle that no other needle ends with is reported exactly where it occurs and no needle
ends before its last item. -/
theorem reported_iff {front : List α} {z : α} (hneedle : front ++ [z] ∈ needles)
    (hlongest : ∀ other ∈ needles, front ++ [z] <:+ other → other = front ++ [z]) (text : List α) :
    (∃ i, (front ++ [z], i) ∈ findIter needles text) ↔
      ∃ before after, text = before ++ (front ++ [z]) ++ after ∧
        ∀ read a rest, front = read ++ a :: rest →
          ∀ other ∈ needles, ¬ other <:+ window needles (before ++ read) ++ [a] := by
  constructor
  · rintro ⟨i, hreported⟩
    obtain ⟨seen, c, after, rfl, hends⟩ := mem_findIter_iff.1 hreported
    -- the window reaches back to the first item of the needle
    obtain ⟨t, ht⟩ := (endingAt_eq_some hends).2.1
    rw [← append_assoc] at ht
    obtain ⟨hwindow, hc⟩ := append_inj' ht rfl
    cases hc
    obtain ⟨u, hu⟩ := window_suffix needles seen
    have hseen : seen = u ++ t ++ front := by
      rw [← hu, ← hwindow]
      simp
    refine ⟨u ++ t, after, by rw [hseen]; simp, ?_⟩
    rintro read a rest rfl other hother hcut
    have hempty := window_concat_of_suffix hother hcut
    have hlength := length_window_append_le needles (u ++ t ++ read ++ [a]) rest
    have hwhole : seen = u ++ t ++ read ++ [a] ++ rest := by
      rw [hseen]
      simp
    rw [hempty, ← hwhole, ← hwindow] at hlength
    simp only [length_append, length_cons, length_nil] at hlength
    omega
  · rintro ⟨before, after, rfl, hquiet⟩
    have hwindow : window needles (before ++ front) = window needles before ++ front := by
      rcases window_append_or_report before front with hread | ⟨read, a, rest, found, hfront, hends⟩
      · exact hread
      · obtain ⟨hmem, hsuffix, _⟩ := endingAt_eq_some hends
        exact absurd hsuffix (hquiet read a rest hfront _ (mem_of_getElem? hmem))
    have hsuffix : front ++ [z] <:+ window needles (before ++ front) ++ [z] := by
      rw [hwindow]
      exact ⟨window needles before, by simp⟩
    obtain ⟨i, hends⟩ := endingAt_of_suffix hneedle hsuffix hlongest
    exact ⟨i, mem_findIter_iff.2 ⟨before ++ front, z, after, by simp, hends⟩⟩

/-- What comes directly before is in the window, if no needle can end in it. -/
theorem suffix_window_iff_of_clear {part : List α}
    (hclear : ∀ k ≤ part.length, 0 < k → Clear needles (part.take k)) (text : List α) :
    part <:+ window needles text ↔ part <:+ text := by
  refine ⟨fun h => h.trans (window_suffix _ text), ?_⟩
  rintro ⟨before, rfl⟩
  have hread := window_append_of_clear before [] part hclear
  rw [append_nil] at hread
  rw [hread]
  exact suffix_append _ _

/-- Where a needle ends behind the last item of a part: the needles that can are the part with a
stem in front, and no needle can end in a stem. -/
theorem ends_iff_stem {front : List α} {a : α} {stems : List (List α)}
    (hstems : ∀ stem ∈ stems, stem ++ (front ++ [a]) ∈ needles)
    (honly : ∀ other ∈ needles, other <:+ front ++ [a] ∨ front ++ [a] <:+ other →
      ∃ stem ∈ stems, stem ++ (front ++ [a]) = other)
    (hclear : ∀ stem ∈ stems, ∀ k ≤ (stem ++ front).length, 0 < k →
      Clear needles ((stem ++ front).take k)) (before : List α) :
    (∃ other ∈ needles, other <:+ window needles (before ++ front) ++ [a]) ↔
      ∃ stem ∈ stems, stem <:+ before := by
  constructor
  · rintro ⟨other, hother, hends⟩
    have hseen : other <:+ before ++ (front ++ [a]) := by
      rw [← append_assoc]
      exact hends.trans (window_concat_suffix _ _ a)
    obtain ⟨stem, hstem, rfl⟩ := honly other hother
      (suffix_or_suffix_of_suffix hseen (suffix_append _ _))
    obtain ⟨t, ht⟩ := hseen
    rw [← append_assoc] at ht
    exact ⟨stem, hstem, t, (append_inj' ht rfl).1⟩
  · rintro ⟨stem, hstem, t, rfl⟩
    refine ⟨_, hstems stem hstem, ?_⟩
    have hwindow := suffix_window_iff_of_clear (hclear stem hstem) (t ++ stem ++ front)
    obtain ⟨u, hu⟩ := hwindow.2 ⟨t, by simp⟩
    exact ⟨u, by rw [← hu]; simp⟩

/-- If other needles can end in a needle only behind its first item, it is reported exactly where
no needle ends behind its first item. -/
theorem reported_iff_of_clear {a z : α} {mid : List α} (hneedle : a :: mid ++ [z] ∈ needles)
    (hclear : ∀ k ≤ mid.length, 0 < k → Clear needles ([a] ++ mid.take k))
    (hlongest : ∀ other ∈ needles, a :: mid ++ [z] <:+ other → other = a :: mid ++ [z])
    (text : List α) :
    (∃ i, (a :: mid ++ [z], i) ∈ findIter needles text) ↔
      ∃ before after, text = before ++ (a :: mid ++ [z]) ++ after ∧
        ∀ other ∈ needles, ¬ other <:+ window needles before ++ [a] := by
  rw [reported_iff hneedle hlongest]
  refine exists_congr fun before => exists_congr fun after => and_congr_right fun _ => ?_
  constructor
  · intro hquiet
    have hfirst := hquiet [] a mid rfl
    rwa [append_nil] at hfirst
  · intro hfirst read b rest hsplit other hother hends
    cases read with
    | nil =>
      cases hsplit
      rw [append_nil] at hends
      exact hfirst _ hother hends
    | cons _ read =>
      obtain ⟨rfl, rfl⟩ := List.cons.inj hsplit
      exact not_suffix_window_of_clear hclear _ hother (by simpa using hends)

end Axinite.Foundation.Needles
