import Axinite.Foundation.Replacing
import Axinite.Safety.LeakDetector

/-!
# What redaction keeps

`apply_redactions` puts a marker in the place of every range and copies the parts between the
ranges (`leak_detector/redaction.rs`).  The parts need not be disjoint from earlier ranges: a
range that ends inside an earlier one moves the end back.

Main results:

- Theorem `applyRedactions_eq`: the redacted content is the kept parts, joined by the marker.
- Theorem `exists_keptPart`: a part of the content that no range touches is kept.
- Theorem `infix_scanAndClean_iff`: a text that no redacting pattern can touch is in the cleaned
  content exactly if it is in the content.
- Theorem `applyRedactions_covers_iff`: exactly the uncovered bytes are copied iff the ranges end in
  order.
-/

namespace Axinite.Safety

open Foundation List
open Foundation.Replacing

/-! ## Kept parts -/

/-- What stands in the place of a secret. -/
def redactionMarker : List Char :=
  "[REDACTED]".toList

open Utf8

/-- The parts of the content that are copied, if the last range ended at `last`. -/
def keptParts (content : List Char) : Nat → List Range → List (List Char)
  | last, [] => [sliceFrom content last]
  | last, range :: ranges =>
    (if range.start > last then slice content last range.start else []) ::
      keptParts content range.stop ranges

theorem keptParts_ne_nil (content : List Char) (last : Nat) (ranges : List Range) :
    keptParts content last ranges ≠ [] := by
  cases ranges <;> exact cons_ne_nil _ _

theorem applyRedaction_fst (content : List Char) (done : List Char × Nat) (range : Range) :
    (applyRedaction content done range).1 =
      done.1 ++ ((if range.start > done.2 then slice content done.2 range.start else []) ++
        redactionMarker) := by
  exact append_assoc _ _ _

theorem foldl_applyRedaction (content : List Char) (ranges : List Range) (done : List Char × Nat) :
    (ranges.foldl (applyRedaction content) done).1 ++
        sliceFrom content (ranges.foldl (applyRedaction content) done).2 =
      done.1 ++ redactionMarker.intercalate (keptParts content done.2 ranges) := by
  induction ranges generalizing done with
  | nil => simp [keptParts]
  | cons range ranges ih =>
    have hrest := ih (applyRedaction content done range)
    rw [foldl_cons, hrest, keptParts,
      intercalate_cons_of_ne_nil (keptParts_ne_nil _ _ _), applyRedaction_fst]
    change _ ++ redactionMarker.intercalate (keptParts content range.stop ranges) = _
    simp

/-- The redacted content is the kept parts, joined by the marker. -/
theorem applyRedactions_eq (content : List Char) (ranges : List Range) :
    applyRedactions content ranges = redactionMarker.intercalate (keptParts content 0 ranges) := by
  have hfold := foldl_applyRedaction content ranges ([], 0)
  rw [nil_append] at hfold
  unfold applyRedactions
  split
  · rename_i hempty
    rw [isEmpty_iff.1 hempty] at hfold ⊢
    rw [← hfold]
    cases content <;> rfl
  · dsimp only
    split
    · exact hfold
    · rename_i hend
      rw [sliceFrom_eq_nil (Nat.le_of_not_lt hend), append_nil] at hfold
      exact hfold

/-- Every kept part is a part of the content. -/
theorem infix_of_mem_keptParts {content part : List Char} {last : Nat} {ranges : List Range}
    (h : part ∈ keptParts content last ranges) : part <:+: content := by
  induction ranges generalizing last with
  | nil =>
    rw [keptParts, mem_singleton] at h
    exact h ▸ (sliceFrom_suffix _ _).isInfix
  | cons range ranges ih =>
    rcases mem_cons.1 h with rfl | h
    · split
      · exact ( sliceTo_prefix _ _).isInfix.trans (sliceFrom_suffix _ _).isInfix
      · exact nil_infix
    · exact ih h

/-- A slice between boundaries contains what lies between them. -/
theorem infix_slice {before token after : List Char} {start stop : Nat}
    (hstart : isCharBoundary (before ++ (token ++ after)) start = true)
    (hstop : isCharBoundary (before ++ (token ++ after)) stop = true)
    (hbefore : start ≤ byteLen before) (hafter : byteLen (before ++ token) ≤ stop) :
    token <:+: slice (before ++ (token ++ after)) start stop := by
  obtain ⟨as, rest, hsplit, rfl⟩ := isCharBoundary_iff.1 hstart
  obtain ⟨bs, more, hsplit', rfl⟩ := isCharBoundary_iff.1 hstop
  obtain ⟨front, rfl⟩ : as <+: before :=
    prefix_of_byteLen_le ⟨rest, hsplit.symm⟩ (prefix_append _ _) hbefore
  obtain ⟨back, rfl⟩ : as ++ front ++ token <+: bs :=
    prefix_of_byteLen_le ⟨after, by simp⟩ ⟨more, hsplit'.symm⟩ hafter
  have hcontent : as ++ front ++ (token ++ after) = as ++ ((front ++ token ++ back) ++ more) := by
    rw [hsplit']
    simp
  have hlength : byteLen (as ++ front ++ token ++ back) - byteLen as =
      byteLen (front ++ token ++ back) := by
    simp only [byteLen_append]
    omega
  rw [slice, hcontent, sliceFrom_append, hlength, sliceTo_append]
  exact ⟨front, back, rfl⟩

/-- A range between characters that does not touch the text between the two bytes. -/
structure Range.Beside (range : Range) (content : List Char) (start stop : Nat) : Prop where
  start_boundary : isCharBoundary content range.start = true
  stop_boundary : isCharBoundary content range.stop = true
  beside : range.stop ≤ start ∨ stop ≤ range.start

/-- A part of the content that no range touches is kept. -/
theorem exists_keptPart {before token after : List Char} (hne : token ≠ []) {ranges : List Range}
    (h : ∀ range ∈ ranges, range.Beside (before ++ (token ++ after)) (byteLen before)
      (byteLen (before ++ token)))
    {last : Nat} (hlast : isCharBoundary (before ++ (token ++ after)) last = true)
    (hle : last ≤ byteLen before) :
    ∃ part ∈ keptParts (before ++ (token ++ after)) last ranges, token <:+: part := by
  induction ranges generalizing last with
  | nil =>
    obtain ⟨as, rest, hsplit, rfl⟩ := isCharBoundary_iff.1 hlast
    obtain ⟨front, rfl⟩ : as <+: before :=
      prefix_of_byteLen_le ⟨rest, hsplit.symm⟩ (prefix_append _ _) hle
    refine ⟨_, mem_singleton_self _, front, after, ?_⟩
    rw [append_assoc as, sliceFrom_append, append_assoc]
  | cons range ranges ih =>
    obtain ⟨hstart, hstop, hbeside⟩ := h range mem_cons_self
    rcases hbeside with hbefore | hafter
    · obtain ⟨part, hpart, htoken⟩ :=
        ih (fun range hrange => h range (mem_cons_of_mem _ hrange)) hstop hbefore
      exact ⟨part, mem_cons_of_mem _ hpart, htoken⟩
    · -- the range starts behind the text, so the part before it is copied with the text in it
      have htoken : 0 < byteLen token := by
        obtain ⟨c, token, rfl⟩ := exists_cons_of_ne_nil hne
        have hc : 0 < c.utf8Size := Char.utf8Size_pos c
        rw [byteLen_cons]
        omega
      have hlt : range.start > last := by
        rw [byteLen_append] at hafter
        omega
      refine ⟨_, mem_cons_self, ?_⟩
      rw [if_pos hlt]
      exact infix_slice hlast hstart hle hafter

/-! ## Texts that no pattern touches -/

/-- A text ends before a character that it does not contain. -/
theorem prefix_of_notMem {token after gap more : List Char} {e : Char}
    (h : token ++ after = gap ++ e :: more) (he : e ∉ token) : token <+: gap := by
  rcases append_eq_append_iff.1 h with ⟨rest, rfl, _⟩ | ⟨rest, hsplit, hmore⟩
  · exact prefix_append _ _
  · cases rest with
    | nil => simp [hsplit]
    | cons c rest =>
      obtain ⟨rfl, _⟩ := List.cons.inj hmore
      exact absurd (by simp [hsplit]) he

/-- A part of the content without the first character of a text, and that does not start with one
of its characters, lies beside the text. -/
theorem beside_of_not_mem {before token after before' part after' : List Char} {d e : Char}
    {tail rest : List Char} (htoken : token = d :: tail) (hpart : part = e :: rest)
    (h : before ++ (token ++ after) = before' ++ (part ++ after')) (hd : d ∉ part)
    (he : e ∉ token) : before' ++ part <+: before ∨ before ++ token <+: before' := by
  subst htoken hpart
  rcases append_eq_append_iff.1 h with ⟨gap, rfl, hrest⟩ | ⟨gap, rfl, hrest⟩
  · -- the part starts behind the start of the text
    exact .inr ((prefix_append_right_inj _).2 (prefix_of_notMem hrest he))
  · exact .inl ((prefix_append_right_inj _).2 (prefix_of_notMem hrest hd))

/-- No match of the pattern contains the first character of the text, or starts with a character
of it. -/
structure LeakPattern.PassesBy (tables : CharTables) (pattern : LeakPattern) (d : Char)
    (tail : List Char) : Prop where
  avoids : pattern.regex.expr.avoids tables d false = true
  starts : ∀ c ∈ d :: tail, ∀ previous text,
    Regex.lengths tables false previous (c :: text) pattern.regex.expr = []

variable {tables : CharTables}

/-- A match of such a pattern lies beside the text. -/
theorem LeakPattern.PassesBy.beside {pattern : LeakPattern} {d : Char} {tail : List Char}
    (h : pattern.PassesBy tables d tail) {before after : List Char} {m : Regex.Match}
    (hm : m ∈ pattern.regex.findIter tables (before ++ (d :: tail ++ after))) :
    (pattern.leakMatch m).location.Beside (before ++ (d :: tail ++ after)) (byteLen before)
      (byteLen (before ++ d :: tail)) := by
  obtain ⟨before', after', htext, hstart, hlength⟩ := Regex.mem_findIter hm
  have hpos : 0 < m.text.length := (Regex.clear_of_mem_lengths hlength).2 pattern.regex.consumes
  obtain ⟨e, rest, he⟩ := exists_cons_of_ne_nil (ne_nil_of_length_pos hpos)
  have hd : d ∉ m.text := by
    have hnot := Regex.not_mem_take_of_avoids h.avoids hlength
    rwa [take_left] at hnot
  have hfirst : e ∉ d :: tail := by
    intro hmem
    have hnil := h.starts e hmem before'.getLast? (rest ++ after')
    rw [he, cons_append, hnil] at hlength
    exact absurd hlength not_mem_nil
  have hlocation : (pattern.leakMatch m).location =
      ⟨byteLen before', byteLen (before' ++ m.text)⟩ := by
    rw [byteLen_append, ← hstart]
    rfl
  rw [hlocation]
  refine ⟨htext ▸ isCharBoundary_append _ _, ?_, ?_⟩
  · rw [htext, ← append_assoc]
    exact isCharBoundary_append _ _
  · have hle : ∀ {as bs : List Char}, as <+: bs → byteLen as ≤ byteLen bs := by
      rintro as _ ⟨more, rfl⟩
      simp
    exact (beside_of_not_mem rfl he htext hd hfirst).imp hle hle

/-! ## The cleaned content -/

namespace LeakDetector

/-- The cleaned content is redacted at matches of redacting patterns. -/
theorem scanAndClean_eq_ok {detector : LeakDetector} {content cleaned : List Char}
    (h : detector.scanAndClean tables content = .ok cleaned) :
    ∃ ranges, cleaned = applyRedactions content ranges ∧ ∀ range ∈ ranges,
      ∃ pattern ∈ detector.patterns, pattern.action = .redact ∧
        ∃ m ∈ pattern.regex.findIter tables content, range = (pattern.leakMatch m).location := by
  refine ⟨(((detector.candidateIndices content).foldl (detector.checkPattern tables content)
    ⟨[], false, []⟩).redactRanges).insertionSort fun a b => a.start ≤ b.start, ?_, ?_⟩
  · unfold scanAndClean at h
    dsimp only at h
    split at h
    · cases h
    · rw [← Except.ok.inj h, scan]
      split
      · rename_i hempty
        rw [applyRedactions, if_pos hempty]
        rfl
      · rfl
  · intro range hrange
    rw [mem_insertionSort, foldl_checkPattern, foldl_record] at hrange
    dsimp only at hrange
    rw [nil_append, mem_map] at hrange
    obtain ⟨report, hreport, rfl⟩ := hrange
    obtain ⟨hmem, hredact⟩ := mem_filter.1 hreport
    obtain ⟨idx, _, hidx⟩ := mem_flatMap.1 hmem
    unfold indexMatches at hidx
    cases hpattern : detector.patterns[idx]? with
    | none =>
      rw [hpattern] at hidx
      exact absurd hidx not_mem_nil
    | some pattern =>
      rw [hpattern] at hidx
      obtain ⟨m, hm, rfl⟩ := mem_map.1 hidx
      exact ⟨pattern, mem_of_getElem? hpattern, of_decide_eq_true hredact, m, hm, rfl⟩

/-- A text that no redacting pattern can touch is in the cleaned content exactly if it is in the
content. -/
theorem infix_scanAndClean_iff {detector : LeakDetector} {content cleaned : List Char} {d : Char}
    {tail : List Char} (h : detector.scanAndClean tables content = .ok cleaned)
    (hmarker : ∀ c ∈ redactionMarker, c ∉ d :: tail)
    (hpatterns : ∀ pattern ∈ detector.patterns, pattern.action = .redact →
      pattern.PassesBy tables d tail) :
    d :: tail <:+: cleaned ↔ d :: tail <:+: content := by
  obtain ⟨ranges, rfl, hranges⟩ := scanAndClean_eq_ok h
  have hparts : d :: tail <:+: applyRedactions content ranges ↔
      ∃ part ∈ keptParts content 0 ranges, d :: tail <:+: part := by
    simp only [applyRedactions_eq, ← occurs_true_iff]
    exact occurs_intercalate_iff (cons_ne_nil _ _) (by decide) hmarker trivial
      (fun _ _ => trivial) _
  rw [hparts]
  constructor
  · rintro ⟨part, hpart, hinfix⟩
    exact hinfix.trans (infix_of_mem_keptParts hpart)
  · rintro ⟨before, after, rfl⟩
    rw [append_assoc] at hranges ⊢
    refine exists_keptPart (cons_ne_nil _ _) (fun range hrange => ?_)
      (isCharBoundary_zero _) (Nat.zero_le _)
    obtain ⟨pattern, hpattern, hredact, m, hm, rfl⟩ := hranges range hrange
    exact (hpatterns _ hpattern hredact).beside hm

end LeakDetector

/-! ## Overlapping ranges -/

/-- The parts that are copied, as ranges of the content. -/
def copiedRanges (content : List Char) : Nat → List Range → List Range
  | last, [] => [⟨last, byteLen content⟩]
  | last, range :: ranges => ⟨last, range.start⟩ :: copiedRanges content range.stop ranges

/-- The byte at offset `k` lies in a range. -/
def InRanges (ranges : List Range) (k : Nat) : Prop :=
  ∃ range ∈ ranges, range.start ≤ k ∧ k < range.stop

/-- Wherever a part is copied, every range before it ends before it; `reach` is where the last of
them ends. -/
def EndsInOrder (content : List Char) : (reach last : Nat) → List Range → Prop
  | reach, last, [] => last < byteLen content → reach ≤ last
  | reach, last, range :: ranges =>
    (last < range.start → reach ≤ last) ∧
      EndsInOrder content (max reach range.stop) range.stop ranges

section Overlapping

variable {content : List Char} {reach last : Nat} {range : Range} {ranges : List Range}

theorem inRanges_cons {k : Nat} :
    InRanges (range :: ranges) k ↔ (range.start ≤ k ∧ k < range.stop) ∨ InRanges ranges k :=
  exists_mem_cons_iff _ _ _

/-- What no range covers is copied. -/
theorem inRanges_copiedRanges {k : Nat} (hlast : last ≤ k) (hk : k < byteLen content)
    (h : ¬InRanges ranges k) : InRanges (copiedRanges content last ranges) k := by
  induction ranges generalizing last with
  | nil => exact ⟨_, mem_singleton_self _, hlast, hk⟩
  | cons range ranges ih =>
    simp only [copiedRanges, inRanges_cons, not_or] at h ⊢
    by_cases hstart : k < range.start
    · exact .inl ⟨hlast, hstart⟩
    · exact .inr (ih (by omega) h.2)

theorem le_start_of_mem_copiedRanges {m : Nat} (hlast : m ≤ last)
    (hranges : ∀ range ∈ ranges, m ≤ range.stop) :
    ∀ part ∈ copiedRanges content last ranges, m ≤ part.start := by
  induction ranges generalizing last with
  | nil => exact forall_mem_singleton.2 hlast
  | cons range ranges ih =>
    rw [forall_mem_cons] at hranges
    exact forall_mem_cons.2 ⟨hlast, ih hranges.1 hranges.2⟩

theorem pairwise_copiedRanges (hsorted : ranges.Pairwise (·.start ≤ ·.start))
    (hle : ∀ range ∈ ranges, range.start ≤ range.stop) :
    (copiedRanges content last ranges).Pairwise (·.stop ≤ ·.start) := by
  induction ranges generalizing last with
  | nil => exact pairwise_singleton _ _
  | cons range ranges ih =>
    rw [pairwise_cons] at hsorted
    rw [forall_mem_cons] at hle
    exact pairwise_cons.2 ⟨le_start_of_mem_copiedRanges hle.1 fun r hr =>
      (hsorted.1 r hr).trans (hle.2 r hr), ih hsorted.2 hle.2⟩

/-- The ranges end in order iff no copied byte is covered. -/
theorem endsInOrder_iff (hsorted : ranges.Pairwise (·.start ≤ ·.start))
    (hle : ∀ range ∈ ranges, range.start ≤ range.stop) :
    EndsInOrder content reach last ranges ↔
      ∀ k, InRanges (copiedRanges content last ranges) k → reach ≤ k ∧ ¬InRanges ranges k := by
  induction ranges generalizing reach last with
  | nil =>
    refine ⟨fun h k hk => ⟨?_, by rintro ⟨_, h, -⟩; cases h⟩, fun h hlast =>
      (h last ⟨_, mem_singleton_self _, le_rfl, hlast⟩).1⟩
    obtain ⟨_, hmem, hk⟩ := hk
    cases mem_singleton.1 hmem
    exact (h (by grind)).trans hk.1
  | cons range ranges ih =>
    rw [pairwise_cons] at hsorted
    rw [forall_mem_cons] at hle
    have hlater : ∀ k, InRanges ranges k → range.start ≤ k := by
      rintro k ⟨r, hr, hk⟩
      exact (hsorted.1 r hr).trans hk.1
    have hcopied : ∀ part ∈ copiedRanges content range.stop ranges, range.start ≤ part.start :=
      le_start_of_mem_copiedRanges hle.1 fun r hr => (hsorted.1 r hr).trans (hle.2 r hr)
    simp only [EndsInOrder, copiedRanges, inRanges_cons, ih hsorted.2 hle.2, not_or]
    constructor
    · rintro ⟨hgap, hrest⟩ k (hk | hk)
      · exact ⟨(hgap (hk.1.trans_lt hk.2)).trans hk.1, by omega, fun h => by grind⟩
      · have := hrest k hk
        exact ⟨by omega, by omega, this.2⟩
    · intro h
      refine ⟨fun hgap => (h last (.inl ⟨le_rfl, hgap⟩)).1, fun k hk => ?_⟩
      have huncovered := h k (.inr hk)
      obtain ⟨part, hpart, hwithin⟩ := hk
      have := hcopied part hpart
      exact ⟨by omega, huncovered.2.2⟩

/-- The copied ranges that are not empty can be sliced. -/
theorem isCharBoundary_copiedRanges (hranges : ∀ range ∈ ranges,
      isCharBoundary content range.start = true ∧ isCharBoundary content range.stop = true)
    (hlast : isCharBoundary content last = true) : ∀ part ∈ copiedRanges content last ranges,
      isCharBoundary content part.start = true ∧ isCharBoundary content part.stop = true := by
  induction ranges generalizing last with
  | nil =>
    have hend := isCharBoundary_append content []
    rw [append_nil] at hend
    exact forall_mem_singleton.2 ⟨hlast, hend⟩
  | cons range ranges ih =>
    rw [forall_mem_cons] at hranges
    exact forall_mem_cons.2 ⟨⟨hlast, hranges.1.1⟩, ih hranges.2 hranges.1.2⟩

theorem keptParts_eq_map (hranges : ∀ range ∈ ranges, isCharBoundary content range.stop = true)
    (hlast : isCharBoundary content last = true) :
    keptParts content last ranges = (copiedRanges content last ranges).map fun part =>
      if part.stop > part.start then slice content part.start part.stop else [] := by
  induction ranges generalizing last with
  | nil =>
    obtain ⟨as, rest, rfl, rfl⟩ := isCharBoundary_iff.1 hlast
    have hrest := sliceTo_append rest []
    rw [append_nil] at hrest
    rw [copiedRanges, map_singleton, keptParts]
    split
    · rw [slice, sliceFrom_append, byteLen_append, Nat.add_sub_cancel_left, hrest]
    · next h => rw [sliceFrom_eq_nil (Nat.le_of_not_lt h)]
  | cons range ranges ih =>
    rw [forall_mem_cons] at hranges
    rw [copiedRanges, map_cons, keptParts, ih hranges.2 hranges.1]

end Overlapping

/-- The redacted content is the copied ranges, one behind the other and joined by the marker. No
slice panics. Exactly the bytes that no range covers are copied iff the ranges end in order. -/
theorem applyRedactions_covers_iff {content : List Char} {ranges : List Range}
    (hranges : ∀ range ∈ ranges, range.start ≤ range.stop ∧
      isCharBoundary content range.start = true ∧ isCharBoundary content range.stop = true)
    (hsorted : ranges.Pairwise (·.start ≤ ·.start)) :
    let copied := copiedRanges content 0 ranges
    applyRedactions content ranges = redactionMarker.intercalate (copied.map fun part =>
        if part.stop > part.start then slice content part.start part.stop else []) ∧
      copied.Pairwise (·.stop ≤ ·.start) ∧
      (∀ part ∈ copied,
        isCharBoundary content part.start = true ∧ isCharBoundary content part.stop = true) ∧
      ((∀ k < byteLen content, InRanges copied k ↔ ¬InRanges ranges k) ↔
        EndsInOrder content 0 0 ranges) := by
  have hzero : isCharBoundary content 0 = true := isCharBoundary_zero _
  have hle : ∀ range ∈ ranges, range.start ≤ range.stop := fun r hr => (hranges r hr).1
  rw [applyRedactions_eq, keptParts_eq_map (fun r hr => (hranges r hr).2.2) hzero,
    endsInOrder_iff hsorted hle]
  have hparts := isCharBoundary_copiedRanges (fun r hr => (hranges r hr).2) hzero
  refine ⟨rfl, pairwise_copiedRanges hsorted hle, hparts, fun h k hk => ⟨k.zero_le, ?_⟩,
    fun h k hlt => ⟨fun hk => (h k hk).2, inRanges_copiedRanges k.zero_le hlt⟩⟩
  obtain ⟨part, hpart, hwithin⟩ := hk
  obtain ⟨as, rest, hcontent, hstop⟩ := isCharBoundary_iff.1 (hparts part hpart).2
  have hend : byteLen content = part.stop + byteLen rest := by rw [hcontent, byteLen_append, hstop]
  exact (h k (by omega)).1 ⟨part, hpart, hwithin⟩

theorem applyRedactions_covers_overlapping : EndsInOrder "abc".toList 0 0 [⟨0, 2⟩, ⟨1, 3⟩] ∧
    (InRanges (copiedRanges "abc".toList 0 [⟨0, 2⟩, ⟨1, 3⟩]) 1 ↔ ¬InRanges [⟨0, 2⟩, ⟨1, 3⟩] 1) := by
  have hends : EndsInOrder "abc".toList 0 0 [⟨0, 2⟩, ⟨1, 3⟩] := by simp [EndsInOrder]
  exact ⟨hends, (applyRedactions_covers_iff (by decide) (by decide)).2.2.2.2 hends 1 (by decide)⟩

/-- Behind a nested range the rest of the outer one is copied. -/
theorem nested_range_copied :
    applyRedactions "abcdef".toList [⟨0, 5⟩, ⟨1, 2⟩] = "[REDACTED][REDACTED]cdef".toList ∧
      InRanges [⟨0, 5⟩, ⟨1, 2⟩] 2 ∧
      InRanges (copiedRanges "abcdef".toList 0 [⟨0, 5⟩, ⟨1, 2⟩]) 2 :=
  ⟨by decide, ⟨⟨0, 5⟩, by decide⟩, ⟨⟨2, 6⟩, by decide⟩⟩

end Axinite.Safety
