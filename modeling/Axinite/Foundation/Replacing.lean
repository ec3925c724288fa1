import Mathlib.Data.List.Infix
import Mathlib.Tactic.Common

/-!
# Replacing and marking parts of a text

Replacing every occurrence of a pattern, from left to right and without overlaps.  A
replacement that only adds an escape character in front of some items is a marking: whether an
item is marked depends on the item before and on the text from there on.

Dropping items from a marked text afterwards may bring tokens together that the marking has not
seen.  The last section says exactly which.

Main results:

- Theorems `replace_front` and `replace_second`: adding the escape character in front of a
  pattern, or in front of its second item, is a marking.
- Theorems `replace_front_mark` and `replace_second_mark`: the same in a marked text.
- Theorem `mark_mark`: two markings that do not disturb each other are one.
- Theorems `exposed_iff` and `pair_exposed_iff`: where a token stands without its mark once
  items have been dropped.
- Theorem `infix_filter_mark_iff`: tokens that the marking leaves together.
-/

namespace Axinite.Foundation.Replacing

open List

variable {α : Type}

/-! ## Marking -/

variable {previous : Option α} {a : α}

section Marking

variable (esc : α) (marked : Option α → List α → Bool)

/-- The escape character, if the item at the beginning of the text is marked. -/
def escapes (previous : Option α) (text : List α) : List α :=
  if marked previous text = true then [esc] else []

/-- Put `esc` in front of the marked items; `previous` is the item before the text. -/
def mark : Option α → List α → List α
  | _, [] => []
  | previous, a :: text =>
    escapes esc marked previous (a :: text) ++ a :: mark (some a) text

/-- What the marking makes of `front` if `back` follows. -/
def markFront : Option α → List α → List α → List α
  | _, [], _ => []
  | previous, a :: front, back =>
    escapes esc marked previous (a :: (front ++ back)) ++ a :: markFront (some a) front back

theorem getLast?_cons_or (a : α) (front : List α) (previous : Option α) :
    (a :: front).getLast?.or previous = front.getLast?.or (some a) := by
  rw [getLast?_cons, Option.or_some, Option.some_or]

theorem mark_append (previous : Option α) (front back : List α) :
    mark esc marked previous (front ++ back) = markFront esc marked previous front back ++
        mark esc marked (front.getLast?.or previous) back := by
  induction front generalizing previous with
  | nil => simp [markFront]
  | cons a front ih =>
    rw [cons_append, mark, markFront, ih, getLast?_cons_or, append_assoc, cons_append]

variable {esc marked}

theorem eq_esc_of_mem_escapes {text : List α}
    (h : a ∈ escapes esc marked previous text) : a = esc := by
  unfold escapes at h
  split at h
  · exact mem_singleton.1 h
  · exact absurd h not_mem_nil

/-- An item of a marked text that is not the escape character stands in the text. -/
theorem mark_eq_append_cons {text before after : List α}
    (ha : a ≠ esc) (h : mark esc marked previous text = before ++ a :: after) :
    ∃ front back, text = front ++ a :: back ∧ after = mark esc marked (some a) back ∧
      before = markFront esc marked previous front (a :: back) ++
        escapes esc marked (front.getLast?.or previous) (a :: back) := by
  induction text generalizing previous before with
  | nil => simp [mark] at h
  | cons c text ih =>
    rcases append_eq_append_iff.1 h with ⟨part, hbefore, hpart⟩ | ⟨part, hescapes, hpart⟩
    · cases part with
      | nil =>
        obtain ⟨rfl, hafter⟩ := List.cons.inj hpart
        exact ⟨[], text, rfl, hafter.symm, by simpa [markFront] using hbefore⟩
      | cons c' part =>
        obtain ⟨hc, hrest⟩ := List.cons.inj hpart
        subst hc
        obtain ⟨front, back, rfl, hafter, rfl⟩ := ih hrest
        refine ⟨c :: front, back, rfl, hafter, ?_⟩
        rw [hbefore, markFront, getLast?_cons_or, append_assoc, cons_append]
    · cases part with
      | nil =>
        obtain ⟨rfl, hafter⟩ := List.cons.inj hpart
        exact ⟨[], text, rfl, hafter, by simpa [markFront] using hescapes.symm⟩
      | cons c' part =>
        -- the item would be one that the marking has put there
        obtain ⟨rfl, _⟩ := List.cons.inj hpart
        have hmem : a ∈ escapes esc marked previous (c :: text) := by simp [hescapes]
        exact absurd (eq_esc_of_mem_escapes hmem) ha

/-- Two markings that do not disturb each other are one: the second one marks no escape
character, no item of the first one, and the same items as before. -/
theorem mark_mark {marked' : Option α → List α → Bool}
    (hesc : ∀ previous text, marked' previous (esc :: text) = false)
    (hdisjoint : ∀ previous text, marked previous text = true → marked' previous text = false)
    (hlocal : ∀ previous a text,
      marked' (if marked previous (a :: text) = true then some esc else previous)
        (a :: mark esc marked (some a) text) = marked' previous (a :: text))
    (previous : Option α) (text : List α) :
    mark esc marked' previous (mark esc marked previous text) =
      mark esc (fun previous text => marked previous text || marked' previous text) previous
        text := by
  induction text generalizing previous with
  | nil => rfl
  | cons a text ih =>
    have hsecond := hlocal previous a text
    by_cases hmarked : marked previous (a :: text) = true
    · rw [if_pos hmarked, hdisjoint _ _ hmarked] at hsecond
      simp [mark, escapes, hmarked, hesc, hsecond, ih]
    · rw [if_neg hmarked] at hsecond
      simp [mark, escapes, hmarked, hsecond, ih]

end Marking

/-! ## Replacing -/

section Replacing

variable [DecidableEq α]

/-- Replace the occurrences of a pattern; `skip` items belong to the last one. -/
def replaceFrom (pattern replacement : List α) : Nat → List α → List α
  | _, [] => []
  | skip + 1, _ :: text => replaceFrom pattern replacement skip text
  | 0, c :: text =>
    if pattern <+: c :: text then
      replacement ++ replaceFrom pattern replacement (pattern.length - 1) text
    else c :: replaceFrom pattern replacement 0 text

/-- Replace all occurrences of a pattern that is not empty. -/
def replace (pattern replacement text : List α) : List α :=
  replaceFrom pattern replacement 0 text

/-- Adding the escape character in front of a pattern marks its first item, if that occurs in
the pattern only once. -/
theorem replace_front {esc a : α} {rest : List α} (ha : a ∉ rest) (text : List α) :
    replace (a :: rest) (esc :: a :: rest) text =
      mark esc (fun _ text => (a :: rest).isPrefixOf text) none text := by
  -- `part` is what is left of the last occurrence
  have hfrom : ∀ text part previous, part <+: text → a ∉ part →
      part ++ replaceFrom (a :: rest) (esc :: a :: rest) part.length text =
        mark esc (fun _ text => (a :: rest).isPrefixOf text) previous text := by
    intro text
    induction text with
    | nil =>
      intro part previous hpart _
      rw [prefix_nil.1 hpart]
      rfl
    | cons c text ih =>
      intro part previous hpart hfirst
      cases part with
      | nil =>
        rw [length_nil, replaceFrom, mark, escapes]
        by_cases hstart : a :: rest <+: c :: text
        · obtain ⟨rfl, hrest⟩ := cons_prefix_cons.1 hstart
          rw [if_pos hstart, if_pos ( isPrefixOf_iff_prefix.2 hstart)]
          exact congrArg (fun text => esc :: a :: text) (ih rest _ hrest ha)
        · rw [if_neg hstart, if_neg (mt isPrefixOf_iff_prefix.1 hstart)]
          exact congrArg (c :: ·) (ih [] _ nil_prefix not_mem_nil)
      | cons c' part =>
        obtain ⟨hc, hrest⟩ := cons_prefix_cons.1 hpart
        subst hc
        have hnot : ¬ a :: rest <+: c' :: text := by
          intro hstart
          obtain ⟨rfl, _⟩ := cons_prefix_cons.1 hstart
          exact hfirst mem_cons_self
        rw [mark, escapes,
          if_neg (mt isPrefixOf_iff_prefix.1 hnot)]
        exact congrArg _ (ih part _ hrest fun h => hfirst (mem_cons_of_mem _ h))
  exact hfrom text [] none nil_prefix not_mem_nil

/-- Adding the escape character in front of the second item of a pair marks that item. -/
theorem replace_second {esc p q : α} (hne : p ≠ q) (text : List α) :
    replace [p, q] [p, esc, q] text =
      mark esc (fun previous text => previous == some p && text.head? == some q) none text := by
  -- behind the first item of a pair, its second item has been read already
  have hfrom : ∀ text : List α, (∀ previous, ¬ (previous = some p ∧ text.head? = some q) →
        replaceFrom [p, q] [p, esc, q] 0 text =
          mark esc (fun previous text => previous == some p && text.head? == some q) previous
            text) ∧
      ∀ rest, text = q :: rest → esc :: q :: replaceFrom [p, q] [p, esc, q] 1 text =
        mark esc (fun previous text => previous == some p && text.head? == some q) (some p)
          text := by
    intro text
    induction text with
    | nil => exact ⟨fun _ _ => rfl, fun _ h => (nomatch h)⟩
    | cons c text ih =>
      refine ⟨fun previous hfree => ?_, ?_⟩
      · have hunmarked : ¬ (previous == some p && (c :: text).head? == some q) = true := by
          simpa using hfree
        rw [replaceFrom, mark, escapes, if_neg hunmarked]
        by_cases hpair : [p, q] <+: c :: text
        · obtain ⟨rfl, hq⟩ := cons_prefix_cons.1 hpair
          obtain ⟨rest, hrest⟩ := hq
          rw [if_pos hpair]
          exact congrArg _ (ih.2 rest hrest.symm)
        · rw [if_neg hpair]
          refine congrArg _ (ih.1 _ ?_)
          rintro ⟨hc, hq⟩
          obtain ⟨rest, rfl⟩ := List.head?_eq_some_iff.1 hq
          exact hpair ⟨rest, by rw [Option.some.inj hc]; rfl⟩
      · rintro rest h
        obtain ⟨rfl, rfl⟩ := List.cons.inj h
        rw [mark, escapes, if_pos (by simp)]
        refine congrArg (fun text => esc :: c :: text) (ih.1 _ ?_)
        rintro ⟨hc, _⟩
        exact hne (Option.some.inj hc).symm
  exact (hfrom text).1 none (by simp)

end Replacing

/-! ## Dropping items of a marked text -/

/-- The token stands in the text, and the item before it satisfies `ok`. -/
def Occurs (ok : Option α → Prop) (token text : List α) : Prop :=
  ∃ before after, text = before ++ after ∧ token <+: after ∧ ok before.getLast?

theorem occurs_true_iff {token text : List α} :
    Occurs (fun _ => True) token text ↔ token <:+: text := by
  constructor
  · rintro ⟨before, after, rfl, ⟨rest, rfl⟩, _⟩
    exact ⟨before, rest, append_assoc _ _ _⟩
  · rintro ⟨before, rest, rfl⟩
    exact ⟨before, token ++ rest, append_assoc _ _ _, prefix_append _ _, trivial⟩

theorem prefix_of_prefix_append_cons {token part back : List α} {c : α} (hc : c ∉ token)
    (h : token <+: part ++ c :: back) : token <+: part := by
  rcases prefix_or_prefix_of_prefix h (prefix_append _ _) with hpart | ⟨rest, rfl⟩
  · exact hpart
  · cases rest with
    | nil => rw [append_nil]
    | cons b rest =>
      obtain ⟨rfl, _⟩ := cons_prefix_cons.1 ((prefix_append_right_inj part).1 h)
      exact absurd (by simp) hc

variable {ok : Option α → Prop} {token : List α}

/-- A token without the separator stands before it or behind it. -/
theorem occurs_append_cons_iff {c : α} (hne : token ≠ []) (hc : c ∉ token) (hnone : ok none)
    (hok : ok (some c)) {front back : List α} :
    Occurs ok token (front ++ c :: back) ↔ Occurs ok token front ∨ Occurs ok token back := by
  have hends : ∀ part : List α, (front ++ c :: part).getLast? = part.getLast?.or (some c) := by
    intro part
    rw [getLast?_append, getLast?_cons_or]
  constructor
  · rintro ⟨before, after, htext, hafter, hlast⟩
    rcases append_eq_append_iff.1 htext with ⟨part, rfl, hpart⟩ | ⟨part, rfl, rfl⟩
    · cases part with
      | nil =>
        -- the token would start with the separator
        rw [nil_append] at hpart
        obtain ⟨b, token, rfl⟩ := exists_cons_of_ne_nil hne
        rw [← hpart, cons_prefix_cons] at hafter
        exact absurd (hafter.1 ▸ mem_cons_self) hc
      | cons b part =>
        obtain ⟨rfl, rfl⟩ := List.cons.inj hpart
        refine .inr ⟨part, after, rfl, hafter, ?_⟩
        rw [hends] at hlast
        cases hpart : part.getLast? with
        | none => exact hnone
        | some a => rwa [hpart] at hlast
    · exact .inl ⟨before, part, rfl, prefix_of_prefix_append_cons hc hafter, hlast⟩
  · rintro (⟨before, after, rfl, hafter, hlast⟩ | ⟨before, after, rfl, hafter, hlast⟩)
    · exact ⟨before, after ++ c :: back, by simp, hafter.trans (prefix_append _ _), hlast⟩
    · refine ⟨front ++ c :: before, after, by simp, hafter, ?_⟩
      rw [hends]
      cases hbefore : before.getLast? with
      | none => exact hok
      | some a => rwa [hbefore] at hlast

theorem not_occurs_nil (hne : token ≠ []) : ¬ Occurs ok token [] := by
  rintro ⟨before, after, htext, hafter, _⟩
  obtain ⟨rfl, rfl⟩ := nil_eq_append_iff.1 htext
  exact hne (prefix_nil.1 hafter)

/-- A token that shares nothing with the separator stands before it or behind it. -/
theorem occurs_separated_iff {token separator : List α} (hne : token ≠ [])
    (hseparator : separator ≠ []) (hc : ∀ c ∈ separator, c ∉ token) (hnone : ok none)
    (hok : ∀ c ∈ separator, ok (some c)) {front back : List α} :
    Occurs ok token (front ++ (separator ++ back)) ↔
      Occurs ok token front ∨ Occurs ok token back := by
  induction separator generalizing front with
  | nil => exact absurd rfl hseparator
  | cons c separator ih =>
    rw [cons_append, occurs_append_cons_iff hne (hc c mem_cons_self) hnone (hok c mem_cons_self)]
    refine or_congr_right ?_
    by_cases hrest : separator = []
    · rw [hrest, nil_append]
    · have hbehind : Occurs ok token ([] ++ (separator ++ back)) ↔
          Occurs ok token [] ∨ Occurs ok token back :=
        ih hrest (fun c h => hc c (mem_cons_of_mem _ h)) (fun c h => hok c (mem_cons_of_mem _ h))
      rwa [or_iff_right (not_occurs_nil hne)] at hbehind

/-- A token that shares nothing with the separator stands in one of the joined parts. -/
theorem occurs_intercalate_iff {token separator : List α} (hne : token ≠ [])
    (hseparator : separator ≠ []) (hc : ∀ c ∈ separator, c ∉ token) (hnone : ok none)
    (hok : ∀ c ∈ separator, ok (some c)) (parts : List (List α)) :
    Occurs ok token (separator.intercalate parts) ↔ ∃ part ∈ parts, Occurs ok token part := by
  induction parts with
  | nil => simpa using not_occurs_nil hne
  | cons part parts ih =>
    by_cases hparts : parts = []
    · simp [hparts]
    · rw [intercalate_cons_of_ne_nil hparts, append_assoc,
        occurs_separated_iff hne hseparator hc hnone hok, ih, exists_mem_cons_iff]

/-- Behind a text that shares no end with the beginning of the token, the token stands where it
stood before. -/
theorem occurs_append_iff {token front : List α}
    (hfront : ∀ part ∈ front.tails, part ≠ [] → ¬ part <+: token ∧ ¬ token <+: part)
    (hok : ok front.getLast? ↔ ok none) {text : List α} :
    Occurs ok token (front ++ text) ↔ Occurs ok token text := by
  have hends : ∀ before : List α, ok (front ++ before).getLast? ↔ ok before.getLast? := by
    intro before
    rw [getLast?_append]
    cases before.getLast? with
    | none => exact hok
    | some a => rfl
  constructor
  · rintro ⟨before, after, htext, hafter, hlast⟩
    rcases append_eq_append_iff.1 htext with ⟨part, rfl, rfl⟩ | ⟨part, rfl, rfl⟩
    · exact ⟨part, after, rfl, hafter, (hends part).1 hlast⟩
    · cases part with
      | nil =>
        refine ⟨[], text, rfl, hafter, ?_⟩
        rw [append_nil] at hok
        exact hok.1 hlast
      | cons b part =>
        obtain ⟨hpart, htoken⟩ := hfront (b :: part)
          ((mem_tails _ _).2 (suffix_append _ _)) (cons_ne_nil _ _)
        rcases prefix_or_prefix_of_prefix hafter (prefix_append _ _) with h | h
        · exact absurd h htoken
        · exact absurd h hpart
  · rintro ⟨before, after, rfl, hafter, hlast⟩
    exact ⟨front ++ before, after, by simp, hafter, (hends _).2 hlast⟩

/-- The token stands in the text with items in between that are not kept, and the kept item
before it satisfies `ok`. -/
def Interrupted (keep : α → Bool) (ok : Option α → Prop) (token text : List α) : Prop :=
  ∃ before after, text = before ++ after ∧ after.head? = token.head? ∧
    token <+: after.filter keep ∧ ¬ token <+: after ∧ ok (before.filter keep).getLast?

section Dropping

variable {esc : α} {marked : Option α → List α → Bool} {keep : α → Bool}
  (hesc : keep esc = true)
  (hdropped : ∀ previous a text, keep a = false → marked previous (a :: text) = false)

theorem filter_escapes (hesc : keep esc = true) (previous : Option α) (text : List α) :
    (escapes esc marked previous text).filter keep = escapes esc marked previous text := by
  unfold escapes
  split <;> simp [hesc]

include hesc hdropped

theorem getLast?_filter_markFront (previous : Option α) (front back : List α) :
    ((markFront esc marked previous front back).filter keep).getLast? =
      (front.filter keep).getLast? := by
  induction front generalizing previous with
  | nil => rfl
  | cons a front ih =>
    rw [markFront, filter_append, filter_escapes hesc]
    by_cases hkeep : keep a = true
    · rw [filter_cons_of_pos hkeep, filter_cons_of_pos hkeep, getLast?_append,
        getLast?_cons, getLast?_cons, ih, Option.some_or]
    · have hunmarked := hdropped previous a (front ++ back) (Bool.eq_false_iff.2 hkeep)
      rw [filter_cons_of_neg hkeep, filter_cons_of_neg hkeep, escapes, hunmarked,
        if_neg Bool.false_ne_true, nil_append, ih]

/-- Tokens whose items are not marked behind each other start a marked text where they start the
text. -/
theorem prefix_filter_mark_iff_of_ok (htoken : esc ∉ token)
    (hnever : ∀ a ∈ token, ∀ previous text, ok previous → marked previous (a :: text) = false)
    (hok : ∀ a ∈ token, ok (some a)) (hgap : ∀ a, keep a = false → ok (some a))
    (hprevious : ok previous) (text : List α) :
    token <+: (mark esc marked previous text).filter keep ↔ token <+: text.filter keep := by
  induction text generalizing token previous with
  | nil => rfl
  | cons a text ih =>
    rw [mark, filter_append, filter_escapes hesc]
    by_cases hkeep : keep a = true
    · rw [filter_cons_of_pos hkeep, filter_cons_of_pos hkeep]
      cases token with
      | nil => simp
      | cons b token =>
        have hb : b ≠ esc := fun h => htoken (h ▸ mem_cons_self)
        by_cases hba : b = a
        · subst hba
          have hunmarked := hnever b mem_cons_self _ text hprevious
          have hrest := ih (fun h => htoken (mem_cons_of_mem _ h))
            (fun c hc => hnever c (mem_cons_of_mem _ hc))
            (fun c hc => hok c (mem_cons_of_mem _ hc)) (hok b mem_cons_self)
          simp [escapes, hunmarked, hrest]
        · -- the text starts with another item or with the escape character
          unfold escapes
          split <;> simp [hb, hba]
    · have hkeep' := Bool.eq_false_iff.2 hkeep
      rw [filter_cons_of_neg hkeep, filter_cons_of_neg hkeep, escapes,
        hdropped _ a text hkeep', if_neg Bool.false_ne_true, nil_append,
        ih htoken hnever hok (hgap a hkeep')]

/-- Tokens whose items are never marked start a marked text where they start the text. -/
theorem prefix_filter_mark_iff (htoken : esc ∉ token)
    (hnever : ∀ a ∈ token, ∀ previous text, marked previous (a :: text) = false)
    (previous : Option α) (text : List α) :
    token <+: (mark esc marked previous text).filter keep ↔ token <+: text.filter keep :=
  prefix_filter_mark_iff_of_ok hesc hdropped htoken
    (fun a ha previous text (_ : True) => hnever a ha previous text) (fun _ _ => trivial)
    (fun _ _ => trivial) trivial text

omit hesc hdropped in
theorem prefix_mark_iff (htoken : esc ∉ token)
    (hnever : ∀ a ∈ token, ∀ previous text, marked previous (a :: text) = false)
    (previous : Option α) (text : List α) :
    token <+: mark esc marked previous text ↔ token <+: text := by
  have hall : ∀ text : List α, text.filter (fun _ => true) = text := fun text =>
    filter_eq_self.2 fun _ _ => rfl
  have hkept : ∀ previous a text, (fun _ : α => true) a = false →
      marked previous (a :: text) = false := fun _ _ _ h => nomatch h
  have hiff := prefix_filter_mark_iff rfl hkept htoken hnever previous text
  rwa [hall, hall] at hiff

omit hdropped in
/-- Where an item of the text without the dropped items comes from. -/
theorem filter_mark_eq_append_cons {text before after : List α} (ha : a ≠ esc)
    (h : (mark esc marked none text).filter keep = before ++ a :: after) :
    ∃ front back, text = front ++ a :: back ∧ keep a = true ∧
      after = (mark esc marked (some a) back).filter keep ∧
      before = (markFront esc marked none front (a :: back)).filter keep ++
        escapes esc marked front.getLast? (a :: back) := by
  obtain ⟨start, rest, hmark, hstart, hrest⟩ := filter_eq_append_iff.1 h
  obtain ⟨gap, more, rfl, hgap, hkeep, hmore⟩ := filter_eq_cons_iff.1 hrest
  rw [← append_assoc] at hmark
  obtain ⟨front, back, rfl, rfl, hfront⟩ := mark_eq_append_cons ha hmark
  refine ⟨front, back, rfl, hkeep, hmore.symm, ?_⟩
  have hdrop : gap.filter keep = [] := filter_eq_nil_iff.2 hgap
  have hwhole : (start ++ gap).filter keep = before := by
    rw [filter_append, hdrop, append_nil, hstart]
  rw [← hwhole, hfront, filter_append, filter_escapes hesc, Option.or_none]

omit hdropped in
/-- Where a token stands in a marked text without the dropped items. -/
theorem occurs_filter_mark_iff {d : α} {tail text : List α} (hd : d ≠ esc) (hkeep : keep d = true) :
    Occurs ok (d :: tail) ((mark esc marked none text).filter keep) ↔ ∃ front back,
      text = front ++ d :: back ∧ tail <+: (mark esc marked (some d) back).filter keep ∧
        ok ((markFront esc marked none front (d :: back)).filter keep ++
          escapes esc marked front.getLast? (d :: back)).getLast? := by
  constructor
  · rintro ⟨before, after, htext, ⟨more, rfl⟩, hlast⟩
    obtain ⟨front, back, rfl, _, hrest, rfl⟩ := filter_mark_eq_append_cons hesc hd htext
    exact ⟨front, back, rfl, hrest ▸ prefix_append _ _, hlast⟩
  · rintro ⟨front, back, rfl, htail, hlast⟩
    refine ⟨_, d :: (mark esc marked (some d) back).filter keep, ?_,
      cons_prefix_cons.2 ⟨rfl, htail⟩, hlast⟩
    rw [mark_append, filter_append, mark, filter_append, filter_escapes hesc,
      filter_cons_of_pos hkeep, append_assoc, Option.or_none]

/-- Marking the first item of a token does not separate it, so a token without other marks stands
in a marked text exactly if it stands in the text. -/
theorem infix_filter_mark_iff {d : α} {tail : List α} (htoken : esc ∉ d :: tail)
    (hkeep : keep d = true)
    (hnever : ∀ a ∈ tail, ∀ previous text, ok previous → marked previous (a :: text) = false)
    (hok : ∀ a ∈ d :: tail, ok (some a)) (hgap : ∀ a, keep a = false → ok (some a)) (text : List α)
    :
    d :: tail <:+: (mark esc marked none text).filter keep ↔ d :: tail <:+: text.filter keep := by
  have hd : d ≠ esc := fun h => htoken (h ▸ mem_cons_self)
  have htail : ∀ back, tail <+: (mark esc marked (some d) back).filter keep ↔
      tail <+: back.filter keep :=
    prefix_filter_mark_iff_of_ok hesc hdropped (fun h => htoken (mem_cons_of_mem _ h)) hnever
      (fun a ha => hok a (mem_cons_of_mem _ ha)) hgap (hok d mem_cons_self)
  rw [← occurs_true_iff, occurs_filter_mark_iff hesc hd hkeep]
  simp only [htail]
  constructor
  · rintro ⟨front, back, rfl, ⟨more, hmore⟩, _⟩
    refine ⟨front.filter keep, more, ?_⟩
    rw [filter_append, filter_cons_of_pos hkeep, ← hmore, append_assoc, cons_append]
  · rintro ⟨before, rest, hfilter⟩
    rw [append_assoc] at hfilter
    obtain ⟨start, stop, rfl, _, hstop⟩ := filter_eq_append_iff.1 hfilter.symm
    obtain ⟨gap, back, rfl, _, _, hback⟩ := filter_eq_cons_iff.1 hstop
    exact ⟨start ++ gap, back, by rw [append_assoc], hback ▸ prefix_append _ _, trivial⟩

/-- A token whose first item is marked stands without its mark exactly where it was
interrupted. -/
theorem exposed_iff {d : α} {tail : List α} (htoken : esc ∉ d :: tail) (hkeep : keep d = true)
    (hnever : ∀ a ∈ tail, ∀ previous text, marked previous (a :: text) = false)
    (hmarked : ∀ previous text, d :: tail <+: (d :: text).filter keep →
      (marked previous (d :: text) = true ↔ d :: tail <+: d :: text)) (text : List α) :
    Occurs (· ≠ some esc) (d :: tail) ((mark esc marked none text).filter keep) ↔
      Interrupted keep (· ≠ some esc) (d :: tail) text := by
  have hd : d ≠ esc := fun h => htoken (h ▸ mem_cons_self)
  have htail : esc ∉ tail := fun h => htoken (mem_cons_of_mem _ h)
  have hstarts : ∀ back, tail <+: (mark esc marked (some d) back).filter keep ↔
      d :: tail <+: (d :: back).filter keep := by
    intro back
    rw [filter_cons_of_pos hkeep, cons_prefix_cons, and_iff_right rfl,
      prefix_filter_mark_iff hesc hdropped htail hnever]
  rw [occurs_filter_mark_iff hesc hd hkeep]
  constructor
  · rintro ⟨front, back, rfl, hafter, hlast⟩
    have hwhole := (hstarts back).1 hafter
    by_cases hmark : marked front.getLast? (d :: back) = true
    · rw [escapes, if_pos hmark, getLast?_append] at hlast
      exact absurd rfl hlast
    · rw [escapes, if_neg hmark, append_nil, getLast?_filter_markFront hesc hdropped] at hlast
      exact ⟨front, d :: back, rfl, rfl, hwhole, mt (hmarked _ _ hwhole).2 hmark, hlast⟩
  · rintro ⟨front, after, rfl, hhead, hwhole, hnot, hlast⟩
    obtain ⟨back, rfl⟩ := List.head?_eq_some_iff.1 hhead
    refine ⟨front, back, rfl, (hstarts back).2 hwhole, ?_⟩
    rw [escapes, if_neg (mt (hmarked _ _ hwhole).1 hnot), append_nil,
      getLast?_filter_markFront hesc hdropped]
    exact hlast

/-- Where the item that is marked behind `p` comes first: not behind `p` itself, but behind
dropped items. -/
theorem head_filter_mark_iff {p q : α} (hp : keep p = true) (hq : keep q = true) (hne : q ≠ esc)
    (hmarked : ∀ previous text, marked previous (q :: text) = true ↔ previous = some p)
    (previous : Option α) (text : List α) :
    [q] <+: (mark esc marked previous text).filter keep ↔
      [q] <+: text.filter keep ∧ ¬ (previous = some p ∧ [q] <+: text) := by
  induction text generalizing previous with
  | nil => simp [mark]
  | cons a text ih =>
    rw [mark, filter_append, filter_escapes hesc]
    by_cases hkeep : keep a = true
    · rw [filter_cons_of_pos hkeep, filter_cons_of_pos hkeep]
      by_cases haq : q = a
      · subst haq
        by_cases hprevious : previous = some p
        · subst hprevious
          simp [escapes, hmarked, hne]
        · simp [escapes, hmarked, hprevious]
      · unfold escapes
        split <;> simp [haq, hne]
    · have hunmarked := hdropped previous a text (Bool.eq_false_iff.2 hkeep)
      have hap : a ≠ p := fun h => hkeep (h ▸ hp)
      have haq : q ≠ a := fun h => hkeep (h ▸ hq)
      rw [filter_cons_of_neg hkeep, filter_cons_of_neg hkeep, escapes, hunmarked,
        if_neg Bool.false_ne_true, nil_append, ih]
      simp [hap, haq]

/-- A pair whose second item is marked behind the first one stands together exactly where it
was interrupted. -/
theorem pair_exposed_iff {p q : α} (hp : keep p = true) (hq : keep q = true) (hpe : p ≠ esc)
    (hqe : q ≠ esc)
    (hmarked : ∀ previous text, marked previous (q :: text) = true ↔ previous = some p)
    (text : List α) :
    Occurs (fun _ => True) [p, q] ((mark esc marked none text).filter keep) ↔
      Interrupted keep (fun _ => True) [p, q] text := by
  have hstarts : ∀ back, [q] <+: (mark esc marked (some p) back).filter keep ↔
      [p, q] <+: (p :: back).filter keep ∧ ¬ [p, q] <+: p :: back := by
    intro back
    rw [filter_cons_of_pos hp]
    simp [head_filter_mark_iff hesc hdropped hp hq hqe hmarked]
  rw [occurs_filter_mark_iff hesc hpe hp]
  constructor
  · rintro ⟨front, back, rfl, hafter, _⟩
    obtain ⟨hwhole, hnot⟩ := (hstarts back).1 hafter
    exact ⟨front, p :: back, rfl, rfl, hwhole, hnot, trivial⟩
  · rintro ⟨front, after, rfl, hhead, hwhole, hnot, _⟩
    obtain ⟨back, rfl⟩ := List.head?_eq_some_iff.1 hhead
    exact ⟨front, back, rfl, (hstarts back).2 ⟨hwhole, hnot⟩, trivial⟩

end Dropping

/-! ## Replacing in a marked text -/

section Composing

variable [DecidableEq α] {esc : α} {marked : Option α → List α → Bool}

/-- A pattern is escaped in a marked text like in the text itself, if nothing is marked in it. -/
theorem replace_front_mark {rest : List α} (ha : a ∉ rest) (hesc : esc ∉ a :: rest)
    (hnever : ∀ b ∈ rest, ∀ previous text, marked previous (b :: text) = false)
    (hdisjoint : ∀ previous text, marked previous text = true → ¬ a :: rest <+: text)
    (text : List α) :
    replace (a :: rest) (esc :: a :: rest) (mark esc marked none text) =
      mark esc (fun previous text => marked previous text || (a :: rest).isPrefixOf text) none
        text := by
  have ha' : a ≠ esc := fun h => hesc (h ▸ mem_cons_self)
  have hrest : esc ∉ rest := fun h => hesc (mem_cons_of_mem _ h)
  rw [replace_front ha]
  refine mark_mark (fun _ text => ?_) (fun previous text h => ?_) (fun previous b text => ?_) none
    text
  · exact Bool.eq_false_iff.2 fun h =>
      ha' (cons_prefix_cons.1 ( isPrefixOf_iff_prefix.1 h)).1
  · exact Bool.eq_false_iff.2 fun hstart =>
      hdisjoint _ text h ( isPrefixOf_iff_prefix.1 hstart)
  · rw [Bool.eq_iff_iff, isPrefixOf_iff_prefix, isPrefixOf_iff_prefix,
      cons_prefix_cons, cons_prefix_cons, prefix_mark_iff hrest hnever]

/-- A pair is escaped in a marked text like in the text itself, if its second item is not
marked. -/
theorem replace_second_mark {p q : α} (hne : p ≠ q) (hesc : q ≠ esc)
    (hnever : ∀ previous text, marked previous (q :: text) = false) (text : List α) :
    replace [p, q] [p, esc, q] (mark esc marked none text) =
      mark esc (fun previous text => marked previous text ||
        (previous == some p && text.head? == some q)) none text := by
  have hunmarked : ∀ previous b text, marked previous (b :: text) = true → b ≠ q := by
    rintro previous b text h rfl
    rw [hnever] at h
    cases h
  rw [replace_second hne]
  refine mark_mark (fun _ text => ?_) (fun previous text h => ?_) (fun previous b text => ?_) none
    text
  · simp [hesc.symm]
  · cases text with
    | nil => simp
    | cons b text => simp [hunmarked _ b text h]
  · split
    · rename_i h
      have hb : (b == q) = false := beq_eq_false_iff_ne.2 (hunmarked _ b text h)
      simp [hb]
    · rfl

end Composing

end Axinite.Foundation.Replacing
