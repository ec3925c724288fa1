import Axinite.Foundation.Words
import Axinite.Safety.Sanitizer
import Mathlib.Data.Bool.AllAny

/-!
# What escaping neutralises

`escape_content` of the sanitizer puts a backslash into special tokens, removes NULs and escapes
role markers at the start of lines.  The NULs are removed after the tokens have been escaped, so
a token that is interrupted by a NUL comes together behind the escaping.

Main results:

- Theorem `escapeTokens_eq_mark`: the four replacements are one marking of the content.
- Theorem `occurs_escapeContent_iff`: the lines step neither makes nor removes tokens.
- Theorem `neutralised_iff`: escaping neutralises exactly the content without interrupted
  tokens.
-/

namespace Axinite.Safety.Sanitizer

open Foundation List
open Foundation.Replacing

/-! ## Marking the tokens -/

/-- The angles of `<|` and `|>`, in front of which escaping puts a backslash. -/
def angleMarked (previous : Option Char) (text : List Char) : Bool :=
  ['<', '|'].isPrefixOf text || (previous == some '|' && text.head? == some '>')

/-- The token that opens instructions. -/
def inst : List Char :=
  ['[', 'I', 'N', 'S', 'T', ']']

/-- The token that closes instructions. -/
def endInst : List Char :=
  ['[', '/', 'I', 'N', 'S', 'T', ']']

/-- All characters in front of which escaping puts a backslash. -/
def tokenMarked (previous : Option Char) (text : List Char) : Bool :=
  (angleMarked previous text || inst.isPrefixOf text) || endInst.isPrefixOf text

/-- A text that starts with a token starts with the first character of the token. -/
theorem head_of_start {a : Char} {rest text : List Char} (h : a :: rest <+: text) :
    text.head? = some a := by
  obtain ⟨more, rfl⟩ := h
  rfl

variable (previous : Option Char) (text : List Char) (unicode : Unicode) (content : List Char)

/-- The four replacements are one marking of the content. -/
theorem escapeTokens_eq_mark : escapeTokens content = mark '\\' tokenMarked none content := by
  have hunmarked : ∀ b, b ≠ '<' → b ≠ '>' → ∀ previous text,
      angleMarked previous (b :: text) = false := by
    intro b hopen hclose previous text
    simp [angleMarked, isPrefixOf, hopen.symm, hclose]
  have hangle : ∀ previous text, angleMarked previous text = true →
      ∀ rest, ¬ '[' :: rest <+: text := by
    rintro previous _ h rest ⟨more, rfl⟩
    simp [angleMarked] at h
  have hclose : replace ['|', '>'] ['|', '\\', '>']
      (mark '\\' (fun _ text => ['<', '|'].isPrefixOf text) none content) =
      mark '\\' angleMarked none content :=
    replace_second_mark (by decide) (by decide) (fun _ _ => rfl) _
  have hinst : replace inst ('\\' :: inst) (mark '\\' angleMarked none content) =
      mark '\\' (fun previous text => angleMarked previous text || inst.isPrefixOf text) none
        content := by
    have hplain : ∀ b ∈ ['I', 'N', 'S', 'T', ']'], b ≠ '<' ∧ b ≠ '>' :=
      all_iff_forall_prop.1 (by decide)
    exact replace_front_mark (by decide) (by decide)
      (fun b hb => hunmarked b (hplain b hb).1 (hplain b hb).2)
      (fun previous text h => hangle previous text h _) _
  have hend : replace endInst ('\\' :: endInst)
      (mark '\\' (fun previous text => angleMarked previous text || inst.isPrefixOf text) none
        content) = mark '\\' tokenMarked none content := by
    have hplain : ∀ b ∈ ['/', 'I', 'N', 'S', 'T', ']'], b ≠ '<' ∧ b ≠ '>' ∧ b ≠ '[' :=
      all_iff_forall_prop.1 (by decide)
    refine replace_front_mark (by decide) (by decide) ?_ ?_ _
    · intro b hb previous text
      obtain ⟨hopen, hclose, hbracket⟩ := hplain b hb
      rw [hunmarked b hopen hclose]
      refine Bool.eq_false_iff.2 fun h => hbracket ?_
      exact Option.some.inj (head_of_start ( isPrefixOf_iff_prefix.1 h))
    · intro previous text h hstart
      rcases Bool.or_eq_true_iff.1 h with h | h
      · exact hangle _ text h _ hstart
      · -- the two tokens differ in their second characters
        rcases prefix_or_prefix_of_prefix ( isPrefixOf_iff_prefix.1 h) hstart with h | h <;>
          exact absurd h (by decide)
  have hreplace : escapeTokens content = replace endInst ('\\' :: endInst)
      (replace inst ('\\' :: inst) (replace ['|', '>'] ['|', '\\', '>']
        (replace ['<', '|'] ['\\', '<', '|'] content))) := rfl
  rw [hreplace, replace_front (by decide), hclose, hinst, hend]

/-! ## Interrupted tokens -/

/-- What is left of the content when NULs are removed. -/
def notNul (c : Char) : Bool :=
  decide (c ≠ '\x00')

theorem filter_notNul_eq_self {content : List Char} (h : '\x00' ∉ content) :
    content.filter notNul = content := by
  refine filter_eq_self.2 fun c hc => decide_eq_true ?_
  rintro rfl
  exact h hc

/-- The tokens that are escaped by a backslash in front. -/
def frontTokens : List (List Char) :=
  [['<', '|'], inst, endInst]

/-- The character before is no backslash. -/
def Bare (previous : Option Char) : Prop :=
  previous ≠ some '\\'

theorem tokenMarked_eq_false {a : Char} (hopen : a ≠ '<') (hclose : a ≠ '>') (hbracket : a ≠ '[')
    (previous : Option Char) (text : List Char) : tokenMarked previous (a :: text) = false := by
  simp [tokenMarked, angleMarked, inst, endInst, isPrefixOf, hopen.symm, hclose, hbracket.symm]

theorem tokenMarked_nul (a : Char) (text : List Char) (h : notNul a = false) :
    tokenMarked previous (a :: text) = false := by
  obtain rfl : a = '\x00' := by simpa [notNul] using h
  exact tokenMarked_eq_false (by decide) (by decide) (by decide) _ text

theorem tokenMarked_open_iff :
    tokenMarked previous ('<' :: text) = true ↔ ['<', '|'] <+: '<' :: text := by
  simp [tokenMarked, angleMarked, inst, endInst]

theorem tokenMarked_close_iff :
    tokenMarked previous ('>' :: text) = true ↔ previous = some '|' := by
  simp [tokenMarked, angleMarked, inst, endInst]

theorem tokenMarked_bracket_iff :
    tokenMarked previous ('[' :: text) = true ↔ inst <+: '[' :: text ∨ endInst <+: '[' :: text := by
  simp [tokenMarked, angleMarked]

/-- A token that stands in the content stays together when NULs are removed. -/
theorem prefix_filter_notNul {token text : List Char} (htoken : token.filter notNul = token)
    (h : token <+: text) : token <+: text.filter notNul := by
  have hfilter := h.filter notNul
  rwa [htoken] at hfilter

variable {token : List Char}

/-- Once NULs are removed, a token stands without a backslash exactly where it was
interrupted. -/
theorem occurs_filter_escapeTokens_iff (h : token ∈ frontTokens) (content : List Char) :
    Occurs Bare token ((escapeTokens content).filter notNul) ↔
      Interrupted notNul Bare token content := by
  rw [escapeTokens_eq_mark]
  have hnever : ∀ tail : List Char, tail.all (fun a => a ≠ '<' ∧ a ≠ '>' ∧ a ≠ '[') = true →
      ∀ a ∈ tail, ∀ previous text, tokenMarked previous (a :: text) = false := by
    intro tail htail a ha
    obtain ⟨hopen, hclose, hbracket⟩ := all_iff_forall_prop.1 htail a ha
    exact tokenMarked_eq_false hopen hclose hbracket
  have hdiffer : ∀ text : List Char, inst <+: text → endInst <+: text → False := by
    intro text hinst hend
    rcases prefix_or_prefix_of_prefix hinst hend with h | h
    · exact absurd h (by decide)
    · exact absurd h (by decide)
  simp only [frontTokens, mem_cons, not_mem_nil, or_false] at h
  rcases h with rfl | rfl | rfl
  · exact exposed_iff rfl tokenMarked_nul (by decide) rfl (hnever _ (by decide))
      (fun previous text _ => tokenMarked_open_iff previous text) _
  · refine exposed_iff rfl tokenMarked_nul (by decide) rfl (hnever _ (by decide)) ?_ _
    intro previous text hwhole
    rw [tokenMarked_bracket_iff]
    refine or_iff_left fun hend => ?_
    exact hdiffer _ hwhole (prefix_filter_notNul (by decide) hend)
  · refine exposed_iff rfl tokenMarked_nul (by decide) rfl (hnever _ (by decide)) ?_ _
    intro previous text hwhole
    rw [tokenMarked_bracket_iff]
    refine or_iff_right fun hinst => ?_
    exact hdiffer _ (prefix_filter_notNul (by decide) hinst) hwhole

theorem infix_filter_escapeTokens_iff : ['|', '>'] <:+: (escapeTokens content).filter notNul ↔
      Interrupted notNul (fun _ => True) ['|', '>'] content := by
  rw [escapeTokens_eq_mark, ← occurs_true_iff]
  exact pair_exposed_iff rfl tokenMarked_nul rfl rfl (by decide) (by decide) tokenMarked_close_iff
    _

/-! ## Lines -/

/-- A line without the carriage return at its end. -/
def stripReturn (line : List Char) : List Char :=
  if line.getLast? = some '\r' then line.dropLast else line

/-- The lines of a text, from its parts between newlines. -/
theorem lines_of_splitOn {text last : List Char} {parts : List (List Char)}
    (h : text.splitOn '\n' = parts ++ [last]) :
    lines text = parts.map stripReturn ++ if last = [] then [] else [last] := by
  unfold lines
  simp only [h, dropLast_concat, getLastD_concat]
  rfl

theorem exists_splitOn_eq : ∃ parts last, text.splitOn '\n' = parts ++ [last] := by
  rcases eq_nil_or_concat (text.splitOn '\n') with h | ⟨parts, last, h⟩
  · exact absurd h (splitOnP_ne_nil _ _)
  · exact ⟨parts, last, h.trans concat_eq_append⟩

/-- What makes the lines step leave a token alone: it has no line ends, and shares nothing with
the text that is put in front of a line. -/
structure LineToken (ok : Option Char → Prop) (token : List Char) : Prop where
  ne_nil : token ≠ []
  newline : '\n' ∉ token
  carriageReturn : '\r' ∉ token
  escaped : ∀ part ∈ "[ESCAPED] ".toList.tails, part ≠ [] → ¬ part <+: token ∧ ¬ token <+: part
  ok_of_bare : ∀ previous, Bare previous → ok previous

variable {ok : Option Char → Prop}

theorem LineToken.ok_none (htoken : LineToken ok token) : ok none :=
  htoken.ok_of_bare none fun h => nomatch h

theorem LineToken.ok_some (htoken : LineToken ok token) {c : Char} (hc : c ≠ '\\') : ok (some c) :=
  htoken.ok_of_bare _ fun h => hc (Option.some.inj h)

section Lines

variable {ok : Option Char → Prop} {token : List Char} (htoken : LineToken ok token)

include htoken

theorem occurs_joined_iff (parts : List (List Char)) :
    Occurs ok token (['\n'].intercalate parts) ↔ ∃ part ∈ parts, Occurs ok token part :=
  occurs_intercalate_iff htoken.ne_nil (by decide) (by simpa using htoken.newline) htoken.ok_none
    (by simpa using htoken.ok_some (by decide)) _

theorem occurs_stripReturn_iff (line : List Char) :
    Occurs ok token (stripReturn line) ↔ Occurs ok token line := by
  unfold stripReturn
  split
  · rename_i h
    obtain ⟨front, rfl⟩ := List.getLast?_eq_some_iff.1 h
    have hreturn : Occurs ok token (front ++ ['\r']) ↔ Occurs ok token front ∨ Occurs ok token [] :=
      occurs_append_cons_iff htoken.ne_nil htoken.carriageReturn htoken.ok_none
        (htoken.ok_some (by decide))
    rw [dropLast_concat, hreturn, or_iff_left (not_occurs_nil htoken.ne_nil)]
  · rfl

/-- A token stands in a line exactly if it stands in the text. -/
theorem exists_line_occurs_iff (text : List Char) :
    (∃ line ∈ lines text, Occurs ok token line) ↔ Occurs ok token text := by
  obtain ⟨parts, last, hsplit⟩ := exists_splitOn_eq text
  have htext : text = ['\n'].intercalate (parts ++ [last]) := by
    rw [← hsplit, intercalate_splitOn]
  have hlast : (∃ line ∈ if last = [] then [] else [last], Occurs ok token line) ↔
      Occurs ok token last := by
    by_cases hnil : last = []
    · rw [hnil]
      exact iff_of_false (by simp) (not_occurs_nil htoken.ne_nil)
    · simp [hnil]
  rw [lines_of_splitOn hsplit, htext, occurs_joined_iff htoken]
  simp only [mem_append, or_and_right, exists_or, mem_map, exists_exists_and_eq_and,
    occurs_stripReturn_iff htoken, hlast, mem_singleton, exists_eq_left]

theorem occurs_escapeLine_iff (unicode : Unicode) (line : List Char) :
    Occurs ok token (escapeLine unicode line) ↔ Occurs ok token line := by
  unfold escapeLine
  split
  · exact occurs_append_iff htoken.escaped (iff_of_true (htoken.ok_some (by decide)) htoken.ok_none)
  · rfl

/-- The lines step neither makes nor removes tokens. -/
theorem occurs_escapeContent_iff (unicode : Unicode) (content : List Char) :
    Occurs ok token (escapeContent unicode content) ↔
      Occurs ok token ((escapeTokens content).filter notNul) := by
  unfold escapeContent
  rw [occurs_joined_iff htoken, ← exists_line_occurs_iff htoken]
  simp only [mem_map, exists_exists_and_eq_and, occurs_escapeLine_iff htoken]
  rfl

end Lines

/-! ## Neutralised output -/

/-- No NUL, no token without its backslash and no role marker at the start of a line. -/
structure Neutralised (unicode : Unicode) (output : List Char) : Prop where
  nul : '\x00' ∉ output
  front : ∀ token ∈ frontTokens, ∀ before after, output = before ++ token ++ after →
    before.getLast? = some '\\'
  close : ¬ ['|', '>'] <:+: output
  role : ∀ line ∈ output.splitOn '\n', startsWithRoleMarker unicode line = false

/-- A token that NULs interrupt in the content follows a backslash, and NULs do not interrupt
`|>`. -/
structure Uninterrupted (content : List Char) : Prop where
  front : ∀ token ∈ frontTokens, ¬ Interrupted notNul Bare token content
  close : ¬ Interrupted notNul (fun _ => True) ['|', '>'] content

theorem newline_not_mem_of_mem_lines {text line : List Char} (h : line ∈ lines text) :
    '\n' ∉ line := by
  obtain ⟨parts, last, hsplit⟩ := exists_splitOn_eq text
  have hpart : ∀ part ∈ parts ++ [last], '\n' ∉ part := by
    intro part hmem hnewline
    rw [← hsplit] at hmem
    have hfalse := Words.not_separator_of_mem_splitOnP hmem '\n' hnewline
    simp at hfalse
  rw [lines_of_splitOn hsplit, mem_append] at h
  rcases h with h | h
  · obtain ⟨part, hmem, rfl⟩ := mem_map.1 h
    have hline := hpart part (mem_append_left _ hmem)
    unfold stripReturn
    split
    · exact fun hnewline => hline (dropLast_subset _ hnewline)
    · exact hline
  · split at h
    · exact absurd h not_mem_nil
    · rw [mem_singleton.1 h]
      exact hpart last (by simp)

/-- No role marker starts with a bracket. -/
theorem not_roleMarker_of_head {unicode : Unicode} {line : List Char}
    (h : (unicode.toLowercase (Utf8.trimStart line)).head? = some '[') :
    startsWithRoleMarker unicode line = false := by
  have hmarkers : ∀ marker ∈ roleMarkers, marker ≠ [] ∧ marker.head? ≠ some '[' := by
    decide +kernel
  refine Bool.eq_false_iff.2 fun hstarts => ?_
  obtain ⟨marker, hmarker, hstart⟩ := any_eq_true.1 hstarts
  obtain ⟨hne, hhead⟩ := hmarkers marker hmarker
  obtain ⟨a, rest, rfl⟩ := exists_cons_of_ne_nil hne
  exact hhead ((head_of_start ( isPrefixOf_iff_prefix.1 hstart)).symm.trans h)

theorem escapeLine_role (line : List Char) :
    startsWithRoleMarker unicode (escapeLine unicode line) = false := by
  unfold escapeLine
  split
  · -- the text in front of the line is not trimmed
    refine not_roleMarker_of_head ?_
    exact unicode.toLowercase_bracket _
  · rename_i h
    exact Bool.eq_false_iff.2 h

theorem escapeContent_role : ∀ line ∈ (escapeContent unicode content).splitOn '\n',
      startsWithRoleMarker unicode line = false := by
  unfold escapeContent
  dsimp only
  by_cases hlines : lines ((escapeTokens content).filter (· ≠ '\x00')) = []
  · rw [hlines]
    intro line hline
    obtain rfl : line = [] := by simpa using hline
    refine Bool.eq_false_iff.2 fun h => ?_
    have hmarkers : ∀ marker ∈ roleMarkers, ¬ marker.isPrefixOf [] = true := by decide +kernel
    obtain ⟨marker, hmarker, hstart⟩ := any_eq_true.1 h
    rw [Utf8.trimStart, dropWhile_nil, unicode.toLowercase_nil] at hstart
    exact hmarkers _ hmarker hstart
  · rw [splitOn_intercalate]
    · intro line hline
      obtain ⟨line, _, rfl⟩ := mem_map.1 hline
      exact escapeLine_role _ line
    · intro line hline
      obtain ⟨line, hmem, rfl⟩ := mem_map.1 hline
      have hnewline := newline_not_mem_of_mem_lines hmem
      unfold escapeLine
      split
      · exact fun h => (mem_append.1 h).elim (by decide) hnewline
      · exact hnewline
    · exact fun h => hlines (map_eq_nil_iff.1 h)

theorem lineToken (hok : ∀ previous, Bare previous → ok previous) :
    ∀ token ∈ ['\x00'] :: ['|', '>'] :: frontTokens, LineToken ok token := by
  have hfacts : ∀ token ∈ ['\x00'] :: ['|', '>'] :: frontTokens,
      token ≠ [] ∧ '\n' ∉ token ∧ '\r' ∉ token ∧
      ∀ part ∈ "[ESCAPED] ".toList.tails, part ≠ [] → ¬ part <+: token ∧ ¬ token <+: part := by
    decide +kernel
  intro token h
  obtain ⟨hne, hnewline, hreturn, hescaped⟩ := hfacts token h
  exact ⟨hne, hnewline, hreturn, hescaped, hok⟩

theorem nul_not_mem_escapeContent : '\x00' ∉ escapeContent unicode content := by
  rw [← singleton_infix_iff, ← occurs_true_iff,
    occurs_escapeContent_iff (lineToken (fun _ _ => trivial) _ (by simp)), occurs_true_iff,
    singleton_infix_iff]
  simp [notNul]

/-- Escaping neutralises the content exactly if NULs interrupt no token. -/
theorem neutralised_escapeContent_iff :
    Neutralised unicode (escapeContent unicode content) ↔ Uninterrupted content := by
  have hfront : ∀ token ∈ frontTokens,
      (∀ before after, escapeContent unicode content = before ++ token ++ after →
        before.getLast? = some '\\') ↔ ¬ Interrupted notNul Bare token content := by
    intro token h
    have htoken : LineToken Bare token :=
      lineToken (fun _ hbare => hbare) _ (mem_cons_of_mem _ (mem_cons_of_mem _ h))
    rw [← occurs_filter_escapeTokens_iff h, ← occurs_escapeContent_iff htoken _]
    constructor
    · rintro hall ⟨before, after, htext, ⟨rest, rfl⟩, hbare⟩
      exact hbare (hall _ rest (by rw [htext, append_assoc]))
    · intro hnot before after htext
      by_contra hbare
      exact hnot ⟨before, token ++ after, by rw [htext, append_assoc], prefix_append _ _, hbare⟩
  have hclose : ['|', '>'] <:+: escapeContent unicode content ↔
      Interrupted notNul (fun _ => True) ['|', '>'] content := by
    rw [← infix_filter_escapeTokens_iff, ← occurs_true_iff, ← occurs_true_iff,
      occurs_escapeContent_iff (lineToken (fun _ _ => trivial) _ (by simp))]
  constructor
  · intro h
    exact ⟨fun token htoken => (hfront token htoken).1 (h.front token htoken), mt hclose.2 h.close⟩
  · intro h
    exact ⟨nul_not_mem_escapeContent _ _,
      fun token htoken => (hfront token htoken).2 (h.front token htoken), mt hclose.1 h.close,
      escapeContent_role _ _⟩

theorem content_sanitize (sanitizer : Sanitizer) (unicode : Unicode) (content : List Char) :
    (sanitizer.sanitize unicode content).content =
      if (sanitizer.sanitize unicode content).wasModified = true then escapeContent unicode content
      else content := by
  unfold sanitize
  dsimp only
  split <;> rfl

/-- Where the sanitizer escapes, it neutralises exactly the content in which NULs interrupt no
token. -/
theorem neutralised_iff (unicode : Unicode) {content : List Char}
    (h : (new.sanitize unicode content).wasModified = true) :
    Neutralised unicode (new.sanitize unicode content).content ↔ Uninterrupted content := by
  rw [content_sanitize, if_pos h, neutralised_escapeContent_iff]

/-- Without NULs nothing is interrupted. -/
theorem uninterrupted_of_nul_not_mem {content : List Char} (h : '\x00' ∉ content) :
    Uninterrupted content := by
  have hnot : ∀ ok token, ¬ Interrupted notNul ok token content := by
    rintro ok token ⟨before, after, rfl, _, hwhole, hstart, _⟩
    have hkeep : after.filter notNul = after :=
      filter_notNul_eq_self fun hc => h (mem_append_right _ hc)
    exact hstart (hkeep ▸ hwhole)
  exact ⟨fun token _ => hnot _ token, hnot _ _⟩

theorem role_and_token_neutralised :
    (new.sanitize asciiUnicode "System: <|im_start|>".toList).wasModified = true ∧
      Neutralised asciiUnicode (new.sanitize asciiUnicode "System: <|im_start|>".toList).content := by
  have hescaped : (new.sanitize asciiUnicode "System: <|im_start|>".toList).wasModified = true := by
    decide +kernel
  exact ⟨hescaped, (neutralised_iff asciiUnicode hescaped).2
    (uninterrupted_of_nul_not_mem (by decide +kernel))⟩

/-- NULs carry tokens through the escaping. -/
theorem interrupted_tokens_exposed :
    new.sanitize asciiUnicode "<\x00|im_start|\x00>[IN\x00ST]".toList =
        { content := "<|im_start|>[INST]".toList
          warnings := (new.sanitize asciiUnicode "<\x00|im_start|\x00>[IN\x00ST]".toList).warnings
          wasModified := true } ∧
      ¬ Neutralised asciiUnicode "<|im_start|>[INST]".toList := by
  refine ⟨by decide +kernel, fun h => ?_⟩
  exact absurd (h.front ['<', '|'] (by decide) [] "im_start|>[INST]".toList (by decide +kernel))
    (by decide)

/-! ## Texts that escaping leaves together -/

/-- Content that the sanitizer does not escape has no NULs. -/
theorem nul_not_mem_of_not_modified {unicode : Unicode} {content : List Char}
    (h : ¬ (new.sanitize unicode content).wasModified = true) : '\x00' ∉ content := by
  rw [wasModified_sanitize_iff, hasCritical_iff, not_or] at h
  exact h.2

theorem nul_not_mem_sanitize : '\x00' ∉ (new.sanitize unicode content).content := by
  by_cases h : (new.sanitize unicode content).wasModified = true
  · rw [content_sanitize, if_pos h]
    exact nul_not_mem_escapeContent _ _
  · rw [content_sanitize, if_neg h]
    exact nul_not_mem_of_not_modified h

/-- Escaping puts no backslash behind the first character of a text without special characters,
so the text is still there, and NULs may have interrupted it before. -/
theorem infix_sanitize_iff (unicode : Unicode) {d : Char} {tail : List Char}
    (htoken : LineToken (fun _ => True) (d :: tail))
    (hplain : ∀ c ∈ d :: tail, c ≠ '\\' ∧ c ≠ '|' ∧ notNul c = true)
    (htail : ∀ c ∈ tail, c ≠ '<' ∧ c ≠ '[') (content : List Char) :
    d :: tail <:+: (new.sanitize unicode content).content ↔
      d :: tail <:+: content.filter notNul := by
  by_cases h : (new.sanitize unicode content).wasModified = true
  · rw [content_sanitize, if_pos h, ← occurs_true_iff, occurs_escapeContent_iff htoken,
      occurs_true_iff, escapeTokens_eq_mark]
    have hnever : ∀ a ∈ tail, ∀ previous text, previous ≠ some '|' →
        tokenMarked previous (a :: text) = false := by
      intro a ha previous text hprevious
      obtain ⟨hopen, hbracket⟩ := htail a ha
      by_cases hclose : a = '>'
      · subst hclose
        exact Bool.eq_false_iff.2 (mt (tokenMarked_close_iff _ text).1 hprevious)
      · exact tokenMarked_eq_false hopen hclose hbracket _ text
    have hok : ∀ a ∈ d :: tail, some a ≠ some '|' := by
      intro a ha hsome
      exact (hplain a ha).2.1 (Option.some.inj hsome)
    have hgap : ∀ a, notNul a = false → some a ≠ some '|' := by
      intro a ha hsome
      rw [Option.some.inj hsome] at ha
      exact absurd ha (by decide)
    have hesc : '\\' ∉ d :: tail := fun hmem => (hplain _ hmem).1 rfl
    exact infix_filter_mark_iff rfl tokenMarked_nul hesc (hplain d mem_cons_self).2.2 hnever
      hok hgap _
  · rw [content_sanitize, if_neg h, filter_notNul_eq_self (nul_not_mem_of_not_modified h)]

end Axinite.Safety.Sanitizer
