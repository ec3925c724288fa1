import Axinite.Foundation.Words
import Mathlib.Data.List.Nodup

/-!
# Chunks of a document

A document is cut into windows of a fixed number of words, each of which begins a step after
the previous one, so that neighbours overlap.  A window at the end that is too small is
appended to the chunk before it, and the loop stops early when the rest of the document is
small and already covered.

The appended window repeats the words in which it overlaps the chunk before it.  And the loop
does not stop early when the last window is long: it goes on with windows that lie inside of
it.

Main results:

- Theorem `chunkLoop_isSome`: the loop ends if the step is positive.
- Theorem `coversOnce_iff`: the chunks of all documents with a given number of words are
  windows that cover the words without repetition exactly if the last window is neither too
  small nor too long, or no words are repeated by appending it.
- Theorem `redundant_last_chunk`: a document whose last chunk lies inside the one before it.
-/

namespace Axinite.Workspace

open Foundation Foundation.Words List

/-! ## The chunker -/

/-- Configuration of the chunker; the share of the overlap is a float. -/
structure ChunkConfig (F : Type) where
  chunkSize : Nat
  overlapPercent : F
  minChunkSize : Nat

section Config

variable {F : Type} (truncMul : Nat → F → Nat)

/-- The overlap in words: the product of the size and the share, rounded as floats are. -/
def ChunkConfig.overlapSize (config : ChunkConfig F) : Nat :=
  truncMul config.chunkSize config.overlapPercent

def ChunkConfig.stepSize (config : ChunkConfig F) : Nat :=
  config.chunkSize - config.overlapSize truncMul

end Config

/-- The words from one position to another. -/
def slice (words : List (List Char)) (start stop : Nat) : List (List Char) :=
  (words.drop start).take (stop - start)

/-- The loop of the chunker; `none` means that the rounds do not suffice. -/
def chunkLoop (size minSize step : Nat) (words : List (List Char)) :
    Nat → Nat → List (List Char) → Option (List (List Char))
  | 0, _, _ => none
  | rounds + 1, start, chunks =>
    if start < words.length then
      let stop := min (start + size) words.length
      let chunkWords := slice words start stop
      if chunkWords.length < minSize ∧ chunks ≠ [] then
        let last := chunks.getLast?.getD []
        some (chunks.dropLast ++ [last ++ ' ' :: joinWords chunkWords])
      else
        let chunks := chunks ++ [joinWords chunkWords]
        let start := start + step
        if words.length ≤ start + minSize ∧ stop = words.length then some chunks
        else chunkLoop size minSize step words rounds start chunks
    else some chunks

/-- Split a document into chunks. -/
def chunkDocument {F : Type} (truncMul : Nat → F → Nat) (content : List Char)
    (config : ChunkConfig F) : Option (List (List Char)) :=
  if content = [] then some []
  else
    let words := splitWhitespace content
    if words = [] then some []
    else if words.length ≤ config.chunkSize then some [content]
    else
      chunkLoop config.chunkSize config.minChunkSize (config.stepSize truncMul) words
        (words.length + 1) 0 []

/-! ## Windows -/

/-- A window of positions. -/
@[ext]
structure Window where
  start : Nat
  stop : Nat

namespace Window

/-- The joined words of the window. -/
def text (words : List (List Char)) (w : Window) : List Char :=
  joinWords (slice words w.start w.stop)

/-- The window has positions, and all of them are positions of words. -/
def InRange (n : Nat) (w : Window) : Prop :=
  w.start < w.stop ∧ w.stop ≤ n

/-- The window lies inside of another one. -/
def Within (w v : Window) : Prop :=
  v.start ≤ w.start ∧ w.stop ≤ v.stop

end Window

open Window Nat

/-- The chunks are the texts of windows that begin one after the other, cover all words and
do not lie inside of each other. -/
def CoversOnce (words chunks : List (List Char)) : Prop :=
  ∃ windows : List Window,
    chunks = windows.map (text words) ∧
      (∀ w ∈ windows, w.InRange words.length) ∧
      windows.Pairwise (fun v w => v.start < w.start) ∧
      (∀ i < words.length, ∃ w ∈ windows, w.start ≤ i ∧ i < w.stop) ∧
      windows.Pairwise fun v w => ¬ w.Within v ∧ ¬ v.Within w

section Slices

variable {words : List (List Char)} {a b c : Nat}

theorem length_slice (words : List (List Char)) (a : Nat) {b : Nat} (hb : b ≤ words.length) :
    (slice words a b).length = b - a := by
  simp only [slice, length_take, length_drop]
  omega

theorem slice_ne_nil (hab : a < b) (hb : b ≤ words.length) : slice words a b ≠ [] := by
  intro h
  have hlength := length_slice words a hb
  rw [h, length_nil] at hlength
  omega

theorem slice_append (hab : a ≤ b) (hbc : b ≤ c) :
    slice words a b ++ slice words b c = slice words a c := by
  unfold slice
  have hdrop : words.drop b = (words.drop a).drop (b - a) := by
    rw [drop_drop]
    congr 1
    omega
  have hlen : c - a = (b - a) + (c - b) := by omega
  rw [hdrop, hlen, take_add]

theorem slice_sublist : (slice words a b).Sublist words :=
  (take_sublist _ _).trans (drop_sublist _ _)

theorem mem_slice {i : Nat} (hi : i < words.length) (ha : a ≤ i) (hb : i < b) :
    words[i] ∈ slice words a b := by
  unfold slice
  rw [mem_take_iff_getElem]
  refine ⟨i - a, by simp; omega, ?_⟩
  simp only [getElem_drop]
  congr 1
  omega

theorem slice_cons (ha : a < words.length) (hab : a < b) :
    ∃ rest, slice words a b = words[a] :: rest := by
  refine ⟨(words.drop (a + 1)).take (b - a - 1), ?_⟩
  have hpos : b - a = (b - a - 1) + 1 := by omega
  rw [slice, drop_eq_getElem_cons ha, hpos]
  rfl

/-- Among distinct words a window is determined by its text. -/
theorem window_eq_of_text_eq (hwords : ∀ word ∈ words, IsWord word) (hnodup : words.Nodup)
    {v w : Window} (hv : v.InRange words.length) (hw : w.InRange words.length)
    (h : v.text words = w.text words) : v = w := by
  have hslice : slice words v.start v.stop = slice words w.start w.stop :=
    joinWords_inj (fun word hword => hwords word (slice_sublist.subset hword))
      (fun word hword => hwords word (slice_sublist.subset hword)) h
  have hvstart : v.start < words.length := lt_of_lt_of_le hv.1 hv.2
  have hwstart : w.start < words.length := lt_of_lt_of_le hw.1 hw.2
  obtain ⟨rest, hvcons⟩ := slice_cons hvstart hv.1
  obtain ⟨rest', hwcons⟩ := slice_cons hwstart hw.1
  rw [hvcons, hwcons] at hslice
  have hstart : v.start = w.start := (hnodup.getElem_inj_iff).1 (List.cons.inj hslice).1
  have hlength : v.stop - v.start = w.stop - w.start := by
    rw [← length_slice words _ hv.2, ← length_slice words _ hw.2, hvcons, hwcons, hslice]
  have hvw := hv.1
  exact Window.ext hstart (by omega)

end Slices

/-! ## Rounds of the loop -/

section Rounds

variable {size minSize step rounds start : Nat} {words chunks : List (List Char)}

theorem not_tiny {stop : Nat} (hstop : stop ≤ words.length)
    (hkeep : chunks = [] ∨ minSize ≤ stop - start) :
    ¬ ((slice words start stop).length < minSize ∧ chunks ≠ []) := by
  rw [length_slice words start hstop]
  rintro ⟨htiny, hne⟩
  rcases hkeep with hnil | hle
  · exact hne hnil
  · omega

/-- A round that adds a window and goes on. -/
theorem chunkLoop_more (hstart : start < words.length)
    (hkeep : chunks = [] ∨ minSize ≤ min (start + size) words.length - start)
    (hmore : ¬ (words.length ≤ start + step + minSize ∧ words.length ≤ start + size)) :
    chunkLoop size minSize step words (rounds + 1) start chunks =
      chunkLoop size minSize step words rounds (start + step)
        (chunks ++ [text words ⟨start, min (start + size) words.length⟩]) := by
  have hnotLast : ¬ (words.length ≤ start + step + minSize ∧
      min (start + size) words.length = words.length) := by
    rintro ⟨hrest, hstop⟩
    exact hmore ⟨hrest, by omega⟩
  rw [chunkLoop, if_pos hstart]
  rw [if_neg (not_tiny (min_le_right _ _) hkeep), if_neg hnotLast]
  rfl

/-- A round that adds the last window. -/
theorem chunkLoop_last (hstart : start < words.length) (hstop : words.length ≤ start + size)
    (hkeep : chunks = [] ∨ minSize ≤ words.length - start)
    (hrest : words.length ≤ start + step + minSize) :
    chunkLoop size minSize step words (rounds + 1) start chunks =
      some (chunks ++ [text words ⟨start, words.length⟩]) := by
  have hmin : min (start + size) words.length = words.length := min_eq_right hstop
  rw [chunkLoop, if_pos hstart]
  rw [hmin, if_neg (not_tiny (le_refl _) hkeep), if_pos ⟨hrest, rfl⟩]
  rfl

/-- A round that appends a tiny window to the last chunk. -/
theorem chunkLoop_merge {last : List Char} (hstart : start < words.length)
    (htiny : min (start + size) words.length - start < minSize) :
    chunkLoop size minSize step words (rounds + 1) start (chunks ++ [last]) = some (chunks ++
        [last ++ ' ' :: text words ⟨start, min (start + size) words.length⟩]) := by
  have hlength := length_slice words start (min_le_right (start + size) _)
  rw [chunkLoop, if_pos hstart]
  rw [if_pos ⟨by rw [hlength]; exact htiny, by simp⟩]
  simp [text]

/-- The loop ends if the step is positive. -/
theorem chunkLoop_isSome (hstep : 1 ≤ step) (hrounds : words.length - start < rounds) :
    (chunkLoop size minSize step words rounds start chunks).isSome = true := by
  induction rounds generalizing start chunks with
  | zero => omega
  | succ rounds ih =>
    unfold chunkLoop
    split
    · dsimp only
      split
      · rfl
      · split
        · rfl
        · exact ih (by omega)
    · rfl

/-- The windows before the last one. -/
def regular (size step k : Nat) : List Window :=
  (List.range k).map fun j => ⟨j * step, j * step + size⟩

theorem regular_succ (size step k : Nat) :
    regular size step (k + 1) = regular size step k ++ [⟨k * step, k * step + size⟩] := by
  simp [regular, range_succ]

/-- The rounds before the end of the document is reached. -/
theorem chunkLoop_regular {k : Nat} (hfull : ∀ j < k, j * step + size < words.length)
    (hkeep : minSize ≤ size ∨ k ≤ 1) :
    chunkLoop size minSize step words (rounds + k) 0 [] =
      chunkLoop size minSize step words rounds (k * step)
        ((regular size step k).map (text words)) := by
  induction k generalizing rounds with
  | zero => simp [regular]
  | succ k ih =>
    have hk := hfull k (lt_succ_self k)
    have hmin : min (k * step + size) words.length = k * step + size :=
      min_eq_left (le_of_lt hk)
    have hkeep' : (regular size step k).map (text words) = [] ∨
        minSize ≤ min (k * step + size) words.length - k * step := by
      rcases hkeep with hle | hle
      · omega
      · left
        obtain rfl : k = 0 := by omega
        rfl
    have hrounds : rounds + (k + 1) = rounds + 1 + k := by omega
    rw [hrounds, ih (fun j hj => hfull j (lt_succ_of_lt hj)) (by omega),
      chunkLoop_more (by omega) hkeep' (by omega), hmin, regular_succ, succ_mul]
    simp

/-- Once a window reaches the end, the windows that follow are added, too. -/
theorem chunkLoop_tail {result : List (List Char)}
    (h : chunkLoop size minSize step words rounds start chunks = some result) (hstep : 1 ≤ step)
    (hrounds : words.length - start < rounds) (hlong : start + minSize < words.length)
    (hstop : words.length ≤ start + size) :
    ∃ more, result = chunks ++ text words ⟨start, words.length⟩ :: more := by
  induction rounds generalizing start chunks with
  | zero => omega
  | succ rounds ih =>
    by_cases hrest : words.length ≤ start + step + minSize
    · rw [chunkLoop_last (by omega) hstop (.inr (by omega)) hrest] at h
      exact ⟨[], (Option.some.inj h).symm⟩
    · rw [chunkLoop_more (by omega) (.inr (by omega)) (by omega), min_eq_right hstop] at h
      obtain ⟨more, rfl⟩ := ih h (by omega) (by omega) (by omega)
      exact ⟨text words ⟨start + step, words.length⟩ :: more, by simp⟩

end Rounds

/-! ## Where the document ends -/

/-- The number of windows before the one that reaches the end. -/
def fullWindows (size step n : Nat) : Nat :=
  (n - size - 1) / step + 1

/-- The length of the first window that reaches the end. -/
def lastLength (size step n : Nat) : Nat :=
  n - fullWindows size step n * step

/-- The last window is neither too small to be a chunk nor so long that another window is
added after it; or it is appended to its neighbour without repeating words, before anything
else is lost. -/
def EndFits (size minSize step n : Nat) : Prop :=
  minSize ≤ lastLength size step n ∧ lastLength size step n ≤ step + minSize ∨
    step = size ∧ lastLength size step n < minSize ∧
      (minSize ≤ size ∨ fullWindows size step n = 1)
  deriving Decidable

section Ends

variable {size minSize step : Nat} {n : Nat}

/-- The first window that reaches the end of the document. -/
structure AtEnd (size step n k : Nat) : Prop where
  pos : 1 ≤ k
  full : ∀ j < k, j * step + size < n
  start : k * step < n
  stop : n ≤ k * step + size

theorem atEnd_fullWindows (hstep : 1 ≤ step) (hle : step ≤ size) (hn : size < n) :
    AtEnd size step n (fullWindows size step n) := by
  have hdivision := Nat.div_add_mod (n - size - 1) step
  have hmod := Nat.mod_lt (n - size - 1) hstep
  have hsucc : fullWindows size step n * step = step * ((n - size - 1) / step) + step := by
    rw [fullWindows, Nat.succ_mul, Nat.mul_comm]
  refine ⟨Nat.succ_le_succ (Nat.zero_le _), ?_, by omega, by omega⟩
  intro j hj
  have hjle : j * step ≤ step * ((n - size - 1) / step) := by
    rw [Nat.mul_comm]
    exact Nat.mul_le_mul_left step (Nat.le_of_lt_succ hj)
  omega

theorem AtEnd.lt_length {k : Nat} (h : AtEnd size step n k) (hstep : 1 ≤ step) : k < n :=
  Nat.lt_of_le_of_lt (Nat.le_mul_of_pos_right k hstep) h.start

end Ends

/-! ## Documents whose end fits -/

section Covers

variable {size minSize step k : Nat} {words : List (List Char)}

/-- Windows with both ends one after the other do not lie inside of each other. -/
theorem not_within {v w : Window} (hstart : v.start < w.start) (hstop : v.stop < w.stop) :
    ¬ w.Within v ∧ ¬ v.Within w :=
  ⟨fun h => Nat.not_le_of_lt hstop h.2, fun h => Nat.not_le_of_lt hstart h.1⟩

/-- Windows at regular distances and a last one up to the end cover the words once. -/
theorem coversOnce_regular (hstep : 1 ≤ step) (hle : step ≤ size)
    (hfull : ∀ j < k, j * step + size < words.length) (hstart : k * step < words.length) :
    CoversOnce words ((regular size step k ++ [mk (k * step) words.length]).map
      (text words)) := by
  have hmem : ∀ w ∈ regular size step k, ∃ j < k, w = ⟨j * step, j * step + size⟩ := by
    intro w hw
    obtain ⟨j, hj, rfl⟩ := mem_map.1 hw
    exact ⟨j, mem_range.1 hj, rfl⟩
  have hgrows : ∀ i j, i < j → i * step < j * step :=
    fun i j hij => Nat.mul_lt_mul_of_pos_right hij hstep
  have hpair : (regular size step k ++ [mk (k * step) words.length]).Pairwise
      fun v w => v.start < w.start ∧ v.stop < w.stop := by
    refine pairwise_append.2 ⟨?_, pairwise_singleton _ _, ?_⟩
    · rw [regular, pairwise_map]
      exact pairwise_lt_range.imp fun hij =>
        ⟨hgrows _ _ hij, Nat.add_lt_add_right (hgrows _ _ hij) size⟩
    · intro v hv w hw
      obtain ⟨j, hj, rfl⟩ := hmem v hv
      obtain rfl := mem_singleton.1 hw
      exact ⟨hgrows j k hj, hfull j hj⟩
  refine ⟨_, rfl, ?_, hpair.imp And.left, ?_, hpair.imp fun h => not_within h.1 h.2⟩
  · intro w hw
    rcases mem_append.1 hw with hregular | hlast
    · obtain ⟨j, hj, rfl⟩ := hmem w hregular
      have hjfull := hfull j hj
      exact ⟨by show j * step < j * step + size; omega, by show j * step + size ≤ _; omega⟩
    · obtain rfl := mem_singleton.1 hlast
      exact ⟨hstart, Nat.le_refl _⟩
  · intro i hi
    by_cases hlast : k * step ≤ i
    · exact ⟨⟨k * step, words.length⟩, by simp, hlast, hi⟩
    · -- the window with the number of whole steps before the position
      have hdivision := Nat.div_add_mod i step
      have hmod := Nat.mod_lt i hstep
      have hj : i / step < k := (Nat.div_lt_iff_lt_mul hstep).2 (by omega)
      refine ⟨⟨i / step * step, i / step * step + size⟩, ?_, ?_, ?_⟩
      · exact mem_append_left _ (mem_map.2 ⟨i / step, mem_range.2 hj, rfl⟩)
      · exact Nat.div_mul_le_self i step
      · show i < i / step * step + size
        rw [Nat.mul_comm]
        omega

/-- The result when the window after `k` full ones is tiny. -/
theorem chunkLoop_merges {rounds : Nat}
    (hfull : ∀ j < k + 1, j * step + size < words.length) (hsize : 1 ≤ size)
    (hkeep : minSize ≤ size ∨ k = 0) (hstart : (k + 1) * step < words.length)
    (htiny : min ((k + 1) * step + size) words.length - (k + 1) * step < minSize) :
    chunkLoop size minSize step words (rounds + 1 + (k + 1)) 0 [] =
      some ((regular size step k).map (text words) ++
        [joinWords (slice words (k * step) (k * step + size) ++
          slice words ((k + 1) * step) (min ((k + 1) * step + size) words.length))]) := by
  have hk := hfull k (lt_succ_self k)
  have hne : slice words (k * step) (k * step + size) ≠ [] := slice_ne_nil (by omega) (by omega)
  have hne' : slice words ((k + 1) * step) (min ((k + 1) * step + size) words.length) ≠ [] :=
    slice_ne_nil (by omega) (min_le_right _ _)
  rw [chunkLoop_regular hfull (by omega), regular_succ, map_append, map_singleton,
    chunkLoop_merge hstart htiny, joinWords_append hne hne']
  rfl

/-- If the end fits, the loop returns chunks that cover the words once. -/
theorem coversOnce_of_endFits (hstep : 1 ≤ step) (hle : step ≤ size) (hn : size < words.length)
    (hfits : EndFits size minSize step words.length) :
    ∃ chunks, chunkLoop size minSize step words (words.length + 1) 0 [] = some chunks ∧
      CoversOnce words chunks := by
  have hend := atEnd_fullWindows hstep hle hn
  have hlt := hend.lt_length hstep
  rcases hfits with ⟨hkeep, hlast⟩ | ⟨rfl, htiny, hlost⟩
  · have hstop := hend.stop
    unfold lastLength at hkeep hlast
    have hrounds : words.length + 1 = words.length - fullWindows size step words.length + 1 +
        fullWindows size step words.length := by omega
    refine ⟨_, ?_, coversOnce_regular hstep hle hend.full hend.start⟩
    rw [hrounds, chunkLoop_regular hend.full (by omega),
      chunkLoop_last hend.start hend.stop (.inr hkeep) (by omega)]
    simp
  · -- without overlap the appended window is the continuation of its neighbour
    obtain ⟨k, hk⟩ : ∃ k, fullWindows step step words.length = k + 1 :=
      Nat.exists_eq_add_of_le' hend.pos
    unfold lastLength at htiny
    rw [hk] at hend hlt htiny hlost
    have hstart := hend.start
    have hmin : min ((k + 1) * step + step) words.length = words.length :=
      Nat.min_eq_right hend.stop
    have hrounds : words.length + 1 = words.length - (k + 1) + 1 + (k + 1) := by omega
    have hnext : k * step + step = (k + 1) * step := (Nat.succ_mul k step).symm
    have hfull : ∀ j < k, j * step + step < words.length :=
      fun j hj => hend.full j (Nat.lt_succ_of_lt hj)
    refine ⟨_, ?_, coversOnce_regular hstep (Nat.le_refl _) hfull (by omega)⟩
    rw [hrounds, chunkLoop_merges hend.full hstep (by omega) hend.start (by omega), hmin, hnext,
      slice_append (by omega) (by omega)]
    simp [text]

end Covers

/-! ## Documents whose end does not fit -/

section Repeats

variable {size minSize step k : Nat} {words : List (List Char)}
  (hwords : ∀ word ∈ words, IsWord word) (hnodup : words.Nodup)

include hwords hnodup

/-- A window that follows inside of the last one is not covered once. -/
theorem not_coversOnce_of_nested {before more : List (List Char)} {start : Nat} (hmore : start + step < words.length) :
    ¬ CoversOnce words (before ++ text words ⟨start, words.length⟩ ::
      text words ⟨start + step, words.length⟩ :: more) := by
  rintro ⟨windows, htexts, hrange, -, -, hapart⟩
  obtain ⟨ws, rest, rfl, -, hrest⟩ := map_eq_append_iff.1 htexts.symm
  obtain ⟨v, rest, rfl, hv, hrest⟩ := map_eq_cons_iff.1 hrest
  obtain ⟨w, rest, rfl, hw, -⟩ := map_eq_cons_iff.1 hrest
  obtain rfl : v = ⟨start, words.length⟩ :=
    window_eq_of_text_eq hwords hnodup (hrange v (by simp))
      ⟨by show start < words.length; omega, le_refl _⟩ hv
  obtain rfl : w = ⟨start + step, words.length⟩ :=
    window_eq_of_text_eq hwords hnodup (hrange w (by simp)) ⟨hmore, le_refl _⟩ hw
  have hpair := pairwise_append.1 hapart
  have hfirst := (pairwise_cons.1 hpair.2.1).1 _ mem_cons_self
  exact hfirst.1 ⟨le_add_right _ _, le_refl _⟩

/-- Two overlapping windows are not joined to a window. -/
theorem not_coversOnce_of_repeated {before : List (List Char)} {a b c d : Nat} (hac : a ≤ c)
    (hcb : c < b) (hcd : c < d) (hc : c < words.length) :
    ¬ CoversOnce words (before ++ [joinWords (slice words a b ++ slice words c d)]) := by
  rintro ⟨windows, htexts, -⟩
  have hmem : joinWords (slice words a b ++ slice words c d) ∈ windows.map (text words) := by
    rw [← htexts]
    simp
  obtain ⟨w, -, hw⟩ := mem_map.1 hmem
  have hslices : ∀ word ∈ slice words a b ++ slice words c d, IsWord word := by
    intro word hword
    rcases mem_append.1 hword with hab | hcd'
    · exact hwords word (slice_sublist.subset hab)
    · exact hwords word (slice_sublist.subset hcd')
  have heq : slice words w.start w.stop = slice words a b ++ slice words c d :=
    joinWords_inj (fun word hword => hwords word (slice_sublist.subset hword)) hslices hw
  -- the word at the beginning of the second window is in the first one, too
  have hdisjoint : (slice words a b ++ slice words c d).Nodup :=
    heq ▸ hnodup.sublist slice_sublist
  exact (nodup_append.1 hdisjoint).2.2 _ (mem_slice hc hac hcb) _
    (mem_slice hc (le_refl c) hcd) rfl

/-- A single window that ends too early does not cover the words. -/
theorem not_coversOnce_of_lost {stop : Nat} (hpos : 0 < stop) (hstop : stop < words.length) :
    ¬ CoversOnce words [text words ⟨0, stop⟩] := by
  rintro ⟨windows, htexts, hrange, -, hcover, -⟩
  obtain ⟨w, rest, rfl, hw, hnil⟩ := map_eq_cons_iff.1 htexts.symm
  obtain rfl := map_eq_nil_iff.1 hnil
  obtain rfl : w = ⟨0, stop⟩ :=
    window_eq_of_text_eq hwords hnodup (hrange w (by simp)) ⟨hpos, le_of_lt hstop⟩ hw
  obtain ⟨v, hv, -, hlt⟩ := hcover stop hstop
  obtain rfl := mem_singleton.1 hv
  exact lt_irrefl _ hlt

/-- If the end does not fit, the chunks of distinct words do not cover them once. -/
theorem not_coversOnce_of_not_endFits (hstep : 1 ≤ step) (hle : step ≤ size) (hn : size < words.length)
    (hfits : ¬ EndFits size minSize step words.length) {chunks : List (List Char)}
    (hchunks : chunkLoop size minSize step words (words.length + 1) 0 [] = some chunks) :
    ¬ CoversOnce words chunks := by
  have hend := atEnd_fullWindows hstep hle hn
  have hlt := hend.lt_length hstep
  obtain ⟨k, hk⟩ : ∃ k, fullWindows size step words.length = k + 1 :=
    Nat.exists_eq_add_of_le' hend.pos
  have hlength : lastLength size step words.length = words.length - (k + 1) * step := by
    rw [lastLength, hk]
  rw [EndFits, hlength] at hfits
  rw [hk] at hend hlt
  have hstart := hend.start
  have hstop := hend.stop
  have hnext : k * step + step = (k + 1) * step := (Nat.succ_mul k step).symm
  have hrounds : words.length + 1 = words.length - (k + 1) + 1 + (k + 1) := by omega
  by_cases hkeep : minSize ≤ words.length - (k + 1) * step
  · -- the last window is so long that windows inside of it follow
    have hlong : (k + 1) * step + step + minSize < words.length := by
      by_contra hshort
      exact hfits (.inl ⟨hkeep, by omega⟩)
    have hsteps : k + 1 ≤ (k + 1) * step := Nat.le_mul_of_pos_right _ hstep
    rw [hrounds, chunkLoop_regular hend.full (by omega),
      chunkLoop_more hstart (.inr (by omega)) (by omega), Nat.min_eq_right hstop] at hchunks
    obtain ⟨more, rfl⟩ := chunkLoop_tail hchunks hstep (by omega) hlong (by omega)
    rw [append_assoc]
    exact not_coversOnce_of_nested hwords hnodup (by omega)
  · by_cases hlost : minSize ≤ size ∨ k = 0
    · -- the last window is appended and repeats the overlap
      rw [hrounds, chunkLoop_merges hend.full (by omega) hlost hstart (by omega)] at hchunks
      obtain rfl := Option.some.inj hchunks
      exact not_coversOnce_of_repeated hwords hnodup (by omega) (by omega) (by omega) hstart
    · -- the second window is appended at once, and the rest of the document is lost
      have hsecond := hend.full 1 (by omega)
      have hfull : ∀ j < 0 + 1, j * step + size < words.length :=
        fun j hj => hend.full j (by omega)
      have hrounds' : words.length + 1 = words.length - 1 + 1 + (0 + 1) := by omega
      have hmin : min ((0 + 1) * step + size) words.length = (0 + 1) * step + size :=
        Nat.min_eq_left (by omega)
      rw [hrounds', chunkLoop_merges hfull (by omega) (.inr rfl) (by omega) (by omega),
        hmin] at hchunks
      obtain rfl := Option.some.inj hchunks
      by_cases hoverlap : step < size
      · exact not_coversOnce_of_repeated hwords hnodup (by omega) (by omega) (by omega) (by omega)
      · obtain rfl : step = size := by omega
        have hjoined : (0 * step + step) = (0 + 1) * step := by omega
        rw [hjoined, slice_append (by omega) (by omega)]
        have hnone : ¬ CoversOnce words [text words ⟨0, (0 + 1) * step + step⟩] :=
          not_coversOnce_of_lost hwords hnodup (by omega) (by omega)
        simpa [regular, text] using hnone

end Repeats

/-! ## All documents -/

/-- Words that differ in their lengths. -/
def distinctWords (n : Nat) : List (List Char) :=
  (List.range n).map fun i => List.replicate (i + 1) 'a'

theorem isWord_of_mem_distinctWords {n : Nat} {word : List Char} (h : word ∈ distinctWords n) :
    IsWord word := by
  obtain ⟨i, -, rfl⟩ := mem_map.1 h
  refine ⟨by simp, ?_⟩
  intro c hc
  obtain rfl := eq_of_mem_replicate hc
  decide

theorem nodup_distinctWords (n : Nat) : (distinctWords n).Nodup := by
  refine List.Nodup.map ?_ nodup_range
  intro i j h
  simpa using congrArg List.length h

section Documents

variable {F : Type} {truncMul : Nat → F → Nat} {config : ChunkConfig F} {content : List Char}

/-- A document with more words than a chunk goes through the loop. -/
theorem chunkDocument_eq_loop (h : config.chunkSize < (splitWhitespace content).length) :
    chunkDocument truncMul content config =
      chunkLoop config.chunkSize config.minChunkSize (config.stepSize truncMul)
        (splitWhitespace content) ((splitWhitespace content).length + 1) 0 [] := by
  have hne : splitWhitespace content ≠ [] := by
    intro hnil
    rw [hnil] at h
    exact not_lt_zero _ h
  have hcontent : content ≠ [] := by
    rintro rfl
    exact hne (by simp [splitWhitespace])
  rw [chunkDocument, if_neg hcontent]
  rw [if_neg hne, if_neg (not_le.2 h)]

/-- The document is chunked, and the chunks cover its words once. -/
def ChunkedOnce (truncMul : Nat → F → Nat) (config : ChunkConfig F) (content : List Char) :
    Prop :=
  ∃ chunks, chunkDocument truncMul content config = some chunks ∧
    CoversOnce (splitWhitespace content) chunks

theorem chunkedOnce_of_endFits (hoverlap : config.overlapSize truncMul < config.chunkSize)
    (hn : config.chunkSize < (splitWhitespace content).length)
    (hfits : EndFits config.chunkSize config.minChunkSize (config.stepSize truncMul)
      (splitWhitespace content).length) : ChunkedOnce truncMul config content := by
  rw [ChunkedOnce, chunkDocument_eq_loop hn]
  exact coversOnce_of_endFits (Nat.sub_pos_of_lt hoverlap) (Nat.sub_le _ _) hn hfits

theorem endFits_of_chunkedOnce (hoverlap : config.overlapSize truncMul < config.chunkSize)
    (hn : config.chunkSize < (splitWhitespace content).length)
    (hnodup : (splitWhitespace content).Nodup) (h : ChunkedOnce truncMul config content) :
    EndFits config.chunkSize config.minChunkSize (config.stepSize truncMul)
      (splitWhitespace content).length := by
  obtain ⟨chunks, hchunks, hcovered⟩ := h
  rw [chunkDocument_eq_loop hn] at hchunks
  by_contra hfits
  exact not_coversOnce_of_not_endFits (fun _ => isWord_of_mem_splitWhitespace) hnodup
    (Nat.sub_pos_of_lt hoverlap) (Nat.sub_le _ _) hn hfits hchunks hcovered

theorem splitWhitespace_distinctWords (n : Nat) :
    splitWhitespace (joinWords (distinctWords n)) = distinctWords n :=
  splitWhitespace_joinWords fun _ => isWord_of_mem_distinctWords

@[simp]
theorem length_distinctWords (n : Nat) : (distinctWords n).length = n := by
  simp [distinctWords]

/-- With an overlap that is smaller than the chunks, every document with more than `chunkSize`
words is chunked.  The chunks cover the words once exactly if the end of the document fits:
for each document of distinct words, and for all documents with the same number of words. -/
theorem coversOnce_iff (truncMul : Nat → F → Nat) (config : ChunkConfig F)
    (hoverlap : config.overlapSize truncMul < config.chunkSize) {n : Nat}
    (hn : config.chunkSize < n) :
    (∀ content, (splitWhitespace content).length = n →
      (chunkDocument truncMul content config).isSome = true ∧
        ((splitWhitespace content).Nodup → (ChunkedOnce truncMul config content ↔
          EndFits config.chunkSize config.minChunkSize (config.stepSize truncMul) n))) ∧
      ((∀ content, (splitWhitespace content).length = n → ChunkedOnce truncMul config content) ↔
        EndFits config.chunkSize config.minChunkSize (config.stepSize truncMul) n) := by
  refine ⟨?_, ?_, ?_⟩
  · rintro content rfl
    refine ⟨?_, fun hnodup => ⟨endFits_of_chunkedOnce hoverlap hn hnodup,
      chunkedOnce_of_endFits hoverlap hn⟩⟩
    rw [chunkDocument_eq_loop hn]
    exact chunkLoop_isSome (Nat.sub_pos_of_lt hoverlap) (by omega)
  · intro hall
    have hsplit := splitWhitespace_distinctWords n
    have hlength : (splitWhitespace (joinWords (distinctWords n))).length = n := by
      rw [hsplit, length_distinctWords]
    have hnodup : (splitWhitespace (joinWords (distinctWords n))).Nodup := by
      rw [hsplit]
      exact nodup_distinctWords n
    have hfits := endFits_of_chunkedOnce hoverlap (by rwa [hlength]) hnodup (hall _ hlength)
    rwa [hlength] at hfits
  · rintro hfits content rfl
    exact chunkedOnce_of_endFits hoverlap hn hfits

end Documents

/-- The default configuration, with the share of the overlap in percent. -/
def ChunkConfig.default : ChunkConfig Nat where
  chunkSize := 800
  overlapPercent := 15
  minChunkSize := 50

/-- The share of a number in percent, rounded down. -/
def percentOf (n percent : Nat) : Nat :=
  n * percent / 100

open ChunkConfig

/-- Documents of 1400 words end with a window of 720 words. -/
theorem chunkedOnce_of_1400_words :
    default.overlapSize percentOf < default.chunkSize ∧
      ∀ content, (splitWhitespace content).length = 1400 →
        ChunkedOnce percentOf .default content := by
  have hoverlap : default.overlapSize percentOf < default.chunkSize := by
    decide
  have hn : default.chunkSize < 1400 := by decide
  exact ⟨hoverlap, (coversOnce_iff percentOf .default hoverlap hn).2.2 (by decide)⟩

/-- With the default configuration, a document of 1480 words has a chunk inside of another one;
in short documents one sees such a chunk, and a word that is repeated by appending a tiny
window. -/
theorem redundant_last_chunk : ¬ ChunkedOnce percentOf .default (joinWords (distinctWords 1480)) ∧
      (chunkDocument percentOf "a b c d e f".toList ⟨4, 50, 1⟩ =
          some ["a b c d".toList, "c d e f".toList, "e f".toList] ∧
        ¬ ChunkedOnce percentOf ⟨4, 50, 1⟩ "a b c d e f".toList) ∧
      chunkDocument percentOf "a b c d e".toList ⟨4, 25, 3⟩ = some ["a b c d d e".toList] ∧
        ¬ ChunkedOnce percentOf ⟨4, 25, 3⟩ "a b c d e".toList := by
  refine ⟨?_, ⟨by decide +kernel, ?_⟩, by decide +kernel, ?_⟩
  · intro h
    have hsplit := splitWhitespace_distinctWords 1480
    have hn : default.chunkSize <
        (splitWhitespace (joinWords (distinctWords 1480))).length := by
      rw [hsplit, length_distinctWords]
      decide
    have hfits := endFits_of_chunkedOnce (by decide) hn
      (by rw [hsplit]; exact nodup_distinctWords 1480) h
    rw [hsplit, length_distinctWords] at hfits
    revert hfits
    decide
  · intro h
    have hfits := endFits_of_chunkedOnce (by decide) (by decide +kernel) (by decide +kernel) h
    revert hfits
    decide +kernel
  · intro h
    have hfits := endFits_of_chunkedOnce (by decide) (by decide +kernel) (by decide +kernel) h
    revert hfits
    decide +kernel

end Axinite.Workspace
