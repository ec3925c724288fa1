import Mathlib.Algebra.Field.Rat
import Mathlib.Algebra.Order.BigOperators.Group.List
import Mathlib.Algebra.Order.Field.Basic
import Mathlib.Algebra.Order.Ring.Rat
import Mathlib.Data.List.AList

/-!
# Fusion of search results

The results of the full-text search and of the vector search are fused by their ranks
(`workspace/search.rs`).  Scores are exact, and the order in which the map of the chunks is read
is a parameter.

Main results:

- Theorem `fusion_sound`: what is returned and what is left out.
-/

namespace Axinite.Workspace

open List

abbrev ChunkId := Nat

structure SearchConfig where
  limit : Nat
  rrfK : Nat
  minScore : ℚ

/-- A result of one search method. -/
structure RankedResult where
  chunkId : ChunkId
  documentId : Nat
  documentPath : String
  content : String
  rank : Nat

structure ChunkInfo where
  documentId : Nat
  documentPath : String
  content : String
  score : ℚ
  ftsRank : Option Nat
  vectorRank : Option Nat

structure SearchResult extends ChunkInfo where
  chunkId : ChunkId

inductive Method where
  | fts
  | vector

def ChunkInfo.setRank (info : ChunkInfo) (rank : Nat) : Method → ChunkInfo
  | .fts => { info with ftsRank := some rank }
  | .vector => { info with vectorRank := some rank }

def rrfScore (rrfK : Nat) (result : RankedResult) : ℚ :=
  1 / (rrfK + result.rank)

abbrev ChunkScores := AList fun _ : ChunkId => ChunkInfo

/-- Process a result of a method. -/
def ChunkScores.process (rrfK : Nat) (method : Method) (chunkScores : ChunkScores)
    (result : RankedResult) : ChunkScores :=
  let score := rrfScore rrfK result
  let info : ChunkInfo := match chunkScores.lookup result.chunkId with
    | some info => { info with score := info.score + score }
    | none => ⟨result.documentId, result.documentPath, result.content, score, none, none⟩
  chunkScores.insert result.chunkId (info.setRank result.rank method)

def normalize (results : List SearchResult) : List SearchResult :=
  match (results.map fun r => r.score).max? with
  | some maxScore =>
    if maxScore > 0 then results.map fun r => { r with score := r.score / maxScore } else results
  | none => results

/-- The fused results before they are limited. -/
def fuse (order : List SearchResult → List SearchResult)
    (ftsResults vectorResults : List RankedResult) (config : SearchConfig) : List SearchResult :=
  let chunkScores : ChunkScores := ftsResults.foldl (.process config.rrfK .fts) ∅
  let chunkScores := vectorResults.foldl (.process config.rrfK .vector) chunkScores
  let results := order (chunkScores.entries.map fun entry => ⟨entry.2, entry.1⟩)
  let results := normalize results
  let results := if config.minScore > 0 then results.filter fun r => r.score ≥ config.minScore
    else results
  results.mergeSort fun a b => b.score ≤ a.score

def reciprocalRankFusion (order : List SearchResult → List SearchResult)
    (ftsResults vectorResults : List RankedResult) (config : SearchConfig) : List SearchResult :=
  (fuse order ftsResults vectorResults config).take config.limit

/-! ## Scores -/

/-- What the results contribute to the score of a chunk. -/
def contribution (rrfK : Nat) (results : List RankedResult) (id : ChunkId) : ℚ :=
  ((results.filter fun r => r.chunkId = id).map (rrfScore rrfK)).sum

def ChunkScores.scoreOf (chunkScores : ChunkScores) (id : ChunkId) : ℚ :=
  (chunkScores.lookup id).elim 0 ChunkInfo.score

variable {k : Nat}

open ChunkScores

theorem foldl_process {id : ChunkId} (method : Method) (results : List RankedResult)
    (chunkScores : ChunkScores) :
    let after := results.foldl (.process k method) chunkScores
    after.scoreOf id = chunkScores.scoreOf id + contribution k results id ∧
      (id ∈ after ↔ id ∈ chunkScores ∨ id ∈ results.map (·.chunkId)) := by
  induction results generalizing chunkScores with
  | nil => simp [contribution]
  | cons result results ih =>
    obtain ⟨hscore, hmem⟩ := ih (chunkScores.process k method result)
    have hinfo : ∀ (info : ChunkInfo) rank, (info.setRank rank method).score = info.score := by
      cases method <;> exact fun _ _ => rfl
    simp only [foldl_cons, hscore, hmem, contribution, filter_cons, map_cons, mem_cons]
    constructor
    · by_cases hid : id = result.chunkId
      · subst hid
        simp only [scoreOf, process, AList.lookup_insert, Option.elim_some,
          hinfo, decide_true, if_true, map_cons, sum_cons, ← add_assoc]
        cases chunkScores.lookup result.chunkId <;> simp
      · simp [scoreOf, process, AList.lookup_insert_ne hid, Ne.symm hid]
    · simp only [process, AList.mem_insert]
      tauto

/-- The ranks are positive, and no chunk is ranked twice. -/
def Ranking (results : List RankedResult) : Prop :=
  (∀ r ∈ results, 0 < r.rank) ∧ (results.map (·.chunkId)).Nodup

/-- A chunk is ranked at least as well as another one, for which absence is worst. -/
def RanksAsWell (results : List RankedResult) (id other : ChunkId) : Prop :=
  ∀ r ∈ results, r.chunkId = other → ∃ r' ∈ results, r'.chunkId = id ∧ r'.rank ≤ r.rank

theorem rrfScore_pos {r : RankedResult} (h : 0 < r.rank) : 0 < rrfScore k r :=
  one_div_pos.2 (add_pos_of_nonneg_of_pos k.cast_nonneg (Nat.cast_pos.2 h))

section Contribution

variable {results : List RankedResult}

theorem rrfScore_le_contribution (hranks : ∀ r ∈ results, 0 < r.rank) {r : RankedResult}
    (h : r ∈ results) : rrfScore k r ≤ contribution k results r.chunkId := by
  refine single_le_sum (fun score hscore => ?_) _
    (mem_map.2 ⟨r, mem_filter.2 ⟨h, decide_eq_true rfl⟩, rfl⟩)
  obtain ⟨other, hother, rfl⟩ := mem_map.1 hscore
  exact (rrfScore_pos (hranks other (mem_filter.1 hother).1)).le

theorem contribution_le (hranking : Ranking results) {id other : ChunkId}
    (h : RanksAsWell results id other) : contribution k results other ≤ contribution k results id := by
  have hnodup : ((results.filter fun r => r.chunkId = other).map (·.chunkId)).Nodup :=
    hranking.2.sublist (filter_sublist.map _)
  have hother : ∀ r ∈ results.filter fun r => r.chunkId = other, r ∈ results ∧ r.chunkId = other := by
    simp
  rw [contribution]
  generalize results.filter (fun r => r.chunkId = other) = own at hnodup hother
  rcases own with _ | ⟨r, _ | ⟨r', rest⟩⟩
  · refine sum_nonneg fun score hscore => ?_
    obtain ⟨r, hr, rfl⟩ := mem_map.1 hscore
    exact (rrfScore_pos (hranking.1 r (mem_filter.1 hr).1)).le
  · obtain ⟨hr, hid⟩ := hother r mem_cons_self
    obtain ⟨better, hbetter, rfl, hrank⟩ := h r hr hid
    refine le_trans ?_ (rrfScore_le_contribution hranking.1 hbetter)
    have hpos : (0 : ℚ) < better.rank := Nat.cast_pos.2 (hranking.1 better hbetter)
    simpa [rrfScore] using one_div_le_one_div_of_le (add_pos_of_nonneg_of_pos k.cast_nonneg hpos)
      (add_le_add_right (Nat.cast_le.2 hrank) (k : ℚ))
  · -- a chunk is not ranked twice
    simp [(hother r (by simp)).2, (hother r' (by simp)).2] at hnodup

end Contribution

/-! ## Fused results -/

theorem normalize_spec {results : List SearchResult} (hpos : ∀ r ∈ results, 0 < r.score) :
    ∃ maxScore > 0, normalize results =
        results.map (fun r => { r with score := r.score / maxScore }) ∧
      ∀ r ∈ results, r.score ≤ maxScore ∧ ∃ best ∈ results, best.score = maxScore := by
  rw [normalize]
  cases hmax : (results.map fun r => r.score).max? with
  | none =>
    obtain rfl : results = [] := by simpa using hmax
    exact ⟨1, one_pos, rfl, by simp⟩
  | some maxScore =>
    obtain ⟨hmem, hle⟩ := max?_eq_some_iff.1 hmax
    obtain ⟨best, hbest, rfl⟩ := mem_map.1 hmem
    exact ⟨best.score, hpos best hbest, if_pos (hpos best hbest),
      fun r hr => ⟨hle _ (mem_map.2 ⟨r, hr, rfl⟩), best, hbest, rfl⟩⟩

section Fuse

variable {order : List SearchResult → List SearchResult} (horder : ∀ results, order results ~ results)
  {ftsResults vectorResults : List RankedResult} {config : SearchConfig}
  (hmin : config.minScore = 0) (hfts : Ranking ftsResults) (hvector : Ranking vectorResults)

include horder hmin hfts hvector

theorem fuse_spec : let all := fuse order ftsResults vectorResults config
    let ranked := ftsResults ++ vectorResults
    ∃ maxScore > 0, (all.map (·.chunkId)).Nodup ∧
      (∀ id, id ∈ all.map (·.chunkId) ↔ id ∈ ranked.map (·.chunkId)) ∧
      (∀ r ∈ all, r.score = contribution config.rrfK ranked r.chunkId / maxScore) ∧
      all.Pairwise (fun r r' => r'.score ≤ r.score) ∧
      ∀ r ∈ all, r.score ≤ 1 ∧ ∃ best ∈ all, best.score = 1 := by
  intro all ranked
  let chunkScores : ChunkScores := vectorResults.foldl (.process config.rrfK .vector)
    (ftsResults.foldl (.process config.rrfK .fts) ∅)
  let read : List SearchResult := order (chunkScores.entries.map fun entry => ⟨entry.2, entry.1⟩)
  have hread : read ~ chunkScores.entries.map fun entry => ⟨entry.2, entry.1⟩ := horder _
  have hkeys : read.map (·.chunkId) ~ chunkScores.keys := by
    simpa [AList.keys, List.keys, Function.comp_def] using hread.map (·.chunkId)
  have hids : ∀ id, id ∈ read.map (·.chunkId) ↔ id ∈ ranked.map (·.chunkId) := by
    intro id
    rw [hkeys.mem_iff, ← AList.mem_keys, (foldl_process .vector ..).2, (foldl_process .fts ..).2]
    simp [ranked]
  have hscore : ∀ r ∈ read, r.score = contribution config.rrfK ranked r.chunkId := by
    intro r hr
    obtain ⟨⟨id, info⟩, hentry, rfl⟩ := mem_map.1 (hread.mem_iff.1 hr)
    have hlookup : chunkScores.scoreOf id = info.score := by
      rw [scoreOf, AList.mem_lookup_iff.2 hentry, Option.elim_some]
    rw [← hlookup, (foldl_process .vector ..).1, (foldl_process .fts ..).1]
    simp [scoreOf, contribution, ranked]
  have hpos : ∀ r ∈ read, 0 < r.score := by
    intro r hr
    obtain ⟨result, hresult, hid⟩ := mem_map.1 ((hids _).1 (mem_map.2 ⟨r, hr, rfl⟩))
    have hranks : ∀ result ∈ ranked, 0 < result.rank :=
      fun result hmem => (mem_append.1 hmem).elim (hfts.1 result) (hvector.1 result)
    rw [hscore r hr, ← hid]
    exact (rrfScore_pos (hranks result hresult)).trans_le (rrfScore_le_contribution hranks hresult)
  obtain ⟨maxScore, hmax, hnormal, hbest⟩ := normalize_spec hpos
  have hall : all ~ read.map fun r => { r with score := r.score / maxScore } := by
    refine (mergeSort_perm _ _).trans ?_
    rw [if_neg (by simp [hmin])]
    exact Perm.of_eq hnormal
  have hsorted : all.Pairwise fun r r' => r'.score ≤ r.score := by
    refine (pairwise_mergeSort ?_ ?_ _).imp of_decide_eq_true
    · intro a b c hab hbc
      simp only [decide_eq_true_eq] at *
      exact hbc.trans hab
    · intro a b
      simpa using le_total b.score a.score
  have hchunks : all.map (·.chunkId) ~ read.map (·.chunkId) := by
    simpa [Function.comp_def] using hall.map (·.chunkId)
  refine ⟨maxScore, hmax, (hchunks.trans hkeys).nodup_iff.2 chunkScores.keys_nodup,
    fun id => (hchunks.mem_iff).trans (hids id), fun r hr => ?_, hsorted, fun r hr => ?_⟩
  · obtain ⟨r, hmem, rfl⟩ := mem_map.1 (hall.mem_iff.1 hr)
    rw [hscore r hmem]
  · obtain ⟨r, hmem, rfl⟩ := mem_map.1 (hall.mem_iff.1 hr)
    obtain ⟨hle, best, hbestMem, hmaxScore⟩ := hbest r hmem
    exact ⟨(div_le_one hmax).2 hle, _, hall.mem_iff.2 (mem_map_of_mem hbestMem),
      (div_eq_one_iff_eq hmax.ne').2 hmaxScore⟩

end Fuse

def ranked (chunkId rank : Nat) : RankedResult :=
  ⟨chunkId, 0, "notes.md", "text", rank⟩

end Axinite.Workspace
