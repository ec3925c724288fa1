import Axinite.Safety.Sanitizer
import Axinite.Tools.HttpTool
import Axinite.Tools.PathUtils
import Mathlib.Algebra.Group.Nat.Defs

/-!
# The `read_file` tool

The tool returns the lines of a file from `offset` on, `limit` of them at most
(`tools/builtin/file/read.rs`).  It takes both numbers as they come from the model, and the slice
panics if they do not fit the file.

Main results:

- Theorem `window_exact_iff`: the calls that return the lines that were asked for.
-/

namespace Axinite.Tools.ReadFile

open Foundation.Fallible Json PathUtils

def maxReadSize : Nat :=
  1024 * 1024

/-- What the operating system answers about a file: its size, and its content as text. -/
structure Disk where
  fs : FileSystem
  metadata : PathBuf → Except String Nat
  readToString : PathBuf → Except String (List Char)

inductive Failure where
  | tool (e : ToolError)
  | executionFailed (message : String)
  | panicked

structure Output where
  content : List Char
  totalLines : Nat
  linesShown : Nat
  path : PathBuf

/-- A line with its number, which is six wide. -/
def labelled (number : Nat) (line : List Char) : List Char :=
  (toString number).toList.leftpad 6 ' ' ++ '│' :: ' ' :: line

/-- The sum of two numbers of 64 bits wraps around. -/
def endLine (totalLines startLine : Nat) : Option Nat → Nat
  | some lim => min ((startLine + lim) % 2 ^ 64) totalLines
  | none => totalLines

/-- Apply offset and limit to the lines. -/
def window (lines : List (List Char)) (path : PathBuf) (offset : Nat) (limit : Option Nat) :
    Except Failure Output := do
  let totalLines := lines.length
  let startLine := if 0 < offset then offset - 1 else 0
  let endLine := endLine totalLines startLine limit
  ensure (startLine ≤ endLine ∧ endLine ≤ totalLines) .panicked
  let selectedLines := ((lines.take endLine).drop startLine).mapIdx
    fun i line => labelled (startLine + i + 1) line
  return ⟨['\n'].intercalate selectedLines, totalLines, endLine - startLine, path⟩

section Execute

variable (disk : Disk) (toLowercase : List Char → List Char) (baseDir : Option PathBuf)
  (params : Value)

/-- The lines of the file, and its path. -/
def readLines : Except Failure (PathBuf × List (List Char)) := do
  let pathStr ← (requireStr params "path").mapError .tool
  let path ← (validatePath disk.fs toLowercase pathStr.toList baseDir).mapError .tool
  let size ← (disk.metadata path).mapError (.executionFailed <| "Cannot access file: " ++ ·)
  ensure (size ≤ maxReadSize) (.executionFailed ("File too large (" ++ toString size ++
    " bytes). Maximum is " ++ toString maxReadSize ++
    " bytes. Use offset/limit for partial reads."))
  let content ← (disk.readToString path).mapError
    (.executionFailed <| "Failed to read file: " ++ ·)
  return (path, Safety.Sanitizer.lines content)

def offset : Nat :=
  ((params.get "offset").bind Value.asU64).getD 0

def limit : Option Nat :=
  (params.get "limit").bind Value.asU64

def execute : Except Failure Output := do
  let (path, lines) ← readLines disk toLowercase baseDir params
  window lines path (offset params) (limit params)

end Execute

/-- The output consists of the lines from number `first` on that exist, up to `limit` of them,
each with its number. -/
def Shows (lines : List (List Char)) (first : Nat) (limit : Option Nat) (output : Output) : Prop :=
  ∃ shown : List (List Char), output.content = ['\n'].intercalate shown ∧
    output.linesShown = shown.length ∧
    ∀ i, shown[i]? = if ∀ lim ∈ limit, i < lim then
      (lines[first - 1 + i]?).map (labelled (first + i)) else none

theorem asU64_lt {value : Option Value} {n : Nat} (h : n ∈ value.bind Value.asU64) : n < 2 ^ 64 := by
  obtain ⟨v, -, hv⟩ := Option.bind_eq_some_iff.1 h
  unfold Value.asU64 at hv
  split at hv
  · cases hv
    exact UInt64.toNat_lt _
  · cases hv

/-- The window is out of range if a number is too large, and otherwise ends with the file or after
`limit` lines. -/
theorem endLine_spec (total : Nat) {start : Nat} {limit : Option Nat} (hstart : start < 2 ^ 64)
    (hlimit : ∀ lim ∈ limit, lim < 2 ^ 64) : let stop := endLine total start limit
    stop ≤ total ∧ (start ≤ stop ↔ start ≤ total ∧ ∀ lim ∈ limit, start + lim < 2 ^ 64) ∧
      (start ≤ stop → ∀ i, start + i < stop ↔ start + i < total ∧ ∀ lim ∈ limit, i < lim) := by
  cases limit with
  | none => simp [endLine]
  | some lim =>
    simp only [Option.mem_some_iff, forall_eq', endLine] at hlimit ⊢
    refine ⟨by omega, by omega, fun _ i => by omega⟩

theorem shows_window_iff {lines : List (List Char)} (path : PathBuf) {offset : Nat}
    {limit : Option Nat} (hoffset : offset < 2 ^ 64) (hlimit : ∀ lim ∈ limit, lim < 2 ^ 64) :
    (∃ output, window lines path offset limit = .ok output ∧
        Shows lines (max offset 1) limit output) ↔
      offset - 1 ≤ lines.length ∧ ∀ lim ∈ limit, offset - 1 + lim < 2 ^ 64 := by
  have hstart : (if 0 < offset then offset - 1 else 0) = offset - 1 := by
    split <;> omega
  have hfirst : offset - 1 < 2 ^ 64 := by omega
  obtain ⟨htotal, hrange, hwindow⟩ := endLine_spec lines.length hfirst hlimit
  simp only [window, bind_eq_ok_iff, ensure_eq_ok_iff, hstart, exists_const,
    ← hrange]
  constructor
  · rintro ⟨output, ⟨hle, -⟩, -⟩
    exact hle.1
  · intro hle
    refine ⟨_, ⟨⟨hle, htotal⟩, rfl⟩, _, rfl, by simp [Nat.min_eq_left htotal], fun i => ?_⟩
    have hfirst : max offset 1 - 1 = offset - 1 := by omega
    have hlabel : offset - 1 + i + 1 = max offset 1 + i := by omega
    rw [List.getElem?_mapIdx, List.getElem?_drop, List.getElem?_take, hfirst, hlabel]
    simp only [hwindow hle]
    by_cases hline : offset - 1 + i < lines.length
    · simp only [hline, true_and]
      split <;> rfl
    · simp [List.getElem?_eq_none (Nat.not_lt.1 hline)]

/-- A call returns the lines that were asked for exactly if the offset is at most the number of
the line after the last one, and the sum of offset and limit does not overflow. -/
theorem window_exact_iff {disk : Disk} {toLowercase : List Char → List Char}
    {baseDir : Option PathBuf} {params : Value} {path : PathBuf} {lines : List (List Char)}
    (hread : readLines disk toLowercase baseDir params = .ok (path, lines)) :
    (∃ output, execute disk toLowercase baseDir params = .ok output ∧
        Shows lines (max (offset params) 1) (limit params) output) ↔
      offset params - 1 ≤ lines.length ∧
        ∀ lim ∈ limit params, offset params - 1 + lim < 2 ^ 64 := by
  have hoffset : offset params < 2 ^ 64 := by
    unfold offset
    cases h : (params.get "offset").bind Value.asU64 with
    | none => decide
    | some n => exact asU64_lt h
  refine Iff.trans ?_ (shows_window_iff path hoffset fun _ => asU64_lt)
  simp [execute, bind_eq_ok_iff, hread]

/-- A file with one line. -/
def oneLine : Disk :=
  ⟨linkedFileSystem, fun _ => .ok 1, fun _ => .ok ['a']⟩

def readFrom (offset limit : UInt64) : Value :=
  .object [("path", .string "a"), ("offset", .number (.posInt offset)),
    ("limit", .number (.posInt limit))]

theorem window_exact_one : ∃ output,
    execute oneLine id none (readFrom 1 5) = .ok output ∧ Shows [['a']] 1 (some 5) output :=
  (window_exact_iff rfl).2 ⟨by decide, by decide⟩

/-- An offset past the end panics, and so does a limit that overflows. -/
theorem out_of_range_panics : execute oneLine id none (readFrom 3 1) = .error .panicked ∧
    execute oneLine id none (readFrom 2 18446744073709551615) = .error .panicked :=
  ⟨rfl, rfl⟩

end Axinite.Tools.ReadFile
