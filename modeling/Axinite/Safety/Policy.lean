import Axinite.Safety.Sanitizer

/-!
# Validation and policy rules

The structural checks of the validator (`validator.rs`) and the rules of the safety policy
(`policy.rs`).

A validation result carries the fact that it is valid exactly if it has no errors.  The share of
white space is compared as a fraction of two integers.
-/

namespace Axinite.Safety

open Foundation
open Foundation.Regex (digit text exactly spaces pieces)

/-! ## Validation -/

inductive ValidationErrorCode where
  | empty
  | tooLong
  | tooShort
  | invalidFormat
  | forbiddenContent
  | invalidEncoding
  | suspiciousPattern
  deriving DecidableEq

/-- A validation error: the field or aspect that failed, a message and a code. -/
structure ValidationError where
  field : String
  message : String
  code : ValidationErrorCode
  deriving DecidableEq

/-- Result of validating input. -/
structure ValidationResult where
  isValid : Bool
  errors : List ValidationError
  warnings : List String
  isValid_eq : isValid = errors.isEmpty

namespace ValidationResult

/-- A successful validation result. -/
def ok : ValidationResult where
  isValid := true
  errors := []
  warnings := []
  isValid_eq := rfl

def error (e : ValidationError) : ValidationResult where
  isValid := false
  errors := [e]
  warnings := []
  isValid_eq := rfl

/-- Add a warning to the result. -/
def withWarning (result : ValidationResult) (warning : String) : ValidationResult :=
  { result with warnings := result.warnings ++ [warning] }

/-- Merge another validation result into this one. -/
def merge (result other : ValidationResult) : ValidationResult where
  isValid := result.isValid && other.isValid
  errors := result.errors ++ other.errors
  warnings := result.warnings ++ other.warnings
  isValid_eq := by
    rw [result.isValid_eq, other.isValid_eq]
    cases result.errors <;> rfl

/-- Add an error if something is wrong. -/
def refuseIf (wrong : Bool) (e : ValidationError) (result : ValidationResult) :
    ValidationResult :=
  if wrong = true then result.merge (error e) else result

/-- Add a warning if something is unusual. -/
def warnIf (unusual : Bool) (warning : String) (result : ValidationResult) : ValidationResult :=
  if unusual = true then result.withWarning warning else result

end ValidationResult

/-- Input validator: the bounds of the length in bytes and the substrings that are forbidden. -/
structure Validator where
  maxLength : Nat
  minLength : Nat
  forbiddenPatterns : List (List Char)

namespace Validator

/-- A validator with default settings. -/
def new : Validator where
  maxLength := 100000
  minLength := 1
  forbiddenPatterns := []

/-- The longest run of one character: `current` is the length of the run that `previous` is the
end of, `longest` the maximum so far. -/
def maxRepeat (previous : Char) (current longest : Nat) : List Char → Nat
  | [] => longest
  | c :: text =>
    if c = previous then maxRepeat c (current + 1) (max longest (current + 1)) text
    else maxRepeat c 1 longest text

/-- More than 20 repeated characters are suspicious. -/
def hasExcessiveRepetition (s : List Char) : Bool :=
  if Utf8.byteLen s < 50 then false
  else
    match s with
    | [] => false
    | c :: text => maxRepeat c 1 1 text > 20

/-- More than nine tenths of the bytes are white space. -/
def hasHighWhitespaceRatio (input : List Char) : Bool :=
  (input.filter Utf8.isWhitespace).length * 10 > Utf8.byteLen input * 9 &&
    Utf8.byteLen input > 100

def validateNonEmptyInput (unicode : Unicode) (validator : Validator) (input : List Char)
    (field : String) : ValidationResult :=
  let len := Utf8.byteLen input
  let result := ValidationResult.ok.refuseIf (len > validator.maxLength)
    { field := field
      message := "Input too long: " ++ toString len ++ " bytes (max " ++
        toString validator.maxLength ++ ")"
      code := .tooLong }
  let result := result.refuseIf (len < validator.minLength)
    { field := field
      message := "Input too short: " ++ toString len ++ " bytes (min " ++
        toString validator.minLength ++ ")"
      code := .tooShort }
  let result := result.refuseIf (input.any (· = '\x00'))
    { field := field
      message := "Input contains null bytes"
      code := .invalidEncoding }
  let lowerInput := unicode.toLowercase input
  let result := validator.forbiddenPatterns.foldl (fun result pattern =>
    result.refuseIf (decide (pattern <:+: lowerInput))
      { field := field
        message := "Input contains forbidden pattern: " ++ String.ofList pattern
        code := .forbiddenContent }) result
  let result := result.warnIf (hasHighWhitespaceRatio input)
    "Input has unusually high whitespace ratio"
  result.warnIf (hasExcessiveRepetition input) "Input has excessive character repetition"

/-- Validate input text. -/
def validate (unicode : Unicode) (validator : Validator) (input : List Char) : ValidationResult :=
  if input.isEmpty = true then
    .error { field := "input", message := "Input cannot be empty", code := .empty }
  else validator.validateNonEmptyInput unicode input "input"

end Validator

/-! ## Policy -/

/-- Action to take when a policy is violated. -/
inductive PolicyAction where
  | warn
  | block
  | review
  | sanitize
  deriving DecidableEq

/-- A policy rule that defines what content is blocked or flagged. -/
structure PolicyRule where
  id : String
  description : String
  pattern : CompiledRegex
  severity : Severity
  action : PolicyAction

def PolicyRule.matches (tables : CharTables) (rule : PolicyRule) (content : List Char) : Bool :=
  !(rule.pattern.findIter tables content).isEmpty

/-- Safety policy containing rules. -/
structure Policy where
  rules : List PolicyRule

namespace Policy

variable (tables : CharTables)

/-- The rules that content violates. -/
def check (policy : Policy) (content : List Char) : List PolicyRule :=
  policy.rules.filter fun rule => rule.matches tables content

/-- A blocking rule is violated. -/
def isBlocked (policy : Policy) (content : List Char) : Bool :=
  (policy.check tables content).any fun rule => rule.action = .block

/-! ### The default rules -/

/-- Alternatives in parentheses. -/
def anyOf (first : Regex) (rest : List Regex) : Regex :=
  .capture (rest.foldl .alt first)

/-- At most one character. -/
def optionalChar : Regex :=
  .repeated .any 0 (some 1)

def systemFileAccess : PolicyRule where
  id := "system_file_access"
  description := "Attempt to access system files"
  pattern :=
    { asStr := "(?i)(/etc/passwd|/etc/shadow|\\.ssh/|\\.aws/credentials)"
      expr := .caseless (anyOf (text "/etc/passwd")
        [text "/etc/shadow", text ".ssh/", text ".aws/credentials"]) }
  severity := .critical
  action := .block

def cryptoPrivateKey : PolicyRule where
  id := "crypto_private_key"
  description := "Potential cryptocurrency private key"
  pattern :=
    { asStr := "(?i)(private.?key|seed.?phrase|mnemonic).\x7b0,20\x7d[0-9a-f]\x7b64\x7d"
      expr := .caseless (pieces
        (anyOf (pieces (text "private") [optionalChar, text "key"])
          [pieces (text "seed") [optionalChar, text "phrase"], text "mnemonic"])
        [.repeated .any 0 (some 20), exactly 64 [digit, ('a', 'f')]]) }
  severity := .critical
  action := .block

def sqlPattern : PolicyRule where
  id := "sql_pattern"
  description := "SQL-like pattern detected"
  pattern :=
    { asStr := "(?i)(DROP\\s+TABLE|DELETE\\s+FROM|INSERT\\s+INTO|UPDATE\\s+\\w+\\s+SET)"
      expr := .caseless (anyOf (pieces (text "DROP") [spaces 1, text "TABLE"])
        [pieces (text "DELETE") [spaces 1, text "FROM"],
          pieces (text "INSERT") [spaces 1, text "INTO"],
          pieces (text "UPDATE") [spaces 1, .repeated .word 1 none, spaces 1, text "SET"]]) }
  severity := .medium
  action := .warn

def shellInjection : PolicyRule where
  id := "shell_injection"
  description := "Potential shell command injection"
  pattern :=
    { asStr := "(?i)(;\\s*rm\\s+-rf|;\\s*curl\\s+.*\\|\\s*sh)"
      expr := .caseless (anyOf (pieces (text ";") [spaces 0, text "rm", spaces 1, text "-rf"])
        [pieces (text ";") [spaces 0, text "curl", spaces 1, .repeated .any 0 none, text "|",
          spaces 0, text "sh"]]) }
  severity := .critical
  action := .block

def excessiveUrls : PolicyRule where
  id := "excessive_urls"
  description := "Excessive number of URLs detected"
  pattern :=
    { asStr := "(https?://[^\\s]+\\s*)\x7b10,\x7d"
      expr := .many (anyOf (pieces (text "http")
        [.repeated (.char 's') 0 (some 1), text "://", .repeated .nonSpace 1 none, spaces 0]) [])
        10 }
  severity := .low
  action := .warn

def encodedExploit : PolicyRule where
  id := "encoded_exploit"
  description := "Potential encoded exploit payload"
  pattern :=
    { asStr := "(?i)(base64_decode|eval\\s*\\(\\s*base64|atob\\s*\\()"
      expr := .caseless (anyOf (text "base64_decode")
        [pieces (text "eval") [spaces 0, text "(", spaces 0, text "base64"],
          pieces (text "atob") [spaces 0, text "("]]) }
  severity := .high
  action := .sanitize

def obfuscatedString : PolicyRule where
  id := "obfuscated_string"
  description := "Potential obfuscated content"
  pattern :=
    { asStr := "[^\\s]\x7b500,\x7d"
      expr := .repeated .nonSpace 500 none }
  severity := .medium
  action := .warn

def default : Policy where
  rules :=
    [systemFileAccess, cryptoPrivateKey, sqlPattern, shellInjection, excessiveUrls,
      encodedExploit, obfuscatedString]

end Policy

end Axinite.Safety
