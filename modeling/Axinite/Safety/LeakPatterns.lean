import Axinite.Foundation.Regex

/-!
# Built-in leak patterns

The default patterns of the leak detector and the helpers that take the literal prefix off a
pattern (`leak_detector/patterns.rs`).

A compiled regular expression keeps the text it was compiled from.  The expression prints as that
text, so the helpers that read the text and the search that uses the expression speak of the same
pattern.

Main results:

- Theorem `CompiledRegex.findIter_ne_nil_iff`: a compiled expression reports a match exactly if
  it matches somewhere in the content.
-/

namespace Axinite.Safety

open Foundation
open Foundation.Regex (lower upper digit single text atLeast exactly spaces pieces)

/-- Action to take when a leak is detected. -/
inductive LeakAction where
  | block
  | redact
  | warn
  deriving DecidableEq, Repr

/-- Severity of a detected leak. -/
inductive LeakSeverity where
  | low
  | medium
  | high
  | critical
  deriving DecidableEq, Repr

/-- A regular expression together with the text it was compiled from. -/
structure CompiledRegex where
  asStr : String
  expr : Regex
  /-- The text denotes this expression. -/
  compiled : expr.print = asStr.toList := by decide +kernel
  /-- No match is empty. -/
  consumes : expr.nullable = false := by decide +kernel

namespace CompiledRegex

/-- The matches of the expression in the content. -/
def findIter (regex : CompiledRegex) (tables : CharTables) (content : List Char) :
    List Regex.Match :=
  regex.expr.findIter tables content

/-- The expression matches somewhere in the content. -/
def MatchesIn (regex : CompiledRegex) (tables : CharTables) (content : List Char) : Prop :=
  regex.expr.MatchesIn tables content

theorem findIter_ne_nil_iff (regex : CompiledRegex) {tables : CharTables}
    {content : List Char} : regex.findIter tables content ≠ [] ↔ regex.MatchesIn tables content :=
  Regex.findIter_ne_nil_iff regex.consumes

end CompiledRegex

/-- A pattern for detecting secret leaks. -/
structure LeakPattern where
  name : String
  regex : CompiledRegex
  severity : LeakSeverity
  action : LeakAction

/-! ## Prefix helpers -/

/-- One prefix is a leading part of the other. -/
def prefixesOverlap (a b : List Char) : Bool :=
  b.isPrefixOf a || a.isPrefixOf b

/-- Characters that start a special construct. -/
def specialChars : List Char :=
  ['[', '(', '.', '*', '+', '?', '{', '|', '^', '$', '\\']

/-- The literal prefix of a pattern's text, if it has at least three bytes. -/
def extractLiteralPrefix (pattern : String) : Option (List Char) :=
  let literal := pattern.toList.takeWhile fun c => !specialChars.contains c
  if 3 ≤ Utf8.byteLen literal then some literal else none

/-! ## The table -/

def openaiApiKey : LeakPattern where
  name := "openai_api_key"
  regex :=
    { asStr := "sk-(?:proj-)?[a-zA-Z0-9]\x7b20,\x7d(?:T3BlbkFJ[a-zA-Z0-9_-]*)?"
      expr := pieces (text "sk-") [.optional (text "proj-"), atLeast 20 [lower, upper, digit],
        .optional (pieces (text "T3BlbkFJ")
          [atLeast 0 [lower, upper, digit, single '_', single '-']])] }
  severity := .critical
  action := .block

def anthropicApiKey : LeakPattern where
  name := "anthropic_api_key"
  regex :=
    { asStr := "sk-ant-api[a-zA-Z0-9_-]\x7b90,\x7d"
      expr := pieces (text "sk-ant-api")
        [atLeast 90 [lower, upper, digit, single '_', single '-']] }
  severity := .critical
  action := .block

def awsAccessKey : LeakPattern where
  name := "aws_access_key"
  regex :=
    { asStr := "AKIA[0-9A-Z]\x7b16\x7d"
      expr := pieces (text "AKIA") [exactly 16 [digit, upper]] }
  severity := .critical
  action := .block

def githubToken : LeakPattern where
  name := "github_token"
  regex :=
    { asStr := "gh[pousr]_[A-Za-z0-9_]\x7b36,\x7d"
      expr := pieces (text "gh")
        [exactly 1 [single 'p', single 'o', single 'u', single 's', single 'r'], text "_",
          atLeast 36 [upper, lower, digit, single '_']] }
  severity := .critical
  action := .block

def githubFineGrainedPat : LeakPattern where
  name := "github_fine_grained_pat"
  regex :=
    { asStr := "github_pat_[a-zA-Z0-9]\x7b22\x7d_[a-zA-Z0-9]\x7b59\x7d"
      expr := pieces (text "github_pat_")
        [exactly 22 [lower, upper, digit], text "_", exactly 59 [lower, upper, digit]] }
  severity := .critical
  action := .block

def stripeApiKey : LeakPattern where
  name := "stripe_api_key"
  regex :=
    { asStr := "sk_(?:live|test)_[a-zA-Z0-9]\x7b24,\x7d"
      expr := pieces (text "sk_")
        [.group (.alt (text "live") (text "test")), text "_", atLeast 24 [lower, upper, digit]] }
  severity := .critical
  action := .block

def nearaiSession : LeakPattern where
  name := "nearai_session"
  regex :=
    { asStr := "sess_[a-zA-Z0-9]\x7b32,\x7d"
      expr := pieces (text "sess_") [atLeast 32 [lower, upper, digit]] }
  severity := .critical
  action := .block

def pemPrivateKey : LeakPattern where
  name := "pem_private_key"
  regex :=
    { asStr := "-----BEGIN\\s+(?:RSA\\s+)?PRIVATE\\s+KEY-----"
      expr := pieces (text "-----BEGIN")
        [spaces 1, .optional (pieces (text "RSA") [spaces 1]), text "PRIVATE", spaces 1,
          text "KEY-----"] }
  severity := .critical
  action := .block

def sshPrivateKey : LeakPattern where
  name := "ssh_private_key"
  regex :=
    { asStr := "-----BEGIN\\s+(?:OPENSSH|EC|DSA)\\s+PRIVATE\\s+KEY-----"
      expr := pieces (text "-----BEGIN")
        [spaces 1, .group (.alt (text "OPENSSH") (.alt (text "EC") (text "DSA"))), spaces 1,
          text "PRIVATE", spaces 1, text "KEY-----"] }
  severity := .critical
  action := .block

def googleApiKey : LeakPattern where
  name := "google_api_key"
  regex :=
    { asStr := "AIza[0-9A-Za-z_-]\x7b35\x7d"
      expr := pieces (text "AIza") [exactly 35 [digit, upper, lower, single '_', single '-']] }
  severity := .high
  action := .block

def slackToken : LeakPattern where
  name := "slack_token"
  regex :=
    { asStr := "xox[baprs]-[0-9a-zA-Z-]\x7b10,\x7d"
      expr := pieces (text "xox")
        [exactly 1 [single 'b', single 'a', single 'p', single 'r', single 's'], text "-",
          atLeast 10 [digit, lower, upper, single '-']] }
  severity := .high
  action := .block

def twilioApiKey : LeakPattern where
  name := "twilio_api_key"
  regex :=
    { asStr := "SK[a-fA-F0-9]\x7b32\x7d"
      expr := pieces (text "SK") [exactly 32 [('a', 'f'), ('A', 'F'), digit]] }
  severity := .high
  action := .block

def sendgridApiKey : LeakPattern where
  name := "sendgrid_api_key"
  regex :=
    { asStr := "SG\\.[a-zA-Z0-9_-]\x7b22\x7d\\.[a-zA-Z0-9_-]\x7b43\x7d"
      expr := pieces (text "SG.")
        [exactly 22 [lower, upper, digit, single '_', single '-'], text ".",
          exactly 43 [lower, upper, digit, single '_', single '-']] }
  severity := .high
  action := .block

def bearerToken : LeakPattern where
  name := "bearer_token"
  regex :=
    { asStr := "Bearer\\s+[a-zA-Z0-9_-]\x7b20,\x7d"
      expr := pieces (text "Bearer")
        [spaces 1, atLeast 20 [lower, upper, digit, single '_', single '-']] }
  severity := .high
  action := .redact

def authHeader : LeakPattern where
  name := "auth_header"
  regex :=
    { asStr := "(?i)authorization:\\s*[a-zA-Z]+\\s+[a-zA-Z0-9_-]\x7b20,\x7d"
      expr := .caseless (pieces (text "authorization:")
        [spaces 0, atLeast 1 [lower, upper], spaces 1,
          atLeast 20 [lower, upper, digit, single '_', single '-']]) }
  severity := .high
  action := .redact

def highEntropyHex : LeakPattern where
  name := "high_entropy_hex"
  regex :=
    { asStr := "\\b[a-fA-F0-9]\x7b64\x7d\\b"
      expr := pieces .wordBoundary [exactly 64 [('a', 'f'), ('A', 'F'), digit], .wordBoundary] }
  severity := .medium
  action := .warn

/-- Default leak detection patterns. -/
def defaultPatterns : List LeakPattern :=
  [openaiApiKey, anthropicApiKey, awsAccessKey, githubToken, githubFineGrainedPat, stripeApiKey,
    nearaiSession, pemPrivateKey, sshPrivateKey, googleApiKey, slackToken, twilioApiKey,
    sendgridApiKey, bearerToken, authHeader, highEntropyHex]

end Axinite.Safety
