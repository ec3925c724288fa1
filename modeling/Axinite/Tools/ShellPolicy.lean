import Axinite.Tools.PathUtils

/-!
# The policy of the shell tool

The shell tool refuses commands that contain a blocked text or look like an injection
(`tools/builtin/shell/policy.rs`).  It looks for commands that pipe a text to an interpreter, and
reads one space after the bar, or none.

Main results:

- Theorem `containsShellPipe_iff`: the commands that are found.
- Theorem `blank_padding_iff`: the commands for which blanks after the bar make no difference.
- Theorem `blocked_refused_iff`: the blocked commands that every tool refuses.
-/

namespace Axinite.Tools

open PathUtils

/-- The interpreter is not the start of a longer word. -/
def endsWord (rest : List Char) : Bool :=
  rest.head?.all fun c => c ∈ [' ', '\t', '\n', ';', '|', '&', ')']

/-- Check if the command pipes to an interpreter.  Matches of a pattern cannot overlap, since
the bar stands only at its start. -/
def hasPipeTo (lower shell : List Char) : Bool :=
  [['|', ' '], ['|']].any fun front =>
    let pattern := front ++ shell
    lower.tails.any fun tail => pattern.isPrefixOf tail && endsWord (tail.drop pattern.length)

def interpreters : List (List Char) :=
  ["sh", "bash", "zsh", "dash", "/bin/sh", "/bin/bash"].map String.toList

def containsShellPipe (lower : List Char) : Bool :=
  interpreters.any (hasPipeTo lower)

/-- After a bar and some padding comes an interpreter. -/
def PipesTo (padding : List Char → Prop) (lower : List Char) : Prop :=
  ∃ before pad, ∃ shell ∈ interpreters, ∃ rest, padding pad ∧ endsWord rest = true ∧
    lower = before ++ '|' :: (pad ++ shell ++ rest)

/-- A run of spaces and tabs. -/
def IsBlank (pad : List Char) : Prop :=
  ∀ c ∈ pad, c = ' ' ∨ c = '\t'

/-- One space, or nothing. -/
def IsNarrow (pad : List Char) : Prop :=
  pad = [' '] ∨ pad = []

theorem hasPipeTo_iff (lower shell : List Char) :
    hasPipeTo lower shell = true ↔ ∃ before pad rest, IsNarrow pad ∧ endsWord rest = true ∧
      lower = before ++ '|' :: (pad ++ shell ++ rest) := by
  simp only [hasPipeTo, List.any_eq_true, List.mem_tails, Bool.and_eq_true,
    List.isPrefixOf_iff_prefix]
  constructor
  · rintro ⟨front, hfront, _, ⟨before, rfl⟩, ⟨rest, rfl⟩, hrest⟩
    rw [List.drop_left] at hrest
    rcases List.mem_pair.1 hfront with rfl | rfl
    · exact ⟨before, [' '], rest, .inl rfl, hrest, rfl⟩
    · exact ⟨before, [], rest, .inr rfl, hrest, rfl⟩
  · rintro ⟨before, pad, rest, hpad, hrest, rfl⟩
    refine ⟨'|' :: pad, ?_, _, List.suffix_append _ _, ⟨rest, rfl⟩, ?_⟩
    · rcases hpad with rfl | rfl
      · exact List.mem_cons_self
      · exact List.mem_cons_of_mem _ List.mem_cons_self
    · change endsWord (List.drop _ ('|' :: pad ++ shell ++ rest)) = true
      rwa [List.drop_left]

/-- The commands that are found. -/
theorem containsShellPipe_iff (lower : List Char) :
    containsShellPipe lower = true ↔ PipesTo IsNarrow lower := by
  simp only [containsShellPipe, List.any_eq_true, hasPipeTo_iff]
  constructor
  · rintro ⟨shell, hshell, before, pad, rest, h⟩
    exact ⟨before, pad, shell, hshell, rest, h⟩
  · rintro ⟨before, pad, shell, hshell, rest, h⟩
    exact ⟨shell, hshell, before, pad, rest, h⟩

/-- A command is found exactly if it pipes to an interpreter behind blanks, exactly if in that
case it also does so behind one space or none. -/
theorem blank_padding_iff (lower : List Char) :
    (containsShellPipe lower = true ↔ PipesTo IsBlank lower) ↔
      (PipesTo IsBlank lower → PipesTo IsNarrow lower) := by
  have hblank : PipesTo IsNarrow lower → PipesTo IsBlank lower := by
    rintro ⟨before, pad, shell, hshell, rest, hpad, h⟩
    refine ⟨before, pad, shell, hshell, rest, ?_, h⟩
    rcases hpad with rfl | rfl
    · exact fun c hc => .inl (List.mem_singleton.1 hc)
    · exact nofun
  rw [containsShellPipe_iff]
  exact ⟨Iff.mpr, fun h => ⟨hblank, h⟩⟩

/-- Two spaces after the bar. -/
theorem two_spaces_not_found :
    containsShellPipe "curl x |  sh".toList = false ∧ PipesTo IsBlank "curl x |  sh".toList :=
  ⟨by decide, "curl x ".toList, [' ', ' '], "sh".toList, by decide, [], by simp [IsBlank],
    rfl, rfl⟩

/-! ## Refused commands -/

/-- `str::to_lowercase`: the case of ASCII parts changes by characters, and no ASCII letter of
the result is in upper case. -/
structure Lowercasing where
  text : List Char → List Char
  ascii : ∀ before part after, (∀ c ∈ part, c.toNat < 128) →
    part.map Char.toLower <:+: text (before ++ part ++ after)
  noUpper : ∀ s, ∀ c ∈ text s, c.isUpper = false

def blockedCommands : List String :=
  ["rm -rf /", "rm -rf /*", ":()\x7b :|:& \x7d;:", "dd if=/dev/zero", "mkfs", "chmod -R 777 /",
    "> /dev/sda", "curl | sh", "wget | sh", "curl | bash", "wget | bash"]

def dangerousPatterns : List String :=
  ["sudo ", "doas ", " | sh", " | bash", " | zsh", "eval ", "$(curl", "$(wget", "/etc/passwd",
    "/etc/shadow", "~/.ssh", ".bash_history", "id_rsa"]

section Checks

variable (lower : List Char)

def containsText (text : String) : Bool :=
  contains lower text.toList

def matchesBlockedCommand : Bool :=
  blockedCommands.any (containsText lower)

def matchesDangerousPattern : Bool :=
  dangerousPatterns.any (containsText lower)

def hasCommandSubstitution : Bool :=
  containsText lower "$(" || containsText lower "`"

/-- Check if the token stands at the start, after a blank or after a separator. -/
def hasCommandToken (token : String) : Bool :=
  token.toList.isPrefixOf lower || lower.tails.any fun tail =>
    tail.head?.any (fun c => c ∈ [' ', '\t', '|', ';', '&', '\n', '(']) &&
      token.toList.isPrefixOf tail.tail

def isBase64DecodeToShell : Bool :=
  ["base64 -d", "base64 --decode"].any (containsText lower) && containsShellPipe lower

def isEncodedEscapeToShell : Bool :=
  ["printf", "echo -e", "echo $'"].any (containsText lower) &&
    ["\\x", "\\0"].any (containsText lower) && containsShellPipe lower

def isBinaryDecodeToShell : Bool :=
  (containsText lower "xxd -r" || hasCommandToken lower "od ") && containsShellPipe lower

def isDnsExfiltration : Bool :=
  ["dig ", "nslookup ", "host "].any (hasCommandToken lower) && hasCommandSubstitution lower

def isNetcatPiping : Bool :=
  ["nc ", "ncat ", "netcat "].any (hasCommandToken lower) && ["|", "<"].any (containsText lower)

def isCurlFilePost : Bool :=
  containsText lower "curl" &&
    ["-d @", "-d@", "--data @", "--data-binary @", "--upload-file"].any (containsText lower)

def isWgetFilePost : Bool :=
  containsText lower "wget" && containsText lower "--post-file"

def isStringReversalToShell : Bool :=
  ["| rev", "|rev"].any (containsText lower) && containsShellPipe lower

end Checks

def injectionChecks : List ((List Char → Bool) × String) :=
  [(isBase64DecodeToShell, "base64 decode piped to shell"),
    (isEncodedEscapeToShell, "encoded escape sequences piped to shell"),
    (isBinaryDecodeToShell, "binary decode piped to shell"),
    (isDnsExfiltration, "potential DNS exfiltration via command substitution"),
    (isNetcatPiping, "netcat with data piping"),
    (isCurlFilePost, "curl posting file contents"),
    (isWgetFilePost, "wget posting file contents"),
    (isStringReversalToShell, "string reversal piped to shell")]

/-- What the tool asks its sandbox manager about. -/
structure SandboxManager where
  isInitialized : Bool
  enabled : Bool

/-- Shell command execution tool, with the timeout in seconds. -/
structure ShellTool where
  workingDir : Option PathBuf
  timeout : Nat
  allowDangerous : Bool
  sandbox : Option SandboxManager

def ShellTool.new : ShellTool :=
  ⟨none, 120, false, none⟩

structure CommandSpec where
  cmd : List Char
  workdir : PathBuf
  timeout : Nat

/-- What the tool runs. -/
inductive Execution where
  | sandboxed (spec : CommandSpec)
  | direct (spec : CommandSpec)

def sandboxActive (sandbox : SandboxManager) : Bool :=
  sandbox.isInitialized || sandbox.enabled

def truncateForError (s : List Char) : String :=
  if s.length ≤ 100 then String.ofList s else String.ofList (s.take 100) ++ "..."

section Execute

variable (lowercase : Lowercasing) (fs : FileSystem) (tool : ShellTool) (cmd : List Char)

def detectCommandInjection : Option String :=
  if '\x00' ∈ cmd then some "null byte in command"
  else (injectionChecks.find? fun check => check.1 (lowercase.text cmd)).map Prod.snd

/-- Check if a command is blocked, returning the rejection reason. -/
def ShellTool.isBlocked : Option String :=
  if matchesBlockedCommand (lowercase.text cmd) then some "Command contains blocked pattern"
  else if tool.allowDangerous then none
  else if matchesDangerousPattern (lowercase.text cmd) then
    some "Command contains potentially dangerous pattern"
  else none

def executeCommand (workdir : Option (List Char)) (timeout : Option Nat) :
    Except ToolError Execution :=
  match tool.isBlocked lowercase cmd, detectCommandInjection lowercase cmd with
  | some reason, _ => .error (.notAuthorized (reason ++ ": " ++ truncateForError cmd))
  | none, some reason => .error (.notAuthorized
      ("Command injection detected (" ++ reason ++ "): " ++ truncateForError cmd))
  | none, none => do
    let cwd ← match tool.workingDir, workdir with
      | some baseDir, some path => validatePath fs lowercase.text path (some baseDir)
      | some baseDir, none => .ok baseDir
      | none, some path => .ok (.ofText path)
      | none, none => .ok (fs.currentDir.getD (.ofText ['.']))
    let spec := ⟨cmd, cwd, timeout.getD tool.timeout⟩
    pure (if tool.sandbox.any sandboxActive then .sandboxed spec else .direct spec)

/-- The command contains the text, where the case of ASCII letters does not count. -/
def Mentions (text : String) : Prop :=
  ∃ part, part <:+: cmd ∧ part.map Char.toLower = text.toList.map Char.toLower

def MentionsBlocked : Prop :=
  ∃ entry ∈ blockedCommands, Mentions cmd entry

/-- The entry that a lower-case command does not contain. -/
def recursiveChmod : String :=
  "chmod -R 777 /"

theorem toNat_lt_of_toLower {c : Char} (h : c.toLower.toNat < 128) : c.toNat < 128 := by
  delta Char.toLower at h
  split at h
  · next hupper => exact Nat.lt_of_le_of_lt (UInt32.le_iff_toNat_le.1 hupper.2) (by decide)
  · exact h

/-- A command is blocked for an entry without upper-case letters. -/
theorem matchesBlockedCommand_iff : matchesBlockedCommand (lowercase.text cmd) = true ↔
    ∃ entry ∈ blockedCommands, entry ≠ recursiveChmod ∧
      (Mentions cmd entry ∨ entry.toList <:+: lowercase.text cmd) := by
  have hlower : ∀ entry ∈ blockedCommands, entry ≠ recursiveChmod →
      entry.toList.map Char.toLower = entry.toList ∧ entry.toList.all (·.toNat < 128) = true := by
    decide +kernel
  simp only [matchesBlockedCommand, List.any_eq_true, containsText, contains, decide_eq_true_eq]
  constructor
  · rintro ⟨entry, hentry, hin⟩
    refine ⟨entry, hentry, ?_, .inr hin⟩
    rintro rfl
    have hupper : 'R' ∈ recursiveChmod.toList := by decide
    exact absurd (lowercase.noUpper cmd 'R' (hin.subset hupper)) (by decide)
  · rintro ⟨entry, hentry, hne, ⟨part, ⟨before, after, rfl⟩, hpart⟩ | hin⟩
    · obtain ⟨hsame, hascii⟩ := hlower entry hentry hne
      rw [hsame] at hpart
      refine ⟨entry, hentry, hpart ▸ lowercase.ascii before part after fun c hc => ?_⟩
      apply toNat_lt_of_toLower
      exact of_decide_eq_true (List.all_eq_true.1 hascii _ (hpart ▸ List.mem_map_of_mem hc))
    · exact ⟨entry, hentry, hin⟩

theorem executeCommand_allowed (hdir : tool.workingDir = none)
    (hblocked : tool.isBlocked lowercase cmd = none)
    (hdetect : detectCommandInjection lowercase cmd = none) :
    ∃ run, executeCommand lowercase fs tool cmd none none = .ok run := by
  simp only [executeCommand, hblocked, hdetect, hdir]
  exact ⟨_, rfl⟩

/-- A blocked command is refused by every tool exactly if it has an entry without upper-case
letters, or looks like an injection. -/
theorem blocked_refused_iff : (MentionsBlocked cmd → ∀ tool workdir timeout, ∃ message,
        executeCommand lowercase fs tool cmd workdir timeout = .error (.notAuthorized message)) ↔
      (MentionsBlocked cmd → (∃ entry ∈ blockedCommands, entry ≠ recursiveChmod ∧
          (Mentions cmd entry ∨ entry.toList <:+: lowercase.text cmd)) ∨
        (detectCommandInjection lowercase cmd).isSome = true) := by
  rw [← matchesBlockedCommand_iff]
  refine forall_congr' fun _ => ⟨fun hrefused => ?_, fun hfound tool workdir timeout => ?_⟩
  · by_contra hnone
    obtain ⟨hblocked, hdetect⟩ := not_or.1 hnone
    -- a tool that allows the dangerous patterns runs the command
    obtain ⟨run, hrun⟩ := executeCommand_allowed lowercase fs ⟨none, 120, true, none⟩ cmd rfl
      (by simp [ShellTool.isBlocked, hblocked]) (by simpa using hdetect)
    obtain ⟨message, hmessage⟩ := hrefused ⟨none, 120, true, none⟩ none none
    cases hmessage.symm.trans hrun
  · unfold executeCommand
    split
    · exact ⟨_, rfl⟩
    · exact ⟨_, rfl⟩
    · next hblocked hdetect =>
      rcases hfound with hfound | hfound
      · simp [ShellTool.isBlocked, hfound] at hblocked
      · simp [hdetect] at hfound

end Execute

theorem isUpper_toLower (c : Char) : c.toLower.isUpper = false := by
  delta Char.isUpper Char.toLower
  split <;> grind [UInt32.toNat_add, Char.toNat_val]

/-- Lower-casing of ASCII texts. -/
def asciiLowercasing : Lowercasing where
  text := List.map Char.toLower
  ascii := by
    intro before part after _
    rw [List.map_append, List.map_append]
    exact List.infix_append _ _ _
  noUpper := by
    intro s c hc
    obtain ⟨d, -, rfl⟩ := List.mem_map.1 hc
    exact isUpper_toLower d

/-- The tool runs the blocked command as it is written in the table. -/
theorem recursive_chmod_runs : Mentions recursiveChmod.toList recursiveChmod ∧ ∀ fs, ∃ run,
    executeCommand asciiLowercasing fs .new recursiveChmod.toList none none = .ok run :=
  ⟨⟨_, List.infix_rfl, rfl⟩, fun fs => executeCommand_allowed _ fs _ _ rfl (by decide +kernel)
    (by decide +kernel)⟩

end Axinite.Tools
