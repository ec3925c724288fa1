import Axinite.Foundation.Utf8
import Mathlib.Data.List.Forall2

/-!
# The log of a guest

A guest in the sandbox logs through its host (`tools/wasm/host.rs`).  The host keeps the first
entries and counts the others.  It cuts a long message at a byte, which fails inside of a
character.

Main results:

- Theorem `foldlM_log`: the state of the host after any calls.
- Theorem `guest_log_iff`: the calls that the host gets through.
-/

namespace Axinite.Tools

open Foundation List

def maxLogEntries : Nat :=
  1000

def maxLogMessageBytes : Nat :=
  4096

inductive LogLevel where
  | trace
  | debug
  | info
  | warn
  | error

/-- A log entry; as a call, with the message that the guest logs and the time of the call. -/
structure LogEntry where
  level : LogLevel
  message : List Char
  timestampMillis : Nat

/-- What the host state knows about the log. -/
structure HostState where
  logs : List LogEntry
  loggingEnabled : Bool
  logsDropped : Nat

def HostState.new : HostState :=
  ⟨[], true, 0⟩

/-- The message is short, or a character starts at the byte where it is cut. -/
def Cuttable (message : List Char) : Prop :=
  Utf8.byteLen message ≤ maxLogMessageBytes ∨
    Utf8.isCharBoundary message maxLogMessageBytes = true
  deriving Decidable

def truncationSuffix : List Char :=
  "... (truncated)".toList

def truncateMessage (message : List Char) : List Char :=
  if Utf8.byteLen message > maxLogMessageBytes then
    Utf8.sliceTo message maxLogMessageBytes ++ truncationSuffix
  else message

/-- Log a message from the guest; there is no state after a panic. -/
def HostState.log (state : HostState) (call : LogEntry) : Option HostState :=
  if !state.loggingEnabled then some { state with logsDropped := state.logsDropped + 1 }
  else if state.logs.length ≥ maxLogEntries then
    some { state with loggingEnabled := false, logsDropped := state.logsDropped + 1 }
  else if Cuttable call.message then
    some { state with
      logs := state.logs ++ [{ call with message := truncateMessage call.message }] }
  else none

open HostState

/-- The first entries are kept with their messages cut, and the other ones are counted. -/
theorem foldlM_log (calls : List LogEntry) : calls.foldlM log .new =
      if ∀ call ∈ calls.take maxLogEntries, Cuttable call.message then
        some {
          logs := (calls.take maxLogEntries).map fun call =>
            { call with message := truncateMessage call.message }
          loggingEnabled := calls.length ≤ maxLogEntries
          logsDropped := calls.length - maxLogEntries }
      else none := by
  -- the last call meets the state that the earlier ones have left
  induction calls using List.reverseRecOn with
  | nil => rfl
  | append_singleton calls call ih =>
    rw [foldlM_append, ih]
    by_cases hfull : maxLogEntries ≤ calls.length
    · rw [take_append_of_le_length hfull]
      split
      · by_cases hmore : calls.length ≤ maxLogEntries
        · simp [log, Nat.le_antisymm hmore hfull]
        · simp [log, hmore]
          omega
      · rfl
    · have hshort : calls.length + 1 ≤ maxLogEntries := Nat.lt_of_not_le hfull
      have hbefore : calls.length ≤ maxLogEntries := Nat.le_of_succ_le hshort
      rw [take_of_length_le hbefore, take_of_length_le (by simpa)]
      simp only [forall_mem_append, forall_mem_singleton]
      by_cases hall : ∀ call ∈ calls, Cuttable call.message
      · rw [if_pos hall]
        by_cases hcut : Cuttable call.message
        · rw [if_pos ⟨hall, hcut⟩]
          simp [log, hcut, hfull, hshort, hbefore]
        · simp [log, hcut, hfull, hbefore]
      · rw [if_neg hall, if_neg fun h => hall h.1]
        rfl

/-- The entry keeps a call: its message in full, or some of it before the suffix. -/
structure LogEntry.Keeps (entry call : LogEntry) : Prop where
  level : entry.level = call.level
  time : entry.timestampMillis = call.timestampMillis
  message : ∃ cut, cut <+: call.message ∧ Utf8.byteLen cut ≤ maxLogMessageBytes ∧
    (entry.message = cut ∨ entry.message = cut ++ truncationSuffix)

theorem exists_cut {message : List Char} (h : Cuttable message) :
    ∃ cut, cut <+: message ∧ Utf8.byteLen cut ≤ maxLogMessageBytes ∧
      (truncateMessage message = cut ∨ truncateMessage message = cut ++ truncationSuffix) := by
  unfold truncateMessage
  split
  · next hlong =>
    obtain ⟨cut, rest, rfl, hcut⟩ :=
      Utf8.isCharBoundary_iff.1 (h.resolve_left (Nat.not_le_of_gt hlong))
    rw [← hcut, Utf8.sliceTo_append]
    exact ⟨cut, prefix_append _ _, Nat.le_refl _, Or.inr rfl⟩
  · next hshort => exact ⟨message, prefix_rfl, Nat.le_of_not_gt hshort, Or.inl rfl⟩

/-- The host gets through the calls, and keeps the first ones and counts the others, exactly if
none of the first messages is cut inside of a character. -/
theorem guest_log_iff (calls : List LogEntry) :
    (∃ state, calls.foldlM log .new = some state ∧ state.logs.length ≤ maxLogEntries ∧
      List.Forall₂ LogEntry.Keeps state.logs (calls.take maxLogEntries) ∧
      state.logs.length + state.logsDropped = calls.length) ↔
      ∀ call ∈ calls.take maxLogEntries, Cuttable call.message := by
  rw [foldlM_log]
  split
  · next hcut =>
    refine iff_of_true ⟨_, rfl, ?_, ?_, ?_⟩ hcut
    · exact (length_map _).trans_le (length_take_le _ _)
    · refine forall₂_map_left_iff.2 (forall₂_same.2 fun call hcall => ?_)
      exact ⟨rfl, rfl, exists_cut (hcut call hcall)⟩
    · simp
      omega
  · next hcut => exact iff_of_false nofun hcut

theorem guest_log_cut_character :
    ([⟨.info, List.replicate 1366 '€', 0⟩].foldlM log .new).isNone = true := by
  decide +kernel

end Axinite.Tools
