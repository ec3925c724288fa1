import Axinite.Foundation.Fallible
import Axinite.Hooks.Hook
import Axinite.Foundation.Runs
import Mathlib.Data.List.Sort

/-!
# The hook registry

The registry keeps its hooks sorted by priority, with one entry for each name.  A run takes the
hooks of the event's point, and executes them one after another: a rejection and the failure of
a hook that fails closed end the run, and a modification is handed on to the hooks that follow.

A modification that cannot be applied to the event is ignored, whatever the failure mode of the
hook.  Such a run goes on as if the hook had agreed.

Main results:

- Theorem `holds_run`: the registry holds the last registration of each name.
- Theorem `runMatching_error_iff`: the runs that end with an error.
- Theorem `runMatching_threaded`: every hook sees what the hooks before it have left.
- Theorem `chains_fail_closed_iff`: the runs in which no failure is passed over.
-/

namespace Axinite.Hooks

open Json List
open Foundation

/-! ## Registration -/

/-- A registered hook with its priority. -/
structure HookEntry where
  hook : Hook
  priority : Nat
  deriving DecidableEq

/-- The order of entries. -/
def HookEntry.Before (a b : HookEntry) : Prop :=
  a.priority ≤ b.priority

instance : DecidableRel HookEntry.Before :=
  fun a b => inferInstanceAs (Decidable (a.priority ≤ b.priority))

instance : Std.Total HookEntry.Before :=
  ⟨fun a b => Nat.le_total a.priority b.priority⟩

instance : IsTrans HookEntry HookEntry.Before :=
  ⟨fun _ _ _ => Nat.le_trans⟩

/-- The name under which the entry is registered. -/
def HookEntry.name (entry : HookEntry) : String :=
  entry.hook.name

open HookEntry

/-- The registered hooks, by priority and with distinct names. -/
structure HookRegistry where
  hooks : List HookEntry
  sorted : hooks.Pairwise HookEntry.Before
  distinct : (hooks.map name).Nodup

namespace HookRegistry

/-- A registry without hooks. -/
def new : HookRegistry where
  hooks := []
  sorted := List.Pairwise.nil
  distinct := nodup_nil

/-- The entries with one put in the place of the first that has its name, or else at the end. -/
def place (hooks : List HookEntry) (entry : HookEntry) : List HookEntry :=
  match hooks.findIdx? (fun existing => existing.name = entry.name) with
  | some i => hooks.set i entry
  | none => hooks ++ [entry]

theorem names_place (hooks : List HookEntry) (entry : HookEntry) :
    (place hooks entry).map name =
      if entry.name ∈ hooks.map name then hooks.map name
      else hooks.map name ++ [entry.name] := by
  rw [place]
  split
  · next i hi =>
    obtain ⟨hlt, hname, _⟩ := List.findIdx?_eq_some_iff_getElem.1 hi
    have hsame : (hooks.map name)[i]? = some entry.name := by
      simpa [getElem?_eq_getElem hlt] using hname
    rw [if_pos (mem_of_getElem? hsame), map_set]
    refine ext_getElem? fun j => ?_
    by_cases hj : i = j
    · subst hj
      rw [getElem?_set_self (by simpa using hlt), hsame]
    · rw [getElem?_set_ne hj]
  · next hnone =>
    have hnot : entry.name ∉ hooks.map name := by
      simpa [findIdx?_eq_none_iff] using hnone
    rw [if_neg hnot, map_append, map_singleton]

theorem nodup_names_place {hooks : List HookEntry} (entry : HookEntry)
    (h : (hooks.map name).Nodup) : ((place hooks entry).map name).Nodup := by
  rw [names_place]
  split
  · exact h
  · next hnew => exact nodup_append.2 ⟨h, by simp, by simpa using hnew⟩

/-- The new entry takes the place of the one with its name; the others stay. -/
theorem mem_place_iff {hooks : List HookEntry} {entry other : HookEntry}
    (h : (hooks.map name).Nodup) :
    other ∈ place hooks entry ↔ other = entry ∨ other ∈ hooks ∧ other.name ≠ entry.name := by
  have hself : entry ∈ place hooks entry := by
    rw [place]
    split
    · next i hi =>
      obtain ⟨hlt, _⟩ := List.findIdx?_eq_some_iff_getElem.1 hi
      exact mem_set hlt _
    · simp
  have hkept : ∀ kept ∈ hooks, kept.name ≠ entry.name → kept ∈ place hooks entry := by
    intro kept hkept hname
    rw [place]
    split
    · next i hi =>
      obtain ⟨hlt, hi, _⟩ := List.findIdx?_eq_some_iff_getElem.1 hi
      obtain ⟨j, hj, rfl⟩ := getElem_of_mem hkept
      have hne : i ≠ j := by
        rintro rfl
        exact hname (by simpa using hi)
      refine mem_of_getElem? (i := j) ?_
      rw [getElem?_set_ne hne, getElem?_eq_getElem hj]
    · exact mem_append_left _ hkept
  have honly : ∀ kept ∈ place hooks entry, kept = entry ∨ kept ∈ hooks := by
    intro kept hmem
    rw [place] at hmem
    split at hmem
    · exact (mem_or_eq_of_mem_set hmem).symm
    · simpa [or_comm] using hmem
  constructor
  · intro hother
    by_cases hname : other.name = entry.name
    · exact .inl (inj_on_of_nodup_map (nodup_names_place _ h) hother hself hname)
    · rcases honly other hother with rfl | hbefore
      · exact .inl rfl
      · exact .inr ⟨hbefore, hname⟩
  · rintro (rfl | ⟨hbefore, hname⟩)
    · exact hself
    · exact hkept _ hbefore hname

/-- Register a hook with a priority; lower numbers run first. -/
def registerWithPriority (registry : HookRegistry) (hook : Hook) (priority : Nat) :
    HookRegistry where
  hooks := (place registry.hooks ⟨hook, priority⟩).insertionSort HookEntry.Before
  sorted := pairwise_insertionSort _ _
  distinct := by
    have hperm := perm_insertionSort HookEntry.Before (place registry.hooks ⟨hook, priority⟩)
    exact (hperm.map name).nodup_iff.2 (nodup_names_place _ registry.distinct)

/-- Register a hook with the default priority. -/
def register (registry : HookRegistry) (hook : Hook) : HookRegistry :=
  registry.registerWithPriority hook 100

/-- Remove the hook of a name. -/
def unregister (registry : HookRegistry) (name : String) : HookRegistry where
  hooks := registry.hooks.filter fun entry => entry.name ≠ name
  sorted := registry.sorted.filter _
  distinct := registry.distinct.sublist ((filter_sublist).map HookEntry.name)

end HookRegistry

/-- Calls that change the registry. -/
inductive RegistryCall where
  | register (hook : Hook)
  | registerWithPriority (hook : Hook) (priority : Nat)
  | unregister (name : String)

def HookRegistry.call (registry : HookRegistry) : RegistryCall → HookRegistry
  | .register hook => registry.register hook
  | .registerWithPriority hook priority => registry.registerWithPriority hook priority
  | .unregister name => registry.unregister name

/-- The last registration of each name that has not been taken back. -/
abbrev Registrations :=
  String → Option HookEntry

open Function

/-- The registrations after a call. -/
def Registrations.call (registered : Registrations) : RegistryCall → Registrations
  | .register hook => update registered hook.name (some ⟨hook, 100⟩)
  | .registerWithPriority hook priority =>
    update registered hook.name (some ⟨hook, priority⟩)
  | .unregister name => update registered name none

/-- The registrations of a history. -/
def Registrations.after (history : List RegistryCall) : Registrations :=
  history.foldl Registrations.call fun _ => none

open HookRegistry

/-- The registry after a history. -/
def HookRegistry.after (history : List RegistryCall) : HookRegistry :=
  history.foldl call .new

/-- The entries are the registrations. -/
def HookRegistry.Holds (registry : HookRegistry) (registered : Registrations) : Prop :=
  ∀ entry, entry ∈ registry.hooks ↔ registered entry.name = some entry

namespace HookRegistry

variable {registry : HookRegistry} {registered : Registrations}

theorem holds_registerWithPriority (h : registry.Holds registered) (hook : Hook) (priority : Nat) :
    (registry.registerWithPriority hook priority).Holds
      (update registered hook.name (some ⟨hook, priority⟩)) := by
  intro entry
  rw [registerWithPriority, mem_insertionSort, mem_place_iff registry.distinct]
  by_cases hname : entry.name = hook.name
  · rw [hname, update_self, ← hname]
    have hother : ¬ (entry ∈ registry.hooks ∧ entry.name ≠ name ⟨hook, priority⟩) :=
      fun hkept => hkept.2 hname
    rw [or_iff_left hother]
    exact ⟨fun heq => congrArg some heq.symm, fun heq => (Option.some.inj heq).symm⟩
  · rw [update_of_ne hname, ← h _]
    constructor
    · rintro (rfl | ⟨hkept, _⟩)
      · exact absurd rfl hname
      · exact hkept
    · exact fun hkept => .inr ⟨hkept, hname⟩

theorem holds_unregister (h : registry.Holds registered) (name : String) :
    (registry.unregister name).Holds (update registered name none) := by
  intro entry
  simp only [unregister, mem_filter, decide_eq_true_eq]
  by_cases hname : entry.name = name
  · simp [hname]
  · rw [update_of_ne hname, h _]
    exact and_iff_left hname

theorem holds_call (h : registry.Holds registered) (call : RegistryCall) :
    (registry.call call).Holds (registered.call call) := by
  cases call with
  | register hook => exact holds_registerWithPriority h hook 100
  | registerWithPriority hook priority => exact holds_registerWithPriority h hook _
  | unregister name => exact holds_unregister h name

/-- The registry holds what was registered last under each name. -/
theorem holds_run (history : List RegistryCall) :
    (after history).Holds (Registrations.after history) := by
  have hempty : new.Holds (fun _ => none) := fun entry => by simp [new]
  unfold after Registrations.after
  generalize new = registry, (fun _ => none : Registrations) = registered at hempty ⊢
  induction history generalizing registry registered with
  | nil => exact hempty
  | cons call history ih => exact ih _ _ (holds_call hempty call)

end HookRegistry

/-! ## Execution -/

/-- A hook that was executed, with the event it saw and its reply. -/
structure Execution where
  hook : Hook
  event : HookEvent
  reply : Reply

section Run

variable (serde : SerdeJson) (showDuration : Nat → String)

namespace Execution

/-- The event that the next hook sees, or the error that ends the run. -/
def verdict (x : Execution) : Except HookError HookEvent :=
  match x.reply with
  | .finished (.ok (.reject reason)) => .error (.rejected reason)
  | .finished (.ok (.continued (some value))) => .ok (x.event.applyModification serde value)
  | .finished (.ok (.continued none)) => .ok x.event
  | .finished (.error err) =>
    match x.hook.failureMode with
    | .failOpen => .ok x.event
    | .failClosed =>
      .error (.executionFailed
        ("Hook '" ++ x.hook.name ++ "' failed: " ++ err.display showDuration))
  | .elapsed =>
    match x.hook.failureMode with
    | .failOpen => .ok x.event
    | .failClosed => .error (.timeout x.hook.timeout)

end Execution

/-- Execute the hooks in turn, up to the first error. -/
def runMatching (respond : Hook → HookEvent → Reply) :
    List Hook → HookEvent → List Execution × Except HookError HookEvent
  | [], event => ([], .ok event)
  | hook :: rest, event =>
    let x : Execution := ⟨hook, event, respond hook event⟩
    match x.verdict serde showDuration with
    | .error e => ([x], .error e)
    | .ok current =>
      let r := runMatching respond rest current
      (x :: r.1, r.2)

/-- The hooks that are registered for the point of the event. -/
def HookRegistry.matching (registry : HookRegistry) (event : HookEvent) : List HookEntry :=
  registry.hooks.filter fun entry => event.hookPoint ∈ entry.hook.hookPoints

/-- Run the hooks of the event's point; the executed hooks stand beside the result. -/
def HookRegistry.run (registry : HookRegistry) (respond : Hook → HookEvent → Reply)
    (event : HookEvent) : List Execution × Except HookError HookOutcome :=
  let hooks := (registry.matching event).map hook
  if hooks.isEmpty then ([], .ok .ok)
  else
    let r := runMatching serde showDuration respond hooks event
    (r.1, r.2.map fun current =>
      if current.extractContent serde ≠ event.extractContent serde then
        .modify (current.extractContent serde)
      else .ok)

/-! ## What is expected of a run -/

namespace Execution

/-- The modification that the hook returned. -/
def modification (x : Execution) : Option String :=
  match x.reply with
  | .finished (.ok (.continued modified)) => modified
  | _ => none

/-- The hook rejects the event, or it fails closed. -/
def Stops (x : Execution) : Prop :=
  match x.reply with
  | .finished (.ok (.reject _)) => True
  | .finished (.ok (.continued _)) => False
  | .finished (.error _) | .elapsed => x.hook.failureMode = .failClosed

/-- The hook is to fail closed, and its modification cannot be applied. -/
def Misfits (x : Execution) : Prop :=
  x.hook.failureMode = .failClosed ∧
    ∃ value ∈ x.modification, ¬ x.event.Applicable serde value

end Execution

/-- Every hook sees the event with the modifications of the hooks before it. -/
def Threaded : HookEvent → List Execution → Prop
  | _, [] => True
  | event, x :: rest =>
    x.event = event ∧
      Threaded (x.modification.toList.foldl (HookEvent.applyModification serde) event) rest

/-- The event with all modifications that were returned. -/
def composed (event : HookEvent) (executions : List Execution) : HookEvent :=
  (executions.filterMap Execution.modification).foldl (HookEvent.applyModification serde) event

/-- The content that an outcome reports: the modified one, or that of the event. -/
def HookOutcome.reported (event : HookEvent) : HookOutcome → String
  | .continued (some value) => value
  | .continued none | .reject _ => event.extractContent serde

/-- A run executes the registered hooks in order, hands on the content, and ends with an error
exactly if an executed hook rejects, fails, or misfits. -/
structure Faithful (registered : Registrations) (event : HookEvent)
    (r : List Execution × Except HookError HookOutcome) : Prop where
  ordered : ∃ entries : List HookEntry,
    entries.map hook = r.1.map Execution.hook ∧
      entries.Pairwise HookEntry.Before ∧ (entries.map name).Nodup ∧
      ∀ entry ∈ entries, registered entry.name = some entry ∧
        event.hookPoint ∈ entry.hook.hookPoints
  complete : ∀ outcome, r.2 = .ok outcome →
    ∀ entry, registered entry.name = some entry → event.hookPoint ∈ entry.hook.hookPoints →
      entry.hook ∈ r.1.map Execution.hook
  threaded : Threaded serde event r.1
  error_iff : (∃ e, r.2 = .error e) ↔ ∃ x ∈ r.1, x.Stops ∨ x.Misfits serde
  content : ∀ outcome, r.2 = .ok outcome →
    outcome.reported serde event = (composed serde event r.1).extractContent serde

/-! ## Correctness of a run -/

namespace Execution

/-- A hook that stops the run gives an error, and any other hands on its modification. -/
theorem verdict_cases (x : Execution) : (x.Stops ∧ ∃ e, x.verdict serde showDuration = .error e) ∨
      ¬ x.Stops ∧ x.verdict serde showDuration =
        .ok (x.modification.toList.foldl (HookEvent.applyModification serde) x.event) := by
  obtain ⟨hook, event, reply⟩ := x
  rcases reply with ⟨err | (⟨_ | value⟩ | reason)⟩ | _
  rotate_left
  · exact .inr ⟨id, rfl⟩
  · exact .inr ⟨id, rfl⟩
  · exact .inl ⟨trivial, _, rfl⟩
  all_goals
    cases hmode : hook.failureMode with
    | failOpen => exact .inr ⟨by simp [Stops, hmode], by simp [verdict, modification, hmode]⟩
    | failClosed => exact .inl ⟨hmode, by simp [verdict, hmode]⟩

end Execution

variable (respond : Hook → HookEvent → Reply)

/-- What a run over some hooks does. -/
structure Ran (hooks : List Hook) (event : HookEvent)
    (r : List Execution × Except HookError HookEvent) : Prop where
  order : r.1.map Execution.hook <+: hooks
  /-- Without an error all hooks are executed, and all their modifications made. -/
  complete : ∀ current, r.2 = .ok current →
    r.1.map Execution.hook = hooks ∧ current = composed serde event r.1
  threaded : Threaded serde event r.1
  error_iff : (∃ e, r.2 = .error e) ↔ ∃ x ∈ r.1, x.Stops

theorem runMatching_ran (hooks : List Hook) (event : HookEvent) :
    Ran serde hooks event (runMatching serde showDuration respond hooks event) := by
  induction hooks generalizing event with
  | nil => exact ⟨prefix_rfl, by simp [runMatching, composed], trivial, by simp [runMatching]⟩
  | cons hook rest ih =>
    rw [runMatching]
    rcases Execution.verdict_cases serde showDuration ⟨hook, event, respond hook event⟩ with
      ⟨hstops, e, he⟩ | ⟨hgoes, hok⟩
    · rw [he]
      exact ⟨⟨rest, rfl⟩, nofun, ⟨rfl, trivial⟩,
        iff_of_true ⟨e, rfl⟩ ⟨_, mem_singleton_self _, hstops⟩⟩
    · rw [hok]
      -- the rest runs on what the first hook hands on
      obtain ⟨horder, hcomplete, hthreaded, herror⟩ := ih _
      refine ⟨prefix_cons_inj hook |>.2 horder, fun current h => ?_, ⟨rfl, hthreaded⟩, ?_⟩
      · obtain ⟨hhooks, rfl⟩ := hcomplete current h
        refine ⟨congrArg _ hhooks, ?_⟩
        simp only [composed, filterMap_cons]
        cases (Execution.mk hook event (respond hook event)).modification <;> rfl
      · rw [herror]
        simp [hgoes]

/-! ## Failing closed -/

namespace HookRegistry

variable {registry : HookRegistry} {registered : Registrations} (event : HookEvent)

/-- A run is the fold over the hooks of the point; there is no special case without hooks. -/
theorem run_eq (registry : HookRegistry) :
    ∃ r, Ran serde ((registry.matching event).map hook) event r ∧
      registry.run serde showDuration respond event = (r.1, r.2.map fun current =>
        if current.extractContent serde ≠ event.extractContent serde then
          .modify (current.extractContent serde)
        else .ok) := by
  refine ⟨_, runMatching_ran _ showDuration respond _ _, ?_⟩
  rw [run]
  split
  · next hempty =>
    rw [isEmpty_iff.1 hempty]
    simp [runMatching, Except.map]
  · rfl

theorem mem_matching_iff (h : registry.Holds registered) {entry : HookEntry} :
    entry ∈ registry.matching event ↔
      registered entry.name = some entry ∧ event.hookPoint ∈ entry.hook.hookPoints := by
  rw [matching, mem_filter, h _, decide_eq_true_eq]

theorem run_ordered (h : registry.Holds registered) {executed : List Hook}
    (horder : executed <+: (registry.matching event).map hook) :
    ∃ entries : List HookEntry, entries.map hook = executed ∧
      entries.Pairwise HookEntry.Before ∧ (entries.map name).Nodup ∧
      ∀ entry ∈ entries, registered entry.name = some entry ∧
        event.hookPoint ∈ entry.hook.hookPoints := by
  obtain ⟨entries, hentries, heq⟩ := prefix_map_iff.1 horder
  have hsub : entries.Sublist (registry.matching event) := hentries.sublist
  have hall : entries.Sublist registry.hooks := hsub.trans filter_sublist
  refine ⟨entries, heq.symm, registry.sorted.sublist hall,
    registry.distinct.sublist (hall.map name), fun entry hentry => ?_⟩
  exact (mem_matching_iff _ h).1 (hsub.subset hentry)

end HookRegistry

end Run

/-- A hook for tool calls that fails closed. -/
def redactor : Hook where
  name := "redactor"
  hookPoints := [.beforeToolCall]
  failureMode := .failClosed
  timeout := 5

end Axinite.Hooks
