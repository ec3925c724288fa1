import Axinite.Context.Manager
import Axinite.Foundation.Schedule
import Mathlib.Algebra.Group.Prod
import Mathlib.Algebra.Order.Group.Multiset
import Mathlib.Data.Multiset.ZeroCons

/-!
# Contexts and memories belong together

A job has a context exactly if it has a memory, except while a call is in between its two
critical sections.  A creation owns the context that has no memory yet, and a removal owns
the memory that has no context any more.  The pairing is lost when a job is removed while its
creation is still running: then the removal finds no memory, and the creation inserts one
for a job that is gone.

Main results:

- Theorem `safe_contextCall`: every call keeps the pairing invariant, whatever the others do.
- Theorem `quiescent_paired`: if no job is removed during its creation, contexts and
  memories belong to the same jobs whenever no call is running.
- Theorem `removed_during_creation`: without that condition a memory is left behind.
-/

namespace Axinite.Context

open Foundation Program

/-- The programs that may start. -/
def IsContextCall (p : ContextProgram Unit) : Prop :=
  ∃ call : ContextCall, p = call.program

/-- The context of a job is removed only when the job has its memory. -/
def AfterCreation : ContextOp → ContextManager → Prop
  | .removeContext jobId, m => jobId ∈ m.contexts → jobId ∈ m.memories
  | _, _ => True

instance (op : ContextOp) (m : ContextManager) : Decidable (AfterCreation op m) := by
  cases op <;> unfold AfterCreation <;> infer_instance

/-! ## Invariant -/

/-- The jobs that running calls have in hand: those that are being created and those that are
being removed. -/
abbrev InHand := Multiset Uuid × Multiset Uuid

/-- The jobs with only one of context and memory are in hand once, no others are, and identifiers
are not used again. -/
structure PairInv (m : ContextManager) (hand : InHand) : Prop where
  ids : ∀ id, id ∈ m.contexts ∨ id ∈ m.memories → id < m.nextUuid
  creating : ∀ id, hand.1.count id = if id ∈ m.contexts ∧ id ∉ m.memories then 1 else 0
  removing : ∀ id, hand.2.count id = if id ∉ m.contexts ∧ id ∈ m.memories then 1 else 0

theorem PairInv.new (maxJobs : Nat) : PairInv (ContextManager.new maxJobs) 0 where
  ids := by simp [ContextManager.new]
  creating := by simp [ContextManager.new]
  removing := by simp [ContextManager.new]

/-- Only the identifiers of the jobs matter. -/
theorem PairInv.of_mem_iff {m m' : ContextManager} {hand : InHand} (h : PairInv m hand)
    (hnext : m'.nextUuid = m.nextUuid) (hcontexts : ∀ id, id ∈ m'.contexts ↔ id ∈ m.contexts)
    (hmemories : ∀ id, id ∈ m'.memories ↔ id ∈ m.memories) : PairInv m' hand := by
  refine ⟨fun id => ?_, fun id => ?_, fun id => ?_⟩
  · simpa only [hcontexts, hmemories, hnext] using h.ids id
  · simpa only [hcontexts, hmemories] using h.creating id
  · simpa only [hcontexts, hmemories] using h.removing id

/-- A new value of a key does not change the keys. -/
theorem mem_insert_of_lookup {α β : Type} [DecidableEq α] {map : AList fun _ : α => β} {key : α}
    {old : β} (h : map.lookup key = some old) (new : β) (id : α) :
    id ∈ map.insert key new ↔ id ∈ map := by
  have hmem : key ∈ map := AList.lookup_isSome.1 (by rw [h]; rfl)
  rw [AList.mem_insert]
  exact or_iff_right_of_imp fun heq => heq ▸ hmem

open ContextManager

theorem mem_updateContext {R : Type} (jobId : Uuid) (f : JobContext → R × JobContext)
    (m : ContextManager) (id : Uuid) :
    id ∈ (m.updateContext jobId f).2.contexts ↔ id ∈ m.contexts := by
  unfold updateContext
  cases hlookup : m.contexts.lookup jobId with
  | none => exact .rfl
  | some ctx => exact mem_insert_of_lookup hlookup _ id

theorem mem_updateMemory {R : Type} (jobId : Uuid) (f : Memory → R × Memory)
    (m : ContextManager) (id : Uuid) :
    id ∈ (m.updateMemory jobId f).2.memories ↔ id ∈ m.memories := by
  unfold updateMemory
  cases hlookup : m.memories.lookup jobId with
  | none => exact .rfl
  | some memory => exact mem_insert_of_lookup hlookup _ id

/-! ## Steps -/

variable {m : ContextManager} {hand : InHand} (jobId : Uuid)

/-- Creating a context takes a job in hand that is new. -/
theorem PairInv.createContext (h : PairInv m hand) (now : Timestamp)
    (userId title description : String) :
    PairInv { m with
        contexts := m.contexts.insert m.nextUuid
          (JobContext.withUser now m.nextUuid userId title description)
        nextUuid := m.nextUuid + 1 } (({m.nextUuid}, 0) + hand) := by
  have hcontext : m.nextUuid ∉ m.contexts := fun hid => (h.ids _ (.inl hid)).false
  have hmemory : m.nextUuid ∉ m.memories := fun hid => (h.ids _ (.inr hid)).false
  refine ⟨fun id hid => ?_, fun id => ?_, fun id => ?_⟩
  · by_cases heq : id = m.nextUuid
    · exact Nat.lt_succ_of_le heq.le
    · exact Nat.lt_succ_of_lt (h.ids id (by simpa [heq] using hid))
  · by_cases heq : id = m.nextUuid
    · simp [heq, h.creating, hcontext, hmemory]
    · simp [heq, h.creating]
  · by_cases heq : id = m.nextUuid
    · simp [heq, h.removing, hmemory]
    · simp [heq, h.removing]

/-- Inserting the memory of a job in hand completes its creation. -/
theorem PairInv.insertMemory {jobId : Uuid} (h : PairInv m (({jobId}, 0) + hand)) :
    PairInv { m with memories := m.memories.insert jobId (Memory.new jobId) } hand := by
  have hcount := h.creating jobId
  have hpaired : jobId ∈ m.contexts ∧ jobId ∉ m.memories := by
    by_contra hnot
    simp [hnot] at hcount
  refine ⟨fun id hid => ?_, fun id => ?_, fun id => ?_⟩
  · by_cases heq : id = jobId
    · exact h.ids id (.inl (heq ▸ hpaired.1))
    · exact h.ids id (by simpa [heq] using hid)
  · by_cases heq : id = jobId
    · simpa [heq, hpaired] using hcount
    · simpa [heq] using h.creating id
  · by_cases heq : id = jobId
    · simpa [heq, hpaired] using h.removing jobId
    · simpa [heq] using h.removing id

/-- Removing the context of a job that has its memory takes the job in hand. -/
theorem PairInv.removeContext (h : PairInv m hand) {jobId : Uuid} (hcontext : jobId ∈ m.contexts)
    (hmemory : jobId ∈ m.memories) :
    PairInv { m with contexts := m.contexts.erase jobId } ((0, {jobId}) + hand) := by
  refine ⟨fun id hid => h.ids id (hid.imp_left fun hid => (AList.mem_erase.1 hid).2), fun id => ?_,
    fun id => ?_⟩
  · by_cases heq : id = jobId
    · simp [heq, h.creating, hmemory]
    · simp [heq, h.creating]
  · by_cases heq : id = jobId
    · simp [heq, h.removing, hcontext, hmemory]
    · simp [heq, h.removing]

/-- Removing the memory of a job in hand completes its removal. -/
theorem PairInv.removeMemory {jobId : Uuid} (h : PairInv m ((0, {jobId}) + hand)) :
    PairInv { m with memories := m.memories.erase jobId } hand := by
  have hcount := h.removing jobId
  have hpaired : jobId ∉ m.contexts ∧ jobId ∈ m.memories := by
    by_contra hnot
    simp [hnot] at hcount
  refine ⟨fun id hid => h.ids id (hid.imp_right fun hid => (AList.mem_erase.1 hid).2), fun id => ?_,
    fun id => ?_⟩
  · by_cases heq : id = jobId
    · simpa [heq, hpaired] using h.creating jobId
    · simpa [heq] using h.creating id
  · by_cases heq : id = jobId
    · simpa [heq, hpaired] using hcount
    · simpa [heq] using h.removing id

/-! ## Calls -/

open ContextOp

/-- The rule for a call of the manager that gives back what it takes in hand. -/
abbrev KeepsPairs {α : Type} (p : ContextProgram α) : Prop :=
  Safe exec AfterCreation PairInv p 0 fun _ hand => hand = 0

theorem keepsPairs_createJobForUser (now : Timestamp) (userId title description : String) :
    KeepsPairs (createJobForUser now userId title description) := by
  intro m others hinv _
  by_cases hfull : m.activeCount ≥ m.maxJobs
  · refine ⟨0, ?_, ?_⟩
    · simpa only [exec, ContextManager.createContext, if_pos hfull] using hinv
    · simp only [exec, ContextManager.createContext, if_pos hfull]
      rfl
  · refine ⟨({m.nextUuid}, 0), ?_, ?_⟩
    · simp only [exec, ContextManager.createContext, if_neg hfull]
      rw [zero_add] at hinv
      exact hinv.createContext now _ _ _
    · simp only [exec, ContextManager.createContext, if_neg hfull]
      intro m' others' hinv' _
      exact ⟨0, by rw [zero_add]; exact hinv'.insertMemory, rfl⟩

theorem keepsPairs_removeJob : KeepsPairs (removeJob jobId) := by
  intro m others hinv hok
  rw [zero_add] at hinv
  cases hlookup : m.contexts.lookup jobId with
  | none =>
    -- there is no such context, and nothing is erased
    have hcontext : jobId ∉ m.contexts := AList.lookup_eq_none.1 hlookup
    refine ⟨0, ?_, ?_⟩
    · rw [zero_add]
      refine hinv.of_mem_iff rfl (fun id => ?_) fun id => .rfl
      simp only [exec, AList.mem_erase]
      exact ⟨fun hid => hid.2, fun hid => ⟨fun heq => hcontext (heq ▸ hid), hid⟩⟩
    · simp only [exec, hlookup]
      rfl
  | some ctx =>
    have hcontext : jobId ∈ m.contexts := AList.lookup_isSome.1 (by rw [hlookup]; rfl)
    refine ⟨(0, {jobId}), hinv.removeContext hcontext (hok hcontext), ?_⟩
    simp only [exec, hlookup]
    intro m' others' hinv' _
    refine ⟨0, by rw [zero_add]; exact hinv'.removeMemory, ?_⟩
    generalize ((removeMemory jobId).exec m').1 = answer
    cases answer with
    | none | some _ => rfl

/-- An update keeps the jobs as they are. -/
theorem keepsPairs_updateContext (f : JobContext → JobContext) :
    KeepsPairs (locked (.updateContext jobId f)) := by
  intro m others hinv _
  refine ⟨0, hinv.of_mem_iff ?_ (mem_updateContext _ _ m) ?_, rfl⟩
  · simp only [exec, ContextManager.updateContext]
    split <;> rfl
  · intro id
    simp only [exec, ContextManager.updateContext]
    split <;> rfl

theorem keepsPairs_updateMemory (f : Memory → Memory) :
    KeepsPairs (locked (.updateMemory jobId f)) := by
  intro m others hinv _
  refine ⟨0, hinv.of_mem_iff ?_ ?_ (mem_updateMemory _ _ m), rfl⟩
  · simp only [exec, ContextManager.updateMemory]
    split <;> rfl
  · intro id
    simp only [exec, ContextManager.updateMemory]
    split <;> rfl

/-- Every call keeps the pairing invariant and gives back what it takes in hand. -/
theorem safe_contextCall (p : ContextProgram Unit) (hp : IsContextCall p) : KeepsPairs p := by
  rcases hp with ⟨call, rfl⟩
  cases call with
  | createJobForUser now userId title description =>
    exact (keepsPairs_createJobForUser now _ _ _).bind fun _ _ h => h
  | removeJob jobId => exact (keepsPairs_removeJob _).bind fun _ _ h => h
  | updateContext jobId f => exact (keepsPairs_updateContext _ f).bind fun _ _ h => h
  | updateMemory jobId f => exact (keepsPairs_updateMemory _ f).bind fun _ _ h => h

/-- If no job is removed during its creation, the jobs with a context are those with a memory
whenever no call is running. -/
theorem quiescent_paired {maxJobs : Nat} {c : Config ContextOp ContextOp.Resp ContextManager}
    (hc : Reachable exec AfterCreation IsContextCall (new maxJobs) c)
    (hdone : c.Quiescent) (id : Uuid) : id ∈ c.shared.contexts ↔ id ∈ c.shared.memories := by
  have hinv := adequacy_quiescent safe_contextCall (.new _) hc hdone
  have hcreating : ¬ (id ∈ c.shared.contexts ∧ id ∉ c.shared.memories) := by
    simpa using hinv.creating id
  have hremoving : ¬ (id ∉ c.shared.contexts ∧ id ∈ c.shared.memories) := by
    simpa using hinv.removing id
  by_cases hcontext : id ∈ c.shared.contexts
  · exact iff_of_true hcontext (by_contra fun hm => hcreating ⟨hcontext, hm⟩)
  · exact iff_of_false hcontext fun hm => hremoving ⟨hcontext, hm⟩

/-! ## Sample runs -/

/-- The creation of a job and the removal of the first job. -/
def createAndRemove : List (Move ContextCall) :=
  [.spawn (.createJobForUser 0 "user" "title" "description"), .spawn (.removeJob 0)]

/-- Run choices of the scheduler on a manager for two jobs. -/
def runMoves (moves : List (Move ContextCall)) :
    Config ContextOp ContextOp.Resp ContextManager :=
  moves.foldl (Config.move exec ContextCall.program) ⟨new 2, []⟩

theorem quiescent_paired_sequential :
    (runMoves (createAndRemove ++ [.advance 0, .advance 0, .advance 1, .advance 1])).Quiescent ∧
      ((0 : Uuid) ∈ (runMoves (createAndRemove ++
          [.advance 0, .advance 0, .advance 1, .advance 1])).shared.contexts ↔
        (0 : Uuid) ∈ (runMoves (createAndRemove ++
          [.advance 0, .advance 0, .advance 1, .advance 1])).shared.memories) := by
  have hdone := quiescent_of_allDone (c := runMoves (createAndRemove ++
    [.advance 0, .advance 0, .advance 1, .advance 1])) (by decide +kernel)
  exact ⟨hdone, quiescent_paired (.of_moves (by decide +kernel)) hdone 0⟩

/-- The removal comes between the two critical sections of the creation, and a memory without
a context is left behind. -/
theorem removed_during_creation :
    ∃ c, Reachable exec (fun _ _ => True) IsContextCall (new 2) c ∧
      c.Quiescent ∧ (0 : Uuid) ∉ c.shared.contexts ∧ (0 : Uuid) ∈ c.shared.memories := by
  refine ⟨runMoves (createAndRemove ++ [.advance 0, .advance 1, .advance 1, .advance 0]),
    .of_moves (by decide +kernel), quiescent_of_allDone (by decide +kernel), ?_⟩
  decide +kernel

end Axinite.Context
