import Axinite.Foundation.Interleaving
import Axinite.ThreadOps.World
import Mathlib.Algebra.Group.Prod
import Mathlib.Algebra.Order.Group.Multiset
import Mathlib.Data.Multiset.UnionInter

/-!
# The ledger of request identifiers

The request identifier of an approval is handed out once.  From then on it is in one
place: pending in the thread, held by the handler that is about to store or execute it,
or in the list of executed requests.  This module says how the critical sections move
identifiers between these places.

Main results:

- Theorem `OnceInv.step`: moving and dropping identifiers keeps them distinct.
- Theorem `safe_plain`: most critical sections do not need to hold an identifier.
- Theorem `safe_applyCompactionIfFresh`: a snapshot that replaces the thread does not bring
  back an approval that has been taken.
-/

namespace Axinite.Submissions

open Json Session ThreadOps Foundation

/-! ## The invariant -/

/-- What a handler holds: request identifiers, and sightings of the thread.  A sighting is
the time of the last change together with the identifier that was pending. -/
abbrev Holdings :=
  Multiset Uuid × Multiset (Timestamp × Option Uuid)

/-- A handler holds an identifier. -/
def hold (id : Uuid) : Holdings :=
  ({id}, 0)

/-- Identifier of the pending approval. -/
def pendingId (thread : Thread) : Option Uuid :=
  thread.pendingApproval.map PendingApproval.requestId

/-- A handler has seen the thread. -/
def sighting (thread : Thread) : Holdings :=
  (0, {(thread.updatedAt, pendingId thread)})

/-- The identifiers in use: pending, held by a handler, or executed. -/
def ledger (w : World) (held : Multiset Uuid) : Multiset Uuid :=
  ↑(pendingId w.thread).toList + held + ↑w.executed

/-- No identifier is in two places, and sightings of an unchanged thread are up to date. -/
structure OnceInv (w : World) (m : Holdings) : Prop where
  distinct : (ledger w m.1).Nodup
  issued : ∀ id ∈ ledger w m.1, id < w.nextUuid
  seen : ∀ s ∈ m.2, s.1 ≤ w.now ∧ (w.thread.updatedAt = s.1 → pendingId w.thread = s.2)
  past : w.thread.updatedAt ≤ w.now

/-- The thread is not changed, or marked as changed now. -/
def Stamped (w w' : World) : Prop :=
  (w'.thread.updatedAt = w.thread.updatedAt ∧ pendingId w'.thread = pendingId w.thread) ∨
    w'.thread.updatedAt = w'.now

open Multiset

/-- Moving and dropping identifiers keeps the invariant, and so does forgetting sightings. -/
theorem OnceInv.step {w w' : World} {m m' : Holdings} (h : OnceInv w m)
    (hlt : w.now < w'.now) (hstamped : Stamped w w') (huuid : w.nextUuid ≤ w'.nextUuid)
    (hledger : ledger w' m'.1 ≤ ledger w m.1) (hseen : m'.2 ≤ m.2) : OnceInv w' m' where
  distinct := nodup_of_le hledger h.distinct
  issued := by
    intro id hid
    exact lt_of_lt_of_le (h.issued id (mem_of_le hledger hid)) huuid
  seen := by
    intro s hs
    have hsaw := h.seen s (mem_of_le hseen hs)
    refine ⟨hsaw.1.trans hlt.le, fun hupdated => ?_⟩
    rcases hstamped with ⟨hsame, hid⟩ | hstamp
    · rw [hid]
      exact hsaw.2 (hsame.symm.trans hupdated)
    · -- a thread changed now was not seen in its present form
      have hseenNow : w'.now ≤ w.now := by
        rw [← hstamp, hupdated]
        exact hsaw.1
      exact absurd hlt (not_lt.2 hseenNow)
  past := by
    rcases hstamped with ⟨hsame, -⟩ | hstamp
    · rw [hsame]
      exact h.past.trans hlt.le
    · exact hstamp.le

/-! ## What the critical sections do to the ledger -/

/-- An authentication request does not put an approval back. -/
def NoRestaging : ThreadOp → World → Prop
  | .interceptAuth _ (some _) _, _ => False
  | _, _ => True

instance : ∀ op w, Decidable (NoRestaging op w) := by
  intro op w
  unfold NoRestaging
  split <;> infer_instance

/-- The critical section neither stores nor executes an approval, nor does it replace the
thread. -/
def IsPlain : ThreadOp → Prop
  | .awaitApproval _ | .executePrimary _ | .applyCompactionIfFresh _ => False
  | _ => True

variable (serde : SerdeJson) {op : ThreadOp} (w : World)

theorem now_lt_exec (op : ThreadOp) (w : World) : w.now < (op.exec serde w).2.now := by
  rw [ThreadOp.exec_now]
  exact Nat.lt_succ_self _

theorem nextUuid_exec (op : ThreadOp) (w : World) : w.nextUuid ≤ (op.exec serde w).2.nextUuid := by
  cases op <;> first | exact Nat.le_refl _ | exact Nat.le_succ _

/-- Scopes that may leave the thread alone. -/
theorem takePendingApprovalIfAwaiting_cases (now : Timestamp) (thread : Thread) :
    takePendingApprovalIfAwaiting now thread = (none, thread) ∨
      ∃ pending, thread.pendingApproval = some pending ∧
        takePendingApprovalIfAwaiting now thread = (some pending,
          { thread with pendingApproval := none, state := .processing, updatedAt := now }) := by
  rcases htake : takePendingApprovalIfAwaiting now thread with ⟨taken, after⟩
  cases taken with
  | none =>
    rw [takePendingApprovalIfAwaiting_eq_none htake]
    exact .inl rfl
  | some pending =>
    obtain ⟨-, hpending, rfl⟩ := takePendingApprovalIfAwaiting_eq_some htake
    exact .inr ⟨pending, hpending, rfl⟩

/-- A plain critical section that changes the thread stamps it, and it keeps or drops the pending
identifier. -/
theorem plain_exec {w : World} (h : IsPlain op) (hok : NoRestaging op w) :
    Stamped w (op.exec serde w).2 ∧
      (pendingId (op.exec serde w).2.thread = pendingId w.thread ∨
        pendingId (op.exec serde w).2.thread = none) := by
  cases op with
  | takePendingApprovalIfAwaiting =>
    rcases takePendingApprovalIfAwaiting_cases w.tick.now w.tick.thread with
      htake | ⟨pending, -, htake⟩
    · simp only [ThreadOp.exec, ThreadOp.effect, htake]
      exact ⟨.inl ⟨rfl, rfl⟩, .inl rfl⟩
    · simp only [ThreadOp.exec, ThreadOp.effect, htake]
      exact ⟨.inr rfl, .inr rfl⟩
  | interceptAuth instructions pending extName =>
    cases pending with
    | none => exact ⟨.inr rfl, .inl rfl⟩
    | some pending => exact hok.elim
  | finalizeTurn _ | interruptActive | prepareTurn _ _ | compactIfFresh _ _ _
  | restoreIfFresh _ _ _ | claimAuth =>
    -- each branch keeps the thread, or it stamps what it changes
    simp only [ThreadOp.exec, ThreadOp.effect, finalizeTurn, interruptActive,
      ThreadOps.prepareTurn, compactIfFresh, restoreIfFresh, claimAuth]
    split <;> first | exact ⟨.inl ⟨rfl, rfl⟩, .inl rfl⟩ | exact ⟨.inr rfl, .inl rfl⟩
  | awaitApproval _ | executePrimary _ | applyCompactionIfFresh _ => exact h.elim
  | _ =>
    first
    | exact ⟨.inl ⟨rfl, rfl⟩, .inl rfl⟩
    | exact ⟨.inr rfl, .inl rfl⟩
    | exact ⟨.inr rfl, .inr rfl⟩

theorem executed_exec (h : IsPlain op) : (op.exec serde w).2.executed = w.executed := by
  cases op <;> first | rfl | exact h.elim

theorem ledger_exec_le {w : World} (h : IsPlain op) (hok : NoRestaging op w)
    (held : Multiset Uuid) : ledger (op.exec serde w).2 held ≤ ledger w held := by
  unfold ledger
  rw [executed_exec serde w h]
  rcases (plain_exec serde h hok).2 with hid | hid
  · rw [hid]
  · rw [hid]
    exact add_le_add_left (add_le_add_left (zero_le _) _) _

theorem onceInv_exec {w : World} {m : Holdings} (h : IsPlain op) (hok : NoRestaging op w)
    (hinv : OnceInv w m) : OnceInv (op.exec serde w).2 m :=
  hinv.step (now_lt_exec serde op w) (plain_exec serde h hok).1 (nextUuid_exec serde op w)
    (ledger_exec_le serde h hok m.1) le_rfl

/-! ## The critical sections that move identifiers -/

/-- A handler that starts with the holdings `m` moves identifiers and does not copy them. -/
abbrev LedgerSafe {α : Type} (serde : SerdeJson) (handler : Handler α) (m : Holdings)
    (post : α → Holdings → Prop) : Prop :=
  Safe (ThreadOp.exec serde) NoRestaging OnceInv handler m post

section Moves

variable (serde : SerdeJson)

theorem safe_plain {α : Type} {handler : Handler α} (h : handler.Only IsPlain) (m : Holdings) :
    LedgerSafe serde handler m fun _ m' => m' = m := by
  refine Safe.of_only ?_ h m
  intro op w m hop hok hinv
  exact onceInv_exec serde hop hok hinv

/-- A new identifier is not in the ledger. -/
theorem safe_freshUuid : LedgerSafe serde (perform .freshUuid) 0 fun id m' => m' = hold id := by
  intro w others hinv _
  refine ⟨hold w.nextUuid, ?_, rfl⟩
  rw [zero_add] at hinv
  have hplain : IsPlain .freshUuid := trivial
  have hinv' := onceInv_exec serde hplain trivial hinv
  have hledger : ledger (ThreadOp.exec serde .freshUuid w).2 (hold w.nextUuid + others).1 =
      w.nextUuid ::ₘ ledger w others.1 := by
    simp only [ledger, hold, Prod.fst_add, singleton_add, add_cons, cons_add]
    rfl
  refine ⟨?_, ?_, ?_, hinv'.past⟩
  · rw [hledger, nodup_cons]
    exact ⟨fun hmem => lt_irrefl _ (hinv.issued _ hmem), hinv.distinct⟩
  · rw [hledger]
    intro id hid
    rcases mem_cons.1 hid with rfl | hid
    · exact Nat.lt_succ_self _
    · exact Nat.lt_succ_of_lt (hinv.issued id hid)
  · simpa [hold] using hinv'.seen

/-- What a handler holds after it has taken the pending approval. -/
def heldByTaken (taken : Option PendingApproval) : Holdings :=
  taken.elim 0 fun pending => hold pending.requestId

/-- Taking an approval moves its identifier from the thread to the handler. -/
theorem safe_takePendingApprovalIfAwaiting :
    LedgerSafe serde (perform .takePendingApprovalIfAwaiting) 0
      fun taken m' => m' = heldByTaken taken := by
  intro w others hinv _
  rw [zero_add] at hinv
  have hplain : IsPlain .takePendingApprovalIfAwaiting := trivial
  rcases takePendingApprovalIfAwaiting_cases w.tick.now w.tick.thread with
    htake | ⟨pending, hpending, htake⟩
  · refine ⟨0, ?_, ?_⟩
    · rw [zero_add]
      exact onceInv_exec serde hplain trivial hinv
    · simp only [ThreadOp.exec, ThreadOp.effect, htake]
      rfl
  · refine ⟨hold pending.requestId, ?_, ?_⟩
    · refine hinv.step (now_lt_exec serde _ w) (plain_exec serde hplain trivial).1
        (nextUuid_exec serde _ w) (le_of_eq ?_) (by simp [hold])
      have hid : pendingId w.thread = some pending.requestId := congrArg (Option.map _) hpending
      simp only [ThreadOp.exec, ThreadOp.effect, htake, ledger, hold, hid]
      simp [pendingId, World.setThread, World.tick]
    · simp only [ThreadOp.exec, ThreadOp.effect, htake]
      rfl

/-- Storing an approval moves its identifier from the handler to the thread. -/
theorem safe_awaitApproval (pending : PendingApproval) :
    LedgerSafe serde (perform (.awaitApproval pending)) (hold pending.requestId)
      fun _ m' => m' = 0 := by
  intro w others hinv _
  refine ⟨0, ?_, rfl⟩
  refine hinv.step (now_lt_exec serde _ w) (.inr rfl) (nextUuid_exec serde _ w) ?_
    (by simp [hold])
  have hledger : ledger (ThreadOp.exec serde (.awaitApproval pending) w).2 (0 + others).1 =
      {pending.requestId} + others.1 + ↑w.executed := by
    simp only [zero_add]
    rfl
  rw [hledger]
  exact add_le_add_left (le_add_left _ _) _

/-- Executing an approval moves its identifier to the executed ones. -/
theorem safe_executePrimary (requestId : Uuid) :
    LedgerSafe serde (perform (.executePrimary requestId)) (hold requestId) fun _ m' => m' = 0 := by
  intro w others hinv _
  refine ⟨0, ?_, rfl⟩
  refine hinv.step (now_lt_exec serde _ w) (.inl ⟨rfl, rfl⟩) (nextUuid_exec serde _ w)
    (le_of_eq ?_) (by simp [hold])
  simp only [ledger, hold, ThreadOp.exec, ThreadOp.effect, World.tick]
  simp [← cons_coe]

/-- Reading the thread is a sighting. -/
theorem safe_readThread :
    LedgerSafe serde (perform .readThread) 0 fun thread m' => m' = sighting thread := by
  intro w others hinv _
  rw [zero_add] at hinv
  have hplain : IsPlain .readThread := trivial
  have hinv' := onceInv_exec serde hplain trivial hinv
  refine ⟨sighting w.thread, ⟨?_, ?_, ?_, hinv'.past⟩, rfl⟩
  · simpa [sighting] using hinv'.distinct
  · simpa [sighting] using hinv'.issued
  · intro s hs
    rcases mem_add.1 hs with hs | hs
    · rw [mem_singleton.1 hs]
      exact ⟨hinv'.past, fun _ => rfl⟩
    · exact hinv'.seen s hs

/-- A snapshot that replaces the thread agrees with it on the pending identifier. -/
theorem safe_applyCompactionIfFresh (snapshot : Thread) :
    LedgerSafe serde (perform (.applyCompactionIfFresh snapshot)) (sighting snapshot)
      fun _ m' => m' = 0 := by
  intro w others hinv _
  refine ⟨0, ?_, rfl⟩
  have hsame : (applyCompactionIfFresh snapshot w.thread).updatedAt = w.thread.updatedAt ∧
      pendingId (applyCompactionIfFresh snapshot w.thread) = pendingId w.thread := by
    rw [applyCompactionIfFresh]
    by_cases hfresh : w.thread.updatedAt = snapshot.updatedAt ∧
        w.thread.turns.length = snapshot.turns.length
    · have hsaw := hinv.seen (snapshot.updatedAt, pendingId snapshot) (by simp [sighting])
      rw [if_pos hfresh]
      exact ⟨hfresh.1.symm, (hsaw.2 hfresh.1).symm⟩
    · rw [if_neg hfresh]
      exact ⟨rfl, rfl⟩
  refine hinv.step (now_lt_exec serde _ w) (.inl hsame) (nextUuid_exec serde _ w)
    (le_of_eq ?_) (by simpa [sighting] using le_cons_self _ _)
  simp only [ledger, ← hsame.2]
  rfl

end Moves

end Axinite.Submissions
