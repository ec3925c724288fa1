import Axinite.Foundation.Interleaving
import Axinite.SessionManager.Operations
import Mathlib.Algebra.Order.Group.Multiset
import Mathlib.Data.Multiset.Bind

/-!
# Pruning of idle sessions

A session should only be removed if it has not been returned to a caller for longer than
the limit.  The removal compares the time stamp of the session with a cutoff, in a critical
section of its own, and removes the sessions it selected in a later one.  So two things
have to hold: every return leaves a fresh time stamp behind, and nothing becomes active
between the selection and the removal.

Main results:

- Theorem `safe_managerCall`: every handler keeps the pruning invariant, whatever the
  others do.
- Theorem `removed_idle`: in every interleaving whose returns are stamped, only idle
  sessions are removed.
- Theorem `removed_active`: without that condition an active session is removed.
-/

variable (env : ManagerEnv) (userId : String) {m : Manager} {listings : Multiset Listing}

namespace Axinite.SessionManager

open Axinite.Session Foundation Json ThreadOps List

/-- The session was not returned within the limit before its removal. -/
def Removal.Idle (removal : Removal) : Prop :=
  ∀ t ∈ removal.returns, t + removal.maxIdle < removal.time

/-! ## Handlers that may run -/

/-- A call of the manager or of one of the handlers that use it. -/
inductive ManagerCall where
  | tick (elapsed : Nat)
  | resolveThread (userId channel : String) (externalThreadId : Option String)
  /-- The caller has looked the session of `owner` up and registers a thread of `userId`. -/
  | registerThread (owner userId channel : String) (threadId : Uuid)
  | maybeHydrateThread (userId channel externalThreadId : String)
      (loaded : Except String (List ConversationMessage))
  | processNewThread (userId : String)
  | processSwitchThread (userId : String) (targetThreadId : Uuid)
  | pruneStaleSessions (maxIdle : Nat) (contended contendedLater : SessionRef → Bool)

/-- The program of a call; its answer is dropped. -/
def ManagerCall.program (env : ManagerEnv) : ManagerCall → ManagerProgram Unit
  | tick elapsed => locked (.tick elapsed)
  | resolveThread userId channel externalThreadId => do
    let _ ← SessionManager.resolveThread env userId channel externalThreadId
  | registerThread owner userId channel threadId => do
    let session ← getOrCreateSession owner
    SessionManager.registerThread env userId channel threadId session
  | maybeHydrateThread userId channel externalThreadId loaded => do
    let _ ← SessionManager.maybeHydrateThread env userId channel externalThreadId loaded
  | processNewThread userId => do
    let _ ← SessionManager.processNewThread env userId
  | processSwitchThread userId targetThreadId => do
    let _ ← SessionManager.processSwitchThread env userId targetThreadId
  | pruneStaleSessions maxIdle contended contendedLater => do
    let _ ← SessionManager.pruneStaleSessions maxIdle contended contendedLater

/-- The programs that may start. -/
def IsManagerCall (env : ManagerEnv) (p : ManagerProgram Unit) : Prop :=
  ∃ call : ManagerCall, p = call.program env

/-- A return leaves a fresh time stamp behind and does not return the session of a user that
a running prune has selected, no session is put back for such a user, and limits are whole
numbers of seconds. -/
def StampsReturns : ManagerOp → Manager → Prop
  | .returned session, m =>
    m.lastActiveAt session = some m.now ∧
      ∀ user ∈ m.listed, m.sessions.lookup user ≠ some session
  | .trackSession userId _, m => userId ∈ m.sessions ∨ userId ∉ m.listed
  | .removeSessions _ maxIdle, _ => maxIdle % nanosPerSecond = 0
  | _, _ => True

instance (op : ManagerOp) (m : Manager) : Decidable (StampsReturns op m) := by
  cases op <;> unfold StampsReturns <;> infer_instance

/-! ## Invariant -/

/-- What a running prune has selected: the users and the cutoff they were compared with. -/
structure Listing where
  start : Timestamp
  maxIdle : Nat
  users : List String

/-- Sessions that were last active before this time are stale. -/
def Listing.cutoff (listing : Listing) : Timestamp :=
  listing.start - wholeSeconds listing.maxIdle

/-- The prune has started, and the sessions that it has selected are stale. -/
def Listing.Fits (m : Manager) (listing : Listing) : Prop :=
  listing.start ≤ m.now ∧ ∀ user ∈ listing.users, ∀ session t,
    m.sessions.lookup user = some session → (session, t) ∈ m.returned → t < listing.cutoff

/-- No session was active in the future. -/
def Manager.Past (m : Manager) : Prop :=
  ∀ session t, m.lastActiveAt session = some t → t ≤ m.now

/-- The state of the manager fits what the running prunes have selected. -/
structure PruneInv (m : Manager) (listings : Multiset Listing) : Prop where
  past : m.Past
  stamped : ∀ session t, (session, t) ∈ m.returned →
    ∃ t', m.lastActiveAt session = some t' ∧ t ≤ t'
  listed : (listings.bind fun listing => (listing.users : Multiset String)) ≤ m.listed
  fits : ∀ listing ∈ listings, listing.Fits m
  removed : ∀ removal ∈ m.removed, removal.Idle

theorem PruneInv.new : PruneInv Manager.new 0 where
  past := by simp [Manager.Past, Manager.new, Manager.lastActiveAt]
  stamped := by simp [Manager.new]
  listed := by
    exact Multiset.zero_le _
  fits := by simp
  removed := by simp [Manager.new]

variable {listing : Listing}

theorem PruneInv.mem_listed (h : PruneInv m listings)
    (hlisting : listing ∈ listings) {user : String} (huser : user ∈ listing.users) :
    user ∈ m.listed := by
  have hbind : user ∈ listings.bind fun listing => (listing.users : Multiset String) :=
    Multiset.mem_bind.2 ⟨listing, hlisting, huser⟩
  exact Multiset.mem_coe.1 (Multiset.mem_of_le h.listed hbind)

/-- A step that only lets time pass, stamps sessions and creates new ones. -/
structure Calm (m m' : Manager) : Prop where
  record : (m'.returned, m'.listed, m'.removed) = (m.returned, m.listed, m.removed)
  now : m.now ≤ m'.now
  later : ∀ session t, m.lastActiveAt session = some t →
    ∃ t', m'.lastActiveAt session = some t' ∧ t ≤ t'
  past : m'.Past
  sessions : ∀ user session, m'.sessions.lookup user = some session →
    m.sessions.lookup user = some session ∨ m.lastActiveAt session = none

theorem PruneInv.calm {m m' : Manager} {listings : Multiset Listing} (h : PruneInv m listings)
    (hcalm : Calm m m') : PruneInv m' listings := by
  obtain ⟨hrecord, hnow, hlater, hpast, hsessions⟩ := hcalm
  obtain ⟨hreturned, hlisted, hremoved⟩ : _ ∧ _ ∧ _ := by simpa using hrecord
  refine ⟨hpast, fun session t hmem => ?_, hlisted ▸ h.listed,
    fun listing hlisting => ⟨(h.fits listing hlisting).1.trans hnow, ?_⟩, hremoved ▸ h.removed⟩
  · rw [hreturned] at hmem
    obtain ⟨t₁, hactive, hle⟩ := h.stamped session t hmem
    obtain ⟨t₂, hactive', hle'⟩ := hlater session t₁ hactive
    exact ⟨t₂, hactive', le_trans hle hle'⟩
  · intro user huser session t hlookup hmem
    rw [hreturned] at hmem
    rcases hsessions user session hlookup with hold | hfresh
    · exact (h.fits listing hlisting).2 user huser session t hold hmem
    · -- a session that did not exist was never returned
      obtain ⟨t', hactive, _⟩ := h.stamped session t hmem
      rw [hfresh] at hactive
      cases hactive

open Manager

/-- A step that leaves the sessions and the record alone. -/
theorem Calm.of_eq {m m' : Manager} (hpast : m.Past) (hnow : m.now ≤ m'.now)
    (hrecord : (m'.returned, m'.listed, m'.removed) = (m.returned, m.listed, m.removed))
    (hheap : m'.heap = m.heap) (hsessions : m'.sessions = m.sessions) : Calm m m' := by
  have hactive : ∀ session, m'.lastActiveAt session = m.lastActiveAt session := by
    intro session
    rw [lastActiveAt, hheap, lastActiveAt]
  refine ⟨hrecord, hnow, ?_, ?_, ?_⟩
  · intro session t h
    exact ⟨t, by rw [hactive, h], le_rfl⟩
  · intro session t h
    rw [hactive] at h
    exact le_trans (hpast session t h) hnow
  · intro user session h
    rw [hsessions] at h
    exact .inl h

open Option

/-- A step that stamps a session or leaves its time stamp alone. -/
theorem Calm.modifySession (hpast : m.Past) (target : SessionRef) {f : UserSession → UserSession}
    (hf : ∀ s, (f s).lastActiveAt = m.now ∨ (f s).lastActiveAt = s.lastActiveAt) :
    Calm m (m.modifySession target f) := by
  -- the new time stamp of a session, read off its old one
  have hget : ∀ session, (m.modifySession target f).lastActiveAt session =
      m.heap[session]?.map fun s =>
        (if target = session then f s else s).lastActiveAt := by
    intro session
    simp only [Manager.lastActiveAt, Manager.modifySession, List.getElem?_modify]
    cases m.heap[session]? <;> rfl
  have hstamp : ∀ session s, m.heap[session]? = some s →
      s.lastActiveAt ≤ (if target = session then f s else s).lastActiveAt ∧
        (if target = session then f s else s).lastActiveAt ≤ m.now := by
    intro session s hs
    have hle : s.lastActiveAt ≤ m.now :=
      hpast session _ (by rw [Manager.lastActiveAt, hs]; rfl)
    by_cases htarget : target = session
    · rw [if_pos htarget]
      rcases hf s with h | h
      · rw [h]
        exact ⟨hle, le_rfl⟩
      · rw [h]
        exact ⟨le_rfl, hle⟩
    · rw [if_neg htarget]
      exact ⟨le_rfl, hle⟩
  refine ⟨rfl, le_rfl, ?_, ?_, fun user session h => .inl h⟩
  · intro session t h
    obtain ⟨s, hs, rfl⟩ := map_eq_some_iff.1 h
    refine ⟨_, ?_, (hstamp session s hs).1⟩
    rw [hget, hs]
    rfl
  · intro session t h
    rw [hget] at h
    obtain ⟨s, hs, rfl⟩ := map_eq_some_iff.1 h
    exact (hstamp session s hs).2

open ManagerOp

/-- A step that creates the session of a user. -/
theorem Calm.createSession (hpast : m.Past) (userId : String) :
    Calm m (exec (.createSession userId) m).2 := by
  cases hlookup : m.sessions.lookup userId with
  | some session =>
    simp only [exec, hlookup]
    exact .of_eq hpast le_rfl rfl rfl rfl
  | none =>
    simp only [exec, hlookup]
    refine ⟨rfl, le_rfl, ?_, ?_, ?_⟩
    · intro session t h
      obtain ⟨s, hs, rfl⟩ := map_eq_some_iff.1 h
      refine ⟨s.lastActiveAt, ?_, le_rfl⟩
      have hlt : session < m.heap.length := (List.getElem?_eq_some_iff.1 hs).1
      rw [lastActiveAt, List.getElem?_append_left hlt, hs]
      rfl
    · intro session t h
      obtain ⟨s, hs, rfl⟩ := map_eq_some_iff.1 h
      rcases mem_append.1 (mem_of_getElem? hs) with hmem | hmem
      · obtain ⟨i, hi⟩ := mem_iff_getElem?.1 hmem
        exact hpast i _ (by rw [lastActiveAt, hi]; rfl)
      · rw [mem_singleton.1 hmem]
        exact le_rfl
    · intro user session h
      by_cases huser : user = userId
      · subst huser
        rw [AList.lookup_insert] at h
        cases h
        exact .inr (by simp [lastActiveAt])
      · rw [AList.lookup_insert_ne huser] at h
        exact .inl h

/-- Operations that do not touch the record of the run. -/
def IsCalm : ManagerOp → Prop
  | .trackSession _ _ => False
  | .returned _ => False
  | .scanStale _ _ => False
  | .removeSessions _ _ => False
  | _ => True

theorem calm_exec (hpast : m.Past) {op : ManagerOp} (hop : IsCalm op) : Calm m (op.exec m).2 := by
  cases op with
  | tick elapsed => exact .of_eq hpast (Nat.le_add_right _ _) rfl rfl rfl
  | createSession userId => exact Calm.createSession hpast userId
  | adoptThread key threadId =>
    simp only [exec]
    split <;> exact .of_eq hpast le_rfl rfl rfl rfl
  | createThread session =>
    have hcalm := Calm.modifySession hpast session
      (f := UserSession.createThread m.now m.nextUuid) (fun s => .inl rfl)
    exact ⟨hcalm.record, hcalm.now, hcalm.later, hcalm.past, hcalm.sessions⟩
  | switchThread session threadId =>
    apply Calm.modifySession hpast session
    intro s
    unfold UserSession.switchThread
    split
    · exact .inl rfl
    · exact .inr rfl
  | insertThread session thread =>
    simp only [exec]
    split
    · exact .of_eq hpast le_rfl rfl rfl rfl
    · exact Calm.modifySession hpast session fun s => .inl rfl
  | trackSession _ _ | returned _ | scanStale _ _ | removeSessions _ _ => exact hop.elim
  | _ => exact .of_eq hpast le_rfl rfl rfl rfl

/-! ## Operations on the record -/

theorem PruneInv.returned (h : PruneInv m listings) {session : SessionRef}
    (hok : StampsReturns (.returned session) m) :
    PruneInv (exec (.returned session) m).2 listings where
  past := h.past
  stamped := by
    intro other t hmem
    rcases mem_cons.1 hmem with hnew | hold
    · cases hnew
      exact ⟨m.now, hok.1, le_rfl⟩
    · exact h.stamped other t hold
  listed := h.listed
  fits := by
    refine fun listing hlisting => ⟨(h.fits listing hlisting).1, ?_⟩
    intro user huser other t hlookup hmem
    rcases mem_cons.1 hmem with hnew | hold
    · cases hnew
      exact absurd hlookup (hok.2 user (h.mem_listed hlisting huser))
    · exact (h.fits listing hlisting).2 user huser other t hlookup hold
  removed := h.removed

theorem PruneInv.trackSession (h : PruneInv m listings) {userId : String} {session : SessionRef}
    (hok : StampsReturns (.trackSession userId session) m) :
    PruneInv (exec (.trackSession userId session) m).2 listings where
  past := h.past
  stamped := h.stamped
  listed := h.listed
  fits := by
    refine fun listing hlisting => ⟨(h.fits listing hlisting).1, ?_⟩
    intro user huser other t hlookup hmem
    apply (h.fits listing hlisting).2 user huser other t _ hmem
    have hlisted := h.mem_listed hlisting huser
    simp only [exec, orInsert] at hlookup
    split at hlookup
    · exact hlookup
    · rename_i habsent
      -- a session is only put back for a user whom no prune has selected
      have hne : user ≠ userId := by
        intro heq
        exact (hok.resolve_left habsent) (heq ▸ hlisted)
      rwa [AList.lookup_insert_ne hne] at hlookup
  removed := h.removed

/-- Operations that neither select nor remove sessions. -/
def KeepsListings : ManagerOp → Prop
  | .scanStale _ _ => False
  | .removeSessions _ _ => False
  | _ => True

theorem PruneInv.exec {op : ManagerOp} (hop : KeepsListings op) (hok : StampsReturns op m)
    (h : PruneInv m listings) : PruneInv (op.exec m).2 listings := by
  cases op with
  | returned session => exact h.returned hok
  | trackSession userId session => exact h.trackSession hok
  | scanStale _ _ | removeSessions _ _ => exact hop.elim
  | _ => exact h.calm (calm_exec h.past trivial)

variable {others : Multiset Listing}

/-- A prune that has read the clock and selected nobody. -/
theorem PruneInv.select (h : PruneInv m others) (start : Timestamp)
    (maxIdle : Nat) (hstart : start ≤ m.now) : PruneInv m ({⟨start, maxIdle, []⟩} + others) where
  past := h.past
  stamped := h.stamped
  listed := by
    rw [Multiset.add_bind, Multiset.singleton_bind, Multiset.coe_nil, zero_add]
    exact h.listed
  fits := by
    intro listing hlisting
    rcases Multiset.mem_add.1 hlisting with hnew | hold
    · rw [Multiset.mem_singleton.1 hnew]
      exact ⟨hstart, by simp⟩
    · exact h.fits listing hold
  removed := h.removed

/-- A user is selected because the session was last active before the cutoff. -/
theorem mem_staleSessions {cutoff : Timestamp} {contended : SessionRef → Bool} {user : String}
    (h : user ∈ (m.staleSessions cutoff contended).map Prod.fst) :
    ∃ session t, m.sessions.lookup user = some session ∧ m.lastActiveAt session = some t ∧
      t < cutoff := by
  obtain ⟨⟨user', id⟩, hmem, rfl⟩ := mem_map.1 h
  obtain ⟨⟨key, session⟩, hentry, hselect⟩ := mem_filterMap.1 hmem
  split at hselect
  · cases hselect
  · obtain ⟨s, hs, hstale⟩ := bind_eq_some_iff.1 hselect
    split at hstale
    · rename_i hlt
      cases hstale
      refine ⟨session, s.lastActiveAt, AList.mem_lookup_iff.2 hentry, ?_, hlt⟩
      rw [lastActiveAt, hs]
      rfl
    · cases hstale

theorem PruneInv.scanStale {start : Timestamp} {maxIdle : Nat}
    (contended : SessionRef → Bool) (h : PruneInv m ({⟨start, maxIdle, []⟩} + others)) :
    let answer := ManagerOp.exec (.scanStale (start - wholeSeconds maxIdle) contended) m
    PruneInv answer.2 ({⟨start, maxIdle, answer.1.map Prod.fst⟩} + others) where
  past := h.past
  stamped := h.stamped
  listed := by
    have hold := h.listed
    rw [Multiset.add_bind, Multiset.singleton_bind, Multiset.coe_nil, zero_add] at hold
    rw [Multiset.add_bind, Multiset.singleton_bind, add_comm]
    exact Multiset.add_le_add_right hold
  fits := by
    intro listing hlisting
    rcases Multiset.mem_add.1 hlisting with hnew | hold
    · rw [Multiset.mem_singleton.1 hnew]
      refine ⟨(h.fits ⟨start, maxIdle, []⟩ (by simp)).1, fun user huser session t hlookup hmem => ?_⟩
      obtain ⟨session', last, hlookup', hactive, hlt⟩ := mem_staleSessions huser
      obtain rfl : session' = session := some.inj (hlookup'.symm.trans hlookup)
      obtain ⟨last', hactive', hle⟩ := h.stamped session' t hmem
      obtain rfl : last = last' := some.inj (hactive.symm.trans hactive')
      exact lt_of_le_of_lt hle hlt
    · exact h.fits listing (Multiset.mem_add.2 (.inr hold))
  removed := h.removed

theorem lookup_eraseAll {α β : Type} [DecidableEq α] {keys : List α}
    {map : AList fun _ : α => β} {key : α} {value : β}
    (h : (eraseAll keys map).lookup key = some value) : map.lookup key = some value := by
  induction keys generalizing map with
  | nil => exact h
  | cons first rest ih =>
    have herase : (map.erase first).lookup key = some value := ih h
    by_cases hkey : key = first
    · rw [hkey, AList.lookup_erase] at herase
      cases herase
    · rwa [AList.lookup_erase_ne hkey] at herase

theorem wholeSeconds_eq {duration : Nat} (h : duration % nanosPerSecond = 0) :
    wholeSeconds duration = duration := by
  exact Nat.div_mul_cancel (Nat.dvd_of_mod_eq_zero h)

theorem PruneInv.removals_idle (h : PruneInv m listings)
    (hlisting : listing ∈ listings) (hwhole : listing.maxIdle % nanosPerSecond = 0) :
    ∀ removal ∈ m.removals listing.users listing.maxIdle, removal.Idle := by
  intro removal hmem t ht
  obtain ⟨user, huser, hremoval⟩ := mem_filterMap.1 hmem
  obtain ⟨session, hlookup, rfl⟩ := map_eq_some_iff.1 hremoval
  obtain ⟨⟨session', t'⟩, hfilter, rfl⟩ := mem_map.1 ht
  obtain ⟨hreturned, hsession⟩ := mem_filter.1 hfilter
  obtain rfl : session' = session := of_decide_eq_true hsession
  obtain ⟨hstart, hstale⟩ := h.fits listing hlisting
  have hcutoff := hstale user huser session' t' hlookup hreturned
  rw [Listing.cutoff, wholeSeconds_eq hwhole] at hcutoff
  exact lt_of_lt_of_le (Nat.add_lt_of_lt_sub hcutoff) hstart

theorem PruneInv.removeSessions (h : PruneInv m ({listing} + others))
    (hok : StampsReturns (.removeSessions listing.users listing.maxIdle) m) :
    PruneInv (ManagerOp.exec (.removeSessions listing.users listing.maxIdle) m).2 others where
  past := h.past
  stamped := h.stamped
  listed := by
    have hold := h.listed
    rw [Multiset.add_bind, Multiset.singleton_bind] at hold
    exact le_tsub_of_add_le_left hold
  fits := by
    intro other hother
    obtain ⟨hstart, hstale⟩ := h.fits other (Multiset.mem_add.2 (.inr hother))
    exact ⟨hstart, fun user huser session t hlookup =>
      hstale user huser session t (lookup_eraseAll hlookup)⟩
  removed := by
    intro removal hmem
    rcases mem_append.1 hmem with hold | hnew
    · exact h.removed removal hold
    · exact h.removals_idle (Multiset.mem_add.2 (.inl (Multiset.mem_singleton_self _))) hok
        removal hnew

/-! ## Handlers -/

open Program.Only

theorem getOrCreateSession_keeps : (getOrCreateSession userId).Only KeepsListings := by
  apply act (by trivial)
  intro found
  cases found with
  | some session => exact Program.only_pure _ _
  | none => exact Program.only_perform (by trivial)

theorem adoptExternalThread_keeps (key : ThreadKey) (session : SessionRef) :
    (adoptExternalThread env key session).Only KeepsListings := by
  unfold adoptExternalThread
  split
  · exact Program.only_pure _ _
  · apply act (by trivial)
    intro elsewhere
    split
    · exact Program.only_pure _ _
    · apply act (by trivial)
      intro known
      split
      · apply act (by trivial)
        intro adopted
        split
        · exact .act trivial fun _ => Program.only_pure _ _
        · exact Program.only_pure _ _
      · exact Program.only_pure _ _

theorem returnThread_keeps (session : SessionRef) (threadId : Uuid) :
    (returnThread session threadId).Only KeepsListings := by
  exact .act (by trivial) fun _ => Program.only_pure _ _

theorem resolveThread_keeps (userId channel : String) (externalThreadId : Option String) :
    (resolveThread env userId channel externalThreadId).Only KeepsListings := by
  apply bind (getOrCreateSession_keeps userId)
  intro session
  apply act (by trivial)
  intro mapped
  cases mapped with
  | some threadId => exact returnThread_keeps session threadId
  | none =>
    apply bind (adoptExternalThread_keeps env _ session)
    intro adopted
    cases adopted with
    | some threadId => exact returnThread_keeps session threadId
    | none =>
      apply act (by trivial)
      intro threadId
      apply act (by trivial)
      intro _
      apply act (by trivial)
      intro _
      exact returnThread_keeps session threadId

theorem registerThread_keeps (userId channel : String) (threadId : Uuid) (session : SessionRef) :
    (registerThread env userId channel threadId session).Only KeepsListings := by
  apply act (by trivial)
  intro _
  apply act (by trivial)
  intro _
  exact Program.only_perform (by trivial)

theorem maybeHydrateThread_keeps (userId channel externalThreadId : String)
    (loaded : Except String (List ConversationMessage)) :
    (maybeHydrateThread env userId channel externalThreadId loaded).Only KeepsListings := by
  unfold maybeHydrateThread
  split
  · exact Program.only_pure _ _
  · apply bind (getOrCreateSession_keeps userId)
    intro session
    apply act (by trivial)
    intro known
    split
    · exact Program.only_pure _ _
    · cases loaded with
      | error message => exact Program.only_pure _ _
      | ok dbMessages =>
        apply act (by trivial)
        intro sessionId
        apply act (by trivial)
        intro now
        apply act (by trivial)
        intro inserted
        split
        · exact bind (registerThread_keeps env userId channel _ session)
            fun _ => Program.only_pure _ _
        · exact Program.only_pure _ _

theorem processNewThread_keeps : (processNewThread env userId).Only KeepsListings := by
  apply bind (getOrCreateSession_keeps userId)
  intro session
  exact .act (by trivial) fun _ => Program.only_pure _ _

theorem processSwitchThread_keeps (targetThreadId : Uuid) :
    (processSwitchThread env userId targetThreadId).Only KeepsListings := by
  apply bind (getOrCreateSession_keeps userId)
  intro session
  apply act (by trivial)
  intro switched
  split <;> exact Program.only_pure _ _

/-- A program of the manager that keeps the invariant. -/
abbrev PruneSafe {α : Type} (p : ManagerProgram α) (listings : Multiset Listing) : Prop :=
  Safe exec StampsReturns PruneInv p listings fun _ _ => True

theorem pruneSafe_of_keeps {α : Type} {p : ManagerProgram α} (hp : p.Only KeepsListings)
    (listings : Multiset Listing) : PruneSafe p listings := by
  have hop : ∀ op m listings, KeepsListings op → StampsReturns op m → PruneInv m listings →
      PruneInv (exec op m).2 listings := by
    intro op m listings hkeeps hok h
    exact h.exec hkeeps hok
  exact (Safe.of_only hop hp listings).mono fun _ _ _ => trivial

/-- The cutoff is computed, the users are selected, and the selection is given up with the
removal. -/
theorem safe_pruneStaleSessions (maxIdle : Nat) (contended contendedLater : SessionRef → Bool) :
    PruneSafe (pruneStaleSessions maxIdle contended contendedLater) 0 := by
  intro m others h _
  refine ⟨{⟨m.now, maxIdle, []⟩}, ?_, ?_⟩
  · rw [zero_add] at h
    exact h.select m.now maxIdle le_rfl
  · intro m₁ others₁ h₁ _
    refine ⟨_, h₁.scanStale contended, ?_⟩
    simp only [Program.bind]
    split
    · exact trivial
    · intro m₂ others₂ h₂ hok₂
      refine ⟨_, h₂.exec trivial hok₂, ?_⟩
      intro m₃ others₃ h₃ hok₃
      refine ⟨0, ?_, ?_⟩
      · rw [zero_add]
        exact h₃.removeSessions hok₃
      · apply pruneSafe_of_keeps
        exact ⟨trivial, fun _ => ⟨trivial, fun _ => trivial⟩⟩

/-- Every call keeps the invariant, whatever the others do. -/
theorem safe_managerCall (call : ManagerCall) : PruneSafe (call.program env) 0 := by
  cases call with
  | tick elapsed => exact pruneSafe_of_keeps (Program.only_perform (by trivial)) 0
  | resolveThread userId channel externalThreadId =>
    exact pruneSafe_of_keeps ((resolveThread_keeps env userId channel externalThreadId).bind
      fun _ => Program.only_pure _ _) 0
  | registerThread owner userId channel threadId =>
    exact pruneSafe_of_keeps ((getOrCreateSession_keeps owner).bind
      (registerThread_keeps env userId channel threadId)) 0
  | maybeHydrateThread userId channel externalThreadId loaded =>
    exact pruneSafe_of_keeps
      ((maybeHydrateThread_keeps env userId channel externalThreadId loaded).bind
        fun _ => Program.only_pure _ _) 0
  | processNewThread userId =>
    exact pruneSafe_of_keeps ((processNewThread_keeps env userId).bind
      fun _ => Program.only_pure _ _) 0
  | processSwitchThread userId targetThreadId =>
    exact pruneSafe_of_keeps ((processSwitchThread_keeps env userId targetThreadId).bind
      fun _ => Program.only_pure _ _) 0
  | pruneStaleSessions maxIdle contended contendedLater =>
    exact (safe_pruneStaleSessions maxIdle contended contendedLater).bind fun _ _ _ => trivial

/-! ## Only idle sessions are removed -/

/-- In every interleaving of the calls in which each return finds a fresh time stamp and no
prune with that user selected, a session is only removed if it was not returned within the
limit. -/
theorem removed_idle (env : ManagerEnv) (c : Config ManagerOp ManagerOp.Resp Manager)
    (hc : Reachable exec StampsReturns (IsManagerCall env) new c) :
    ∀ removal ∈ c.shared.removed, ∀ t ∈ removal.returns, t + removal.maxIdle < removal.time := by
  have hmay : ∀ p, IsManagerCall env p → PruneSafe p 0 := by
    rintro p ⟨call, rfl⟩
    exact safe_managerCall env call
  obtain ⟨listings, _, hinv⟩ := adequacy hmay PruneInv.new hc
  exact hinv.removed

/-! ## Sample runs -/

/-- An environment in which external identifiers are never read as identifiers. -/
def opaqueIds : ManagerEnv where
  parseUuid := fun _ => none
  uuidToString := fun _ => ""
  serde := nullSerde
  safety := fun _ content => content

/-- The call that resolves the default thread of the channel. -/
def resolvesDefault : ManagerCall :=
  .resolveThread "user" "cli" none

/-- The call that prunes what was idle for five seconds, while no session is locked. -/
def prunesFiveSeconds : ManagerCall :=
  .pruneStaleSessions (5 * nanosPerSecond) (fun _ => false) (fun _ => false)

/-- The state after a list of calls that run one after the other. -/
def runCalls (calls : List ManagerCall) : Manager :=
  (calls.map (ManagerCall.program opaqueIds)).foldl
    (fun m p => (Program.run exec p m).2) new

theorem isManagerCall_of_mem_map (calls : List ManagerCall) :
    ∀ p ∈ calls.map (ManagerCall.program env), IsManagerCall env p := by
  intro p hp
  obtain ⟨call, _, rfl⟩ := mem_map.1 hp
  exact ⟨call, rfl⟩

/-- A thread is created, nothing happens for six seconds, and the session is removed. -/
def idleRun : List ManagerCall :=
  [resolvesDefault, .tick (6 * nanosPerSecond), prunesFiveSeconds]

theorem removed_idle_six_seconds :
    ∃ c, Reachable exec StampsReturns (IsManagerCall opaqueIds) new c ∧
      c.shared.removed = [⟨0, [0], 6 * nanosPerSecond, 5 * nanosPerSecond⟩] ∧
        ∀ removal ∈ c.shared.removed, ∀ t ∈ removal.returns,
          t + removal.maxIdle < removal.time := by
  have hstart : Reachable exec StampsReturns (IsManagerCall opaqueIds) new
      ⟨new, []⟩ := Relation.ReflTransGen.refl
  obtain ⟨ts, hend⟩ := hstart.run (isManagerCall_of_mem_map opaqueIds idleRun) (by decide +kernel)
  have hremoved : (runCalls idleRun).removed =
      [⟨0, [0], 6 * nanosPerSecond, 5 * nanosPerSecond⟩] := by
    decide +kernel
  exact ⟨_, hend, hremoved, removed_idle opaqueIds _ hend⟩

/-- The thread is created, and resolved again ten seconds later. -/
def activeRun : List ManagerCall :=
  [resolvesDefault, .tick (10 * nanosPerSecond), resolvesDefault, .tick nanosPerSecond,
    prunesFiveSeconds]

/-- A thread that is found in the map is returned without a time stamp, and its session is
removed one second later. -/
theorem removed_active :
    ∃ c, Reachable exec (fun _ _ => True) (IsManagerCall opaqueIds) new c ∧
      c.shared.removed = [⟨0, [10 * nanosPerSecond, 0], 11 * nanosPerSecond, 5 * nanosPerSecond⟩] ∧
        ¬ ∀ removal ∈ c.shared.removed, ∀ t ∈ removal.returns,
          t + removal.maxIdle < removal.time := by
  have hstart : Reachable exec (fun _ _ => True) (IsManagerCall opaqueIds) new
      ⟨new, []⟩ := Relation.ReflTransGen.refl
  obtain ⟨ts, hend⟩ := hstart.run (isManagerCall_of_mem_map opaqueIds activeRun) (by decide +kernel)
  have hremoved : (runCalls activeRun).removed =
      [⟨0, [10 * nanosPerSecond, 0], 11 * nanosPerSecond, 5 * nanosPerSecond⟩] := by
    decide +kernel
  have hactive : ¬ ∀ removal ∈ (runCalls activeRun).removed, ∀ t ∈ removal.returns,
      t + removal.maxIdle < removal.time := by
    rw [hremoved]
    decide
  exact ⟨_, hend, hremoved, hactive⟩

end Axinite.SessionManager
