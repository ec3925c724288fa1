import Axinite.Foundation.Observation
import Axinite.Foundation.Schedule
import Axinite.SessionManager.Pruning

/-!
# Resolution of threads

Resolving a thread looks the key up, then tries to adopt the thread that the external
identifier names, then creates a thread.  Each of these phases takes its own locks.  Only the
adoption checks again, under the write lock, what it found out before, and it checks the
thread and not the key; the creation and the registration insert without looking.

Main results:

- Theorem `grows_exec`: if every insertion into the thread map is checked again, what a
  resolution has found is found for the rest of the run.
- Theorem `safe_resolveThread`: what a resolution returns is found under its key.
- Theorem `resolutions_agree`: under that condition all resolutions of one key return the same
  thread, and no thread is mapped by two channels or users.
- Theorem `resolutions_disagree`: without it two resolutions of one key return different
  threads, and two channels map the same thread.
-/

namespace Axinite.SessionManager

open Axinite.Session Foundation Json Undo ThreadOps Program List

/-! ## What is found -/

/-- Two keys of one channel of one user. -/
def ThreadKey.SameScope (key key' : ThreadKey) : Prop :=
  key.userId = key'.userId ∧ key.channel = key'.channel
  deriving Decidable

/-- The thread that the key is mapped to, if the session of the user has it. -/
def Manager.found (m : Manager) (key : ThreadKey) : Option Uuid :=
  (m.threadMap.lookup key).filter fun threadId =>
    (m.sessions.lookup key.userId).any fun session => m.hasThread session threadId

variable {m : Manager} {op : ManagerOp} {key : ThreadKey} {session : SessionRef} {threadId : Uuid}
  (env : ManagerEnv) (userId : String)

open Manager

theorem Manager.found_eq_some_iff :
    m.found key = some threadId ↔ m.threadMap.lookup key = some threadId ∧
      ∃ session, m.sessions.lookup key.userId = some session ∧
        m.hasThread session threadId = true := by
  rw [found, Option.filter_eq_some_iff, Option.any_eq_true]

/-- An insertion into the thread map is checked again under the write lock: no other thread is
found under the key, and a thread that is registered or has been created is mapped by no other
channel or user.  Nothing is pruned. -/
def Rechecked : ManagerOp → Manager → Prop
  | .adoptThread key threadId, m =>
    m.isMapped threadId = true ∨ ∀ other ∈ m.found key, other = threadId
  | .insertMapping key threadId, m =>
    (∀ other ∈ m.found key, other = threadId) ∧
      ∀ entry ∈ m.threadMap.entries, entry.2 = threadId → entry.1.SameScope key
  | .removeSessions _ _, _ => False
  | .retainMappings _, _ => False
  | _, _ => True

open ManagerOp

instance (op : ManagerOp) (m : Manager) : Decidable (Rechecked op m) := by
  apply casesOn (motive := fun op => Decidable (Rechecked op m)) op <;> intros <;>
    unfold Rechecked <;> infer_instance

/-! ## What stays known -/

/-- What a running call knows. -/
inductive Fact where
  | sessionOf (userId : String) (session : SessionRef)
  | threadOf (session : SessionRef) (threadId : Uuid)
  | finds (key : ThreadKey) (threadId : Uuid)

/-- The fact holds in a state of the manager. -/
def Fact.Holds : Fact → Manager → Prop
  | sessionOf userId session, m => m.sessions.lookup userId = some session
  | threadOf session threadId, m => m.hasThread session threadId = true
  | finds key threadId, m => m.found key = some threadId

/-- Every user's session exists, and the keys of a thread are of one channel of one user. -/
structure Isolated (m : Manager) : Prop where
  valid : ∀ userId session, m.sessions.lookup userId = some session → session < m.heap.length
  sameScope : ∀ key key' threadId, m.threadMap.lookup key = some threadId →
    m.threadMap.lookup key' = some threadId → key.SameScope key'

/-- The sessions are still there, with their threads. -/
def KeepsThreads (heap heap' : List UserSession) : Prop :=
  ∀ session : SessionRef, ∀ s : UserSession, heap[session]? = some s →
    ∃ s' : UserSession, heap'[session]? = some s' ∧ ∀ threadId ∈ s.threads, threadId ∈ s'.threads

open Option AList

/-- A step that loses no session, no thread and nothing that is found: a user without a session
may get one, and a checked mapping may be inserted. -/
structure Grows (m m' : Manager) : Prop where
  sessions : m'.sessions = m.sessions ∨ ∃ userId session, userId ∉ m.sessions ∧
    session < m'.heap.length ∧ m'.sessions = m.sessions.insert userId session
  heap : KeepsThreads m.heap m'.heap
  mapping : m'.threadMap = m.threadMap ∨ ∃ key threadId,
    m'.threadMap = m.threadMap.insert key threadId ∧ (∀ other ∈ m.found key, other = threadId) ∧
      ∀ key', m.threadMap.lookup key' = some threadId → key'.SameScope key

section Grows

variable {m' : Manager}

theorem Grows.lookup (h : Grows m m') (hlookup : m.sessions.lookup userId = some session) :
    m'.sessions.lookup userId = some session := by
  rcases h.sessions with heq | ⟨user, _, hnone, -, heq⟩
  · rw [heq, hlookup]
  · have hne : userId ≠ user := by
      rintro rfl
      exact hnone (lookup_isSome.1 (isSome_of_eq_some hlookup))
    rw [heq, lookup_insert_ne hne, hlookup]

theorem Grows.hasThread (h : Grows m m') (hthread : m.hasThread session threadId = true) :
    m'.hasThread session threadId = true := by
  obtain ⟨s, hs, hmem⟩ := (any_eq_true _ _).1 hthread
  obtain ⟨s', hs', hkept⟩ := h.heap session s hs
  exact (any_eq_true _ _).2 ⟨s', hs', decide_eq_true (hkept _ (of_decide_eq_true hmem))⟩

theorem Grows.holds (h : Grows m m') (fact : Fact) (hfact : fact.Holds m) : fact.Holds m' := by
  cases fact with
  | sessionOf userId session => exact h.lookup userId hfact
  | threadOf session threadId => exact h.hasThread hfact
  | finds key threadId =>
    obtain ⟨hmap, session, hsession, hthread⟩ := found_eq_some_iff.1 hfact
    refine found_eq_some_iff.2 ⟨?_, session, h.lookup _ hsession, h.hasThread hthread⟩
    rcases h.mapping with heq | ⟨key', threadId', heq, hchecked, -⟩
    · rw [heq, hmap]
    · by_cases hkey : key = key'
      · subst hkey
        rw [heq, hchecked threadId hfact]
        exact lookup_insert _
      · rw [heq, lookup_insert_ne hkey, hmap]

theorem Grows.isolated (h : Grows m m') (hm : Isolated m) : Isolated m' where
  valid := by
    intro userId session hlookup
    have hkept : ∀ i, i < m.heap.length → i < m'.heap.length := by
      intro i hi
      obtain ⟨s', hs', -⟩ := h.heap i _ (getElem?_eq_getElem hi)
      exact (List.getElem?_eq_some_iff.1 hs').1
    rcases h.sessions with heq | ⟨user, new, -, hlt, heq⟩
    · rw [heq] at hlookup
      exact hkept session (hm.valid userId session hlookup)
    · rw [heq] at hlookup
      by_cases huser : userId = user
      · subst huser
        rw [lookup_insert, some.injEq] at hlookup
        exact hlookup ▸ hlt
      · rw [lookup_insert_ne huser] at hlookup
        exact hkept session (hm.valid userId session hlookup)
  sameScope := by
    rcases h.mapping with heq | ⟨key, threadId, heq, -, hscope⟩
    · rw [heq]
      exact hm.sameScope
    rw [heq]
    intro key₁ key₂ id h₁ h₂
    by_cases heq₁ : key₁ = key
    · subst heq₁
      rw [lookup_insert, some.injEq] at h₁
      subst h₁
      by_cases heq₂ : key₂ = key₁
      · exact heq₂ ▸ ⟨rfl, rfl⟩
      · rw [lookup_insert_ne heq₂] at h₂
        exact ⟨(hscope key₂ h₂).1.symm, (hscope key₂ h₂).2.symm⟩
    · rw [lookup_insert_ne heq₁] at h₁
      by_cases heq₂ : key₂ = key
      · subst heq₂
        rw [lookup_insert, some.injEq] at h₂
        subst h₂
        exact hscope key₁ h₁
      · rw [lookup_insert_ne heq₂] at h₂
        exact hm.sameScope key₁ key₂ id h₁ h₂

end Grows

/-! ## Steps -/

theorem Isolated.new : Isolated Manager.new where
  valid := by simp [Manager.new]
  sameScope := by simp [Manager.new]

/-- Changing a session keeps its threads. -/
theorem Grows.modifySession (m : Manager) (target : SessionRef) {f : UserSession → UserSession}
    (hf : ∀ s threadId, threadId ∈ s.threads → threadId ∈ (f s).threads) :
    Grows m (m.modifySession target f) where
  sessions := .inl rfl
  heap := by
    intro session s hs
    refine ⟨if target = session then f s else s, ?_, fun threadId hthread => ?_⟩
    · rw [Manager.modifySession, getElem?_modify, hs]
      rfl
    · split
      · exact hf s threadId hthread
      · exact hthread
  mapping := .inl rfl

theorem mem_orInsert_of_mem {α β : Type} [DecidableEq α] {key key' : α} {value : β}
    {map : AList fun _ : α => β} (h : key' ∈ map) : key' ∈ orInsert key value map := by
  unfold orInsert
  split
  · exact h
  · exact (mem_insert _).2 (.inr h)

open SessionManager.Fact

/-- The caller knows the session that it tracks. -/
def TracksKnown : ManagerOp → Multiset Fact → Prop
  | .trackSession _ session, facts => ∃ owner, sessionOf owner session ∈ facts
  | _, _ => True

theorem isMapped_of_lookup (h : m.threadMap.lookup key = some threadId) :
    m.isMapped threadId = true :=
  any_eq_true.2 ⟨⟨key, threadId⟩, mem_lookup_iff.1 h, decide_eq_true rfl⟩

/-- If insertions are checked again, no step loses anything. -/
theorem grows_exec {facts : Multiset Fact} (h : Known Isolated Fact.Holds m facts)
    (htracks : TracksKnown op facts) (hok : Rechecked op m) : Grows m (op.exec m).2 := by
  have hheap : KeepsThreads m.heap m.heap := fun _ s hs => ⟨s, hs, fun _ hid => hid⟩
  cases op with
  | createSession userId =>
    simp only [exec]
    split
    · exact ⟨.inl rfl, hheap, .inl rfl⟩
    · next hnone =>
      refine ⟨.inr ⟨userId, _, lookup_eq_none.1 hnone, by simp, rfl⟩, ?_, .inl rfl⟩
      intro session s hs
      refine ⟨s, ?_, fun _ hid => hid⟩
      rw [getElem?_append_left (List.getElem?_eq_some_iff.1 hs).1, hs]
  | adoptThread key threadId =>
    simp only [exec]
    split
    · exact ⟨.inl rfl, hheap, .inl rfl⟩
    · next hmapped =>
      exact ⟨.inl rfl, hheap, .inr ⟨key, threadId, rfl, hok.resolve_left hmapped,
        fun key' hkey' => absurd (isMapped_of_lookup hkey') hmapped⟩⟩
  | createThread session =>
    have hgrows := Grows.modifySession m session
      (f := UserSession.createThread m.now m.nextUuid) fun s id => mem_orInsert_of_mem
    exact ⟨.inl rfl, hgrows.heap, .inl rfl⟩
  | switchThread session threadId =>
    refine Grows.modifySession m session fun s id hid => ?_
    unfold UserSession.switchThread
    split <;> exact hid
  | insertThread session thread =>
    simp only [exec]
    split
    · exact ⟨.inl rfl, hheap, .inl rfl⟩
    · exact Grows.modifySession m session fun s id hid => (mem_insert _).2 (.inr hid)
  | insertMapping key threadId =>
    exact ⟨.inl rfl, hheap, .inr ⟨key, threadId, rfl, hok.1, fun key' hkey' =>
      hok.2 ⟨key', threadId⟩ (mem_lookup_iff.1 hkey') rfl⟩⟩
  | trackSession userId session =>
    obtain ⟨owner, howner⟩ := htracks
    simp only [exec, orInsert]
    split
    · exact ⟨.inl rfl, hheap, .inl rfl⟩
    · next hnone =>
      exact ⟨.inr ⟨userId, session, hnone, h.1.valid owner session (h.2 _ howner), rfl⟩, hheap,
        .inl rfl⟩
  | removeSessions _ _ | retainMappings _ => exact hok.elim
  | _ => exact ⟨.inl rfl, hheap, .inl rfl⟩

/-! ## Calls -/

section Calls

variable {α : Type} {facts : Multiset Fact} {post : α → Multiset Fact → Prop}

/-- A call that starts with these facts keeps the threads isolated and ends with facts that
satisfy the postcondition. -/
abbrev Knowing (p : ManagerProgram α) (facts : Multiset Fact)
    (post : α → Multiset Fact → Prop) : Prop :=
  Safe exec Rechecked (Known Isolated Fact.Holds) p facts post

/-- The rule for a critical section. -/
theorem knowing_act {next : op.Resp → ManagerProgram α} (learned : op.Resp → Multiset Fact)
    (htracks : TracksKnown op facts) (hlearned : ∀ m, Known Isolated Fact.Holds m facts →
      ∀ fact ∈ learned (op.exec m).1, fact.Holds (op.exec m).2)
    (hnext : ∀ r, Knowing (next r) (learned r + facts) post) : Knowing (act op next) facts post :=
  Safe.learn learned
    (fun _ hok hknown => ⟨(grows_exec hknown htracks hok).isolated hknown.1,
      (grows_exec hknown htracks hok).holds⟩)
    (fun m _ hknown => hlearned m hknown) hnext

/-- The rule for a critical section that teaches nothing. -/
theorem knowing_quiet {next : op.Resp → ManagerProgram α} (htracks : TracksKnown op facts)
    (hnext : ∀ r, Knowing (next r) facts post) : Knowing (act op next) facts post :=
  knowing_act (fun _ => 0) htracks (fun _ _ _ hfact => absurd hfact (Multiset.notMem_zero _))
    fun r => by rw [zero_add]; exact hnext r

theorem safe_getOrCreateSession : Knowing (getOrCreateSession userId) facts fun session facts' =>
      facts' = {sessionOf userId session} + facts := by
  refine knowing_act (fun r => r.elim 0 fun session => {sessionOf userId session}) trivial
    ?_ ?_
  · intro m _ fact hfact
    cases hlookup : m.sessions.lookup userId with
    | none => simp [exec, hlookup] at hfact
    | some session =>
      simp only [exec, hlookup, elim_some, Multiset.mem_singleton] at hfact
      exact hfact ▸ hlookup
  · intro r
    cases r with
    | some session => exact rfl
    | none =>
      refine knowing_act (fun session => {sessionOf userId session}) trivial ?_ ?_
      · intro m _ fact hfact
        rw [Multiset.mem_singleton.1 hfact]
        cases hlookup : m.sessions.lookup userId with
        | some _ | none => simp [exec, Fact.Holds, hlookup]
      · intro session
        show _ = _
        rw [elim_none, zero_add]

theorem safe_returnThread (h : finds key threadId ∈ facts) :
    Knowing (returnThread session threadId) facts fun r facts' => finds key r.2 ∈ facts' :=
  knowing_quiet trivial fun _ => h

/-- A thread of the session that is mapped is found. -/
theorem found_insertMapping (hsession : m.sessions.lookup key.userId = some session)
    (hthread : m.hasThread session threadId = true) :
    ({ m with threadMap := m.threadMap.insert key threadId } : Manager).found key = some threadId :=
  found_eq_some_iff.2 ⟨lookup_insert _, session, hsession, hthread⟩

/-- A thread that is looked up in the session of the user is found. -/
theorem found_of_lookupThread (hsession : m.sessions.lookup key.userId = some session)
    (h : (exec (.lookupThread key session) m).1 = some threadId) :
    m.found key = some threadId := by
  obtain ⟨hlookup, hthread⟩ := filter_eq_some_iff.1 h
  exact found_eq_some_iff.2 ⟨hlookup, session, hsession, hthread⟩

/-- A created thread is a thread of its session. -/
theorem hasThread_createThread (hlt : session < m.heap.length) :
    (exec (.createThread session) m).2.hasThread session m.nextUuid = true := by
  refine (any_eq_true _ _).2
    ⟨UserSession.createThread m.now m.nextUuid m.heap[session], ?_, decide_eq_true ?_⟩
  · simp only [exec, modifySession, getElem?_modify, getElem?_eq_getElem hlt]
    rfl
  · simp only [UserSession.createThread, orInsert]
    split
    · assumption
    · exact (mem_insert _).2 (.inl rfl)

/-- What is learned from looking for a thread in a session. -/
theorem holds_hasThread {fact : Fact}
    (h : fact ∈ (if (exec (.hasThread session threadId) m).1 then
      ({threadOf session threadId} : Multiset Fact) else 0)) :
    fact.Holds (exec (.hasThread session threadId) m).2 := by
  cases hthread : m.hasThread session threadId with
  | false => simp [exec, hthread] at h
  | true =>
    simp only [exec, hthread, if_true, Multiset.mem_singleton] at h
    exact h ▸ hthread

/-- What is learned from adopting a thread. -/
theorem holds_adoptThread {fact : Fact} (hlookup : (sessionOf key.userId session).Holds m)
    (hthread : (threadOf session threadId).Holds m)
    (h : fact ∈ (if (exec (.adoptThread key threadId) m).1 then
      ({finds key threadId} : Multiset Fact) else 0)) :
    fact.Holds (exec (.adoptThread key threadId) m).2 := by
  cases hmapped : m.isMapped threadId with
  | true => simp [exec, hmapped] at h
  | false =>
    simp only [exec, hmapped, Bool.false_eq_true, if_false, if_true, Multiset.mem_singleton] at h ⊢
    exact h ▸ found_insertMapping hlookup hthread

/-- An adopted thread is found under the key from then on. -/
theorem safe_adoptExternalThread (key : ThreadKey) (session : SessionRef)
    (hsession : sessionOf key.userId session ∈ facts) :
    Knowing (adoptExternalThread env key session) facts fun r facts' =>
      sessionOf key.userId session ∈ facts' ∧
        ∀ threadId, r = some threadId → finds key threadId ∈ facts' := by
  unfold adoptExternalThread
  split
  · exact ⟨hsession, fun _ h => nomatch h⟩
  · next threadId _ =>
    refine knowing_quiet trivial fun elsewhere => ?_
    cases elsewhere with
    | true => exact ⟨hsession, fun _ h => nomatch h⟩
    | false =>
      refine knowing_act (fun known => if known then {threadOf session threadId} else 0)
        trivial ?_ fun known => ?_
      · exact fun m _ fact hfact => holds_hasThread hfact
      cases known with
      | false => exact ⟨by simpa using hsession, fun _ h => nomatch h⟩
      | true =>
        refine knowing_act (fun adopted => if adopted then {finds key threadId} else 0)
          trivial ?_ fun adopted => ?_
        · intro m hknown fact hfact
          have hlookup := hknown.2 _ (Multiset.mem_add.2 (.inr hsession))
          have hthread := hknown.2 (threadOf session threadId) (by simp)
          exact holds_adoptThread hlookup hthread hfact
        cases adopted with
        | false => exact ⟨by simpa using hsession, fun _ h => nomatch h⟩
        | true =>
          refine knowing_quiet trivial fun _ => ⟨by simpa using hsession, ?_⟩
          intro id hid
          cases hid
          simp

/-- A thread that is created and mapped is found under the key. -/
theorem safe_createAndMap (key : ThreadKey) (session : SessionRef)
    (hsession : sessionOf key.userId session ∈ facts) :
    Knowing (do
        let threadId ← locked (.createThread session)
        locked (.insertMapping key threadId)
        locked (.insertUndoManager threadId)
        returnThread session threadId) facts
      fun r facts' => finds key r.2 ∈ facts' := by
  refine knowing_act (fun threadId => {threadOf session threadId}) trivial ?_
    fun threadId => ?_
  · intro m hknown fact hfact
    rw [Multiset.mem_singleton.1 hfact]
    exact hasThread_createThread (hknown.1.valid _ session (hknown.2 _ hsession))
  refine knowing_act (fun _ => {finds key threadId}) trivial ?_ fun _ => ?_
  · intro m hknown fact hfact
    rw [Multiset.mem_singleton.1 hfact]
    have hlookup := hknown.2 _ (Multiset.mem_add.2 (.inr hsession))
    have hthread := hknown.2 (threadOf session threadId) (by simp)
    exact found_insertMapping hlookup hthread
  exact knowing_quiet trivial fun _ => safe_returnThread (by simp)

/-- What a resolution returns is found under its key. -/
theorem safe_resolveThread (userId channel : String) (externalThreadId : Option String) :
    Knowing (resolveThread env userId channel externalThreadId) 0 fun r facts =>
      finds ⟨userId, channel, externalThreadId⟩ r.2 ∈ facts := by
  refine (safe_getOrCreateSession userId).bind fun session facts hfacts => ?_
  have hsession : sessionOf userId session ∈ facts := by simp [hfacts]
  refine knowing_act
    (fun r => r.elim 0 fun id => {finds ⟨userId, channel, externalThreadId⟩ id})
    trivial ?_ fun mapped => ?_
  · intro m hknown fact hfact
    cases hanswer : (exec (.lookupThread ⟨userId, channel, externalThreadId⟩ session)
        m).1 with
    | none => simp [hanswer] at hfact
    | some threadId =>
      rw [hanswer, elim_some, Multiset.mem_singleton] at hfact
      exact hfact ▸ found_of_lookupThread (hknown.2 _ hsession) hanswer
  cases mapped with
  | some threadId => exact safe_returnThread (by simp)
  | none =>
    refine (safe_adoptExternalThread env _ session (by simpa using hsession)).bind
      fun adopted facts' hadopted => ?_
    cases adopted with
    | some threadId => exact safe_returnThread (hadopted.2 threadId rfl)
    | none => exact safe_createAndMap _ session hadopted.1

theorem safe_registerThread (owner userId channel : String) (threadId : Uuid) {session : SessionRef}
    (h : sessionOf owner session ∈ facts) :
    Knowing (registerThread env userId channel threadId session) facts fun _ _ => True :=
  knowing_quiet trivial fun _ => knowing_quiet trivial fun _ => knowing_quiet ⟨owner, h⟩
    fun _ => trivial

theorem safe_maybeHydrateThread (userId channel externalThreadId : String)
    (loaded : Except String (List ConversationMessage)) :
    Knowing (maybeHydrateThread env userId channel externalThreadId loaded) 0 fun _ _ => True := by
  unfold maybeHydrateThread
  split
  · exact trivial
  · next threadId _ =>
    refine (safe_getOrCreateSession userId).bind fun session facts hfacts => ?_
    have hsession : sessionOf userId session ∈ facts := by simp [hfacts]
    refine knowing_quiet trivial fun known => ?_
    cases known with
    | true => exact trivial
    | false =>
      cases loaded with
      | error message => exact trivial
      | ok dbMessages =>
        refine knowing_quiet trivial fun sessionId => knowing_quiet trivial fun now =>
          knowing_quiet trivial fun inserted => ?_
        cases inserted with
        | false => exact trivial
        | true =>
          exact (safe_registerThread env userId userId channel threadId hsession).bind
            fun _ _ _ => trivial

/-- Pruning gets no further than the removal of the sessions. -/
theorem safe_pruneStaleSessions_noRemoval (maxIdle : Nat)
    (contended contendedLater : SessionRef → Bool) :
    Knowing (pruneStaleSessions maxIdle contended contendedLater) 0 fun _ _ => True := by
  refine knowing_quiet trivial fun now => knowing_quiet trivial fun stale => ?_
  show Knowing (if (stale.map Prod.fst).isEmpty then _ else _) 0 _
  split
  · exact trivial
  · exact knowing_quiet trivial fun _ => knowing_quiet trivial fun _ =>
      knowing_quiet trivial fun _ => knowing_quiet trivial fun _ => trivial

theorem safe_processNewThread : Knowing (processNewThread env userId) 0 fun _ _ => True :=
  (safe_getOrCreateSession userId).bind fun _ _ _ => knowing_quiet trivial fun _ => trivial

theorem safe_processSwitchThread (targetThreadId : Uuid) :
    Knowing (processSwitchThread env userId targetThreadId) 0 fun _ _ => True := by
  refine (safe_getOrCreateSession userId).bind fun _ _ _ => knowing_quiet trivial fun switched => ?_
  cases switched with
  | true | false => exact trivial

end Calls

/-! ## Observed resolutions -/

/-- A program of the manager whose resolutions are recorded. -/
abbrev ObservedProgram :=
  Program (Observed ManagerOp (ThreadKey × Uuid)) (Observed.Answer ManagerOp.Resp) Unit

/-- The program of a call; a resolution records its key and the thread that it returns. -/
def ManagerCall.observed (env : ManagerEnv) : ManagerCall → ObservedProgram
  | resolveThread userId channel externalThreadId =>
    (SessionManager.resolveThread env userId channel externalThreadId).observe fun r =>
      some (⟨userId, channel, externalThreadId⟩, r.2)
  | call => (call.program env).observe fun _ => none

/-- The programs that may start. -/
def IsObservedCall (env : ManagerEnv) (p : ObservedProgram) : Prop :=
  ∃ call : ManagerCall, p = call.observed env

/-- What a recorded resolution leaves behind. -/
def resolved (event : ThreadKey × Uuid) : Multiset Fact :=
  {finds event.1 event.2}

/-- Every call keeps the threads isolated, and what resolutions have returned is found. -/
theorem safe_observedCall (p : ObservedProgram) (hp : IsObservedCall env p) :
    Safe (Observed.exec exec) (Observed.Guard Rechecked)
      (ObservedInv resolved (Known Isolated Fact.Holds)) p 0 fun _ _ => True := by
  obtain ⟨call, rfl⟩ := hp
  have hsilent : ∀ {q : ManagerProgram Unit}, Knowing q 0 (fun _ _ => True) →
      Safe (Observed.exec exec) (Observed.Guard Rechecked)
        (ObservedInv resolved (Known Isolated Fact.Holds)) (q.observe fun _ => none) 0
        fun _ _ => True :=
    fun hq => Safe.observe (hq.mono fun _ _ _ _ he => nomatch he)
  cases call with
  | tick elapsed => exact hsilent (knowing_quiet trivial fun _ => trivial)
  | resolveThread userId channel externalThreadId =>
    refine Safe.observe ((safe_resolveThread env userId channel externalThreadId).mono ?_)
    intro r facts hfound event hevent
    cases hevent
    obtain ⟨rest, hrest⟩ := Multiset.exists_cons_of_mem hfound
    exact ⟨rest, by rw [hrest, resolved, add_comm, Multiset.singleton_add]⟩
  | registerThread owner userId channel threadId =>
    refine hsilent ((safe_getOrCreateSession owner).bind fun session facts hfacts => ?_)
    exact safe_registerThread env owner userId channel threadId (by simp [hfacts])
  | maybeHydrateThread userId channel externalThreadId loaded =>
    exact hsilent ((safe_maybeHydrateThread env userId channel externalThreadId loaded).bind
      fun _ _ _ => trivial)
  | processNewThread userId =>
    exact hsilent ((safe_processNewThread env userId).bind fun _ _ _ => trivial)
  | processSwitchThread userId targetThreadId =>
    exact hsilent ((safe_processSwitchThread env userId targetThreadId).bind fun _ _ _ => trivial)
  | pruneStaleSessions maxIdle contended contendedLater =>
    exact hsilent ((safe_pruneStaleSessions_noRemoval maxIdle contended contendedLater).bind
      fun _ _ _ => trivial)

/-- If every insertion into the thread map is checked again and nothing is pruned, all
resolutions of one key return the same thread, and the keys of one thread are of one channel of
one user. -/
theorem resolutions_agree (env : ManagerEnv)
    (c : Config (Observed ManagerOp (ThreadKey × Uuid)) (Observed.Answer ManagerOp.Resp)
      (Manager × List (ThreadKey × Uuid)))
    (hc : Reachable (Observed.exec exec) (Observed.Guard Rechecked)
      (IsObservedCall env) (new, []) c) :
    (∀ key threadId threadId', (key, threadId) ∈ c.shared.2 → (key, threadId') ∈ c.shared.2 →
        threadId = threadId') ∧
      ∀ key key' threadId, c.shared.1.threadMap.lookup key = some threadId →
        c.shared.1.threadMap.lookup key' = some threadId →
          key.userId = key'.userId ∧ key.channel = key'.channel := by
  have hnew : Known Isolated Fact.Holds new 0 :=
    ⟨Isolated.new, fun _ hfact => absurd hfact (Multiset.notMem_zero _)⟩
  obtain ⟨facts, hisolated, hfacts⟩ := observed_adequacy (safe_observedCall env) hnew hc
  -- what was returned is still found
  have hfound : ∀ key threadId, (key, threadId) ∈ c.shared.2 →
      c.shared.1.found key = some threadId := by
    intro key threadId hmem
    have hdeposit : finds key threadId ∈ deposits resolved c.shared.2 :=
      mem_deposits hmem (Multiset.mem_singleton_self _)
    exact hfacts _ (Multiset.mem_add.2 (.inr hdeposit))
  refine ⟨?_, hisolated.sameScope⟩
  intro key threadId threadId' hmem hmem'
  have hsame := (hfound key threadId hmem).symm.trans (hfound key threadId' hmem')
  exact some.inj hsame

/-! ## Sample runs -/

/-- Run choices of the scheduler on a new manager. -/
def runObserved (env : ManagerEnv) (moves : List (Move ManagerCall)) :
    Config (Observed ManagerOp (ThreadKey × Uuid)) (Observed.Answer ManagerOp.Resp)
      (Manager × List (ThreadKey × Uuid)) :=
  moves.foldl (Config.move (Observed.exec exec) (ManagerCall.observed env))
    ⟨(new, []), []⟩

/-- Let the call at this place perform a number of steps. -/
def advances (i steps : Nat) : List (Move ManagerCall) :=
  replicate steps (.advance i)

/-- One resolution after the other. -/
def resolvedTwice : List (Move ManagerCall) :=
  .spawn resolvesDefault :: advances 0 8 ++ .spawn resolvesDefault :: advances 1 4

theorem resolutions_agree_sequential : (runObserved opaqueIds resolvedTwice).shared.2 =
        [(⟨"user", "cli", none⟩, 1), (⟨"user", "cli", none⟩, 1)] ∧
      ∀ key threadId threadId', (key, threadId) ∈ (runObserved opaqueIds resolvedTwice).shared.2 →
          (key, threadId') ∈ (runObserved opaqueIds resolvedTwice).shared.2 →
            threadId = threadId' :=
  ⟨by decide +kernel, (resolutions_agree opaqueIds _ (.of_moves (by decide +kernel))).1⟩

/-- Nothing is pruned. -/
def NoPruning : ManagerOp → Manager → Prop
  | .removeSessions _ _, _ => False
  | .retainMappings _, _ => False
  | _, _ => True

instance (op : ManagerOp) (m : Manager) : Decidable (NoPruning op m) := by
  apply casesOn (motive := fun op => Decidable (NoPruning op m)) op <;> intros <;>
    unfold NoPruning <;> infer_instance

/-- Two resolutions of one key look it up before one of them has mapped it. -/
def resolvedTogether : List (Move ManagerCall) :=
  [.spawn resolvesDefault, .spawn resolvesDefault] ++ advances 0 3 ++ advances 1 2 ++
    advances 0 5 ++ advances 1 5

/-- An environment in which one text is read as an identifier. -/
def oneId : ManagerEnv :=
  { opaqueIds with parseUuid := fun text => if text = "thread" then some 1 else none }

/-- Another channel adopts a thread between its creation and its mapping. -/
def adoptedBeforeMapping : List (Move ManagerCall) :=
  [.spawn resolvesDefault, .spawn (.resolveThread "user" "web" (some "thread"))] ++
    advances 0 4 ++ advances 1 7 ++ advances 0 4

/-- Two resolutions of one key return different threads, and two channels map one thread. -/
theorem resolutions_disagree :
    (∃ c, Reachable (Observed.exec exec) (Observed.Guard NoPruning)
        (IsObservedCall opaqueIds) (new, []) c ∧
        c.shared.2 = [(⟨"user", "cli", none⟩, 2), (⟨"user", "cli", none⟩, 1)]) ∧
      ∃ c, Reachable (Observed.exec exec) (Observed.Guard NoPruning)
        (IsObservedCall oneId) (new, []) c ∧
        c.shared.1.threadMap.lookup ⟨"user", "cli", none⟩ = some 1 ∧
          c.shared.1.threadMap.lookup ⟨"user", "web", some "thread"⟩ = some 1 :=
  ⟨⟨runObserved opaqueIds resolvedTogether, .of_moves (by decide +kernel), by decide +kernel⟩,
    ⟨runObserved oneId adoptedBeforeMapping, .of_moves (by decide +kernel), by decide +kernel⟩⟩

end Axinite.SessionManager
