import Axinite.Foundation.Replacing
import Axinite.Foundation.Runs
import Axinite.Foundation.Utf8
import Axinite.Json

/-!
# The pairing store

Unknown senders of a channel get a one-time code, and the operator approves codes.  Pending
requests, approved senders and failed attempts stand in three files for each channel.  A file
is represented by what its text parses to, and a timestamp by the second it stands for.

Every operation opens its file, reads the text, and writes the changed value back.  The file of
the approved senders is truncated when it is opened, so nothing is left of it to be read: each
approval starts a new list.

Main results:

- Theorem `addAllowFrom_eq`: an approval leaves one entry in the list.
- Theorem `approve_cases`: the effect of an approval on the list, and when it takes place.
- Theorem `approvals_accumulate_iff`: the runs in which approved senders stay allowed.
-/

namespace Axinite.Pairing

open Foundation Json List
open Foundation.Utf8 (trim trim_trim)

/-- Text as a list of characters. -/
abbrev Text := List Char

/-- The case mappings of Unicode. -/
structure Unicode where
  toLowercase : Text → Text
  toUppercase : Text → Text

/-- Errors of the store; file operations do not fail here. -/
inductive PairingStoreError where
  | invalidChannel (reason : Text)
  | approveRateLimited
  deriving DecidableEq

/-! ## Files -/

/-- A file that may be missing, with the value its text parses to. -/
inductive JsonFile (α : Type) where
  | missing
  | present (parsed : Option α)
  deriving DecidableEq

namespace JsonFile

variable {α : Type}

/-- The value that the file holds, if there is one to be read. -/
def value? : JsonFile α → Option α
  | missing => none
  | present parsed => parsed

/-- Open with `create(true)`: a new file is empty. -/
def openCreate : JsonFile α → JsonFile α
  | missing => present none
  | file => file

/-- Open with `create(true)` and `truncate(true)`: the file is empty. -/
def openTruncate (_ : JsonFile α) : JsonFile α :=
  present none

end JsonFile

/-- A pending pairing request. -/
structure PairingRequest where
  id : Text
  code : Text
  createdAt : Nat
  lastSeenAt : Nat
  metadata : Option Value
  deriving DecidableEq

structure ChannelFiles where
  pairing : JsonFile (List PairingRequest)
  allowFrom : JsonFile (List Text)
  approveAttempts : JsonFile (List Nat)

/-- The directory of the store: the files for each channel key. -/
abbrev PairingStore := Text → ChannelFiles

/-- A store without files. -/
def PairingStore.empty : PairingStore :=
  fun _ => { pairing := .missing, allowFrom := .missing, approveAttempts := .missing }

/-- The part of the file names that stands for the channel. -/
def safeChannelKey (unicode : Unicode) (channel : Text) : Except PairingStoreError Text :=
  let raw := unicode.toLowercase (trim channel)
  if raw.isEmpty then .error (.invalidChannel "empty".toList)
  else
    let safe := Replacing.replace "..".toList "_".toList
      (raw.map fun c => if c ∈ "\\/:*?\"<>|".toList then '_' else c)
    if safe.isEmpty ∨ safe = "_".toList then .error (.invalidChannel channel)
    else .ok safe

/-! ## Pending requests -/

def pairingPendingMax : Nat := 3

def pairingPendingTtlSecs : Nat := 15 * 60

def isExpired (req : PairingRequest) (nowSecs : Nat) : Bool :=
  nowSecs - req.createdAt > pairingPendingTtlSecs

def pairingCodeLength : Nat := 8

def pairingAlphabet : Text := "ABCDEFGHJKLMNPQRSTUVWXYZ23456789".toList

/-- What the random number generator yields: the positions in the alphabet for every code that
is tried, and the number of the last resort. -/
structure Draws where
  position : Nat → Nat → Fin pairingAlphabet.length
  suffix : Fin 10000

def randomCode (positions : Nat → Fin pairingAlphabet.length) : Text :=
  (range pairingCodeLength).map fun i => pairingAlphabet.get (positions i)

/-- A number with four digits. -/
def fourDigits (n : Fin 10000) : Text :=
  [n / 1000, n / 100 % 10, n / 10 % 10, n % 10].map fun digit => Char.ofNat (digit.val + '0'.toNat)

/-- A random code that is not in use, or one with a random number behind it. -/
def generateUniqueCode (draws : Draws) (existing : List Text) : Text :=
  match (range 500).find? fun i => !existing.contains (randomCode (draws.position i)) with
  | some i => randomCode (draws.position i)
  | none => randomCode (draws.position 500) ++ fourDigits draws.suffix

/-- The request as it is read back: metadata that is `null` is taken for absent. -/
def PairingRequest.asRead (req : PairingRequest) : PairingRequest :=
  { req with metadata := req.metadata.filter fun value => value ≠ .null }

/-- Rewrite the file of the pending requests. -/
def writePairingFileLocked (requests : List PairingRequest) : JsonFile (List PairingRequest) :=
  .present (some (requests.map PairingRequest.asRead))

/-- Answer to a pairing request. -/
structure UpsertResult where
  code : Text
  created : Bool
  deriving DecidableEq

/-- Record the request of a sender in the file of the channel. -/
def upsertRequestIn (unicode : Unicode) (file : JsonFile (List PairingRequest)) (id : Text)
    (metadata : Option Value) (now nowSecs : Nat) (draws : Draws) :
    JsonFile (List PairingRequest) × Except PairingStoreError UpsertResult :=
  let file := file.openCreate
  let requests := file.value?.getD []
  let id := trim id
  if id.isEmpty then (file, .error (.invalidChannel "empty id".toList))
  else
    let requests := requests.filter fun r => !isExpired r nowSecs
    let existingCodes := requests.map fun r => unicode.toUppercase r.code
    match requests.find? fun r => r.id = id with
    | some req =>
      let code := if req.code.isEmpty then generateUniqueCode draws existingCodes else req.code
      let requests := requests.modify (requests.findIdx fun r => r.id = id) fun req =>
        { req with lastSeenAt := now, code := code, metadata := metadata.or req.metadata }
      (writePairingFileLocked requests, .ok { code := code, created := false })
    | none =>
      if requests.length ≥ pairingPendingMax then (file, .ok { code := [], created := false })
      else
        let code := generateUniqueCode draws existingCodes
        let request : PairingRequest :=
          { id := id, code := code, createdAt := now, lastSeenAt := now, metadata := metadata }
        (writePairingFileLocked (requests ++ [request]), .ok { code := code, created := true })

/-- Record the request of a sender. -/
def PairingStore.upsertRequest (unicode : Unicode) (store : PairingStore) (channel id : Text)
    (metadata : Option Value) (now nowSecs : Nat) (draws : Draws) :
    PairingStore × Except PairingStoreError UpsertResult :=
  match safeChannelKey unicode channel with
  | .error e => (store, .error e)
  | .ok key =>
    let upserted := upsertRequestIn unicode (store key).pairing id metadata now nowSecs draws
    (Function.update store key { store key with pairing := upserted.1 }, upserted.2)

/-! ## The list of allowed senders -/

/-- The entries of the list; without a file there are none. -/
def PairingStore.readAllowFrom (unicode : Unicode) (store : PairingStore) (channel : Text) :
    Except PairingStoreError (List Text) := do
  let key ← safeChannelKey unicode channel
  .ok ((store key).allowFrom.value?.getD [])

/-- The sender is allowed by their id or by their user name. -/
def PairingStore.isSenderAllowed (unicode : Unicode) (store : PairingStore) (channel id : Text)
    (username : Option Text) : Except PairingStoreError Bool := do
  let allow ← store.readAllowFrom unicode channel
  if allow.any fun e => trim e = trim id then .ok true
  else
    match username with
    | none => .ok false
    | some u =>
      let u := unicode.toLowercase (trim u)
      let uNorm := if u.head? = some '@' then u.tail else u
      .ok (allow.any fun e =>
        unicode.toLowercase (trim e) = u ∨ unicode.toLowercase (trim e) = '@' :: uNorm)

/-- Add an entry to the file of the allowed senders. -/
def addAllowFrom (unicode : Unicode) (file : JsonFile (List Text)) (entry : Text) :
    JsonFile (List Text) :=
  let entry := trim entry
  if entry.isEmpty then file
  else
    let file := file.openTruncate
    let allowFrom := file.value?.getD []
    let normalized := unicode.toLowercase entry
    if allowFrom.any fun e => unicode.toLowercase e = normalized then file
    else .present (some (allowFrom ++ [entry]))

/-- The file is truncated before it is read, so that the new entry is its only one. -/
theorem addAllowFrom_eq (unicode : Unicode) (file : JsonFile (List Text)) (entry : Text) :
    addAllowFrom unicode file entry =
      if trim entry = [] then file else .present (some [trim entry]) := by
  simp [addAllowFrom, JsonFile.openTruncate, JsonFile.value?]

/-! ## Approvals -/

def pairingApproveRateLimit : Nat := 10

def pairingApproveRateWindowSecs : Nat := 5 * 60

/-- The failed attempts within the window. -/
def recentFailures (failedAt : List Nat) (now : Nat) : List Nat :=
  failedAt.filter fun t => t ≥ now - pairingApproveRateWindowSecs

def isApproveRateLimited (file : JsonFile (List Nat)) (now : Nat) : Bool :=
  (recentFailures (file.value?.getD []) now).length ≥ pairingApproveRateLimit

def recordFailedApprove (file : JsonFile (List Nat)) (now : Nat) : JsonFile (List Nat) :=
  .present (some (recentFailures (file.value?.getD [] ++ [now]) now))

/-- The times at which an approval reads the clock. -/
structure ApproveTimes where
  limit : Nat
  expiry : Nat
  failure : Nat

/-- Approve a code, given in capitals, in the files of the channel. -/
def approveIn (unicode : Unicode) (files : ChannelFiles) (code : Text) (times : ApproveTimes) :
    ChannelFiles × Except PairingStoreError (Option PairingRequest) :=
  if isApproveRateLimited files.approveAttempts times.limit then
    (files, .error .approveRateLimited)
  else
    match files.pairing with
    | .missing => (files, .error (.invalidChannel "no pairing file".toList))
    | .present parsed =>
      let requests := (parsed.getD []).filter fun r => !isExpired r times.expiry
      match requests.find? fun r => unicode.toUppercase r.code = code with
      | none =>
        ({ files with
            approveAttempts := recordFailedApprove files.approveAttempts times.failure },
          .ok none)
      | some entry =>
        ({ files with
            pairing := writePairingFileLocked
              (requests.eraseP fun r => unicode.toUppercase r.code = code)
            allowFrom := addAllowFrom unicode files.allowFrom entry.id },
          .ok (some entry))

/-- Approve a code and add the sender to the list of allowed senders. -/
def PairingStore.approve (unicode : Unicode) (store : PairingStore) (channel code : Text)
    (times : ApproveTimes) : PairingStore × Except PairingStoreError (Option PairingRequest) :=
  let code := unicode.toUppercase (trim code)
  if code.isEmpty then (store, .ok none)
  else
    match safeChannelKey unicode channel with
    | .error e => (store, .error e)
    | .ok key =>
      let approved := approveIn unicode (store key) code times
      (Function.update store key approved.1, approved.2)

open PairingStore

/-! ## Runs -/

section Runs

variable (unicode : Unicode) (channel : Text)

/-- Calls of the store. -/
inductive PairingCall where
  | upsertRequest (id : Text) (metadata : Option Value) (now nowSecs : Nat) (draws : Draws)
  | approve (code : Text) (times : ApproveTimes)

/-- The store, with the senders whose approval has succeeded and the entries that the list of
allowed senders has had before one of the calls. -/
structure Ledger where
  store : PairingStore
  approved : List Text
  listed : List Text

/-- The entries of the list, of which an invalid channel has none. -/
def PairingStore.entries (store : PairingStore) : List Text :=
  ((store.readAllowFrom unicode channel).toOption).getD []

/-- Nothing has been approved yet. -/
def Ledger.start (store : PairingStore) : Ledger :=
  { store := store, approved := [], listed := [] }

/-- The request that the call approves. -/
def Ledger.approves (s : Ledger) : PairingCall → Option PairingRequest
  | .upsertRequest .. => none
  | .approve code times =>
    ((s.store.approve unicode channel code times).2.toOption).join

/-- The store after the call. -/
def PairingCall.apply (store : PairingStore) : PairingCall → PairingStore
  | .upsertRequest id metadata now nowSecs draws =>
    (store.upsertRequest unicode channel id metadata now nowSecs draws).1
  | .approve code times => (store.approve unicode channel code times).1

def Ledger.step (s : Ledger) (call : PairingCall) : Ledger where
  store := call.apply unicode channel s.store
  approved := ((s.approves unicode channel call).map PairingRequest.id).toList ++ s.approved
  listed := s.store.entries unicode channel ++ s.listed

/-- Approved senders are allowed, and no entry has been removed. -/
def Ledger.Accumulated (s : Ledger) : Prop :=
  (∀ id ∈ s.approved, s.store.isSenderAllowed unicode channel id none = .ok true) ∧
    ∀ entry ∈ s.listed, entry ∈ s.store.entries unicode channel

/-- The list holds no other sender at the time of an approval.  A request with a blank id adds
nothing, and needs a blank entry. -/
def Ledger.ApprovesAlone (s : Ledger) (call : PairingCall) : Prop :=
  ∀ request, s.approves unicode channel call = some request →
    if trim request.id = [] then ∃ entry ∈ s.store.entries unicode channel, trim entry = []
    else ∀ entry ∈ s.store.entries unicode channel, entry = trim request.id

variable {unicode channel}

theorem entries_eq {store : PairingStore} {key : Text}
    (hkey : safeChannelKey unicode channel = .ok key) :
    store.entries unicode channel = (store key).allowFrom.value?.getD [] := by
  simp [entries, readAllowFrom, hkey, bind, Except.bind, Except.toOption]

theorem isSenderAllowed_iff {store : PairingStore} {id : Text} :
    store.isSenderAllowed unicode channel id none = .ok true ↔
      ∃ entry ∈ store.entries unicode channel, trim entry = trim id := by
  unfold isSenderAllowed entries
  cases store.readAllowFrom unicode channel with
  | error _ | ok _ => simp [bind, Except.bind, Except.toOption]

/-- What a call makes of the files of its channel, and the request that it approves. -/
def PairingCall.applyIn (unicode : Unicode) (files : ChannelFiles) :
    PairingCall → ChannelFiles × Option PairingRequest
  | .upsertRequest id metadata now nowSecs draws =>
    ({ files with
        pairing := (upsertRequestIn unicode files.pairing id metadata now nowSecs draws).1 }, none)
  | .approve code times =>
    let code := unicode.toUppercase (trim code)
    if code.isEmpty then (files, none)
    else
      let approved := approveIn unicode files code times
      (approved.1, approved.2.toOption.join)

/-- A call changes the files of its channel only, of which an invalid channel has none. -/
theorem apply_cases (s : Ledger) (call : PairingCall) :
    (call.apply unicode channel s.store = s.store ∧ s.approves unicode channel call = none) ∨
    ∃ key, safeChannelKey unicode channel = .ok key ∧
      call.apply unicode channel s.store =
        Function.update s.store key (call.applyIn unicode (s.store key)).1 ∧
      s.approves unicode channel call = (call.applyIn unicode (s.store key)).2 := by
  cases call with
  | upsertRequest id metadata now nowSecs draws =>
    simp only [PairingCall.apply, upsertRequest]
    cases safeChannelKey unicode channel with
    | error e => exact .inl ⟨rfl, rfl⟩
    | ok key => exact .inr ⟨key, rfl, rfl, rfl⟩
  | approve code times =>
    simp only [PairingCall.apply, Ledger.approves, approve, PairingCall.applyIn]
    split
    · exact .inl ⟨rfl, rfl⟩
    · cases safeChannelKey unicode channel with
      | error e => exact .inl ⟨rfl, rfl⟩
      | ok key => exact .inr ⟨key, rfl, rfl, rfl⟩

/-- The effect of a call on the files of its channel: an approval adds the sender of a pending
request, and what is pending was pending before or is new. -/
structure FilesEffect (unicode : Unicode) (files : ChannelFiles)
    (done : ChannelFiles × Option PairingRequest) : Prop where
  listed : done.1.allowFrom =
    done.2.elim files.allowFrom fun request => addAllowFrom unicode files.allowFrom request.id
  approved : ∀ request ∈ done.2, request ∈ files.pairing.value?.getD []
  pending : ∀ request ∈ done.1.pairing.value?.getD [],
    (∃ before ∈ files.pairing.value?.getD [], request.id = before.id) ∨
      ∃ id, request.id = trim id ∧ trim id ≠ []

theorem filesEffect_self (files : ChannelFiles) (approveAttempts : JsonFile (List Nat)) :
    FilesEffect unicode files ({ files with approveAttempts }, none) :=
  ⟨rfl, nofun, fun request hrequest => .inl ⟨request, hrequest, rfl⟩⟩

theorem mem_asRead {request : PairingRequest} {requests : List PairingRequest}
    (h : request ∈ (writePairingFileLocked requests).value?.getD []) :
    ∃ written ∈ requests, request.id = written.id := by
  obtain ⟨written, hwritten, rfl⟩ := mem_map.1 h
  exact ⟨written, hwritten, rfl⟩

theorem applyIn_effect (files : ChannelFiles) (call : PairingCall) :
    FilesEffect unicode files (call.applyIn unicode files) := by
  cases call with
  | upsertRequest id metadata now nowSecs draws =>
    refine ⟨rfl, nofun, fun request h => ?_⟩
    have hopen : files.pairing.openCreate.value?.getD [] = files.pairing.value?.getD [] := by
      cases files.pairing <;> rfl
    simp only [PairingCall.applyIn, upsertRequestIn, hopen] at h
    split at h
    · exact .inl ⟨request, hopen ▸ h, rfl⟩
    next hid =>
    split at h
    · obtain ⟨written, hwritten, hsame⟩ := mem_asRead h
      obtain ⟨i, hi, rfl⟩ := getElem_of_mem hwritten
      rw [getElem_modify] at hsame
      refine .inl ⟨_, (mem_filter.1 (getElem_mem (by simpa using hi))).1, ?_⟩
      rw [hsame]
      split <;> rfl
    split at h
    · exact .inl ⟨request, hopen ▸ h, rfl⟩
    · obtain ⟨written, hwritten, hsame⟩ := mem_asRead h
      rcases mem_append.1 hwritten with hold | hnew
      · exact .inl ⟨written, (mem_filter.1 hold).1, hsame⟩
      · rw [mem_singleton.1 hnew] at hsame
        exact .inr ⟨id, hsame, by simpa using hid⟩
  | approve code times =>
    simp only [PairingCall.applyIn, approveIn]
    split
    · exact filesEffect_self _ _
    split
    · exact filesEffect_self _ _
    split
    · exact filesEffect_self _ _
    next parsed hparsed =>
    split
    · exact filesEffect_self _ _
    · next entry hentry =>
      refine ⟨rfl, ?_, fun request h => .inl ?_⟩
      · rintro _ ⟨⟩
        rw [hparsed]
        exact (mem_filter.1 (mem_of_find?_eq_some hentry)).1
      · obtain ⟨written, hwritten, hsame⟩ := mem_asRead h
        rw [hparsed]
        exact ⟨written, (mem_filter.1 (mem_of_mem_eraseP hwritten)).1, hsame⟩

/-- The effect of a call on the list. -/
theorem step_cases (s : Ledger) (call : PairingCall) : (s.approves unicode channel call = none ∧
      (call.apply unicode channel s.store).entries unicode channel =
        s.store.entries unicode channel) ∨
    ∃ key request, safeChannelKey unicode channel = .ok key ∧
      s.approves unicode channel call = some request ∧
      (call.apply unicode channel s.store).entries unicode channel =
        if trim request.id = [] then s.store.entries unicode channel else [trim request.id] := by
  rcases apply_cases s call with ⟨hstore, hnone⟩ | ⟨key, hkey, hstore, happroves⟩
  · exact .inl ⟨hnone, by rw [hstore]⟩
  · rw [happroves, hstore, entries_eq hkey, entries_eq hkey, Function.update_self,
      (applyIn_effect _ call).listed]
    cases (call.applyIn unicode (s.store key)).2 with
    | none => exact .inl ⟨rfl, rfl⟩
    | some request =>
      refine .inr ⟨key, request, hkey, rfl, ?_⟩
      rw [Option.elim_some, addAllowFrom_eq]
      split <;> rfl

/-- A call keeps approvals and entries exactly if it approves no sender beside others. -/
theorem accumulated_step_iff (s : Ledger) (call : PairingCall)
    (hs : s.Accumulated unicode channel) :
    (s.step unicode channel call).Accumulated unicode channel ↔
      s.ApprovesAlone unicode channel call := by
  rcases step_cases s call with ⟨hnone, hsame⟩ | ⟨key, request, hkey, hsome, hentries⟩
  · have halone : s.ApprovesAlone unicode channel call := by
      intro request hrequest
      rw [hnone] at hrequest
      cases hrequest
    refine iff_of_true ?_ halone
    simp only [Ledger.Accumulated, isSenderAllowed_iff] at hs ⊢
    simp only [Ledger.step, hnone, hsame, Option.map_none, Option.toList_none, nil_append,
      forall_mem_append]
    exact ⟨hs.1, fun _ hentry => hentry, hs.2⟩
  · simp only [Ledger.Accumulated, isSenderAllowed_iff] at hs ⊢
    simp only [Ledger.step, hsome, hentries, Ledger.ApprovesAlone, Option.map_some,
      Option.toList_some, singleton_append, forall_mem_cons, forall_mem_append,
      Option.some.injEq, forall_eq']
    by_cases hblank : trim request.id = []
    · simp only [hblank]
      constructor
      · intro h
        exact h.1.1
      · intro hentry
        exact ⟨⟨hentry, hs.1⟩, fun _ hbefore => hbefore, hs.2⟩
    · simp only [hblank, if_false, mem_singleton]
      constructor
      · intro h
        exact h.2.1
      · intro honly
        -- the only entry that the list may have had is the new one
        have hnew : ∀ id, (∃ entry ∈ s.store.entries unicode channel, trim entry = trim id) →
            ∃ entry, entry = trim request.id ∧ trim entry = trim id := by
          rintro id ⟨entry, hentry, htrim⟩
          exact ⟨entry, honly _ hentry, htrim⟩
        exact ⟨⟨⟨trim _, rfl, trim_trim _⟩,
          fun id hid => hnew id (hs.1 id hid)⟩, honly,
          fun entry hearlier => honly entry (hs.2 entry hearlier)⟩

/-- In a run of calls approved senders stay allowed, and entries stay on the list, exactly if
no sender is approved while another one is on the list. -/
theorem approvals_accumulate_iff (unicode : Unicode) (channel : Text) (store : PairingStore)
    (calls : List PairingCall) :
    (∀ s ∈ Runs.visited (Ledger.step unicode channel) (Ledger.start store) calls,
        s.Accumulated unicode channel) ↔
      Runs.AllSteps (Ledger.step unicode channel) (Ledger.ApprovesAlone unicode channel)
        (Ledger.start store) calls := by
  refine Runs.forall_mem_visited_iff accumulated_step_iff ?_ _
  exact ⟨by simp [Ledger.start], by simp [Ledger.start]⟩

/-- Case mappings of ASCII text. -/
def ascii : Unicode where
  toLowercase := map Char.toLower
  toUppercase := map Char.toUpper

/-- Draws for which the codes of the store are all the same letter. -/
def constantDraws (letter : Fin pairingAlphabet.length) : Draws where
  position := fun _ _ => letter
  suffix := 0

/-- Two senders ask for a code and are approved. -/
def twoSenders : List PairingCall :=
  [.upsertRequest "user123".toList none 0 0 (constantDraws ⟨0, by decide⟩),
    .approve "AAAAAAAA".toList ⟨1, 1, 1⟩,
    .upsertRequest "user456".toList none 2 2 (constantDraws ⟨1, by decide⟩),
    .approve "BBBBBBBB".toList ⟨3, 3, 3⟩]

/-- The approval of the second sender removes the first one. -/
theorem second_approval_forgets_first :
    let s := twoSenders.foldl (Ledger.step ascii "telegram".toList) (Ledger.start .empty)
    s.approved = ["user456".toList, "user123".toList] ∧
      s.store.isSenderAllowed ascii "telegram".toList "user123".toList none = .ok false ∧
      ¬ ∀ s ∈ Runs.visited (Ledger.step ascii "telegram".toList) (Ledger.start .empty) twoSenders,
        s.Accumulated ascii "telegram".toList := by
  refine ⟨by decide +kernel, by decide +kernel, ?_⟩
  intro h
  have hlast := (h _ (Runs.foldl_mem_visited _ _ _)).1 "user123".toList (by decide +kernel)
  revert hlast
  decide +kernel

end Runs

end Axinite.Pairing
