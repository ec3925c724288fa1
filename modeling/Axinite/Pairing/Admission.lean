import Axinite.Pairing.Store

/-!
# Who is admitted

A sender is admitted if the list of the channel names them.  The list stands in a file whose name
does not tell all channels apart, and it is compared with the id of the sender as well as with
the user name, which the sender chooses.  The list of a channel holds the sender that was
approved last under the name of its file, so a sender may be admitted who was never approved.

Main results:

- Theorem `recorded_step`: the list holds the sender who was approved last.
- Theorem `isSenderAllowed_run_iff`: who is admitted, in terms of the approvals.
- Theorem `admitted_if_approved_iff`: the queries for which only approved senders are admitted.
-/

namespace Axinite.Pairing

open Foundation Json List
open Foundation.Utf8 (trim trim_trim)

/-! ## Approvals of all channels -/

/-- A request that was approved on a channel. -/
structure Approval where
  channel : Text
  request : PairingRequest

/-- The store, with the approvals that have succeeded, the last one first. -/
structure Register where
  store : PairingStore
  approvals : List Approval

/-- Nothing has been approved, and there are no files. -/
def Register.start : Register :=
  { store := .empty, approvals := [] }

variable (unicode : Unicode)

/-- A call on a channel. -/
def Register.step (s : Register) (call : Text × PairingCall) : Register where
  store := call.2.apply unicode call.1 s.store
  approvals :=
    (((Ledger.start s.store).approves unicode call.1 call.2).map (Approval.mk call.1)).toList ++
      s.approvals

/-- The last approval on a channel with this file name. -/
def Register.lastUnder (s : Register) (key : Text) : Option Approval :=
  s.approvals.find? fun approval => safeChannelKey unicode approval.channel = .ok key

/-- The pending requests under a file name. -/
def PairingStore.pendingUnder (store : PairingStore) (key : Text) : List PairingRequest :=
  (store key).pairing.value?.getD []

/-- Requests have trimmed ids, and every list holds the sender who was approved last. -/
structure Recorded (s : Register) : Prop where
  pending : ∀ key, ∀ request ∈ s.store.pendingUnder key,
    trim request.id = request.id ∧ request.id ≠ []
  approved : ∀ approval ∈ s.approvals, trim approval.request.id = approval.request.id
  listed : ∀ key, (s.store key).allowFrom.value?.getD [] =
    ((s.lastUnder unicode key).map fun approval => approval.request.id).toList

variable {unicode}

open Register

theorem recorded_start : Recorded unicode start where
  pending := by
    intro key request hrequest
    cases hrequest
  approved := by
    intro approval happroval
    cases happroval
  listed := fun _ => rfl

/-! ## The list holds the last approval -/

open PairingStore

theorem recorded_step {s : Register} (h : Recorded unicode s) (call : Text × PairingCall) :
    Recorded unicode (s.step unicode call) := by
  obtain ⟨channel, call⟩ := call
  change Recorded unicode ⟨call.apply unicode channel (Ledger.start s.store).store, _⟩
  rcases @apply_cases unicode channel (Ledger.start s.store) call with
    ⟨hstore, hnone⟩ | ⟨key, hkey, hstore, happroves⟩
  · rw [hnone, hstore]
    exact h
  · obtain ⟨hlisted, happroved, hpending⟩ := @applyIn_effect unicode (s.store key) call
    rw [happroves, hstore]
    simp only [Ledger.start]
    generalize call.applyIn unicode (s.store key) = done at *
    have htrim : ∀ request ∈ done.2, trim request.id = request.id ∧ request.id ≠ [] :=
      fun request hrequest => h.pending key request (happroved request hrequest)
    refine ⟨fun other request hrequest => ?_, fun approval hmem => ?_, fun other => ?_⟩
    · by_cases hother : other = key
      · subst hother
        simp only [pendingUnder, Function.update_self] at hrequest
        rcases hpending request hrequest with ⟨before, hbefore, hsame⟩ | ⟨id, hid, hne⟩
        · rw [hsame]
          exact h.pending _ _ hbefore
        · rw [hid]
          exact ⟨trim_trim id, hne⟩
      · simp only [pendingUnder, Function.update_of_ne hother] at hrequest
        exact h.pending _ _ hrequest
    · rcases mem_append.1 hmem with hnew | hold
      · obtain ⟨request, hsome, rfl⟩ := Option.map_eq_some_iff.1 (Option.mem_toList.1 hnew)
        exact (htrim _ hsome).1
      · exact h.approved _ hold
    · have hlast := h.listed other
      simp only [lastUnder] at hlast ⊢
      by_cases hother : other = key
      · subst hother
        rw [Function.update_self, hlisted]
        cases hdone : done.2 with
        | none => exact hlast
        | some request =>
          obtain ⟨hid, hne⟩ := htrim request hdone
          simp [addAllowFrom_eq, hid, hne, hkey, JsonFile.value?]
      · rw [Function.update_of_ne hother, hlast]
        cases done.2 with
        | none => rfl
        | some request => simp [hkey, Ne.symm hother]

theorem recorded_run (unicode : Unicode) (calls : List (Text × PairingCall)) :
    Recorded unicode (calls.foldl (step unicode) start) :=
  Runs.invariant_run (Recorded _) (fun _ call h => recorded_step h call) recorded_start _

/-! ## Admission -/

variable (unicode)

/-- The last approval on a channel that has the same file as this one. -/
def Register.lastFor (s : Register) (channel : Text) : Option Approval :=
  match safeChannelKey unicode channel with
  | .ok key => s.lastUnder unicode key
  | .error _ => none

/-- The user name is the entry, up to case, or it is so after an at sign. -/
def NamesEntry (username entry : Text) : Prop :=
  let u := unicode.toLowercase (trim username)
  unicode.toLowercase entry = u ∨
    unicode.toLowercase entry = '@' :: (if u.head? = some '@' then u.tail else u)

/-- The sender has been approved on a channel of the same name. -/
def Register.Approved (s : Register) (channel id : Text) : Prop :=
  ∃ approval ∈ s.approvals,
    unicode.toLowercase (trim approval.channel) = unicode.toLowercase (trim channel) ∧
      approval.request.id = trim id
  deriving Decidable

variable {unicode}

theorem isSenderAllowed_username_iff {store : PairingStore} {channel id : Text}
    {username : Option Text} :
    store.isSenderAllowed unicode channel id username = .ok true ↔
      ∃ entry ∈ store.entries unicode channel,
        trim entry = trim id ∨ ∃ u ∈ username, NamesEntry unicode u (trim entry) := by
  cases username with
  | none => simpa using isSenderAllowed_iff
  | some u =>
    unfold isSenderAllowed entries
    cases store.readAllowFrom unicode channel with
    | error e => simp [bind, Except.bind, Except.toOption]
    | ok allow =>
      simp only [bind, Except.bind, Option.mem_some_iff,
        exists_eq_left', NamesEntry]
      split
      · next hid =>
        obtain ⟨entry, hentry, hsame⟩ := any_eq_true.1 hid
        exact iff_of_true rfl ⟨entry, hentry, .inl (by simpa using hsame)⟩
      · next hid =>
        have hno : ∀ entry ∈ allow, trim entry ≠ trim id := by simpa using hid
        simp only [Except.ok.injEq, any_eq_true, decide_eq_true_eq]
        refine exists_congr fun entry => and_congr_right fun hentry => ?_
        rw [or_iff_right (hno _ hentry)]

/-- The admitted senders are those that the last approval names by their id or user name. -/
theorem isSenderAllowed_run_iff (unicode : Unicode) (calls : List (Text × PairingCall))
    (channel id : Text) (username : Option Text) :
    let s := calls.foldl (step unicode) start
    s.store.isSenderAllowed unicode channel id username = .ok true ↔
      ∃ approval, s.lastFor unicode channel = some approval ∧ (approval.request.id = trim id ∨
          ∃ u ∈ username, NamesEntry unicode u approval.request.id) := by
  intro s
  have hs : Recorded unicode s := recorded_run _ _
  rw [isSenderAllowed_username_iff]
  cases hkey : safeChannelKey unicode channel with
  | error e =>
    simp [lastFor, entries, readAllowFrom, hkey, bind, Except.bind, Except.toOption]
  | ok key =>
    have hfor : s.lastFor unicode channel = s.lastUnder unicode key := by
      simp [lastFor, hkey]
    rw [entries_eq hkey, hs.listed key, hfor]
    cases hlast : s.lastUnder unicode key with
    | none => simp
    | some approval =>
      have htrim := hs.approved _ (mem_of_find?_eq_some hlast)
      simp [htrim]

/-- Only approved senders are admitted, exactly if a sender who was not approved on the channel
is not the one last approved under the name of its file, and does not give their id as a user
name. -/
theorem admitted_if_approved_iff (unicode : Unicode) (calls : List (Text × PairingCall))
    (channel id : Text) (username : Option Text) :
    let s := calls.foldl (step unicode) start
    (s.store.isSenderAllowed unicode channel id username = .ok true →
        s.Approved unicode channel id) ↔
      ∀ approval, s.lastFor unicode channel = some approval → s.Approved unicode channel id ∨
          approval.request.id ≠ trim id ∧
            ∀ u ∈ username, ¬ NamesEntry unicode u approval.request.id := by
  intro s
  have hadmitted : s.store.isSenderAllowed unicode channel id username = .ok true ↔ _ :=
    isSenderAllowed_run_iff _ _ _ id _
  rw [hadmitted]
  constructor
  · intro h approval hlast
    by_cases happroved : s.Approved unicode channel id
    · exact .inl happroved
    · refine .inr ⟨fun hid => ?_, fun u hu hnames => ?_⟩
      · exact happroved (h ⟨approval, hlast, .inl hid⟩)
      · exact happroved (h ⟨approval, hlast, .inr ⟨u, hu, hnames⟩⟩)
  · rintro h ⟨approval, hlast, hadmits⟩
    rcases h approval hlast with happroved | ⟨hid, hnames⟩
    · exact happroved
    · rcases hadmits with hsame | ⟨u, hu, hnamed⟩
      · exact absurd hsame hid
      · exact absurd hnamed (hnames u hu)

/-- A sender is approved on a channel. -/
def approvedOn (channel : Text) : List (Text × PairingCall) :=
  [(channel, .upsertRequest "user123".toList none 0 0 (constantDraws ⟨0, Nat.succ_pos _⟩)),
    (channel, .approve "AAAAAAAA".toList ⟨1, 1, 1⟩)]

/-- A sender is admitted who uses the id of the approved one as a user name, and the approved one
is admitted on another channel whose file has the same name. -/
theorem strangers_admitted :
    (let s := (approvedOn "telegram".toList).foldl (step ascii) start
     s.store.isSenderAllowed ascii "telegram".toList "user456".toList (some "user123".toList) =
        .ok true ∧
      ¬ s.Approved ascii "telegram".toList "user456".toList) ∧
    (let s := (approvedOn "team/chat".toList).foldl (step ascii) start
     s.store.isSenderAllowed ascii "team:chat".toList "user123".toList none = .ok true ∧
      ¬ s.Approved ascii "team:chat".toList "user123".toList) := by
  refine ⟨⟨?_, ?_⟩, ?_, ?_⟩ <;> decide +kernel

end Axinite.Pairing
