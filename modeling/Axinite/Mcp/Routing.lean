import Axinite.Foundation.Runs
import Axinite.Mcp.PendingCalls

/-!
# Responses and their requests

Every clone of a client counts its own request identifiers, and it begins where the client was.
Two clones use the same identifiers, so a response may reach the call of another request.  A
notification is registered and waits like a request.  The reader ends at the first line that is
not text.  The table of pending calls outlives the reader, so nobody wakes the calls that wait
when the server closes its output.

Main results:

- Theorem `wellRouted_step`: calls that register alone stay alone.
- Theorem `ownResponses_step`: the response that a call is given has the identifier of its request.
- Theorem `pending_exact`: no history leaves an entry behind its call, or a call without entry.
- Theorem `responses_reach_requests_iff`: the histories in which every response reaches its
  request, notifications do not wait, and a closed output wakes all calls.
-/

namespace Axinite.Mcp

open Foundation

/-! ## Routing -/

/-- No other outstanding call uses the identifier. -/
def Transport.Alone (s : Transport) (ticket : Ticket) (id : Option Nat) : Prop :=
  ∀ other send, other ≠ ticket → s.sends other = some send → send.outstanding = true →
    send.request.id ≠ id

/-- Whatever the server writes next reaches its own request: the response has the identifier of
the request, and no other outstanding request has it. -/
def Routes (s : Transport) : Prop :=
  ∀ (response : McpResponse) (ticket : Ticket) (send : Send), s.readerAlive = true →
    s.pending response.key = some ticket → s.sends ticket = some send →
    response.id = send.request.id ∧ s.Alone ticket send.request.id

/-- While the reader lives, the calls in the table have different identifiers, and none of them
is zero. -/
def WellRouted (s : Transport) : Prop :=
  s.readerAlive = true → ∀ key ticket send, s.pending key = some ticket →
    s.sends ticket = some send → key ≠ 0 ∧ send.request.id = some key ∧ s.Alone ticket (some key)

variable {s : Transport} {ticket : Ticket} {send : Send} {event : TransportEvent} {ticket : Ticket}

theorem WellRouted.id_eq (h : WellRouted s) (halive : s.readerAlive = true) {response : McpResponse}
    {send : Send} (hpending : s.pending response.key = some ticket)
    (hsend : s.sends ticket = some send) : response.id = send.request.id := by
  obtain ⟨hzero, hid, _⟩ := h halive _ ticket send hpending hsend
  rw [hid]
  cases hresponse : response.id with
  | none =>
    rw [McpResponse.key, hresponse] at hzero
    exact absurd rfl hzero
  | some id => rw [McpResponse.key, hresponse, Option.getD_some]

theorem WellRouted.routes (h : WellRouted s) : Routes s := by
  intro response ticket send halive hpending hsend
  have hid := h.id_eq halive hpending hsend
  obtain ⟨_, hkey, halone⟩ := h halive _ ticket send hpending hsend
  exact ⟨hid, hkey ▸ halone⟩

/-- A request registers while no outstanding request has its identifier, as long as there is a
reader. -/
def RegistersAlone (s : Transport) (ticket : Ticket) : Prop :=
  s.readerAlive = true → ∀ send, s.sends ticket = some send → send.phase = .drawn →
    ∃ id, id ≠ 0 ∧ send.request.id = some id ∧ s.Alone ticket (some id)

variable {event : TransportEvent} {send send' : Send}

/-- A step keeps the request of a call. -/
theorem Consistent.step_request (h : Consistent s) (hsend : s.sends ticket = some send)
    (hsend' : (s.step event).sends ticket = some send') : send'.request = send.request := by
  rcases step_send hsend' with ⟨rfl, _⟩ | ⟨before, hbefore, hstep⟩
  · rw [h.fresh _ (Nat.le_refl _)] at hsend
    cases hsend
  · rw [hsend] at hbefore
    cases hbefore
    exact hstep.request_eq

/-- An identifier stays the identifier of one outstanding call if no other call registers
with it. -/
theorem alone_step {id : Option Nat} (h : s.Alone ticket id)
    (hregister : ∀ other send, other ≠ ticket → event = .register other →
      s.sends other = some send → send.phase = .drawn → send.request.id ≠ id) :
    (s.step event).Alone ticket id := by
  intro other send' hother hsend' houtstanding
  rcases step_send hsend' with ⟨_, hdrawn, _⟩ | ⟨send, hsend, hstep⟩
  · simp [Send.outstanding, hdrawn, SendPhase.isLive] at houtstanding
  · rw [hstep.request_eq]
    rcases hstep.outstanding_of houtstanding with hbefore | ⟨hevent, hdrawn⟩
    · exact h _ send hother hsend hbefore
    · exact hregister _ send hother hevent hsend hdrawn

/-- Calls that register alone stay alone. -/
theorem wellRouted_step (hconsistent : Consistent s) (h : WellRouted s)
    (hok : ∀ ticket, event = .register ticket → RegistersAlone s ticket) :
    WellRouted (s.step event) := by
  intro halive' key ticket send' hpending' hsend'
  have halive := step_readerAlive halive'
  rcases step_pending hpending' with hpending | ⟨hevent, send, hsend, hphase, hkey⟩
  · obtain ⟨send, hsend, _, hempty, hlive⟩ := hconsistent.entry key ticket hpending
    obtain ⟨hzero, hid, halone⟩ := h halive key ticket send hpending hsend
    refine ⟨hzero, by rw [hconsistent.step_request hsend hsend', hid], alone_step halone ?_⟩
    intro other call hother hevent hcall hdrawn
    -- another call registers: this one is outstanding, so the other has another identifier
    obtain ⟨id, _, hid', halone'⟩ := hok other hevent halive call hcall hdrawn
    have houtstanding : send.outstanding = true := by
      simp [Send.outstanding, hlive, hempty, Channel.isValue]
    have hne := halone' _ send (symm hother) hsend houtstanding
    rw [hid] at hne
    rw [hid']
    exact symm hne
  · obtain ⟨id, hzero, hid, halone⟩ := hok ticket hevent halive send hsend hphase
    have hkey' : id = key := by rw [← hkey, McpRequest.key, hid, Option.getD_some]
    subst hkey'
    refine ⟨hzero, by rw [hconsistent.step_request hsend hsend', hid], alone_step halone ?_⟩
    intro other call hother hregister _ _
    rw [hevent] at hregister
    cases hregister
    exact absurd rfl hother

open Transport

theorem register_send (hsend : s.sends ticket = some send) (hphase : send.phase = .drawn) :
    s.step (.register ticket) = s.register ticket send.request.key := by
  obtain ⟨request, phase, channel⟩ := send
  cases hphase
  rw [step, hsend]

/-- An outstanding call stays so when another one registers. -/
theorem outstanding_register {ticket other : Ticket} {key : Nat} {send : Send}
    (hother : other ≠ ticket) (hsend : s.sends other = some send)
    (houtstanding : send.outstanding = true) :
    ∃ send', (s.register ticket key).sends other = some send' ∧ send'.request = send.request ∧
      send'.outstanding = true := by
  refine ⟨s.dropped key other send, ?_, dropped_request key _ send, ?_⟩
  · rw [register_sends, hsend, Option.map_some, if_neg hother]
  · by_cases hpending : s.pending key = some other
    · rw [dropped_of_pending hpending, Send.outstanding, Channel.isValue_drop]
      exact houtstanding
    · rw [dropped_of_not_pending hpending]
      exact houtstanding

/-- A call that does not register alone may receive a response to another request. -/
theorem not_routes_register (h : ¬ RegistersAlone s ticket) :
    ¬ Routes (s.step (.register ticket)) := by
  intro hroutes
  apply h
  intro halive send hsend hphase
  rw [register_send hsend hphase] at hroutes
  have hsend' : (s.register ticket send.request.key).sends ticket =
      some { send with phase := .registered } := by
    rw [register_sends, hsend, Option.map_some, if_pos rfl]
  have hreaches : ∀ id : Option Nat, id.getD 0 = send.request.key →
      id = send.request.id ∧ (s.register ticket send.request.key).Alone ticket send.request.id := by
    intro id hkey
    refine hroutes ⟨id, none, none⟩ _ { send with phase := .registered } halive ?_ hsend'
    rw [register_pending, McpResponse.key, hkey, Function.update_self]
  cases hid : send.request.id with
  | none =>
    -- a response to the request zero reaches the notification
    have hzero := (hreaches (some 0) (by rw [McpRequest.key, hid]; rfl)).1
    rw [hid] at hzero
    cases hzero
  | some id =>
    refine ⟨id, ?_, rfl, ?_⟩
    · rintro rfl
      -- a response without identifier reaches the request zero
      have hnone := (hreaches none (by rw [McpRequest.key, hid]; rfl)).1
      rw [hid] at hnone
      cases hnone
    · intro other call hother hcall houtstanding
      obtain ⟨call', hcall', hrequest, houtstanding'⟩ :=
        outstanding_register hother hcall houtstanding
      have halone := (hreaches _ rfl).2 _ _ hother hcall' houtstanding'
      rwa [hrequest, hid] at halone

/-! ## Answers -/

theorem SendStep.received_of {response : McpResponse}
    (h : SendStep s ticket event send send') (hreceived : send'.Received response) :
    send.Received response ∨ s.readerAlive = true ∧ s.pending response.key = some ticket := by
  cases h with
  | same => exact .inl hreceived
  | register hphase =>
    rcases hreceived with hchannel | hreturned
    · exact .inl (.inl hchannel)
    · cases hreturned
  | dropped =>
    refine .inl ?_
    obtain ⟨request, phase, channel⟩ := send
    cases channel with
    | empty => exact .inr (hreceived.resolve_left nofun)
    | dropped | value _ => exact hreceived
  | write answer => exact .inl ((keeps_write _).received send _ hreceived)
  | value halive hpending =>
    rcases hreceived with hchannel | hreturned
    · cases hchannel
      exact .inr ⟨halive, hpending⟩
    · exact .inl (.inr hreturned)
  | wake => exact .inl ((keeps_wake _).received send _ hreceived)
  | expire => exact .inl ((keeps_expire _).received send _ hreceived)
  | cleanup key _ =>
    have hchannel := hreceived.resolve_right nofun
    refine .inl (.inl ?_)
    by_cases hpending : s.pending key = some ticket
    · rw [dropped_of_pending hpending] at hchannel
      obtain ⟨request, phase, channel⟩ := send
      cases channel with
      | empty | dropped => cases hchannel
      | value _ => exact hchannel
    · rwa [dropped_of_not_pending hpending] at hchannel

/-- Every response that a call has been given has the identifier of its request. -/
def OwnResponses (s : Transport) : Prop :=
  ∀ ticket send response, s.sends ticket = some send → send.Received response →
    response.id = send.request.id

theorem ownResponses_step (hrouted : WellRouted s) (h : OwnResponses s) (event : TransportEvent) :
    OwnResponses (s.step event) := by
  intro ticket send' response hsend' hreceived
  rcases step_send hsend' with ⟨_, hphase, hchannel⟩ | ⟨send, hsend, hstep⟩
  · rcases hreceived with hvalue | hreturned
    · rw [hchannel] at hvalue
      cases hvalue
    · rw [hphase] at hreturned
      cases hreturned
  · rw [hstep.request_eq]
    rcases hstep.received_of hreceived with hbefore | ⟨halive, hpending⟩
    · exact h _ send _ hsend hbefore
    · exact hrouted.id_eq halive hpending hsend

/-! ## Waiting -/

theorem SendStep.waiting_of (h : SendStep s ticket event send send')
    (hwaiting : send'.phase = .waiting) :
    (send'.channel = .empty → send.channel = .empty) ∧
      (send.phase = .waiting ∨ send.phase = .registered ∧ event = .write ticket (.ok ())) := by
  cases h with
  | same => exact ⟨id, .inl hwaiting⟩
  | register _ => cases hwaiting
  | dropped => exact ⟨fun hempty => absurd hempty (drop_ne_empty _), .inl hwaiting⟩
  | write answer =>
    refine ⟨fun hempty => by rwa [(keeps_write _).channel] at hempty, ?_⟩
    obtain ⟨request, phase, channel⟩ := send
    cases phase <;> cases answer <;> first
      | exact .inl hwaiting
      | exact .inr ⟨rfl, rfl⟩
      | cases hwaiting
  | value _ _ => exact ⟨nofun, .inl hwaiting⟩
  | wake =>
    refine ⟨fun hempty => by rwa [(keeps_wake _).channel] at hempty, .inl ?_⟩
    obtain ⟨request, phase, channel⟩ := send
    cases phase <;> cases channel <;> first
      | exact hwaiting
      | cases hwaiting
  | expire =>
    refine ⟨fun hempty => by rwa [(keeps_expire _).channel] at hempty, .inl ?_⟩
    obtain ⟨request, phase, channel⟩ := send
    cases phase <;> cases channel <;> first
      | exact hwaiting
      | cases hwaiting
  | cleanup _ _ => cases hwaiting

/-- No notification waits for a response. -/
def NotificationsReturn (s : Transport) : Prop :=
  ∀ ticket send, s.sends ticket = some send → send.request.id = none → send.phase ≠ .waiting

/-- Every waiting call is going to see something other than its timeout. -/
def AllWoken (s : Transport) : Prop :=
  ∀ ticket send, s.sends ticket = some send → send.phase = .waiting → send.channel ≠ .empty

/-- A request is written and not a notification, and if the output is closed, then the call does
not wait for its timeout. -/
def WritesHeard (s : Transport) (ticket : Ticket) : Prop :=
  ∀ send, s.sends ticket = some send → send.phase = .registered →
    send.request.id ≠ none ∧ (s.outputOpen = false → send.channel ≠ .empty)

theorem notificationsReturn_step (h : NotificationsReturn s)
    (hok : ∀ ticket, event = .write ticket (.ok ()) → WritesHeard s ticket) :
    NotificationsReturn (s.step event) := by
  intro ticket send' hsend' hid hwaiting
  rcases step_send hsend' with ⟨_, hdrawn, _⟩ | ⟨send, hsend, hstep⟩
  · rw [hdrawn] at hwaiting
    cases hwaiting
  · rw [hstep.request_eq] at hid
    rcases (hstep.waiting_of hwaiting).2 with hbefore | ⟨hregistered, hwrite⟩
    · exact h _ send hsend hid hbefore
    · exact (hok _ hwrite send hsend hregistered).1 hid

/-- While the output is closed, a call begins to wait only if it is woken. -/
theorem allWoken_step (hclosed : s.outputOpen = false) (h : AllWoken s)
    (hok : ∀ ticket, event = .write ticket (.ok ()) → WritesHeard s ticket) :
    AllWoken (s.step event) := by
  intro ticket send' hsend' hwaiting hempty
  rcases step_send hsend' with ⟨_, hdrawn, _⟩ | ⟨send, hsend, hstep⟩
  · rw [hdrawn] at hwaiting
    cases hwaiting
  · obtain ⟨hchannel, hphase⟩ := hstep.waiting_of hwaiting
    rcases hphase with hbefore | ⟨hregistered, hwrite⟩
    · exact h _ send hsend hbefore (hchannel hempty)
    · exact (hok _ hwrite send hsend hregistered).2 hclosed (hchannel hempty)

/-- A shutdown clears the table, so that it wakes all calls. -/
theorem Consistent.allWoken_shutdown (h : Consistent s) : AllWoken (s.step .shutdown) := by
  intro ticket send hsend hwaiting hempty
  have hlive : send.phase.isLive = true := by rw [hwaiting]; rfl
  cases (consistent_step h .shutdown).owned ticket send hsend hlive hempty

theorem write_send (hsend : s.sends ticket = some send) (hphase : send.phase = .registered) :
    (s.step (.write ticket (.ok ()))).sends ticket = some { send with phase := .waiting } := by
  obtain ⟨request, phase, channel⟩ := send
  cases hphase
  rw [step, Transport.modify, alter_sends, hsend, Option.map_some, if_pos rfl]
  rfl

/-! ## Whole histories -/

/-- Responses reach their own requests. -/
structure Faithful (s : Transport) : Prop where
  /-- Whatever the server writes next reaches the only outstanding request with its
  identifier. -/
  routes : Routes s
  /-- What a call has been given, and what it has returned, answers its request. -/
  own : OwnResponses s
  /-- The reader takes the lines of the server until the server closes its output. -/
  listening : s.outputOpen = true → s.readerAlive = true
  notifications : NotificationsReturn s
  /-- No call waits for its timeout once the server has closed its output. -/
  released : s.outputOpen = false → AllWoken s

/-- What the clients and the server must not do. -/
def Careful (s : Transport) : TransportEvent → Prop
  | .register ticket => RegistersAlone s ticket
  | .write ticket (.ok ()) => WritesHeard s ticket
  | .line .unreadable => s.outputOpen = false
  | .eof => AllWoken s
  | _ => True

/-- What careful clients and servers keep. -/
structure Orderly (s : Transport) : Prop where
  consistent : Consistent s
  routed : WellRouted s
  own : OwnResponses s
  listening : s.outputOpen = true → s.readerAlive = true
  notifications : NotificationsReturn s
  released : s.outputOpen = false → AllWoken s

theorem Orderly.faithful (h : Orderly s) : Faithful s :=
  ⟨h.routed.routes, h.own, h.listening, h.notifications, h.released⟩

theorem orderly_new (serverName : String) : Orderly (.new serverName) where
  consistent := consistent_new _
  routed := by
    intro _ key ticket send hpending
    cases hpending
  own := by
    intro ticket send response hsend
    cases hsend
  listening := fun _ => rfl
  notifications := by
    intro ticket send hsend
    cases hsend
  released := by
    intro hclosed
    cases hclosed

theorem orderly_step (h : Orderly s) (hok : Careful s event) : Orderly (s.step event) where
  consistent := consistent_step h.consistent _
  routed := by
    refine wellRouted_step h.consistent h.routed ?_
    rintro ticket rfl
    exact hok
  own := ownResponses_step h.routed h.own _
  listening := by
    intro hopen
    rcases step_status s event with ⟨halive, hsame⟩ | ⟨_, ⟨rfl, hsame⟩ | ⟨_, hclosed⟩⟩
    · rw [hsame] at hopen
      rw [halive]
      exact h.listening hopen
    · have hclosed : s.outputOpen = false := hok
      rw [hsame, hclosed] at hopen
      cases hopen
    · rw [hclosed] at hopen
      cases hopen
  notifications := by
    refine notificationsReturn_step h.notifications ?_
    rintro ticket rfl
    exact hok
  released := by
    intro hclosed
    have hkept : s.outputOpen = false → AllWoken (s.step event) := by
      intro hbefore
      refine allWoken_step hbefore (h.released hbefore) ?_
      rintro ticket rfl
      exact hok
    rcases step_status s event with ⟨_, hsame⟩ | ⟨_, ⟨_, hsame⟩ | ⟨rfl | rfl, _⟩⟩
    · exact hkept (hsame ▸ hclosed)
    · exact hkept (hsame ▸ hclosed)
    · exact hok
    · exact h.consistent.allWoken_shutdown

theorem not_faithful_step (hnot : ¬ Careful s event) : ¬ Faithful (s.step event) := by
  intro hfaithful
  apply hnot
  cases event with
  | register ticket => exact by_contra fun halone => not_routes_register halone hfaithful.routes
  | write ticket answer =>
    cases answer with
    | error _ => trivial
    | ok _ =>
      intro send hsend hphase
      have hwritten := write_send hsend hphase
      constructor
      · intro hid
        exact hfaithful.notifications _ _ hwritten hid rfl
      · intro hclosed
        exact hfaithful.released hclosed _ { send with phase := .waiting } hwritten rfl
  | line line =>
    cases line with
    | response _ | malformed => trivial
    | unreadable =>
      refine eq_false_of_ne_true fun hopen => ?_
      cases hfaithful.listening hopen
  | eof => exact hfaithful.released rfl
  | _ => trivial

/-- Over every history of clones, requests and lines, the responses reach their own requests, the
reader takes all lines, notifications do not wait and a closed output wakes all calls exactly if
no notification is sent, no request registers while another outstanding request has its
identifier, no line is unreadable, and no call waits when the server closes its output or
later. -/
theorem responses_reach_requests_iff (serverName : String) (events : List TransportEvent) :
    (∀ s ∈ Runs.visited step (.new serverName) events, Faithful s) ↔
      Runs.AllSteps step Careful (.new serverName) events := by
  have hside : Runs.AllSteps step (fun _ _ => True) (.new serverName) events :=
    Runs.allSteps_of_forall (fun _ _ => trivial) _ _
  refine Runs.forall_mem_visited_iff_of_inv ?_ ?_ ?_ (orderly_new _) hside
  · intro s horderly
    exact horderly.faithful
  · intro s event _ horderly hok
    exact orderly_step horderly hok
  · intro s event _ _ hnot
    exact not_faithful_step hnot

/-- Two clones ask with the identifier one; the response that the server writes to the first
request is returned by the second call, while the first is outstanding.  The notification waits.
A line that is not text ends the reader.  The first request of another history still waits with
an empty channel when the server has closed its output. -/
theorem second_clone_takes_response :
    let response : McpResponse := ⟨some 1, none, none⟩
    let asked := [TransportEvent.clone 0, .request 0 "tools/list" none,
      .request 1 "tools/list" none, .register 0, .write 0 (.ok ()), .register 1,
      .write 1 (.ok ()), .line (.response response)].foldl step (.new "server")
    let notified := [TransportEvent.notify, .register 0, .write 0 (.ok ())].foldl step
      (.new "server")
    let closed := [TransportEvent.request 0 "tools/list" none, .register 0, .write 0 (.ok ()),
      .eof].foldl step (.new "server")
    let unread := step (.new "server") (.line .unreadable)
    (asked.sends 0).map (fun send => (send.request.id, send.outstanding)) = some (some 1, true) ∧
      ((asked.step (.wake 1)).sends 1).map Send.phase = some (.returned (.ok response)) ∧
      (notified.sends 0).map (fun send => (send.request.id, send.phase)) = some (none, .waiting) ∧
      unread.outputOpen = true ∧ unread.readerAlive = false ∧
      closed.outputOpen = false ∧
      (closed.sends 0).map (fun send => (send.phase, send.channel)) = some (.waiting, .empty) := by
  exact ⟨rfl, rfl, rfl, rfl, rfl, rfl, rfl⟩

end Axinite.Mcp
