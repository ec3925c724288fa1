import Axinite.Mcp.StdioTransport

/-!
# The table of pending calls

The table of the transport holds exactly the calls that have registered and that neither have
returned nor have been answered.  What a step does to a single call is said once here; the other
invariants are derived from it.

Main results:

- Theorem `consistent_step`: the table holds exactly the live calls that have not been answered.
- Theorem `step_send`: what a step does to a call.
- Theorem `step_pending`: an entry of the table was there before, or its call has just registered.
-/

namespace Axinite.Mcp

/-! ## The table of pending calls -/

/-- The call has registered and has not returned. -/
def SendPhase.isLive : SendPhase → Bool
  | .registered => true
  | .waiting => true
  | .failing _ => true
  | _ => false

/-- The call has received a response. -/
def Channel.isValue : Channel → Bool
  | .value _ => true
  | _ => false

theorem Channel.isValue_drop (channel : Channel) : channel.drop.isValue = channel.isValue := by
  cases channel <;> rfl

/-- The call waits for its response. -/
def Send.outstanding (send : Send) : Bool :=
  send.phase.isLive && !send.channel.isValue

/-- The call has been given the response. -/
def Send.Received (send : Send) (response : McpResponse) : Prop :=
  send.channel = .value response ∨ send.phase = .returned (.ok response)

/-- The table holds exactly the live calls that have not been answered, under their keys. -/
structure Consistent (s : Transport) : Prop where
  fresh : ∀ ticket, s.nextTicket ≤ ticket → s.sends ticket = none
  drawn : ∀ ticket send, s.sends ticket = some send → send.phase = .drawn → send.channel = .empty
  entry : ∀ key ticket, s.pending key = some ticket → ∃ send, s.sends ticket = some send ∧
    send.request.key = key ∧ send.channel = .empty ∧ send.phase.isLive = true
  owned : ∀ ticket send, s.sends ticket = some send → send.phase.isLive = true →
    send.channel = .empty → s.pending send.request.key = some ticket

open Transport

theorem consistent_new (serverName : String) : Consistent (.new serverName) := by
  constructor <;> simp [new]

variable {key : Nat} {s : Transport} {ticket : Ticket} {event : TransportEvent}

/-- The call waits in the table under the key. -/
def Send.Awaits (send : Send) (key : Nat) : Prop :=
  send.request.key = key ∧ send.channel = .empty ∧ send.phase.isLive = true

variable {send : Send}

theorem Consistent.awaits_iff (h : Consistent s) (hsend : s.sends ticket = some send) :
    send.Awaits key ↔ s.pending key = some ticket := by
  refine ⟨?_, fun hpending => ?_⟩
  · rintro ⟨rfl, hempty, hlive⟩
    exact h.owned _ send hsend hlive hempty
  · obtain ⟨same, hsame, hawaits⟩ := h.entry key ticket hpending
    rw [hsend] at hsame
    cases hsame
    exact hawaits

open Send Option Function

variable {ticket : Ticket} {f : Send → Send}

section Alter

variable {s s' : Transport} {g : Ticket → Send → Send}

/-- A step that changes the calls in place keeps the table consistent if the table fits to the
changed calls. -/
theorem Consistent.alter (h : Consistent s) (hsends : ∀ ticket, s'.sends ticket =
      (s.sends ticket).map (g ticket)) (hnext : s'.nextTicket = s.nextTicket)
    (hdrawn : ∀ ticket send, s.sends ticket = some send → (g ticket send).phase = .drawn →
      send.phase = .drawn ∧ (g ticket send).channel = send.channel)
    (hsome : ∀ key ticket, s'.pending key = some ticket → s.sends ticket ≠ none)
    (hpending : ∀ key ticket send, s.sends ticket = some send →
      ((g ticket send).Awaits key ↔ s'.pending key = some ticket)) : Consistent s' where
  fresh := by
    intro ticket hticket
    rw [hsends, h.fresh _ (hnext ▸ hticket), map_none]
  drawn := by
    intro ticket send' hsend' hphase
    rw [hsends] at hsend'
    obtain ⟨send, hsend, rfl⟩ := map_eq_some_iff.1 hsend'
    obtain ⟨hphase', hchannel⟩ := hdrawn ticket send hsend hphase
    exact hchannel.trans (h.drawn _ send hsend hphase')
  entry := by
    intro key ticket hkey
    obtain ⟨send, hsend⟩ := ne_none_iff_exists'.1 (hsome key ticket hkey)
    exact ⟨g _ send, by rw [hsends, hsend]; rfl, (hpending key _ send hsend).2 hkey⟩
  owned := by
    intro ticket send' hsend' hlive hempty
    rw [hsends] at hsend'
    obtain ⟨send, hsend, rfl⟩ := map_eq_some_iff.1 hsend'
    exact (hpending _ _ send hsend).1 ⟨rfl, hempty, hlive⟩

theorem Consistent.sends_ne_none (h : Consistent s)
    (hpending : s.pending key = some ticket) : s.sends ticket ≠ none := by
  obtain ⟨send, hsend, _⟩ := h.entry key ticket hpending
  simp [hsend]

/-- A change of a call that keeps its request and its channel, and keeps a call live whose
channel is empty. -/
structure Keeps (f : Send → Send) : Prop where
  request : ∀ send, (f send).request = send.request
  channel : ∀ send, (f send).channel = send.channel
  live : ∀ send, send.channel = .empty → (f send).phase.isLive = send.phase.isLive
  drawn : ∀ send, (f send).phase = .drawn → send.phase = .drawn
  outstanding : ∀ send, (f send).outstanding = true → send.outstanding = true
  received : ∀ send response, (f send).Received response → send.Received response

theorem keeps_write (answer : Except String Unit) : Keeps (write answer) := by
  constructor <;> rintro ⟨request, phase, channel⟩ <;> cases phase <;> cases answer <;>
    simp [write, SendPhase.isLive, outstanding, Received]

theorem keeps_wake (serverName : String) : Keeps (wake serverName) := by
  constructor <;> rintro ⟨request, phase, channel⟩ <;> cases phase <;> cases channel <;>
    simp [wake, SendPhase.isLive, outstanding, Received]

theorem keeps_expire (serverName : String) : Keeps (expire serverName) := by
  constructor <;> rintro ⟨request, phase, channel⟩ <;> cases phase <;> cases channel <;>
    simp [expire, SendPhase.isLive, outstanding, Received]

/-- A change of one call that keeps what `Keeps` says is such a change of all calls. -/
theorem Keeps.at (hf : Keeps f) (ticket other : Ticket) :
    Keeps fun send => if other = ticket then f send else send := by
  by_cases h : other = ticket
  · simpa [h] using hf
  · constructor <;> simp [h]

theorem Keeps.awaits_iff (hf : Keeps f) (send : Send) :
    (f send).Awaits key ↔ send.Awaits key := by
  rw [Awaits, hf.request, hf.channel]
  exact and_congr_right' (and_congr_right fun hempty => by rw [hf.live send hempty])

theorem Consistent.modify (h : Consistent s) (ticket : Ticket) (hf : Keeps f) :
    Consistent (s.modify ticket f) := by
  have hkeeps := hf.at ticket
  refine h.alter (fun _ => rfl) rfl ?_ (fun _ _ => h.sends_ne_none) ?_
  · intro other send _ hphase
    exact ⟨(hkeeps _).drawn send hphase, (hkeeps _).channel send⟩
  · intro key other send hsend
    exact ((hkeeps _).awaits_iff send).trans (h.awaits_iff hsend)

theorem drop_ne_empty (channel : Channel) : channel.drop ≠ .empty := by
  cases channel <;> exact nofun

theorem dropped_of_pending (h : s.pending key = some ticket) (send : Send) :
    s.dropped key ticket send = { send with channel := send.channel.drop } :=
  if_pos h

theorem dropped_of_not_pending (h : s.pending key ≠ some ticket) (send : Send) :
    s.dropped key ticket send = send :=
  if_neg h

theorem dropped_request (key : Nat) (ticket : Ticket) (send : Send) :
    (s.dropped key ticket send).request = send.request := by
  rw [dropped]
  split <;> rfl

variable {ticket : Ticket}

/-- A drawn call is not in the table. -/
theorem Consistent.not_pending_of_drawn (h : Consistent s)
    (hsend : s.sends ticket = some send) (hphase : send.phase = .drawn) (key : Nat) :
    s.pending key ≠ some ticket := by
  intro hpending
  obtain ⟨same, hsame, _, _, hlive⟩ := h.entry key ticket hpending
  rw [hsend] at hsame
  cases hsame
  rw [hphase] at hlive
  cases hlive

/-- What is in the table under a key is taken from it, and the other calls still wait. -/
theorem Consistent.taken (h : Consistent s) (hsend : s.sends ticket = some send)
    {channel : Channel} (hchannel : channel ≠ .empty) (key' : Nat) :
    let after := if s.pending key' = some ticket then { send with channel } else send
    (after.phase = .drawn → send.phase = .drawn ∧ after.channel = send.channel) ∧
      ∀ key, after.Awaits key ↔ key ≠ key' ∧ send.Awaits key := by
  have hawaits : ∀ key, send.Awaits key ↔ s.pending key = some ticket := fun _ => h.awaits_iff hsend
  split
  · next hpending =>
    have hkey := ((hawaits key').2 hpending).1
    refine ⟨fun hdrawn => absurd hpending ?_, fun key => iff_of_false (fun ha => hchannel ha.2.1) ?_⟩
    · exact h.not_pending_of_drawn hsend hdrawn _
    · exact fun ha => ha.1 (ha.2.1.symm.trans hkey)
  · next hpending =>
    refine ⟨fun hdrawn => ⟨hdrawn, rfl⟩, fun key => ⟨fun ha => ⟨?_, ha⟩, .right⟩⟩
    rintro rfl
    exact hpending ((hawaits key).1 ha)

/-- A step that replaces what is in the table under one key. -/
theorem Consistent.replace (h : Consistent s) {key' : Nat} {new : Option Ticket}
    (hsends : ∀ ticket, s'.sends ticket = (s.sends ticket).map (g ticket))
    (hnext : s'.nextTicket = s.nextTicket) (hpending : s'.pending = update s.pending key' new)
    (hnew : ∀ ticket, new = some ticket → s.sends ticket ≠ none)
    (hg : ∀ ticket send, s.sends ticket = some send →
      ((g ticket send).phase = .drawn →
        send.phase = .drawn ∧ (g ticket send).channel = send.channel) ∧
      ∀ key, (g ticket send).Awaits key ↔
        key = key' ∧ new = some ticket ∨ key ≠ key' ∧ send.Awaits key) : Consistent s' := by
  refine h.alter hsends hnext (fun ticket send hsend => (hg ticket send hsend).1) ?_ ?_
  · intro key ticket hkey
    rw [hpending, update_apply] at hkey
    split at hkey
    · exact hnew _ hkey
    · exact h.sends_ne_none hkey
  · intro key ticket send hsend
    rw [hpending, update_apply, (hg _ send hsend).2]
    split
    · next hkey => simp [hkey]
    · next hkey => simp [hkey, h.awaits_iff hsend]

theorem Consistent.register (h : Consistent s)
    (hsend : s.sends ticket = some send) (hphase : send.phase = .drawn) :
    Consistent (s.register ticket send.request.key) := by
  refine h.replace (fun _ => rfl) rfl rfl (by simp [hsend]) fun other call hcall => ?_
  by_cases hother : other = ticket
  · subst hother
    rw [hsend] at hcall
    cases hcall
    have hempty := h.drawn _ send hsend hphase
    simp [Awaits, hempty, hphase, SendPhase.isLive, eq_comm]
  · simpa [hother, Ne.symm _, dropped] using
      h.taken hcall (drop_ne_empty _) _

theorem Consistent.cleanup (h : Consistent s)
    (hsend : s.sends ticket = some send) (reason : String) :
    Consistent (s.cleanup ticket send.request.key reason) := by
  refine h.replace (fun _ => rfl) rfl rfl (by simp) fun other call hcall => ?_
  by_cases hother : other = ticket
  · subst hother
    rw [hsend] at hcall
    cases hcall
    simp only
    refine ⟨nofun, fun key => iff_of_false (fun hawaits => by cases hawaits.2.2) ?_⟩
    rintro (⟨_, ⟨⟩⟩ | ⟨hkey, heq, _⟩)
    exact hkey heq.symm
  · simpa [hother, dropped] using
      h.taken hcall (drop_ne_empty _) _

theorem Consistent.dispatch (h : Consistent s) (response : McpResponse) :
    Consistent (s.dispatch response) := by
  refine h.replace (fun _ => rfl) rfl rfl (by simp) fun ticket send hsend => ?_
  have hvalue : Channel.value response ≠ .empty := nofun
  simpa using h.taken hsend hvalue _

theorem Consistent.shutdown (h : Consistent s) : Consistent s.shutdown := by
  refine h.alter (fun _ => rfl) rfl (fun ticket send hsend => ?_) nofun fun key ticket send hsend => ?_
  · exact (h.taken hsend (drop_ne_empty _) _).1
  · refine ((h.taken hsend (drop_ne_empty _) _).2 key).trans ?_
    exact iff_of_false (fun hawaits => hawaits.1 hawaits.2.1.symm) (by simp)

end Alter

theorem draw_sends_some {request : McpRequest} (h : (s.draw request).sends ticket = some send) :
    ticket = s.nextTicket ∧ send = ⟨request, .drawn, .empty⟩ ∨ s.sends ticket = some send := by
  rw [draw_sends, update_apply] at h
  split at h
  · next hticket => exact .inl ⟨hticket, (some.inj h).symm⟩
  · exact .inr h

theorem Consistent.draw (h : Consistent s) (request : McpRequest) :
    Consistent (s.draw request) where
  fresh := by
    intro ticket hticket
    have hne : ticket ≠ s.nextTicket := Nat.ne_of_gt hticket
    rw [draw_sends, update_of_ne hne]
    exact h.fresh _ (Nat.le_of_lt hticket)
  drawn := by
    intro ticket send hsend hphase
    rcases draw_sends_some hsend with ⟨_, rfl⟩ | hold
    · rfl
    · exact h.drawn _ send hold hphase
  entry := by
    intro key ticket hpending
    obtain ⟨send, hsend, hrest⟩ := h.entry key ticket hpending
    refine ⟨send, ?_, hrest⟩
    have hne : ticket ≠ s.nextTicket := by
      rintro rfl
      rw [h.fresh _ (Nat.le_refl _)] at hsend
      cases hsend
    rw [draw_sends, update_of_ne hne]
    exact hsend
  owned := by
    intro ticket send hsend hlive hempty
    rcases draw_sends_some hsend with ⟨_, rfl⟩ | hold
    · cases hlive
    · exact h.owned _ send hold hlive hempty

theorem consistent_step (h : Consistent s) (event : TransportEvent) :
    Consistent (s.step event) := by
  cases event with
  | clone client =>
    rw [step]
    split
    · exact h
    · exact ⟨h.fresh, h.drawn, h.entry, h.owned⟩
  | request client method params =>
    rw [step]
    split
    · exact h
    · next id _ =>
      have hcounted : Consistent { s with clients := s.clients.set client (nextRequestId id) } :=
        ⟨h.fresh, h.drawn, h.entry, h.owned⟩
      exact hcounted.draw _
  | notify => exact h.draw _
  | register ticket =>
    rw [step]
    split
    · next request channel hsend => exact h.register hsend rfl
    · exact h
  | write ticket answer => exact h.modify _ (keeps_write _)
  | line line =>
    cases line with
    | response response =>
      rw [step]
      split
      · exact h.dispatch _
      · exact h
    | malformed => exact h
    | unreadable => exact ⟨h.fresh, h.drawn, h.entry, h.owned⟩
  | eof => exact ⟨h.fresh, h.drawn, h.entry, h.owned⟩
  | wake ticket => exact h.modify _ (keeps_wake _)
  | expire ticket => exact h.modify _ (keeps_expire _)
  | cleanup ticket =>
    rw [step]
    split
    · next request reason channel hsend => exact h.cleanup hsend _
    · exact h
  | shutdown => exact h.shutdown

/-! ## What a step does to a call -/

/-- What a step does to the call of a ticket. -/
inductive SendStep (s : Transport) (ticket : Ticket) : TransportEvent → Send → Send → Prop where
  | same {event : TransportEvent} {send : Send} : SendStep s ticket event send send
  | register {send : Send} (hphase : send.phase = .drawn) :
      SendStep s ticket (.register ticket) send { send with phase := .registered }
  | dropped {event : TransportEvent} {send : Send} :
      SendStep s ticket event send { send with channel := send.channel.drop }
  | write {send : Send} (answer : Except String Unit) :
      SendStep s ticket (.write ticket answer) send (send.write answer)
  | value {send : Send} {response : McpResponse} (halive : s.readerAlive = true)
      (hpending : s.pending response.key = some ticket) :
      SendStep s ticket (.line (.response response)) send { send with channel := .value response }
  | wake {send : Send} : SendStep s ticket (.wake ticket) send (send.wake s.serverName)
  | expire {send : Send} : SendStep s ticket (.expire ticket) send (send.expire s.serverName)
  | cleanup {send : Send} {reason : String} (key : Nat) (hphase : send.phase = .failing reason) :
      SendStep s ticket (.cleanup ticket) send
        { s.dropped key ticket send with phase := .returned (.error reason) }

theorem sendStep_dropped (key : Nat) (ticket : Ticket) (event : TransportEvent) (send : Send) :
    SendStep s ticket event send (s.dropped key ticket send) := by
  by_cases h : s.pending key = some ticket
  · rw [dropped_of_pending h]
    exact .dropped
  · rw [dropped_of_not_pending h]
    exact .same

variable {send' : Send}

theorem modify_send {ticket changed : Ticket} (h : (s.modify changed f).sends ticket = some send')
    (hstep : ∀ send, ticket = changed → SendStep s ticket event send (f send)) :
    ∃ send, s.sends ticket = some send ∧ SendStep s ticket event send send' := by
  obtain ⟨send, hold, rfl⟩ := map_eq_some_iff.1 h
  refine ⟨send, hold, ?_⟩
  dsimp only
  split
  · next hticket => exact hstep send hticket
  · exact .same

theorem draw_send {s s' : Transport} {event : TransportEvent}
    {request : McpRequest} (hsends : s'.sends = s.sends)
    (hnext : s'.nextTicket = s.nextTicket) (h : (s'.draw request).sends ticket = some send') :
    (ticket = s.nextTicket ∧ send'.phase = .drawn ∧ send'.channel = .empty) ∨
      ∃ send, s.sends ticket = some send ∧ SendStep s ticket event send send' := by
  rcases draw_sends_some h with ⟨hticket, rfl⟩ | hold
  · exact .inl ⟨hticket.trans hnext, rfl, rfl⟩
  · exact .inr ⟨send', hsends ▸ hold, .same⟩

/-- A call after a step is new, or it comes from the call before the step. -/
theorem step_send (h : (s.step event).sends ticket = some send') :
    (ticket = s.nextTicket ∧ send'.phase = .drawn ∧ send'.channel = .empty) ∨
      ∃ send, s.sends ticket = some send ∧ SendStep s ticket event send send' := by
  cases event with
  | clone client =>
    rw [step] at h
    split at h <;> exact .inr ⟨send', h, .same⟩
  | request client method params =>
    rw [step] at h
    split at h
    · exact .inr ⟨send', h, .same⟩
    · exact draw_send rfl rfl h
  | notify => exact draw_send rfl rfl h
  | register registering =>
    rw [step] at h
    split at h
    · next request channel hsend =>
      obtain ⟨send, hold, rfl⟩ := map_eq_some_iff.1 h
      refine .inr ⟨send, hold, ?_⟩
      dsimp only
      split
      · next hticket =>
        subst hticket
        rw [hsend] at hold
        cases hold
        exact .register rfl
      · exact sendStep_dropped _ _ _ send
    · exact .inr ⟨send', h, .same⟩
  | write writing answer =>
    refine .inr (modify_send h fun send hticket => ?_)
    subst hticket
    exact .write _
  | line line =>
    cases line with
    | malformed | unreadable => exact .inr ⟨send', h, .same⟩
    | response response =>
      rw [step] at h
      split at h
      · next halive =>
        obtain ⟨send, hold, rfl⟩ := map_eq_some_iff.1 h
        refine .inr ⟨send, hold, ?_⟩
        dsimp only
        split
        · next hpending => exact .value halive hpending
        · exact .same
      · exact .inr ⟨send', h, .same⟩
  | eof => exact .inr ⟨send', h, .same⟩
  | wake waking =>
    refine .inr (modify_send h fun send hticket => ?_)
    subst hticket
    exact .wake
  | expire expiring =>
    refine .inr (modify_send h fun send hticket => ?_)
    subst hticket
    exact .expire
  | cleanup cleaning =>
    rw [step] at h
    split at h
    · next request reason channel hsend =>
      obtain ⟨send, hold, rfl⟩ := map_eq_some_iff.1 h
      refine .inr ⟨send, hold, ?_⟩
      dsimp only
      split
      · next hticket =>
        subst hticket
        rw [hsend] at hold
        cases hold
        exact .cleanup _ rfl
      · exact sendStep_dropped _ _ _ send
    · exact .inr ⟨send', h, .same⟩
  | shutdown =>
    obtain ⟨send, hold, rfl⟩ := map_eq_some_iff.1 h
    exact .inr ⟨send, hold, sendStep_dropped _ _ _ send⟩

/-- An entry of the table after a step was there before, or its call has just registered. -/
theorem step_pending {key : Nat} (h : (s.step event).pending key = some ticket) :
    s.pending key = some ticket ∨ event = .register ticket ∧
      ∃ send, s.sends ticket = some send ∧ send.phase = .drawn ∧ send.request.key = key := by
  have hremove : ∀ {removed : Nat}, update s.pending removed none key = some ticket →
      s.pending key = some ticket := by
    intro removed hpending
    rw [update_apply] at hpending
    exact (ite_none_left_eq_some.1 hpending).2
  cases event with
  | clone _ | request _ _ _ =>
    rw [step] at h
    split at h <;> exact .inl h
  | register registering =>
    rw [step] at h
    split at h
    · next request channel hsend =>
      rw [register_pending, update_apply] at h
      split at h
      · next hkey =>
        cases h
        exact .inr ⟨rfl, _, hsend, rfl, hkey.symm⟩
      · exact .inl h
    · exact .inl h
  | line line =>
    cases line with
    | malformed | unreadable => exact .inl h
    | response response =>
      rw [step] at h
      split at h
      · exact .inl (hremove h)
      · exact .inl h
  | cleanup cleaning =>
    rw [step] at h
    split at h
    · exact .inl (hremove h)
    · exact .inl h
  | shutdown => cases h
  | _ => exact .inl h

/-- The reader ends at a line that cannot be read, when the server closes its output, and at
shutdown. -/
theorem step_status (s : Transport) (event : TransportEvent) :
    (s.step event).readerAlive = s.readerAlive ∧ (s.step event).outputOpen = s.outputOpen ∨
    (s.step event).readerAlive = false ∧
      (event = .line .unreadable ∧ (s.step event).outputOpen = s.outputOpen ∨
        (event = .eof ∨ event = .shutdown) ∧ (s.step event).outputOpen = false) := by
  cases event with
  | clone _ | request _ _ _ | register _ | cleanup _ =>
    rw [step]
    split <;> exact .inl ⟨rfl, rfl⟩
  | line line =>
    cases line with
    | malformed => exact .inl ⟨rfl, rfl⟩
    | unreadable => exact .inr ⟨rfl, .inl ⟨rfl, rfl⟩⟩
    | response response =>
      rw [step]
      split <;> exact .inl ⟨rfl, rfl⟩
  | eof => exact .inr ⟨rfl, .inr ⟨.inl rfl, rfl⟩⟩
  | shutdown => exact .inr ⟨rfl, .inr ⟨.inr rfl, rfl⟩⟩
  | _ => exact .inl ⟨rfl, rfl⟩

/-- The reader does not come back. -/
theorem step_readerAlive (h : (s.step event).readerAlive = true) : s.readerAlive = true := by
  rcases step_status s event with ⟨halive, _⟩ | ⟨hdead, _⟩
  · exact halive ▸ h
  · rw [hdead] at h
    cases h

theorem SendStep.request_eq {send send' : Send} (h : SendStep s ticket event send send') :
    send'.request = send.request := by
  cases h with
  | same | register _ | dropped | value _ _ => rfl
  | write answer => exact (keeps_write _).request send
  | wake => exact (keeps_wake _).request send
  | expire => exact (keeps_expire _).request send
  | cleanup key _ => exact dropped_request key _ send

/-- A call is outstanding only if it was so before, or if it has just registered. -/
theorem SendStep.outstanding_of {send send' : Send} (h : SendStep s ticket event send send')
    (houtstanding : send'.outstanding = true) :
    send.outstanding = true ∨ event = .register ticket ∧ send.phase = .drawn := by
  cases h with
  | same => exact .inl houtstanding
  | register hphase => exact .inr ⟨rfl, hphase⟩
  | dropped =>
    refine .inl ?_
    rwa [outstanding, Channel.isValue_drop] at houtstanding
  | write answer => exact .inl ((keeps_write _).outstanding send houtstanding)
  | value _ _ => simp [outstanding, Channel.isValue] at houtstanding
  | wake => exact .inl ((keeps_wake _).outstanding send houtstanding)
  | expire => exact .inl ((keeps_expire _).outstanding send houtstanding)
  | cleanup _ _ => simp [outstanding, SendPhase.isLive] at houtstanding

end Axinite.Mcp
