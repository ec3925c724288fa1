import Axinite.Json
import Mathlib.Logic.Function.Basic
import Mathlib.Tactic.Simps.Basic

/-!
# The stdio transport of MCP clients

All clones of a client share one transport: they write their requests to the input of a child
process, and one reader takes the responses from its output.  A call registers the sending half
of a channel under the identifier of its request, writes the request, and waits at the receiving
half.  The reader removes the sending half that is registered under the identifier of a response
and sends the response through it.  A sending half that is replaced or removed is dropped, which
wakes its receiver.

The calls are named by tickets.  Whatever holds the lock of the table of pending calls is one
event, and so is a write to the child, what a waiting call sees, and a line of the child.
-/

namespace Axinite.Mcp

open Json

/-! ## Requests and responses -/

/-- Request to a server; a notification has no identifier. -/
structure McpRequest where
  id : Option Nat
  method : String
  params : Option Value

/-- Notification that the client is initialized. -/
def McpRequest.initializedNotification : McpRequest where
  id := none
  method := "notifications/initialized"
  params := none

structure McpError where
  code : Int
  message : String
  data : Option Value

/-- Response of a server. -/
structure McpResponse where
  id : Option Nat
  result : Option Value
  error : Option McpError

/-- The key of a request in the table of pending calls. -/
def McpRequest.key (request : McpRequest) : Nat :=
  request.id.getD 0

/-- The key under which a response is looked up. -/
def McpResponse.key (response : McpResponse) : Nat :=
  response.id.getD 0

/-! ## Calls -/

/-- What the receiving half of the channel of a call sees. -/
inductive Channel where
  | empty
  | value (response : McpResponse)
  | dropped

/-- The sending half is dropped. -/
def Channel.drop : Channel → Channel
  | empty => dropped
  | channel => channel

/-- How far a call has come. -/
inductive SendPhase where
  /-- The request has its identifier. -/
  | drawn
  /-- The sending half is in the table. -/
  | registered
  /-- The request has been written. -/
  | waiting
  /-- The call is going to remove the entry of its key and to fail. -/
  | failing (reason : String)
  | returned (result : Except String McpResponse)

/-- A call of the transport. -/
structure Send where
  request : McpRequest
  phase : SendPhase
  channel : Channel

/-- Debug text of an optional identifier. -/
def debugId : Option Nat → String
  | none => "None"
  | some id => "Some(" ++ toString id ++ ")"

/-- The request has been written, or it could not be written. -/
def Send.write (answer : Except String Unit) (send : Send) : Send :=
  match send.phase, answer with
  | .registered, .ok () => { send with phase := .waiting }
  | .registered, .error reason => { send with phase := .failing reason }
  | _, _ => send

/-- A waiting call looks at its channel. -/
def Send.wake (serverName : String) (send : Send) : Send :=
  match send.phase, send.channel with
  | .waiting, .value response => { send with phase := .returned (.ok response) }
  | .waiting, .dropped =>
    { send with phase := .failing ("[" ++ serverName ++
        "] MCP server closed connection before responding to request " ++
        debugId send.request.id) }
  | _, _ => send

/-- The timeout of a waiting call passes. -/
def Send.expire (serverName : String) (send : Send) : Send :=
  match send.phase, send.channel with
  | .waiting, .empty =>
    { send with phase := .failing ("[" ++ serverName ++
        "] Timeout waiting for response to request " ++ debugId send.request.id ++
        " after 30s") }
  | _, _ => send

/-! ## The transport -/

/-- Name of a call. -/
abbrev Ticket := Nat

/-- The transport, with the counters of the clients that share it. -/
structure Transport where
  serverName : String
  /-- Next request identifier of every client. -/
  clients : List Nat
  sends : Ticket → Option Send
  nextTicket : Ticket
  pending : Nat → Option Ticket
  readerAlive : Bool
  /-- The server has not closed its output. -/
  outputOpen : Bool

inductive ServerLine where
  | response (response : McpResponse)
  /-- The line does not parse as a response. -/
  | malformed
  /-- The line is not UTF-8 text, so that reading it fails. -/
  | unreadable

/-- What happens to the transport. -/
inductive TransportEvent where
  /-- A client is cloned. -/
  | clone (client : Nat)
  /-- A client makes a request. -/
  | request (client : Nat) (method : String) (params : Option Value)
  /-- A client sends the notification. -/
  | notify
  | register (ticket : Ticket)
  | write (ticket : Ticket) (answer : Except String Unit)
  | line (line : ServerLine)
  /-- The server closes its output. -/
  | eof
  | wake (ticket : Ticket)
  | expire (ticket : Ticket)
  /-- A failing call removes the entry of its key and returns. -/
  | cleanup (ticket : Ticket)
  | shutdown

namespace Transport

/-- A new transport with one client. -/
def new (serverName : String) : Transport where
  serverName := serverName
  clients := [1]
  sends := fun _ => none
  nextTicket := 0
  pending := fun _ => none
  readerAlive := true
  outputOpen := true

/-- Change the calls. -/
@[simps]
def alter (s : Transport) (g : Ticket → Send → Send) : Transport :=
  { s with sends := fun ticket => (s.sends ticket).map (g ticket) }

/-- Change one call. -/
def modify (s : Transport) (ticket : Ticket) (f : Send → Send) : Transport :=
  s.alter fun other send => if other = ticket then f send else send

/-- The sending half of a call is dropped if it is in the table under the key. -/
def dropped (s : Transport) (key : Nat) (ticket : Ticket) (send : Send) : Send :=
  if s.pending key = some ticket then { send with channel := send.channel.drop } else send

/-- A new call. -/
@[simps]
def draw (s : Transport) (request : McpRequest) : Transport :=
  { s with
    sends := Function.update s.sends s.nextTicket (some ⟨request, .drawn, .empty⟩)
    nextTicket := s.nextTicket + 1 }

/-- A call puts its sending half into the table; the one that was there is dropped. -/
@[simps!]
def register (s : Transport) (ticket : Ticket) (key : Nat) : Transport :=
  { s.alter fun other send =>
      if other = ticket then { send with phase := .registered } else s.dropped key other send with
    pending := Function.update s.pending key (some ticket) }

/-- A failing call removes what is in the table under its key, and returns. -/
@[simps!]
def cleanup (s : Transport) (ticket : Ticket) (key : Nat) (reason : String) : Transport :=
  { s.alter fun other send =>
      if other = ticket then
        { s.dropped key other send with phase := .returned (.error reason) }
      else s.dropped key other send with
    pending := Function.update s.pending key none }

/-- The reader sends a response to the call that is registered under its key. -/
@[simps!]
def dispatch (s : Transport) (response : McpResponse) : Transport :=
  { s.alter fun ticket send =>
      if s.pending response.key = some ticket then { send with channel := .value response }
      else send with
    pending := Function.update s.pending response.key none }

/-- The child is killed, the reader is stopped and the table is cleared; a call is in it under
the key of its request. -/
@[simps!]
def shutdown (s : Transport) : Transport :=
  { s.alter fun ticket send => s.dropped send.request.key ticket send with
    pending := fun _ => none
    readerAlive := false
    outputOpen := false }

/-- Identifiers are 64-bit numbers. -/
def nextRequestId (id : Nat) : Nat :=
  (id + 1) % UInt64.size

def step (s : Transport) : TransportEvent → Transport
  | .clone client =>
    match s.clients[client]? with
    | none => s
    | some id => { s with clients := s.clients ++ [id] }
  | .request client method params =>
    match s.clients[client]? with
    | none => s
    | some id =>
      { s with clients := s.clients.set client (nextRequestId id) }.draw ⟨some id, method, params⟩
  | .notify => s.draw .initializedNotification
  | .register ticket =>
    match s.sends ticket with
    | some ⟨request, .drawn, _⟩ => s.register ticket request.key
    | _ => s
  | .write ticket answer => s.modify ticket (Send.write answer)
  | .line (.response response) => if s.readerAlive then s.dispatch response else s
  | .line .malformed => s
  -- the loop of the reader ends at the first line that cannot be read
  | .line .unreadable => { s with readerAlive := false }
  | .eof => { s with readerAlive := false, outputOpen := false }
  | .wake ticket => s.modify ticket (Send.wake s.serverName)
  | .expire ticket => s.modify ticket (Send.expire s.serverName)
  | .cleanup ticket =>
    match s.sends ticket with
    | some ⟨request, .failing reason, _⟩ => s.cleanup ticket request.key reason
    | _ => s
  | .shutdown => s.shutdown

end Transport

end Axinite.Mcp
