import Axinite.Foundation.Pool
import Axinite.Foundation.Runs

/-!
# The webhook router

Webhook requests are routed to a channel by their path, and are checked against the secret, the
Ed25519 key and the HMAC secret of the channel before they are forwarded to it.  These stand in
maps that have a lock each, so channels may be registered, updated and unregistered between any
two steps of a request.  The lock of the paths is held by a registration until it has written the
secret, and by a lookup until it has found the channel.

Main results:

- Theorem `steps_step`: what a task does in a step, and what it has read before.
- Theorem `step_cases`: what a move does to the router and to the tasks.
-/

namespace Axinite.Channels

open Foundation

/-! ## Channels and requests -/

/-- A channel, as far as the router tells channels apart. -/
structure WasmChannel where
  channelName : String
  deriving DecidableEq

/-- An endpoint that a channel registers. -/
structure RegisteredEndpoint where
  channelName : String
  path : String
  methods : List String
  requireSecret : Bool
  deriving DecidableEq

/-- The secret that is expected of webhooks, and the header that carries it. -/
structure WebhookSecrets where
  secret : Option String
  header : Option String

/-- A request: a query parameter and a header are looked up by name, and the path is what follows
that of the route. -/
structure Request where
  method : String
  path : String
  query : String → Option String
  header : String → Option String
  body : List UInt8

def Request.fullPath (request : Request) : String :=
  "/webhook/" ++ request.path

/-- What the checks of signatures take from other crates: the parser of timestamps, the
verification of a signature, the code of a message in hexadecimal, and the check of a key. -/
structure Crypto where
  parseTimestamp : String → Option Int
  ed25519 : (publicKey signature : String) → (message : List UInt8) → Bool
  hmacSha256 : (secret : String) → (message : List UInt8) → String
  validKey : String → Bool

/-- The bytes of a text. -/
def bytes (text : String) : List UInt8 :=
  text.toUTF8.data.toList

section Signatures

variable (crypto : Crypto)

/-- A number as 64 bits hold it. -/
def i64 (n : Int) : Int :=
  n.bmod UInt64.size

/-- The seconds between two times.  The subtraction wraps around, and the absolute value of the
least number is that number. -/
def secondsBetween (now ts : Int) : Int :=
  i64 (i64 (now - ts)).natAbs

/-- The signature over the timestamp and the body is valid, and at most five seconds old. -/
def verifyDiscordSignature (publicKey signature timestamp : String) (body : List UInt8)
    (now : Int) : Bool :=
  match crypto.parseTimestamp timestamp with
  | none => false
  | some ts =>
    if secondsBetween now ts > 5 then false
    else crypto.ed25519 publicKey signature (bytes timestamp ++ body)

/-- The code of the timestamp and the body is the one of the header, and at most five minutes
old. -/
def verifySlackSignature (signingSecret timestamp : String) (body : List UInt8)
    (signatureHeader : String) (now : Int) : Bool :=
  match crypto.parseTimestamp timestamp with
  | none => false
  | some ts =>
    if secondsBetween now ts > 300 then false
    else
      "v0=" ++ crypto.hmacSha256 signingSecret
        (bytes "v0:" ++ bytes timestamp ++ bytes ":" ++ body) = signatureHeader

/-- The check of a request against a key; the error text of a request that fails. -/
def Request.checkSignature (request : Request) (publicKey : String) (now : Int) :
    Except String Unit :=
  match request.header "x-signature-ed25519", request.header "x-signature-timestamp" with
  | some sig, some ts =>
    if verifyDiscordSignature crypto publicKey sig ts request.body now then .ok ()
    else .error "Invalid signature"
  | _, _ => .error "Missing signature headers"

/-- The check of a request against an HMAC secret. -/
def Request.checkHmac (request : Request) (hmacSecret : String) (now : Int) : Except String Unit :=
  match request.header "x-slack-request-timestamp", request.header "x-slack-signature" with
  | some ts, some sig =>
    if verifySlackSignature crypto hmacSecret ts request.body sig now then .ok ()
    else .error "Invalid Slack signature"
  | _, _ => .error "Missing Slack signature headers"

end Signatures

/-- The secret that the request provides, if the channel's header has this name. -/
def Request.providedSecret (request : Request) (secretHeader : String) : Option String :=
  (request.query "secret").or
    ((request.header secretHeader).or
      (if secretHeader ≠ "X-Webhook-Secret" then request.header "X-Webhook-Secret" else none))

/-! ## The router -/

/-- What is registered for a channel to authenticate requests. -/
structure ChannelKeys where
  secret : Option String
  signatureKey : Option String
  hmacSecret : Option String
  deriving DecidableEq

/-- A request on its way to a channel.  For the record: the keys of the channel when it was looked
up, and the provided secret that has been compared equal to that of the channel. -/
structure Visit where
  request : Request
  channel : WasmChannel
  keys : ChannelKeys
  compared : Option String

/-- A request that was forwarded, with the flag that was passed on. -/
structure Forwarded extends Visit where
  secretValidated : Bool

open Function

/-- The maps of the router, and the clock.  The times that the clock has shown, the endpoints that
were ever registered, and the requests that were forwarded are kept for the record. -/
structure Router where
  channels : String → Option WasmChannel
  pathToChannel : String → Option String
  secrets : String → Option String
  secretHeaders : String → Option String
  signatureKeys : String → Option String
  hmacSecrets : String → Option String
  now : Int
  times : List Int
  registered : List (String × RegisteredEndpoint)
  forwarded : List Forwarded

namespace Router

def new : Router where
  channels := fun _ => none
  pathToChannel := fun _ => none
  secrets := fun _ => none
  secretHeaders := fun _ => none
  signatureKeys := fun _ => none
  hmacSecrets := fun _ => none
  now := 0
  times := [0]
  registered := []
  forwarded := []

/-- What is registered for a channel. -/
def keysOf (s : Router) (name : String) : ChannelKeys :=
  ⟨s.secrets name, s.signatureKeys name, s.hmacSecrets name⟩

def insertPaths (s : Router) (name : String) (endpoints : List RegisteredEndpoint) : Router :=
  { s with
    pathToChannel := endpoints.foldl
      (fun map endpoint => update map endpoint.path (some name)) s.pathToChannel
    registered := endpoints.map (Prod.mk name) ++ s.registered }

/-- Remove all paths of a channel. -/
def removePaths (s : Router) (name : String) : Router :=
  { s with
    pathToChannel := fun path =>
      if s.pathToChannel path = some name then none else s.pathToChannel path }

def getSecretHeader (s : Router) (name : String) : String :=
  (s.secretHeaders name).getD "X-Webhook-Secret"

def requiresSecret (s : Router) (name : String) : Bool :=
  (s.secrets name).isSome

def validateSecret (s : Router) (name provided : String) : Bool :=
  match s.secrets name with
  | some expected => expected = provided
  | none => true

/-- The check of the signature against the key of the channel, if it has one. -/
def checkSignatureKey (crypto : Crypto) (s : Router) (v : Visit) : Except String Unit :=
  match s.signatureKeys v.channel.channelName with
  | some key => v.request.checkSignature crypto key s.now
  | none => .ok ()

/-- The check against the HMAC secret of the channel, if it has one. -/
def checkHmacSecret (crypto : Crypto) (s : Router) (v : Visit) : Except String Unit :=
  match s.hmacSecrets v.channel.channelName with
  | some secret => v.request.checkHmac crypto secret s.now
  | none => .ok ()

end Router

/-! ## Tasks -/

/-- Registrations and requests, by the lock they take next. -/
inductive Task where
  | register (channel : WasmChannel) (endpoints : List RegisteredEndpoint)
      (secrets : WebhookSecrets)
  | registerPaths (name : String) (endpoints : List RegisteredEndpoint) (secrets : WebhookSecrets)
  | registerSecret (name : String) (secrets : WebhookSecrets)
  | registerHeader (name : String) (header : Option String)
  | unregister (name : String)
  | unregisterSecret (name : String)
  | unregisterHeader (name : String)
  | unregisterKey (name : String)
  | unregisterHmac (name : String)
  | unregisterPaths (name : String)
  | lookup (request : Request)
  | lookupChannel (request : Request) (name : String)
  | requiresSecret (visit : Visit)
  | secretHeader (visit : Visit)
  | validateSecret (visit : Visit) (provided : String)
  | signatureKey (visit : Visit)
  | hmacSecret (visit : Visit)
  | call (visit : Visit)
  | answered (status : Nat) (error : String)
  | done

/-- The task holds the lock of the paths for writing. -/
def Task.writesPaths : Task → Bool
  | registerSecret .. | registerHeader .. => true
  | _ => false

/-- The task holds the lock of the paths for reading. -/
def Task.readsPaths : Task → Bool
  | lookupChannel .. => true
  | _ => false

/-- A step that changes nothing but the task. -/
def goOn (s : Router) (task : Task) : Effect Router Task :=
  ⟨s, task, []⟩

def Task.step (crypto : Crypto) (p : Pool Router Task) : Task → Effect Router Task
  | register channel endpoints secrets =>
    goOn { p.shared with
        channels := update p.shared.channels channel.channelName (some channel) }
      (registerPaths channel.channelName endpoints secrets)
  | registerPaths name endpoints secrets =>
    if p.tasks.any (fun task => task.writesPaths || task.readsPaths) then
      goOn p.shared (registerPaths name endpoints secrets)
    else goOn (p.shared.insertPaths name endpoints) (registerSecret name secrets)
  | registerSecret name secrets =>
    match secrets.secret with
    | some secret =>
      goOn { p.shared with
          secrets := update p.shared.secrets name (some secret) }
        (registerHeader name secrets.header)
    | none => goOn p.shared (registerHeader name secrets.header)
  | registerHeader name header =>
    match header with
    | some header =>
      goOn { p.shared with
        secretHeaders := update p.shared.secretHeaders name (some header) } done
    | none => goOn p.shared done
  | unregister name =>
    goOn { p.shared with channels := update p.shared.channels name none }
      (unregisterSecret name)
  | unregisterSecret name =>
    goOn { p.shared with secrets := update p.shared.secrets name none }
      (unregisterHeader name)
  | unregisterHeader name =>
    goOn { p.shared with secretHeaders := update p.shared.secretHeaders name none }
      (unregisterKey name)
  | unregisterKey name =>
    goOn { p.shared with signatureKeys := update p.shared.signatureKeys name none }
      (unregisterHmac name)
  | unregisterHmac name =>
    goOn { p.shared with hmacSecrets := update p.shared.hmacSecrets name none }
      (unregisterPaths name)
  | unregisterPaths name =>
    if p.tasks.any (fun task => task.writesPaths || task.readsPaths) then
      goOn p.shared (unregisterPaths name)
    else goOn (p.shared.removePaths name) done
  | lookup request =>
    if p.tasks.any writesPaths then goOn p.shared (lookup request)
    else
      match p.shared.pathToChannel request.fullPath with
      | some name => goOn p.shared (lookupChannel request name)
      | none => goOn p.shared (answered 404 "Channel not found for path")
  | lookupChannel request name =>
    match p.shared.channels name with
    | some channel =>
      goOn p.shared
        (requiresSecret ⟨request, channel, p.shared.keysOf channel.channelName, none⟩)
    | none => goOn p.shared (answered 404 "Channel not found for path")
  | requiresSecret v =>
    if p.shared.requiresSecret v.channel.channelName then goOn p.shared (secretHeader v)
    else goOn p.shared (signatureKey v)
  | secretHeader v =>
    match v.request.providedSecret (p.shared.getSecretHeader v.channel.channelName) with
    | some provided => goOn p.shared (validateSecret v provided)
    | none => goOn p.shared (answered 401 "Webhook secret required")
  | validateSecret v provided =>
    if p.shared.validateSecret v.channel.channelName provided then
      goOn p.shared (signatureKey
        { v with
          compared := (p.shared.secrets v.channel.channelName).filter (· = provided) })
    else goOn p.shared (answered 401 "Invalid webhook secret")
  | signatureKey v =>
    match p.shared.checkSignatureKey crypto v with
    | .ok () => goOn p.shared (hmacSecret v)
    | .error error => goOn p.shared (answered 401 error)
  | hmacSecret v =>
    match p.shared.checkHmacSecret crypto v with
    | .ok () => goOn p.shared (call v)
    | .error error => goOn p.shared (answered 401 error)
  | call v =>
    goOn { p.shared with
      forwarded := ⟨v, p.shared.requiresSecret v.channel.channelName⟩ :: p.shared.forwarded }
      done
  | answered status error => goOn p.shared (answered status error)
  | done => goOn p.shared done

/-- Calls of the router, requests, changes of the clock, and steps of tasks. -/
inductive Move where
  | register (channel : WasmChannel) (endpoints : List RegisteredEndpoint)
      (secrets : WebhookSecrets)
  | unregister (name : String)
  | updateSecret (name secret : String)
  | registerSignatureKey (name publicKey : String)
  | registerHmacSecret (name secret : String)
  | request (request : Request)
  | clock (now : Int)
  | advance (i : Nat)

/-- The router with its tasks. -/
abbrev Server := Pool Router Task

def Server.start : Server where
  shared := .new
  tasks := []

/-- A move of the server.  Requests of other methods do not reach the handler. -/
def Server.step (crypto : Crypto) (p : Server) : Move → Server
  | .register channel endpoints secrets => Pool.start p (.register channel endpoints secrets)
  | .unregister name => Pool.start p (.unregister name)
  | .updateSecret name secret =>
    { p with shared.secrets := update p.shared.secrets name (some secret) }
  | .registerSignatureKey name publicKey =>
    if crypto.validKey publicKey then
      { p with
        shared.signatureKeys := update p.shared.signatureKeys name (some publicKey) }
    else p
  | .registerHmacSecret name secret =>
    { p with shared.hmacSecrets := update p.shared.hmacSecrets name (some secret) }
  | .request request =>
    if request.method ∈ ["GET", "HEAD", "POST"] then Pool.start p (.lookup request) else p
  | .clock now => { p with shared.now := now, shared.times := now :: p.shared.times }
  | .advance i => p.advance (Task.step crypto) i

/-! ## What a step does -/

/-- The request that the task is taking to a channel. -/
def Task.visit : Task → Option Visit
  | requiresSecret v | secretHeader v | validateSecret v _ | signatureKey v | hmacSecret v
  | call v => some v
  | _ => none

/-- The name of the channel that the task is taking a request to, and the path. -/
def Task.destination : Task → Option (String × String)
  | lookupChannel request name => some (name, request.fullPath)
  | task => task.visit.map fun v => (v.channel.channelName, v.request.fullPath)

/-- A change of the router by which no request is forwarded, and endpoints and times are only added
to the record. -/
structure Router.Changes (s s' : Router) : Prop where
  registered : s.registered ⊆ s'.registered
  times : s.times ⊆ s'.times
  clock : s.now ∈ s.times → s'.now ∈ s'.times
  forwarded : s'.forwarded = s.forwarded

theorem Router.changes_rfl (s : Router) : s.Changes s :=
  ⟨fun _ h => h, fun _ h => h, id, rfl⟩

theorem Router.changes_insertPaths (s : Router) (name : String)
    (endpoints : List RegisteredEndpoint) : s.Changes (s.insertPaths name endpoints) :=
  ⟨List.subset_append_right _ _, fun _ h => h, id, rfl⟩

open Channels.Task

/-- The steps of a task: it changes the router without a request on the way to a channel, or it
takes a request on, each time with what it has read. -/
inductive Task.Steps (crypto : Crypto) (s : Router) : Task → Router → Task → Prop where
  | changes {task : Task} {s' : Router} {next : Task} (hchanges : s.Changes s')
      (hnext : next.destination = none) :
      Steps crypto s task s' next
  | lookedUp {request : Request} {name : String}
      (hpath : s.pathToChannel request.fullPath = some name) :
      Steps crypto s (.lookup request) s (.lookupChannel request name)
  | found {request : Request} {name : String} {channel : WasmChannel}
      (hchannel : s.channels name = some channel) :
      Steps crypto s (.lookupChannel request name) s
        (.requiresSecret ⟨request, channel, s.keysOf channel.channelName, none⟩)
  | required {v : Visit} : Steps crypto s (.requiresSecret v) s (.secretHeader v)
  | notRequired {v : Visit} (hsecret : s.secrets v.channel.channelName = none) :
      Steps crypto s (.requiresSecret v) s (.signatureKey v)
  | provided {v : Visit} {header provided : String}
      (hprovided : v.request.providedSecret header = some provided) :
      Steps crypto s (.secretHeader v) s (.validateSecret v provided)
  | validated {v : Visit} {provided : String}
      (hvalid : s.validateSecret v.channel.channelName provided = true) :
      Steps crypto s (.validateSecret v provided) s (.signatureKey
        { v with compared := (s.secrets v.channel.channelName).filter (· = provided) })
  | signed {v : Visit} (hsigned : s.checkSignatureKey crypto v = .ok ()) :
      Steps crypto s (.signatureKey v) s (.hmacSecret v)
  | coded {v : Visit} (hcoded : s.checkHmacSecret crypto v = .ok ()) :
      Steps crypto s (.hmacSecret v) s (.call v)
  | called {v : Visit} :
      Steps crypto s (.call v)
        { s with forwarded := ⟨v, s.requiresSecret v.channel.channelName⟩ :: s.forwarded } .done

section Steps

variable {crypto : Crypto}

theorem steps_step (p : Server) (task : Task) :
    ∃ s' next, task.step crypto p = goOn s' next ∧ task.Steps crypto p.shared s' next := by
  have same := p.shared.changes_rfl
  cases task with
  | register _ _ _ | unregister _ | unregisterSecret _ | unregisterHeader _ | unregisterKey _
  | unregisterHmac _ =>
    exact ⟨_, _, rfl, .changes ⟨same.registered, same.times, id, rfl⟩ rfl⟩
  | registerPaths name endpoints secrets =>
    simp only [step]
    split
    · exact ⟨_, _, rfl, .changes same rfl⟩
    · exact ⟨_, _, rfl, .changes (p.shared.changes_insertPaths name _) rfl⟩
  | registerSecret _ _ | registerHeader _ _ =>
    simp only [step]
    split
    · exact ⟨_, _, rfl, .changes ⟨same.registered, same.times, id, rfl⟩ rfl⟩
    · exact ⟨_, _, rfl, .changes same rfl⟩
  | unregisterPaths name =>
    simp only [step]
    split
    · exact ⟨_, _, rfl, .changes same rfl⟩
    · exact ⟨_, _, rfl, .changes ⟨same.registered, same.times, id, rfl⟩ rfl⟩
  | lookup request =>
    simp only [step]
    split
    · exact ⟨_, _, rfl, .changes same rfl⟩
    · split
      · exact ⟨_, _, rfl, .lookedUp ‹_›⟩
      · exact ⟨_, _, rfl, .changes same rfl⟩
  | lookupChannel request name =>
    simp only [step]
    split
    · exact ⟨_, _, rfl, .found ‹_›⟩
    · exact ⟨_, _, rfl, .changes same rfl⟩
  | requiresSecret v =>
    simp only [step]
    split
    · exact ⟨_, _, rfl, .required⟩
    · next hsecret => exact ⟨_, _, rfl, .notRequired (Option.not_isSome_iff_eq_none.1 hsecret)⟩
  | secretHeader v =>
    simp only [step]
    split
    · exact ⟨_, _, rfl, .provided ‹_›⟩
    · exact ⟨_, _, rfl, .changes same rfl⟩
  | validateSecret v provided =>
    simp only [step]
    split
    · exact ⟨_, _, rfl, .validated ‹_›⟩
    · exact ⟨_, _, rfl, .changes same rfl⟩
  | signatureKey v =>
    simp only [step]
    split
    · exact ⟨_, _, rfl, .signed ‹_›⟩
    · exact ⟨_, _, rfl, .changes same rfl⟩
  | hmacSecret v =>
    simp only [step]
    split
    · exact ⟨_, _, rfl, .coded ‹_›⟩
    · exact ⟨_, _, rfl, .changes same rfl⟩
  | call v => exact ⟨_, _, rfl, .called⟩
  | answered _ _ | done => exact ⟨_, _, rfl, .changes same rfl⟩

/-- A move changes the router and starts a task that has no channel yet, or it is the step of a
task. -/
theorem step_cases (p : Server) (move : Move) :
    (∃ s' started, p.step crypto move = ⟨s', p.tasks ++ started⟩ ∧ p.shared.Changes s' ∧
      ∀ task ∈ started, task.destination = none) ∨
    ∃ i task s' next, move = .advance i ∧ p.tasks[i]? = some task ∧
      task.Steps crypto p.shared s' next ∧ p.step crypto move = p.apply i ⟨s', next, []⟩ := by
  have same := p.shared.changes_rfl
  -- a call that writes one of the maps
  have hwrites : ∀ s', p.shared.Changes s' → ∃ s'' started,
      (⟨s', p.tasks⟩ : Server) = ⟨s'', p.tasks ++ started⟩ ∧ p.shared.Changes s'' ∧
        ∀ task ∈ started, task.destination = none := fun s' h =>
    ⟨s', [], by rw [List.append_nil], h, by simp⟩
  have hstarts : ∀ task : Task, task.destination = none → ∃ s' started,
      Pool.start p task = ⟨s', p.tasks ++ started⟩ ∧ p.shared.Changes s' ∧
        ∀ task ∈ started, task.destination = none := fun task h =>
    ⟨p.shared, [task], rfl, same, by simpa using h⟩
  cases move with
  | register _ _ _ | unregister _ => exact .inl (hstarts _ rfl)
  | updateSecret _ _ | registerHmacSecret _ _ =>
    exact .inl (hwrites _ ⟨same.registered, same.times, id, rfl⟩)
  | registerSignatureKey name publicKey =>
    simp only [Server.step]
    split
    · exact .inl (hwrites _ ⟨same.registered, same.times, id, rfl⟩)
    · exact .inl (hwrites _ same)
  | request request =>
    simp only [Server.step]
    split
    · exact .inl (hstarts _ rfl)
    · exact .inl (hwrites _ same)
  | clock now =>
    exact .inl (hwrites _ ⟨same.registered, List.subset_cons_self _ _,
      fun _ => List.mem_cons_self, rfl⟩)
  | advance i =>
    rcases p.advance_cases (step crypto) i with hsame | ⟨task, htask, hstep⟩
    · rw [Server.step, hsame]
      exact .inl (hwrites _ same)
    · obtain ⟨s', next, heffect, hsteps⟩ := steps_step p task
      refine .inr ⟨i, task, s', next, rfl, htask, hsteps, ?_⟩
      rw [Server.step, hstep, heffect]
      rfl

end Steps

end Axinite.Channels
