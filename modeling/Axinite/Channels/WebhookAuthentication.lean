import Axinite.Channels.WebhookRouter

/-!
# Authentication of webhooks

The checks of a request read the maps of the router one after another, and the flag that tells
the channel that a secret was validated is read again after them.  What a request has passed is
therefore known only while the keys of its channel stay as they were when it was looked up.  The
methods that a channel registers for a path are not looked at.

Main results:

- Theorem `knows_step`: what a request has passed by the time it reaches a check.
- Theorem `webhooks_authenticated`: forwarded requests are authenticated if the keys of a channel
  do not change while a request to it is on the way, and the methods are registered ones.
-/

namespace Axinite.Channels

open Foundation List

/-! ## What a request has passed -/

/-- The channel has registered the path with the method. -/
def Serves (registered : List (String × RegisteredEndpoint)) (name path method : String) : Prop :=
  ∃ endpoint ∈ registered, endpoint.1 = name ∧ endpoint.2.path = path ∧
    method ∈ endpoint.2.methods

instance (registered : List (String × RegisteredEndpoint)) (name path method : String) :
    Decidable (Serves registered name path method) :=
  inferInstanceAs (Decidable (∃ endpoint ∈ registered, _))

section Checks

variable (crypto : Crypto) (s : Router) (v : Visit)

/-- The channel serves the request. -/
def Visit.Served : Prop :=
  Serves s.registered v.channel.channelName v.request.fullPath v.request.method

/-- The secret of the channel at the lookup was compared equal to one of the request. -/
def Visit.SecretProvided : Prop :=
  (∀ secret ∈ v.keys.secret, v.compared = some secret) ∧
    ∀ secret ∈ v.compared, ∃ header, v.request.providedSecret header = some secret

/-- The request was signed with the key of the channel at the lookup. -/
def Visit.Signed : Prop :=
  ∀ key ∈ v.keys.signatureKey, ∃ now ∈ s.times, v.request.checkSignature crypto key now = .ok ()

/-- The request has the code for the HMAC secret of the channel at the lookup. -/
def Visit.Coded : Prop :=
  ∀ secret ∈ v.keys.hmacSecret, ∃ now ∈ s.times, v.request.checkHmac crypto secret now = .ok ()

/-- The request was allowed to be forwarded, and the flag passed on says that its secret was
compared only if it was. -/
structure Forwarded.Authenticated (f : Forwarded) : Prop where
  served : f.Served s
  secret : f.SecretProvided
  signed : f.Signed crypto s
  coded : f.Coded crypto s
  flag : f.secretValidated = true → f.compared.isSome

/-- The keys are still those of the lookup, and the channel serves the request. -/
structure Visit.Current : Prop where
  keys : s.keysOf v.channel.channelName = v.keys
  served : v.Served s

/-- What a request has passed by the time of a check. -/
def Task.Knows : Task → Prop
  | requiresSecret v | secretHeader v => v.Current s ∧ v.compared = none
  | validateSecret v provided =>
    v.Current s ∧ ∃ header, v.request.providedSecret header = some provided
  | signatureKey v => v.Current s ∧ v.SecretProvided
  | hmacSecret v => v.Current s ∧ v.SecretProvided ∧ v.Signed crypto s
  | call v => v.Current s ∧ v.SecretProvided ∧ v.Signed crypto s ∧ v.Coded crypto s
  | _ => True

end Checks

/-- The requests on the way to a channel. -/
def Server.visits (p : Server) : List Visit :=
  p.tasks.filterMap Task.visit

/-- The request whose channel is found by a move, and the channel. -/
def Server.found (p : Server) : Move → Option (Request × WasmChannel)
  | .advance i =>
    match p.tasks[i]? with
    | some (.lookupChannel request name) => (p.shared.channels name).map (Prod.mk request)
    | _ => none
  | _ => none

/-- The move does not change what is registered to authenticate the requests that are on the way,
and takes a request to a channel only if the channel has registered the path with the method. -/
def Server.Undisturbed (crypto : Crypto) (p : Server) (move : Move) : Prop :=
  (∀ v ∈ p.visits,
    (p.step crypto move).shared.keysOf v.channel.channelName =
      p.shared.keysOf v.channel.channelName) ∧
  ∀ found ∈ (p.found move).toList,
    Serves p.shared.registered found.2.channelName found.1.fullPath found.1.method
  deriving Decidable

open Server

section Authenticated

variable {crypto : Crypto} {s s' : Router} {v : Visit}

theorem Visit.Served.mono (h : s.registered ⊆ s'.registered) (hserved : v.Served s) :
    v.Served s' := by
  obtain ⟨endpoint, hmem, heq⟩ := hserved
  exact ⟨endpoint, h hmem, heq⟩

theorem Visit.Signed.mono (h : s.times ⊆ s'.times) (hsigned : v.Signed crypto s) :
    v.Signed crypto s' := by
  intro key hkey
  obtain ⟨now, hmem, hcheck⟩ := hsigned key hkey
  exact ⟨now, h hmem, hcheck⟩

theorem Visit.Coded.mono (h : s.times ⊆ s'.times) (hcoded : v.Coded crypto s) :
    v.Coded crypto s' := by
  intro secret hsecret
  obtain ⟨now, hmem, hcheck⟩ := hcoded secret hsecret
  exact ⟨now, h hmem, hcheck⟩

theorem Forwarded.Authenticated.mono {f : Forwarded} (hregistered : s.registered ⊆ s'.registered)
    (htimes : s.times ⊆ s'.times) (h : f.Authenticated crypto s) : f.Authenticated crypto s' :=
  ⟨h.served.mono hregistered, h.secret, h.signed.mono htimes, h.coded.mono htimes, h.flag⟩

/-- What a request has passed stays passed while the keys of its channel stay. -/
theorem Task.Knows.mono {task : Task} (hregistered : s.registered ⊆ s'.registered)
    (htimes : s.times ⊆ s'.times)
    (hkeys : ∀ v ∈ task.visit, s'.keysOf v.channel.channelName = s.keysOf v.channel.channelName)
    (h : task.Knows crypto s) : task.Knows crypto s' := by
  have hcurrent : ∀ v ∈ task.visit, v.Current s → v.Current s' := fun v hv hv' =>
    ⟨(hkeys v hv).trans hv'.keys, hv'.served.mono hregistered⟩
  cases task with
  | requiresSecret v | secretHeader v | validateSecret v provided | signatureKey v =>
    exact ⟨hcurrent v rfl h.1, h.2⟩
  | hmacSecret v => exact ⟨hcurrent v rfl h.1, h.2.1, h.2.2.mono htimes⟩
  | call v => exact ⟨hcurrent v rfl h.1, h.2.1, h.2.2.1.mono htimes, h.2.2.2.mono htimes⟩
  | _ => exact trivial

theorem Task.knows_of_destination {task : Task} (h : task.destination = none) :
    task.Knows crypto s := by
  cases task <;> first | exact trivial | cases h

/-- A secret is provided once there is none to compare, or the comparison has succeeded. -/
theorem secretProvided_of_validateSecret {provided header : String} (h : v.Current s)
    (hprovided : v.request.providedSecret header = some provided)
    (hvalid : s.validateSecret v.channel.channelName provided = true) :
    ({ v with
      compared := (s.secrets v.channel.channelName).filter (· = provided) } :
        Visit).SecretProvided := by
  have hsecret : v.keys.secret = s.secrets v.channel.channelName := by rw [← h.keys]; rfl
  rw [Router.validateSecret] at hvalid
  constructor
  · intro secret hmem
    have hmem' : s.secrets v.channel.channelName = some secret := hsecret ▸ hmem
    simp only [hmem'] at hvalid
    simp [hmem', hvalid]
  · intro secret hmem
    obtain ⟨-, heq⟩ := Option.filter_eq_some_iff.1 hmem
    exact ⟨header, by rw [hprovided, of_decide_eq_true heq]⟩

theorem secretProvided_of_not_required (h : v.Current s) (hcompared : v.compared = none)
    (hsecret : s.secrets v.channel.channelName = none) : v.SecretProvided := by
  have hkeys : v.keys.secret = s.secrets v.channel.channelName := by rw [← h.keys]; rfl
  constructor
  · simp [hkeys, hsecret]
  · simp [hcompared]

theorem signed_of_checkSignatureKey (h : v.Current s) (hclock : s.now ∈ s.times)
    (hcheck : s.checkSignatureKey crypto v = .ok ()) : v.Signed crypto s := by
  intro key hkey
  have hkeys : s.signatureKeys v.channel.channelName = some key := by
    rw [← h.keys] at hkey
    exact hkey
  simp only [Router.checkSignatureKey, hkeys] at hcheck
  exact ⟨s.now, hclock, hcheck⟩

theorem coded_of_checkHmacSecret (h : v.Current s) (hclock : s.now ∈ s.times)
    (hcheck : s.checkHmacSecret crypto v = .ok ()) : v.Coded crypto s := by
  intro secret hsecret
  have hkeys : s.hmacSecrets v.channel.channelName = some secret := by
    rw [← h.keys] at hsecret
    exact hsecret
  simp only [Router.checkHmacSecret, hkeys] at hcheck
  exact ⟨s.now, hclock, hcheck⟩

/-- A step of a request adds the check that was passed. -/
theorem knows_step {task next : Task} (hsteps : task.Steps crypto s s' next)
    (hclock : s.now ∈ s.times)
    (hserved : ∀ request name channel, task = .lookupChannel request name →
      s.channels name = some channel →
        Serves s.registered channel.channelName request.fullPath request.method)
    (h : task.Knows crypto s) : next.Knows crypto s' := by
  cases hsteps with
  | changes hchanges hnext => exact Task.knows_of_destination hnext
  | lookedUp hpath => exact trivial
  | found hchannel => exact ⟨⟨rfl, hserved _ _ _ rfl hchannel⟩, rfl⟩
  | required => exact h
  | notRequired hsecret => exact ⟨h.1, secretProvided_of_not_required h.1 h.2 hsecret⟩
  | provided hprovided => exact ⟨h.1, _, hprovided⟩
  | validated hvalid =>
    obtain ⟨hcurrent, header, hprovided⟩ := h
    exact ⟨⟨hcurrent.keys, hcurrent.served⟩,
      secretProvided_of_validateSecret hcurrent hprovided hvalid⟩
  | signed hsigned => exact ⟨h.1, h.2, signed_of_checkSignatureKey h.1 hclock hsigned⟩
  | coded hcoded => exact ⟨h.1, h.2.1, h.2.2, coded_of_checkHmacSecret h.1 hclock hcoded⟩
  | called => exact trivial

/-- A request that has passed all checks is authenticated when it is forwarded. -/
theorem authenticated_of_knows (h : (Task.call v).Knows crypto s) :
    Forwarded.Authenticated crypto s ⟨v, s.requiresSecret v.channel.channelName⟩ := by
  obtain ⟨hcurrent, hsecret, hsigned, hcoded⟩ := h
  refine ⟨hcurrent.served, hsecret, hsigned, hcoded, fun hflag => ?_⟩
  obtain ⟨secret, hmem⟩ := Option.isSome_iff_exists.1 hflag
  have hkeys : v.keys.secret = some secret := by rw [← hcurrent.keys]; exact hmem
  rw [hsecret.1 _ hkeys]
  rfl

/-- The requests on the way have passed the checks up to theirs, and those that were forwarded
have passed all. -/
structure Server.Safe (crypto : Crypto) (p : Server) : Prop where
  clock : p.shared.now ∈ p.shared.times
  tasks : ∀ task ∈ p.tasks, task.Knows crypto p.shared
  forwarded : ∀ f ∈ p.shared.forwarded, f.Authenticated crypto p.shared

/-- A step adds to the record, and to the requests that were forwarded only one that has passed
all checks. -/
theorem authenticated_steps {task next : Task} (hsteps : task.Steps crypto s s' next)
    (hclock : s.now ∈ s.times) (hknows : task.Knows crypto s)
    (h : ∀ f ∈ s.forwarded, f.Authenticated crypto s) :
    s.registered ⊆ s'.registered ∧ s.times ⊆ s'.times ∧ s'.now ∈ s'.times ∧
      ∀ f ∈ s'.forwarded, f.Authenticated crypto s' := by
  have hsame : s.registered ⊆ s.registered ∧ s.times ⊆ s.times := ⟨fun _ h => h, fun _ h => h⟩
  cases hsteps with
  | changes hchanges hnext =>
    refine ⟨hchanges.registered, hchanges.times, hchanges.clock hclock, fun f hf => ?_⟩
    exact (h f (hchanges.forwarded ▸ hf)).mono hchanges.registered hchanges.times
  | called =>
    refine ⟨hsame.1, hsame.2, hclock, forall_mem_cons.2 ⟨?_, fun f hf => ?_⟩⟩
    · exact (authenticated_of_knows hknows).mono hsame.1 hsame.2
    · exact (h f hf).mono hsame.1 hsame.2
  | _ => exact ⟨hsame.1, hsame.2, hclock, h⟩

theorem safe_step {p : Server} {move : Move} (hmove : p.Undisturbed crypto move)
    (h : p.Safe crypto) : (p.step crypto move).Safe crypto := by
  obtain ⟨hkeys, hserved⟩ := hmove
  have hkeys' : ∀ task ∈ p.tasks, ∀ v ∈ task.visit,
      (p.step crypto move).shared.keysOf v.channel.channelName =
        p.shared.keysOf v.channel.channelName := fun task hmem v hv =>
    hkeys v (mem_filterMap.2 ⟨task, hmem, hv⟩)
  rcases @step_cases crypto p move with
    ⟨s', started, hstep, hchanges, hstarted⟩ | ⟨i, task, s', next, rfl, htask, hsteps, hstep⟩
  · rw [hstep] at hkeys' ⊢
    refine ⟨hchanges.clock h.clock, forall_mem_append.2 ⟨?_, ?_⟩, fun f hf => ?_⟩
    · exact fun task hmem => (h.tasks task hmem).mono hchanges.registered hchanges.times
        (hkeys' task hmem)
    · exact fun task hmem => Task.knows_of_destination (hstarted task hmem)
    · exact (h.forwarded f (hchanges.forwarded ▸ hf)).mono hchanges.registered hchanges.times
  · have hmem := mem_of_getElem? htask
    have hknows := h.tasks task hmem
    obtain ⟨hregistered, htimes, hclock, hforwarded⟩ :=
      authenticated_steps hsteps h.clock hknows h.forwarded
    have hnext : next.Knows crypto s' := by
      refine knows_step hsteps h.clock (fun request name channel heq hchannel => ?_) hknows
      refine hserved (request, channel) (Option.mem_toList.2 ?_)
      simp [found, htask, heq, hchannel]
    rw [hstep] at hkeys' ⊢
    refine ⟨hclock, ?_, hforwarded⟩
    exact Pool.forall_mem_apply (P := fun task => task ∈ p.tasks) (fun _ hmem => hmem)
      (fun task hmem => (h.tasks task hmem).mono hregistered htimes (hkeys' task hmem))
      hnext (by simp)

theorem safe_start : start.Safe crypto where
  clock := mem_cons_self
  tasks := by simp [start]
  forwarded := by simp [start, Router.new]

end Authenticated

open Runs

/-- If the keys of a channel stay as they are while a request is on the way to it, and requests
are of methods that the channel has registered, then every request that is forwarded is
authenticated. -/
theorem webhooks_authenticated (crypto : Crypto) (moves : List Move)
    (h : AllSteps (step crypto) (Server.Undisturbed crypto) start moves) :
    ∀ p ∈ visited (step crypto) start moves,
      ∀ f ∈ p.shared.forwarded, f.Authenticated crypto p.shared := by
  intro p hp
  exact (forall_mem_visited (fun _ _ => safe_step) safe_start h p hp).forwarded

/-! ## A channel that is registered, asked and unregistered -/

section Sample

/-- A provider whose checks accept what is equal to the key. -/
def sampleCrypto : Crypto where
  parseTimestamp := fun _ => some 0
  ed25519 := fun publicKey signature _ => publicKey = signature
  hmacSha256 := fun secret _ => secret
  validKey := fun _ => true

def sampleRegister (secret : Option String) : Move :=
  .register ⟨"slack"⟩ [⟨"slack", "/webhook/slack", ["POST"], false⟩] ⟨secret, none⟩

/-- A request with an HMAC code, and perhaps a secret. -/
def sampleRequest (method : String) (secret : Option String) : Request where
  method := method
  path := "slack"
  query := fun name => if name = "secret" then secret else none
  header := fun name =>
    if name = "x-slack-request-timestamp" then some "0"
    else if name = "x-slack-signature" then some "v0=key" else none
  body := []

/-- The task at a position takes a number of steps. -/
def runs (i n : Nat) : List Move :=
  replicate n (.advance i)

/-- The channel is registered with two keys before a request, and unregistered after it. -/
def sampleVisit : List Move :=
  sampleRegister (some "s3cret") :: runs 0 4 ++
    .registerHmacSecret "slack" "key" :: .request (sampleRequest "POST" (some "s3cret")) ::
      runs 1 8 ++ .unregister "slack" :: runs 2 6

theorem sampleVisit_authenticated :
    ((sampleVisit.foldl (step sampleCrypto) start).shared.forwarded.map
        fun f => (f.compared, f.secretValidated)) = [(some "s3cret", true)] ∧
      ∀ p ∈ visited (step sampleCrypto) start sampleVisit,
        ∀ f ∈ p.shared.forwarded, f.Authenticated sampleCrypto p.shared :=
  ⟨by decide, webhooks_authenticated sampleCrypto sampleVisit (by decide)⟩

/-- A request of a method that was not registered. -/
def strayMethod : List Move :=
  sampleRegister none :: runs 0 4 ++ .request (sampleRequest "GET" none) :: runs 1 6

/-- A channel is unregistered between the lookup and the checks of a request without secret. -/
def strayUnregister : List Move :=
  sampleRegister (some "s3cret") :: runs 0 4 ++
    .request (sampleRequest "POST" none) :: runs 1 2 ++ .unregister "slack" :: runs 2 2 ++ runs 1 4

/-- A secret is set after the checks of a request without secret. -/
def lateSecret : List Move :=
  sampleRegister none :: runs 0 4 ++ .request (sampleRequest "POST" none) :: runs 1 5 ++
    .updateSecret "slack" "s3cret" :: runs 1 1

/-- The requests that a run has forwarded, each with its method, what it provided as a secret, the
secret of the channel at the lookup, and the flag. -/
def forwardedBy (moves : List Move) : List (String × Option String × Option String × Bool) :=
  (moves.foldl (step sampleCrypto) start).shared.forwarded.map fun f =>
    (f.request.method, f.compared, f.keys.secret, f.secretValidated)

/-- Requests are forwarded of a method that no channel has registered, without the secret that was
registered at the lookup, and with the flag set although nothing was compared. -/
theorem requests_not_authenticated : (forwardedBy strayMethod = [("GET", none, none, false)] ∧
      ∀ endpoint ∈ (strayMethod.foldl (step sampleCrypto) start).shared.registered,
        "GET" ∉ endpoint.2.methods) ∧
    forwardedBy strayUnregister = [("POST", none, some "s3cret", false)] ∧
    forwardedBy lateSecret = [("POST", none, none, true)] := by
  decide

end Sample

end Axinite.Channels
