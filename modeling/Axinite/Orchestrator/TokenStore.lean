import Axinite.Foundation.Runs
import Axinite.Net.Allowlist
import Axinite.Session.Turn

/-!
# Worker tokens and credential grants

A container worker authenticates its requests with a bearer token that was created for its job.
The middleware reads the job out of the path, and the handlers read it out of the path once
more.  Credentials are granted to a job in a second table, which outlives the token: a token
that is created for a job with grants inherits them.

Main results:

- Theorem `extractJobIdFromPath_of_match`: the middleware reads the segment that the handlers
  are given.
- Theorem `percent_notMem_of_parseStr`: decoding this segment does not change the job.
- Theorem `credentialsScoped_iff`: what a job is given, in terms of the stored grants.
- Theorem `worker_access_iff`: the histories in which a job is given its own credentials only.
-/

namespace Axinite.Orchestrator

open Foundation List
open Foundation.DotSegments (splitOn_append_cons)
open Net.Allowlist (asBytes decodeBinary decodeBinary_of_notMem hexValue percent)

/-! ## Job identifiers -/

/-- The value of hexadecimal digits. -/
def parseHex (digits : List UInt8) : Option Nat :=
  digits.foldlM (fun value digit => (hexValue digit).map fun d => 16 * value + d.toNat) 0

/-- The byte `-`. -/
def hyphen : UInt8 := 45

def hyphenPositions : List Nat := [8, 13, 18, 23]

/-- Digits in five groups. -/
def parseHyphenated (text : List UInt8) : Option Uuid :=
  if ∀ i ∈ hyphenPositions, text[i]? = some hyphen then
    parseHex ((text.zipIdx.filter fun entry => entry.2 ∉ hyphenPositions).map Prod.fst)
  else none

def urnScheme : List UInt8 := asBytes "urn:uuid:".toList

/-- Parse a UUID in one of its four forms, which the length tells apart. -/
def parseStr (text : List UInt8) : Option Uuid :=
  if text.length = 32 then parseHex text
  else if text.length = 36 then parseHyphenated text
  else if text.length = 38 then
    if text.head? = some 123 ∧ text.getLast? = some 125 then parseHyphenated text.tail.dropLast
    else none
  else if text.length = 45 then
    if urnScheme.isPrefixOf text then parseHyphenated (text.drop urnScheme.length) else none
  else none

/-- What is read as a number consists of digits. -/
theorem percent_notMem_of_foldlM {digits : List UInt8} {start value : Nat}
    (h : digits.foldlM (fun value digit => (hexValue digit).map fun d => 16 * value + d.toNat)
      start = some value) : percent ∉ digits := by
  induction digits generalizing start with
  | nil => exact not_mem_nil
  | cons digit digits ih =>
    obtain ⟨next, hdigit, hrest⟩ := Option.bind_eq_some_iff.1 h
    intro hmem
    rcases mem_cons.1 hmem with hfirst | hlater
    · rw [← hfirst] at hdigit
      cases hdigit
    · exact ih hrest hlater

variable {job : Uuid} {text : List UInt8}

theorem percent_notMem_of_parseHyphenated
    (h : parseHyphenated text = some job) : percent ∉ text := by
  unfold parseHyphenated at h
  split at h
  · rename_i hhyphens
    intro hmem
    obtain ⟨i, hi, htext⟩ := getElem_of_mem hmem
    by_cases hposition : i ∈ hyphenPositions
    · have hhyphen := hhyphens i hposition
      rw [getElem?_eq_getElem hi, htext] at hhyphen
      exact absurd hhyphen (by decide)
    · refine percent_notMem_of_foldlM h (mem_map.2 ⟨(percent, i), ?_, rfl⟩)
      refine mem_filter.2 ⟨mem_zipIdx_iff_getElem?.2 ?_, by simpa using hposition⟩
      rw [getElem?_eq_getElem hi, htext]
  · cases h

/-- A byte of a text stands at one of its ends or in the middle. -/
theorem mem_ends_or_middle {b : UInt8} (h : b ∈ text) :
    text.head? = some b ∨ b ∈ text.tail.dropLast ∨ text.getLast? = some b := by
  cases text with
  | nil => cases h
  | cons first rest =>
    rcases mem_cons.1 h with rfl | hrest
    · exact .inl rfl
    · rcases eq_nil_or_concat rest with rfl | ⟨middle, last, rfl⟩
      · cases hrest
      · rw [concat_eq_append] at hrest ⊢
        rw [tail_cons, dropLast_concat, ← cons_append, getLast?_concat]
        rcases mem_append.1 hrest with hmiddle | hlast
        · exact .inr (.inl hmiddle)
        · exact .inr (.inr (congrArg some (mem_singleton.1 hlast).symm))

/-- No form of a UUID has a `%` in it. -/
theorem percent_notMem_of_parseStr (h : parseStr text = some job) : percent ∉ text := by
  unfold parseStr at h
  split at h
  · exact percent_notMem_of_foldlM h
  · split at h
    · exact percent_notMem_of_parseHyphenated h
    · split at h
      · split at h
        · rename_i hbraces
          intro hmem
          rcases mem_ends_or_middle hmem with hhead | hmiddle | hlast
          · rw [hbraces.1] at hhead
            exact absurd hhead (by decide)
          · exact percent_notMem_of_parseHyphenated h hmiddle
          · rw [hbraces.2] at hlast
            exact absurd hlast (by decide)
        · cases h
      · split at h
        · split at h
          · rename_i hscheme
            obtain ⟨rest, hrest⟩ := isPrefixOf_iff_prefix.1 hscheme
            rw [← hrest, drop_left] at h
            rw [← hrest, mem_append]
            rintro (hmem | hmem)
            · revert hmem
              decide +kernel
            · exact percent_notMem_of_parseHyphenated h hmem
          · cases h
        · cases h

/-! ## The store -/

/-- A bearer token. -/
abbrev Token := List Char

/-- A secret, and the environment variable that receives it in the container. -/
structure CredentialGrant where
  secretName : String
  envVar : String
  deriving DecidableEq

open Function

/-- Tokens and grants of the jobs. -/
structure TokenStore where
  tokens : Uuid → Option Token
  credentialGrants : Uuid → Option (List CredentialGrant)

namespace TokenStore

def new : TokenStore where
  tokens := fun _ => none
  credentialGrants := fun _ => none

/-- Store a new token for a job. -/
def createToken (store : TokenStore) (jobId : Uuid) (token : Token) : TokenStore :=
  { store with tokens := update store.tokens jobId (some token) }

def validate (store : TokenStore) (jobId : Uuid) (token : Token) : Bool :=
  (store.tokens jobId).elim false fun stored => stored = token

/-- The first half of `revoke`, under the lock of the tokens. -/
def removeToken (store : TokenStore) (jobId : Uuid) : TokenStore :=
  { store with tokens := update store.tokens jobId none }

/-- The second half of `revoke`, under the lock of the grants. -/
def removeGrants (store : TokenStore) (jobId : Uuid) : TokenStore :=
  { store with credentialGrants := update store.credentialGrants jobId none }

def revoke (store : TokenStore) (jobId : Uuid) : TokenStore :=
  (store.removeToken jobId).removeGrants jobId

/-- Store the grants of a job; an empty list is not stored. -/
def storeGrants (store : TokenStore) (jobId : Uuid) (grants : List CredentialGrant) : TokenStore :=
  if grants.isEmpty then store
  else { store with
    credentialGrants := update store.credentialGrants jobId (some grants) }

def getGrants (store : TokenStore) (jobId : Uuid) : Option (List CredentialGrant) :=
  store.credentialGrants jobId

end TokenStore

/-! ## Requests of workers -/

/-- What is read of a request; the header is `none` if it is missing or no text. -/
structure WorkerRequest where
  path : List UInt8
  authorization : Option (List Char)

/-- Answers to a request that is refused. -/
inductive StatusCode where
  | badRequest
  | unauthorized
  | internalServerError
  | serviceUnavailable
  deriving DecidableEq

/-- The byte `/`. -/
def slash : UInt8 := 47

def workerPart : List UInt8 := asBytes "worker".toList

/-- The job in a path of the form `/worker/{uuid}/...`. -/
def extractJobIdFromPath (path : List UInt8) : Option Uuid :=
  match (path.dropWhile (· = slash)).splitOn slash with
  | first :: second :: _ => if first = workerPart then parseStr second else none
  | _ => none

/-- The token in the header of the request. -/
def WorkerRequest.bearer (request : WorkerRequest) : Option Token :=
  request.authorization.bind fun value =>
    if "Bearer ".toList.isPrefixOf value then some (value.drop "Bearer ".toList.length) else none

/-- Refuse a request that does not present the token of its job. -/
def workerAuthMiddleware (store : TokenStore) (request : WorkerRequest) : Except StatusCode Unit :=
  match extractJobIdFromPath request.path with
  | none => .error .badRequest
  | some jobId =>
    match request.bearer with
    | none => .error .unauthorized
    | some token => if store.validate jobId token then .ok () else .error .unauthorized

/-- The segment of the job and the rest of a path of the form `/worker/{job_id}/...`, as the
router matches it. -/
def matchWorkerRoute (path : List UInt8) : Option (List UInt8 × List UInt8) :=
  let front := slash :: (workerPart ++ [slash])
  if front.isPrefixOf path then
    let rest := path.drop front.length
    let segment := rest.takeWhile (· ≠ slash)
    match rest.dropWhile (· ≠ slash) with
    | [] => none
    | _ :: endpoint => if segment = [] then none else some (segment, endpoint)
  else none

/-- The job that a handler is given: the decoded segment, read as a UUID. -/
def pathJobId (segment : List UInt8) : Option Uuid :=
  parseStr (decodeBinary segment)

/-- A secret as it is served to a container. -/
structure CredentialResponse where
  envVar : String
  value : String
  deriving DecidableEq

/-- Decrypt the secret of a grant. -/
def serveGrant (getDecrypted : String → Option String) (grant : CredentialGrant) :
    Except StatusCode CredentialResponse :=
  match getDecrypted grant.secretName with
  | none => .error .internalServerError
  | some value => .ok { envVar := grant.envVar, value := value }

/-- Serve the secrets granted to a job; `none` stands for the answer without content. -/
def getCredentialsHandler (store : TokenStore) (secretsStore : Option (String → Option String))
    (jobId : Uuid) : Except StatusCode (Option (List CredentialResponse)) :=
  let grants := (store.getGrants jobId).getD []
  if grants.isEmpty then .ok none
  else
    match secretsStore with
    | none => .error .serviceUnavailable
    | some getDecrypted => (grants.mapM (serveGrant getDecrypted)).map some

/-! ## The job of a request -/

variable {path segment endpoint : List UInt8}

theorem matchWorkerRoute_eq_some (h : matchWorkerRoute path = some (segment, endpoint)) :
    path = slash :: (workerPart ++ slash :: (segment ++ slash :: endpoint)) ∧ slash ∉ segment := by
  unfold matchWorkerRoute at h
  simp only at h
  split at h
  · rename_i hfront
    obtain ⟨rest, rfl⟩ := isPrefixOf_iff_prefix.1 hfront
    rw [drop_left] at h
    split at h
    · cases h
    · rename_i separator endpoint' hdrop
      split at h
      · cases h
      · cases h
        -- what stops the segment is a slash
        have hseparator : separator = slash := by
          have hstop := head?_dropWhile_not (fun b => decide (b ≠ slash)) rest
          rw [hdrop] at hstop
          simpa using hstop
        have hrest : rest = rest.takeWhile (· ≠ slash) ++ slash :: endpoint := by
          conv_lhs => rw [← takeWhile_append_dropWhile (p := (· ≠ slash)) (l := rest)]
          rw [hdrop, hseparator]
        refine ⟨?_, fun hmem => ?_⟩
        · conv_lhs => rw [hrest]
          simp
        · simpa using all_eq_true.1 all_takeWhile _ hmem
  · cases h

/-- The middleware reads the segment that the router hands to the handlers. -/
theorem extractJobIdFromPath_of_match (h : matchWorkerRoute path = some (segment, endpoint)) :
    extractJobIdFromPath path = parseStr segment := by
  obtain ⟨rfl, hsegment⟩ := matchWorkerRoute_eq_some h
  have hbytes : workerPart = [119, 111, 114, 107, 101, 114] := by decide +kernel
  have hworker : slash ∉ workerPart := by decide +kernel
  have htrim : (slash :: (workerPart ++ slash :: (segment ++ slash :: endpoint))).dropWhile
      (· = slash) = workerPart ++ slash :: (segment ++ slash :: endpoint) := by
    rw [hbytes]
    rfl
  have hsplit : (workerPart ++ slash :: (segment ++ slash :: endpoint)).splitOn slash =
      workerPart :: segment :: endpoint.splitOn slash := by
    rw [splitOn_append_cons, splitOn_append_cons, splitOn_eq_singleton hworker,
      splitOn_eq_singleton hsegment]
    rfl
  simp [extractJobIdFromPath, htrim, hsplit]

/-- The job that the middleware checks is the job that the handler acts on. -/
theorem pathJobId_of_match (h : matchWorkerRoute path = some (segment, endpoint))
    (hjob : extractJobIdFromPath path = some job) : pathJobId segment = some job := by
  rw [extractJobIdFromPath_of_match h] at hjob
  rw [pathJobId, (decodeBinary_of_notMem (percent_notMem_of_parseStr hjob)).2]
  exact hjob

/-! ## Histories -/

/-- Steps of the operations of the store, under one lock each. -/
inductive TokenOp where
  | createToken (jobId : Uuid) (token : Token)
  | storeGrants (jobId : Uuid) (grants : List CredentialGrant)
  | removeToken (jobId : Uuid)
  | removeGrants (jobId : Uuid)

def TokenOp.apply (store : TokenStore) : TokenOp → TokenStore
  | createToken jobId token => store.createToken jobId token
  | storeGrants jobId grants => store.storeGrants jobId grants
  | removeToken jobId => store.removeToken jobId
  | removeGrants jobId => store.removeGrants jobId

/-- The token that was created last for the job and not revoked since; the last operation comes
first in a history. -/
def currentToken (job : Uuid) : List TokenOp → Option Token
  | [] => none
  | .createToken jobId token :: earlier =>
    if jobId = job then some token else currentToken job earlier
  | .removeToken jobId :: earlier => if jobId = job then none else currentToken job earlier
  | .storeGrants .. :: earlier => currentToken job earlier
  | .removeGrants _ :: earlier => currentToken job earlier

/-- What was granted to the job since its token was created or revoked. -/
def grantsSince (job : Uuid) : List TokenOp → List CredentialGrant
  | [] => []
  | .createToken jobId _ :: earlier => if jobId = job then [] else grantsSince job earlier
  | .removeToken jobId :: earlier => if jobId = job then [] else grantsSince job earlier
  | .storeGrants jobId grants :: earlier =>
    if jobId = job then grants ++ grantsSince job earlier else grantsSince job earlier
  | .removeGrants _ :: earlier => grantsSince job earlier

/-- The store together with the operations on it. -/
structure TokenLog where
  store : TokenStore
  history : List TokenOp

def TokenLog.start : TokenLog where
  store := .new
  history := []

def TokenLog.step (s : TokenLog) (op : TokenOp) : TokenLog where
  store := op.apply s.store
  history := op :: s.history

/-- A request that gets through to a handler presents the current token of the job that the
handler acts on. -/
def TokenLog.RequestsScoped (s : TokenLog) : Prop :=
  ∀ (request : WorkerRequest) (segment endpoint : List UInt8),
    matchWorkerRoute request.path = some (segment, endpoint) →
    workerAuthMiddleware s.store request = .ok () →
    ∃ job token, extractJobIdFromPath request.path = some job ∧ pathJobId segment = some job ∧
      request.bearer = some token ∧ currentToken job s.history = some token

/-- A job with a token is given the secrets only that were granted to it since the token was
created, whatever is in the store of the secrets. -/
def TokenLog.CredentialsScoped (s : TokenLog) : Prop :=
  ∀ job token, currentToken job s.history = some token → ∀ secretsStore credentials,
    getCredentialsHandler s.store secretsStore job = .ok (some credentials) →
    ∀ credential ∈ credentials, ∃ getDecrypted, secretsStore = some getDecrypted ∧
      ∃ grant ∈ grantsSince job s.history, grant.envVar = credential.envVar ∧
        getDecrypted grant.secretName = some credential.value

/-- A token is created for a job only if the job has no grants. -/
def TokenLog.CreatesClean (s : TokenLog) : TokenOp → Prop
  | .createToken jobId _ => (s.store.getGrants jobId).getD [] = []
  | _ => True

/-- The store has exactly the current tokens. -/
def TokenLog.Tracked (s : TokenLog) : Prop :=
  ∀ job, s.store.tokens job = currentToken job s.history

open TokenLog TokenStore

theorem tracked_step (s : TokenLog) (op : TokenOp) (hs : s.Tracked) : (s.step op).Tracked := by
  intro job
  cases op with
  | createToken | removeToken =>
    simp [step, TokenOp.apply, createToken, removeToken,
      currentToken, ← hs job, update_apply, eq_comm]
  | storeGrants =>
    simp only [step, TokenOp.apply, storeGrants, currentToken, ← hs job]
    split <;> rfl
  | removeGrants => exact hs job

theorem requestsScoped_of_tracked {s : TokenLog} (hs : s.Tracked) : s.RequestsScoped := by
  intro request segment endpoint hroute hauth
  unfold workerAuthMiddleware at hauth
  split at hauth
  · cases hauth
  · rename_i job hjob
    split at hauth
    · cases hauth
    · rename_i token htoken
      split at hauth
      · rename_i hvalid
        refine ⟨job, token, hjob, pathJobId_of_match hroute hjob, htoken, ?_⟩
        rw [← hs job]
        unfold validate at hvalid
        cases hstored : s.store.tokens job with
        | none => simp [hstored] at hvalid
        | some stored => simpa [hstored] using hvalid
      · cases hauth

/-- The grants in the store, for the jobs with a token, are those made since its creation. -/
def TokenLog.GrantsCurrent (s : TokenLog) : Prop :=
  ∀ job token, currentToken job s.history = some token →
    ∀ grant ∈ (s.store.getGrants job).getD [], grant ∈ grantsSince job s.history

/-- Every credential that is served belongs to a stored grant. -/
theorem mem_of_getCredentialsHandler {store : TokenStore}
    {secretsStore : Option (String → Option String)} {credentials : List CredentialResponse}
    (h : getCredentialsHandler store secretsStore job = .ok (some credentials))
    {credential : CredentialResponse} (hmem : credential ∈ credentials) :
    ∃ getDecrypted, secretsStore = some getDecrypted ∧
      ∃ grant ∈ (store.getGrants job).getD [], grant.envVar = credential.envVar ∧
        getDecrypted grant.secretName = some credential.value := by
  simp only [getCredentialsHandler] at h
  split at h
  · cases h
  split at h
  · cases h
  · obtain ⟨served, hserved, heq⟩ := Fallible.map_eq_ok_iff.1 h
    cases heq
    obtain ⟨grant, hgrant, hok⟩ := Fallible.exists_of_mem_mapM hserved hmem
    refine ⟨_, rfl, grant, hgrant, ?_⟩
    unfold serveGrant at hok
    split at hok
    · cases hok
    · rename_i value hvalue
      cases hok
      exact ⟨rfl, hvalue⟩

theorem mapM_serveGrant_some (grants : List CredentialGrant) : grants.mapM (serveGrant some) =
      .ok (grants.map fun grant => ⟨grant.envVar, grant.secretName⟩) := by
  induction grants with
  | nil => rfl
  | cons grant grants ih =>
    rw [mapM_cons, ih]
    rfl

/-- If all secrets can be decrypted then all grants are served. -/
theorem getCredentialsHandler_of_forall {store : TokenStore}
    (hne : (store.getGrants job).getD [] ≠ []) :
    getCredentialsHandler store (some some) job = .ok (some
      (((store.getGrants job).getD []).map fun grant => ⟨grant.envVar, grant.secretName⟩)) := by
  unfold getCredentialsHandler
  simp only
  rw [if_neg (by simpa using hne), mapM_serveGrant_some]
  rfl

theorem credentialsScoped_iff (s : TokenLog) : s.CredentialsScoped ↔ s.GrantsCurrent := by
  constructor
  · intro h job token htoken grant hgrant
    -- a store of secrets in which every secret is its own name tells the grants apart
    have hserved := getCredentialsHandler_of_forall (ne_nil_of_mem hgrant)
    obtain ⟨_, hstore, served, hsince, henv, hsecret⟩ := h job token htoken _ _ hserved _
      (mem_map.2 ⟨grant, hgrant, rfl⟩)
    cases hstore
    have heq : served = grant := by
      cases served
      simp_all
    rwa [← heq]
  · intro h job token htoken secretsStore credentials hserved credential hcredential
    obtain ⟨getDecrypted, hstore, grant, hgrant, hboth⟩ :=
      mem_of_getCredentialsHandler hserved hcredential
    exact ⟨getDecrypted, hstore, grant, h job _ htoken _ hgrant, hboth⟩

/-- A step keeps the grants current exactly if it does not create a token for a job that
already has grants. -/
theorem grantsCurrent_step_iff (s : TokenLog) (op : TokenOp) (hs : s.GrantsCurrent) :
    (s.step op).GrantsCurrent ↔ s.CreatesClean op := by
  cases op with
  | createToken jobId token =>
    constructor
    · intro h
      refine eq_nil_iff_forall_not_mem.2 fun grant hgrant => ?_
      have hsince := h _ token (by simp [step, currentToken]) _ hgrant
      simp [step, grantsSince] at hsince
    · intro hclean job token' htoken grant hgrant
      by_cases hjob : jobId = job
      · subst hjob
        have hgrant : grant ∈ (s.store.getGrants jobId).getD [] := hgrant
        rw [hclean] at hgrant
        cases hgrant
      · simp only [step, currentToken, grantsSince, if_neg hjob] at htoken ⊢
        exact hs job _ htoken _ hgrant
  | storeGrants jobId grants =>
    refine iff_of_true ?_ trivial
    intro job token htoken grant hgrant
    have hstored : grant ∈ (s.store.getGrants job).getD [] ∨ jobId = job ∧ grant ∈ grants := by
      simp only [step, TokenOp.apply, storeGrants] at hgrant
      split at hgrant
      · exact .inl hgrant
      · simp only [getGrants, update_apply] at hgrant
        split at hgrant
        · next hjob => exact .inr ⟨hjob.symm, hgrant⟩
        · exact .inl hgrant
    simp only [step, grantsSince]
    rcases hstored with hold | ⟨rfl, hnew⟩
    · have hsince := hs job _ htoken _ hold
      split
      · exact mem_append_right _ hsince
      · exact hsince
    · rw [if_pos rfl]
      exact mem_append_left _ hnew
  | removeToken jobId =>
    refine iff_of_true ?_ trivial
    intro job token htoken grant hgrant
    by_cases hjob : jobId = job
    · simp [step, currentToken, hjob] at htoken
    · simp only [step, currentToken, grantsSince, if_neg hjob] at htoken ⊢
      exact hs job _ htoken _ hgrant
  | removeGrants jobId =>
    refine iff_of_true ?_ trivial
    intro job token htoken grant hgrant
    refine hs job _ htoken _ ?_
    simp only [step, TokenOp.apply, removeGrants, getGrants, update_apply] at hgrant
    split at hgrant
    · cases hgrant
    · exact hgrant

/-- In every history a worker gets through with the current token of its job only, and acts on
this job.  It is given no secrets but those granted along with this token exactly if no token
is created for a job that already has grants. -/
theorem worker_access_iff (ops : List TokenOp) :
    (∀ s ∈ Runs.visited step start ops, s.RequestsScoped) ∧
      ((∀ s ∈ Runs.visited step start ops, s.CredentialsScoped) ↔
        Runs.AllSteps step TokenLog.CreatesClean start ops) := by
  constructor
  · intro s hs
    have hall : Runs.AllSteps step (fun _ _ => True) start ops :=
      Runs.allSteps_of_forall (fun _ _ => trivial) _ _
    refine requestsScoped_of_tracked ?_
    exact Runs.forall_mem_visited (fun s op _ hs => tracked_step s op hs) (fun _ => rfl) hall s hs
  · simp only [credentialsScoped_iff]
    refine Runs.forall_mem_visited_iff grantsCurrent_step_iff ?_ ops
    intro job token htoken
    cases htoken

/-- A job that is created once more without grants keeps those of its first token. -/
def recreatedJob : List TokenOp :=
  [.createToken 1 "a".toList, .storeGrants 1 [⟨"github_token", "GITHUB_TOKEN"⟩],
    .createToken 1 "b".toList, .storeGrants 1 []]

theorem stale_grants_served :
    let s := recreatedJob.foldl step start
    currentToken 1 s.history = some "b".toList ∧ grantsSince 1 s.history = [] ∧
      getCredentialsHandler s.store (some fun _ => some "ghp_secret") 1 =
        .ok (some [⟨"GITHUB_TOKEN", "ghp_secret"⟩]) ∧
      ¬ ∀ s ∈ Runs.visited step start recreatedJob, s.CredentialsScoped := by
  refine ⟨by decide, by decide, rfl, ?_⟩
  intro h
  have hlast := h _ (Runs.foldl_mem_visited _ _ _) 1 "b".toList (by decide)
    (some fun _ => some "ghp_secret") _ rfl ⟨"GITHUB_TOKEN", "ghp_secret"⟩ mem_cons_self
  obtain ⟨_, _, grant, hgrant, _⟩ := hlast
  cases hgrant

end Axinite.Orchestrator
