import Axinite.Foundation.Observation
import Axinite.Foundation.Schedule
import Axinite.Llm.CacheKey
import Axinite.Session.Turn
import Mathlib.Data.List.AList

/-!
# Cache of responses

The cache answers a request with the response to an earlier request that has the same key.
An entry is valid for a fixed time; when the cache is full, the entries that were not used
for the longest time are removed.

A call reads the clock first and takes the lock twice, before and after the inner provider
works.  Between the two, other calls change the cache and time passes.  The clock reading
from the beginning becomes the age of the stored entry.

The cache carries a record that the code does not keep: the responses of the inner provider
with their requests and times, and the hits.

Main results:

- Theorem `cacheInv_exec`: every operation keeps the invariant of the cache, if what is
  stored was produced for its request.
- Theorem `cache_hits_sound`: for requests without ambiguous parts a hit returns a response
  that was produced for the same parts within the time to live, and the cache never
  outgrows its capacity.
- Theorem `hit_for_other_stop_sequences`: a hit for other stop sequences.
-/

namespace Axinite.Llm.ResponseCache

open Foundation Foundation.Program Json Session List

/-! ## State -/

/-- Configuration of the cache; the time to live is in nanoseconds. -/
structure ResponseCacheConfig where
  ttl : Nat
  maxEntries : Nat

def ResponseCacheConfig.default : ResponseCacheConfig where
  ttl := 3600000000000
  maxEntries := 1000

structure CacheEntry where
  response : CompletionResponse
  createdAt : Timestamp
  lastAccessed : Timestamp
  hitCount : Nat

/-- A response of the inner provider. -/
structure Production where
  model : String
  request : CompletionRequest
  response : CompletionResponse
  time : Timestamp

/-- A response from the cache; `now` is the clock reading of the call. -/
structure Hit where
  model : String
  request : CompletionRequest
  response : CompletionResponse
  now : Timestamp

variable {Key : Type}

/-- The entries, the clock and the record of the run. -/
structure Cache (Key : Type) where
  entries : AList fun _ : Key => CacheEntry
  now : Timestamp
  produced : List Production
  hits : List Hit

/-- A new cache is empty. -/
def Cache.new (start : Timestamp) : Cache Key where
  entries := ∅
  now := start
  produced := []
  hits := []

/-- The printer of JSON and the hash function. -/
structure Hashing (Key : Type) where
  toJson : Value → List UInt8
  sha256 : List UInt8 → Key

def Hashing.cacheKey (hashing : Hashing Key) (model : String) (request : CompletionRequest) :
    Key :=
  hashing.sha256 (keyBytes hashing.toJson model request)

/-! ## Eviction -/

/-- The entry that was not used for the longest time. -/
def oldest : List (Σ _ : Key, CacheEntry) → Option (Σ _ : Key, CacheEntry)
  | [] => none
  | e :: es =>
    match oldest es with
    | some o => if o.2.lastAccessed < e.2.lastAccessed then some o else some e
    | none => some e

variable {e : Σ _ : Key, CacheEntry}

theorem mem_of_oldest {es : List (Σ _ : Key, CacheEntry)} (h : oldest es = some e) : e ∈ es := by
  induction es generalizing e with
  | nil => cases h
  | cons first es ih =>
    unfold oldest at h
    split at h
    · rename_i o ho
      split at h
      · obtain rfl := Option.some.inj h
        exact mem_cons_of_mem _ (ih ho)
      · exact mem_cons.2 (.inl (Option.some.inj h).symm)
    · exact mem_cons.2 (.inl (Option.some.inj h).symm)

theorem oldest_eq_none {es : List (Σ _ : Key, CacheEntry)} (h : oldest es = none) : es = [] := by
  cases es with
  | nil => rfl
  | cons first es =>
    unfold oldest at h
    split at h
    · split at h <;> cases h
    · cases h

/-- Keep the entries that are not expired. -/
def retain (config : ResponseCacheConfig) (now : Timestamp)
    (entries : AList fun _ : Key => CacheEntry) : AList fun _ : Key => CacheEntry where
  entries := entries.entries.filter fun e => now - e.2.createdAt < config.ttl
  nodupKeys := entries.nodupKeys.sublist filter_sublist

variable [DecidableEq Key]

/-- Remove the oldest entries until there is room for one more; as many rounds as there are
entries are enough. -/
def evict (config : ResponseCacheConfig) :
    Nat → (AList fun _ : Key => CacheEntry) → AList fun _ : Key => CacheEntry
  | 0, entries => entries
  | rounds + 1, entries =>
    if config.maxEntries ≤ entries.entries.length then
      match oldest entries.entries with
      | some e => evict config rounds (entries.erase e.1)
      | none => entries
    else entries

/-! ## Operations -/

/-- The critical sections of a call, the answer of the inner provider, and the clock. -/
inductive CacheOp where
  | readClock
  | lookup (now : Timestamp) (model : String) (request : CompletionRequest)
  | inner (model : String) (request : CompletionRequest)
      (answer : Except LlmError CompletionResponse)
  | store (now : Timestamp) (model : String) (request : CompletionRequest)
      (response : CompletionResponse)
  | clear
  | tick (elapsed : Nat)

/-- What an operation answers. -/
abbrev CacheOp.Resp : CacheOp → Type
  | readClock => Timestamp
  | lookup _ _ _ => Option CompletionResponse
  | inner _ _ _ => Unit
  | store _ _ _ _ => Unit
  | clear => Unit
  | tick _ => Unit

/-- Look a request up; an expired entry is removed. -/
def lookup (config : ResponseCacheConfig) (hashing : Hashing Key) (now : Timestamp)
    (model : String) (request : CompletionRequest) (s : Cache Key) :
    Option CompletionResponse × Cache Key :=
  let key := hashing.cacheKey model request
  match s.entries.lookup key with
  | some entry =>
    if now - entry.createdAt < config.ttl then
      (some entry.response,
        { s with
          entries := s.entries.insert key
            { entry with lastAccessed := now, hitCount := entry.hitCount + 1 }
          hits := ⟨model, request, entry.response, now⟩ :: s.hits })
    else (none, { s with entries := s.entries.erase key })
  | none => (none, s)

/-- Store a response; expired entries and, if there is no room, the oldest ones are removed. -/
def store (config : ResponseCacheConfig) (hashing : Hashing Key) (now : Timestamp)
    (model : String) (request : CompletionRequest) (response : CompletionResponse)
    (s : Cache Key) : Cache Key :=
  let retained := retain config now s.entries
  let evicted := evict config retained.entries.length retained
  { s with
    entries := evicted.insert (hashing.cacheKey model request)
      { response := response, createdAt := now, lastAccessed := now, hitCount := 0 } }

/-- Effect of an operation. -/
def CacheOp.exec (config : ResponseCacheConfig) (hashing : Hashing Key) :
    (op : CacheOp) → Cache Key → op.Resp × Cache Key
  | readClock, s => (s.now, s)
  | lookup now model request, s => ResponseCache.lookup config hashing now model request s
  | inner model request answer, s =>
    match answer with
    | .ok response => ((), { s with produced := ⟨model, request, response, s.now⟩ :: s.produced })
    | .error _ => ((), s)
  | store now model request response, s =>
    ((), ResponseCache.store config hashing now model request response s)
  | clear, s => ((), { s with entries := ∅ })
  | tick elapsed, s => ((), { s with now := s.now + elapsed })

abbrev CacheProgram := Program CacheOp CacheOp.Resp

/-! ## Calls -/

/-- A call for the model that the inner provider uses for it, if the inner provider answers
`answer`. -/
def complete (effectiveModel : String) (request : CompletionRequest)
    (answer : Except LlmError CompletionResponse) :
    CacheProgram (Except LlmError CompletionResponse) := do
  let now : Timestamp ← perform CacheOp.readClock
  let cached : Option CompletionResponse ← perform (CacheOp.lookup now effectiveModel request)
  match cached with
  | some response => return .ok response
  | none =>
    perform (CacheOp.inner effectiveModel request answer)
    match answer with
    | .error e => return .error e
    | .ok response =>
      perform (CacheOp.store now effectiveModel request response)
      return .ok response

/-- What runs concurrently; a call carries the model names and the answer of the inner
provider. -/
inductive CacheCall where
  | complete (effectiveModelName : Option String → String) (request : CompletionRequest)
      (answer : Except LlmError CompletionResponse)
  | clear
  | tick (elapsed : Nat)

def CacheCall.program : CacheCall → CacheProgram Unit
  | complete effectiveModelName request answer =>
    ResponseCache.complete (effectiveModelName request.model) request answer >>= fun _ => pure ()
  | clear => perform CacheOp.clear
  | tick elapsed => perform (CacheOp.tick elapsed)

/-- The programs that may start. -/
def IsCacheCall (p : CacheProgram Unit) : Prop :=
  ∃ call : CacheCall, p = call.program

/-- The requests of the operation are plain. -/
def PlainRequests (op : CacheOp) (_ : Cache Key) : Prop :=
  match op with
  | .lookup _ model request => Plain model request
  | .inner model request _ => Plain model request
  | _ => True

instance (op : CacheOp) (s : Cache Key) : Decidable (PlainRequests op s) := by
  cases op with
  | lookup now model request => exact inferInstanceAs (Decidable (Plain _ _))
  | inner model request answer => exact inferInstanceAs (Decidable (Plain _ _))
  | readClock => exact .isTrue trivial
  | store now model request response => exact .isTrue trivial
  | clear => exact .isTrue trivial
  | tick elapsed => exact .isTrue trivial

/-! ## What is expected of a run -/

/-- The response of the hit was produced for the same parts, less than the time to live ago. -/
def Hit.Sound (config : ResponseCacheConfig) (produced : List Production) (hit : Hit) : Prop :=
  ∃ p ∈ produced, SameParts p.model p.request hit.model hit.request ∧
    p.response = hit.response ∧ hit.now < p.time + config.ttl

instance (config : ResponseCacheConfig) (produced : List Production) (hit : Hit) :
    Decidable (hit.Sound config produced) :=
  inferInstanceAs (Decidable (∃ p ∈ produced, _ ∧ _ ∧ _))

/-- The response was produced for the key of the entry, not before the entry was created. -/
def Backed (hashing : Hashing Key) (produced : List Production) (e : Σ _ : Key, CacheEntry) :
    Prop :=
  ∃ p ∈ produced, hashing.cacheKey p.model p.request = e.1 ∧ p.response = e.2.response ∧
    e.2.createdAt ≤ p.time

/-- All entries are backed, all hits were sound, and there is no more than the capacity. -/
structure CacheInv (config : ResponseCacheConfig) (hashing : Hashing Key) (s : Cache Key) :
    Prop where
  backed : ∀ e ∈ s.entries.entries, Backed hashing s.produced e
  plain : ∀ p ∈ s.produced, Plain p.model p.request
  sound : ∀ hit ∈ s.hits, hit.Sound config s.produced
  capacity : 1 ≤ config.maxEntries → s.entries.entries.length ≤ config.maxEntries

open Nat

omit [DecidableEq Key] in
theorem CacheInv.new (config : ResponseCacheConfig) (hashing : Hashing Key) (start : Timestamp) :
    CacheInv config hashing (Cache.new start) where
  backed := fun _ he => absurd he not_mem_nil
  plain := fun _ hp => absurd hp not_mem_nil
  sound := fun _ hhit => absurd hhit not_mem_nil
  capacity := fun _ => zero_le _

/-! ## Entries -/

section Entries

variable {config : ResponseCacheConfig} {entries : AList fun _ : Key => CacheEntry}

theorem erase_sublist (key : Key) : (entries.erase key).entries <+ entries.entries :=
  kerase_sublist key _

theorem eq_or_mem_of_mem_insert {key : Key} {entry : CacheEntry}
    (h : e ∈ (entries.insert key entry).entries) : e = ⟨key, entry⟩ ∨ e ∈ entries.entries := by
  rcases mem_cons.1 h with heq | hold
  · exact .inl heq
  · exact .inr ((erase_sublist key).subset hold)

theorem length_erase_of_mem (h : e ∈ entries.entries) :
    (entries.erase e.1).entries.length + 1 = entries.entries.length := by
  have hlength := length_eraseP_of_mem (p := fun s => e.1 = s.1) h (by simp)
  have hpos := length_pos_of_mem h
  show (entries.entries.eraseP fun s => e.1 = s.1).length + 1 = _
  omega

theorem evict_sublist (rounds : Nat) :
    (evict config rounds entries).entries <+ entries.entries := by
  induction rounds generalizing entries with
  | zero => exact .refl _
  | succ rounds ih =>
    unfold evict
    split
    · split
      · exact ih.trans (erase_sublist _)
      · exact .refl _
    · exact .refl _

/-- After as many rounds as there are entries there is room for one more. -/
theorem length_evict_lt (hmax : 1 ≤ config.maxEntries) {rounds : Nat}
    (hrounds : entries.entries.length ≤ rounds) :
    (evict config rounds entries).entries.length < config.maxEntries := by
  induction rounds generalizing entries with
  | zero =>
    unfold evict
    omega
  | succ rounds ih =>
    unfold evict
    split
    · split
      · rename_i e he
        have hlength := length_erase_of_mem (mem_of_oldest he)
        exact ih (by omega)
      · rename_i hnone
        rw [oldest_eq_none hnone]
        exact hmax
    · rename_i hroom
      exact Nat.lt_of_not_le hroom

end Entries

/-! ## The operations keep the invariant -/

/-- What a call knows about the run. -/
inductive Fact where
  /-- The clock has reached this time. -/
  | reached (time : Timestamp)
  /-- The response was produced for the request, not before this time. -/
  | produced (since : Timestamp) (model : String) (request : CompletionRequest)
      (response : CompletionResponse)

def Fact.Holds : Fact → Cache Key → Prop
  | reached time, s => time ≤ s.now
  | produced since model request response, s =>
    ∃ p ∈ s.produced, p.model = model ∧ p.request = request ∧ p.response = response ∧
      since ≤ p.time

variable {config : ResponseCacheConfig} {hashing : Hashing Key} {s : Cache Key}

/-- The clock goes forward, and nothing that was produced is forgotten. -/
theorem exec_grows (config : ResponseCacheConfig) (hashing : Hashing Key) (op : CacheOp)
    (s : Cache Key) :
    s.now ≤ (op.exec config hashing s).2.now ∧
      ∀ p ∈ s.produced, p ∈ (op.exec config hashing s).2.produced := by
  cases op with
  | readClock => exact ⟨le_refl _, fun _ h => h⟩
  | lookup now model request =>
    unfold CacheOp.exec lookup
    dsimp only
    split
    · split <;> exact ⟨le_refl _, fun _ h => h⟩
    · exact ⟨le_refl _, fun _ h => h⟩
  | inner model request answer =>
    cases answer with
    | error e => exact ⟨le_refl _, fun _ h => h⟩
    | ok response => exact ⟨le_refl _, fun _ h => mem_cons_of_mem _ h⟩
  | store _ _ _ _ | clear => exact ⟨le_refl _, fun _ h => h⟩
  | tick elapsed => exact ⟨le_add_right _ _, fun _ h => h⟩

theorem Fact.holds_exec {fact : Fact} (h : fact.Holds s) (op : CacheOp) :
    fact.Holds (op.exec config hashing s).2 := by
  obtain ⟨hnow, hproduced⟩ := exec_grows config hashing op s
  cases fact with
  | reached time => exact le_trans h hnow
  | produced since model request response =>
    obtain ⟨p, hp, hrest⟩ := h
    exact ⟨p, hproduced p hp, hrest⟩

/-- What the hash function and the printer of JSON are expected to do: different inputs have
different hashes, and the text of a list can be told from what follows it. -/
structure Hashing.Faithful (hashing : Hashing Key) : Prop where
  sha256_injective : Function.Injective hashing.sha256
  toJson_reads : Framing.Reads (fun _ => True) fun items => hashing.toJson (.array items)

omit [DecidableEq Key] in
theorem Hashing.Faithful.sameParts (h : hashing.Faithful) {model model' : String}
    {request request' : CompletionRequest} (hplain : Plain model request)
    (hplain' : Plain model' request')
    (hkey : hashing.cacheKey model request = hashing.cacheKey model' request') :
    SameParts model request model' request' :=
  keyBytes_inj h.toJson_reads hplain hplain' (h.sha256_injective hkey)

variable {request : CompletionRequest} {model : String}

/-- An entry that is found and not expired makes a sound hit. -/
theorem CacheInv.sound_of_lookup (hinv : CacheInv config hashing s) (hfaithful : hashing.Faithful)
    (hplain : Plain model request) {entry : CacheEntry} {now : Timestamp}
    (hfound : s.entries.lookup (hashing.cacheKey model request) = some entry)
    (hfresh : now - entry.createdAt < config.ttl) :
    Hit.Sound config s.produced ⟨model, request, entry.response, now⟩ := by
  have hmem := AList.mem_lookup_iff.1 (Option.mem_def.2 hfound)
  obtain ⟨p, hp, hkey, hresponse, htime⟩ := hinv.backed _ hmem
  have hsame := hfaithful.sameParts (hinv.plain p hp) hplain hkey
  refine ⟨p, hp, hsame, hresponse, ?_⟩
  have htime' : entry.createdAt ≤ p.time := htime
  have hage : now < entry.createdAt + config.ttl :=
    Nat.lt_of_not_le fun hle => not_lt.2 (Nat.le_sub_of_add_le' hle) hfresh
  calc now < entry.createdAt + config.ttl := hage
    _ ≤ p.time + config.ttl := Nat.add_le_add_right htime' _

theorem CacheInv.lookup (hinv : CacheInv config hashing s) (hfaithful : hashing.Faithful)
    (now : Timestamp) (hplain : Plain model request) :
    CacheInv config hashing (lookup config hashing now model request s).2 := by
  unfold ResponseCache.lookup
  dsimp only
  split
  · rename_i entry hfound
    have hmem := AList.mem_lookup_iff.1 (Option.mem_def.2 hfound)
    split
    · rename_i hfresh
      refine ⟨?_, hinv.plain, ?_, ?_⟩
      · intro e he
        rcases eq_or_mem_of_mem_insert he with rfl | hold
        · obtain ⟨p, hp, hrest⟩ := hinv.backed _ hmem
          exact ⟨p, hp, hrest⟩
        · exact hinv.backed e hold
      · intro hit hhit
        rcases mem_cons.1 hhit with rfl | hold
        · exact hinv.sound_of_lookup hfaithful hplain hfound hfresh
        · exact hinv.sound hit hold
      · intro hmax
        -- the entry replaces the one that was found
        have hlength := length_erase_of_mem hmem
        have hcapacity := hinv.capacity hmax
        exact le_trans (le_of_eq hlength) hcapacity
    · exact ⟨fun e he => hinv.backed e ((erase_sublist _).subset he), hinv.plain, hinv.sound,
        fun hmax => (erase_sublist _).length_le.trans (hinv.capacity hmax)⟩
  · exact hinv

omit [DecidableEq Key] in
theorem CacheInv.inner (hinv : CacheInv config hashing s)
    (hplain : Plain model request) (response : CompletionResponse) :
    CacheInv config hashing
      { s with produced := ⟨model, request, response, s.now⟩ :: s.produced } where
  backed := fun e he => (hinv.backed e he).imp fun _ h => ⟨mem_cons_of_mem _ h.1, h.2⟩
  plain := by
    intro p hp
    rcases mem_cons.1 hp with rfl | hold
    · exact hplain
    · exact hinv.plain p hold
  sound := fun hit hhit => (hinv.sound hit hhit).imp fun _ h => ⟨mem_cons_of_mem _ h.1, h.2⟩
  capacity := hinv.capacity

theorem CacheInv.store (hinv : CacheInv config hashing s) {now : Timestamp}
    {response : CompletionResponse}
    (hproduced : (Fact.produced now model request response).Holds s) :
    CacheInv config hashing (store config hashing now model request response s) where
  backed := by
    intro e he
    rcases eq_or_mem_of_mem_insert he with rfl | hold
    · obtain ⟨p, hp, rfl, rfl, rfl, htime⟩ := hproduced
      exact ⟨p, hp, rfl, rfl, htime⟩
    · exact hinv.backed e (mem_of_mem_filter ((evict_sublist _).subset hold))
  plain := hinv.plain
  sound := hinv.sound
  capacity := fun hmax =>
    (succ_le_succ (erase_sublist _).length_le).trans (length_evict_lt hmax (le_refl _))

/-- A call stores only what it knows to be produced. -/
def StoresKnown (facts : Multiset Fact) : CacheOp → Prop
  | .store now model request response => Fact.produced now model request response ∈ facts
  | _ => True

/-- Every operation keeps the invariant, if what is stored was produced for its request. -/
theorem cacheInv_exec {facts : Multiset Fact}
    (hknown : Known (CacheInv config hashing) Fact.Holds s facts) (hfaithful : hashing.Faithful)
    {op : CacheOp} (hplain : PlainRequests op s) (hstores : StoresKnown facts op) :
    CacheInv config hashing (op.exec config hashing s).2 := by
  have hinv := hknown.1
  cases op with
  | readClock => exact hinv
  | lookup now model request => exact hinv.lookup hfaithful now hplain
  | inner model request answer =>
    cases answer with
    | error e => exact hinv
    | ok response => exact hinv.inner hplain _
  | store now model request response => exact hinv.store (hknown.2 _ hstores)
  | clear =>
    exact ⟨fun _ he => absurd he not_mem_nil, hinv.plain, hinv.sound, fun _ => zero_le _⟩
  | tick elapsed => exact ⟨hinv.backed, hinv.plain, hinv.sound, hinv.capacity⟩

/-! ## All interleavings -/

section Runs

variable {α : Type} (hfaithful : hashing.Faithful)

/-- Safety of a program that knows facts about the run. -/
abbrev Knowing (config : ResponseCacheConfig) (hashing : Hashing Key)
    (p : CacheProgram α) (facts : Multiset Fact) : Prop :=
  Safe (CacheOp.exec config hashing) PlainRequests (Known (CacheInv config hashing) Fact.Holds) p
    facts fun _ _ => True

include hfaithful

section Act

variable {op : CacheOp} {next : op.Resp → CacheProgram α} {facts : Multiset Fact}

/-- The rule for one operation. -/
theorem knowing_act (learned : op.Resp → Multiset Fact) (hstores : StoresKnown facts op)
    (hlearned : ∀ s, Known (CacheInv config hashing) Fact.Holds s facts →
      ∀ fact ∈ learned (op.exec config hashing s).1, fact.Holds (op.exec config hashing s).2)
    (hnext : ∀ r, Knowing config hashing (next r) (learned r + facts)) :
    Knowing config hashing (act op next) facts := by
  refine .learn _ ?_ (fun s _ hknown => hlearned s hknown) hnext
  intro s hok hknown
  exact ⟨cacheInv_exec hknown hfaithful hok hstores, fun _ hfact => Fact.holds_exec hfact op⟩

/-- The rule for an operation that teaches nothing. -/
theorem knowing_quiet (hstores : StoresKnown facts op)
    (hnext : ∀ r, Knowing config hashing (next r) facts) :
    Knowing config hashing (act op next) facts :=
  knowing_act hfaithful (fun _ => 0) hstores
    (fun _ _ _ hfact => absurd hfact (Multiset.notMem_zero _))
    fun r => by rw [zero_add]; exact hnext r

end Act

theorem safe_complete (effectiveModel : String) (request : CompletionRequest) (answer : Except LlmError CompletionResponse) :
    Knowing config hashing (complete effectiveModel request answer) 0 := by
  refine knowing_act hfaithful (fun now => {.reached now}) trivial ?_ ?_
  · intro s _ fact hfact
    rw [mem_singleton.1 hfact]
    exact le_refl _
  intro now
  refine knowing_quiet hfaithful trivial ?_
  intro cached
  cases cached with
  | some response => exact trivial
  | none =>
    cases answer with
    | error e => exact knowing_quiet hfaithful trivial fun _ => trivial
    | ok response =>
      -- the response is produced now, and the clock was read before
      refine knowing_act hfaithful
        (fun _ => {.produced now effectiveModel request response}) trivial ?_ ?_
      · intro s hknown fact hfact
        rw [mem_singleton.1 hfact]
        have hreached : (Fact.reached now).Holds s := hknown.2 _ (by simp)
        exact ⟨_, mem_cons_self, rfl, rfl, rfl, hreached⟩
      intro _
      have hstores : StoresKnown ({Fact.produced now effectiveModel request response} +
            ({Fact.reached now} + (0 : Multiset Fact)))
          (.store now effectiveModel request response) :=
        Multiset.mem_add.2 (.inl (mem_singleton_self _))
      exact knowing_quiet hfaithful hstores fun _ => trivial

theorem safe_cacheCall {p : CacheProgram Unit} (hp : IsCacheCall p) : Knowing config hashing p 0 := by
  obtain ⟨call, rfl⟩ := hp
  cases call with
  | complete effectiveModelName request answer =>
    exact (safe_complete hfaithful _ _ _).bind fun _ _ _ => trivial
  | clear | tick _ => exact knowing_quiet hfaithful trivial fun _ => trivial

end Runs

/-- In every run of plain requests a hit returns a response that the inner provider produced
for the same model, messages, parameters and stop sequences less than the time to live ago,
and the cache never holds more entries than it may. -/
theorem cache_hits_sound (config : ResponseCacheConfig) (hashing : Hashing Key)
    (hfaithful : hashing.Faithful) (start : Timestamp) {c : Config CacheOp CacheOp.Resp (Cache Key)}
    (hc : Reachable (CacheOp.exec config hashing) PlainRequests IsCacheCall (Cache.new start) c) :
    (∀ hit ∈ c.shared.hits, hit.Sound config c.shared.produced) ∧
      (1 ≤ config.maxEntries → c.shared.entries.entries.length ≤ config.maxEntries) := by
  have hnew : Known (CacheInv config hashing) Fact.Holds (Cache.new start) 0 :=
    ⟨.new _ _ _, fun _ hfact => absurd hfact (Multiset.notMem_zero _)⟩
  obtain ⟨_, -, hinv, -⟩ := adequacy (fun p hp => safe_cacheCall hfaithful hp) hnew hc
  exact ⟨hinv.sound, hinv.capacity⟩

/-! ## Sample runs -/

/-- Keys that are the bytes themselves. -/
def plainHashing : Hashing (List UInt8) where
  toJson := wire
  sha256 := id

theorem plainHashing_faithful : plainHashing.Faithful where
  sha256_injective := Function.injective_id
  toJson_reads := by
    intro items items' rest rest' _ _ h
    obtain ⟨heq, hrest⟩ := wire_reads (.array items) (.array items') rest rest' h
    exact ⟨Value.array.inj heq, hrest⟩

/-- A short request with these stop sequences. -/
def greeting (stops : List String) : CompletionRequest where
  messages := [.user "hi"]
  stopSequences := some stops
  model := none
  maxTokens := none
  temperature := none
  metadata := []

/-- A call whose inner provider uses one model and would answer with `content`. -/
def asks (stops : List String) (content : String) : CacheCall :=
  .complete (fun _ => "model") (greeting stops) (.ok ⟨content, 1, 1, .stop, 0, 0⟩)

/-- The configuration after the calls have run one after the other. -/
def afterMoves (moves : List (Move CacheCall)) : Config CacheOp CacheOp.Resp (Cache (List UInt8)) :=
  moves.foldl (Config.move (CacheOp.exec .default plainHashing) CacheCall.program)
    ⟨Cache.new 0, []⟩

/-- A miss for one request and a lookup for another one. -/
def twoCalls (first second : CacheCall) : List (Move CacheCall) :=
  [.spawn first, .advance 0, .advance 0, .advance 0, .advance 0, .spawn second, .advance 1,
    .advance 1]

theorem repeated_request_hits_soundly :
    (afterMoves (twoCalls (asks ["a"] "one") (asks ["a"] "two"))).shared.hits.length = 1 ∧
      ∀ hit ∈ (afterMoves (twoCalls (asks ["a"] "one") (asks ["a"] "two"))).shared.hits,
        hit.Sound .default
          (afterMoves (twoCalls (asks ["a"] "one") (asks ["a"] "two"))).shared.produced := by
  have hc : Reachable (CacheOp.exec .default plainHashing) PlainRequests IsCacheCall (Cache.new 0)
      (afterMoves (twoCalls (asks ["a"] "one") (asks ["a"] "two"))) :=
    .of_moves (by decide +kernel)
  exact ⟨by decide +kernel, (cache_hits_sound _ _ plainHashing_faithful _ hc).1⟩

/-- The stop sequences `a` and `b` are answered with the response to the one stop sequence
that has a NUL between the two letters. -/
theorem hit_for_other_stop_sequences :
    ∃ c, Reachable (CacheOp.exec .default plainHashing) (fun _ _ => True) IsCacheCall
        (Cache.new 0) c ∧
      ∃ hit ∈ c.shared.hits, hit.request = greeting ["a", "b"] ∧
        ¬ hit.Sound .default c.shared.produced := by
  refine ⟨afterMoves (twoCalls (asks ["a\x00b"] "one") (asks ["a", "b"] "two")),
    .of_moves (by decide +kernel), ?_⟩
  decide +kernel

end Axinite.Llm.ResponseCache
