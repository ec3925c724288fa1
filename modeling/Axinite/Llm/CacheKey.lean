import Axinite.Foundation.Framing
import Axinite.Llm.Provider

/-!
# Keys of cached responses

The cache identifies a request by a hash of everything that affects the response.  The parts
are fed to the hash one after the other: the model, the messages as JSON text, the bytes of
two optional numbers and the stop sequences, with a bar between them and a NUL after each
stop sequence.

Nothing keeps the bar out of the model or the NUL out of a stop sequence, and the bytes of a
number may begin with the bar.  Requests without such parts have keys of their own.

Main results:

- Theorem `toValue_injective`: the JSON of a message determines the message.
- Theorem `keyBytes_inj`: plain requests with equal key bytes have equal parts.
-/

namespace Axinite.Llm

open Json Foundation List

/-! ## JSON of messages -/

def Role.toValue : Role → Value
  | system => .string "system"
  | user => .string "user"
  | assistant => .string "assistant"
  | tool => .string "tool"

/-- A field that is skipped when it has no value. -/
def optField (key : String) (value : Option Value) : List (String × Value) :=
  (value.map fun v => (key, v)).toList

def ImageUrl.toValue (image : ImageUrl) : Value :=
  .object (("url", .string image.url) :: optField "detail" (image.detail.map .string))

def ContentPart.toValue : ContentPart → Value
  | .text content => .object [("type", .string "text"), ("text", .string content)]
  | .imageUrl image => .object [("type", .string "image_url"), ("image_url", image.toValue)]

def ToolCall.toValue (tc : ToolCall) : Value :=
  .object [("id", .string tc.id), ("name", .string tc.name), ("arguments", tc.arguments)]

/-- The fields of a message in the order of their declaration; empty ones are skipped. -/
def ChatMessage.toValue (m : ChatMessage) : Value :=
  .object (("role", m.role.toValue) :: ("content", .string m.content) ::
    (optField "content_parts"
        (if m.contentParts.isEmpty then none
          else some (.array (m.contentParts.map ContentPart.toValue))) ++
      (optField "tool_call_id" (m.toolCallId.map .string) ++
        (optField "name" (m.name.map .string) ++
          optField "tool_calls" (m.toolCalls.map fun calls =>
            .array (calls.map ToolCall.toValue))))))

@[simp]
theorem get_optField_append (key other : String) (value : Option Value)
    (rest : List (String × Value)) :
    Map.get other (optField key value ++ rest) =
      if key = other then value.or (Map.get other rest) else Map.get other rest := by
  cases value with
  | none => simp [optField]
  | some v => simp [optField, Map.get]

@[simp]
theorem get_optField (key other : String) (value : Option Value) :
    Map.get other (optField key value) = if key = other then value else none := by
  cases value with
  | none | some _ => simp [optField, Map.get]

theorem Role.toValue_injective : Function.Injective Role.toValue := by
  intro a b h
  cases a <;> cases b <;> simp_all [toValue]

theorem Value.string_injective : Function.Injective Value.string :=
  fun _ _ h => Value.string.inj h

open Value

theorem Value.array_injective : Function.Injective array :=
  fun _ _ h => array.inj h

open Option

theorem ImageUrl.toValue_injective : Function.Injective ImageUrl.toValue := by
  intro a b h
  have hurl := congrArg (get "url") h
  have hdetail := congrArg (get "detail") h
  simp only [toValue, get_object, Map.get, get_optField, ↓reduceIte,
    some.injEq] at hurl hdetail
  cases a with
  | mk url detail =>
    obtain rfl := string.inj hurl
    obtain rfl := map_injective string_injective hdetail
    rfl

theorem ContentPart.toValue_injective : Function.Injective ContentPart.toValue := by
  intro a b h
  cases a with
  | text text =>
    cases b with
    | text text' => simpa [toValue] using h
    | imageUrl image => simp [toValue] at h
  | imageUrl image =>
    cases b with
    | text text' => simp [toValue] at h
    | imageUrl image' =>
      have himage : image.toValue = image'.toValue := by simpa [toValue] using h
      rw [ImageUrl.toValue_injective himage]

theorem ToolCall.toValue_injective : Function.Injective ToolCall.toValue := by
  intro a b h
  cases a
  cases b
  simpa [toValue] using h

open ChatMessage

/-- The JSON of a message determines the message. -/
theorem ChatMessage.toValue_injective : Function.Injective toValue := by
  intro a b h
  have hrole := congrArg (get "role") h
  have hcontent := congrArg (get "content") h
  have hparts := congrArg (get "content_parts") h
  have hid := congrArg (get "tool_call_id") h
  have hname := congrArg (get "name") h
  have hcalls := congrArg (get "tool_calls") h
  simp only [toValue, get_object, Map.get, get_optField_append, get_optField,
    ↓reduceIte, String.reduceEq, some.injEq, or_none]
    at hrole hcontent hparts hid hname hcalls
  have hparts' : a.contentParts = b.contentParts := by
    have hmap := ContentPart.toValue_injective.list_map
    cases ha : a.contentParts with
    | nil =>
      cases hb : b.contentParts with
      | nil => rfl
      | cons part parts => simp [ha, hb] at hparts
    | cons part parts =>
      cases hb : b.contentParts with
      | nil => simp [ha, hb] at hparts
      | cons part' parts' =>
        rw [ha, hb] at hparts
        exact hmap (array.inj (some.inj hparts))
  have hcalls' : a.toolCalls = b.toolCalls :=
    map_injective (array_injective.comp ToolCall.toValue_injective.list_map) hcalls
  cases a
  cases b
  simp only [mk.injEq]
  exact ⟨Role.toValue_injective hrole, string.inj hcontent, hparts',
    map_injective string_injective hid,
    map_injective string_injective hname, hcalls'⟩

/-! ## The bytes that are hashed -/

/-- The UTF-8 bytes of a text. -/
def asBytes (s : String) : List UInt8 :=
  s.toByteArray.data.toList

theorem asBytes_injective : Function.Injective asBytes := by
  intro s t h
  exact String.toByteArray_inj.1 (ByteArray.ext (Array.toList_inj.1 h))

/-- The bytes of a number, the lowest one first. -/
def toLeBytes (n : UInt32) : List UInt8 :=
  [n.toUInt8, (n >>> 8).toUInt8, (n >>> 16).toUInt8, (n >>> 24).toUInt8]

theorem toLeBytes_injective : Function.Injective toLeBytes := by
  intro n m h
  have hn := n.toNat_lt
  have hm := m.toNat_lt
  simp only [toLeBytes, cons.injEq, ← UInt8.toNat_inj, UInt32.toNat_toUInt8,
    UInt32.toNat_shiftRight, UInt32.toNat_ofNat, Nat.reduceMod,
    Nat.reducePow] at h
  apply UInt32.toNat_inj.1
  omega

/-- The bar between the parts of a key. -/
def bar : UInt8 :=
  124

/-- What the hash of a request is computed of; `toJson` prints a value. -/
def keyBytes (toJson : Value → List UInt8) (model : String) (request : CompletionRequest) :
    List UInt8 :=
  asBytes model ++ [bar] ++
    (toJson (.array (request.messages.map toValue)) ++
      ([bar] ++ (request.maxTokens.elim [] toLeBytes ++ [bar] ++
        (request.temperature.elim [] toLeBytes ++ [bar] ++
          request.stopSequences.elim [] fun stops => stops.flatMap fun s => asBytes s ++ [0]))))

/-- Two requests agree in everything that affects the response. -/
def SameParts (model : String) (request : CompletionRequest) (model' : String)
    (request' : CompletionRequest) : Prop :=
  model = model' ∧ request.messages = request'.messages ∧
    request.maxTokens = request'.maxTokens ∧ request.temperature = request'.temperature ∧
      request.stopSequences = request'.stopSequences

instance (model : String) (request : CompletionRequest) (model' : String)
    (request' : CompletionRequest) : Decidable (SameParts model request model' request') :=
  inferInstanceAs (Decidable (_ ∧ _ ∧ _ ∧ _ ∧ _))

/-- No part of the request looks like the frame around it: the model has no bar, the numbers
do not begin with one, the stop sequences have no NUL, and there is at least one of them if
there are any. -/
def Plain (model : String) (request : CompletionRequest) : Prop :=
  bar ∉ asBytes model ∧
    (∀ n, request.maxTokens = some n → n.toUInt8 ≠ bar) ∧
    (∀ n, request.temperature = some n → n.toUInt8 ≠ bar) ∧
    ∀ stops, request.stopSequences = some stops → stops ≠ [] ∧ ∀ s ∈ stops, 0 ∉ asBytes s

/-- A fact about the value of an option, decided without running through the type. -/
def decidableOfSome {α : Type} (p : α → Prop) [DecidablePred p] :
    (o : Option α) → Decidable (∀ a, o = some a → p a)
  | none => .isTrue nofun
  | some a => decidable_of_iff (p a) ⟨fun h _ heq => some.inj heq ▸ h, fun h => h a rfl⟩

instance (model : String) (request : CompletionRequest) : Decidable (Plain model request) :=
  haveI := decidableOfSome (fun n : UInt32 => n.toUInt8 ≠ bar) request.maxTokens
  haveI := decidableOfSome (fun n : UInt32 => n.toUInt8 ≠ bar) request.temperature
  haveI := decidableOfSome (fun stops => stops ≠ [] ∧ ∀ s ∈ stops, 0 ∉ asBytes s)
    request.stopSequences
  inferInstanceAs (Decidable (_ ∧ _ ∧ _ ∧ _))

open Framing

theorem reads_model : Framing.Reads (fun model => bar ∉ asBytes model)
    fun model => asBytes model ++ [bar] :=
  reads_terminated (fun _ _ _ _ h => asBytes_injective h) fun _ h => h

theorem reads_number : Framing.Reads (fun o : Option UInt32 => ∀ n, o = some n → n.toUInt8 ≠ bar)
    fun o => o.elim [] toLeBytes ++ [bar] := by
  have hfixed : Framing.Reads (fun n : UInt32 => n.toUInt8 ≠ bar) toLeBytes :=
    reads_fixed (n := 4) (fun _ _ _ _ h => toLeBytes_injective h) fun _ => rfl
  exact reads_optional hfixed fun _ hn => ⟨_, _, rfl, hn⟩

/-- Stop sequences without NUL are determined by their bytes. -/
theorem stopSequences_inj {o o' : Option (List String)}
    (ho : ∀ stops, o = some stops → stops ≠ [] ∧ ∀ s ∈ stops, 0 ∉ asBytes s)
    (ho' : ∀ stops, o' = some stops → stops ≠ [] ∧ ∀ s ∈ stops, 0 ∉ asBytes s)
    (h : (o.elim [] fun stops => stops.flatMap fun s => asBytes s ++ [0]) =
      o'.elim [] fun stops => stops.flatMap fun s => asBytes s ++ [0]) : o = o' := by
  have hreads : Framing.Reads (fun s => 0 ∉ asBytes s) fun s => asBytes s ++ [0] :=
    reads_terminated (fun _ _ _ _ h => asBytes_injective h) fun _ h => h
  have hne : ∀ s : String, asBytes s ++ [0] ≠ [] := by simp
  -- without stop sequences nothing is written, with some there is at least one NUL
  cases o with
  | none =>
    cases o' with
    | none => rfl
    | some stops =>
      have hnil : [] = stops :=
        flatMap_inj_of_reads hreads hne (by simp) (ho' _ rfl).2 h
      exact absurd hnil.symm (ho' _ rfl).1
  | some stops =>
    cases o' with
    | none =>
      have hnil : stops = [] :=
        flatMap_inj_of_reads hreads hne (ho _ rfl).2 (by simp) h
      exact absurd hnil (ho _ rfl).1
    | some stops' =>
      rw [flatMap_inj_of_reads hreads hne (ho _ rfl).2 (ho' _ rfl).2 h]

/-- Plain requests with the same key bytes have the same parts, if the JSON of a list can be
told from what follows it. -/
theorem keyBytes_inj {toJson : Value → List UInt8}
    (hjson : Framing.Reads (fun _ => True) fun items => toJson (.array items))
    {model model' : String} {request request' : CompletionRequest} (hplain : Plain model request)
    (hplain' : Plain model' request')
    (h : keyBytes toJson model request = keyBytes toJson model' request') :
    SameParts model request model' request' := by
  obtain ⟨hmodel, hmax, htemp, hstops⟩ := hplain
  obtain ⟨hmodel', hmax', htemp', hstops'⟩ := hplain'
  obtain ⟨hmodelEq, hrest⟩ := reads_model hmodel hmodel' h
  obtain ⟨hmessages, hrest⟩ := hjson trivial trivial hrest
  obtain ⟨hmaxEq, hrest⟩ := reads_number hmax hmax' (List.cons.inj hrest).2
  obtain ⟨htempEq, hrest⟩ := reads_number htemp htemp' hrest
  exact ⟨hmodelEq, toValue_injective.list_map hmessages, hmaxEq, htempEq,
    stopSequences_inj hstops hstops' hrest⟩

/-! ## A printer that can be read back -/

/-- Unary numbers with a zero at the end. -/
def wireNat (n : Nat) : List UInt8 :=
  replicate n 1 ++ [0]

/-- A text after the number of its bytes. -/
def wireText (text : String) : List UInt8 :=
  wireNat (asBytes text).length ++ asBytes text

def wireNumber : Number → List UInt8
  | .posInt n => 0 :: wireNat n.toNat
  | .negInt n => 1 :: wireNat n.toBitVec.toNat
  | .float bits => 2 :: wireNat bits.toNat

mutual

/-- A simple printer of values: a tag for each kind of value, and a mark before each item. -/
def wire : Value → List UInt8
  | .null => [0]
  | .bool b => [1, if b then 1 else 0]
  | .number n => 2 :: wireNumber n
  | .string text => 3 :: wireText text
  | .array items => 4 :: wireItems items
  | .object fields => 5 :: wireFields fields

def wireItems : List Value → List UInt8
  | [] => [0]
  | v :: items => 1 :: (wire v ++ wireItems items)

def wireFields : List (String × Value) → List UInt8
  | [] => [0]
  | (key, v) :: fields => 1 :: (wireText key ++ (wire v ++ wireFields fields))

end

variable {rest rest' : List UInt8}

theorem wireNat_reads {n m : Nat}
    (h : wireNat n ++ rest = wireNat m ++ rest') : n = m ∧ rest = rest' := by
  have hreads : Framing.Reads (fun _ => True) wireNat := by
    refine reads_terminated ?_ ?_
    · intro n m _ _ heq
      simpa using congrArg length heq
    · intro n _ hmem
      cases eq_of_mem_replicate hmem
  exact hreads trivial trivial h

theorem wireText_reads {s t : String}
    (h : wireText s ++ rest = wireText t ++ rest') : s = t ∧ rest = rest' := by
  simp only [wireText, append_assoc] at h
  obtain ⟨hlength, h⟩ := wireNat_reads h
  obtain ⟨hbytes, hrest⟩ := append_inj h hlength
  exact ⟨asBytes_injective hbytes, hrest⟩

theorem wireNumber_reads {n m : Number}
    (h : wireNumber n ++ rest = wireNumber m ++ rest') : n = m ∧ rest = rest' := by
  cases n with
  | posInt n =>
    cases m with
    | posInt m =>
      obtain ⟨hnat, hrest⟩ := wireNat_reads (List.cons.inj h).2
      exact ⟨by rw [UInt64.toNat_inj.1 hnat], hrest⟩
    | _ => cases (List.cons.inj h).1
  | negInt n =>
    cases m with
    | negInt m =>
      obtain ⟨hnat, hrest⟩ := wireNat_reads (List.cons.inj h).2
      exact ⟨by rw [Int64.toBitVec_inj.1 (BitVec.toNat_inj.1 hnat)], hrest⟩
    | _ => cases (List.cons.inj h).1
  | float n =>
    cases m with
    | float m =>
      obtain ⟨hnat, hrest⟩ := wireNat_reads (List.cons.inj h).2
      exact ⟨by rw [UInt64.toNat_inj.1 hnat], hrest⟩
    | _ => cases (List.cons.inj h).1

mutual

/-- The printed form of a value can be told from what follows it. -/
theorem wire_reads (v w : Value) (rest rest' : List UInt8)
    (h : wire v ++ rest = wire w ++ rest') : v = w ∧ rest = rest' := by
  -- values of different kinds start with different bytes
  cases v <;> cases w <;> try (simp [wire] at h; done)
  case null.null => exact ⟨rfl, (List.cons.inj h).2⟩
  case bool.bool a b => cases a <;> cases b <;> simp_all [wire]
  case number.number n m =>
    obtain ⟨heq, hrest⟩ := wireNumber_reads (List.cons.inj h).2
    exact ⟨by rw [heq], hrest⟩
  case string.string s t =>
    obtain ⟨heq, hrest⟩ := wireText_reads (List.cons.inj h).2
    exact ⟨by rw [heq], hrest⟩
  case array.array items items' =>
    obtain ⟨heq, hrest⟩ := wireItems_reads items items' _ _ (by simpa [wire] using h)
    exact ⟨by rw [heq], hrest⟩
  case object.object fields fields' =>
    obtain ⟨heq, hrest⟩ := wireFields_reads fields fields' _ _ (by simpa [wire] using h)
    exact ⟨by rw [heq], hrest⟩

theorem wireItems_reads : ∀ (items items' : List Value) (rest rest' : List UInt8),
    wireItems items ++ rest = wireItems items' ++ rest' → items = items' ∧ rest = rest'
  | [], items', _, _, h => by
    cases items' with
    | nil => exact ⟨rfl, by simpa [wireItems] using h⟩
    | cons _ _ => simp [wireItems] at h
  | v :: items, items', _, _, h => by
    cases items' with
    | nil => simp [wireItems] at h
    | cons w items' =>
      obtain ⟨hv, hitems⟩ := wire_reads v w _ _ (by simpa [wireItems] using h)
      obtain ⟨heq, hrest⟩ := wireItems_reads items items' _ _ hitems
      exact ⟨by rw [hv, heq], hrest⟩

theorem wireFields_reads : ∀ (fields fields' : List (String × Value)) (rest rest' : List UInt8),
    wireFields fields ++ rest = wireFields fields' ++ rest' → fields = fields' ∧ rest = rest'
  | [], fields', _, _, h => by
    cases fields' with
    | nil => exact ⟨rfl, by simpa [wireFields] using h⟩
    | cons _ _ => simp [wireFields] at h
  | (key, v) :: fields, fields', _, _, h => by
    cases fields' with
    | nil => simp [wireFields] at h
    | cons field fields' =>
      obtain ⟨key', w⟩ := field
      obtain ⟨hkey, hvalue⟩ := wireText_reads (by simpa [wireFields] using h)
      obtain ⟨hv, hfields⟩ := wire_reads v w _ _ hvalue
      obtain ⟨heq, hrest⟩ := wireFields_reads fields fields' _ _ hfields
      exact ⟨by rw [hkey, hv, heq], hrest⟩

end

end Axinite.Llm
