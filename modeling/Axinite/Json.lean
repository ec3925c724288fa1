import Mathlib.Data.List.Basic
import Mathlib.Tactic.Common

/-!
# JSON values

The `serde_json::Value` data model as the agent uses it.  Objects are sorted by
key, as in the crate's default map, and hold each key at most once when they are
built with `Map.insert`.  Printing and parsing are the business of the external
crate and enter the development as the parameter `SerdeJson`.

Main results:

- Theorem `Map.get_insert_self`: an inserted key is found again.
- Theorem `Map.get_insert_of_ne`: other keys are not disturbed.
-/

namespace Axinite.Json

/-- A JSON number: an unsigned or a negative integer, or the bits of a double. -/
inductive Number where
  | posInt (n : UInt64)
  | negInt (n : Int64)
  | float (bits : UInt64)
  deriving DecidableEq, Repr

/-- A JSON value. -/
inductive Value where
  | null
  | bool (b : Bool)
  | number (n : Number)
  | string (s : String)
  | array (items : List Value)
  | object (fields : List (String × Value))
  deriving Repr, Inhabited

mutual

def Value.decEq : (a b : Value) → Decidable (a = b)
  | .null, b => match b with
      | .null => isTrue rfl
      | .bool _ | .number _ | .string _ | .array _ | .object _ => isFalse nofun
  | .bool a, b => match b with
      | .bool b => decidable_of_iff (a = b) (by simp)
      | .null | .number _ | .string _ | .array _ | .object _ => isFalse nofun
  | .number a, b => match b with
      | .number b => decidable_of_iff (a = b) (by simp)
      | .null | .bool _ | .string _ | .array _ | .object _ => isFalse nofun
  | .string a, b => match b with
      | .string b => decidable_of_iff (a = b) (by simp)
      | .null | .bool _ | .number _ | .array _ | .object _ => isFalse nofun
  | .array a, b => match b with
      | .array b => @decidable_of_iff _ (a = b) (by simp) (decEqItems a b)
      | .null | .bool _ | .number _ | .string _ | .object _ => isFalse nofun
  | .object a, b => match b with
      | .object b => @decidable_of_iff _ (a = b) (by simp) (decEqFields a b)
      | .null | .bool _ | .number _ | .string _ | .array _ => isFalse nofun

/-- Equality of item lists is decidable. -/
def Value.decEqItems : (a b : List Value) → Decidable (a = b)
  | [], [] => isTrue rfl
  | [], _ :: _ => isFalse nofun
  | _ :: _, [] => isFalse nofun
  | x :: xs, y :: ys =>
    @decidable_of_iff _ (x = y ∧ xs = ys) (by simp)
      (@instDecidableAnd _ _ (decEq x y) (decEqItems xs ys))

/-- Equality of field lists is decidable. -/
def Value.decEqFields : (a b : List (String × Value)) → Decidable (a = b)
  | [], [] => isTrue rfl
  | [], _ :: _ => isFalse nofun
  | _ :: _, [] => isFalse nofun
  | (k, x) :: xs, (l, y) :: ys =>
    @decidable_of_iff _ (k = l ∧ x = y ∧ xs = ys) (by simp [and_assoc])
      (@instDecidableAnd _ _ _
        (@instDecidableAnd _ _ (decEq x y) (decEqFields xs ys)))

end

instance : DecidableEq Value :=
  Value.decEq

/-- The external printer and parser of JSON text. -/
structure SerdeJson where
  toString : Value → String
  fromStr : String → Option Value

/-- A printer and a parser that know `null` and one other value, for sample runs. -/
def SerdeJson.knowing (value : Value) (text : String) : SerdeJson where
  toString := fun v => if v = value then text else "null"
  fromStr := fun t =>
    if t = text then some value else if t = "null" then some .null else none

/-- A printer and a parser that know nothing but `null`. -/
def nullSerde : SerdeJson :=
  .knowing .null "null"

namespace Map

/-- Look a key up in an object. -/
def get (key : String) : List (String × Value) → Option Value
  | [] => none
  | (k, v) :: rest => if k = key then some v else get key rest

/-- Insert a key into a sorted object, replacing the value it had. -/
def insert (key : String) (value : Value) : List (String × Value) → List (String × Value)
  | [] => [(key, value)]
  | (k, v) :: rest =>
    if key = k then (key, value) :: rest
    else if key < k then (key, value) :: (k, v) :: rest
    else (k, v) :: insert key value rest

@[simp]
theorem get_insert_self (key : String) (value : Value) (fields : List (String × Value)) :
    get key (insert key value fields) = some value := by
  induction fields with
  | nil => simp [insert, get]
  | cons field rest ih =>
    unfold insert
    split <;> rename_i hkey
    · simp [get]
    · split
      · simp [get]
      · simp [get, Ne.symm hkey, ih]

theorem get_insert_of_ne {key other : String} (hne : other ≠ key) (value : Value)
    (fields : List (String × Value)) :
    get other (insert key value fields) = get other fields := by
  induction fields with
  | nil => simp [insert, get, hne.symm]
  | cons field rest ih =>
    unfold insert
    split <;> rename_i hkey
    · simp [get, ← hkey, hne.symm]
    · split
      · simp [get, hne.symm]
      · simp [get, ih]

end Map

namespace Value

/-- Look a key up; anything but an object has no keys. -/
def get (key : String) : Value → Option Value
  | object fields => Map.get key fields
  | _ => none

/-- The text of a string value. -/
def asStr : Value → Option String
  | string s => some s
  | _ => none

/-- The number as an unsigned 64-bit integer, if it is one. -/
def asU64 : Value → Option Nat
  | number (.posInt n) => some n.toNat
  | _ => none

/-- The items of an array. -/
def asArray : Value → Option (List Value)
  | array items => some items
  | _ => none

@[simp]
theorem asStr_string (s : String) : asStr (string s) = some s :=
  rfl

@[simp]
theorem get_object (key : String) (fields : List (String × Value)) :
    get key (object fields) = Map.get key fields :=
  rfl

end Value

end Axinite.Json
