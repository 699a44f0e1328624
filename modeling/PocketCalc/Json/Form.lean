import PocketCalc.Json.Basic

/-!
# JSON forms

How values of a type are written as JSON and read back.  Reading is a little more
liberal than writing: a whole number also stands for a number with places, a constructor
without content may be written with `null` as its content, the fields of a record may
come in any order or as a bare list, fields of other names are skipped, and a field that
is not there counts as `null`.  A field that is there twice is refused.
-/

namespace PocketCalc

/-- A type whose values have a form in JSON. -/
class JsonForm (α : Type) where
  encode : α → Json
  decode? : Json → Option α

namespace Json

/-- The named constructor that a value stands for, with its content, if it has any. -/
def variant? : Json → Option (String × Option Json)
  | string name => some (name, none)
  | object [(name, null)] => some (name, none)
  | object [(name, content)] => some (name, some content)
  | _ => none

/-- A constructor with its content. -/
def variant (name : String) (content : Json) : Json := object [(name, content)]

/-- The value of a field, `null` if there is no such field. -/
def field (fields : List (String × Json)) (name : String) : Json := (fields.lookup name).getD null

/-- Whether a name stands for one field at the most. -/
def isUnambiguous (fields : List (String × Json)) (name : String) : Bool :=
  (fields.map Prod.fst).count name ≤ 1

/-- The fields of a record with the given names, in this order, if none of them is there twice. -/
def record? (names : List String) : Json → Option (List Json)
  | object fields =>
    if names.all (isUnambiguous fields) then some (names.map (field fields)) else none
  | array items => if items.length = names.length then some items else none
  | _ => none

/-- Reads a whole number below a bound. -/
def natural? (bound : Nat) : Json → Option Nat
  | integer (.ofNat n) => if n < bound then some n else none
  | _ => none

/-- Reads a number. -/
def number? : Json → Option Float
  | integer n =>
    some (Double.ofPattern (n < 0) (Double.nearest (n.natAbs * Double.one) 1))
  | real x => some x
  | _ => none

/-- Reads the items of an array. -/
def items? {α : Type} (item? : Json → Option α) : Json → Option (List α)
  | array items => items.mapM item?
  | _ => none

end Json

namespace JsonForm

instance : JsonForm Bool where
  encode := .bool
  decode?
    | .bool b => some b
    | _ => none

instance : JsonForm String where
  encode := .string
  decode?
    | .string s => some s
    | _ => none

instance : JsonForm UInt8 where
  encode n := .integer n.toNat
  decode? j := (j.natural? UInt8.size).map UInt8.ofNat

instance : JsonForm UInt32 where
  encode n := .integer n.toNat
  decode? j := (j.natural? UInt32.size).map UInt32.ofNat

instance : JsonForm UInt64 where
  encode n := .integer n.toNat
  decode? j := (j.natural? UInt64.size).map UInt64.ofNat

/-- Only finite numbers have a form that reads back. -/
instance : JsonForm Float where
  encode x := if x.isFinite then .real x else .null
  decode? := Json.number?

instance {α : Type} [JsonForm α] : JsonForm (List α) where
  encode xs := .array (xs.map encode)
  decode? := Json.items? decode?

/-- What is not there is written `null`. -/
instance {α : Type} [JsonForm α] : JsonForm (Option α) where
  encode
    | none => .null
    | some x => encode x
  decode?
    | .null => some none
    | j => (decode? j).map some

end JsonForm
end PocketCalc
