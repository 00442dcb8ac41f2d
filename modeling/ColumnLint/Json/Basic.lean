/-
  JSON values. The fields of an object keep the order they are written in, and each name stands
  once: `setField` puts a new value in the place of the old one.
-/

namespace ColumnLint

inductive Json where
  | null
  | bool (value : Bool)
  | integer (value : Int)
  /-- The number `mantissa * 10 ^ exponent`, which is not written as an integer. -/
  | decimal (mantissa exponent : Int)
  | string (value : String)
  | array (items : List Json)
  | object (fields : List (String × Json))
deriving BEq, Repr, Inhabited

namespace Json

/-- The type of a value, as messages name it. -/
def typeName : Json → String
  | null => "null"
  | bool _ => "boolean"
  | integer _ => "number"
  | decimal .. => "number"
  | string _ => "string"
  | array _ => "array"
  | object _ => "object"

/-- Sets a field: in its place if it is there, else behind the others. -/
def setField (name : String) (value : Json) :
    List (String × Json) → List (String × Json)
  | [] => [(name, value)]
  | (n, v) :: fields =>
    if n = name then (n, value) :: fields else (n, v) :: setField name value fields

/-- The fields of an object as written, where the last value of a repeated name counts. -/
def fieldsOf (written : List (String × Json)) : List (String × Json) :=
  written.foldl (fun fields f => setField f.1 f.2 fields) []

/-- The value of a field, if the value is an object that has it. -/
def get? (name : String) : Json → Option Json
  | object fields => fields.lookup name
  | _ => none

def asString? : Json → Option String
  | string s => some s
  | _ => none

def asBool? : Json → Option Bool
  | bool b => some b
  | _ => none

def asArray? : Json → Option (List Json)
  | array items => some items
  | _ => none

def asObject? : Json → Option (List (String × Json))
  | object fields => some fields
  | _ => none

/-- A whole number of at most 64 bits. -/
def asNat64? : Json → Option Nat
  | integer (.ofNat n) => if n < Nat.pow 2 64 then some n else none
  | _ => none

/-- A list of strings. -/
def asStrings? (j : Json) : Option (List String) := do
  (← j.asArray?).mapM asString?

def ofNat (n : Nat) : Json := integer n

def ofStrings (l : List String) : Json := array (l.map string)

end Json

end ColumnLint
