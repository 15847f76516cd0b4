import Mathlib
import BybitMonitor.Python.Float

/-!
# JSON values in Python

The values that `json.loads` returns, with the operations of Python that the modelled code applies
to them. The fields of an object are in the order of the text and have different keys.

* `Json.get`: `data.get(key)` on an object.
* `Json.truthy`: the value as a condition.
-/

namespace BybitMonitor

/-- A value that `json.loads` returns. -/
inductive Json
  | null
  | bool (value : Bool)
  | int (value : ℤ)
  | float (value : PyFloat)
  | string (value : String)
  | array (items : List Json)
  | object (fields : List (String × Json))
  deriving Repr

namespace Json

/-- `bool(value)`. -/
def truthy : Json → Bool
  | null => false
  | bool value => value
  | int value => value ≠ 0
  | float value => value ≠ 0
  | string value => value ≠ ""
  | array items => !items.isEmpty
  | object fields => !fields.isEmpty

/-- `type(value).__name__`. -/
def typeName : Json → String
  | null => "NoneType"
  | bool _ => "bool"
  | int _ => "int"
  | float _ => "float"
  | string _ => "str"
  | array _ => "list"
  | object _ => "dict"

/-- `data.get(key)` for the object with the given fields. -/
def get (fields : List (String × Json)) (key : String) : Json :=
  (fields.lookup key).getD null

/-- `value == text` for a string `text`. -/
def isString (text : String) : Json → Bool
  | string value => value = text
  | _ => false

/-- `value is True`. -/
def isTrue : Json → Bool
  | bool value => value
  | _ => false

end Json

/-- A received text, as what `json.loads` makes of it; `none` is a text that it rejects. -/
abbrev RawJson := Option Json

/-- `json.loads(raw)`. -/
def RawJson.loads : RawJson → Except PyExc Json
  | some value => .ok value
  | none => .error .jsonDecodeError

end BybitMonitor
