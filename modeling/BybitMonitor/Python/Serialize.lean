import Mathlib
import BybitMonitor.Python.Exception
import BybitMonitor.Python.Json
import BybitMonitor.Python.Repr
import BybitMonitor.ToMathlib.Dict
import BybitMonitor.ToMathlib.JsonValue

/-!
# JSON texts in Python

`json.dumps` with sorted keys and `json.loads`, with the limit that Python sets to the digits of the
integers that it converts. A `float` is written as its `repr`, or as one of three words if it is not
finite.

* `Json.loads_dumps`: a text that is written is read back, with its keys sorted.
* `Json.lookup_sortKeys`: sorting the keys of an object leaves its fields.
-/

namespace JsonText.Value

mutual

/-- The integers of a value, with those of its parts. -/
def integers : Value → List ℤ
  | .int n => [n]
  | .array items => integersOfItems items
  | .object fields => integersOfFields fields
  | _ => []

/-- The integers of the items of an array. -/
def integersOfItems : List Value → List ℤ
  | [] => []
  | v :: rest => integers v ++ integersOfItems rest

/-- The integers of the members of an object. -/
def integersOfFields : List (String × Value) → List ℤ
  | [] => []
  | (_, v) :: rest => integers v ++ integersOfFields rest

end

end JsonText.Value

namespace BybitMonitor

namespace Json

open JsonText (Value)

/-! ## Writing -/

/-- The text of a `float`. -/
def floatText : PyFloat → List Char
  | .nan => "NaN".toList
  | .inf false => "Infinity".toList
  | .inf true => "-Infinity".toList
  | .finite x => PyFloat.repr x

mutual

/-- A value with the texts of its numbers. -/
def toValue : Json → Value
  | null => .null
  | bool value => .bool value
  | int n => .int n
  | float x => .number (floatText x)
  | string s => .string s
  | array items => .array (toItems items)
  | object fields => .object (toFields fields)

/-- The items of an array with the texts of their numbers. -/
def toItems : List Json → List Value
  | [] => []
  | v :: rest => toValue v :: toItems rest

/-- The members of an object with the texts of their numbers. -/
def toFields : List (String × Json) → List (String × Value)
  | [] => []
  | (key, v) :: rest => (key, toValue v) :: toFields rest

end

mutual

/-- The value with the members of every object in the order of their keys. -/
def sortKeys : Json → Json
  | array items => .array (sortItems items)
  | object fields => .object ((sortFields fields).insertionSort fun f g => f.1 ≤ g.1)
  | v => v

/-- The items of an array with sorted keys. -/
def sortItems : List Json → List Json
  | [] => []
  | v :: rest => sortKeys v :: sortItems rest

/-- The members of an object, in their order, with sorted keys in their values. -/
def sortFields : List (String × Json) → List (String × Json)
  | [] => []
  | (key, v) :: rest => (key, sortKeys v) :: sortFields rest

end

/-- The digits that Python converts at most between `int` and `str`. -/
def intMaxStrDigits : ℕ := 4300

/-- Whether Python converts an integer from its digits or to them. -/
def convertible (n : ℤ) : Bool := (Nat.toDigits 10 n.natAbs).length ≤ intMaxStrDigits

/-- `json.dumps(value, sort_keys=True)`. -/
def dumps (value : Json) : Except PyExc String :=
  let sorted := value.sortKeys.toValue
  if sorted.integers.all convertible then .ok (String.ofList (JsonText.write sorted))
  else .error (.valueError "Exceeds the limit (4300 digits) for integer string conversion")

/-! ## Reading -/

mutual

/-- The value that a parsed text denotes. Of the members of an object with one key the last counts,
at the place of the first. -/
def ofValue : Value → Json
  | .null => .null
  | .bool value => .bool value
  | .int n => .int n
  | .number token => .float ((PyFloat.ofText (String.ofList token)).getD .nan)
  | .string s => .string s
  | .array items => .array (ofItems items)
  | .object fields =>
      .object ((ofFields fields).foldl (fun d field => Dict.set d field.1 field.2) [])

/-- The values of the items of an array. -/
def ofItems : List Value → List Json
  | [] => []
  | v :: rest => ofValue v :: ofItems rest

/-- The members of an object with their values. -/
def ofFields : List (String × Value) → List (String × Json)
  | [] => []
  | (key, v) :: rest => (key, ofValue v) :: ofFields rest

end

/-- `json.loads(text)`. -/
def loads (text : String) : Except PyExc Json :=
  match JsonText.read text with
  | none => .error .jsonDecodeError
  | some value =>
      if value.integers.all convertible then .ok (ofValue value)
      else .error (.valueError "Exceeds the limit (4300 digits) for integer string conversion")

/-! ## Values -/

/-- A value as Python builds it: the keys of a dictionary differ, and a `float` is a binary64
number. -/
inductive WellFormed : Json → Prop
  | null : WellFormed null
  | bool (value : Bool) : WellFormed (bool value)
  | int (n : ℤ) : WellFormed (int n)
  | float {x : PyFloat} (h : x.IsBinary64) : WellFormed (float x)
  | string (s : String) : WellFormed (string s)
  | array {items : List Json} (h : ∀ v ∈ items, WellFormed v) : WellFormed (array items)
  | object {fields : List (String × Json)} (hkeys : (fields.map Prod.fst).Nodup)
      (h : ∀ field ∈ fields, WellFormed field.2) : WellFormed (object fields)

theorem toItems_eq_map (items : List Json) : toItems items = items.map toValue := by
  induction items with
  | nil => rw [toItems, List.map_nil]
  | cons v items ih => rw [toItems, ih, List.map_cons]

theorem toFields_eq_map (fields : List (String × Json)) :
    toFields fields = fields.map fun field => (field.1, toValue field.2) := by
  induction fields with
  | nil => rw [toFields, List.map_nil]
  | cons field fields ih => rw [toFields, ih, List.map_cons]

theorem sortItems_eq_map (items : List Json) : sortItems items = items.map sortKeys := by
  induction items with
  | nil => rw [sortItems, List.map_nil]
  | cons v items ih => rw [sortItems, ih, List.map_cons]

theorem sortFields_eq_map (fields : List (String × Json)) :
    sortFields fields = fields.map fun field => (field.1, sortKeys field.2) := by
  induction fields with
  | nil => rw [sortFields, List.map_nil]
  | cons field fields ih => rw [sortFields, ih, List.map_cons]

theorem ofItems_eq_map (items : List Value) : ofItems items = items.map ofValue := by
  induction items with
  | nil => rw [ofItems, List.map_nil]
  | cons v items ih => rw [ofItems, ih, List.map_cons]

theorem ofFields_eq_map (fields : List (String × Value)) :
    ofFields fields = fields.map fun field => (field.1, ofValue field.2) := by
  induction fields with
  | nil => rw [ofFields, List.map_nil]
  | cons field fields ih => rw [ofFields, ih, List.map_cons]

/-- Assignments under different keys list what is assigned. -/
theorem foldl_set_eq {β : Type} {fields : List (String × β)} (h : (fields.map Prod.fst).Nodup) :
    fields.foldl (fun d field => Dict.set d field.1 field.2) [] = fields := by
  -- from any dictionary on that has none of the keys
  suffices hall : ∀ d : List (String × β), ((d ++ fields).map Prod.fst).Nodup →
      fields.foldl (fun d field => Dict.set d field.1 field.2) d = d ++ fields from
    hall [] (by simpa using h)
  clear h
  induction fields with
  | nil => simp
  | cons field fields ih =>
      intro d hnodup
      have hnew : (d.any fun entry => entry.1 = field.1) = false := by
        rw [List.any_eq_false]
        intro entry hentry
        rw [List.map_append, List.nodup_append] at hnodup
        have hne := hnodup.2.2 entry.1 (List.mem_map_of_mem hentry) field.1 (by simp)
        simpa using hne
      rw [List.foldl_cons, Dict.set, hnew]
      simp only [Bool.false_eq_true, if_false]
      rw [ih]
      · simp
      · simpa using hnodup

/-! ## The round trip -/

/-- The text of a `float` is the text of a number. -/
theorem isNumber_floatText {x : PyFloat} (h : x.IsBinary64) : JsonText.IsNumber (floatText x) := by
  cases x with
  | nan => exact .nan
  | inf negative =>
      cases negative with
      | true => exact .negInfinity
      | false => exact .infinity
  | finite x => exact PyFloat.isNumber_repr (h x rfl)

/-- The text of a `float` is read back. -/
theorem ofText_floatText {x : PyFloat} (h : x.IsBinary64) :
    PyFloat.ofText (String.ofList (floatText x)) = some x := by
  cases x with
  | nan => rfl
  | inf negative => cases negative <;> rfl
  | finite x => exact PyFloat.ofText_repr (h x rfl)

/-- A value is written with texts of numbers. -/
theorem plain_toValue {v : Json} (h : v.WellFormed) : JsonText.Plain v.toValue := by
  induction h with
  | null => exact .null
  | bool value => exact .bool value
  | int n => exact .int n
  | float h => exact .number (isNumber_floatText h)
  | string s => exact .string s
  | array _ ih =>
      rw [toValue, toItems_eq_map]
      refine .array fun v hv => ?_
      obtain ⟨item, hitem, rfl⟩ := List.mem_map.mp hv
      exact ih item hitem
  | object _ _ ih =>
      rw [toValue, toFields_eq_map]
      refine .object fun field hfield => ?_
      obtain ⟨old, hold, rfl⟩ := List.mem_map.mp hfield
      exact ih old hold

/-- What is written denotes the value. -/
theorem ofValue_toValue {v : Json} (h : v.WellFormed) : ofValue v.toValue = v := by
  induction h with
  | null => rfl
  | bool value => rfl
  | int n => rfl
  | float h => rw [toValue, ofValue, ofText_floatText h, Option.getD_some]
  | string s => rfl
  | @array items _ ih =>
      rw [toValue, ofValue, toItems_eq_map, ofItems_eq_map, List.map_map]
      congr 1
      exact (List.map_congr_left ih).trans (List.map_id' items)
  | @object fields hkeys _ ih =>
      have hfields : ofFields (toFields fields) = fields := by
        rw [toFields_eq_map, ofFields_eq_map, List.map_map]
        refine (List.map_congr_left fun field hfield => ?_).trans (List.map_id' fields)
        exact Prod.ext rfl (ih field hfield)
      rw [toValue, ofValue, hfields, foldl_set_eq hkeys]

/-- Sorting the fields of an object keeps its keys different. -/
theorem keys_sortFields (fields : List (String × Json)) :
    (((sortFields fields).insertionSort fun f g => f.1 ≤ g.1).map Prod.fst).Perm
      (fields.map Prod.fst) := by
  refine ((List.perm_insertionSort _ _).map Prod.fst).trans (List.Perm.of_eq ?_)
  rw [sortFields_eq_map, List.map_map]
  rfl

/-- Sorting the keys leaves a value one that Python builds. -/
theorem WellFormed.sortKeys {v : Json} (h : v.WellFormed) : v.sortKeys.WellFormed := by
  induction h with
  | null => exact .null
  | bool value => exact .bool value
  | int n => exact .int n
  | float h => exact .float h
  | string s => exact .string s
  | array _ ih =>
      rw [Json.sortKeys, sortItems_eq_map]
      refine .array fun v hv => ?_
      obtain ⟨item, hitem, rfl⟩ := List.mem_map.mp hv
      exact ih item hitem
  | @object fields hkeys _ ih =>
      rw [Json.sortKeys]
      refine .object ((keys_sortFields fields).nodup_iff.mpr hkeys) fun field hfield => ?_
      rw [sortFields_eq_map] at hfield
      obtain ⟨old, hold, rfl⟩ := List.mem_map.mp ((List.mem_insertionSort _).mp hfield)
      exact ih old hold

/-- **The round trip of a text.** What is written is read back, with its keys sorted. -/
theorem loads_dumps {value : Json} {text : String} (hvalue : value.WellFormed)
    (h : dumps value = .ok text) : loads text = .ok value.sortKeys := by
  dsimp only [dumps] at h
  split at h
  · rename_i hdigits
    cases h
    simp only [loads, JsonText.read_write (plain_toValue hvalue.sortKeys), hdigits, if_true,
      ofValue_toValue hvalue.sortKeys]
  · cases h

/-! ## Fields of an object -/

/-- A dictionary whose keys differ has the value of each of its entries. -/
theorem lookup_of_mem {β : Type} {d : List (String × β)} {key : String} {value : β}
    (hkeys : (d.map Prod.fst).Nodup) (h : (key, value) ∈ d) : d.lookup key = some value := by
  obtain ⟨before, after, rfl⟩ := List.append_of_mem h
  refine List.lookup_eq_some_iff.mpr ⟨before, after, rfl, fun entry hentry => ?_⟩
  rw [List.map_append, List.map_cons, List.nodup_append] at hkeys
  have hne := hkeys.2.2 entry.1 (List.mem_map_of_mem hentry) key List.mem_cons_self
  simpa using Ne.symm hne

/-- The members of an object whose keys differ, after its keys are sorted. -/
theorem lookup_sortKeys {fields : List (String × Json)} (hkeys : (fields.map Prod.fst).Nodup) :
    ∃ sorted, sortKeys (.object fields) = .object sorted ∧
      ∀ field ∈ fields, sorted.lookup field.1 = some field.2.sortKeys := by
  refine ⟨_, by rw [sortKeys], fun field hfield => ?_⟩
  refine lookup_of_mem ((keys_sortFields fields).nodup_iff.mpr hkeys) ?_
  rw [List.mem_insertionSort, sortFields_eq_map]
  exact List.mem_map.mpr ⟨field, hfield, rfl⟩

end Json

end BybitMonitor
