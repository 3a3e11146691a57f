import ArkadeSdk.Lib.JsRecord
import ArkadeSdk.Lib.JsNumber

namespace Json

open JsNumber

def startsWith (pre s : String) : Bool := pre.toList.isPrefixOf s.toList

/-- `s.slice(n)`. -/
def slice (n : ℕ) (s : String) : String := String.ofList (s.toList.drop n)

@[simp] theorem startsWith_append (pre s : String) : startsWith pre (pre ++ s) = true := by
  simp [startsWith, String.toList_append]

theorem slice_append {pre s : String} {n : ℕ} (h : pre.toList.length = n) :
    slice n (pre ++ s) = s := by
  subst h
  rw [slice, String.toList_append, List.drop_left, String.ofList_toList]

inductive Value
  | null
  | bool (b : Bool)
  | number (a : Number)
  | string (s : String)
  | array (l : List Value)
  | object (l : List (String × Value))

namespace Value

mutual

/-- What is left of a value in text: a number that is not finite is written as null. -/
def written : Value → Value
  | .number a => if a.isFinite then .number a else .null
  | .array l => .array (writtenItems l)
  | .object l => .object (writtenFields l)
  | .null => .null
  | .bool b => .bool b
  | .string s => .string s

def writtenItems : List Value → List Value
  | [] => []
  | v :: l => v.written :: writtenItems l

def writtenFields : List (String × Value) → List (String × Value)
  | [] => []
  | (k, v) :: l => (k, v.written) :: writtenFields l

end

theorem writtenItems_eq (l : List Value) : writtenItems l = l.map written := by
  induction l with
  | nil => rfl
  | cons v l ih => rw [writtenItems, ih, List.map_cons]

theorem writtenFields_eq (l : List (String × Value)) :
    writtenFields l = l.map fun p ↦ (p.1, p.2.written) := by
  induction l with
  | nil => rfl
  | cons p l ih =>
    obtain ⟨k, v⟩ := p
    rw [writtenFields, ih, List.map_cons]

@[simp] theorem written_string (s : String) : (string s).written = string s := by rw [written]

theorem written_number {a : Number} (h : a.isFinite = true) : (number a).written = number a := by
  rw [written, if_pos h]

@[simp] theorem written_array (l : List Value) : (array l).written = array (l.map written) := by
  rw [written, writtenItems_eq]

@[simp] theorem written_object (l : List (String × Value)) :
    (object l).written = object (l.map fun p ↦ (p.1, p.2.written)) := by
  rw [written, writtenFields_eq]

/-- `v[k]`, undefined on anything but an object that has the property. -/
def field (v : Value) (k : String) : Option Value :=
  match v with
  | .object l => l.lookup k
  | _ => none

def isNull : Value → Bool
  | .null => true
  | _ => false

def truthy : Value → Bool
  | .null => false
  | .bool b => b
  | .number a => a.lt (.ofInt 0) || Number.lt (.ofInt 0) a
  | .string s => s ≠ ""
  | .array _ => true
  | .object _ => true

/-- `v ? .. : ..` on a value that may be missing. -/
def given (v : Option Value) : Option Value := v.filter truthy

@[simp] theorem given_array (l : List Value) : given (some (.array l)) = some (.array l) := rfl

@[simp] theorem given_object (l : List (String × Value)) :
    given (some (.object l)) = some (.object l) := rfl

@[simp] theorem field_object (l : List (String × Value)) (k : String) :
    (object l).field k = l.lookup k := rfl

/-- `...(o !== undefined ? { k: o } : {})`. -/
def optional (k : String) : Option Value → List (String × Value)
  | none => []
  | some v => [(k, v)]

@[simp] theorem map_optional (k : String) (o : Option Value) :
    (optional k o).map (fun p ↦ (p.1, p.2.written)) = optional k (o.map written) := by
  cases o <;> rfl

@[simp] theorem lookup_optional_self (k : String) (o : Option Value) :
    (optional k o).lookup k = o := by
  cases o <;> simp [optional]

@[simp] theorem lookup_optional_ne {k k' : String} (h : k ≠ k') (o : Option Value) :
    (optional k' o).lookup k = none := by
  cases o with
  | none => rfl
  | some v =>
    have hk : (k == k') = false := by simpa using h
    simp [optional, List.lookup_cons, hk]

end Value

structure Text where
  stringify : Value → String
  parse : String → Option Value

/-- The text is not empty and reads back as what was written. -/
structure Text.RoundTrips (J : Text) (v : Value) : Prop where
  parse_stringify : J.parse (J.stringify v) = some v.written
  nonempty : J.stringify v ≠ ""

namespace Value

def quoted (s : String) : List Char := Char.ofNat 34 :: (s.toList ++ [Char.ofNat 34])

mutual

/-- The text of values whose numbers are integers and whose strings need no escapes. -/
def chars : Value → List Char
  | .null => "null".toList
  | .bool b => (toString b).toList
  | .number (.finite q) => (Decimal.toText q.num).toList
  | .number _ => "null".toList
  | .string s => quoted s
  | .array l => '[' :: (itemsChars l ++ [']'])
  | .object l => Char.ofNat 123 :: (fieldsChars l ++ [Char.ofNat 125])

def itemsChars : List Value → List Char
  | [] => []
  | [v] => v.chars
  | v :: l => v.chars ++ ',' :: itemsChars l

def fieldsChars : List (String × Value) → List Char
  | [] => []
  | [(k, v)] => quoted k ++ ':' :: v.chars
  | (k, v) :: l => quoted k ++ ':' :: (v.chars ++ ',' :: fieldsChars l)

end

end Value

def Text.ofValues (l : List Value) : Text where
  stringify v := String.ofList v.chars
  parse s := (l.find? fun v ↦ String.ofList v.chars = s).map Value.written

theorem Text.roundTrips_ofValues {v : Value} {l : List Value}
    (h : (l.find? fun w ↦ String.ofList w.chars = String.ofList v.chars) = some v)
    (hne : v.chars ≠ []) : (Text.ofValues l).RoundTrips v where
  parse_stringify := by
    change (l.find? fun w ↦ String.ofList w.chars = String.ofList v.chars).map Value.written = _
    rw [h, Option.map_some]
  nonempty hempty := by
    have hchars := congrArg String.toList hempty
    rw [ofValues, String.toList_ofList] at hchars
    exact hne hchars

end Json
