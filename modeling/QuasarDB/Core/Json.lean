import QuasarDB.Library.Prog

set_option autoImplicit false

/-! # JSON values

The part of `nlohmann::json` the program uses: a value, and the accessors that throw. An object is
kept as its list of members, with at most one member of a name; the order of the members has no
meaning. -/

namespace QuasarDB.Core

/-- A JSON value. A number with a fraction or an exponent is `float mantissa exponent`. -/
inductive Json where
  | null
  | boolean (b : Bool)
  | integer (n : Int)
  | float (mantissa exponent : Int)
  | string (s : String)
  | array (elements : List Json)
  | object (members : List (String × Json))
  deriving Repr, Inhabited

namespace Json

/-- `type_name()`. -/
def typeName : Json → String
  | null => "null"
  | boolean _ => "boolean"
  | integer _ => "number"
  | float _ _ => "number"
  | string _ => "string"
  | array _ => "array"
  | object _ => "object"

def isObject : Json → Bool
  | object _ => true
  | _ => false

def isString : Json → Bool
  | string _ => true
  | _ => false

/-- The member of an object, if the value is an object that has it. -/
def find (key : String) : Json → Option Json
  | object members => members.lookup key
  | _ => none

def contains (json : Json) (key : String) : Bool := (json.find key).isSome

/-- `json[key] = value` on an object. -/
def set (json : Json) (key : String) (value : Json) : Json :=
  match json with
  | object members => object (members.filter (fun m => m.1 != key) ++ [(key, value)])
  | json => json

/-! ## Accessors that throw -/

def typeError (id what : String) : String := "[json.exception.type_error." ++ id ++ "] " ++ what

/-- What `get` throws on a value of another type. -/
def wrongType (wanted : String) (json : Json) : String :=
  typeError "302" ("type must be " ++ wanted ++ ", but is " ++ json.typeName)

/-- `get<std::string>()`. -/
def getString : Json → Except String String
  | string s => .ok s
  | json => .error (wrongType "string" json)

/-- `get<bool>()`. -/
def getBool : Json → Except String Bool
  | boolean b => .ok b
  | json => .error (wrongType "boolean" json)

/-- `get<std::vector<std::string>>()`. -/
def getStrings : Json → Except String (List String)
  | array elements => elements.mapM getString
  | json => .error (wrongType "array" json)

/-- `at(key)`. -/
def get (json : Json) (key : String) : Except String Json :=
  match json with
  | object members =>
      match members.lookup key with
      | some value => .ok value
      | none => .error ("[json.exception.out_of_range.403] key '" ++ key ++ "' not found")
  | _ => .error (typeError "304" ("cannot use at() with " ++ json.typeName))

/-- `value(key, fallback)`, where `read` is the `get` of the fallback's type. -/
def value {α : Type} (read : Json → Except String α) (json : Json) (key : String) (fallback : α) :
    Except String α :=
  match json with
  | object members =>
      match members.lookup key with
      | some value => read value
      | none => .ok fallback
  | _ => .error (typeError "306" ("cannot use value() with " ++ json.typeName))

/-- `value(key, fallback)` with a string fallback. -/
def valueString (json : Json) (key fallback : String) : Except String String :=
  json.value getString key fallback

/-! ## Members of an object -/

section Members

variable {α : Type} (key k : String) (v : Json) (ms : List (String × Json))

theorem lookup_cons :
    ((k, v) :: ms).lookup key = if key = k then some v else ms.lookup key := by
  rw [List.lookup_cons]
  by_cases h : key = k
  · rw [if_pos h, beq_iff_eq.2 h]
  · rw [if_neg h, beq_eq_false_iff_ne.2 h]

@[simp] theorem find_nil : (object []).find key = none := rfl

@[simp] theorem find_cons :
    (object ((k, v) :: ms)).find key = if key = k then some v else (object ms).find key := by
  rw [find, lookup_cons]
  rfl

@[simp] theorem value_nil (read : Json → Except String α) (fallback : α) :
    (object []).value read key fallback = .ok fallback := rfl

@[simp] theorem value_cons (read : Json → Except String α) (fallback : α) :
    (object ((k, v) :: ms)).value read key fallback =
      if key = k then read v else (object ms).value read key fallback := by
  by_cases h : key = k
  · rw [value, lookup_cons, if_pos h, if_pos h]
  · rw [value, lookup_cons, if_neg h, if_neg h]
    rfl

@[simp] theorem valueString_nil (fallback : String) :
    (object []).valueString key fallback = .ok fallback := rfl

@[simp] theorem valueString_cons (fallback : String) :
    (object ((k, v) :: ms)).valueString key fallback =
      if key = k then v.getString else (object ms).valueString key fallback :=
  value_cons key k v ms getString fallback

@[simp] theorem get_cons :
    (object ((k, v) :: ms)).get key = if key = k then .ok v else (object ms).get key := by
  by_cases h : key = k
  · rw [get, lookup_cons, if_pos h, if_pos h]
  · rw [get, lookup_cons, if_neg h, if_neg h]
    rfl

@[simp] theorem getString_string (s : String) : (string s).getString = .ok s := rfl

/-- A member of a new name comes last. -/
theorem set_of_ne {ms : List (String × Json)} (h : ∀ m ∈ ms, m.1 ≠ key) :
    (object ms).set key v = object (ms ++ [(key, v)]) := by
  have hfilter : ms.filter (fun m => m.1 != key) = ms :=
    List.filter_eq_self.2 (fun m hm => by simpa using h m hm)
  show object (ms.filter (fun m => m.1 != key) ++ [(key, v)]) = _
  rw [hfilter]

theorem find_append_of_ne {ms : List (String × Json)} (h : ∀ m ∈ ms, m.1 ≠ key)
    (more : List (String × Json)) :
    (object (ms ++ more)).find key = (object more).find key := by
  induction ms with
  | nil => rfl
  | cons m ms ih =>
      obtain ⟨k, v⟩ := m
      rw [List.cons_append, find_cons, if_neg (Ne.symm (h (k, v) (by simp)))]
      exact ih (fun m hm => h m (by simp [hm]))

theorem find_set_self : ((object ms).set key v).find key = some v := by
  have hnew : ∀ m ∈ ms.filter (fun m => m.1 != key), m.1 ≠ key := by
    intro m hm
    simpa using (List.mem_filter.1 hm).2
  change (object (ms.filter (fun m => m.1 != key) ++ [(key, v)])).find key = some v
  rw [find_append_of_ne key hnew, find_cons, if_pos rfl]

theorem find_set_of_ne (h : k ≠ key) : ((object ms).set key v).find k = (object ms).find k := by
  change (object (ms.filter (fun m => m.1 != key) ++ [(key, v)])).find k = _
  induction ms with
  | nil => rw [List.filter_nil, List.nil_append, find_cons, if_neg h]
  | cons m ms ih =>
      obtain ⟨name, value⟩ := m
      by_cases hname : name = key
      · rw [List.filter_cons_of_neg (by simp [hname]), ih, find_cons, if_neg (by rwa [hname])]
      · rw [List.filter_cons_of_pos (by simp [hname]), List.cons_append, find_cons, find_cons, ih]

end Members

theorem value_ok_iff {α : Type} {read : Json → Except String α} {json : Json} {key : String}
    {fallback : α} :
    (∃ a, json.value read key fallback = .ok a) ↔
      json.isObject ∧ ∀ v, json.find key = some v → ∃ a, read v = .ok a := by
  cases json with
  | object members =>
      simp only [value, isObject, find, true_and]
      cases members.lookup key with
      | some v => simp
      | none => simp
  | _ => simp [value, isObject]

theorem getString_ok_iff {json : Json} : (∃ s, json.getString = .ok s) ↔ json.isString := by
  cases json <;> simp [getString, isString]

end Json

end QuasarDB.Core
