import QuasarDB.Storage.IndexSet
import QuasarDB.Storage.StringStore

set_option autoImplicit false

/-! # Conditions

The operators of `value.cpp` and the conditions of `executor.cpp`: three-valued logic on the values of a
record. Literals are interned where they are looked at. -/

namespace QuasarDB.Storage

open Server

inductive SqlBool where
  | false
  | true
  | unknown
  deriving DecidableEq, Repr

namespace SqlBool

def ofBool (b : Bool) : SqlBool := if b then .true else .false

/-- `operator&&`. -/
def and (first second : SqlBool) : SqlBool :=
  if first = .false ∨ second = .false then .false
  else if first = .unknown ∨ second = .unknown then .unknown
  else .true

/-- `operator||`. -/
def or (first second : SqlBool) : SqlBool :=
  if first = .true ∨ second = .true then .true
  else if first = .unknown ∨ second = .unknown then .unknown
  else .false

/-- `operator!`. -/
def not : SqlBool → SqlBool
  | .true => .false
  | .false => .true
  | .unknown => .unknown

end SqlBool

namespace Value

/-- `operator==`. -/
def eq (left right : Value) : Except String SqlBool :=
  match left, right with
  | .null, _ | _, .null => .ok .unknown
  | .int left, .int right => .ok (.ofBool (left == right))
  | .string left, .string right => .ok (.ofBool (left == right))
  | _, _ => .error "Compare different type"

/-- `operator<`. Strings are compared by their ids. -/
def lt (left right : Value) : Except String SqlBool :=
  match left, right with
  | .null, _ | _, .null => .ok .unknown
  | .int left, .int right => .ok (.ofBool (left < right))
  | .string left, .string right => .ok (.ofBool (left.value < right.value))
  | _, _ => .error "[FATAL in qdb::storage::Value]: Compare different type!"

/-- `operator<=`. -/
def le (left right : Value) : Except String SqlBool := return (← left.lt right).or (← left.eq right)

/-- `operator>`. -/
def gt (left right : Value) : Except String SqlBool := return (← left.le right).not

/-- `operator>=`. -/
def ge (left right : Value) : Except String SqlBool := return (← left.lt right).not

/-- `operator!=`. -/
def ne (left right : Value) : Except String SqlBool := return (← left.eq right).not

/-- The operators of a comparison. -/
def compare (op : ComparisonOperator) (left right : Value) : Except String SqlBool :=
  match op with
  | .equal => left.eq right
  | .notEqual => left.ne right
  | .less => left.lt right
  | .greater => left.gt right
  | .lessEqual => left.le right
  | .greaterEqual => left.ge right

end Value

/-- `CompareStrings`. -/
def compareStrings (op : ComparisonOperator) (left right : String) : SqlBool :=
  match op with
  | .equal => .ofBool (left == right)
  | .notEqual => .ofBool (left != right)
  | .less => .ofBool (left < right)
  | .greater => .ofBool (right < left)
  | .lessEqual => .ofBool (!(right < left))
  | .greaterEqual => .ofBool (!(left < right))

/-- `LiteralValue`. -/
def literalValue (literal : Literal) : Prog StringStore Value :=
  match literal.literalType with
  | .null => return .null
  | .integer => return .int (.ofInt (← Prog.ofExcept (stoi literal.value)))
  | .string => StringStore.intern literal.value

/-- `ExpressionValue`. -/
def expressionValue (expression : Expression) (schema : Schema) (record : Record) :
    Prog StringStore Value :=
  match expression with
  | .literal literal => literalValue literal
  | .identifier name =>
      match schema.columnIndex name with
      | none =>
          throw (.exception
            ("[ERROR in qdb::storage::ExpressionValue]: Unknown column '" ++ name ++ "'!"))
      | some index =>
          match record.fields[index]? with
          | some value => return value
          | none => throw (.undefined "read past the fields of a record")
  | .aggregate _ _ =>
      throw (.exception "[ERROR in qdb::storage::ExpressionValue]: Unsupported expression!")

/-- `std::regex_match` with a pattern, which may throw. -/
abbrev RegexMatch : Type := String → String → Except String Bool

/-- The string of a value. -/
def viewOf (id : StringId) : Prog StringStore String := do (← get).toInterner.view id

/-- `EvaluateCondition`. -/
def evaluateCondition (regexMatch : RegexMatch) (schema : Schema) (record : Record) :
    Condition → Prog StringStore SqlBool
  | .comparison left op right => do
      let left ← expressionValue left schema record
      let right ← expressionValue right schema record
      if left.isNull || right.isNull then return .unknown
      else
        match left, right with
        | .string left, .string right =>
            return compareStrings op (← viewOf left) (← viewOf right)
        | left, right => Prog.ofExcept (left.compare op right)
  | .between value lower upper => do
      let value ← expressionValue value schema record
      let aboveLower ← Prog.ofExcept (value.ge (← expressionValue lower schema record))
      let belowUpper ← Prog.ofExcept (value.le (← expressionValue upper schema record))
      return aboveLower.and belowUpper
  | .like value pattern => do
      match ← expressionValue value schema record with
      | .null => return .unknown
      | .int _ =>
          throw (.exception "[ERROR in qdb::storage::EvaluateCondition]: LIKE expects string value!")
      | .string id => return .ofBool (← Prog.ofExcept (regexMatch pattern (← viewOf id)))
  | .and left right => do
      let left ← evaluateCondition regexMatch schema record left
      let right ← evaluateCondition regexMatch schema record right
      return left.and right
  | .or left right => do
      let left ← evaluateCondition regexMatch schema record left
      let right ← evaluateCondition regexMatch schema record right
      return left.or right

end QuasarDB.Storage
