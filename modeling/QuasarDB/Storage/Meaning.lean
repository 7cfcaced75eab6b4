import Mathlib.Data.String.Basic
import QuasarDB.Storage.Condition

set_option autoImplicit false

/-! # What conditions mean

Conditions as `GRAMMAR.md` describes them: on the integers and texts that the values of a row stand for,
each in their own order, and in three-valued logic. A text is compared with an integer nowhere: such a
condition means nothing. -/

namespace QuasarDB.Storage

open Server

/-! ## Three-valued logic -/

namespace SqlBool

/-- How true a truth value is. -/
def rank : SqlBool → Nat
  | .false => 0
  | .unknown => 1
  | .true => 2

/-- Kleene's conjunction, the less true of the two. -/
def kleeneAnd (first second : SqlBool) : SqlBool :=
  if first.rank ≤ second.rank then first else second

/-- Kleene's disjunction, the truer of the two. -/
def kleeneOr (first second : SqlBool) : SqlBool :=
  if first.rank ≤ second.rank then second else first

theorem and_eq_kleeneAnd (first second : SqlBool) : first.and second = first.kleeneAnd second := by
  cases first <;> cases second <;> rfl

theorem or_eq_kleeneOr (first second : SqlBool) : first.or second = first.kleeneOr second := by
  cases first <;> cases second <;> rfl

end SqlBool

/-! ## Comparisons -/

/-- The relation that an operator stands for. -/
def Relates {α : Type} [LinearOrder α] (op : ComparisonOperator) (left right : α) : Prop :=
  match op with
  | .equal => left = right
  | .notEqual => left ≠ right
  | .less => left < right
  | .greater => right < left
  | .lessEqual => left ≤ right
  | .greaterEqual => right ≤ left

instance {α : Type} [LinearOrder α] (op : ComparisonOperator) (left right : α) :
    Decidable (Relates op left right) :=
  match op with
  | .equal => inferInstanceAs (Decidable (left = right))
  | .notEqual => inferInstanceAs (Decidable (left ≠ right))
  | .less => inferInstanceAs (Decidable (left < right))
  | .greater => inferInstanceAs (Decidable (right < left))
  | .lessEqual => inferInstanceAs (Decidable (left ≤ right))
  | .greaterEqual => inferInstanceAs (Decidable (right ≤ left))

/-- What a value stands for. -/
inductive Datum where
  | null
  | int (n : Int)
  | text (s : String)
  deriving DecidableEq

/-- A comparison with `NULL` is neither true nor false. -/
def Datum.compare (op : ComparisonOperator) (left right : Datum) : Option SqlBool :=
  match left, right with
  | .null, _ | _, .null => some .unknown
  | .int left, .int right => some (.ofBool (Relates op left right))
  | .text left, .text right => some (.ofBool (Relates op left right))
  | _, _ => none

/-! ## Conditions -/

/-- What a literal stands for. -/
def literalMeaning (literal : Literal) : Option Datum :=
  match literal.literalType with
  | .null => some .null
  | .integer => (stoi literal.value).toOption.map .int
  | .string => some (.text literal.value)

/-- What an expression stands for in a row. -/
def expressionMeaning (schema : Schema) (row : List Datum) : Expression → Option Datum
  | .literal literal => literalMeaning literal
  | .identifier name => (schema.columnIndex name).bind fun index => row[index]?
  | .aggregate _ _ => none

/-- The truth value of a condition in a row. -/
def conditionMeaning (regexMatch : RegexMatch) (schema : Schema) (row : List Datum) :
    Condition → Option SqlBool
  | .comparison left op right => do
      (← expressionMeaning schema row left).compare op (← expressionMeaning schema row right)
  | .between value lower upper => do
      let value ← expressionMeaning schema row value
      let aboveLower ← value.compare .greaterEqual (← expressionMeaning schema row lower)
      let belowUpper ← value.compare .lessEqual (← expressionMeaning schema row upper)
      return aboveLower.kleeneAnd belowUpper
  | .like value pattern => do
      match ← expressionMeaning schema row value with
      | .null => return .unknown
      | .int _ => none
      | .text s => (regexMatch pattern s).toOption.map .ofBool
  | .and left right => do
      return (← conditionMeaning regexMatch schema row left).kleeneAnd
        (← conditionMeaning regexMatch schema row right)
  | .or left right => do
      return (← conditionMeaning regexMatch schema row left).kleeneOr
        (← conditionMeaning regexMatch schema row right)

/-- What a value stands for, as far as its string is known. -/
def Interner.contents (interner : Interner) : Value → Datum
  | .null => .null
  | .int value => .int value.toInt
  | .string id => .text ((interner.idToView.lookup id.value).getD "")

/-! ## Texts in conditions -/

/-- The texts that a look at an expression interns. -/
def expressionTexts : Expression → List String
  | .literal literal => if literal.literalType = .string then [literal.value] else []
  | _ => []

/-- The texts that a look at a condition interns, in this order. The pattern of a `LIKE` is none of
    them. -/
def conditionTexts : Condition → List String
  | .comparison left _ right => expressionTexts left ++ expressionTexts right
  | .between value lower upper =>
      expressionTexts value ++ (expressionTexts lower ++ expressionTexts upper)
  | .like value _ => expressionTexts value
  | .and left right => conditionTexts left ++ conditionTexts right
  | .or left right => conditionTexts left ++ conditionTexts right

/-- A condition and the conditions it is made of. -/
def conditionParts : Condition → List Condition
  | .and left right => .and left right :: (conditionParts left ++ conditionParts right)
  | .or left right => .or left right :: (conditionParts left ++ conditionParts right)
  | condition => [condition]

namespace StringStore

/-- The store after `Intern`. -/
def remember (str : String) (store : StringStore) : StringStore :=
  if (store.stringToId.lookup str).isSome then store else store.append str

/-- The store after some texts were interned. -/
def rememberAll (strs : List String) (store : StringStore) : StringStore :=
  strs.foldl (fun store str => store.remember str) store

/-- The value of an expression, whose text has an id already. -/
def valueOf (store : StringStore) (schema : Schema) (record : Record) : Expression → Option Value
  | .literal literal =>
      match literal.literalType with
      | .null => some .null
      | .integer => (stoi literal.value).toOption.map fun n => .int (.ofInt n)
      | .string => (store.stringToId.lookup literal.value).map fun id => .string ⟨id⟩
  | .identifier name => (schema.columnIndex name).bind fun index => record.fields[index]?
  | .aggregate _ _ => none

/-- A string is not above another one, in the order `le`. Other values are not compared. -/
def NotAbove (le : StringId → StringId → Prop) : Value → Value → Prop
  | .string first, .string second => le first second
  | _, _ => True

/-- A string lies between two bounds, as far as these are strings. -/
def Within (le : StringId → StringId → Prop) (value lower upper : Value) : Prop :=
  NotAbove le lower value ∧ NotAbove le value upper

/-- The order in which strings were interned. -/
def IdLe (first second : StringId) : Prop := first.value ≤ second.value

/-- The order of the strings. -/
def TextLe (store : StringStore) (first second : StringId) : Prop :=
  (store.idToView.lookup first.value).getD "" ≤ (store.idToView.lookup second.value).getD ""

/-- Whether a string lies between the bounds of a `BETWEEN` does not depend on the order in which the
    strings were interned. -/
def BetweensOrdered (store : StringStore) (schema : Schema) (record : Record)
    (condition : Condition) : Prop :=
  ∀ value lower upper, .between value lower upper ∈ conditionParts condition →
    ∀ v l u, store.valueOf schema record value = some v → store.valueOf schema record lower = some l →
      store.valueOf schema record upper = some u →
      (Within IdLe v l u ↔ Within store.TextLe v l u)

/-- Every string has one id, and ids are given in ascending order. -/
structure Consistent (store : StringStore) : Prop where
  faithful : ∀ str id, store.stringToId.lookup str = some id → store.idToView.lookup id = some str
  below : ∀ id view, store.idToView.lookup id = some view → id < store.nextId

end StringStore

end QuasarDB.Storage
