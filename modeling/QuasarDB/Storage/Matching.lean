import QuasarDB.Storage.Executor
import QuasarDB.Storage.Meaning

set_option autoImplicit false

/-! # Matching rows

What a `WHERE` does with a table, as a function of the records, the schema and the strings before: how its
records are looked for, which texts that interns, and what the condition says of each of them once all of
its texts have ids. -/

namespace QuasarDB.Storage

open Server

/-- How the records of a condition are found: not at all, by the value in a column, or all of them are
    read. -/
inductive Plan where
  | raises
  | find (columnIndex : Nat) (literal : Literal)
  | all
  deriving DecidableEq

/-- Whether the index of the column is asked for the literal. -/
def Column.looksFor (column : Column) (literal : Literal) : Bool :=
  match literal.literalType with
  | .null => false
  | .integer => column.isIndexed && column.isInt
  | .string => column.isIndexed && column.isString

namespace Schema

variable (schema : Schema)

def planLookup : Expression → Expression → Plan
  | .identifier name, .literal literal =>
      if literalMeaning literal = none then .raises
      else
        match schema.columnIndex name with
        | none => .raises
        | some i =>
            if (schema.columns[i]?).any (Column.looksFor · literal) then .find i literal else .all
  | _, _ => .all

def plan : Condition → Plan
  | .and left right => if plan left = .all then plan right else plan left
  | .comparison left .equal right =>
      if schema.planLookup left right = .all then schema.planLookup right left
      else schema.planLookup left right
  | _ => .all

/-- The text that a lookup interns. -/
def lookupTexts : Expression → Expression → List String
  | .identifier _, value => expressionTexts value
  | _, _ => []

/-- The texts that are interned before a record is looked at. -/
def planTexts : Condition → List String
  | .and left right => planTexts left ++ if schema.plan left = .all then planTexts right else []
  | .comparison left .equal right =>
      lookupTexts left right ++
        if schema.planLookup left right = .all then lookupTexts right left else []
  | _ => []

end Schema

variable (regexMatch : RegexMatch) (schema : Schema) (store : StringStore) (records : List Record)

/-- The records that a `WHERE` is looked at for, if looking for them raises nothing. -/
def examined : Option Condition → Option (List Record)
  | none => some records
  | some condition =>
      match schema.plan condition with
      | .raises => none
      | .find i literal => some <| records.filter fun record =>
          record.fields[i]? =
            (store.rememberAll (schema.planTexts condition)).valueOf schema record (.literal literal)
      | .all => some records

/-- What a `WHERE` says of a record, if that raises nothing. -/
def truth (record : Record) : Option Condition → Option SqlBool
  | none => some .true
  | some condition =>
      (evaluateCondition regexMatch schema record condition).result
        (store.rememberAll (schema.planTexts condition ++ conditionTexts condition))

/-- The `WHERE` raises an exception, when its records are looked for or of one of them. -/
def WhereRaises (whereClause : Option Condition) : Prop :=
  ∀ candidates, examined schema store records whereClause = some candidates →
    ∃ record ∈ candidates, truth regexMatch schema store record whereClause = none

/-- The records that match. -/
def matching (whereClause : Option Condition) : List Record :=
  ((examined schema store records whereClause).getD []).filter fun record =>
    truth regexMatch schema store record whereClause = some .true

/-! ## Columns that a statement mentions -/

def expressionColumns : Expression → List String
  | .identifier name => [name]
  | .literal _ => []
  | .aggregate _ column => [column]

def conditionColumns : Condition → List String
  | .comparison left _ right => expressionColumns left ++ expressionColumns right
  | .between value lower upper =>
      expressionColumns value ++ (expressionColumns lower ++ expressionColumns upper)
  | .like value _ => expressionColumns value
  | .and left right => conditionColumns left ++ conditionColumns right
  | .or left right => conditionColumns left ++ conditionColumns right

def whereColumns : Option Condition → List String
  | none => []
  | some condition => conditionColumns condition

/-- The columns of a `SET`. -/
def assignmentColumns (assignments : List (String × Expression)) : List String :=
  assignments.flatMap fun assignment => assignment.1 :: expressionColumns assignment.2

/-- The columns of a projection, aggregates included. -/
def itemColumns (items : List SelectItem) : List String :=
  items.flatMap fun item => expressionColumns item.expr

/-- One of the columns is not in the schema. -/
def MentionsUnknown (columns : List String) : Prop :=
  ∃ name ∈ columns, schema.columnIndex name = none

end QuasarDB.Storage
