import QuasarDB.Core.Json
import QuasarDB.Server.Ast
import QuasarDB.Server.Lexer
import Mathlib.Data.Int.Init

set_option autoImplicit false

/-! # The syntax tree on the wire

`SerializeAst` and `DeserializeAst` of `ast.cpp`: the server sends a statement to a storage node, and
keeps a `CREATE TABLE` in its catalog, as a JSON value. An exception is an `.error` with its
`what()`. -/

namespace QuasarDB.Server

open Core

/-! ## Numbers -/

/-- The number the decimal digits stand for. -/
def decimalValue (digits : List Char) : Nat := digits.foldl (fun n c => 10 * n + (c.toNat - 48)) 0

/-- The sign `std::stoi` reads, and what follows it. -/
def splitSign : List Char → Bool × List Char
  | '-' :: rest => (true, rest)
  | '+' :: rest => (false, rest)
  | rest => (false, rest)

/-- `std::stoi`: the longest prefix that is a number, as an `int` of 32 bits. -/
def stoi (value : String) : Except String Int :=
  let (negative, rest) := splitSign (value.toList.dropWhile Lexer.isSpace)
  let digits := rest.takeWhile Lexer.isDigit
  let n : Int := if negative then -decimalValue digits else decimalValue digits
  if digits.isEmpty then .error "stoi"
  else if -2 ^ 31 ≤ n ∧ n < 2 ^ 31 then .ok n
  else .error "stoi"

/-- `get<int>()` of a JSON integer. -/
def toInt (n : Int) : Int := n.bmod (2 ^ 32)

/-! ## Encoding -/

def literalTypeName : LiteralType → String
  | .string => "string"
  | .integer => "int"
  | .null => "null"

def literalValue (literal : Literal) : Except String Json :=
  match literal.literalType with
  | .integer => do return .integer (← stoi literal.value)
  | .null => return .null
  | .string => return .string literal.value

def aggregateName : AggregateFunction → String
  | .sum => "SUM"
  | .count => "COUNT"
  | .avg => "AVG"

def comparisonOperatorName : ComparisonOperator → String
  | .equal => "="
  | .notEqual => "!="
  | .less => "<"
  | .greater => ">"
  | .lessEqual => "<="
  | .greaterEqual => ">="

def columnTypeName : ColumnType → String
  | .int => "int"
  | .string => "string"

def tableToString (table : TableRef) : String :=
  if table.database = "" then table.table else table.database ++ "." ++ table.table

/-- `ToJson(Literal)`. -/
def Literal.toJson (literal : Literal) : Except String Json := do
  return .object [("node_type", .string "Literal"),
    ("data_type", .string (literalTypeName literal.literalType)),
    ("value", ← literalValue literal)]

/-- `ToJson(Expression)`. -/
def Expression.toJson : Expression → Except String Json
  | .identifier name => return .object [("node_type", .string "Identifier"), ("value", .string name)]
  | .literal l => l.toJson
  | .aggregate function column => return .object [("node_type", .string "AggregateFunction"),
      ("function", .string (aggregateName function)),
      ("argument", .object [("node_type", .string "Identifier"), ("value", .string column)])]

/-- The node that comparisons, `LIKE`, `AND` and `OR` have in common. -/
def binaryExpression (op : String) (left right : Json) : Json :=
  .object [("node_type", .string "BinaryExpression"), ("operator", .string op), ("left", left),
    ("right", right)]

/-- `ToJson(Condition)`. -/
def Condition.toJson : Condition → Except String Json
  | .comparison left op right => do
      return binaryExpression (comparisonOperatorName op) (← left.toJson) (← right.toJson)
  | .like value pattern => do
      return binaryExpression "LIKE" (← value.toJson) (← Literal.toJson ⟨.string, pattern⟩)
  | .between value lower upper => do
      return .object [("node_type", .string "BetweenExpression"), ("value", ← value.toJson),
        ("lower", ← lower.toJson), ("upper", ← upper.toJson)]
  | .and left right => do return binaryExpression "AND" (← left.toJson) (← right.toJson)
  | .or left right => do return binaryExpression "OR" (← left.toJson) (← right.toJson)

/-- `ToJson(ColumnDef)`. -/
def ColumnDef.toJson (column : ColumnDef) : Except String Json := do
  let modifiers := (if column.indexed then [Json.string "INDEXED"] else []) ++
    (if column.notNull then [Json.string "NOT_NULL"] else [])
  let json := Json.object [("name", .string column.name),
    ("data_type", .string (columnTypeName column.columnType)), ("modifiers", .array modifiers)]
  match column.defaultValue with
  | some literal => return json.set "default_value" (← literal.toJson)
  | none => return json

/-- One projection of `SerializeAst`. -/
def SelectItem.toJson (item : SelectItem) : Except String Json := do
  let projection ← item.expr.toJson
  if item.aliasName = "" then return projection
  else return projection.set "alias" (.string item.aliasName)

/-- The projections of `SerializeAst`. -/
def projectionsToJson (selectAll : Bool) (selectItems : List SelectItem) :
    Except String (List Json) :=
  if selectAll then return [.object [("node_type", .string "Wildcard")]]
  else selectItems.mapM SelectItem.toJson

/-- An assignment of `SerializeAst`. -/
def assignmentToJson (assignment : String × Expression) : Except String Json := do
  return .object [("column", .string assignment.1), ("value", ← assignment.2.toJson)]

/-- `if (WhereClause) json["where_clause"] = ToJson(*WhereClause);` -/
def withWhereClause (json : Json) : Option Condition → Except String Json
  | some condition => do return json.set "where_clause" (← condition.toJson)
  | none => return json

def serializeAst : Statement → Except String Json
  | .createDatabase name =>
      return .object [("node_type", .string "CreateDatabaseStatement"), ("database", .string name)]
  | .dropDatabase name =>
      return .object [("node_type", .string "DropDatabaseStatement"), ("database", .string name)]
  | .useDatabase name =>
      return .object [("node_type", .string "UseDatabaseStatement"), ("database", .string name)]
  | .createUser username _ =>
      return .object [("node_type", .string "CreateUserStatement"), ("username", .string username)]
  | .grant permissions scope username =>
      return .object [("node_type", .string "GrantStatement"),
        ("permissions", .array (permissions.map .string)), ("scope", .string (tableToString scope)),
        ("username", .string username)]
  | .revoke permissions scope username =>
      return .object [("node_type", .string "RevokeStatement"),
        ("permissions", .array (permissions.map .string)), ("scope", .string (tableToString scope)),
        ("username", .string username)]
  | .createTable table columns => do
      return .object [("node_type", .string "CreateTableStatement"),
        ("table", .string (tableToString table)),
        ("columns", .array (← columns.mapM ColumnDef.toJson))]
  | .select selectAll selectItems table whereClause => do
      let projections ← projectionsToJson selectAll selectItems
      withWhereClause (.object [("node_type", .string "SelectStatement"),
        ("table", .string (tableToString table)), ("projections", .array projections)]) whereClause
  | .revert table timestamp =>
      return .object [("node_type", .string "RevertStatement"),
        ("table", .string (tableToString table)), ("target_timestamp", .string timestamp)]
  | .insert table columns values => do
      let rows ← values.mapM fun row => return Json.array (← row.mapM Literal.toJson)
      return .object [("node_type", .string "InsertStatement"),
        ("table", .string (tableToString table)), ("columns", .array (columns.map .string)),
        ("values", .array rows)]
  | .update table assignments whereClause => do
      withWhereClause (.object [("node_type", .string "UpdateStatement"),
        ("table", .string (tableToString table)),
        ("assignments", .array (← assignments.mapM assignmentToJson))]) whereClause
  | .delete table whereClause =>
      withWhereClause (.object [("node_type", .string "DeleteStatement"),
        ("table", .string (tableToString table))]) whereClause
  | .dropTable table =>
      return .object [("node_type", .string "DropTableStatement"),
        ("table", .string (tableToString table))]

/-! ## Decoding -/

def literalTypeFromString (value : String) : LiteralType :=
  if value = "int" then .integer else if value = "string" then .string else .null

def aggregateFromName (name : String) : AggregateFunction :=
  if name = "SUM" then .sum else if name = "COUNT" then .count else .avg

def comparisonOperatorFromName (op : String) : ComparisonOperator :=
  if op = "=" ∨ op = "==" then .equal
  else if op = "!=" then .notEqual
  else if op = "<" then .less
  else if op = ">" then .greater
  else if op = "<=" then .lessEqual
  else .greaterEqual

def columnTypeFromName (value : String) : ColumnType := if value = "int" then .int else .string

def tableFromString (value : String) : TableRef :=
  match value.toList.dropWhile (· != '.') with
  | [] => { table := value }
  | _ :: rest =>
      { database := String.ofList (value.toList.takeWhile (· != '.')), table := String.ofList rest }

def literalFromJson (json : Json) : Except String Literal :=
  match json with
  | .null => return ⟨.null, "NULL"⟩
  | .integer n => return ⟨.integer, toString (toInt n)⟩
  | .object _ => do
      match literalTypeFromString (← json.valueString "data_type" "string") with
      | .null => return ⟨.null, "NULL"⟩
      | .integer =>
          match json.find "value" with
          | some (.integer n) => return ⟨.integer, toString (toInt n)⟩
          | _ => return ⟨.integer, ← json.valueString "value" "0"⟩
      | .string => return ⟨.string, ← json.valueString "value" ""⟩
  | json => return ⟨.string, ← json.getString⟩

def expressionFromJson (json : Json) : Except String Expression := do
  let type ← json.valueString "node_type" ""
  if type = "Identifier" then return .identifier (← json.valueString "value" "")
  else if type = "AggregateFunction" then
    let function := aggregateFromName (← json.valueString "function" "SUM")
    let argument ← json.value .ok "argument" (.object [])
    return .aggregate function (← argument.valueString "value" "")
  else return .literal (← literalFromJson json)

/-- What `at` returns is a part of the value. -/
theorem sizeOf_lt_of_get {json : Json} {key : String} {v : Json} (h : json.get key = .ok v) :
    sizeOf v < sizeOf json := by
  cases json with
  | object members =>
      have hmem : (key, v) ∈ members := by
        rw [Json.get] at h
        split at h
        · rename_i hlookup
          cases h
          obtain ⟨l₁, l₂, rfl, -⟩ := List.lookup_eq_some_iff.1 hlookup
          simp
        · cases h
      have hsize := List.sizeOf_lt_of_mem hmem
      simp only [Prod.mk.sizeOf_spec, Json.object.sizeOf_spec] at hsize ⊢
      omega
  | _ => simp [Json.get] at h

/-- `json.at(key)`, with the proof that it is smaller. -/
def part (json : Json) (key : String) : Except String {v : Json // sizeOf v < sizeOf json} :=
  match h : json.get key with
  | .ok v => .ok ⟨v, sizeOf_lt_of_get h⟩
  | .error e => .error e

def conditionFromJson (json : Json) : Except String Condition := do
  let type ← json.valueString "node_type" ""
  if type = "BetweenExpression" then
    return .between (← expressionFromJson (← json.get "value"))
      (← expressionFromJson (← json.get "lower")) (← expressionFromJson (← json.get "upper"))
  else if type = "BinaryExpression" then
    let op ← json.valueString "operator" ""
    if op = "AND" then
      let left ← part json "left"
      let right ← part json "right"
      return .and (← conditionFromJson left.val) (← conditionFromJson right.val)
    else if op = "OR" then
      let left ← part json "left"
      let right ← part json "right"
      return .or (← conditionFromJson left.val) (← conditionFromJson right.val)
    else if op = "LIKE" then
      let pattern ← literalFromJson (← json.get "right")
      return .like (← expressionFromJson (← json.get "left")) pattern.value
    else
      return .comparison (← expressionFromJson (← json.get "left"))
        (comparisonOperatorFromName op) (← expressionFromJson (← json.get "right"))
  else
    return .comparison (← expressionFromJson (← json.get "left")) .equal
      (← expressionFromJson (← json.get "right"))
termination_by sizeOf json
decreasing_by
  all_goals first | exact left.property | exact right.property

/-- `if (json.contains(key) && json[key].is_array())`, and the elements then. -/
def arrayMember (json : Json) (key : String) : List Json :=
  match json.find key with
  | some (.array elements) => elements
  | _ => []

/-- What a range-based `for` over a JSON value visits. -/
def elements : Json → List Json
  | .array elements => elements
  | .object members => members.map Prod.snd
  | .null => []
  | json => [json]

def columnFromJson (json : Json) : Except String ColumnDef := do
  let name ← json.valueString "name" ""
  let columnType := columnTypeFromName (← json.valueString "data_type" "string")
  let modifiers ← (arrayMember json "modifiers").mapM Json.getString
  let defaultValue ← (json.find "default_value").mapM literalFromJson
  return { name, columnType, notNull := modifiers.contains "NOT_NULL",
           indexed := modifiers.contains "INDEXED", defaultValue }

def selectItemFromJson (json : Json) : Except String SelectItem := do
  let expr ← expressionFromJson json
  return { expr, aliasName := ← json.valueString "alias" "" }

/-- One round of the loop over the projections. -/
def projectionFromJson (result : Bool × List SelectItem) (projection : Json) :
    Except String (Bool × List SelectItem) := do
  if (← projection.valueString "node_type" "") = "Wildcard" then return (true, result.2)
  else return (result.1, result.2 ++ [← selectItemFromJson projection])

def assignmentFromJson (item : Json) : Except String (String × Expression) := do
  return (← item.valueString "column" "", ← expressionFromJson (← item.get "value"))

/-- `if (json.contains("where_clause")) where = ConditionFromJson(json["where_clause"]);` -/
def whereClauseFromJson (json : Json) : Except String (Option Condition) :=
  (json.find "where_clause").mapM conditionFromJson

/-- `TableFromString(json.value("table", ""))`. -/
def tableFromJson (json : Json) : Except String TableRef :=
  return tableFromString (← json.valueString "table" "")

def deserializeAst (json : Json) : Except String Statement := do
  let type ← json.valueString "node_type" ""
  if type = "CreateDatabaseStatement" then
    return .createDatabase (← json.valueString "database" "")
  else if type = "DropDatabaseStatement" then
    return .dropDatabase (← json.valueString "database" "")
  else if type = "UseDatabaseStatement" then
    return .useDatabase (← json.valueString "database" "")
  else if type = "CreateUserStatement" then
    return .createUser (← json.valueString "username" "") ""
  else if type = "GrantStatement" then
    return .grant (← json.value Json.getStrings "permissions" [])
      (tableFromString (← json.valueString "scope" "*.*")) (← json.valueString "username" "")
  else if type = "RevokeStatement" then
    return .revoke (← json.value Json.getStrings "permissions" [])
      (tableFromString (← json.valueString "scope" "*.*")) (← json.valueString "username" "")
  else if type = "CreateTableStatement" then
    let columns ← (arrayMember json "columns").mapM columnFromJson
    return .createTable (← tableFromJson json) columns
  else if type = "SelectStatement" then
    let (selectAll, items) ← (arrayMember json "projections").foldlM projectionFromJson (false, [])
    let whereClause ← whereClauseFromJson json
    return .select selectAll items (← tableFromJson json) whereClause
  else if type = "RevertStatement" then
    return .revert (← tableFromJson json) (← json.valueString "target_timestamp" "")
  else if type = "InsertStatement" then
    let values ← (arrayMember json "values").mapM fun row => (elements row).mapM literalFromJson
    return .insert (← tableFromJson json) (← json.value Json.getStrings "columns" []) values
  else if type = "UpdateStatement" then
    let assignments ← (arrayMember json "assignments").mapM assignmentFromJson
    let whereClause ← whereClauseFromJson json
    return .update (← tableFromJson json) assignments whereClause
  else if type = "DeleteStatement" then
    let whereClause ← whereClauseFromJson json
    return .delete (← tableFromJson json) whereClause
  else if type = "DropTableStatement" then
    return .dropTable (← tableFromJson json)
  else return .select false [] { table := "" } none

end QuasarDB.Server
