import QuasarDB.Library.TokenReader
import QuasarDB.Server.Ast
import QuasarDB.Server.Lexer

set_option autoImplicit false

/-! # The parser

`parser.cpp`. The state of a parser is the list of tokens from `pos_` on; lines and columns are never
read. Every `Match` of the source is followed by an `Advance` when it holds, so the two are
`accept`. -/

namespace QuasarDB.Server

abbrev Parser (α : Type) : Type := TokenReader Lexeme α

namespace Parser

open TokenReader

/-- `Match(type, value)`: an empty value stands for any. No caller asks for the end of file. -/
def matchToken (type : TokenType) (value : String) (token : Lexeme) : Bool :=
  token.type == type && (value == "" || token.value == value)

/-- `Peek`. -/
def peek : Parser Lexeme := do
  return (← get).headD ⟨.endOfFile, ""⟩

/-- `IsAtEnd`. -/
def isAtEnd : Parser Bool := do
  return (← peek).type == .endOfFile

/-- `if (Match(type, value)) Advance();` -/
def accept (type : TokenType) (value : String := "") : Parser (Option Lexeme) :=
  takeIf (matchToken type value)

def acceptPunctuation (value : String) : Parser Bool := do
  return (← accept .punctuation value).isSome

def acceptKeyword (value : String) : Parser Bool := do
  return (← accept .keyword value).isSome

/-- `if (!Match(type, value)) throw ParseError(what); return Advance().value;` -/
def expect (type : TokenType) (value : String) (what : Lexeme → String) : Parser String := do
  match ← accept type value with
  | some token => return token.value
  | none => throw (.exception (what (← peek)))

def expectPunctuation (punctuation : String) : Parser String :=
  expect .punctuation punctuation
    (fun got => "Expected '" ++ punctuation ++ "', got: " ++ got.value)

def expectOperator (op : String) : Parser String :=
  expect .operator op (fun got => "Expected operator '" ++ op ++ "', got: " ++ got.value)

def expectKeyword (keyword : String) : Parser String :=
  expect .keyword keyword (fun got => "Expected keyword '" ++ keyword ++ "', got: " ++ got.value)

def parseIdentifier : Parser String :=
  expect .identifier "" (fun got => "Expected identifier, got: " ++ got.value)

/-- One item, and further ones as long as a comma follows. -/
def commaSeparated {α : Type} (item : Parser α) : Parser (List α) :=
  separated (matchToken .punctuation ",") item

/-! ## Names, scopes and timestamps -/

def parseTableRef : Parser TableRef := do
  let first ← parseIdentifier
  if ← acceptPunctuation "." then
    let second ← parseIdentifier
    return { database := first, table := second }
  return { table := first }

/-- `parse_part` of `ParseAccessScope`. -/
def parseScopePart : Parser String := do
  match ← accept .operator "*" with
  | some _ => return "*"
  | none => parseIdentifier

def parseAccessScope : Parser TableRef := do
  let first ← parseScopePart
  if ← acceptPunctuation "." then
    let second ← parseScopePart
    return { database := first, table := second }
  return { database := first, table := "*" }

def isPermission (token : Lexeme) : Bool :=
  matchToken .keyword "READ" token || matchToken .keyword "WRITE" token ||
    matchToken .keyword "CREATE" token || matchToken .keyword "DELETE" token

def parsePermission : Parser String := do
  match ← takeIf isPermission with
  | some token => return token.value
  | none => throw (.exception "Expected permission READ, WRITE, CREATE, or DELETE")

def parsePermissions : Parser (List String) := commaSeparated parsePermission

def parseTimestampPart (name : String) (expectedLength : Nat) : Parser String := do
  let value ← expect .integerLiteral ""
    (fun got => "Expected " ++ name ++ " in timestamp, got: " ++ got.value)
  if value.length ≠ expectedLength then
    throw (.exception ("Expected " ++ toString expectedLength ++ " digits for " ++ name ++
      " in timestamp"))
  return value

def parseTimestamp : Parser String := do
  let year ← parseTimestampPart "year" 4
  let _ ← expectPunctuation "."
  let month ← parseTimestampPart "month" 2
  let _ ← expectPunctuation "."
  let day ← parseTimestampPart "day" 2
  let _ ← expectPunctuation "-"
  let hour ← parseTimestampPart "hour" 2
  let _ ← expectPunctuation ":"
  let minute ← parseTimestampPart "minute" 2
  let _ ← expectPunctuation ":"
  let second ← parseTimestampPart "second" 2
  let _ ← expectPunctuation "."
  let millisecond ← parseTimestampPart "millisecond" 3
  return year ++ "." ++ month ++ "." ++ day ++ "-" ++ hour ++ ":" ++ minute ++ ":" ++ second ++
    "." ++ millisecond

/-! ## Expressions and conditions -/

def parseLiteral : Parser Literal := do
  match ← accept .stringLiteral with
  | some token => return ⟨.string, token.value⟩
  | none =>
    match ← accept .integerLiteral with
    | some token => return ⟨.integer, token.value⟩
    | none =>
      match ← accept .keyword "NULL" with
      | some _ => return ⟨.null, "NULL"⟩
      | none => throw (.exception ("Expected literal, got: " ++ (← peek).value))

def parseValue : Parser Expression := do
  match ← accept .identifier with
  | some token => return .identifier token.value
  | none => return .literal (← parseLiteral)

def isAggregate (token : Lexeme) : Bool :=
  matchToken .keyword "SUM" token || matchToken .keyword "COUNT" token ||
    matchToken .keyword "AVG" token

def parseAggregateFunction (func : String) : Parser AggregateFunction :=
  if func = "SUM" then return .sum
  else if func = "COUNT" then return .count
  else if func = "AVG" then return .avg
  else throw (.exception ("Unknown aggregate function: " ++ func))

def parseExpression : Parser Expression := do
  match ← takeIf isAggregate with
  | some func =>
    let _ ← expectPunctuation "("
    let column ← parseIdentifier
    let _ ← expectPunctuation ")"
    let function ← parseAggregateFunction func.value
    return .aggregate function column
  | none => parseValue

def parseComparisonOperator (op : String) : Parser ComparisonOperator :=
  if op = "==" then return .equal
  else if op = "!=" then return .notEqual
  else if op = "<" then return .less
  else if op = ">" then return .greater
  else if op = "<=" then return .lessEqual
  else if op = ">=" then return .greaterEqual
  else throw (.exception ("Unknown operator: " ++ op))

/-- `ParseAndCondition`, over the parser of its operands. -/
def parseAndCondition (parsePredicate : Parser Condition) : Parser Condition := do
  let left ← parsePredicate
  loop (matchToken .keyword "AND") (fun left => do return .and left (← parsePredicate)) left

/-- `ParseOrCondition`. -/
def parseOrCondition (parsePredicate : Parser Condition) : Parser Condition := do
  let left ← parseAndCondition parsePredicate
  loop (matchToken .keyword "OR")
    (fun left => do return .or left (← parseAndCondition parsePredicate)) left

/-- The branches of `ParsePredicate` after a value. -/
def parsePredicateTail (value : Expression) : Parser Condition := do
  if ← acceptKeyword "BETWEEN" then
    let lower ← parseValue
    let _ ← expectKeyword "AND"
    let upper ← parseValue
    return .between value lower upper
  if ← acceptKeyword "LIKE" then
    let pattern ← expect .stringLiteral "" (fun _ => "Expected string literal after LIKE")
    return .like value pattern
  match ← accept .operator with
  | some op =>
    let right ← parseValue
    return .comparison value (← parseComparisonOperator op.value) right
  | none => throw (.exception "Expected comparison operator, BETWEEN, or LIKE")

/-- `ParsePredicate`, with a bound on the depth of parentheses. -/
def parsePredicate : Nat → Parser Condition
  | 0 => throw .endless
  | depth + 1 => do
    if ← acceptPunctuation "(" then
      let condition ← parseOrCondition (parsePredicate depth)
      let _ ← expectPunctuation ")"
      return condition
    let value ← parseValue
    parsePredicateTail value

/-- `ParseCondition`. Every parenthesis takes a token. -/
def parseCondition : Parser Condition := do
  let tokens ← get
  parseOrCondition (parsePredicate (tokens.length + 1))

/-! ## Statements -/

def isColumnType (token : Lexeme) : Bool :=
  matchToken .keyword "INT" token || matchToken .keyword "STRING" token

def parseColumnDefinition : Parser ColumnDef := do
  let name ← parseIdentifier
  match ← takeIf isColumnType with
  | none => throw (.exception "Expected column type (INT or STRING)")
  | some type =>
    let columnType := if type.value = "INT" then ColumnType.int else ColumnType.string
    let notNull ← acceptKeyword "NOT_NULL"
    let indexed ← acceptKeyword "INDEXED"
    if ← acceptKeyword "DEFAULT" then
      let literal ← parseLiteral
      return { name, columnType, notNull, indexed, defaultValue := some literal }
    return { name, columnType, notNull, indexed }

def parseCreateStatement : Parser Statement := do
  let _ ← expectKeyword "CREATE"
  if ← acceptKeyword "DATABASE" then
    return .createDatabase (← parseIdentifier)
  if ← acceptKeyword "USER" then
    let username ← parseIdentifier
    let _ ← expectKeyword "PASSWORD"
    let password ← expect .stringLiteral "" (fun _ => "Expected password string literal")
    return .createUser username password
  if ← acceptKeyword "TABLE" then
    let table ← parseTableRef
    let _ ← expectPunctuation "("
    let columns ← commaSeparated parseColumnDefinition
    let _ ← expectPunctuation ")"
    return .createTable table columns
  throw (.exception "Expected DATABASE or TABLE after CREATE")

def parseGrantStatement : Parser Statement := do
  let _ ← expectKeyword "GRANT"
  let permissions ← parsePermissions
  let _ ← expectKeyword "ON"
  let scope ← parseAccessScope
  let _ ← expectKeyword "TO"
  return .grant permissions scope (← parseIdentifier)

def parseRevokeStatement : Parser Statement := do
  let _ ← expectKeyword "REVOKE"
  let permissions ← parsePermissions
  let _ ← expectKeyword "ON"
  let scope ← parseAccessScope
  let _ ← expectKeyword "FROM"
  return .revoke permissions scope (← parseIdentifier)

def parseDropStatement : Parser Statement := do
  let _ ← expectKeyword "DROP"
  if ← acceptKeyword "DATABASE" then
    return .dropDatabase (← parseIdentifier)
  if ← acceptKeyword "TABLE" then
    return .dropTable (← parseTableRef)
  throw (.exception "Expected DATABASE or TABLE after DROP")

def parseUseStatement : Parser Statement := do
  let _ ← expectKeyword "USE"
  return .useDatabase (← parseIdentifier)

def parseRevertStatement : Parser Statement := do
  let _ ← expectKeyword "REVERT"
  let table ← parseTableRef
  return .revert table (← parseTimestamp)

/-- The body of the `VALUE` loop, with the comma it skips. -/
def parseRow : Parser (List Literal) := do
  let _ ← acceptPunctuation ","
  let _ ← expectPunctuation "("
  let row ← commaSeparated parseLiteral
  let _ ← expectPunctuation ")"
  return row

/-- `do { parseRow } while (Match(","));`. The comma the condition sees is left to the body, so a
    round that starts with one always takes a token. -/
def parseRows : Nat → List (List Literal) → Parser (List (List Literal))
  | 0, _ => throw .endless
  | rounds + 1, values => do
    let row ← parseRow
    let tokens ← get
    if tokens.head?.any (matchToken .punctuation ",") then parseRows rounds (values ++ [row])
    else return values ++ [row]

def parseInsertStatement : Parser Statement := do
  let _ ← expectKeyword "INSERT"
  let _ ← expectKeyword "INTO"
  let table ← parseTableRef
  let _ ← expectPunctuation "("
  let columns ← commaSeparated parseIdentifier
  let _ ← expectPunctuation ")"
  let _ ← expectKeyword "VALUE"
  let tokens ← get
  let values ← parseRows (tokens.length + 1) []
  return .insert table columns values

def parseAssignment : Parser (String × Expression) := do
  let column ← parseIdentifier
  let _ ← expectOperator "="
  return (column, ← parseValue)

def parseUpdateStatement : Parser Statement := do
  let _ ← expectKeyword "UPDATE"
  let table ← parseTableRef
  let _ ← expectKeyword "SET"
  let assignments ← commaSeparated parseAssignment
  let _ ← expectKeyword "WHERE"
  return .update table assignments (some (← parseCondition))

def parseDeleteStatement : Parser Statement := do
  let _ ← expectKeyword "DELETE"
  let _ ← expectKeyword "FROM"
  let table ← parseTableRef
  let _ ← expectKeyword "WHERE"
  return .delete table (some (← parseCondition))

def parseSelectItem : Parser SelectItem := do
  let expr ← parseExpression
  if ← acceptKeyword "AS" then
    return { expr, aliasName := ← parseIdentifier }
  return { expr }

/-- The select list: `*`, or items. -/
def parseSelectList : Parser (Bool × List SelectItem) := do
  match ← accept .operator "*" with
  | some _ => return (true, [])
  | none => return (false, ← commaSeparated parseSelectItem)

def parseWhereClause : Parser (Option Condition) := do
  if ← acceptKeyword "WHERE" then
    return some (← parseCondition)
  return none

def parseSelectStatement : Parser Statement := do
  let _ ← expectKeyword "SELECT"
  let (selectAll, items) ← parseSelectList
  let _ ← expectKeyword "FROM"
  let table ← parseTableRef
  return .select selectAll items table (← parseWhereClause)

/-- The productions `ParseStatement` chooses from by the first keyword. -/
def parseByKeyword (keyword : String) : Parser Statement :=
  if keyword = "CREATE" then parseCreateStatement
  else if keyword = "DROP" then parseDropStatement
  else if keyword = "USE" then parseUseStatement
  else if keyword = "GRANT" then parseGrantStatement
  else if keyword = "REVOKE" then parseRevokeStatement
  else if keyword = "REVERT" then parseRevertStatement
  else if keyword = "INSERT" then parseInsertStatement
  else if keyword = "UPDATE" then parseUpdateStatement
  else if keyword = "DELETE" then parseDeleteStatement
  else if keyword = "SELECT" then parseSelectStatement
  else throw (.exception ("Unknown statement: " ++ keyword))

/-- The end of `ParseStatement`: an optional `;` and nothing more. -/
def parseEnd (stmt : Statement) : Parser Statement := do
  let _ ← acceptPunctuation ";"
  if ← isAtEnd then return stmt
  else throw (.exception ("Unexpected tokens after statement: " ++ (← peek).value))

def parseStatement : Parser Statement := do
  if ← isAtEnd then throw (.exception "Unexpected end of input")
  else
    let current ← peek
    if current.type ≠ .keyword then
      throw (.exception ("Expected statement, got: " ++ current.value))
    else
      let stmt ← parseByKeyword current.value
      parseEnd stmt

end Parser

/-- `Parser(tokens).ParseStatement()`. -/
def parse (tokens : List Token) : Except Failure Statement :=
  match Parser.parseStatement (tokens.map Token.toLexeme) with
  | .ok statement _ => .ok statement
  | .error failure _ => .error failure

end QuasarDB.Server
