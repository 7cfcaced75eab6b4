import QuasarDB.Server.Ast
import QuasarDB.Server.Lexer

set_option autoImplicit false

/-! # Rendering a statement

A statement is written down in the syntax of `docs/GRAMMAR.md` in two steps: as a list of tokens,
with parentheses only where precedence and left associativity need them, and as a text in which the
tokens are spelled one after the other. A text may put any white space between tokens, as long as
two that would run into each other are kept apart, and may write keywords in any case. -/

namespace QuasarDB.Server

namespace Printer

def keyword (value : String) : Lexeme := ⟨.keyword, value⟩

def punctuation (value : String) : Lexeme := ⟨.punctuation, value⟩

def operator (value : String) : Lexeme := ⟨.operator, value⟩

def identifier (name : String) : Lexeme := ⟨.identifier, name⟩

/-- Items with a separator between them. -/
def joined {α : Type} (separator : Lexeme) (item : α → List Lexeme) : List α → List Lexeme
  | [] => []
  | a :: as => item a ++ as.flatMap (fun b => separator :: item b)

def commaList {α : Type} (item : α → List Lexeme) (as : List α) : List Lexeme :=
  joined (punctuation ",") item as

/-! ## Names, scopes and timestamps -/

def tableRef (table : TableRef) : List Lexeme :=
  if table.database = "" then [identifier table.table]
  else [identifier table.database, punctuation ".", identifier table.table]

def scopePart (part : String) : Lexeme := if part = "*" then operator "*" else identifier part

def accessScope (scope : TableRef) : List Lexeme :=
  [scopePart scope.database, punctuation ".", scopePart scope.table]

def permission (name : String) : List Lexeme := [keyword name]

/-- The digits of a timestamp from place `start` on. -/
def timestampPart (timestamp : String) (start length : Nat) : Lexeme :=
  ⟨.integerLiteral, String.ofList ((timestamp.toList.drop start).take length)⟩

def timestamp (t : String) : List Lexeme :=
  [timestampPart t 0 4, punctuation ".", timestampPart t 5 2, punctuation ".",
    timestampPart t 8 2, punctuation "-", timestampPart t 11 2, punctuation ":",
    timestampPart t 14 2, punctuation ":", timestampPart t 17 2, punctuation ".",
    timestampPart t 20 3]

/-! ## Expressions and conditions -/

def literal (l : Literal) : Lexeme :=
  match l.literalType with
  | .string => ⟨.stringLiteral, l.value⟩
  | .integer => ⟨.integerLiteral, l.value⟩
  | .null => keyword "NULL"

def aggregateName : AggregateFunction → String
  | .sum => "SUM"
  | .count => "COUNT"
  | .avg => "AVG"

def expression : Expression → List Lexeme
  | .identifier name => [identifier name]
  | .literal l => [literal l]
  | .aggregate function column =>
      [keyword (aggregateName function), punctuation "(", identifier column, punctuation ")"]

def comparisonOperator : ComparisonOperator → String
  | .equal => "=="
  | .notEqual => "!="
  | .less => "<"
  | .greater => ">"
  | .lessEqual => "<="
  | .greaterEqual => ">="

/-- Where a condition stands: alone or left of `OR`, as an operand of `OR` or left of `AND`, or as
    an operand of `AND`. -/
inductive Level where
  | orExpr
  | andExpr
  | predicate
  deriving DecidableEq

def parenthesized (w : List Lexeme) : List Lexeme := punctuation "(" :: (w ++ [punctuation ")"])

/-- An `OR` is put in parentheses right of an `OR` and as an operand of `AND`, an `AND` right of an
    `AND`. -/
def condition : Level → Condition → List Lexeme
  | _, .comparison left op right =>
      expression left ++ operator (comparisonOperator op) :: expression right
  | _, .between value lower upper =>
      expression value ++ keyword "BETWEEN" :: expression lower ++
        keyword "AND" :: expression upper
  | _, .like value pattern => expression value ++ [keyword "LIKE", ⟨.stringLiteral, pattern⟩]
  | level, .and left right =>
      let w := condition .andExpr left ++ keyword "AND" :: condition .predicate right
      if level = .predicate then parenthesized w else w
  | level, .or left right =>
      let w := condition .orExpr left ++ keyword "OR" :: condition .andExpr right
      if level = .orExpr then w else parenthesized w

def whereClause : Option Condition → List Lexeme
  | none => []
  | some c => keyword "WHERE" :: condition .orExpr c

/-! ## Statements -/

def columnType : ColumnType → Lexeme
  | .int => keyword "INT"
  | .string => keyword "STRING"

def flag (b : Bool) (name : String) : List Lexeme := if b then [keyword name] else []

def columnDef (column : ColumnDef) : List Lexeme :=
  identifier column.name :: columnType column.columnType :: (flag column.notNull "NOT_NULL" ++
    flag column.indexed "INDEXED" ++
    match column.defaultValue with
    | none => []
    | some l => [keyword "DEFAULT", literal l])

def row (literals : List Literal) : List Lexeme :=
  punctuation "(" :: (commaList (fun l => [literal l]) literals ++ [punctuation ")"])

def assignment (a : String × Expression) : List Lexeme :=
  identifier a.1 :: operator "=" :: expression a.2

def selectItem (item : SelectItem) : List Lexeme :=
  expression item.expr ++
    if item.aliasName = "" then [] else [keyword "AS", identifier item.aliasName]

def selectList (selectAll : Bool) (items : List SelectItem) : List Lexeme :=
  if selectAll then [operator "*"] else commaList selectItem items

/-- The tokens of a statement without the final `;`. -/
def statement : Statement → List Lexeme
  | .createDatabase name => [keyword "CREATE", keyword "DATABASE", identifier name]
  | .dropDatabase name => [keyword "DROP", keyword "DATABASE", identifier name]
  | .useDatabase name => [keyword "USE", identifier name]
  | .createUser username password =>
      [keyword "CREATE", keyword "USER", identifier username, keyword "PASSWORD",
        ⟨.stringLiteral, password⟩]
  | .grant permissions scope username =>
      keyword "GRANT" :: (commaList permission permissions ++ keyword "ON" :: (accessScope scope ++
        [keyword "TO", identifier username]))
  | .revoke permissions scope username =>
      keyword "REVOKE" :: (commaList permission permissions ++ keyword "ON" ::
        (accessScope scope ++ [keyword "FROM", identifier username]))
  | .revert table t => keyword "REVERT" :: (tableRef table ++ timestamp t)
  | .createTable table columns =>
      keyword "CREATE" :: keyword "TABLE" :: (tableRef table ++ punctuation "(" ::
        (commaList columnDef columns ++ [punctuation ")"]))
  | .dropTable table => keyword "DROP" :: keyword "TABLE" :: tableRef table
  | .insert table columns values =>
      keyword "INSERT" :: keyword "INTO" :: (tableRef table ++ punctuation "(" ::
        (commaList (fun name => [identifier name]) columns ++ punctuation ")" ::
          keyword "VALUE" :: commaList row values))
  | .update table assignments whereClause =>
      keyword "UPDATE" :: (tableRef table ++ keyword "SET" ::
        (commaList assignment assignments ++ Printer.whereClause whereClause))
  | .delete table whereClause =>
      keyword "DELETE" :: keyword "FROM" :: (tableRef table ++ Printer.whereClause whereClause)
  | .select selectAll items table whereClause =>
      keyword "SELECT" :: (selectList selectAll items ++ keyword "FROM" ::
        (tableRef table ++ Printer.whereClause whereClause))

end Printer

/-! ## Texts -/

/-- `w` is a way to write the token. -/
def Lexeme.SpelledAs (t : Lexeme) (w : List Char) : Prop :=
  match t.type with
  | .keyword => Lexer.toUpper w = t.value.toList
  | .stringLiteral => w = '"' :: (t.value.toList ++ ['"'])
  | _ => w = t.value.toList

/-- The text after the token does not run on into it. -/
def Lexeme.EndsBefore (t : Lexeme) (text : List Char) : Prop :=
  ∀ c ∈ text.head?,
    match t.type with
    | .keyword => Lexer.isWordChar c = false
    | .identifier => Lexer.isWordChar c = false
    | .integerLiteral => Lexer.isDigit c = false
    | .operator => t.value.length = 1 → c ≠ '='
    | _ => True

/-- A text that spells the tokens, with white space before, between and after them. -/
inductive Spells : List Lexeme → List Char → Prop where
  | nil {space : List Char} (hspace : ∀ c ∈ space, Lexer.isSpace c = true) : Spells [] space
  | cons {t : Lexeme} {ts : List Lexeme} {space w text : List Char}
      (hspace : ∀ c ∈ space, Lexer.isSpace c = true) (hw : t.SpelledAs w)
      (hends : t.EndsBefore text) (h : Spells ts text) : Spells (t :: ts) (space ++ (w ++ text))

/-! ## What can be rendered -/

/-- An identifier lexeme that is no keyword. -/
def IsIdentifier (name : String) : Prop :=
  (∃ c rest, name.toList = c :: rest ∧ (Lexer.isAlpha c = true ∨ c = '_')) ∧
    (∀ c ∈ name.toList, Lexer.isWordChar c = true) ∧
    String.ofList (Lexer.toUpper name.toList) ∉ Lexer.keywords

instance (name : String) : Decidable (IsIdentifier name) :=
  decidable_of_iff (name.toList.head?.any (fun c => Lexer.isAlpha c || c == '_') = true ∧
    (∀ c ∈ name.toList, Lexer.isWordChar c = true) ∧
    String.ofList (Lexer.toUpper name.toList) ∉ Lexer.keywords) <| by
      unfold IsIdentifier
      cases name.toList <;> simp

def IsDigits (value : String) : Prop := value ≠ "" ∧ ∀ c ∈ value.toList, Lexer.isDigit c = true

instance (value : String) : Decidable (IsDigits value) := inferInstanceAs (Decidable (_ ∧ _))

def NoQuote (value : String) : Prop := '"' ∉ value.toList

instance (value : String) : Decidable (NoQuote value) := inferInstanceAs (Decidable (¬ _))

/-- `YYYY.MM.DD-hh:mm:ss.mmm`. -/
def IsTimestamp (t : String) : Prop :=
  ∃ year month day hour minute second millisecond : String,
    t = year ++ "." ++ month ++ "." ++ day ++ "-" ++ hour ++ ":" ++ minute ++ ":" ++ second ++
      "." ++ millisecond ∧
    (IsDigits year ∧ year.length = 4) ∧ (IsDigits month ∧ month.length = 2) ∧
    (IsDigits day ∧ day.length = 2) ∧ (IsDigits hour ∧ hour.length = 2) ∧
    (IsDigits minute ∧ minute.length = 2) ∧ (IsDigits second ∧ second.length = 2) ∧
    (IsDigits millisecond ∧ millisecond.length = 3)

def TableRef.Printable (table : TableRef) : Prop :=
  (table.database = "" ∨ IsIdentifier table.database) ∧ IsIdentifier table.table

def IsScopePart (part : String) : Prop := part = "*" ∨ IsIdentifier part

def TableRef.PrintableScope (scope : TableRef) : Prop :=
  IsScopePart scope.database ∧ IsScopePart scope.table

def Literal.Printable (l : Literal) : Prop :=
  match l.literalType with
  | .string => NoQuote l.value
  | .integer => IsDigits l.value
  | .null => l.value = "NULL"

/-- A `<value>`: the grammar has aggregates in a select list only. -/
def Expression.PrintableValue : Expression → Prop
  | .identifier name => IsIdentifier name
  | .literal l => l.Printable
  | .aggregate _ _ => False

def Condition.Printable : Condition → Prop
  | .comparison left _ right => left.PrintableValue ∧ right.PrintableValue
  | .between value lower upper =>
      value.PrintableValue ∧ lower.PrintableValue ∧ upper.PrintableValue
  | .like value pattern => value.PrintableValue ∧ NoQuote pattern
  | .and left right => left.Printable ∧ right.Printable
  | .or left right => left.Printable ∧ right.Printable

def ColumnDef.Printable (column : ColumnDef) : Prop :=
  IsIdentifier column.name ∧ ∀ l ∈ column.defaultValue, l.Printable

/-- A `<select_item>`. -/
def SelectItem.Printable (item : SelectItem) : Prop :=
  (match item.expr with
    | .identifier name => IsIdentifier name
    | .aggregate _ column => IsIdentifier column
    | .literal _ => False) ∧
  (item.aliasName = "" ∨ IsIdentifier item.aliasName)

def IsPermission (name : String) : Prop := name ∈ ["READ", "WRITE", "CREATE", "DELETE"]

/-- The statements the syntax can express: names are identifiers, lists are not empty, and only a
    `SELECT` may be without a condition. -/
def Statement.Printable : Statement → Prop
  | .createDatabase name => IsIdentifier name
  | .dropDatabase name => IsIdentifier name
  | .useDatabase name => IsIdentifier name
  | .createUser username password => IsIdentifier username ∧ NoQuote password
  | .grant permissions scope username =>
      permissions ≠ [] ∧ (∀ p ∈ permissions, IsPermission p) ∧ scope.PrintableScope ∧
        IsIdentifier username
  | .revoke permissions scope username =>
      permissions ≠ [] ∧ (∀ p ∈ permissions, IsPermission p) ∧ scope.PrintableScope ∧
        IsIdentifier username
  | .revert table t => table.Printable ∧ IsTimestamp t
  | .createTable table columns =>
      table.Printable ∧ columns ≠ [] ∧ ∀ c ∈ columns, c.Printable
  | .dropTable table => table.Printable
  | .insert table columns values =>
      table.Printable ∧ (columns ≠ [] ∧ ∀ name ∈ columns, IsIdentifier name) ∧
        values ≠ [] ∧ ∀ r ∈ values, r ≠ [] ∧ ∀ l ∈ r, l.Printable
  | .update table assignments whereClause =>
      table.Printable ∧
        (assignments ≠ [] ∧ ∀ a ∈ assignments, IsIdentifier a.1 ∧ a.2.PrintableValue) ∧
        ∃ c, whereClause = some c ∧ c.Printable
  | .delete table whereClause =>
      table.Printable ∧ ∃ c, whereClause = some c ∧ c.Printable
  | .select selectAll items table whereClause =>
      (if selectAll then items = [] else items ≠ [] ∧ ∀ i ∈ items, i.Printable) ∧
        table.Printable ∧ ∀ c ∈ whereClause, c.Printable

end QuasarDB.Server
