import QuasarDB.Library.TokenReader
import QuasarDB.Server.Lexer

set_option autoImplicit false

/-! # The grammar of the query language

`docs/GRAMMAR.md` over tokens, in its order and under its names, with the access statements the
document leaves out. The lexical rules are the token types: a `<digit>`-sequence of a timestamp is an
integer literal of that length. -/

namespace QuasarDB.Server

namespace Grammar

open TokenReader

/-- A terminal. -/
def terminal (type : TokenType) (value : String) : Language Lexeme := {[⟨type, value⟩]}

def keyword (value : String) : Language Lexeme := terminal .keyword value

def punctuation (value : String) : Language Lexeme := terminal .punctuation value

/-- Any token of a type. -/
def anyOf (type : TokenType) : Language Lexeme := {w | ∃ value, w = [⟨type, value⟩]}

/-- `A { "," A }`. -/
def commaList (A : Language Lexeme) : Language Lexeme := separatedBy (punctuation ",") A

/-! ## Lexical rules -/

def identifier : Language Lexeme := anyOf .identifier

def tableRef : Language Lexeme := identifier * opt (punctuation "." * identifier)

def stringLit : Language Lexeme := anyOf .stringLiteral

def integerLit : Language Lexeme := anyOf .integerLiteral

def literal : Language Lexeme := stringLit + integerLit + keyword "NULL"

def value : Language Lexeme := identifier + literal

def colType : Language Lexeme := keyword "INT" + keyword "STRING"

/-! ## Database statements -/

def createDb : Language Lexeme := keyword "CREATE" * keyword "DATABASE" * identifier

def dropDb : Language Lexeme := keyword "DROP" * keyword "DATABASE" * identifier

def useDb : Language Lexeme := keyword "USE" * identifier

/-- `<digit>` a number of times. -/
def digits (count : Nat) : Language Lexeme :=
  {w | ∃ value : String, value.length = count ∧ w = [⟨.integerLiteral, value⟩]}

def timestamp : Language Lexeme :=
  digits 4 * punctuation "." * digits 2 * punctuation "." * digits 2 * punctuation "-" *
    digits 2 * punctuation ":" * digits 2 * punctuation ":" * digits 2 * punctuation "." * digits 3

def revertStmt : Language Lexeme := keyword "REVERT" * tableRef * timestamp

def dbStmt : Language Lexeme := createDb + dropDb + useDb + revertStmt

/-! ## DDL statements -/

def colDef : Language Lexeme :=
  identifier * colType * opt (keyword "NOT_NULL") * opt (keyword "INDEXED") *
    opt (keyword "DEFAULT" * literal)

def createTable : Language Lexeme :=
  keyword "CREATE" * keyword "TABLE" * tableRef * punctuation "(" * commaList colDef *
    punctuation ")"

def dropTable : Language Lexeme := keyword "DROP" * keyword "TABLE" * tableRef

def ddlStmt : Language Lexeme := createTable + dropTable

/-! ## Conditions -/

/-- `<cmp_op>`. -/
def cmpOp : Language Lexeme :=
  terminal .operator "==" + terminal .operator "!=" + terminal .operator "<" +
    terminal .operator ">" + terminal .operator "<=" + terminal .operator ">="

def comparison : Language Lexeme := value * cmpOp * value

def betweenPred : Language Lexeme :=
  value * keyword "BETWEEN" * value * keyword "AND" * value

def likePred : Language Lexeme := value * keyword "LIKE" * stringLit

mutual

/-- `<or_expr>`, with its repetition as left recursion. -/
inductive OrExpr : List Lexeme → Prop where
  | operand {a : List Lexeme} (ha : AndExpr a) : OrExpr a
  | or {a b : List Lexeme} (ha : OrExpr a) (hb : AndExpr b) : OrExpr (a ++ ⟨.keyword, "OR"⟩ :: b)

/-- `<and_expr>`. -/
inductive AndExpr : List Lexeme → Prop where
  | operand {a : List Lexeme} (ha : Predicate a) : AndExpr a
  | and {a b : List Lexeme} (ha : AndExpr a) (hb : Predicate b) :
      AndExpr (a ++ ⟨.keyword, "AND"⟩ :: b)

/-- `<predicate>`. -/
inductive Predicate : List Lexeme → Prop where
  | parentheses {a : List Lexeme} (ha : OrExpr a) :
      Predicate (⟨.punctuation, "("⟩ :: (a ++ [⟨.punctuation, ")"⟩]))
  | between {a : List Lexeme} (ha : a ∈ betweenPred) : Predicate a
  | like {a : List Lexeme} (ha : a ∈ likePred) : Predicate a
  | comparison {a : List Lexeme} (ha : a ∈ Grammar.comparison) : Predicate a

end

def condition : Language Lexeme := {w | OrExpr w}

/-! ## DML statements -/

def rowValues : Language Lexeme := punctuation "(" * commaList literal * punctuation ")"

/-- `<insert_stmt>` up to and with its `VALUE`. -/
def insertHead : Language Lexeme :=
  keyword "INSERT" * keyword "INTO" * tableRef * punctuation "(" * commaList identifier *
    punctuation ")" * keyword "VALUE"

/-- `<insert_stmt>` with something before its rows. -/
def insertStmtOf (lead : Language Lexeme) : Language Lexeme :=
  insertHead * lead * commaList rowValues

def insertStmt : Language Lexeme := insertStmtOf 1

def assignment : Language Lexeme := identifier * terminal .operator "=" * value

def updateStmt : Language Lexeme :=
  keyword "UPDATE" * tableRef * keyword "SET" * commaList assignment * keyword "WHERE" * condition

def deleteStmt : Language Lexeme :=
  keyword "DELETE" * keyword "FROM" * tableRef * keyword "WHERE" * condition

def aggregate : Language Lexeme :=
  (keyword "SUM" + keyword "COUNT" + keyword "AVG") * punctuation "(" * identifier *
    punctuation ")"

/-- `<select_item>` over what may be selected. -/
def selectItemOf (selected : Language Lexeme) : Language Lexeme :=
  (aggregate + selected) * opt (keyword "AS" * identifier)

/-- `<select_list>` over what may be selected. -/
def selectListOf (selected : Language Lexeme) : Language Lexeme :=
  terminal .operator "*" + commaList (selectItemOf selected)

/-- `<select_stmt>` over what may be selected. -/
def selectStmtOf (selected : Language Lexeme) : Language Lexeme :=
  keyword "SELECT" * selectListOf selected * keyword "FROM" * tableRef *
    opt (keyword "WHERE" * condition)

def selectStmt : Language Lexeme := selectStmtOf identifier

/-! ## Access statements -/

def createUser : Language Lexeme :=
  keyword "CREATE" * keyword "USER" * identifier * keyword "PASSWORD" * stringLit

def permission : Language Lexeme :=
  keyword "READ" + keyword "WRITE" + keyword "CREATE" + keyword "DELETE"

def scopePart : Language Lexeme := terminal .operator "*" + identifier

def accessScope : Language Lexeme := scopePart * opt (punctuation "." * scopePart)

def grantStmt : Language Lexeme :=
  keyword "GRANT" * commaList permission * keyword "ON" * accessScope * keyword "TO" * identifier

def revokeStmt : Language Lexeme :=
  keyword "REVOKE" * commaList permission * keyword "ON" * accessScope * keyword "FROM" *
    identifier

def accessStmt : Language Lexeme := createUser + grantStmt + revokeStmt

/-! ## Statements -/

/-- `<statement>` with its `";"` optional, over what may precede the rows of an `INSERT` and what
    may be selected. -/
def statementOf (lead selected : Language Lexeme) : Language Lexeme :=
  (dbStmt + ddlStmt + (insertStmtOf lead + updateStmt + deleteStmt + selectStmtOf selected) +
    accessStmt) * opt (punctuation ";")

def statement : Language Lexeme := statementOf 1 identifier

end Grammar

end QuasarDB.Server
