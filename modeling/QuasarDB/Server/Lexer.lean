import Mathlib.Algebra.Order.Ring.Int
import Mathlib.Data.List.Basic

set_option autoImplicit false

/-! # The lexer

`lexer.cpp` on the characters of the query, one for each byte: `Advance` steps from byte to byte, in UTF-8
too. None of the tests below holds of a byte outside ASCII, so outside a string literal it gives an invalid
token. Where only the kinds and the values of tokens matter, a character outside ASCII may as well stand for
all of its bytes. -/

namespace QuasarDB.Server

/-- "Every character of a list" is decided along the list, not over all characters. -/
instance decidableForallMemChar (p : Char → Prop) [DecidablePred p]
    (value : List Char) : Decidable (∀ c ∈ value, p c) :=
  List.decidableBAll p value

inductive TokenType where
  | keyword
  | identifier
  | stringLiteral
  | integerLiteral
  | operator
  | punctuation
  | endOfFile
  | invalid
  deriving DecidableEq, Repr

/-- What the parser reads of a token. -/
structure Lexeme where
  type : TokenType
  value : String
  deriving DecidableEq, Repr

/-- `line` and `column` are of type `int` in the source: a query has less than 2 GiB. -/
structure Token extends Lexeme where
  line : Nat
  column : Nat
  deriving DecidableEq, Repr

/-- A lexer: the characters from `pos_` on, and the place of `pos_`. -/
structure Lexer where
  rest : List Char
  line : Nat := 1
  column : Nat := 1

namespace Lexer

/-- `GetKeywords`. -/
def keywords : List String :=
  ["SELECT", "FROM", "WHERE", "INSERT", "INTO", "VALUE", "UPDATE", "SET", "DELETE",
    "CREATE", "DROP", "TABLE", "DATABASE", "USER", "PASSWORD", "USE", "REVERT", "INT", "STRING",
    "NOT_NULL", "INDEXED", "DEFAULT", "NULL", "AND", "OR", "BETWEEN", "LIKE", "AS", "SUM",
    "COUNT", "AVG", "GRANT", "REVOKE", "ON", "TO", "READ", "WRITE"]

/-- `std::isspace` in the "C" locale. -/
def isSpace (c : Char) : Bool := c == ' ' || (9 ≤ c.toNat && c.toNat ≤ 13)

def isDigit (c : Char) : Bool := c.isDigit

def isAlpha (c : Char) : Bool := c.isAlpha

/-- The characters of an identifier. -/
def isWordChar (c : Char) : Bool := c.isAlphanum || c == '_'

def isOperatorChar (c : Char) : Bool := c == '=' || c == '!' || c == '<' || c == '>' || c == '*'

def isPunctuationChar (c : Char) : Bool :=
  c == '(' || c == ')' || c == ',' || c == ';' || c == '.' || c == '-' || c == ':'

/-- `std::toupper` on every character. -/
def toUpper (value : List Char) : List Char := value.map Char.toUpper

/-- The lexer after `Advance` over `c`. -/
def advance (c : Char) (rest : List Char) (lexer : Lexer) : Lexer :=
  if c == '\n' then { rest, line := lexer.line + 1, column := 1 }
  else { lexer with rest, column := lexer.column + 1 }

/-- `while (!IsAtEnd() && p(Peek())) value += Advance();` from a lexer at `line`, `column`. -/
def scanWhile (p : Char → Bool) : List Char → Lexer → List Char × Lexer
  | [], lexer => ([], lexer)
  | c :: rest, lexer =>
      if p c then
        let (value, after) := scanWhile p rest (advance c rest lexer)
        (c :: value, after)
      else ([], lexer)

/-- `SkipWhitespace`. -/
def skipWhitespace (lexer : Lexer) : Lexer := (scanWhile isSpace lexer.rest lexer).2

/-- A token that starts where `start` stands. -/
def token (start : Lexer) (type : TokenType) (value : List Char) : Token :=
  { type, value := String.ofList value, line := start.line, column := start.column }

/-- `ScanStringLiteral`, from the opening quote on. -/
def scanStringLiteral (c : Char) (rest : List Char) (start : Lexer) : Token × Lexer :=
  let (value, stop) := scanWhile (· != '"') rest (advance c rest start)
  match stop.rest with
  | [] => (token start .invalid value, stop)
  | quote :: after => (token start .stringLiteral value, advance quote after stop)

/-- `ScanNumber`. -/
def scanNumber (start : Lexer) : Token × Lexer :=
  let (value, stop) := scanWhile isDigit start.rest start
  (token start .integerLiteral value, stop)

/-- `ScanIdentifierOrKeyword`. -/
def scanIdentifierOrKeyword (start : Lexer) : Token × Lexer :=
  let (value, stop) := scanWhile isWordChar start.rest start
  let upper := toUpper value
  if keywords.contains (String.ofList upper) then (token start .keyword upper, stop)
  else (token start .identifier value, stop)

/-- `ScanOperator`. -/
def scanOperator (first : Char) (rest : List Char) (start : Lexer) : Token × Lexer :=
  let stop := advance first rest start
  match rest with
  | '=' :: after =>
      if first == '=' || first == '!' || first == '<' || first == '>' then
        (token start .operator [first, '='], advance '=' after stop)
      else (token start .operator [first], stop)
  | _ => (token start .operator [first], stop)

/-- `ScanPunctuation`. -/
def scanPunctuation (c : Char) (rest : List Char) (start : Lexer) : Token × Lexer :=
  (token start .punctuation [c], advance c rest start)

/-- `NextToken`. -/
def nextToken (lexer : Lexer) : Token × Lexer :=
  let start := lexer.skipWhitespace
  match start.rest with
  | [] => (token start .endOfFile [], start)
  | current :: rest =>
      if current == '"' then scanStringLiteral current rest start
      else if isDigit current then scanNumber start
      else if isAlpha current || current == '_' then scanIdentifierOrKeyword start
      else if isOperatorChar current then scanOperator current rest start
      else if isPunctuationChar current then scanPunctuation current rest start
      else (token start .invalid [current], advance current rest start)

/-- The loop of `Tokenize`, with a bound on its rounds. -/
def tokenizeLoop : Nat → Lexer → List Token
  | 0, _ => []
  | rounds + 1, lexer =>
      let (token, next) := lexer.nextToken
      if token.type = .endOfFile then [token] else token :: tokenizeLoop rounds next

/-- `Tokenize`. Every round but the last consumes a character. -/
def tokenize (source : String) : List Token :=
  tokenizeLoop (source.toList.length + 1) { rest := source.toList }

end Lexer

end QuasarDB.Server
