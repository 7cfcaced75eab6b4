import QuasarDB.Server.Ast

set_option autoImplicit false

/-! # Semantic checks

`analyzer.cpp`. An exception is an `.error` with its `what()`. -/

namespace QuasarDB.Server

namespace Analyzer

/-- `throw SemanticError(message)`. -/
def semanticError (message : String) : Except String Unit := .error ("SEMANTIC_ERROR: " ++ message)

/-- The checks on the default value of a column. -/
def validateDefault (column : ColumnDef) : Except String Unit :=
  match column.defaultValue with
  | none => return ()
  | some literal =>
      if literal.literalType = .null then
        if column.notNull then
          semanticError ("column '" ++ column.name ++ "' cannot be NOT_NULL with DEFAULT NULL")
        else return ()
      else if column.columnType = .int ∧ literal.literalType ≠ .integer then
        semanticError ("column '" ++ column.name ++ "' expects INT default")
      else if column.columnType = .string ∧ literal.literalType = .integer then
        semanticError ("column '" ++ column.name ++ "' expects STRING default")
      else return ()

/-- `ValidateCreateTable`, with the names seen so far. -/
def validateCreateTable (names : List String) : List ColumnDef → Except String Unit
  | [] => return ()
  | column :: columns => do
      if column.name ∈ names then semanticError ("duplicate column '" ++ column.name ++ "'")
      else
        validateDefault column
        validateCreateTable (column.name :: names) columns

/-- The loop of `ValidateInsert` over the columns, with the names seen so far. -/
def validateInsertColumns (names : List String) : List String → Except String Unit
  | [] => return ()
  | column :: columns =>
      if column ∈ names then semanticError ("duplicate insert column '" ++ column ++ "'")
      else validateInsertColumns (column :: names) columns

/-- `ValidateInsert`. -/
def validateInsert (columns : List String) (values : List (List Literal)) : Except String Unit := do
  validateInsertColumns [] columns
  if values.all fun row => row.length == columns.length then return ()
  else semanticError "INSERT values count does not match columns count"

/-- `ValidateStatement`. -/
def validateStatement : Statement → Except String Unit
  | .createTable _ columns => validateCreateTable [] columns
  | .insert _ columns values => validateInsert columns values
  | _ => return ()

end Analyzer

end QuasarDB.Server
