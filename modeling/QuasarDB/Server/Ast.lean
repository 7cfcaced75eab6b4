import Mathlib.Algebra.Order.Ring.Int
import Mathlib.Data.List.Basic

set_option autoImplicit false

/-! # Abstract syntax of the query language

`ast.h`. An absent `std::unique_ptr` is `none`; an unqualified table reference has the empty
database, as in the source. -/

namespace QuasarDB.Server

inductive LiteralType where
  | string
  | integer
  | null
  deriving DecidableEq, Repr

structure Literal where
  literalType : LiteralType
  value : String
  deriving DecidableEq, Repr

inductive AggregateFunction where
  | sum
  | count
  | avg
  deriving DecidableEq, Repr

inductive Expression where
  | identifier (name : String)
  | literal (literal : Literal)
  | aggregate (function : AggregateFunction) (column : String)
  deriving DecidableEq, Repr

inductive ComparisonOperator where
  | equal
  | notEqual
  | less
  | greater
  | lessEqual
  | greaterEqual
  deriving DecidableEq, Repr

inductive Condition where
  | comparison (left : Expression) (op : ComparisonOperator) (right : Expression)
  | between (value lower upper : Expression)
  | like (value : Expression) (pattern : String)
  | and (left right : Condition)
  | or (left right : Condition)
  deriving DecidableEq, Repr

structure TableRef where
  database : String := ""
  table : String
  deriving DecidableEq, Repr

inductive ColumnType where
  | int
  | string
  deriving DecidableEq, Repr

structure ColumnDef where
  name : String
  columnType : ColumnType
  notNull : Bool := false
  indexed : Bool := false
  defaultValue : Option Literal := none
  deriving DecidableEq, Repr

structure SelectItem where
  expr : Expression
  aliasName : String := ""
  deriving DecidableEq, Repr

inductive Statement where
  | createDatabase (databaseName : String)
  | dropDatabase (databaseName : String)
  | useDatabase (databaseName : String)
  | createUser (username password : String)
  | grant (permissions : List String) (scope : TableRef) (username : String)
  | revoke (permissions : List String) (scope : TableRef) (username : String)
  | revert (table : TableRef) (timestamp : String)
  | createTable (table : TableRef) (columns : List ColumnDef)
  | dropTable (table : TableRef)
  | insert (table : TableRef) (columns : List String) (values : List (List Literal))
  | update (table : TableRef) (assignments : List (String × Expression))
      (whereClause : Option Condition)
  | delete (table : TableRef) (whereClause : Option Condition)
  | select (selectAll : Bool) (selectItems : List SelectItem) (table : TableRef)
      (whereClause : Option Condition)
  deriving DecidableEq, Repr

namespace Statement

/-- `Analyzer::TableFromStatement`. -/
def tableFromStatement : Statement → Option TableRef
  | createTable table _ => some table
  | dropTable table => some table
  | insert table _ _ => some table
  | update table _ _ => some table
  | delete table _ => some table
  | select _ _ table _ => some table
  | revert table _ => some table
  | _ => none

/-- The statement on another table, if it is a statement on a table. -/
def withTable (table : TableRef) : Statement → Statement
  | createTable _ columns => createTable table columns
  | dropTable _ => dropTable table
  | insert _ columns values => insert table columns values
  | update _ assignments whereClause => update table assignments whereClause
  | delete _ whereClause => delete table whereClause
  | select selectAll items _ whereClause => select selectAll items table whereClause
  | revert _ timestamp => revert table timestamp
  | statement => statement

end Statement

end QuasarDB.Server
