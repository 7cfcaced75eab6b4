import Mathlib.Algebra.Order.Ring.Int
import Mathlib.Data.List.Basic

set_option autoImplicit false

/-! # The readers of the client

`reader.cpp`: commands are read line by line, until a line ends a statement. The console's prompts are
left out. -/

namespace QuasarDB.Client

/-- The characters that `Trim` takes away. -/
def isBlank (c : Char) : Bool := c == ' ' || c == '\t' || c == '\r' || c == '\n'

/-- `Trim`. -/
def trim (value : List Char) : List Char :=
  ((value.dropWhile isBlank).reverse.dropWhile isBlank).reverse

/-- The loop of `EndsStatement`, with `value[i - 1]`. -/
def endsLoop : Option Char → Bool → List Char → Bool
  | _, _, [] => false
  | previous, inString, c :: value =>
      let inString := if c == '"' && previous != some '\\' then !inString else inString
      if !inString && c == ';' then true else endsLoop (some c) inString value

/-- `EndsStatement`. -/
def endsStatement (value : List Char) : Bool := endsLoop none false value

/-- The lines that `std::getline` gives on a text, one after the other. -/
def linesOf : List Char → List (List Char)
  | [] => []
  | c :: text =>
      if c = '\n' then [] :: linesOf text
      else
        match linesOf text with
        | [] => [[c]]
        | line :: lines => (c :: line) :: lines

/-- The loop of `FileReader::ReadCommand` on the lines that are left, and those it leaves. -/
def readLines : List Char → List (List Char) → Option (List Char) × List (List Char)
  | command, [] =>
      let trimmed := trim command
      (if trimmed.isEmpty then none else some trimmed, [])
  | command, line :: lines =>
      if (trim line).isEmpty && command.isEmpty then readLines command lines
      else
        let command := (if command.isEmpty then command else command ++ ['\n']) ++ line
        if endsStatement command then (some (trim command), lines) else readLines command lines

/-- `FileReader`: what is left of the file, or `none` when it is not open. -/
structure FileReader where
  lines : Option (List (List Char))

namespace FileReader

/-- The constructor, on a file with this content. -/
def new (content : Option (List Char)) : FileReader := { lines := content.map linesOf }

/-- `ReadCommand`. -/
def readCommand (reader : FileReader) : Option (List Char) × FileReader :=
  match reader.lines with
  | none => (none, reader)
  | some lines => ((readLines [] lines).1, { lines := some (readLines [] lines).2 })

/-- What `count` calls of `ReadCommand` return. -/
def readCommands : Nat → FileReader → List (Option (List Char))
  | 0, _ => []
  | count + 1, reader => reader.readCommand.1 :: readCommands count reader.readCommand.2

end FileReader

end QuasarDB.Client
