import QuasarDB.Core.Json
import Mathlib.Data.List.AList

set_option autoImplicit false

/-! # JSON files

`json_file.cpp`. A file is its bytes, or `none` when it cannot be opened; `nlohmann::json::parse` and
`dump` are parameters. -/

namespace QuasarDB.Core

/-- `std::unordered_map<std::string, α>`, `std::map<std::string, α>`. -/
abbrev Dict (α : Type) : Type := AList (fun _ : String => α)

/-- How JSON values are read off and written to text. -/
structure JsonText where
  /-- `parse(input, nullptr, false)`: `none` is a discarded value. -/
  parse : List UInt8 → Option Json
  /-- `dump(2)`. -/
  dump : Json → List UInt8

abbrev JsonFile : Type := Option (List UInt8)

namespace JsonFile

/-- `JsonFile::Load`. -/
def load (text : JsonText) (file : JsonFile) (fallback : Json) : Json :=
  match file with
  | none => fallback
  | some bytes => (text.parse bytes).getD fallback

/-- The file after `JsonFile::Save`, which replaces it or leaves it alone. -/
def save (text : JsonText) (saved : Bool) (data : Json) (file : JsonFile) : JsonFile :=
  if saved then some (text.dump data) else file

end JsonFile

end QuasarDB.Core
