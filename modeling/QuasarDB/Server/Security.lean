import QuasarDB.Core.JsonFile
import QuasarDB.Library.Prog

set_option autoImplicit false

/-! # Accounts

`AccountStore` of `security.cpp`. What the store takes from the cryptographic library, and whether
the file system takes the file, is part of the surroundings of a call. -/

namespace QuasarDB.Server

open Core

structure Account where
  username : String
  passwordHash : String
  salt : String
  deriving DecidableEq, Repr

/-- What a call on the store depends on. -/
structure AccountEnv where
  /-- `GenerateSalt()`, empty when it fails. -/
  salt : String
  /-- `HashPassword(password, salt)`, empty when it fails. -/
  hashPassword : String → String → String
  /-- Whether `JsonFile::Save` succeeds. -/
  saved : Bool

/-- `from_json(json, account)`. -/
def accountFromJson (json : Json) : Except String Account := do
  return { username := ← (← json.get "username").getString,
           passwordHash := ← (← json.get "password_hash").getString,
           salt := ← (← json.get "salt").getString }

/-- `to_json(json, account)`. -/
def accountToJson (account : Account) : Json :=
  .object [("username", .string account.username), ("password_hash", .string account.passwordHash),
    ("salt", .string account.salt)]

/-- `get<std::unordered_map<std::string, Account>>()`. -/
def accountsFromJson (json : Json) : Except String (Dict Account) :=
  match json with
  | .object members => do
      let entries ← members.mapM fun m => return (m.1, ← accountFromJson m.2)
      return entries.foldr (fun e accounts => accounts.insert e.1 e.2) ∅
  | json => .error (Json.wrongType "object" json)

def accountsToJson (accounts : Dict Account) : Json :=
  .object (accounts.entries.map fun e => (e.1, accountToJson e.2))

structure AccountStore where
  accounts : Dict Account
  loadOk : Bool
  /-- The file at `storage_path_`. -/
  file : JsonFile

namespace AccountStore

/-- The constructor: `Load`. -/
def load (text : JsonText) (file : JsonFile) : AccountStore :=
  match accountsFromJson (file.load text (.object [])) with
  | .ok accounts => { accounts, loadOk := true, file }
  | .error _ => { accounts := ∅, loadOk := false, file }

/-- `HasAccount`. -/
def hasAccount (store : AccountStore) (username : String) : Bool :=
  (store.accounts.lookup username).isSome

/-- `Empty`. -/
def empty (store : AccountStore) : Bool := store.accounts.entries.isEmpty

/-- `Save`. -/
def save (text : JsonText) (env : AccountEnv) : Prog AccountStore Bool := do
  let store ← get
  if !store.loadOk then return false
  set { store with file := store.file.save text env.saved (accountsToJson store.accounts) }
  return env.saved

/-- `CreateAccount`. -/
def createAccount (text : JsonText) (env : AccountEnv) (username password : String) :
    Prog AccountStore Bool := do
  if username = "" ∨ password = "" ∨ username = "*" then return false
  if (← get).hasAccount username then return false
  if env.salt = "" then return false
  let passwordHash := env.hashPassword password env.salt
  if passwordHash = "" then return false
  let account : Account := { username, passwordHash, salt := env.salt }
  modify fun store => { store with accounts := store.accounts.insert username account }
  if ← save text env then return true
  modify fun store => { store with accounts := store.accounts.erase username }
  return false

/-- `Authenticate`. -/
def authenticate (store : AccountStore) (env : AccountEnv) (username password : String) : Bool :=
  match store.accounts.lookup username with
  | none => false
  | some account => env.hashPassword password account.salt == account.passwordHash

end AccountStore

end QuasarDB.Server
