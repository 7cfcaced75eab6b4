import QuasarDB.Core.JsonFile
import QuasarDB.Server.Rbac

set_option autoImplicit false

/-! # The file of the access rules

`to_json`, `from_json`, `Load` and `Save` of `rbac.cpp`: the manager with the file that it was loaded
from, and that every change of the rules replaces. -/

namespace QuasarDB.Server

open Core

/-- `NLOHMANN_JSON_SERIALIZE_ENUM(Permission, …)`. -/
def permissionNames : List (Permission × String) :=
  [(.invalid, "INVALID"), (.read, "READ"), (.write, "WRITE"), (.create, "CREATE"),
    (.delete, "DELETE")]

/-- `to_json` of a permission: an unknown one would get the name of the first. -/
def permissionToJson (perm : Permission) : Json :=
  .string (((permissionNames.find? fun entry => entry.1 == perm).map Prod.snd).getD "INVALID")

/-- `from_json` of a permission: an unknown name, or no name at all, is the first one. -/
def permissionFromJson : Json → Permission
  | .string name =>
      ((permissionNames.find? fun entry => entry.2 == name).map Prod.fst).getD .invalid
  | _ => .invalid

/-- The members of a `std::set<Permission>`, in its order. -/
def permissionsInOrder (permissions : Finset Permission) : List Permission :=
  (permissionNames.map Prod.fst).filter (· ∈ permissions)

/-- `get<std::set<Permission>>()`. -/
def permissionsFromJson : Json → Except String (Finset Permission)
  | .array elements => .ok (elements.map permissionFromJson).toFinset
  | json => .error (Json.wrongType "array" json)

/-- `to_json(json, rule)`. -/
def ruleToJson (rule : AccessRule) : Json :=
  .object [("user_id", .string rule.userId), ("database", .string rule.database),
    ("table", .string rule.table),
    ("permissions", .array ((permissionsInOrder rule.permissions).map permissionToJson))]

/-- `from_json(json, rule)`. -/
def ruleFromJson (json : Json) : Except String AccessRule := do
  return { userId := ← (← json.get "user_id").getString,
           database := ← (← json.get "database").getString,
           table := ← (← json.get "table").getString,
           permissions := ← permissionsFromJson (← json.get "permissions") }

def rulesToJson (rules : List AccessRule) : Json := .array (rules.map ruleToJson)

/-- `get<std::vector<AccessRule>>()`. -/
def rulesFromJson : Json → Except String (List AccessRule)
  | .array elements => elements.mapM ruleFromJson
  | json => .error (Json.wrongType "array" json)

structure RbacFile where
  manager : RbacManager
  /-- The file at `storage_path_`. -/
  file : JsonFile

namespace RbacFile

/-- The constructor: `Load`, which leaves the rules empty when the file does not hold any. -/
def load (text : JsonText) (file : JsonFile) : RbacFile :=
  match rulesFromJson (file.load text (.array [])) with
  | .ok rules => { manager := ⟨rules⟩, file }
  | .error _ => { manager := ⟨[]⟩, file }

/-- `Save`. -/
def save (text : JsonText) (saved : Bool) : Prog RbacFile Unit :=
  modify fun store => { store with file := store.file.save text saved (rulesToJson store.manager.rules) }

/-- What the manager does, without its file. -/
def onManager {α : Type} (x : Prog RbacManager α) : Prog RbacFile α :=
  x.on (·.manager) fun manager store => { store with manager }

/-- `CheckPermission`. -/
def checkPermission (store : RbacFile) (username database table : String) (perm : Permission) :
    Bool :=
  store.manager.checkPermission username database table perm

/-- `GrantPermission`. -/
def grantPermission (text : JsonText) (saved : Bool) (username database table : String)
    (perm : Permission) : Prog RbacFile Unit := do
  onManager (RbacManager.grantPermission saved username database table perm)
  if perm ≠ .invalid then save text saved

/-- `RevokePermission`, which saves nothing when it finds no rule. -/
def revokePermission (text : JsonText) (saved : Bool) (username database table : String)
    (perm : Permission) : Prog RbacFile Unit := do
  let found := (← get).manager.rules.any (RbacManager.isRuleOf username database table)
  onManager (RbacManager.revokePermission saved username database table perm)
  if found then save text saved

end RbacFile

end QuasarDB.Server
