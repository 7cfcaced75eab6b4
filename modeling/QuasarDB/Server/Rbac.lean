import QuasarDB.Library.Prog
import Mathlib.Data.Finset.Basic

set_option autoImplicit false

/-! # Access rules

`RBACManager` of `rbac.cpp`: a list of rules, each with the permissions of a user on a table, where
`*` stands for any. -/

namespace QuasarDB.Server

inductive Permission where
  | invalid
  | read
  | write
  | create
  | delete
  deriving DecidableEq, Repr

structure AccessRule where
  userId : String
  database : String
  table : String
  permissions : Finset Permission
  deriving DecidableEq

structure RbacManager where
  rules : List AccessRule
  deriving DecidableEq

namespace RbacManager

/-- The lambda of `CheckPermission`. -/
def applies (username database table : String) (perm : Permission) (rule : AccessRule) : Bool :=
  (rule.userId == username || rule.userId == "*") &&
    (rule.database == database || rule.database == "*") &&
    (rule.table == table || rule.table == "*") && perm ∈ rule.permissions

/-- `CheckPermission`. -/
def checkPermission (rbac : RbacManager) (username database table : String) (perm : Permission) :
    Bool :=
  (rbac.rules.find? (applies username database table perm)).isSome

/-- The lambda of `GrantPermission` and `RevokePermission`. -/
def isRuleOf (username database table : String) (rule : AccessRule) : Bool :=
  rule.userId == username && rule.database == database && rule.table == table

/-- `GrantPermission`. With a new rule that cannot be saved, the source compares the iterator from
    before `push_back` with the end of the vector after it. -/
def grantPermission (saved : Bool) (username database table : String) (perm : Permission) :
    Prog RbacManager Unit := do
  if perm = .invalid then return ()
  let rules := (← get).rules
  match rules.findIdx? (isRuleOf username database table) with
  | some i =>
      let granted := rules.modify i fun r => { r with permissions := insert perm r.permissions }
      let kept := granted.modify i fun r => { r with permissions := r.permissions.erase perm }
      set (RbacManager.mk (if saved then granted else kept))
  | none =>
      set (RbacManager.mk (rules ++ [⟨username, database, table, {perm}⟩]))
      if saved then return () else throw (.undefined "comparison with an invalid iterator")

/-- `RevokePermission`. A rule that cannot be saved as erased comes back without permissions. -/
def revokePermission (saved : Bool) (username database table : String) (perm : Permission) :
    Prog RbacManager Unit := do
  let rules := (← get).rules
  match rules.findIdx? (isRuleOf username database table) with
  | none => return ()
  | some i =>
      let revoked := rules.modify i fun r => { r with permissions := r.permissions.erase perm }
      if revoked[i]?.any fun r => decide (r.permissions = ∅) then
        set (RbacManager.mk (if saved then revoked.eraseIdx i else revoked))
      else
        set (RbacManager.mk (if saved then revoked else rules))

/-- `GrantAll`: the rules are saved after every permission. -/
def grantAll (saved : Nat → Bool) (username : String) : Prog RbacManager Unit := do
  grantPermission (saved 0) username "*" "*" .read
  grantPermission (saved 1) username "*" "*" .write
  grantPermission (saved 2) username "*" "*" .create
  grantPermission (saved 3) username "*" "*" .delete

end RbacManager

/-- `PermissionFromString`. -/
def permissionFromString (value : String) : Permission :=
  if value = "READ" then .read
  else if value = "WRITE" then .write
  else if value = "CREATE" then .create
  else if value = "DELETE" then .delete
  else .invalid

end QuasarDB.Server
