import QuasarDB.Server.Proofs.Delegation
import QuasarDB.Server.RbacFile

set_option autoImplicit false

/-! # The rules as a map of permissions

The manager keeps one rule for each user, database and table that has permissions, so the rules are a
set of single permissions. A grant adds one of them and a revoke takes one away. -/

namespace QuasarDB.Server

open Core Prog

/-! ## Sets of permissions -/

/-- What a rule is for: a user, a database and a table, each of them possibly `*`. -/
abbrev Target : Type := String × String × String

/-- A call on the manager. -/
inductive RuleCall where
  | grant (target : Target) (perm : Permission)
  | revoke (target : Target) (perm : Permission)

namespace RuleCall

/-- The single permission that the call is about. -/
def key : RuleCall → Target × Permission
  | grant target perm => (target, perm)
  | revoke target perm => (target, perm)

/-- What the call means for a set of permissions. -/
def onMap (call : RuleCall) (map : Set (Target × Permission)) : Set (Target × Permission) :=
  match call with
  | grant target perm => insert (target, perm) map
  | revoke target perm => map \ {(target, perm)}

/-- The permissions after some calls, of which there were none before. -/
def mapAfter (calls : List RuleCall) : Set (Target × Permission) :=
  calls.foldl (fun map call => call.onMap map) ∅

/-- The last of the calls for the permission is a grant. -/
def LastGranted (calls : List RuleCall) (target : Target) (perm : Permission) : Prop :=
  (calls.filter fun call => call.key = (target, perm)).getLast? = some (.grant target perm)

/-- The set has the permissions whose last call was a grant. -/
theorem mem_mapAfter {calls : List RuleCall} {target : Target} {perm : Permission} :
    (target, perm) ∈ mapAfter calls ↔ LastGranted calls target perm := by
  induction calls using List.reverseRecOn with
  | nil => simp [mapAfter, LastGranted]
  | append_singleton calls call ih =>
      have hsnoc : mapAfter (calls ++ [call]) = call.onMap (mapAfter calls) := by
        simp [mapAfter]
      rw [hsnoc, LastGranted, List.filter_append]
      by_cases h : call.key = (target, perm)
      · rw [List.filter_cons_of_pos (by simpa using h), List.filter_nil, List.getLast?_concat]
        cases call with
        | grant other perm' =>
            cases h
            exact iff_of_true (Set.mem_insert _ _) rfl
        | revoke other perm' =>
            cases h
            exact iff_of_false (fun hmem => hmem.2 rfl) (by simp)
      · rw [List.filter_cons_of_neg (by simpa using h), List.filter_nil, List.append_nil, ← LastGranted,
          ← ih]
        cases call with
        | grant other perm' => exact Set.mem_insert_iff.trans (or_iff_right (Ne.symm h))
        | revoke other perm' => exact and_iff_left (Ne.symm h)

end RuleCall

/-! ## Rules -/

/-- What the rule is for. -/
def AccessRule.target (rule : AccessRule) : Target := (rule.userId, rule.database, rule.table)

/-- The rules are the set of permissions: one rule for each target that has any. -/
structure Represents (rules : List AccessRule) (map : Set (Target × Permission)) : Prop where
  nodup : (rules.map AccessRule.target).Nodup
  nonempty : ∀ rule ∈ rules, rule.permissions ≠ ∅
  holds : ∀ target perm, (target, perm) ∈ map ↔
    ∃ rule ∈ rules, rule.target = target ∧ perm ∈ rule.permissions

section Represents

variable {rules front back : List AccessRule} {rule new : AccessRule} {target : Target}
  {map map' : Set (Target × Permission)}

theorem Represents.others (h : Represents (front ++ rule :: back) map) :
    ∀ other ∈ front ++ back, other.target ≠ rule.target := by
  intro other hother htarget
  have hnodup := h.nodup
  rw [List.map_append, List.map_cons] at hnodup
  obtain ⟨hnot, -⟩ := List.nodup_cons.1 (List.nodup_middle.1 hnodup)
  rw [← htarget, ← List.map_append] at hnot
  exact hnot (List.mem_map_of_mem hother)

/-- The permissions of a target are those of its one rule. -/
theorem Represents.holds_at (h : Represents (front ++ rule :: back) map) (perm : Permission) :
    (rule.target, perm) ∈ map ↔ perm ∈ rule.permissions := by
  rw [h.holds]
  constructor
  · rintro ⟨other, hother, htarget, hperm⟩
    by_cases hrule : other = rule
    · exact hrule ▸ hperm
    · exact absurd htarget (h.others other (by simpa [hrule] using hother))
  · exact fun hperm => ⟨rule, by simp, rfl, hperm⟩

theorem Represents.remove (h : Represents (front ++ rule :: back) map)
    (hmap : ∀ target perm, (target, perm) ∈ map' ↔
      target ≠ rule.target ∧ (target, perm) ∈ map) : Represents (front ++ back) map' := by
  have hnodup := h.nodup
  rw [List.map_append, List.map_cons] at hnodup
  obtain ⟨-, hrest⟩ := List.nodup_cons.1 (List.nodup_middle.1 hnodup)
  have hmem : ∀ other ∈ front ++ back, other ∈ front ++ rule :: back := by
    intro other hother
    rcases List.mem_append.1 hother with hother | hother <;> simp [hother]
  refine ⟨by rwa [List.map_append], fun other hother => h.nonempty other (hmem other hother), ?_⟩
  intro target perm
  rw [hmap, h.holds]
  constructor
  · rintro ⟨hne, other, hother, htarget, hperm⟩
    have hrule : other ≠ rule := fun heq => hne (heq ▸ htarget.symm)
    exact ⟨other, by simpa [hrule] using hother, htarget, hperm⟩
  · rintro ⟨other, hother, rfl, hperm⟩
    exact ⟨h.others other hother, other, hmem other hother, rfl, hperm⟩

theorem Represents.insert (h : Represents (front ++ back) map) (hnonempty : new.permissions ≠ ∅)
    (hfresh : ∀ rule ∈ front ++ back, rule.target ≠ new.target)
    (hmap : ∀ target perm, (target, perm) ∈ map' ↔
      target = new.target ∧ perm ∈ new.permissions ∨ (target, perm) ∈ map) :
    Represents (front ++ new :: back) map' := by
  have hmem : ∀ rule, rule ∈ front ++ new :: back ↔ rule = new ∨ rule ∈ front ++ back := by
    intro rule
    simp only [List.mem_append, List.mem_cons]
    tauto
  refine ⟨?_, fun rule hrule => ?_, fun target perm => ?_⟩
  · rw [List.map_append, List.map_cons, List.nodup_middle, ← List.map_append]
    refine List.nodup_cons.2 ⟨fun hnew => ?_, h.nodup⟩
    obtain ⟨rule, hrule, htarget⟩ := List.mem_map.1 hnew
    exact hfresh rule hrule htarget
  · rcases (hmem rule).1 hrule with rfl | hrule
    · exact hnonempty
    · exact h.nonempty rule hrule
  · rw [hmap, h.holds]
    simp only [hmem]
    constructor
    · rintro (⟨rfl, hperm⟩ | ⟨rule, hrule, htarget, hperm⟩)
      · exact ⟨new, .inl rfl, rfl, hperm⟩
      · exact ⟨rule, .inr hrule, htarget, hperm⟩
    · rintro ⟨rule, rfl | hrule, htarget, hperm⟩
      · exact .inl ⟨htarget.symm, hperm⟩
      · exact .inr ⟨rule, hrule, htarget, hperm⟩

end Represents

/-! ## Calls -/

namespace RbacManager

variable {rbac : RbacManager} {user database table : String} {perm : Permission}
  {map : Set (Target × Permission)}

/-- No rule is for a target that the search does not find. -/
theorem target_ne_of_findIdx? {rules : List AccessRule}
    (h : rules.findIdx? (isRuleOf user database table) = none) :
    ∀ rule ∈ rules, rule.target ≠ (user, database, table) := by
  intro rule hrule htarget
  have hfits : isRuleOf user database table rule = true := by
    cases htarget
    exact isRuleOf_iff.2 ⟨rfl, rfl, rfl⟩
  rw [List.findIdx?_eq_none_iff.1 h rule hrule] at hfits
  cases hfits

theorem grantPermission_represents (h : Represents rbac.rules map) (hperm : perm ≠ .invalid) :
    (grantPermission true user database table perm).Post rbac
      (fun _ rbac' => Represents rbac'.rules (insert ((user, database, table), perm) map))
      (fun _ _ => False) := by
  obtain ⟨rules⟩ := rbac
  refine Post.ite (fun hinvalid => absurd hinvalid hperm) (fun _ => Post.get_bind ?_)
  cases hfound : rules.findIdx? (isRuleOf user database table) with
  | some i =>
      obtain ⟨front, rule, back, rfl, hfits, _, hmodify⟩ := exists_of_findIdx? hfound
      obtain ⟨rfl, rfl, rfl⟩ := isRuleOf_iff.1 hfits
      simp only [hfound, if_true, hmodify]
      refine Post.set ?_
      -- the rule goes, and comes back with the permission
      have hremoved : Represents (front ++ back) {entry ∈ map | entry.1 ≠ rule.target} :=
        h.remove fun target perm => and_comm
      refine hremoved.insert (Finset.insert_ne_empty _ _) h.others fun target perm' => ?_
      show (target, perm') ∈ insert (rule.target, perm) map ↔
        target = rule.target ∧ perm' ∈ insert perm rule.permissions ∨ _
      by_cases htarget : target = rule.target
      · subst htarget
        simp [h.holds_at perm']
      · simp [htarget]
  | none =>
      simp only [hfound]
      refine Post.bind (Post.set (Post.pure ?_))
      have hrules : Represents (rules ++ []) map := by rwa [List.append_nil]
      refine hrules.insert (Finset.singleton_ne_empty _) (fun rule hrule => ?_) ?_
      · exact target_ne_of_findIdx? hfound rule (by simpa using hrule)
      · intro target perm'
        simp [AccessRule.target]

theorem revokePermission_represents (h : Represents rbac.rules map) :
    (revokePermission true user database table perm).Post rbac
      (fun _ rbac' => Represents rbac'.rules (map \ {((user, database, table), perm)}))
      (fun _ _ => False) := by
  obtain ⟨rules⟩ := rbac
  refine Post.get_bind ?_
  cases hfound : rules.findIdx? (isRuleOf user database table) with
  | none =>
      simp only [hfound]
      refine Post.pure ?_
      have hfresh : ((user, database, table), perm) ∉ map := by
        intro hmem
        obtain ⟨rule, hrule, htarget, -⟩ := (h.holds _ _).1 hmem
        exact target_ne_of_findIdx? hfound rule hrule htarget
      rw [Set.sdiff_singleton_eq_self hfresh]
      exact h
  | some i =>
      obtain ⟨front, rule, back, rfl, hfits, rfl, hmodify⟩ := exists_of_findIdx? hfound
      obtain ⟨rfl, rfl, rfl⟩ := isRuleOf_iff.1 hfits
      simp only [hfound, if_true, hmodify]
      have hmem : ∀ perm', (rule.target, perm') ∈ map \ {(rule.target, perm)} ↔
          perm' ∈ rule.permissions.erase perm := by
        intro perm'
        simp [h.holds_at perm', and_comm]
      have hother : ∀ target perm', target ≠ rule.target →
          ((target, perm') ∈ map \ {(rule.target, perm)} ↔ (target, perm') ∈ map) := by
        intro target perm' htarget
        simp [htarget]
      have hget : (front ++ ([{ rule with permissions := rule.permissions.erase perm }] ++
          back))[front.length]? = some { rule with permissions := rule.permissions.erase perm } := by
        simp
      simp only [hget, Option.any_some, decide_eq_true_eq]
      refine Post.ite (fun hempty => Post.set ?_) (fun hnonempty => Post.set ?_)
      · rw [List.eraseIdx_append_of_length_le (Nat.le_refl _), Nat.sub_self]
        refine h.remove fun target perm' => ?_
        by_cases htarget : target = rule.target
        · subst htarget
          exact (hmem perm').trans (by simp [hempty])
        · exact (hother target perm' htarget).trans (by simp [htarget])
      · have hremoved : Represents (front ++ back) {entry ∈ map | entry.1 ≠ rule.target} :=
          h.remove fun target perm => and_comm
        refine hremoved.insert hnonempty h.others fun target perm' => ?_
        show _ ↔ target = rule.target ∧ perm' ∈ rule.permissions.erase perm ∨ _
        by_cases htarget : target = rule.target
        · subst htarget
          exact (hmem perm').trans (by simp)
        · exact (hother target perm' htarget).trans (by simp [htarget])

end RbacManager

/-! ## The file -/

theorem permissionFromJson_permissionToJson (perm : Permission) :
    permissionFromJson (permissionToJson perm) = perm := by
  cases perm <;> rfl

theorem toFinset_permissionsInOrder (permissions : Finset Permission) :
    (permissionsInOrder permissions).toFinset = permissions := by
  have hall : ∀ perm, perm ∈ permissionNames.map Prod.fst := by
    intro perm
    cases perm <;> decide
  ext perm
  rw [List.mem_toFinset, permissionsInOrder, List.mem_filter]
  simp [hall perm]

theorem ruleFromJson_ruleToJson (rule : AccessRule) : ruleFromJson (ruleToJson rule) = .ok rule := by
  have hpermissions : permissionsFromJson
      (.array ((permissionsInOrder rule.permissions).map permissionToJson)) =
        .ok rule.permissions := by
    rw [permissionsFromJson, List.map_map]
    have hid : permissionFromJson ∘ permissionToJson = id :=
      funext permissionFromJson_permissionToJson
    rw [hid, List.map_id, toFinset_permissionsInOrder]
  have huser : (ruleToJson rule).get "user_id" = .ok (.string rule.userId) := by simp [ruleToJson]
  have hdatabase : (ruleToJson rule).get "database" = .ok (.string rule.database) := by
    simp [ruleToJson]
  have htable : (ruleToJson rule).get "table" = .ok (.string rule.table) := by simp [ruleToJson]
  have hset : (ruleToJson rule).get "permissions" =
      .ok (.array ((permissionsInOrder rule.permissions).map permissionToJson)) := by
    simp [ruleToJson]
  rw [ruleFromJson, huser, hdatabase, htable, hset]
  simp only [bind, Except.bind, Json.getString_string, hpermissions]
  rfl

theorem rulesFromJson_rulesToJson (rules : List AccessRule) :
    rulesFromJson (rulesToJson rules) = .ok rules := by
  rw [rulesToJson, rulesFromJson]
  induction rules with
  | nil => rfl
  | cons rule rules ih =>
      rw [List.map_cons, List.mapM_cons, ruleFromJson_ruleToJson, ih]
      rfl

namespace RbacFile

variable {text : JsonText} {file : JsonFile} {store : RbacFile}

theorem load_file : (load text file).file = file := by
  unfold RbacFile.load
  split <;> rfl

/-- The file holds the rules of the manager, or nothing has changed since it was loaded. -/
def Stored (store : RbacFile) (text : JsonText) (file : JsonFile) : Prop :=
  store = load text file ∨ store.file = some (text.dump (rulesToJson store.manager.rules))

/-- A manager that is loaded from the file has the same rules. -/
theorem Stored.load (h : store.Stored text file)
    (hfaithful : text.parse (text.dump (rulesToJson store.manager.rules)) =
      some (rulesToJson store.manager.rules)) :
    (load text store.file).manager = store.manager := by
  rcases h with rfl | hfile
  · rw [load_file]
  · rw [hfile]
    unfold RbacFile.load
    rw [JsonFile.load, hfaithful, Option.getD_some, rulesFromJson_rulesToJson]

theorem Stored.save {map : Set (Target × Permission)} (h : Represents store.manager.rules map) :
    (RbacFile.save text true).Post store
      (fun _ store' => store'.Stored text file ∧ Represents store'.manager.rules map)
      (fun _ _ => False) :=
  Post.modify ⟨.inr rfl, h⟩

end RbacFile

/-- A call, the save of which succeeds. -/
def RuleCall.apply (text : JsonText) : RuleCall → Prog RbacFile Unit
  | .grant (user, database, table) perm =>
      RbacFile.grantPermission text true user database table perm
  | .revoke (user, database, table) perm =>
      RbacFile.revokePermission text true user database table perm

def RuleCall.applyAll (text : JsonText) : List RuleCall → Prog RbacFile Unit
  | [] => return ()
  | call :: calls => do
      call.apply text
      applyAll text calls

section Runs

variable {text : JsonText} {file : JsonFile} {store : RbacFile} {map : Set (Target × Permission)}

theorem RuleCall.apply_represents (call : RuleCall) (hvalid : call.key.2 ≠ .invalid)
    (hstored : store.Stored text file) (h : Represents store.manager.rules map) :
    (call.apply text).Post store
      (fun _ store' => store'.Stored text file ∧ Represents store'.manager.rules (call.onMap map))
      (fun _ _ => False) := by
  cases call with
  | grant target perm =>
      obtain ⟨user, database, table⟩ := target
      refine Post.bind (Post.on ((RbacManager.grantPermission_represents h hvalid).mono ?_ ?_))
      · intro _ manager hmanager
        exact Post.ite (fun _ => RbacFile.Stored.save hmanager)
          (fun hinvalid => absurd hvalid hinvalid)
      · exact fun _ _ hfalse => hfalse
  | revoke target perm =>
      obtain ⟨user, database, table⟩ := target
      refine Post.get_bind (Post.bind (Post.on ?_))
      cases hfound : store.manager.rules.any (RbacManager.isRuleOf user database table) with
      | true =>
          refine (RbacManager.revokePermission_represents h).mono ?_ (fun _ _ hfalse => hfalse)
          exact fun _ manager hmanager => RbacFile.Stored.save hmanager
      | false =>
          have hnone : store.manager.rules.findIdx? (RbacManager.isRuleOf user database table) =
              none := by
            simpa [List.findIdx?_eq_none_iff] using hfound
          have hrun : RbacManager.revokePermission true user database table perm store.manager =
              .ok () store.manager := by
            rw [RbacManager.revokePermission, run_get_bind]
            simp only [hnone]
            rfl
          rw [Post, hrun]
          have hrepresents : Represents store.manager.rules _ :=
            (RbacManager.revokePermission_represents h).of_ok hrun
          exact Post.pure ⟨hstored, hrepresents⟩

theorem RuleCall.applyAll_represents (calls : List RuleCall)
    (hvalid : ∀ call ∈ calls, call.key.2 ≠ .invalid) (hstored : store.Stored text file)
    (h : Represents store.manager.rules map) :
    (applyAll text calls).Post store
      (fun _ store' => store'.Stored text file ∧
        Represents store'.manager.rules (calls.foldl (fun map call => call.onMap map) map))
      (fun _ _ => False) := by
  induction calls generalizing store map with
  | nil => exact Post.pure ⟨hstored, h⟩
  | cons call calls ih =>
      have hcall := call.apply_represents (hvalid call List.mem_cons_self) hstored h
      refine Post.bind (hcall.mono ?_ (fun _ _ hfalse => hfalse))
      rintro _ store' ⟨hstored', h'⟩
      exact ih (fun other hother => hvalid other (List.mem_cons_of_mem _ hother)) hstored' h'

theorem checkPermission_eq_true_iff (h : Represents store.manager.rules map)
    (user database table : String) (perm : Permission) :
    store.checkPermission user database table perm = true ↔
      ∃ user' ∈ [user, "*"], ∃ database' ∈ [database, "*"], ∃ table' ∈ [table, "*"],
        ((user', database', table'), perm) ∈ map := by
  rw [RbacFile.checkPermission, RbacManager.checkPermission_iff]
  simp only [RbacManager.applies_iff, Matches, h.holds, List.mem_cons, List.not_mem_nil, or_false]
  constructor
  · rintro ⟨rule, hrule, huser, hdatabase, htable, hperm⟩
    exact ⟨_, huser, _, hdatabase, _, htable, rule, hrule, rfl, hperm⟩
  · rintro ⟨_, huser, _, hdatabase, _, htable, rule, hrule, htarget, hperm⟩
    cases htarget
    exact ⟨rule, hrule, huser, hdatabase, htable, hperm⟩

/-- From no rules, whatever the calls: a rule for each target that has permissions, the answers of the
    permissions whose last call was a grant, and the same answers when the file is loaded again. -/
theorem rules_refine_permissions (text : JsonText) (file : JsonFile) (calls : List RuleCall)
    (hnone : (RbacFile.load text file).manager.rules = [])
    (hvalid : ∀ call ∈ calls, call.key.2 ≠ .invalid) :
    ∃ store, RuleCall.applyAll text calls (.load text file) = .ok () store ∧
      (store.manager.rules.map AccessRule.target).Nodup ∧
      (∀ rule ∈ store.manager.rules, rule.permissions ≠ ∅) ∧
      (∀ user database table perm, store.checkPermission user database table perm = true ↔
        ∃ user' ∈ [user, "*"], ∃ database' ∈ [database, "*"], ∃ table' ∈ [table, "*"],
          RuleCall.LastGranted calls (user', database', table') perm) ∧
      (text.parse (text.dump (rulesToJson store.manager.rules)) =
          some (rulesToJson store.manager.rules) →
        ∀ user database table perm,
          (RbacFile.load text store.file).checkPermission user database table perm =
            store.checkPermission user database table perm) := by
  have hempty : Represents (RbacFile.load text file).manager.rules ∅ := by
    rw [hnone]
    refine ⟨List.nodup_nil, fun rule hrule => absurd hrule List.not_mem_nil, fun target perm => ?_⟩
    exact iff_of_false (Set.notMem_empty _) fun ⟨rule, hrule, _⟩ => absurd hrule List.not_mem_nil
  have hstored : (RbacFile.load text file).Stored text file := .inl rfl
  obtain ⟨⟨⟩, store, hrun, hstored, hrules⟩ :=
    (RuleCall.applyAll_represents calls hvalid hstored hempty).exists_ok
  refine ⟨store, hrun, hrules.nodup, hrules.nonempty, fun user database table perm => ?_, ?_⟩
  · rw [checkPermission_eq_true_iff hrules]
    simp only [← RuleCall.mem_mapAfter]
    rfl
  · intro hfaithful user database table perm
    rw [RbacFile.checkPermission, hstored.load hfaithful, RbacFile.checkPermission]

/-- Overlapping rules, the first of which is revoked. -/
def shopCalls : List RuleCall :=
  [.grant ("alice", "shop", "*") .read, .grant ("*", "shop", "users") .read,
    .grant ("alice", "shop", "*") .write, .revoke ("alice", "shop", "*") .read]

def shopRules : List AccessRule :=
  [⟨"alice", "shop", "*", {.write}⟩, ⟨"*", "shop", "users", {.read}⟩]

/-- `dump(2)` of these rules. -/
def shopBytes : List UInt8 :=
  ("[\n  \x7b\n    \"database\": \"shop\",\n    \"permissions\": [\n      \"WRITE\"\n    ],\n" ++
    "    \"table\": \"*\",\n    \"user_id\": \"alice\"\n  \x7d,\n" ++
    "  \x7b\n    \"database\": \"shop\",\n    \"permissions\": [\n      \"READ\"\n    ],\n" ++
    "    \"table\": \"users\",\n    \"user_id\": \"*\"\n  \x7d\n]").toUTF8.toList

/-- JSON text, as far as these rules go. -/
def shopText : JsonText where
  parse bytes := if bytes = shopBytes then some (rulesToJson shopRules) else none
  dump _ := shopBytes

theorem rules_refine_permissions_shop :
    ∃ store, RuleCall.applyAll shopText shopCalls (.load shopText none) = .ok () store ∧
      store.manager.rules = shopRules ∧
      ∀ user database table perm,
        (RbacFile.load shopText store.file).checkPermission user database table perm =
          store.checkPermission user database table perm := by
  obtain ⟨store, hrun, -, -, -, hload⟩ :=
    rules_refine_permissions shopText none shopCalls rfl (by decide)
  have hrules : store.manager.rules = shopRules := by
    cases hrun
    rfl
  refine ⟨store, hrun, hrules, hload ?_⟩
  rw [hrules]
  exact if_pos rfl

end Runs

end QuasarDB.Server
