import QuasarDB.Server.Proofs.Mediation

set_option autoImplicit false

/-! # Bounded delegation

What a `GRANT` or a `REVOKE` changes lies in its scope, and the permission to create on a scope is the
permission to create on everything in it. -/

namespace QuasarDB.Server

open Core Prog

/-! ## Scopes -/

/-- A part of a scope stands for a name. -/
def Matches (part name : String) : Prop := part = name ∨ part = "*"

/-- The table lies in the scope. -/
def Covers (scope : TableRef) (database table : String) : Prop :=
  Matches scope.database database ∧ Matches scope.table table

namespace RbacManager

variable {rbac rbac' rbac'' : RbacManager} {scope : TableRef} {user database table : String}
  {perm : Permission}

theorem checkPermission_iff :
    rbac.checkPermission user database table perm = true ↔
      ∃ rule ∈ rbac.rules, applies user database table perm rule = true := by
  unfold checkPermission
  exact List.find?_isSome

theorem applies_iff {rule : AccessRule} :
    applies user database table perm rule = true ↔
      Matches rule.userId user ∧ Matches rule.database database ∧ Matches rule.table table ∧
        perm ∈ rule.permissions := by
  simp [applies, Matches, and_assoc]

/-- A wildcard matches no more than what its own part stands for. -/
theorem matches_trans {part wide name : String} (h : Matches part wide) (hwide : Matches wide name) :
    Matches part name := by
  rcases h with rfl | rfl
  · exact hwide
  · exact .inr rfl

/-- A permission on a scope is one on everything in it. -/
theorem checkPermission_of_covers (hcovers : Covers scope database table)
    (h : rbac.checkPermission user scope.database scope.table perm = true) :
    rbac.checkPermission user database table perm = true := by
  obtain ⟨rule, hrule, happlies⟩ := checkPermission_iff.1 h
  obtain ⟨huser, hdatabase, htable, hperm⟩ := applies_iff.1 happlies
  exact checkPermission_iff.2 ⟨rule, hrule, applies_iff.2
    ⟨huser, matches_trans hdatabase hcovers.1, matches_trans htable hcovers.2, hperm⟩⟩

/-! ## Changes in a scope -/

/-- The two rule sets differ at most on the tables of the scope. -/
def AgreeOutside (scope : TableRef) (rbac rbac' : RbacManager) : Prop :=
  ∀ user database table perm, ¬ Covers scope database table →
    rbac'.checkPermission user database table perm = rbac.checkPermission user database table perm

theorem AgreeOutside.refl : AgreeOutside scope rbac rbac := fun _ _ _ _ _ => rfl

theorem AgreeOutside.trans (h : AgreeOutside scope rbac rbac')
    (h' : AgreeOutside scope rbac' rbac'') : AgreeOutside scope rbac rbac'' := by
  intro user database table perm hout
  rw [h' user database table perm hout, h user database table perm hout]

/-- A rule for a scope. -/
def OnScope (scope : TableRef) (rule : AccessRule) : Prop :=
  rule.database = scope.database ∧ rule.table = scope.table

theorem OnScope.not_applies {rule : AccessRule} (h : OnScope scope rule)
    (hout : ¬ Covers scope database table) : ¬ applies user database table perm rule = true := by
  intro happlies
  obtain ⟨_, hdatabase, htable, _⟩ := applies_iff.1 happlies
  rw [h.1] at hdatabase
  rw [h.2] at htable
  exact hout ⟨hdatabase, htable⟩

/-- Rules for a scope are replaced by others for the same scope. -/
theorem agreeOutside_replace {front back old new : List AccessRule}
    (hold : ∀ rule ∈ old, OnScope scope rule) (hnew : ∀ rule ∈ new, OnScope scope rule) :
    AgreeOutside scope ⟨front ++ (old ++ back)⟩ ⟨front ++ (new ++ back)⟩ := by
  intro user database table perm hout
  rw [Bool.eq_iff_iff, checkPermission_iff, checkPermission_iff]
  -- a rule that applies is none of those replaced, on either side
  constructor
  · rintro ⟨rule, hrule, happlies⟩
    have hne : rule ∉ new := fun h => (hnew rule h).not_applies hout happlies
    simp only [List.mem_append] at hrule ⊢
    exact ⟨rule, by tauto, happlies⟩
  · rintro ⟨rule, hrule, happlies⟩
    have hne : rule ∉ old := fun h => (hold rule h).not_applies hout happlies
    simp only [List.mem_append] at hrule ⊢
    exact ⟨rule, by tauto, happlies⟩

/-- The rule that `GrantPermission` and `RevokePermission` find, and what a change of it gives. -/
theorem exists_of_findIdx? {rules : List AccessRule} {i : Nat} {found : AccessRule → Bool}
    (h : rules.findIdx? found = some i) :
    ∃ front rule back, rules = front ++ ([rule] ++ back) ∧ found rule = true ∧ front.length = i ∧
      ∀ f, rules.modify i f = front ++ ([f rule] ++ back) := by
  obtain ⟨hi, hrule, _⟩ := List.findIdx?_eq_some_iff_getElem.1 h
  obtain ⟨front, rule, back, hsplit, hlength, _⟩ := List.exists_of_modify id hi
  subst hsplit hlength
  refine ⟨front, rule, back, rfl, ?_, rfl, fun f => ?_⟩
  · simpa only [List.getElem_append_right (Nat.le_refl _), Nat.sub_self, List.getElem_cons_zero]
      using hrule
  · rw [List.modify_eq_take_cons_drop hi]
    simp

theorem isRuleOf_iff {rule : AccessRule} : isRuleOf user database table rule = true ↔
    rule.userId = user ∧ rule.database = database ∧ rule.table = table := by
  simp [isRuleOf, and_assoc]

theorem OnScope.of_isRuleOf {rule : AccessRule}
    (h : isRuleOf user scope.database scope.table rule = true) : OnScope scope rule :=
  (isRuleOf_iff.1 h).2

theorem grantPermission_post :
    (grantPermission true user scope.database scope.table perm).Post rbac
      (fun _ rbac' => AgreeOutside scope rbac rbac') (fun _ _ => False) := by
  obtain ⟨rules⟩ := rbac
  refine Post.ite (fun _ => Post.pure .refl) (fun _ => Post.get_bind ?_)
  cases hfound : rules.findIdx? (isRuleOf user scope.database scope.table) with
  | some i =>
      obtain ⟨front, rule, back, rfl, hfits, _, hmodify⟩ := exists_of_findIdx? hfound
      have hrule := OnScope.of_isRuleOf hfits
      simp only [hfound, if_true, hmodify]
      refine Post.set (agreeOutside_replace (fun r hr => ?_) (fun r hr => ?_))
      · rw [List.mem_singleton.1 hr]
        exact hrule
      · rw [List.mem_singleton.1 hr]
        exact hrule
  | none =>
      simp only [hfound]
      refine Post.bind (Post.set (Post.pure ?_))
      have happend : AgreeOutside scope ⟨rules ++ ([] ++ [])⟩
          ⟨rules ++ ([⟨user, scope.database, scope.table, {perm}⟩] ++ [])⟩ := by
        refine agreeOutside_replace (by simp) (fun r hr => ?_)
        rw [List.mem_singleton.1 hr]
        exact ⟨rfl, rfl⟩
      simpa using happend

theorem revokePermission_post :
    (revokePermission true user scope.database scope.table perm).Post rbac
      (fun _ rbac' => AgreeOutside scope rbac rbac') (fun _ _ => False) := by
  obtain ⟨rules⟩ := rbac
  refine Post.get_bind ?_
  cases hfound : rules.findIdx? (isRuleOf user scope.database scope.table) with
  | none =>
      simp only [hfound]
      exact Post.pure .refl
  | some i =>
      obtain ⟨front, rule, back, rfl, hfits, rfl, hmodify⟩ := exists_of_findIdx? hfound
      have hrule := OnScope.of_isRuleOf hfits
      simp only [hfound, if_true, hmodify]
      have hold : ∀ r ∈ [rule], OnScope scope r := fun r hr => by
        rw [List.mem_singleton.1 hr]
        exact hrule
      refine Post.ite (fun _ => Post.set ?_) (fun _ => Post.set ?_)
      · -- the rule had no other permission
        rw [List.eraseIdx_append_of_length_le (Nat.le_refl _), Nat.sub_self]
        exact agreeOutside_replace hold (List.forall_mem_nil _)
      · refine agreeOutside_replace hold (fun r hr => ?_)
        rw [List.mem_singleton.1 hr]
        exact hrule

end RbacManager

/-! ## Statements on rules -/

section Statements

variable {config : Config} {env : Env} {request : Request} {h : Handling} {user : String}

/-- The loop over the permissions stays in the scope, from every save of the rules on. -/
theorem applyPermissions_post (hsaved : ∀ n, env.rulesSaved n = true) {grant : Bool}
    {username : String} {scope : TableRef} {names : List String} {n : Nat} {rbac : RbacManager} :
    (applyPermissions env grant username scope n names).Post rbac
      (fun _ rbac' => rbac.AgreeOutside scope rbac') (fun _ _ => False) := by
  induction names generalizing n rbac with
  | nil => exact Post.pure (.refl)
  | cons name names ih =>
      refine Post.ite (fun _ => Post.pure .refl) (fun _ => ?_)
      -- the other names start from the rules this one leaves
      have hrest : ∀ rbac', rbac.AgreeOutside scope rbac' →
          (applyPermissions env grant username scope (n + 1) names).Post rbac'
            (fun _ rbac'' => rbac.AgreeOutside scope rbac'') (fun _ _ => False) := by
        intro rbac' hfirst
        exact ih.mono (fun _ _ hothers => hfirst.trans hothers) (fun _ _ hfalse => hfalse)
      rw [hsaved n]
      refine Post.ite (fun _ => ?_) (fun _ => ?_)
      · exact Post.bind (RbacManager.grantPermission_post.mono
          (fun _ rbac' hfirst => hrest rbac' hfirst) (fun _ _ hfalse => hfalse))
      · exact Post.bind (RbacManager.revokePermission_post.mono
          (fun _ rbac' hfirst => hrest rbac' hfirst) (fun _ _ hfalse => hfalse))

/-- The authority over what differs between the two rule sets. -/
def Delegated (user : String) (rbac rbac' : RbacManager) : Prop :=
  ∀ v database table perm,
    rbac'.checkPermission v database table perm ≠ rbac.checkPermission v database table perm →
      rbac.checkPermission user database table .create = true

theorem Delegated.refl {rbac : RbacManager} : Delegated user rbac rbac :=
  fun _ _ _ _ hne => absurd rfl hne

theorem handlePermissions_delegated (hauth : config.authRequired = true)
    (hsaved : ∀ n, env.rulesSaved n = true) {grant : Bool} {permissions : List String}
    {scope : TableRef} {username : String} :
    (handlePermissions config env user grant permissions scope username).Post h
      (fun _ h' => Delegated user h.app.rbac h'.app.rbac)
      (fun _ h' => Delegated user h.app.rbac h'.app.rbac) := by
  refine Post.get_bind (Post.ite (fun _ => Post.pure .refl) (fun hdenied => Post.get_bind ?_))
  refine Post.ite (fun _ => Post.pure .refl) (fun _ => ?_)
  have hscope : h.app.rbac.checkPermission user scope.database scope.table .create = true := by
    simpa [hauth] using hdenied
  refine Post.bind (Post.on ((applyPermissions_post hsaved).mono (fun unknown rbac' hagree => ?_)
    (fun _ _ hfalse => hfalse.elim)))
  have hdelegated : Delegated user h.app.rbac rbac' := by
    intro v database table perm hne
    by_cases hcovers : Covers scope database table
    · exact RbacManager.checkPermission_of_covers hcovers hscope
    · exact absurd (hagree v database table perm hcovers) hne
  cases unknown <;> exact Post.pure hdelegated

/-- A request changes a permission on a table only for a user who may create on that table. -/
theorem handleExecute_delegates (hauth : config.authRequired = true)
    (hsaved : ∀ n, env.rulesSaved n = true) {v database table : String} {perm : Permission}
    (hne : ((handleExecute config env request).after h).app.rbac.checkPermission v database table perm
      ≠ h.app.rbac.checkPermission v database table perm) :
    ∃ user, authenticate env h.app request = some user ∧
      h.app.rbac.checkPermission user database table .create = true := by
  revert hne
  refine Post.of_after (P := fun h' : Handling =>
    h'.app.rbac.checkPermission v database table perm
      ≠ h.app.rbac.checkPermission v database table perm → _) ?_
  refine handleExecute_post (fun _ hne => absurd rfl hne) (fun _ hne => absurd rfl hne)
    (fun query statement _ _ hadmitted => ?_)
  obtain ⟨user, huser⟩ := Option.isSome_iff_exists.1 (hadmitted hauth).2
  rw [huser, Option.getD_some]
  have hdelegated : (handleStatement config env user statement).Post h
      (fun _ h' => Delegated user h.app.rbac h'.app.rbac)
      (fun _ h' => Delegated user h.app.rbac h'.app.rbac) := by
    refine handleStatement_post (fun _ => .refl) (fun _ => .refl) (fun _ _ _ => ?_)
      (fun _ _ _ _ _ => handlePermissions_delegated hauth hsaved) (fun _ _ _ => ?_)
    · refine handleCreateUser_frame.mono ?_ ?_
      · rintro _ _ ⟨accounts, rfl⟩
        exact .refl
      · rintro _ _ ⟨accounts, rfl⟩
        exact .refl
    · refine executeStatement_frame.mono ?_ ?_
      · rintro _ h' ⟨router, tasks, happ⟩
        rw [happ]
        exact .refl
      · rintro _ h' ⟨router, tasks, happ⟩
        rw [happ]
        exact .refl
  exact hdelegated.mono
    (fun _ _ hauthority hne => ⟨user, rfl, hauthority v database table perm hne⟩)
    (fun _ _ hauthority hne => ⟨user, rfl, hauthority v database table perm hne⟩)

/-- Whoever may create on a database grants on every table of it, also to those who had nothing. -/
theorem handleExecute_delegates_grant :
    ∃ user, authenticate tokenEnv
        (tokenServer ["ann", "bob"] [⟨"ann", "d", "*", {.create}⟩])
        (queryRequest "ann" "GRANT READ ON d.* TO bob;") = some user ∧
      RbacManager.checkPermission ⟨[⟨"ann", "d", "*", {.create}⟩]⟩ user "d" "t" .create = true := by
  have hne : ((handleExecute tokenConfig tokenEnv
      (queryRequest "ann" "GRANT READ ON d.* TO bob;")).after
        { app := tokenServer ["ann", "bob"] [⟨"ann", "d", "*", {.create}⟩],
          session := {} }).app.rbac.checkPermission "bob" "d" "t" .read ≠
      RbacManager.checkPermission ⟨[⟨"ann", "d", "*", {.create}⟩]⟩ "bob" "d" "t" .read := by
    decide +kernel
  exact handleExecute_delegates rfl (fun _ => rfl) hne

end Statements

end QuasarDB.Server
