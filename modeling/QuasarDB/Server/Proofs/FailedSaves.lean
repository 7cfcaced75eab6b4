import QuasarDB.Server.Proofs.Permissions

set_option autoImplicit false

/-! # Changes of the rules that cannot be saved

When `Save` fails, a grant takes the permission out of the rule again and a revoke puts the rule back.
The first is an undo only if the permission was not there before, the second only if the rule is not
erased: it is erased, and comes back, without the permission. -/

namespace QuasarDB.Server

open Prog

/-- Rules without two for one target, each with some permission. -/
structure WellFormedRules (rules : List AccessRule) : Prop where
  nodup : (rules.map AccessRule.target).Nodup
  nonempty : ∀ rule ∈ rules, rule.permissions ≠ ∅

namespace RuleCall

/-- A call, the save of which fails. -/
def applyUnsaved : RuleCall → Prog RbacManager Unit
  | grant (user, database, table) perm =>
      RbacManager.grantPermission false user database table perm
  | revoke (user, database, table) perm =>
      RbacManager.revokePermission false user database table perm

/-- The call that cannot be saved returns with the rules, and so the answers, from before it. -/
def KeepsRules (call : RuleCall) (rbac : RbacManager) : Prop :=
  ∃ rbac', call.applyUnsaved rbac = .ok () rbac' ∧ rbac'.rules = rbac.rules ∧
    ∀ user database table perm,
      rbac'.checkPermission user database table perm = rbac.checkPermission user database table perm

/-- The permission to grant is missing in the rule of the target, or the permission to revoke is not
    the only one in it. -/
def Undoable (call : RuleCall) (rules : List AccessRule) : Prop :=
  match call with
  | grant target perm =>
      perm = .invalid ∨ ∃ rule ∈ rules, rule.target = target ∧ perm ∉ rule.permissions
  | revoke target perm => ∀ rule ∈ rules, rule.target = target → rule.permissions ≠ {perm}

theorem keepsRules_iff_eq {call : RuleCall} {rbac : RbacManager} :
    call.KeepsRules rbac ↔ call.applyUnsaved rbac = .ok () rbac := by
  constructor
  · rintro ⟨rbac', hrun, hrules, -⟩
    obtain rfl : rbac' = rbac := by
      cases rbac'
      cases rbac
      exact congrArg RbacManager.mk hrules
    exact hrun
  · exact fun hrun => ⟨rbac, hrun, rfl, fun _ _ _ _ => rfl⟩

end RuleCall

/-! ## The two calls -/

section Calls

variable {rules front back : List AccessRule} {rule : AccessRule} {user database table : String}
  {target : Target} {perm : Permission}

/-- A rule for the target is the one that is found. -/
theorem WellFormedRules.eq_of_target (h : WellFormedRules (front ++ ([rule] ++ back)))
    {other : AccessRule} (hother : other ∈ front ++ ([rule] ++ back))
    (htarget : other.target = rule.target) : other = rule := by
  have hinj := List.inj_on_of_nodup_map h.nodup
  exact hinj hother (by simp) htarget

/-- Replacing one rule keeps the list only if the rule stays what it is. -/
theorem replace_eq_iff {new : AccessRule} :
    front ++ ([new] ++ back) = front ++ ([rule] ++ back) ↔ new = rule := by
  simp

namespace RbacManager

/-- A grant that cannot be saved erases the permission that it inserted or found. -/
theorem grantPermission_unsaved (h : WellFormedRules rules) :
    grantPermission false user database table perm ⟨rules⟩ = .ok () ⟨rules⟩ ↔
      perm = .invalid ∨
        ∃ rule ∈ rules, rule.target = (user, database, table) ∧ perm ∉ rule.permissions := by
  rw [grantPermission]
  by_cases hinvalid : perm = .invalid
  · rw [if_pos hinvalid]
    exact iff_of_true rfl (Or.inl hinvalid)
  · rw [if_neg hinvalid, run_get_bind, or_iff_right hinvalid]
    cases hfound : rules.findIdx? (isRuleOf user database table) with
    | none =>
        refine iff_of_false (fun hrun => by cases hrun) ?_
        rintro ⟨rule, hrule, htarget, -⟩
        exact target_ne_of_findIdx? hfound rule hrule htarget
    | some i =>
        obtain ⟨front, rule, back, rfl, hfits, -, hmodify⟩ := exists_of_findIdx? hfound
        obtain ⟨rfl, rfl, rfl⟩ := isRuleOf_iff.1 hfits
        have hkept : ((front ++ ([rule] ++ back)).modify i fun r =>
              { r with permissions := insert perm r.permissions }).modify i
            (fun r => { r with permissions := r.permissions.erase perm })
            = front ++ ([{ rule with permissions := (insert perm rule.permissions).erase perm }] ++
              back) := by
          rw [List.modify_modify_eq, hmodify]
          rfl
        show EStateM.Result.ok () (RbacManager.mk (_ : List AccessRule)) = _ ↔ _
        simp only [Bool.false_eq_true, if_false, hkept]
        rw [EStateM.Result.ok.injEq, RbacManager.mk.injEq, replace_eq_iff]
        constructor
        · rintro ⟨-, hsame⟩
          refine ⟨rule, by simp, rfl, ?_⟩
          rw [← congrArg AccessRule.permissions hsame]
          exact Finset.notMem_erase _ _
        · rintro ⟨other, hother, htarget, hmissing⟩
          obtain rfl := h.eq_of_target hother htarget
          rw [Finset.erase_insert hmissing]
          exact ⟨rfl, rfl⟩

/-- A revoke that cannot be saved puts the rule back without the permission when it was the only
    one. -/
theorem revokePermission_unsaved (h : WellFormedRules rules) :
    revokePermission false user database table perm ⟨rules⟩ = .ok () ⟨rules⟩ ↔
      ∀ rule ∈ rules, rule.target = (user, database, table) → rule.permissions ≠ {perm} := by
  rw [revokePermission, run_get_bind]
  cases hfound : rules.findIdx? (isRuleOf user database table) with
  | none =>
      refine iff_of_true rfl fun rule hrule htarget => ?_
      exact absurd htarget (target_ne_of_findIdx? hfound rule hrule)
  | some i =>
      obtain ⟨front, rule, back, rfl, hfits, rfl, hmodify⟩ := exists_of_findIdx? hfound
      obtain ⟨rfl, rfl, rfl⟩ := isRuleOf_iff.1 hfits
      have hget : (front ++ ([{ rule with permissions := rule.permissions.erase perm }] ++
          back))[front.length]? = some { rule with permissions := rule.permissions.erase perm } := by
        simp
      simp only [hmodify, hget, Option.any_some, decide_eq_true_eq, Bool.false_eq_true,
        if_false]
      by_cases hempty : rule.permissions.erase perm = ∅
      · have honly : rule.permissions = {perm} := by
          rcases (Finset.erase_eq_empty_iff _ _).1 hempty with hnone | honly
          · exact absurd hnone (h.nonempty rule (by simp))
          · exact honly
        rw [if_pos hempty]
        refine iff_of_false (fun hrun => ?_) fun hall => hall rule (by simp) rfl honly
        have hsame := RbacManager.mk.inj (EStateM.Result.ok.inj hrun).2
        rw [replace_eq_iff] at hsame
        have hperms := congrArg AccessRule.permissions hsame
        rw [hempty, honly] at hperms
        exact absurd hperms.symm (Finset.singleton_ne_empty perm)
      · rw [if_neg hempty]
        refine iff_of_true rfl fun other hother htarget honly => hempty ?_
        obtain rfl := h.eq_of_target hother htarget
        rw [honly, Finset.erase_singleton]

end RbacManager

/-- A change that cannot be saved leaves the rules as they were if and only if it grants a permission
    that the rule of the target lacks (or none that can be granted), or revokes one that is not the
    only permission of the target. -/
theorem keepsRules_iff (h : WellFormedRules rules) (call : RuleCall) :
    call.KeepsRules ⟨rules⟩ ↔ call.Undoable rules := by
  rw [RuleCall.keepsRules_iff_eq]
  cases call with
  | grant target perm => exact RbacManager.grantPermission_unsaved h
  | revoke target perm => exact RbacManager.revokePermission_unsaved h

/-- A second permission that cannot be saved. -/
theorem keepsRules_iff_second :
    (RuleCall.grant ("ann", "shop", "t") .write).KeepsRules ⟨[⟨"ann", "shop", "t", {.read}⟩]⟩ :=
  (keepsRules_iff ⟨by decide, by decide⟩ _).2 (Or.inr ⟨⟨"ann", "shop", "t", {.read}⟩, by decide⟩)

/-- A grant of a permission that was there takes it away, a revoke of the only one does too, and a
    grant that needs a new rule compares an iterator that `push_back` has made invalid. -/
theorem failed_save_changes_rules :
    WellFormedRules [⟨"ann", "shop", "t", {.read}⟩]
      ∧ (RuleCall.grant ("ann", "shop", "t") .read).applyUnsaved ⟨[⟨"ann", "shop", "t", {.read}⟩]⟩
        = .ok () ⟨[⟨"ann", "shop", "t", ∅⟩]⟩
      ∧ (RuleCall.revoke ("ann", "shop", "t") .read).applyUnsaved ⟨[⟨"ann", "shop", "t", {.read}⟩]⟩
        = .ok () ⟨[⟨"ann", "shop", "t", ∅⟩]⟩
      ∧ RbacManager.checkPermission ⟨[⟨"ann", "shop", "t", {.read}⟩]⟩ "ann" "shop" "t" .read = true
      ∧ RbacManager.checkPermission ⟨[⟨"ann", "shop", "t", ∅⟩]⟩ "ann" "shop" "t" .read = false
      ∧ ¬ (RuleCall.grant ("ann", "shop", "t") .read).KeepsRules ⟨[⟨"ann", "shop", "t", {.read}⟩]⟩
      ∧ ¬ (RuleCall.revoke ("ann", "shop", "t") .read).KeepsRules ⟨[⟨"ann", "shop", "t", {.read}⟩]⟩
      ∧ ¬ (RuleCall.grant ("ann", "shop", "u") .read).KeepsRules ⟨[⟨"ann", "shop", "t", {.read}⟩]⟩ := by
  have hgrant : (RuleCall.grant ("ann", "shop", "t") .read).applyUnsaved
      ⟨[⟨"ann", "shop", "t", {.read}⟩]⟩ = .ok () ⟨[⟨"ann", "shop", "t", ∅⟩]⟩ := by rfl
  have hrevoke : (RuleCall.revoke ("ann", "shop", "t") .read).applyUnsaved
      ⟨[⟨"ann", "shop", "t", {.read}⟩]⟩ = .ok () ⟨[⟨"ann", "shop", "t", ∅⟩]⟩ := by rfl
  refine ⟨⟨by decide, by decide⟩, hgrant, hrevoke, by decide, by decide, ?_, ?_, ?_⟩
  · rintro ⟨rbac', hrun, hrules, -⟩
    rw [hgrant] at hrun
    cases hrun
    exact absurd hrules (by decide)
  · rintro ⟨rbac', hrun, hrules, -⟩
    rw [hrevoke] at hrun
    cases hrun
    exact absurd hrules (by decide)
  · rintro ⟨rbac', hrun, -⟩
    cases hrun

end Calls

end QuasarDB.Server
