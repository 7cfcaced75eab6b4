import QuasarDB.Storage.Meaning
import QuasarDB.Storage.Proofs.Growth

set_option autoImplicit false

/-! # Conditions and what they mean

A condition is true, false or unknown of a row as it means to be, except for a `BETWEEN` on strings, which
compares the ids that the strings were given and not the strings. -/

namespace QuasarDB.Storage

open Prog Server

/-! ## Strings that are remembered -/

namespace StringStore

variable {store store' : StringStore} {str : String}

theorem remember_of_some {id : UInt32} (h : store.stringToId.lookup str = some id) :
    store.remember str = store := by
  rw [remember, if_pos (by rw [h]; rfl)]

theorem remember_of_none (h : store.stringToId.lookup str = none) :
    store.remember str = store.append str := by
  rw [remember, if_neg (by rw [h]; simp)]

@[simp] theorem rememberAll_nil : store.rememberAll [] = store := rfl

@[simp] theorem rememberAll_cons (strs : List String) :
    store.rememberAll (str :: strs) = (store.remember str).rememberAll strs := rfl

theorem rememberAll_append (strs strs' : List String) :
    store.rememberAll (strs ++ strs') = (store.rememberAll strs).rememberAll strs' :=
  List.foldl_append

/-- Every id keeps its string, and every string its id. -/
structure Settles (store store' : StringStore) : Prop where
  extends_ : store.Extends store'
  ids : ∀ str id, store.stringToId.lookup str = some id → store'.stringToId.lookup str = some id

theorem Settles.refl : store.Settles store := ⟨.refl, fun _ _ h => h⟩

theorem Settles.trans {store'' : StringStore} (h : store.Settles store')
    (h' : store'.Settles store'') : store.Settles store'' :=
  ⟨h.extends_.trans h'.extends_, fun str id hid => h'.ids str id (h.ids str id hid)⟩

theorem settles_remember (str : String) : store.Settles (store.remember str) := by
  unfold remember
  split
  · exact .refl
  · exact ⟨extends_append str, fun _ _ h => lookup_emplace_of_some h⟩

theorem settles_rememberAll (strs : List String) : store.Settles (store.rememberAll strs) := by
  induction strs generalizing store with
  | nil => exact .refl
  | cons str strs ih => exact (settles_remember str).trans ih

theorem consistent_new : new.Consistent := by
  refine ⟨fun str id h => ?_, fun id view h => ?_⟩
  · cases h
  · cases h

/-- A string gets an id that none has, as long as there are any. -/
theorem Consistent.remember (h : store.Consistent) (hroom : store.nextId.toNat + 1 < 2 ^ 32)
    (str : String) : (store.remember str).Consistent := by
  cases hlookup : store.stringToId.lookup str with
  | some id =>
      rw [remember_of_some hlookup]
      exact h
  | none =>
      rw [remember_of_none hlookup]
      have hfree : store.idToView.lookup store.nextId = none := by
        cases hview : store.idToView.lookup store.nextId with
        | none => rfl
        | some view => exact absurd (h.below _ _ hview) (UInt32.lt_irrefl _)
      have hnext : store.nextId < store.nextId + 1 := by
        rw [UInt32.lt_iff_toNat_lt, UInt32.toNat_add]
        simp only [UInt32.reduceToNat]
        omega
      refine ⟨fun other id hid => ?_, fun id view hid => ?_⟩
      · by_cases hother : other = str
        · subst hother
          have hid' : (store.append other).stringToId.lookup other = some store.nextId :=
            lookup_emplace_of_none hlookup
          obtain rfl := Option.some.inj (hid'.symm.trans hid)
          exact lookup_emplace_of_none hfree
        · have hid : store.stringToId.lookup other = some id :=
            (lookup_emplace_of_ne hother).symm.trans hid
          exact lookup_emplace_of_some (h.faithful other id hid)
      · by_cases hid' : id = store.nextId
        · subst hid'
          exact hnext
        · have hview : store.idToView.lookup id = some view :=
            (lookup_emplace_of_ne hid').symm.trans hid
          exact UInt32.lt_trans (h.below id view hview) hnext

theorem nextId_remember_le (hroom : store.nextId.toNat + 1 < 2 ^ 32) (str : String) :
    (store.remember str).nextId.toNat ≤ store.nextId.toNat + 1 := by
  unfold StringStore.remember
  split
  · omega
  · rw [StringStore.append, UInt32.toNat_add]
    simp only [UInt32.reduceToNat]
    omega

theorem Consistent.rememberAll (strs : List String) (h : store.Consistent)
    (hroom : store.nextId.toNat + strs.length < 2 ^ 32) : (store.rememberAll strs).Consistent := by
  induction strs generalizing store with
  | nil => exact h
  | cons str strs ih =>
      rw [List.length_cons] at hroom
      have hnext : (store.remember str).nextId.toNat ≤ store.nextId.toNat + 1 :=
        nextId_remember_le (by omega) str
      rw [rememberAll_cons]
      exact ih (h.remember (by omega) str) (by omega)

theorem run_intern {id : UInt32} (h : store.stringToId.lookup str = some id) :
    intern str store = .ok (.string ⟨id⟩) store := by
  rw [intern, run_get_bind, h]
  rfl

/-- `Intern` gives the id of the string in the store that remembers it. -/
theorem run_intern_remember (str : String) (store : StringStore) :
    ∃ id, intern str store = .ok (.string ⟨id⟩) (store.remember str) ∧
      (store.remember str).stringToId.lookup str = some id := by
  cases hlookup : store.stringToId.lookup str with
  | some id =>
      rw [remember_of_some hlookup]
      exact ⟨id, run_intern hlookup, hlookup⟩
  | none =>
      rw [remember_of_none hlookup]
      have hrun : intern str store = .ok (.string ⟨store.nextId⟩) (store.append str) := by
        rw [intern, run_get_bind, hlookup]
        rfl
      exact ⟨store.nextId, hrun, lookup_emplace_of_none hlookup⟩

theorem intern_eq_ok {value : Value} (h : intern str store = .ok value store') :
    store' = store.remember str ∧
      ∃ id, value = .string ⟨id⟩ ∧ store'.stringToId.lookup str = some id := by
  obtain ⟨id, hrun, hid⟩ := run_intern_remember str store
  rw [hrun] at h
  cases h
  exact ⟨rfl, id, rfl, hid⟩

end StringStore

open StringStore

/-! ## Looking again -/

section Again

variable {store store' : StringStore} {schema : Schema} {record : Record} {value : Value}
  {expression : Expression}

theorem literalValue_eq_ok {literal : Literal} (h : literalValue literal store = .ok value store') :
    store' = store.rememberAll (expressionTexts (.literal literal)) ∧
      ∀ later, store'.Settles later →
        literalValue literal later = .ok value later ∧
        later.valueOf schema record (.literal literal) = some value := by
  obtain ⟨type, text⟩ := literal
  cases type with
  | null =>
      obtain ⟨rfl, rfl⟩ := Prog.pure_eq_ok.1 h
      exact ⟨rfl, fun later _ => ⟨rfl, rfl⟩⟩
  | integer =>
      obtain ⟨n, store₁, hn, h₁⟩ := Prog.bind_eq_ok.1 h
      obtain ⟨rfl, rfl⟩ := Prog.pure_eq_ok.1 h₁
      dsimp only at hn
      cases hstoi : stoi text with
      | error what =>
          rw [hstoi] at hn
          cases hn
      | ok m =>
          rw [hstoi] at hn
          cases hn
          refine ⟨rfl, fun later _ => ⟨?_, ?_⟩⟩
          · simp only [literalValue, hstoi]
            rfl
          · simp only [StringStore.valueOf, hstoi]
            rfl
  | string =>
      obtain ⟨hstore, id, rfl, hid⟩ := intern_eq_ok h
      refine ⟨hstore, fun later hlater => ⟨run_intern (hlater.ids _ _ hid), ?_⟩⟩
      simp only [StringStore.valueOf, hlater.ids _ _ hid]
      rfl

/-- An expression that has a value interns its text, and has the same value wherever that is known. -/
theorem expressionValue_eq_ok (h : expressionValue expression schema record store = .ok value store') :
    store' = store.rememberAll (expressionTexts expression) ∧
      ∀ later, store'.Settles later →
        expressionValue expression schema record later = .ok value later ∧
        later.valueOf schema record expression = some value := by
  cases expression with
  | literal literal => exact literalValue_eq_ok h
  | identifier name =>
      simp only [expressionValue] at h ⊢
      cases hindex : schema.columnIndex name with
      | none =>
          rw [hindex] at h
          cases h
      | some index =>
          simp only [hindex] at h ⊢
          cases hfield : record.fields[index]? with
          | none =>
              rw [hfield] at h
              cases h
          | some field =>
              rw [hfield] at h
              cases h
              refine ⟨rfl, fun later _ => ⟨rfl, ?_⟩⟩
              simp only [StringStore.valueOf, hindex, Option.bind_some, hfield]
  | aggregate function column => cases h

theorem viewOf_eq_ok {id : StringId} {view : String} (h : viewOf id store = .ok view store') :
    store' = store ∧ store.idToView.lookup id.value = some view := by
  rw [viewOf, run_get_bind, Interner.view] at h
  cases hlookup : store.idToView.lookup id.value with
  | none =>
      rw [hlookup] at h
      cases h
  | some found =>
      rw [hlookup] at h
      cases h
      exact ⟨rfl, rfl⟩

theorem run_viewOf {id : StringId} {view : String} (h : store.idToView.lookup id.value = some view) :
    viewOf id store = .ok view store := by
  rw [viewOf, run_get_bind, Interner.view, h]
  rfl

theorem ofExcept_eq_ok {σ α : Type} {x : Except String α} {a : α} {s t : σ}
    (h : (ofExcept x : Prog σ α) s = .ok a t) : t = s ∧ x = .ok a := by
  cases x with
  | error what => cases h
  | ok b =>
      cases h
      exact ⟨rfl, rfl⟩

/-- The comparison of two values. -/
def compareValues (op : ComparisonOperator) (left right : Value) : Prog StringStore SqlBool :=
  if left.isNull || right.isNull then return .unknown
  else
    match left, right with
    | .string left, .string right => return compareStrings op (← viewOf left) (← viewOf right)
    | left, right => Prog.ofExcept (left.compare op right)

/-- The match of a value with a pattern. -/
def likeValue (regexMatch : RegexMatch) (pattern : String) : Value → Prog StringStore SqlBool
  | .null => return .unknown
  | .int _ =>
      throw (.exception "[ERROR in qdb::storage::EvaluateCondition]: LIKE expects string value!")
  | .string id => return .ofBool (← Prog.ofExcept (regexMatch pattern (← viewOf id)))

theorem compareValues_eq_ok {op : ComparisonOperator} {left right : Value} {b : SqlBool}
    (h : compareValues op left right store = .ok b store') :
    store' = store ∧ ∀ later, store.Extends later → compareValues op left right later = .ok b later := by
  unfold compareValues at h ⊢
  by_cases hnull : (left.isNull || right.isNull) = true
  · rw [if_pos hnull] at h
    cases h
    exact ⟨rfl, fun later _ => by rw [if_pos hnull]; rfl⟩
  · rw [if_neg hnull] at h
    simp only [if_neg hnull]
    split at h
    · obtain ⟨view₁, store₁, hview₁, h₁⟩ := Prog.bind_eq_ok.1 h
      obtain ⟨view₂, store₂, hview₂, h₂⟩ := Prog.bind_eq_ok.1 h₁
      obtain ⟨rfl, hlookup₁⟩ := viewOf_eq_ok hview₁
      obtain ⟨rfl, hlookup₂⟩ := viewOf_eq_ok hview₂
      cases h₂
      refine ⟨rfl, fun later hlater => ?_⟩
      rw [Prog.bind_ok (run_viewOf (hlater _ _ hlookup₁)),
        Prog.bind_ok (run_viewOf (hlater _ _ hlookup₂))]
      rfl
    · obtain ⟨rfl, hcompare⟩ := ofExcept_eq_ok h
      refine ⟨rfl, fun later _ => ?_⟩
      rw [hcompare]
      rfl

theorem likeValue_eq_ok {regexMatch : RegexMatch} {pattern : String} {b : SqlBool}
    (h : likeValue regexMatch pattern value store = .ok b store') :
    store' = store ∧
      ∀ later, store.Extends later → likeValue regexMatch pattern value later = .ok b later := by
  cases value with
  | null =>
      cases h
      exact ⟨rfl, fun later _ => rfl⟩
  | int n => cases h
  | string id =>
      obtain ⟨view, store₁, hview, h₁⟩ := Prog.bind_eq_ok.1 h
      obtain ⟨rfl, hlookup⟩ := viewOf_eq_ok hview
      obtain ⟨matched, store₂, hmatch, h₂⟩ := Prog.bind_eq_ok.1 h₁
      obtain ⟨rfl, hmatched⟩ := ofExcept_eq_ok hmatch
      cases h₂
      refine ⟨rfl, fun later hlater => ?_⟩
      rw [likeValue, Prog.bind_ok (run_viewOf (hlater _ _ hlookup)), hmatched]
      rfl

theorem evaluateComparison_eq_ok {regexMatch : RegexMatch} {left right : Expression}
    {op : ComparisonOperator} {b : SqlBool}
    (h : evaluateCondition regexMatch schema record (.comparison left op right) store
      = .ok b store') :
    store' = store.rememberAll (conditionTexts (.comparison left op right)) ∧
      ∀ later, store'.Settles later →
        evaluateCondition regexMatch schema record (.comparison left op right) later
          = .ok b later := by
  obtain ⟨l, store₁, hl, h₁⟩ := Prog.bind_eq_ok.1 h
  obtain ⟨r, store₂, hr, h₂⟩ := Prog.bind_eq_ok.1 h₁
  obtain ⟨hstore₁, hl⟩ := expressionValue_eq_ok hl
  obtain ⟨hstore₂, hr⟩ := expressionValue_eq_ok hr
  obtain ⟨rfl, hcompare⟩ := compareValues_eq_ok h₂
  constructor
  · rw [conditionTexts, rememberAll_append, ← hstore₁, ← hstore₂]
  · intro later hlater
    have hsettles : store₁.Settles store' := hstore₂ ▸ settles_rememberAll _
    rw [evaluateCondition, Prog.bind_ok (hl later (hsettles.trans hlater)).1,
      Prog.bind_ok (hr later hlater).1]
    exact hcompare later hlater.extends_

theorem evaluateBetween_eq_ok {regexMatch : RegexMatch} {value lower upper : Expression}
    {b : SqlBool}
    (h : evaluateCondition regexMatch schema record (.between value lower upper) store
      = .ok b store') :
    store' = store.rememberAll (conditionTexts (.between value lower upper)) ∧
      ∀ later, store'.Settles later →
        evaluateCondition regexMatch schema record (.between value lower upper) later
          = .ok b later := by
  obtain ⟨v, store₁, hv, h₁⟩ := Prog.bind_eq_ok.1 h
  obtain ⟨l, store₂, hl, h₂⟩ := Prog.bind_eq_ok.1 h₁
  obtain ⟨aboveLower, store₃, hge, h₃⟩ := Prog.bind_eq_ok.1 h₂
  obtain ⟨u, store₄, hu, h₄⟩ := Prog.bind_eq_ok.1 h₃
  obtain ⟨belowUpper, store₅, hle, h₅⟩ := Prog.bind_eq_ok.1 h₄
  obtain ⟨rfl, habove⟩ := ofExcept_eq_ok hge
  obtain ⟨hstore₁, hv⟩ := expressionValue_eq_ok hv
  obtain ⟨hstore₂, hl⟩ := expressionValue_eq_ok hl
  obtain ⟨hstore₄, hu⟩ := expressionValue_eq_ok hu
  obtain ⟨rfl, hbelow⟩ := ofExcept_eq_ok hle
  obtain ⟨rfl, rfl⟩ := Prog.pure_eq_ok.1 h₅
  constructor
  · rw [conditionTexts, rememberAll_append, rememberAll_append, ← hstore₁, ← hstore₂, ← hstore₄]
  · intro later hlater
    have hsettles₂ : store₃.Settles store' := hstore₄ ▸ settles_rememberAll _
    have hsettles₁ : store₁.Settles store₃ := hstore₂ ▸ settles_rememberAll _
    rw [evaluateCondition, Prog.bind_ok (hv later (hsettles₁.trans (hsettles₂.trans hlater))).1,
      Prog.bind_ok (hl later (hsettles₂.trans hlater)).1, habove]
    rw [show (Prog.ofExcept (.ok aboveLower) : Prog StringStore SqlBool) = pure aboveLower from rfl,
      run_pure_bind, Prog.bind_ok (hu later hlater).1, hbelow]
    rfl

theorem evaluateLike_eq_ok {regexMatch : RegexMatch} {value : Expression} {pattern : String}
    {b : SqlBool}
    (h : evaluateCondition regexMatch schema record (.like value pattern) store = .ok b store') :
    store' = store.rememberAll (conditionTexts (.like value pattern)) ∧
      ∀ later, store'.Settles later →
        evaluateCondition regexMatch schema record (.like value pattern) later = .ok b later := by
  obtain ⟨v, store₁, hv, h₁⟩ := Prog.bind_eq_ok.1 h
  obtain ⟨hstore₁, hv⟩ := expressionValue_eq_ok hv
  obtain ⟨rfl, hlike⟩ : store' = store₁ ∧
      ∀ later, store₁.Extends later → likeValue regexMatch pattern v later = .ok b later := by
    refine likeValue_eq_ok (Eq.trans ?_ h₁)
    cases v <;> rfl
  constructor
  · rw [conditionTexts, ← hstore₁]
  · intro later hlater
    rw [evaluateCondition, Prog.bind_ok (hv later hlater).1]
    refine Eq.trans ?_ (hlike later hlater.extends_)
    cases v <;> rfl

/-- A condition that is evaluated interns its texts. Where these are known it is evaluated again with
    the same result, and so are its parts. -/
def EvaluatesAgain (regexMatch : RegexMatch) (schema : Schema) (record : Record)
    (condition : Condition) (b : SqlBool) (store store' : StringStore) : Prop :=
  store' = store.rememberAll (conditionTexts condition) ∧
    ∀ later, store'.Settles later →
      evaluateCondition regexMatch schema record condition later = .ok b later ∧
      ∀ part ∈ conditionParts condition,
        ∃ b', evaluateCondition regexMatch schema record part later = .ok b' later

/-- A condition without parts of its own. -/
theorem EvaluatesAgain.of_single {regexMatch : RegexMatch} {condition : Condition} {b : SqlBool}
    (hparts : conditionParts condition = [condition])
    (h : store' = store.rememberAll (conditionTexts condition) ∧
      ∀ later, store'.Settles later →
        evaluateCondition regexMatch schema record condition later = .ok b later) :
    EvaluatesAgain regexMatch schema record condition b store store' := by
  refine ⟨h.1, fun later hlater => ⟨h.2 later hlater, fun part hpart => ?_⟩⟩
  rw [hparts, List.mem_singleton] at hpart
  rw [hpart]
  exact ⟨b, h.2 later hlater⟩

/-- `AND` and `OR` evaluate their left side, then their right side, and combine the results. -/
theorem EvaluatesAgain.connective {regexMatch : RegexMatch} {condition left right : Condition}
    {combine : SqlBool → SqlBool → SqlBool} {bl br : SqlBool} {store₁ : StringStore}
    (heval : evaluateCondition regexMatch schema record condition = do
      let l ← evaluateCondition regexMatch schema record left
      let r ← evaluateCondition regexMatch schema record right
      return combine l r)
    (htexts : conditionTexts condition = conditionTexts left ++ conditionTexts right)
    (hparts : conditionParts condition = condition :: (conditionParts left ++ conditionParts right))
    (hleft : EvaluatesAgain regexMatch schema record left bl store store₁)
    (hright : EvaluatesAgain regexMatch schema record right br store₁ store') :
    EvaluatesAgain regexMatch schema record condition (combine bl br) store store' := by
  obtain ⟨hstore₁, hl⟩ := hleft
  obtain ⟨hstore₂, hr⟩ := hright
  refine ⟨by rw [htexts, rememberAll_append, ← hstore₁, ← hstore₂], fun later hlater => ?_⟩
  have hsettles : store₁.Settles store' := hstore₂ ▸ settles_rememberAll _
  obtain ⟨hl, hlparts⟩ := hl later (hsettles.trans hlater)
  obtain ⟨hr, hrparts⟩ := hr later hlater
  have hagain : evaluateCondition regexMatch schema record condition later
      = .ok (combine bl br) later := by
    rw [heval, Prog.bind_ok hl, Prog.bind_ok hr]
    rfl
  refine ⟨hagain, fun part hpart => ?_⟩
  rw [hparts, List.mem_cons, List.mem_append] at hpart
  rcases hpart with rfl | hpart | hpart
  · exact ⟨_, hagain⟩
  · exact hlparts part hpart
  · exact hrparts part hpart

theorem evaluateCondition_eq_ok {regexMatch : RegexMatch} {condition : Condition} {b : SqlBool}
    (h : evaluateCondition regexMatch schema record condition store = .ok b store') :
    EvaluatesAgain regexMatch schema record condition b store store' := by
  induction condition generalizing store store' b with
  | comparison left op right => exact .of_single rfl (evaluateComparison_eq_ok h)
  | between value lower upper => exact .of_single rfl (evaluateBetween_eq_ok h)
  | like value pattern => exact .of_single rfl (evaluateLike_eq_ok h)
  | and left right ihl ihr =>
      obtain ⟨bl, store₁, hl, h₁⟩ := Prog.bind_eq_ok.1 h
      obtain ⟨br, store₂, hr, h₂⟩ := Prog.bind_eq_ok.1 h₁
      obtain ⟨rfl, rfl⟩ := Prog.pure_eq_ok.1 h₂
      exact .connective rfl rfl rfl (ihl hl) (ihr hr)
  | or left right ihl ihr =>
      obtain ⟨bl, store₁, hl, h₁⟩ := Prog.bind_eq_ok.1 h
      obtain ⟨br, store₂, hr, h₂⟩ := Prog.bind_eq_ok.1 h₁
      obtain ⟨rfl, rfl⟩ := Prog.pure_eq_ok.1 h₂
      exact .connective rfl rfl rfl (ihl hl) (ihr hr)

theorem mem_conditionParts_self (condition : Condition) : condition ∈ conditionParts condition := by
  cases condition <;> exact List.mem_cons_self

/-- The sides of an `AND` or an `OR` are evaluated where its texts are known. -/
theorem sides_eq_ok {regexMatch : RegexMatch} {condition left right : Condition} {b : SqlBool}
    (hparts : conditionParts condition = condition :: (conditionParts left ++ conditionParts right))
    (h : evaluateCondition regexMatch schema record condition store = .ok b store) :
    (∃ bl, evaluateCondition regexMatch schema record left store = .ok bl store) ∧
      ∃ br, evaluateCondition regexMatch schema record right store = .ok br store := by
  obtain ⟨-, hall⟩ := (evaluateCondition_eq_ok h).2 store .refl
  rw [hparts, List.forall_mem_cons, List.forall_mem_append] at hall
  obtain ⟨-, hleft, hright⟩ := hall
  exact ⟨hleft left (mem_conditionParts_self left), hright right (mem_conditionParts_self right)⟩

end Again

/-! ## Comparisons of values -/

section Compare

variable {left right : Value} {b : SqlBool}

theorem Value.compare_null (op : ComparisonOperator)
    (h : left = .null ∨ right = .null) : left.compare op right = .ok .unknown := by
  rcases h with rfl | rfl
  · cases op <;> cases right <;> rfl
  · cases op <;> cases left <;> rfl

theorem SqlBool.not_ofBool (p : Bool) : (SqlBool.ofBool p).not = .ofBool (!p) := by
  cases p <;> rfl

theorem SqlBool.or_ofBool (p q : Bool) : (SqlBool.ofBool p).or (.ofBool q) = .ofBool (p || q) := by
  cases p <;> cases q <;> rfl

theorem Value.eq_int (m n : Int32) :
    (Value.int m).eq (.int n) = .ok (.ofBool (decide (m.toInt = n.toInt))) := by
  have heq : (m == n) = decide (m.toInt = n.toInt) := by
    rw [Bool.beq_eq_decide_eq, decide_eq_decide]
    exact Int32.toInt_inj.symm
  rw [← heq]
  rfl

theorem Value.lt_int (m n : Int32) :
    (Value.int m).lt (.int n) = .ok (.ofBool (decide (m.toInt < n.toInt))) := by
  have hlt : decide (m < n) = decide (m.toInt < n.toInt) :=
    decide_eq_decide.2 Int32.lt_iff_toInt_lt
  rw [← hlt]
  rfl

/-- Integers are compared as integers, also where an operator is made of others. -/
theorem Value.compare_int (op : ComparisonOperator) (m n : Int32) :
    (Value.int m).compare op (.int n) = .ok (.ofBool (decide (Relates op m.toInt n.toInt))) := by
  have hle : (Value.int m).le (.int n) = .ok (.ofBool (decide (m.toInt ≤ n.toInt))) := by
    rw [Value.le, Value.lt_int, Value.eq_int]
    change Except.ok _ = _
    rw [SqlBool.or_ofBool, ← Bool.decide_or]
    congr 2
    rw [decide_eq_decide]
    omega
  cases op with
  | equal => exact Value.eq_int m n
  | less => exact Value.lt_int m n
  | lessEqual => exact hle
  | notEqual =>
      rw [Value.compare, Value.ne, Value.eq_int]
      change Except.ok _ = _
      rw [SqlBool.not_ofBool, ← decide_not]
      rfl
  | greater =>
      rw [Value.compare, Value.gt, hle]
      change Except.ok _ = _
      rw [SqlBool.not_ofBool, ← decide_not]
      congr 2
      rw [decide_eq_decide, not_le]
      rfl
  | greaterEqual =>
      rw [Value.compare, Value.ge, Value.lt_int]
      change Except.ok _ = _
      rw [SqlBool.not_ofBool, ← decide_not]
      congr 2
      rw [decide_eq_decide, not_lt]
      rfl

/-- Strings are compared by the texts that they stand for. -/
theorem compareStrings_eq (op : ComparisonOperator) (left right : String) :
    compareStrings op left right = .ofBool (decide (Relates op left right)) := by
  cases op with
  | equal => rw [compareStrings, Bool.beq_eq_decide_eq]; rfl
  | notEqual =>
      rw [compareStrings, bne, Bool.beq_eq_decide_eq, ← decide_not]
      rfl
  | less => rfl
  | greater => rfl
  | lessEqual =>
      rw [compareStrings, ← decide_not]
      congr 1
  | greaterEqual =>
      rw [compareStrings, ← decide_not]
      congr 1

/-- The order of the ids. -/
theorem Value.ge_string (first second : StringId) :
    (Value.string first).ge (.string second) = .ok (.ofBool (decide (second.value ≤ first.value))) := by
  rw [Value.ge, Value.lt]
  change Except.ok _ = _
  rw [SqlBool.not_ofBool, ← decide_not]
  congr 2
  rw [decide_eq_decide, UInt32.not_lt]

theorem Value.le_string (first second : StringId) :
    (Value.string first).le (.string second) = .ok (.ofBool (decide (first.value ≤ second.value))) := by
  rw [Value.le, Value.lt, Value.eq]
  change Except.ok _ = _
  rw [SqlBool.or_ofBool]
  congr 2
  have heq : (first == second) = decide (first.value = second.value) := by
    rw [Bool.beq_eq_decide_eq, decide_eq_decide, StringId.mk.injEq]
  rw [heq, ← Bool.decide_or, decide_eq_decide, UInt32.le_iff_lt_or_eq]

end Compare

/-! ## What is evaluated -/

section Meaning

variable {store store' : StringStore} {schema : Schema} {record : Record} {value : Value}
  {expression : Expression} {b : SqlBool} {regexMatch : RegexMatch}

theorem stoi_range {text : String} {n : Int} (h : stoi text = .ok n) : -2 ^ 31 ≤ n ∧ n < 2 ^ 31 := by
  unfold stoi at h
  generalize splitSign (text.toList.dropWhile Lexer.isSpace) = parts at h
  obtain ⟨negative, rest⟩ := parts
  dsimp only at h
  generalize (if negative = true then _ else _ : Int) = m at h
  split at h
  · cases h
  · split at h
    next hrange =>
      cases h
      exact hrange
    next => cases h

theorem toOption_eq_some {α : Type} {x : Except String α} {a : α} (h : x.toOption = some a) :
    x = .ok a := by
  cases x with
  | error what => cases h
  | ok b =>
      cases h
      rfl

/-- The row that a record stands for. -/
def rowOf (store : StringStore) (record : Record) : List Datum :=
  record.fields.map store.toInterner.contents

theorem contents_string {id : StringId} {view : String}
    (h : store.idToView.lookup id.value = some view) :
    store.toInterner.contents (.string id) = .text view := by
  rw [Interner.contents, h]
  rfl

theorem valueOf_meaning (hstore : store.Consistent)
    (hknown : ∀ field ∈ record.fields, store.toInterner.Knows field)
    (h : store.valueOf schema record expression = some value) :
    expressionMeaning schema (rowOf store record) expression
        = some (store.toInterner.contents value) ∧ store.toInterner.Knows value := by
  cases expression with
  | literal literal =>
      obtain ⟨type, text⟩ := literal
      cases type with
      | null =>
          cases h
          exact ⟨rfl, trivial⟩
      | integer =>
          simp only [StringStore.valueOf, Option.map_eq_some_iff] at h
          obtain ⟨n, hn, rfl⟩ := h
          have hrange := stoi_range (toOption_eq_some hn)
          refine ⟨?_, trivial⟩
          simp only [expressionMeaning, literalMeaning, hn, Interner.contents, Option.map_some,
            Int32.toInt_ofInt_of_le hrange.1 hrange.2]
      | string =>
          simp only [StringStore.valueOf, Option.map_eq_some_iff] at h
          obtain ⟨id, hid, rfl⟩ := h
          have hview := hstore.faithful text id hid
          refine ⟨?_, Option.isSome_iff_exists.2 ⟨text, hview⟩⟩
          rw [contents_string hview]
          rfl
  | identifier name =>
      simp only [StringStore.valueOf, Option.bind_eq_some_iff] at h
      obtain ⟨index, hindex, hfield⟩ := h
      refine ⟨?_, hknown value (List.mem_of_getElem? hfield)⟩
      simp only [expressionMeaning, hindex, Option.bind_some, rowOf, List.getElem?_map, hfield,
        Option.map_some]
  | aggregate function column => cases h

/-- Values that are not both strings. -/
theorem compare_meaning {op : ComparisonOperator} {left right : Value}
    (hmixed : ∀ first second, left = .string first → right ≠ .string second)
    (h : left.compare op right = .ok b) :
    (store.toInterner.contents left).compare op (store.toInterner.contents right) = some b := by
  cases left with
  | null =>
      rw [Value.compare_null op (.inl rfl)] at h
      cases h
      cases right <;> rfl
  | int m =>
      cases right with
      | null =>
          rw [Value.compare_null op (.inr rfl)] at h
          cases h
          rfl
      | int n =>
          rw [Value.compare_int] at h
          cases h
          rfl
      | string id => cases op <;> cases h
  | string id =>
      cases right with
      | null =>
          rw [Value.compare_null op (.inr rfl)] at h
          cases h
          rfl
      | int n => cases op <;> cases h
      | string id' => exact absurd rfl (hmixed id id' rfl)

theorem compareValues_meaning {op : ComparisonOperator} {left right : Value}
    (h : compareValues op left right store = .ok b store') :
    (store.toInterner.contents left).compare op (store.toInterner.contents right) = some b := by
  unfold compareValues at h
  by_cases hnull : (left.isNull || right.isNull) = true
  · rw [if_pos hnull] at h
    cases h
    refine compare_meaning (fun first second hfirst hsecond => ?_) (Value.compare_null op ?_)
    · rw [hfirst, hsecond] at hnull
      cases hnull
    · cases left <;> cases right <;> simp_all [Value.isNull]
  · rw [if_neg hnull] at h
    split at h
    · obtain ⟨view₁, store₁, hview₁, h₁⟩ := Prog.bind_eq_ok.1 h
      obtain ⟨view₂, store₂, hview₂, h₂⟩ := Prog.bind_eq_ok.1 h₁
      obtain ⟨rfl, hlookup₁⟩ := viewOf_eq_ok hview₁
      obtain ⟨rfl, hlookup₂⟩ := viewOf_eq_ok hview₂
      cases h₂
      rw [contents_string hlookup₁, contents_string hlookup₂, compareStrings_eq]
      rfl
    next hmixed =>
      obtain ⟨-, h⟩ := ofExcept_eq_ok h
      exact compare_meaning (fun first second hfirst hsecond => hmixed first second hfirst hsecond) h

theorem likeValue_meaning {pattern : String} {row : List Datum}
    (hvalue : expressionMeaning schema row expression = some (store.toInterner.contents value))
    (h : likeValue regexMatch pattern value store = .ok b store') :
    conditionMeaning regexMatch schema row (.like expression pattern) = some b := by
  rw [conditionMeaning, hvalue]
  cases value with
  | null =>
      cases h
      rfl
  | int n => cases h
  | string id =>
      obtain ⟨view, store₁, hview, h₁⟩ := Prog.bind_eq_ok.1 h
      obtain ⟨rfl, hlookup⟩ := viewOf_eq_ok hview
      obtain ⟨matched, store₂, hmatch, h₂⟩ := Prog.bind_eq_ok.1 h₁
      obtain ⟨rfl, hmatched⟩ := ofExcept_eq_ok hmatch
      cases h₂
      rw [contents_string hlookup]
      change ((regexMatch pattern view).toOption.map SqlBool.ofBool) = _
      rw [hmatched]
      rfl

theorem ofBool_kleeneAnd_iff (p q p' q' : Prop) [Decidable p] [Decidable q] [Decidable p']
    [Decidable q'] :
    (SqlBool.ofBool p').kleeneAnd (.ofBool q') = (SqlBool.ofBool p).and (.ofBool q) ↔
      (p ∧ q ↔ p' ∧ q') := by
  by_cases hp : p <;> by_cases hq : q <;> by_cases hp' : p' <;> by_cases hq' : q' <;>
    simp [hp, hq, hp', hq', SqlBool.ofBool, SqlBool.kleeneAnd, SqlBool.and, SqlBool.rank]

theorem unknown_kleeneAnd_iff (q q' : Prop) [Decidable q] [Decidable q'] :
    SqlBool.unknown.kleeneAnd (.ofBool q') = SqlBool.unknown.and (.ofBool q) ↔ (q ↔ q') := by
  by_cases hq : q <;> by_cases hq' : q' <;>
    simp [hq, hq', SqlBool.ofBool, SqlBool.kleeneAnd, SqlBool.and, SqlBool.rank]

theorem kleeneAnd_unknown_iff (p p' : Prop) [Decidable p] [Decidable p'] :
    (SqlBool.ofBool p').kleeneAnd .unknown = (SqlBool.ofBool p).and .unknown ↔ (p ↔ p') := by
  by_cases hp : p <;> by_cases hp' : p' <;>
    simp [hp, hp', SqlBool.ofBool, SqlBool.kleeneAnd, SqlBool.and, SqlBool.rank]

/-- A `BETWEEN` means what it evaluates to if and only if the ids are in the order of the strings. -/
theorem between_meaning_iff {value lower upper : Value} {aboveLower belowUpper : SqlBool}
    (hge : value.ge lower = .ok aboveLower) (hle : value.le upper = .ok belowUpper) :
    ∃ above below,
      (store.toInterner.contents value).compare .greaterEqual (store.toInterner.contents lower)
        = some above ∧
      (store.toInterner.contents value).compare .lessEqual (store.toInterner.contents upper)
        = some below ∧
      (above.kleeneAnd below = aboveLower.and belowUpper ↔
        (Within IdLe value lower upper ↔ Within store.TextLe value lower upper)) := by
  by_cases hstring : ∃ id, value = .string id
  · obtain ⟨id, rfl⟩ := hstring
    cases lower with
    | null =>
        cases hge
        cases upper with
        | null =>
            cases hle
            exact ⟨.unknown, .unknown, rfl, rfl, iff_of_true rfl Iff.rfl⟩
        | int n => cases hle
        | string id' =>
            rw [Value.le_string] at hle
            cases hle
            refine ⟨_, _, rfl, rfl, (unknown_kleeneAnd_iff _ _).trans ?_⟩
            exact Iff.symm (iff_congr (iff_of_eq (true_and _)) (iff_of_eq (true_and _)))
    | int n => cases hge
    | string id' =>
        rw [Value.ge_string] at hge
        cases hge
        cases upper with
        | null =>
            cases hle
            refine ⟨_, _, rfl, rfl, (kleeneAnd_unknown_iff _ _).trans ?_⟩
            exact Iff.symm (iff_congr (iff_of_eq (and_true _)) (iff_of_eq (and_true _)))
        | int n => cases hle
        | string id'' =>
            rw [Value.le_string] at hle
            cases hle
            exact ⟨_, _, rfl, rfl, ofBool_kleeneAnd_iff _ _ _ _⟩
  · -- nothing is compared by its id
    rw [not_exists] at hstring
    have habove : (store.toInterner.contents value).compare .greaterEqual
        (store.toInterner.contents lower) = some aboveLower :=
      compare_meaning (fun first _ hfirst => absurd hfirst (hstring first)) hge
    have hbelow : (store.toInterner.contents value).compare .lessEqual
        (store.toInterner.contents upper) = some belowUpper :=
      compare_meaning (fun first _ hfirst => absurd hfirst (hstring first)) hle
    have hwithin : ∀ le, Within le value lower upper := by
      intro le
      cases value with
      | null => cases lower <;> exact ⟨trivial, trivial⟩
      | int n => cases lower <;> exact ⟨trivial, trivial⟩
      | string id => exact absurd rfl (hstring id)
    refine ⟨aboveLower, belowUpper, habove, hbelow, ?_⟩
    rw [SqlBool.and_eq_kleeneAnd]
    exact iff_of_true rfl (iff_of_true (hwithin _) (hwithin _))

/-- If a condition is evaluated at all, it is evaluated to what it means. -/
def Agrees (regexMatch : RegexMatch) (schema : Schema) (record : Record) (store : StringStore)
    (condition : Condition) : Prop :=
  ∀ b store', evaluateCondition regexMatch schema record condition store = .ok b store' →
    conditionMeaning regexMatch schema (rowOf store record) condition = some b

theorem agrees_iff {condition : Condition}
    (h : evaluateCondition regexMatch schema record condition store = .ok b store') :
    Agrees regexMatch schema record store condition ↔
      conditionMeaning regexMatch schema (rowOf store record) condition = some b := by
  refine ⟨fun hagrees => hagrees b store' h, fun hmeaning b' store'' h' => ?_⟩
  rw [h] at h'
  cases h'
  exact hmeaning

/-- All parts of an `AND` or an `OR` agree if those of its sides do and it agrees where these do. -/
theorem parts_agree_connective {condition left right : Condition}
    (hparts : conditionParts condition = condition :: (conditionParts left ++ conditionParts right))
    (hagrees : Agrees regexMatch schema record store left →
      Agrees regexMatch schema record store right → Agrees regexMatch schema record store condition) :
    (∀ part ∈ conditionParts condition, Agrees regexMatch schema record store part) ↔
      (∀ part ∈ conditionParts left, Agrees regexMatch schema record store part) ∧
        ∀ part ∈ conditionParts right, Agrees regexMatch schema record store part := by
  rw [hparts, List.forall_mem_cons, List.forall_mem_append]
  constructor
  · rintro ⟨-, hleft, hright⟩
    exact ⟨hleft, hright⟩
  · rintro ⟨hleft, hright⟩
    exact ⟨hagrees (hleft left (mem_conditionParts_self left))
      (hright right (mem_conditionParts_self right)), hleft, hright⟩

theorem betweensOrdered_and {left right : Condition} :
    store.BetweensOrdered schema record (.and left right) ↔
      store.BetweensOrdered schema record left ∧ store.BetweensOrdered schema record right := by
  simp only [StringStore.BetweensOrdered, conditionParts, List.mem_cons, List.mem_append, reduceCtorEq,
    false_or, or_imp, forall_and]

theorem betweensOrdered_or {left right : Condition} :
    store.BetweensOrdered schema record (.or left right) ↔
      store.BetweensOrdered schema record left ∧ store.BetweensOrdered schema record right := by
  simp only [StringStore.BetweensOrdered, conditionParts, List.mem_cons, List.mem_append, reduceCtorEq,
    false_or, or_imp, forall_and]

section Settled

variable (hstore : store.Consistent)
  (hknown : ∀ field ∈ record.fields, store.toInterner.Knows field)

include hstore hknown

/-- What an expression was evaluated to on the way, in the store at the end. -/
theorem expressionValue_meaning {s t : StringStore}
    (h : expressionValue expression schema record s = .ok value t) (hsettles : t.Settles store) :
    store.valueOf schema record expression = some value ∧
      expressionMeaning schema (rowOf store record) expression
        = some (store.toInterner.contents value) := by
  have hvalue := ((expressionValue_eq_ok h).2 store hsettles).2
  exact ⟨hvalue, (valueOf_meaning hstore hknown hvalue).1⟩

theorem comparison_agrees {left right : Expression} {op : ComparisonOperator}
    (h : evaluateCondition regexMatch schema record (.comparison left op right) store
      = .ok b store) : Agrees regexMatch schema record store (.comparison left op right) := by
  rw [agrees_iff h]
  obtain ⟨l, store₁, hl, h₁⟩ := Prog.bind_eq_ok.1 h
  obtain ⟨r, store₂, hr, h₂⟩ := Prog.bind_eq_ok.1 h₁
  obtain ⟨rfl, -⟩ := compareValues_eq_ok h₂
  have hsettles : store₁.Settles store := (expressionValue_eq_ok hr).1 ▸ settles_rememberAll _
  rw [conditionMeaning, (expressionValue_meaning hstore hknown hl hsettles).2,
    (expressionValue_meaning hstore hknown hr .refl).2]
  exact compareValues_meaning h₂

theorem like_agrees {pattern : String}
    (h : evaluateCondition regexMatch schema record (.like expression pattern) store
      = .ok b store) : Agrees regexMatch schema record store (.like expression pattern) := by
  rw [agrees_iff h]
  obtain ⟨v, store₁, hv, h₁⟩ := Prog.bind_eq_ok.1 h
  have hlike : likeValue regexMatch pattern v store₁ = .ok b store := by
    refine Eq.trans ?_ h₁
    cases v <;> rfl
  obtain ⟨rfl, -⟩ := likeValue_eq_ok hlike
  exact likeValue_meaning (expressionValue_meaning hstore hknown hv .refl).2 hlike

theorem between_agrees_iff {value lower upper : Expression}
    (h : evaluateCondition regexMatch schema record (.between value lower upper) store
      = .ok b store) :
    Agrees regexMatch schema record store (.between value lower upper) ↔
      store.BetweensOrdered schema record (.between value lower upper) := by
  rw [agrees_iff h]
  obtain ⟨v, store₁, hv, h₁⟩ := Prog.bind_eq_ok.1 h
  obtain ⟨l, store₂, hl, h₂⟩ := Prog.bind_eq_ok.1 h₁
  obtain ⟨aboveLower, store₃, hge, h₃⟩ := Prog.bind_eq_ok.1 h₂
  obtain ⟨u, store₄, hu, h₄⟩ := Prog.bind_eq_ok.1 h₃
  obtain ⟨belowUpper, store₅, hle, h₅⟩ := Prog.bind_eq_ok.1 h₄
  obtain ⟨rfl, habove⟩ := ofExcept_eq_ok hge
  obtain ⟨rfl, hbelow⟩ := ofExcept_eq_ok hle
  obtain ⟨rfl, rfl⟩ := Prog.pure_eq_ok.1 h₅
  have hsettles₂ : store₃.Settles store := (expressionValue_eq_ok hu).1 ▸ settles_rememberAll _
  have hsettles₁ : store₁.Settles store :=
    ((expressionValue_eq_ok hl).1 ▸ settles_rememberAll _ : store₁.Settles store₃).trans hsettles₂
  obtain ⟨hv, hvmeaning⟩ := expressionValue_meaning hstore hknown hv hsettles₁
  obtain ⟨hl, hlmeaning⟩ := expressionValue_meaning hstore hknown hl hsettles₂
  obtain ⟨hu, humeaning⟩ := expressionValue_meaning hstore hknown hu .refl
  obtain ⟨above, below, hge', hle', hiff⟩ := @between_meaning_iff store _ _ _ _ _ habove hbelow
  have hmeaning : conditionMeaning regexMatch schema (rowOf store record)
      (.between value lower upper) = some (above.kleeneAnd below) := by
    rw [conditionMeaning, hvmeaning, hlmeaning, humeaning]
    change (Datum.compare _ _ _).bind _ = _
    rw [hge']
    change (Datum.compare _ _ _).bind _ = _
    rw [hle']
    rfl
  rw [hmeaning, Option.some.injEq, hiff]
  constructor
  · intro hordered value' lower' upper' hmem v' l' u' hv' hl' hu'
    obtain ⟨rfl, rfl, rfl⟩ : value' = value ∧ lower' = lower ∧ upper' = upper := by
      simpa [conditionParts] using hmem
    rw [hv] at hv'
    rw [hl] at hl'
    rw [hu] at hu'
    cases hv'
    cases hl'
    cases hu'
    exact hordered
  · intro hordered
    exact hordered value lower upper (by simp [conditionParts]) v l u hv hl hu

/-- A condition that is evaluated in a store that knows its texts. -/
theorem parts_agree_iff {condition : Condition}
    (h : evaluateCondition regexMatch schema record condition store = .ok b store) :
    (∀ part ∈ conditionParts condition, Agrees regexMatch schema record store part) ↔
      store.BetweensOrdered schema record condition := by
  induction condition generalizing b with
  | comparison left op right =>
      refine iff_of_true (fun part hpart => ?_) fun value lower upper hmem => ?_
      · obtain rfl := List.mem_singleton.1 hpart
        exact comparison_agrees hstore hknown h
      · cases List.mem_singleton.1 hmem
  | between value lower upper =>
      rw [← between_agrees_iff hstore hknown h]
      exact ⟨fun hall => hall _ List.mem_cons_self, fun hagrees part hpart => by
        obtain rfl := List.mem_singleton.1 hpart
        exact hagrees⟩
  | like value pattern =>
      refine iff_of_true (fun part hpart => ?_) fun value lower upper hmem => ?_
      · obtain rfl := List.mem_singleton.1 hpart
        exact like_agrees hstore hknown h
      · cases List.mem_singleton.1 hmem
  | and left right ihl ihr =>
      obtain ⟨⟨bl, hl⟩, br, hr⟩ := sides_eq_ok rfl h
      have hb : b = bl.and br := by
        rw [evaluateCondition, Prog.bind_ok hl, Prog.bind_ok hr] at h
        cases h
        rfl
      rw [betweensOrdered_and, ← ihl hl, ← ihr hr]
      apply parts_agree_connective rfl
      intro hleft hright
      rw [agrees_iff h, hb, conditionMeaning, (agrees_iff hl).1 hleft, (agrees_iff hr).1 hright,
        SqlBool.and_eq_kleeneAnd]
      rfl
  | or left right ihl ihr =>
      obtain ⟨⟨bl, hl⟩, br, hr⟩ := sides_eq_ok rfl h
      have hb : b = bl.or br := by
        rw [evaluateCondition, Prog.bind_ok hl, Prog.bind_ok hr] at h
        cases h
        rfl
      rw [betweensOrdered_or, ← ihl hl, ← ihr hr]
      apply parts_agree_connective rfl
      intro hleft hright
      rw [agrees_iff h, hb, conditionMeaning, (agrees_iff hl).1 hleft, (agrees_iff hr).1 hright,
        SqlBool.or_eq_kleeneOr]
      rfl

end Settled

theorem rowOf_eq (hextends : store.Extends store')
    (hknown : ∀ field ∈ record.fields, store.toInterner.Knows field) :
    rowOf store' record = rowOf store record := by
  refine List.map_congr_left fun field hfield => ?_
  have hfieldKnown := hknown field hfield
  cases field with
  | null => rfl
  | int n => rfl
  | string id =>
      obtain ⟨view, hview⟩ := Option.isSome_iff_exists.1 hfieldKnown
      rw [contents_string hview, contents_string (hextends _ _ hview)]

/-- A condition that is evaluated is evaluated to what it means, in all its parts, if and only if its
    `BETWEEN`s on strings do not depend on the order in which the strings were interned. -/
theorem evaluateCondition_means_iff {condition : Condition} (hstore : store.Consistent)
    (hroom : store.nextId.toNat + (conditionTexts condition).length < 2 ^ 32)
    (hknown : ∀ field ∈ record.fields, store.toInterner.Knows field)
    (h : evaluateCondition regexMatch schema record condition store = .ok b store') :
    (conditionMeaning regexMatch schema (rowOf store record) condition = some b ∧
      ∀ part ∈ conditionParts condition,
        Agrees regexMatch schema record (store.rememberAll (conditionTexts condition)) part) ↔
      (store.rememberAll (conditionTexts condition)).BetweensOrdered schema record condition := by
  obtain ⟨rfl, hagain⟩ := evaluateCondition_eq_ok h
  have hsettles : store.Settles (store.rememberAll (conditionTexts condition)) :=
    settles_rememberAll _
  obtain ⟨h', -⟩ := hagain _ .refl
  have hknown' : ∀ field ∈ record.fields,
      (store.rememberAll (conditionTexts condition)).toInterner.Knows field :=
    fun field hfield => hsettles.extends_.knows (hknown field hfield)
  rw [← parts_agree_iff (hstore.rememberAll _ hroom) hknown' h', ← rowOf_eq hsettles.extends_ hknown]
  refine ⟨fun ⟨_, hparts⟩ => hparts, fun hparts => ⟨?_, hparts⟩⟩
  exact (agrees_iff h').1 (hparts condition (mem_conditionParts_self condition))

end Meaning

/-! ## A name in alphabetical order -/

/-- A table of names. -/
def nameSchema : Schema := { columns := [{ name := "name", columnType := .string }] }

/-- `name BETWEEN "a" AND "c"`. -/
def betweenAAndC : Condition :=
  .between (.identifier "name") (.literal ⟨.string, "a"⟩) (.literal ⟨.string, "c"⟩)

theorem evaluateCondition_means_iff_name :
    (conditionMeaning (fun _ _ => .ok false) nameSchema
        (rowOf (StringStore.new.rememberAll ["a", "b", "c"]) { id := 0, fields := [.string ⟨2⟩] })
        betweenAAndC = some .true ∧
      ∀ part ∈ conditionParts betweenAAndC,
        Agrees (fun _ _ => .ok false) nameSchema { id := 0, fields := [.string ⟨2⟩] }
          ((StringStore.new.rememberAll ["a", "b", "c"]).rememberAll (conditionTexts betweenAAndC))
          part) ↔
      ((StringStore.new.rememberAll ["a", "b", "c"]).rememberAll
        (conditionTexts betweenAAndC)).BetweensOrdered nameSchema
          { id := 0, fields := [.string ⟨2⟩] } betweenAAndC := by
  refine evaluateCondition_means_iff (consistent_new.rememberAll _ (by decide)) (by decide) ?_ rfl
  intro field hfield
  obtain rfl := List.mem_singleton.1 hfield
  exact Option.isSome_iff_exists.2 ⟨"b", rfl⟩

/-- A name that was stored before the bounds were ever mentioned is not between them. -/
theorem between_compares_ids :
    (StringStore.new.rememberAll ["b"]).Consistent ∧
      evaluateCondition (fun _ _ => .ok false) nameSchema { id := 0, fields := [.string ⟨1⟩] }
          betweenAAndC (StringStore.new.rememberAll ["b"])
        = .ok .false (StringStore.new.rememberAll ["b", "a", "c"]) ∧
      conditionMeaning (fun _ _ => .ok false) nameSchema
          (rowOf (StringStore.new.rememberAll ["b"]) { id := 0, fields := [.string ⟨1⟩] })
          betweenAAndC = some .true := by
  refine ⟨consistent_new.rememberAll _ (by decide), rfl, ?_⟩
  decide

end QuasarDB.Storage
