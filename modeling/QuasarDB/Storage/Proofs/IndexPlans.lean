import QuasarDB.Storage.Proofs.Matching

set_option autoImplicit false

/-! # Finding by an index

The records that an index gives for a `WHERE` are all that can match: a condition is only true of a record
that has the value that was looked for. -/

namespace QuasarDB.Storage

open Prog Server

/-! ## Strings with one id -/

namespace StringStore

variable {store : StringStore} {str : String}

/-- The string of an id has no other id. -/
def OneId (store : StringStore) : Prop :=
  ∀ id view, store.idToView.lookup id = some view → store.stringToId.lookup view = some id

theorem oneId_new : new.OneId := by
  intro id view h
  cases h

theorem OneId.remember (h : store.OneId) (str : String) : (store.remember str).OneId := by
  cases hlookup : store.stringToId.lookup str with
  | some id =>
      rw [remember_of_some hlookup]
      exact h
  | none =>
      rw [remember_of_none hlookup]
      intro id view hview
      have hkept : ∀ id view, store.idToView.lookup id = some view →
          (store.append str).stringToId.lookup view = some id :=
        fun id view hid => lookup_emplace_of_some (h id view hid)
      by_cases hid : id = store.nextId
      · subst hid
        cases hfree : store.idToView.lookup store.nextId with
        | some old =>
            have hold : (store.append str).idToView.lookup store.nextId = some old :=
              lookup_emplace_of_some hfree
            obtain rfl := Option.some.inj (hold.symm.trans hview)
            exact hkept _ _ hfree
        | none =>
            have hnew : (store.append str).idToView.lookup store.nextId = some str :=
              lookup_emplace_of_none hfree
            obtain rfl := Option.some.inj (hnew.symm.trans hview)
            exact lookup_emplace_of_none hlookup
      · exact hkept id view ((lookup_emplace_of_ne hid).symm.trans hview)

theorem OneId.rememberAll (h : store.OneId) (strs : List String) : (store.rememberAll strs).OneId := by
  induction strs generalizing store with
  | nil => exact h
  | cons str strs ih => exact ih (h.remember str)

/-- The value of a literal stays, once its text has an id. -/
theorem valueOf_settles {later : StringStore} {schema : Schema} {record : Record} {literal : Literal}
    (hknown : ∀ text ∈ expressionTexts (.literal literal), (store.stringToId.lookup text).isSome = true)
    (h : store.Settles later) :
    later.valueOf schema record (.literal literal) = store.valueOf schema record (.literal literal) := by
  obtain ⟨type, text⟩ := literal
  cases type with
  | null => rfl
  | integer => rfl
  | string =>
      obtain ⟨id, hid⟩ := Option.isSome_iff_exists.1 (hknown text (List.mem_singleton.2 rfl))
      simp only [valueOf, hid, h.ids text id hid]

end StringStore

open StringStore

/-! ## What a plan says -/

section Plans

variable {schema : Schema} {record : Record} {regexMatch : RegexMatch} {store store' : StringStore}
  {i : Nat} {literal : Literal}

/-- The column and the literal that are looked for are the two sides of an equation. -/
theorem planLookup_eq_find {left right : Expression} (h : schema.planLookup left right = .find i literal) :
    ∃ name, left = .identifier name ∧ right = .literal literal ∧ schema.columnIndex name = some i := by
  unfold Schema.planLookup at h
  split at h
  · rename_i name literal'
    split_ifs at h
    cases hindex : schema.columnIndex name with
    | none =>
        rw [hindex] at h
        cases h
    | some j =>
        rw [hindex] at h
        dsimp only at h
        split_ifs at h
        cases h
        exact ⟨name, rfl, rfl, hindex⟩
  · cases h

/-- Looking raises an exception for a literal that is no number, and for an unknown column. -/
theorem planLookup_eq_raises {left right : Expression} (h : schema.planLookup left right = .raises) :
    ∃ name literal, left = .identifier name ∧ right = .literal literal ∧
      (literalMeaning literal = none ∨ schema.columnIndex name = none) := by
  unfold Schema.planLookup at h
  split at h
  · rename_i name literal
    refine ⟨name, literal, rfl, rfl, ?_⟩
    split_ifs at h with hmeaning
    · exact .inl hmeaning
    · cases hindex : schema.columnIndex name with
      | none => exact .inr rfl
      | some j =>
          rw [hindex] at h
          dsimp only at h
          split_ifs at h
  · cases h

/-- The text that is looked for is interned on the way. -/
theorem mem_planTexts {condition : Condition} (h : schema.plan condition = .find i literal) {text : String}
    (htext : text ∈ expressionTexts (.literal literal)) : text ∈ schema.planTexts condition := by
  induction condition with
  | and left right ihl ihr =>
      rw [Schema.plan] at h
      rw [Schema.planTexts, List.mem_append]
      by_cases hall : schema.plan left = .all
      · rw [if_pos hall] at h ⊢
        exact .inr (ihr h)
      · rw [if_neg hall] at h
        exact .inl (ihl h)
  | comparison left op right =>
      cases op with
      | equal =>
          rw [Schema.plan] at h
          rw [Schema.planTexts, List.mem_append]
          by_cases hall : schema.planLookup left right = .all
          · rw [if_pos hall] at h ⊢
            obtain ⟨name, rfl, rfl, -⟩ := planLookup_eq_find h
            exact .inr htext
          · rw [if_neg hall] at h
            obtain ⟨name, rfl, rfl, -⟩ := planLookup_eq_find h
            exact .inl htext
      | _ => cases h
  | or left right ihl ihr => cases h
  | between value lower upper => cases h
  | like value pattern => cases h

/-! ## Conditions that are true -/

theorem SqlBool.and_eq_true {first second : SqlBool} (h : first.and second = .true) :
    first = .true ∧ second = .true := by
  cases first <;> cases second <;> first | exact ⟨rfl, rfl⟩ | cases h

/-- Equal values are the same: a string has one id. -/
theorem eq_of_compareValues {left right : Value} (hone : store.OneId)
    (h : compareValues .equal left right store = .ok .true store') : left = right := by
  unfold compareValues at h
  by_cases hnull : (left.isNull || right.isNull) = true
  · rw [if_pos hnull] at h
    cases h
  · rw [if_neg hnull] at h
    cases left with
    | null => simp [Value.isNull] at hnull
    | int m =>
        cases right with
        | null => simp [Value.isNull] at hnull
        | int n =>
            obtain ⟨-, hequal⟩ := ofExcept_eq_ok h
            simp only [Value.compare, Value.eq, Except.ok.injEq] at hequal
            by_cases hmn : m = n
            · rw [hmn]
            · rw [beq_false_of_ne hmn] at hequal
              cases hequal
        | string id =>
            obtain ⟨-, hequal⟩ := ofExcept_eq_ok h
            cases hequal
    | string first =>
        cases right with
        | null => simp [Value.isNull] at hnull
        | int n =>
            obtain ⟨-, hequal⟩ := ofExcept_eq_ok h
            cases hequal
        | string second =>
            obtain ⟨view₁, store₁, hview₁, h₁⟩ := Prog.bind_eq_ok.1 h
            obtain ⟨view₂, store₂, hview₂, h₂⟩ := Prog.bind_eq_ok.1 h₁
            obtain ⟨rfl, hlookup₁⟩ := viewOf_eq_ok hview₁
            obtain ⟨rfl, hlookup₂⟩ := viewOf_eq_ok hview₂
            obtain ⟨hequal, -⟩ := Prog.pure_eq_ok.1 h₂
            rw [compareStrings] at hequal
            by_cases hviews : view₁ = view₂
            · subst hviews
              have hids := Option.some.inj ((hone _ _ hlookup₁).symm.trans (hone _ _ hlookup₂))
              cases first
              cases second
              exact congrArg _ (congrArg _ hids)
            · rw [beq_false_of_ne hviews] at hequal
              cases hequal

/-- The sides of an equation that is true of a record have the same value. -/
theorem valueOf_eq_of_true {left right : Expression} (hone : store.OneId)
    (hknown : ∀ text ∈ conditionTexts (.comparison left .equal right),
      (store.stringToId.lookup text).isSome = true)
    (h : evaluateCondition regexMatch schema record (.comparison left .equal right) store =
      .ok .true store') :
    store.valueOf schema record left = store.valueOf schema record right := by
  obtain ⟨l, store₁, hl, h₁⟩ := Prog.bind_eq_ok.1 h
  obtain ⟨r, store₂, hr, h₂⟩ := Prog.bind_eq_ok.1 h₁
  obtain ⟨hleft, hright⟩ := List.forall_mem_append.1 hknown
  obtain ⟨rfl, hl⟩ := expressionValue_eq_ok hl
  rw [rememberAll_of_known hleft] at hr hl
  obtain ⟨rfl, hr⟩ := expressionValue_eq_ok hr
  rw [rememberAll_of_known hright] at hr h₂
  rw [(hl store .refl).2, (hr store .refl).2, eq_of_compareValues hone h₂]

/-- A record that a condition is true of has the value that is looked for. -/
theorem field_of_true {condition : Condition} (hone : store.OneId)
    (hknown : ∀ text ∈ conditionTexts condition, (store.stringToId.lookup text).isSome = true)
    (hplan : schema.plan condition = .find i literal)
    (h : evaluateCondition regexMatch schema record condition store = .ok .true store') :
    record.fields[i]? = store.valueOf schema record (.literal literal) := by
  induction condition generalizing store' with
  | and left right ihl ihr =>
      obtain ⟨bl, store₁, hl, h₁⟩ := Prog.bind_eq_ok.1 h
      obtain ⟨br, store₂, hr, h₂⟩ := Prog.bind_eq_ok.1 h₁
      obtain ⟨hand, -⟩ := Prog.pure_eq_ok.1 h₂
      obtain ⟨hleft, hright⟩ := List.forall_mem_append.1 hknown
      obtain ⟨rfl, rfl⟩ := SqlBool.and_eq_true hand.symm
      obtain ⟨rfl, -⟩ := evaluateCondition_eq_ok hl
      rw [rememberAll_of_known hleft] at hr
      rw [Schema.plan] at hplan
      by_cases hall : schema.plan left = .all
      · rw [if_pos hall] at hplan
        exact ihr hright hplan hr
      · rw [if_neg hall] at hplan
        exact ihl hleft hplan hl
  | comparison left op right =>
      cases op with
      | equal =>
          have hsame := valueOf_eq_of_true hone hknown h
          have hfield : ∀ name, schema.columnIndex name = some i →
              store.valueOf schema record (.identifier name) = record.fields[i]? := by
            intro name hindex
            simp only [valueOf, hindex, Option.bind_some]
          rw [Schema.plan] at hplan
          by_cases hall : schema.planLookup left right = .all
          · rw [if_pos hall] at hplan
            obtain ⟨name, rfl, rfl, hindex⟩ := planLookup_eq_find hplan
            rw [← hfield name hindex, ← hsame]
          · rw [if_neg hall] at hplan
            obtain ⟨name, rfl, rfl, hindex⟩ := planLookup_eq_find hplan
            rw [← hfield name hindex, hsame]
      | _ => cases hplan
  | or left right ihl ihr => cases hplan
  | between value lower upper => cases hplan
  | like value pattern => cases hplan

/-- Where looking for records raises an exception, so does looking at one. -/
theorem evaluateCondition_of_raises {condition : Condition} {b : SqlBool}
    (hplan : schema.plan condition = .raises) :
    evaluateCondition regexMatch schema record condition store ≠ .ok b store' := by
  intro h
  induction condition generalizing store store' b with
  | and left right ihl ihr =>
      obtain ⟨bl, store₁, hl, h₁⟩ := Prog.bind_eq_ok.1 h
      obtain ⟨br, store₂, hr, h₂⟩ := Prog.bind_eq_ok.1 h₁
      rw [Schema.plan] at hplan
      by_cases hall : schema.plan left = .all
      · rw [if_pos hall] at hplan
        exact ihr hplan hr
      · rw [if_neg hall] at hplan
        exact ihl hplan hl
  | comparison left op right =>
      cases op with
      | equal =>
          obtain ⟨l, store₁, hl, h₁⟩ := Prog.bind_eq_ok.1 h
          obtain ⟨r, store₂, hr, h₂⟩ := Prog.bind_eq_ok.1 h₁
          -- both sides have values, so the column and the literal do
          have hname : ∀ {name : String} {s t : StringStore} {v : Value},
              expressionValue (.identifier name) schema record s = .ok v t →
                schema.columnIndex name ≠ none := by
            intro name s t v hrun hnone
            simp only [expressionValue, hnone] at hrun
            cases hrun
          have hliteral : ∀ {literal : Literal} {s t : StringStore} {v : Value},
              expressionValue (.literal literal) schema record s = .ok v t →
                literalMeaning literal ≠ none := by
            intro literal s t v hrun hnone
            obtain ⟨what, hraises⟩ := literalValue_raises hnone s
            rw [expressionValue, hraises] at hrun
            cases hrun
          rw [Schema.plan] at hplan
          by_cases hall : schema.planLookup left right = .all
          · rw [if_pos hall] at hplan
            obtain ⟨name, literal, rfl, rfl, hnone | hnone⟩ := planLookup_eq_raises hplan
            · exact hliteral hl hnone
            · exact hname hr hnone
          · rw [if_neg hall] at hplan
            obtain ⟨name, literal, rfl, rfl, hnone | hnone⟩ := planLookup_eq_raises hplan
            · exact hliteral hr hnone
            · exact hname hl hnone
      | _ => cases hplan
  | or left right ihl ihr => cases hplan
  | between value lower upper => cases hplan
  | like value pattern => cases hplan

end Plans

/-! ## Other ids

The texts of a condition get their ids in the order in which they are looked at, and an index is asked
first. Whether a condition raises an exception does not depend on the ids. -/

section OtherIds

variable {base s t : StringStore} {schema : Schema} {record : Record} {regexMatch : RegexMatch}
  {value value' other other' : Value}

/-- The same value, where strings may have other ids. -/
inductive Alike (s t : StringStore) : Value → Value → Prop
  | null : Alike s t .null .null
  | int (n : Int32) : Alike s t (.int n) (.int n)
  | string {id id' : StringId} {view : String} (h : s.idToView.lookup id.value = some view)
      (h' : t.idToView.lookup id'.value = some view) : Alike s t (.string id) (.string id')

/-- A store with more strings, in which some texts have ids. -/
structure Knowing (base : StringStore) (texts : List String) (s : StringStore) : Prop where
  keeps : base.Extends s
  consistent : s.Consistent
  texts : ∀ text ∈ texts, (s.stringToId.lookup text).isSome = true

theorem Knowing.left {texts texts' : List String} (h : Knowing base (texts ++ texts') s) :
    Knowing base texts s :=
  ⟨h.keeps, h.consistent, (List.forall_mem_append.1 h.texts).1⟩

theorem Knowing.right {texts texts' : List String} (h : Knowing base (texts ++ texts') s) :
    Knowing base texts' s :=
  ⟨h.keeps, h.consistent, (List.forall_mem_append.1 h.texts).2⟩

theorem expressionValue_alike {expression : Expression}
    (hrecord : ∀ value ∈ record.fields, base.toInterner.Knows value)
    (hs : Knowing base (expressionTexts expression) s) (ht : Knowing base (expressionTexts expression) t)
    {s' : StringStore} (h : expressionValue expression schema record s = .ok value s') :
    s' = s ∧ ∃ value', expressionValue expression schema record t = .ok value' t ∧
      Alike s t value value' := by
  obtain ⟨rfl, -⟩ := expressionValue_eq_ok h
  rw [rememberAll_of_known hs.texts] at h
  refine ⟨rememberAll_of_known hs.texts, ?_⟩
  cases expression with
  | aggregate function column => cases h
  | identifier name =>
      simp only [expressionValue] at h ⊢
      cases hindex : schema.columnIndex name with
      | none =>
          rw [hindex] at h
          cases h
      | some index =>
          simp only [hindex] at h ⊢
          cases hfield : record.fields[index]? with
          | none =>
              rw [hfield] at h
              cases h
          | some field =>
              rw [hfield] at h
              cases h
              refine ⟨value, rfl, ?_⟩
              have hknows := hrecord value (List.mem_of_getElem? hfield)
              cases value with
              | null => exact .null
              | int n => exact .int n
              | string id =>
                  obtain ⟨view, hview⟩ := Option.isSome_iff_exists.1 hknows
                  exact .string (hs.keeps _ _ hview) (ht.keeps _ _ hview)
  | literal literal =>
      obtain ⟨type, text⟩ := literal
      cases type with
      | null =>
          cases h
          exact ⟨.null, rfl, .null⟩
      | integer =>
          simp only [expressionValue, literalValue] at h ⊢
          cases hstoi : stoi text with
          | error what =>
              rw [hstoi] at h
              cases h
          | ok n =>
              rw [hstoi] at h
              cases h
              exact ⟨.int (.ofInt n), rfl, .int _⟩
      | string =>
          obtain ⟨id, hid⟩ := Option.isSome_iff_exists.1 (hs.texts text (List.mem_singleton.2 rfl))
          obtain ⟨id', hid'⟩ := Option.isSome_iff_exists.1 (ht.texts text (List.mem_singleton.2 rfl))
          have hvalue : intern text s = .ok value s := h
          rw [run_intern hid] at hvalue
          cases hvalue
          exact ⟨.string ⟨id'⟩, run_intern hid',
            .string (hs.consistent.faithful _ _ hid) (ht.consistent.faithful _ _ hid')⟩

/-- Values of the same types can be compared. -/
theorem compare_alike {op : ComparisonOperator} {b : SqlBool} (hvalue : Alike s t value value')
    (hother : Alike s t other other') (h : value.compare op other = .ok b) :
    ∃ b', value'.compare op other' = .ok b' := by
  cases hvalue <;> cases hother <;> cases op <;> first | exact ⟨_, rfl⟩ | cases h

theorem compareValues_alike {op : ComparisonOperator} {b : SqlBool} {s' : StringStore}
    (hvalue : Alike s t value value') (hother : Alike s t other other')
    (h : compareValues op value other s = .ok b s') :
    ∃ b', compareValues op value' other' t = .ok b' t := by
  unfold compareValues at h ⊢
  cases hvalue with
  | null => exact ⟨_, rfl⟩
  | int m =>
      cases hother with
      | null => exact ⟨_, rfl⟩
      | int n =>
          obtain ⟨-, hcompare⟩ := ofExcept_eq_ok h
          refine ⟨b, ?_⟩
          change (Prog.ofExcept (Value.compare op (.int m) (.int n)) : Prog StringStore SqlBool) t = _
          rw [hcompare]
          rfl
      | string hview hview' =>
          obtain ⟨-, hcompare⟩ := ofExcept_eq_ok h
          cases op <;> cases hcompare
  | string hview hview' =>
      cases hother with
      | null => exact ⟨_, rfl⟩
      | int n =>
          obtain ⟨-, hcompare⟩ := ofExcept_eq_ok h
          cases op <;> cases hcompare
      | string hother hother' =>
          exact ⟨_, (bind_ok (run_viewOf hview')).trans (bind_ok (run_viewOf hother'))⟩

theorem likeValue_alike {pattern : String} {b : SqlBool} {s' : StringStore}
    (hvalue : Alike s t value value') (h : likeValue regexMatch pattern value s = .ok b s') :
    likeValue regexMatch pattern value' t = .ok b t := by
  cases hvalue with
  | null =>
      cases h
      rfl
  | int n => cases h
  | string hview hview' =>
      obtain ⟨view, s₁, hrun, h₁⟩ := Prog.bind_eq_ok.1 h
      obtain ⟨rfl, hlookup⟩ := viewOf_eq_ok hrun
      obtain rfl := Option.some.inj (hview.symm.trans hlookup)
      obtain ⟨matched, s₂, hmatch, h₂⟩ := Prog.bind_eq_ok.1 h₁
      obtain ⟨rfl, hmatched⟩ := ofExcept_eq_ok hmatch
      cases h₂
      rw [likeValue, bind_ok (run_viewOf hview'), hmatched]
      rfl

/-- A condition that raises no exception raises none with other ids. -/
theorem evaluateCondition_alike {condition : Condition} {b : SqlBool} {s' : StringStore}
    (hrecord : ∀ value ∈ record.fields, base.toInterner.Knows value)
    (hs : Knowing base (conditionTexts condition) s) (ht : Knowing base (conditionTexts condition) t)
    (h : evaluateCondition regexMatch schema record condition s = .ok b s') :
    s' = s ∧ ∃ b', evaluateCondition regexMatch schema record condition t = .ok b' t := by
  obtain ⟨rfl, -⟩ := evaluateCondition_eq_ok h
  refine ⟨rememberAll_of_known hs.texts, ?_⟩
  rw [rememberAll_of_known hs.texts] at h
  induction condition generalizing b with
  | comparison left op right =>
      obtain ⟨l, s₁, hl, h₁⟩ := Prog.bind_eq_ok.1 h
      obtain ⟨r, s₂, hr, h₂⟩ := Prog.bind_eq_ok.1 h₁
      obtain ⟨rfl, l', hl', hleft⟩ := expressionValue_alike hrecord hs.left ht.left hl
      obtain ⟨rfl, r', hr', hright⟩ := expressionValue_alike hrecord hs.right ht.right hr
      obtain ⟨b', hcompare⟩ := compareValues_alike hleft hright h₂
      exact ⟨b', (bind_ok hl').trans ((bind_ok hr').trans hcompare)⟩
  | between v lower upper =>
      obtain ⟨x, s₁, hx, h₁⟩ := Prog.bind_eq_ok.1 h
      obtain ⟨l, s₂, hl, h₂⟩ := Prog.bind_eq_ok.1 h₁
      obtain ⟨above, s₃, hge, h₃⟩ := Prog.bind_eq_ok.1 h₂
      obtain ⟨u, s₄, hu, h₄⟩ := Prog.bind_eq_ok.1 h₃
      obtain ⟨below, s₅, hle, h₅⟩ := Prog.bind_eq_ok.1 h₄
      obtain ⟨rfl, x', hx', hvalue⟩ := expressionValue_alike hrecord hs.left ht.left hx
      obtain ⟨rfl, l', hl', hlower⟩ := expressionValue_alike hrecord hs.right.left ht.right.left hl
      obtain ⟨rfl, habove⟩ := ofExcept_eq_ok hge
      obtain ⟨rfl, u', hu', hupper⟩ := expressionValue_alike hrecord hs.right.right ht.right.right hu
      obtain ⟨rfl, hbelow⟩ := ofExcept_eq_ok hle
      obtain ⟨above', habove'⟩ : ∃ b', x'.compare .greaterEqual l' = .ok b' :=
        compare_alike hvalue hlower habove
      obtain ⟨below', hbelow'⟩ : ∃ b', x'.compare .lessEqual u' = .ok b' :=
        compare_alike hvalue hupper hbelow
      refine ⟨above'.and below', ?_⟩
      have hge' : (Prog.ofExcept (x'.ge l') : Prog StringStore SqlBool) t = .ok above' t := by
        rw [show x'.ge l' = .ok above' from habove']
        rfl
      have hle' : (Prog.ofExcept (x'.le u') : Prog StringStore SqlBool) t = .ok below' t := by
        rw [show x'.le u' = .ok below' from hbelow']
        rfl
      rw [evaluateCondition, bind_ok hx', bind_ok hl', bind_ok hge', bind_ok hu', bind_ok hle']
      rfl
  | like v pattern =>
      obtain ⟨x, s₁, hx, h₁⟩ := Prog.bind_eq_ok.1 h
      have hlike : likeValue regexMatch pattern x s₁ = .ok b s := by
        refine Eq.trans ?_ h₁
        cases x <;> rfl
      obtain ⟨rfl, x', hx', hvalue⟩ := expressionValue_alike hrecord hs ht hx
      refine ⟨b, (bind_ok hx').trans (Eq.trans ?_ (likeValue_alike hvalue hlike))⟩
      cases x' <;> rfl
  | and left right ihl ihr =>
      obtain ⟨⟨bl, hl⟩, br, hr⟩ := sides_eq_ok rfl h
      obtain ⟨bl', hl'⟩ := ihl hs.left ht.left hl
      obtain ⟨br', hr'⟩ := ihr hs.right ht.right hr
      exact ⟨bl'.and br', (bind_ok hl').trans (bind_ok hr')⟩
  | or left right ihl ihr =>
      obtain ⟨⟨bl, hl⟩, br, hr⟩ := sides_eq_ok rfl h
      obtain ⟨bl', hl'⟩ := ihl hs.left ht.left hl
      obtain ⟨br', hr'⟩ := ihr hs.right ht.right hr
      exact ⟨bl'.or br', (bind_ok hl').trans (bind_ok hr')⟩

/-- A text that an index was asked for has its id from the record that it is found in. -/
theorem lookupTexts_known {column literal : Expression} (hone : base.OneId)
    (hrecord : ∀ value ∈ record.fields, base.toInterner.Knows value)
    (hkeeps : base.Extends s) (hs : s.Consistent)
    (hknown : ∀ text ∈ expressionTexts literal, (s.stringToId.lookup text).isSome = true)
    (hsame : s.valueOf schema record column = s.valueOf schema record literal) :
    ∀ text ∈ Schema.lookupTexts column literal, (base.stringToId.lookup text).isSome = true := by
  intro text htext
  cases column with
  | literal other => cases htext
  | aggregate function name => cases htext
  | identifier name =>
      cases literal with
      | identifier other => cases htext
      | aggregate function other => cases htext
      | literal literal =>
          obtain ⟨type, text'⟩ := literal
          cases type with
          | null => cases htext
          | integer => cases htext
          | string =>
              obtain rfl := List.mem_singleton.1 htext
              obtain ⟨id, hid⟩ := Option.isSome_iff_exists.1 (hknown text (List.mem_singleton.2 rfl))
              have hfield : (schema.columnIndex name).bind (record.fields[·]?) = some (.string ⟨id⟩) := by
                refine Eq.trans hsame ?_
                simp only [valueOf, hid]
                rfl
              obtain ⟨index, -, hvalue⟩ := Option.bind_eq_some_iff.1 hfield
              obtain ⟨view, hview⟩ :=
                Option.isSome_iff_exists.1 (hrecord _ (List.mem_of_getElem? hvalue))
              have hviews := (hkeeps _ _ hview).symm.trans (hs.faithful _ _ hid)
              rw [← Option.some.inj hviews, hone _ _ hview]
              rfl

/-- Where a condition is true of a record, the texts that are looked for had their ids before. -/
theorem planTexts_known {condition : Condition} {s' : StringStore} (hone : base.OneId)
    (hrecord : ∀ value ∈ record.fields, base.toInterner.Knows value)
    (hs : Knowing base (conditionTexts condition) s) (hsone : s.OneId)
    (h : evaluateCondition regexMatch schema record condition s = .ok .true s') :
    ∀ text ∈ schema.planTexts condition, (base.stringToId.lookup text).isSome = true := by
  induction condition generalizing s' with
  | and left right ihl ihr =>
      obtain ⟨bl, s₁, hl, h₁⟩ := Prog.bind_eq_ok.1 h
      obtain ⟨br, s₂, hr, h₂⟩ := Prog.bind_eq_ok.1 h₁
      obtain ⟨hand, -⟩ := Prog.pure_eq_ok.1 h₂
      obtain ⟨rfl, rfl⟩ := SqlBool.and_eq_true hand.symm
      obtain ⟨rfl, -⟩ := evaluateCondition_eq_ok hl
      rw [rememberAll_of_known hs.left.texts] at hr
      rw [Schema.planTexts, List.forall_mem_append]
      refine ⟨ihl hs.left hl, ?_⟩
      split
      · exact ihr hs.right hr
      · intro text htext
        cases htext
  | comparison left op right =>
      cases op with
      | equal =>
          have hsame := valueOf_eq_of_true hsone hs.texts h
          rw [Schema.planTexts, List.forall_mem_append]
          refine ⟨lookupTexts_known hone hrecord hs.keeps hs.consistent hs.right.texts hsame, ?_⟩
          split
          · exact lookupTexts_known hone hrecord hs.keeps hs.consistent hs.left.texts hsame.symm
          · intro text htext
            cases htext
      | _ =>
          intro text htext
          cases htext
  | or left right ihl ihr =>
      intro text htext
      cases htext
  | between value lower upper =>
      intro text htext
      cases htext
  | like value pattern =>
      intro text htext
      cases htext

end OtherIds

/-! ## Finding and scanning -/

namespace Executor

variable {table : Table} {rows : Rows} {env : ExecutorEnv} {condition : Condition}

/-- The strings after the texts of a `WHERE`. -/
theorem knowing_whereTexts {base : StringStore} (texts : List String) (h : base.Consistent)
    (hroom : base.nextId.toNat + (texts ++ conditionTexts condition).length < 2 ^ 32) :
    Knowing base (conditionTexts condition)
      (base.rememberAll (texts ++ conditionTexts condition)) where
  keeps := (settles_rememberAll _).extends_
  consistent := h.rememberAll _ hroom
  texts := fun _ htext => lookup_rememberAll (List.mem_append_right _ htext)

/-- What a `WHERE` says of a record: it raises no exception if the record does not raise one, and it is true
    where the record is evaluated to true. -/
theorem truth_of_evaluates {base : StringStore} {schema : Schema} {record : Record}
    (hready : Ready base schema record) (hstrings : base.Consistent) (hone : base.OneId)
    (hroom : base.nextId.toNat +
      (schema.planTexts condition ++ conditionTexts condition).length < 2 ^ 32)
    (hevaluates : (evaluateCondition env.regexMatch schema record condition).result base ≠ none) :
    truth env.regexMatch schema base record (some condition) ≠ none ∧
      (truth env.regexMatch schema base record (some condition) = some .true ↔
        (evaluateCondition env.regexMatch schema record condition).result base = some .true) := by
  have hroom' : base.nextId.toNat + ([] ++ conditionTexts condition).length < 2 ^ 32 := by
    rw [List.length_append] at hroom
    rw [List.nil_append]
    omega
  have hscan := knowing_whereTexts [] hstrings hroom'
  have hfind := knowing_whereTexts (schema.planTexts condition) hstrings hroom
  have hresult : ∀ b, (evaluateCondition env.regexMatch schema record condition).result base = some b ↔
      ∃ s', evaluateCondition env.regexMatch schema record condition
        (base.rememberAll ([] ++ conditionTexts condition)) = .ok b s' := by
    intro b
    have hlater : (evaluateCondition env.regexMatch schema record condition).result
        (base.rememberAll ([] ++ conditionTexts condition)) =
          (evaluateCondition env.regexMatch schema record condition).result base :=
      result_evaluateCondition hready .refl
    rw [← hlater, result_eq_some]
  -- where the texts of the lookup had ids before, the order does not matter
  have hsame : (∀ text ∈ schema.planTexts condition, (base.stringToId.lookup text).isSome = true) →
      base.rememberAll (schema.planTexts condition ++ conditionTexts condition) =
        base.rememberAll ([] ++ conditionTexts condition) := by
    intro hknown
    rw [rememberAll_append, rememberAll_of_known hknown, List.nil_append]
  obtain ⟨b, hb⟩ := Option.ne_none_iff_exists'.1 hevaluates
  obtain ⟨s', hrun⟩ := (hresult b).1 hb
  obtain ⟨-, b', hrun'⟩ := evaluateCondition_alike hready.known hscan hfind hrun
  constructor
  · rw [truth, result_ok hrun']
    exact Option.some_ne_none b'
  · rw [truth, result_eq_some]
    constructor
    · rintro ⟨t', htrue⟩
      have hknown := planTexts_known hone hready.known hfind (hone.rememberAll _) htrue
      rw [hsame hknown] at htrue
      exact (hresult .true).2 ⟨t', htrue⟩
    · intro htrue
      obtain ⟨t', htrue⟩ := (hresult .true).1 htrue
      have hknown := planTexts_known hone hready.known hscan (hone.rememberAll _) htrue
      rw [hsame hknown]
      exact ⟨t', htrue⟩

/-- The records that an index gives are those of which the condition can be true. -/
theorem fields_of_truth {base : StringStore} {schema : Schema} {record : Record} {i : Nat}
    {literal : Literal} (hone : base.OneId) (hplan : schema.plan condition = .find i literal)
    (htruth : truth env.regexMatch schema base record (some condition) = some .true) :
    record.fields[i]? =
      (base.rememberAll (schema.planTexts condition)).valueOf schema record (.literal literal) := by
  rw [truth, result_eq_some] at htruth
  obtain ⟨s', htrue⟩ := htruth
  have hknown : ∀ text ∈ conditionTexts condition, ((base.rememberAll
      (schema.planTexts condition ++ conditionTexts condition)).stringToId.lookup text).isSome = true :=
    fun text htext => lookup_rememberAll (List.mem_append_right _ htext)
  rw [field_of_true (hone.rememberAll _) hknown hplan htrue, rememberAll_append]
  exact valueOf_settles (fun text htext => lookup_rememberAll (mem_planTexts hplan htext))
    (settles_rememberAll _)

/-- `MatchingRecords` gives the records of the table of which the condition is true, if looking at none of
    them raises an exception; where there are none, the index may not raise one either. -/
theorem matchingRecords_eq_scan (h : table.Represents rows) (hstrings : table.strings.Consistent)
    (hone : table.strings.OneId)
    (hroom : table.strings.nextId.toNat +
      (table.schema.planTexts condition ++ conditionTexts condition).length < 2 ^ 32)
    {records : List Record} (hrecords : Table.records table = .ok records table)
    (hevaluates : ∀ record ∈ records,
      (evaluateCondition env.regexMatch table.schema record condition).result table.strings ≠ none)
    (hlookup : records = [] → ∃ found t, indexedRecords condition table = .ok found t) :
    ∃ t, matchingRecords env (some condition) table = .ok (records.filter fun record =>
      (evaluateCondition env.regexMatch table.schema record condition).result table.strings =
        some .true) t := by
  obtain rfl : table.recordsOf rows = records := by
    rw [h.run_records] at hrecords
    injection hrecords
  have htruth : ∀ record ∈ table.recordsOf rows,
      truth env.regexMatch table.schema table.strings record (some condition) ≠ none ∧
        (truth env.regexMatch table.schema table.strings record (some condition) = some .true ↔
          (evaluateCondition env.regexMatch table.schema record condition).result table.strings =
            some .true) := by
    intro record hmem
    have hrow := (h.mem_recordsOf.1 hmem).row
    have hready : Ready table.strings table.schema record :=
      ⟨h.strings, (h.sound.allowed _ _ hrow).length, h.sound.known _ _ hrow⟩
    exact truth_of_evaluates hready hstrings hone hroom (hevaluates record hmem)
  obtain ⟨-, hreturns⟩ := run_matchingRecords env h (some condition)
  cases hplan : table.schema.plan condition with
  | raises =>
      -- the index raises an exception: so does every record, or the hypothesis on the index speaks
      exfalso
      by_cases hempty : table.recordsOf rows = []
      · obtain ⟨found, t, hfound⟩ := hlookup hempty
        have hraises := run_indexedRecords h condition
        rw [hplan] at hraises
        obtain ⟨what, t', herror⟩ := hraises
        rw [hfound] at herror
        cases herror
      · obtain ⟨record, hmem⟩ := List.exists_mem_of_ne_nil _ hempty
        obtain ⟨b, hb⟩ := Option.ne_none_iff_exists'.1 (hevaluates record hmem)
        obtain ⟨s', hrun⟩ := result_eq_some.1 hb
        exact evaluateCondition_of_raises hplan hrun
  | find i literal =>
      -- only the records with the value that was looked for are examined
      have hexamined : examined table.schema table.strings (table.recordsOf rows) (some condition) =
          some ((table.recordsOf rows).filter fun record => record.fields[i]? =
            (table.strings.rememberAll (table.schema.planTexts condition)).valueOf table.schema record
              (.literal literal)) := by
        rw [examined, hplan]
      have hnot : ¬ WhereRaises env.regexMatch table.schema table.strings (table.recordsOf rows)
          (some condition) := by
        intro hraises
        obtain ⟨record, hmem, hnone⟩ := hraises _ hexamined
        exact (htruth record (List.mem_filter.1 hmem).1).1 hnone
      obtain ⟨t, hrun⟩ := hreturns hnot
      refine ⟨t, hrun.trans ?_⟩
      rw [matching, hexamined, Option.getD_some, List.filter_filter]
      congr 1
      refine List.filter_congr fun record hmem => ?_
      rw [Bool.eq_iff_iff, Bool.and_eq_true, decide_eq_true_iff, decide_eq_true_iff, decide_eq_true_iff,
        (htruth record hmem).2]
      -- a record of which the condition is true has that value
      refine and_iff_left_of_imp fun htrue => ?_
      exact fields_of_truth hone hplan ((htruth record hmem).2.2 htrue)
  | all =>
      -- no index is asked
      have hexamined : examined table.schema table.strings (table.recordsOf rows) (some condition) =
          some (table.recordsOf rows) := by
        rw [examined, hplan]
      have hnot : ¬ WhereRaises env.regexMatch table.schema table.strings (table.recordsOf rows)
          (some condition) := by
        intro hraises
        obtain ⟨record, hmem, hnone⟩ := hraises _ hexamined
        exact (htruth record hmem).1 hnone
      obtain ⟨t, hrun⟩ := hreturns hnot
      refine ⟨t, hrun.trans ?_⟩
      rw [matching, hexamined, Option.getD_some]
      congr 1
      refine List.filter_congr fun record hmem => ?_
      rw [Bool.eq_iff_iff, decide_eq_true_iff, decide_eq_true_iff, (htruth record hmem).2]

/-! ## One row, and none -/

/-- `WHERE id = 1`. -/
def idIsOne : Condition := .comparison (.identifier "id") .equal (.literal ⟨.integer, "1"⟩)

/-- `WHERE missing = 1`. -/
def missingIsOne : Condition := .comparison (.identifier "missing") .equal (.literal ⟨.integer, "1"⟩)

theorem matchingRecords_eq_scan_one : ∃ table rows records t, table.Represents rows ∧
    Table.records table = .ok records table ∧ records ≠ [] ∧
    matchingRecords stillEnv (some idIsOne) table = .ok (records.filter fun record =>
      (evaluateCondition stillEnv.regexMatch table.schema record idIsOne).result table.strings =
        some .true) t := by
  have hnew := Table.tracks_new keySchema_wellFormed rfl
  have hallows : keySchema.Allows [.int 1] := by
    refine ⟨rfl, ?_⟩
    intro i column value hcolumn hvalue
    cases i with
    | zero =>
        cases hcolumn
        cases hvalue
        rfl
    | succ i => cases hvalue
  have hadmits : Rows.empty.Admits keySchema 0 [.int 1] := by
    intro i column value _ _ _ other row hother
    cases hother
  obtain ⟨address, table, -, htracks, hstrings, hcolumns⟩ :=
    @Table.Tracks.run_storeNewRecord (Table.new keySchema) Rows.empty [] { id := 0, fields := [.int 1] }
      hnew (by decide) (stillEnv.now 0) rfl hallows hadmits
      (by simp [Interner.Knows]) (by decide)
  have hrows : ∀ record ∈ table.recordsOf (Rows.empty.insert [.int 1]), record.fields = [.int 1] := by
    intro record hmem
    have hrow := (htracks.mem_recordsOf.1 hmem).row
    by_cases hid : record.id = 0
    · rw [hid] at hrow
      exact (Option.some.inj hrow).symm
    · have hother : (Rows.empty.insert [.int 1]).row record.id = none := Rows.set_other _ hid
      rw [hother] at hrow
      cases hrow
  have hsome : table.recordsOf (Rows.empty.insert [.int 1]) ≠ [] := by
    intro hnil
    have hmem : ((0 : UInt32), [Value.int 1]) ∈ (Rows.empty.insert [.int 1]).list :=
      htracks.mem_list.2 rfl
    rw [Table.recordsOf, List.map_eq_nil_iff] at hnil
    rw [hnil] at hmem
    cases hmem
  have hindex : table.schema.columnIndex "id" = some 0 := by
    rw [Schema.columnIndex, hcolumns]
    rfl
  have hroom : table.strings.nextId.toNat +
      (table.schema.planTexts idIsOne ++ conditionTexts idIsOne).length < 2 ^ 32 := by
    have hnone : table.schema.planTexts idIsOne = [] := by
      simp [idIsOne, Schema.planTexts, Schema.lookupTexts, expressionTexts]
    rw [hnone, hstrings]
    decide
  have hevaluates : ∀ record ∈ table.recordsOf (Rows.empty.insert [.int 1]),
      (evaluateCondition stillEnv.regexMatch table.schema record idIsOne).result table.strings ≠ none := by
    intro record hmem
    have hvalue : expressionValue (.identifier "id") table.schema record table.strings =
        .ok (.int 1) table.strings := by
      simp only [expressionValue, hindex, hrows record hmem]
      rfl
    have hrun : evaluateCondition stillEnv.regexMatch table.schema record idIsOne table.strings =
        .ok .true table.strings := bind_ok hvalue
    rw [result_ok hrun]
    exact Option.some_ne_none _
  obtain ⟨t, hrun⟩ := @matchingRecords_eq_scan table _ stillEnv idIsOne htracks.toRepresents
    (hstrings ▸ consistent_new) (hstrings ▸ oneId_new) hroom _ htracks.run_records hevaluates
    (fun hnil => absurd hnil hsome)
  exact ⟨table, _, _, t, htracks.toRepresents, htracks.run_records, hsome, hrun⟩

/-- A table without rows: an unknown column raises an exception if an index is asked for it. -/
theorem matchingRecords_raises_empty : (Table.new keySchema).Represents Rows.empty ∧
    Table.records (Table.new keySchema) = .ok [] (Table.new keySchema) ∧ ∃ what t,
      matchingRecords stillEnv (some missingIsOne) (Table.new keySchema) = .error (.exception what) t :=
  ⟨(Table.tracks_new keySchema_wellFormed rfl).toRepresents, rfl, _, _, rfl⟩

end Executor

end QuasarDB.Storage
