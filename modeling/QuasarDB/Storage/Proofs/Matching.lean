import QuasarDB.Storage.Matching
import QuasarDB.Storage.Proofs.SelectFrame

set_option autoImplicit false

/-! # Which rows match

What `MatchingRecords` does with a table is what `matching` says of its rows: a condition raises an
exception of a record, or has a value there, whether or not its texts have ids already. -/

namespace QuasarDB.Storage

open Prog Server

/-! ## Texts that have ids -/

namespace StringStore

variable {store : StringStore} {str : String} {strs : List String}

theorem lookup_rememberAll (h : str ∈ strs) :
    ((store.rememberAll strs).stringToId.lookup str).isSome = true := by
  induction strs generalizing store with
  | nil => cases h
  | cons other strs ih =>
      rcases List.mem_cons.1 h with rfl | hmem
      · obtain ⟨id, -, hid⟩ := run_intern_remember str store
        rw [rememberAll_cons, (settles_rememberAll strs).ids str id hid]
        rfl
      · exact ih hmem

theorem rememberAll_of_known (h : ∀ str ∈ strs, (store.stringToId.lookup str).isSome = true) :
    store.rememberAll strs = store := by
  induction strs with
  | nil => rfl
  | cons str strs ih =>
      obtain ⟨hstr, hstrs⟩ := List.forall_mem_cons.1 h
      obtain ⟨id, hid⟩ := Option.isSome_iff_exists.1 hstr
      rw [rememberAll_cons, remember_of_some hid]
      exact ih hstrs

theorem rememberAll_again : (store.rememberAll strs).rememberAll strs = store.rememberAll strs :=
  rememberAll_of_known fun _ h => lookup_rememberAll h

end StringStore

open StringStore

/-! ## Looking earlier -/

section Earlier

variable {store later later' : StringStore} {schema : Schema} {record : Record} {value : Value}
  {expression : Expression} {regexMatch : RegexMatch} {b : SqlBool}

/-- An expression has the value that it has later. -/
theorem expressionValue_of_later
    (h : expressionValue expression schema record later = .ok value later')
    (hlater : (store.rememberAll (expressionTexts expression)).Settles later) :
    expressionValue expression schema record store =
      .ok value (store.rememberAll (expressionTexts expression)) := by
  cases expression with
  | literal literal =>
      obtain ⟨type, text⟩ := literal
      cases type with
      | null =>
          cases h
          rfl
      | integer =>
          simp only [expressionValue, literalValue] at h ⊢
          cases hstoi : stoi text with
          | error what =>
              rw [hstoi] at h
              cases h
          | ok n =>
              rw [hstoi] at h
              cases h
              rfl
      | string =>
          obtain ⟨id, hrun, hid⟩ := run_intern_remember text store
          have hagain : intern text later = .ok value later' := h
          rw [run_intern (hlater.ids text id hid)] at hagain
          cases hagain
          exact hrun
  | identifier name =>
      simp only [expressionValue] at h ⊢
      cases hindex : schema.columnIndex name with
      | none =>
          rw [hindex] at h
          cases h
      | some index =>
          simp only [hindex] at h ⊢
          cases hfield : record.fields[index]? with
          | none =>
              rw [hfield] at h
              cases h
          | some field =>
              rw [hfield] at h
              cases h
              rfl
  | aggregate function column => cases h

theorem viewOf_of_later {id : StringId} {view : String} (h : viewOf id later = .ok view later')
    (hextends : store.Extends later) (hknown : store.toInterner.Knows (.string id)) :
    viewOf id store = .ok view store := by
  obtain ⟨view', hview⟩ := Option.isSome_iff_exists.1 hknown
  obtain ⟨-, hlookup⟩ := viewOf_eq_ok h
  rw [hextends id.value view' hview] at hlookup
  cases hlookup
  exact run_viewOf hview

theorem compareValues_of_later {op : ComparisonOperator} {left right : Value}
    (h : compareValues op left right later = .ok b later') (hextends : store.Extends later)
    (hleft : store.toInterner.Knows left) (hright : store.toInterner.Knows right) :
    compareValues op left right store = .ok b store := by
  unfold compareValues at h ⊢
  by_cases hnull : (left.isNull || right.isNull) = true
  · rw [if_pos hnull] at h ⊢
    cases h
    rfl
  · rw [if_neg hnull] at h
    simp only [if_neg hnull]
    split at h
    · obtain ⟨view₁, store₁, hview₁, h₁⟩ := Prog.bind_eq_ok.1 h
      obtain ⟨view₂, store₂, hview₂, h₂⟩ := Prog.bind_eq_ok.1 h₁
      obtain ⟨rfl, -⟩ := viewOf_eq_ok hview₁
      cases h₂
      rw [bind_ok (viewOf_of_later hview₁ hextends hleft),
        bind_ok (viewOf_of_later hview₂ hextends hright)]
      rfl
    · obtain ⟨-, hcompare⟩ := ofExcept_eq_ok h
      rw [hcompare]
      rfl

theorem likeValue_of_later {pattern : String}
    (h : likeValue regexMatch pattern value later = .ok b later') (hextends : store.Extends later)
    (hknown : store.toInterner.Knows value) :
    likeValue regexMatch pattern value store = .ok b store := by
  cases value with
  | null =>
      cases h
      rfl
  | int n => cases h
  | string id =>
      obtain ⟨view, store₁, hview, h₁⟩ := Prog.bind_eq_ok.1 h
      obtain ⟨matched, store₂, hmatch, h₂⟩ := Prog.bind_eq_ok.1 h₁
      obtain ⟨rfl, hmatched⟩ := ofExcept_eq_ok hmatch
      cases h₂
      rw [likeValue, bind_ok (viewOf_of_later hview hextends hknown), hmatched]
      rfl

/-- The strings of the record and of all ids are known. -/
structure Ready (store : StringStore) (schema : Schema) (record : Record) : Prop where
  closed : store.Closed
  fields : record.fields.length = schema.size
  known : ∀ value ∈ record.fields, store.toInterner.Knows value

theorem Ready.grows {store' : StringStore} (h : Ready store schema record)
    (hgrows : store.Grows store') : Ready store' schema record :=
  ⟨hgrows.closed h.closed, h.fields, hgrows.knows h.known⟩

theorem Ready.afterExpression {store' : StringStore} (h : Ready store schema record)
    (hrun : expressionValue expression schema record store = .ok value store') :
    Ready store' schema record ∧ store.Extends store' ∧ store'.toInterner.Knows value := by
  obtain ⟨hgrows, hknows⟩ := (expressionValue_along expression h.closed h.fields h.known).of_ok hrun
  exact ⟨h.grows hgrows, hgrows.keeps, hknows⟩

theorem Ready.afterCondition {store' : StringStore} {condition : Condition} (h : Ready store schema record)
    (hrun : evaluateCondition regexMatch schema record condition store = .ok b store') :
    Ready store' schema record := by
  obtain ⟨hgrows, -⟩ :=
    (evaluateCondition_along regexMatch condition h.closed h.fields h.known).of_ok hrun
  exact h.grows hgrows

/-- A condition that has a value where its texts are known has that value before. -/
theorem evaluateCondition_of_later {condition : Condition} (hready : Ready store schema record)
    (h : evaluateCondition regexMatch schema record condition later = .ok b later')
    (hlater : (store.rememberAll (conditionTexts condition)).Settles later) :
    evaluateCondition regexMatch schema record condition store =
      .ok b (store.rememberAll (conditionTexts condition)) := by
  induction condition generalizing store later later' b with
  | comparison left op right =>
      obtain ⟨l, later₁, hl, h₁⟩ := Prog.bind_eq_ok.1 h
      obtain ⟨r, later₂, hr, h₂⟩ := Prog.bind_eq_ok.1 h₁
      have hsettles₁ : later.Settles later₁ := (expressionValue_eq_ok hl).1 ▸ settles_rememberAll _
      have hsettles₂ : later₁.Settles later₂ := (expressionValue_eq_ok hr).1 ▸ settles_rememberAll _
      rw [conditionTexts, rememberAll_append] at hlater ⊢
      have hl := expressionValue_of_later hl ((settles_rememberAll _).trans hlater)
      have hr := expressionValue_of_later hr (hlater.trans hsettles₁)
      obtain ⟨hready₁, -, hknows⟩ := hready.afterExpression hl
      obtain ⟨-, hextends, hknows'⟩ := hready₁.afterExpression hr
      have hlast := (hlater.trans (hsettles₁.trans hsettles₂)).extends_
      rw [evaluateCondition, bind_ok hl, bind_ok hr]
      exact compareValues_of_later h₂ hlast (hextends.knows hknows) hknows'
  | between value lower upper =>
      obtain ⟨v, later₁, hv, h₁⟩ := Prog.bind_eq_ok.1 h
      obtain ⟨l, later₂, hl, h₂⟩ := Prog.bind_eq_ok.1 h₁
      obtain ⟨aboveLower, later₃, hge, h₃⟩ := Prog.bind_eq_ok.1 h₂
      obtain ⟨u, later₄, hu, h₄⟩ := Prog.bind_eq_ok.1 h₃
      obtain ⟨belowUpper, later₅, hle, h₅⟩ := Prog.bind_eq_ok.1 h₄
      obtain ⟨rfl, habove⟩ := ofExcept_eq_ok hge
      obtain ⟨rfl, hbelow⟩ := ofExcept_eq_ok hle
      cases h₅
      have hsettles₁ : later.Settles later₁ := (expressionValue_eq_ok hv).1 ▸ settles_rememberAll _
      have hsettles₂ : later₁.Settles later₃ := (expressionValue_eq_ok hl).1 ▸ settles_rememberAll _
      rw [conditionTexts, rememberAll_append, rememberAll_append] at hlater ⊢
      have hlower := (settles_rememberAll _).trans hlater
      have hv := expressionValue_of_later hv ((settles_rememberAll _).trans hlower)
      have hl := expressionValue_of_later hl (hlower.trans hsettles₁)
      have hu := expressionValue_of_later hu (hlater.trans (hsettles₁.trans hsettles₂))
      rw [evaluateCondition, bind_ok hv, bind_ok hl, habove]
      rw [show (Prog.ofExcept (.ok aboveLower) : Prog StringStore SqlBool) = pure aboveLower from rfl,
        run_pure_bind, bind_ok hu, hbelow]
      rfl
  | like value pattern =>
      obtain ⟨v, later₁, hv, h₁⟩ := Prog.bind_eq_ok.1 h
      have hlike : likeValue regexMatch pattern v later₁ = .ok b later' := by
        refine Eq.trans ?_ h₁
        cases v <;> rfl
      have hsettles : later.Settles later₁ := (expressionValue_eq_ok hv).1 ▸ settles_rememberAll _
      rw [conditionTexts] at hlater ⊢
      have hv := expressionValue_of_later hv hlater
      obtain ⟨-, -, hknows⟩ := hready.afterExpression hv
      rw [evaluateCondition, bind_ok hv]
      refine Eq.trans ?_ (likeValue_of_later hlike (hlater.trans hsettles).extends_ hknows)
      cases v <;> rfl
  | and left right ihl ihr =>
      obtain ⟨bl, later₁, hl, h₁⟩ := Prog.bind_eq_ok.1 h
      obtain ⟨br, later₂, hr, h₂⟩ := Prog.bind_eq_ok.1 h₁
      cases h₂
      have hsettles : later.Settles later₁ := (evaluateCondition_eq_ok hl).1 ▸ settles_rememberAll _
      rw [conditionTexts, rememberAll_append] at hlater ⊢
      have hl := ihl hready hl ((settles_rememberAll _).trans hlater)
      have hr := ihr (hready.afterCondition hl) hr (hlater.trans hsettles)
      rw [evaluateCondition, bind_ok hl, bind_ok hr]
      rfl
  | or left right ihl ihr =>
      obtain ⟨bl, later₁, hl, h₁⟩ := Prog.bind_eq_ok.1 h
      obtain ⟨br, later₂, hr, h₂⟩ := Prog.bind_eq_ok.1 h₁
      cases h₂
      have hsettles : later.Settles later₁ := (evaluateCondition_eq_ok hl).1 ▸ settles_rememberAll _
      rw [conditionTexts, rememberAll_append] at hlater ⊢
      have hl := ihl hready hl ((settles_rememberAll _).trans hlater)
      have hr := ihr (hready.afterCondition hl) hr (hlater.trans hsettles)
      rw [evaluateCondition, bind_ok hl, bind_ok hr]
      rfl

/-- Whether a condition has a value, and which, does not depend on whether its texts are known. -/
theorem result_evaluateCondition {condition : Condition} (hready : Ready store schema record)
    (hlater : (store.rememberAll (conditionTexts condition)).Settles later) :
    (evaluateCondition regexMatch schema record condition).result later =
      (evaluateCondition regexMatch schema record condition).result store := by
  apply Option.ext
  intro b
  rw [result_eq_some, result_eq_some]
  constructor
  · rintro ⟨later', h⟩
    exact ⟨_, evaluateCondition_of_later hready h hlater⟩
  · rintro ⟨store', h⟩
    obtain ⟨rfl, hagain⟩ := evaluateCondition_eq_ok h
    exact ⟨later, (hagain later hlater).1⟩

end Earlier

/-! ## Looking for records -/

theorem Column.looksUp_eq {store store' : StringStore} {literal : Literal} {value : Value}
    (column : Column) (h : literalValue literal store = .ok value store') :
    column.looksUp value = column.looksFor literal := by
  obtain ⟨type, text⟩ := literal
  obtain ⟨name, columnType, flags, defaultType, defaultInt, defaultString⟩ := column
  unfold looksUp looksFor isInt isString
  generalize Column.isIndexed _ = indexed
  cases type with
  | null =>
      cases h
      cases indexed <;> rfl
  | integer =>
      obtain ⟨n, store₁, -, h₁⟩ := Prog.bind_eq_ok.1 h
      cases h₁
      cases indexed <;> cases columnType <;> rfl
  | string =>
      obtain ⟨-, id, rfl, -⟩ := StringStore.intern_eq_ok h
      cases indexed <;> cases columnType <;> rfl

theorem literalValue_raises {literal : Literal} (h : literalMeaning literal = none)
    (store : StringStore) : ∃ what, literalValue literal store = .error (.exception what) store := by
  obtain ⟨type, text⟩ := literal
  cases type with
  | null => cases h
  | string => cases h
  | integer =>
      cases hstoi : stoi text with
      | ok n =>
          simp only [literalMeaning, hstoi] at h
          cases h
      | error what =>
          refine ⟨what, ?_⟩
          simp only [literalValue, hstoi]
          rfl

theorem literalValue_returns {literal : Literal} (h : literalMeaning literal ≠ none)
    (store : StringStore) :
    ∃ value, literalValue literal store =
      .ok value (store.rememberAll (expressionTexts (.literal literal))) := by
  obtain ⟨type, text⟩ := literal
  cases type with
  | null => exact ⟨.null, rfl⟩
  | string =>
      obtain ⟨id, hrun, -⟩ := StringStore.run_intern_remember text store
      exact ⟨_, hrun⟩
  | integer =>
      cases hstoi : stoi text with
      | error what =>
          simp only [literalMeaning, hstoi] at h
          exact absurd rfl h
      | ok n =>
          refine ⟨.int (.ofInt n), ?_⟩
          simp only [literalValue, hstoi]
          rfl

/-- What comes of a plan, where the strings are `store` afterwards. -/
def Plan.Outcome (plan : Plan) (store : StringStore) (records : List Record)
    (x : Prog Table (Option (List Record))) (table : Table) : Prop :=
  match plan with
  | .raises => ∃ what t, x table = .error (.exception what) t
  | .find i literal =>
      x table = .ok (some (records.filter fun record =>
          record.fields[i]? = store.valueOf table.schema record (.literal literal)))
        { table with strings := store }
  | .all => x table = .ok none { table with strings := store }

namespace Executor

variable {table : Table} {rows : Rows}

theorem run_lookup (h : table.Represents rows) (column value : Expression) :
    (table.schema.planLookup column value).Outcome
      (table.strings.rememberAll (Schema.lookupTexts column value)) (table.recordsOf rows)
      (lookup column value) table := by
  cases column with
  | literal literal => rfl
  | aggregate function name => rfl
  | identifier name =>
      cases value with
      | identifier other => rfl
      | aggregate function other => rfl
      | literal literal =>
          unfold Schema.planLookup
          dsimp only [lookup]
          by_cases hmeaning : literalMeaning literal = none
          · rw [if_pos hmeaning]
            obtain ⟨what, hraises⟩ := literalValue_raises hmeaning table.strings
            exact ⟨what, table, bind_error (by rw [Table.onStrings, run_on, hraises])⟩
          · rw [if_neg hmeaning]
            obtain ⟨v, hvalue⟩ := literalValue_returns hmeaning table.strings
            have hon := Table.run_onStrings hvalue
            obtain ⟨hgrows, -⟩ := (literalValue_along literal h.strings).of_ok hvalue
            have h' := h.withStrings hgrows.keeps (hgrows.closed h.strings)
            cases hindex : table.schema.columnIndex name with
            | none =>
                exact ⟨_, _, (bind_ok hon).trans (Table.Represents.run_find_of_none hindex)⟩
            | some i =>
                have hlt := (List.findIdx?_eq_some_iff_findIdx_eq.1 hindex).1
                have hcolumn := List.getElem?_eq_getElem hlt
                have hfind : Table.findByIndex name v _ = _ := h'.run_findByIndex hindex hcolumn
                have hlooks := Column.looksUp_eq table.schema.columns[i] hvalue
                dsimp only
                rw [hcolumn, Option.any_some, ← hlooks]
                cases hlooksUp : (table.schema.columns[i]).looksUp v with
                | true =>
                    rw [hlooksUp, if_pos rfl] at hfind
                    rw [if_pos rfl]
                    have hvalueOf : ∀ record : Record, (table.strings.rememberAll
                        (expressionTexts (.literal literal))).valueOf table.schema record
                          (.literal literal) = some v := fun record =>
                      ((literalValue_eq_ok hvalue).2 _ .refl).2
                    refine ((bind_ok hon).trans hfind).trans ?_
                    simp only [Schema.lookupTexts, hvalueOf]
                    rfl
                | false =>
                    rw [hlooksUp, if_neg (by simp)] at hfind
                    rw [if_neg (by simp)]
                    exact (bind_ok hon).trans hfind

/-- The second way to find records, where the first leads nowhere. -/
def orElse (first second : Prog Table (Option (List Record))) :
    Prog Table (Option (List Record)) := do
  match ← first with
  | some records => return some records
  | none => second

/-- One plan after another. -/
theorem outcome_orElse {first second : Prog Table (Option (List Record))} {plan plan' : Plan}
    {store : StringStore} {texts : List String} {records : List Record}
    (hfirst : plan.Outcome store records first table)
    (hsecond : plan = .all → first table = .ok none { table with strings := store } →
      plan'.Outcome (store.rememberAll texts) records second { table with strings := store }) :
    (if plan = .all then plan' else plan).Outcome
      (store.rememberAll (if plan = .all then texts else [])) records (orElse first second) table := by
  cases plan with
  | raises =>
      obtain ⟨what, t, hrun⟩ := hfirst
      exact ⟨what, t, bind_error hrun⟩
  | find i literal => exact bind_ok hfirst
  | all =>
      have hsecond := hsecond rfl hfirst
      have hrun : orElse first second table = second { table with strings := store } := bind_ok hfirst
      rw [if_pos rfl, if_pos rfl]
      cases plan' with
      | raises =>
          obtain ⟨what, t, hraises⟩ := hsecond
          exact ⟨what, t, hrun.trans hraises⟩
      | find i literal => exact hrun.trans hsecond
      | all => exact hrun.trans hsecond

/-- How the indexes are asked follows the plan. -/
theorem run_indexedRecords (h : table.Represents rows) (condition : Condition) :
    (table.schema.plan condition).Outcome
      (table.strings.rememberAll (table.schema.planTexts condition)) (table.recordsOf rows)
      (indexedRecords condition) table := by
  induction condition generalizing table with
  | and left right ihl ihr =>
      rw [Schema.plan, Schema.planTexts, StringStore.rememberAll_append]
      apply outcome_orElse (ihl h)
      intro _ hrun
      obtain ⟨hgrows, -⟩ := (indexedRecords_along h left).of_ok hrun
      exact ihr (hgrows.represents h)
  | comparison left op right =>
      cases op with
      | equal =>
          rw [Schema.plan, Schema.planTexts, StringStore.rememberAll_append]
          apply outcome_orElse (run_lookup h left right)
          intro _ hrun
          obtain ⟨hgrows, -⟩ := (lookup_along h left right).of_ok hrun
          exact run_lookup (hgrows.represents h) right left
      | _ => rfl
  | or left right ihl ihr => rfl
  | between value lower upper => rfl
  | like value pattern => rfl

/-! ## Looking at them -/

/-- Looking at records: each of them has its truth value, until one raises an exception. -/
theorem run_filterRecords {env : ExecutorEnv} {condition : Condition} {store : StringStore}
    {records : List Record} (hready : ∀ record ∈ records, Ready table.strings table.schema record)
    (hstore : (table.strings.rememberAll (conditionTexts condition)).Settles store) :
    ((∃ record ∈ records,
        (evaluateCondition env.regexMatch table.schema record condition).result store = none) →
      ∃ what t, filterRecords env condition records table = .error (.exception what) t) ∧
    ((∀ record ∈ records,
        (evaluateCondition env.regexMatch table.schema record condition).result store ≠ none) →
      ∃ t, filterRecords env condition records table = .ok (records.filter fun record =>
        (evaluateCondition env.regexMatch table.schema record condition).result store = some .true) t) := by
  induction records generalizing table with
  | nil =>
      constructor
      · rintro ⟨record, hmem, -⟩
        cases hmem
      · intro _
        exact ⟨table, rfl⟩
  | cons record records ih =>
      obtain ⟨hfirst, hothers⟩ := List.forall_mem_cons.1 hready
      have hresult :
          (evaluateCondition env.regexMatch table.schema record condition).result store =
            (evaluateCondition env.regexMatch table.schema record condition).result table.strings :=
        result_evaluateCondition hfirst hstore
      have halong := evaluateCondition_along env.regexMatch condition hfirst.closed hfirst.fields
        hfirst.known
      cases hrun : evaluateCondition env.regexMatch table.schema record condition table.strings with
      | error e strings =>
          -- this record ends the loop
          obtain ⟨⟨what, rfl⟩, -⟩ := halong.of_error hrun
          have hnone : (evaluateCondition env.regexMatch table.schema record condition).result
              store = none := by
            rw [hresult, Prog.result, hrun]
          have hon : Table.onStrings (evaluateCondition env.regexMatch table.schema record condition)
              table = .error (.exception what) { table with strings } := by
            rw [Table.onStrings, run_on, hrun]
          constructor
          · intro _
            refine ⟨what, { table with strings }, ?_⟩
            rw [filterRecords, run_get_bind]
            exact bind_error hon
          · intro hall
            exact absurd hnone (hall record List.mem_cons_self)
      | ok b strings =>
          -- the others are looked at with the texts of the condition interned
          obtain ⟨hgrows, -⟩ := halong.of_ok hrun
          obtain ⟨rfl, -⟩ := evaluateCondition_eq_ok hrun
          have hsome : (evaluateCondition env.regexMatch table.schema record condition).result
              store = some b := by
            rw [hresult, Prog.result, hrun]
          have hon := Table.run_onStrings hrun
          have hstep : filterRecords env condition (record :: records) table =
              (do
                let others ← filterRecords env condition records
                return if b = SqlBool.true then record :: others else others)
              { table with strings := table.strings.rememberAll (conditionTexts condition) } := by
            rw [filterRecords, run_get_bind]
            exact bind_ok hon
          have hready' : ∀ other ∈ records, Ready (table.strings.rememberAll (conditionTexts condition))
              table.schema other := fun other hother => (hothers other hother).grows hgrows
          obtain ⟨hraises, hreturns⟩ :=
            @ih { table with strings := table.strings.rememberAll (conditionTexts condition) } hready'
              (by rwa [StringStore.rememberAll_again])
          constructor
          · rintro ⟨other, hmem, hnone⟩
            rcases List.mem_cons.1 hmem with rfl | hmem
            · rw [hsome] at hnone
              cases hnone
            · obtain ⟨what, t, herror⟩ := hraises ⟨other, hmem, hnone⟩
              exact ⟨what, t, hstep.trans (bind_error herror)⟩
          · intro hall
            obtain ⟨t, hok⟩ := hreturns fun other hmem => hall other (List.mem_cons_of_mem _ hmem)
            refine ⟨t, hstep.trans ((bind_ok hok).trans ?_)⟩
            rw [List.filter_cons, hsome]
            cases b <;> rfl

/-- `RecordsFor` gives the records that are to be looked at. -/
theorem run_recordsFor (h : table.Represents rows) (condition : Condition) :
    (examined table.schema table.strings (table.recordsOf rows) (some condition) = none →
      ∃ what t, recordsFor condition table = .error (.exception what) t) ∧
    ∀ candidates,
      examined table.schema table.strings (table.recordsOf rows) (some condition) = some candidates →
      recordsFor condition table = .ok candidates { table with
        strings := table.strings.rememberAll (table.schema.planTexts condition) } := by
  have hplan := run_indexedRecords h condition
  unfold examined
  dsimp only
  cases htype : table.schema.plan condition with
  | raises =>
      rw [htype] at hplan
      obtain ⟨what, t, hrun⟩ := hplan
      exact ⟨fun _ => ⟨what, t, bind_error hrun⟩, fun _ hsome => nomatch hsome⟩
  | find i literal =>
      rw [htype] at hplan
      constructor
      · intro hnone
        cases hnone
      · intro candidates hsome
        obtain rfl := Option.some.inj hsome
        exact bind_ok hplan
  | all =>
      rw [htype] at hplan
      constructor
      · intro hnone
        cases hnone
      · intro candidates hsome
        obtain rfl := Option.some.inj hsome
        obtain ⟨hgrows, -⟩ := (indexedRecords_along h condition).of_ok hplan
        exact (bind_ok hplan).trans (hgrows.represents h).run_records

/-- What `MatchingRecords` comes to: an exception if the `WHERE` raises one, else the rows that match. -/
theorem run_matchingRecords (env : ExecutorEnv) (h : table.Represents rows)
    (whereClause : Option Condition) :
    (WhereRaises env.regexMatch table.schema table.strings (table.recordsOf rows) whereClause →
      ∃ what t, matchingRecords env whereClause table = .error (.exception what) t) ∧
    (¬ WhereRaises env.regexMatch table.schema table.strings (table.recordsOf rows) whereClause →
      ∃ t, matchingRecords env whereClause table =
        .ok (matching env.regexMatch table.schema table.strings (table.recordsOf rows) whereClause)
          t) := by
  cases whereClause with
  | none =>
      constructor
      · intro hraises
        obtain ⟨record, -, hnone⟩ := hraises (table.recordsOf rows) rfl
        cases hnone
      · intro _
        refine ⟨table, h.run_records.trans ?_⟩
        simp [matching, examined, truth]
  | some condition =>
      obtain ⟨hfails, hfinds⟩ := run_recordsFor h condition
      unfold WhereRaises matching
      cases hexamined : examined table.schema table.strings (table.recordsOf rows)
          (some condition) with
      | none =>
          obtain ⟨what, t, hrun⟩ := hfails hexamined
          constructor
          · intro _
            exact ⟨what, t, bind_error hrun⟩
          · intro hnot
            exact absurd (fun _ hsome => nomatch hsome) hnot
      | some candidates =>
          have hrun := hfinds candidates hexamined
          obtain ⟨hgrows, hsublist⟩ := (recordsFor_along h condition).of_ok hrun
          have h' := hgrows.represents h
          have hready : ∀ record ∈ candidates, Ready
              (table.strings.rememberAll (table.schema.planTexts condition)) table.schema record := by
            intro record hrecord
            have hrow := (h.mem_recordsOf.1 (hsublist.subset hrecord)).row
            exact ⟨h'.strings, (h.sound.allowed _ _ hrow).length, h'.sound.known _ _ hrow⟩
          obtain ⟨hraises, hreturns⟩ := @run_filterRecords { table with
            strings := table.strings.rememberAll (table.schema.planTexts condition) } env condition
            (table.strings.rememberAll (table.schema.planTexts condition ++ conditionTexts condition))
            candidates hready (by rw [StringStore.rememberAll_append]; exact .refl)
          constructor
          · intro hall
            obtain ⟨what, t, herror⟩ := hraises (hall candidates rfl)
            exact ⟨what, t, (bind_ok hrun).trans herror⟩
          · intro hnot
            obtain ⟨t, hok⟩ := hreturns fun record hrecord hnone => hnot fun _ hsome => by
              obtain rfl := Option.some.inj hsome
              exact ⟨record, hrecord, hnone⟩
            exact ⟨t, (bind_ok hrun).trans hok⟩

end Executor

end QuasarDB.Storage
