import QuasarDB.Server.Analyzer
import QuasarDB.Server.Proofs.AstJsonRoundTrip
import QuasarDB.Storage.Proofs.SchemaFile

set_option autoImplicit false

/-! # The tables that are accepted

A `CREATE TABLE` is checked twice: by the Analyzer on its definitions, and by the constructors of the
columns and the schema that `ToSchema` makes of them. The constructors refuse all that the Analyzer
refuses, and two kinds of columns more. -/

namespace QuasarDB.Server

/-! ## The definitions that are refused -/

namespace ColumnDef

/-- A default that both checks refuse: NULL of a NOT_NULL column, or a literal of the other type. -/
def RefusedByBoth (column : ColumnDef) : Prop :=
  ∃ literal ∈ column.defaultValue,
    literal.literalType = .null ∧ column.notNull = true ∨
    literal.literalType = .integer ∧ column.columnType = .string ∨
    literal.literalType = .string ∧ column.columnType = .int

/-- A default that only the constructors refuse: NULL of a column that is not null because it is
    indexed, or an integer that does not fit into an `int`. -/
def RefusedByNode (column : ColumnDef) : Prop :=
  ∃ literal ∈ column.defaultValue,
    literal.literalType = .null ∧ column.indexed = true ∧ column.notNull = false ∨
    column.columnType = .int ∧ ¬ literal.FitsInt32

end ColumnDef

/-! ## The Analyzer -/

namespace Analyzer

theorem validateDefault_ok_iff (column : ColumnDef) :
    validateDefault column = .ok () ↔ ¬ column.RefusedByBoth := by
  obtain ⟨name, type, notNull, indexed, default⟩ := column
  cases default with
  | none => simp [validateDefault, ColumnDef.RefusedByBoth, pure, Except.pure]
  | some literal =>
      obtain ⟨kind, value⟩ := literal
      cases kind <;> cases type <;> cases notNull <;>
        simp [validateDefault, ColumnDef.RefusedByBoth, semanticError, pure, Except.pure]

/-- The loop accepts the definitions whose names are new and whose defaults it does not refuse. -/
theorem validateCreateTable_ok_iff (names : List String) (columns : List ColumnDef) :
    validateCreateTable names columns = .ok () ↔
      (columns.map ColumnDef.name).Nodup ∧ (∀ column ∈ columns, column.name ∉ names) ∧
        ∀ column ∈ columns, ¬ column.RefusedByBoth := by
  induction columns generalizing names with
  | nil => simp [validateCreateTable, pure, Except.pure]
  | cons column columns ih =>
      rw [validateCreateTable]
      by_cases hseen : column.name ∈ names
      · rw [if_pos hseen]
        refine iff_of_false (by simp [semanticError]) fun h => ?_
        exact h.2.1 column List.mem_cons_self hseen
      · rw [if_neg hseen]
        have hdefault := validateDefault_ok_iff column
        cases hcheck : validateDefault column with
        | error what =>
            rw [hcheck] at hdefault
            refine iff_of_false (fun h => by cases h) fun h => ?_
            exact absurd (hdefault.2 (h.2.2 column List.mem_cons_self)) (by simp)
        | ok u =>
            have hcolumn := hdefault.1 hcheck
            show validateCreateTable (column.name :: names) columns = .ok () ↔ _
            rw [ih, List.map_cons, List.nodup_cons, List.forall_mem_cons, List.forall_mem_cons]
            simp only [List.mem_map, List.mem_cons, not_or, not_exists, not_and]
            constructor
            · rintro ⟨hnodup, hnew, hothers⟩
              exact ⟨⟨fun c hc => (hnew c hc).1, hnodup⟩, ⟨hseen, fun c hc => (hnew c hc).2⟩,
                hcolumn, hothers⟩
            · rintro ⟨⟨hne, hnodup⟩, ⟨-, hnew⟩, -, hothers⟩
              exact ⟨hnodup, fun c hc => ⟨hne c hc, hnew c hc⟩, hothers⟩

end Analyzer

end QuasarDB.Server

namespace QuasarDB.Storage

open Server

/-! ## The constructors -/

namespace Column

theorem make_ok_iff (column : Column) :
    (∃ made, column.make = .ok made) ↔ column.withFlags.validateDefault = .ok () := by
  rw [make_eq]
  cases hvalid : column.withFlags.validateDefault with
  | error what =>
      refine iff_of_false ?_ (by simp)
      rintro ⟨_, h⟩
      cases h
  | ok u => exact iff_of_true ⟨_, rfl⟩ rfl

/-- The flags `ToSchema` sets. -/
theorem isNotNull_withFlags {column : Column} {notNull indexed : Bool}
    (h : column.flags = (if notNull then notNullFlag else 0) |||
      (if indexed then indexedFlag else 0)) :
    column.withFlags.isNotNull = (notNull || indexed) := by
  have hflags : column.withFlags.flags = if column.flags &&& indexedFlag != 0
      then column.flags ||| notNullFlag else column.flags := by
    unfold withFlags isIndexed
    split <;> rfl
  rw [isNotNull, hflags, h]
  cases notNull <;> cases indexed <;> decide

theorem withFlags_validateDefault (column : Column) :
    column.withFlags.validateDefault = .ok () ↔
      (column.defaultType = .nullValue → column.withFlags.isNotNull = false) ∧
      (column.defaultType = .int → column.columnType = .int) ∧
      (column.defaultType = .string → column.columnType = .string) := by
  have htype : column.withFlags.defaultType = column.defaultType := by
    unfold withFlags
    split <;> rfl
  have hcolumn : column.withFlags.columnType = column.columnType := by
    unfold withFlags
    split <;> rfl
  rw [validateDefault, htype, isInt, isString, hcolumn]
  cases column.defaultType <;> cases column.columnType <;>
    cases column.withFlags.isNotNull <;> simp

end Column

/-- The constructor refuses no definition but those of the two kinds. -/
theorem toColumn_ok_iff {source : ColumnDef} (h : source.Printable) :
    (∃ column, toColumn source = .ok column) ↔
      ¬ source.RefusedByBoth ∧ ¬ source.RefusedByNode := by
  have hmake : ∀ column : Column, column.flags = (if source.notNull then Column.notNullFlag else 0)
      ||| (if source.indexed then Column.indexedFlag else 0) →
      ((∃ made, column.make = .ok made) ↔
        (column.defaultType = .nullValue → (source.notNull || source.indexed) = false) ∧
        (column.defaultType = .int → column.columnType = .int) ∧
        (column.defaultType = .string → column.columnType = .string)) := by
    intro column hflags
    rw [column.make_ok_iff, column.withFlags_validateDefault, Column.isNotNull_withFlags hflags]
  obtain ⟨name, type, notNull, indexed, default⟩ := source
  cases default with
  | none =>
      refine iff_of_true ((hmake _ rfl).2 (by simp)) ?_
      simp [ColumnDef.RefusedByBoth, ColumnDef.RefusedByNode]
  | some literal =>
      obtain ⟨kind, value⟩ := literal
      cases kind with
      | string =>
          refine (hmake _ rfl).trans ?_
          cases type <;>
            simp [ColumnDef.RefusedByBoth, ColumnDef.RefusedByNode, Literal.FitsInt32]
      | null =>
          refine (hmake _ rfl).trans ?_
          cases type <;> cases notNull <;> cases indexed <;>
            simp [ColumnDef.RefusedByBoth, ColumnDef.RefusedByNode, Literal.FitsInt32]
      | integer =>
          have hdigits : IsDigits value := h.2 _ rfl
          have hstoi := stoi_digits hdigits
          by_cases hfit : decimalValue value.toList < 2 ^ 31
          · have hfits : Literal.FitsInt32 ⟨.integer, value⟩ := fun _ => hfit
            rw [if_pos hfit] at hstoi
            have hraw : toColumn ⟨name, type, notNull, indexed, some ⟨.integer, value⟩⟩ =
                Column.make
                  { name
                    columnType := if type = .int then .int else .string
                    flags := (if notNull then Column.notNullFlag else 0) |||
                      (if indexed then Column.indexedFlag else 0)
                    defaultType := .int
                    defaultInt := Int32.ofInt (decimalValue value.toList) } := by
              unfold toColumn
              dsimp only
              rw [hstoi]
              cases type <;> rfl
            rw [hraw]
            refine (hmake _ rfl).trans ?_
            cases type <;> simp [ColumnDef.RefusedByBoth, ColumnDef.RefusedByNode, hfits]
          · have hunfit : ¬ Literal.FitsInt32 ⟨.integer, value⟩ := fun h => hfit (h rfl)
            rw [if_neg hfit] at hstoi
            refine iff_of_false ?_ ?_
            · rintro ⟨column, hcolumn⟩
              unfold toColumn at hcolumn
              dsimp only at hcolumn
              rw [hstoi] at hcolumn
              cases hcolumn
            · cases type <;> simp [ColumnDef.RefusedByBoth, ColumnDef.RefusedByNode, hunfit]

/-- The column has the name of its definition. -/
theorem name_toColumn {source : ColumnDef} {column : Column} (h : toColumn source = .ok column) :
    column.name = source.name := by
  have hmade : ∀ {raw : Column}, raw.make = .ok column → column.name = raw.name := by
    intro raw hraw
    obtain ⟨flags, rfl⟩ := Column.made_eq hraw
    rfl
  unfold toColumn at h
  cases hdefault : source.defaultValue with
  | none =>
      rw [hdefault] at h
      exact hmade h
  | some literal =>
      rw [hdefault] at h
      dsimp only at h
      cases htype : literal.literalType with
      | integer =>
          rw [htype] at h
          cases hstoi : stoi literal.value with
          | error what =>
              rw [hstoi] at h
              cases h
          | ok n =>
              rw [hstoi] at h
              exact hmade h
      | string =>
          rw [htype] at h
          exact hmade h
      | null =>
          rw [htype] at h
          exact hmade h

/-- The loop of `ToSchema` keeps the names. -/
theorem names_mapM_toColumn {source : List ColumnDef} {columns : List Column}
    (h : source.mapM toColumn = .ok columns) :
    columns.map Column.name = source.map ColumnDef.name := by
  have hall := Except.mapM_eq_ok.1 h
  clear h
  induction hall with
  | nil => rfl
  | cons hcolumn _ ih => rw [List.map_cons, List.map_cons, name_toColumn hcolumn, ih]

/-- `ToSchema` accepts definitions with distinct names and defaults of neither kind. -/
theorem toSchema_ok_iff {source : List ColumnDef} (h : ∀ column ∈ source, column.Printable) :
    (∃ schema, toSchema source = .ok schema) ↔
      (source.map ColumnDef.name).Nodup ∧
        ∀ column ∈ source, ¬ column.RefusedByBoth ∧ ¬ column.RefusedByNode := by
  have hcolumns : (∃ columns, source.mapM toColumn = .ok columns) ↔ _ := Except.exists_mapM_eq_ok
  rw [forall₂_congr fun definition hmem => toColumn_ok_iff (h definition hmem)] at hcolumns
  rw [← hcolumns, toSchema]
  cases hmap : source.mapM toColumn with
  | error what =>
      refine iff_of_false ?_ ?_
      · rintro ⟨_, h⟩
        cases h
      · rintro ⟨-, _, h⟩
        cases h
  | ok columns =>
      show (∃ schema, Schema.ofColumns columns = .ok schema) ↔ _
      rw [← names_mapM_toColumn hmap, Schema.ofColumns]
      by_cases hnames : (columns.map Column.name).Nodup
      · rw [if_pos hnames]
        exact iff_of_true ⟨_, rfl⟩ ⟨hnames, _, rfl⟩
      · rw [if_neg hnames]
        refine iff_of_false ?_ (fun h => hnames h.1)
        rintro ⟨_, h⟩
        cases h

/-! ## Both checks of a statement -/

/-- The Analyzer accepts the table exactly if `ToSchema` does. -/
def SameAnswer (table : TableRef) (columns : List ColumnDef) : Prop :=
  Analyzer.validateStatement (.createTable table columns) = .ok () ↔
    ∃ schema, toSchema columns = .ok schema

/-- On a `CREATE TABLE` of the parser both checks answer alike exactly if both refuse it, for a name
    that stands twice or a default, or if no column has a default that only the constructors refuse. -/
theorem sameAnswer_iff {source : String} {table : TableRef} {columns : List ColumnDef}
    (h : parse (Lexer.tokenize source) = .ok (.createTable table columns)) :
    SameAnswer table columns ↔
      (¬ (columns.map ColumnDef.name).Nodup ∨ (∃ column ∈ columns, column.RefusedByBoth)) ∨
        ∀ column ∈ columns, ¬ column.RefusedByNode := by
  have hprintable : ∀ column ∈ columns, column.Printable := (parsed_of_parse_tokenize h).2.2
  rw [SameAnswer, toSchema_ok_iff hprintable]
  show (Analyzer.validateCreateTable [] columns = .ok () ↔ _) ↔ _
  rw [Analyzer.validateCreateTable_ok_iff]
  by_cases hnames : (columns.map ColumnDef.name).Nodup
  · by_cases hboth : ∃ column ∈ columns, column.RefusedByBoth
    · obtain ⟨column, hmem, hrefused⟩ := hboth
      refine iff_of_true (iff_of_false ?_ ?_) (Or.inl (Or.inr ⟨column, hmem, hrefused⟩))
      · exact fun h => h.2.2 column hmem hrefused
      · exact fun h => (h.2 column hmem).1 hrefused
    · have hnone : ∀ column ∈ columns, ¬ column.RefusedByBoth :=
        fun column hmem hrefused => hboth ⟨column, hmem, hrefused⟩
      have haccepted : (columns.map ColumnDef.name).Nodup ∧ (∀ column ∈ columns, column.name ∉ []) ∧
          ∀ column ∈ columns, ¬ column.RefusedByBoth := ⟨hnames, by simp, hnone⟩
      rw [iff_true_left haccepted]
      constructor
      · exact fun h => Or.inr fun column hmem => (h.2 column hmem).2
      · rintro ((hno | hyes) | hnode)
        · exact absurd hnames hno
        · exact absurd hyes hboth
        · exact ⟨hnames, fun column hmem => ⟨hnone column hmem, hnode column hmem⟩⟩
  · refine iff_of_true (iff_of_false ?_ ?_) (Or.inl (Or.inl hnames))
    · exact fun h => hnames h.1
    · exact fun h => hnames h.1

theorem sameAnswer_iff_users :
    SameAnswer ⟨"shop", "users"⟩
        [⟨"id", .int, false, true, none⟩, ⟨"name", .string, false, false, some ⟨.null, "NULL"⟩⟩] ↔
      (¬ (["id", "name"].Nodup) ∨ (∃ column ∈ [(⟨"id", .int, false, true, none⟩ : ColumnDef),
          ⟨"name", .string, false, false, some ⟨.null, "NULL"⟩⟩], column.RefusedByBoth)) ∨
        ∀ column ∈ [(⟨"id", .int, false, true, none⟩ : ColumnDef),
          ⟨"name", .string, false, false, some ⟨.null, "NULL"⟩⟩], ¬ column.RefusedByNode :=
  sameAnswer_iff
    (show parse (Lexer.tokenize
      "CREATE TABLE shop.users (id INT INDEXED, name STRING DEFAULT NULL);") = _ by decide +kernel)

/-- An indexed column with `DEFAULT NULL`, and a default that is no `int`, pass the Analyzer and are
    refused by the constructors. -/
theorem analyzer_accepts_more :
    (∃ columns, parse (Lexer.tokenize "CREATE TABLE shop.t (a INT INDEXED DEFAULT NULL);")
          = .ok (.createTable ⟨"shop", "t"⟩ columns)
        ∧ Analyzer.validateStatement (.createTable ⟨"shop", "t"⟩ columns) = .ok ()
        ∧ toSchema columns = .error ("[ERROR in qdb::storage::Column]: Column 'a' " ++
          "cannot have DEFAULT NULL and NOT_NULL!")
        ∧ ¬ SameAnswer ⟨"shop", "t"⟩ columns) ∧
      ∃ columns, parse (Lexer.tokenize "CREATE TABLE shop.t (a INT DEFAULT 2147483648);")
          = .ok (.createTable ⟨"shop", "t"⟩ columns)
        ∧ Analyzer.validateStatement (.createTable ⟨"shop", "t"⟩ columns) = .ok ()
        ∧ toSchema columns = .error "stoi" ∧ ¬ SameAnswer ⟨"shop", "t"⟩ columns := by
  have hdiffer : ∀ {columns : List ColumnDef} {what : String},
      Analyzer.validateStatement (.createTable ⟨"shop", "t"⟩ columns) = .ok () →
      toSchema columns = .error what → ¬ SameAnswer ⟨"shop", "t"⟩ columns := by
    intro columns what haccepts hrefuses hsame
    obtain ⟨schema, hschema⟩ := hsame.1 haccepts
    rw [hrefuses] at hschema
    cases hschema
  constructor
  · have haccepts : Analyzer.validateStatement (.createTable ⟨"shop", "t"⟩
        [⟨"a", .int, false, true, some ⟨.null, "NULL"⟩⟩]) = .ok () := by decide
    have hrefuses : toSchema [⟨"a", .int, false, true, some ⟨.null, "NULL"⟩⟩]
        = .error ("[ERROR in qdb::storage::Column]: Column 'a' " ++
          "cannot have DEFAULT NULL and NOT_NULL!") := by decide
    exact ⟨_, by decide +kernel, haccepts, hrefuses, hdiffer haccepts hrefuses⟩
  · have haccepts : Analyzer.validateStatement (.createTable ⟨"shop", "t"⟩
        [⟨"a", .int, false, false, some ⟨.integer, "2147483648"⟩⟩]) = .ok () := by decide
    have hrefuses : toSchema [⟨"a", .int, false, false, some ⟨.integer, "2147483648"⟩⟩]
        = .error "stoi" := by decide
    exact ⟨_, by decide +kernel, haccepts, hrefuses, hdiffer haccepts hrefuses⟩

end QuasarDB.Storage
