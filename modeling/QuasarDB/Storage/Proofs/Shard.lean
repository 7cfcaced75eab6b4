import QuasarDB.Library.Results
import QuasarDB.Storage.Shard

set_option autoImplicit false

/-! # What a storage node makes of a statement

A node without a table makes a new one, stops behind the schema file, or refuses for another reason than having
a table; it is left without one by the `DROP TABLE` of its table, and by every statement but a `CREATE TABLE`. -/

namespace QuasarDB

open Core Server

namespace Storage

/-- Most errors of a `CREATE TABLE` are told from the one of a node that has a table by how they start. -/
def OtherError (what : String) : Prop := what.toList.head? ≠ some 'T'

instance (what : String) : Decidable (OtherError what) := inferInstanceAs (Decidable (¬ _))

theorem otherError_error {column : Column} (text : String) : OtherError (column.error text) := by
  have hhead : "[ERROR in qdb::storage::Column]: Column '".toList.head? = some '[' := by decide
  unfold OtherError Column.error
  rw [String.append_assoc, String.append_assoc, String.toList_append, List.head?_append, hhead]
  simp

theorem otherError_validateDefault {column : Column} {what : String}
    (h : column.validateDefault = .error what) : OtherError what := by
  unfold Column.validateDefault at h
  cases hdefault : column.defaultType with
  | none =>
      rw [hdefault] at h
      cases h
  | nullValue =>
      rw [hdefault] at h
      dsimp only at h
      split at h
      · rw [← Except.error.inj h]
        exact otherError_error _
      · cases h
  | int =>
      rw [hdefault] at h
      dsimp only at h
      split at h
      · cases h
      · rw [← Except.error.inj h]
        exact otherError_error _
  | string =>
      rw [hdefault] at h
      dsimp only at h
      split at h
      · cases h
      · rw [← Except.error.inj h]
        exact otherError_error _

theorem otherError_make {column : Column} {what : String} (h : column.make = .error what) :
    OtherError what := by
  rcases Except.bind_eq_error h with h | ⟨_, -, h⟩
  · exact otherError_validateDefault h
  · cases h

theorem otherError_stoi {value what : String} (h : stoi value = .error what) :
    OtherError what := by
  have hstoi : OtherError "stoi" := by decide
  unfold stoi at h
  dsimp only at h
  by_cases hempty : ((splitSign (value.toList.dropWhile Lexer.isSpace)).2.takeWhile
    Lexer.isDigit).isEmpty = true
  · rw [if_pos hempty] at h
    rwa [← Except.error.inj h]
  · rw [if_neg hempty] at h
    split_ifs at h <;> rwa [← Except.error.inj h]

theorem otherError_toColumn {source : ColumnDef} {what : String}
    (h : toColumn source = .error what) : OtherError what := by
  unfold toColumn at h
  cases hdefault : source.defaultValue with
  | none =>
      rw [hdefault] at h
      exact otherError_make h
  | some literal =>
      rw [hdefault] at h
      dsimp only at h
      cases htype : literal.literalType with
      | integer =>
          rw [htype] at h
          rcases Except.bind_eq_error h with h | ⟨_, -, h⟩
          · exact otherError_stoi h
          · exact otherError_make h
      | string =>
          rw [htype] at h
          exact otherError_make h
      | null =>
          rw [htype] at h
          exact otherError_make h

theorem otherError_toSchema {columns : List ColumnDef} {what : String}
    (h : toSchema columns = .error what) : OtherError what := by
  rcases Except.bind_eq_error h with h | ⟨built, -, h⟩
  · obtain ⟨column, -, hcolumn⟩ := Except.exists_of_mapM_eq_error h
    exact otherError_toColumn hcolumn
  · unfold Schema.ofColumns at h
    split at h
    · cases h
    · rw [← Except.error.inj h]
      decide

theorem otherError_append {front : String} (back : String) {c : Char} (h : front.toList.head? = some c)
    (hc : c ≠ 'T') : OtherError (front ++ back) := by
  unfold OtherError
  rw [String.toList_append, List.head?_append, h]
  simpa using hc

theorem FileFailure.otherError_what : ∀ failure : FileFailure, OtherError failure.what
  | .fileSystem reason => by
      have hhead : "filesystem error: ".toList.head? = some 'f' := by decide
      exact otherError_append reason hhead (by decide)
  | .pager path => by
      have hhead : "Pager cannot open file ".toList.head? = some 'P' := by decide
      have hother := otherError_append (path ++ ".") hhead (by decide)
      rw [← String.append_assoc] at hother
      exact hother
  | .journal path => by
      have hhead : "Journal cannot open file ".toList.head? = some 'J' := by decide
      have hother := otherError_append (path ++ ".") hhead (by decide)
      rw [← String.append_assoc] at hother
      exact hother
  | .interner reason => by
      have hhead : "[ERROR in qdb::storage::Interner]: ".toList.head? = some '[' := by decide
      exact otherError_append reason hhead (by decide)

theorem otherError_raise {failure : Option FileFailure} {what : String}
    (h : FileFailure.raise failure = .error what) : OtherError what := by
  cases failure with
  | none => cases h
  | some failure =>
      cases h
      exact failure.otherError_what

theorem OtherError.ne {what : String} (h : OtherError what) :
    what ≠ "Table shard is already initialized" := by
  rintro rfl
  exact absurd h (by decide)

section Construction

variable {construction : Construction} {t : TableRef} {columns : List ColumnDef} {dataLeft : Bool}
  {schema : Schema} {what : String}

theorem saveSchema_error (h : construction.saveSchema schema = .error what) : OtherError what := by
  have hcreate : OtherError "Cannot create schema file." := by decide
  have hwrite : OtherError "Cannot write schema to file." := by decide
  unfold Construction.saveSchema at h
  split at h
  · split at h
    · exact otherError_raise h
    · cases h
      exact hwrite
  · cases h
    exact hcreate

theorem Construction.prepare_ok (h : construction.prepare t columns dataLeft = .ok schema) :
    toSchema columns = .ok schema ∧ dataLeft = false := by
  obtain ⟨_, -, h⟩ := Except.bind_eq_ok.1 h
  obtain ⟨schema', hschema, h⟩ := Except.bind_eq_ok.1 h
  obtain ⟨_, -, h⟩ := Except.bind_eq_ok.1 h
  cases dataLeft with
  | true => cases h
  | false =>
      cases h
      exact ⟨hschema, rfl⟩

/-- Before there is a page of data, no exception says that the node has a table. -/
theorem Construction.prepare_error (h : construction.prepare t columns dataLeft = .error what) :
    what ≠ "Table shard is already initialized" := by
  rcases Except.bind_eq_error h with h | ⟨_, -, h⟩
  · exact (otherError_raise h).ne
  rcases Except.bind_eq_error h with h | ⟨schema, -, h⟩
  · exact (otherError_toSchema h).ne
  rcases Except.bind_eq_error h with h | ⟨_, -, h⟩
  · exact (otherError_raise h).ne
  split at h
  · rintro rfl
    have htake := congrArg (fun what : String => what.toList.take 7) (Except.error.inj h)
    simp at htake
  · cases h

end Construction

namespace Shard

variable {τ : Type} {ops : TableOps τ} {construction : Construction} {shard : Shard τ} {t : TableRef}
  {name : String} {columns : List ColumnDef}

theorem hasSchema_eq_false : shard.hasSchema = false ↔ shard.table = none ∧ shard.unopened = none := by
  rw [hasSchema, Bool.or_eq_false_iff, Option.isSome_eq_false_iff, Option.isSome_eq_false_iff,
    Option.isNone_iff_eq_none, Option.isNone_iff_eq_none]

/-- The table at a node has this name, if there is one, and no files of a table have stayed unopened. -/
structure Sound (shard : Shard τ) (name : String) : Prop where
  named : ∀ table ∈ shard.table, table.1 = name
  opened : shard.unopened = none

theorem Sound.of_empty (h : shard.hasSchema = false) (name : String) : shard.Sound name := by
  obtain ⟨hnone, hunopened⟩ := hasSchema_eq_false.1 h
  refine ⟨fun table htable => ?_, hunopened⟩
  rw [hnone] at htable
  cases htable

/-! ## Creating -/

/-- How the `CREATE TABLE` of a node without a table ends: before there is a schema file, behind it, or with
    the table. -/
theorem createTable_cases (ops : TableOps τ) (construction : Construction) (t : TableRef)
    (columns : List ColumnDef) (h : shard.table = none) :
    (∃ what shard', shard.createTable ops construction t columns = (.error what, shard') ∧
      what ≠ "Table shard is already initialized" ∧ shard'.table = none ∧
      shard'.unopened = shard.unopened) ∨
    (∃ schema failure, toSchema columns = .ok schema ∧ construction.indexes = some failure ∧
      shard.createTable ops construction t columns =
        (.error failure.what, { unopened := some (t.table, ops.create schema), dataLeft := true })) ∨
    (∃ schema, toSchema columns = .ok schema ∧ construction.indexes = none ∧
      shard.createTable ops construction t columns =
        (.success "Table shard created" noRows, { table := some (t.table, ops.create schema) })) := by
  unfold createTable
  rw [if_neg (by simp [h])]
  cases hprepare : construction.prepare t columns shard.dataLeft with
  | error what => exact .inl ⟨what, shard, rfl, Construction.prepare_error hprepare, h, rfl⟩
  | ok schema =>
      dsimp only
      cases hsave : construction.saveSchema schema with
      | error what => exact .inl ⟨what, _, rfl, (saveSchema_error hsave).ne, h, rfl⟩
      | ok saved =>
          have hschema := (Construction.prepare_ok hprepare).1
          cases hindexes : construction.indexes with
          | some failure => exact .inr (.inl ⟨schema, failure, hschema, rfl, rfl⟩)
          | none => exact .inr (.inr ⟨schema, hschema, rfl, rfl⟩)

theorem createTable_of_some (h : shard.table.isSome) :
    shard.createTable ops construction t columns =
      (.error "Table shard is already initialized", shard) := if_pos h

/-- A `CREATE TABLE` keeps the node of its table sound, if it does not stop behind the schema file. -/
theorem Sound.createTable (h : shard.Sound t.table)
    (hindexes : (shard.createTable ops construction t columns).2.hasSchema = true →
      construction.indexes = none) :
    (shard.createTable ops construction t columns).2.Sound t.table := by
  cases htable : shard.table with
  | some table =>
      rw [createTable_of_some (by rw [htable]; rfl)]
      exact h
  | none =>
      rcases createTable_cases ops construction t columns htable with
        ⟨what, shard', hrun, -, hnone, hunopened⟩ | ⟨schema, failure, -, hfailure, hrun⟩ |
        ⟨schema, -, -, hrun⟩
      · rw [hrun]
        exact .of_empty (hasSchema_eq_false.2 ⟨hnone, hunopened.trans h.opened⟩) _
      · rw [hrun] at hindexes
        have hindexes := hindexes (Bool.or_true _)
        rw [hfailure] at hindexes
        cases hindexes
      · rw [hrun]
        refine ⟨?_, rfl⟩
        rintro _ ⟨⟩
        rfl

/-! ## Other statements -/

theorem dropTable_of_sound (h : shard.Sound t.table) : (shard.dropTable t).2.hasSchema = false := by
  unfold dropTable
  cases htable : shard.table with
  | none => exact hasSchema_eq_false.2 ⟨htable, h.opened⟩
  | some table =>
      dsimp only
      rw [if_pos (h.named table htable)]
      rfl

/-- A statement that makes no table keeps what the table is called, or leaves no table. -/
theorem executeAst_frame {statement : Statement} (hcreate : ∀ u columns, statement ≠ .createTable u columns) :
    (shard.executeAst ops construction statement).2.hasSchema = false ∨
      (shard.executeAst ops construction statement).2.table.map Prod.fst = shard.table.map Prod.fst ∧
        (shard.executeAst ops construction statement).2.unopened = shard.unopened := by
  cases statement with
  | createTable u columns => exact absurd rfl (hcreate u columns)
  | dropTable u =>
      show (shard.dropTable u).2.hasSchema = false ∨ _
      unfold executeAst dropTable
      cases htable : shard.table with
      | none => exact .inr ⟨congrArg _ htable, rfl⟩
      | some table =>
          dsimp only
          split
          · exact .inl rfl
          · exact .inr ⟨congrArg _ htable, rfl⟩
  | createDatabase name => exact .inr ⟨rfl, rfl⟩
  | dropDatabase name => exact .inr ⟨rfl, rfl⟩
  | useDatabase name => exact .inr ⟨rfl, rfl⟩
  | _ =>
      refine .inr ?_
      cases htable : shard.table with
      | none => simp only [executeAst, htable, and_self]
      | some table => simp only [executeAst, htable, Option.map_some, and_self]

/-- Only a `CREATE TABLE` makes a table. -/
theorem executeAst_of_empty {statement : Statement} (h : shard.hasSchema = false)
    (hcreate : ∀ u columns, statement ≠ .createTable u columns) :
    (shard.executeAst ops construction statement).2.hasSchema = false := by
  rcases executeAst_frame hcreate with hempty | ⟨htable, hunopened⟩
  · exact hempty
  · obtain ⟨hnone, hopened⟩ := hasSchema_eq_false.1 h
    rw [hnone, Option.map_none, Option.map_eq_none_iff] at htable
    exact hasSchema_eq_false.2 ⟨htable, hunopened.trans hopened⟩

theorem Sound.executeAst {statement : Statement} (h : shard.Sound name)
    (hcreate : ∀ u columns, statement ≠ .createTable u columns) :
    (shard.executeAst ops construction statement).2.Sound name := by
  rcases executeAst_frame hcreate with hempty | ⟨htable, hunopened⟩
  · exact .of_empty hempty name
  · refine ⟨fun table hmem => ?_, hunopened.trans h.opened⟩
    rw [Option.mem_def.1 hmem, Option.map_some, eq_comm, Option.map_eq_some_iff] at htable
    obtain ⟨table', hbefore, hname⟩ := htable
    rw [← hname]
    exact h.named table' hbefore

/-! ## Opening -/

/-- Opening a directory neither makes nor takes away a schema file. -/
theorem hasSchema_opened : (shard.opened ops).hasSchema = shard.hasSchema := by
  unfold opened hasSchema
  cases shard.table <;> cases shard.unopened <;> rfl

theorem opened_of_empty (h : shard.hasSchema = false) : shard.opened ops = shard := by
  obtain ⟨hnone, hunopened⟩ := hasSchema_eq_false.1 h
  obtain ⟨table, unopened, dataLeft⟩ := shard
  cases hnone
  cases hunopened
  rfl

theorem Sound.reopened (h : shard.Sound name) : (shard.opened ops).Sound name := by
  obtain ⟨table, unopened, dataLeft⟩ := shard
  cases h.opened
  refine ⟨fun found hfound => ?_, rfl⟩
  cases table with
  | none => cases hfound
  | some table =>
      cases hfound
      exact h.named table rfl

end Shard

end Storage

end QuasarDB
