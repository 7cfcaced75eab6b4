import QuasarDB.Library.Results
import QuasarDB.Storage.SchemaFile

set_option autoImplicit false

/-! # Schemas are read back

The writer checks the size of default strings only, and the reader also that of names and the number of
columns. What a `CREATE TABLE` makes is read back exactly when it is within the reader's limits. -/

namespace QuasarDB.Storage

open FileStream

/-! ## Columns that are made -/

namespace Column

/-- The constructor gives this column and the default value is where its type says. -/
structure Built (column : Column) : Prop where
  make : column.make = .ok column
  defaultInt : column.defaultType ≠ .int → column.defaultInt = 0
  defaultString : column.defaultType ≠ .string → column.defaultString = ""

/-- The flags of a column whose index makes it not null. -/
def withFlags (column : Column) : Column :=
  if column.isIndexed then { column with flags := column.flags ||| notNullFlag } else column

theorem make_eq (column : Column) :
    column.make = (do column.withFlags.validateDefault; return column.withFlags) := rfl

theorem withFlags_withFlags (column : Column) : column.withFlags.withFlags = column.withFlags := by
  have hflags : column.withFlags.isIndexed → { column.withFlags with
      flags := column.withFlags.flags ||| notNullFlag } = column.withFlags := by
    intro hindexed
    by_cases h : column.isIndexed = true
    · rw [withFlags, if_pos h]
      dsimp only
      rw [UInt8.or_assoc, UInt8.or_self]
    · rw [withFlags, if_neg h] at hindexed
      exact absurd hindexed h
  by_cases h : column.withFlags.isIndexed = true
  · rw [withFlags, if_pos h, hflags h]
  · rw [withFlags, if_neg h]

/-- The constructor changes no more than the flags. -/
theorem made_eq {column made : Column} (h : column.make = .ok made) :
    ∃ flags, made = { column with flags } := by
  rw [make_eq] at h
  cases hvalid : column.withFlags.validateDefault with
  | error what =>
      rw [hvalid] at h
      cases h
  | ok u =>
      rw [hvalid] at h
      cases h
      unfold withFlags
      split
      · exact ⟨column.flags ||| notNullFlag, rfl⟩
      · exact ⟨column.flags, rfl⟩

/-- What the constructor gives is not changed by it. -/
theorem make_of_make {column made : Column} (h : column.make = .ok made) : made.make = .ok made := by
  rw [make_eq] at h
  cases hvalid : column.withFlags.validateDefault with
  | error what =>
      rw [hvalid] at h
      cases h
  | ok u =>
      rw [hvalid] at h
      cases h
      rw [make_eq, withFlags_withFlags, hvalid]
      rfl

/-- What `ToSchema` makes of a definition. -/
theorem built_toColumn {source : Server.ColumnDef} {column : Column}
    (h : toColumn source = .ok column) : column.Built := by
  have hmade : ∀ {raw made : Column}, raw.make = .ok made →
      (raw.defaultType ≠ .int → raw.defaultInt = 0) →
      (raw.defaultType ≠ .string → raw.defaultString = "") → made.Built := by
    intro raw made hraw hint hstring
    obtain ⟨flags, rfl⟩ := made_eq hraw
    exact ⟨make_of_make hraw, hint, hstring⟩
  unfold toColumn at h
  dsimp only [bind, Except.bind] at h
  cases hdefault : source.defaultValue with
  | none =>
      rw [hdefault] at h
      exact hmade h (fun _ => rfl) (fun _ => rfl)
  | some literal =>
      rw [hdefault] at h
      dsimp only at h
      cases htype : literal.literalType with
      | integer =>
          rw [htype] at h
          cases hstoi : Server.stoi literal.value with
          | error what =>
              rw [hstoi] at h
              cases h
          | ok n =>
              rw [hstoi] at h
              exact hmade h (fun hne => absurd rfl hne) (fun _ => rfl)
      | string =>
          rw [htype] at h
          exact hmade h (fun _ => rfl) (fun hne => absurd rfl hne)
      | null =>
          rw [htype] at h
          exact hmade h (fun _ => rfl) (fun _ => rfl)

/-! ## Columns in a file -/

/-- What `writeText` writes. -/
def textField (text : String) : List UInt8 :=
  wordBytes (.ofNat text.utf8ByteSize) ++
    (textBytes text).take (UInt32.ofNat text.utf8ByteSize).toNat

theorem writes_writeText (text : String) : Writes (writeText text) (textField text) () :=
  (writes_write _).bind (writes_write _)

/-- A string within a limit of the reader, which is below the 32-bit numbers. -/
theorem textField_eq {text : String} (h : text.utf8ByteSize ≤ 1024 * 1024) :
    (UInt32.ofNat text.utf8ByteSize).toNat = text.utf8ByteSize ∧
      textField text = wordBytes (.ofNat text.utf8ByteSize) ++ textBytes text := by
  have hsize : (UInt32.ofNat text.utf8ByteSize).toNat = text.utf8ByteSize := by
    rw [UInt32.toNat_ofNat', Nat.mod_eq_of_lt (by omega)]
  refine ⟨hsize, ?_⟩
  rw [textField, hsize, ← length_textBytes, List.take_length]

/-- What `ToBinary` writes behind the type of the default value. -/
def defaultBytes (column : Column) : List UInt8 :=
  match column.defaultType with
  | .int => wordBytes column.defaultInt.toUInt32
  | .string => textField column.defaultString
  | _ => []

def fileBytes (column : Column) : List UInt8 :=
  textField column.name ++ ([column.columnType.byte] ++ ([column.flags] ++
    ([column.defaultType.byte] ++ column.defaultBytes)))

/-- A column is written unless its default string is too long. -/
theorem writes_toBinary {column : Column} (h : column.isWritable) :
    Writes column.toBinary column.fileBytes true := by
  refine (writes_writeText column.name).bind ((writes_write _).bind ((writes_write _).bind
    ((writes_write _).bind ?_)))
  unfold defaultBytes
  cases hdefault : column.defaultType with
  | none => exact writes_succeeded
  | nullValue => exact writes_succeeded
  | int => 
      rw [← List.append_nil (wordBytes _)]
      exact (writes_write _).bind writes_succeeded
  | string =>
      have hsize : ¬ maxSerializedStringSize < column.defaultString.utf8ByteSize := by
        rw [isWritable, hdefault] at h
        simpa using h
      rw [if_neg (by decide), if_pos rfl, if_neg hsize]
      rw [← List.append_nil (textField _)]
      exact (writes_writeText _).bind writes_succeeded

/-- One with a longer one is not. -/
theorem isWritable_of_toBinary {column : Column} {s t : FileStream}
    (h : column.toBinary s = .ok true t) : column.isWritable = true := by
  by_contra hwritable
  rw [Bool.not_eq_true, isWritable, Bool.or_eq_false_iff] at hwritable
  have hdefault : column.defaultType = .string := by simpa using hwritable.1
  have hsize : maxSerializedStringSize < column.defaultString.utf8ByteSize := by
    simpa using hwritable.2
  rw [toBinary] at h
  obtain ⟨_, s₁, -, h₁⟩ := Prog.bind_eq_ok.1 h
  obtain ⟨_, s₂, -, h₂⟩ := Prog.bind_eq_ok.1 h₁
  obtain ⟨_, s₃, -, h₃⟩ := Prog.bind_eq_ok.1 h₂
  obtain ⟨_, s₄, -, h₄⟩ := Prog.bind_eq_ok.1 h₃
  rw [hdefault, if_neg (by decide), if_pos rfl, if_pos hsize] at h₄
  cases h₄

theorem ofByte_byte_columnType (type : ColumnType) : ColumnType.ofByte type.byte = some type := by
  cases type <;> rfl

theorem ofByte_byte_defaultType (type : DefaultType) : DefaultType.ofByte type.byte = some type := by
  cases type <;> rfl

/-- A default value is read back where the rest of the column was. -/
theorem reads_readDefault {column : Column} (hbuilt : column.Built) (hwritable : column.isWritable) :
    Reads (readDefault { name := column.name, columnType := column.columnType, flags := column.flags }
      column.defaultType) column.defaultBytes column := by
  obtain ⟨name, columnType, flags, defaultType, defaultInt, defaultString⟩ := column
  cases defaultType with
  | none =>
      have hint : defaultInt = 0 := hbuilt.defaultInt (by simp)
      have hstring : defaultString = "" := hbuilt.defaultString (by simp)
      subst hint hstring
      exact reads_pure _
  | nullValue =>
      have hint : defaultInt = 0 := hbuilt.defaultInt (by simp)
      have hstring : defaultString = "" := hbuilt.defaultString (by simp)
      subst hint hstring
      exact reads_pure _
  | int =>
      have hstring : defaultString = "" := hbuilt.defaultString (by simp)
      subst hstring
      refine (reads_readWord defaultInt.toUInt32).bind_pure ?_
      rw [Int32.toInt32_toUInt32]
  | string =>
      have hint : defaultInt = 0 := hbuilt.defaultInt (by simp)
      subst hint
      have hsize : defaultString.utf8ByteSize ≤ 1024 * 1024 := of_decide_eq_true hwritable
      obtain ⟨hlength, hfield⟩ := textField_eq hsize
      rw [defaultBytes, hfield]
      refine (reads_readWord _).bind ((reads_refuseIf ?_).bind_nil ?_)
      · rw [decide_eq_false_iff_not, hlength]
        exact not_lt.2 hsize
      · exact (reads_readText hlength.symm).bind_pure rfl

/-- A column with a name within the limit is read back. -/
theorem reads_fromBinary {column : Column} (hbuilt : column.Built) (hwritable : column.isWritable)
    (hname : column.name.utf8ByteSize ≤ 1024 * 1024) :
    Reads fromBinary column.fileBytes column := by
  obtain ⟨hlength, hfield⟩ := textField_eq hname
  rw [fileBytes, hfield, List.append_assoc]
  refine (reads_readWord _).bind ((reads_refuseIf ?_).bind_nil ((reads_readText hlength.symm).bind
    ((reads_readByte _).bind ((reads_readByte _).bind ((reads_readByte _).bind ?_)))))
  · rw [decide_eq_false_iff_not, hlength]
    exact not_lt.2 hname
  · rw [ofByte_byte_columnType, ofByte_byte_defaultType]
    dsimp only
    rw [← List.append_nil column.defaultBytes]
    exact (reads_readDefault hbuilt hwritable).bind (reads_ofExcept hbuilt.make)

theorem name_of_readDefault {column read : Column} {type : DefaultType} {s t : FileStream}
    (h : (readDefault column type).run s = .ok (some read) t) : read.name = column.name := by
  cases type with
  | none =>
      cases h
      rfl
  | nullValue =>
      cases h
      rfl
  | int =>
      obtain ⟨word, s₁, -, h₁⟩ := reader_bind_eq_ok h
      cases h₁
      rfl
  | string =>
      obtain ⟨word, s₁, -, h₁⟩ := reader_bind_eq_ok h
      obtain ⟨_, s₂, -, h₂⟩ := reader_bind_eq_ok h₁
      obtain ⟨text, s₃, -, h₃⟩ := reader_bind_eq_ok h₂
      cases h₃
      rfl

theorem name_of_ofExcept {raw column : Column} {s t : FileStream}
    (h : (ofExcept raw.make).run s = .ok (some column) t) : column.name = raw.name := by
  cases hmake : raw.make with
  | error what =>
      rw [hmake] at h
      cases h
  | ok made =>
      rw [hmake] at h
      cases h
      obtain ⟨flags, rfl⟩ := made_eq hmake
      rfl

/-- A column that is read has a name within the limit. -/
theorem name_le_of_fromBinary {column : Column} {s t : FileStream}
    (h : fromBinary.run s = .ok (some column) t) : column.name.utf8ByteSize ≤ 1024 * 1024 := by
  rw [fromBinary] at h
  obtain ⟨nameLen, s₁, -, h₁⟩ := reader_bind_eq_ok h
  obtain ⟨_, s₂, hlimit, h₂⟩ := reader_bind_eq_ok h₁
  obtain ⟨name, s₃, hname, h₃⟩ := reader_bind_eq_ok h₂
  obtain ⟨type, s₄, -, h₄⟩ := reader_bind_eq_ok h₃
  obtain ⟨flags, s₅, -, h₅⟩ := reader_bind_eq_ok h₄
  obtain ⟨default, s₆, -, h₆⟩ := reader_bind_eq_ok h₅
  have hsize : name.utf8ByteSize ≤ 1024 * 1024 := by
    have hle := size_readText_le hname
    have hlimit := refuseIf_eq_ok hlimit
    rw [decide_eq_false_iff_not] at hlimit
    omega
  cases htype : ColumnType.ofByte type with
  | none =>
      rw [htype] at h₆
      cases h₆
  | some columnType =>
      cases hdefault : DefaultType.ofByte default with
      | none =>
          rw [htype, hdefault] at h₆
          cases h₆
      | some defaultType =>
          rw [htype, hdefault] at h₆
          obtain ⟨raw, s₇, hraw, h₇⟩ := reader_bind_eq_ok h₆
          rw [name_of_ofExcept h₇, name_of_readDefault hraw]
          exact hsize

end Column

/-! ## Schemas in a file -/

namespace Schema

def fileBytes (schema : Schema) : List UInt8 :=
  textBytes header ++ (wordBytes schema.recordIdCount ++
    (wordBytes (.ofNat schema.columns.length) ++ schema.columns.flatMap Column.fileBytes))

theorem writes_writeColumns {columns : List Column} (h : columns.all Column.isWritable) :
    Writes (writeColumns columns) (columns.flatMap Column.fileBytes) true := by
  induction columns with
  | nil => exact writes_succeeded
  | cons column columns ih =>
      rw [List.all_cons, Bool.and_eq_true] at h
      rw [List.flatMap_cons]
      exact (Column.writes_toBinary h.1).bind (ih h.2)

theorem isWritable_of_writeColumns {columns : List Column} : ∀ {s t : FileStream},
    writeColumns columns s = .ok true t → columns.all Column.isWritable = true := by
  induction columns with
  | nil =>
      intro s t h
      rfl
  | cons column columns ih =>
      intro s t h
      rw [writeColumns] at h
      obtain ⟨written, s₁, h₁, h₂⟩ := Prog.bind_eq_ok.1 h
      cases written with
      | false => cases h₂
      | true => rw [List.all_cons, Column.isWritable_of_toBinary h₁, ih h₂, Bool.and_true]

theorem writes_toBinary {schema : Schema} (h : schema.isWritable) :
    Writes schema.toBinary schema.fileBytes true :=
  (writes_write _).bind ((writes_write _).bind ((writes_write _).bind (writes_writeColumns h)))

theorem isWritable_of_toBinary {schema : Schema} {s t : FileStream}
    (h : schema.toBinary s = .ok true t) : schema.isWritable = true := by
  rw [toBinary] at h
  obtain ⟨_, s₁, -, h₁⟩ := Prog.bind_eq_ok.1 h
  obtain ⟨_, s₂, -, h₂⟩ := Prog.bind_eq_ok.1 h₁
  obtain ⟨_, s₃, -, h₃⟩ := Prog.bind_eq_ok.1 h₂
  exact isWritable_of_writeColumns h₃

/-- The columns of a schema are as the reader wants them. -/
structure Within (columns : List Column) : Prop where
  count : columns.length ≤ 1024 * 1024
  names : ∀ column ∈ columns, column.name.utf8ByteSize ≤ 1024 * 1024

theorem reads_readColumns {columns : List Column} (hbuilt : ∀ column ∈ columns, column.Built)
    (hwritable : columns.all Column.isWritable)
    (hnames : ∀ column ∈ columns, column.name.utf8ByteSize ≤ 1024 * 1024) :
    Reads (readColumns columns.length) (columns.flatMap Column.fileBytes) columns := by
  induction columns with
  | nil => exact reads_pure []
  | cons column columns ih =>
      obtain ⟨hbuilt₁, hbuilt₂⟩ := List.forall_mem_cons.1 hbuilt
      obtain ⟨hname₁, hname₂⟩ := List.forall_mem_cons.1 hnames
      rw [List.all_cons, Bool.and_eq_true] at hwritable
      rw [List.flatMap_cons]
      exact (Column.reads_fromBinary hbuilt₁ hwritable.1 hname₁).bind
        ((ih hbuilt₂ hwritable.2 hname₂).bind_pure rfl)

theorem names_of_readColumns {count : Nat} : ∀ {columns : List Column} {s t : FileStream},
    (readColumns count).run s = .ok (some columns) t →
    columns.length = count ∧ ∀ column ∈ columns, column.name.utf8ByteSize ≤ 1024 * 1024 := by
  induction count with
  | zero =>
      intro columns s t h
      cases h
      exact ⟨rfl, fun column hmem => absurd hmem List.not_mem_nil⟩
  | succ count ih =>
      intro columns s t h
      rw [readColumns] at h
      obtain ⟨column, s₁, h₁, h₂⟩ := reader_bind_eq_ok h
      obtain ⟨rest, s₂, h₃, h₄⟩ := reader_bind_eq_ok h₂
      cases h₄
      obtain ⟨hlength, hrest⟩ := ih h₃
      refine ⟨by rw [List.length_cons, hlength], List.forall_mem_cons.2 ⟨?_, hrest⟩⟩
      exact Column.name_le_of_fromBinary h₁

theorem reads_fromBinary {schema : Schema} (hbuilt : ∀ column ∈ schema.columns, column.Built)
    (hnames : (schema.columns.map Column.name).Nodup) (hwritable : schema.isWritable)
    (hwithin : Within schema.columns) : Reads fromBinary schema.fileBytes schema := by
  have hcount : (UInt32.ofNat schema.columns.length).toNat = schema.columns.length := by
    have hle := hwithin.count
    rw [UInt32.toNat_ofNat', Nat.mod_eq_of_lt (by omega)]
  have hcolumns := reads_readColumns hbuilt hwritable hwithin.names
  have hmade : ofColumns schema.columns = .ok { columns := schema.columns } := by
    rw [ofColumns, if_pos hnames]
  rw [← hcount, ← List.append_nil (schema.columns.flatMap Column.fileBytes)] at hcolumns
  refine (reads_readExactly (length_textBytes header)).bind ((reads_refuseIf ?_).bind_nil
    ((reads_readWord _).bind ((reads_readWord _).bind ((reads_refuseIf ?_).bind_nil ?_))))
  · rw [bne_self_eq_false]
  · rw [decide_eq_false_iff_not, hcount]
    exact not_lt.2 hwithin.count
  · rw [← List.append_nil (schema.columns.flatMap Column.fileBytes)]
    refine Reads.bind ?_ ((reads_ofExcept hmade).bind_pure rfl)
    rw [List.append_nil] at hcolumns
    exact hcolumns

/-- What is read is within the limits. -/
theorem within_of_fromBinary {schema : Schema} {s t : FileStream}
    (h : fromBinary.run s = .ok (some schema) t) : Within schema.columns := by
  rw [fromBinary] at h
  obtain ⟨found, s₁, -, h₁⟩ := reader_bind_eq_ok h
  obtain ⟨_, s₂, -, h₂⟩ := reader_bind_eq_ok h₁
  obtain ⟨recordIdCount, s₃, -, h₃⟩ := reader_bind_eq_ok h₂
  obtain ⟨columnsLen, s₄, -, h₄⟩ := reader_bind_eq_ok h₃
  obtain ⟨_, s₅, hlimit, h₅⟩ := reader_bind_eq_ok h₄
  obtain ⟨columns, s₆, hcolumns, h₆⟩ := reader_bind_eq_ok h₅
  obtain ⟨made, s₇, hmade, h₇⟩ := reader_bind_eq_ok h₆
  cases h₇
  have hlimit := refuseIf_eq_ok hlimit
  rw [decide_eq_false_iff_not, not_lt] at hlimit
  obtain ⟨hlength, hnames⟩ := names_of_readColumns hcolumns
  rw [ofColumns] at hmade
  split at hmade
  · cases hmade
    exact ⟨by rw [hlength]; exact hlimit, hnames⟩
  · cases hmade

/-! ## Schemas that are made -/

theorem toSchema_eq_ok {source : List Server.ColumnDef} {schema : Schema}
    (h : toSchema source = .ok schema) :
    (∀ column ∈ schema.columns, column.Built) ∧ (schema.columns.map Column.name).Nodup := by
  rw [toSchema] at h
  cases hcolumns : source.mapM toColumn with
  | error what =>
      rw [hcolumns] at h
      cases h
  | ok columns =>
      rw [hcolumns] at h
      change ofColumns columns = .ok schema at h
      rw [ofColumns] at h
      split at h
      · cases h
        refine ⟨fun column hmem => ?_, ‹_›⟩
        obtain ⟨definition, -, hcolumn⟩ := Except.exists_of_mem_mapM hcolumns hmem
        exact Column.built_toColumn hcolumn
      · cases h

theorem isWritable_eq_false_iff {schema : Schema} : schema.isWritable = false ↔
    ∃ column ∈ schema.columns, column.defaultType = .string ∧
      1024 * 1024 < column.defaultString.utf8ByteSize := by
  have hcolumn : ∀ column : Column, ¬ column.isWritable = true ↔
      column.defaultType = .string ∧ 1024 * 1024 < column.defaultString.utf8ByteSize := by
    intro column
    rw [Column.isWritable, Bool.or_eq_true, not_or, bne_iff_ne, not_not, decide_eq_true_eq, not_le]
    rfl
  rw [isWritable, List.all_eq_false]
  simp only [hcolumn]

/-- If the schema is written, it is read back from what was written, whatever follows, and no more is
    read. -/
def Reopens (schema : Schema) : Prop :=
  ∀ s, schema.toBinary (openOn []) = .ok true s → ∀ rest,
    fromBinary.run (openOn (s.bytes ++ rest)) = .ok (some schema) (around s.bytes rest)

/-- The schema of a statement reopens if and only if a default string is too long to be written or all
    names and their number are within the limits of the reader. -/
theorem reopens_iff {source : List Server.ColumnDef} {schema : Schema}
    (h : toSchema source = .ok schema) (recordIdCount : UInt32) :
    ({ schema with recordIdCount } : Schema).Reopens ↔
      (∃ column ∈ schema.columns, column.defaultType = .string ∧
        1024 * 1024 < column.defaultString.utf8ByteSize) ∨
      (schema.columns.length ≤ 1024 * 1024 ∧
        ∀ column ∈ schema.columns, column.name.utf8ByteSize ≤ 1024 * 1024) := by
  obtain ⟨hbuilt, hnames⟩ := toSchema_eq_ok h
  rw [← isWritable_eq_false_iff]
  constructor
  · intro hreopens
    by_cases hwritable : schema.isWritable = true
    · have hwrites := @writes_toBinary { schema with recordIdCount } hwritable []
      have hread := hreopens _ hwrites []
      have hwithin := within_of_fromBinary hread
      exact Or.inr ⟨hwithin.count, hwithin.names⟩
    · exact Or.inl (Bool.eq_false_of_not_eq_true hwritable)
  · intro hlimits s hs rest
    have hwritable := isWritable_of_toBinary hs
    have hwithin : Within schema.columns := by
      rcases hlimits with hrefused | hwithin
      · exact absurd (hrefused.symm.trans hwritable) Bool.false_ne_true
      · exact ⟨hwithin.1, hwithin.2⟩
    have hwrites := @writes_toBinary { schema with recordIdCount } hwritable []
    cases hwrites.symm.trans hs
    have hreads : Reads fromBinary _ ({ schema with recordIdCount } : Schema) :=
      reads_fromBinary hbuilt hnames hwritable hwithin
    rw [bytes_around, List.append_nil, List.nil_append]
    exact hreads [] rest

/-! Two columns, of which one has a default string. -/

def shortColumns : List Server.ColumnDef :=
  [{ name := "id", columnType := .int, indexed := true },
    { name := "city", columnType := .string, defaultValue := some ⟨.string, "Bern"⟩ }]

def shortSchema : Schema where
  columns := [{ name := "id", columnType := .int, flags := 3 },
    { name := "city", columnType := .string, defaultType := .string, defaultString := "Bern" }]

theorem reopens_short : ({ shortSchema with recordIdCount := 7 } : Schema).Reopens := by
  have hsource : toSchema shortColumns = .ok shortSchema := by decide
  exact (reopens_iff hsource 7).2 (Or.inr (by decide))

/-! A name of more than a megabyte. -/

def longName : String := String.ofList (List.replicate (1024 * 1024 + 1) 'a')

def longNameSchema : Schema where
  columns := [{ name := longName, columnType := .int }]

theorem utf8ByteSize_replicate (count : Nat) :
    (String.ofList (List.replicate count 'a')).utf8ByteSize = count := by
  induction count with
  | zero => rfl
  | succ count ih =>
      have hcons : List.replicate (count + 1) 'a' = ['a'] ++ List.replicate count 'a' := rfl
      rw [hcons, String.ofList_append, String.utf8ByteSize_append, ih]
      exact Nat.add_comm 1 count

/-- The schema is written and then refused. -/
theorem not_reopens_longName :
    toSchema [{ name := longName, columnType := .int }] = .ok longNameSchema ∧
      (∃ s, longNameSchema.toBinary (openOn []) = .ok true s) ∧ ¬ longNameSchema.Reopens := by
  have hsource : toSchema [{ name := longName, columnType := .int }] = .ok longNameSchema := by
    rw [toSchema, longNameSchema]
    generalize longName = name
    have hcolumn : toColumn { name, columnType := .int } = .ok { name, columnType := .int } := by
      with_unfolding_all rfl
    rw [List.mapM_cons, hcolumn, List.mapM_nil]
    change ofColumns [{ name, columnType := .int }] = _
    rw [ofColumns, List.map_singleton, if_pos (List.nodup_singleton name)]
  have hwritable : longNameSchema.isWritable = true := rfl
  have hsize : longName.utf8ByteSize = 1024 * 1024 + 1 := utf8ByteSize_replicate _
  refine ⟨hsource, ⟨_, writes_toBinary hwritable []⟩, ?_⟩
  intro hreopens
  have hread := hreopens _ (writes_toBinary hwritable []) []
  have hname := (within_of_fromBinary hread).names { name := longName, columnType := .int }
    (List.mem_singleton.2 rfl)
  dsimp only at hname
  omega

end Schema

end QuasarDB.Storage
