import QuasarDB.Storage.Table
import QuasarDB.Storage.UndoStack

set_option autoImplicit false

/-! # What a table is for

Rows with their ids. A new row gets the number of the ids that were given before as its id; undoing takes
it off, with its id, or puts back what an update or a deletion has replaced. -/

namespace QuasarDB.Storage

/-- The bytes of a row. -/
def rowBytes (fields : List Value) : List UInt8 := fields.flatMap storedBytes

/-- The columns that a table is made of: an indexed column is not null. -/
structure Schema.WellFormed (schema : Schema) : Prop where
  columns : schema.columns ≠ []
  names : (schema.columns.map Column.name).Nodup
  writable : schema.isWritable = true
  notNull : ∀ column ∈ schema.columns, column.isIndexed = true → column.isNotNull = true

/-- The values have the types of the columns, and there is one where there has to be. -/
structure Schema.Allows (schema : Schema) (fields : List Value) : Prop where
  length : fields.length = schema.size
  types : ∀ (i : Nat) (column : Column) (value : Value), schema.columns[i]? = some column →
    fields[i]? = some value → Table.checkType column value = .ok ()

/-- The rows of a table, and how many ids it has given. -/
structure Rows where
  count : Nat
  row : UInt32 → Option (List Value)

namespace Rows

def empty : Rows := { count := 0, row := fun _ => none }

/-- Other values, or none, under an id. -/
def set (id : UInt32) (fields : Option (List Value)) (rows : Rows) : Rows :=
  { rows with row := Function.update rows.row id fields }

/-- The id that comes next. -/
def nextId (rows : Rows) : UInt32 := .ofNat rows.count

/-- A new row. -/
def insert (fields : List Value) (rows : Rows) : Rows :=
  { rows.set rows.nextId (some fields) with count := rows.count + 1 }

/-- The ids that were given, in their order. -/
def ids (rows : Rows) : List UInt32 := (List.range rows.count).map UInt32.ofNat

/-- The rows with their ids, in the order of the ids. -/
def list (rows : Rows) : List (UInt32 × List Value) :=
  rows.ids.filterMap fun id => (rows.row id).map fun fields => (id, fields)

/-- The rows that an undo step leaves. -/
def undo (rows : Rows) : Undo → Rows
  | .delete recordId => { rows.set recordId none with count := rows.count - 1 }
  | .update oldRecord => rows.set oldRecord.id (some oldRecord.fields)
  | .insert record => rows.set record.id (some record.fields)

/-- No row but that of the id has one of the values in the same indexed column. -/
def Admits (rows : Rows) (schema : Schema) (id : UInt32) (fields : List Value) : Prop :=
  ∀ (i : Nat) (column : Column) (value : Value), schema.columns[i]? = some column →
    column.isIndexed = true → fields[i]? = some value →
    ∀ other row, rows.row other = some row → row[i]? = some value → other = id

/-- What is true of the rows of a table at any time. -/
structure Sound (rows : Rows) (schema : Schema) (interner : Interner) : Prop where
  given : ∀ id fields, rows.row id = some fields → id.toNat < rows.count
  allowed : ∀ id fields, rows.row id = some fields → schema.Allows fields
  unique : ∀ id fields, rows.row id = some fields → rows.Admits schema id fields
  known : ∀ id fields, rows.row id = some fields → ∀ value ∈ fields, interner.Knows value
  size : ∀ id fields, rows.row id = some fields →
    (rowBytes fields).length ≤ TablePage.maxRecordSize

/-- The step can be undone on these rows. -/
def Applies (rows : Rows) : Undo → Prop
  | .delete recordId => (rows.row recordId).isSome = true ∧ recordId.toNat + 1 = rows.count
  | .update oldRecord => (rows.row oldRecord.id).isSome = true
  | .insert record => rows.row record.id = none

/-- The steps of the stack can be undone, one after the other, and what they leave is sound. -/
def Undoable (schema : Schema) (interner : Interner) : List Entry → Rows → Prop
  | [], _ => True
  | entry :: stack, rows =>
      rows.Applies entry.undo ∧ (rows.undo entry.undo).Sound schema interner ∧
        Undoable schema interner stack (rows.undo entry.undo)

/-! ## Rows under an id -/

variable {rows : Rows} {id other : UInt32} {fields row : List Value} {schema : Schema}
  {interner interner' : Interner}

@[simp] theorem set_self (fields : Option (List Value)) : (rows.set id fields).row id = fields :=
  Function.update_self ..

theorem set_other (fields : Option (List Value)) (h : other ≠ id) :
    (rows.set id fields).row other = rows.row other :=
  Function.update_of_ne h ..

@[simp] theorem count_set (fields : Option (List Value)) : (rows.set id fields).count = rows.count :=
  rfl

theorem set_set (fields fields' : Option (List Value)) :
    (rows.set id fields).set id fields' = rows.set id fields' := by
  simp only [set, Function.update_idem]

/-- Putting back what was there. -/
theorem set_of_eq {fields : Option (List Value)} (h : rows.row id = fields) :
    rows.set id fields = rows := by
  subst h
  simp only [set, Function.update_eq_self]

theorem nextId_toNat (h : rows.count < 2 ^ 32) : rows.nextId.toNat = rows.count := by
  rw [nextId, UInt32.toNat_ofNat', Nat.mod_eq_of_lt h]

theorem mem_ids (h : rows.count ≤ 2 ^ 32) : id ∈ rows.ids ↔ id.toNat < rows.count := by
  rw [ids, List.mem_map]
  constructor
  · rintro ⟨n, hn, rfl⟩
    rw [List.mem_range] at hn
    rwa [UInt32.toNat_ofNat', Nat.mod_eq_of_lt (by omega)]
  · intro hid
    exact ⟨id.toNat, List.mem_range.2 hid, UInt32.ofNat_toNat⟩

theorem nodup_ids (h : rows.count ≤ 2 ^ 32) : rows.ids.Nodup := by
  refine List.Nodup.map_on ?_ List.nodup_range
  intro m hm n hn heq
  rw [List.mem_range] at hm hn
  have hnat := congrArg UInt32.toNat heq
  rwa [UInt32.toNat_ofNat', UInt32.toNat_ofNat', Nat.mod_eq_of_lt (by omega),
    Nat.mod_eq_of_lt (by omega)] at hnat

/-! ## Soundness -/

theorem sound_empty : empty.Sound schema interner where
  given := fun _ _ h => nomatch h
  allowed := fun _ _ h => nomatch h
  unique := fun _ _ h => nomatch h
  known := fun _ _ h => nomatch h
  size := fun _ _ h => nomatch h

theorem Sound.mono (h : rows.Sound schema interner)
    (hknows : ∀ value, interner.Knows value → interner'.Knows value) :
    rows.Sound schema interner' :=
  { h with known := fun id fields hrow value hvalue => hknows value (h.known id fields hrow value hvalue) }

/-- Less rows, of the same ids. -/
theorem Sound.sub {rows' : Rows} (h : rows.Sound schema interner)
    (hrows : ∀ id fields, rows'.row id = some fields → rows.row id = some fields)
    (hcount : ∀ id fields, rows'.row id = some fields → id.toNat < rows'.count) :
    rows'.Sound schema interner where
  given := hcount
  allowed := fun id fields hrow => h.allowed id fields (hrows id fields hrow)
  unique := fun id fields hrow i column value hcolumn hindexed hvalue other row hother =>
    h.unique id fields (hrows id fields hrow) i column value hcolumn hindexed hvalue other row
      (hrows other row hother)
  known := fun id fields hrow => h.known id fields (hrows id fields hrow)
  size := fun id fields hrow => h.size id fields (hrows id fields hrow)

theorem Sound.erase (h : rows.Sound schema interner) : (rows.set id none).Sound schema interner := by
  have hrows : ∀ other fields, (rows.set id none).row other = some fields →
      rows.row other = some fields := by
    intro other fields hrow
    by_cases hother : other = id
    · subst hother
      rw [set_self] at hrow
      cases hrow
    · rwa [set_other none hother] at hrow
  exact h.sub hrows fun other fields hrow => h.given other fields (hrows other fields hrow)

/-- A row that is allowed and has no value of another row in an indexed column. -/
theorem Sound.set (h : rows.Sound schema interner) (hid : id.toNat < rows.count)
    (hallows : schema.Allows fields) (hadmits : rows.Admits schema id fields)
    (hknown : ∀ value ∈ fields, interner.Knows value)
    (hsize : (rowBytes fields).length ≤ TablePage.maxRecordSize) :
    (rows.set id (some fields)).Sound schema interner := by
  have hrow : ∀ {other row}, (rows.set id (some fields)).row other = some row →
      (other = id ∧ row = fields) ∨ (other ≠ id ∧ rows.row other = some row) := by
    intro other row hrow
    by_cases hother : other = id
    · subst hother
      rw [set_self] at hrow
      exact .inl ⟨rfl, (Option.some.inj hrow).symm⟩
    · rw [set_other _ hother] at hrow
      exact .inr ⟨hother, hrow⟩
  refine ⟨fun other row hother => ?_, fun other row hother => ?_, fun other row hother => ?_,
    fun other row hother => ?_, fun other row hother => ?_⟩
  · rcases hrow hother with ⟨rfl, rfl⟩ | ⟨-, hother⟩
    · exact hid
    · exact h.given other row hother
  · rcases hrow hother with ⟨rfl, rfl⟩ | ⟨-, hother⟩
    · exact hallows
    · exact h.allowed other row hother
  · intro i column value hcolumn hindexed hvalue third row' hthird hvalue'
    rcases hrow hother with ⟨rfl, rfl⟩ | ⟨hne, hold⟩ <;>
      rcases hrow hthird with ⟨rfl, rfl⟩ | ⟨hne', hold'⟩
    · rfl
    · exact hadmits i column value hcolumn hindexed hvalue third row' hold' hvalue'
    · exact (hadmits i column value hcolumn hindexed hvalue' other row hold hvalue).symm
    · exact h.unique other row hold i column value hcolumn hindexed hvalue third row' hold' hvalue'
  · rcases hrow hother with ⟨rfl, rfl⟩ | ⟨-, hother⟩
    · exact hknown
    · exact h.known other row hother
  · rcases hrow hother with ⟨rfl, rfl⟩ | ⟨-, hother⟩
    · exact hsize
    · exact h.size other row hother

/-- One more id. -/
theorem Sound.grow (h : rows.Sound schema interner) :
    Sound { rows with count := rows.count + 1 } schema interner :=
  h.sub (fun _ _ hrow => hrow) fun id fields hrow => Nat.lt_succ_of_lt (h.given id fields hrow)

theorem Sound.row_nextId (h : rows.Sound schema interner) (hcount : rows.count < 2 ^ 32) :
    rows.row rows.nextId = none := by
  rw [Option.eq_none_iff_forall_ne_some]
  intro fields hrow
  have hlt := h.given _ fields hrow
  rw [nextId_toNat hcount] at hlt
  exact Nat.lt_irrefl _ hlt

theorem Undoable.mono {stack : List Entry} (h : Undoable schema interner stack rows)
    (hknows : ∀ value, interner.Knows value → interner'.Knows value) :
    Undoable schema interner' stack rows := by
  induction stack generalizing rows with
  | nil => trivial
  | cons entry stack ih =>
      obtain ⟨happlies, hsound, hstack⟩ := h
      exact ⟨happlies, hsound.mono hknows, ih hstack⟩

end Rows

end QuasarDB.Storage
