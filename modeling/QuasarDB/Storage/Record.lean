import QuasarDB.Storage.Node
import QuasarDB.Storage.Value

set_option autoImplicit false

/-! # Records

`column.h`, `schema.h` and `record.cpp`: the columns of a table and its rows. -/

namespace QuasarDB.Storage

inductive ColumnType where
  | int
  | string
  deriving DecidableEq

inductive DefaultType where
  | none
  | nullValue
  | int
  | string
  deriving DecidableEq

structure Column where
  name : String
  columnType : ColumnType
  flags : UInt8 := 0
  defaultType : DefaultType := .none
  defaultInt : Int32 := 0
  defaultString : String := ""
  deriving DecidableEq

structure Schema where
  columns : List Column
  recordIdCount : UInt32 := 0
  deriving DecidableEq

/-- `Size`. -/
def Schema.size (schema : Schema) : Nat := schema.columns.length

structure Record where
  id : UInt32
  fields : List Value
  address : Option RecordAddress := none
  deriving DecidableEq

namespace Record

variable {σ : Type}

/-- `Record(id, values_count)`. -/
def ofCount (id : UInt32) (valuesCount : Nat) : Prog σ Record := do
  if valuesCount = 0 then
    throw (.exception "[ERROR in qdb::storage::Record]: Record cannot have 0 columns!")
  else return { id, fields := List.replicate valuesCount .null }

/-- `SerializedSize`, where the sum wraps around. -/
def serializedSize (record : Record) : UInt32 :=
  record.fields.foldl (fun result value => result + Storage.serializedSize value) 0

/-- The buffer that `Serialize` fills. -/
def storedBytes (record : Record) : List UInt8 :=
  record.fields.foldl (fun buffer value => appendValueToBuffer value buffer) []

/-- `Serialize`. -/
def serialize (record : Record) : Prog σ (List UInt8) := do
  Prog.assert (record.storedBytes.length == record.serializedSize.toNat)
    "data_v.size() == result_size"
  return record.storedBytes

/-- The loop of `FromBinary`. -/
def readValues (interner : Interner) : Nat → Prog (List UInt8) (List Value)
  | 0 => return []
  | count + 1 => do
      let value ← readValue interner
      let values ← readValues interner count
      return value :: values

/-- `FromBinary`, with the bytes from `data` on. -/
def fromBinary (data : List UInt8) (size recordId : UInt32) (schema : Schema)
    (interner : Interner) : Prog σ Record := fun s =>
  match readValues interner schema.size data with
  | .error failure _ => .error failure s
  | .ok values rest =>
      if data.length - rest.length ≠ size.toNat then
        .error (.exception "[ERROR in qdb::storage::Record]: Read data and size are mismatch!") s
      else .ok { id := recordId, fields := values } s

/-! ## What is read back -/

variable {record : Record} {interner : Interner}

theorem storedBytes_eq : record.storedBytes = record.fields.flatMap Storage.storedBytes := by
  obtain ⟨id, fields, address⟩ := record
  have happend : ∀ buffer : List UInt8,
      fields.foldl (fun buffer value => appendValueToBuffer value buffer) buffer =
        buffer ++ fields.flatMap Storage.storedBytes := by
    induction fields with
    | nil =>
        intro buffer
        simp
    | cons value fields ih =>
        intro buffer
        rw [List.foldl_cons, ih, appendValueToBuffer, List.flatMap_cons, List.append_assoc]
  exact happend []

theorem serializedSize_toNat :
    record.serializedSize.toNat = record.storedBytes.length % 2 ^ 32 := by
  rw [storedBytes_eq]
  obtain ⟨id, fields, address⟩ := record
  have hsum : ∀ result : UInt32,
      (fields.foldl (fun result value => result + Storage.serializedSize value) result).toNat =
        (result.toNat + (fields.flatMap Storage.storedBytes).length) % 2 ^ 32 := by
    induction fields with
    | nil =>
        intro result
        simp [Nat.mod_eq_of_lt result.toNat_lt]
    | cons value fields ih =>
        intro result
        rw [List.foldl_cons, ih, List.flatMap_cons, List.length_append, length_storedBytes,
          UInt32.toNat_add]
        omega
  have hzero := hsum 0
  rw [UInt32.toNat_zero, Nat.zero_add] at hzero
  exact hzero

/-- The assertion holds as long as the size does not wrap around. -/
theorem run_serialize (h : record.storedBytes.length < 2 ^ 32) (s : σ) :
    record.serialize s = .ok record.storedBytes s := by
  have hsize : (record.storedBytes.length == record.serializedSize.toNat) = true := by
    rw [serializedSize_toNat, Nat.mod_eq_of_lt h, beq_self_eq_true]
  rw [serialize, hsize]
  rfl

/-- The interner has all strings of the record. -/
def KnownTo (record : Record) (interner : Interner) : Prop :=
  ∀ value ∈ record.fields, interner.Knows value

theorem readValues_storedBytes {fields : List Value} (h : ∀ value ∈ fields, interner.Knows value)
    (rest : List UInt8) :
    readValues interner fields.length (fields.flatMap Storage.storedBytes ++ rest) =
      .ok fields rest := by
  induction fields with
  | nil => rfl
  | cons value fields ih =>
      obtain ⟨hvalue, hfields⟩ := List.forall_mem_cons.1 h
      rw [List.length_cons, readValues, List.flatMap_cons, List.append_assoc,
        Prog.bind_ok (readValue_storedBytes hvalue _), Prog.bind_ok (ih hfields)]
      rfl

/-- A record is read back from its bytes, without its address. -/
theorem fromBinary_storedBytes {schema : Schema} {size recordId : UInt32}
    (hfields : record.fields.length = schema.size) (hknown : record.KnownTo interner)
    (hsize : size.toNat = record.storedBytes.length) (rest : List UInt8) (s : σ) :
    fromBinary (record.storedBytes ++ rest) size recordId schema interner s =
      .ok { id := recordId, fields := record.fields } s := by
  have hread : readValues interner schema.size (record.storedBytes ++ rest) =
      .ok record.fields rest := by
    rw [storedBytes_eq, ← hfields]
    exact readValues_storedBytes hknown rest
  have hlength : ¬ ((record.storedBytes ++ rest).length - rest.length ≠ size.toNat) := by
    rw [hsize, List.length_append]
    omega
  simp only [fromBinary, hread, if_neg hlength]

theorem storedBytes_eq_nil_iff : record.storedBytes = [] ↔ record.fields = [] := by
  rw [storedBytes_eq]
  constructor
  · intro h
    cases hfields : record.fields with
    | nil => rfl
    | cons value fields =>
        rw [hfields, List.flatMap_cons, List.append_eq_nil_iff] at h
        exact absurd h.1 (storedBytes_ne_nil value)
  · intro h
    rw [h]
    rfl

end Record

end QuasarDB.Storage
