import QuasarDB.Storage.Record

set_option autoImplicit false

/-! # The format of a record

What is read as a value was stored as this value, so a record that is accepted is written again as the
same bytes. In the other direction the only limit is the size, which is a 32-bit number. -/

namespace QuasarDB.Storage

open Prog

/-! ## Values -/

/-- The bytes that are taken stand before the rest. -/
theorem takeBytes_eq_ok {size : Nat} {data taken rest : List UInt8}
    (h : takeBytes size data = .ok taken rest) : data = taken ++ rest ∧ taken.length = size := by
  rw [takeBytes, run_get_bind, run_ite] at h
  split at h
  · cases h
  · rename_i hlength
    rw [run_set_bind] at h
    obtain ⟨rfl, rfl⟩ := pure_eq_ok.1 h
    exact ⟨(List.take_append_drop size data).symm, List.length_take_of_le (not_lt.1 hlength)⟩

theorem Interner.view_eq_ok {σ : Type} {interner : Interner} {id : StringId} {view : String} {s t : σ}
    (h : interner.view id s = .ok view t) : interner.Knows (.string id) ∧ t = s := by
  rw [Interner.view] at h
  cases hlookup : interner.idToView.lookup id.value with
  | none =>
      rw [hlookup] at h
      cases h
  | some found =>
      rw [hlookup] at h
      obtain ⟨-, rfl⟩ := pure_eq_ok.1 h
      exact ⟨Option.isSome_iff_exists.2 ⟨found, hlookup⟩, rfl⟩

/-- A value that is read was stored there, and its string has an id. -/
theorem readValue_eq_ok {interner : Interner} {data rest : List UInt8} {value : Value}
    (h : readValue interner data = .ok value rest) :
    interner.Knows value ∧ data = storedBytes value ++ rest := by
  rw [readValue] at h
  obtain ⟨type, data₁, h₁, h₂⟩ := bind_eq_ok.1 h
  obtain ⟨rfl, -⟩ := takeBytes_eq_ok h₁
  rw [run_ite] at h₂
  split at h₂
  · rename_i htype
    obtain ⟨rfl, rfl⟩ := pure_eq_ok.1 h₂
    rw [htype]
    exact ⟨trivial, rfl⟩
  rw [run_ite] at h₂
  split at h₂
  · rename_i htype
    obtain ⟨word, data₂, h₃, h₄⟩ := bind_eq_ok.1 h₂
    obtain ⟨rfl, hword⟩ := takeBytes_eq_ok h₃
    obtain ⟨rfl, rfl⟩ := pure_eq_ok.1 h₄
    rw [htype, storedBytes, UInt32.toUInt32_toInt32, wordBytes_wordOfBytes hword]
    exact ⟨trivial, rfl⟩
  rw [run_ite] at h₂
  split at h₂
  · rename_i htype
    obtain ⟨word, data₂, h₃, h₄⟩ := bind_eq_ok.1 h₂
    obtain ⟨rfl, hword⟩ := takeBytes_eq_ok h₃
    rw [Interner.get] at h₄
    obtain ⟨view, data₃, h₅, h₆⟩ := bind_eq_ok.1 h₄
    obtain ⟨hknows, rfl⟩ := Interner.view_eq_ok h₅
    obtain ⟨rfl, rfl⟩ := pure_eq_ok.1 h₆
    rw [htype, storedBytes, wordBytes_wordOfBytes hword]
    exact ⟨hknows, rfl⟩
  · cases h₂

/-! ## Records -/

namespace Record

variable {σ : Type} {interner : Interner} {schema : Schema} {record : Record}

theorem readValues_eq_ok {count : Nat} : ∀ {data rest : List UInt8} {values : List Value},
    readValues interner count data = .ok values rest →
    values.length = count ∧ (∀ value ∈ values, interner.Knows value) ∧
      data = values.flatMap Storage.storedBytes ++ rest := by
  induction count with
  | zero =>
      intro data rest values h
      obtain ⟨rfl, rfl⟩ := pure_eq_ok.1 h
      exact ⟨rfl, fun value hvalue => absurd hvalue List.not_mem_nil, rfl⟩
  | succ count ih =>
      intro data rest values h
      rw [readValues] at h
      obtain ⟨value, data₁, h₁, h₂⟩ := bind_eq_ok.1 h
      obtain ⟨values', data₂, h₃, h₄⟩ := bind_eq_ok.1 h₂
      obtain ⟨rfl, rfl⟩ := pure_eq_ok.1 h₄
      obtain ⟨hknows, rfl⟩ := readValue_eq_ok h₁
      obtain ⟨hlength, hall, rfl⟩ := ih h₃
      refine ⟨by rw [List.length_cons, hlength], List.forall_mem_cons.2 ⟨hknows, hall⟩, ?_⟩
      rw [List.flatMap_cons, List.append_assoc]

/-- A record that is accepted has one known value for each column, and its bytes were read. -/
theorem fromBinary_eq_ok {data : List UInt8} {size recordId : UInt32} {s t : σ}
    (h : fromBinary data size recordId schema interner s = .ok record t) :
    t = s ∧ record = { id := recordId, fields := record.fields } ∧
      record.fields.length = schema.size ∧ record.KnownTo interner ∧
      record.storedBytes.length = size.toNat ∧ record.storedBytes <+: data := by
  unfold fromBinary at h
  cases hread : readValues interner schema.size data with
  | error failure rest =>
      rw [hread] at h
      cases h
  | ok values rest =>
      rw [hread] at h
      dsimp only at h
      split at h
      · cases h
      · rename_i hsize
        cases h
        obtain ⟨hlength, hknown, hdata⟩ := readValues_eq_ok hread
        rw [storedBytes_eq]
        refine ⟨rfl, rfl, hlength, hknown, ?_, rest, hdata.symm⟩
        rw [hdata, List.length_append, not_not, Nat.add_sub_cancel] at hsize
        exact hsize

/-- What stands behind the bytes of a record has no part in reading it. -/
theorem fromBinary_append_eq_ok {payload rest : List UInt8} {size recordId : UInt32} {s t : σ}
    (hsize : payload.length = size.toNat) :
    fromBinary (payload ++ rest) size recordId schema interner s = .ok record t ↔
      t = s ∧ record = { id := recordId, fields := record.fields } ∧
        record.fields.length = schema.size ∧ record.KnownTo interner ∧
        record.storedBytes = payload := by
  constructor
  · intro h
    obtain ⟨hstate, hrecord, hlength, hknown, hbytes, hprefix⟩ := fromBinary_eq_ok h
    have hpayload : record.storedBytes = payload := by
      have hshort : record.storedBytes <+: payload :=
        List.prefix_of_prefix_length_le hprefix (List.prefix_append payload rest) (by omega)
      exact hshort.eq_of_length (by omega)
    exact ⟨hstate, hrecord, hlength, hknown, hpayload⟩
  · intro h
    obtain ⟨rfl, hrecord, hlength, hknown, rfl⟩ := h
    rw [fromBinary_storedBytes hlength hknown hsize.symm rest t, ← hrecord]

theorem result_fromBinary {payload rest : List UInt8} {size recordId : UInt32} {s : σ}
    (hsize : payload.length = size.toNat) :
    (fromBinary (payload ++ rest) size recordId schema interner).result s = some record ↔
      record = { id := recordId, fields := record.fields } ∧
        record.fields.length = schema.size ∧ record.KnownTo interner ∧
        record.storedBytes = payload := by
  rw [result_eq_some]
  constructor
  · intro h
    obtain ⟨t, hrun⟩ := h
    exact ((fromBinary_append_eq_ok hsize).1 hrun).2
  · intro h
    exact ⟨s, (fromBinary_append_eq_ok hsize).2 ⟨rfl, h⟩⟩

/-- The state has no part in it either. -/
theorem outcome_fromBinary {τ : Type} {data : List UInt8} {size recordId : UInt32} (s : σ) (t : τ) :
    (fromBinary data size recordId schema interner).outcome s =
      (fromBinary data size recordId schema interner).outcome t := by
  unfold Prog.outcome fromBinary
  cases readValues interner schema.size data with
  | error failure rest => rfl
  | ok values rest =>
      dsimp only
      by_cases hsize : data.length - rest.length ≠ size.toNat
      · rw [if_pos hsize, if_pos hsize]
      · rw [if_neg hsize, if_neg hsize]

theorem result_fromBinary_append {τ : Type} {payload rest : List UInt8} {size recordId : UInt32}
    {s : σ} {t : τ} (hsize : payload.length = size.toNat) :
    (fromBinary (payload ++ rest) size recordId schema interner).result s =
      (fromBinary payload size recordId schema interner).result t := by
  apply Option.ext
  intro record
  have halone : (fromBinary (payload ++ []) size recordId schema interner).result t = some record ↔ _ :=
    result_fromBinary hsize
  rw [List.append_nil] at halone
  rw [result_fromBinary hsize, halone]

/-- One byte for a type, and four more for what is no null. -/
theorem length_storedBytes : record.storedBytes.length =
    (record.fields.map fun value => if value = .null then 1 else 5).sum := by
  rw [storedBytes_eq, List.length_flatMap]
  congr 2
  funext value
  cases value with
  | null => rfl
  | int n => rfl
  | string id => rfl

/-- `Serialize` gives as many bytes as `SerializedSize` says, and `FromBinary` finds the same values in
    them. -/
def ReadsBack (record : Record) (schema : Schema) (interner : Interner) : Prop :=
  ∃ bytes, record.serialize () = .ok bytes () ∧ bytes.length = record.serializedSize.toNat ∧
    ∀ recordId, ∃ read, fromBinary bytes record.serializedSize recordId schema interner () =
      .ok read () ∧ read.fields = record.fields

theorem serialize_eq_ok {bytes : List UInt8} {s t : σ} (h : record.serialize s = .ok bytes t) :
    bytes = record.storedBytes ∧ record.storedBytes.length = record.serializedSize.toNat := by
  rw [serialize] at h
  obtain ⟨_, s₁, h₁, h₂⟩ := bind_eq_ok.1 h
  obtain ⟨hsize, -⟩ := assert_eq_ok.1 h₁
  obtain ⟨rfl, -⟩ := pure_eq_ok.1 h₂
  exact ⟨rfl, beq_iff_eq.1 hsize⟩

theorem readsBack_iff (hfields : record.fields.length = schema.size)
    (hknown : record.KnownTo interner) :
    record.ReadsBack schema interner ↔ record.storedBytes.length < 2 ^ 32 := by
  constructor
  · intro h
    obtain ⟨bytes, hserialize, -⟩ := h
    obtain ⟨-, hlength⟩ := serialize_eq_ok hserialize
    rw [hlength]
    exact record.serializedSize.toNat_lt
  · intro h
    have hsize : record.serializedSize.toNat = record.storedBytes.length := by
      rw [serializedSize_toNat, Nat.mod_eq_of_lt h]
    refine ⟨record.storedBytes, run_serialize h (), hsize.symm, ?_⟩
    intro recordId
    have hread : fromBinary (record.storedBytes ++ []) record.serializedSize recordId schema interner () =
        .ok { id := recordId, fields := record.fields } () :=
      fromBinary_storedBytes hfields hknown hsize [] ()
    rw [List.append_nil] at hread
    exact ⟨_, hread, rfl⟩

/-- A record is read back if and only if its size is a 32-bit number, and the bytes that are accepted as
    a record are the bytes of this record. -/
theorem serialize_fromBinary (schema : Schema) (interner : Interner) :
    (∀ record : Record, record.fields.length = schema.size → record.KnownTo interner →
      (record.ReadsBack schema interner ↔
        (record.fields.map fun value => if value = .null then 1 else 5).sum < 2 ^ 32)) ∧
    ∀ (data : List UInt8) (size recordId : UInt32) (record : Record),
      data.length = size.toNat → fromBinary data size recordId schema interner () = .ok record () →
      record.serialize () = .ok data () := by
  constructor
  · intro record hfields hknown
    rw [readsBack_iff hfields hknown, length_storedBytes]
  · intro data size recordId record hsize h
    obtain ⟨-, -, -, -, hlength, rest, hdata⟩ := fromBinary_eq_ok h
    have hrest : rest = [] := by
      have hall := congrArg List.length hdata
      rw [List.length_append] at hall
      exact List.eq_nil_of_length_eq_zero (by omega)
    rw [hrest, List.append_nil] at hdata
    rw [run_serialize (by rw [hlength]; exact size.toNat_lt) (), hdata]

/-! A null, a number and a string that has the id 1. -/

def codecSchema : Schema where
  columns := [{ name := "a", columnType := .int }, { name := "b", columnType := .int },
    { name := "c", columnType := .string }]

def codecInterner : Interner := { idToView := (∅ : AList fun _ : UInt32 => String).insert 1 "x" }

def codecRecord : Record := { id := 7, fields := [.null, .int 3, .string ⟨1⟩] }

theorem serialize_fromBinary_mixed :
    codecRecord.ReadsBack codecSchema codecInterner ∧
    { codecRecord with id := 8 }.serialize () = .ok [0, 1, 3, 0, 0, 0, 2, 1, 0, 0, 0] () := by
  constructor
  · refine ((serialize_fromBinary codecSchema codecInterner).1 codecRecord rfl ?_).2 (by decide)
    intro value hvalue
    cases value with
    | null => trivial
    | int n => trivial
    | string id =>
        have hid : id = ⟨1⟩ := by simpa [codecRecord] using hvalue
        rw [hid]
        rfl
  · exact (serialize_fromBinary codecSchema codecInterner).2 _ 11 8 _ rfl rfl

/-! `2 ^ 30` numbers take more than `2 ^ 32` bytes. -/

def longSchema : Schema where
  columns := (List.range (2 ^ 30)).map fun n => { name := toString n, columnType := .int }

def longRecord : Record := { id := 1, fields := List.replicate (2 ^ 30) (.int 0) }

/-- The size wraps around, and the assertion on it fails. -/
theorem not_readsBack_long :
    longRecord.fields.length = longSchema.size ∧ longRecord.KnownTo codecInterner ∧
      ¬ longRecord.ReadsBack longSchema codecInterner ∧
      longRecord.serialize () = .error (.assertion "data_v.size() == result_size") () := by
  have hfields : longRecord.fields.length = longSchema.size := by
    rw [longRecord, longSchema, Schema.size, List.length_replicate, List.length_map, List.length_range]
  have hknown : longRecord.KnownTo codecInterner := by
    intro value hvalue
    rw [List.eq_of_mem_replicate hvalue]
    trivial
  have hlength : longRecord.storedBytes.length = 2 ^ 30 * 5 := by
    rw [length_storedBytes, longRecord, List.map_replicate, List.sum_replicate_nat, if_neg (by decide)]
  have hsize : (longRecord.storedBytes.length == longRecord.serializedSize.toNat) = false := by
    rw [beq_eq_false_iff_ne, serializedSize_toNat, hlength]
    omega
  refine ⟨hfields, hknown, ?_, ?_⟩
  · rw [readsBack_iff hfields hknown, hlength]
    omega
  · rw [serialize, hsize]
    rfl

end Record

end QuasarDB.Storage
