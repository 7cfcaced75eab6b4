import QuasarDB.Library.BinaryFile
import Mathlib.Data.List.AList

set_option autoImplicit false

/-! # Values

`value.h`, `interner.h` and `serializer.cpp`: the values of a row, the strings they stand for, and the
bytes they are stored as. -/

namespace QuasarDB.Storage

/-- A string is stood for by its id. -/
structure StringId where
  value : UInt32
  deriving DecidableEq

/-- `Value`. -/
inductive Value where
  | null
  | int (value : Int32)
  | string (id : StringId)
  deriving DecidableEq

/-- `Interner`, as far as strings are looked up. -/
structure Interner where
  /-- `id_to_view_`. -/
  idToView : AList fun _ : UInt32 => String

namespace Interner

variable {σ : Type}

/-- `View`. -/
def view (interner : Interner) (id : StringId) : Prog σ String :=
  match interner.idToView.lookup id.value with
  | some view => return view
  | none =>
      throw (.exception
        ("[ERROR in qdb::storage::Interner]: Unknown string id '" ++ toString id.value ++ "'!"))

/-- `Get`. -/
def get (interner : Interner) (id : StringId) : Prog σ Value := do
  let _ ← interner.view id
  return .string id

/-- The interner has the string of a value. -/
def Knows (interner : Interner) : Value → Prop
  | .string id => (interner.idToView.lookup id.value).isSome = true
  | _ => True

theorem run_get {interner : Interner} {id : StringId} (h : interner.Knows (.string id)) (s : σ) :
    interner.get id s = .ok (.string id) s := by
  obtain ⟨view, hview⟩ := Option.isSome_iff_exists.1 h
  simp only [get, Interner.view, hview]
  rfl

end Interner

/-! ## Serialization -/

/-- `SerializedSize`. -/
def serializedSize : Value → UInt32
  | .null => 1
  | .int _ => 1 + 4
  | .string _ => 1 + 4

inductive StoredType where
  | null
  | int
  | string

def StoredType.byte : StoredType → UInt8
  | .null => 0
  | .int => 1
  | .string => 2

/-- What `AppendValueToBuffer` appends. -/
def storedBytes : Value → List UInt8
  | .null => [StoredType.null.byte]
  | .int value => StoredType.int.byte :: wordBytes value.toUInt32
  | .string id => StoredType.string.byte :: wordBytes id.value

/-- `AppendValueToBuffer`. -/
def appendValueToBuffer (value : Value) (buffer : List UInt8) : List UInt8 :=
  buffer ++ storedBytes value

/-- `std::memcpy(&value, data, size)` and `data += size`, where `data` must not reach past its end. -/
def takeBytes (size : Nat) : Prog (List UInt8) (List UInt8) := do
  let data ← get
  if data.length < size then throw (.undefined "read past the end of the data")
  else
    set (data.drop size)
    return data.take size

/-- `ReadValue`, where the state is what `data` points to. -/
def readValue (interner : Interner) : Prog (List UInt8) Value := do
  let type ← takeBytes 1
  if type = [StoredType.null.byte] then return .null
  else if type = [StoredType.int.byte] then return .int (wordOfBytes (← takeBytes 4)).toInt32
  else if type = [StoredType.string.byte] then interner.get ⟨wordOfBytes (← takeBytes 4)⟩
  else throw (.exception "[ERROR in qdb::storage::ReadValue]: Unknown serialized value type!")

theorem length_storedBytes (value : Value) :
    (storedBytes value).length = (serializedSize value).toNat := by
  cases value <;> simp [storedBytes, serializedSize]

theorem storedBytes_ne_nil (value : Value) : storedBytes value ≠ [] := by
  cases value <;> simp [storedBytes]

theorem run_takeBytes {size : Nat} {data rest : List UInt8} (h : data.length = size) :
    takeBytes size (data ++ rest) = .ok data rest := by
  subst h
  simp [takeBytes]

/-- A value is read back from where it is stored, whatever follows. -/
theorem readValue_storedBytes {interner : Interner} {value : Value} (h : interner.Knows value)
    (rest : List UInt8) : readValue interner (storedBytes value ++ rest) = .ok value rest := by
  have htype : ∀ (type : UInt8) (data : List UInt8),
      takeBytes 1 (type :: data) = .ok [type] data := by
    intro type data
    show takeBytes 1 ([type] ++ data) = _
    exact run_takeBytes rfl
  cases value with
  | null =>
      rw [storedBytes, List.cons_append, List.nil_append, readValue, Prog.bind_ok (htype _ rest)]
      rfl
  | int n =>
      rw [storedBytes, List.cons_append, readValue, Prog.bind_ok (htype _ _), if_neg (by decide),
        if_pos rfl, Prog.bind_ok (run_takeBytes (length_wordBytes _)), wordOfBytes_wordBytes]
      rfl
  | string id =>
      rw [storedBytes, List.cons_append, readValue, Prog.bind_ok (htype _ _), if_neg (by decide),
        if_neg (by decide), if_pos rfl, Prog.bind_ok (run_takeBytes (length_wordBytes _)),
        wordOfBytes_wordBytes, Interner.run_get h]

end QuasarDB.Storage
