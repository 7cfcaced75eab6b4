import QuasarDB.Storage.StringStore

set_option autoImplicit false

/-! # The file of the strings

`interner.cpp` on the bytes of the file `.bin`. An entry of the file is an id, a size and as many bytes.
A `std::string` is the list of its bytes here, and `maxSize` is the size of the longest one that there can
be; the constructor throws for a longer one. -/

namespace QuasarDB.Storage

/-- `Interner`, with the file that `UseStorage` opens. -/
structure StringFile where
  /-- `id_to_view_`. -/
  idToView : AList fun _ : UInt32 => List UInt8
  /-- `string_to_id_`. -/
  stringToId : AList fun _ : List UInt8 => UInt32
  nextId : UInt32
  /-- `storage_`. -/
  storage : FileStream

namespace StringFile

open StringStore (emplace)

/-- A function on the stream. -/
def onStorage {α : Type} (x : Prog FileStream α) : Prog StringFile α :=
  Prog.on storage (fun storage file => { file with storage }) x

/-- `clear()` of the stream. -/
def clear : Prog FileStream Unit := modify fun stream => { stream with failed := false }

def failed (file : StringFile) : Bool := file.storage.failed

/-- `View`. -/
def view (id : UInt32) : Prog StringFile (List UInt8) := do
  let file ← get
  match file.idToView.lookup id with
  | some view => return view
  | none =>
      throw (.exception
        ("[ERROR in qdb::storage::Interner]: Unknown string id '" ++ toString id ++ "'!"))

/-! ## Loading -/

/-- `AddLoadedString`. The next id wraps around. -/
def addLoadedString (id : UInt32) (value : List UInt8) (file : StringFile) : StringFile :=
  { file with
    nextId := max file.nextId (id + 1)
    idToView := emplace id value file.idToView
    stringToId := emplace value id file.stringToId }

def corrupted : Failure := .exception "[ERROR in qdb::storage::Interner]: Corrupted string storage!"

/-- `std::string value(size, '\0')`. -/
def makeString (maxSize : UInt64) (size : Nat) : Prog StringFile Unit :=
  Prog.throwIf (maxSize.toNat < size) "basic_string::_M_create"

/-- The loop of `LoadStorage`, which ends where an id can not be read. -/
def loadEntries (maxSize : UInt64) : Nat → Prog StringFile Unit
  | 0 => throw .endless
  | rounds + 1 => do
      let storedId ← onStorage (FileStream.read 4)
      if (← get).failed then onStorage clear
      else
        let size := ofBytes (← onStorage (FileStream.read 8))
        if (← get).failed then throw corrupted
        else
          makeString maxSize size
          let value ← onStorage (FileStream.read size)
          if (← get).failed then throw corrupted
          else
            modify (addLoadedString (wordOfBytes storedId) value)
            loadEntries maxSize rounds

/-- `LoadStorage`. Each round of its loop but the last takes bytes from the file. -/
def loadStorage (maxSize : UInt64) : Prog StringFile Unit := do
  modify fun file => { file with idToView := ∅, stringToId := ∅, nextId := 1 }
  onStorage do
    clear
    FileStream.seek 0
  loadEntries maxSize ((← get).storage.bytes.length + 1)

/-- `UseStorage`, on the file it is on already. -/
def useStorage (maxSize : UInt64) : Prog StringFile Unit := do
  onStorage do
    FileStream.closeIfOpen
    FileStream.reopen
  loadStorage maxSize

/-- `Interner()` before `UseStorage` on a file with this content. -/
def onFile (content : List UInt8) : StringFile where
  idToView := ∅
  stringToId := ∅
  nextId := 1
  storage := { bytes := content, position := 0, failed := false, isOpen := false }

/-! ## Strings -/

/-- `write` of a part of an entry. -/
def writePart (data : List UInt8) : Prog StringFile Unit := do
  onStorage (FileStream.write data)
  Prog.throwIf (← get).failed "[ERROR in qdb::storage::Interner]: Failed to write string data!"

/-- `AppendToDisk`. -/
def appendToDisk (id : UInt32) (str : List UInt8) : Prog StringFile Unit := do
  onStorage do
    clear
    FileStream.seekEnd
  writePart (wordBytes id)
  writePart (bytesOf 8 str.length)
  writePart str
  Prog.throwIf (← get).failed "[ERROR in qdb::storage::Interner]: Cannot append string to file!"

/-- `Intern`. -/
def intern (str : List UInt8) : Prog StringFile UInt32 := do
  let file ← get
  match file.stringToId.lookup str with
  | some id => return id
  | none =>
      let id := file.nextId
      set { file with nextId := file.nextId + 1 }
      if file.storage.isOpen then appendToDisk id str
      modify fun file =>
        { file with
          stringToId := emplace str id file.stringToId
          idToView := emplace id str file.idToView }
      return id

end StringFile

end QuasarDB.Storage
