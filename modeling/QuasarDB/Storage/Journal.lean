import QuasarDB.Storage.Record

set_option autoImplicit false

/-! # The journal

`journal.cpp`: a file of tracks, each with the inverse of an operation on a record. `_pos` is the end of
the tracks that have not been reverted; what lies behind it in the file is cut off later. -/

namespace QuasarDB.Storage

namespace Track

/-- `TIME_LEN`. -/
def timeLen : Nat := 23

/-- `Track::Type`, a byte; the tracks of a journal have the first three. -/
inductive Kind where
  | delete
  | update
  | insert
  | other (byte : UInt8)
  deriving DecidableEq

def Kind.byte : Kind → UInt8
  | .delete => 0
  | .update => 1
  | .insert => 2
  | .other byte => byte

def Kind.ofByte (byte : UInt8) : Kind :=
  if byte = 0 then .delete
  else if byte = 1 then .update
  else if byte = 2 then .insert
  else .other byte

/-- What `get_now` gives, in the years that have four digits. -/
structure Time where
  bytes : List UInt8
  length : bytes.length = timeLen

end Track

/-- `RevertResult`. -/
structure RevertResult where
  time : List UInt8
  type : Track.Kind
  record : Record
  deriving DecidableEq

structure Journal where
  /-- `_file`, with the content of the file at `_path`. -/
  file : FileStream
  /-- `_pos`. -/
  pos : Int

namespace Journal

variable {α : Type}

def onFile (x : Prog FileStream α) : Prog Journal α :=
  x.on Journal.file fun file journal => { journal with file }

/-- The constructor, on a file with this content. -/
def openOn (bytes : List UInt8) : Journal :=
  { file := { FileStream.openOn bytes with position := bytes.length }, pos := bytes.length }

/-- `truncate_to_last`. -/
def truncateToLast : Prog Journal Unit := do
  let pos := (← get).pos
  onFile FileStream.closeIfOpen
  Prog.throwIf (pos < 0) "Failed to truncate journal: File too large"
  onFile (FileStream.resize pos.toNat)
  onFile FileStream.reopen
  onFile (FileStream.seek pos)

/-- What `close` and `write_track` begin with: tracks that were reverted are cut off. -/
def cutOff : Prog Journal Unit := do
  onFile FileStream.seekEnd
  let finish ← onFile FileStream.tell
  if (← get).pos ≠ finish then truncateToLast

/-- `close`. -/
def close : Prog Journal Unit := do
  if (← get).file.isOpen then
    cutOff
    onFile FileStream.closeIfOpen

/-- The destructor, and the constructor on the file that it leaves. -/
def closeAndReopen : Prog Journal Unit := do
  close
  modify fun journal => openOn journal.file.bytes

/-- The data of a track, if it has some. -/
def writeData (data : List UInt8) : Prog FileStream Unit := do
  if data ≠ [] then
    let dataSize : UInt32 := .ofNat data.length
    FileStream.write (wordBytes dataSize)
    FileStream.write (data.take dataSize.toNat)

/-- The size of a track with this data, `size` in `write_track`. -/
def trackSize (data : List UInt8) : UInt32 :=
  let size : UInt32 := .ofNat (Track.timeLen + 4 + 1 + 4)
  if data = [] then size else size + .ofNat (4 + data.length)

/-- `write_track`, at the time `now`. -/
def writeTrack (now : Track.Time) (type : Track.Kind) (recordId : UInt32) (data : List UInt8) :
    Prog Journal (List UInt8) := do
  cutOff
  onFile (FileStream.write now.bytes)
  onFile (FileStream.write (wordBytes recordId))
  onFile (FileStream.write [type.byte])
  onFile (writeData data)
  onFile (FileStream.write (wordBytes (trackSize data)))
  Prog.throwIf (← get).file.failed "Failed to write journal track."
  onFile FileStream.seekEnd
  let pos ← onFile FileStream.tell
  modify fun journal => { journal with pos }
  return now.bytes

/-- `save_insertion`. -/
def saveInsertion (now : Track.Time) (record : Record) : Prog Journal (List UInt8) :=
  writeTrack now .delete record.id []

/-- `save_updation`. -/
def saveUpdation (now : Track.Time) (oldRecord : Record) : Prog Journal (List UInt8) := do
  writeTrack now .update oldRecord.id (← oldRecord.serialize)

/-- `save_deletion`. -/
def saveDeletion (now : Track.Time) (record : Record) : Prog Journal (List UInt8) := do
  writeTrack now .insert record.id (← record.serialize)

/-- A read into a variable that has no value before. -/
def readBytes (count : Nat) : Prog Journal (List UInt8) := do
  let data ← onFile (FileStream.read count)
  if data.length < count then throw (.undefined "indeterminate value")
  else return data

def readWord : Prog Journal UInt32 := return wordOfBytes (← readBytes 4)

/-- A read into a buffer of zeros. -/
def readBuffer (count : Nat) : Prog Journal (List UInt8) := do
  let data ← onFile (FileStream.read count)
  return data ++ List.replicate (count - data.length) 0

/-- What `revert_last` returns when there is nothing to revert. -/
def nothing : Prog Journal RevertResult := do
  return { time := [], type := .insert, record := ← Record.ofCount 0 1 }

/-- `revert_last`, from the record id on. -/
def readTrack (writedTime : List UInt8) (schema : Schema) (interner : Interner) :
    Prog Journal RevertResult := do
  let recordId ← readWord
  let type := Track.Kind.ofByte ((← readBytes 1).headD 0)
  let record ← Record.ofCount recordId 1
  if type = .insert ∨ type = .update then
    let dataSize ← readWord
    let data ← readBuffer dataSize.toNat
    let record ← Record.fromBinary data dataSize recordId schema interner
    return { time := writedTime, type, record }
  else return { time := writedTime, type, record }

/-- `revert_last`. -/
def revertLast (time : List UInt8) (schema : Schema) (interner : Interner) :
    Prog Journal RevertResult := do
  let lastPos := (← get).pos
  if lastPos ≤ 0 then nothing
  else
    onFile (FileStream.seek (lastPos - 4))
    let trackSize ← readWord
    onFile (FileStream.seek (lastPos - trackSize.toNat))
    let pos ← onFile FileStream.tell
    modify fun journal => { journal with pos }
    let writedTime ← readBuffer Track.timeLen
    if writedTime < time then
      modify fun journal => { journal with pos := lastPos }
      nothing
    else readTrack writedTime schema interner

end Journal

end QuasarDB.Storage
