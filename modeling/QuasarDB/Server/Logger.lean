import Mathlib.Algebra.Order.Ring.Int
import Mathlib.Data.List.Basic

set_option autoImplicit false

/-! # The access log

`logger.cpp` as steps of its threads: those that answer requests log them, and one thread writes what was
logged to files. A step is an operation on an atomic, a critical section of `mutex_`, or what the writer does
to its file. The log keeps a record of what was handed to it. -/

namespace QuasarDB.Server

structure LogEntry where
  /-- In milliseconds since the epoch. -/
  timestamp : Nat
  clientId : String
  /-- The thread that logs the entry. -/
  handlerId : String
  query : String
  durationMs : Nat
  status : String
  deriving DecidableEq

/-- Where the writer is in `WriteLoop`. -/
inductive LogWriter where
  /-- Before it loads `running_`. -/
  | checking
  /-- Before it loads `pending_writes_`, since nothing is running any more. -/
  | stopping
  /-- In `cv_.wait`, before it looks at the predicate. -/
  | waiting
  /-- It has taken an entry from the queue. -/
  | holding (entry : LogEntry)
  /-- It is done with the entry, but for the counter. -/
  | written
  /-- Before it looks at the queue again. -/
  | locking
  | exited
  deriving DecidableEq

/-- A file as it was opened once, with the lines that were written to it since. It is opened to append: what an
    earlier process of the same day left in it is not counted, here and in the source. -/
structure LogFile where
  path : String
  lines : List String
  deriving DecidableEq

/-- The bytes of some lines. -/
def LogFile.bytes (lines : List String) : Nat := (lines.map fun line => line.utf8ByteSize + 1).sum

structure Logger where
  logDir : String
  maxFileSize : Nat
  /-- A file has less than 2^64 bytes. -/
  currentFileSize : Nat := 0
  queue : List LogEntry := []
  running : Bool := true
  pendingWrites : Nat := 0
  /-- Of type `int`: fewer than 2^31 files are opened. -/
  fileIndex : Nat := 0
  /-- Whether `current_file_` is open. It is the last of the files. -/
  isOpen : Bool := false
  files : List LogFile := []
  writer : LogWriter := .checking
  /-- The calls of `LogQuery` that have not got to the queue. -/
  calls : List LogEntry := []
  /-- The entries for which `LogQuery` was called, and those that got to the queue. -/
  announced : List LogEntry := []
  pushed : List LogEntry := []

/-- How `std::put_time` writes a number of seconds since the epoch. -/
structure LogText where
  time : Nat → String
  date : Nat → String

/-- `setw(3)` and `setfill('0')`. -/
def threeDigits (n : Nat) : String :=
  String.ofList (List.replicate (3 - (toString n).length) '0') ++ toString n

/-- `FormatEntry`. -/
def LogText.formatEntry (text : LogText) (entry : LogEntry) : String :=
  text.time (entry.timestamp / 1000) ++ threeDigits (entry.timestamp % 1000) ++ "Z" ++
    " client_id=" ++ entry.clientId ++ " handler_id=" ++ entry.handlerId ++
    " query=\"" ++ entry.query ++ "\"" ++ " duration_ms=" ++ toString entry.durationMs ++
    " status=" ++ entry.status

namespace Logger

/-- The constructor. -/
def new (logDir : String) (maxFileSize : Nat) : Logger := { logDir, maxFileSize }

/-! ## `LogQuery` -/

/-- Up to the mutex. A thread makes one call at a time, and none to a logger that is being destroyed. -/
def announce (entry : LogEntry) (logger : Logger) : Option Logger :=
  if logger.running && logger.calls.all fun call => call.handlerId != entry.handlerId then
    some { logger with
      pendingWrites := logger.pendingWrites + 1
      calls := entry :: logger.calls
      announced := logger.announced ++ [entry] }
  else none

/-- A call gets the mutex. -/
def push (entry : LogEntry) (logger : Logger) : Option Logger :=
  if entry ∈ logger.calls then
    some { logger with
      queue := logger.queue ++ [entry]
      calls := logger.calls.erase entry
      pushed := logger.pushed ++ [entry] }
  else none

/-! ## The destructor -/

/-- Up to where it waits for the writer. -/
def close (logger : Logger) : Logger := { logger with running := false }

/-! ## `WriteLoop` -/

/-- `CurrentFilePath`, at a time. -/
def currentFilePath (text : LogText) (now : Nat) (logger : Logger) : String :=
  logger.logDir ++ "/access_" ++ text.date now ++ "_" ++ toString logger.fileIndex ++ ".log"

/-- `current_file_.open`, which may fail. -/
def openFile (text : LogText) (now : Nat) (opens : Bool) (logger : Logger) : Logger :=
  if opens then
    { logger with
      isOpen := true
      files := logger.files ++ [{ path := logger.currentFilePath text now, lines := [] }] }
  else { logger with isOpen := false }

/-- `RotateIfNeeded`. -/
def rotateIfNeeded (text : LogText) (now : Nat) (opens : Bool) (logger : Logger) : Logger :=
  if !logger.isOpen then logger.openFile text now opens
  else if logger.maxFileSize ≤ logger.currentFileSize then
    openFile text now opens
      { logger with isOpen := false, currentFileSize := 0, fileIndex := logger.fileIndex + 1 }
  else logger

/-- A line is added to the last file. -/
def addLine (line : String) : List LogFile → List LogFile
  | [] => []
  | [file] => [{ file with lines := file.lines ++ [line] }]
  | file :: files => file :: addLine line files

/-- What the writer does with the entry it holds. -/
def write (text : LogText) (now : Nat) (opens : Bool) (logger : Logger) : Option Logger :=
  match logger.writer with
  | .holding entry =>
      let logger := logger.rotateIfNeeded text now opens
      if logger.isOpen then
        let line := text.formatEntry entry
        some { logger with
          files := addLine line logger.files
          currentFileSize := logger.currentFileSize + (line.utf8ByteSize + 1)
          writer := .written }
      else some { logger with writer := .written }
  | _ => none

/-- The writer has the mutex, and takes the first entry or goes elsewhere. -/
def takeOr (elsewhere : LogWriter) (logger : Logger) : Logger :=
  match logger.queue with
  | [] => { logger with writer := elsewhere }
  | entry :: queue => { logger with queue, writer := .holding entry }

/-- Every other step of the writer. -/
def writeLoop (logger : Logger) : Option Logger :=
  match logger.writer with
  | .checking => some { logger with writer := if logger.running then .waiting else .stopping }
  | .stopping =>
      some { logger with writer := if logger.pendingWrites = 0 then .exited else .waiting }
  | .waiting => some (logger.takeOr (if logger.running then .waiting else .checking))
  | .holding _ => none
  | .written => some { logger with pendingWrites := logger.pendingWrites - 1, writer := .locking }
  | .locking => some (logger.takeOr .checking)
  | .exited => none

/-! ## Interleavings -/

inductive Event where
  | announce (entry : LogEntry)
  | push (entry : LogEntry)
  | close
  /-- At a time, and with a file that opens or not, where one is opened. -/
  | write (now : Nat) (opens : Bool)
  | writeLoop

/-- A step, if the thread can take it. -/
def step (text : LogText) : Event → Logger → Option Logger
  | .announce entry, logger => logger.announce entry
  | .push entry, logger => logger.push entry
  | .close, logger => some logger.close
  | .write now opens, logger => logger.write text now opens
  | .writeLoop, logger => logger.writeLoop

/-- A run of the threads in some order. -/
def run (text : LogText) (events : List Event) (logger : Logger) : Option Logger :=
  events.foldlM (fun logger event => logger.step text event) logger

/-- The entries whose lines are in the files. -/
def lines (logger : Logger) : List String := logger.files.flatMap LogFile.lines

end Logger

end QuasarDB.Server
