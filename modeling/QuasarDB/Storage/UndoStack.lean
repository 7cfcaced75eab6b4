import QuasarDB.Storage.Journal

set_option autoImplicit false

/-! # What the journal is for

A stack of undo steps, each with the time of the operation it undoes. Saving an operation pushes its
undo step; reverting to a time pops the last one, if it is not from before that time. -/

namespace QuasarDB.Storage

/-- What is done to undo an operation. -/
inductive Undo where
  /-- An insertion is undone without the values of the record. -/
  | delete (recordId : UInt32)
  | update (oldRecord : Record)
  | insert (record : Record)

namespace Undo

def kind : Undo → Track.Kind
  | delete _ => .delete
  | update _ => .update
  | insert _ => .insert

def recordId : Undo → UInt32
  | delete recordId => recordId
  | update oldRecord => oldRecord.id
  | insert record => record.id

/-- The record whose values are kept. -/
def kept : Undo → Option Record
  | delete _ => none
  | update oldRecord => some oldRecord
  | insert record => some record

/-- The values of the record that comes back. -/
def fields (undo : Undo) : List Value :=
  match undo.kept with
  | none => [.null]
  | some record => record.fields

end Undo

/-- An undo step with its time. -/
structure Entry where
  time : Track.Time
  undo : Undo

/-- What reverting returns for the entry it pops. -/
def Entry.result (entry : Entry) : RevertResult where
  time := entry.time.bytes
  type := entry.undo.kind
  record := { id := entry.undo.recordId, fields := entry.undo.fields }

/-- What reverting returns when it pops nothing. -/
def RevertResult.empty : RevertResult where
  time := []
  type := .insert
  record := { id := 0, fields := [.null] }

/-- An operation on a journal, with what it is called with. -/
inductive JournalOp where
  | saveInsertion (now : Track.Time) (record : Record)
  | saveUpdation (now : Track.Time) (oldRecord : Record)
  | saveDeletion (now : Track.Time) (record : Record)
  | revertLast (time : List UInt8) (schema : Schema) (interner : Interner)
  | closeAndReopen

/-- What an operation returns. -/
inductive JournalOutput where
  | saved (time : List UInt8)
  | reverted (result : RevertResult)
  | reopened

namespace JournalOp

/-- The operation on the stack, the top first. -/
def onStack : JournalOp → List Entry → JournalOutput × List Entry
  | saveInsertion now record, stack => (.saved now.bytes, ⟨now, .delete record.id⟩ :: stack)
  | saveUpdation now oldRecord, stack => (.saved now.bytes, ⟨now, .update oldRecord⟩ :: stack)
  | saveDeletion now record, stack => (.saved now.bytes, ⟨now, .insert record⟩ :: stack)
  | revertLast _ _ _, [] => (.reverted .empty, [])
  | revertLast time _ _, entry :: stack =>
      if time ≤ entry.time.bytes then (.reverted entry.result, stack)
      else (.reverted .empty, entry :: stack)
  | closeAndReopen, stack => (.reopened, stack)

/-- The operation on the journal. -/
def onJournal : JournalOp → Prog Journal JournalOutput
  | saveInsertion now record => return .saved (← Journal.saveInsertion now record)
  | saveUpdation now oldRecord => return .saved (← Journal.saveUpdation now oldRecord)
  | saveDeletion now record => return .saved (← Journal.saveDeletion now record)
  | revertLast time schema interner => return .reverted (← Journal.revertLast time schema interner)
  | closeAndReopen => do
      Journal.closeAndReopen
      return .reopened

/-- A run on the stack: what the operations return, and the stack at the end. -/
def runStack : List JournalOp → List Entry → List JournalOutput × List Entry
  | [], stack => ([], stack)
  | op :: ops, stack =>
      let step := op.onStack stack
      let rest := runStack ops step.2
      (step.1 :: rest.1, rest.2)

/-- A run on the journal. -/
def runJournal : List JournalOp → Prog Journal (List JournalOutput)
  | [] => return []
  | op :: ops => do
      let output ← op.onJournal
      let outputs ← runJournal ops
      return output :: outputs

theorem runStack_append (ops more : List JournalOp) (stack : List Entry) :
    runStack (ops ++ more) stack =
      ((runStack ops stack).1 ++ (runStack more (runStack ops stack).2).1,
        (runStack more (runStack ops stack).2).2) := by
  induction ops generalizing stack with
  | nil => rfl
  | cons op ops ih =>
      rw [List.cons_append, runStack, ih]
      rfl

theorem runJournal_append {ops more : List JournalOp} {journal journal' : Journal}
    {outputs : List JournalOutput} (h : runJournal ops journal = .ok outputs journal') :
    runJournal (ops ++ more) journal =
      (do
        let others ← runJournal more
        return outputs ++ others) journal' := by
  induction ops generalizing journal outputs with
  | nil =>
      cases h
      exact (congrFun (bind_pure (runJournal more)) journal').symm
  | cons op ops ih =>
      obtain ⟨output, middle, hop, hrest⟩ := Prog.bind_eq_ok.1 h
      obtain ⟨others, last, hops, hlast⟩ := Prog.bind_eq_ok.1 hrest
      cases hlast
      rw [List.cons_append, runJournal, Prog.bind_ok hop, Prog.run_bind, ih hops, Prog.run_bind,
        Prog.run_bind]
      cases runJournal more journal' <;> rfl

end JournalOp

end QuasarDB.Storage
