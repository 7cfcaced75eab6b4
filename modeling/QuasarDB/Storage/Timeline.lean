import QuasarDB.Library.Services
import QuasarDB.Storage.Execute
import QuasarDB.Storage.Rows

set_option autoImplicit false

/-! # What a storage node is for

The rows of a table through time: every operation on a row leaves a moment, and going back to a time takes
the moments from that time on away. What a statement may do to such a timeline depends on its kind and on
how it is answered. -/

namespace QuasarDB.Storage

open Core Server

/-- An operation on a row. -/
inductive RowOp where
  | insert (fields : List Value)
  | update (id : UInt32) (fields : List Value)
  | delete (id : UInt32)

namespace RowOp

def apply (rows : Rows) : RowOp → Rows
  | insert fields => rows.insert fields
  | update id fields => rows.set id (some fields)
  | delete id => rows.set id none

/-- The row that the operation is about, if there has to be one. -/
def target : RowOp → Option UInt32
  | insert _ => none
  | update id _ => some id
  | delete id => some id

def IsInsert (op : RowOp) : Prop := ∃ fields, op = insert fields

def IsUpdate (op : RowOp) : Prop := ∃ id fields, op = update id fields

def IsDelete (op : RowOp) : Prop := ∃ id, op = delete id

end RowOp

/-- The rows after each operation that is not taken back, with its time, the latest first. -/
abbrev Timeline : Type := List (Track.Time × Rows)

namespace Timeline

/-- The rows that there are. -/
def rows : Timeline → Rows
  | [] => .empty
  | (_, rows) :: _ => rows

/-- An operation, at a time. -/
def push (timeline : Timeline) (op : Track.Time × RowOp) : Timeline :=
  (op.1, op.2.apply timeline.rows) :: timeline

def pushAll (timeline : Timeline) (ops : List (Track.Time × RowOp)) : Timeline := ops.foldl push timeline

/-- Without the operations from a time on. -/
def back (time : List UInt8) (timeline : Timeline) : Timeline :=
  timeline.dropWhile fun moment => time ≤ moment.1.bytes

/-- The operations are of one kind, each at a time of the clock. -/
def Issued (now : Nat → Track.Time) (kind : RowOp → Prop) (ops : List (Track.Time × RowOp)) : Prop :=
  ∀ op ∈ ops, kind op.2 ∧ ∃ n, op.1 = now n

/-- The operations of a statement: they are on rows that there are, and no two of them on the same. -/
structure Batch (now : Nat → Track.Time) (rows : Rows) (kind : RowOp → Prop)
    (ops : List (Track.Time × RowOp)) : Prop where
  issued : Issued now kind ops
  targets : ∀ id ∈ ops.filterMap fun op => op.2.target, (rows.row id).isSome = true
  distinct : (ops.filterMap fun op => op.2.target).Nodup

/-- The statement has carried out a batch of this many operations and says so, or it has carried out a batch
    of which `stopped` holds and answers with an error. -/
def Does (env : ExecutorEnv) (kind : RowOp → Prop) (message : String)
    (done stopped : List (Track.Time × RowOp) → Prop) (timeline : Timeline) (response : Response)
    (timeline' : Timeline) : Prop :=
  ∃ ops, Batch env.now timeline.rows kind ops ∧ timeline' = timeline.pushAll ops ∧
    (response = Executor.rowsAffected message ops.length ∧ done ops ∨ response.isError = true ∧ stopped ops)

/-- What a statement may do to a timeline, with the response that it then has. -/
def Effect : Specification Arrival Response Timeline := fun ⟨env, statement⟩ timeline response timeline' =>
  match statement with
  | .insert _ _ values =>
      -- a row that is rejected stops the statement, and those before it stay
      timeline.Does env RowOp.IsInsert "Rows inserted" (fun ops => ops.length = values.length)
        (fun ops => ops.length < values.length) response timeline'
  | .update _ _ _ =>
      -- a row that is rejected stops nothing, but the statement answers with its error
      timeline.Does env RowOp.IsUpdate "Rows updated" (fun _ => True) (fun _ => True) response timeline'
  | .delete _ _ =>
      timeline.Does env RowOp.IsDelete "Rows deleted" (fun _ => True) (fun ops => ops = []) response
        timeline'
  | .select _ _ _ _ =>
      timeline' = timeline ∧
        ((∃ rows, response = .success "Rows selected" (.object [("result", .array rows)])) ∨
          response.isError = true)
  | .revert _ timestamp =>
      timeline' = timeline.back (FileStream.textBytes timestamp) ∧
        response = Executor.rowsAffected "Table reverted" 0
  | _ => timeline' = timeline ∧ response.isError = true

end Timeline

/-- The rows that a statement asks to insert. -/
def Arrival.inserts (arrival : Arrival) : Nat :=
  match arrival.statement with
  | .insert _ _ values => values.length
  | _ => 0

end QuasarDB.Storage
