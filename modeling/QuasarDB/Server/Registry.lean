import QuasarDB.Core.JsonFile
import QuasarDB.Library.Prog

set_option autoImplicit false

/-! # The registry of storage nodes

`registry.cpp`. A node is known by its storage id, a text; the processes of the nodes are seen only
through how starting one ends. -/

namespace QuasarDB.Server

open Core

inductive StorageState where
  | down
  | up
  | unknown
  deriving DecidableEq, Repr

structure StorageNode where
  host : String
  port : Nat
  state : StorageState := .unknown
  deriving DecidableEq, Repr

/-- What `htons` leaves of a port. -/
def tcpPort (port : Nat) : Nat := port % 2 ^ 16

/-- How `StartProcessNonSync` ends. -/
inductive StartOutcome where
  | started
  | notStarted
  /-- The file system throws, as `create_directories` does. -/
  | raises (what : String)
  deriving DecidableEq, Repr

structure Registry where
  nodes : Dict StorageNode
  nextPort : Nat
  autoStartStorage : Bool

namespace Registry

/-- `Registry::New`. -/
def new (autoStartStorage : Bool) : Registry := { nodes := ∅, nextPort := 9001, autoStartStorage }

/-- `HasNode`. -/
def hasNode (registry : Registry) (id : String) : Bool := (registry.nodes.lookup id).isSome

/-- `GetNode`. -/
def getNode (registry : Registry) (id : String) : Option StorageNode := registry.nodes.lookup id

/-- `auto_start_storage_ && !StartProcessNonSync(id, node)`, where starting may throw. -/
def startProcess (start : StartOutcome) : Prog Registry Bool := do
  if !(← get).autoStartStorage then return true
  match start with
  | .started => return true
  | .notStarted => return false
  | .raises what => throw (.exception what)

/-- `CreateNode`. -/
def createNode (start : StartOutcome) (id : String) : Prog Registry Bool := do
  if (← get).hasNode id then return true
  let node : StorageNode := { host := "127.0.0.1", port := (← get).nextPort }
  modify fun registry => { registry with nextPort := (registry.nextPort + 1) % 2 ^ 32 }
  if ← startProcess start then
    modify fun registry => { registry with nodes := registry.nodes.insert id node }
    return true
  else return false

/-- `UpdateNode`. -/
def updateNode (id : String) (state : StorageState) : Prog Registry Bool := do
  match (← get).getNode id with
  | none => return false
  | some node =>
      modify fun registry =>
        { registry with nodes := registry.nodes.insert id { node with state } }
      return true

/-- `RestartNode`. -/
def restartNode (start : StartOutcome) (id : String) : Prog Registry Bool := do
  match (← get).getNode id with
  | none => return false
  | some _ =>
      let registry ← get
      if registry.autoStartStorage then
        if ← startProcess start then updateNode id .up
        else
          let _ ← updateNode id .down
          return false
      else
        let _ ← updateNode id .down
        return false

/-- `DropNode`. -/
def dropNode (id : String) : Prog Registry Bool := do
  if (← get).hasNode id then
    modify fun registry => { registry with nodes := registry.nodes.erase id }
    return true
  else return false

end Registry

end QuasarDB.Server
