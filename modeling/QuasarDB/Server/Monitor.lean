import QuasarDB.Server.Registry

set_option autoImplicit false

/-! # The monitor of the storage nodes

`monitor.cpp`, with the registry that the monitor looks after. The calls on the two are kept as a
history, the latest first. -/

namespace QuasarDB.Server

open Core

/-- What a probe does about a node. -/
inductive Report where
  | answered
  /-- The ping failed. -/
  | missed
  /-- The ping failed, and `RestartNode` is called. -/
  | restarted
  /-- The ping failed, and the node is marked `Down`. -/
  | down
  deriving DecidableEq, Repr

inductive Heartbeat where
  /-- `CreateNode` adds a node. -/
  | created (id : String)
  | dropped (id : String)
  /-- `ProbeOnce`, with the nodes that it pings. -/
  | probed (reports : List (String × Report))

structure Monitor where
  registry : Registry
  missedHeartbeats : Dict Nat
  deadThreshold : Nat
  history : List Heartbeat

namespace Monitor

/-- The constructor. -/
def new (registry : Registry) (deadThreshold : UInt32) : Monitor where
  registry
  missedHeartbeats := ∅
  deadThreshold := if deadThreshold = 0 then 1 else deadThreshold.toNat
  history := []

/-- What the registry does, without the monitor. -/
def onRegistry {α : Type} (x : Prog Registry α) : Prog Monitor α :=
  x.on (·.registry) fun registry monitor => { monitor with registry }

/-- `missed_heartbeats_[id]`. -/
def missed (monitor : Monitor) (id : String) : Nat := (monitor.missedHeartbeats.lookup id).getD 0

def record (heartbeat : Heartbeat) : Prog Monitor Unit :=
  modify fun monitor => { monitor with history := heartbeat :: monitor.history }

/-- A report of the probe that runs. -/
def report (id : String) (what : Report) : Prog Monitor Unit :=
  modify fun monitor =>
    match monitor.history with
    | .probed reports :: older =>
        { monitor with history := .probed (reports ++ [(id, what)]) :: older }
    | _ => monitor

/-- `CreateNode` of the registry. -/
def createNode (start : StartOutcome) (id : String) : Prog Monitor Bool := do
  let had := (← get).registry.hasNode id
  let created ← onRegistry (Registry.createNode start id)
  if created && !had then record (.created id)
  return created

/-- `DropNode` of the registry. -/
def dropNode (id : String) : Prog Monitor Bool := do
  let dropped ← onRegistry (Registry.dropNode id)
  if dropped then record (.dropped id)
  return dropped

/-- How the world answers to a probe. -/
structure ProbeEnv where
  /-- `PingStorage`. -/
  ping : String → Bool
  start : String → StartOutcome

/-- The body of the loop in `ProbeOnce`. -/
def probeNode (env : ProbeEnv) (id : String) : Prog Monitor Unit := do
  if env.ping id then
    report id .answered
    modify fun monitor =>
      { monitor with missedHeartbeats := monitor.missedHeartbeats.erase id }
    let _ ← onRegistry (Registry.updateNode id .up)
    return ()
  let missed := ((← get).missed id + 1) % 2 ^ 32
  if (← get).deadThreshold ≤ missed then
    modify fun monitor =>
      { monitor with missedHeartbeats := monitor.missedHeartbeats.insert id 0 }
    report id .restarted
    if !(← onRegistry (Registry.restartNode (env.start id) id)) then
      report id .down
      let _ ← onRegistry (Registry.updateNode id .down)
  else
    modify fun monitor =>
      { monitor with missedHeartbeats := monitor.missedHeartbeats.insert id missed }
    report id .missed

def probeNodes (env : ProbeEnv) : List String → Prog Monitor Unit
  | [] => return ()
  | id :: ids => do
      probeNode env id
      probeNodes env ids

/-- `ProbeOnce`. -/
def probeOnce (env : ProbeEnv) : Prog Monitor Unit := do
  let ids := (← get).registry.nodes.keys
  record (.probed [])
  probeNodes env ids

inductive Event where
  | create (id : String) (start : StartOutcome)
  | drop (id : String)
  | probe (env : ProbeEnv)

/-- What a call leaves. An exception in `CreateNode` goes to the client, and one in `ProbeOnce`, which
    runs on a thread of its own, ends the process. -/
def step : Event → Prog Monitor Unit
  | .create id start => do
      let _ ← Prog.catchException (createNode start id) fun _ => return false
      return ()
  | .drop id => do
      let _ ← dropNode id
      return ()
  | .probe env => probeOnce env

def run : List Event → Prog Monitor Unit
  | [] => return ()
  | event :: events => do
      step event
      run events

end Monitor

end QuasarDB.Server
