import QuasarDB.Server.Proofs.RouterEffects
import Mathlib.Data.List.Induction

set_option autoImplicit false

/-! # The ports of the registered nodes

`next_port_` is a 32-bit counter and a TCP port has 16 bits: `htons` in `Socket::Connect` and in
`TcpServer` takes the rest of the counter modulo 65536. Every `CreateNode` for a name that is not
registered uses a number up, also when no node comes of it. So whether two nodes share a port
depends on how many such attempts lie between the two that made them, and that is what is counted
here. -/

namespace QuasarDB.Server

open Core Prog

namespace Registry

/-! ## Runs -/

/-- `CreateNode`, with the way its storage process starts, or `DropNode`. -/
inductive Call where
  | create (start : StartOutcome) (id : String)
  | drop (id : String)

def Call.run : Call → Prog Registry Bool
  | .create start id => createNode start id
  | .drop id => dropNode id

/-- The registry after `calls`, each of which may return or throw. -/
def afterCalls (registry : Registry) (calls : List Call) : Registry :=
  calls.foldl (fun registry call => call.run.after registry) registry

/-- Two nodes have different TCP ports, and no node has port 0. -/
structure PortsDistinct (registry : Registry) : Prop where
  ne : ∀ id id' node node', registry.getNode id = some node → registry.getNode id' = some node' →
    id ≠ id' → tcpPort node.port ≠ tcpPort node'.port
  pos : ∀ id node, registry.getNode id = some node → tcpPort node.port ≠ 0

/-! ## Attempts to create a node -/

/-- The `CreateNode` calls so far that found no node, and which of them made the nodes there are. -/
structure Attempts where
  count : Nat
  madeBy : Dict Nat

namespace Attempts

def none : Attempts := { count := 0, madeBy := ∅ }

/-- A call that makes a node: there is none of the name, and its process, if it needs one, starts.
    -/
def Makes (autoStartStorage : Bool) (attempts : Attempts) : Call → Prop
  | .create start id => attempts.madeBy.lookup id = Option.none ∧
      (autoStartStorage = false ∨ start = .started)
  | .drop _ => False

/-- What a call does to the attempts, whatever their ports are. -/
def step (autoStartStorage : Bool) (attempts : Attempts) : Call → Attempts
  | .create start id =>
      if attempts.madeBy.lookup id ≠ Option.none then attempts
      else if autoStartStorage = false ∨ start = .started then
        { count := attempts.count + 1, madeBy := attempts.madeBy.insert id attempts.count }
      else { attempts with count := attempts.count + 1 }
  | .drop id => { attempts with madeBy := attempts.madeBy.erase id }

/-- The attempts in a run from an empty registry. -/
def of (autoStartStorage : Bool) (calls : List Call) : Attempts :=
  calls.foldl (step autoStartStorage) none

/-- The next attempt is not one of those that get port 0, and no node that is still registered was
    made a multiple of 65536 attempts before it. -/
structure Free (attempts : Attempts) : Prop where
  pos : attempts.count % 65536 ≠ 56535
  ne : ∀ id k, attempts.madeBy.lookup id = some k → k % 65536 ≠ attempts.count % 65536

/-- The nodes that are there were made by attempts that differ modulo 65536, and none by one that
    gets port 0. -/
structure Distinct (attempts : Attempts) : Prop where
  ne : ∀ id id' k k', attempts.madeBy.lookup id = some k → attempts.madeBy.lookup id' = some k' →
    id ≠ id' → k % 65536 ≠ k' % 65536
  pos : ∀ id k, attempts.madeBy.lookup id = some k → k % 65536 ≠ 56535

/-- The node made by the `k`-th attempt. -/
def node (k : Nat) : StorageNode := { host := "127.0.0.1", port := (9001 + k) % 2 ^ 32 }

theorem distinct_none : none.Distinct := by
  constructor
  · intro id id' k k' hk
    cases hk
  · intro id k hk
    cases hk

/-- Fewer nodes are as distinct. -/
theorem Distinct.mono {attempts attempts' : Attempts} (h : attempts.Distinct)
    (hsub : ∀ id k, attempts'.madeBy.lookup id = some k → attempts.madeBy.lookup id = some k) :
    attempts'.Distinct := by
  constructor
  · intro id id' k k' hk hk'
    exact h.ne id id' k k' (hsub id k hk) (hsub id' k' hk')
  · intro id k hk
    exact h.pos id k (hsub id k hk)

/-- A new node keeps the nodes distinct exactly when its attempt is free. -/
theorem Distinct.insert_iff {attempts : Attempts} (h : attempts.Distinct) {id : String}
    (hnew : attempts.madeBy.lookup id = Option.none) :
    Distinct { count := attempts.count + 1, madeBy := attempts.madeBy.insert id attempts.count } ↔
      attempts.Free := by
  have hself : (attempts.madeBy.insert id attempts.count).lookup id = some attempts.count :=
    AList.lookup_insert _
  have hother : ∀ {i}, i ≠ id →
      (attempts.madeBy.insert id attempts.count).lookup i = attempts.madeBy.lookup i :=
    fun hi => AList.lookup_insert_ne hi
  constructor
  · intro hins
    refine ⟨hins.pos id _ hself, ?_⟩
    intro i k hk
    have hi : i ≠ id := by
      rintro rfl
      rw [hnew] at hk
      cases hk
    exact hins.ne i id k _ ((hother hi).trans hk) hself hi
  · intro hfree
    constructor
    · intro i i' k k' hk hk' hne
      change (attempts.madeBy.insert id attempts.count).lookup i = some k at hk
      change (attempts.madeBy.insert id attempts.count).lookup i' = some k' at hk'
      by_cases hi : i = id
      · subst hi
        rw [hself] at hk
        rw [hother (Ne.symm hne)] at hk'
        cases hk
        exact (hfree.ne i' k' hk').symm
      · rw [hother hi] at hk
        by_cases hi' : i' = id
        · subst hi'
          rw [hself] at hk'
          cases hk'
          exact hfree.ne i k hk
        · rw [hother hi'] at hk'
          exact h.ne i i' k k' hk hk' hne
    · intro i k hk
      change (attempts.madeBy.insert id attempts.count).lookup i = some k at hk
      by_cases hi : i = id
      · subst hi
        rw [hself] at hk
        cases hk
        exact hfree.pos
      · rw [hother hi] at hk
        exact h.pos i k hk

/-- One call keeps the nodes distinct exactly when it makes no node or its attempt is free. -/
theorem Distinct.step_iff {attempts : Attempts} (h : attempts.Distinct) (auto : Bool)
    (call : Call) :
    (attempts.step auto call).Distinct ↔ (Makes auto attempts call → attempts.Free) := by
  cases call with
  | drop id =>
      refine iff_of_true (h.mono ?_) (fun hmakes => hmakes.elim)
      intro i k hk
      change (attempts.madeBy.erase id).lookup i = some k at hk
      by_cases hi : i = id
      · subst hi
        rw [AList.lookup_erase] at hk
        cases hk
      · rwa [AList.lookup_erase_ne hi] at hk
  | create start id =>
      rw [step]
      by_cases hnew : attempts.madeBy.lookup id = Option.none
      · rw [if_neg (not_not.2 hnew)]
        by_cases hstarts : auto = false ∨ start = .started
        · rw [if_pos hstarts, h.insert_iff hnew]
          exact ⟨fun hfree _ => hfree, fun hfree => hfree ⟨hnew, hstarts⟩⟩
        · rw [if_neg hstarts]
          exact iff_of_true (h.mono fun _ _ hk => hk) (fun hmakes => absurd hmakes.2 hstarts)
      · rw [if_pos hnew]
        exact iff_of_true h (fun hmakes => absurd hmakes.1 hnew)

theorem of_append (auto : Bool) (before : List Call) (call : Call) :
    of auto (before ++ [call]) = (of auto before).step auto call := by
  rw [of, List.foldl_append]
  rfl

/-- The nodes are distinct throughout a run exactly when every node that is made in it is free. -/
theorem distinct_throughout_iff (auto : Bool) (calls : List Call) :
    (∀ before, before <+: calls → (of auto before).Distinct) ↔
      ∀ before call, before ++ [call] <+: calls → Makes auto (of auto before) call →
        (of auto before).Free := by
  constructor
  · intro h before call hprefix
    have hbefore := h before ((List.prefix_append _ _).trans hprefix)
    refine (hbefore.step_iff auto call).1 ?_
    rw [← of_append]
    exact h _ hprefix
  · intro h before
    induction before using List.reverseRecOn with
    | nil => exact fun _ => distinct_none
    | append_singleton before call ih =>
        intro hprefix
        have hbefore := ih ((List.prefix_append _ _).trans hprefix)
        rw [of_append]
        exact (hbefore.step_iff auto call).2 (h before call hprefix)

theorem count_le_step (attempts : Attempts) (auto : Bool) (call : Call) :
    attempts.count ≤ (attempts.step auto call).count := by
  cases call with
  | drop id => exact le_rfl
  | create start id =>
      rw [step]
      split_ifs
      · exact le_rfl
      · exact Nat.le_succ _
      · exact Nat.le_succ _

theorem count_step_of_makes {attempts : Attempts} {auto : Bool} {call : Call}
    (h : Makes auto attempts call) : (attempts.step auto call).count = attempts.count + 1 := by
  cases call with
  | drop id => exact h.elim
  | create start id => rw [step, if_neg (not_not.2 h.1), if_pos h.2]

theorem count_mono (auto : Bool) {before calls : List Call} (h : before <+: calls) :
    (of auto before).count ≤ (of auto calls).count := by
  obtain ⟨rest, rfl⟩ := h
  induction rest using List.reverseRecOn with
  | nil => rw [List.append_nil]
  | append_singleton rest call ih =>
      rw [← List.append_assoc, of_append]
      exact ih.trans (count_le_step _ _ _)

/-- The nodes were made by attempts before the next one. -/
theorem lt_count (auto : Bool) (calls : List Call) :
    ∀ id k, (of auto calls).madeBy.lookup id = some k → k < (of auto calls).count := by
  induction calls using List.reverseRecOn with
  | nil =>
      intro id k hk
      cases hk
  | append_singleton calls call ih =>
      rw [of_append]
      generalize of auto calls = attempts at ih ⊢
      cases call with
      | drop name =>
          intro id k hk
          change (attempts.madeBy.erase name).lookup id = some k at hk
          by_cases hid : id = name
          · subst hid
            rw [AList.lookup_erase] at hk
            cases hk
          · rw [AList.lookup_erase_ne hid] at hk
            exact ih id k hk
      | create start name =>
          rw [step]
          split_ifs
          · exact ih
          · intro id k hk
            change (attempts.madeBy.insert name attempts.count).lookup id = some k at hk
            by_cases hid : id = name
            · subst hid
              rw [AList.lookup_insert] at hk
              cases hk
              exact Nat.lt_succ_self _
            · rw [AList.lookup_insert_ne hid] at hk
              exact Nat.lt_succ_of_lt (ih id k hk)
          · intro id k hk
            exact Nat.lt_succ_of_lt (ih id k hk)

/-- The attempts that get the ports from 9001 to 65535 are free. -/
theorem free_of_lt {auto : Bool} {calls : List Call} (h : (of auto calls).count < 56535) :
    (of auto calls).Free := by
  constructor
  · omega
  · intro id k hk
    have := lt_count auto calls id k hk
    omega

theorem tcpPort_node (k : Nat) : tcpPort (node k).port = (9001 + k) % 65536 := by
  simp only [tcpPort, node]
  omega

end Attempts

/-! ## The registry gives out the numbers of the attempts -/

/-- A number is used up before the process of the node is started. -/
theorem after_createNode {registry : Registry} {start : StartOutcome} {id : String}
    (hnew : ¬ registry.hasNode id = true) :
    (createNode start id).after registry
      = if registry.autoStartStorage = false ∨ start = .started then
          { registry with
            nextPort := (registry.nextPort + 1) % 2 ^ 32
            nodes := registry.nodes.insert id { host := "127.0.0.1", port := registry.nextPort } }
        else { registry with nextPort := (registry.nextPort + 1) % 2 ^ 32 } := by
  rw [Bool.not_eq_true] at hnew
  cases hauto : registry.autoStartStorage with
  | false => simp [createNode, startProcess, after, hnew, hauto]
  | true => cases start <;> simp [createNode, startProcess, after, hnew, hauto]

/-- The registry of a run with these attempts. -/
structure Follows (autoStartStorage : Bool) (attempts : Attempts) (registry : Registry) : Prop where
  auto : registry.autoStartStorage = autoStartStorage
  nextPort : registry.nextPort = (9001 + attempts.count) % 2 ^ 32
  getNode : ∀ id, registry.getNode id = (attempts.madeBy.lookup id).map Attempts.node

namespace Follows

variable {auto : Bool} {attempts : Attempts} {registry : Registry}

theorem hasNode (h : Follows auto attempts registry) (id : String) :
    registry.hasNode id = true ↔ attempts.madeBy.lookup id ≠ none := by
  change (registry.getNode id).isSome = true ↔ _
  rw [h.getNode]
  cases attempts.madeBy.lookup id <;> simp

theorem start : Follows auto .none (new auto) := ⟨rfl, rfl, fun _ => rfl⟩

theorem nextPort_succ (h : Follows auto attempts registry) :
    (registry.nextPort + 1) % 2 ^ 32 = (9001 + (attempts.count + 1)) % 2 ^ 32 := by
  rw [h.nextPort]
  omega

/-- The node that the next attempt makes is registered under its name. -/
theorem getNode_insert (h : Follows auto attempts registry) (id i : String) :
    (registry.nodes.insert id { host := "127.0.0.1", port := registry.nextPort }).lookup i
      = ((attempts.madeBy.insert id attempts.count).lookup i).map Attempts.node := by
  by_cases hi : i = id
  · subst hi
    rw [AList.lookup_insert, AList.lookup_insert, h.nextPort]
    rfl
  · rw [AList.lookup_insert_ne hi, AList.lookup_insert_ne hi]
    exact h.getNode i

theorem create (h : Follows auto attempts registry) (start : StartOutcome) (id : String) :
    Follows auto (attempts.step auto (.create start id)) ((createNode start id).after registry) := by
  rw [Attempts.step]
  by_cases hhas : registry.hasNode id = true
  · rw [if_pos ((h.hasNode id).1 hhas)]
    have hrun : createNode start id registry = .ok true registry := by
      simp [createNode, hhas]
    rw [after_ok hrun]
    exact h
  · rw [if_neg (fun hne => hhas ((h.hasNode id).2 hne))]
    -- the number is used up before the process is started
    have hburnt : Follows auto { attempts with count := attempts.count + 1 }
        { registry with nextPort := (registry.nextPort + 1) % 2 ^ 32 } :=
      ⟨h.auto, h.nextPort_succ, h.getNode⟩
    have hmade : Follows auto
        { count := attempts.count + 1, madeBy := attempts.madeBy.insert id attempts.count }
        { registry with
          nextPort := (registry.nextPort + 1) % 2 ^ 32
          nodes := registry.nodes.insert id { host := "127.0.0.1", port := registry.nextPort } } :=
      ⟨h.auto, h.nextPort_succ, h.getNode_insert id⟩
    obtain rfl := h.auto
    rw [after_createNode hhas]
    by_cases hstarts : registry.autoStartStorage = false ∨ start = .started
    · rw [if_pos hstarts, if_pos hstarts]
      exact hmade
    · rw [if_neg hstarts, if_neg hstarts]
      exact hburnt

theorem drop (h : Follows auto attempts registry) (id : String) :
    Follows auto (attempts.step auto (.drop id)) ((dropNode id).after registry) := by
  by_cases hhas : registry.hasNode id = true
  · have hrun : dropNode id registry = .ok true { registry with nodes := registry.nodes.erase id } := by
      simp [dropNode, hhas]
    rw [after_ok hrun]
    refine ⟨h.auto, h.nextPort, ?_⟩
    intro i
    change (registry.nodes.erase id).lookup i = ((attempts.madeBy.erase id).lookup i).map _
    by_cases hi : i = id
    · subst hi
      rw [AList.lookup_erase, AList.lookup_erase]
      rfl
    · rw [AList.lookup_erase_ne hi, AList.lookup_erase_ne hi]
      exact h.getNode i
  · have hrun : dropNode id registry = .ok false registry := by
      simp [dropNode, hhas]
    have hnone : attempts.madeBy.lookup id = none := by
      by_contra hne
      exact hhas ((h.hasNode id).2 hne)
    rw [after_ok hrun]
    refine ⟨h.auto, h.nextPort, ?_⟩
    intro i
    change _ = ((attempts.madeBy.erase id).lookup i).map _
    by_cases hi : i = id
    · subst hi
      rw [AList.lookup_erase, h.getNode, hnone]
    · rw [AList.lookup_erase_ne hi]
      exact h.getNode i

theorem step (h : Follows auto attempts registry) (call : Call) :
    Follows auto (attempts.step auto call) (call.run.after registry) := by
  cases call with
  | create start id => exact h.create start id
  | drop id => exact h.drop id

theorem afterCalls (h : Follows auto attempts registry) (calls : List Call) :
    Follows auto (calls.foldl (Attempts.step auto) attempts) (registry.afterCalls calls) := by
  induction calls generalizing attempts registry with
  | nil => exact h
  | cons call calls ih => exact ih (h.step call)

/-- The TCP ports are told apart by the attempts. -/
theorem portsDistinct_iff (h : Follows auto attempts registry) :
    PortsDistinct registry ↔ attempts.Distinct := by
  have hnode : ∀ {id k}, attempts.madeBy.lookup id = some k →
      registry.getNode id = some (Attempts.node k) := by
    intro id k hk
    rw [h.getNode, hk]
    rfl
  have hmade : ∀ {id node}, registry.getNode id = some node →
      ∃ k, attempts.madeBy.lookup id = some k ∧ Attempts.node k = node := by
    intro id node hget
    rw [h.getNode] at hget
    exact Option.map_eq_some_iff.1 hget
  constructor
  · intro hports
    constructor
    · intro id id' k k' hk hk' hne heq
      refine hports.ne id id' _ _ (hnode hk) (hnode hk') hne ?_
      rw [Attempts.tcpPort_node, Attempts.tcpPort_node]
      omega
    · intro id k hk heq
      refine hports.pos id _ (hnode hk) ?_
      rw [Attempts.tcpPort_node]
      omega
  · rintro ⟨hne, hpos⟩
    constructor
    · intro id id' node node' hget hget' hids heq
      obtain ⟨k, hk, rfl⟩ := hmade hget
      obtain ⟨k', hk', rfl⟩ := hmade hget'
      rw [Attempts.tcpPort_node, Attempts.tcpPort_node] at heq
      exact hne id id' k k' hk hk' hids (by omega)
    · intro id node hget heq
      obtain ⟨k, hk, rfl⟩ := hmade hget
      rw [Attempts.tcpPort_node] at heq
      exact hpos id k hk (by omega)

end Follows

theorem follows_of (auto : Bool) (calls : List Call) :
    Follows auto (.of auto calls) ((new auto).afterCalls calls) :=
  Follows.start.afterCalls calls

/-- In every state of a run the registered nodes have TCP ports of their own if and only if every
    node made in it comes of a free attempt. -/
theorem portsDistinct_throughout_iff (auto : Bool) (calls : List Call) :
    (∀ before, before <+: calls → PortsDistinct ((new auto).afterCalls before)) ↔
      ∀ before call, before ++ [call] <+: calls →
        Attempts.Makes auto (.of auto before) call → (Attempts.of auto before).Free := by
  rw [← Attempts.distinct_throughout_iff]
  constructor
  · intro h before hprefix
    exact (follows_of auto before).portsDistinct_iff.1 (h before hprefix)
  · intro h before hprefix
    exact (follows_of auto before).portsDistinct_iff.2 (h before hprefix)

/-- As long as `CreateNode` has not looked for a port more than 56535 times. -/
theorem portsDistinct_of_count_le {auto : Bool} {calls : List Call}
    (h : (Attempts.of auto calls).count ≤ 56535) : PortsDistinct ((new auto).afterCalls calls) := by
  rw [(follows_of auto calls).portsDistinct_iff]
  refine (Attempts.distinct_throughout_iff auto calls).2 ?_ calls List.prefix_rfl
  intro before call hprefix hmakes
  have hcount := Attempts.count_mono auto hprefix
  rw [Attempts.of_append, Attempts.count_step_of_makes hmakes] at hcount
  exact Attempts.free_of_lt (by omega)

/-! ## Two nodes on one port -/

/-- A node that is created and dropped `n` times. -/
def churn (n : Nat) : List Call :=
  (List.replicate n [Call.create .started "b", .drop "b"]).flatten

/-- The node `a`, made by the first attempt. -/
def onlyA : Dict Nat := AList.singleton "a" 0

theorem step_create_of_none {auto : Bool} {attempts : Attempts} {id : String}
    (hnew : attempts.madeBy.lookup id = none) :
    attempts.step auto (.create .started id)
      = { count := attempts.count + 1, madeBy := attempts.madeBy.insert id attempts.count } := by
  simp [Attempts.step, hnew]

theorem foldl_churn (auto : Bool) (count n : Nat) :
    (churn n).foldl (Attempts.step auto) { count, madeBy := onlyA }
      = { count := count + n, madeBy := onlyA } := by
  induction n generalizing count with
  | zero => rfl
  | succ n ih =>
      have hround : [Call.create .started "b", .drop "b"].foldl (Attempts.step auto)
          { count, madeBy := onlyA } = { count := count + 1, madeBy := onlyA } := by
        rw [List.foldl_cons, step_create_of_none rfl]
        rfl
      rw [churn, List.replicate_succ, List.flatten_cons, List.foldl_append, hround, ← churn, ih,
        Nat.add_right_comm, Nat.add_assoc]

theorem of_churn (auto : Bool) (n : Nat) :
    Attempts.of auto (.create .started "a" :: churn n ++ [.create .started "c"])
      = { count := 1 + n + 1, madeBy := onlyA.insert "c" (1 + n) } := by
  have hfirst : Attempts.none.step auto (.create .started "a") = { count := 1, madeBy := onlyA } :=
    step_create_of_none rfl
  rw [Attempts.of_append, Attempts.of, List.foldl_cons, hfirst, foldl_churn, step_create_of_none rfl]

/-- A table stays while another one is created and dropped 65535 times; the next table gets its
    port. -/
theorem createNode_shares_port :
    ¬ PortsDistinct ((new false).afterCalls
      (.create .started "a" :: churn 65535 ++ [.create .started "c"])) := by
  intro hports
  have hdistinct := (follows_of false _).portsDistinct_iff.1 hports
  rw [of_churn] at hdistinct
  exact hdistinct.ne "a" "c" 0 65536 rfl rfl (by decide) (by decide)

end Registry

end QuasarDB.Server
