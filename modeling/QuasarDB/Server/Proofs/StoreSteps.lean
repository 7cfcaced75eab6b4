import QuasarDB.Server.Proofs.Orphans
import QuasarDB.Server.Store

set_option autoImplicit false

/-! # What the steps of a cluster make of a store

One lemma for each part of the router, in terms of what the catalog lists, which nodes are down, and what
the links to the nodes do. -/

namespace QuasarDB.Server

open Core Prog Storage

/-! ## The catalog -/

namespace Catalog

variable {catalog catalog' : Catalog} {saved : Bool} {table : TableRef} {name : String}

theorem createDatabase_created : (createDatabase saved name).Post catalog
    (fun created catalog' => created = !catalog.hasDatabase name ∧
      catalog'.hasDatabase = Function.update catalog.hasDatabase name true)
    (fun _ _ => False) := by
  refine Post.get_bind (Post.ite (fun hhas => Post.pure ⟨by rw [hhas]; rfl, ?_⟩) (fun hnew => ⟨?_, ?_⟩))
  · rw [← hhas, Function.update_eq_self]
  · simpa using hnew
  · funext other
    show (AList.lookup other (AList.insert name _ _)).isSome = _
    by_cases hother : other = name
    · rw [hother, AList.lookup_insert, Function.update_self]
      rfl
    · rw [AList.lookup_insert_ne hother, Function.update_of_ne hother]
      rfl

theorem dropDatabase_dropped : (dropDatabase saved name).Post catalog
    (fun tables catalog' => tables = catalog.tablesOf name ∧
      catalog'.hasDatabase = Function.update catalog.hasDatabase name false ∧
      ∀ t, catalog'.hasTable t = if t.database = name then false else catalog.hasTable t)
    (fun _ _ => False) := by
  have hmain : (dropDatabase saved name).Post catalog
      (fun _ catalog' => catalog'.hasDatabase = Function.update catalog.hasDatabase name false)
      (fun _ _ => False) := by
    refine Post.get_bind (Post.ite (fun hnone => Post.pure ?_) (fun _ => ?_))
    · have hnone : catalog.hasDatabase name = false := by simpa using hnone
      rw [← hnone, Function.update_eq_self]
    · funext other
      show (AList.lookup other (AList.erase name _)).isSome = _
      by_cases hother : other = name
      · rw [hother, AList.lookup_erase, Function.update_self]
        rfl
      · rw [AList.lookup_erase_ne hother, Function.update_of_ne hother]
        rfl
  refine (dropDatabase_post.and (Router.dropDatabase_tablesOf.and hmain)).mono
    (fun tables catalog' h => ⟨h.2.1, h.2.2, fun t => ?_⟩) (fun _ _ h => h.1)
  have htable := h.1.2.1 t
  split
  · rename_i hdb
    rw [Bool.eq_false_iff]
    exact fun hhas => (htable.1 hhas).2 hdb
  · rename_i hdb
    rw [Bool.eq_iff_iff, htable]
    exact and_iff_left hdb

theorem withTables_hasDatabase {tables other : Dict Json}
    (h : catalog.databases.lookup name = some tables)
    (h' : catalog'.databases = catalog.databases.insert name other) :
    catalog'.hasDatabase = catalog.hasDatabase := by
  funext db
  unfold hasDatabase
  rw [h']
  by_cases hdb : db = name
  · rw [hdb, AList.lookup_insert, h]
    rfl
  · rw [AList.lookup_insert_ne hdb]

/-- A table is created if its database is there and it is not, and its statement can be encoded. -/
theorem createTable_created {columns : List ColumnDef}
    (hencodable : ∃ ast, serializeAst (.createTable table columns) = .ok ast) :
    (createTable saved table columns).Post catalog
    (fun created catalog' => created = (catalog.hasDatabase table.database && !catalog.hasTable table) ∧
      catalog'.hasDatabase = catalog.hasDatabase ∧
      catalog'.hasTable =
        if created then Function.update catalog.hasTable table true else catalog.hasTable)
    (fun _ _ => False) := by
  obtain ⟨ast, hast⟩ := hencodable
  have hmain : (createTable saved table columns).Post catalog
      (fun created catalog' => created = (catalog.hasDatabase table.database && !catalog.hasTable table) ∧
        catalog'.hasDatabase = catalog.hasDatabase) (fun _ _ => False) := by
    refine Post.get_bind ?_
    cases hdb : catalog.databases.lookup table.database with
    | none => exact Post.pure ⟨by rw [hasDatabase, hdb]; rfl, rfl⟩
    | some tables =>
        refine Post.ite (fun hlisted => Post.pure ⟨?_, rfl⟩) (fun hnew => ?_)
        · rw [hasTable, hdb, Option.bind_some, hlisted, Bool.not_true, Bool.and_false]
        · refine Post.bind (Post.ofExcept (fun _ _ => ?_) (fun what hwhat => ?_))
          · refine ⟨?_, withTables_hasDatabase hdb rfl⟩
            have hnew : (tables.lookup table.table).isSome = false := by simpa using hnew
            rw [hasTable, hasDatabase, hdb, Option.bind_some, hnew]
            rfl
          · rw [hast] at hwhat
            cases hwhat
  refine (hmain.and createTable_post).mono (fun created catalog' h => ⟨h.1.1, h.1.2, ?_⟩)
    (fun _ _ h => h.1)
  rcases h.2 with ⟨rfl, rfl⟩ | ⟨rfl, -, hlisted, -, hothers⟩
  · rfl
  · funext t
    rw [if_pos rfl]
    by_cases ht : t = table
    · rw [ht, Function.update_self, hlisted]
    · rw [Function.update_of_ne ht]
      exact hasTable_congr (hothers t ht)

theorem dropTable_dropped : (dropTable saved table).Post catalog
    (fun _ catalog' => catalog'.hasDatabase = catalog.hasDatabase ∧
      catalog'.hasTable = Function.update catalog.hasTable table false)
    (fun _ _ => False) := by
  have hmain : (dropTable saved table).Post catalog
      (fun _ catalog' => catalog'.hasDatabase = catalog.hasDatabase) (fun _ _ => False) := by
    refine Post.get_bind ?_
    cases hdb : catalog.databases.lookup table.database with
    | none => exact Post.pure rfl
    | some tables =>
        exact Post.ite (fun _ => Post.pure rfl) (fun _ => withTables_hasDatabase hdb rfl)
  refine (hmain.and dropTable_post).mono (fun _ catalog' h => ⟨h.1, ?_⟩) (fun _ _ h => h.1)
  funext t
  by_cases ht : t = table
  · rw [ht, Function.update_self]
    simpa using h.2.1
  · rw [Function.update_of_ne ht]
    exact hasTable_congr (h.2.2.2 t ht)

end Catalog

/-! ## The registry -/

namespace Registry

variable {registry registry' : Registry} {start : StartOutcome} {id : String}

/-- Whether the node of an id is down, if it is registered. -/
def down (registry : Registry) (id : String) : Option Bool :=
  (registry.getNode id).map fun node => decide (node.state = .down)

theorem down_congr (h : registry'.getNode id = registry.getNode id) : registry'.down id = registry.down id :=
  congrArg (Option.map _) h

theorem down_insert {nodes : Dict StorageNode} (node : StorageNode)
    (h : registry'.nodes = nodes.insert id node) :
    registry'.down id = some (decide (node.state = .down)) := by
  rw [down, getNode, h, AList.lookup_insert]
  rfl

/-- A node that is not registered is created, and is not down, if its process starts. -/
theorem createNode_created (hnew : registry.down id = none)
    (hquiet : registry.autoStartStorage = true → ∀ what, start ≠ .raises what) :
    (createNode start id).Post registry
    (fun created registry' => registry'.autoStartStorage = registry.autoStartStorage ∧
      (∀ i, i ≠ id → registry'.down i = registry.down i) ∧
      if created then registry'.down id = some false
      else registry'.down id = none ∧ registry.autoStartStorage = true ∧ start ≠ .started)
    (fun _ _ => False) := by
  have hnone : registry.getNode id = none := Option.map_eq_none_iff.1 hnew
  refine Post.get_bind (Post.ite (fun hhas => ?_) (fun _ => ?_))
  · rw [hasNode, show registry.nodes.lookup id = none from hnone] at hhas
    cases hhas
  refine Post.get_bind (Post.bind (Post.modify (Post.bind ?_)))
  let node : StorageNode := { host := "127.0.0.1", port := registry.nextPort }
  have hcreated : ∀ registry₁ registry₂ : Registry, registry₁.nodes = registry.nodes →
      registry₁.autoStartStorage = registry.autoStartStorage →
      registry₂ = { registry₁ with nodes := registry₁.nodes.insert id node } →
      registry₂.autoStartStorage = registry.autoStartStorage ∧
        (∀ i, i ≠ id → registry₂.down i = registry.down i) ∧ registry₂.down id = some false := by
    rintro registry₁ registry₂ hnodes hauto rfl
    refine ⟨hauto, fun i hi => ?_, down_insert node rfl⟩
    rw [down, getNode, AList.lookup_insert_ne hi, hnodes]
    rfl
  refine Post.get_bind (Post.ite (fun _ => Post.pure ?_) (fun hauto => ?_))
  · rw [if_pos rfl]
    exact hcreated { registry with nextPort := (registry.nextPort + 1) % 2 ^ 32 } _ rfl rfl rfl
  · have hauto : registry.autoStartStorage = true := by simpa using hauto
    cases start with
    | started =>
        refine Post.pure ?_
        rw [if_pos rfl]
        exact hcreated { registry with nextPort := (registry.nextPort + 1) % 2 ^ 32 } _ rfl rfl rfl
    | notStarted =>
        refine Post.pure ?_
        rw [if_neg Bool.false_ne_true]
        exact ⟨rfl, fun _ _ => rfl, hnew, hauto, StartOutcome.noConfusion⟩
    | raises what => exact absurd rfl (hquiet hauto what)

theorem dropNode_dropped : (dropNode id).Post registry
    (fun _ registry' => registry'.autoStartStorage = registry.autoStartStorage ∧
      ∀ i, registry'.down i = if i = id then none else registry.down i)
    (fun _ _ => False) := by
  have hauto : (dropNode id).Post registry
      (fun _ registry' => registry'.autoStartStorage = registry.autoStartStorage) (fun _ _ => False) :=
    Post.get_bind (Post.ite (fun _ => rfl) (fun _ => Post.pure rfl))
  refine (hauto.and dropNode_post).mono (fun _ registry' h => ⟨h.1, fun i => ?_⟩) (fun _ _ h => h.1)
  obtain ⟨-, hgone, hothers⟩ := h
  by_cases hi : i = id
  · rw [if_pos hi, hi, down, Option.map_eq_none_iff]
    simpa [hasNode, getNode] using hgone
  · rw [if_neg hi]
    exact down_congr (hothers i hi)

/-- The node of an id is found down, or not, if it is registered. -/
def Found (id : String) (isDown : Bool) (registry registry' : Registry) : Prop :=
  registry'.autoStartStorage = registry.autoStartStorage ∧
    ∀ i, registry'.down i = if i = id then (registry.down id).map fun _ => isDown else registry.down i

theorem found_of_none (isDown : Bool) (h : registry.getNode id = none) :
    Found id isDown registry registry := by
  refine ⟨rfl, fun i => ?_⟩
  by_cases hi : i = id
  · rw [if_pos hi, hi, down, h]
    rfl
  · rw [if_neg hi]

theorem updateNode_found {state : StorageState} : (updateNode id state).Post registry
    (fun _ => Found id (state = .down) registry) (fun _ _ => False) := by
  refine Post.get_bind ?_
  cases hnode : registry.getNode id with
  | none => exact Post.pure (found_of_none _ hnode)
  | some node =>
      refine ⟨rfl, fun i => ?_⟩
      by_cases hi : i = id
      · rw [if_pos hi, hi, down_insert { node with state } rfl, down, hnode]
        rfl
      · rw [if_neg hi, down, getNode, AList.lookup_insert_ne hi]
        rfl

/-- The node of an id is restarted, and found down, or not, unless the restart throws. -/
def Restarted (start : StartOutcome) (id : String) (registry registry' : Registry) : Prop :=
  (start.finds registry.autoStartStorage).elim (registry' = registry) fun isDown =>
    Found id isDown registry registry'

theorem restartNode_restarted : (restartNode start id).Post registry
    (fun _ => Restarted start id registry) (fun _ => Restarted start id registry) := by
  have hupdate : ∀ state : StorageState,
      start.finds registry.autoStartStorage = some (decide (state = .down)) →
      (updateNode id state).Post registry (fun _ => Restarted start id registry)
        (fun _ => Restarted start id registry) := by
    intro state hfinds
    refine updateNode_found.mono (fun _ registry' h => ?_) (fun _ _ h => h.elim)
    rw [Restarted, hfinds]
    exact h
  refine Post.get_bind ?_
  cases hnode : registry.getNode id with
  | none =>
      refine Post.pure ?_
      unfold Restarted
      cases start.finds registry.autoStartStorage with
      | none => rfl
      | some isDown => exact found_of_none isDown hnode
  | some node =>
      refine Post.get_bind (Post.ite (fun hauto => Post.bind ?_) (fun hauto => Post.bind ?_))
      · have hstarts : registry.autoStartStorage = true := hauto
        refine Post.get_bind (Post.ite (fun hnot => ?_) (fun _ => ?_))
        · rw [hstarts] at hnot
          cases hnot
        cases start with
        | started => exact Post.pure (hupdate .up (by rw [hstarts]; rfl))
        | notStarted =>
            refine Post.pure (Post.bind ?_)
            exact hupdate .down (by rw [hstarts]; rfl)
        | raises what =>
            refine Post.throw ?_
            rw [Restarted, hstarts]
            rfl
      · have hstarts : registry.autoStartStorage = false := by simpa using hauto
        exact hupdate .down (by rw [hstarts]; rfl)

end Registry

/-! ## The exchange with a node -/

/-- A statement for the node leaves the router. -/
def Link.Delivers : Link → Bool
  | .unreachable | .notSent => false
  | _ => true

namespace Router

variable {env : StorageEnv} {router : Router} {link : Link} {answer : Response} {id : String}
  {statement : Statement}

/-- What is sent to the node of an id: nothing, if the node is down or the link does not deliver. -/
def delivered (router : Router) (link : Link) (id : String) (statement : Statement) :
    List (String × Statement) :=
  if router.registry.down id = some false ∧ link.Delivers = true then [(id, statement)] else []

theorem sendToStorage_exchanges (hexchange : env.exchange id = link.exchange answer)
    (hencodable : ∃ ast, serializeAst statement = .ok ast) :
    (sendToStorage env id statement).Post router
      (fun response router' =>
        router' = { router with sent := router.delivered link id statement ++ router.sent } ∧
          if router.registry.down id = some false ∧ link = .answers then response = answer
          else response.isError = true)
      (fun e router' => ∃ acted what, e = .exception what ∧ link = .raises acted what ∧
        router' = { router with sent := router.delivered link id statement ++ router.sent }) := by
  obtain ⟨ast, hast⟩ := hencodable
  have hunsent : router.delivered link id statement = [] →
      router = { router with sent := router.delivered link id statement ++ router.sent } := by
    intro hnone
    rw [hnone]
    rfl
  refine Post.get_bind ?_
  cases hnode : router.registry.getNode id with
  | none =>
      have hdown : router.registry.down id ≠ some false := by
        rw [Registry.down, hnode]
        exact (Option.some_ne_none false).symm
      refine Post.pure ⟨hunsent (if_neg fun h => hdown h.1), ?_⟩
      rw [if_neg fun h => hdown h.1]
      rfl
  | some node =>
      have hstate : router.registry.down id = some (decide (node.state = .down)) := by
        rw [Registry.down, hnode]
        rfl
      refine Post.ite (fun hdown => ?_) (fun hup => ?_)
      · have hdown : router.registry.down id ≠ some false := by
          rw [hstate, decide_eq_true hdown]
          decide
        refine Post.pure ⟨hunsent (if_neg fun h => hdown h.1), ?_⟩
        rw [if_neg fun h => hdown h.1]
        rfl
      · rw [decide_eq_false hup] at hstate
        unfold exchangeWith
        rw [hexchange, hast, delivered, hstate]
        cases link with
        | unreachable => exact Post.pure ⟨rfl, rfl⟩
        | notSent => exact Post.bind (Post.pure ⟨rfl, rfl⟩)
        | lost acted => exact Post.bind ⟨rfl, rfl⟩
        | raises acted what => exact Post.bind ⟨acted, what, rfl, rfl, rfl⟩
        | answers => exact Post.bind ⟨rfl, rfl⟩

/-- Every node is told to drop its table, and none of them is registered any more. The induction is on the
    tables, whose nodes differ. -/
theorem dropTables_told (router : Router) {tables : List TableRef} {links : String → Link}
    {answers : String → Response}
    (hexchange : ∀ id, env.exchange id = (links id).exchange (answers id))
    (hnodup : (tables.map tableKey).Nodup)
    (hthrough : ∀ t ∈ tables, router.registry.down (tableKey t) = some false ∧
      (links (tableKey t) = .answers ∨ links (tableKey t) = .lost true)) :
    (dropTables env tables).Post router
      (fun _ router' => router'.catalog = router.catalog ∧
        router'.registry.autoStartStorage = router.registry.autoStartStorage ∧
        router'.sent = (tables.map dropMessage).reverse ++ router.sent ∧
        ∀ id, router'.registry.down id =
          if id ∈ tables.map tableKey then none else router.registry.down id)
      (fun _ _ => False) := by
  induction tables generalizing router with
  | nil => exact Post.pure ⟨rfl, rfl, rfl, fun _ => rfl⟩
  | cons t tables ih =>
      rw [List.map_cons, List.nodup_cons] at hnodup
      obtain ⟨hfresh, hnodup⟩ := hnodup
      obtain ⟨⟨hup, hlink⟩, hothers⟩ := List.forall_mem_cons.1 hthrough
      have hdelivered : router.delivered (links (tableKey t)) (tableKey t) (.dropTable t) =
          [dropMessage t] := by
        rw [delivered, if_pos]
        · rfl
        · rcases hlink with hlink | hlink <;> rw [hlink] <;> exact ⟨hup, rfl⟩
      refine Post.bind ((sendToStorage_exchanges (hexchange _) ⟨_, rfl⟩).mono
        (fun _ router₁ h₁ => ?_) (fun e router₁ h₁ => ?_))
      · obtain ⟨rfl, -⟩ := h₁
        refine Post.bind (Post.on (Registry.dropNode_dropped.mono (fun _ registry h₂ => ?_)
          (fun _ _ h => h)))
        obtain ⟨hauto, hdown⟩ := h₂
        refine (ih _ hnodup fun u hu => ⟨?_, (hothers u hu).2⟩).mono (fun _ router' h => ?_)
          (fun _ _ h => h)
        · have hne : tableKey u ≠ tableKey t := fun h => hfresh (h ▸ List.mem_map_of_mem hu)
          exact (hdown _).trans ((if_neg hne).trans (hothers u hu).1)
        · obtain ⟨hcatalog, hauto', hsent, hdown'⟩ := h
          refine ⟨hcatalog, hauto'.trans hauto, ?_, fun id => ?_⟩
          · rw [hsent, hdelivered, List.map_cons, List.reverse_cons, List.append_assoc]
          · rw [hdown' id, List.map_cons]
            have hid := hdown id
            change registry.down id = if id = tableKey t then none else router.registry.down id at hid
            by_cases hmem : id ∈ tables.map tableKey
            · rw [if_pos hmem, if_pos (List.mem_cons_of_mem _ hmem)]
            · rw [if_neg hmem, hid]
              simp only [List.mem_cons, hmem, or_false]
      · obtain ⟨acted, what, -, hraises, -⟩ := h₁
        rcases hlink with hlink | hlink <;> rw [hlink] at hraises <;> cases hraises

end Router

end QuasarDB.Server
