import QuasarDB.Server.Proofs.AstJsonRoundTrip
import QuasarDB.Server.Proofs.RouterEffects

set_option autoImplicit false

/-! # The catalog and the registry agree

A catalogued table has a storage node, as long as the server is not restarted with tables in its
catalog: the catalog is read back from its file, and the registry starts empty. -/

namespace QuasarDB.Server

open Core Prog

/-! ## Names -/

/-- A part of a qualified name: not empty, and without a dot. -/
def IsName (name : String) : Prop := name ≠ "" ∧ ∀ c ∈ name.toList, c ≠ '.'

/-- A qualified name of a table. -/
def TableRef.Named (t : TableRef) : Prop := IsName t.database ∧ IsName t.table

theorem isName_of_isIdentifier {name : String} (h : IsIdentifier name) : IsName name := by
  refine ⟨?_, ne_dot_of_isIdentifier h⟩
  rintro rfl
  obtain ⟨⟨c, rest, h, -⟩, -⟩ := h
  simp at h

/-- Different tables have different storage ids. -/
theorem tableKey_injective {t u : TableRef} (ht : t.Named) (hu : u.Named)
    (h : Router.tableKey t = Router.tableKey u) : t = u := by
  have ht' := tableFromString_tableToString ht.1.2 ht.2.2
  have hu' := tableFromString_tableToString hu.1.2 hu.2.2
  have hkey : tableToString t = tableToString u := h
  rw [hkey] at ht'
  exact ht'.symm.trans hu'

/-! ## Runs -/

/-- What happens to the router of a server: a statement is routed, the monitor reports on a node or
    restarts it, or the server is started again on the same catalog file. -/
inductive RouterEvent where
  | route (statement : Statement) (env : StorageEnv)
  | updateNode (id : String) (state : StorageState)
  | restartNode (id : String) (start : StartOutcome)
  | restart

/-- The table of a routed statement has a qualified name, as the parser and `ApplyDatabase` see to. -/
def RouterEvent.WellNamed : RouterEvent → Prop
  | .route statement _ => ∀ t ∈ statement.tableFromStatement, t.Named
  | _ => True

namespace Router

/-- A server that starts on a catalog file. -/
def start (autoStartStorage : Bool) (file : Option Databases) : Router :=
  { catalog := .load file, registry := .new autoStartStorage, sent := [] }

/-- The router after an event. An exception ends the call, not the server. -/
def step (router : Router) : RouterEvent → Router
  | .route statement env => (route env statement).after router
  | .updateNode id state => (onRegistry (Registry.updateNode id state)).after router
  | .restartNode id start => (onRegistry (Registry.restartNode start id)).after router
  | .restart => start router.registry.autoStartStorage router.catalog.file

/-- The routers of a run, the first one included. -/
def states (router : Router) : List RouterEvent → List Router
  | [] => [router]
  | e :: events => router :: states (router.step e) events

/-! ## Agreement -/

/-- A table is listed in the catalog if and only if the registry has its node. -/
def Agree (router : Router) : Prop :=
  ∀ t : TableRef, t.Named → (router.catalog.hasTable t ↔ router.registry.hasNode (tableKey t))

/-- The tables of the catalog have qualified names. -/
def CatalogNamed (router : Router) : Prop := ∀ t : TableRef, router.catalog.hasTable t → t.Named

/-- The catalog file lists no table. -/
def ListsNoTable (file : Option Databases) : Prop :=
  ∀ t : TableRef, ¬ (Catalog.load file).hasTable t

/-- The event does not meet the defects: a restart finds no table in the catalog file, starting the
    process of a new table does not throw, and no exchange of a `DROP DATABASE` with a node throws. -/
def Safe (router : Router) : RouterEvent → Prop
  | .restart => ListsNoTable router.catalog.file
  | .route (.createTable t columns) env =>
      router.registry.autoStartStorage → router.catalog.Accepts t columns →
        ∀ what, env.startProcess (tableKey t) ≠ .raises what
  | .route (.dropDatabase name) env =>
      ∀ t ∈ router.catalog.tablesOf name, router.Contacts (tableKey t) →
        ∀ what, env.exchange (tableKey t) ≠ .raises what
  | _ => True

/-- Every event of the run is safe where it happens. -/
def SafeRun (router : Router) : List RouterEvent → Prop
  | [] => True
  | e :: events => router.Safe e ∧ SafeRun (router.step e) events

/-- What every state of a safe run has. -/
structure Consistent (router : Router) : Prop where
  agree : router.Agree
  named : router.CatalogNamed

variable {env : StorageEnv} {router router' : Router}

/-- Neither the tables nor the nodes have changed. -/
theorem Consistent.congr (h : router.Consistent)
    (htables : ∀ t, router'.catalog.hasTable t = router.catalog.hasTable t)
    (hnodes : ∀ id, router'.registry.hasNode id = router.registry.hasNode id) :
    router'.Consistent where
  agree t ht := by
    rw [htables t, hnodes (tableKey t)]
    exact h.agree t ht
  named t ht := h.named t ((htables t).symm.trans ht)

/-- Tables that differ are stored at nodes that differ. -/
theorem tableKey_ne {t u : TableRef} (ht : t.Named) (hu : u.Named) (hne : t ≠ u) :
    tableKey t ≠ tableKey u :=
  fun h => hne (tableKey_injective ht hu h)

/-- One table and its node have come or gone together. -/
theorem Consistent.change {u : TableRef} (h : router.Consistent) (hu : u.Named)
    (hself : router'.catalog.hasTable u ↔ router'.registry.hasNode (tableKey u))
    (htables : ∀ t, t ≠ u → router'.catalog.hasTable t = router.catalog.hasTable t)
    (hnodes : ∀ id, id ≠ tableKey u → router'.registry.hasNode id = router.registry.hasNode id) :
    router'.Consistent where
  agree t ht := by
    by_cases hne : t = u
    · rw [hne]
      exact hself
    · rw [htables t hne, hnodes _ (tableKey_ne ht hu hne)]
      exact h.agree t ht
  named t ht := by
    by_cases hne : t = u
    · rwa [hne]
    · exact h.named t ((htables t hne).symm.trans ht)

/-- Sending keeps the catalog and the registry. -/
theorem sendToStorage_consistent {id : String} {statement : Statement} (h : router.Consistent) :
    (sendToStorage env id statement).Post router (fun _ => Consistent) (fun _ => Consistent) := by
  refine sendToStorage_post.mono (fun _ router' hsame => ?_) (fun _ router' hsame => ?_) <;>
  · obtain ⟨hcatalog, hregistry, -⟩ := hsame
    exact h.congr (fun _ => by rw [hcatalog]) (fun _ => by rw [hregistry])

/-! ## Each statement keeps it -/

/-- The nodes of the dropped tables are gone, if no exchange throws. The induction is on the tables. -/
theorem dropTables_post {tables : List TableRef} : ∀ {router : Router},
    (∀ t ∈ tables, router.Contacts (tableKey t) → ∀ what, env.exchange (tableKey t) ≠ .raises what) →
    (dropTables env tables).Post router
      (fun _ router' => router'.catalog = router.catalog ∧ ∀ id,
        router'.registry.hasNode id ↔ router.registry.hasNode id ∧ ∀ t ∈ tables, id ≠ tableKey t)
      (fun _ _ => False) := by
  induction tables with
  | nil => exact fun _ => Post.pure ⟨rfl, fun id => by simp⟩
  | cons t tables ih =>
      intro router hexchange
      refine Post.bind (sendToStorage_post.mono (fun _ router₁ h₁ => ?_) (fun _ _ h => ?_))
      · obtain ⟨hcatalog, hregistry, -⟩ := h₁
        refine Post.bind (Post.on (Registry.dropNode_post.mono (fun _ registry h₂ => ?_)
          (fun _ _ h => h.elim)))
        obtain ⟨hgone, hothers⟩ := h₂
        rw [hregistry] at hothers
        refine (ih (fun u hu hcontacts => ?_)).mono (fun _ router' h => ?_) (fun _ _ h => h)
        · obtain ⟨node, hnode, hstate⟩ := hcontacts
          refine hexchange u (by simp [hu]) ⟨node, ?_, hstate⟩
          rw [← hothers (tableKey u), hnode]
          intro hkey
          refine hgone ?_
          rw [← hkey]
          exact congrArg Option.isSome hnode
        · refine ⟨h.1.trans hcatalog, fun id => (h.2 id).trans ?_⟩
          by_cases hid : id = tableKey t
          · subst hid
            simp [hgone]
          · have hsame : registry.hasNode id = router.registry.hasNode id :=
              Registry.hasNode_congr (hothers id hid)
            simp only [hsame, List.forall_mem_cons]
            tauto
      · obtain ⟨-, -, -, hcontacts, ⟨what, hwhat⟩ | ⟨what, hwhat⟩⟩ := h
        · cases hwhat
        · exact hexchange t (by simp) hcontacts what hwhat

theorem routeCreateTable_consistent {t : TableRef} {columns : List ColumnDef}
    (h : router.Consistent) (ht : t.Named)
    (hstart : router.registry.autoStartStorage → router.catalog.Accepts t columns →
      ∀ what, env.startProcess (tableKey t) ≠ .raises what) :
    (routeCreateTable env t columns).Post router (fun _ => Consistent) (fun _ => Consistent) := by
  refine Post.bind (Post.on (Catalog.createTable_post.mono (fun created catalog hcreated => ?_)
    (fun _ catalog hsame => by rwa [hsame])))
  rcases hcreated with ⟨rfl, rfl⟩ | ⟨rfl, haccepts, hlisted, -, htables⟩
  · exact Post.ite (fun h => absurd h (by simp)) (fun _ => Post.pure h)
  rw [if_pos rfl]
  refine Post.bind (Post.on (Registry.createNode_post.mono (fun registered registry hnode => ?_)
    (fun _ registry hraises => ?_)))
  · obtain ⟨hself, hothers⟩ := hnode
    -- when the table is not to be kept, both entries are taken back
    have hrollback : ∀ router₁ : Router, router₁.catalog = catalog →
        (∀ id, id ≠ tableKey t → router₁.registry.hasNode id = router.registry.hasNode id) →
        ¬ router₁.registry.hasNode (tableKey t) →
        (onCatalog (Catalog.dropTable (env.saved 1) t)).Post router₁ (fun _ => Consistent)
          (fun _ _ => False) := by
      intro router₁ hcatalog hnodes hgone
      refine Post.on (Catalog.dropTable_post.mono (fun _ catalog' hdrop => ?_) (fun _ _ h => h))
      refine h.change ht (iff_of_false hdrop.1 hgone) (fun u hne => ?_) hnodes
      refine Catalog.hasTable_congr ((hdrop.2.2 u hne).trans ?_)
      rw [hcatalog]
      exact htables u hne
    have hnodes : ∀ id, id ≠ tableKey t → registry.hasNode id = router.registry.hasNode id :=
      fun id hne => Registry.hasNode_congr (hothers id hne)
    refine Post.ite (fun hregistered => ?_) (fun hrefused => ?_)
    · have h₂ : Consistent { router with catalog, registry } :=
        h.change ht (iff_of_true hlisted (hself.2 hregistered))
          (fun u hne => Catalog.hasTable_congr (htables u hne)) hnodes
      refine Post.bind (sendToStorage_post.mono (fun response router₃ hsent => ?_)
        (fun _ router₃ hsent => ?_))
      · obtain ⟨hcatalog, hregistry, -⟩ := hsent
        refine Post.ite (fun _ => ?_) (fun _ => Post.pure (h₂.congr (fun _ => by rw [hcatalog])
          (fun _ => by rw [hregistry])))
        refine Post.bind (Post.on (Registry.dropNode_post.mono (fun _ registry' hdrop => ?_)
          (fun _ _ h => h.elim)))
        refine Post.bind ((hrollback { router₃ with registry := registry' } hcatalog
          (fun id hne => ?_) hdrop.1).mono (fun _ _ h => Post.pure h) (fun _ _ h => h.elim))
        refine (Registry.hasNode_congr (hdrop.2 id hne)).trans ?_
        rw [hregistry]
        exact hnodes id hne
      · obtain ⟨hcatalog, hregistry, -⟩ := hsent
        exact h₂.congr (fun _ => by rw [hcatalog]) (fun _ => by rw [hregistry])
    · exact Post.bind ((hrollback { router with catalog, registry } rfl hnodes
        (fun hhas => hrefused (hself.1 hhas))).mono (fun _ _ h => Post.pure h)
        (fun _ _ h => h.elim))
  · obtain ⟨hauto, ⟨what, hwhat⟩, -⟩ := hraises
    exact absurd hwhat (hstart hauto haccepts what)

theorem routeDropTable_consistent {t : TableRef} (h : router.Consistent) (ht : t.Named) :
    (routeDropTable env t).Post router (fun _ => Consistent) (fun _ => Consistent) := by
  refine Post.get_bind (Post.ite (fun _ => Post.pure h) (fun _ => ?_))
  refine Post.bind ((sendToStorage_consistent h).mono (fun response router₁ h₁ => ?_)
    (fun _ _ h => h))
  refine Post.ite (fun _ => ?_) (fun _ => Post.pure h₁)
  refine Post.bind (Post.on (Catalog.dropTable_post.mono (fun _ catalog hcatalog => ?_)
    (fun _ _ h => h.elim)))
  refine Post.bind (Post.on (Registry.dropNode_post.mono (fun _ registry hregistry => ?_)
    (fun _ _ h => h.elim)))
  exact Post.pure (h₁.change ht (iff_of_false hcatalog.1 hregistry.1)
    (fun u hne => Catalog.hasTable_congr (hcatalog.2.2 u hne))
    (fun id hne => Registry.hasNode_congr (hregistry.2 id hne)))

theorem routeDropDatabase_consistent {name : String} (h : router.Consistent)
    (hexchange : ∀ t ∈ router.catalog.tablesOf name, router.Contacts (tableKey t) →
      ∀ what, env.exchange (tableKey t) ≠ .raises what) :
    (route env (.dropDatabase name)).Post router (fun _ => Consistent) (fun _ => Consistent) := by
  refine Post.bind (Post.on (Catalog.dropDatabase_post.mono (fun tables catalog hdrop => ?_)
    (fun _ _ h => h.elim)))
  obtain ⟨-, htables, hmem⟩ := hdrop
  refine Post.bind ((dropTables_post (fun t ht hcontacts what => ?_)).mono
    (fun _ router' hdropped => Post.pure ?_) (fun _ _ h => h.elim))
  · exact hexchange t (Catalog.mem_tablesOf.2 ((hmem t).1 ht)) hcontacts what
  · obtain ⟨hcatalog, hnodes⟩ := hdropped
    have hkept : ∀ t, router'.catalog.hasTable t ↔ router.catalog.hasTable t ∧ t.database ≠ name := by
      intro t
      rw [hcatalog]
      exact htables t
    refine ⟨fun t ht => ?_, fun t ht => h.named t ((hkept t).1 ht).1⟩
    rw [hkept t, hnodes (tableKey t), h.agree t ht]
    refine and_congr_right (fun hnode => ?_)
    constructor
    · rintro hother u hu hkey
      have hsame := tableKey_injective ht (h.named u ((hmem u).1 hu).2) hkey
      exact hother (hsame ▸ ((hmem u).1 hu).1)
    · rintro hother rfl
      exact hother t ((hmem t).2 ⟨rfl, (h.agree t ht).2 hnode⟩) rfl

/-- A statement that is routed keeps the catalog and the registry together. -/
theorem route_consistent {statement : Statement} (h : router.Consistent)
    (hnamed : (RouterEvent.route statement env).WellNamed)
    (hsafe : router.Safe (.route statement env)) :
    (route env statement).Post router (fun _ => Consistent) (fun _ => Consistent) := by
  cases statement with
  | createDatabase name =>
      refine Post.bind (Post.on (Catalog.createDatabase_post.mono (fun created catalog hsame => ?_)
        (fun _ _ h => h.elim)))
      have h₁ : Consistent { router with catalog } :=
        h.congr (fun t => Catalog.hasTable_congr (hsame.2 t)) (fun _ => rfl)
      exact Post.ite (fun _ => Post.pure h₁) (fun _ => Post.pure h₁)
  | dropDatabase name => exact routeDropDatabase_consistent h hsafe
  | useDatabase name =>
      exact Post.get_bind (Post.ite (fun _ => Post.pure h) (fun _ => Post.pure h))
  | createTable t columns => exact routeCreateTable_consistent h (hnamed t rfl) hsafe
  | dropTable t => exact routeDropTable_consistent h (hnamed t rfl)
  | createUser username password => exact Post.pure h
  | grant permissions scope username => exact Post.pure h
  | revoke permissions scope username => exact Post.pure h
  | _ =>
      exact Post.get_bind (Post.ite (fun _ => sendToStorage_consistent h) (fun _ => Post.pure h))

/-! ## Runs keep it -/

theorem updateNode_post {id : String} {state : StorageState} {registry : Registry} :
    (Registry.updateNode id state).Post registry
      (fun _ registry' => ∀ i, registry'.hasNode i = registry.hasNode i) (fun _ _ => False) := by
  refine Post.get_bind ?_
  cases hnode : registry.getNode id with
  | none => exact Post.pure (fun _ => rfl)
  | some node =>
      intro i
      show (AList.lookup i (AList.insert id _ _)).isSome = (AList.lookup i _).isSome
      by_cases h : i = id
      · have hlookup : registry.nodes.lookup id = some node := hnode
        rw [h, AList.lookup_insert, hlookup]
        rfl
      · rw [AList.lookup_insert_ne h]

theorem restartNode_post {id : String} {start : StartOutcome} {registry : Registry} :
    (Registry.restartNode start id).Post registry
      (fun _ registry' => ∀ i, registry'.hasNode i = registry.hasNode i)
      (fun _ registry' => ∀ i, registry'.hasNode i = registry.hasNode i) := by
  have hdown : ∀ registry' : Registry, (∀ i, registry'.hasNode i = registry.hasNode i) →
      ∀ state, (Registry.updateNode id state).Post registry'
        (fun _ registry'' => ∀ i, registry''.hasNode i = registry.hasNode i)
        (fun _ registry'' => ∀ i, registry''.hasNode i = registry.hasNode i) := by
    intro registry' hsame state
    exact updateNode_post.mono (fun _ _ h i => (h i).trans (hsame i)) (fun _ _ h => h.elim)
  refine Post.get_bind ?_
  cases registry.getNode id with
  | none => exact Post.pure (fun _ => rfl)
  | some node =>
      refine Post.get_bind (Post.ite (fun _ => Post.bind ?_)
        (fun _ => Post.bind ((hdown registry (fun _ => rfl) _).mono (fun _ _ h => Post.pure h)
          (fun _ _ h => h))))
      refine Post.get_bind (Post.ite (fun _ => Post.pure ?_) (fun _ => ?_))
      · exact hdown registry (fun _ => rfl) _
      cases start with
      | started => exact hdown registry (fun _ => rfl) _
      | notStarted =>
          exact Post.bind ((hdown registry (fun _ => rfl) _).mono (fun _ _ h => Post.pure h)
            (fun _ _ h => h))
      | raises what => exact Post.throw (fun _ => rfl)

/-- A server that starts without tables in its catalog is consistent. -/
theorem start_consistent {file : Option Databases} (h : ListsNoTable file)
    (autoStartStorage : Bool) : (start autoStartStorage file).Consistent where
  agree t _ := iff_of_false (h t) (by simp [start, Registry.hasNode, Registry.new])
  named t ht := absurd ht (h t)

theorem step_consistent {e : RouterEvent} (h : router.Consistent) (hnamed : e.WellNamed)
    (hsafe : router.Safe e) : (router.step e).Consistent := by
  cases e with
  | route statement env => exact (route_consistent h hnamed hsafe).of_after
  | updateNode id state =>
      refine Post.of_after (Post.on (updateNode_post.mono (fun _ _ hsame => ?_)
        (fun _ _ h => h.elim)))
      exact h.congr (fun _ => rfl) hsame
  | restartNode id start =>
      refine Post.of_after (Post.on (restartNode_post.mono (fun _ _ hsame => ?_)
        (fun _ _ hsame => ?_)))
      · exact h.congr (fun _ => rfl) hsame
      · exact h.congr (fun _ => rfl) hsame
  | restart => exact start_consistent hsafe _

theorem states_consistent {events : List RouterEvent} : ∀ {router : Router}, router.Consistent →
    (∀ e ∈ events, e.WellNamed) → router.SafeRun events →
    ∀ router' ∈ router.states events, router'.Consistent := by
  induction events with
  | nil =>
      intro router h _ _ router' hmem
      rwa [List.mem_singleton.1 hmem]
  | cons e events ih =>
      intro router h hnamed hsafe router' hmem
      rcases List.mem_cons.1 hmem with rfl | hmem
      · exact h
      · exact ih (step_consistent h (hnamed e (by simp)) hsafe.1)
          (fun e he => hnamed e (by simp [he])) hsafe.2 router' hmem

/-- In a run all of whose steps are safe, the catalog and the registry agree in every state. -/
theorem states_agree {autoStartStorage : Bool} {file : Option Databases} {events : List RouterEvent}
    (hfile : ListsNoTable file) (hnamed : ∀ e ∈ events, e.WellNamed)
    (hsafe : (start autoStartStorage file).SafeRun events) :
    ∀ router ∈ (start autoStartStorage file).states events, router.Agree :=
  fun router hmem =>
    (states_consistent (start_consistent hfile autoStartStorage) hnamed hsafe router hmem).agree

/-- Every node starts and answers. -/
def answering : StorageEnv where
  startProcess _ := .started
  exchange _ := .responds (.success "ok")
  saved _ := true

/-- `CREATE DATABASE d;` and `CREATE TABLE d.t (a INT);` -/
def createShop : List RouterEvent :=
  [.route (.createDatabase "d") answering,
    .route (.createTable ⟨"d", "t"⟩ [{ name := "a", columnType := .int }]) answering]

theorem createShop_wellNamed : ∀ e ∈ createShop, e.WellNamed := by
  simp only [createShop, List.forall_mem_cons, RouterEvent.WellNamed,
    Statement.tableFromStatement]
  refine ⟨by simp, ?_, by simp⟩
  rintro t ⟨⟩
  exact ⟨⟨by decide, by decide⟩, by decide, by decide⟩

theorem states_agree_createShop : (createShop.foldl step (start true none)).Agree :=
  have hagree : ∀ router ∈ (start true none).states createShop, router.Agree :=
    states_agree (by simp [ListsNoTable, Catalog.load, Catalog.hasTable]) createShop_wellNamed
      ⟨trivial, fun _ _ _ => by simp [answering], trivial⟩
  hagree _ (by simp [createShop, states])

/-- After a restart the table is in the catalog, and has no node. -/
theorem restart_loses_nodes :
    ¬ ∀ events : List RouterEvent, (∀ e ∈ events, e.WellNamed) →
      ∀ router ∈ (start true none).states events, router.Agree := by
  intro h
  have hnamed : ∀ e ∈ createShop ++ [.restart], e.WellNamed := by
    intro e he
    rcases List.mem_append.1 he with he | he
    · exact createShop_wellNamed e he
    · rw [List.mem_singleton.1 he]
      exact trivial
  have hlast := h _ hnamed _ (List.getLast_mem
    (show (start true none).states (createShop ++ [.restart]) ≠ [] by simp [createShop, states]))
    ⟨"d", "t"⟩ ⟨⟨by decide, by decide⟩, by decide, by decide⟩
  revert hlast
  decide

end Router

end QuasarDB.Server
