import QuasarDB.Server.Proofs.StoreRuns

set_option autoImplicit false

/-! # A calm cluster is exactly one store

As long as the nodes start and answer at their own ports, and none of them is found down, nobody can tell the
cluster from databases in one place, whose tables are opened from their files when their nodes are restarted. -/

namespace QuasarDB.Server

open Core Storage

/-- The databases in one place, where there is nothing to look after. -/
def Store.serve {τ : Type} (ops : TableOps τ) : Service Cluster.Event (Option Response) (Store τ) :=
  fun event store =>
    match event with
    | .route env statement =>
        let (response, store) := store.execute ops env.construction statement
        some (some response, store)
    | .restartNode id _ => some (none, store.reopen ops id)
    | .updateNode _ _ => some (none, store)

namespace Store

variable {τ : Type} {ops : TableOps τ} {store : Store τ}

/-- No node was found down. -/
def AllUp (store : Store τ) : Prop := store.down = fun _ => false

theorem AllUp.execute (h : store.AllUp) (construction : Construction) (statement : Statement) :
    (store.execute ops construction statement).2.AllUp := by
  have hrows : ∀ {t : TableRef}, OnRows t statement → (store.execute ops construction statement).2.AllUp := by
    intro t hrows
    cases htable : store.tables t with
    | none =>
        rw [execute_of_none hrows htable]
        exact h
    | some table =>
        rw [execute_of_some ops construction hrows htable]
        exact h
  cases statement with
  | createDatabase name =>
      rw [Store.execute]
      split <;> exact h
  | createTable t columns =>
      funext u
      by_cases hu : u = t
      · subst hu
        show (store.createTable ops construction u columns).2.down u = false
        unfold createTable
        split
        · split
          · exact congrFun h u
          · split
            · exact congrFun h u
            · exact Function.update_self ..
        · exact congrFun h u
      · exact (sameBut_createTable u hu).2.2.trans (congrFun h u)
  | dropTable t =>
      rw [Store.execute]
      split <;> exact h
  | revert t timestamp => exact hrows (t := t) rfl
  | insert t columns values => exact hrows (t := t) rfl
  | update t assignments whereClause => exact hrows (t := t) rfl
  | delete t whereClause => exact hrows (t := t) rfl
  | select selectAll items t whereClause => exact hrows (t := t) rfl
  | _ => exact h

theorem AllUp.report (h : store.AllUp) (id : String) : store.report id false = store := by
  have hdown : (fun t => if Router.tableKey t = id then false else store.down t) = store.down := by
    rw [h]
    exact funext fun t => ite_self _
  rw [Store.report, hdown]

end Store

namespace Cluster

variable {τ : Type} {ops : TableOps τ} {auto : Bool} {env : ClusterEnv} {cluster : Cluster τ}
  {store store' : Store τ}

/-- What is sent to a node of the registry, or to the one of a new table, gets to this node. -/
def OwnPorts (env : ClusterEnv) (cluster : Cluster τ) (statement : Statement) : Prop :=
  (∀ id, cluster.router.registry.hasNode id = true → cluster.addressee env id = id) ∧
    ∀ t columns, statement = .createTable t columns →
      cluster.addressee env (Router.tableKey t) = Router.tableKey t

/-- The nodes start and answer at their ports, the indexes of a new table are opened, and no node is found
    down. -/
def Calm (auto : Bool) (cluster : Cluster τ) : Event → Prop
  | .route env statement =>
      (∀ id, env.link id = .answers ∧ (auto = true → env.startProcess id = .started)) ∧
        env.construction.indexes = none ∧ cluster.OwnPorts env statement
  | .updateNode _ state => state ≠ .down
  | .restartNode _ start => auto = true ∧ start = .started

/-- Every event of the run is calm where it happens. -/
def CalmRun (auto : Bool) (ops : TableOps τ) (cluster : Cluster τ) : List Event → Prop
  | [] => True
  | e :: events => cluster.Calm auto e ∧ CalmRun auto ops (cluster.step ops e) events

theorem OwnPorts.direct {statement : Statement} {t : TableRef} (h : cluster.OwnPorts env statement) :
    cluster.Direct env t := by
  intro hcontacts _
  obtain ⟨node, hnode, -⟩ := hcontacts
  exact h.1 _ (Option.isSome_iff_exists.2 ⟨node, hnode⟩)

theorem Shows.gentle {e : Event} (h : cluster.Shows auto store) (hup : store.AllUp)
    (hcalm : cluster.Calm auto e) : cluster.Gentle e := by
  cases e with
  | updateNode id state => trivial
  | restartNode id start => trivial
  | route env statement =>
      obtain ⟨hcalm, hindexes, hports⟩ := hcalm
      cases statement with
      | createTable t columns =>
          intro _
          obtain ⟨hlink, hstarts⟩ := hcalm (Router.tableKey t)
          rw [hlink]
          refine ⟨fun hauto what hraises => ?_, Link.noConfusion, fun _ _ => Link.noConfusion, hindexes,
            fun _ => hports.2 t columns rfl⟩
          rw [hstarts (h.auto.symm.trans hauto)] at hraises
          cases hraises
      | dropTable t => exact fun _ => ⟨hports.direct, fun _ _ => (hcalm _).1⟩
      | dropDatabase name =>
          intro t ht
          have hlisted := (Catalog.mem_tablesOf.1 ht).2
          have hat := h.table t (h.identified t hlisted)
          obtain ⟨table, htable⟩ := Option.isSome_iff_exists.1 (hat.listed.symm.trans hlisted)
          have hcontacts : cluster.router.Contacts (Router.tableKey t) := by
            refine contacts_iff.2 ?_
            rw [hat.down, htable, hup]
            rfl
          refine ⟨hcontacts, .inl (hcalm _).1, hports.direct hcontacts ?_⟩
          rw [(hcalm _).1]
          rfl
      | _ => exact fun _ _ _ => hports.direct

theorem not_trouble {statement : Statement} (hup : store.AllUp)
    (hcalm : ∀ id, env.link id = .answers ∧ (auto = true → env.startProcess id = .started)) :
    ¬ store.Trouble auto env statement := by
  have hrows : ∀ t : TableRef, ¬ (store.down t = true ∨ env.link (Router.tableKey t) ≠ .answers) := by
    rintro t (hdown | hlink)
    · rw [hup] at hdown
      cases hdown
    · exact hlink (hcalm _).1
  cases statement with
  | createTable t columns =>
      rintro (⟨hauto, hstarts⟩ | hlink)
      · exact hstarts ((hcalm _).2 hauto)
      · exact hlink (hcalm _).1
  | _ =>
      rintro ⟨t, -, htrouble⟩
      exact hrows t htrouble

/-- What a store may make of a calm event is what it does. -/
theorem exactly_of_effect {e : Event} {answer : Option Response} (hup : store.AllUp)
    (hcalm : cluster.Calm auto e) (heffect : Store.Effect auto ops e store answer store') :
    Store.serve ops e store = some (answer, store') ∧ store'.AllUp := by
  cases e with
  | route env statement =>
      obtain ⟨response, rfl, hexecute | ⟨-, htrouble, -⟩⟩ := heffect
      · obtain ⟨rfl, rfl⟩ := Prod.mk.inj hexecute
        exact ⟨rfl, hup.execute env.construction statement⟩
      · exact absurd htrouble (not_trouble hup hcalm.1)
  | updateNode id state =>
      obtain ⟨rfl, rfl⟩ := heffect
      rw [decide_eq_false hcalm, hup.report]
      exact ⟨rfl, hup⟩
  | restartNode id start =>
      obtain ⟨rfl, rfl⟩ := hcalm
      obtain ⟨rfl, rfl⟩ := heffect
      have hopened : (store.reopen ops id).AllUp := hup
      show Store.serve ops (.restartNode id .started) store =
        some (none, (store.reopen ops id).report id false) ∧
        ((store.reopen ops id).report id false).AllUp
      rw [hopened.report]
      exact ⟨rfl, hopened⟩

/-- A cluster that answers an event has taken its step. -/
theorem step_of_serve {e : Event} {answer : Option Response} {cluster' : Cluster τ}
    (h : serve ops e cluster = some (answer, cluster')) : cluster' = cluster.step ops e := by
  cases e with
  | route env statement =>
      unfold serve at h
      dsimp only at h
      split at h
      · cases h
        rfl
      · cases h
        rfl
      · cases h
  | updateNode id state =>
      cases h
      rfl
  | restartNode id start =>
      cases h
      rfl

/-- A calm cluster answers every run of events exactly as databases in one place do. -/
theorem run_calm {events : List Event} (hsendable : ∀ e ∈ events, e.Sendable)
    (hcalm : (new auto : Cluster τ).CalmRun auto ops events) :
    ∃ answers cluster store, (serve ops).run events (new auto : Cluster τ) = some (answers, cluster) ∧
      (Store.serve ops).run events Store.empty = some (answers, store) ∧ cluster.Shows auto store := by
  have hrefines : Service.Refines (serve ops) (Service.exactly (Store.serve ops))
      (fun (cluster : Cluster τ) store => cluster.Shows auto store ∧ store.AllUp)
      (fun events cluster _ => (∀ e ∈ events, e.Sendable) ∧ cluster.CalmRun auto ops events) := by
    constructor
    rintro e later cluster store ⟨hshows, hup⟩ ⟨hsendable, hquiet, hcalm⟩
    obtain ⟨hfirst, hsendable⟩ := List.forall_mem_cons.1 hsendable
    obtain ⟨answer, cluster', store', hserve, heffect, hshows', -⟩ :=
      @Service.Refines.step _ _ _ _ _ _ _ _ (serve_refines auto ops) e [] cluster store hshows
        ⟨List.forall_mem_singleton.2 hfirst, hshows.gentle hup hquiet, trivial⟩
    obtain ⟨hexactly, hup'⟩ := exactly_of_effect hup hquiet heffect
    have hnext : cluster' = cluster.step ops e := step_of_serve hserve
    subst hnext
    exact ⟨answer, _, store', hserve, hexactly, ⟨hshows', hup'⟩, hsendable, hcalm⟩
  obtain ⟨answers, cluster, store, hrun, hallows, hshows, -⟩ :=
    hrefines.run ⟨new_shows auto, rfl⟩ ⟨hsendable, hcalm⟩
  exact ⟨answers, cluster, store, hrun, Service.run_of_allows hallows, hshows⟩

/-- A table that is created, filled and dropped with its database. -/
def shop : List Event :=
  [.route answering (.createDatabase "d"), .route answering createOrders, .updateNode "d.t" .up,
    .route answering (.insert ⟨"d", "t"⟩ ["a"] [[⟨.integer, "1"⟩]]), .restartNode "d.t" .started,
    .route answering (.dropDatabase "d")]

/-- No two nodes share a port. -/
theorem answering_calm (auto : Bool) (cluster : Cluster τ) (statement : Statement) :
    cluster.Calm auto (.route answering statement) :=
  ⟨fun _ => ⟨rfl, fun _ => rfl⟩, rfl, fun _ _ => rfl, fun _ _ _ => rfl⟩

theorem run_calm_shop : ∃ answers cluster store,
    (serve blank).run shop (new true) = some (answers, cluster) ∧
      (Store.serve blank).run shop Store.empty = some (answers, store) ∧ cluster.Shows true store := by
  refine run_calm ?_ ⟨answering_calm .., answering_calm .., StorageState.noConfusion, answering_calm ..,
    ⟨rfl, rfl⟩, answering_calm .., trivial⟩
  simp only [shop, List.forall_mem_cons, Event.Sendable, createOrders, Statement.tableFromStatement]
  refine ⟨by simp, ?_, trivial, ?_, trivial, by simp, by simp⟩ <;>
  · rintro t ⟨⟩
    exact ⟨identified_orders, _, rfl⟩

end Cluster

end QuasarDB.Server
