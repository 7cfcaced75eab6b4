import QuasarDB.Server.Proofs.StoreSteps

set_option autoImplicit false

/-! # A cluster is one store

What the catalog lists, what the registry knows and what the nodes hold are the databases of one store: the
cluster answers every run as these do, but for the errors of statements whose node is in trouble. -/

namespace QuasarDB.Server

open Core Prog Storage

namespace Store

variable {τ : Type} {ops : TableOps τ} {construction : Construction} {store store' : Store τ}
  {t : TableRef} {table : τ} {columns : List ColumnDef}

/-- What the node of a table holds. -/
def shard (store : Store τ) (t : TableRef) : Shard τ where
  table := (store.tables t).map fun table => (t.table, table)
  dataLeft := store.spoiled t

/-- Only one table differs. -/
def SameBut (t : TableRef) (store store' : Store τ) : Prop :=
  ∀ u, u ≠ t → store'.tables u = store.tables u ∧ store'.spoiled u = store.spoiled u ∧
    store'.down u = store.down u

theorem sameBut_refl : SameBut t store store := fun _ _ => ⟨rfl, rfl, rfl⟩

theorem sameBut_tables (after : Option τ) :
    SameBut t store { store with tables := Function.update store.tables t after } :=
  fun _ hu => ⟨Function.update_of_ne hu .., rfl, rfl⟩

theorem sameBut_createTable : SameBut t store (store.createTable ops construction t columns).2 := by
  unfold createTable
  split
  · split
    · exact sameBut_refl
    · split
      · exact fun _ hu => ⟨rfl, Function.update_of_ne hu .., rfl⟩
      · exact fun _ hu => ⟨Function.update_of_ne hu .., rfl, Function.update_of_ne hu ..⟩
  · exact sameBut_refl

theorem databases_createTable :
    (store.createTable ops construction t columns).2.databases = store.databases := by
  unfold createTable
  split
  · split
    · rfl
    · split <;> rfl
  · rfl

theorem shard_of_none (hnone : store.tables t = none) : store.shard t = { dataLeft := store.spoiled t } := by
  rw [shard, hnone]
  rfl

/-- The node of a new table answers as the databases do, and holds what they hold, if its indexes are
    opened. -/
theorem createTable_shard (ops : TableOps τ) (columns : List ColumnDef)
    (hnew : store.databases t.database = true) (hnone : store.tables t = none)
    (hindexes : construction.indexes = none) :
    (store.shard t).executeAst ops construction (.createTable t columns) =
      ((store.createTable ops construction t columns).1,
        (store.createTable ops construction t columns).2.shard t) := by
  have hcreates : store.databases t.database && (store.tables t).isNone := by rw [hnew, hnone]; rfl
  have hempty : ¬ ({ dataLeft := store.spoiled t } : Shard τ).table.isSome = true := Bool.false_ne_true
  rw [shard_of_none hnone, Store.createTable, if_pos hcreates]
  show Shard.createTable ops construction t columns _ = _
  rw [Shard.createTable, if_neg hempty, hindexes]
  dsimp only
  cases hprepare : construction.prepare t columns (store.spoiled t) with
  | error what => exact congrArg _ (shard_of_none hnone).symm
  | ok schema =>
      have hclean : store.spoiled t = false := (Construction.prepare_ok hprepare).2
      dsimp only
      cases construction.saveSchema schema with
      | error what => simp [shard, hnone]
      | ok saved => simp [shard, hclean]

/-- A table is created, or the answer is an error. -/
theorem createTable_cases (ops : TableOps τ) (construction : Construction) (columns : List ColumnDef)
    (hnew : store.databases t.database = true) (hnone : store.tables t = none) :
    ((store.createTable ops construction t columns).1.isError = true ∧
        (store.createTable ops construction t columns).2.tables = store.tables) ∨
      ((store.createTable ops construction t columns).1.isError = false ∧
        ((store.createTable ops construction t columns).2.tables t).isSome = true ∧
        (store.createTable ops construction t columns).2.down t = false ∧
        (store.createTable ops construction t columns).2.spoiled t = false) := by
  have hcreates : store.databases t.database && (store.tables t).isNone := by rw [hnew, hnone]; rfl
  rw [createTable, if_pos hcreates]
  cases hprepare : construction.prepare t columns (store.spoiled t) with
  | error what => exact .inl ⟨rfl, rfl⟩
  | ok schema =>
      dsimp only
      cases construction.saveSchema schema with
      | error what => exact .inl ⟨rfl, rfl⟩
      | ok saved =>
          refine .inr ⟨rfl, ?_, ?_, (Construction.prepare_ok hprepare).2⟩ <;> simp

/-- The databases without a new table, whatever is left of it. -/
structure Lacks (t : TableRef) (store store' : Store τ) : Prop where
  none : store'.tables t = none
  databases : store'.databases = store.databases
  others : SameBut t store store'

/-- A statement on the rows of a table. -/
def OnRows (t : TableRef) : Statement → Prop
  | .createTable _ _ | .dropTable _ => False
  | statement => statement.tableFromStatement = some t

theorem execute_of_some (ops : TableOps τ) (construction : Construction) {statement : Statement}
    (hrows : OnRows t statement) (htable : store.tables t = some table) :
    store.execute ops construction statement = ((ops.execute statement table).1,
      { store with tables := Function.update store.tables t (some (ops.execute statement table).2) }) := by
  cases statement with
  | createTable u columns => exact hrows.elim
  | dropTable u => exact hrows.elim
  | _ => cases hrows <;> simp only [execute, Statement.tableFromStatement, htable]

theorem execute_of_none {statement : Statement} (hrows : OnRows t statement)
    (htable : store.tables t = none) :
    store.execute ops construction statement =
      (.error ("Table not found: " ++ Router.tableKey t), store) := by
  cases statement with
  | createTable u columns => exact hrows.elim
  | dropTable u => exact hrows.elim
  | _ => cases hrows <;> simp only [execute, Statement.tableFromStatement, htable]

theorem executeAst_shard (ops : TableOps τ) (construction : Construction) {statement : Statement}
    (hrows : OnRows t statement) (htable : store.tables t = some table) :
    (store.shard t).executeAst ops construction statement =
      ((store.execute ops construction statement).1,
        (store.execute ops construction statement).2.shard t) := by
  have hshard : store.shard t = { table := some (t.table, table), dataLeft := store.spoiled t } := by
    rw [shard, htable]
    rfl
  rw [execute_of_some ops construction hrows htable, hshard]
  simp only [shard, Function.update_self, Option.map_some]
  cases statement with
  | createTable u columns => exact hrows.elim
  | dropTable u => exact hrows.elim
  | _ => cases hrows <;> rfl

/-- Opening the directory of a table anew is what a restart does to the table. -/
theorem shard_reopen (ops : TableOps τ) (id : String) (store : Store τ) (t : TableRef) :
    (store.reopen ops id).shard t =
      if Router.tableKey t = id then (store.shard t).opened ops else store.shard t := by
  unfold reopen shard
  dsimp only
  by_cases hid : Router.tableKey t = id
  · rw [if_pos hid, if_pos hid]
    cases store.tables t <;> rfl
  · rw [if_neg hid, if_neg hid]

end Store

namespace Cluster

variable {τ : Type} {ops : TableOps τ} {auto : Bool} {env : ClusterEnv} {cluster : Cluster τ}
  {store store' : Store τ} {t : TableRef} {router : Router} {shards : List (List Char) → Shard τ}

/-! ## The relation -/

/-- What the cluster knows of a table is what the store does. -/
structure ShowsAt (router : Router) (shard : Shard τ) (store : Store τ) (t : TableRef) : Prop where
  listed : router.catalog.hasTable t = (store.tables t).isSome
  down : router.registry.down (Router.tableKey t) = (store.tables t).map fun _ => store.down t
  shard : shard = store.shard t
  clean : (store.tables t).isSome = true → store.spoiled t = false

structure Shows (auto : Bool) (cluster : Cluster τ) (store : Store τ) : Prop where
  auto : cluster.router.registry.autoStartStorage = auto
  databases : cluster.router.catalog.hasDatabase = store.databases
  identified : ∀ t, cluster.router.catalog.hasTable t = true → t.Identified
  /-- Only nodes of tables are registered. -/
  registered : ∀ id, cluster.router.registry.down id ≠ none →
    ∃ t : TableRef, t.Identified ∧ Router.tableKey t = id
  table : ∀ t, t.Identified → ShowsAt cluster.router (cluster.shard (Router.tableKey t)) store t

/-- At most one table has changed. -/
theorem Shows.change (h : cluster.Shows auto store) (ht : t.Identified)
    (hauto : router.registry.autoStartStorage = auto)
    (hdatabases : router.catalog.hasDatabase = store'.databases)
    (hlisted : ∀ u, u ≠ t → router.catalog.hasTable u = cluster.router.catalog.hasTable u)
    (hdown : ∀ id, id ≠ Router.tableKey t →
      router.registry.down id = cluster.router.registry.down id)
    (hshards : ∀ dir, dir ≠ dataDirFor (Router.tableKey t) → shards dir = cluster.shards dir)
    (hstore : Store.SameBut t store store')
    (hat : ShowsAt router (shards (dataDirFor (Router.tableKey t))) store' t) :
    Shows auto { router, shards } store' where
  auto := hauto
  databases := hdatabases
  identified u hu := by
    by_cases hne : u = t
    · rwa [hne]
    · exact h.identified u ((hlisted u hne).symm.trans hu)
  registered id hid := by
    by_cases hne : id = Router.tableKey t
    · exact ⟨t, ht, hne.symm⟩
    · exact h.registered id (hdown id hne ▸ hid)
  table u hu := by
    by_cases hne : u = t
    · rw [hne]
      exact hat
    · obtain ⟨htables, hspoiled, hisDown⟩ := hstore u hne
      have hkey : Router.tableKey u ≠ Router.tableKey t :=
        fun heq => hne (tableKey_injective hu.named ht.named heq)
      have hdir : dataDirFor (Router.tableKey u) ≠ dataDirFor (Router.tableKey t) :=
        fun heq => hne (dataDirFor_injective hu ht heq)
      have hu := h.table u hu
      constructor
      · rw [htables, ← hu.listed]
        exact hlisted u hne
      · rw [htables, hisDown, ← hu.down]
        exact hdown _ hkey
      · show shards (dataDirFor (Router.tableKey u)) = _
        rw [hshards _ hdir, Store.shard, htables, hspoiled]
        exact hu.shard
      · rw [htables, hspoiled]
        exact hu.clean

/-- Nothing that shows has changed. -/
theorem Shows.congr (h : cluster.Shows auto store)
    (hauto : router.registry.autoStartStorage = cluster.router.registry.autoStartStorage)
    (hdatabases : router.catalog.hasDatabase = cluster.router.catalog.hasDatabase)
    (hlisted : router.catalog.hasTable = cluster.router.catalog.hasTable)
    (hdown : router.registry.down = cluster.router.registry.down) :
    Shows auto { router, shards := cluster.shards } store where
  auto := hauto.trans h.auto
  databases := hdatabases.trans h.databases
  identified t ht := h.identified t ((congrFun hlisted t).symm.trans ht)
  registered id hid := h.registered id (congrFun hdown id ▸ hid)
  table t ht := by
    have hat := h.table t ht
    exact ⟨(congrFun hlisted t).trans hat.listed, (congrFun hdown _).trans hat.down, hat.shard, hat.clean⟩

/-! ## What a call leaves behind -/

variable {statement : Statement} {response : Response}

theorem left_of_unsent (hopen : cluster.Unopened ops env statement router)
    (h : router.sent = cluster.router.sent) :
    cluster.left ops env statement router = { router, shards := cluster.shards } :=
  left_of_sent [] hopen h

/-- A node carries out what is delivered to it, if the link lets it act. -/
theorem foldl_delivered {before : Router} {id : String}
    (hown : before.registry.down id = some false → (env.link id).Acts = true →
      cluster.addressee env id = id) :
    (before.delivered (env.link id) id statement).reverse.foldl (carryOut ops env (cluster.addressee env))
        cluster.shards =
      if before.registry.down id = some false ∧ (env.link id).Acts = true then
        Function.update cluster.shards (dataDirFor id)
          ((cluster.shard id).executeAst ops env.construction statement).2
      else cluster.shards := by
  unfold Router.delivered
  by_cases hdelivered : before.registry.down id = some false ∧ (env.link id).Delivers = true
  · rw [if_pos hdelivered, foldl_single (hown hdelivered.1), carried]
    by_cases hacts : (env.link id).Acts = true
    · rw [if_pos hacts, if_pos ⟨hdelivered.1, hacts⟩]
    · rw [if_neg hacts, if_neg fun h => hacts h.2]
      exact Function.update_eq_self ..
  · have hnot : ¬ (before.registry.down id = some false ∧ (env.link id).Acts = true) := by
      rintro ⟨hup, hacts⟩
      refine hdelivered ⟨hup, ?_⟩
      cases hlink : env.link id <;> rw [hlink] at hacts <;> first | rfl | cases hacts
    rw [if_neg hdelivered, if_neg hnot]
    rfl

/-- The statement has come out as it may, and the cluster shows the store after it. -/
def Answered (auto : Bool) (ops : TableOps τ) (env : ClusterEnv) (statement : Statement)
    (cluster : Cluster τ) (store : Store τ) (response : Response) (router : Router) : Prop :=
  ∃ store', store.Outcome auto ops env statement response store' ∧
    (cluster.left ops env statement router).Shows auto store'

/-- The statement is answered, by a response or by an exception. -/
def Answers (auto : Bool) (ops : TableOps τ) (env : ClusterEnv) (statement : Statement)
    (cluster : Cluster τ) (store : Store τ) (x : Prog Router Response) : Prop :=
  x.Post cluster.router (Answered auto ops env statement cluster store) fun e router =>
    ∃ what, e = .exception what ∧ Answered auto ops env statement cluster store (.error what) router

/-- A statement that changes nothing that shows, and is answered as by the store. -/
theorem Shows.answers_pure (h : cluster.Shows auto store)
    (hexecute : store.execute ops env.construction statement = (response, store)) :
    Answers auto ops env statement cluster store (pure response) := by
  refine Post.pure ⟨store, .inl hexecute.symm, ?_⟩
  rw [left_of_unsent (.inl rfl) rfl]
  exact h

/-- What is left when a statement was sent to the node of a table. -/
theorem left_of_delivered (before : Router) (hopen : cluster.Unopened ops env statement router)
    (hown : before.registry.down (Router.tableKey t) = some false →
      (env.link (Router.tableKey t)).Acts = true →
        cluster.addressee env (Router.tableKey t) = Router.tableKey t)
    (hsent : router.sent = before.delivered (env.link (Router.tableKey t)) (Router.tableKey t) statement ++
      cluster.router.sent) :
    cluster.left ops env statement router = ⟨router,
      if before.registry.down (Router.tableKey t) = some false ∧
          (env.link (Router.tableKey t)).Acts = true then
        Function.update cluster.shards (dataDirFor (Router.tableKey t))
          ((cluster.shard (Router.tableKey t)).executeAst ops env.construction statement).2
      else cluster.shards⟩ := by
  rw [left_of_sent _ hopen hsent, foldl_delivered hown]

/-- A node that gets its request itself answers it. -/
theorem reply_of_own {id : String} {m : Statement}
    (hopening : cluster.opening ops env statement = cluster.shards) (hown : cluster.addressee env id = id)
    (hrequest : cluster.requestFor statement id = m) :
    cluster.reply ops env statement id = ((cluster.shard id).executeAst ops env.construction m).1 := by
  rw [reply, hown, hopening, hrequest]
  rfl

/-- The router, when a statement was sent to the node of a table, as far as this could be done. -/
def told (env : ClusterEnv) (t : TableRef) (statement : Statement) (router : Router) : Router :=
  { router with
    sent := router.delivered (env.link (Router.tableKey t)) (Router.tableKey t) statement ++ router.sent }

/-- Whether a node is contacted is seen from the registry. -/
theorem contacts_iff {id : String} : router.Contacts id ↔ router.registry.down id = some false := by
  rw [Router.Contacts, Registry.down, Option.map_eq_some_iff]
  simp only [decide_eq_false_iff_not]

/-- A statement that acts on the node of a table gets to this node, and not to another one at its port. -/
def Direct (env : ClusterEnv) (cluster : Cluster τ) (t : TableRef) : Prop :=
  cluster.router.Contacts (Router.tableKey t) → (env.link (Router.tableKey t)).Acts = true →
    cluster.addressee env (Router.tableKey t) = Router.tableKey t

/-! ## Statements on rows -/

theorem opening_of_rows (hrows : Store.OnRows t statement) :
    cluster.opening ops env statement = cluster.shards := by
  cases statement with
  | createTable u columns => exact hrows.elim
  | _ => rfl

theorem Shows.sendRows {table : τ} (h : cluster.Shows auto store) (ht : t.Identified)
    (hrows : Store.OnRows t statement) (htable : store.tables t = some table)
    (hencodable : ∃ ast, serializeAst statement = .ok ast)
    (hrequest : cluster.requestFor statement (Router.tableKey t) = statement)
    (hdirect : cluster.Direct env t) :
    Answers auto ops env statement cluster store
      (Router.sendToStorage (cluster.storageEnv ops env statement) (Router.tableKey t) statement) := by
  have hat := h.table t ht
  have hopening : cluster.opening ops env statement = cluster.shards := opening_of_rows hrows
  have hshard := Store.executeAst_shard ops env.construction hrows htable
  rw [← hat.shard] at hshard
  have hexecute := Store.execute_of_some ops env.construction hrows htable
  have hdown : cluster.router.registry.down (Router.tableKey t) = some (store.down t) := by
    rw [hat.down, htable]
    rfl
  -- the cluster with the statement sent, and carried out or not
  have hleft : (cluster.left ops env statement (told env t statement cluster.router)).Shows auto
      (if store.down t = false ∧ (env.link (Router.tableKey t)).Acts = true then
        (store.execute ops env.construction statement).2 else store) := by
    rw [left_of_delivered cluster.router (.inr hopening)
      (fun hup hacts => hdirect (contacts_iff.2 hup) hacts) rfl, hdown]
    simp only [Option.some.injEq]
    by_cases hacts : store.down t = false ∧ (env.link (Router.tableKey t)).Acts = true
    · rw [if_pos hacts, if_pos hacts, hshard]
      refine h.change ht h.auto ?_ (fun _ _ => rfl) (fun _ _ => rfl)
        (fun dir hdir => Function.update_of_ne hdir ..) ?_ ?_
      · rw [hexecute]
        exact h.databases
      · rw [hexecute]
        exact Store.sameBut_tables _
      · rw [Function.update_self, hexecute]
        constructor
        · exact hat.listed.trans (by simp [htable])
        · exact hat.down.trans (by simp [htable])
        · rfl
        · exact fun _ => hat.clean (by rw [htable]; rfl)
    · rw [if_neg hacts, if_neg hacts]
      exact h.congr rfl rfl rfl rfl
  -- whatever the link does, an error is one of a statement in trouble
  have htrouble : ∀ {response : Response}, response.isError = true →
      ¬ (store.down t = false ∧ env.link (Router.tableKey t) = .answers) →
      Answered auto ops env statement cluster store response (told env t statement cluster.router) := by
    intro response herror hnot
    refine ⟨_, .inr ⟨herror, ?_, ?_⟩, hleft⟩
    · have htarget : statement.tableFromStatement = some t := by
        cases statement <;> first | exact hrows | exact hrows.elim
      have hin : store.down t = true ∨ env.link (Router.tableKey t) ≠ .answers := by
        by_contra hneither
        rw [not_or, not_not, Bool.not_eq_true] at hneither
        exact hnot hneither
      cases statement with
      | createTable u columns => exact hrows.elim
      | _ => exact ⟨t, htarget, hin⟩
    · split
      · exact .inr rfl
      · exact .inl rfl
  refine (Router.sendToStorage_exchanges rfl hencodable).mono (fun response router hresponse => ?_)
    (fun e router hraised => ?_)
  · obtain ⟨rfl, hresponse⟩ := hresponse
    rw [hdown] at hresponse
    simp only [Option.some.injEq] at hresponse
    by_cases hanswers : store.down t = false ∧ env.link (Router.tableKey t) = .answers
    · have hown := hdirect (contacts_iff.2 (hanswers.1 ▸ hdown)) (by rw [hanswers.2]; rfl)
      rw [if_pos hanswers, reply_of_own hopening hown hrequest, hshard] at hresponse
      refine ⟨_, .inl (Prod.ext hresponse ?_), hleft⟩
      rw [hanswers.2, if_pos ⟨hanswers.1, rfl⟩]
    · rw [if_neg hanswers] at hresponse
      exact htrouble hresponse hanswers
  · obtain ⟨acted, what, rfl, hlink, rfl⟩ := hraised
    refine ⟨what, rfl, htrouble rfl ?_⟩
    rw [hlink]
    exact fun h => Link.noConfusion h.2

/-! ## Tables -/

/-- The event does not meet the defects: starting the process of a new table does not throw, a `CREATE TABLE`
    or a `DROP TABLE` is not carried out without being answered, the indexes of a new table are opened,
    `DROP DATABASE` gets through to the nodes of its tables, and what is sent to a node gets to this node. -/
def Gentle (cluster : Cluster τ) : Event → Prop
  | .route env (.createTable t columns) =>
      cluster.router.catalog.Accepts t columns →
        (cluster.router.registry.autoStartStorage = true →
          ∀ what, env.startProcess (Router.tableKey t) ≠ .raises what) ∧
        env.link (Router.tableKey t) ≠ .lost true ∧
        (∀ acted what, env.link (Router.tableKey t) ≠ .raises acted what) ∧
        env.construction.indexes = none ∧
        (env.link (Router.tableKey t) = .answers →
          cluster.addressee env (Router.tableKey t) = Router.tableKey t)
  | .route env (.dropTable t) =>
      cluster.router.catalog.hasTable t = true → cluster.Direct env t ∧
        (cluster.router.Contacts (Router.tableKey t) →
          (env.link (Router.tableKey t)).Acts = true → env.link (Router.tableKey t) = .answers)
  | .route env (.dropDatabase name) =>
      ∀ t ∈ cluster.router.catalog.tablesOf name, cluster.router.Contacts (Router.tableKey t) ∧
        (env.link (Router.tableKey t) = .answers ∨ env.link (Router.tableKey t) = .lost true) ∧
        cluster.addressee env (Router.tableKey t) = Router.tableKey t
  | .route env statement =>
      ∀ t, statement.tableFromStatement = some t → cluster.router.catalog.hasTable t = true →
        cluster.Direct env t
  | _ => True

theorem isSuccess_of_isError {response : Response} (h : response.isError = true) :
    response.isSuccess = false := by
  have herror : response.status = "error" := by simpa [Response.isError] using h
  rw [Response.isSuccess, herror]
  decide

/-- A `DROP TABLE` that is not answered has not been carried out. -/
theorem Shows.undropped {table : τ} (h : cluster.Shows auto store) (ht : t.Identified)
    (htable : store.tables t = some table) (hdirect : cluster.Direct env t)
    (hanswered : cluster.router.Contacts (Router.tableKey t) →
      (env.link (Router.tableKey t)).Acts = true → env.link (Router.tableKey t) = .answers)
    (herror : response.isError = true)
    (hnot : ¬ (store.down t = false ∧ env.link (Router.tableKey t) = .answers)) :
    Answered auto ops env (.dropTable t) cluster store response
      (told env t (.dropTable t) cluster.router) := by
  have hdown : cluster.router.registry.down (Router.tableKey t) = some (store.down t) := by
    rw [(h.table t ht).down, htable]
    rfl
  refine ⟨store, .inr ⟨herror, ⟨t, rfl, ?_⟩, .inl rfl⟩, ?_⟩
  · by_contra hneither
    rw [not_or, not_not, Bool.not_eq_true] at hneither
    exact hnot hneither
  · rw [left_of_delivered cluster.router (.inr rfl)
      (fun hup hacts => hdirect (contacts_iff.2 hup) hacts) rfl, if_neg]
    · exact h.congr rfl rfl rfl rfl
    · rintro ⟨hup, hacts⟩
      refine hnot ⟨?_, hanswered (contacts_iff.2 hup) hacts⟩
      rw [hdown] at hup
      exact Option.some.inj hup

/-- What a node that has the table answers to `DROP TABLE`, and is left with. -/
theorem ShowsAt.executeAst_drop {table : τ} {shard : Shard τ} {construction : Construction}
    (h : ShowsAt router shard store t) (htable : store.tables t = some table) :
    shard.executeAst ops construction (.dropTable t) = (.success "Table shard dropped" Shard.noRows, {}) := by
  rw [h.shard, Store.shard, htable]
  exact if_pos rfl

/-- One that is answered has dropped the table, which is then taken off the catalog with its node. -/
theorem Shows.tableDropped {table : τ} {catalog : Catalog} {registry : Registry} (h : cluster.Shows auto store)
    (ht : t.Identified) (htable : store.tables t = some table) (hdirect : cluster.Direct env t)
    (hup : store.down t = false) (hlink : env.link (Router.tableKey t) = .answers)
    (hdatabases : catalog.hasDatabase = cluster.router.catalog.hasDatabase)
    (htables : catalog.hasTable = Function.update cluster.router.catalog.hasTable t false)
    (hauto : registry.autoStartStorage = cluster.router.registry.autoStartStorage)
    (hdowns : ∀ i, registry.down i =
      if i = Router.tableKey t then none else cluster.router.registry.down i) :
    Answered auto ops env (.dropTable t) cluster store (.success "Table shard dropped" Shard.noRows)
      { told env t (.dropTable t) cluster.router with catalog, registry } := by
  have hat := h.table t ht
  have hclean : store.spoiled t = false := hat.clean (by rw [htable]; rfl)
  have hexecute : store.execute ops env.construction (.dropTable t) =
      (.success "Table shard dropped" Shard.noRows,
        { store with tables := Function.update store.tables t none }) := by
    rw [Store.execute, htable]
    rfl
  refine ⟨_, .inl hexecute.symm, ?_⟩
  rw [@left_of_delivered _ ops env cluster t _ _ cluster.router (.inr rfl)
    (fun hup hacts => hdirect (contacts_iff.2 hup) hacts) rfl, if_pos, hat.executeAst_drop htable]
  · refine h.change ht (hauto.trans h.auto) (hdatabases.trans h.databases) (fun u hu => ?_)
      (fun id hid => (hdowns id).trans (if_neg hid)) (fun dir hdir => Function.update_of_ne hdir ..)
      (Store.sameBut_tables _) ?_
    · exact (congrFun htables u).trans (Function.update_of_ne hu ..)
    · rw [Function.update_self]
      constructor
      · exact (congrFun htables t).trans (by simp)
      · exact (hdowns _).trans (by simp)
      · simp [Store.shard, hclean]
      · exact fun _ => hclean
  · rw [hat.down, htable, hlink]
    exact ⟨congrArg some hup, rfl⟩

theorem Shows.dropTable (h : cluster.Shows auto store) (ht : t.Identified)
    (hgentle : cluster.Gentle (.route env (.dropTable t))) :
    Answers auto ops env (.dropTable t) cluster store
      (Router.routeDropTable (cluster.storageEnv ops env (.dropTable t)) t) := by
  have hat := h.table t ht
  refine Post.get_bind ?_
  cases htable : store.tables t with
  | none =>
      have hunlisted : cluster.router.catalog.hasTable t = false := by rw [hat.listed, htable]; rfl
      rw [hunlisted]
      refine h.answers_pure ?_
      rw [Store.execute, htable]
      rfl
  | some table =>
      have hlisted : cluster.router.catalog.hasTable t = true := by rw [hat.listed, htable]; rfl
      have hdown : cluster.router.registry.down (Router.tableKey t) = some (store.down t) := by
        rw [hat.down, htable]
        rfl
      obtain ⟨hdirect, hanswered⟩ := hgentle hlisted
      rw [hlisted]
      refine Post.bind ((Router.sendToStorage_exchanges rfl ⟨_, rfl⟩).mono
        (fun response router hresponse => ?_) (fun e router hraised => ?_))
      · obtain ⟨rfl, hresponse⟩ := hresponse
        rw [hdown] at hresponse
        simp only [Option.some.injEq] at hresponse
        by_cases hanswers : store.down t = false ∧ env.link (Router.tableKey t) = .answers
        · have hown := hdirect (contacts_iff.2 (hanswers.1 ▸ hdown)) (by rw [hanswers.2]; rfl)
          rw [if_pos hanswers, reply_of_own (m := .dropTable t) rfl hown rfl,
            hat.executeAst_drop htable] at hresponse
          subst hresponse
          refine Post.ite (fun _ => ?_) (fun hnot => absurd rfl hnot)
          refine Post.bind (Post.on (Catalog.dropTable_dropped.mono (fun _ catalog hdrop => ?_)
            (fun _ _ h => h.elim)))
          refine Post.bind (Post.on (Registry.dropNode_dropped.mono (fun _ registry hgone => Post.pure ?_)
            (fun _ _ h => h.elim)))
          exact h.tableDropped ht htable hdirect hanswers.1 hanswers.2 hdrop.1 hdrop.2 hgone.1 hgone.2
        · rw [if_neg hanswers] at hresponse
          refine Post.ite (fun hsuccess => ?_)
            (fun _ => Post.pure (h.undropped ht htable hdirect hanswered hresponse hanswers))
          rw [isSuccess_of_isError hresponse] at hsuccess
          cases hsuccess
      · obtain ⟨acted, what, rfl, hlink, rfl⟩ := hraised
        refine ⟨what, rfl, h.undropped ht htable hdirect hanswered rfl ?_⟩
        rw [hlink]
        exact fun h => Link.noConfusion h.2

/-! ## New tables -/

variable {columns : List ColumnDef}

/-- The router while a table is created: the catalog lists it, only its node may be new, and its directory is
    left like this. -/
structure Creating (ops : TableOps τ) (env : ClusterEnv) (columns : List ColumnDef) (cluster : Cluster τ)
    (t : TableRef) (made : Shard τ) (router : Router) : Prop where
  auto : router.registry.autoStartStorage = cluster.router.registry.autoStartStorage
  databases : router.catalog.hasDatabase = cluster.router.catalog.hasDatabase
  listed : router.catalog.hasTable = Function.update cluster.router.catalog.hasTable t true
  others : ∀ id, id ≠ Router.tableKey t → router.registry.down id = cluster.router.registry.down id
  left : ∀ after : Router, after.sent = router.sent →
    (cluster.left ops env (.createTable t columns) after).shards =
      Function.update cluster.shards (dataDirFor (Router.tableKey t)) made

/-- The table is made, and its node is there. -/
theorem Shows.created (h : cluster.Shows auto store) (ht : t.Identified)
    (hcreating : cluster.Creating ops env columns t (store'.shard t) router)
    (hregistered : router.registry.down (Router.tableKey t) = some false)
    (hdatabases : store'.databases = store.databases) (hothers : Store.SameBut t store store')
    (htable : (store'.tables t).isSome = true) (hup : store'.down t = false)
    (hclean : store'.spoiled t = false) :
    (cluster.left ops env (.createTable t columns) router).Shows auto store' := by
  have hleft : cluster.left ops env (.createTable t columns) router =
      ⟨router, Function.update cluster.shards (dataDirFor (Router.tableKey t)) (store'.shard t)⟩ :=
    congrArg (Cluster.mk router) (hcreating.left router rfl)
  rw [hleft]
  refine h.change ht (hcreating.auto.trans h.auto) ?_ (fun u hu => ?_) hcreating.others
    (fun dir hdir => Function.update_of_ne hdir ..) hothers ?_
  · rw [hdatabases, ← h.databases]
    exact hcreating.databases
  · rw [hcreating.listed]
    exact Function.update_of_ne hu ..
  · obtain ⟨table, htable⟩ := Option.isSome_iff_exists.1 htable
    constructor
    · rw [hcreating.listed, Function.update_self, htable]
      rfl
    · rw [hregistered, htable, hup]
      rfl
    · exact Function.update_self ..
    · exact fun _ => hclean

/-- The table is taken back, when its node is gone. -/
theorem Shows.takenBack (h : cluster.Shows auto store) (ht : t.Identified)
    (hcreating : cluster.Creating ops env columns t (store'.shard t) router)
    (hgone : router.registry.down (Router.tableKey t) = none) (hlacks : Store.Lacks t store store')
    (houtcome : store.Outcome auto ops env (.createTable t columns) response store') :
    (do
      let _ ← Router.onCatalog (Catalog.dropTable (env.saved 1) t)
      return response : Prog Router Response).Post router
      (Answered auto ops env (.createTable t columns) cluster store) (fun _ _ => False) := by
  refine Post.bind (Post.on (Catalog.dropTable_dropped.mono (fun _ catalog hdrop => Post.pure ?_)
    (fun _ _ h => h.elim)))
  obtain ⟨hdatabases, htables⟩ := hdrop
  refine ⟨store', houtcome, ?_⟩
  have hleft : cluster.left ops env (.createTable t columns) { router with catalog } =
      ⟨{ router with catalog },
        Function.update cluster.shards (dataDirFor (Router.tableKey t)) (store'.shard t)⟩ :=
    congrArg (Cluster.mk _) (hcreating.left _ rfl)
  rw [hleft]
  refine h.change ht (hcreating.auto.trans h.auto) ?_ (fun u hu => ?_) hcreating.others
    (fun dir hdir => Function.update_of_ne hdir ..) hlacks.others ?_
  · rw [hlacks.databases, ← h.databases, ← hcreating.databases]
    exact hdatabases
  · refine (congrFun htables u).trans ((Function.update_of_ne hu ..).trans ?_)
    rw [hcreating.listed]
    exact Function.update_of_ne hu ..
  · refine ⟨(congrFun htables t).trans (by simp [hlacks.none]), hgone.trans (by simp [hlacks.none]),
      Function.update_self .., ?_⟩
    rw [hlacks.none]
    exact fun h => absurd h Bool.false_ne_true

/-- The node is dropped before the table is taken back. -/
theorem Shows.dropped (h : cluster.Shows auto store) (ht : t.Identified)
    (hcreating : cluster.Creating ops env columns t (store'.shard t) router)
    (hlacks : Store.Lacks t store store')
    (houtcome : store.Outcome auto ops env (.createTable t columns) response store') :
    (do
      let _ ← Router.onRegistry (Registry.dropNode (Router.tableKey t))
      let _ ← Router.onCatalog (Catalog.dropTable (env.saved 1) t)
      return response : Prog Router Response).Post router
      (Answered auto ops env (.createTable t columns) cluster store) (fun _ _ => False) := by
  refine Post.bind (Post.on (Registry.dropNode_dropped.mono (fun _ registry hgone => ?_) (fun _ _ h => h)))
  obtain ⟨hauto, hdowns⟩ := hgone
  have hwithout : cluster.Creating ops env columns t (store'.shard t) { router with registry } :=
    ⟨hauto.trans hcreating.auto, hcreating.databases, hcreating.listed,
      fun id hid => (hdowns id).trans ((if_neg hid).trans (hcreating.others id hid)), hcreating.left⟩
  exact h.takenBack ht hwithout ((hdowns _).trans (if_pos rfl)) hlacks houtcome

/-- What the router does after the node of a new table was registered. -/
theorem Shows.sendCreate {registry : Registry} {catalog : Catalog} (h : cluster.Shows auto store)
    (ht : t.Identified) (hencodable : ∃ ast, serializeAst (.createTable t columns) = .ok ast)
    (hnew : store.databases t.database = true) (hnone : store.tables t = none)
    (hanswered : (env.link (Router.tableKey t)).Acts = true → env.link (Router.tableKey t) = .answers)
    (hraises : ∀ acted what, env.link (Router.tableKey t) ≠ .raises acted what)
    (hindexes : env.construction.indexes = none)
    (hown : env.link (Router.tableKey t) = .answers →
      cluster.addressee env (Router.tableKey t) = Router.tableKey t)
    (hcreating : cluster.Creating ops env columns t (store.shard t)
      { cluster.router with catalog, registry })
    (hregistered : registry.down (Router.tableKey t) = some false) :
    (do
      let response ← Router.sendToStorage (cluster.storageEnv ops env (.createTable t columns))
        (Router.tableKey t) (.createTable t columns)
      if response.isError then
        let _ ← Router.onRegistry (Registry.dropNode (Router.tableKey t))
        let _ ← Router.onCatalog (Catalog.dropTable (env.saved 1) t)
        return response
      else return response : Prog Router Response).Post { cluster.router with catalog, registry }
      (Answered auto ops env (.createTable t columns) cluster store) (fun _ _ => False) := by
  have hat := h.table t ht
  have hempty : (cluster.shard (Router.tableKey t)).hasSchema = false := by
    rw [hat.shard, Store.shard_of_none hnone]
    rfl
  have hopening := @opening_createTable _ ops env _ _ columns hempty
  have hshard := Store.createTable_shard ops columns hnew hnone hindexes
  rw [← hat.shard] at hshard
  -- what is left, when the statement was sent
  have htold : ∀ {made : Shard τ},
      (if (env.link (Router.tableKey t)).Acts = true then
        (store.createTable ops env.construction t columns).2.shard t else store.shard t) = made →
      cluster.Creating ops env columns t made
        (told env t (.createTable t columns) { cluster.router with catalog, registry }) := by
    rintro made rfl
    refine ⟨hcreating.auto, hcreating.databases, hcreating.listed, hcreating.others, fun after hafter => ?_⟩
    rw [left_of_delivered { cluster.router with catalog, registry } (.inr hopening)
      (fun _ hacts => hown (hanswered hacts)) hafter, hshard]
    simp only [hregistered, true_and]
    by_cases hacts : (env.link (Router.tableKey t)).Acts = true
    · rw [if_pos hacts, if_pos hacts]
    · rw [if_neg hacts, if_neg hacts, ← hat.shard]
      exact (Function.update_eq_self ..).symm
  refine Post.bind ((Router.sendToStorage_exchanges rfl hencodable).mono
    (fun response router hresponse => ?_) (fun e router hraised => ?_))
  · obtain ⟨rfl, hresponse⟩ := hresponse
    simp only [hregistered, true_and] at hresponse
    by_cases hanswers : env.link (Router.tableKey t) = .answers
    · -- the node says whether it has made the table
      have hmade := htold (if_pos (by rw [hanswers]; rfl))
      rw [if_pos hanswers, reply_of_own (m := .createTable t columns) hopening (hown hanswers) rfl,
        hshard] at hresponse
      rcases Store.createTable_cases ops env.construction columns hnew hnone with
        ⟨herror, hsame⟩ | ⟨hfine, htable, hup, hclean⟩
      · refine Post.ite (fun _ => ?_) (fun hnot => absurd (hresponse ▸ herror) hnot)
        exact h.dropped ht hmade ⟨(congrFun hsame t).trans hnone, Store.databases_createTable,
          Store.sameBut_createTable⟩ (.inl (by rw [hresponse]; rfl))
      · refine Post.ite (fun herror => ?_) (fun _ => Post.pure ?_)
        · rw [hresponse, hfine] at herror
          cases herror
        · exact ⟨_, .inl (by rw [hresponse]; rfl), h.created ht hmade hregistered
            Store.databases_createTable Store.sameBut_createTable htable hup hclean⟩
    · -- nothing has come of it
      rw [if_neg hanswers] at hresponse
      refine Post.ite (fun _ => ?_) (fun hnot => absurd hresponse hnot)
      exact h.dropped ht (htold (if_neg fun hacts => hanswers (hanswered hacts)))
        ⟨hnone, rfl, Store.sameBut_refl⟩ (.inr ⟨hresponse, .inr hanswers, .inl rfl⟩)
  · obtain ⟨acted, what, -, hlink, -⟩ := hraised
    exact absurd hlink (hraises acted what)

theorem Shows.createTable (h : cluster.Shows auto store) (ht : t.Identified)
    (hencodable : ∃ ast, serializeAst (.createTable t columns) = .ok ast)
    (hgentle : cluster.Gentle (.route env (.createTable t columns))) :
    Answers auto ops env (.createTable t columns) cluster store
      (Router.routeCreateTable (cluster.storageEnv ops env (.createTable t columns)) t columns) := by
  have hat := h.table t ht
  refine Post.bind (Post.on ((Catalog.createTable_created hencodable).mono
    (fun created catalog hcatalog => ?_) (fun _ _ h => h.elim)))
  obtain ⟨hcreated, hdatabases, htables⟩ := hcatalog
  rw [h.databases, hat.listed] at hcreated
  cases created with
  | false =>
      -- the table is there, or its database is not
      refine Post.ite (fun h => absurd h Bool.false_ne_true) (fun _ => Post.pure ⟨store, .inl ?_, ?_⟩)
      · rw [Store.execute, Store.createTable, if_neg]
        rw [← Option.not_isSome, ← hcreated]
        exact Bool.false_ne_true
      · rw [@left_of_unsent _ _ _ cluster { cluster.router with catalog } _ (.inl rfl) rfl]
        exact h.congr rfl hdatabases htables rfl
  | true =>
      rw [if_pos rfl] at htables ⊢
      obtain ⟨hnew, hnone⟩ := Bool.and_eq_true_iff.1 hcreated.symm
      have hnone : store.tables t = none := by simpa using hnone
      have hunlisted : cluster.router.catalog.hasTable t = false := by rw [hat.listed, hnone]; rfl
      obtain ⟨hquiet, hlost, hraises, hindexes, hown⟩ :=
        hgentle ⟨by rw [h.databases, hnew], by simp [hunlisted], hencodable⟩
      have hunregistered : cluster.router.registry.down (Router.tableKey t) = none := by
        rw [hat.down, hnone]
        rfl
      have hempty : (cluster.shard (Router.tableKey t)).hasSchema = false := by
        rw [hat.shard, Store.shard_of_none hnone]
        rfl
      have hanswered : (env.link (Router.tableKey t)).Acts = true →
          env.link (Router.tableKey t) = .answers := by
        intro hacts
        cases hlink : env.link (Router.tableKey t) with
        | unreachable => rw [hlink] at hacts; cases hacts
        | notSent => rw [hlink] at hacts; cases hacts
        | lost acted =>
            rw [hlink] at hacts
            exact absurd (hlink.trans (congrArg Link.lost hacts)) hlost
        | raises acted what => exact absurd hlink (hraises acted what)
        | answers => rfl
      refine Post.bind (Post.on ((Registry.createNode_created hunregistered hquiet).mono
        (fun registered registry hregistry => ?_) (fun _ _ h => h.elim)))
      obtain ⟨hauto, hothers, hregistered⟩ := hregistry
      have hcreating : cluster.Creating ops env columns t (store.shard t)
          { cluster.router with catalog, registry } := by
        refine ⟨hauto, hdatabases, htables, hothers, fun after hafter => ?_⟩
        rw [left_of_unsent (.inr (opening_createTable hempty)) hafter, ← hat.shard]
        exact (Function.update_eq_self ..).symm
      cases registered with
      | false =>
          obtain ⟨hgone, hstarts, hnot⟩ := hregistered
          refine Post.ite (fun h => absurd h Bool.false_ne_true) (fun _ => ?_)
          exact (h.takenBack ht hcreating hgone ⟨hnone, rfl, Store.sameBut_refl⟩
            (.inr ⟨rfl, .inl ⟨h.auto.symm.trans hstarts, hnot⟩, .inl rfl⟩)).mono (fun _ _ h => h)
            (fun _ _ h => h.elim)
      | true =>
          rw [if_pos rfl] at hregistered ⊢
          exact (h.sendCreate ht hencodable hnew hnone hanswered hraises hindexes hown hcreating
            hregistered).mono (fun _ _ h => h) (fun _ _ h => h.elim)

/-! ## Databases -/

/-- What `DROP DATABASE` makes of the node of a table. The induction is on the tables. -/
theorem foldl_dropMessages {tables : List TableRef} {addressee : String → String}
    (hidentified : ∀ u ∈ tables, u.Identified) (hnodup : tables.Nodup)
    (hacts : ∀ u ∈ tables, (env.link (Router.tableKey u)).Acts = true)
    (hown : ∀ u ∈ tables, addressee (Router.tableKey u) = Router.tableKey u) (ht : t.Identified) :
    (tables.map Router.dropMessage).foldl (carryOut ops env addressee) shards
        (dataDirFor (Router.tableKey t)) =
      if t ∈ tables then ((shards (dataDirFor (Router.tableKey t))).dropTable t).2
      else shards (dataDirFor (Router.tableKey t)) := by
  induction tables generalizing shards with
  | nil => rfl
  | cons u tables ih =>
      obtain ⟨hu, hothers⟩ := List.forall_mem_cons.1 hidentified
      obtain ⟨hact, hothersAct⟩ := List.forall_mem_cons.1 hacts
      obtain ⟨hself, hothersOwn⟩ := List.forall_mem_cons.1 hown
      obtain ⟨hfresh, hnodup⟩ := List.nodup_cons.1 hnodup
      have hstep : carryOut ops env addressee shards (Router.dropMessage u) =
          Function.update shards (dataDirFor (Router.tableKey u))
            ((shards (dataDirFor (Router.tableKey u))).dropTable u).2 := by
        show (if (env.link (Router.tableKey u)).Acts = true then
          Function.update shards (dataDirFor (addressee (Router.tableKey u))) ((shards
            (dataDirFor (addressee (Router.tableKey u)))).dropTable u).2 else shards) = _
        rw [if_pos hact, hself]
      rw [List.map_cons, List.foldl_cons, hstep, ih hothers hnodup hothersAct hothersOwn]
      by_cases htu : t = u
      · subst htu
        rw [if_neg hfresh, if_pos List.mem_cons_self, Function.update_self]
      · have hdir : dataDirFor (Router.tableKey t) ≠ dataDirFor (Router.tableKey u) :=
          fun heq => htu (dataDirFor_injective ht hu heq)
        rw [Function.update_of_ne hdir]
        simp only [List.mem_cons, htu, false_or]

theorem Shows.createDatabase {name : String} (h : cluster.Shows auto store) :
    Answers auto ops env (.createDatabase name) cluster store
      (Router.route (cluster.storageEnv ops env (.createDatabase name)) (.createDatabase name)) := by
  refine Post.bind (Post.on ((Catalog.createDatabase_created.and Catalog.createDatabase_post).mono
    (fun created catalog hdb => ?_) (fun _ _ h => h.1.elim)))
  obtain ⟨⟨hcreated, hdatabases⟩, -, hasts⟩ := hdb
  rw [h.databases] at hcreated hdatabases
  have hshows : ∀ {store' : Store τ},
      store' = { store with databases := Function.update store.databases name true } →
      (cluster.left ops env (.createDatabase name) { cluster.router with catalog }).Shows auto store' := by
    rintro store' rfl
    rw [@left_of_unsent _ _ _ cluster { cluster.router with catalog } _ (.inr rfl) rfl]
    have htables : catalog.hasTable = cluster.router.catalog.hasTable :=
      funext fun t => Catalog.hasTable_congr (hasts t)
    refine ⟨h.auto, hdatabases, fun t ht => h.identified t ((congrFun htables t).symm.trans ht),
      h.registered, fun t ht => ?_⟩
    have hat := h.table t ht
    exact ⟨(congrFun htables t).trans hat.listed, hat.down, hat.shard, hat.clean⟩
  cases hhas : store.databases name with
  | true =>
      rw [hhas] at hcreated
      subst hcreated
      refine Post.ite (fun h => absurd h Bool.false_ne_true) (fun _ => Post.pure ⟨store, .inl ?_, ?_⟩)
      · rw [Store.execute, if_pos hhas]
      · refine hshows ?_
        rw [← hhas, Function.update_eq_self]
  | false =>
      rw [hhas] at hcreated
      subst hcreated
      refine Post.ite (fun _ => Post.pure ⟨_, .inl ?_, hshows rfl⟩) (fun hnot => absurd rfl hnot)
      rw [Store.execute, if_neg (by rw [hhas]; exact Bool.false_ne_true)]

/-- What becomes of one table: it is dropped, if it is one of the database. -/
theorem ShowsAt.dropDatabase {name : String} {construction : Construction} {shard shard' : Shard τ}
    {router' : Router} (h : ShowsAt router shard store t)
    (hlisted : router'.catalog.hasTable t = if t.database = name then false else router.catalog.hasTable t)
    (hdown : router'.registry.down (Router.tableKey t) =
      if t.database = name ∧ (store.tables t).isSome = true then none
      else router.registry.down (Router.tableKey t))
    (hshard : shard' = if t.database = name ∧ (store.tables t).isSome = true then (shard.dropTable t).2
      else shard) :
    ShowsAt router' shard' (store.execute ops construction (.dropDatabase name)).2 t := by
  by_cases hdb : t.database = name
  · have hgone : (store.execute ops construction (.dropDatabase name)).2.tables t = none := if_pos hdb
    have hempty : (store.execute ops construction (.dropDatabase name)).2.shard t =
        { table := none, dataLeft := store.spoiled t } := by
      rw [Store.shard, hgone]
      rfl
    have hunlisted := hlisted.trans (if_pos hdb)
    cases htable : store.tables t with
    | none =>
        rw [if_neg (by simp [htable])] at hdown hshard
        refine ⟨by rw [hgone, hunlisted]; rfl, ?_, ?_, fun hsome => by rw [hgone] at hsome; cases hsome⟩
        · rw [hdown, h.down, htable, hgone]
          rfl
        · rw [hshard, h.shard, hempty, Store.shard, htable]
          rfl
    | some table =>
        rw [if_pos ⟨hdb, by rw [htable]; rfl⟩] at hdown hshard
        refine ⟨by rw [hgone, hunlisted]; rfl, ?_, ?_, fun hsome => by rw [hgone] at hsome; cases hsome⟩
        · rw [hdown, hgone]
          rfl
        · rw [hshard, h.shard, hempty, Store.shard, htable, h.clean (by rw [htable]; rfl)]
          exact congrArg Prod.snd (if_pos rfl)
  · have hstays : (store.execute ops construction (.dropDatabase name)).2.tables t = store.tables t :=
      if_neg hdb
    rw [if_neg fun hboth => hdb hboth.1] at hdown hshard
    refine ⟨?_, ?_, ?_, ?_⟩
    · rw [hlisted, if_neg hdb, hstays, h.listed]
    · rw [hdown, hstays]
      exact h.down
    · rw [hshard, Store.shard, hstays]
      exact h.shard
    · rw [hstays]
      exact h.clean

theorem Shows.dropDatabase {name : String} (h : cluster.Shows auto store)
    (hgentle : cluster.Gentle (.route env (.dropDatabase name))) :
    Answers auto ops env (.dropDatabase name) cluster store
      (Router.route (cluster.storageEnv ops env (.dropDatabase name)) (.dropDatabase name)) := by
  have hidentified : ∀ t ∈ cluster.router.catalog.tablesOf name, t.Identified :=
    fun t ht => h.identified t (Catalog.mem_tablesOf.1 ht).2
  have hkeys : ((cluster.router.catalog.tablesOf name).map Router.tableKey).Nodup :=
    Router.tablesOf_nodup.map_on fun t ht u hu hkey =>
      tableKey_injective (hidentified t ht).named (hidentified u hu).named hkey
  refine Post.bind (Post.on (Catalog.dropDatabase_dropped.mono (fun tables catalog hdrop => ?_)
    (fun _ _ h => h.elim)))
  obtain ⟨rfl, hdatabases, htables⟩ := hdrop
  refine Post.bind ((Router.dropTables_told { cluster.router with catalog }
    (fun id => rfl) hkeys fun t ht => ?_).mono (fun _ router hrouter => Post.pure ?_)
    (fun _ _ h => h.elim))
  · obtain ⟨hcontacts, hlink, -⟩ := hgentle t ht
    exact ⟨contacts_iff.1 hcontacts, hlink⟩
  · obtain ⟨hcatalog, hauto, hsent, hdown⟩ := hrouter
    refine ⟨(store.execute ops env.construction (.dropDatabase name)).2, .inl rfl, ?_⟩
    have hacts : ∀ u ∈ cluster.router.catalog.tablesOf name,
        (env.link (Router.tableKey u)).Acts = true := by
      intro u hu
      rcases (hgentle u hu).2.1 with hlink | hlink <;> rw [hlink] <;> rfl
    rw [left_of_sent _ (.inr rfl) hsent, List.reverse_reverse]
    refine ⟨hauto.trans h.auto, ?_, fun t ht => ?_, fun id hid => ?_, fun t ht => ?_⟩
    · rw [hcatalog]
      exact hdatabases.trans (congrArg (Function.update · name false) h.databases)
    · rw [hcatalog] at ht
      have hlisted := (htables t).symm.trans ht
      split at hlisted
      · cases hlisted
      · exact h.identified t hlisted
    · have hid : (if id ∈ (cluster.router.catalog.tablesOf name).map Router.tableKey then none
          else cluster.router.registry.down id) ≠ none := hdown id ▸ hid
      split at hid
      · exact absurd rfl hid
      · exact h.registered id hid
    · have hat := h.table t ht
      have hmem : t ∈ cluster.router.catalog.tablesOf name ↔
          t.database = name ∧ (store.tables t).isSome = true := by
        rw [← hat.listed]
        exact Catalog.mem_tablesOf
      have hkey : Router.tableKey t ∈ (cluster.router.catalog.tablesOf name).map Router.tableKey ↔
          t.database = name ∧ (store.tables t).isSome = true := by
        refine ⟨fun hin => ?_, fun hboth => List.mem_map_of_mem (hmem.2 hboth)⟩
        obtain ⟨u, hu, heq⟩ := List.mem_map.1 hin
        rwa [← hmem, ← tableKey_injective (hidentified u hu).named ht.named heq]
      have hmessages := @foldl_dropMessages _ ops env t cluster.shards _ (cluster.addressee env) hidentified
        Router.tablesOf_nodup hacts (fun u hu => (hgentle u hu).2.2) ht
      have hdownT := hdown (Router.tableKey t)
      simp only [hmem] at hmessages
      simp only [hkey] at hdownT
      exact hat.dropDatabase (by rw [hcatalog]; exact htables t) hdownT hmessages

/-! ## Runs -/

/-- The names of a table are identifiers, and a statement on it can be encoded, as the parser and
    `ApplyDatabase` see to. -/
def Event.Sendable : Event → Prop
  | .route _ statement => ∀ t ∈ statement.tableFromStatement, t.Identified ∧
      ∃ ast, serializeAst statement = .ok ast
  | _ => True

/-- A statement that is routed is answered, and the cluster shows the store after it. -/
theorem Shows.route (h : cluster.Shows auto store) (hsendable : (Event.route env statement).Sendable)
    (hgentle : cluster.Gentle (.route env statement)) :
    Answers auto ops env statement cluster store
      (Router.route (cluster.storageEnv ops env statement) statement) := by
  -- statements that are only sent to the node of their table
  have hrows : ∀ {t : TableRef}, Store.OnRows t statement →
      cluster.requestFor statement (Router.tableKey t) = statement →
      (cluster.router.catalog.hasTable t = true → cluster.Direct env t) →
      Answers auto ops env statement cluster store (do
        if (← get).catalog.hasTable t then
          Router.sendToStorage (cluster.storageEnv ops env statement) (Router.tableKey t) statement
        else return .error ("Table not found: " ++ Router.tableKey t)) := by
    intro t hrows hrequest hdirect
    have htarget : statement.tableFromStatement = some t := by
      cases statement <;> first | exact hrows | exact hrows.elim
    obtain ⟨ht, hencodable⟩ := hsendable t htarget
    have hlisted := (h.table t ht).listed
    refine Post.get_bind (Post.ite (fun hhas => ?_) (fun hnot => ?_))
    · have hdirect := hdirect hhas
      rw [hlisted] at hhas
      obtain ⟨table, htable⟩ := Option.isSome_iff_exists.1 hhas
      exact h.sendRows ht hrows htable hencodable hrequest hdirect
    · rw [hlisted, Option.not_isSome_iff_eq_none] at hnot
      exact h.answers_pure (Store.execute_of_none hrows hnot)
  cases statement with
  | createDatabase name => exact h.createDatabase
  | dropDatabase name => exact h.dropDatabase hgentle
  | useDatabase name =>
      refine Post.get_bind (Post.ite (fun hhas => h.answers_pure ?_) (fun hnot => h.answers_pure ?_))
      · rw [h.databases] at hhas
        rw [Store.execute, if_pos hhas]
      · rw [h.databases] at hnot
        rw [Store.execute, if_neg hnot]
  | createTable t columns => exact h.createTable (hsendable t rfl).1 (hsendable t rfl).2 hgentle
  | dropTable t => exact h.dropTable (hsendable t rfl).1 hgentle
  | createUser username password => exact h.answers_pure rfl
  | grant permissions scope username => exact h.answers_pure rfl
  | revoke permissions scope username => exact h.answers_pure rfl
  | revert t timestamp => exact hrows rfl rfl (hgentle t rfl)
  | insert t columns values => exact hrows rfl rfl (hgentle t rfl)
  | update t assignments whereClause => exact hrows rfl rfl (hgentle t rfl)
  | delete t whereClause => exact hrows rfl rfl (hgentle t rfl)
  | select selectAll items t whereClause => exact hrows rfl rfl (hgentle t rfl)

/-- What the monitor finds of a node. -/
theorem Shows.found {id : String} {isDown : Bool} {registry : Registry} (h : cluster.Shows auto store)
    (hfound : Registry.Found id isDown cluster.router.registry registry) :
    Shows auto ⟨{ cluster.router with registry }, cluster.shards⟩ (store.report id isDown) := by
  obtain ⟨hauto, hdowns⟩ := hfound
  refine ⟨hauto.trans h.auto, h.databases, h.identified, fun i hi => ?_, fun t ht => ?_⟩
  · rw [hdowns i] at hi
    refine h.registered i fun hnone => hi ?_
    split
    · rename_i heq
      rw [← heq, hnone]
      rfl
    · exact hnone
  have hat := h.table t ht
  refine ⟨hat.listed, (hdowns _).trans ?_, hat.shard, hat.clean⟩
  by_cases hid : Router.tableKey t = id
  · subst hid
    rw [if_pos rfl, hat.down, Option.map_map]
    simp [Store.report, Function.comp_def]
  · rw [if_neg hid, hat.down]
    simp [Store.report, hid]

/-- The process of a registered node opens the directory of its table. -/
theorem Shows.reopen (h : cluster.Shows auto store) (ops : TableOps τ) (id : String) :
    Shows auto ⟨cluster.router,
      if cluster.router.registry.hasNode id then openDirectory ops id cluster.shards else cluster.shards⟩
      (store.reopen ops id) := by
  refine ⟨h.auto, h.databases, h.identified, h.registered, fun t ht => ?_⟩
  have hat := h.table t ht
  have hsome : ((store.reopen ops id).tables t).isSome = (store.tables t).isSome := by
    simp only [Store.reopen]
    split <;> simp
  refine ⟨hat.listed.trans hsome.symm, hat.down.trans ?_, ?_, fun hthere => hat.clean (hsome ▸ hthere)⟩
  · simp only [Store.reopen]
    split <;> simp [Function.comp_def]
  · rw [Store.shard_reopen]
    show (if _ then _ else _ : List (List Char) → Shard τ) (dataDirFor (Router.tableKey t)) = _
    by_cases hnode : cluster.router.registry.hasNode id = true
    · rw [if_pos hnode, openDirectory]
      have hdown : cluster.router.registry.down id ≠ none := by
        rwa [Registry.down, ne_eq, Option.map_eq_none_iff, ← ne_eq, Option.ne_none_iff_isSome]
      obtain ⟨u, hu, rfl⟩ := h.registered id hdown
      by_cases htu : t = u
      · subst htu
        rw [Function.update_self, if_pos rfl, ← hat.shard]
        rfl
      · rw [Function.update_of_ne fun hdir => htu (dataDirFor_injective ht hu hdir),
          if_neg fun hkey => htu (tableKey_injective ht.named hu.named hkey)]
        exact hat.shard
    · rw [if_neg hnode]
      refine hat.shard.trans ?_
      by_cases hid : Router.tableKey t = id
      · -- a node that is not registered has no table
        have hgone : cluster.router.registry.down id = none := by
          rw [Registry.down, Option.map_eq_none_iff]
          exact Option.not_isSome_iff_eq_none.1 hnode
        have hnone : store.tables t = none := by
          have hdown := hat.down
          rwa [hid, hgone, eq_comm, Option.map_eq_none_iff] at hdown
        rw [if_pos hid, Store.shard_of_none hnone]
        rfl
      · rw [if_neg hid]

theorem Shows.restarted (h : cluster.Shows auto store) (ops : TableOps τ) (start : StartOutcome)
    (id : String) :
    Shows auto ⟨cluster.router, cluster.restarted ops start id⟩
      (if start.finds auto = some false then store.reopen ops id else store) := by
  have hauto := h.auto
  have hreopen := h.reopen ops id
  unfold Cluster.restarted
  dsimp only
  cases auto with
  | false =>
      rw [hauto]
      exact h
  | true =>
      rw [hauto]
      cases start with
      | started => simpa [StartOutcome.finds] using hreopen
      | notStarted => simpa [StartOutcome.finds] using h
      | raises what => simpa [StartOutcome.finds] using h

/-- A restart of a node does to the store what the monitor finds, and opens the table of the node. -/
theorem Shows.restartNode (h : cluster.Shows auto store) (ops : TableOps τ) (start : StartOutcome)
    (id : String) :
    (cluster.step ops (.restartNode id start)).Shows auto (store.restart ops id (start.finds auto)) := by
  have hopened := h.restarted ops start id
  have hrestarted := @Registry.restartNode_restarted cluster.router.registry start id
  unfold Registry.Restarted at hrestarted
  rw [h.auto] at hrestarted
  refine Post.of_after (P := fun router => Shows auto ⟨router, cluster.restarted ops start id⟩ _) ?_
  cases hfinds : start.finds auto with
  | none =>
      rw [hfinds] at hrestarted hopened
      have hsame : ∀ {registry}, registry = cluster.router.registry →
          Shows auto ⟨{ cluster.router with registry }, cluster.restarted ops start id⟩ store := by
        rintro registry rfl
        exact hopened
      exact Post.on (hrestarted.mono (fun _ _ => hsame) (fun _ _ => hsame))
  | some isDown =>
      rw [hfinds] at hrestarted hopened
      cases isDown with
      | false =>
          exact Post.on (hrestarted.mono (fun _ _ hfound => hopened.found hfound)
            (fun _ _ hfound => hopened.found hfound))
      | true =>
          exact Post.on (hrestarted.mono (fun _ _ hfound => hopened.found hfound)
            (fun _ _ hfound => hopened.found hfound))

/-- Every event of the run is gentle where it happens. -/
def GentleRun (ops : TableOps τ) (cluster : Cluster τ) : List Event → Prop
  | [] => True
  | e :: events => cluster.Gentle e ∧ GentleRun ops (cluster.step ops e) events

/-- A cluster refines a store. -/
theorem serve_refines (auto : Bool) (ops : TableOps τ) :
    Service.Refines (serve ops) (Store.Effect auto ops) (Shows auto) (fun events cluster _ =>
      (∀ e ∈ events, e.Sendable) ∧ cluster.GentleRun ops events) where
  step := by
    rintro e later cluster store h ⟨hsendable, hgentle, hlater⟩
    obtain ⟨hsendable, hothers⟩ := List.forall_mem_cons.1 hsendable
    cases e with
    | route env statement =>
        have hanswers : Answers auto ops env statement cluster store _ := h.route hsendable hgentle
        have hnext : ∀ {response router},
            (Router.route (cluster.storageEnv ops env statement) statement).after cluster.router = router →
            Answered auto ops env statement cluster store response router →
            ∃ store', Store.Effect auto ops (.route env statement) store (some response) store' ∧
              (cluster.route ops env statement).Shows auto store' := by
          rintro response router rfl ⟨store', houtcome, hshows⟩
          exact ⟨store', ⟨response, rfl, houtcome⟩, hshows⟩
        unfold serve
        cases hrun : Router.route (cluster.storageEnv ops env statement) statement cluster.router with
        | ok response router =>
            obtain ⟨store', heffect, hshows⟩ := hnext (after_ok hrun) (hanswers.of_ok hrun)
            refine ⟨_, _, store', ?_, heffect, hshows, hothers, hlater⟩
            dsimp only
            rw [hrun]
        | error e router =>
            obtain ⟨what, rfl, hanswered⟩ := hanswers.of_error hrun
            obtain ⟨store', heffect, hshows⟩ := hnext (after_error hrun) hanswered
            refine ⟨_, _, store', ?_, heffect, hshows, hothers, hlater⟩
            dsimp only
            rw [hrun]
    | updateNode id state =>
        refine ⟨none, _, store.report id (state = .down), rfl, ⟨rfl, rfl⟩, ?_, hothers, hlater⟩
        refine Post.of_after (P := fun router => Shows auto ⟨router, cluster.shards⟩ _) ?_
        exact Post.on (Registry.updateNode_found.mono (fun _ registry hfound => h.found hfound)
          (fun _ _ h => h.elim))
    | restartNode id start =>
        exact ⟨none, _, _, rfl, ⟨rfl, rfl⟩, h.restartNode ops start id, hothers, hlater⟩

theorem new_shows (auto : Bool) : (new auto : Cluster τ).Shows auto Store.empty where
  auto := rfl
  databases := rfl
  identified t ht := by simp [new, Catalog.load, Catalog.hasTable] at ht
  registered id hid := absurd rfl hid
  table _ _ := ⟨rfl, rfl, rfl, fun _ => rfl⟩

end Cluster

end QuasarDB.Server
