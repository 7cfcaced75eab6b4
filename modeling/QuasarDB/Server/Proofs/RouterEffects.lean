import QuasarDB.Server.Router

set_option autoImplicit false

/-! # What the router changes

One lemma for each operation of the catalog and of the registry says all that it changes. From them
follows what a statement can reach: the database and the table it names, and their storage nodes. -/

namespace QuasarDB.Server

open Core Prog

/-! ## The catalog -/

namespace Catalog

variable {catalog catalog' : Catalog} {saved : Bool} {table t : TableRef} {name : String}

/-- The statement a table was created with. -/
def ast (catalog : Catalog) (t : TableRef) : Option Json :=
  (catalog.databases.lookup t.database).bind fun tables => tables.lookup t.table

theorem hasTable_iff : catalog.hasTable t = true ↔ (catalog.ast t).isSome = true := Iff.rfl

theorem hasTable_congr (h : catalog'.ast t = catalog.ast t) :
    catalog'.hasTable t = catalog.hasTable t := by
  unfold hasTable
  exact congrArg Option.isSome h

section Insert

variable {tables : Dict Json} (hdbs : catalog'.databases = catalog.databases.insert name tables)

include hdbs

theorem ast_insert (h : t.database = name) : catalog'.ast t = tables.lookup t.table := by
  unfold ast
  rw [hdbs, h, AList.lookup_insert]
  rfl

theorem ast_insert_of_ne (h : t.database ≠ name) : catalog'.ast t = catalog.ast t := by
  unfold ast
  rw [hdbs, AList.lookup_insert_ne h]

end Insert

theorem ast_of_lookup {tables : Dict Json} (h : catalog.databases.lookup t.database = some tables) :
    catalog.ast t = tables.lookup t.table := by
  rw [ast, h]
  rfl

/-- Only the database `name` may have changed. -/
def SameElsewhere (name : String) (catalog catalog' : Catalog) : Prop :=
  ∀ other, other ≠ name → catalog'.databases.lookup other = catalog.databases.lookup other

theorem SameElsewhere.refl : SameElsewhere name catalog catalog := fun _ _ => rfl

theorem SameElsewhere.ast (h : SameElsewhere name catalog catalog') (hne : t.database ≠ name) :
    catalog'.ast t = catalog.ast t := by
  unfold Catalog.ast
  rw [h _ hne]

theorem sameElsewhere_insert {tables : Dict Json}
    (hdbs : catalog'.databases = catalog.databases.insert name tables) :
    SameElsewhere name catalog catalog' := by
  intro other hne
  rw [hdbs, AList.lookup_insert_ne hne]

/-- A new database has no tables. -/
theorem createDatabase_post : (createDatabase saved name).Post catalog
    (fun _ catalog' => SameElsewhere name catalog catalog' ∧ ∀ t, catalog'.ast t = catalog.ast t)
    (fun _ _ => False) := by
  refine Post.get_bind (Post.ite (fun _ => Post.pure ⟨.refl, fun _ => rfl⟩) (fun hnew => ?_))
  refine ⟨sameElsewhere_insert rfl, fun t => ?_⟩
  have hnone : catalog.databases.lookup name = none := by simpa [hasDatabase] using hnew
  by_cases h : t.database = name
  · rw [ast_insert rfl h, ast, h, hnone]
    rfl
  · exact ast_insert_of_ne rfl h

theorem mem_tablesOf : t ∈ catalog.tablesOf name ↔ t.database = name ∧ catalog.hasTable t := by
  obtain ⟨database, table⟩ := t
  rw [hasTable_iff, ast, tablesOf]
  dsimp only
  cases hdb : catalog.databases.lookup name with
  | none =>
      constructor
      · simp
      · rintro ⟨rfl, h⟩
        rw [hdb] at h
        simp at h
  | some tables =>
      simp only [List.mem_map, List.mem_mergeSort, TableRef.mk.injEq]
      constructor
      · rintro ⟨key, hkey, rfl, rfl⟩
        rw [hdb]
        exact ⟨rfl, AList.lookup_isSome.2 (AList.mem_keys.2 hkey)⟩
      · rintro ⟨rfl, h⟩
        rw [hdb] at h
        exact ⟨table, AList.mem_keys.1 (AList.lookup_isSome.1 h), rfl, rfl⟩

/-- `DropDatabase` returns the tables it takes off. -/
theorem dropDatabase_post : (dropDatabase saved name).Post catalog
    (fun tables catalog' => SameElsewhere name catalog catalog' ∧
      (∀ t, catalog'.hasTable t ↔ catalog.hasTable t ∧ t.database ≠ name) ∧
      ∀ t, t ∈ tables ↔ t.database = name ∧ catalog.hasTable t)
    (fun _ _ => False) := by
  refine Post.get_bind (Post.ite (fun hnone => Post.pure ⟨.refl, ?_⟩) (fun _ => ?_))
  · have hdb : catalog.databases.lookup name = none := by simpa [hasDatabase] using hnone
    have hno : ∀ t : TableRef, t.database = name → ¬ catalog.hasTable t := by
      rintro t rfl
      simp [hasTable, hdb]
    refine ⟨fun t => ⟨fun ht => ⟨ht, fun h => hno t h ht⟩, And.left⟩, fun t => ?_⟩
    simp only [List.not_mem_nil, false_iff, not_and]
    exact hno t
  · refine ⟨fun other hne => AList.lookup_erase_ne hne, fun t => ?_, fun t => mem_tablesOf⟩
    by_cases h : t.database = name
    · subst h
      simp only [hasTable, AList.lookup_erase]
      simp
    · simp only [hasTable, AList.lookup_erase_ne h]
      simp [h]

/-- A new table of a database, whose statement can be encoded. -/
def Accepts (catalog : Catalog) (table : TableRef) (columns : List ColumnDef) : Prop :=
  catalog.hasDatabase table.database ∧ ¬ catalog.hasTable table ∧
    ∃ ast, serializeAst (.createTable table columns) = .ok ast

/-- `CreateTable` lists the table, or changes nothing. -/
theorem createTable_post {columns : List ColumnDef} :
    (createTable saved table columns).Post catalog
    (fun created catalog' =>
      (created = false ∧ catalog' = catalog) ∨
      (created = true ∧ catalog.Accepts table columns ∧ catalog'.hasTable table ∧
        SameElsewhere table.database catalog catalog' ∧
        ∀ t, t ≠ table → catalog'.ast t = catalog.ast t))
    (fun _ catalog' => catalog' = catalog) := by
  refine Post.get_bind ?_
  cases hdb : catalog.databases.lookup table.database with
  | none => exact Post.pure (.inl ⟨rfl, rfl⟩)
  | some tables =>
      refine Post.ite (fun _ => Post.pure (.inl ⟨rfl, rfl⟩)) (fun hnew => ?_)
      refine Post.bind (Post.ofExcept (fun ast hast => ?_) (fun _ _ => rfl))
      refine .inr ⟨rfl, ⟨?_, ?_, ast, hast⟩, ?_, sameElsewhere_insert rfl, fun t hne => ?_⟩
      · simp [hasDatabase, hdb]
      · simpa [hasTable, hdb] using hnew
      · rw [hasTable_iff, ast_insert rfl rfl, AList.lookup_insert]
        rfl
      · by_cases h : t.database = table.database
        · have hname : t.table ≠ table.table := by
            intro hname
            exact hne (by cases t; cases table; simp_all)
          rw [ast_insert rfl h, AList.lookup_insert_ne hname, ast_of_lookup (h ▸ hdb)]
        · exact ast_insert_of_ne rfl h

theorem dropTable_post : (dropTable saved table).Post catalog
    (fun _ catalog' => ¬ catalog'.hasTable table ∧ SameElsewhere table.database catalog catalog' ∧
      ∀ t, t ≠ table → catalog'.ast t = catalog.ast t)
    (fun _ _ => False) := by
  refine Post.get_bind ?_
  cases hdb : catalog.databases.lookup table.database with
  | none => exact Post.pure ⟨by simp [hasTable, hdb], .refl, fun _ _ => rfl⟩
  | some tables =>
      refine Post.ite (fun hnone => Post.pure ⟨?_, .refl, fun _ _ => rfl⟩) (fun _ => ?_)
      · have hlookup : tables.lookup table.table = none := by simpa using hnone
        simp [hasTable, hdb, hlookup]
      · refine ⟨?_, sameElsewhere_insert rfl, fun t hne => ?_⟩
        · rw [hasTable_iff, ast_insert rfl rfl, AList.lookup_erase]
          simp
        · by_cases h : t.database = table.database
          · have hname : t.table ≠ table.table := by
              intro hname
              exact hne (by cases t; cases table; simp_all)
            rw [ast_insert rfl h, AList.lookup_erase_ne hname, ast_of_lookup (h ▸ hdb)]
          · exact ast_insert_of_ne rfl h

end Catalog

/-! ## The registry -/

namespace Registry

variable {registry : Registry} {start : StartOutcome} {id : String}

theorem hasNode_congr {registry' : Registry} {i : String}
    (h : registry'.getNode i = registry.getNode i) : registry'.hasNode i = registry.hasNode i :=
  congrArg Option.isSome h

/-- `CreateNode` throws only when it starts a process and that throws. -/
theorem createNode_post : (createNode start id).Post registry
    (fun created registry' => (registry'.hasNode id ↔ created = true) ∧
      ∀ i, i ≠ id → registry'.getNode i = registry.getNode i)
    (fun _ registry' => registry.autoStartStorage = true ∧ (∃ what, start = .raises what) ∧
      ∀ i, registry'.getNode i = registry.getNode i) := by
  refine Post.get_bind (Post.ite (fun hhas => Post.pure ⟨by simp [hhas], fun _ _ => rfl⟩)
    (fun hnew => ?_))
  have hnone : ¬ (registry.hasNode id = true) := hnew
  refine Post.get_bind (Post.bind (Post.modify (Post.bind ?_)))
  refine Post.get_bind (Post.ite (fun _ => Post.pure ?_) (fun hauto => ?_))
  · rw [if_pos rfl]
    refine ⟨?_, fun i hne => AList.lookup_insert_ne hne⟩
    show (Option.isSome (AList.lookup id (AList.insert id _ _)) = true ↔ _)
    rw [AList.lookup_insert]
    simp
  cases start with
  | started =>
      refine Post.pure ?_
      rw [if_pos rfl]
      refine ⟨?_, fun i hne => AList.lookup_insert_ne hne⟩
      show (Option.isSome (AList.lookup id (AList.insert id _ _)) = true ↔ _)
      rw [AList.lookup_insert]
      simp
  | notStarted =>
      refine Post.pure ?_
      rw [if_neg (by simp)]
      exact ⟨iff_of_false hnone (by simp), fun _ _ => rfl⟩
  | raises what => exact Post.throw ⟨by simpa using hauto, ⟨what, rfl⟩, fun _ => rfl⟩

theorem dropNode_post : (dropNode id).Post registry
    (fun _ registry' => ¬ registry'.hasNode id ∧
      ∀ i, i ≠ id → registry'.getNode i = registry.getNode i)
    (fun _ _ => False) := by
  refine Post.get_bind (Post.ite (fun _ => ?_) (fun hnone => Post.pure ⟨hnone, fun _ _ => rfl⟩))
  refine ⟨?_, fun i hne => AList.lookup_erase_ne hne⟩
  show ¬ (Option.isSome (AList.lookup id (AList.erase id _)) = true)
  rw [AList.lookup_erase]
  simp

end Registry

/-! ## What a statement reaches -/

/-- The database and the table a statement is on, where `*` stands for all tables of a database. -/
def Statement.target : Statement → Option (String × String)
  | .createDatabase name => some (name, "*")
  | .dropDatabase name => some (name, "*")
  | statement => statement.tableFromStatement.map fun table => (table.database, table.table)

/-- The table is one of those `database` and `table` stand for. -/
def InScope (database table : String) (t : TableRef) : Prop :=
  t.database = database ∧ (table = "*" ∨ t.table = table)

namespace Router

variable {env : StorageEnv} {router router' : Router} {database table : String}

/-- Nothing outside the scope is changed or talked to. -/
structure Confined (database table : String) (router router' : Router) : Prop where
  databases : Catalog.SameElsewhere database router.catalog router'.catalog
  tables : ∀ t, ¬ InScope database table t → router'.catalog.ast t = router.catalog.ast t
  nodes : ∀ id, (∀ t, InScope database table t → id ≠ tableKey t) →
    router'.registry.getNode id = router.registry.getNode id
  sent : ∃ new, router'.sent = new ++ router.sent ∧
    ∀ m ∈ new, ∃ t, InScope database table t ∧ m.1 = tableKey t ∧ m.2.tableFromStatement = some t

theorem Confined.refl : Confined database table router router where
  databases := .refl
  tables _ _ := rfl
  nodes _ _ := rfl
  sent := ⟨[], rfl, by simp⟩

theorem Confined.trans {router'' : Router} (h : Confined database table router router')
    (h' : Confined database table router' router'') : Confined database table router router'' where
  databases other hne := (h'.databases other hne).trans (h.databases other hne)
  tables t ht := (h'.tables t ht).trans (h.tables t ht)
  nodes id hid := (h'.nodes id hid).trans (h.nodes id hid)
  sent := by
    obtain ⟨new, hnew, hscope⟩ := h.sent
    obtain ⟨new', hnew', hscope'⟩ := h'.sent
    refine ⟨new' ++ new, by rw [hnew', hnew, List.append_assoc], fun m hm => ?_⟩
    rcases List.mem_append.1 hm with hm | hm
    · exact hscope' m hm
    · exact hscope m hm

/-- A change of the catalog in the scope. -/
theorem confined_catalog {catalog' : Catalog}
    (hdbs : Catalog.SameElsewhere database router.catalog catalog')
    (htables : ∀ t, ¬ InScope database table t → catalog'.ast t = router.catalog.ast t) :
    Confined database table router { router with catalog := catalog' } where
  databases := hdbs
  tables := htables
  nodes _ _ := rfl
  sent := ⟨[], rfl, by simp⟩

/-- A change of the registry in the scope. -/
theorem confined_registry {registry' : Registry} {t : TableRef} (ht : InScope database table t)
    (hnodes : ∀ i, i ≠ tableKey t → registry'.getNode i = router.registry.getNode i) :
    Confined database table router { router with registry := registry' } where
  databases := .refl
  tables _ _ := rfl
  nodes id hid := hnodes id (hid t ht)
  sent := ⟨[], rfl, by simp⟩

theorem inScope_self (t : TableRef) : InScope t.database t.table t := ⟨rfl, .inr rfl⟩

theorem not_inScope_iff_ne {t u : TableRef} (ht : ¬ InScope u.database u.table t) : t ≠ u := by
  rintro rfl
  exact ht (inScope_self t)

/-- The node is registered and not down, so `SendToStorage` connects to it. -/
def Contacts (router : Router) (id : String) : Prop :=
  ∃ node, router.registry.getNode id = some node ∧ node.state ≠ .down

/-- Sending changes neither the catalog nor the registry. It throws only with a node to connect to,
    when the statement cannot be encoded or the client throws. -/
theorem sendToStorage_post {id : String} {statement : Statement} :
    (sendToStorage env id statement).Post router
    (fun _ router' => router'.catalog = router.catalog ∧ router'.registry = router.registry ∧
      (router'.sent = router.sent ∨ router'.sent = (id, statement) :: router.sent))
    (fun _ router' => router'.catalog = router.catalog ∧ router'.registry = router.registry ∧
      (router'.sent = router.sent ∨ router'.sent = (id, statement) :: router.sent) ∧
      router.Contacts id ∧
      ((∃ what, serializeAst statement = .error what) ∨ ∃ what, env.exchange id = .raises what)) := by
  refine Post.get_bind ?_
  cases hnode : router.registry.getNode id with
  | none => exact Post.pure ⟨rfl, rfl, .inl rfl⟩
  | some node =>
      refine Post.ite (fun _ => Post.pure ⟨rfl, rfl, .inl rfl⟩) (fun hstate => ?_)
      have hcontacts : router.Contacts id := ⟨node, hnode, hstate⟩
      unfold exchangeWith
      cases henv : env.exchange id with
      | notConnected => exact Post.pure ⟨rfl, rfl, .inl rfl⟩
      | notSent =>
          exact Post.bind (Post.ofExcept (fun _ _ => Post.pure ⟨rfl, rfl, .inl rfl⟩)
            (fun what hwhat => ⟨rfl, rfl, .inl rfl, hcontacts, .inl ⟨what, hwhat⟩⟩))
      | noResponse =>
          exact Post.bind (Post.ofExcept (fun _ _ => ⟨rfl, rfl, .inr rfl⟩)
            (fun what hwhat => ⟨rfl, rfl, .inl rfl, hcontacts, .inl ⟨what, hwhat⟩⟩))
      | responds response =>
          exact Post.bind (Post.ofExcept (fun _ _ => ⟨rfl, rfl, .inr rfl⟩)
            (fun what hwhat => ⟨rfl, rfl, .inl rfl, hcontacts, .inl ⟨what, hwhat⟩⟩))
      | raises what =>
          exact Post.bind (Post.ofExcept
            (fun _ _ => ⟨rfl, rfl, .inr rfl, hcontacts, .inr ⟨what, rfl⟩⟩)
            (fun what hwhat => ⟨rfl, rfl, .inl rfl, hcontacts, .inl ⟨what, hwhat⟩⟩))

theorem sendToStorage_confined {t : TableRef} (ht : InScope database table t)
    {statement : Statement} (hs : statement.tableFromStatement = some t) :
    (sendToStorage env (tableKey t) statement).Post router
      (fun _ => Confined database table router) (fun _ => Confined database table router) := by
  have key : ∀ router' : Router, router'.catalog = router.catalog →
      router'.registry = router.registry →
      (router'.sent = router.sent ∨ router'.sent = (tableKey t, statement) :: router.sent) →
      Confined database table router router' := by
    intro router' hcatalog hregistry hsent
    refine ⟨fun _ _ => by rw [hcatalog], fun _ _ => by rw [hcatalog], fun _ _ => by rw [hregistry],
      ?_⟩
    rcases hsent with hsent | hsent
    · exact ⟨[], hsent, by simp⟩
    · exact ⟨[(tableKey t, statement)], hsent, by simpa using ⟨t, ht, rfl, hs⟩⟩
  exact sendToStorage_post.mono (fun _ router' h => key router' h.1 h.2.1 h.2.2)
    (fun _ router' h => key router' h.1 h.2.1 h.2.2.1)

/-- The induction is on the tables, which are all in the scope. -/
theorem dropTables_confined {tables : List TableRef} :
    ∀ {router : Router}, (∀ t ∈ tables, InScope database table t) →
      (dropTables env tables).Post router (fun _ => Confined database table router)
        (fun _ => Confined database table router) := by
  induction tables with
  | nil => exact fun _ => Post.pure .refl
  | cons t tables ih =>
      intro router hscope
      have ht := hscope t (by simp)
      refine Post.bind ((sendToStorage_confined ht rfl).mono (fun _ router₁ h₁ => ?_)
        (fun _ _ h => h))
      refine Post.bind (Post.on (Registry.dropNode_post.mono (fun _ registry h₂ => ?_)
        (fun _ _ h => h.elim)))
      have hdrop : Confined database table router₁ { router₁ with registry } :=
        confined_registry ht h₂.2
      exact (ih (fun u hu => hscope u (by simp [hu]))).mono
        (fun _ _ h => h₁.trans (hdrop.trans h)) (fun _ _ h => h₁.trans (hdrop.trans h))

theorem routeCreateTable_confined {t : TableRef} {columns : List ColumnDef} :
    (routeCreateTable env t columns).Post router (fun _ => Confined t.database t.table router)
      (fun _ => Confined t.database t.table router) := by
  have ht := inScope_self t
  -- the rollback of a failed creation
  have hrollback : ∀ router₁ : Router, Confined t.database t.table router router₁ →
      (onCatalog (Catalog.dropTable (env.saved 1) t)).Post router₁
        (fun _ => Confined t.database t.table router) (fun _ _ => False) := by
    intro router₁ h₁
    refine Post.on (Catalog.dropTable_post.mono (fun _ catalog h => ?_) (fun _ _ h => h))
    exact h₁.trans (confined_catalog h.2.1 (fun u hu => h.2.2 u (not_inScope_iff_ne hu)))
  refine Post.bind (Post.on (Catalog.createTable_post.mono (fun created catalog h => ?_)
    (fun _ catalog h => ?_)))
  · have h₁ : Confined t.database t.table router { router with catalog } := by
      rcases h with ⟨-, rfl⟩ | ⟨-, -, -, hdbs, htables⟩
      · exact .refl
      · exact confined_catalog hdbs (fun u hu => htables u (not_inScope_iff_ne hu))
    refine Post.ite (fun _ => ?_) (fun _ => Post.pure h₁)
    refine Post.bind (Post.on (Registry.createNode_post.mono (fun _ registry h => ?_)
      (fun _ registry h => h₁.trans (confined_registry ht (fun i _ => h.2.2 i)))))
    have h₂ := h₁.trans (confined_registry ht h.2)
    refine Post.ite (fun _ => ?_) (fun _ => ?_)
    · refine Post.bind ((sendToStorage_confined ht rfl).mono (fun response router₃ h => ?_)
        (fun _ _ h => h₂.trans h))
      have h₃ := h₂.trans h
      refine Post.ite (fun _ => ?_) (fun _ => Post.pure h₃)
      refine Post.bind (Post.on (Registry.dropNode_post.mono (fun _ registry h => ?_)
        (fun _ _ h => h.elim)))
      exact Post.bind ((hrollback _ (h₃.trans (confined_registry ht h.2))).mono
        (fun _ _ h => Post.pure h) (fun _ _ h => h.elim))
    · exact Post.bind ((hrollback _ h₂).mono (fun _ _ h => Post.pure h) (fun _ _ h => h.elim))
  · rw [h]
    exact .refl

theorem routeDropTable_confined {t : TableRef} :
    (routeDropTable env t).Post router (fun _ => Confined t.database t.table router)
      (fun _ => Confined t.database t.table router) := by
  have ht := inScope_self t
  refine Post.get_bind (Post.ite (fun _ => Post.pure .refl) (fun _ => ?_))
  refine Post.bind ((sendToStorage_confined ht rfl).mono (fun response router₁ h₁ => ?_)
    (fun _ _ h => h))
  refine Post.ite (fun _ => ?_) (fun _ => Post.pure h₁)
  refine Post.bind (Post.on (Catalog.dropTable_post.mono (fun _ catalog h => ?_)
    (fun _ _ h => h.elim)))
  have h₂ := h₁.trans (confined_catalog h.2.1 (fun u hu => h.2.2 u (not_inScope_iff_ne hu)))
  refine Post.bind (Post.on (Registry.dropNode_post.mono (fun _ registry h => ?_)
    (fun _ _ h => h.elim)))
  exact Post.pure (h₂.trans (confined_registry ht h.2))

/-- A statement on a table, or on the tables of a database, reaches only what it names. -/
theorem route_confined {statement : Statement} (htarget : statement.target = some (database, table)) :
    (route env statement).Post router (fun _ => Confined database table router)
      (fun _ => Confined database table router) := by
  -- statements that are only sent to the node of their table
  have hsend : ∀ {s : Statement} {t : TableRef}, s.tableFromStatement = some t →
      Post (do
        if (← get).catalog.hasTable t then sendToStorage env (tableKey t) s
        else return .error ("Table not found: " ++ tableKey t)) router
        (fun _ => Confined t.database t.table router)
        (fun _ => Confined t.database t.table router) := fun hs =>
    Post.get_bind (Post.ite (fun _ => sendToStorage_confined (inScope_self _) hs)
      (fun _ => Post.pure .refl))
  cases statement with
  | createDatabase name =>
      cases htarget
      refine Post.bind (Post.on (Catalog.createDatabase_post.mono (fun created catalog h => ?_)
        (fun _ _ h => h.elim)))
      have h₁ : Confined database "*" router { router with catalog } :=
        confined_catalog h.1 (fun t _ => h.2 t)
      exact Post.ite (fun _ => Post.pure h₁) (fun _ => Post.pure h₁)
  | dropDatabase name =>
      cases htarget
      refine Post.bind (Post.on (Catalog.dropDatabase_post.mono (fun tables catalog h => ?_)
        (fun _ _ h => h.elim)))
      have h₁ : Confined database "*" router { router with catalog } := by
        refine confined_catalog h.1 (fun t ht => h.1.ast ?_)
        rintro rfl
        exact ht ⟨rfl, .inl rfl⟩
      have hscope : ∀ t ∈ tables, InScope database "*" t :=
        fun t ht => ⟨((h.2.2 t).1 ht).1, .inl rfl⟩
      exact Post.bind ((dropTables_confined hscope).mono
        (fun _ _ h => Post.pure (h₁.trans h)) (fun _ _ h => h₁.trans h))
  | createTable t columns =>
      cases htarget
      exact routeCreateTable_confined
  | dropTable t =>
      cases htarget
      exact routeDropTable_confined
  | useDatabase name => cases htarget
  | createUser username password => cases htarget
  | grant permissions scope username => cases htarget
  | revoke permissions scope username => cases htarget
  | revert t timestamp =>
      cases htarget
      exact hsend rfl
  | insert t columns values =>
      cases htarget
      exact hsend rfl
  | update t assignments whereClause =>
      cases htarget
      exact hsend rfl
  | delete t whereClause =>
      cases htarget
      exact hsend rfl
  | select selectAll items t whereClause =>
      cases htarget
      exact hsend rfl

end Router

end QuasarDB.Server
