import QuasarDB.Server.Cluster
import QuasarDB.Server.Proofs.RouterSends
import QuasarDB.Storage.Proofs.Shard

set_option autoImplicit false

/-! # Orphaned shards

The directory of a table that is not in the catalog holds no `.schema` file, as long as no response to a
`CREATE TABLE` is lost after the node has acted, the indexes of a new table can be opened behind its schema
file, `DROP DATABASE` gets through to the nodes of its tables, and no two nodes share a port. The catalog is
changed in these cases, whatever the node has done. -/

namespace QuasarDB.Server

open Core Prog Storage

/-! ## Directories -/

/-- The name of a table and that of its database are identifiers, as the parser and `ApplyDatabase`
    see to. -/
def TableRef.Identified (t : TableRef) : Prop := IsIdentifier t.database ∧ IsIdentifier t.table

theorem TableRef.Identified.named {t : TableRef} (h : t.Identified) : t.Named :=
  ⟨isName_of_isIdentifier h.1, isName_of_isIdentifier h.2⟩

theorem sanitizedPart_of_isIdentifier {name : String} (h : IsIdentifier name) :
    sanitizedPart name.toList = name.toList := by
  have hne : name.toList ≠ [] := by
    obtain ⟨⟨c, rest, hname, -⟩, -⟩ := h
    rw [hname]
    exact List.cons_ne_nil c rest
  rw [sanitizedPart, if_neg hne]
  have hchars := h.2.1
  generalize name.toList = chars at hchars
  induction chars with
  | nil => rfl
  | cons c chars ih =>
      have hc : (c.isAlphanum || c == '_' || c == '-') = true := by
        rw [show (c.isAlphanum || c == '_') = true from hchars c (by simp)]
        rfl
      rw [List.flatMap_cons, if_pos hc, ih (fun c hc => hchars c (by simp [hc]))]
      rfl

theorem dataDirFor_tableKey {t : TableRef} (h : t.Identified) :
    dataDirFor (Router.tableKey t) = [t.database.toList, t.table.toList] := by
  have hkey : (Router.tableKey t).toList = t.database.toList ++ '.' :: t.table.toList := by
    rw [Router.tableKey, if_neg h.named.1.1, String.toList_append, String.toList_append,
      List.append_assoc]
    rfl
  have hdatabase : '.' ∉ t.database.toList := fun hc => h.named.1.2 _ hc rfl
  have htable : '.' ∉ t.table.toList := fun hc => h.named.2.2 _ hc rfl
  rw [dataDirFor, hkey, List.splitOn_append_cons_self_of_not_mem hdatabase,
    List.splitOn_eq_singleton htable]
  simp only [List.map_cons, List.map_nil, sanitizedPart_of_isIdentifier h.1,
    sanitizedPart_of_isIdentifier h.2]

/-- Different tables have different directories. -/
theorem dataDirFor_injective {t u : TableRef} (ht : t.Identified) (hu : u.Identified)
    (h : dataDirFor (Router.tableKey t) = dataDirFor (Router.tableKey u)) : t = u := by
  rw [dataDirFor_tableKey ht, dataDirFor_tableKey hu] at h
  simp only [List.cons.injEq, and_true, String.toList_inj] at h
  cases t
  cases u
  simp only [TableRef.mk.injEq]
  exact h

namespace Cluster

variable {τ : Type} {ops : TableOps τ} {env : ClusterEnv} {cluster : Cluster τ}

/-! ## Runs -/

/-- The table of a routed statement has identifiers as its names. -/
def Event.WellNamed : Event → Prop
  | .route _ statement => ∀ t ∈ statement.tableFromStatement, t.Identified
  | _ => True

/-- The event does not meet the defects. A `CREATE TABLE` gets to the node of its table, and if the node comes
    to write the schema, the response is not lost and the indexes are opened. A `DROP TABLE` that is answered
    is answered by the node that holds the table. `DROP DATABASE` gets through to each node that holds one,
    before any client throws. -/
def Safe (ops : TableOps τ) (cluster : Cluster τ) : Event → Prop
  | .route env (.createTable t columns) =>
      cluster.router.catalog.Accepts t columns →
        cluster.router.Reaches (cluster.storageEnv ops env (.createTable t columns)) (Router.tableKey t) →
        (env.link (Router.tableKey t)).Acts →
        cluster.addressee env (Router.tableKey t) = Router.tableKey t ∧
          (((cluster.shard (Router.tableKey t)).createTable ops env.construction t columns).2.hasSchema →
            env.link (Router.tableKey t) ≠ .lost true ∧ env.construction.indexes = none)
  | .route env (.dropTable t) =>
      (cluster.shard (Router.tableKey t)).hasSchema → cluster.router.Contacts (Router.tableKey t) →
        env.link (Router.tableKey t) = .answers →
        cluster.addressee env (Router.tableKey t) = Router.tableKey t
  | .route env (.dropDatabase name) =>
      ∀ front t back, cluster.router.catalog.tablesOf name = front ++ t :: back →
        (cluster.shard (Router.tableKey t)).hasSchema →
        cluster.router.Contacts (Router.tableKey t) ∧ (env.link (Router.tableKey t)).Acts ∧
          cluster.addressee env (Router.tableKey t) = Router.tableKey t ∧
          ∀ u ∈ front, cluster.router.Contacts (Router.tableKey u) →
            ∀ acted what, env.link (Router.tableKey u) ≠ .raises acted what
  | _ => True

/-- Every event of the run is safe where it happens. -/
def SafeRun (ops : TableOps τ) (cluster : Cluster τ) : List Event → Prop
  | [] => True
  | e :: events => cluster.Safe ops e ∧ SafeRun ops (cluster.step ops e) events

/-- The directory of a table that is not in the catalog holds no `.schema` file, so a `CREATE TABLE` there is
    not refused because of a table, and makes a new one. -/
def NoOrphans (ops : TableOps τ) (cluster : Cluster τ) : Prop :=
  ∀ t : TableRef, t.Identified → ¬ cluster.router.catalog.hasTable t →
    (cluster.shard (Router.tableKey t)).hasSchema = false ∧
    ∀ construction columns,
      let (response, shard) :=
        (cluster.shard (Router.tableKey t)).executeAst ops construction (.createTable t columns)
      response ≠ .error "Table shard is already initialized" ∧
        ∀ table ∈ shard.table, ∃ schema, toSchema columns = .ok schema ∧
          table = (t.table, ops.create schema)

/-- What every state of a safe run has. -/
structure Tidy (cluster : Cluster τ) : Prop where
  empty : ∀ t : TableRef, t.Identified → ¬ cluster.router.catalog.hasTable t →
    (cluster.shard (Router.tableKey t)).hasSchema = false
  sound : ∀ t : TableRef, t.Identified → (cluster.shard (Router.tableKey t)).Sound t.table
  identified : ∀ t : TableRef, cluster.router.catalog.hasTable t → t.Identified

theorem Tidy.noOrphans (h : cluster.Tidy) : cluster.NoOrphans ops := by
  intro t ht hnot
  have hempty := h.empty t ht hnot
  refine ⟨hempty, fun construction columns => ?_⟩
  show ((cluster.shard (Router.tableKey t)).createTable ops construction t columns).1 ≠ _ ∧ ∀ table ∈
    ((cluster.shard (Router.tableKey t)).createTable ops construction t columns).2.table, _
  rcases Shard.createTable_cases ops construction t columns (Shard.hasSchema_eq_false.1 hempty).1 with
    ⟨what, shard, hrun, hother, hnone, -⟩ | ⟨schema, failure, -, -, hrun⟩ | ⟨schema, hschema, -, hrun⟩
  · rw [hrun]
    refine ⟨fun heq => hother (congrArg Response.message heq), fun table htable => ?_⟩
    rw [hnone] at htable
    cases htable
  · rw [hrun]
    refine ⟨fun heq => failure.otherError_what.ne (congrArg Response.message heq), fun table htable => ?_⟩
    cases htable
  · rw [hrun]
    refine ⟨fun heq => absurd (congrArg Response.isSuccess heq) (by simp), ?_⟩
    rintro table ⟨⟩
    exact ⟨schema, hschema, rfl⟩

/-! ## The nodes -/

/-- What the statements that come to a directory keep, the directory keeps. -/
theorem foldl_carryOut {P : Shard τ → Prop} {addressee : String → String} {dir : List (List Char)}
    {sent : List (String × Statement)} : ∀ {shards : List (List Char) → Shard τ},
    (∀ m ∈ sent, (env.link m.1).Acts = true → dataDirFor (addressee m.1) = dir →
      ∀ shard, P shard → P (shard.executeAst ops env.construction m.2).2) →
    P (shards dir) → P (sent.foldl (carryOut ops env addressee) shards dir) := by
  induction sent with
  | nil => exact fun _ h => h
  | cons m sent ih =>
      intro shards hkeeps h
      refine ih (fun m' hm' => hkeeps m' (by simp [hm'])) ?_
      unfold carryOut
      by_cases hacts : (env.link m.1).Acts = true
      · rw [if_pos hacts]
        by_cases hdir : dataDirFor (addressee m.1) = dir
        · subst hdir
          rw [Function.update_self]
          exact hkeeps m (by simp) hacts rfl _ h
        · rwa [Function.update_of_ne (Ne.symm hdir)]
      · rwa [if_neg hacts]

/-- Whoever gets them, statements that make no table leave an empty directory empty. -/
theorem foldl_carryOut_empty {addressee : String → String} {dir : List (List Char)}
    {sent : List (String × Statement)} {shards : List (List Char) → Shard τ}
    (h : (shards dir).hasSchema = false)
    (hcreate : ∀ m ∈ sent, (env.link m.1).Acts = true → dataDirFor (addressee m.1) = dir →
      ∀ u columns, m.2 ≠ .createTable u columns) :
    (sent.foldl (carryOut ops env addressee) shards dir).hasSchema = false :=
  foldl_carryOut (P := fun shard => shard.hasSchema = false)
    (fun m hm hacts hdir _ h => Shard.executeAst_of_empty h (hcreate m hm hacts hdir)) h

/-- Whoever gets them, statements that make no table leave a directory with the table it has, or without. -/
theorem foldl_carryOut_sound {addressee : String → String} {dir : List (List Char)} {name : String}
    {sent : List (String × Statement)} {shards : List (List Char) → Shard τ}
    (h : (shards dir).Sound name) (hcreate : ∀ m ∈ sent, ∀ u columns, m.2 ≠ .createTable u columns) :
    (sent.foldl (carryOut ops env addressee) shards dir).Sound name :=
  foldl_carryOut (P := fun shard => shard.Sound name)
    (fun m hm _ _ _ h => h.executeAst (hcreate m hm)) h

/-- A node that acts on the `DROP TABLE` of its table is left without one. -/
theorem foldl_carryOut_dropMessage {t : TableRef} {addressee : String → String}
    {sent : List (String × Statement)} {shards : List (List Char) → Shard τ}
    (h : (shards (dataDirFor (Router.tableKey t))).Sound t.table)
    (hcreate : ∀ m ∈ sent, ∀ u columns, m.2 ≠ .createTable u columns)
    (hmem : Router.dropMessage t ∈ sent) (hacts : (env.link (Router.tableKey t)).Acts)
    (hown : addressee (Router.tableKey t) = Router.tableKey t) :
    (sent.foldl (carryOut ops env addressee) shards (dataDirFor (Router.tableKey t))).hasSchema = false := by
  obtain ⟨front, back, rfl⟩ := List.append_of_mem hmem
  rw [List.foldl_append, List.foldl_cons]
  refine foldl_carryOut_empty ?_ (fun m hm _ _ => hcreate m (by simp [hm]))
  have hsound := @foldl_carryOut_sound _ ops env addressee _ _ front _ h
    (fun m hm => hcreate m (by simp [hm]))
  show (carryOut ops env addressee _ (Router.tableKey t, .dropTable t) _).hasSchema = false
  unfold carryOut
  rw [if_pos hacts]
  dsimp only
  rw [hown, Function.update_self]
  exact Shard.dropTable_of_sound hsound

theorem sentBetween_eq {before after : Router} {new : List (String × Statement)}
    (h : after.sent = new ++ before.sent) : sentBetween before after = new.reverse := by
  rw [sentBetween, h, List.length_append, Nat.add_sub_cancel, List.take_left]

/-! ## What a call leaves behind -/

/-- The process that a call starts, if any, finds nothing that it changes by opening its directory. -/
def Unopened (ops : TableOps τ) (env : ClusterEnv) (statement : Statement) (cluster : Cluster τ)
    (router : Router) : Prop :=
  router.registry.nextPort = cluster.router.registry.nextPort ∨
    cluster.opening ops env statement = cluster.shards

theorem left_of_sent {statement : Statement} {router : Router} (new : List (String × Statement))
    (hopen : cluster.Unopened ops env statement router) (hsent : router.sent = new ++ cluster.router.sent) :
    cluster.left ops env statement router =
      { router
        shards := new.reverse.foldl (carryOut ops env (cluster.addressee env)) cluster.shards } := by
  have hbefore : (if router.registry.nextPort = cluster.router.registry.nextPort then cluster.shards
      else cluster.opening ops env statement) = cluster.shards := by
    rcases hopen with hsame | hsame
    · exact if_pos hsame
    · rw [hsame, ite_self]
  rw [left, sentBetween_eq hsent, hbefore]

/-- The process of a new node opens an empty directory. -/
theorem opening_createTable {t : TableRef} {columns : List ColumnDef}
    (h : (cluster.shard (Router.tableKey t)).hasSchema = false) :
    cluster.opening ops env (.createTable t columns) = cluster.shards := by
  have hsame : openDirectory ops (Router.tableKey t) cluster.shards = cluster.shards := by
    have hopened : (cluster.shards (dataDirFor (Router.tableKey t))).opened ops = _ := Shard.opened_of_empty h
    rw [openDirectory, hopened, Function.update_eq_self]
  unfold opening
  dsimp only
  rw [hsame, ite_self]

/-! ## Each statement keeps it -/

/-- The cluster is tidy when a call leaves this router behind. -/
def Kept (ops : TableOps τ) (env : ClusterEnv) (statement : Statement) (cluster : Cluster τ)
    (router : Router) : Prop :=
  (cluster.left ops env statement router).Tidy

variable {statement : Statement}

/-- No table is created, and the catalog lists the tables it did, but for those whose directory is left
    empty. -/
theorem Tidy.kept {router : Router} (new : List (String × Statement)) (h : cluster.Tidy)
    (hopen : cluster.Unopened ops env statement router)
    (hsent : router.sent = new ++ cluster.router.sent)
    (hcreate : ∀ m ∈ new, ∀ u columns, m.2 ≠ .createTable u columns)
    (hlisted : ∀ t : TableRef, router.catalog.hasTable t → cluster.router.catalog.hasTable t)
    (hempty : ∀ t : TableRef, t.Identified → ¬ router.catalog.hasTable t → cluster.router.catalog.hasTable t →
      (new.reverse.foldl (carryOut ops env (cluster.addressee env)) cluster.shards
        (dataDirFor (Router.tableKey t))).hasSchema = false) :
    cluster.Kept ops env statement router := by
  have hcreate : ∀ m ∈ new.reverse, ∀ u columns, m.2 ≠ .createTable u columns :=
    fun m hm => hcreate m (List.mem_reverse.1 hm)
  unfold Kept
  rw [left_of_sent new hopen hsent]
  refine ⟨fun t ht hnot => ?_, fun t ht => foldl_carryOut_sound (h.sound t ht) hcreate,
    fun t ht => h.identified t (hlisted t ht)⟩
  by_cases hbefore : cluster.router.catalog.hasTable t
  · exact hempty t ht hnot hbefore
  · exact foldl_carryOut_empty (h.empty t ht hbefore) (fun m hm _ _ => hcreate m hm)

/-- The catalog is as it was, and no table is created. -/
theorem Tidy.kept_of_same {router : Router} (new : List (String × Statement)) (h : cluster.Tidy)
    (hopen : cluster.Unopened ops env statement router)
    (hsent : router.sent = new ++ cluster.router.sent)
    (hcreate : ∀ m ∈ new, ∀ u columns, m.2 ≠ .createTable u columns)
    (htables : ∀ t, router.catalog.hasTable t = cluster.router.catalog.hasTable t) :
    cluster.Kept ops env statement router := by
  refine h.kept new hopen hsent hcreate (fun t ht => ?_) (fun t _ hnot ht => ?_)
  · rwa [← htables t]
  · rw [htables t] at hnot
    exact absurd ht hnot

theorem Tidy.kept_of_unsent {router : Router} (h : cluster.Tidy)
    (hopen : cluster.Unopened ops env statement router)
    (hsent : router.sent = cluster.router.sent)
    (htables : ∀ t, router.catalog.hasTable t = cluster.router.catalog.hasTable t) :
    cluster.Kept ops env statement router :=
  h.kept_of_same [] hopen hsent (by simp) htables

/-- A statement that makes no table is sent to the node of its table. -/
theorem Tidy.sendToStorage {id : String} {senv : StorageEnv} (h : cluster.Tidy)
    (hopen : ∀ router, cluster.Unopened ops env statement router)
    (hcreate : ∀ u columns, statement ≠ .createTable u columns) :
    (Router.sendToStorage senv id statement).Post cluster.router
      (fun _ => cluster.Kept ops env statement) (fun _ => cluster.Kept ops env statement) := by
  have key : ∀ router : Router, router.catalog = cluster.router.catalog →
      (router.sent = cluster.router.sent ∨ router.sent = (id, statement) :: cluster.router.sent) →
      cluster.Kept ops env statement router := by
    intro router hcatalog hsent
    have htables : ∀ u, router.catalog.hasTable u = cluster.router.catalog.hasTable u :=
      fun u => by rw [hcatalog]
    rcases hsent with hsent | hsent
    · exact h.kept_of_unsent (hopen router) hsent htables
    · exact h.kept_of_same [(id, statement)] (hopen router) hsent (by simpa using hcreate) htables
  exact Router.sendToStorage_post.mono (fun _ router h => key router h.1 h.2.2)
    (fun _ router h => key router h.1 h.2.2.1)

theorem exchange_eq_responds {link : Link} {response response' : Response}
    (h : link.exchange response = .responds response') : link = .answers ∧ response = response' := by
  cases link <;> cases h
  exact ⟨rfl, rfl⟩

theorem exchange_eq_noResponse {link : Link} {response : Response}
    (h : link.exchange response = .noResponse) : ∃ acted, link = .lost acted := by
  cases link <;> cases h
  exact ⟨_, rfl⟩

theorem exchange_eq_raises {link : Link} {response : Response} {what : String}
    (h : link.exchange response = .raises what) : ∃ acted, link = .raises acted what := by
  cases link <;> cases h
  exact ⟨_, rfl⟩

theorem reached_of_acts {link : Link} (response : Response) (h : link.Acts) :
    (link.exchange response).Reached := by
  cases link with
  | unreachable => cases h
  | notSent => cases h
  | lost acted => trivial
  | raises acted what => trivial
  | answers => trivial

/-! ## `CREATE TABLE` -/

/-- What the node of an id is left with, when a statement gets to it, as far as the link lets it. -/
def carried (ops : TableOps τ) (env : ClusterEnv) (statement : Statement) (cluster : Cluster τ)
    (id : String) : Shard τ :=
  if (env.link id).Acts then ((cluster.shard id).executeAst ops env.construction statement).2
  else cluster.shard id

/-- One statement, which gets to the node it is for. -/
theorem foldl_single {id : String} (hown : (env.link id).Acts = true → cluster.addressee env id = id) :
    [(id, statement)].reverse.foldl (carryOut ops env (cluster.addressee env)) cluster.shards =
      Function.update cluster.shards (dataDirFor id) (cluster.carried ops env statement id) := by
  rw [List.reverse_singleton, List.foldl_cons, List.foldl_nil, carryOut, carried]
  by_cases hacts : (env.link id).Acts = true
  · rw [if_pos hacts, if_pos hacts, hown hacts]
    rfl
  · rw [if_neg hacts, if_neg hacts]
    exact (Function.update_eq_self ..).symm

/-- One directory may have changed: its table is listed, or there is none. -/
theorem Tidy.kept_of_table {t : TableRef} {router : Router} {new : List (String × Statement)} {made : Shard τ}
    (h : cluster.Tidy) (ht : t.Identified) (hopen : cluster.Unopened ops env statement router)
    (hsent : router.sent = new ++ cluster.router.sent)
    (hmade : new.reverse.foldl (carryOut ops env (cluster.addressee env)) cluster.shards =
      Function.update cluster.shards (dataDirFor (Router.tableKey t)) made)
    (hsound : made.Sound t.table)
    (htables : ∀ u, u ≠ t → router.catalog.hasTable u = cluster.router.catalog.hasTable u)
    (hself : router.catalog.hasTable t ∨ made.hasSchema = false) :
    cluster.Kept ops env statement router := by
  have hother : ∀ u : TableRef, u.Identified → u ≠ t →
      Function.update cluster.shards (dataDirFor (Router.tableKey t)) made (dataDirFor (Router.tableKey u)) =
        cluster.shard (Router.tableKey u) :=
    fun u hu hne => Function.update_of_ne (fun hdir => hne (dataDirFor_injective hu ht hdir)) ..
  unfold Kept
  rw [left_of_sent new hopen hsent, hmade]
  refine ⟨fun u hu hnot => ?_, fun u hu => ?_, fun u hu => ?_⟩ <;> by_cases hne : u = t
  · subst hne
    show Shard.hasSchema (Function.update cluster.shards _ _ _) = false
    rw [Function.update_self]
    exact hself.resolve_left hnot
  · show Shard.hasSchema (Function.update cluster.shards _ _ _) = false
    rw [hother u hu hne]
    exact h.empty u hu (by rwa [← htables u hne])
  · subst hne
    show Shard.Sound (Function.update cluster.shards _ _ _) u.table
    rwa [Function.update_self]
  · show Shard.Sound (Function.update cluster.shards _ _ _) u.table
    rw [hother u hu hne]
    exact h.sound u hu
  · rwa [hne]
  · exact h.identified u ((htables u hne).symm.trans hu)

/-- What a `CREATE TABLE` that gets to its node leaves there: nothing, if the node answers with an error or
    its response is lost. -/
theorem Tidy.carried_createTable {t : TableRef} {columns : List ColumnDef} (h : cluster.Tidy)
    (ht : t.Identified) (hunlisted : ¬ cluster.router.catalog.hasTable t)
    (hsafe : (env.link (Router.tableKey t)).Acts →
      ((cluster.shard (Router.tableKey t)).createTable ops env.construction t columns).2.hasSchema →
        env.link (Router.tableKey t) ≠ .lost true ∧ env.construction.indexes = none) :
    (cluster.carried ops env (.createTable t columns) (Router.tableKey t)).Sound t.table ∧
      ((∃ acted, env.link (Router.tableKey t) = .lost acted) ∨ env.link (Router.tableKey t) = .answers ∧
          ((cluster.shard (Router.tableKey t)).createTable ops env.construction t columns).1.isError →
        (cluster.carried ops env (.createTable t columns) (Router.tableKey t)).hasSchema = false) := by
  have hempty := h.empty t ht hunlisted
  unfold carried
  by_cases hacts : (env.link (Router.tableKey t)).Acts = true
  · rw [if_pos hacts]
    have hsafe := hsafe hacts
    refine ⟨(h.sound t ht).createTable fun hschema => (hsafe hschema).2, ?_⟩
    show _ → ((cluster.shard (Router.tableKey t)).createTable ops env.construction t
      columns).2.hasSchema = false
    rintro (⟨acted, hlost⟩ | ⟨-, herror⟩)
    · rw [Bool.eq_false_iff]
      intro hschema
      rw [hlost] at hacts
      have hacted : acted = true := hacts
      exact (hsafe hschema).1 (by rw [hlost, hacted])
    · rcases Shard.createTable_cases ops env.construction t columns (Shard.hasSchema_eq_false.1 hempty).1 with
        ⟨what, shard, hrun, -, hnone, hunopened⟩ | ⟨schema, failure, -, hfailure, hrun⟩ | ⟨schema, -, -, hrun⟩
      · rw [hrun]
        exact Shard.hasSchema_eq_false.2 ⟨hnone, hunopened.trans (h.sound t ht).opened⟩
      · rw [hrun] at hsafe
        have hindexes := (hsafe rfl).2
        rw [hfailure] at hindexes
        cases hindexes
      · rw [hrun] at herror
        cases herror
  · rw [if_neg hacts]
    exact ⟨h.sound t ht, fun _ => hempty⟩

section CreateTable

variable {t : TableRef} {columns : List ColumnDef} {catalog : Catalog} {router : Router} {made : Shard τ}

/-- A `CREATE TABLE` that leaves the table in the catalog. -/
theorem Tidy.kept_of_listed (new : List (String × Statement)) (h : cluster.Tidy) (ht : t.Identified)
    (hunlisted : ¬ cluster.router.catalog.hasTable t) (hlisted : catalog.hasTable t)
    (htables : ∀ u, u ≠ t → catalog.hasTable u = cluster.router.catalog.hasTable u)
    (hcatalog : router.catalog = catalog) (hsent : router.sent = new ++ cluster.router.sent)
    (hmade : new.reverse.foldl (carryOut ops env (cluster.addressee env)) cluster.shards =
      Function.update cluster.shards (dataDirFor (Router.tableKey t)) made)
    (hsound : made.Sound t.table) : cluster.Kept ops env (.createTable t columns) router := by
  have hopening := @opening_createTable _ ops env _ _ columns (h.empty t ht hunlisted)
  refine h.kept_of_table ht (.inr hopening) hsent hmade hsound (fun u hne => ?_) (.inl (by rwa [hcatalog]))
  rw [hcatalog]
  exact htables u hne

/-- One that takes the table back, where the node has none. -/
theorem Tidy.takesBack (router : Router) (new : List (String × Statement)) (h : cluster.Tidy) (ht : t.Identified)
    (hunlisted : ¬ cluster.router.catalog.hasTable t)
    (htables : ∀ u, u ≠ t → catalog.hasTable u = cluster.router.catalog.hasTable u)
    (hcatalog : router.catalog = catalog) (hsent : router.sent = new ++ cluster.router.sent)
    (hmade : new.reverse.foldl (carryOut ops env (cluster.addressee env)) cluster.shards =
      Function.update cluster.shards (dataDirFor (Router.tableKey t)) made)
    (hgone : made.hasSchema = false) :
    (Router.onCatalog (Catalog.dropTable (env.saved 1) t)).Post router
      (fun _ => cluster.Kept ops env (.createTable t columns)) (fun _ _ => False) := by
  have hopening := @opening_createTable _ ops env _ _ columns (h.empty t ht hunlisted)
  refine Post.on (Catalog.dropTable_post.mono (fun _ catalog' hdrop => ?_) (fun _ _ h => h))
  refine h.kept_of_table ht (.inr hopening) hsent hmade (.of_empty hgone _) (fun u hne => ?_) (.inr hgone)
  refine (Catalog.hasTable_congr (hdrop.2.2 u hne)).trans ?_
  rw [hcatalog]
  exact htables u hne

theorem foldl_none : ([] : List (String × Statement)).reverse.foldl
    (carryOut ops env (cluster.addressee env)) cluster.shards =
      Function.update cluster.shards (dataDirFor (Router.tableKey t)) (cluster.shard (Router.tableKey t)) :=
  (Function.update_eq_self ..).symm

/-- At most the `CREATE TABLE` is sent, and after an error the node has no table. An exception leaves the
    table in the catalog. -/
theorem Tidy.sendCreateTable {registry : Registry} (h : cluster.Tidy) (ht : t.Identified)
    (hunlisted : ¬ cluster.router.catalog.hasTable t) (hlisted : catalog.hasTable t)
    (htables : ∀ u, u ≠ t → catalog.hasTable u = cluster.router.catalog.hasTable u)
    (hown : ({ cluster.router with catalog, registry } : Router).Contacts (Router.tableKey t) →
      (env.link (Router.tableKey t)).Acts →
      cluster.addressee env (Router.tableKey t) = Router.tableKey t ∧
        (((cluster.shard (Router.tableKey t)).createTable ops env.construction t columns).2.hasSchema →
          env.link (Router.tableKey t) ≠ .lost true ∧ env.construction.indexes = none)) :
    (Router.sendToStorage (cluster.storageEnv ops env (.createTable t columns)) (Router.tableKey t)
      (.createTable t columns)).Post { cluster.router with catalog, registry }
      (fun response router => router.catalog = catalog ∧ ∃ new made,
        router.sent = new ++ cluster.router.sent ∧
        new.reverse.foldl (carryOut ops env (cluster.addressee env)) cluster.shards =
          Function.update cluster.shards (dataDirFor (Router.tableKey t)) made ∧
        made.Sound t.table ∧ (response.isError → made.hasSchema = false))
      (fun _ => cluster.Kept ops env (.createTable t columns)) := by
  have hempty := h.empty t ht hunlisted
  refine (Router.sendToStorage_post.and Router.sendToStorage_sent).mono (fun response router hsent => ?_)
    (fun _ router hsent => ?_)
  · obtain ⟨⟨hcatalog, -⟩, ⟨hsent, -⟩ | ⟨hsent, hcontacts, hresponse⟩⟩ := hsent
    · exact ⟨hcatalog, [], _, hsent, foldl_none, h.sound t ht, fun _ => hempty⟩
    · have hown := hown hcontacts
      obtain ⟨hsound, hgone⟩ := h.carried_createTable ht hunlisted fun hacts => (hown hacts).2
      refine ⟨hcatalog, [(Router.tableKey t, .createTable t columns)], _, hsent,
        foldl_single fun hacts => (hown hacts).1, hsound, fun herror => hgone ?_⟩
      rcases hresponse with hresponse | ⟨hlost, -⟩
      · obtain ⟨hlink, hanswer⟩ := exchange_eq_responds hresponse
        rw [reply, (hown (by rw [hlink]; rfl)).1, opening_createTable hempty] at hanswer
        refine .inr ⟨hlink, ?_⟩
        rw [← hanswer] at herror
        exact herror
      · exact .inl (exchange_eq_noResponse hlost)
  · obtain ⟨⟨hcatalog, -⟩, ⟨hsent, -⟩ | ⟨hsent, hcontacts, -⟩⟩ := hsent
    · exact h.kept_of_listed [] ht hunlisted hlisted htables hcatalog hsent foldl_none (h.sound t ht)
    · have hown := hown hcontacts
      exact h.kept_of_listed [_] ht hunlisted hlisted htables hcatalog hsent
        (foldl_single fun hacts => (hown hacts).1)
        (h.carried_createTable ht hunlisted fun hacts => (hown hacts).2).1

theorem Tidy.routeCreateTable (h : cluster.Tidy) (ht : t.Identified)
    (hsafe : cluster.Safe ops (.route env (.createTable t columns))) :
    (Router.routeCreateTable (cluster.storageEnv ops env (.createTable t columns)) t columns).Post
      cluster.router (fun _ => cluster.Kept ops env (.createTable t columns))
      (fun _ => cluster.Kept ops env (.createTable t columns)) := by
  refine Post.bind (Post.on (Catalog.createTable_post.mono (fun created catalog hcreated => ?_)
    (fun _ catalog hsame => h.kept_of_unsent (.inl rfl) rfl (fun _ => by rw [hsame]))))
  rcases hcreated with ⟨rfl, rfl⟩ | ⟨rfl, haccepts, hlisted, -, hothers⟩
  · -- the catalog refuses the table, and nothing is sent
    exact Post.ite (fun h => absurd h (by simp))
      (fun _ => Post.pure (h.kept_of_unsent (.inl rfl) rfl (fun _ => rfl)))
  rw [if_pos rfl]
  have hunlisted := haccepts.2.1
  have htables : ∀ u, u ≠ t → catalog.hasTable u = cluster.router.catalog.hasTable u :=
    fun u hne => Catalog.hasTable_congr (hothers u hne)
  refine Post.bind (Post.on ((Registry.createNode_post.and Router.createNode_reaches).mono
    (fun registered registry hnode => ?_)
    (fun _ registry _ => h.kept_of_listed [] ht hunlisted hlisted htables rfl rfl foldl_none
      (h.sound t ht))))
  refine Post.ite (fun hregistered => ?_) (fun _ => ?_)
  · refine Post.bind ((h.sendCreateTable ht hunlisted hlisted htables fun hcontacts => ?_).mono
      (fun response router hsent => ?_) (fun _ _ h => h))
    · -- the statement gets to the node of the table
      refine hsafe haccepts ?_
      rcases hnode.2 hregistered with ⟨-, rfl⟩ | hstarted
      · exact .inl hcontacts
      · exact .inr hstarted
    · obtain ⟨hcatalog, new, made, hnew, hmade, hsound, hgone⟩ := hsent
      refine Post.ite (fun herror => ?_)
        (fun _ => Post.pure (h.kept_of_listed new ht hunlisted hlisted htables hcatalog hnew hmade hsound))
      refine Post.bind (Post.on (Registry.dropNode_post.mono (fun _ registry' _ => ?_)
        (fun _ _ h => h.elim)))
      exact Post.bind ((h.takesBack { router with registry := registry' } new ht hunlisted htables
        hcatalog hnew hmade (hgone herror)).mono (fun _ _ h => Post.pure h) (fun _ _ h => h.elim))
  · exact Post.bind ((h.takesBack { cluster.router with catalog, registry } [] ht hunlisted
      htables rfl rfl foldl_none (h.empty t ht hunlisted)).mono (fun _ _ h => Post.pure h)
      (fun _ _ h => h.elim))

end CreateTable

/-! ## Other statements -/

theorem Tidy.routeDropTable {t : TableRef} (h : cluster.Tidy) (ht : t.Identified)
    (hsafe : cluster.Safe ops (.route env (.dropTable t))) :
    (Router.routeDropTable (cluster.storageEnv ops env (.dropTable t)) t).Post cluster.router
      (fun _ => cluster.Kept ops env (.dropTable t)) (fun _ => cluster.Kept ops env (.dropTable t)) := by
  refine Post.get_bind (Post.ite (fun _ => Post.pure (h.kept_of_unsent (.inl rfl) rfl (fun _ => rfl)))
    (fun _ => ?_))
  refine Post.bind (((h.sendToStorage (fun _ => .inr rfl) (by simp)).and
    (Router.sendToStorage_post.and Router.sendToStorage_sent)).mono (fun response router hsent => ?_)
    (fun _ _ h => h.1))
  obtain ⟨hkept, ⟨hcatalog, -⟩, hsent⟩ := hsent
  refine Post.ite (fun hsuccess => ?_) (fun _ => Post.pure hkept)
  have hnot : ¬ (response.isError = true) := by
    intro herror
    have hsuccess : response.status = "success" := by simpa [Response.isSuccess] using hsuccess
    rw [Response.isError, hsuccess] at herror
    exact absurd herror (by decide)
  refine Post.bind (Post.on (Catalog.dropTable_post.mono (fun _ catalog hdrop => ?_)
    (fun _ _ h => h.elim)))
  refine Post.bind (Post.on (Registry.dropNode_post.mono (fun _ registry _ => Post.pure ?_)
    (fun _ _ h => h.elim)))
  rcases hsent with ⟨-, herror, -⟩ | ⟨hsent, hcontacts, hresponse | ⟨-, herror⟩⟩
  · exact absurd herror hnot
  · -- a node that holds the table has dropped it, as it has answered
    obtain ⟨hlink, -⟩ := exchange_eq_responds hresponse
    have hlisted : ∀ u, u ≠ t → (catalog.hasTable u ↔ cluster.router.catalog.hasTable u) := by
      intro u hne
      rw [Catalog.hasTable_congr (hdrop.2.2 u hne), hcatalog]
    refine h.kept [(Router.tableKey t, .dropTable t)] (.inr rfl) hsent (by simp) (fun u hu => ?_)
      (fun u hu hgone hbefore => ?_)
    · by_cases hne : u = t
      · subst hne
        exact absurd hu hdrop.1
      · exact (hlisted u hne).1 hu
    · have hut : u = t := by
        by_contra hne
        exact hgone ((hlisted u hne).2 hbefore)
      subst hut
      by_cases hempty : (cluster.shard (Router.tableKey u)).hasSchema = false
      · exact foldl_carryOut_empty hempty (by simp)
      · rw [Bool.not_eq_false] at hempty
        exact foldl_carryOut_dropMessage (h.sound u hu) (by simp) (List.mem_singleton.2 rfl)
          (by rw [hlink]; rfl) (hsafe hempty hcontacts hlink)
  · exact absurd herror hnot

theorem Tidy.routeDropDatabase {name : String} (h : cluster.Tidy)
    (hsafe : cluster.Safe ops (.route env (.dropDatabase name))) :
    (Router.route (cluster.storageEnv ops env (.dropDatabase name)) (.dropDatabase name)).Post
      cluster.router (fun _ => cluster.Kept ops env (.dropDatabase name))
      (fun _ => cluster.Kept ops env (.dropDatabase name)) := by
  have hidentified : ∀ t ∈ cluster.router.catalog.tablesOf name, t.Identified :=
    fun t ht => h.identified t (Catalog.mem_tablesOf.1 ht).2
  refine Post.bind (Post.on ((Catalog.dropDatabase_post.and Router.dropDatabase_tablesOf).mono
    (fun tables catalog hdrop => ?_) (fun _ _ h => h.1.elim)))
  obtain ⟨⟨-, htables, -⟩, rfl⟩ := hdrop
  have hnodup : ((cluster.router.catalog.tablesOf name).map Router.tableKey).Nodup :=
    Router.tablesOf_nodup.map_on fun t ht u hu hkey =>
      tableKey_injective (hidentified t ht).named (hidentified u hu).named hkey
  have hkept : ∀ (router : Router) (new : List (String × Statement)),
      Router.DropsSent (cluster.storageEnv ops env (.dropDatabase name))
        (cluster.router.catalog.tablesOf name) { cluster.router with catalog } router new →
      cluster.Kept ops env (.dropDatabase name) router := by
    intro router new hsent
    have hcreate : ∀ m ∈ new, ∀ u columns, m.2 ≠ .createTable u columns := by
      intro m hm u columns hm'
      obtain ⟨v, -, rfl⟩ := hsent.only m hm
      cases hm'
    refine h.kept _ (.inr rfl) hsent.sent hcreate (fun t ht => ?_) (fun t ht hgone hlisted => ?_)
    · rw [hsent.catalog] at ht
      exact ((htables t).1 ht).1
    · rw [hsent.catalog, htables t, not_and_not_right] at hgone
      have hcreate : ∀ m ∈ new.reverse, ∀ u columns, m.2 ≠ .createTable u columns :=
        fun m hm => hcreate m (List.mem_reverse.1 hm)
      by_cases hempty : (cluster.shard (Router.tableKey t)).hasSchema = false
      · exact foldl_carryOut_empty hempty (fun m hm _ _ => hcreate m hm)
      · rw [Bool.not_eq_false] at hempty
        have hmem : t ∈ cluster.router.catalog.tablesOf name :=
          Catalog.mem_tablesOf.2 ⟨hgone hlisted, hlisted⟩
        obtain ⟨front, back, hsplit⟩ := List.append_of_mem hmem
        obtain ⟨hcontacts, hacts, hown, hquiet⟩ := hsafe front t back hsplit hempty
        refine foldl_carryOut_dropMessage (h.sound t ht) hcreate (List.mem_reverse.2 ?_) hacts hown
        refine hsent.reached front t back hsplit hcontacts (reached_of_acts _ hacts)
          (fun u hu hcontacts what hraises => ?_)
        obtain ⟨acted, hlink⟩ := exchange_eq_raises hraises
        exact hquiet u hu hcontacts acted what hlink
  exact Post.bind ((Router.dropTables_sent hnodup).mono
    (fun _ router ⟨new, hsent⟩ => Post.pure (hkept router new hsent))
    (fun _ router ⟨new, hsent⟩ => hkept router new hsent))

/-! ## Runs keep it -/

/-- A statement that is routed keeps the nodes tidy. -/
theorem Tidy.route (h : cluster.Tidy) (hnamed : (Event.route env statement).WellNamed)
    (hsafe : cluster.Safe ops (.route env statement)) :
    (Router.route (cluster.storageEnv ops env statement) statement).Post cluster.router
      (fun _ => cluster.Kept ops env statement) (fun _ => cluster.Kept ops env statement) := by
  have hsame : cluster.Kept ops env statement cluster.router :=
    h.kept_of_unsent (.inl rfl) rfl (fun _ => rfl)
  -- statements that are only sent to the node of their table
  have hsend : ∀ {senv : StorageEnv} {t : TableRef},
      (∀ router, cluster.Unopened ops env statement router) →
      (∀ u columns, statement ≠ .createTable u columns) →
      Post (do
        if (← get).catalog.hasTable t then Router.sendToStorage senv (Router.tableKey t) statement
        else return .error ("Table not found: " ++ Router.tableKey t)) cluster.router
        (fun _ => cluster.Kept ops env statement) (fun _ => cluster.Kept ops env statement) :=
    fun hopen hcreate =>
      Post.get_bind (Post.ite (fun _ => h.sendToStorage hopen hcreate) (fun _ => Post.pure hsame))
  cases statement with
  | createDatabase name =>
      refine Post.bind (Post.on (Catalog.createDatabase_post.mono (fun created catalog hdb => ?_)
        (fun _ _ h => h.elim)))
      have h₁ : cluster.Kept ops env (.createDatabase name) { cluster.router with catalog } :=
        h.kept_of_unsent (.inr rfl) rfl (fun t => Catalog.hasTable_congr (hdb.2 t))
      exact Post.ite (fun _ => Post.pure h₁) (fun _ => Post.pure h₁)
  | dropDatabase name => exact h.routeDropDatabase hsafe
  | useDatabase name =>
      exact Post.get_bind (Post.ite (fun _ => Post.pure hsame) (fun _ => Post.pure hsame))
  | createTable t columns => exact h.routeCreateTable (hnamed t rfl) hsafe
  | dropTable t => exact h.routeDropTable (hnamed t rfl) hsafe
  | createUser username password => exact Post.pure hsame
  | grant permissions scope username => exact Post.pure hsame
  | revoke permissions scope username => exact Post.pure hsame
  | revert t timestamp => exact hsend (fun _ => .inr rfl) (by simp)
  | insert t columns values => exact hsend (fun _ => .inr rfl) (by simp)
  | update t assignments whereClause => exact hsend (fun _ => .inr rfl) (by simp)
  | delete t whereClause => exact hsend (fun _ => .inr rfl) (by simp)
  | select selectAll items t whereClause => exact hsend (fun _ => .inr rfl) (by simp)

/-- The monitor does not change the catalog. -/
theorem onRegistry_catalog {α : Type} (x : Prog Registry α) :
    (cluster.onRegistry x).router.catalog = cluster.router.catalog := by
  unfold Cluster.onRegistry
  refine Post.of_after (P := fun router : Router => router.catalog = cluster.router.catalog) ?_
  exact Post.on_frame.mono (fun _ _ ⟨_, h⟩ => by rw [h]) (fun _ _ ⟨_, h⟩ => by rw [h])

theorem Tidy.onRegistry {α : Type} {x : Prog Registry α} (h : cluster.Tidy) :
    (cluster.onRegistry x).Tidy := by
  refine ⟨fun t ht hnot => ?_, h.sound, fun t ht => ?_⟩
  · rw [onRegistry_catalog] at hnot
    exact h.empty t ht hnot
  · rw [onRegistry_catalog] at ht
    exact h.identified t ht

/-- A process that opens a directory finds the table of the directory, or none. -/
theorem Tidy.openDirectory (h : cluster.Tidy) (id : String) :
    Tidy { cluster with shards := openDirectory ops id cluster.shards } := by
  have hopened : ∀ dir, Cluster.openDirectory ops id cluster.shards dir = cluster.shards dir ∨
      Cluster.openDirectory ops id cluster.shards dir = (cluster.shards dir).opened ops := by
    intro dir
    by_cases hdir : dir = dataDirFor id
    · subst hdir
      exact .inr (Function.update_self ..)
    · exact .inl (Function.update_of_ne hdir ..)
  refine ⟨fun t ht hnot => ?_, fun t ht => ?_, h.identified⟩
  · show Shard.hasSchema (Cluster.openDirectory ops id cluster.shards _) = false
    rcases hopened (dataDirFor (Router.tableKey t)) with hsame | hsame <;> rw [hsame]
    · exact h.empty t ht hnot
    · rw [Shard.hasSchema_opened]
      exact h.empty t ht hnot
  · show Shard.Sound (Cluster.openDirectory ops id cluster.shards _) t.table
    rcases hopened (dataDirFor (Router.tableKey t)) with hsame | hsame <;> rw [hsame]
    · exact h.sound t ht
    · exact Shard.Sound.reopened (h.sound t ht)

theorem Tidy.restarted (h : cluster.Tidy) (start : StartOutcome) (id : String) :
    Tidy { cluster with shards := cluster.restarted ops start id } := by
  unfold Cluster.restarted
  dsimp only
  split
  · exact h.openDirectory id
  · exact h

theorem Tidy.step {e : Event} (h : cluster.Tidy) (hnamed : e.WellNamed) (hsafe : cluster.Safe ops e) :
    (cluster.step ops e).Tidy := by
  cases e with
  | route env statement =>
      exact Post.of_after (P := cluster.Kept ops env statement) (h.route hnamed hsafe)
  | updateNode id state => exact h.onRegistry
  | restartNode id start => exact (h.restarted start id).onRegistry

theorem Tidy.run {events : List Event} : ∀ {cluster : Cluster τ}, cluster.Tidy →
    (∀ e ∈ events, e.WellNamed) → cluster.SafeRun ops events → (cluster.run ops events).Tidy := by
  induction events with
  | nil => exact fun h _ _ => h
  | cons e events ih =>
      intro cluster h hnamed hsafe
      exact ih (h.step (hnamed e (by simp)) hsafe.1) (fun e he => hnamed e (by simp [he])) hsafe.2

theorem new_tidy (autoStartStorage : Bool) : (new autoStartStorage : Cluster τ).Tidy where
  empty _ _ _ := rfl
  sound _ _ := .of_empty rfl _
  identified t ht := by simp [new, Catalog.load, Catalog.hasTable] at ht

theorem safeRun_append {front back : List Event} : ∀ {cluster : Cluster τ},
    cluster.SafeRun ops (front ++ back) → cluster.SafeRun ops front := by
  induction front with
  | nil => exact fun _ => trivial
  | cons e front ih => exact fun h => ⟨h.1, ih h.2⟩

/-- In a run all of whose steps are safe, no directory of a table that is not in the catalog holds a `.schema`
    file, in any state. -/
theorem run_noOrphans {autoStartStorage : Bool} {events : List Event}
    (hnamed : ∀ e ∈ events, e.WellNamed)
    (hsafe : (new autoStartStorage : Cluster τ).SafeRun ops events) :
    ∀ front back, events = front ++ back →
      ((new autoStartStorage : Cluster τ).run ops front).NoOrphans ops := by
  rintro front back rfl
  exact ((new_tidy autoStartStorage).run (fun e he => hnamed e (by simp [he]))
    (safeRun_append hsafe)).noOrphans

/-- Every node starts and answers, and no two share a port. -/
def answering : ClusterEnv where
  startProcess _ := .started
  link _ := .answers
  listener id _ := id
  saved _ := true

/-- No node is reached. -/
def unreachable : ClusterEnv := { answering with link := fun _ => .unreachable }

/-- The nodes act, and their responses are lost. -/
def deaf : ClusterEnv := { answering with link := fun _ => .lost true }

/-- Tables that are not looked into. -/
def blank : TableOps Unit where
  create _ := ()
  reopen table := table
  execute _ table := (.success "", table)

/-- `CREATE TABLE d.t (a INT);` -/
def createOrders : Statement := .createTable ⟨"d", "t"⟩ [{ name := "a", columnType := .int }]

/-- The table is created at the second try, its node is restarted, and it is dropped at the second try. -/
def retries : List Event :=
  [.route answering (.createDatabase "d"), .route unreachable createOrders,
    .route answering createOrders, .restartNode "d.t" .started, .route deaf (.dropTable ⟨"d", "t"⟩),
    .route answering (.dropTable ⟨"d", "t"⟩)]

theorem identified_orders : TableRef.Identified ⟨"d", "t"⟩ :=
  ⟨by decide, by decide⟩

theorem run_noOrphans_retries : ((new true : Cluster Unit).run blank retries).NoOrphans blank := by
  have hall : ∀ front back, retries = front ++ back →
      ((new true : Cluster Unit).run blank front).NoOrphans blank := by
    refine run_noOrphans ?_ ⟨trivial, fun _ _ hacts => ?_, fun _ _ _ => ?_, trivial, fun _ _ _ => rfl,
      fun _ _ _ => rfl, trivial⟩
    · simp only [retries, List.forall_mem_cons, Event.WellNamed, createOrders,
        Statement.tableFromStatement]
      refine ⟨by simp, ?_, ?_, trivial, ?_, ?_, by simp⟩ <;>
      · rintro t ⟨⟩
        exact identified_orders
    · cases hacts
    · exact ⟨rfl, fun _ => ⟨Link.noConfusion, rfl⟩⟩
  exact hall retries [] (List.append_nil _).symm

/-- A table whose `CREATE TABLE` was not answered stays at its node, and is in the way of the next. -/
theorem lostResponse_leaves_orphan :
    ¬ ∀ events : List Event, (∀ e ∈ events, e.WellNamed) →
      ((new true : Cluster Unit).run blank events).NoOrphans blank := by
  intro h
  have horphan := h [.route answering (.createDatabase "d"), .route deaf createOrders] (by
    simp only [List.forall_mem_cons, Event.WellNamed, createOrders, Statement.tableFromStatement]
    refine ⟨by simp, ?_, by simp⟩
    rintro t ⟨⟩
    exact identified_orders) ⟨"d", "t"⟩ identified_orders (by decide)
  have hheld : (((new true : Cluster Unit).run blank [.route answering (.createDatabase "d"),
      .route deaf createOrders]).shard "d.t").hasSchema = true := by decide
  have hkey : Router.tableKey ⟨"d", "t"⟩ = "d.t" := by decide
  rw [hkey] at horphan
  rw [horphan.1] at hheld
  cases hheld

end Cluster

end QuasarDB.Server
