import QuasarDB.Server.Proofs.CatalogRegistry

set_option autoImplicit false

/-! # What the router sends

How the exchange with a node comes out, and which tables `DROP DATABASE` gets through to. -/

namespace QuasarDB

open Core Prog

namespace Server

/-- A statement for the node leaves the router. -/
def Exchange.Reached : Exchange → Prop
  | .notConnected | .notSent => False
  | _ => True

namespace Router

variable {env : StorageEnv} {router : Router}

/-- The node of an id will be contacted, once `CREATE TABLE` has seen to it. -/
def Reaches (env : StorageEnv) (router : Router) (id : String) : Prop :=
  router.Contacts id ∨ (router.registry.getNode id = none ∧
    (router.registry.autoStartStorage = true → env.startProcess id = .started))

theorem createNode_reaches {id : String} {start : StartOutcome} {registry : Registry} :
    (Registry.createNode start id).Post registry
      (fun created registry' => created = true →
        (registry.hasNode id ∧ registry' = registry) ∨
        (registry.getNode id = none ∧ (registry.autoStartStorage = true → start = .started)))
      (fun _ _ => True) := by
  refine Post.get_bind (Post.ite (fun hhas => Post.pure (fun _ => .inl ⟨hhas, rfl⟩)) (fun hnew => ?_))
  have hnone : registry.getNode id = none := by
    simpa [Registry.hasNode, Registry.getNode] using hnew
  refine Post.get_bind (Post.bind (Post.modify (Post.bind ?_)))
  refine Post.get_bind (Post.ite (fun hauto => Post.pure ?_) (fun hauto => ?_))
  · rw [if_pos rfl]
    refine fun _ => .inr ⟨hnone, fun h => ?_⟩
    have hauto : registry.autoStartStorage = false := by simpa using hauto
    rw [hauto] at h
    cases h
  cases start with
  | started =>
      refine Post.pure ?_
      rw [if_pos rfl]
      exact fun _ => .inr ⟨hnone, fun _ => rfl⟩
  | notStarted =>
      refine Post.pure ?_
      rw [if_neg (by simp)]
      exact fun h => absurd h (by simp)
  | raises what => exact Post.throw trivial

/-- What `SendToStorage` makes of the exchange. -/
theorem sendToStorage_sent {id : String} {statement : Statement} :
    (sendToStorage env id statement).Post router
    (fun response router' =>
      (router'.sent = router.sent ∧ response.isError ∧
        ¬ (router.Contacts id ∧ (env.exchange id).Reached)) ∨
      (router'.sent = (id, statement) :: router.sent ∧ router.Contacts id ∧
        (env.exchange id = .responds response ∨
          (env.exchange id = .noResponse ∧ response.isError))))
    (fun _ router' =>
      (router'.sent = router.sent ∧ ∃ what, serializeAst statement = .error what) ∨
      (router'.sent = (id, statement) :: router.sent ∧ router.Contacts id ∧
        ∃ what, env.exchange id = .raises what)) := by
  refine Post.get_bind ?_
  cases hnode : router.registry.getNode id with
  | none =>
      refine Post.pure (.inl ⟨rfl, rfl, ?_⟩)
      rintro ⟨⟨node, hsome, -⟩, -⟩
      rw [hnode] at hsome
      cases hsome
  | some node =>
      refine Post.ite (fun hdown => Post.pure (.inl ⟨rfl, rfl, ?_⟩)) (fun hstate => ?_)
      · rintro ⟨⟨other, hsome, hup⟩, -⟩
        rw [hnode] at hsome
        cases hsome
        exact hup hdown
      have hcontacts : router.Contacts id := ⟨node, hnode, hstate⟩
      unfold exchangeWith
      cases henv : env.exchange id with
      | notConnected => exact Post.pure (.inl ⟨rfl, rfl, fun h => h.2⟩)
      | notSent =>
          exact Post.bind (Post.ofExcept (fun _ _ => Post.pure (.inl ⟨rfl, rfl, fun h => h.2⟩))
            (fun what hwhat => .inl ⟨rfl, what, hwhat⟩))
      | noResponse =>
          exact Post.bind (Post.ofExcept (fun _ _ => .inr ⟨rfl, hcontacts, .inr ⟨rfl, rfl⟩⟩)
            (fun what hwhat => .inl ⟨rfl, what, hwhat⟩))
      | responds response =>
          exact Post.bind (Post.ofExcept (fun _ _ => .inr ⟨rfl, hcontacts, .inl rfl⟩)
            (fun what hwhat => .inl ⟨rfl, what, hwhat⟩))
      | raises what =>
          exact Post.bind (Post.ofExcept (fun _ _ => .inr ⟨rfl, hcontacts, what, rfl⟩)
            (fun what hwhat => .inl ⟨rfl, what, hwhat⟩))

theorem dropDatabase_tablesOf {saved : Bool} {name : String} {catalog : Catalog} :
    (Catalog.dropDatabase saved name).Post catalog
      (fun tables _ => tables = catalog.tablesOf name) (fun _ _ => False) := by
  refine Post.get_bind (Post.ite (fun hnone => Post.pure ?_) (fun _ => ?_))
  · have hdb : catalog.databases.lookup name = none := by simpa [Catalog.hasDatabase] using hnone
    rw [Catalog.tablesOf, hdb]
  · exact rfl

/-- A message of the loop of `DROP DATABASE`. -/
def dropMessage (t : TableRef) : String × Statement := (tableKey t, .dropTable t)

/-- What the loop of `DROP DATABASE` sends: it gets to a table unless a client throws before. -/
structure DropsSent (env : StorageEnv) (tables : List TableRef) (router router' : Router)
    (new : List (String × Statement)) : Prop where
  catalog : router'.catalog = router.catalog
  sent : router'.sent = new ++ router.sent
  only : ∀ m ∈ new, ∃ t ∈ tables, m = dropMessage t
  reached : ∀ front t back, tables = front ++ t :: back → router.Contacts (tableKey t) →
    (env.exchange (tableKey t)).Reached →
    (∀ u ∈ front, router.Contacts (tableKey u) → ∀ what, env.exchange (tableKey u) ≠ .raises what) →
    dropMessage t ∈ new

/-- Dropping the node of another table leaves this one as it is. -/
theorem contacts_congr {router' : Router} {id : String}
    (h : router'.registry.getNode id = router.registry.getNode id) :
    router'.Contacts id ↔ router.Contacts id := by
  unfold Contacts
  rw [h]

/-- The induction is on the tables, whose nodes differ. -/
theorem dropTables_sent {tables : List TableRef} : ∀ {router : Router},
    (tables.map tableKey).Nodup →
    (dropTables env tables).Post router
      (fun _ router' => ∃ new, DropsSent env tables router router' new)
      (fun _ router' => ∃ new, DropsSent env tables router router' new) := by
  induction tables with
  | nil =>
      intro router _
      refine Post.pure ⟨[], rfl, rfl, by simp, fun front t back h => ?_⟩
      simp at h
  | cons t tables ih =>
      intro router hnodup
      rw [List.map_cons, List.nodup_cons] at hnodup
      obtain ⟨hfresh, hnodup⟩ := hnodup
      refine Post.bind ((sendToStorage_post.and sendToStorage_sent).mono (fun _ router₁ h₁ => ?_)
        (fun _ router₁ h₁ => ?_))
      · obtain ⟨⟨hcatalog, hregistry, -⟩, hsent⟩ := h₁
        refine Post.bind (Post.on (Registry.dropNode_post.mono (fun _ registry h₂ => ?_)
          (fun _ _ h => h.elim)))
        -- the nodes of the other tables are as they were
        have hothers : ∀ u ∈ tables, { router₁ with registry }.Contacts (tableKey u) ↔
            router.Contacts (tableKey u) := by
          intro u hu
          refine contacts_congr ((h₂.2 _ ?_).trans (by rw [hregistry]))
          rintro hkey
          exact hfresh (hkey ▸ List.mem_map_of_mem hu)
        have hstep : ∀ {router' : Router} {new : List (String × Statement)},
            DropsSent env tables { router₁ with registry } router' new →
            ∃ new, DropsSent env (t :: tables) router router' new := by
          intro router' new h
          obtain ⟨first, hfirst, honly, hreached⟩ : ∃ first : List (String × Statement),
              router₁.sent = first ++ router.sent ∧ (∀ m ∈ first, m = dropMessage t) ∧
              (router.Contacts (tableKey t) → (env.exchange (tableKey t)).Reached →
                dropMessage t ∈ first) := by
            rcases hsent with ⟨hsent, -, hnot⟩ | ⟨hsent, -⟩
            · exact ⟨[], hsent, by simp, fun hc hr => absurd ⟨hc, hr⟩ hnot⟩
            · exact ⟨[dropMessage t], hsent, by simp, fun _ _ => by simp⟩
          refine ⟨new ++ first, h.catalog.trans hcatalog, ?_, fun m hm => ?_, ?_⟩
          · rw [h.sent, List.append_assoc, ← hfirst]
          · rcases List.mem_append.1 hm with hm | hm
            · obtain ⟨u, hu, rfl⟩ := h.only m hm
              exact ⟨u, by simp [hu], rfl⟩
            · exact ⟨t, by simp, honly m hm⟩
          · intro front u back heq hcontacts hr hquiet
            cases front with
            | nil =>
                obtain ⟨rfl, rfl⟩ := List.cons.inj heq
                exact List.mem_append_right _ (hreached hcontacts hr)
            | cons v front =>
                obtain ⟨rfl, rfl⟩ := List.cons.inj heq
                refine List.mem_append_left _ (h.reached front u back rfl
                  ((hothers u (by simp)).2 hcontacts) hr (fun w hw hcontacts => ?_))
                exact hquiet w (by simp [hw]) ((hothers w (by simp [hw])).1 hcontacts)
        exact (ih hnodup).mono (fun _ _ ⟨_, h⟩ => hstep h) (fun _ _ ⟨_, h⟩ => hstep h)
      · -- the client throws at the first table
        obtain ⟨⟨hcatalog, -⟩, hsent⟩ := h₁
        rcases hsent with ⟨-, what, hwhat⟩ | ⟨hsent, hcontacts, what, hwhat⟩
        · cases hwhat
        · refine ⟨[dropMessage t], hcatalog, hsent, by simp, fun front u back heq _ _ hquiet => ?_⟩
          cases front with
          | nil =>
              obtain ⟨rfl, rfl⟩ := List.cons.inj heq
              simp
          | cons v front =>
              obtain ⟨rfl, rfl⟩ := List.cons.inj heq
              exact absurd hwhat (hquiet t (by simp) hcontacts what)

theorem tablesOf_nodup {catalog : Catalog} {name : String} : (catalog.tablesOf name).Nodup := by
  unfold Catalog.tablesOf
  cases catalog.databases.lookup name with
  | none => exact List.nodup_nil
  | some tables =>
      have hkeys : (tables.keys.mergeSort (· ≤ ·)).Nodup :=
        (List.mergeSort_perm _ _).nodup_iff.2 (AList.keys_nodup tables)
      exact hkeys.map (fun _ _ h => congrArg TableRef.table h)

end Router

end Server

end QuasarDB
