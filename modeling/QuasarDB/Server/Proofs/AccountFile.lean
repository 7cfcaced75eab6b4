import QuasarDB.Server.Proofs.Handlers

set_option autoImplicit false

/-! # A damaged accounts file

`load_ok_` keeps a store that could not read its file from creating accounts and from writing the file.
It only sees text that is JSON: other text is replaced by the empty account map before. -/

namespace QuasarDB.Server

open Core Prog

namespace AccountStore

variable {text : JsonText} {env : AccountEnv} {store : AccountStore} {username password : String}

/-- The bytes are an account map. -/
def Encodes (text : JsonText) (bytes : List UInt8) : Prop :=
  ∃ json accounts, text.parse bytes = some json ∧ accountsFromJson json = .ok accounts

/-- What `Load` leaves behind when it fails. -/
structure Locked (store : AccountStore) : Prop where
  loadOk : store.loadOk = false
  accounts : store.accounts = ∅

theorem Locked.empty (h : store.Locked) : store.empty = true := by
  rw [AccountStore.empty, h.accounts]
  rfl

theorem locked_load {bytes : List UInt8} {json : Json} (hparse : text.parse bytes = some json)
    (hinvalid : ¬ Encodes text bytes) : (load text (some bytes)).Locked := by
  unfold load
  rw [JsonFile.load, hparse, Option.getD_some]
  cases haccounts : accountsFromJson json with
  | ok accounts => exact absurd ⟨json, accounts, hparse, haccounts⟩ hinvalid
  | error what => exact ⟨rfl, rfl⟩

theorem load_file (file : JsonFile) : (load text file).file = file := by
  unfold load
  split <;> rfl

theorem load_of_discarded {bytes : List UInt8} (hparse : text.parse bytes = none) :
    load text (some bytes) = { accounts := ∅, loadOk := true, file := some bytes } := by
  unfold load
  rw [JsonFile.load, hparse]
  rfl

/-- The account is new, and stands in the file from now on. -/
structure Created (username : String) (store store' : AccountStore) : Prop where
  loadOk : store.loadOk = true
  fresh : store.hasAccount username = false
  accounts : ∃ account, store'.accounts = store.accounts.insert username account
  loadOk' : store'.loadOk = true

/-- An account that cannot be saved is taken back. -/
theorem erase_insert_of_fresh {accounts : Dict Account} {account : Account}
    (hfresh : accounts.lookup username = none) :
    (accounts.insert username account).erase username = accounts := by
  have hmem : username ∉ accounts := AList.lookup_eq_none.1 hfresh
  apply AList.ext
  show List.kerase username (accounts.insert username account).entries = accounts.entries
  rw [AList.entries_insert_of_notMem hmem]
  exact List.kerase_cons_eq rfl

/-- The file is written as a whole, or nothing changes. -/
theorem save_post :
    (save text env).Post store
      (fun saved store' => if saved then store.loadOk = true ∧ store'.loadOk = true ∧
          store'.accounts = store.accounts else store' = store) (fun _ _ => False) := by
  refine Post.get_bind (Post.ite (fun _ => Post.pure rfl) (fun hload => ?_))
  have hok : store.loadOk = true := by simpa using hload
  refine Post.bind (Post.set (Post.pure ?_))
  cases hsaved : env.saved with
  | true => exact ⟨hok, hok, rfl⟩
  | false => rfl

theorem createAccount_post :
    (createAccount text env username password).Post store
      (fun created store' => if created then store.Created username store' else store' = store)
      (fun _ _ => False) := by
  refine Post.ite (fun _ => Post.pure rfl) (fun _ => Post.get_bind ?_)
  refine Post.ite (fun _ => Post.pure rfl) (fun hname => ?_)
  refine Post.ite (fun _ => Post.pure rfl) (fun _ => ?_)
  refine Post.ite (fun _ => Post.pure rfl) (fun _ => ?_)
  have hfresh : store.hasAccount username = false := by simpa using hname
  refine Post.bind (Post.modify (Post.bind (save_post.mono ?_ (fun _ _ hfalse => hfalse))))
  rintro saved store' hsave
  cases saved with
  | true =>
      obtain ⟨hok, hok', haccounts⟩ := hsave
      exact Post.pure ⟨hok, hfresh, ⟨_, haccounts⟩, hok'⟩
  | false =>
      refine Post.bind (Post.modify (Post.pure ?_))
      rw [if_neg Bool.false_ne_true] at hsave
      subst hsave
      have hnone : store.accounts.lookup username = none := by
        simpa [hasAccount] using hfresh
      simp [erase_insert_of_fresh hnone]

/-- A locked store creates no account. -/
theorem createAccount_locked (h : store.Locked) :
    createAccount text env username password store = .ok false store := by
  have hpost : (createAccount text env username password).Post store _ _ := createAccount_post
  obtain ⟨created, store', hrun, hcreated⟩ := hpost.exists_ok
  cases created with
  | true => exact absurd hcreated.loadOk (by simp [h.loadOk])
  | false =>
      rw [if_neg Bool.false_ne_true] at hcreated
      rw [hrun, hcreated]

/-! ## Runs -/

/-- A call of `CreateAccount`. -/
structure CreateCall where
  env : AccountEnv
  username : String
  password : String

/-- One call after the other, with what each returns. -/
def createAll (text : JsonText) : List CreateCall → Prog AccountStore (List Bool)
  | [] => return []
  | call :: calls => do
      let created ← createAccount text call.env call.username call.password
      let others ← createAll text calls
      return created :: others

theorem createAll_locked (h : store.Locked) (calls : List CreateCall) :
    createAll text calls store = .ok (calls.map fun _ => false) store := by
  induction calls with
  | nil => rfl
  | cons call calls ih =>
      rw [createAll, bind_ok (createAccount_locked h), bind_ok ih]
      rfl

end AccountStore

/-! ## First-run setup -/

variable {config : Config} {env : Env} {request : Request} {h : Handling}

/-- A login finds no accounts in a locked store, and creates none. -/
theorem handleLogin_locked (hlocked : h.app.accounts.Locked) :
    (handleLogin config env request).Post h
      (fun response h' => response.isSuccess = false ∧ h' = h) (fun _ h' => h' = h) := by
  refine Post.bind (Post.ofExcept (fun username _ => ?_) (fun _ _ => rfl))
  refine Post.bind (Post.ofExcept (fun password _ => ?_) (fun _ _ => rfl))
  refine Post.bind (Post.ofExcept (fun create _ => ?_) (fun _ _ => rfl))
  refine Post.ite (fun _ => Post.pure ⟨rfl, rfl⟩) (fun _ => Post.get_bind ?_)
  rw [if_pos hlocked.empty]
  refine Post.ite (fun _ => Post.pure ⟨rfl, rfl⟩) (fun _ => ?_)
  refine Post.bind (Post.on ?_)
  rw [Post, AccountStore.createAccount_locked hlocked]
  exact Post.pure ⟨rfl, rfl⟩

/-- A server that starts with the file is closed: no call creates an account, the file stays as it
    is, and no login succeeds or changes anything. -/
structure StaysClosed (text : JsonText) (bytes : List UInt8) : Prop where
  creates : ∀ calls, ∃ store,
    AccountStore.createAll text calls (.load text (some bytes)) =
        .ok (calls.map fun _ => false) store ∧
      store.file = some bytes
  logins : ∀ config env request h, h.app.accounts = .load text (some bytes) →
    (handleLogin config env request).Post h
      (fun response h' => response.isSuccess = false ∧ h' = h) (fun _ h' => h' = h)

/-- A file that is no account map closes the server if and only if it is JSON text. -/
theorem staysClosed_iff {text : JsonText} {bytes : List UInt8}
    (hinvalid : ¬ AccountStore.Encodes text bytes) :
    StaysClosed text bytes ↔ (text.parse bytes).isSome = true := by
  cases hparse : text.parse bytes with
  | some json =>
      have hlocked := AccountStore.locked_load hparse hinvalid
      refine iff_of_true ⟨fun calls => ?_, fun config env request h hload => ?_⟩ rfl
      · exact ⟨_, AccountStore.createAll_locked hlocked calls, AccountStore.load_file _⟩
      · rw [← hload] at hlocked
        exact handleLogin_locked hlocked
  | none =>
      refine iff_of_false (fun hclosed => ?_) (by simp)
      -- the first account of an empty map
      obtain ⟨store, hrun, _⟩ := hclosed.creates
        [⟨⟨"salt", fun password _ => password, true⟩, "user", "password"⟩]
      rw [AccountStore.load_of_discarded hparse] at hrun
      cases hrun

/-- JSON text, as far as `[]` goes. -/
def brackets : JsonText where
  parse bytes := if bytes = [91, 93] then some (.array []) else none
  dump _ := []

theorem staysClosed_iff_brackets :
    StaysClosed brackets [91, 93] ↔ (brackets.parse [91, 93]).isSome = true := by
  refine staysClosed_iff ?_
  rintro ⟨json, accounts, hparse, haccounts⟩
  cases hparse
  cases haccounts

/-- A file that ends after its first brace opens the server to whoever comes first. -/
theorem staysClosed_fails :
    ¬ AccountStore.Encodes brackets [123] ∧ ¬ StaysClosed brackets [123] := by
  constructor
  · rintro ⟨json, accounts, hparse, _⟩
    cases hparse
  · intro hclosed
    obtain ⟨store, hrun, _⟩ := hclosed.creates
      [⟨⟨"salt", fun password _ => password, true⟩, "user", "password"⟩]
    cases hrun

end QuasarDB.Server
