import QuasarDB.Storage.Value

set_option autoImplicit false

/-! # The string store

`interner.cpp`: each string has one id, in memory and in the file `.bin`, which is written in whole
entries. -/

namespace QuasarDB.Storage

/-- `Interner`, after `UseStorage`. -/
structure StringStore extends Interner where
  /-- `string_to_id_`. -/
  stringToId : AList fun _ : String => UInt32
  nextId : UInt32
  /-- The entries of the file. -/
  file : List (UInt32 × String)

namespace StringStore

/-- `emplace` of a map. -/
def emplace {κ α : Type} [DecidableEq κ] (key : κ) (value : α) (map : AList fun _ : κ => α) :
    AList fun _ : κ => α :=
  if (map.lookup key).isSome then map else map.insert key value

/-- `LoadStorage`, on an empty file. -/
def new : StringStore := { idToView := ∅, stringToId := ∅, nextId := 1, file := [] }

/-- `AddLoadedString`. -/
def addLoadedString (store : StringStore) (entry : UInt32 × String) : StringStore :=
  { store with
    nextId := max store.nextId (entry.1 + 1)
    idToView := emplace entry.1 entry.2 store.idToView
    stringToId := emplace entry.2 entry.1 store.stringToId }

/-- `LoadStorage`. -/
def load (file : List (UInt32 × String)) : StringStore :=
  file.foldl addLoadedString { new with file }

/-- What `Intern` does with a string that has no id. -/
def append (str : String) (store : StringStore) : StringStore :=
  { nextId := store.nextId + 1
    file := store.file ++ [(store.nextId, str)]
    stringToId := emplace str store.nextId store.stringToId
    idToView := emplace store.nextId str store.idToView }

/-- `Intern`. -/
def intern (str : String) : Prog StringStore Value := do
  let store ← get
  match store.stringToId.lookup str with
  | some id => return .string ⟨id⟩
  | none =>
      set (store.append str)
      return .string ⟨store.nextId⟩

/-! ## Growth -/

/-- Every id keeps its string. -/
def Extends (store store' : StringStore) : Prop :=
  ∀ id view, store.idToView.lookup id = some view → store'.idToView.lookup id = some view

/-- Every string that has an id can be looked up by it. -/
def Closed (store : StringStore) : Prop :=
  ∀ str id, store.stringToId.lookup str = some id → (store.idToView.lookup id).isSome

variable {store store' : StringStore}

theorem Extends.refl : Extends store store := fun _ _ h => h

theorem Extends.trans {store'' : StringStore} (h : Extends store store')
    (h' : Extends store' store'') : Extends store store'' :=
  fun id view hid => h' id view (h id view hid)

theorem Extends.knows {value : Value} (h : Extends store store')
    (hknows : store.toInterner.Knows value) : store'.toInterner.Knows value := by
  cases value with
  | null => trivial
  | int n => trivial
  | string id =>
      obtain ⟨view, hview⟩ := Option.isSome_iff_exists.1 hknows
      exact Option.isSome_iff_exists.2 ⟨view, h id.value view hview⟩

section Emplace

variable {κ α : Type} [DecidableEq κ] {key other : κ} {value : α} {map : AList fun _ : κ => α}

theorem lookup_emplace_of_ne (h : other ≠ key) :
    (emplace key value map).lookup other = map.lookup other := by
  unfold emplace
  split
  · rfl
  · exact AList.lookup_insert_ne h

theorem lookup_emplace_isSome : ((emplace key value map).lookup key).isSome := by
  unfold emplace
  split
  · assumption
  · rw [AList.lookup_insert]
    rfl

theorem lookup_emplace_of_some {old : α} (h : map.lookup other = some old) :
    (emplace key value map).lookup other = some old := by
  by_cases hother : other = key
  · subst hother
    rw [emplace, if_pos (by rw [h]; rfl), h]
  · rw [lookup_emplace_of_ne hother, h]

theorem lookup_emplace_of_none (h : map.lookup key = none) :
    (emplace key value map).lookup key = some value := by
  rw [emplace, if_neg (by rw [h]; simp), AList.lookup_insert]

end Emplace

theorem extends_append (str : String) : Extends store (store.append str) :=
  fun _ _ h => lookup_emplace_of_some h

theorem Closed.append {str : String} (h : store.Closed) (hnew : store.stringToId.lookup str = none) :
    (store.append str).Closed := by
  intro other id hid
  by_cases hother : other = str
  · subst hother
    have hsome : (store.append other).stringToId.lookup other = some store.nextId :=
      lookup_emplace_of_none hnew
    obtain rfl := Option.some.inj (hsome.symm.trans hid)
    exact lookup_emplace_isSome
  · have hid : store.stringToId.lookup other = some id :=
      (lookup_emplace_of_ne hother).symm.trans hid
    obtain ⟨view, hview⟩ := Option.isSome_iff_exists.1 (h other id hid)
    exact Option.isSome_iff_exists.2 ⟨view, extends_append str id view hview⟩

theorem closed_new : new.Closed := by
  intro str id h
  cases h

/-- What `Intern` keeps and gives: a value that is known. -/
theorem intern_post (str : String) (h : store.Closed) :
    (intern str).Post store
      (fun value store' => Extends store store' ∧ store'.Closed ∧ store'.toInterner.Knows value ∧
        ∃ id, value = .string id)
      (fun _ _ => False) := by
  refine Prog.Post.get_bind ?_
  cases hlookup : store.stringToId.lookup str with
  | some id => exact Prog.Post.pure ⟨.refl, h, h str id hlookup, ⟨id⟩, rfl⟩
  | none => exact ⟨extends_append str, h.append hlookup, lookup_emplace_isSome, _, rfl⟩

end StringStore

end QuasarDB.Storage
