import QuasarDB.Library.Services
import QuasarDB.Library.SortedChunks
import QuasarDB.Storage.Tree
import Mathlib.Data.List.AList

set_option autoImplicit false

/-! # What a tree is for

A tree stands for a finite map. This says how a map answers the calls that a tree gets. -/

namespace QuasarDB.Storage

variable {K V : Type} [LinearOrder K] [Inhabited K] (L : Instantiation K V)

/-- A call of a method of `BStarPlusTree`. -/
inductive TreeCall (K V : Type) where
  | insert (k : K) (v : V)
  | update (k : K) (v : V)
  | updateOrInsert (k : K) (v : V)
  | remove (k : K)
  | search (k : K)
  | rangeSearch (low high : K)

/-- What a call returns, or fails with. -/
inductive TreeAnswer (K V : Type) where
  | done
  | present (isPresent : Bool)
  | values (values : List V)
  | entries (entries : List (K × V))
  | failed (failure : Failure)

namespace TreeCall

/-- The answer to a call, and the file that it leaves, also where it fails. -/
def answered {α : Type} (answer : α → TreeAnswer K V) :
    EStateM.Result Failure (TreeFile K V) α → TreeAnswer K V × TreeFile K V
  | .ok a file => (answer a, file)
  | .error failure file => (.failed failure, file)

def perform : TreeCall K V → TreeFile K V → TreeAnswer K V × TreeFile K V
  | insert k v, file => answered (fun _ => .done) (BStarPlusTree.insert L k v file)
  | update k v, file => answered .present (BStarPlusTree.update k v file)
  | updateOrInsert k v, file => answered (fun _ => .done) (BStarPlusTree.updateOrInsert L k v file)
  | remove k, file => answered .present (BStarPlusTree.remove L k file)
  | search k, file => answered .values (BStarPlusTree.search L k file)
  | rangeSearch low high, file => answered .entries (BStarPlusTree.rangeSearch low high file)

/-- A tree that is used again after a call that fails. -/
def serve : Service (TreeCall K V) (TreeAnswer K V) (TreeFile K V) := fun call file =>
  some (call.perform L file)

/-! ## Maps -/

variable (map : AList fun _ : K => V)

/-- The map after a call. -/
def after : TreeCall K V → AList fun _ : K => V
  | insert k v => map.insert k v
  | update k v => if k ∈ map then map.insert k v else map
  | updateOrInsert k v => map.insert k v
  | remove k => map.erase k
  | search _ => map
  | rangeSearch _ _ => map

/-- The entries of a range, in the order of their keys. -/
structure Lists (low high : K) (es : List (K × V)) : Prop where
  sorted : SortedKeys es
  entries : ∀ k v, (k, v) ∈ es ↔ map.lookup k = some v ∧ low ≤ k ∧ k ≤ high

/-- So many entries are too many for one leaf, and may be too few for two. -/
def Awkward (count : Nat) : Prop :=
  L.maxKeysLeaf < count ∧ count < L.minKeysLeaf + L.maxKeysLeaf / 2

/-- How the call may be answered. An assertion may fail once a key is removed, if what is left fits neither one
    leaf nor two. A range that reaches to the last key cannot be listed. -/
def MayAnswer : TreeCall K V → TreeAnswer K V → Prop
  | insert _ _, answer => answer = .done
  | update k _, answer =>
      if map.keys = [] then answer = .failed (.exception "Key not found in b*+-tree.")
      else answer = .present (decide (k ∈ map))
  | updateOrInsert _ _, answer => answer = .done
  | remove k, answer =>
      answer = .present (decide (k ∈ map)) ∨
        ∃ condition, answer = .failed (.assertion condition) ∧ k ∈ map ∧
          Awkward L (map.erase k).keys.length
  | search k, answer => answer = .values (map.lookup k).toList
  | rangeSearch low high, answer =>
      if map.keys = [] ∨ ∃ k ∈ map, high < k then
        ∃ es, answer = .entries es ∧ Lists map low high es
      else answer = .failed (.exception "Failed to read complete page 4294967295")

/-- How a map answers. -/
def Means : Specification (TreeCall K V) (TreeAnswer K V) (AList fun _ : K => V) :=
  fun call map answer map' => call.MayAnswer L map answer ∧ map' = call.after map

end TreeCall

end QuasarDB.Storage
