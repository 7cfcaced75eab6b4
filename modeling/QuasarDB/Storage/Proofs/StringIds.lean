import QuasarDB.Storage.Proofs.StringFile
import Mathlib.Data.List.Dedup

set_option autoImplicit false

/-! # Strings keep their ids

The strings of a store are numbered from 1 on in the order in which they came, in memory and in the file,
and loading the file gives them the same numbers again. -/

namespace QuasarDB.Storage.StringFile

open Prog
open StringStore (emplace lookup_emplace_of_ne lookup_emplace_of_none)
open FileStream (around)

/-! ## Numbered strings -/

/-- A string that has an id among these. -/
def HasId (strings : List (List UInt8)) (str : List UInt8) (id : UInt32) : Prop :=
  0 < id.toNat ∧ strings[id.toNat - 1]? = some str

/-- The entries of strings that are numbered from a number on. -/
def numbered : Nat → List (List UInt8) → List Entry
  | _, [] => []
  | n, str :: strings => (.ofNat n, str) :: numbered (n + 1) strings

theorem numbered_append (strings strings' : List (List UInt8)) : ∀ n,
    numbered n (strings ++ strings') = numbered n strings ++ numbered (n + strings.length) strings' := by
  induction strings with
  | nil =>
      intro n
      rfl
  | cons str strings ih =>
      intro n
      rw [List.cons_append, numbered, ih, numbered, List.length_cons, List.cons_append,
        Nat.add_right_comm, Nat.add_assoc]

theorem mem_numbered {strings : List (List UInt8)} {entry : Entry} : ∀ {n : Nat},
    entry ∈ numbered n strings → entry.2 ∈ strings := by
  induction strings with
  | nil =>
      intro n h
      exact absurd h List.not_mem_nil
  | cons str strings ih =>
      intro n h
      rcases List.mem_cons.1 h with rfl | h
      · exact List.mem_cons_self
      · exact List.mem_cons_of_mem _ (ih h)

theorem hasId_of_mem_numbered {strings : List (List UInt8)} {entry : Entry} :
    ∀ {before : List (List UInt8)}, before.length + strings.length < 2 ^ 32 →
    entry ∈ numbered (before.length + 1) strings → HasId (before ++ strings) entry.2 entry.1 := by
  induction strings with
  | nil =>
      intro before hlength h
      exact absurd h List.not_mem_nil
  | cons str strings ih =>
      intro before hlength h
      rw [List.length_cons] at hlength
      rcases List.mem_cons.1 h with rfl | h
      · have hid : (UInt32.ofNat (before.length + 1)).toNat = before.length + 1 := by
          rw [UInt32.toNat_ofNat', Nat.mod_eq_of_lt (by omega)]
        have hpos : 0 < (UInt32.ofNat (before.length + 1)).toNat := by omega
        refine ⟨hpos, ?_⟩
        rw [hid, Nat.add_sub_cancel, List.getElem?_append_right (Nat.le_refl _), Nat.sub_self]
        rfl
      · have hbefore : (before ++ [str]).length = before.length + 1 := by
          rw [List.length_append, List.length_singleton]
        have happend : before ++ str :: strings = before ++ [str] ++ strings := by simp
        rw [← hbefore] at h
        rw [happend]
        exact ih (by omega) h

/-- The maps say which string has which id. -/
structure Names (file : StringFile) (strings : List (List UInt8)) : Prop where
  nodup : strings.Nodup
  length_lt : strings.length < 2 ^ 32 - 1
  views : ∀ id str, file.idToView.lookup id = some str ↔ HasId strings str id
  ids : ∀ str id, file.stringToId.lookup str = some id ↔ HasId strings str id
  nextId : file.nextId = .ofNat (strings.length + 1)

variable {file : StringFile} {strings : List (List UInt8)} {str : List UInt8} {id : UInt32}

theorem HasId.mem (h : HasId strings str id) : str ∈ strings := List.mem_of_getElem? h.2

theorem HasId.le (h : HasId strings str id) : id.toNat ≤ strings.length := by
  obtain ⟨hlt, -⟩ := List.getElem?_eq_some_iff.1 h.2
  omega

theorem HasId.append (h : HasId strings str id) (strings' : List (List UInt8)) :
    HasId (strings ++ strings') str id := by
  have hle := h.le
  have hpos := h.1
  exact ⟨h.1, by rw [List.getElem?_append_left (by omega)]; exact h.2⟩

/-- Two strings with an id are equal when the ids are, and the other way around. -/
theorem HasId.eq_iff {str' : List UInt8} {id' : UInt32} (hnodup : strings.Nodup)
    (h : HasId strings str id) (h' : HasId strings str' id') : str = str' ↔ id = id' := by
  constructor
  · intro heq
    subst heq
    obtain ⟨hlt, hstr⟩ := List.getElem?_eq_some_iff.1 h.2
    obtain ⟨hlt', hstr'⟩ := List.getElem?_eq_some_iff.1 h'.2
    have hindex := (hnodup.getElem_inj_iff).1 (hstr.trans hstr'.symm)
    have hpos := h.1
    have hpos' := h'.1
    exact UInt32.toNat.inj (by omega)
  · intro heq
    subst heq
    exact Option.some.inj (h.2.symm.trans h'.2)

/-- Which ids there are when a string comes behind the others. -/
theorem hasId_append_iff (hlength : strings.length + 1 < 2 ^ 32) (new : List UInt8) :
    HasId (strings ++ [new]) str id ↔
      HasId strings str id ∨ id = .ofNat (strings.length + 1) ∧ str = new := by
  have hid : (UInt32.ofNat (strings.length + 1)).toNat = strings.length + 1 := by
    rw [UInt32.toNat_ofNat', Nat.mod_eq_of_lt hlength]
  constructor
  · intro h
    have hle := h.le
    rw [List.length_append, List.length_singleton] at hle
    by_cases hlast : id.toNat = strings.length + 1
    · have hstr := h.2
      rw [hlast, Nat.add_sub_cancel, List.getElem?_concat_length] at hstr
      exact Or.inr ⟨UInt32.toNat.inj (hlast.trans hid.symm), (Option.some.inj hstr).symm⟩
    · have hpos := h.1
      have hstr := h.2
      rw [List.getElem?_append_left (by omega)] at hstr
      exact Or.inl ⟨hpos, hstr⟩
  · intro h
    rcases h with hold | hnew
    · exact hold.append [new]
    · rw [hnew.1, hnew.2]
      refine ⟨by omega, ?_⟩
      rw [hid, Nat.add_sub_cancel, List.getElem?_concat_length]

/-- The maps after a string that is new to them. -/
theorem Names.add (h : file.Names strings) (hnew : str ∉ strings)
    (hlength : strings.length + 1 < 2 ^ 32 - 1) {file' : StringFile}
    (hviews : file'.idToView = emplace (.ofNat (strings.length + 1)) str file.idToView)
    (hids : file'.stringToId = emplace str (.ofNat (strings.length + 1)) file.stringToId)
    (hnext : file'.nextId = .ofNat (strings.length + 1 + 1)) : file'.Names (strings ++ [str]) := by
  have hid : (UInt32.ofNat (strings.length + 1)).toNat = strings.length + 1 := by
    rw [UInt32.toNat_ofNat', Nat.mod_eq_of_lt (by omega)]
  have hfreeId : file.idToView.lookup (.ofNat (strings.length + 1)) = none := by
    rw [Option.eq_none_iff_forall_ne_some]
    intro other hother
    have hle := ((h.views _ _).1 hother).le
    omega
  have hfreeString : file.stringToId.lookup str = none := by
    rw [Option.eq_none_iff_forall_ne_some]
    intro other hother
    exact hnew ((h.ids _ _).1 hother).mem
  refine ⟨?_, ?_, ?_, ?_, ?_⟩
  · rw [List.nodup_append]
    refine ⟨h.nodup, List.nodup_singleton str, ?_⟩
    intro old hold added hadded heq
    rw [heq, List.mem_singleton.1 hadded] at hold
    exact hnew hold
  · rw [List.length_append, List.length_singleton]
    exact hlength
  · intro id view
    rw [hviews, hasId_append_iff (by omega)]
    by_cases hother : id = .ofNat (strings.length + 1)
    · subst hother
      rw [lookup_emplace_of_none hfreeId, ← h.views, hfreeId]
      simp [eq_comm]
    · rw [lookup_emplace_of_ne hother, h.views]
      exact ⟨Or.inl, fun hid => hid.resolve_right fun hadded => hother hadded.1⟩
  · intro view id
    rw [hids, hasId_append_iff (by omega)]
    by_cases hother : view = str
    · subst hother
      rw [lookup_emplace_of_none hfreeString, ← h.ids, hfreeString]
      simp [eq_comm]
    · rw [lookup_emplace_of_ne hother, h.ids]
      exact ⟨Or.inl, fun hid => hid.resolve_right fun hadded => hother hadded.2⟩
  · rw [hnext, List.length_append, List.length_singleton]

theorem names_new (content : List UInt8) : (onFile content).Names [] := by
  refine ⟨List.nodup_nil, by decide, ?_, ?_, rfl⟩
  · intro id str
    constructor
    · intro h
      cases h
    · intro h
      exact absurd h.mem List.not_mem_nil
  · intro str id
    constructor
    · intro h
      cases h
    · intro h
      exact absurd h.mem List.not_mem_nil

/-- Loading the numbered strings gives them their numbers. -/
theorem names_addEntries {added : List (List UInt8)} : ∀ {file : StringFile}
    {strings : List (List UInt8)}, file.Names strings → (strings ++ added).Nodup →
    (strings ++ added).length < 2 ^ 32 - 1 →
    (file.addEntries (numbered (strings.length + 1) added)).Names (strings ++ added) := by
  induction added with
  | nil =>
      intro file strings h hnodup hlength
      rw [List.append_nil]
      exact h
  | cons str added ih =>
      intro file strings h hnodup hlength
      have happend : strings ++ str :: added = (strings ++ [str]) ++ added := by simp
      have hnew : str ∉ strings := by
        intro hmem
        rw [List.nodup_append] at hnodup
        exact hnodup.2.2 str hmem str List.mem_cons_self rfl
      have hshort : strings.length + 1 < 2 ^ 32 - 1 := by
        rw [List.length_append, List.length_cons] at hlength
        omega
      have hid : (UInt32.ofNat (strings.length + 1)).toNat = strings.length + 1 := by
        rw [UInt32.toNat_ofNat', Nat.mod_eq_of_lt (by omega)]
      have hmax : max file.nextId (UInt32.ofNat (strings.length + 1) + 1) =
          .ofNat (strings.length + 1 + 1) := by
        rw [h.nextId, ← UInt32.ofNat_one, ← UInt32.ofNat_add]
        refine if_pos ?_
        rw [UInt32.le_iff_toNat_le, hid, UInt32.toNat_ofNat', Nat.mod_eq_of_lt (by omega)]
        omega
      have hadd : (file.addLoadedString (.ofNat (strings.length + 1)) str).Names (strings ++ [str]) :=
        h.add hnew hshort rfl rfl hmax
      have hlast : (strings ++ [str]).length + 1 = strings.length + 1 + 1 := by
        rw [List.length_append, List.length_singleton]
      rw [happend] at hnodup hlength ⊢
      have hrest := ih hadd hnodup hlength
      rw [hlast] at hrest
      exact hrest

/-! ## The store -/

/-- The maps and the file have the strings. -/
structure Stores (maxSize : UInt64) (file : StringFile) (strings : List (List UInt8)) : Prop where
  names : file.Names strings
  sizes : ∀ str ∈ strings, str.length ≤ maxSize.toNat
  storage : file.storage = around ((numbered 1 strings).flatMap Entry.bytes) []

variable {maxSize : UInt64}

/-- The strings of a file are there after it was loaded, whatever was in memory before. -/
theorem run_useStorage_numbered (hnodup : strings.Nodup) (hlength : strings.length < 2 ^ 32 - 1)
    (hsizes : ∀ str ∈ strings, str.length ≤ maxSize.toNat)
    (hbytes : file.storage.bytes = (numbered 1 strings).flatMap Entry.bytes) :
    ∃ file', useStorage maxSize file = .ok () file' ∧ file'.Stores maxSize strings := by
  have hentries : ∀ entry ∈ numbered 1 strings, entry.2.length ≤ maxSize.toNat := by
    intro entry hentry
    exact hsizes entry.2 (mem_numbered hentry)
  refine ⟨_, run_useStorage_whole hbytes hentries, ?_, hsizes, rfl⟩
  have hnames : ((onFile []).addEntries (numbered 1 strings)).Names strings :=
    names_addEntries (names_new []) hnodup hlength
  exact ⟨hnames.nodup, hnames.length_lt, hnames.views, hnames.ids, hnames.nextId⟩

/-- `UseStorage` changes no id. -/
theorem Stores.run_useStorage (h : file.Stores maxSize strings) :
    ∃ file', useStorage maxSize file = .ok () file' ∧ file'.Stores maxSize strings := by
  apply run_useStorage_numbered h.names.nodup h.names.length_lt h.sizes
  rw [h.storage, FileStream.bytes_around, List.append_nil]

/-- `View` finds the string of an id. -/
theorem Stores.run_view (h : file.Stores maxSize strings) (hid : HasId strings str id) :
    view id file = .ok str file := by
  rw [view, run_get_bind, (h.names.views id str).2 hid]
  rfl

/-- A string that `Intern` does not find has no id. -/
theorem Stores.not_mem_of_lookup (h : file.Stores maxSize strings)
    (hlookup : file.stringToId.lookup str = none) : str ∉ strings := by
  intro hmem
  obtain ⟨index, hlt, hindex⟩ := List.mem_iff_getElem.1 hmem
  have hlength := h.names.length_lt
  have hid : (UInt32.ofNat (index + 1)).toNat = index + 1 := by
    rw [UInt32.toNat_ofNat', Nat.mod_eq_of_lt (by omega)]
  have hsome : HasId strings str (.ofNat (index + 1)) := by
    refine ⟨by omega, ?_⟩
    rw [hid, Nat.add_sub_cancel, List.getElem?_eq_getElem hlt, hindex]
  rw [(h.names.ids str _).2 hsome] at hlookup
  cases hlookup

/-- `Intern` appends an entry for a string that has no id yet. -/
theorem Stores.run_intern_new (h : file.Stores maxSize strings)
    (hlookup : file.stringToId.lookup str = none) (hsize : str.length ≤ maxSize.toNat)
    (hshort : strings.length + 1 < 2 ^ 32 - 1) :
    ∃ id file', intern str file = .ok id file' ∧ file'.Stores maxSize (strings ++ [str]) ∧
      HasId (strings ++ [str]) str id := by
  have hnew := h.not_mem_of_lookup hlookup
  obtain ⟨idToView, stringToId, nextId, storage⟩ := file
  have hstorage : storage = around ((numbered 1 strings).flatMap Entry.bytes) [] := h.storage
  have hnext : nextId = .ofNat (strings.length + 1) := h.names.nextId
  subst hstorage hnext
  have hid : (UInt32.ofNat (strings.length + 1)).toNat = strings.length + 1 := by
    rw [UInt32.toNat_ofNat', Nat.mod_eq_of_lt (by omega)]
  have hbytes : (numbered 1 (strings ++ [str])).flatMap Entry.bytes =
      (numbered 1 strings).flatMap Entry.bytes ++
        Entry.bytes (.ofNat (strings.length + 1), str) := by
    rw [numbered_append, List.flatMap_append, Nat.add_comm 1, numbered, numbered,
      List.flatMap_singleton]
  have happend := run_appendToDisk
    { idToView, stringToId, nextId := .ofNat (strings.length + 1) + 1,
      storage := around ((numbered 1 strings).flatMap Entry.bytes) [] }
    ((numbered 1 strings).flatMap Entry.bytes) (.ofNat (strings.length + 1)) str
  rw [← hbytes] at happend
  refine ⟨.ofNat (strings.length + 1),
    { idToView := emplace (.ofNat (strings.length + 1)) str idToView,
      stringToId := emplace str (.ofNat (strings.length + 1)) stringToId,
      nextId := .ofNat (strings.length + 1) + 1,
      storage := around ((numbered 1 (strings ++ [str])).flatMap Entry.bytes) [] },
    ?_, ⟨?_, ?_, rfl⟩, ?_⟩
  · rw [intern, run_get_bind, hlookup]
    dsimp only
    rw [run_set_bind]
    exact (bind_ok happend).trans rfl
  · refine h.names.add hnew hshort rfl rfl ?_
    rw [← UInt32.ofNat_one, ← UInt32.ofNat_add]
  · intro other hother
    rcases List.mem_append.1 hother with hold | hadded
    · exact h.sizes other hold
    · rw [List.mem_singleton.1 hadded]
      exact hsize
  · refine ⟨by omega, ?_⟩
    rw [hid, Nat.add_sub_cancel, List.getElem?_concat_length]

/-- `Intern` finds the id of a string or gives it the next one. -/
theorem Stores.run_intern (h : file.Stores maxSize strings) (hsize : str.length ≤ maxSize.toNat)
    (hroom : str ∉ strings → strings.length + 1 < 2 ^ 32 - 1) :
    ∃ id file' added, intern str file = .ok id file' ∧ file'.Stores maxSize (strings ++ added) ∧
      HasId (strings ++ added) str id ∧ ∀ other ∈ added, other = str ∧ str ∉ strings := by
  cases hlookup : file.stringToId.lookup str with
  | some id =>
      refine ⟨id, file, [], ?_, ?_, ?_, ?_⟩
      · rw [intern, run_get_bind, hlookup]
        rfl
      · rw [List.append_nil]
        exact h
      · rw [List.append_nil]
        exact (h.names.ids str id).1 hlookup
      · intro other hother
        exact absurd hother List.not_mem_nil
  | none =>
      have hnew := h.not_mem_of_lookup hlookup
      obtain ⟨id, file', hrun, hstores, hid⟩ := h.run_intern_new hlookup hsize (hroom hnew)
      refine ⟨id, file', [str], hrun, hstores, hid, ?_⟩
      intro other hother
      exact ⟨List.mem_singleton.1 hother, hnew⟩

/-! ## Runs -/

inductive Call where
  | intern (str : List UInt8)
  | view (id : UInt32)
  | useStorage

/-- The string that a call interns. -/
def Call.interned : Call → Option (List UInt8)
  | .intern str => some str
  | _ => none

/-- A call, with the id that it gives and the string. -/
def Call.run (maxSize : UInt64) : Call → Prog StringFile (Option Entry)
  | .intern str => do return some (← StringFile.intern str, str)
  | .view id => do
      let _ ← StringFile.view id
      return none
  | .useStorage => do
      StringFile.useStorage maxSize
      return none

/-- The ids that calls give, and what they leave behind. -/
def runCalls (maxSize : UInt64) : List Call → StringFile → List Entry × StringFile
  | [], file => ([], file)
  | call :: calls, file =>
      let (given, last) := runCalls maxSize calls ((call.run maxSize).after file)
      ((((call.run maxSize).result file).join).toList ++ given, last)

theorem view_after (id : UInt32) (file : StringFile) :
    ((Call.view id).run maxSize).after file = file ∧
      (((Call.view id).run maxSize).result file).join = none := by
  cases hlookup : file.idToView.lookup id with
  | some str =>
      have hrun : (Call.view id).run maxSize file = .ok none file := by
        rw [Call.run, view, run_bind, run_get_bind, hlookup]
        rfl
      exact ⟨after_ok hrun, by rw [result_ok hrun]; rfl⟩
  | none =>
      have hrun : ∃ what, (Call.view id).run maxSize file = .error what file := by
        rw [Call.run, view, run_bind, run_get_bind, hlookup]
        exact ⟨_, rfl⟩
      obtain ⟨what, hrun⟩ := hrun
      exact ⟨after_error hrun, by rw [result_error hrun]; rfl⟩

/-- A call keeps all ids, and gives an id to the string that it interns. -/
theorem Stores.step (h : file.Stores maxSize strings) {call : Call}
    (hsize : ∀ str, call.interned = some str → str.length ≤ maxSize.toNat)
    (hroom : ∀ str, call.interned = some str → str ∉ strings → strings.length + 1 < 2 ^ 32 - 1) :
    ∃ added, ((call.run maxSize).after file).Stores maxSize (strings ++ added) ∧
      (∀ str ∈ added, call.interned = some str) ∧
      (((call.run maxSize).result file).join.toList.map Prod.snd) = call.interned.toList ∧
      ∀ entry ∈ ((call.run maxSize).result file).join.toList,
        HasId (strings ++ added) entry.2 entry.1 := by
  cases call with
  | intern str =>
      obtain ⟨id, file', added, hrun, hstores, hid, hadded⟩ := h.run_intern (hsize str rfl) (hroom str rfl)
      have hcall : (Call.intern str).run maxSize file = .ok (some (id, str)) file' := by
        rw [Call.run, bind_ok hrun]
        rfl
      rw [after_ok hcall, result_ok hcall]
      refine ⟨added, hstores, ?_, rfl, ?_⟩
      · intro other hother
        rw [(hadded other hother).1]
        rfl
      · intro entry hentry
        rw [List.mem_singleton.1 hentry]
        exact hid
  | view id =>
      obtain ⟨hafter, hresult⟩ := @view_after maxSize id file
      rw [hafter, hresult]
      refine ⟨[], ?_, fun _ hmem => absurd hmem List.not_mem_nil, rfl,
        fun _ hmem => absurd hmem List.not_mem_nil⟩
      rw [List.append_nil]
      exact h
  | useStorage =>
      obtain ⟨file', hrun, hstores⟩ := h.run_useStorage
      have hcall : Call.useStorage.run maxSize file = .ok none file' := by
        rw [Call.run, bind_ok hrun]
        rfl
      rw [after_ok hcall, result_ok hcall]
      refine ⟨[], ?_, fun _ hmem => absurd hmem List.not_mem_nil, rfl,
        fun _ hmem => absurd hmem List.not_mem_nil⟩
      rw [List.append_nil]
      exact hstores

/-- A list without repetition that has elements of another has no more of them. -/
theorem length_le_dedup {strings all : List (List UInt8)} (hnodup : strings.Nodup)
    (hsub : ∀ str ∈ strings, str ∈ all) : strings.length ≤ all.dedup.length :=
  (List.subperm_of_subset hnodup fun str hstr => List.mem_dedup.2 (hsub str hstr)).length_le

/-- A run keeps all ids. -/
theorem Stores.run {all : List (List UInt8)} (hcount : all.dedup.length < 2 ^ 32 - 1)
    {calls : List Call} : ∀ {file : StringFile} {strings : List (List UInt8)},
    file.Stores maxSize strings → (∀ str ∈ strings, str ∈ all) →
    (∀ str ∈ calls.filterMap Call.interned, str ∈ all ∧ str.length ≤ maxSize.toNat) →
    ∃ added, (runCalls maxSize calls file).2.Stores maxSize (strings ++ added) ∧
      (runCalls maxSize calls file).1.map Prod.snd = calls.filterMap Call.interned ∧
      ∀ entry ∈ (runCalls maxSize calls file).1, HasId (strings ++ added) entry.2 entry.1 := by
  induction calls with
  | nil =>
      intro file strings h hsub hcalls
      refine ⟨[], ?_, rfl, fun _ hmem => absurd hmem List.not_mem_nil⟩
      rw [List.append_nil]
      exact h
  | cons call calls ih =>
      intro file strings h hsub hcalls
      have hcall : ∀ str, call.interned = some str → str ∈ all ∧ str.length ≤ maxSize.toNat := by
        intro str hstr
        apply hcalls
        rw [List.filterMap_cons_some hstr]
        exact List.mem_cons_self
      have hrest : ∀ str ∈ calls.filterMap Call.interned, str ∈ all ∧ str.length ≤ maxSize.toNat := by
        intro str hstr
        apply hcalls
        rw [List.mem_filterMap] at hstr ⊢
        obtain ⟨other, hother, hinterned⟩ := hstr
        exact ⟨other, List.mem_cons_of_mem call hother, hinterned⟩
      have hroom : ∀ str, call.interned = some str → str ∉ strings →
          strings.length + 1 < 2 ^ 32 - 1 := by
        intro str hstr hnew
        have hall : ∀ other ∈ str :: strings, other ∈ all :=
          List.forall_mem_cons.2 ⟨(hcall str hstr).1, hsub⟩
        have hle := length_le_dedup (List.nodup_cons.2 ⟨hnew, h.names.nodup⟩) hall
        rw [List.length_cons] at hle
        omega
      obtain ⟨added, h₁, hadded, hgiven, hids⟩ := h.step (fun str hstr => (hcall str hstr).2) hroom
      have hsub₁ : ∀ str ∈ strings ++ added, str ∈ all := by
        intro str hstr
        rcases List.mem_append.1 hstr with hold | hnew
        · exact hsub str hold
        · exact (hcall str (hadded str hnew)).1
      obtain ⟨added', h', hgiven', hids'⟩ := ih h₁ hsub₁ hrest
      have hcons : (runCalls maxSize (call :: calls) file).1 =
          ((call.run maxSize).result file).join.toList ++
            (runCalls maxSize calls ((call.run maxSize).after file)).1 := rfl
      rw [List.append_assoc] at h' hids'
      refine ⟨added ++ added', h', ?_, ?_⟩
      · rw [hcons, List.map_append, hgiven, hgiven']
        cases hinterned : call.interned with
        | none => rw [List.filterMap_cons_none hinterned]; rfl
        | some str => rw [List.filterMap_cons_some hinterned]; rfl
      · intro entry hentry
        rw [hcons] at hentry
        rcases List.mem_append.1 hentry with hfirst | hlater
        · rw [← List.append_assoc]
          exact (hids entry hfirst).append added'
        · exact hids' entry hlater

/-- A store that is opened on a file that a store wrote, whose strings are numbered, keeps each id that
    the file has or that it gives: in whatever state a run of calls ends, the file can be opened again, the
    ids name their strings, and two ids are equal exactly when their strings are. Each call of `Intern`
    gives an id. -/
theorem runCalls_keepsIds (maxSize : UInt64) (before : StringFile) (written : List (List UInt8))
    (calls : List Call) (hfile : before.storage.bytes = (numbered 1 written).flatMap Entry.bytes)
    (hnodup : written.Nodup)
    (hsizes : ∀ str ∈ written ++ calls.filterMap Call.interned, str.length ≤ maxSize.toNat)
    (hcount : (written ++ calls.filterMap Call.interned).dedup.length < 2 ^ 32 - 1) :
    ∃ file, useStorage maxSize before = .ok () file ∧
      (runCalls maxSize calls file).1.map Prod.snd = calls.filterMap Call.interned ∧
      (∃ reopened, useStorage maxSize (runCalls maxSize calls file).2 = .ok () reopened) ∧
      (∀ entry ∈ numbered 1 written ++ (runCalls maxSize calls file).1,
        view entry.1 (runCalls maxSize calls file).2 = .ok entry.2 (runCalls maxSize calls file).2) ∧
      ∀ entry ∈ numbered 1 written ++ (runCalls maxSize calls file).1,
        ∀ entry' ∈ numbered 1 written ++ (runCalls maxSize calls file).1,
          (entry.2 = entry'.2 ↔ entry.1 = entry'.1) := by
  have hwritten : ∀ str ∈ written, str ∈ written ++ calls.filterMap Call.interned :=
    fun str hstr => List.mem_append_left _ hstr
  have hlength : written.length < 2 ^ 32 - 1 :=
    lt_of_le_of_lt (length_le_dedup hnodup hwritten) hcount
  obtain ⟨file, hopen, hstores⟩ := run_useStorage_numbered hnodup hlength
    (fun str hstr => hsizes str (hwritten str hstr)) hfile
  obtain ⟨added, hlast, hgiven, hids⟩ := hstores.run hcount hwritten
    (fun str hstr => ⟨List.mem_append_right _ hstr, hsizes str (List.mem_append_right _ hstr)⟩)
  have hall : ∀ entry ∈ numbered 1 written ++ (runCalls maxSize calls file).1,
      HasId (written ++ added) entry.2 entry.1 := by
    intro entry hentry
    rcases List.mem_append.1 hentry with hold | hnew
    · have hfirst : HasId ([] ++ written) entry.2 entry.1 :=
        hasId_of_mem_numbered (by rw [List.length_nil]; omega) hold
      exact hfirst.append added
    · exact hids entry hnew
  obtain ⟨reopened, hreopen, -⟩ := hlast.run_useStorage
  refine ⟨file, hopen, hgiven, ⟨reopened, hreopen⟩, ?_, ?_⟩
  · intro entry hentry
    exact hlast.run_view (hall entry hentry)
  · intro entry hentry entry' hentry'
    exact (hall entry hentry).eq_iff hlast.names.nodup (hall entry' hentry')

/-! Two strings, a reopening, one of them again and a third one. -/

def someCalls : List Call :=
  [.intern [97], .view 9, .intern [], .useStorage, .intern [97], .intern [98], .view 2]

theorem runCalls_keepsIds_some :
    ∃ file, useStorage 1000 (onFile (Entry.bytes (1, [98]))) = .ok () file ∧
      view 1 (runCalls 1000 someCalls file).2 = .ok [98] (runCalls 1000 someCalls file).2 ∧
      (runCalls 1000 someCalls file).1.map Prod.snd = [[97], [], [97], [98]] := by
  obtain ⟨file, hopen, hgiven, -, hviews, -⟩ := runCalls_keepsIds 1000
    (onFile (Entry.bytes (1, [98]))) [[98]] someCalls rfl (by decide) (by decide) (by decide)
  exact ⟨file, hopen, hviews (1, [98]) List.mem_cons_self, hgiven⟩

end QuasarDB.Storage.StringFile
