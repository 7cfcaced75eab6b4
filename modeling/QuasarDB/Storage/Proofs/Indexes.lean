import QuasarDB.Storage.IndexSet

set_option autoImplicit false

/-! # What the indexes of a table hold

The loops of the index set change the index of each column that they visit, and no other. So a set of
indexes that holds exactly some entries holds, after `Insert`, `Remove` and `Update`, exactly those that
are added, and without those that are taken off. -/

namespace QuasarDB.Storage

open Prog

/-- The names of the columns differ. -/
def Schema.NamesDiffer (schema : Schema) : Prop := (schema.columns.map Column.name).Nodup

/-- The columns with their values. -/
def Schema.valuesOf (schema : Schema) (fields : List Value) : List ((Column × Value) × Nat) :=
  (schema.columns.zip fields).zipIdx

theorem Schema.run_columnsOf {σ : Type} {schema : Schema} {record : Record}
    (h : record.fields.length = schema.size) (s : σ) :
    schema.columnsOf record s = .ok (schema.columns.zip record.fields) s := by
  rw [columnsOf, if_neg (by omega)]
  rfl

theorem Schema.mem_valuesOf {schema : Schema} {fields : List Value} {column : Column} {value : Value}
    {i : Nat} :
    ((column, value), i) ∈ schema.valuesOf fields ↔
      schema.columns[i]? = some column ∧ fields[i]? = some value := by
  rw [valuesOf, List.mem_zipIdx_iff_getElem?, List.getElem?_zip_eq_some]

theorem Schema.NamesDiffer.eq {schema : Schema} (h : schema.NamesDiffer) {i j : Nat} {column other : Column}
    (hi : schema.columns[i]? = some column) (hj : schema.columns[j]? = some other)
    (hname : column.name = other.name) : i = j := by
  obtain ⟨hi', rfl⟩ := List.getElem?_eq_some_iff.1 hi
  obtain ⟨hj', rfl⟩ := List.getElem?_eq_some_iff.1 hj
  have hi'' : i < (schema.columns.map Column.name).length := by rwa [List.length_map]
  have hj'' : j < (schema.columns.map Column.name).length := by rwa [List.length_map]
  refine (@List.Nodup.getElem_inj_iff _ _ h i hi'' j hj'').1 ?_
  simpa using hname

theorem Schema.valuesOf_place {schema : Schema} {fields : List Value}
    (hfields : fields.length = schema.size) :
    (schema.valuesOf fields).map (fun c => (c.1.1, c.2)) = schema.columns.zipIdx := by
  have hcolumns : schema.columns = (schema.columns.zip fields).map Prod.fst :=
    (List.map_fst_zip (le_of_eq hfields.symm)).symm
  conv_rhs => rw [hcolumns, List.zipIdx_map]
  rfl

/-- The index of a column, with exactly these entries. -/
structure Index.Has (index : Index) (column : Column) (entries : Value → RecordAddress → Prop) : Prop
    where
  keyType : index.keyType = column.columnType
  entries : ∀ value address, index.entries.lookup value = some address ↔ entries value address

theorem Index.Has.congr {index : Index} {column : Column}
    {entries entries' : Value → RecordAddress → Prop} (h : index.Has column entries)
    (hsame : ∀ value address, entries' value address ↔ entries value address) :
    index.Has column entries' :=
  ⟨h.keyType, fun value address => (h.entries value address).trans (hsame value address).symm⟩

theorem Index.Has.insert {index : Index} {column : Column} {entries : Value → RecordAddress → Prop}
    (h : index.Has column entries) (value : Value) (address : RecordAddress) :
    { index with entries := index.entries.insert value address : Index }.Has column
      fun v a => if v = value then a = address else entries v a := by
  refine ⟨h.keyType, fun v a => ?_⟩
  by_cases hv : v = value
  · subst hv
    rw [AList.lookup_insert, if_pos rfl, Option.some.injEq]
    exact eq_comm
  · rw [AList.lookup_insert_ne hv, if_neg hv]
    exact h.entries v a

theorem Index.Has.erase {index : Index} {column : Column} {entries : Value → RecordAddress → Prop}
    (h : index.Has column entries) (value : Value) :
    { index with entries := index.entries.erase value : Index }.Has column
      fun v a => v ≠ value ∧ entries v a := by
  refine ⟨h.keyType, fun v a => ?_⟩
  by_cases hv : v = value
  · subst hv
    rw [AList.lookup_erase]
    simp
  · rw [AList.lookup_erase_ne hv, h.entries v a]
    exact (and_iff_right hv).symm

namespace IndexSet

variable {σ β : Type}

/-- The loop stops at the index of the column. -/
def Visits (c : (Column × Value) × Nat) : Prop := c.1.1.isIndexed = true ∧ c.1.2 ≠ .null

instance (c : (Column × Value) × Nat) : Decidable (Visits c) := inferInstanceAs (Decidable (_ ∧ _))

theorem skips_iff {c : (Column × Value) × Nat} :
    (!c.1.1.isIndexed || c.1.2.isNull) = true ↔ ¬ Visits c := by
  unfold Visits Value.isNull
  cases c.1.1.isIndexed <;> simp

theorem run_indexOf {indexes : IndexSet} {name : String} {index : Index}
    (h : indexes.lookup name = some index) (s : σ) : indexes.indexOf name s = .ok index s := by
  rw [indexOf, h]
  rfl

section ForEach

variable {indexes : σ → IndexSet} {visitor : Nat → Column → Value → Index → β → Prog σ β}
  {c : (Column × Value) × Nat} {cs : List ((Column × Value) × Nat)} {b : β} {s : σ}

theorem run_forEach_skip (h : ¬ Visits c) :
    forEach indexes visitor (c :: cs) b s = forEach indexes visitor cs b s := by
  rw [forEach, if_pos (skips_iff.2 h)]

theorem run_forEach_visit (h : Visits c) {index : Index}
    (hindex : (indexes s).lookup c.1.1.name = some index) :
    forEach indexes visitor (c :: cs) b s =
      (do
        let b ← visitor c.2 c.1.1 c.1.2 index b
        forEach indexes visitor cs b) s := by
  rw [forEach, if_neg (fun hskip => skips_iff.1 hskip h), run_get_bind, bind_ok (run_indexOf hindex s)]

/-- A loop whose visits do nothing. -/
theorem run_forEach_idle (hindex : ∀ c ∈ cs, Visits c → ((indexes s).lookup c.1.1.name).isSome)
    (hidle : ∀ c ∈ cs, ∀ index, visitor c.2 c.1.1 c.1.2 index b s = .ok b s) :
    forEach indexes visitor cs b s = .ok b s := by
  induction cs with
  | nil => rfl
  | cons c cs ih =>
      have hrest := ih (fun d hd => hindex d (by simp [hd])) (fun d hd => hidle d (by simp [hd]))
      by_cases hvisit : Visits c
      · obtain ⟨index, hsome⟩ := Option.isSome_iff_exists.1 (hindex c (by simp) hvisit)
        rw [run_forEach_visit hvisit hsome, bind_ok (hidle c (by simp) index)]
        exact hrest
      · rw [run_forEach_skip hvisit]
        exact hrest

theorem run_forEach_append {front back : List ((Column × Value) × Nat)} {b' : β} {s' : σ}
    (h : forEach indexes visitor front b s = .ok b' s') :
    forEach indexes visitor (front ++ back) b s = forEach indexes visitor back b' s' := by
  induction front generalizing b s with
  | nil =>
      cases h
      rfl
  | cons c front ih =>
      rw [List.cons_append]
      rw [forEach] at h ⊢
      by_cases hskip : (!c.1.1.isIndexed || c.1.2.isNull) = true
      · rw [if_pos hskip] at h ⊢
        exact ih h
      · rw [if_neg hskip] at h ⊢
        rw [run_get_bind] at h ⊢
        obtain ⟨index, t, hindex, h⟩ := bind_eq_ok.1 h
        obtain ⟨b₁, t₁, hvisit, h⟩ := bind_eq_ok.1 h
        rw [bind_ok hindex, bind_ok hvisit]
        exact ih h

end ForEach

/-! ## Entries -/

/-- The value has the type of the column. -/
def HasType (value : Value) (columnType : ColumnType) : Prop :=
  match columnType with
  | .int => value.isInt = true
  | .string => value.isString = true

theorem key_of_hasType {index : Index} {value : Value} (h : HasType value index.keyType) :
    index.key value = .ok value := by
  unfold Index.key
  cases htype : index.keyType with
  | int =>
      rw [htype] at h
      exact if_pos h
  | string =>
      rw [htype] at h
      exact if_pos h

theorem insert_of_hasType {index : Index} {value : Value} (address : RecordAddress)
    (h : HasType value index.keyType) :
    index.insert value address = .ok { index with entries := index.entries.insert value address } := by
  rw [Index.insert, key_of_hasType h]
  rfl

theorem remove_of_hasType {index : Index} {value : Value} (h : HasType value index.keyType) :
    index.remove value = .ok { index with entries := index.entries.erase value } := by
  rw [Index.remove, key_of_hasType h]
  rfl

/-- The indexed columns have exactly these entries. -/
def Holds (schema : Schema) (entries : Nat → Value → RecordAddress → Prop) (indexes : IndexSet) :
    Prop :=
  ∀ (i : Nat) (column : Column), schema.columns[i]? = some column → column.isIndexed = true →
    ∃ index, indexes.lookup column.name = some index ∧ index.Has column (entries i)

/-- The values of a record in the indexed columns have the types of the columns. -/
def Typed (schema : Schema) (fields : List Value) : Prop :=
  ∀ (i : Nat) (column : Column) (value : Value), schema.columns[i]? = some column →
    fields[i]? = some value → value ≠ .null → HasType value column.columnType

variable {schema : Schema} {entries entries' : Nat → Value → RecordAddress → Prop}
  {indexes : IndexSet} {record : Record} {address : RecordAddress}

theorem Holds.congr (h : indexes.Holds schema entries)
    (hsame : ∀ (i : Nat) (column : Column), schema.columns[i]? = some column →
      column.isIndexed = true → ∀ value address, entries' i value address ↔ entries i value address) :
    indexes.Holds schema entries' := by
  intro i column hcolumn hindexed
  obtain ⟨index, hlookup, hindex⟩ := h i column hcolumn hindexed
  exact ⟨index, hlookup, hindex.congr (hsame i column hcolumn hindexed)⟩

/-! ## Loops over the columns -/

/-- A loop over the columns. -/
def eachColumn {γ : Type} (step : γ → Prog IndexSet Unit) : List γ → Prog IndexSet Unit
  | [] => return ()
  | c :: cs => do
      step c
      eachColumn step cs

/-- Each step finds the index of its column as it was, and changes no other index. The induction is on
    the columns, whose names differ. -/
theorem run_eachColumn {γ : Type} {name : γ → String} {step : γ → Prog IndexSet Unit}
    {Q : γ → Option Index → Prop} (start : IndexSet) {cs : List γ} : ∀ {indexes : IndexSet},
    (cs.map name).Nodup → (∀ c ∈ cs, indexes.lookup (name c) = start.lookup (name c)) →
    (∀ c ∈ cs, ∀ indexes : IndexSet, indexes.lookup (name c) = start.lookup (name c) →
      ∃ indexes', step c indexes = .ok () indexes' ∧ Q c (indexes'.lookup (name c)) ∧
        ∀ other, other ≠ name c → indexes'.lookup other = indexes.lookup other) →
    ∃ indexes', eachColumn step cs indexes = .ok () indexes' ∧
      (∀ c ∈ cs, Q c (indexes'.lookup (name c))) ∧
      ∀ other, other ∉ cs.map name → indexes'.lookup other = indexes.lookup other := by
  induction cs with
  | nil => exact fun _ _ _ => ⟨_, rfl, by simp, fun _ _ => rfl⟩
  | cons c cs ih =>
      intro indexes hnodup hstart hstep
      rw [List.map_cons, List.nodup_cons] at hnodup
      obtain ⟨hfresh, hnodup⟩ := hnodup
      obtain ⟨indexes₁, hrun, hc, hothers⟩ := hstep c (by simp) indexes (hstart c (by simp))
      obtain ⟨indexes₂, hrest, hcs, hothers'⟩ := @ih indexes₁ hnodup (fun d hd => by
          have hne : name d ≠ name c := fun h => hfresh (h ▸ List.mem_map_of_mem hd)
          rw [hothers _ hne]
          exact hstart d (by simp [hd]))
        (fun d hd => hstep d (by simp [hd]))
      refine ⟨indexes₂, ?_, fun d hd => ?_, fun other hother => ?_⟩
      · rw [eachColumn, bind_ok hrun]
        exact hrest
      · rcases List.mem_cons.1 hd with rfl | hd
        · rw [hothers' _ hfresh]
          exact hc
        · exact hcs d hd
      · rw [List.map_cons, List.mem_cons, not_or] at hother
        rw [hothers' _ hother.2, hothers _ hother.1]

/-- A loop that sees to the index of each column makes of the entries what its steps make of those of one
    column. -/
theorem run_eachColumn_holds {γ : Type} (place : γ → Column × Nat) {step : γ → Prog IndexSet Unit}
    {cs : List γ} (hcs : cs.map place = schema.columns.zipIdx) (hnames : schema.NamesDiffer)
    (h : indexes.Holds schema entries)
    (hstep : ∀ c ∈ cs, ∀ (indexes : IndexSet) (index : Index), (place c).1.isIndexed = true →
      indexes.lookup (place c).1.name = some index → index.Has (place c).1 (entries (place c).2) →
      ∃ indexes' index', step c indexes = .ok () indexes' ∧
        indexes'.lookup (place c).1.name = some index' ∧
        index'.Has (place c).1 (entries' (place c).2) ∧
        ∀ other, other ≠ (place c).1.name → indexes'.lookup other = indexes.lookup other)
    (hskip : ∀ c ∈ cs, (place c).1.isIndexed = false → ∀ indexes, step c indexes = .ok () indexes) :
    ∃ indexes', eachColumn step cs indexes = .ok () indexes' ∧ indexes'.Holds schema entries' := by
  have hplace : ∀ c ∈ cs, schema.columns[(place c).2]? = some (place c).1 := by
    intro c hc
    exact List.mem_zipIdx_iff_getElem?.1 (hcs ▸ List.mem_map_of_mem hc)
  have hnodup : (cs.map fun c => (place c).1.name).Nodup := by
    have hcomp : (fun c => (place c).1.name) = Column.name ∘ Prod.fst ∘ place := rfl
    rw [hcomp, ← List.map_map, ← List.map_map, hcs, List.zipIdx_map_fst]
    exact hnames
  obtain ⟨indexes', hrun, hcolumns, -⟩ := run_eachColumn indexes
    (Q := fun c found => (place c).1.isIndexed = true →
      ∃ index', found = some index' ∧ index'.Has (place c).1 (entries' (place c).2))
    hnodup (fun _ _ => rfl) (fun c hc indexes₁ hsame => by
      by_cases hindexed : (place c).1.isIndexed = true
      · obtain ⟨index, hlookup, hindex⟩ := h _ _ (hplace c hc) hindexed
        obtain ⟨indexes', index', hrun, hlookup', hindex', hothers⟩ :=
          hstep c hc indexes₁ index hindexed (hsame.trans hlookup) hindex
        exact ⟨indexes', hrun, fun _ => ⟨index', hlookup', hindex'⟩, hothers⟩
      · exact ⟨indexes₁, hskip c hc (by simpa using hindexed) indexes₁,
          fun h => absurd h hindexed, fun _ _ => rfl⟩)
  refine ⟨indexes', hrun, fun i column hcolumn hindexed => ?_⟩
  have hmem : (column, i) ∈ cs.map place := by
    rw [hcs]
    exact List.mem_zipIdx_iff_getElem?.2 hcolumn
  obtain ⟨c, hc, hplace⟩ := List.mem_map.1 hmem
  have hc := hcolumns c hc
  rw [hplace] at hc
  exact hc hindexed

theorem run_change {name : String} {f : Index → Except String Index}
    {index index' : Index} (hindex : indexes.lookup name = some index) (hf : f index = .ok index') :
    change name f indexes = .ok () (AList.insert name index' indexes) := by
  rw [change, run_get_bind, bind_ok (run_indexOf hindex indexes), hf]
  rfl

/-- The loop of `ForEach`, where each visit changes the index it is at. -/
theorem forEach_eq_eachColumn {f : Column → Value → Index → Except String Index}
    (cs : List ((Column × Value) × Nat)) :
    forEach id (fun _ column value _ _ => change column.name (f column value)) cs () =
      eachColumn (fun c => forEach id (fun _ column value _ _ => change column.name (f column value))
        [c] ()) cs := by
  induction cs with
  | nil => rfl
  | cons c cs ih =>
      funext s
      rw [eachColumn, ← ih, forEach, forEach]
      by_cases hskip : (!c.1.1.isIndexed || c.1.2.isNull) = true
      · rw [if_pos hskip, if_pos hskip]
        rfl
      · rw [if_neg hskip, if_neg hskip, run_get_bind, bind_assoc, run_get_bind]
        simp only [bind_assoc]
        rfl

/-- The loop of `ForEach` over the values of a record. -/
theorem run_forEach_holds (f : Column → Value → Index → Except String Index)
    (entries' : Nat → Value → RecordAddress → Prop) {fields : List Value}
    (hnames : schema.NamesDiffer) (hfields : fields.length = schema.size)
    (htyped : Typed schema fields) (h : indexes.Holds schema entries)
    (hf : ∀ (i : Nat) (column : Column) (value : Value) (index : Index), fields[i]? = some value →
      value ≠ .null → HasType value index.keyType → index.Has column (entries i) →
      ∃ index', f column value index = .ok index' ∧ index'.Has column (entries' i))
    (hidle : ∀ (i : Nat), fields[i]? = some .null → ∀ value address,
      entries' i value address ↔ entries i value address) :
    ∃ indexes', forEach id (fun _ column value _ _ => change column.name (f column value))
        (schema.valuesOf fields) () indexes = .ok () indexes' ∧ indexes'.Holds schema entries' := by
  rw [forEach_eq_eachColumn]
  refine run_eachColumn_holds (fun c => (c.1.1, c.2)) (schema.valuesOf_place hfields) hnames h
    ?_ ?_
  · rintro ⟨⟨column, value⟩, i⟩ hc indexes index hindexed hlookup hindex
    obtain ⟨hcolumn, hfield⟩ := Schema.mem_valuesOf.1 hc
    by_cases hvalue : value = .null
    · subst hvalue
      refine ⟨indexes, index, ?_, hlookup, hindex.congr (hidle i hfield), fun _ _ => rfl⟩
      rw [run_forEach_skip (fun hvisit => hvisit.2 rfl)]
      rfl
    · have htype : HasType value index.keyType := by
        rw [hindex.keyType]
        exact htyped i column value hcolumn hfield hvalue
      obtain ⟨index', hindex', hhas⟩ := hf i column value index hfield hvalue htype hindex
      refine ⟨_, index', ?_, AList.lookup_insert _, hhas, fun other hne => AList.lookup_insert_ne hne⟩
      rw [run_forEach_visit ⟨hindexed, hvalue⟩ hlookup, bind_ok (run_change hlookup hindex')]
      rfl
  · rintro ⟨⟨column, value⟩, i⟩ hc hindexed indexes
    rw [run_forEach_skip (fun hvisit => by simp [hvisit.1] at hindexed)]
    rfl

/-! ## Changes -/

theorem isKey_iff {value v : Value} (hvalue : value ≠ .null) :
    (some value = some v ∧ v ≠ .null) ↔ v = value := by
  constructor
  · rintro ⟨h, -⟩
    exact (Option.some.inj h).symm
  · rintro rfl
    exact ⟨rfl, hvalue⟩

theorem not_isKey_null {v : Value} : ¬ (some Value.null = some v ∧ v ≠ .null) := by
  rintro ⟨⟨⟩, h⟩
  exact h rfl

/-- `Insert` adds the values of the record, under its address. -/
theorem run_insert (hnames : schema.NamesDiffer) (hfields : record.fields.length = schema.size)
    (htyped : Typed schema record.fields) (haddress : record.address = some address)
    (h : indexes.Holds schema entries) :
    ∃ indexes', insert schema record indexes = .ok () indexes' ∧
      indexes'.Holds schema fun i value a =>
        if record.fields[i]? = some value ∧ value ≠ .null then a = address else entries i value a := by
  have hgetAddress : ∀ s : IndexSet, record.getAddress s = .ok address s := by
    intro s
    rw [Record.getAddress, haddress]
    rfl
  have hloop := run_forEach_holds (fun _ value => Index.insert value address)
    (fun i value a =>
      if record.fields[i]? = some value ∧ value ≠ .null then a = address else entries i value a)
    hnames hfields htyped h
  refine (hloop ?_ ?_).elim fun indexes' ⟨hrun, hholds⟩ => ?_
  · intro i column value index hfield hvalue htype hindex
    refine ⟨_, insert_of_hasType address htype, (hindex.insert value address).congr fun v a => ?_⟩
    rw [hfield, if_congr (isKey_iff hvalue) rfl rfl]
  · intro i hnull v a
    rw [hnull, if_neg not_isKey_null]
  · refine ⟨indexes', ?_, hholds⟩
    rw [insert, bind_ok (Schema.run_columnsOf hfields indexes)]
    refine Eq.trans ?_ hrun
    congr 2
    funext i column value index b
    funext s
    rw [bind_ok (hgetAddress s)]

/-- `Remove` takes the values of the record off. -/
theorem run_remove (hnames : schema.NamesDiffer) (hfields : record.fields.length = schema.size)
    (htyped : Typed schema record.fields) (h : indexes.Holds schema entries) :
    ∃ indexes', remove schema record indexes = .ok () indexes' ∧
      indexes'.Holds schema fun i value a =>
        ¬ (record.fields[i]? = some value ∧ value ≠ .null) ∧ entries i value a := by
  have hloop := run_forEach_holds (fun _ value => Index.remove value)
    (fun i value a =>
      ¬ (record.fields[i]? = some value ∧ value ≠ .null) ∧ entries i value a)
    hnames hfields htyped h
  refine (hloop ?_ ?_).elim fun indexes' ⟨hrun, hholds⟩ => ?_
  · intro i column value index hfield hvalue htype hindex
    refine ⟨_, remove_of_hasType htype, (hindex.erase value).congr fun v a => ?_⟩
    rw [hfield, isKey_iff hvalue]
  · intro i hnull v a
    rw [hnull]
    exact and_iff_right not_isKey_null
  · refine ⟨indexes', ?_, hholds⟩
    rw [remove, bind_ok (Schema.run_columnsOf hfields indexes)]
    exact hrun

/-- What `Update` does with one column. -/
def updateColumn (oldAddress newAddress : RecordAddress) (c : Column × Value × Value) :
    Prog IndexSet Unit :=
  updateColumns oldAddress newAddress [c]

theorem updateColumns_eq_eachColumn (oldAddress newAddress : RecordAddress)
    (cs : List (Column × Value × Value)) :
    updateColumns oldAddress newAddress cs =
      eachColumn (updateColumn oldAddress newAddress) cs := by
  induction cs with
  | nil => rfl
  | cons c cs ih =>
      obtain ⟨column, oldValue, newValue⟩ := c
      rw [eachColumn, updateColumn, ← ih]
      simp only [updateColumns]
      by_cases hskip : (!column.isIndexed) = true
      · rw [if_pos hskip, if_pos hskip]
        rfl
      · simp only [if_neg hskip, bind_assoc]
        refine congrArg (get >>= ·) (funext fun indexes => ?_)
        refine congrArg (indexes.indexOf column.name >>= ·) (funext fun _ => ?_)
        -- one branch for each value that is there or not
        split_ifs <;> simp only [bind_assoc, pure_bind]

theorem isNull_iff {value : Value} : (!value.isNull) = true ↔ value ≠ .null := by
  simp [Value.isNull]

/-- The index of one column, which gets the new value in place of the old one. -/
theorem run_updateColumn {column : Column} {oldValue newValue : Value}
    {oldAddress newAddress : RecordAddress} {index : Index} {entries : Value → RecordAddress → Prop}
    (hindexed : column.isIndexed = true) (hlookup : indexes.lookup column.name = some index)
    (hindex : index.Has column entries) (hne : oldAddress ≠ newAddress)
    (hold : oldValue ≠ .null → HasType oldValue column.columnType)
    (hnew : newValue ≠ .null → HasType newValue column.columnType) :
    ∃ indexes' index', updateColumn oldAddress newAddress (column, oldValue, newValue) indexes =
        .ok () indexes' ∧
      indexes'.lookup column.name = some index' ∧
      (index'.Has column fun value a =>
        if some newValue = some value ∧ value ≠ .null then a = newAddress
        else ¬ (some oldValue = some value ∧ value ≠ .null) ∧ entries value a) ∧
      ∀ other, other ≠ column.name → indexes'.lookup other = indexes.lookup other := by
  have hskip : ¬ ((!column.isIndexed) = true) := by simp [hindexed]
  have hsame : ¬ (oldValue = newValue ∧ oldAddress = newAddress) := fun h => hne h.2
  rw [← hindex.keyType] at hold hnew
  unfold updateColumn updateColumns
  rw [if_neg hskip, run_get_bind, bind_ok (run_indexOf hlookup indexes), if_neg hsame]
  by_cases holdNull : oldValue = .null
  · subst holdNull
    rw [if_neg (fun h => isNull_iff.1 h rfl)]
    by_cases hnewNull : newValue = .null
    · subst hnewNull
      rw [if_neg (fun h => isNull_iff.1 h rfl)]
      refine ⟨indexes, index, rfl, hlookup, hindex.congr fun v a => ?_, fun _ _ => rfl⟩
      rw [if_neg not_isKey_null]
      exact and_iff_right not_isKey_null
    · rw [if_pos (isNull_iff.2 hnewNull)]
      dsimp only
      rw [bind_ok (run_change hlookup (insert_of_hasType newAddress (hnew hnewNull)))]
      refine ⟨_, _, rfl, AList.lookup_insert _, (hindex.insert newValue newAddress).congr fun v a => ?_,
        fun other hother => AList.lookup_insert_ne hother⟩
      rw [if_congr (isKey_iff hnewNull) rfl (propext (and_iff_right not_isKey_null))]
  · rw [if_pos (isNull_iff.2 holdNull),
      bind_ok (run_change hlookup (remove_of_hasType (hold holdNull)))]
    have herase := hindex.erase oldValue
    by_cases hnewNull : newValue = .null
    · subst hnewNull
      rw [if_neg (fun h => isNull_iff.1 h rfl)]
      refine ⟨_, _, rfl, AList.lookup_insert _, herase.congr fun v a => ?_,
        fun other hother => AList.lookup_insert_ne hother⟩
      rw [if_neg not_isKey_null, isKey_iff holdNull]
    · rw [if_pos (isNull_iff.2 hnewNull)]
      dsimp only
      rw [bind_ok (run_change (AList.lookup_insert _)
        (@insert_of_hasType { index with entries := index.entries.erase oldValue } _
          newAddress (hnew hnewNull)))]
      refine ⟨_, _, rfl, AList.lookup_insert _, (herase.insert newValue newAddress).congr fun v a => ?_,
        fun other hother => ?_⟩
      · rw [if_congr (isKey_iff hnewNull) rfl rfl, isKey_iff holdNull]
      · rw [AList.lookup_insert_ne hother, AList.lookup_insert_ne hother]

theorem eachColumn_map {γ δ : Type} (f : γ → δ) (step : δ → Prog IndexSet Unit) (cs : List γ) :
    eachColumn step (cs.map f) = eachColumn (fun c => step (f c)) cs := by
  induction cs with
  | nil => rfl
  | cons c cs ih =>
      rw [List.map_cons, eachColumn, eachColumn, ih]

/-- `Update` takes the old values off and adds the new ones, under their new address. -/
theorem run_update {oldRecord newRecord : Record} {oldAddress newAddress : RecordAddress}
    (hnames : schema.NamesDiffer) (hold : oldRecord.fields.length = schema.size)
    (hnew : newRecord.fields.length = schema.size) (hne : oldAddress ≠ newAddress)
    (holdAddress : oldRecord.address = some oldAddress)
    (hnewAddress : newRecord.address = some newAddress)
    (holdTyped : Typed schema oldRecord.fields) (hnewTyped : Typed schema newRecord.fields)
    (h : indexes.Holds schema entries) :
    ∃ indexes', update schema oldRecord newRecord indexes = .ok () indexes' ∧
      indexes'.Holds schema fun i value a =>
        if newRecord.fields[i]? = some value ∧ value ≠ .null then a = newAddress
        else ¬ (oldRecord.fields[i]? = some value ∧ value ≠ .null) ∧ entries i value a := by
  have hgetAddress : ∀ {r : Record} {a : RecordAddress}, r.address = some a →
      (r.getAddress : Prog IndexSet RecordAddress) = pure a := by
    intro r a h
    rw [Record.getAddress, h]
  have hvalues : (oldRecord.fields.zip newRecord.fields).length = schema.size := by
    rw [List.length_zip, hold, hnew, min_self]
  have hzip : schema.columns.zip (oldRecord.fields.zip newRecord.fields) =
      (schema.columns.zip (oldRecord.fields.zip newRecord.fields)).zipIdx.map Prod.fst :=
    (List.zipIdx_map_fst 0 _).symm
  rw [update, bind_ok (Schema.run_columnsOf hold indexes),
    bind_ok (Schema.run_columnsOf hnew indexes), hgetAddress holdAddress, run_pure_bind,
    hgetAddress hnewAddress, run_pure_bind, updateColumns_eq_eachColumn, hzip, eachColumn_map]
  refine run_eachColumn_holds (fun c => (c.1.1, c.2)) ?_ hnames h ?_ ?_
  · have hcolumns : schema.columns =
        (schema.columns.zip (oldRecord.fields.zip newRecord.fields)).map Prod.fst :=
      (List.map_fst_zip (le_of_eq hvalues.symm)).symm
    conv_rhs => rw [hcolumns, List.zipIdx_map]
    rfl
  · rintro ⟨⟨column, oldValue, newValue⟩, i⟩ hc indexes index hindexed hlookup hindex
    rw [List.mem_zipIdx_iff_getElem?, List.getElem?_zip_eq_some, List.getElem?_zip_eq_some] at hc
    obtain ⟨hcolumn, hfield, hfield'⟩ := hc
    dsimp only at hcolumn hfield hfield' ⊢
    rw [hfield, hfield']
    exact run_updateColumn hindexed hlookup hindex hne (holdTyped i column oldValue hcolumn hfield)
      (hnewTyped i column newValue hcolumn hfield')
  · rintro ⟨⟨column, oldValue, newValue⟩, i⟩ - hindexed indexes
    dsimp only at hindexed ⊢
    rw [updateColumn, updateColumns, if_pos (by simp [hindexed])]
    rfl

end IndexSet

end QuasarDB.Storage
