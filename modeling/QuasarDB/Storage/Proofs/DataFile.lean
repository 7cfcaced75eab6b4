import QuasarDB.Library.Simulation
import QuasarDB.Storage.DataFile
import QuasarDB.Storage.Proofs.PageLog
import QuasarDB.Storage.Proofs.Pages

set_option autoImplicit false

/-! # The data file shows the pages of the table

The bytes of the file are its first page and, one behind the other, the pages of the table. Every function
that reaches the pages through the pager does with the bytes what it does in `Table.lean` with the lists of
cells, and fails as it does there; only a record that does not decode is refused by either in its own way. -/

namespace QuasarDB.Storage

open Prog FileStream

/-! ## A file of pages -/

namespace Pager

/-- The file consists of these pages. -/
structure Consists (stream : FileStream) (images : List (Memory TablePage.pageSize)) : Prop where
  isOpen : stream.isOpen = true
  bytes : stream.bytes = images.flatMap Memory.bytes

theorem length_flatMap_images (images : List (Memory TablePage.pageSize)) :
    (images.flatMap Memory.bytes).length = images.length * TablePage.pageSize := by
  induction images with
  | nil => rfl
  | cons data images ih =>
      rw [List.flatMap_cons, List.length_append, data.length_bytes, ih, List.length_cons]
      rw [Nat.succ_mul, Nat.add_comm]

variable {stream : FileStream} {images : List (Memory TablePage.pageSize)} {pageId : UInt32}
  {data : Memory TablePage.pageSize}

theorem consists_around {front back : List UInt8} (h : front ++ back = images.flatMap Memory.bytes) :
    Consists (around front back) images := ⟨rfl, h⟩

/-- The stream after `db_file.clear()`. -/
def cleared (stream : FileStream) : FileStream := { stream with failed := false }

theorem run_clear_bind {α : Type} (f : Unit → Prog FileStream α) :
    (clear >>= f) stream = f () (cleared stream) := rfl

theorem Consists.good_cleared (h : Consists stream images) : (cleared stream).Good := ⟨rfl, h.isOpen⟩

theorem Consists.run_getTotalPages (h : Consists stream images) :
    ∃ stream', getTotalPages stream = .ok (.ofNat images.length) stream' ∧
      Consists stream' images := by
  obtain ⟨bytes, position, failed, isOpen⟩ := stream
  obtain ⟨rfl, rfl⟩ := h
  have hmod : ((images.length : Int) * TablePage.pageSize % TablePage.pageSize == 0) = true := by
    rw [Int.mul_emod_left]
    rfl
  have hdiv : (images.length : Int) * TablePage.pageSize / TablePage.pageSize = images.length :=
    Int.mul_ediv_cancel _ (by decide)
  have hposition : ¬ ((position : Int) < 0) := by omega
  refine ⟨⟨images.flatMap Memory.bytes, position, false, true⟩, ?_, rfl, rfl⟩
  simp only [getTotalPages, clear, FileStream.tell, FileStream.seekEnd, FileStream.seek,
    run_modify_bind, run_get_bind, bind_assoc, pure_bind, length_flatMap_images, Nat.cast_mul,
    Bool.not_true, Bool.or_self, Bool.false_eq_true, if_false, or_false, hposition, hmod, assert_true, hdiv,
    Int.toNat_natCast]
  rfl

theorem exists_images (h : images[pageId.toNat]? = some data) : ∃ before after,
    images = before ++ data :: after ∧ before.length = pageId.toNat := by
  obtain ⟨hlt, hdata⟩ := List.getElem?_eq_some_iff.1 h
  refine ⟨images.take pageId.toNat, images.drop (pageId.toNat + 1), ?_,
    List.length_take_of_le (Nat.le_of_lt hlt)⟩
  rw [← hdata, ← List.drop_eq_getElem_cons hlt, List.take_append_drop]

/-- The offset of a page is where the pages before it end. -/
theorem offset_eq {before : List (Memory TablePage.pageSize)} (h : before.length = pageId.toNat) :
    (offset pageId : Int) = (before.flatMap Memory.bytes).length := by
  rw [length_flatMap_images, h, offset]

theorem Consists.run_readPage (h : Consists stream images) (hpage : images[pageId.toNat]? = some data) :
    ∃ stream', readPage pageId stream = .ok data stream' ∧ Consists stream' images := by
  obtain ⟨before, after, rfl, hbefore⟩ := exists_images hpage
  have hbytes : (cleared stream).bytes =
      before.flatMap Memory.bytes ++ (data.bytes ++ after.flatMap Memory.bytes) := by
    rw [cleared, h.bytes, List.flatMap_append, List.flatMap_cons]
  have hseek := run_seek h.good_cleared hbytes (offset_eq hbefore)
  refine ⟨_, ?_, consists_around ((List.append_assoc _ _ _).trans (hbytes.symm.trans h.bytes))⟩
  rw [readPage, run_clear_bind, bind_ok hseek, bind_ok (run_read data.length_bytes),
    dif_pos data.length_bytes]
  rfl

/-- Behind the last page there is nothing to read. -/
theorem Consists.readPage_error (h : Consists stream images) (hpage : images.length ≤ pageId.toNat) :
    ∃ stream', readPage pageId stream =
        .error (.exception ("Failed to read complete page " ++ toString pageId)) stream' ∧
      Consists stream' images := by
  obtain ⟨bytes, position, failed, isOpen⟩ := stream
  obtain ⟨rfl, rfl⟩ := h
  have hseek : seek (offset pageId) (cleared ⟨images.flatMap Memory.bytes, position, failed, true⟩) =
      .ok () ⟨images.flatMap Memory.bytes, offset pageId, false, true⟩ := by
    have hnonneg : ¬ ((offset pageId : Int) < 0) := by omega
    simp [seek, cleared, hnonneg]
  have hend : (images.flatMap Memory.bytes).length ≤ offset pageId := by
    rw [length_flatMap_images, offset]
    exact Nat.mul_le_mul_right _ hpage
  have hread : FileStream.read TablePage.pageSize
      ⟨images.flatMap Memory.bytes, offset pageId, false, true⟩ =
        .ok [] ⟨images.flatMap Memory.bytes, offset pageId, true, true⟩ := by
    generalize images.flatMap Memory.bytes = bytes at hend
    have hnone : bytes.length - offset pageId = 0 := by omega
    simp [FileStream.read, hend, hnone, TablePage.pageSize]
  refine ⟨⟨images.flatMap Memory.bytes, offset pageId, true, true⟩, ?_, rfl, rfl⟩
  rw [readPage, run_clear_bind, bind_ok hseek, bind_ok hread, dif_neg (by decide)]
  rfl

theorem Consists.run_writePage (h : Consists stream images) (hpage : pageId.toNat < images.length)
    (data : Memory TablePage.pageSize) : ∃ stream', writePage pageId data stream = .ok () stream' ∧
      Consists stream' (images.set pageId.toNat data) := by
  obtain ⟨before, after, himages, hbefore⟩ := exists_images (List.getElem?_eq_getElem hpage)
  generalize images[pageId.toNat] = old at himages
  subst himages
  have hbytes : (cleared stream).bytes =
      before.flatMap Memory.bytes ++ (old.bytes ++ after.flatMap Memory.bytes) := by
    rw [cleared, h.bytes, List.flatMap_append, List.flatMap_cons]
  have hseek := run_seek h.good_cleared hbytes (offset_eq hbefore)
  have hset : (before ++ old :: after).set pageId.toNat data = before ++ data :: after := by
    rw [← hbefore, List.set_append_right _ _ (Nat.le_refl _), Nat.sub_self, List.set_cons_zero]
  refine ⟨around (before.flatMap Memory.bytes ++ data.bytes) (after.flatMap Memory.bytes), ?_, ?_⟩
  · rw [writePage, run_clear_bind, bind_ok hseek]
    exact run_overwrite (old.length_bytes.trans data.length_bytes.symm)
  · refine consists_around ?_
    rw [hset, List.flatMap_append, List.flatMap_cons, List.append_assoc]

theorem Consists.run_appendNewPage (h : Consists stream images) :
    ∃ stream', appendNewPage stream = .ok (.ofNat images.length) stream' ∧
      Consists stream' (images ++ [whitePage]) := by
  have hend := run_seekEnd h.good_cleared
  have hagain := run_seekEnd (good_around (cleared stream).bytes [])
  have hlength : (((cleared stream).bytes.length : Int) / TablePage.pageSize).toNat = images.length := by
    rw [cleared, h.bytes, length_flatMap_images, Nat.cast_mul, Int.mul_ediv_cancel _ (by decide),
      Int.toNat_natCast]
  refine ⟨around ((cleared stream).bytes ++ whitePage.bytes) [], ?_, ?_⟩
  · rw [appendNewPage, run_clear_bind, bind_ok hend, bind_ok run_tell, bind_ok hagain,
      bytes_around, List.append_nil, bind_ok run_write, hlength]
    rfl
  · refine consists_around ?_
    rw [List.append_nil, cleared, h.bytes, List.flatMap_append, List.flatMap_singleton]

end Pager

/-! ## Open pages -/

namespace DataPage

/-- The open page, in memory and in the file, has these cells. -/
structure Pictures (pageId : UInt32) (page : DataPage) (cells : List Cell) : Prop where
  saved : page.saved = page.data
  holds : ∃ laid free, page.Holds pageId laid free ∧ laid.map LaidCell.toCell = cells

variable {page page' : DataPage} {pageId slotIdx : UInt32} {cells : List Cell}

theorem Pictures.id_eq (h : Pictures pageId page cells) : page.id = pageId := by
  obtain ⟨laid, free, hholds, -⟩ := h.holds
  exact hholds.id_eq

theorem Pictures.isRecordFit (h : Pictures pageId page cells) (recordSize : UInt32) :
    page.isRecordFit recordSize = TablePage.isRecordFit recordSize.toNat cells := by
  obtain ⟨laid, free, hholds, rfl⟩ := h.holds
  rw [DataPage.isRecordFit, TablePage.isRecordFit, hholds.fullFreeSpace_toNat, nextFreeOffset_cells]
  rfl

theorem after_onData {α : Type} (x : Prog (Memory TablePage.pageSize) α) (page : DataPage) :
    ((onData x).after page).saved = page.saved := by
  unfold Prog.after
  rw [onData, run_on]
  cases x page.data <;> rfl

/-- Reading saves nothing. -/
theorem saved_readRecord (page : DataPage) (slotIdx : UInt32) (schema : Schema) (interner : Interner) :
    ((readRecord slotIdx schema interner).after page).saved = page.saved := by
  unfold readRecord
  by_cases hcount : page.recordCount ≤ slotIdx
  · rw [Prog.after, run_get_bind, if_pos hcount]
    rfl
  · have hrun := after_onData (do
      let offset ← cellAt slotIdx
      if (← Memory.load (offset + 8) 1) ≠ [0] then return none
      else
        let recordId ← Memory.loadWord offset
        let recordSize ← Memory.loadWord (offset + 4)
        let payload := page.data.bytes.drop (offset + TablePage.cellSize)
        return some (← Record.fromBinary payload recordSize recordId schema interner)) page
    rw [Prog.after, run_get_bind, if_neg hcount]
    exact hrun

theorem saved_create {memory : DataPage} (h : create pageId memory = .ok () page) :
    page.saved = page.data := by
  unfold create at h
  obtain ⟨-, page₁, -, h⟩ := bind_eq_ok.1 h
  obtain ⟨-, page₂, -, h⟩ := bind_eq_ok.1 h
  rw [run_modify_bind, run_get_bind] at h
  obtain ⟨-, rfl⟩ := throwIf_eq_ok.1 h
  rfl

theorem saved_insertRecord {recordId slot : Int32} {data : Payload} (hpage : page.saved = page.data)
    (h : insertRecord recordId data page = .ok slot page') : page'.saved = page'.data := by
  rw [insertRecord, run_get_bind] at h
  by_cases hfull : page.getFullFreeSpaceSize < .ofNat TablePage.cellSize + data.size
  · rw [if_pos hfull] at h
    obtain ⟨-, rfl⟩ := pure_eq_ok.1 h
    exact hpage
  · rw [if_neg hfull] at h
    obtain ⟨slotIdx, page₁, -, h⟩ := bind_eq_ok.1 h
    obtain ⟨_, page₂, hsave, h⟩ := bind_eq_ok.1 h
    obtain ⟨-, rfl⟩ := pure_eq_ok.1 h
    cases hsave
    rfl

theorem saved_deleteRecord {laid : List LaidCell} {free : List UInt8} {cell : LaidCell}
    (hpage : page.saved = page.data) (hholds : page.Holds pageId laid free)
    (hcell : laid[slotIdx.toNat]? = some cell) (h : deleteRecord slotIdx page = .ok () page') :
    page'.saved = page'.data := by
  obtain ⟨before, after, rfl, hslot⟩ := exists_split hcell
  rw [deleteRecord, run_get_bind] at h
  by_cases hcount : page.recordCount ≤ slotIdx
  · rw [if_pos hcount] at h
    cases h
  · rw [if_neg hcount, bind_ok (run_onData (hholds.run_cellAt hslot.symm)),
      bind_ok (run_onData (hholds.run_loadFlag rfl))] at h
    cases hdeleted : cell.deleted with
    | true =>
        rw [hdeleted, if_neg (by decide)] at h
        obtain ⟨-, rfl⟩ := pure_eq_ok.1 h
        exact hpage
    | false =>
        have hflag : LaidCell.flag false = [0] := rfl
        rw [hdeleted, if_pos hflag] at h
        obtain ⟨_, page₁, -, hsave⟩ := bind_eq_ok.1 h
        cases hsave
        rfl

/-- A new page has no cells. -/
theorem pictures_create (memory : DataPage) (pageId : UInt32) :
    ∃ page, create pageId memory = .ok () page ∧ Pictures pageId page [] := by
  obtain ⟨page, free, hrun, hholds⟩ := run_create memory pageId
  exact ⟨page, hrun, saved_create hrun, [], free, hholds, rfl⟩

/-- A record is put behind the cells of a page, or does not fit there. -/
theorem Pictures.run_insertRecord (h : Pictures pageId page cells) (recordId : UInt32) {data : Payload}
    (hsize : data.bytes.length ≤ TablePage.maxRecordSize) :
    ∃ slot page', insertRecord recordId.toInt32 data page = .ok slot page' ∧
      slot.toUInt32.toNat = (TablePage.insertRecord recordId data.bytes cells).1.getD (2 ^ 32 - 1) ∧
      Pictures pageId page' (TablePage.insertRecord recordId data.bytes cells).2 := by
  obtain ⟨laid, free, hholds, rfl⟩ := h.holds
  have hfill := hholds.length_free
  have hcount := hholds.length_le
  unfold TablePage.insertRecord
  rw [nextFreeOffset_cells]
  rw [TablePage.maxRecordSize, TablePage.headerSize, TablePage.cellSize, TablePage.pageSize] at hsize
  rw [TablePage.pageSize] at hfill ⊢
  rw [TablePage.cellSize]
  by_cases hfull : 4096 - freeFrom laid < 12 + data.bytes.length
  · rw [if_pos hfull]
    exact ⟨-1, page, hholds.insertRecord_full _ (by omega), rfl, h⟩
  · rw [if_neg hfull]
    have hfits : TablePage.cellSize + data.bytes.length ≤ free.length := by
      rw [TablePage.cellSize]
      omega
    obtain ⟨page', cell, free', hrun, hcell, hholds'⟩ := hholds.run_insertRecord recordId.toInt32 hfits
    refine ⟨page.recordCount.toInt32, page', hrun, ?_, saved_insertRecord h.saved hrun, _, _, hholds', ?_⟩
    · rw [UInt32.toUInt32_toInt32, hholds.recordCount_toNat, Option.getD_some, List.length_map]
    · rw [List.map_append, List.map_singleton, hcell, UInt32.toUInt32_toInt32]
      rfl

/-- A cell is marked, or there is none. -/
theorem Pictures.run_deleteRecord (h : Pictures pageId page cells) (slotIdx : UInt32) :
    match TablePage.deleteRecord slotIdx.toNat cells with
    | .ok cells' => ∃ page', deleteRecord slotIdx page = .ok () page' ∧ Pictures pageId page' cells'
    | .error what => deleteRecord slotIdx page = .error (.exception what) page := by
  obtain ⟨laid, free, hholds, rfl⟩ := h.holds
  unfold TablePage.deleteRecord
  rw [List.getElem?_map]
  cases hcell : laid[slotIdx.toNat]? with
  | none =>
      have hle : page.recordCount ≤ slotIdx := by
        rw [UInt32.le_iff_toNat_le, hholds.recordCount_toNat]
        exact List.getElem?_eq_none_iff.1 hcell
      have hcount : toString page.recordCount = toString (laid.map LaidCell.toCell).length := by
        rw [List.length_map, ← hholds.recordCount_toNat]
        rfl
      show deleteRecord slotIdx page = .error (.exception ("Slot idx out of range: slot_idx=" ++
        toString slotIdx.toNat ++ ", slot_count=" ++ toString (laid.map LaidCell.toCell).length ++ ".")) page
      rw [← hcount]
      exact deleteRecord_of_le hle
  | some cell =>
      obtain ⟨page', hrun, hholds'⟩ := hholds.run_deleteRecord hcell
      refine ⟨page', hrun, saved_deleteRecord h.saved hholds hcell hrun, _, _, hholds', ?_⟩
      rw [List.map_set]

end DataPage

/-! ## What the file shows -/

namespace DataFile

/-- The file has a first page, and then a page for each list of cells. -/
structure ShowsIn (stream : FileStream) (pages : List (List Cell)) (memory : Memory TablePage.pageSize)
    (images : List (Memory TablePage.pageSize)) : Prop where
  consists : Pager.Consists stream (metadataPage memory :: images)
  length : images.length = pages.length
  pictures : ∀ (i : Nat) data cells, images[i]? = some data → pages[i]? = some cells →
    DataPage.Pictures (.ofNat (i + 1)) ⟨data, data⟩ cells

def Shows (stream : FileStream) (pages : List (List Cell)) : Prop :=
  ∃ memory images, ShowsIn stream pages memory images

/-- The file shows the pages of a table of which the rest stays the same, and which has so many pages at
    most. -/
structure Backs (limit : Nat) (schema : Schema) (strings : StringStore) (stream : FileStream)
    (table : Table) : Prop where
  shows : Shows stream table.pages
  length_le : table.pages.length ≤ limit
  schema_eq : table.schema = schema
  strings_eq : table.strings = strings

variable {limit : Nat} {schema : Schema} {strings : StringStore} {stream : FileStream} {table : Table}
  {pageId slotIdx : UInt32} {pages : List (List Cell)} {cells : List Cell}

/-- A failure of `FromBinary`, on whatever data. -/
def Undecoded (failure : Failure) : Prop :=
  ∃ data size recordId schema interner,
    (Record.fromBinary data size recordId schema interner).outcome () = .error failure

/-- The same failure, or both are for a record that does not decode. What stands behind its bytes is read on in
    the file, and is not there in the cell. -/
def SameFailure (failure failure' : Failure) : Prop :=
  failure = failure' ∨ Undecoded failure ∧ Undecoded failure'

theorem ShowsIn.other {memory : Memory TablePage.pageSize} {images : List (Memory TablePage.pageSize)}
    {stream' : FileStream} (h : ShowsIn stream pages memory images)
    (hconsists : Pager.Consists stream' (metadataPage memory :: images)) :
    Shows stream' pages := ⟨memory, images, hconsists, h.length, h.pictures⟩

/-- Another page in the place of one. -/
theorem Shows.run_writePage (h : Shows stream pages) (hpos : pageId ≠ 0)
    (hlt : pageId.toNat - 1 < pages.length) {data : Memory TablePage.pageSize}
    (hdata : DataPage.Pictures pageId ⟨data, data⟩ cells) :
    ∃ stream', Pager.writePage pageId data stream = .ok () stream' ∧
      Shows stream' (pages.set (pageId.toNat - 1) cells) := by
  obtain ⟨memory, images, hconsists, hlength, hpictures⟩ := h
  have hsucc : pageId.toNat = pageId.toNat - 1 + 1 := by
    have hne : pageId.toNat ≠ 0 := fun hzero => hpos (UInt32.toNat.inj hzero)
    omega
  have hin : pageId.toNat < (metadataPage memory :: images).length := by
    rw [List.length_cons]
    omega
  obtain ⟨stream', hrun, hconsists'⟩ := hconsists.run_writePage hin data
  rw [hsucc, List.set_cons_succ] at hconsists'
  refine ⟨stream', hrun, _, _, hconsists', ?_, ?_⟩
  · rw [List.length_set, List.length_set, hlength]
  · intro i data' cells' hdata' hcells'
    rw [List.getElem?_set] at hdata' hcells'
    by_cases hi : pageId.toNat - 1 = i
    · rw [if_pos hi, if_pos (by omega)] at hdata' hcells'
      obtain rfl := Option.some.inj hdata'
      obtain rfl := Option.some.inj hcells'
      rw [← hi, ← hsucc, UInt32.ofNat_toNat]
      exact hdata
    · rw [if_neg hi] at hdata' hcells'
      exact hpictures i data' cells' hdata' hcells'

/-- The first page is not one of the table. -/
theorem metadataPage_id (memory : Memory TablePage.pageSize) :
    DataPage.id ⟨metadataPage memory, metadataPage memory⟩ ≠ 0 := by
  have hword : DataPage.id ⟨metadataPage memory, metadataPage memory⟩ = wordOfBytes (header.take 4) := by
    rw [DataPage.id, DataPage.headerWord, metadataPage, List.drop_zero,
      List.take_append_of_le_length (by decide)]
  rw [hword]
  decide

/-- A page is opened, or fails to open on both levels. -/
theorem agree_openPage (h : Backs limit schema strings stream table) (pageId : UInt32) :
    Agree (Backs limit schema strings) SameFailure
      (fun page cells => pageId ≠ 0 ∧ table.pages[pageId.toNat - 1]? = some cells ∧
        DataPage.Pictures pageId page cells)
      (openPage pageId stream) (Table.readPage pageId.toNat table) := by
  obtain ⟨memory, images, hshows⟩ := h.shows
  have hback : ∀ {stream'}, Pager.Consists stream' (metadataPage memory :: images) →
      Backs limit schema strings stream' table := fun hconsists =>
    ⟨hshows.other hconsists, h.length_le, h.schema_eq, h.strings_eq⟩
  by_cases hzero : pageId = 0
  · subst hzero
    have hfirst : (metadataPage memory :: images)[(0 : UInt32).toNat]? = some (metadataPage memory) := rfl
    obtain ⟨stream', hread, hconsists⟩ := hshows.consists.run_readPage hfirst
    have hid : (DataPage.id ⟨metadataPage memory, metadataPage memory⟩ != 0) = true :=
      bne_iff_ne.2 (metadataPage_id memory)
    have hopen : openPage 0 stream =
        .error (.exception "Readed page id is not match with argument id.") stream' := by
      rw [openPage, bind_ok hread, hid]
      rfl
    exact Agree.error hopen rfl (hback hconsists) (.inl rfl)
  · have hpos : pageId.toNat ≠ 0 := fun heq => hzero (UInt32.toNat.inj heq)
    obtain ⟨i, hi⟩ : ∃ i, pageId.toNat = i + 1 := Nat.exists_eq_succ_of_ne_zero hpos
    rw [hi, Nat.add_sub_cancel]
    cases hcells : table.pages[i]? with
    | none =>
        have hle : (metadataPage memory :: images).length ≤ pageId.toNat := by
          rw [List.length_cons, hshows.length, hi]
          exact Nat.succ_le_succ (List.getElem?_eq_none_iff.1 hcells)
        obtain ⟨stream', hread, hconsists⟩ := hshows.consists.readPage_error hle
        have htable : Table.readPage (i + 1) table =
            .error (.exception ("Failed to read complete page " ++ toString (i + 1))) table := by
          rw [Table.readPage, if_neg (Nat.succ_ne_zero i)]
          dsimp only
          rw [run_get_bind, Nat.add_sub_cancel, hcells]
          rfl
        have htext : toString pageId = toString (i + 1) := congrArg toString hi
        rw [htext] at hread
        exact Agree.error (bind_error hread) htable (hback hconsists) (.inl rfl)
    | some cells =>
        obtain ⟨hlt, -⟩ := List.getElem?_eq_some_iff.1 hcells
        obtain ⟨data, himage⟩ : ∃ data, images[i]? = some data :=
          ⟨_, List.getElem?_eq_getElem (hshows.length ▸ hlt)⟩
        have hpage : (metadataPage memory :: images)[pageId.toNat]? = some data := by
          rw [hi, List.getElem?_cons_succ, himage]
        obtain ⟨stream', hread, hconsists⟩ := hshows.consists.run_readPage hpage
        have hpictures := hshows.pictures i data cells himage hcells
        rw [← hi, UInt32.ofNat_toNat] at hpictures
        have hopen : openPage pageId stream = .ok ⟨data, data⟩ stream' := by
          rw [openPage, bind_ok hread, hpictures.id_eq, bne_self_eq_false]
          rfl
        have htable : Table.readPage (i + 1) table = .ok cells table :=
          Table.run_readPage (Nat.succ_pos i) hcells
        exact Agree.ok hopen htable (hback hconsists) ⟨hzero, rfl, hpictures⟩

/-- What a function of an open page returns, and what it leaves in the file. -/
theorem run_onPage {α : Type} {x : Prog DataPage α} {page : DataPage} {stream' : FileStream}
    (hwrite : Pager.writePage pageId (x.after page).saved stream = .ok () stream') :
    (onPage pageId page x).outcome stream = x.outcome page ∧
      (onPage pageId page x).after stream = stream' := by
  unfold Prog.outcome Prog.after onPage
  rw [bind_ok hwrite]
  cases x page <;> exact ⟨rfl, rfl⟩

theorem run_onPage_ok {α : Type} {x : Prog DataPage α} {page page' : DataPage} {a : α}
    {stream' : FileStream} (hx : x page = .ok a page')
    (hwrite : Pager.writePage pageId page'.saved stream = .ok () stream') :
    onPage pageId page x stream = .ok a stream' := by
  rw [onPage, after_ok hx, bind_ok hwrite, hx]
  rfl

theorem readPage_eq_ok {n : Nat} {table' : Table} (h : Table.readPage n table = .ok cells table') :
    table' = table := by
  unfold Table.readPage at h
  by_cases hn : n = 0
  · rw [if_pos hn] at h
    cases h
  · rw [if_neg hn] at h
    dsimp only at h
    rw [run_get_bind] at h
    cases hcells : table.pages[n - 1]? with
    | none =>
        rw [hcells] at h
        cases h
    | some cells' =>
        rw [hcells] at h
        exact (pure_eq_ok.1 h).2

/-! ## Reading and deleting -/

/-- The page of the file that is written back, or written anew. -/
theorem Backs.run_writePage (h : Backs limit schema strings stream table) (hpos : pageId ≠ 0)
    {old : List Cell} (hold : table.pages[pageId.toNat - 1]? = some old) {page : DataPage}
    (hpage : DataPage.Pictures pageId page cells) :
    ∃ stream', Pager.writePage pageId page.saved stream = .ok () stream' ∧
      Backs limit schema strings stream'
        { table with pages := table.pages.set (pageId.toNat - 1) cells } := by
  obtain ⟨hlt, -⟩ := List.getElem?_eq_some_iff.1 hold
  have hdata : DataPage.Pictures pageId ⟨page.saved, page.saved⟩ cells := by
    obtain ⟨laid, free, hholds, hcells⟩ := hpage.holds
    refine ⟨rfl, laid, free, ⟨?_⟩, hcells⟩
    rw [hpage.saved]
    exact hholds.bytes
  obtain ⟨stream', hwrite, hshows⟩ := h.shows.run_writePage hpos hlt hdata
  refine ⟨stream', hwrite, hshows, ?_, h.schema_eq, h.strings_eq⟩
  rw [List.length_set]
  exact h.length_le

/-- What is written back as it was changes nothing. -/
theorem set_same (table : Table) {i : Nat} (h : table.pages[i]? = some cells) :
    { table with pages := table.pages.set i cells } = table := by
  obtain ⟨hlt, rfl⟩ := List.getElem?_eq_some_iff.1 h
  rw [List.set_getElem_self]

theorem after_readCell (slot : Nat) (cells : List Cell) (table : Table) :
    (TablePage.readRecord slot schema strings.toInterner cells).after table = table := by
  unfold TablePage.readRecord
  cases cells[slot]? with
  | none => rfl
  | some cell =>
      dsimp only
      by_cases hdeleted : cell.deleted = true
      · rw [if_pos hdeleted]
        rfl
      · rw [if_neg hdeleted]
        unfold Prog.after
        rw [run_bind]
        unfold Record.fromBinary
        cases Record.readValues strings.toInterner schema.size cell.payload with
        | error failure rest => rfl
        | ok values rest =>
            dsimp only
            by_cases hsize : cell.payload.length - rest.length ≠ cell.recordSize.toNat
            · rw [if_pos hsize]
            · rw [if_neg hsize]
              rfl

theorem totalPages_toNat (hlimit : limit + 1 < 2 ^ 32) (h : Backs limit schema strings stream table) :
    ∃ stream', Pager.getTotalPages stream = .ok (.ofNat table.totalPages) stream' ∧
      Backs limit schema strings stream' table ∧ table.totalPages < 2 ^ 32 := by
  obtain ⟨memory, images, hshows⟩ := h.shows
  obtain ⟨stream', hrun, hconsists⟩ := hshows.consists.run_getTotalPages
  rw [List.length_cons, hshows.length] at hrun
  refine ⟨stream', hrun, ⟨hshows.other hconsists, h.length_le, h.schema_eq, h.strings_eq⟩, ?_⟩
  have hle := h.length_le
  rw [Table.totalPages]
  omega

/-- A slot is read alike in the bytes and in the list of the cells. -/
theorem alike_readRecord {page : DataPage} (h : DataPage.Pictures pageId page cells) (slotIdx : UInt32)
    (schema : Schema) (interner : Interner) (table : Table) :
    Alike SameFailure Eq ((DataPage.readRecord slotIdx schema interner).outcome page)
      ((TablePage.readRecord slotIdx.toNat schema interner cells).outcome table) := by
  obtain ⟨laid, free, hholds, rfl⟩ := h.holds
  obtain ⟨behind, hread⟩ := hholds.outcome_readRecord slotIdx schema interner table
  rw [hread, TablePage.readRecord, List.getElem?_map]
  cases laid[slotIdx.toNat]? with
  | none => exact (rfl : none = none)
  | some cell =>
      rw [Option.map_some]
      dsimp only
      cases cell.deleted with
      | true => exact (rfl : none = none)
      | false =>
          have halone : (Record.fromBinary (cell.payload ++ behind) cell.recordSize cell.recordId schema
              interner).result table = _ := @Record.result_fromBinary_append _ _ _ _ _ _ _ _ _ table
                cell.recordSize_eq.symm
          rw [result_eq_outcome, result_eq_outcome] at halone
          have hundecoded : ∀ {data : List UInt8} {failure : Failure},
              (Record.fromBinary data cell.recordSize cell.recordId schema interner).outcome table =
                .error failure → Undecoded failure :=
            fun h => ⟨_, _, _, _, _, (Record.outcome_fromBinary () table).trans h⟩
          rw [if_neg Bool.false_ne_true, if_neg Bool.false_ne_true, outcome_bind_pure]
          exact (Alike.of_toOption halone fun _ _ he hf => .inr ⟨hundecoded he, hundecoded hf⟩).map
            fun _ _ heq => congrArg some heq

/-- A record is read, or not, on both levels. -/
theorem agree_readRecord (hlimit : limit + 1 < 2 ^ 32) (h : Backs limit schema strings stream table)
    (pageIndex slotIdx : UInt32) :
    Agree (Backs limit schema strings) SameFailure Eq
      (readRecord schema strings.toInterner pageIndex slotIdx stream)
      (Table.readRecord { pageIndex := pageIndex.toNat, slotIdx := slotIdx.toNat } table) := by
  obtain ⟨stream₁, htotal, hback, hcount⟩ := totalPages_toNat hlimit h
  have hexists : Pager.pageExists pageIndex stream =
      .ok (decide (pageIndex < .ofNat table.totalPages)) stream₁ := by
    rw [Pager.pageExists, bind_ok htotal]
    rfl
  rw [readRecord, bind_ok hexists, Table.readRecord, run_get_bind]
  refine Agree.ite ?_ (fun _ _ => ?_) fun _ _ => Agree.pure hback rfl
  · rw [decide_eq_true_iff, UInt32.lt_iff_toNat_lt, UInt32.toNat_ofNat', Nat.mod_eq_of_lt hcount]
  · refine (agree_openPage hback pageIndex).bind fun page cells stream₂ table₂ _ hread hback₂ hpage => ?_
    obtain rfl := readPage_eq_ok hread
    obtain ⟨hpos, hcells, hpictures⟩ := hpage
    obtain ⟨stream₃, hwrite, hback₃⟩ := hback₂.run_writePage hpos hcells hpictures
    rw [set_same _ hcells] at hback₃
    rw [← DataPage.saved_readRecord page slotIdx schema strings.toInterner] at hwrite
    obtain ⟨houtcome, hafter⟩ := run_onPage hwrite
    refine Agree.bind (V := Eq) ?_ fun record record' _ _ _ _ hback₄ heq => ?_
    · refine Agree.of_outcome ?_ ?_
      · rw [houtcome, h.schema_eq, h.strings_eq]
        exact alike_readRecord hpictures slotIdx schema strings.toInterner table₂
      · rw [hafter, h.schema_eq, h.strings_eq, after_readCell]
        exact hback₃
    · rw [heq]
      exact Agree.pure hback₄ rfl

/-- A record is deleted, or not, on both levels. -/
theorem agree_deleteRecord (h : Backs limit schema strings stream table) (pageIndex slotIdx : UInt32) :
    Agree (Backs limit schema strings) SameFailure (fun _ _ => True)
      (deleteRecord pageIndex slotIdx stream)
      (Table.deleteCell { pageIndex := pageIndex.toNat, slotIdx := slotIdx.toNat } table) := by
  refine (agree_openPage h pageIndex).bind fun page cells stream₁ table₁ _ hread hback hpage => ?_
  obtain rfl := readPage_eq_ok hread
  obtain ⟨hpos, hcells, hpictures⟩ := hpage
  have hdelete := hpictures.run_deleteRecord slotIdx
  cases hcell : TablePage.deleteRecord slotIdx.toNat cells with
  | ok cells' =>
      rw [hcell] at hdelete
      obtain ⟨page', hrun, hpictures'⟩ := hdelete
      obtain ⟨stream₂, hwrite, hback₂⟩ := hback.run_writePage hpos hcells hpictures'
      exact Agree.ok (run_onPage_ok hrun hwrite) rfl hback₂ trivial
  | error what =>
      rw [hcell] at hdelete
      obtain ⟨stream₂, hwrite, hback₂⟩ := hback.run_writePage hpos hcells hpictures
      rw [set_same _ hcells] at hback₂
      have hpage : onPage pageIndex page (DataPage.deleteRecord slotIdx) stream₁ =
          .error (.exception what) stream₂ := by
        rw [onPage, after_error hdelete, bind_ok hwrite, hdelete]
        rfl
      exact Agree.error hpage rfl hback₂ (.inl rfl)

/-! ## Writing -/

theorem agree_serialize (h : Backs limit schema strings stream table) (record : Record) :
    Agree (Backs limit schema strings) SameFailure (fun data data' => data = data' ∧ data.length < 2 ^ 32)
      (record.serialize stream) (record.serialize table) := by
  unfold Record.serialize
  cases hsize : (record.storedBytes.length == record.serializedSize.toNat) with
  | false => exact ⟨h, .inl rfl⟩
  | true =>
      refine ⟨h, rfl, ?_⟩
      rw [eq_of_beq hsize]
      exact UInt32.toNat_lt _

theorem ofBytes_bytes {data : List UInt8} (h : data.length < 2 ^ 32) :
    (Payload.ofBytes data).bytes = data := by
  rw [Payload.ofBytes]
  dsimp only
  rw [UInt32.toNat_ofNat', Nat.mod_eq_of_lt h, List.take_length]

/-- A page that the table has can be opened. -/
theorem run_openPage_of_cells (h : Backs limit schema strings stream table) (hpos : pageId ≠ 0)
    (hcells : table.pages[pageId.toNat - 1]? = some cells) :
    ∃ page stream', openPage pageId stream = .ok page stream' ∧
      Backs limit schema strings stream' table ∧ DataPage.Pictures pageId page cells := by
  have hagree := agree_openPage h pageId
  have hnonzero : 0 < pageId.toNat := Nat.pos_of_ne_zero fun hzero => hpos (UInt32.toNat.inj hzero)
  rw [Table.run_readPage hnonzero hcells] at hagree
  cases hopen : openPage pageId stream with
  | ok page stream' =>
      rw [hopen] at hagree
      obtain ⟨hback, -, -, hpictures⟩ := hagree
      exact ⟨page, stream', rfl, hback, hpictures⟩
  | error failure stream' =>
      rw [hopen] at hagree
      exact hagree.elim

/-- The loop looks at the pages one after the other. -/
theorem run_findFreePage (hlimit : limit + 1 < 2 ^ 32) (freeSpace : UInt32) {count : Nat} {i : UInt32}
    (h : Backs limit schema strings stream table) (hi : i ≠ 0)
    (hcount : i.toNat + count = table.pages.length + 1) :
    ∃ found stream', findFreePage freeSpace count i stream = .ok found stream' ∧
      Backs limit schema strings stream' table ∧
      found.map UInt32.toNat =
        Table.findFreePage freeSpace.toNat i.toNat (table.pages.drop (i.toNat - 1)) := by
  induction count generalizing i stream with
  | zero =>
      refine ⟨none, stream, rfl, h, ?_⟩
      rw [List.drop_eq_nil_of_le (by omega)]
      rfl
  | succ count ih =>
      have hpos : 0 < i.toNat := Nat.pos_of_ne_zero fun hzero => hi (UInt32.toNat.inj hzero)
      have hlt : i.toNat - 1 < table.pages.length := by omega
      obtain ⟨page, stream₁, hopen, hback, hpictures⟩ :=
        run_openPage_of_cells h hi (List.getElem?_eq_getElem hlt)
      rw [findFreePage, bind_ok hopen, hpictures.isRecordFit, List.drop_eq_getElem_cons hlt,
        Table.findFreePage]
      cases hfits : TablePage.isRecordFit freeSpace.toNat table.pages[i.toNat - 1] with
      | true => exact ⟨some i, stream₁, rfl, hback, rfl⟩
      | false =>
          have hle := h.length_le
          have hnext : (i + 1).toNat = i.toNat + 1 := by
            have hone : (1 : UInt32).toNat = 1 := rfl
            rw [UInt32.toNat_add, hone]
            exact Nat.mod_eq_of_lt (by omega)
          have hne : i + 1 ≠ 0 := fun heq => by
            rw [heq] at hnext
            exact absurd hnext (Nat.zero_ne_add_one _)
          obtain ⟨found, stream', hfind, hback', hfound⟩ := ih hback hne (by omega)
          refine ⟨found, stream', hfind, hback', ?_⟩
          rw [hfound, hnext]
          congr 2
          omega

/-- A new page is put behind the others. -/
theorem run_createPage (hlimit : limit + 1 < 2 ^ 32) (memory : Memory TablePage.pageSize)
    (h : Backs limit schema strings stream table) (hroom : table.pages.length < limit) :
    ∃ pageId stream', createPage memory stream = .ok pageId stream' ∧
      pageId.toNat = table.pages.length + 1 ∧
      Backs limit schema strings stream' { table with pages := table.pages ++ [[]] } := by
  obtain ⟨first, images, hconsists, hlength, hpictures⟩ := h.shows
  obtain ⟨stream₁, happend, hconsists₁⟩ := hconsists.run_appendNewPage
  rw [List.length_cons, hlength] at happend
  generalize hpageId : UInt32.ofNat (table.pages.length + 1) = pageId at happend
  have hid : pageId.toNat = table.pages.length + 1 := by
    rw [← hpageId, UInt32.toNat_ofNat']
    exact Nat.mod_eq_of_lt (by omega)
  obtain ⟨page, hrun, hpage⟩ :=
    DataPage.pictures_create { data := memory, saved := Pager.whitePage } pageId
  have hin : pageId.toNat < (metadataPage first :: images ++ [Pager.whitePage]).length := by
    rw [List.length_append, List.length_cons, List.length_singleton]
    omega
  obtain ⟨stream₂, hwrite, hconsists₂⟩ := hconsists₁.run_writePage hin page.saved
  have hset : (metadataPage first :: images ++ [Pager.whitePage]).set pageId.toNat page.saved =
      metadataPage first :: (images ++ [page.saved]) := by
    rw [hid, ← hlength, List.cons_append, List.set_cons_succ, List.set_append_right _ _ (Nat.le_refl _),
      Nat.sub_self]
    rfl
  rw [hset] at hconsists₂
  refine ⟨pageId, stream₂, ?_, hid, ⟨_, _, hconsists₂, ?_, ?_⟩, ?_, h.schema_eq, h.strings_eq⟩
  · rw [createPage, bind_ok happend, bind_ok (run_onPage_ok hrun hwrite)]
    rfl
  · rw [List.length_append, List.length_append, hlength, List.length_singleton, List.length_singleton]
  · intro i data cells hdata hcells
    by_cases hi : i < table.pages.length
    · rw [List.getElem?_append_left (by omega)] at hdata
      rw [List.getElem?_append_left hi] at hcells
      exact hpictures i data cells hdata hcells
    · obtain ⟨hlast, -⟩ := List.getElem?_eq_some_iff.1 hcells
      rw [List.length_append, List.length_singleton] at hlast
      obtain rfl : i = table.pages.length := by omega
      rw [List.getElem?_concat_length] at hcells
      rw [← hlength, List.getElem?_concat_length] at hdata
      obtain rfl := Option.some.inj hcells
      obtain rfl := Option.some.inj hdata
      obtain ⟨laid, free, hholds, hlaid⟩ := hpage.holds
      rw [hpageId]
      refine ⟨rfl, laid, free, ⟨?_⟩, hlaid⟩
      rw [hpage.saved]
      exact hholds.bytes
  · rw [List.length_append, List.length_singleton]
    exact hroom

theorem run_isPreferred (hlimit : limit + 1 < 2 ^ 32) (freeSpace preferPageId : UInt32)
    (h : Backs limit schema strings stream table) :
    ∃ stream', isPreferred freeSpace preferPageId (.ofNat table.totalPages) stream =
        .ok (0 < preferPageId.toNat && preferPageId.toNat < table.pages.length + 1 &&
          TablePage.isRecordFit freeSpace.toNat (table.pages.getD (preferPageId.toNat - 1) [])) stream' ∧
      Backs limit schema strings stream' table := by
  have hle := h.length_le
  have htotal : (UInt32.ofNat table.totalPages).toNat = table.pages.length + 1 := by
    rw [UInt32.toNat_ofNat', Table.totalPages, Nat.mod_eq_of_lt (by omega)]
  have hzero : (0 : UInt32).toNat = 0 := rfl
  rw [isPreferred]
  by_cases hpos : 0 < preferPageId.toNat
  · by_cases hlt : preferPageId.toNat < table.pages.length + 1
    · have hne : preferPageId ≠ 0 := by
        rintro rfl
        exact absurd hpos (Nat.lt_irrefl 0)
      have hin : preferPageId.toNat - 1 < table.pages.length := by omega
      have hcells := List.getElem?_eq_getElem hin
      obtain ⟨page, stream', hopen, hback, hpictures⟩ := run_openPage_of_cells h hne hcells
      refine ⟨stream', ?_, hback⟩
      rw [if_pos (by simp only [UInt32.lt_iff_toNat_lt, htotal, hzero, hpos, hlt, decide_true,
        Bool.and_self]), bind_ok hopen, hpictures.isRecordFit, List.getD_eq_getElem?_getD, hcells,
        decide_eq_true hpos, decide_eq_true hlt]
      rfl
    · refine ⟨stream, ?_, h⟩
      rw [if_neg (by simp only [UInt32.lt_iff_toNat_lt, htotal, hlt, decide_false, Bool.and_false,
        Bool.false_eq_true, not_false_eq_true]), decide_eq_false hlt, Bool.and_false, Bool.false_and]
      rfl
  · refine ⟨stream, ?_, h⟩
    rw [if_neg (by simp only [UInt32.lt_iff_toNat_lt, hzero, hpos, decide_false, Bool.false_and,
      Bool.false_eq_true, not_false_eq_true]), decide_eq_false hpos, Bool.false_and, Bool.false_and]
    rfl

/-- The same page is found, or a new one is made. -/
theorem agree_findEnoughFreePage (hlimit : limit + 1 < 2 ^ 32) (memory : Memory TablePage.pageSize)
    (freeSpace preferPageId : UInt32) (h : Backs limit schema strings stream table)
    (hroom : table.pages.length < limit) :
    Agree (Backs limit schema strings) SameFailure
      (fun pageId n => pageId.toNat = n ∧ freeSpace.toNat ≤ TablePage.maxRecordSize)
      (findEnoughFreePage memory freeSpace preferPageId stream)
      (Table.findEnoughFreePage freeSpace.toNat preferPageId.toNat table) := by
  by_cases hsize : TablePage.maxRecordSize < freeSpace.toNat
  · rw [findEnoughFreePage, Table.findEnoughFreePage, decide_eq_true hsize]
    exact Agree.error rfl rfl h (.inl rfl)
  · obtain ⟨stream₁, htotal, hback₁, hcount⟩ := totalPages_toNat hlimit h
    obtain ⟨stream₂, hpreferred, hback₂⟩ := run_isPreferred hlimit freeSpace preferPageId
      hback₁
    have hone : (1 : UInt32).toNat = 1 := rfl
    have hcover : (1 : UInt32).toNat + ((UInt32.ofNat table.totalPages).toNat - 1) =
        table.pages.length + 1 := by
      rw [UInt32.toNat_ofNat', Nat.mod_eq_of_lt hcount, hone, Table.totalPages]
      omega
    obtain ⟨found, stream₃, hfind, hback₃, hfound⟩ :=
      run_findFreePage hlimit freeSpace hback₂ (by decide) hcover
    have hle : freeSpace.toNat ≤ TablePage.maxRecordSize := Nat.le_of_not_lt hsize
    rw [findEnoughFreePage, Table.findEnoughFreePage, decide_eq_false hsize, throwIf_false, throwIf_false,
      run_pure_bind, run_pure_bind, bind_ok htotal, bind_ok hpreferred, run_get_bind]
    refine Agree.ite Iff.rfl (fun _ _ => Agree.pure hback₂ ⟨rfl, hle⟩) fun _ _ => ?_
    rw [bind_ok hfind]
    rw [hone, Nat.sub_self, List.drop_zero] at hfound
    rw [← hfound]
    cases found with
    | some pageId => exact Agree.pure hback₃ ⟨rfl, hle⟩
    | none =>
        obtain ⟨pageId, stream₄, hcreate, hid, hback₄⟩ := run_createPage hlimit memory hback₃ hroom
        exact Agree.ok hcreate rfl hback₄ ⟨hid, hle⟩

theorem serialize_eq_ok {σ : Type} {record : Record} {data : List UInt8} {s s' : σ}
    (h : record.serialize s = .ok data s') : s' = s := by
  rw [Record.serialize] at h
  obtain ⟨_, s₁, hassert, h⟩ := bind_eq_ok.1 h
  rw [(pure_eq_ok.1 h).2, (assert_eq_ok.1 hassert).2]

theorem cells_of_none {recordId : UInt32} {data : List UInt8} {cells' : List Cell}
    (h : TablePage.insertRecord recordId data cells = (none, cells')) : cells' = cells := by
  unfold TablePage.insertRecord at h
  by_cases hfull : TablePage.pageSize - TablePage.nextFreeOffset cells < TablePage.cellSize + data.length
  · rw [if_pos hfull] at h
    exact (congrArg Prod.snd h).symm
  · rw [if_neg hfull] at h
    cases h

/-- A record is written to the same address on both levels. -/
theorem agree_writeRecordToDisk (hlimit : limit + 1 < 2 ^ 32) (memory : Memory TablePage.pageSize)
    (record : Record) (preferPageId : UInt32) (h : Backs limit schema strings stream table)
    (hroom : table.pages.length < limit) :
    Agree (Backs limit schema strings) SameFailure Eq (writeRecordToDisk memory record preferPageId stream)
      (Table.writeRecordToDisk record preferPageId.toNat table) := by
  refine (agree_serialize h record).bind fun data data' stream₁ table₁ _ hrun hback₁ hdata => ?_
  obtain rfl := serialize_eq_ok hrun
  obtain ⟨rfl, hword⟩ := hdata
  have hlength : (Payload.ofBytes data).size.toNat = data.length := by
    rw [Payload.size_toNat, ofBytes_bytes hword]
  have hfind := agree_findEnoughFreePage hlimit memory (Payload.ofBytes data).size preferPageId hback₁ hroom
  rw [hlength] at hfind
  refine hfind.bind fun pageId n stream₂ table₂ _ _ hback₂ hpage => ?_
  obtain ⟨rfl, hsize⟩ := hpage
  refine (agree_openPage hback₂ pageId).bind fun page cells stream₃ table₃ _ hread hback₃ hpage => ?_
  obtain rfl := readPage_eq_ok hread
  obtain ⟨hpos, hcells, hpictures⟩ := hpage
  have hfits : (Payload.ofBytes data).bytes.length ≤ TablePage.maxRecordSize := by
    rw [ofBytes_bytes hword]
    exact hsize
  obtain ⟨slot, page', hinsert, hslot, hpictures'⟩ := hpictures.run_insertRecord record.id hfits
  obtain ⟨stream₄, hwrite, hback₄⟩ := hback₃.run_writePage hpos hcells hpictures'
  rw [bind_ok (run_onPage_ok hinsert hwrite), hslot]
  rw [ofBytes_bytes hword] at hback₄ ⊢
  cases hresult : TablePage.insertRecord record.id data cells with
  | mk slotIdx cells' =>
      rw [hresult] at hback₄
      cases slotIdx with
      | some slotIdx => exact Agree.ok rfl rfl hback₄ rfl
      | none =>
          obtain rfl := cells_of_none hresult
          rw [set_same _ hcells] at hback₄
          exact Agree.ok rfl rfl hback₄ rfl

/-! ## Opening -/

theorem takeWhile_metadata (memory : Memory TablePage.pageSize) :
    (metadataPage memory).bytes.takeWhile (· != 0) = header := by
  have hheader : header.all (· != 0) = true := by decide
  rw [metadataPage, List.takeWhile_append_of_pos (List.all_eq_true.1 hheader),
    List.takeWhile_cons_of_neg (by simp), List.append_nil]

/-- The file is opened again with what it has. -/
theorem run_reopen (h : Backs limit schema strings stream table) :
    ∃ stream', reopen stream = .ok () stream' ∧ Backs limit schema strings stream' table := by
  obtain ⟨memory, images, hshows⟩ := h.shows
  have hopened : Pager.Consists (FileStream.openOn stream.bytes) (metadataPage memory :: images) :=
    ⟨rfl, hshows.consists.bytes⟩
  have hfirst : (metadataPage memory :: images)[(0 : UInt32).toNat]? = some (metadataPage memory) := rfl
  obtain ⟨stream', hread, hconsists⟩ := hopened.run_readPage hfirst
  refine ⟨stream', ?_, hshows.other hconsists, h.length_le, h.schema_eq, h.strings_eq⟩
  have hreopen : FileStream.reopen stream = .ok () (FileStream.openOn stream.bytes) := rfl
  rw [reopen, bind_ok hreopen, bind_ok hread, takeWhile_metadata]
  rfl

/-- The file of a new table shows no pages. -/
theorem run_create (memory : Memory TablePage.pageSize) (name : String) :
    ∃ stream, create memory name (FileStream.openOn []) = .ok () stream ∧ Shows stream [] := by
  have hempty : Pager.Consists (FileStream.openOn []) [] := ⟨rfl, rfl⟩
  obtain ⟨stream₁, happend, hconsists₁⟩ := hempty.run_appendNewPage
  have hin : (0 : UInt32).toNat < ([] ++ [Pager.whitePage]).length := Nat.zero_lt_one
  obtain ⟨stream₂, hwrite, hconsists₂⟩ := hconsists₁.run_writePage hin (metadataPage memory)
  refine ⟨stream₂, ?_, memory, [], hconsists₂, rfl, ?_⟩
  · have hnew : ((FileStream.openOn []).bytes != []) = false := rfl
    rw [create, run_get_bind, hnew, throwIf_false, run_pure_bind, bind_ok happend]
    exact hwrite
  · intro i data cells hdata
    cases hdata

end DataFile

/-! ## Runs -/

namespace PageCall

open DataFile

/-- The file shows the pages of the table, and knows the rest of it that it needs. -/
structure Pairs (limit : Nat) (file : DataFile) (table : Table) : Prop where
  shows : Shows file.stream table.pages
  length_le : table.pages.length ≤ limit
  schema_eq : file.schema = table.schema
  interner_eq : file.interner = table.strings.toInterner

variable {limit : Nat} {file : DataFile} {table : Table}

theorem Pairs.backs (h : Pairs limit file table) :
    Backs limit table.schema table.strings file.stream table :=
  ⟨h.shows, h.length_le, rfl, rfl⟩

/-- A call that leaves the rest of the table alone, and agrees with the table. -/
theorem Pairs.of_agree {call : PageCall} (h : Pairs limit file table)
    (hrest : call.rest file = (file.schema, file.interner))
    (hagree : Agree (Backs limit table.schema table.strings) SameFailure Eq
      (call.onFile file file.stream) (call.onTable table)) :
    ∃ answer file' answer' table', serveFile call file = some (answer, file') ∧
      serveTable call table = some (answer', table') ∧ Alike SameFailure Eq answer answer' ∧
      Pairs limit file' table' := by
  obtain ⟨hshows, hlength, hschema, hstrings⟩ := hagree.after
  refine ⟨_, _, _, _, rfl, rfl, hagree.outcome, hshows, hlength, ?_, ?_⟩
  · rw [hrest, hschema, h.schema_eq]
  · rw [hrest, hstrings, h.interner_eq]

/-- One call. -/
theorem serve_agrees (hlimit : limit + 1 < 2 ^ 32) (call : PageCall) (h : Pairs limit file table)
    (hroom : table.pages.length < limit) :
    ∃ answer file' answer' table', serveFile call file = some (answer, file') ∧
      serveTable call table = some (answer', table') ∧ Alike SameFailure Eq answer answer' ∧
      Pairs limit file' table' := by
  cases call with
  | write memory record preferPageId =>
      refine h.of_agree rfl ?_
      exact (agree_writeRecordToDisk hlimit memory record preferPageId h.backs hroom).map
        fun _ _ heq => congrArg some heq
  | read pageIndex slotIdx =>
      refine h.of_agree rfl ?_
      rw [onFile, h.schema_eq, h.interner_eq]
      exact agree_readRecord hlimit h.backs pageIndex slotIdx
  | delete pageIndex slotIdx =>
      exact h.of_agree rfl ((agree_deleteRecord h.backs pageIndex slotIdx).map fun _ _ _ => rfl)
  | reopen =>
      obtain ⟨stream', hrun, hback⟩ := run_reopen h.backs
      refine h.of_agree rfl (Agree.ok (a := none) ?_ rfl hback rfl)
      rw [onFile, run_map, hrun]
  | change schema strings =>
      exact ⟨_, _, _, _, rfl, rfl, (rfl : (none : Option Record) = none), h.shows, h.length_le, rfl, rfl⟩

/-- The calls go on as long as there is a number for the page that each of them may add. -/
theorem refines_table : Service.Refines serveFile (serveTable.upTo (Alike SameFailure Eq))
    (fun file table => ∃ limit, Pairs limit file table)
    (fun calls _ table => table.pages.length + calls.length + 1 < 2 ^ 32) := by
  constructor
  rintro call calls file table ⟨limit, hpairs⟩ hcount
  rw [List.length_cons] at hcount
  have hlimit : Pairs (table.pages.length + 1) file table :=
    ⟨hpairs.shows, Nat.le_succ _, hpairs.schema_eq, hpairs.interner_eq⟩
  obtain ⟨answer, file', answer', table', hfile, htable, halike, hpairs'⟩ :=
    serve_agrees (by omega) call hlimit (Nat.lt_succ_self _)
  have hgrown := hpairs'.length_le
  exact ⟨answer, file', table', hfile, ⟨answer', htable, halike⟩, ⟨_, hpairs'⟩, by omega⟩

/-- The data file that a table makes, whatever the memory of its first page held, answers every run of its
    calls as the lists of cells do, and shows the pages that these have then: records are written to the same
    addresses, and read, deleted or refused alike, with the same failures, also after the file is opened
    again. -/
theorem run_dataFile (memory : Memory TablePage.pageSize) (name : String) {calls : List PageCall}
    (hcount : calls.length + 1 < 2 ^ 32) {table : Table} (hpages : table.pages = []) :
    ∃ stream answers answers' file' table',
      DataFile.create memory name (FileStream.openOn []) = .ok () stream ∧
        serveFile.run calls ⟨stream, table.schema, table.strings.toInterner⟩ = some (answers, file') ∧
        serveTable.run calls table = some (answers', table') ∧
        List.Forall₂ (Alike SameFailure Eq) answers answers' ∧ Shows file'.stream table'.pages := by
  obtain ⟨stream, hcreate, hshows⟩ := run_create memory name
  have hpairs : Pairs 0 ⟨stream, table.schema, table.strings.toInterner⟩ table := by
    refine ⟨?_, ?_, rfl, rfl⟩
    · rw [hpages]
      exact hshows
    · rw [hpages]
      exact Nat.le_refl _
  have hcalls : table.pages.length + calls.length + 1 < 2 ^ 32 := by
    rw [hpages, List.length_nil]
    omega
  obtain ⟨answers, answers', file', table', hfile, htable, hall, limit, hpairs'⟩ :=
    Service.run_of_refines refines_table ⟨0, hpairs⟩ hcalls
  exact ⟨stream, answers, answers', file', table', hcreate, hfile, htable, hall, hpairs'.shows⟩

/-- A record is written, read, deleted, asked for again and deleted where there is none, and there is another
    opening in between. -/
def oneRecord : List PageCall :=
  [.write Pager.whitePage { id := 0, fields := [.int 7] } 0, .read 1 0, .reopen, .delete 1 0, .read 1 0,
    .delete 1 7]

theorem run_dataFile_oneRecord :
    ∃ stream answers answers' file' table',
      DataFile.create Pager.whitePage "users" (FileStream.openOn []) = .ok () stream ∧
        serveFile.run oneRecord ⟨stream, (Table.new ⟨[⟨"id", .int, 0, .none, 0, ""⟩], 1⟩).schema,
          (Table.new ⟨[⟨"id", .int, 0, .none, 0, ""⟩], 1⟩).strings.toInterner⟩ = some (answers, file') ∧
        serveTable.run oneRecord (Table.new ⟨[⟨"id", .int, 0, .none, 0, ""⟩], 1⟩) =
          some (answers', table') ∧
        List.Forall₂ (Alike SameFailure Eq) answers answers' ∧ Shows file'.stream table'.pages :=
  run_dataFile Pager.whitePage "users" (by decide) rfl

end PageCall

end QuasarDB.Storage
