import QuasarDB.Library.Runs
import QuasarDB.Server.Logger

set_option autoImplicit false

/-! # The access log loses nothing

Whatever the order of the steps, what got to the queue is written in this order, by one thread; `Flush` returns
and the destructor ends only when everything that was logged is in the files. A file is left for the next one
when it is full, and not before. -/

namespace QuasarDB.Server

namespace LogWriter

/-- The entry that the writer holds. -/
def held : LogWriter → List LogEntry
  | holding entry => [entry]
  | _ => []

/-- The entries that the writer has taken and not counted. -/
def uncounted : LogWriter → Nat
  | holding _ => 1
  | written => 1
  | _ => 0

end LogWriter

namespace Logger

variable {text : LogText} {logger logger' : Logger} {good : Prop}

/-! ## The files -/

/-- What a file is when it is added to or closed: all of its lines but the last one fit. -/
def Fits (maxFileSize : Nat) (lines : List String) : Prop :=
  LogFile.bytes lines.dropLast < maxFileSize ∨ lines.length ≤ 1

/-- The `i`-th file has a path of its own, with its number. -/
def Numbered (text : LogText) (logDir : String) (files : List LogFile) : Prop :=
  ∀ (i : Nat) (file : LogFile), files[i]? = some file →
    ∃ now, file.path = logDir ++ "/access_" ++ text.date now ++ "_" ++ toString i ++ ".log"

theorem takeWhile_underscore {digits : List Char} (h : '_' ∉ digits) (rest : List Char) :
    (digits ++ '_' :: rest).takeWhile (· != '_') = digits := by
  have hall : ∀ c ∈ digits, (c != '_') = true := by
    intro c hc
    rw [bne_iff_ne]
    rintro rfl
    exact h hc
  rw [List.takeWhile_append_of_pos hall, List.takeWhile_cons_of_neg (by simp), List.append_nil]

/-- A path ends with the number of its file. -/
theorem eq_of_path_eq {first second : String} {i j : Nat}
    (h : first ++ "_" ++ toString i ++ ".log" = second ++ "_" ++ toString j ++ ".log") : i = j := by
  have hdigits : ∀ n : Nat, '_' ∉ (Nat.toDigits 10 n).reverse := fun n hmem =>
    absurd (Nat.isDigit_of_mem_toDigits (by decide) (by decide) (List.mem_reverse.1 hmem)) (by decide)
  -- read from its end, a path has the digits of the number before the first underscore
  have hchars := congrArg (fun path => path.toList.reverse) h
  simp only [String.toList_append, List.reverse_append, List.append_cancel_left_eq, Nat.toString_eq_repr,
    Nat.toList_repr] at hchars
  have hnumber := congrArg (List.takeWhile (· != '_')) hchars
  rw [show "_".toList.reverse = ['_'] from rfl, List.singleton_append, List.singleton_append,
    takeWhile_underscore (hdigits i), takeWhile_underscore (hdigits j)] at hnumber
  rw [← Nat.ofDigitChars_ten_toDigits (n := i), List.reverse_injective hnumber, Nat.ofDigitChars_ten_toDigits]

/-- No two files have one path. -/
theorem Numbered.nodup {text : LogText} {logDir : String} {files : List LogFile}
    (h : Numbered text logDir files) : (files.map LogFile.path).Nodup := by
  rw [List.Nodup, List.pairwise_iff_getElem]
  intro i j hi hj hlt hpaths
  rw [List.getElem_map, List.getElem_map] at hpaths
  obtain ⟨first, hfirst⟩ := h i _ (List.getElem?_eq_getElem (by simpa using hi))
  obtain ⟨second, hsecond⟩ := h j _ (List.getElem?_eq_getElem (by simpa using hj))
  rw [hfirst, hsecond] at hpaths
  exact hlt.ne (eq_of_path_eq hpaths)

/-- The files, of which the last may be open. -/
inductive Rotated (text : LogText) : Logger → Prop
  | closed {logger : Logger} (hopen : logger.isOpen = false) (hsize : logger.currentFileSize = 0)
      (hindex : logger.fileIndex = logger.files.length)
      (hfull : ∀ file ∈ logger.files, logger.maxFileSize ≤ LogFile.bytes file.lines)
      (hfits : ∀ file ∈ logger.files, Fits logger.maxFileSize file.lines)
      (hnumbered : Numbered text logger.logDir logger.files) : Rotated text logger
  | opened {logger : Logger} {full : List LogFile} {last : LogFile} (hopen : logger.isOpen = true)
      (hfiles : logger.files = full ++ [last]) (hsize : logger.currentFileSize = LogFile.bytes last.lines)
      (hindex : logger.fileIndex = full.length)
      (hfull : ∀ file ∈ full, logger.maxFileSize ≤ LogFile.bytes file.lines)
      (hfits : ∀ file ∈ logger.files, Fits logger.maxFileSize file.lines)
      (hnumbered : Numbered text logger.logDir logger.files) : Rotated text logger

theorem bytes_append (lines : List String) (line : String) :
    LogFile.bytes (lines ++ [line]) = LogFile.bytes lines + (line.utf8ByteSize + 1) := by
  simp [LogFile.bytes]

theorem addLine_append (line : String) (files : List LogFile) (last : LogFile) :
    addLine line (files ++ [last]) = files ++ [{ last with lines := last.lines ++ [line] }] := by
  induction files with
  | nil => rfl
  | cons file files ih =>
      have hne : files ++ [last] ≠ [] := List.append_ne_nil_of_right_ne_nil _ (List.cons_ne_nil _ _)
      rw [List.cons_append, addLine, ih, List.cons_append]
      exact hne

/-- A file that is opened is a new one, and nothing is left of the size of the one before. -/
theorem Rotated.openFile {now : Nat} {opens : Bool} (h : logger.Rotated text)
    (hopen : logger.isOpen = false) : (logger.openFile text now opens).Rotated text := by
  cases h with
  | opened hopen' => exact absurd (hopen.symm.trans hopen') Bool.false_ne_true
  | closed _ hsize hindex hfull hfits hnumbered =>
      cases opens with
      | false => exact .closed rfl hsize hindex hfull hfits hnumbered
      | true =>
          refine @Rotated.opened text _ logger.files _ rfl rfl hsize hindex hfull ?_ ?_
          · intro file hfile
            rcases List.mem_append.1 hfile with hfile | hfile
            · exact hfits file hfile
            · obtain rfl := List.mem_singleton.1 hfile
              exact .inr (Nat.zero_le 1)
          · unfold Numbered
            intro i file hfile
            change (logger.files ++ [_])[i]? = some file at hfile
            rcases Nat.lt_or_ge i logger.files.length with hlt | hge
            · rw [List.getElem?_append_left hlt] at hfile
              exact hnumbered i file hfile
            · rw [List.getElem?_append_right hge] at hfile
              obtain ⟨hzero, rfl⟩ := List.getElem?_eq_some_iff.1 hfile
              have hi : i = logger.fileIndex := by
                rw [List.length_singleton] at hzero
                omega
              subst hi
              exact ⟨now, by simp [currentFilePath, Logger.openFile]⟩

theorem openFile_size {now : Nat} {opens : Bool} :
    (logger.openFile text now opens).currentFileSize = logger.currentFileSize := by
  unfold openFile
  split <;> rfl

/-- A full file is left for another one. -/
theorem Rotated.full (h : logger.Rotated text) (hopen : logger.isOpen = true)
    (hfull : logger.maxFileSize ≤ logger.currentFileSize) :
    Rotated text { logger with
      isOpen := false, currentFileSize := 0, fileIndex := logger.fileIndex + 1 } := by
  cases h with
  | closed hopen' => exact absurd (hopen'.symm.trans hopen) Bool.false_ne_true
  | @opened full last _ hfiles hsize hindex hothers hfits hnumbered =>
      refine .closed rfl rfl ?_ (fun file hfile => ?_) hfits hnumbered
      · rw [hfiles, List.length_append, List.length_singleton, hindex]
      · change file ∈ logger.files at hfile
        rw [hfiles] at hfile
        rcases List.mem_append.1 hfile with hfile | hfile
        · exact hothers file hfile
        · obtain rfl := List.mem_singleton.1 hfile
          rw [← hsize]
          exact hfull

/-- The next line comes to a file that is not full. -/
theorem Rotated.rotateIfNeeded {now : Nat} {opens : Bool} (h : logger.Rotated text) :
    (logger.rotateIfNeeded text now opens).Rotated text ∧
      ((logger.rotateIfNeeded text now opens).currentFileSize < logger.maxFileSize ∨
        (logger.rotateIfNeeded text now opens).currentFileSize = 0) := by
  unfold Logger.rotateIfNeeded
  cases hopen : logger.isOpen with
  | false =>
      refine ⟨h.openFile hopen, .inr ?_⟩
      cases h with
      | closed _ hsize => exact openFile_size.trans hsize
      | opened hopen' => exact absurd (hopen.symm.trans hopen') Bool.false_ne_true
  | true =>
      rw [if_neg (by decide)]
      by_cases hfull : logger.maxFileSize ≤ logger.currentFileSize
      · rw [if_pos hfull]
        exact ⟨(h.full hopen hfull).openFile rfl, .inr openFile_size⟩
      · rw [if_neg hfull]
        exact ⟨h, .inl (Nat.lt_of_not_le hfull)⟩

/-- What the constructor was given stays. -/
structure SameConfig (logger logger' : Logger) : Prop where
  logDir : logger'.logDir = logger.logDir
  maxFileSize : logger'.maxFileSize = logger.maxFileSize

theorem openFile_sameConfig {now : Nat} {opens : Bool} :
    SameConfig logger (logger.openFile text now opens) := by
  unfold openFile
  split <;> exact ⟨rfl, rfl⟩

theorem rotateIfNeeded_sameConfig {now : Nat} {opens : Bool} :
    SameConfig logger (logger.rotateIfNeeded text now opens) := by
  unfold rotateIfNeeded
  split
  · exact openFile_sameConfig
  · split
    · have hsame := @openFile_sameConfig text
        { logger with isOpen := false, currentFileSize := 0, fileIndex := logger.fileIndex + 1 } now opens
      exact ⟨hsame.logDir, hsame.maxFileSize⟩
    · exact ⟨rfl, rfl⟩

theorem bytes_eq_zero {lines : List String} (h : LogFile.bytes lines = 0) : lines = [] := by
  cases lines with
  | nil => rfl
  | cons line lines =>
      rw [LogFile.bytes, List.map_cons, List.sum_cons] at h
      omega

/-- A line is added to a file that is not full. -/
theorem Rotated.addLine (h : logger.Rotated text) (hopen : logger.isOpen = true)
    (hroom : logger.currentFileSize < logger.maxFileSize ∨ logger.currentFileSize = 0) (line : String)
    (writer : LogWriter) :
    Rotated text { logger with
      files := addLine line logger.files
      currentFileSize := logger.currentFileSize + (line.utf8ByteSize + 1)
      writer } := by
  cases h with
  | closed hopen' => exact absurd (hopen'.symm.trans hopen) Bool.false_ne_true
  | @opened full last _ hfiles hsize hindex hfull hfits hnumbered =>
      have hadded : Logger.addLine line logger.files =
          full ++ [{ last with lines := last.lines ++ [line] }] := by
        rw [hfiles, addLine_append]
      refine .opened hopen hadded ?_ hindex hfull (fun file hfile => ?_) ?_
      · rw [hsize]
        exact (bytes_append _ _).symm
      · change file ∈ Logger.addLine line logger.files at hfile
        rw [hadded] at hfile
        rcases List.mem_append.1 hfile with hfile | hfile
        · exact hfits file (hfiles ▸ List.mem_append_left _ hfile)
        · obtain rfl := List.mem_singleton.1 hfile
          unfold Fits
          rw [List.dropLast_concat]
          rcases hroom with hroom | hzero
          · rw [hsize] at hroom
            exact .inl hroom
          · rw [hsize] at hzero
            rw [bytes_eq_zero hzero]
            exact .inr (Nat.le_refl 1)
      · unfold Numbered
        intro i file hfile
        change (Logger.addLine line logger.files)[i]? = some file at hfile
        rw [hadded] at hfile
        rw [hfiles] at hnumbered
        rcases Nat.lt_or_ge i full.length with hlt | hge
        · rw [List.getElem?_append_left hlt] at hfile
          refine hnumbered i file ?_
          rw [List.getElem?_append_left hlt]
          exact hfile
        · rw [List.getElem?_append_right hge] at hfile
          obtain ⟨hzero, rfl⟩ := List.getElem?_eq_some_iff.1 hfile
          rw [List.length_singleton] at hzero
          have hi : i = full.length := by omega
          subst hi
          obtain ⟨now, hpath⟩ := hnumbered full.length last (by simp)
          exact ⟨now, by simpa using hpath⟩

/-- What does not touch the files. -/
theorem Rotated.congr (h : logger.Rotated text) (hdir : logger'.logDir = logger.logDir)
    (hmax : logger'.maxFileSize = logger.maxFileSize)
    (hsize : logger'.currentFileSize = logger.currentFileSize) (hindex : logger'.fileIndex = logger.fileIndex)
    (hopen : logger'.isOpen = logger.isOpen) (hfiles : logger'.files = logger.files) :
    logger'.Rotated text := by
  cases h with
  | closed hopen' hsize' hindex' hfull hfits hnumbered =>
      refine .closed (hopen.trans hopen') (hsize.trans hsize') ?_ ?_ ?_ ?_
      · rw [hindex, hindex', hfiles]
      · rwa [hfiles, hmax]
      · rwa [hfiles, hmax]
      · rwa [hfiles, hdir]
  | @opened full last hopen' hfiles' hsize' hindex' hfull hfits hnumbered =>
      refine .opened (hopen.trans hopen') (hfiles.trans hfiles') (hsize.trans hsize')
        (hindex.trans hindex') ?_ ?_ ?_
      · rwa [hmax]
      · rwa [hfiles, hmax]
      · rwa [hfiles, hdir]

/-! ## What the writer does -/

theorem write_holding {now : Nat} {opens : Bool} (h : logger.write text now opens = some logger') :
    ∃ entry, logger.writer = .holding entry ∧
      logger' =
        if (logger.rotateIfNeeded text now opens).isOpen then
          { logger.rotateIfNeeded text now opens with
            files := addLine (text.formatEntry entry) (logger.rotateIfNeeded text now opens).files
            currentFileSize := (logger.rotateIfNeeded text now opens).currentFileSize +
              ((text.formatEntry entry).utf8ByteSize + 1)
            writer := .written }
        else { logger.rotateIfNeeded text now opens with writer := .written } := by
  unfold write at h
  cases hwriter : logger.writer with
  | holding entry =>
      rw [hwriter] at h
      refine ⟨entry, rfl, ?_⟩
      dsimp only at h
      split at h
      · rename_i hopen
        rw [if_pos hopen]
        exact (Option.some.inj h).symm
      · rename_i hopen
        rw [if_neg hopen]
        exact (Option.some.inj h).symm
  | _ =>
      rw [hwriter] at h
      cases h

/-- What is not about files stays, whichever file is written. -/
structure SameLog (logger logger' : Logger) : Prop where
  queue : logger'.queue = logger.queue
  running : logger'.running = logger.running
  pendingWrites : logger'.pendingWrites = logger.pendingWrites
  calls : logger'.calls = logger.calls
  announced : logger'.announced = logger.announced
  pushed : logger'.pushed = logger.pushed

theorem openFile_sameLog {now : Nat} {opens : Bool} : SameLog logger (logger.openFile text now opens) := by
  unfold openFile
  split <;> exact ⟨rfl, rfl, rfl, rfl, rfl, rfl⟩

theorem rotateIfNeeded_sameLog {now : Nat} {opens : Bool} :
    SameLog logger (logger.rotateIfNeeded text now opens) := by
  unfold rotateIfNeeded
  split
  · exact openFile_sameLog
  · split
    · obtain ⟨hqueue, hrunning, hpending, hcalls, hannounced, hpushed⟩ := @openFile_sameLog text
        { logger with isOpen := false, currentFileSize := 0, fileIndex := logger.fileIndex + 1 } now opens
      exact ⟨hqueue, hrunning, hpending, hcalls, hannounced, hpushed⟩
    · exact ⟨rfl, rfl, rfl, rfl, rfl, rfl⟩

theorem write_sameLog {now : Nat} {opens : Bool} (h : logger.write text now opens = some logger') :
    SameLog logger logger' := by
  obtain ⟨entry, -, rfl⟩ := write_holding h
  obtain ⟨hqueue, hrunning, hpending, hcalls, hannounced, hpushed⟩ :=
    @rotateIfNeeded_sameLog text logger now opens
  split <;> exact ⟨hqueue, hrunning, hpending, hcalls, hannounced, hpushed⟩

/-! ## Rotation in every run -/

theorem Rotated.step {event : Event} (h : logger.Rotated text) (hstep : logger.step text event = some logger') :
    logger'.Rotated text := by
  cases event with
  | announce entry =>
      change logger.announce entry = some logger' at hstep
      unfold announce at hstep
      split at hstep <;> cases hstep
      exact h.congr rfl rfl rfl rfl rfl rfl
  | push entry =>
      change logger.push entry = some logger' at hstep
      unfold push at hstep
      split at hstep <;> cases hstep
      exact h.congr rfl rfl rfl rfl rfl rfl
  | close =>
      cases hstep
      exact h.congr rfl rfl rfl rfl rfl rfl
  | write now opens =>
      obtain ⟨entry, -, rfl⟩ := write_holding hstep
      obtain ⟨hrotated, hroom⟩ := @Rotated.rotateIfNeeded text logger now opens h
      split
      · rename_i hopen
        refine hrotated.addLine hopen ?_ _ _
        rwa [rotateIfNeeded_sameConfig.maxFileSize]
      · exact hrotated.congr rfl rfl rfl rfl rfl rfl
  | writeLoop =>
      have htake : ∀ elsewhere, (logger.takeOr elsewhere).Rotated text := by
        intro elsewhere
        unfold takeOr
        split <;> exact h.congr rfl rfl rfl rfl rfl rfl
      change logger.writeLoop = some logger' at hstep
      unfold writeLoop at hstep
      split at hstep <;> cases hstep
      · exact h.congr rfl rfl rfl rfl rfl rfl
      · exact h.congr rfl rfl rfl rfl rfl rfl
      · exact htake _
      · exact h.congr rfl rfl rfl rfl rfl rfl
      · exact htake _

theorem step_sameConfig {event : Event} (hstep : logger.step text event = some logger') :
    SameConfig logger logger' := by
  cases event with
  | announce entry =>
      change logger.announce entry = some logger' at hstep
      unfold announce at hstep
      split at hstep <;> cases hstep
      exact ⟨rfl, rfl⟩
  | push entry =>
      change logger.push entry = some logger' at hstep
      unfold push at hstep
      split at hstep <;> cases hstep
      exact ⟨rfl, rfl⟩
  | close =>
      cases hstep
      exact ⟨rfl, rfl⟩
  | write now opens =>
      obtain ⟨entry, -, rfl⟩ := write_holding hstep
      have hsame := @rotateIfNeeded_sameConfig text logger now opens
      split <;> exact ⟨hsame.logDir, hsame.maxFileSize⟩
  | writeLoop =>
      have htake : ∀ elsewhere, SameConfig logger (logger.takeOr elsewhere) := by
        intro elsewhere
        unfold takeOr
        split <;> exact ⟨rfl, rfl⟩
      change logger.writeLoop = some logger' at hstep
      unfold writeLoop at hstep
      split at hstep <;> cases hstep <;> first | exact ⟨rfl, rfl⟩ | exact htake _

theorem rotated_new (logDir : String) (maxFileSize : Nat) : (new logDir maxFileSize).Rotated text := by
  refine .closed rfl rfl rfl (fun file hfile => ?_) (fun file hfile => ?_) ?_
  · cases hfile
  · cases hfile
  · intro i file hfile
    cases hfile

/-- Every file but the last one is full, a file is full by its last line at the earliest, and none is opened
    twice. -/
theorem run_rotatesFull {logDir : String} {maxFileSize : Nat} {events : List Event}
    (hrun : (new logDir maxFileSize).run text events = some logger) :
    (∀ file ∈ logger.files.dropLast, maxFileSize ≤ LogFile.bytes file.lines) ∧
      (∀ file ∈ logger.files, Fits maxFileSize file.lines) ∧ Numbered text logDir logger.files ∧
      (logger.files.map LogFile.path).Nodup := by
  have hkept := List.foldlM_preserves
    (P := fun _ logger => logger.Rotated text ∧ SameConfig (new logDir maxFileSize) logger) ?_
    ⟨rotated_new logDir maxFileSize, rfl, rfl⟩ hrun
  · obtain ⟨h, hdir, hmax⟩ := hkept
    change logger.logDir = logDir at hdir
    change logger.maxFileSize = maxFileSize at hmax
    subst hdir hmax
    cases h with
    | closed _ _ _ hfull hfits hnumbered =>
        exact ⟨fun file hfile => hfull file (List.dropLast_subset _ hfile), hfits, hnumbered, hnumbered.nodup⟩
    | opened _ hfiles _ _ hfull hfits hnumbered =>
        refine ⟨fun file hfile => hfull file ?_, hfits, hnumbered, hnumbered.nodup⟩
        rwa [hfiles, List.dropLast_concat] at hfile
  · rintro event _ logger logger' ⟨hrotated, hdir, hmax⟩ hstep
    have hsame := step_sameConfig hstep
    exact ⟨hrotated.step hstep, hsame.logDir.trans hdir, hsame.maxFileSize.trans hmax⟩

/-! ## Nothing is lost -/

/-- The entries of a thread. -/
def ofThread (id : String) (entries : List LogEntry) : List LogEntry :=
  entries.filter fun entry => entry.handlerId == id

/-- What was logged is on its way to the files, in order. The files have all the lines if they open. -/
structure Intact (text : LogText) (good : Prop) (logger : Logger) : Prop where
  counted : logger.pendingWrites = logger.calls.length + logger.queue.length + logger.writer.uncounted
  order : ∃ done, logger.pushed = done ++ logger.writer.held ++ logger.queue ∧
    logger.lines.Sublist (done.map text.formatEntry) ∧ (good → logger.lines = done.map text.formatEntry)
  threads : ∀ id, ofThread id logger.announced = ofThread id logger.pushed ++ ofThread id logger.calls
  distinct : (logger.calls.map LogEntry.handlerId).Nodup
  stopped : logger.writer = .stopping ∨ logger.writer = .exited → logger.running = false
  exited : logger.writer = .exited → logger.pendingWrites = 0

theorem intact_new (logDir : String) (maxFileSize : Nat) : (new logDir maxFileSize).Intact text good where
  counted := rfl
  order := ⟨[], rfl, List.Sublist.slnil, fun _ => rfl⟩
  threads _ := rfl
  distinct := List.nodup_nil
  stopped h := by rcases h with h | h <;> cases h
  exited h := by cases h

theorem ofThread_cons (id : String) (entry : LogEntry) (entries : List LogEntry) :
    ofThread id (entry :: entries) =
      if entry.handlerId = id then entry :: ofThread id entries else ofThread id entries := by
  rw [ofThread, List.filter_cons]
  simp only [beq_iff_eq]
  rfl

theorem ofThread_append (id : String) (entries more : List LogEntry) :
    ofThread id (entries ++ more) = ofThread id entries ++ ofThread id more :=
  List.filter_append ..

theorem ofThread_eq_nil {id : String} {calls : List LogEntry} (h : ∀ call ∈ calls, call.handlerId ≠ id) :
    ofThread id calls = [] :=
  List.filter_eq_nil_iff.2 fun call hcall => by simpa using h call hcall

/-- A thread has one call at a time. -/
theorem ofThread_of_mem {entry : LogEntry} {calls : List LogEntry}
    (hdistinct : (calls.map LogEntry.handlerId).Nodup) (hmem : entry ∈ calls) :
    ofThread entry.handlerId calls = [entry] ∧ ofThread entry.handlerId (calls.erase entry) = [] := by
  induction calls with
  | nil => cases hmem
  | cons call calls ih =>
      obtain ⟨hfresh, hdistinct⟩ := List.nodup_cons.1 hdistinct
      by_cases heq : call = entry
      · subst heq
        have hnone : ofThread call.handlerId calls = [] :=
          ofThread_eq_nil fun other hother hid => hfresh (hid ▸ List.mem_map_of_mem hother)
        rw [List.erase_cons_head, ofThread_cons, if_pos rfl, hnone]
        exact ⟨rfl, rfl⟩
      · have hmem : entry ∈ calls := (List.mem_cons.1 hmem).resolve_left (Ne.symm heq)
        have hid : call.handlerId ≠ entry.handlerId :=
          fun hid => hfresh (hid ▸ List.mem_map_of_mem hmem)
        rw [List.erase_cons_tail (by simpa using heq), ofThread_cons, ofThread_cons, if_neg hid, if_neg hid]
        exact ih hdistinct hmem

theorem ofThread_erase_of_ne {id : String} {entry : LogEntry} (h : entry.handlerId ≠ id)
    (calls : List LogEntry) : ofThread id (calls.erase entry) = ofThread id calls := by
  induction calls with
  | nil => rfl
  | cons call calls ih =>
      by_cases heq : call = entry
      · subst heq
        rw [List.erase_cons_head, ofThread_cons, if_neg h]
      · rw [List.erase_cons_tail (by simpa using heq), ofThread_cons, ofThread_cons, ih]

theorem Intact.announce {entry : LogEntry} (h : logger.Intact text good)
    (hstep : logger.announce entry = some logger') : logger'.Intact text good := by
  unfold Logger.announce at hstep
  split at hstep
  · rename_i hfree
    obtain ⟨hrunning, hfree⟩ := Bool.and_eq_true_iff.1 hfree
    have hfree : ∀ call ∈ logger.calls, call.handlerId ≠ entry.handlerId := by simpa using hfree
    cases hstep
    refine ⟨?_, h.order, fun id => ?_, ?_, h.stopped, fun hexited => ?_⟩
    · have hcounted := h.counted
      simp only [List.length_cons]
      omega
    · show ofThread id (logger.announced ++ [entry]) = _ ++ ofThread id (entry :: logger.calls)
      rw [ofThread_append, h.threads, ofThread_cons, ofThread_cons, List.append_assoc]
      by_cases hid : entry.handlerId = id
      · subst hid
        rw [if_pos rfl, if_pos rfl, ofThread_eq_nil hfree]
        rfl
      · rw [if_neg hid, if_neg hid]
        exact congrArg _ (List.append_nil _)
    · refine List.nodup_cons.2 ⟨fun hmem => ?_, h.distinct⟩
      obtain ⟨call, hcall, hid⟩ := List.mem_map.1 hmem
      exact hfree call hcall hid
    · have hstopped := h.stopped (.inr hexited)
      rw [hstopped] at hrunning
      cases hrunning
  · cases hstep

theorem Intact.push {entry : LogEntry} (h : logger.Intact text good)
    (hstep : logger.push entry = some logger') : logger'.Intact text good := by
  unfold Logger.push at hstep
  split at hstep
  · rename_i hmem
    cases hstep
    obtain ⟨done, hpushed, hlines⟩ := h.order
    refine ⟨?_, ⟨done, ?_, hlines⟩, fun id => ?_, ?_, h.stopped, h.exited⟩
    · have hcounted := h.counted
      have hlength := List.length_erase_of_mem hmem
      have hpositive := List.length_pos_of_mem hmem
      simp only [List.length_append, List.length_singleton]
      omega
    · show logger.pushed ++ [entry] = _
      rw [hpushed]
      exact List.append_assoc ..
    · show ofThread id logger.announced =
        ofThread id (logger.pushed ++ [entry]) ++ ofThread id (logger.calls.erase entry)
      rw [h.threads, ofThread_append, ofThread_cons]
      by_cases hid : entry.handlerId = id
      · subst hid
        obtain ⟨hone, hnone⟩ := ofThread_of_mem h.distinct hmem
        rw [hone, hnone, if_pos rfl, List.append_nil]
        rfl
      · rw [ofThread_erase_of_ne hid, if_neg hid]
        exact congrArg (· ++ _) (List.append_nil _).symm
    · exact h.distinct.sublist ((List.erase_sublist ..).map _)
  · cases hstep

theorem Intact.close (h : logger.Intact text good) : logger.close.Intact text good where
  counted := h.counted
  order := h.order
  threads := h.threads
  distinct := h.distinct
  stopped _ := rfl
  exited := h.exited

theorem openFile_lines {now : Nat} {opens : Bool} : (logger.openFile text now opens).lines = logger.lines := by
  unfold openFile
  split
  · simp [lines]
  · rfl

theorem rotateIfNeeded_lines {now : Nat} {opens : Bool} :
    (logger.rotateIfNeeded text now opens).lines = logger.lines := by
  unfold rotateIfNeeded
  split
  · exact openFile_lines
  · split
    · exact openFile_lines
    · rfl

/-- There is a file to write to, unless one can not be opened. -/
theorem rotateIfNeeded_isOpen {now : Nat} : (logger.rotateIfNeeded text now true).isOpen = true := by
  unfold rotateIfNeeded
  split
  · rfl
  · split
    · rfl
    · rename_i hopen _
      simpa using hopen

theorem lines_addLine (line : String) {files : List LogFile} (h : files ≠ []) :
    (addLine line files).flatMap LogFile.lines = files.flatMap LogFile.lines ++ [line] := by
  obtain ⟨full, last, rfl⟩ := (List.eq_nil_or_concat' files).resolve_left h
  rw [addLine_append]
  simp

theorem Rotated.files_ne_nil (h : logger.Rotated text) (hopen : logger.isOpen = true) : logger.files ≠ [] := by
  cases h with
  | closed hopen' => exact absurd (hopen'.symm.trans hopen) Bool.false_ne_true
  | opened _ hfiles =>
      rw [hfiles]
      exact List.append_ne_nil_of_right_ne_nil _ (List.cons_ne_nil _ _)

theorem Intact.write {now : Nat} {opens : Bool} (h : logger.Intact text good) (hrotated : logger.Rotated text)
    (hopens : good → opens = true) (hstep : logger.write text now opens = some logger') :
    logger'.Intact text good := by
  obtain ⟨-, hrunning, hpending, hcalls, hannounced, hpushed⟩ := write_sameLog hstep
  have hqueue := (write_sameLog hstep).queue
  obtain ⟨entry, hwriter, hafter⟩ := write_holding hstep
  have hwritten : logger'.writer = .written := by
    rw [hafter]
    split <;> rfl
  obtain ⟨done, horder, hsublist, hall⟩ := h.order
  have hcounted := h.counted
  rw [hwriter] at hcounted horder
  have hlines : logger'.lines = logger.lines ++ [text.formatEntry entry] ∨
      (logger'.lines = logger.lines ∧ (logger.rotateIfNeeded text now opens).isOpen = false) := by
    rw [hafter]
    split
    · rename_i hopen
      left
      have hne := (@Rotated.rotateIfNeeded text logger now opens hrotated).1.files_ne_nil hopen
      exact (lines_addLine _ hne).trans (congrArg (· ++ _) rotateIfNeeded_lines)
    · rename_i hopen
      exact .inr ⟨rotateIfNeeded_lines, by simpa using hopen⟩
  refine ⟨?_, ⟨done ++ [entry], ?_, ?_, fun hgood => ?_⟩, fun id => ?_, ?_, fun hstopped => ?_,
    fun hexited => ?_⟩
  · rw [hpending, hcalls, hqueue, hwritten]
    exact hcounted
  · rw [hpushed, hqueue, hwritten, horder]
    simp [LogWriter.held]
  · rw [List.map_append]
    rcases hlines with hlines | ⟨hlines, -⟩
    · rw [hlines]
      exact hsublist.append (List.Sublist.refl _)
    · rw [hlines]
      exact hsublist.trans (List.sublist_append_left ..)
  · rcases hlines with hlines | ⟨-, hclosed⟩
    · rw [hlines, hall hgood, List.map_append]
      rfl
    · rw [hopens hgood, rotateIfNeeded_isOpen] at hclosed
      cases hclosed
  · rw [hannounced, hpushed, hcalls]
    exact h.threads id
  · rw [hcalls]
    exact h.distinct
  · rw [hwritten] at hstopped
    rcases hstopped with hstopped | hstopped <;> cases hstopped
  · rw [hwritten] at hexited
    cases hexited

/-- The writer goes from one place without an entry to another. -/
theorem Intact.goes {writer : LogWriter} (h : logger.Intact text good)
    (hfree : logger.writer.uncounted = writer.uncounted) (hheld : logger.writer.held = writer.held)
    (hstopped : writer = .stopping ∨ writer = .exited → logger.running = false)
    (hexited : writer = .exited → logger.pendingWrites = 0) :
    Intact text good { logger with writer } where
  counted := h.counted.trans (by rw [hfree])
  order := by
    obtain ⟨done, horder, hlines⟩ := h.order
    exact ⟨done, horder.trans (by rw [hheld]), hlines⟩
  threads := h.threads
  distinct := h.distinct
  stopped := hstopped
  exited := hexited

/-- The writer takes the first entry, or goes where it does not end. -/
theorem Intact.takeOr {elsewhere : LogWriter} (h : logger.Intact text good)
    (hfree : logger.writer.uncounted = 0) (hnone : logger.writer.held = [])
    (helsewhere : elsewhere = .waiting ∨ elsewhere = .checking) :
    (logger.takeOr elsewhere).Intact text good := by
  unfold Logger.takeOr
  split
  · rcases helsewhere with rfl | rfl <;>
    · refine h.goes hfree hnone (fun hstopped => ?_) (fun hexited => ?_)
      · rcases hstopped with hstopped | hstopped <;> cases hstopped
      · cases hexited
  · rename_i entry queue hqueue
    obtain ⟨done, horder, hlines⟩ := h.order
    have hcounted := h.counted
    rw [hfree, hqueue, List.length_cons] at hcounted
    rw [hnone, hqueue] at horder
    refine ⟨?_, ⟨done, ?_, hlines⟩, h.threads, h.distinct, fun hstopped => ?_, fun hexited => ?_⟩
    · simp only [LogWriter.uncounted]
      omega
    · rw [horder]
      simp [LogWriter.held]
    · rcases hstopped with hstopped | hstopped <;> cases hstopped
    · cases hexited

theorem Intact.writeLoop (h : logger.Intact text good) (hstep : logger.writeLoop = some logger') :
    logger'.Intact text good := by
  unfold Logger.writeLoop at hstep
  cases hwriter : logger.writer with
  | checking =>
      rw [hwriter] at hstep
      cases hstep
      by_cases hrunning : logger.running = true
      · rw [if_pos hrunning]
        refine h.goes (by rw [hwriter]; rfl) (by rw [hwriter]; rfl) (fun hstopped => ?_) (fun hexited => ?_)
        · rcases hstopped with hstopped | hstopped <;> cases hstopped
        · cases hexited
      · rw [if_neg hrunning]
        refine h.goes (by rw [hwriter]; rfl) (by rw [hwriter]; rfl) (fun _ => by simpa using hrunning)
          (fun hexited => ?_)
        cases hexited
  | stopping =>
      rw [hwriter] at hstep
      cases hstep
      by_cases hpending : logger.pendingWrites = 0
      · rw [if_pos hpending]
        exact h.goes (by rw [hwriter]; rfl) (by rw [hwriter]; rfl) (fun _ => h.stopped (.inl hwriter))
          fun _ => hpending
      · rw [if_neg hpending]
        refine h.goes (by rw [hwriter]; rfl) (by rw [hwriter]; rfl) (fun hstopped => ?_) (fun hexited => ?_)
        · rcases hstopped with hstopped | hstopped <;> cases hstopped
        · cases hexited
  | waiting =>
      rw [hwriter] at hstep
      cases hstep
      refine h.takeOr (by rw [hwriter]; rfl) (by rw [hwriter]; rfl) ?_
      split
      · exact .inl rfl
      · exact .inr rfl
  | holding entry =>
      rw [hwriter] at hstep
      cases hstep
  | written =>
      -- the entry that was written is counted off
      rw [hwriter] at hstep
      cases hstep
      obtain ⟨done, horder, hlines⟩ := h.order
      have hcounted := h.counted
      rw [hwriter] at hcounted horder
      refine ⟨?_, ⟨done, horder, hlines⟩, h.threads, h.distinct, fun hstopped => ?_, fun hexited => ?_⟩
      · simp only [LogWriter.uncounted] at hcounted ⊢
        omega
      · rcases hstopped with hstopped | hstopped <;> cases hstopped
      · cases hexited
  | locking =>
      rw [hwriter] at hstep
      cases hstep
      exact h.takeOr (by rw [hwriter]; rfl) (by rw [hwriter]; rfl) (.inr rfl)
  | exited =>
      rw [hwriter] at hstep
      cases hstep

/-- Every file that the writer opens can be opened. -/
def Event.Opens : Event → Prop
  | .write _ opens => opens = true
  | _ => True

theorem Intact.step {event : Event} (h : logger.Intact text good) (hrotated : logger.Rotated text)
    (hopens : good → event.Opens) (hstep : logger.step text event = some logger') :
    logger'.Intact text good := by
  cases event with
  | announce entry => exact h.announce hstep
  | push entry => exact h.push hstep
  | close =>
      cases hstep
      exact h.close
  | write now opens => exact h.write hrotated hopens hstep
  | writeLoop => exact h.writeLoop hstep

/-- What was logged is written in order, up to what is still on its way. Once `Flush` returns, or the writer has
    ended, everything is in the files, if they could be opened. -/
theorem run_keepsEntries {logDir : String} {maxFileSize : Nat} {events : List Event}
    (hrun : (new logDir maxFileSize).run text events = some logger) :
    logger.lines.Sublist (logger.pushed.map text.formatEntry) ∧
      (∀ id, ofThread id logger.announced = ofThread id logger.pushed ++ ofThread id logger.calls) ∧
      ((∀ event ∈ events, event.Opens) → logger.pendingWrites = 0 ∨ logger.writer = .exited →
        logger.calls = [] ∧ logger.lines = logger.pushed.map text.formatEntry) := by
  have hkept := List.foldlM_preserves
    (P := fun later logger => (∀ event ∈ later, (∀ event ∈ events, event.Opens) → event.Opens) ∧
      logger.Rotated text ∧ logger.Intact text (∀ event ∈ events, event.Opens)) ?_
    ⟨fun event hevent hopens => hopens event hevent, rotated_new logDir maxFileSize,
      intact_new logDir maxFileSize⟩ hrun
  · obtain ⟨-, -, h⟩ := hkept
    obtain ⟨done, hpushed, hsublist, hall⟩ := h.order
    refine ⟨?_, h.threads, fun hopens hend => ?_⟩
    · rw [hpushed, List.map_append, List.map_append, List.append_assoc]
      exact hsublist.trans (List.sublist_append_left ..)
    · have hzero : logger.pendingWrites = 0 := hend.elim id h.exited
      have hcounted := h.counted
      rw [hzero] at hcounted
      have hcalls : logger.calls = [] := List.length_eq_zero_iff.1 (by omega)
      have hqueue : logger.queue = [] := List.length_eq_zero_iff.1 (by omega)
      have hfree : logger.writer.uncounted = 0 := by omega
      have hheld : logger.writer.held = [] := by
        cases hwriter : logger.writer with
        | holding entry =>
            rw [hwriter] at hfree
            cases hfree
        | _ => rfl
      refine ⟨hcalls, ?_⟩
      rw [hpushed, hqueue, hheld, List.append_nil, List.append_nil]
      exact hall hopens
  · rintro event later logger logger' ⟨hopens, hrotated, hintact⟩ hstep
    obtain ⟨hfirst, hothers⟩ := List.forall_mem_cons.1 hopens
    exact ⟨hothers, hrotated.step hstep, hintact.step hrotated hfirst hstep⟩

/-! ## A run of two threads -/

def plainText : LogText where
  time _ := "00:00:00."
  date _ := "day"

/-- A query of a thread. -/
def entryOf (id : String) : LogEntry where
  timestamp := 0
  clientId := "anonymous"
  handlerId := id
  query := "SELECT"
  durationMs := 1
  status := "success"

/-- The second thread is first to get to the queue, and the logger is destroyed at once. -/
def twoThreads : List Event :=
  [.announce (entryOf "1"), .announce (entryOf "2"), .push (entryOf "2"), .close, .writeLoop, .writeLoop,
    .writeLoop, .write 0 true, .push (entryOf "1"), .writeLoop, .writeLoop, .write 0 true, .writeLoop,
    .writeLoop, .writeLoop, .writeLoop]

theorem run_twoThreads : ((new "logs" 10).run plainText twoThreads).map Logger.writer = some .exited := by
  decide

theorem run_keepsEntries_twoThreads : ∃ logger, (new "logs" 10).run plainText twoThreads = some logger ∧
    logger.writer = .exited ∧ logger.calls = [] ∧
    logger.lines = logger.pushed.map plainText.formatEntry := by
  obtain ⟨logger, hrun, hexited⟩ := Option.map_eq_some_iff.1 run_twoThreads
  obtain ⟨-, -, hall⟩ := run_keepsEntries hrun
  exact ⟨logger, hrun, hexited, hall (by simp [twoThreads, Event.Opens]) (.inr hexited)⟩

theorem run_rotatesFull_twoThreads : ∃ logger, (new "logs" 10).run plainText twoThreads = some logger ∧
    ∀ file ∈ logger.files.dropLast, 10 ≤ LogFile.bytes file.lines := by
  obtain ⟨logger, hrun, -⟩ := Option.map_eq_some_iff.1 run_twoThreads
  exact ⟨logger, hrun, (run_rotatesFull hrun).1⟩

end Logger

end QuasarDB.Server
