import Mathlib.Data.List.DropRight
import QuasarDB.Client.Proofs.StatementEnds

set_option autoImplicit false

/-! # Scripts

A script is a sequence of statements with blanks between them. Its commands are read line by line, so
each comes back alone when it begins on a line of its own, and only then. -/

namespace QuasarDB.Client

open Server

/-! ## Lines -/

theorem linesOf_of_not_mem {text : List Char} (h : '\n' ∉ text) (hne : text ≠ []) :
    linesOf text = [text] := by
  induction text with
  | nil => exact absurd rfl hne
  | cons c text ih =>
      have hc : c ≠ '\n' := fun heq => h (heq ▸ List.mem_cons_self)
      rw [linesOf, if_neg hc]
      cases text with
      | nil => rfl
      | cons d text => rw [ih (fun hmem => h (List.mem_cons_of_mem _ hmem)) (by simp)]

theorem linesOf_newline {line : List Char} (h : '\n' ∉ line) (text : List Char) :
    linesOf (line ++ '\n' :: text) = line :: linesOf text := by
  induction line with
  | nil => simp [linesOf]
  | cons c line ih =>
      have hc : c ≠ '\n' := fun heq => h (heq ▸ List.mem_cons_self)
      rw [List.cons_append, linesOf, if_neg hc, ih fun hmem => h (List.mem_cons_of_mem _ hmem)]

/-- A text begins with a line, at the end of the text or before a newline. -/
theorem exists_line (text : List Char) :
    ∃ line, '\n' ∉ line ∧ (text = line ∨ ∃ rest, text = line ++ '\n' :: rest) := by
  obtain ⟨line, back, rfl, hline, hback⟩ := exists_split (· != '\n') text
  refine ⟨line, fun hmem => absurd (hline _ hmem) (by simp), ?_⟩
  cases back with
  | nil => exact .inl (List.append_nil line)
  | cons c back =>
      obtain rfl : c = '\n' := by simpa using hback c rfl
      exact .inr ⟨back, rfl⟩

/-! ## Trimming -/

theorem trim_eq_rdropWhile (value : List Char) :
    trim value = (value.dropWhile isBlank).rdropWhile isBlank := rfl

theorem trim_eq_nil_iff {value : List Char} : trim value = [] ↔ ∀ c ∈ value, isBlank c = true := by
  rw [trim_eq_rdropWhile, List.rdropWhile_eq_nil_iff]
  constructor
  · intro h c hc
    rw [← List.takeWhile_append_dropWhile (p := isBlank) (l := value)] at hc
    rcases List.mem_append.1 hc with hc | hc
    · exact List.all_eq_true.1 List.all_takeWhile c hc
    · exact h c hc
  · intro h c hc
    exact h c (List.dropWhile_subset _ hc)

theorem trim_append {gap : List Char} (h : ∀ c ∈ gap, isBlank c = true) (value : List Char) :
    trim (gap ++ value) = trim value := by
  rw [trim_eq_rdropWhile, List.dropWhile_append_of_pos h, ← trim_eq_rdropWhile]

/-- What follows a text without blanks at its ends is trimmed away if and only if it is blank. -/
theorem trim_append_eq_iff {body w : List Char} {c : Char} (hc : isBlank c = false)
    (hbegins : ∀ d ∈ (body ++ [c]).head?, isBlank d = false) :
    trim (body ++ [c] ++ w) = body ++ [c] ↔ ∀ d ∈ w, isBlank d = true := by
  have hstart : (body ++ [c] ++ w).dropWhile isBlank = body ++ [c] ++ w := by
    cases body with
    | nil => simp [hc]
    | cons d body => simp [hbegins d rfl]
  rw [trim_eq_rdropWhile, hstart]
  constructor
  · intro h
    -- what is dropped comes from the end
    have hsplit := List.rdropWhile_append_rtakeWhile (p := isBlank) (l := body ++ [c] ++ w)
    rw [h] at hsplit
    rw [← List.append_cancel_left hsplit]
    exact fun d hd => List.mem_rtakeWhile_imp hd
  · intro hw
    induction w using List.reverseRecOn with
    | nil =>
        rw [List.append_nil]
        exact List.rdropWhile_concat_neg isBlank body c (by simp [hc])
    | append_singleton w d ih =>
        rw [← List.append_assoc, List.rdropWhile_concat_pos isBlank _ d (hw d (by simp))]
        refine ih ?_ fun e he => hw e (List.mem_append_left _ he)
        cases body with
        | nil => simp [hc]
        | cons e body => simp [hbegins e rfl]

/-! ## Statements -/

/-- A text whose first semicolon outside string literals is its last character. It has no blanks at its
    ends, and no quote directly after a backslash. -/
structure IsStatement (text : List Char) : Prop where
  ends : ∃ body, text = body ++ [';'] ∧ body.count '"' % 2 = 0 ∧ ¬ Outside body
  begins : ∀ c ∈ text.head?, isBlank c = false
  plain : escapedQuotes none text = 0

theorem escapedQuotes_append (front back : List Char) (previous : Option Char) :
    escapedQuotes previous front ≤ escapedQuotes previous (front ++ back) := by
  induction front generalizing previous with
  | nil => exact Nat.zero_le _
  | cons c front ih => exact Nat.add_le_add_left (ih (some c)) _

/-- Without escaped quotes, the client looks for a semicolon outside the literals. -/
theorem endsStatement_iff_outside {text : List Char} (h : escapedQuotes none text = 0) :
    endsStatement text = true ↔ Outside text := by
  have hzero : ∀ {quotes escaped}, SemicolonAfter text quotes escaped → escaped = 0 := by
    rintro _ _ ⟨before, after, rfl, rfl, rfl⟩
    exact Nat.le_zero.1 (h ▸ escapedQuotes_append before (';' :: after) none)
  rw [endsStatement_iff, outside_iff]
  refine exists_congr fun quotes => exists_congr fun escaped => and_congr_right fun hsemicolon => ?_
  rw [hzero hsemicolon, Nat.add_zero]

/-! ## One command -/

/-- No line before the last ends the statement. -/
def EndsAtLast (total : List Char) : Prop :=
  endsStatement total = true ∧
    ∀ front rest, total = front ++ '\n' :: rest → endsStatement front = false

theorem readLines_later {command : List Char} (h : command ≠ []) (line : List Char)
    (lines : List (List Char)) :
    readLines command (line :: lines) =
      if endsStatement (command ++ '\n' :: line) then (some (trim (command ++ '\n' :: line)), lines)
      else readLines (command ++ '\n' :: line) lines := by
  have hempty : command.isEmpty = false := by simpa using h
  have happend : command ++ ['\n'] ++ line = command ++ '\n' :: line := by simp
  rw [readLines, hempty, Bool.and_false, if_neg Bool.false_ne_true]
  simp only [Bool.false_eq_true, if_false, happend]

theorem readLines_first {line : List Char} (h : ∃ c ∈ line, isBlank c = false)
    (lines : List (List Char)) :
    readLines [] (line :: lines) =
      if endsStatement line then (some (trim line), lines) else readLines line lines := by
  obtain ⟨c, hc, hblank⟩ := h
  have htrim : (trim line).isEmpty = false := by
    rw [Bool.eq_false_iff, ne_eq, List.isEmpty_iff, trim_eq_nil_iff]
    intro hall
    rw [hall c hc] at hblank
    exact absurd hblank (by decide)
  rw [readLines, htrim, Bool.false_and, if_neg Bool.false_ne_true]
  rfl

/-- What is left after the first line of a text with `;` in its last line. -/
theorem exists_last_of_line {line rest front w : List Char} (hline : '\n' ∉ line) (hw : '\n' ∉ w)
    (h : line ++ '\n' :: rest = front ++ ';' :: w) :
    ∃ front', rest = front' ++ ';' :: w := by
  rcases List.append_eq_append_iff.1 h with ⟨more, rfl, hmore⟩ | ⟨more, rfl, hmore⟩
  · cases more with
    | nil => exact absurd (List.cons.inj hmore).1 (by decide)
    | cons c more => exact ⟨more, (List.cons.inj hmore).2⟩
  · -- the newline would stand behind the last semicolon
    cases more with
    | nil => exact absurd (List.cons.inj hmore).1 (by decide)
    | cons c more =>
        have hmem : '\n' ∈ w := by simp [(List.cons.inj hmore).2]
        exact absurd hmem hw

/-- The lines of a text up to the end of a line. -/
theorem linesOf_line {line back : List Char} (hline : '\n' ∉ line) (hne : line ≠ [])
    (hback : back = [] ∨ ∃ rest, back = '\n' :: rest) :
    linesOf (line ++ back) = line :: linesOf (back.drop 1) := by
  rcases hback with rfl | ⟨rest, rfl⟩
  · rw [List.append_nil, linesOf_of_not_mem hline hne]
    rfl
  · exact linesOf_newline hline rest

/-- A command that has begun takes the lines up to the one that ends it. -/
theorem readLines_rest {total back : List Char} (h : EndsAtLast total)
    (hback : back = [] ∨ ∃ rest, back = '\n' :: rest) :
    ∀ (y command : List Char), total = command ++ '\n' :: y → command ≠ [] →
      (∃ front w, y = front ++ ';' :: w ∧ '\n' ∉ w) →
      readLines command (linesOf (y ++ back)) = (some (trim total), linesOf (back.drop 1)) := by
  intro y
  induction hlength : y.length using Nat.strong_induction_on generalizing y with
  | _ n ih =>
    subst hlength
    intro command htotal hcommand hlast
    obtain ⟨line, hline, hy | ⟨rest, hy⟩⟩ := exists_line y
    · -- the line that ends the command
      have hne : line ≠ [] := by
        obtain ⟨front, w, rfl, _⟩ := hlast
        rw [← hy]
        simp
      rw [hy, linesOf_line hline hne hback, readLines_later hcommand, ← hy, ← htotal, if_pos h.1]
    · subst hy
      have hmore : total = (command ++ '\n' :: line) ++ '\n' :: rest := by simp [htotal]
      obtain ⟨front, w, hfront, hw⟩ := hlast
      obtain ⟨front', hrest⟩ := exists_last_of_line hline hw hfront
      have hlines : linesOf (line ++ '\n' :: rest ++ back) = line :: linesOf (rest ++ back) := by
        rw [List.append_assoc, List.cons_append, linesOf_newline hline]
      rw [hlines, readLines_later hcommand, h.2 _ _ hmore, if_neg Bool.false_ne_true]
      refine ih rest.length ?_ rest rfl _ hmore (by simp) ⟨front', w, hrest, hw⟩
      rw [List.length_append, List.length_cons]
      omega

/-- A command takes the lines up to the one that ends it. -/
theorem readLines_command {total back : List Char} (h : EndsAtLast total)
    (hback : back = [] ∨ ∃ rest, back = '\n' :: rest)
    (hlast : ∃ front w, total = front ++ ';' :: w ∧ '\n' ∉ w)
    (hblank : ∀ line rest, total = line ++ rest → (rest = [] ∨ ∃ more, rest = '\n' :: more) →
      ∃ c ∈ line, isBlank c = false) :
    readLines [] (linesOf (total ++ back)) = (some (trim total), linesOf (back.drop 1)) := by
  obtain ⟨line, hline, rfl | ⟨rest, rfl⟩⟩ := exists_line total
  · have hfirst := hblank total [] (List.append_nil total).symm (.inl rfl)
    have hne : total ≠ [] := by
      rintro rfl
      obtain ⟨c, hc, _⟩ := hfirst
      exact List.not_mem_nil hc
    rw [linesOf_line hline hne hback, readLines_first hfirst, if_pos h.1]
  · have hfirst := hblank line ('\n' :: rest) rfl (.inr ⟨rest, rfl⟩)
    have hne : line ≠ [] := by
      rintro rfl
      obtain ⟨c, hc, _⟩ := hfirst
      exact List.not_mem_nil hc
    obtain ⟨front, w, hfront, hw⟩ := hlast
    obtain ⟨front', hrest⟩ := exists_last_of_line hline hw hfront
    have hlines : linesOf (line ++ '\n' :: rest ++ back) = line :: linesOf (rest ++ back) := by
      rw [List.append_assoc, List.cons_append, linesOf_newline hline]
    rw [hlines, readLines_first hfirst, h.2 _ _ rfl, if_neg Bool.false_ne_true]
    exact readLines_rest h hback rest line rfl hne ⟨front', w, hrest, hw⟩

/-- Lines without anything on them come before a command. -/
theorem readLines_gap {gap : List Char} (h : ∀ c ∈ gap, isBlank c = true) (text : List Char) :
    ∃ start, (∀ c ∈ start, isBlank c = true) ∧ '\n' ∉ start ∧
      readLines [] (linesOf (gap ++ text)) = readLines [] (linesOf (start ++ text)) := by
  induction hlength : gap.length using Nat.strong_induction_on generalizing gap with
  | _ n ih =>
    subst hlength
    obtain ⟨line, hline, rfl | ⟨rest, rfl⟩⟩ := exists_line gap
    · exact ⟨gap, h, hline, rfl⟩
    · have htrim : (trim line).isEmpty = true := by
        rw [List.isEmpty_iff, trim_eq_nil_iff]
        exact fun c hc => h c (List.mem_append_left _ hc)
      have hskip : readLines [] (linesOf (line ++ '\n' :: rest ++ text)) =
          readLines [] (linesOf (rest ++ text)) := by
        rw [List.append_assoc, List.cons_append, linesOf_newline hline, readLines, htrim]
        rfl
      rw [hskip]
      refine ih rest.length ?_ (fun c hc => h c (by simp [hc])) rfl
      rw [List.length_append, List.length_cons]
      omega

section Statement

variable {start body text : List Char}

theorem not_mem_of_blank (h : ∀ c ∈ start, isBlank c = true) {c : Char} (hc : isBlank c = false) :
    c ∉ start := by
  intro hmem
  rw [h c hmem] at hc
  exact absurd hc (by decide)

theorem escapedQuotes_blank (h : ∀ c ∈ start, isBlank c = true) (text : List Char) :
    ∀ previous : Option Char, previous ≠ some '\\' →
      escapedQuotes previous (start ++ text) = escapedQuotes none text := by
  induction start with
  | nil =>
      intro previous hprevious
      cases text with
      | nil => rfl
      | cons c text => simp [escapedQuotes, hprevious]
  | cons c start ih =>
      obtain ⟨hc, hstart⟩ := List.forall_mem_cons.1 h
      intro previous _
      have hquote : c ≠ '"' := by
        rintro rfl
        exact absurd hc (by decide)
      have hbackslash : c ≠ '\\' := by
        rintro rfl
        exact absurd hc (by decide)
      rw [List.cons_append, escapedQuotes, if_neg (fun hboth => hquote hboth.1), Nat.zero_add]
      exact ih hstart (some c) (by simpa using hbackslash)

theorem outside_blank (h : ∀ c ∈ start, isBlank c = true) (text : List Char) :
    Outside (start ++ text) ↔ Outside text := by
  refine outside_append ?_ (not_outside_of_not_mem (not_mem_of_blank h (by decide)))
  rw [List.count_eq_zero.2 (not_mem_of_blank h (by decide))]

theorem endsStatement_append {front : List Char} (h : endsStatement front = true)
    (back : List Char) : endsStatement (front ++ back) = true := by
  obtain ⟨quotes, escaped, ⟨before, after, rfl, hquotes, hescaped⟩, hsum⟩ :=
    (endsStatement_iff front).1 h
  refine (endsStatement_iff _).2 ⟨quotes, escaped, ⟨before, after ++ back, ?_, hquotes, hescaped⟩, hsum⟩
  rw [List.append_assoc, List.cons_append]

/-- A statement ends on the line of its semicolon, not before. -/
theorem IsStatement.endsAtLast {w : List Char} (h : IsStatement text)
    (hstart : ∀ c ∈ start, isBlank c = true) (hw : '\n' ∉ w) :
    EndsAtLast (start ++ text ++ w) := by
  obtain ⟨body, rfl, hcount, hbody⟩ := h.ends
  have hplain : escapedQuotes none (start ++ (body ++ [';'])) = 0 :=
    (escapedQuotes_blank hstart _ none (by simp)).trans h.plain
  constructor
  · refine endsStatement_append ((endsStatement_iff_outside hplain).2 ?_) w
    exact (outside_blank hstart _).2 ⟨body, [], rfl, hcount⟩
  · intro front rest htotal
    have hsplit : (start ++ body) ++ ';' :: w = front ++ '\n' :: rest := by simpa using htotal
    rw [Bool.eq_false_iff]
    rcases List.append_eq_append_iff.1 hsplit with ⟨more, rfl, hmore⟩ | ⟨more, hfront, hmore⟩
    · cases more with
      | nil => exact absurd (List.cons.inj hmore).1 (by decide)
      | cons c more =>
          have hmem : '\n' ∈ w := by simp [(List.cons.inj hmore).2]
          exact absurd hmem hw
    · have hescaped : escapedQuotes none front = 0 := by
        have hle := escapedQuotes_append front (more ++ [';']) none
        rw [← List.append_assoc, ← hfront, List.append_assoc, hplain] at hle
        exact Nat.le_zero.1 hle
      rw [ne_eq, endsStatement_iff_outside hescaped]
      rintro ⟨before, after, rfl, heven⟩
      refine hbody ((outside_blank hstart body).1 ⟨before, after ++ more, ?_, heven⟩)
      rw [hfront, List.append_assoc, List.cons_append]

/-- The line where a statement begins is not blank. -/
theorem IsStatement.line_not_blank {w line rest : List Char} (h : IsStatement text)
    (hstart : ∀ c ∈ start, isBlank c = true) (hline : '\n' ∉ start)
    (htotal : start ++ text ++ w = line ++ rest)
    (hrest : rest = [] ∨ ∃ more, rest = '\n' :: more) : ∃ c ∈ line, isBlank c = false := by
  obtain ⟨c, text', rfl⟩ : ∃ c text', text = c :: text' := by
    obtain ⟨body, rfl, _⟩ := h.ends
    exact List.exists_cons_of_ne_nil (by simp)
  have hc : isBlank c = false := h.begins c rfl
  refine ⟨c, ?_, hc⟩
  have hsplit : start ++ c :: (text' ++ w) = line ++ rest := by simpa using htotal
  rcases List.append_eq_append_iff.1 hsplit with ⟨more, rfl, hmore⟩ | ⟨more, rfl, hmore⟩
  · cases more with
    | nil =>
        -- the line would end before the statement begins
        rcases hrest with rfl | ⟨more, rfl⟩
        · exact absurd hmore (by simp)
        · rw [(List.cons.inj hmore).1] at hc
          exact absurd hc (by decide)
    | cons d more => simp [(List.cons.inj hmore).1]
  · rcases hrest with rfl | ⟨_, rfl⟩
    · exact absurd hmore (by simp)
    · cases more with
      | nil =>
          rw [← (List.cons.inj hmore).1] at hc
          exact absurd hc (by decide)
      | cons d more =>
          refine absurd ?_ hline
          simp [← (List.cons.inj hmore).1]

/-- The first command of a script: the first statement, with what follows it on its last line. -/
theorem readLines_statement {gap : List Char} (hgap : ∀ c ∈ gap, isBlank c = true)
    (h : IsStatement text) (rest : List Char) :
    ∃ w back, rest = w ++ back ∧ '\n' ∉ w ∧ (back = [] ∨ ∃ more, back = '\n' :: more) ∧
      readLines [] (linesOf (gap ++ text ++ rest)) =
        (some (trim (text ++ w)), linesOf (back.drop 1)) := by
  obtain ⟨w, back, hrest, hw, hback⟩ : ∃ w back, rest = w ++ back ∧ '\n' ∉ w ∧
      (back = [] ∨ ∃ more, back = '\n' :: more) := by
    obtain ⟨w, hw, rfl | ⟨more, rfl⟩⟩ := exists_line rest
    · exact ⟨rest, [], (List.append_nil rest).symm, hw, .inl rfl⟩
    · exact ⟨w, '\n' :: more, rfl, hw, .inr ⟨more, rfl⟩⟩
  refine ⟨w, back, hrest, hw, hback, ?_⟩
  obtain ⟨start, hstart, hline, hskip⟩ := readLines_gap hgap (text ++ rest)
  obtain ⟨body, hbody, _⟩ := h.ends
  have hlast : ∃ front v, start ++ text ++ w = front ++ ';' :: v ∧ '\n' ∉ v :=
    ⟨start ++ body, w, by simp [hbody], hw⟩
  have hread := readLines_command (h.endsAtLast hstart hw) hback hlast
    fun line rest htotal hrest => h.line_not_blank hstart hline htotal hrest
  rw [List.append_assoc gap, hskip, hrest, ← List.append_assoc start, ← List.append_assoc, hread,
    List.append_assoc start, trim_append hstart]

end Statement

/-! ## A whole script -/

/-- A statement of a script, with the blanks before it. -/
structure Piece where
  gap : List Char
  text : List Char
  blank : ∀ c ∈ gap, isBlank c = true
  statement : IsStatement text

/-- A script: its statements, and the blanks after the last. -/
structure Script where
  pieces : List Piece
  last : List Char
  blank : ∀ c ∈ last, isBlank c = true

namespace Script

/-- The content of the file. -/
def content (script : Script) : List Char :=
  script.pieces.flatMap (fun piece => piece.gap ++ piece.text) ++ script.last

def statements (script : Script) : List (List Char) := script.pieces.map Piece.text

/-- Every statement after the first begins on a later line than the one before it ends on. -/
def OnOwnLines (script : Script) : Prop := ∀ piece ∈ script.pieces.tail, '\n' ∈ piece.gap

end Script

theorem readCommands_nil (count : Nat) :
    FileReader.readCommands count { lines := some [] } = List.replicate count none := by
  induction count with
  | zero => rfl
  | succ count ih =>
      rw [FileReader.readCommands, List.replicate_succ]
      exact congrArg _ ih

theorem readCommands_succ {lines left : List (List Char)} {command : Option (List Char)}
    (h : readLines [] lines = (command, left)) (count : Nat) :
    FileReader.readCommands (count + 1) { lines := some lines } =
      command :: FileReader.readCommands count { lines := some left } := by
  show (readLines [] lines).1 :: FileReader.readCommands count
    { lines := some (readLines [] lines).2 } = _
  rw [h]

theorem readLines_blank {text : List Char} (h : ∀ c ∈ text, isBlank c = true) :
    readLines [] (linesOf text) = (none, []) := by
  obtain ⟨start, hstart, hline, hskip⟩ := readLines_gap h []
  rw [List.append_nil, List.append_nil] at hskip
  rw [hskip]
  have htrim : ∀ {line : List Char}, (∀ c ∈ line, isBlank c = true) → (trim line).isEmpty = true :=
    fun hline => List.isEmpty_iff.2 (trim_eq_nil_iff.2 hline)
  by_cases hne : start = []
  · subst hne
    rfl
  · rw [linesOf_of_not_mem hline hne, readLines, htrim hstart]
    rfl

theorem readCommands_blank {text : List Char} (h : ∀ c ∈ text, isBlank c = true) (count : Nat) :
    FileReader.readCommands count { lines := some (linesOf text) } = List.replicate count none := by
  cases count with
  | zero => rfl
  | succ count =>
      rw [readCommands_succ (readLines_blank h), readCommands_nil]
      rfl

/-- A text has one first line. -/
theorem line_unique {line line' rest back : List Char} (hline : '\n' ∉ line) (hline' : '\n' ∉ line')
    (hback : back = [] ∨ ∃ more, back = '\n' :: more)
    (h : line ++ '\n' :: rest = line' ++ back) : line = line' ∧ back = '\n' :: rest := by
  rcases List.append_eq_append_iff.1 h with ⟨more, rfl, hmore⟩ | ⟨more, rfl, hmore⟩
  · cases more with
    | nil => exact ⟨(List.append_nil line).symm, hmore.symm⟩
    | cons c more =>
        obtain ⟨rfl, -⟩ := List.cons.inj hmore
        exact absurd (by simp) hline'
  · rcases hback with rfl | ⟨rest', rfl⟩
    · exact absurd hmore (by simp)
    · cases more with
      | nil => exact ⟨List.append_nil line', hmore⟩
      | cons c more =>
          obtain ⟨rfl, -⟩ := List.cons.inj hmore
          exact absurd (by simp) hline

/-- What follows a statement on its last line is not blank when the next one begins there. -/
theorem not_blank_of_same_line {gap text more w back : List Char} (hgap : '\n' ∉ gap)
    (htext : IsStatement text) (hback : back = [] ∨ ∃ rest, back = '\n' :: rest)
    (h : gap ++ text ++ more = w ++ back) : ¬ ∀ c ∈ w, isBlank c = true := by
  obtain ⟨c, text', rfl⟩ : ∃ c text', text = c :: text' := by
    obtain ⟨body, rfl, _⟩ := htext.ends
    exact List.exists_cons_of_ne_nil (by simp)
  have hc : isBlank c = false := htext.begins c rfl
  intro hw
  have hsplit : gap ++ c :: (text' ++ more) = w ++ back := by simpa using h
  rcases List.append_eq_append_iff.1 hsplit with ⟨rest, rfl, hrest⟩ | ⟨rest, rfl, hrest⟩
  · cases rest with
    | nil =>
        rcases hback with rfl | ⟨_, rfl⟩
        · exact absurd hrest (by simp)
        · rw [(List.cons.inj hrest).1] at hc
          exact absurd hc (by decide)
    | cons d rest =>
        rw [(List.cons.inj hrest).1, hw d (by simp)] at hc
        exact absurd hc (by decide)
  · rcases hback with rfl | ⟨_, rfl⟩
    · exact absurd hrest (by simp)
    · cases rest with
      | nil =>
          rw [← (List.cons.inj hrest).1] at hc
          exact absurd hc (by decide)
      | cons d rest => exact absurd (by simp [← (List.cons.inj hrest).1]) hgap

/-- The statement comes back alone if the rest of its last line is blank. -/
theorem IsStatement.trim_eq_iff {text : List Char} (h : IsStatement text) (w : List Char) :
    trim (text ++ w) = text ↔ ∀ c ∈ w, isBlank c = true := by
  obtain ⟨body, rfl, _⟩ := h.ends
  exact trim_append_eq_iff (by decide) h.begins

/-- The first call on a script, and the calls that follow it. -/
theorem readCommands_piece_iff {piece : Piece} {rest w left : List Char} {later : List (List Char)}
    (hread : readLines [] (linesOf (piece.gap ++ piece.text ++ rest)) =
      (some (trim (piece.text ++ w)), linesOf left)) :
    (∀ more, FileReader.readCommands ((piece.text :: later).length + more)
        { lines := some (linesOf (piece.gap ++ piece.text ++ rest)) } =
      (piece.text :: later).map some ++ List.replicate more none) ↔
    (∀ c ∈ w, isBlank c = true) ∧ ∀ more, FileReader.readCommands (later.length + more)
        { lines := some (linesOf left) } = later.map some ++ List.replicate more none := by
  have hcalls : ∀ more, (piece.text :: later).length + more = later.length + more + 1 := by
    intro more
    rw [List.length_cons]
    omega
  simp only [hcalls, readCommands_succ hread, List.map_cons, List.cons_append, List.cons.injEq,
    Option.some.injEq, piece.statement.trim_eq_iff, forall_and, forall_const]

/-- Calls of `ReadCommand` return exactly the statements of the script, and then nothing, if and only
    if each of them begins on a line of its own. -/
theorem readCommands_script_iff (script : Script) :
    (∀ more, FileReader.readCommands (script.statements.length + more)
        (FileReader.new (some script.content)) =
      script.statements.map some ++ List.replicate more none) ↔ script.OnOwnLines := by
  induction hlength : script.pieces.length generalizing script with
  | zero =>
      obtain ⟨pieces, last, hlast⟩ := script
      obtain rfl : pieces = [] := List.length_eq_zero_iff.1 hlength
      refine iff_of_true (fun more => ?_) (fun piece hpiece => absurd hpiece List.not_mem_nil)
      simpa [Script.statements, Script.content, FileReader.new] using readCommands_blank hlast more
  | succ n ih =>
      obtain ⟨pieces, last, hlast⟩ := script
      obtain ⟨piece, pieces, rfl⟩ := List.exists_cons_of_length_eq_add_one hlength
      obtain ⟨w, back, hrest, hw, hback, hread⟩ := readLines_statement piece.blank piece.statement
        (pieces.flatMap (fun piece => piece.gap ++ piece.text) ++ last)
      have hcontent : Script.content ⟨piece :: pieces, last, hlast⟩ = piece.gap ++ piece.text ++
          (pieces.flatMap (fun piece => piece.gap ++ piece.text) ++ last) := by
        rw [Script.content, List.flatMap_cons, List.append_assoc]
      rw [hcontent]
      refine (readCommands_piece_iff hread).trans ?_
      cases pieces with
      | nil =>
          -- only blanks are left
          have hblank : ∀ c ∈ w ++ back, isBlank c = true := by
            rw [← hrest]
            exact hlast
          refine iff_of_true ⟨fun c hc => hblank c (List.mem_append_left _ hc), fun more => ?_⟩
            (fun piece hpiece => absurd hpiece List.not_mem_nil)
          have hleft : ∀ c ∈ back.drop 1, isBlank c = true :=
            fun c hc => hblank c (List.mem_append_right _ (List.mem_of_mem_drop hc))
          simpa using readCommands_blank hleft more
      | cons next pieces =>
          by_cases hnewline : '\n' ∈ next.gap
          · obtain ⟨line, hline, hgap | ⟨gap, hgap⟩⟩ := exists_line next.gap
            · exact absurd (hgap ▸ hnewline) hline
            · -- what is left is the script that begins behind the newline
              have hgap' : ∀ c ∈ gap, isBlank c = true := by
                intro c hc
                refine next.blank c ?_
                rw [hgap]
                exact List.mem_append_right _ (List.mem_cons_of_mem _ hc)
              let left : Script := ⟨⟨gap, next.text, hgap', next.statement⟩ :: pieces, last, hlast⟩
              have hcut : line ++ '\n' :: left.content = w ++ back := by
                rw [← hrest, List.flatMap_cons, hgap, Script.content, List.flatMap_cons]
                simp only [List.append_assoc, List.cons_append]
                rfl
              obtain ⟨rfl, rfl⟩ := line_unique hline hw hback hcut
              have hblank : ∀ c ∈ line, isBlank c = true := by
                intro c hc
                refine next.blank c ?_
                rw [hgap]
                exact List.mem_append_left _ hc
              have hleft := ih left (Nat.succ.inj hlength)
              have hlater : (∀ piece ∈ next :: pieces, '\n' ∈ piece.gap) ↔
                  ∀ piece ∈ pieces, '\n' ∈ piece.gap :=
                List.forall_mem_cons.trans (and_iff_right hnewline)
              exact (and_iff_right hblank).trans (hleft.trans hlater.symm)
          · refine iff_of_false (fun h => ?_) (fun h => hnewline (h next List.mem_cons_self))
            rw [List.flatMap_cons, List.append_assoc] at hrest
            exact not_blank_of_same_line hnewline next.statement hback hrest h.1

/-- Two statements on one line. -/
def oneLine : Script where
  pieces :=
    [{ gap := [], text := "USE shop;".toList, blank := by decide,
       statement := ⟨⟨"USE shop".toList, rfl, rfl, not_outside_of_not_mem (by decide)⟩,
         by rintro _ ⟨⟩; rfl, by decide⟩ },
     { gap := [' '], text := "DROP TABLE users;".toList, blank := by decide,
       statement := ⟨⟨"DROP TABLE users".toList, rfl, rfl, not_outside_of_not_mem (by decide)⟩,
         by rintro _ ⟨⟩; rfl, by decide⟩ }]
  last := ['\n']
  blank := by decide

/-- The line comes back as one command. -/
theorem readCommands_oneLine :
    ¬ ∀ more, FileReader.readCommands (oneLine.statements.length + more)
        (FileReader.new (some oneLine.content)) =
      oneLine.statements.map some ++ List.replicate more none := by
  intro h
  exact absurd (h 0) (by decide)

end QuasarDB.Client
