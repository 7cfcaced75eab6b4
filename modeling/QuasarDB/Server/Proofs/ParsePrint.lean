import QuasarDB.Server.Proofs.ParserComplete

set_option autoImplicit false

/-! # Parsing after printing is the identity

The tokens of a printable statement are well-formed, so the lexer reads them back from any text that
spells them, and the parser reads the statement back from the tokens. -/

namespace QuasarDB.Server

/-! ## Well-formed tokens -/

section WellFormed

variable {t : Lexeme}

theorem wellFormed_keyword {v : String} (h : v ∈ Lexer.keywords) :
    (Printer.keyword v).WellFormed := h

theorem wellFormed_identifier {name : String} (h : IsIdentifier name) :
    (Printer.identifier name).WellFormed := h

theorem wellFormed_punctuation {v : String} (h : v ∈ ["(", ")", ",", ";", ".", "-", ":"]) :
    (Printer.punctuation v).WellFormed := h

theorem wellFormed_operator {v : String}
    (h : v ∈ ["==", "!=", "<", ">", "<=", ">=", "=", "*"]) :
    (Printer.operator v).WellFormed := h

/-- All tokens of the list are well-formed. -/
def AllWellFormed (w : List Lexeme) : Prop := ∀ t ∈ w, t.WellFormed

@[simp] theorem allWellFormed_nil : AllWellFormed [] := by
  simp [AllWellFormed]

@[simp] theorem allWellFormed_cons {w : List Lexeme} :
    AllWellFormed (t :: w) ↔ t.WellFormed ∧ AllWellFormed w := by
  simp [AllWellFormed]

@[simp] theorem allWellFormed_append {u w : List Lexeme} :
    AllWellFormed (u ++ w) ↔ AllWellFormed u ∧ AllWellFormed w := by
  simp only [AllWellFormed, List.mem_append, or_imp, forall_and]

theorem allWellFormed_commaList {α : Type} {write : α → List Lexeme} {as : List α}
    (h : ∀ a ∈ as, AllWellFormed (write a)) : AllWellFormed (Printer.commaList write as) := by
  cases as with
  | nil => simp [Printer.commaList, Printer.joined]
  | cons a as =>
      rw [Printer.commaList, Printer.joined, allWellFormed_append]
      refine ⟨h a (by simp), ?_⟩
      intro t ht
      obtain ⟨b, hb, htb⟩ := List.mem_flatMap.1 ht
      rcases List.mem_cons.1 htb with rfl | htb
      · exact wellFormed_punctuation (by simp)
      · exact h b (by simp [hb]) t htb

theorem allWellFormed_tableRef {table : TableRef} (h : table.Printable) :
    AllWellFormed (Printer.tableRef table) := by
  unfold Printer.tableRef
  split
  next => simpa using wellFormed_identifier h.2
  next hne =>
    have hdb : IsIdentifier table.database := h.1.resolve_left hne
    simp only [allWellFormed_cons, allWellFormed_nil, and_true]
    exact ⟨hdb, wellFormed_punctuation (by simp), h.2⟩

theorem wellFormed_scopePart {part : String} (h : IsScopePart part) :
    (Printer.scopePart part).WellFormed := by
  unfold Printer.scopePart
  split
  next => exact wellFormed_operator (by simp)
  next hne => exact h.resolve_left hne

theorem allWellFormed_accessScope {scope : TableRef} (h : scope.PrintableScope) :
    AllWellFormed (Printer.accessScope scope) := by
  simp only [Printer.accessScope, allWellFormed_cons, allWellFormed_nil, and_true]
  exact ⟨wellFormed_scopePart h.1, wellFormed_punctuation (by simp), wellFormed_scopePart h.2⟩

theorem allWellFormed_permission {name : String} (h : IsPermission name) :
    AllWellFormed (Printer.permission name) := by
  simp only [Printer.permission, allWellFormed_cons, allWellFormed_nil, and_true]
  simp only [IsPermission, List.mem_cons, List.not_mem_nil, or_false] at h
  rcases h with rfl | rfl | rfl | rfl <;> exact wellFormed_keyword (by decide)

theorem allWellFormed_timestamp {t : String} (h : IsTimestamp t) :
    AllWellFormed (Printer.timestamp t) := by
  obtain ⟨year, month, day, hour, minute, second, millisecond, rfl, hyear, hmonth, hday, hhour,
    hminute, hsecond, hmillisecond⟩ := h
  rw [Parser.timestamp_of_parts hyear.2 hmonth.2 hday.2 hhour.2 hminute.2 hsecond.2
    hmillisecond.2]
  simp only [allWellFormed_cons, allWellFormed_nil, and_true]
  exact ⟨hyear.1, wellFormed_punctuation (by simp), hmonth.1, wellFormed_punctuation (by simp),
    hday.1, wellFormed_punctuation (by simp), hhour.1, wellFormed_punctuation (by simp),
    hminute.1, wellFormed_punctuation (by simp), hsecond.1, wellFormed_punctuation (by simp),
    hmillisecond.1⟩

theorem wellFormed_literal {l : Literal} (h : l.Printable) : (Printer.literal l).WellFormed := by
  obtain ⟨type, v⟩ := l
  cases type with
  | string => exact h
  | integer => exact h
  | null => exact wellFormed_keyword (by decide)

theorem allWellFormed_value {e : Expression} (h : e.PrintableValue) :
    AllWellFormed (Printer.expression e) := by
  cases e with
  | identifier name => simpa [Printer.expression] using wellFormed_identifier h
  | literal l => simpa [Printer.expression] using wellFormed_literal h
  | aggregate function column => exact absurd h (by simp [Expression.PrintableValue])

theorem allWellFormed_parenthesized {w : List Lexeme} (h : AllWellFormed w) :
    AllWellFormed (Printer.parenthesized w) := by
  simp only [Printer.parenthesized, allWellFormed_cons, allWellFormed_append, allWellFormed_nil,
    and_true]
  exact ⟨wellFormed_punctuation (by simp), h, wellFormed_punctuation (by simp)⟩

theorem allWellFormed_condition {c : Condition} (h : c.Printable) : ∀ level,
    AllWellFormed (Printer.condition level c) := by
  induction c with
  | comparison left op right =>
      intro level
      simp only [Printer.condition, allWellFormed_append, allWellFormed_cons]
      refine ⟨allWellFormed_value h.1, wellFormed_operator ?_, allWellFormed_value h.2⟩
      cases op <;> decide
  | between value lower upper =>
      intro level
      simp only [Printer.condition, allWellFormed_append, allWellFormed_cons]
      exact ⟨⟨allWellFormed_value h.1, wellFormed_keyword (by decide), allWellFormed_value h.2.1⟩,
        wellFormed_keyword (by decide), allWellFormed_value h.2.2⟩
  | like value pattern =>
      intro level
      simp only [Printer.condition, allWellFormed_append, allWellFormed_cons, allWellFormed_nil,
        and_true]
      exact ⟨allWellFormed_value h.1, wellFormed_keyword (by decide), h.2⟩
  | and left right ihl ihr =>
      intro level
      have hbody : AllWellFormed (Printer.condition .andExpr left ++
          Printer.keyword "AND" :: Printer.condition .predicate right) := by
        rw [allWellFormed_append, allWellFormed_cons]
        exact ⟨ihl h.1 _, wellFormed_keyword (by decide), ihr h.2 _⟩
      simp only [Printer.condition]
      split
      · exact allWellFormed_parenthesized hbody
      · exact hbody
  | or left right ihl ihr =>
      intro level
      have hbody : AllWellFormed (Printer.condition .orExpr left ++
          Printer.keyword "OR" :: Printer.condition .andExpr right) := by
        rw [allWellFormed_append, allWellFormed_cons]
        exact ⟨ihl h.1 _, wellFormed_keyword (by decide), ihr h.2 _⟩
      simp only [Printer.condition]
      split
      · exact hbody
      · exact allWellFormed_parenthesized hbody

theorem allWellFormed_whereClause {clause : Option Condition} (h : ∀ c ∈ clause, c.Printable) :
    AllWellFormed (Printer.whereClause clause) := by
  cases clause with
  | none => simp [Printer.whereClause]
  | some c =>
      simp only [Printer.whereClause, allWellFormed_cons]
      exact ⟨wellFormed_keyword (by decide), allWellFormed_condition (h c rfl) _⟩

theorem allWellFormed_flag {b : Bool} {v : String} (h : v ∈ Lexer.keywords) :
    AllWellFormed (Printer.flag b v) := by
  cases b with
  | true => simpa [Printer.flag] using wellFormed_keyword h
  | false => simp [Printer.flag]

theorem allWellFormed_columnDef {column : ColumnDef} (h : column.Printable) :
    AllWellFormed (Printer.columnDef column) := by
  have htype : (Printer.columnType column.columnType).WellFormed := by
    cases column.columnType <;> exact wellFormed_keyword (by decide)
  simp only [Printer.columnDef, allWellFormed_cons, allWellFormed_append]
  refine ⟨h.1, htype, ⟨allWellFormed_flag (by decide), allWellFormed_flag (by decide)⟩, ?_⟩
  cases hl : column.defaultValue with
  | none => simp
  | some l =>
      simp only [allWellFormed_cons, allWellFormed_nil, and_true]
      exact ⟨wellFormed_keyword (by decide), wellFormed_literal (h.2 l hl)⟩

theorem allWellFormed_row {r : List Literal} (h : ∀ l ∈ r, l.Printable) :
    AllWellFormed (Printer.row r) := by
  simp only [Printer.row, allWellFormed_cons, allWellFormed_append, allWellFormed_nil, and_true]
  refine ⟨wellFormed_punctuation (by simp), allWellFormed_commaList ?_,
    wellFormed_punctuation (by simp)⟩
  intro l hl
  simpa using wellFormed_literal (h l hl)

theorem allWellFormed_selectItem {item : SelectItem} (h : item.Printable) :
    AllWellFormed (Printer.selectItem item) := by
  obtain ⟨expr, aliasName⟩ := item
  rw [Printer.selectItem, allWellFormed_append]
  constructor
  · cases expr with
    | identifier name => simpa [Printer.expression] using wellFormed_identifier h.1
    | literal l => exact absurd h.1 (by simp)
    | aggregate function column =>
        simp only [Printer.expression, allWellFormed_cons, allWellFormed_nil, and_true]
        refine ⟨wellFormed_keyword ?_, wellFormed_punctuation (by simp), h.1,
          wellFormed_punctuation (by simp)⟩
        cases function <;> decide
  · split
    next => simp
    next hne =>
      simp only [allWellFormed_cons, allWellFormed_nil, and_true]
      exact ⟨wellFormed_keyword (by decide), h.2.resolve_left hne⟩

theorem allWellFormed_statement {s : Statement} (h : s.Printable) :
    AllWellFormed (Printer.statement s) := by
  have kw : ∀ {v : String}, v ∈ Lexer.keywords → (Printer.keyword v).WellFormed :=
    wellFormed_keyword
  have pn : ∀ {v : String}, v ∈ ["(", ")", ",", ";", ".", "-", ":"] →
      (Printer.punctuation v).WellFormed := wellFormed_punctuation
  cases s with
  | createDatabase name =>
      simp only [Printer.statement, allWellFormed_cons, allWellFormed_nil, and_true]
      exact ⟨kw (by decide), kw (by decide), h⟩
  | dropDatabase name =>
      simp only [Printer.statement, allWellFormed_cons, allWellFormed_nil, and_true]
      exact ⟨kw (by decide), kw (by decide), h⟩
  | useDatabase name =>
      simp only [Printer.statement, allWellFormed_cons, allWellFormed_nil, and_true]
      exact ⟨kw (by decide), h⟩
  | createUser username password =>
      simp only [Printer.statement, allWellFormed_cons, allWellFormed_nil, and_true]
      exact ⟨kw (by decide), kw (by decide), h.1, kw (by decide), h.2⟩
  | grant permissions scope username =>
      simp only [Printer.statement, allWellFormed_cons, allWellFormed_append, allWellFormed_nil,
        and_true]
      exact ⟨kw (by decide),
        allWellFormed_commaList (fun p hp => allWellFormed_permission (h.2.1 p hp)),
        kw (by decide), allWellFormed_accessScope h.2.2.1, kw (by decide), h.2.2.2⟩
  | revoke permissions scope username =>
      simp only [Printer.statement, allWellFormed_cons, allWellFormed_append, allWellFormed_nil,
        and_true]
      exact ⟨kw (by decide),
        allWellFormed_commaList (fun p hp => allWellFormed_permission (h.2.1 p hp)),
        kw (by decide), allWellFormed_accessScope h.2.2.1, kw (by decide), h.2.2.2⟩
  | revert table t =>
      simp only [Printer.statement, allWellFormed_cons, allWellFormed_append]
      exact ⟨kw (by decide), allWellFormed_tableRef h.1, allWellFormed_timestamp h.2⟩
  | createTable table columns =>
      simp only [Printer.statement, allWellFormed_cons, allWellFormed_append, allWellFormed_nil,
        and_true]
      exact ⟨kw (by decide), kw (by decide), allWellFormed_tableRef h.1, pn (by simp),
        allWellFormed_commaList (fun c hc => allWellFormed_columnDef (h.2.2 c hc)), pn (by simp)⟩
  | dropTable table =>
      simp only [Printer.statement, allWellFormed_cons]
      exact ⟨kw (by decide), kw (by decide), allWellFormed_tableRef h⟩
  | insert table columns values =>
      simp only [Printer.statement, allWellFormed_cons, allWellFormed_append]
      refine ⟨kw (by decide), kw (by decide), allWellFormed_tableRef h.1, pn (by simp),
        allWellFormed_commaList ?_, pn (by simp), kw (by decide),
        allWellFormed_commaList (fun r hr => allWellFormed_row (h.2.2.2 r hr).2)⟩
      intro name hname
      simpa using wellFormed_identifier (h.2.1.2 name hname)
  | update table assignments clause =>
      obtain ⟨htable, ⟨-, hassignments⟩, c, rfl, hc⟩ := h
      simp only [Printer.statement, allWellFormed_cons, allWellFormed_append]
      refine ⟨kw (by decide), allWellFormed_tableRef htable, kw (by decide),
        allWellFormed_commaList ?_, allWellFormed_whereClause (by simpa using hc)⟩
      intro a ha
      simp only [Printer.assignment, allWellFormed_cons]
      exact ⟨(hassignments a ha).1, wellFormed_operator (by simp),
        allWellFormed_value (hassignments a ha).2⟩
  | delete table clause =>
      obtain ⟨htable, c, rfl, hc⟩ := h
      simp only [Printer.statement, allWellFormed_cons, allWellFormed_append]
      exact ⟨kw (by decide), kw (by decide), allWellFormed_tableRef htable,
        allWellFormed_whereClause (by simpa using hc)⟩
  | select selectAll items table clause =>
      obtain ⟨hitems, htable, hclause⟩ := h
      simp only [Printer.statement, allWellFormed_cons, allWellFormed_append]
      refine ⟨kw (by decide), ?_, kw (by decide), allWellFormed_tableRef htable,
        allWellFormed_whereClause hclause⟩
      unfold Printer.selectList
      cases selectAll with
      | true => simpa using wellFormed_operator (by simp)
      | false =>
          obtain ⟨-, hitems⟩ : items ≠ [] ∧ ∀ i ∈ items, i.Printable := hitems
          exact allWellFormed_commaList (fun i hi => allWellFormed_selectItem (hitems i hi))

end WellFormed

/-! ## Texts with single spaces -/

/-- How the program itself would write a token. -/
def Lexeme.spelling (t : Lexeme) : List Char :=
  match t.type with
  | .stringLiteral => '"' :: (t.value.toList ++ ['"'])
  | _ => t.value.toList

/-- The tokens with a space between any two. -/
def spaced : List Lexeme → List Char
  | [] => []
  | t :: ts => t.spelling ++ ts.flatMap (fun u => ' ' :: u.spelling)

theorem spelledAs_spelling {t : Lexeme} (ht : t.WellFormed) : t.SpelledAs t.spelling := by
  obtain ⟨type, v⟩ := t
  cases type with
  | keyword =>
      have hupper : ∀ v ∈ Lexer.keywords, Lexer.toUpper v.toList = v.toList := by decide
      exact hupper v ht
  | _ => rfl

theorem endsBefore_spaces (t : Lexeme) (ts : List Lexeme) :
    t.EndsBefore (ts.flatMap (fun u => ' ' :: u.spelling)) := by
  obtain ⟨type, v⟩ := t
  intro c hc
  have hspace : c = ' ' := by
    cases ts with
    | nil => simp at hc
    | cons u ts => simpa using hc.symm
  subst hspace
  cases type <;> simp [Lexer.isWordChar, Lexer.isDigit]

theorem spells_spaced {ts : List Lexeme} (hts : AllWellFormed ts) : Spells ts (spaced ts) := by
  have key : ∀ us : List Lexeme, AllWellFormed us →
      Spells us (us.flatMap (fun u => ' ' :: u.spelling)) := by
    intro us
    induction us with
    | nil => exact fun _ => .nil (by simp)
    | cons u us ih =>
        intro hus
        obtain ⟨hu, hus⟩ := allWellFormed_cons.1 hus
        have hspace : ∀ c ∈ [' '], Lexer.isSpace c := by decide
        have h := Spells.cons hspace (spelledAs_spelling hu) (endsBefore_spaces u us) (ih hus)
        rw [List.flatMap_cons]
        exact h
  cases ts with
  | nil => exact .nil (by simp [spaced])
  | cons t ts =>
      obtain ⟨ht, hts⟩ := allWellFormed_cons.1 hts
      have hspace : ∀ c ∈ ([] : List Char), Lexer.isSpace c := by simp
      exact Spells.cons hspace (spelledAs_spelling ht) (endsBefore_spaces t ts) (key ts hts)

theorem allWellFormed_semicolon : AllWellFormed [Printer.punctuation ";"] :=
  allWellFormed_cons.2 ⟨wellFormed_punctuation (by simp), allWellFormed_nil⟩

/-- A printable statement as a text, with its `;`. -/
def render (s : Statement) : String :=
  String.ofList (spaced (Printer.statement s ++ [Printer.punctuation ";"]))

theorem spells_render {s : Statement} (hs : s.Printable) :
    Spells (Printer.statement s ++ [Printer.punctuation ";"]) (render s).toList := by
  rw [render, String.toList_ofList]
  exact spells_spaced (allWellFormed_append.2 ⟨allWellFormed_statement hs, allWellFormed_semicolon⟩)

/-! ## Parsing after printing -/

/-- Any text that spells a printable statement, with or without the final `;`, is parsed to that
    statement. -/
theorem parse_tokenize_of_spells {s : Statement} (hs : s.Printable) {text : String}
    (h : Spells (Printer.statement s) text.toList ∨
      Spells (Printer.statement s ++ [Printer.punctuation ";"]) text.toList) :
    parse (Lexer.tokenize text) = .ok s := by
  have key : ∀ tail, Parser.Ending (tail ++ [⟨.endOfFile, ""⟩]) → AllWellFormed tail →
      Spells (Printer.statement s ++ tail) text.toList → parse (Lexer.tokenize text) = .ok s := by
    intro tail hend htail hspells
    obtain ⟨last, hrun⟩ := Parser.parseStatement_printed hs hend
    have htokens := tokenize_of_spells hspells
      (allWellFormed_append.2 ⟨allWellFormed_statement hs, htail⟩)
    unfold parse
    rw [htokens, List.append_assoc, hrun]
  rcases h with h | h
  · exact key [] (.inr rfl) allWellFormed_nil (by simpa using h)
  · exact key [Printer.punctuation ";"] (.inl rfl) allWellFormed_semicolon h

/-- `DELETE FROM shop . t WHERE ( a == 1 OR b LIKE "x" ) AND c BETWEEN 2 AND 3 ;` -/
theorem parse_tokenize_of_spells_delete :
    parse (Lexer.tokenize (render (.delete ⟨"shop", "t"⟩ (some (.and
      (.or (.comparison (.identifier "a") .equal (.literal ⟨.integer, "1"⟩))
        (.like (.identifier "b") "x"))
      (.between (.identifier "c") (.literal ⟨.integer, "2"⟩) (.literal ⟨.integer, "3"⟩))))))) =
    .ok (.delete ⟨"shop", "t"⟩ (some (.and
      (.or (.comparison (.identifier "a") .equal (.literal ⟨.integer, "1"⟩))
        (.like (.identifier "b") "x"))
      (.between (.identifier "c") (.literal ⟨.integer, "2"⟩) (.literal ⟨.integer, "3"⟩))))) := by
  have hprintable : (Statement.delete ⟨"shop", "t"⟩ (some (.and
      (.or (.comparison (.identifier "a") .equal (.literal ⟨.integer, "1"⟩))
        (.like (.identifier "b") "x"))
      (.between (.identifier "c") (.literal ⟨.integer, "2"⟩)
        (.literal ⟨.integer, "3"⟩))))).Printable := by
    refine ⟨⟨.inr (by decide), by decide⟩, _, rfl, ⟨⟨?_, ?_⟩, ?_, ?_⟩, ?_, ?_, ?_⟩
    · exact (by decide : IsIdentifier "a")
    · exact (by decide : IsDigits "1")
    · exact (by decide : IsIdentifier "b")
    · exact (by decide : NoQuote "x")
    · exact (by decide : IsIdentifier "c")
    · exact (by decide : IsDigits "2")
    · exact (by decide : IsDigits "3")
  exact parse_tokenize_of_spells hprintable (.inr (spells_render hprintable))

end QuasarDB.Server
