import QuasarDB.Server.Proofs.ParserSound

set_option autoImplicit false

/-! # The accepted token lists and the grammar

The tokens before the end of file of an accepted list are a sentence of the grammar unless the list
starts like an `INSERT` whose rows begin with a comma, or like a `SELECT` of a literal. -/

namespace QuasarDB.Server

namespace Grammar

open TokenReader

/-! ## Tokens of a sentence -/

section Tokens

variable {P : Lexeme → Prop}

theorem terminal_le_allTokens {type : TokenType} {v : String} (h : P ⟨type, v⟩) :
    terminal type v ≤ allTokens P := by
  rintro w rfl t ht
  rw [List.mem_singleton.1 ht]
  exact h

theorem anyOf_le_allTokens {type : TokenType} (h : ∀ v, P ⟨type, v⟩) :
    anyOf type ≤ allTokens P := by
  rintro w ⟨v, rfl⟩ t ht
  rw [List.mem_singleton.1 ht]
  exact h v

theorem digits_le_allTokens {count : Nat} (h : ∀ v, P ⟨.integerLiteral, v⟩) :
    digits count ≤ allTokens P := by
  rintro w ⟨v, -, rfl⟩ t ht
  rw [List.mem_singleton.1 ht]
  exact h v

end Tokens

def NotEndOfFile (t : Lexeme) : Prop := t.type ≠ .endOfFile

theorem value_notEndOfFile : value ≤ allTokens NotEndOfFile := by
  simp only [value, identifier, literal, stringLit, integerLit, keyword]
  refine add_le_allTokens ?_ (add_le_allTokens (add_le_allTokens ?_ ?_) ?_)
  · exact anyOf_le_allTokens (by simp [NotEndOfFile])
  · exact anyOf_le_allTokens (by simp [NotEndOfFile])
  · exact anyOf_le_allTokens (by simp [NotEndOfFile])
  · exact terminal_le_allTokens (by simp [NotEndOfFile])

theorem betweenPred_notEndOfFile : betweenPred ≤ allTokens NotEndOfFile := by
  refine mul_le_allTokens (mul_le_allTokens (mul_le_allTokens (mul_le_allTokens ?_ ?_) ?_) ?_) ?_
  all_goals first
    | exact value_notEndOfFile
    | exact terminal_le_allTokens (by simp [NotEndOfFile])

theorem likePred_notEndOfFile : likePred ≤ allTokens NotEndOfFile := by
  refine mul_le_allTokens (mul_le_allTokens value_notEndOfFile ?_) ?_
  · exact terminal_le_allTokens (by simp [NotEndOfFile])
  · exact anyOf_le_allTokens (by simp [NotEndOfFile])

theorem comparison_notEndOfFile : comparison ≤ allTokens NotEndOfFile := by
  refine mul_le_allTokens (mul_le_allTokens value_notEndOfFile ?_) value_notEndOfFile
  unfold cmpOp
  repeat' with_reducible apply add_le_allTokens
  all_goals exact terminal_le_allTokens (by simp [NotEndOfFile])

mutual

theorem OrExpr.notEndOfFile : ∀ {w : List Lexeme}, OrExpr w → ∀ t ∈ w, NotEndOfFile t
  | _, .operand ha => ha.notEndOfFile
  | _, .or ha hb => by
      intro t ht
      rcases List.mem_append.1 ht with ht | ht
      · exact ha.notEndOfFile t ht
      · rcases List.mem_cons.1 ht with rfl | ht
        · simp [NotEndOfFile]
        · exact hb.notEndOfFile t ht

theorem AndExpr.notEndOfFile : ∀ {w : List Lexeme}, AndExpr w → ∀ t ∈ w, NotEndOfFile t
  | _, .operand ha => ha.notEndOfFile
  | _, .and ha hb => by
      intro t ht
      rcases List.mem_append.1 ht with ht | ht
      · exact ha.notEndOfFile t ht
      · rcases List.mem_cons.1 ht with rfl | ht
        · simp [NotEndOfFile]
        · exact hb.notEndOfFile t ht

theorem Predicate.notEndOfFile : ∀ {w : List Lexeme}, Predicate w → ∀ t ∈ w, NotEndOfFile t
  | _, .parentheses ha => by
      intro t ht
      rcases List.mem_cons.1 ht with rfl | ht
      · simp [NotEndOfFile]
      · rcases List.mem_append.1 ht with ht | ht
        · exact ha.notEndOfFile t ht
        · rw [List.mem_singleton.1 ht]
          simp [NotEndOfFile]
  | _, .between ha => betweenPred_notEndOfFile ha
  | _, .like ha => likePred_notEndOfFile ha
  | _, .comparison ha => comparison_notEndOfFile ha

end

theorem condition_notEndOfFile : condition ≤ allTokens NotEndOfFile :=
  fun _ hw => OrExpr.notEndOfFile hw

/-- No sentence contains an end of file: its languages are built from terminals of other types. -/
theorem statementOf_notEndOfFile {lead selected : Language Lexeme}
    (hlead : lead ≤ allTokens NotEndOfFile) (hselected : selected ≤ allTokens NotEndOfFile) :
    statementOf lead selected ≤ allTokens NotEndOfFile := by
  simp only [statementOf, dbStmt, createDb, dropDb, useDb, revertStmt, timestamp, ddlStmt,
    createTable, colDef, colType, dropTable, insertStmtOf, insertHead, rowValues, updateStmt,
    assignment, deleteStmt, selectStmtOf, selectListOf, selectItemOf, aggregate, accessStmt,
    createUser, grantStmt, revokeStmt, permission, accessScope, scopePart, tableRef, commaList,
    literal, identifier, stringLit, integerLit, keyword, punctuation]
  -- With reducible definitions only, a rule is tried on the operation that is written there.
  repeat' with_reducible first
    | exact hlead
    | exact hselected
    | exact value_notEndOfFile
    | exact condition_notEndOfFile
    | apply opt_le_allTokens
    | apply separatedBy_le_allTokens
    | apply mul_le_allTokens
    | apply add_le_allTokens
  all_goals first
    | exact terminal_le_allTokens (by simp [NotEndOfFile])
    | exact anyOf_le_allTokens (by simp [NotEndOfFile])
    | exact digits_le_allTokens (by simp [NotEndOfFile])

/-! ## First keywords -/

/-- The sentences that start with a keyword. -/
def startsWith (v : String) : Language Lexeme := {w | w.head? = some ⟨.keyword, v⟩}

theorem mul_le_startsWith {v : String} {L M : Language Lexeme} (h : L ≤ startsWith v) :
    L * M ≤ startsWith v := by
  intro w hw
  obtain ⟨a, ha, b, -, rfl⟩ := Language.mem_mul.1 hw
  show (a ++ b).head? = _
  rw [List.head?_append, show a.head? = _ from h ha]
  rfl

theorem keyword_le_startsWith (v : String) : keyword v ≤ startsWith v := by
  rintro w rfl
  rfl

/-- The statements in which the parser and the grammar agree. -/
def commonStmt : Language Lexeme :=
  dbStmt + ddlStmt + (updateStmt + deleteStmt) + accessStmt

theorem statementOf_eq (lead selected : Language Lexeme) :
    statementOf lead selected = insertStmtOf lead * opt (punctuation ";") +
      (selectStmtOf selected * opt (punctuation ";") + commonStmt * opt (punctuation ";")) := by
  rw [statementOf, commonStmt, ← add_mul, ← add_mul]
  congr 1
  ac_rfl

theorem commonStmt_startsWith {w : List Lexeme} (hw : w ∈ commonStmt * opt (punctuation ";")) :
    w.head? ≠ some ⟨.keyword, "INSERT"⟩ ∧ w.head? ≠ some ⟨.keyword, "SELECT"⟩ := by
  have key : ∀ {v : String} {L : Language Lexeme}, L ≤ startsWith v → v ≠ "INSERT" →
      v ≠ "SELECT" → L ≤ {w | w.head? ≠ some ⟨.keyword, "INSERT"⟩ ∧
        w.head? ≠ some ⟨.keyword, "SELECT"⟩} := by
    intro v L hL hi hs w hw
    have hhead : w.head? = some ⟨.keyword, v⟩ := hL hw
    constructor
    · rw [hhead]
      simp [hi]
    · rw [hhead]
      simp [hs]
  simp only [commonStmt, dbStmt, createDb, dropDb, useDb, revertStmt, ddlStmt, createTable,
    dropTable, updateStmt, deleteStmt, accessStmt, createUser, grantStmt, revokeStmt, add_mul,
    mul_assoc] at hw
  rcases hw with ((((((h | h) | h) | h) | (h | h)) | (h | h)) | ((h | h) | h))
  all_goals
    refine key (mul_le_startsWith (keyword_le_startsWith _)) ?_ ?_ h <;> simp

/-! ## The rows of an `INSERT` -/

/-- An `INSERT` whose first `VALUE` is followed by a comma. -/
def RowsStartWithComma (w : List Lexeme) : Prop :=
  w.head? = some ⟨.keyword, "INSERT"⟩ ∧
    (w.dropWhile (· ≠ ⟨.keyword, "VALUE"⟩))[1]? = some ⟨.punctuation, ","⟩

instance (w : List Lexeme) : Decidable (RowsStartWithComma w) :=
  inferInstanceAs (Decidable (_ ∧ _))

theorem dropWhile_append_cons {P : Lexeme → Bool} {a b : List Lexeme} {t : Lexeme}
    (ha : ∀ x ∈ a, P x = true) (ht : P t = false) :
    (a ++ t :: b).dropWhile P = t :: b := by
  rw [List.dropWhile_append_of_pos ha, List.dropWhile_cons, if_neg (by simp [ht])]

theorem takeWhile_append_cons {P : Lexeme → Bool} {a b : List Lexeme} {t : Lexeme}
    (ha : ∀ x ∈ a, P x = true) (ht : P t = false) :
    (a ++ t :: b).takeWhile P = a := by
  rw [List.takeWhile_append_of_pos ha, List.takeWhile_cons, if_neg (by simp [ht]),
    List.append_nil]

theorem insertHead_cases {w : List Lexeme} (hw : w ∈ insertHead) :
    ∃ a, w = a ++ [⟨.keyword, "VALUE"⟩] ∧ a.head? = some ⟨.keyword, "INSERT"⟩ ∧
      ∀ t ∈ a, t ≠ ⟨.keyword, "VALUE"⟩ := by
  obtain ⟨a, ha, _, rfl, rfl⟩ := Language.mem_mul.1 hw
  refine ⟨a, rfl, ?_, ?_⟩
  · simp only [mul_assoc] at ha
    exact mul_le_startsWith (keyword_le_startsWith _) ha
  · have hle : keyword "INSERT" * keyword "INTO" * tableRef * punctuation "(" *
        commaList identifier * punctuation ")" ≤ allTokens (· ≠ ⟨.keyword, "VALUE"⟩) := by
      simp only [tableRef, commaList, identifier, keyword, punctuation]
      repeat' with_reducible first
        | apply opt_le_allTokens
        | apply separatedBy_le_allTokens
        | apply mul_le_allTokens
      all_goals first
        | exact terminal_le_allTokens (by simp)
        | exact anyOf_le_allTokens (by simp)
    exact hle ha

theorem mem_insertStmtOf_comma {w : List Lexeme}
    (hw : w ∈ insertStmtOf (opt (punctuation ",")) * opt (punctuation ";")) :
    w ∈ insertStmt * opt (punctuation ";") ∨ RowsStartWithComma w := by
  obtain ⟨_, hstmt, e, he, rfl⟩ := Language.mem_mul.1 hw
  obtain ⟨_, hleft, rows, hrows, rfl⟩ := Language.mem_mul.1 hstmt
  obtain ⟨head, hhead, lead, hlead, rfl⟩ := Language.mem_mul.1 hleft
  rcases hlead with rfl | rfl
  · refine .inl (Language.append_mem_mul (Language.append_mem_mul ?_ hrows) he)
    exact Language.append_mem_mul hhead Language.nil_mem_one
  · obtain ⟨a, rfl, hinsert, ha⟩ := insertHead_cases hhead
    refine .inr ⟨?_, ?_⟩
    · simp [List.head?_append, hinsert]
    · simp only [List.append_assoc, List.cons_append, List.nil_append]
      rw [dropWhile_append_cons (by simpa using ha) (by simp)]
      rfl

theorem not_rowsStartWithComma_of_mem_insertStmt {w : List Lexeme}
    (hw : w ∈ insertStmt * opt (punctuation ";")) : ¬ RowsStartWithComma w := by
  obtain ⟨_, hstmt, e, he, rfl⟩ := Language.mem_mul.1 hw
  obtain ⟨_, hleft, rows, hrows, rfl⟩ := Language.mem_mul.1 hstmt
  obtain ⟨head, hhead, _, rfl, rfl⟩ := Language.mem_mul.1 hleft
  obtain ⟨a, rfl, hinsert, ha⟩ := insertHead_cases hhead
  rintro ⟨-, hcomma⟩
  simp only [List.append_nil, List.append_assoc, List.cons_append, List.nil_append] at hcomma
  rw [dropWhile_append_cons (by simpa using ha) (by simp), List.getElem?_cons_succ,
    ← List.head?_eq_getElem?, List.head?_append, Parser.head?_of_mem_commaList_rowValues hrows]
    at hcomma
  simp at hcomma

/-! ## The items of a `SELECT` -/

def isLiteral (t : Lexeme) : Bool :=
  t.type == .stringLiteral || t.type == .integerLiteral || t == ⟨.keyword, "NULL"⟩

/-- A `SELECT` with a literal before its first `FROM`. -/
def SelectsLiteral (w : List Lexeme) : Prop :=
  w.head? = some ⟨.keyword, "SELECT"⟩ ∧
    ∃ t ∈ w.takeWhile (· ≠ ⟨.keyword, "FROM"⟩), isLiteral t = true

instance (w : List Lexeme) : Decidable (SelectsLiteral w) :=
  inferInstanceAs (Decidable (_ ∧ _))

theorem isLiteral_of_mem_literal {w : List Lexeme} (hw : w ∈ literal) :
    ∃ t, w = [t] ∧ isLiteral t = true := by
  rcases hw with (⟨v, rfl⟩ | ⟨v, rfl⟩) | rfl
  · exact ⟨_, rfl, rfl⟩
  · exact ⟨_, rfl, rfl⟩
  · exact ⟨_, rfl, rfl⟩

theorem selectListOf_le_allTokens {P : Lexeme → Prop} {selected : Language Lexeme}
    (hselected : selected ≤ allTokens P) (hterminal : ∀ v ∈ ["SUM", "COUNT", "AVG", "AS"],
      P ⟨.keyword, v⟩) (hidentifier : ∀ v, P ⟨.identifier, v⟩)
    (hpunctuation : ∀ v, P ⟨.punctuation, v⟩) (hoperator : ∀ v, P ⟨.operator, v⟩) :
    selectListOf selected ≤ allTokens P := by
  simp only [selectListOf, selectItemOf, aggregate, commaList, identifier, keyword, punctuation]
  repeat' with_reducible first
    | exact hselected
    | apply opt_le_allTokens
    | apply separatedBy_le_allTokens
    | apply mul_le_allTokens
    | apply add_le_allTokens
  all_goals first
    | exact terminal_le_allTokens (hterminal _ (by simp))
    | exact terminal_le_allTokens (hpunctuation _)
    | exact terminal_le_allTokens (hoperator _)
    | exact anyOf_le_allTokens hidentifier

/-- Without literals, what the parser takes as items are items of the grammar. -/
theorem selectListOf_value_of_no_literal {w : List Lexeme} (hw : w ∈ selectListOf value)
    (hno : ∀ t ∈ w, isLiteral t = false) : w ∈ selectListOf identifier := by
  rcases hw with hstar | hitems
  · exact .inl hstar
  refine .inr (separatedBy_mono_of_allTokens (P := fun t => isLiteral t = false) ?_ hitems hno)
  intro item hitem hno
  obtain ⟨selected, hselected, name, hname, rfl⟩ := Language.mem_mul.1 hitem
  refine Language.append_mem_mul ?_ hname
  rcases hselected with haggregate | hidentifier | hliteral
  · exact .inl haggregate
  · exact .inr hidentifier
  · obtain ⟨t, rfl, ht⟩ := isLiteral_of_mem_literal hliteral
    rw [hno t (by simp)] at ht
    exact absurd ht (by simp)

theorem selectStmtOf_cases {selected : Language Lexeme} {w : List Lexeme}
    (hselected : selected ≤ allTokens (· ≠ ⟨.keyword, "FROM"⟩))
    (hw : w ∈ selectStmtOf selected * opt (punctuation ";")) :
    ∃ list ∈ selectListOf selected,
      w.takeWhile (· ≠ ⟨.keyword, "FROM"⟩) = ⟨.keyword, "SELECT"⟩ :: list ∧
      w.head? = some ⟨.keyword, "SELECT"⟩ ∧
      (list ∈ selectListOf identifier → w ∈ selectStmt * opt (punctuation ";")) := by
  obtain ⟨_, hstmt, e, he, rfl⟩ := Language.mem_mul.1 hw
  obtain ⟨_, hfour, cond, hcond, rfl⟩ := Language.mem_mul.1 hstmt
  obtain ⟨_, hthree, table, htable, rfl⟩ := Language.mem_mul.1 hfour
  obtain ⟨_, htwo, _, rfl, rfl⟩ := Language.mem_mul.1 hthree
  obtain ⟨_, rfl, list, hlist, rfl⟩ := Language.mem_mul.1 htwo
  have hfrom : ∀ t ∈ list, t ≠ ⟨.keyword, "FROM"⟩ :=
    selectListOf_le_allTokens hselected (by simp) (by simp) (by simp) (by simp) hlist
  refine ⟨list, hlist, ?_, rfl, ?_⟩
  · simp only [List.append_assoc, List.cons_append, List.nil_append]
    rw [List.takeWhile_cons_of_pos (by simp),
      takeWhile_append_cons (by simpa using hfrom) (by simp)]
  · intro hlist'
    refine Language.append_mem_mul (Language.append_mem_mul (Language.append_mem_mul
      (Language.append_mem_mul (Language.append_mem_mul rfl hlist') rfl) htable) hcond) he

theorem mem_selectStmtOf_value {w : List Lexeme}
    (hw : w ∈ selectStmtOf value * opt (punctuation ";")) :
    w ∈ selectStmt * opt (punctuation ";") ∨ SelectsLiteral w := by
  have hvalue : value ≤ allTokens (· ≠ ⟨.keyword, "FROM"⟩) := by
    rintro v (⟨x, rfl⟩ | hv) t ht
    · rw [List.mem_singleton.1 ht]
      simp
    · obtain ⟨u, rfl, hu⟩ := isLiteral_of_mem_literal hv
      rw [List.mem_singleton.1 ht]
      rintro rfl
      simp [isLiteral] at hu
  obtain ⟨list, hlist, htake, hhead, hmem⟩ := selectStmtOf_cases hvalue hw
  by_cases hno : ∀ t ∈ list, isLiteral t = false
  · exact .inl (hmem (selectListOf_value_of_no_literal hlist hno))
  · push Not at hno
    obtain ⟨t, ht, hlit⟩ := hno
    refine .inr ⟨hhead, t, ?_, by simpa using hlit⟩
    rw [htake]
    exact List.mem_cons_of_mem _ ht

theorem not_selectsLiteral_of_mem_selectStmt {w : List Lexeme}
    (hw : w ∈ selectStmt * opt (punctuation ";")) : ¬ SelectsLiteral w := by
  have hidentifier : ∀ {P : Lexeme → Prop}, (∀ v, P ⟨.identifier, v⟩) →
      identifier ≤ allTokens P := anyOf_le_allTokens
  obtain ⟨list, hlist, htake, -, -⟩ := selectStmtOf_cases (hidentifier (by simp)) hw
  rintro ⟨-, t, ht, hlit⟩
  rw [htake] at ht
  have hno : ∀ t ∈ list, isLiteral t = false :=
    selectListOf_le_allTokens (P := fun t => isLiteral t = false)
      (hidentifier (by simp [isLiteral])) (by simp [isLiteral]) (by simp [isLiteral])
      (by simp [isLiteral]) (by simp [isLiteral]) hlist
  rcases List.mem_cons.1 ht with rfl | ht
  · simp [isLiteral] at hlit
  · rw [hno t ht] at hlit
    exact absurd hlit (by simp)

/-! ## Accepted lists -/

/-- What the parser accepts is a sentence of the grammar unless it is one of the two exceptions. -/
theorem mem_statement_iff {w : List Lexeme} (hw : w ∈ statementOf (opt (punctuation ",")) value) :
    w ∈ statement ↔ ¬ RowsStartWithComma w ∧ ¬ SelectsLiteral w := by
  rw [statement, statementOf_eq]
  constructor
  · rintro (hinsert | hselect | hcommon)
    · refine ⟨not_rowsStartWithComma_of_mem_insertStmt hinsert, ?_⟩
      rintro ⟨hhead, -⟩
      have : w.head? = some ⟨.keyword, "INSERT"⟩ := by
        refine mul_le_startsWith ?_ hinsert
        refine mul_le_startsWith (mul_le_startsWith ?_)
        unfold insertHead
        simp only [mul_assoc]
        exact mul_le_startsWith (keyword_le_startsWith _)
      rw [this] at hhead
      simp at hhead
    · refine ⟨?_, not_selectsLiteral_of_mem_selectStmt hselect⟩
      rintro ⟨hhead, -⟩
      have : w.head? = some ⟨.keyword, "SELECT"⟩ := by
        refine mul_le_startsWith ?_ hselect
        unfold selectStmtOf
        simp only [mul_assoc]
        exact mul_le_startsWith (keyword_le_startsWith _)
      rw [this] at hhead
      simp at hhead
    · obtain ⟨hinsert, hselect⟩ := commonStmt_startsWith hcommon
      exact ⟨fun h => hinsert h.1, fun h => hselect h.1⟩
  · rintro ⟨hrows, hliteral⟩
    rw [statementOf_eq] at hw
    rcases hw with hinsert | hselect | hcommon
    · exact .inl ((mem_insertStmtOf_comma hinsert).resolve_right hrows)
    · exact .inr (.inl ((mem_selectStmtOf_value hselect).resolve_right hliteral))
    · exact .inr (.inr hcommon)

end Grammar

open TokenReader Grammar

/-- The tokens before the end of file. -/
def beforeEnd (tokens : List Token) : List Lexeme :=
  (tokens.map Token.toLexeme).takeWhile (fun t => t.type != .endOfFile)

theorem parse_eq_ok {tokens : List Token} {s : Statement} :
    parse tokens = .ok s ↔
      ∃ rest, Parser.parseStatement (tokens.map Token.toLexeme) = .ok s rest := by
  unfold parse
  cases Parser.parseStatement (tokens.map Token.toLexeme) <;> simp

/-- An accepted list is a statement as the parser takes it, and then the end. -/
theorem Parser.parseStatement_consumes {ts rest : List Lexeme} {s : Statement}
    (h : Parser.parseStatement ts = .ok s rest) :
    ∃ used ∈ statementOf (opt (punctuation ",")) value, ts = used ++ rest ∧
      (Parser.next rest).type = .endOfFile := by
  rw [Parser.parseStatement_run] at h
  split at h
  · cases h
  split at h
  · cases h
  obtain ⟨stmt, mid, hstmt, hrest⟩ := Prog.bind_eq_ok.1 h
  obtain ⟨body, rfl, hbody⟩ := Parser.within_parseByKeyword _ _ _ _ hstmt
  have hopt : Within (Parser.acceptPunctuation ";") (opt (punctuation ";")) := by
    have h := Parser.within_acceptPunctuation
      (f := fun flag => (pure flag : Parser Bool)) (v := ";") (by simp) (Within.pure _)
      (Within.pure _)
    rwa [mul_one, add_comm, bind_pure] at h
  cases haccept : Parser.acceptPunctuation ";" mid with
  | ok semicolon last =>
      obtain ⟨tail, rfl, htail⟩ := hopt _ _ _ haccept
      rw [Parser.parseEnd_run haccept] at hrest
      split at hrest
      next hlast =>
        cases hrest
        exact ⟨body ++ tail, Language.append_mem_mul hbody htail, by simp, hlast⟩
      next => cases hrest
  | error e last =>
      unfold Parser.parseEnd at hrest
      rw [Prog.bind_error haccept] at hrest
      cases hrest

theorem beforeEnd_mem_statementOf {tokens : List Token} {s : Statement}
    (h : parse tokens = .ok s) :
    beforeEnd tokens ∈ statementOf (opt (punctuation ",")) value := by
  obtain ⟨rest, hrun⟩ := parse_eq_ok.1 h
  obtain ⟨used, hused, htokens, hend⟩ := Parser.parseStatement_consumes hrun
  have hno : ∀ t ∈ used, NotEndOfFile t := by
    refine statementOf_notEndOfFile (opt_le_allTokens ?_) value_notEndOfFile hused
    exact terminal_le_allTokens (by simp [NotEndOfFile])
  have hbefore : beforeEnd tokens = used := by
    rw [beforeEnd, htokens, List.takeWhile_append_of_pos (by simpa [NotEndOfFile] using hno)]
    cases rest with
    | nil => simp
    | cons t rest => simp [show t.type = .endOfFile from hend]
  rw [hbefore]
  exact hused

/-! ## Acceptance -/

/-- The tokens before the end of file of an accepted list are a sentence of the grammar exactly if
    the list does not start the rows of an `INSERT` with a comma and does not select a literal. -/
theorem parse_sentence_iff {tokens : List Token} {s : Statement} (h : parse tokens = .ok s) :
    beforeEnd tokens ∈ statement ↔
      ¬ RowsStartWithComma (beforeEnd tokens) ∧ ¬ SelectsLiteral (beforeEnd tokens) :=
  mem_statement_iff (beforeEnd_mem_statementOf h)

theorem parse_sentence_iff_useDatabase :
    beforeEnd (Lexer.tokenize "USE shop;") ∈ statement ↔
      ¬ RowsStartWithComma (beforeEnd (Lexer.tokenize "USE shop;")) ∧
        ¬ SelectsLiteral (beforeEnd (Lexer.tokenize "USE shop;")) :=
  parse_sentence_iff (s := .useDatabase "shop") (by decide +kernel)

/-- `INSERT INTO t (a) VALUE , (1);` and `SELECT 5 FROM t;` are accepted, but are no sentences. -/
theorem parse_accepts_no_sentence :
    (∃ s, parse (Lexer.tokenize "INSERT INTO t (a) VALUE , (1);") = .ok s) ∧
      beforeEnd (Lexer.tokenize "INSERT INTO t (a) VALUE , (1);") ∉ statement ∧
      (∃ s, parse (Lexer.tokenize "SELECT 5 FROM t;") = .ok s) ∧
      beforeEnd (Lexer.tokenize "SELECT 5 FROM t;") ∉ statement := by
  have hinsert : parse (Lexer.tokenize "INSERT INTO t (a) VALUE , (1);") =
      .ok (.insert { table := "t" } ["a"] [[⟨.integer, "1"⟩]]) := by decide +kernel
  have hselect : parse (Lexer.tokenize "SELECT 5 FROM t;") =
      .ok (.select false [{ expr := .literal ⟨.integer, "5"⟩ }] { table := "t" } none) := by
    decide +kernel
  refine ⟨⟨_, hinsert⟩, ?_, ⟨_, hselect⟩, ?_⟩
  · rw [mem_statement_iff (beforeEnd_mem_statementOf hinsert)]
    exact fun h => h.1 (by decide +kernel)
  · rw [mem_statement_iff (beforeEnd_mem_statementOf hselect)]
    exact fun h => h.2 (by decide +kernel)

end QuasarDB.Server
