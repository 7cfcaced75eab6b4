import QuasarDB.Server.Grammar
import QuasarDB.Server.Parser

set_option autoImplicit false

/-! # What the parser accepts

Every production of the parser takes off a sentence of the language it is named after. Two of them
take more than the grammar has: a comma before the rows of an `INSERT`, and a literal as a `SELECT`
item. -/

namespace QuasarDB.Server

namespace Parser

open TokenReader Grammar

/-! ## Tokens -/

/-- What `Peek` returns. -/
def next (ts : List Lexeme) : Lexeme := ts.headD ⟨.endOfFile, ""⟩

theorem peek_run (ts : List Lexeme) : peek ts = .ok (next ts) ts := rfl

theorem isAtEnd_run (ts : List Lexeme) : isAtEnd ts = .ok ((next ts).type == .endOfFile) ts := rfl

theorem parseStatement_run (ts : List Lexeme) :
    parseStatement ts =
      if (next ts).type = .endOfFile then .error (.exception "Unexpected end of input") ts
      else if (next ts).type ≠ .keyword then
        .error (.exception ("Expected statement, got: " ++ (next ts).value)) ts
      else (parseByKeyword (next ts).value >>= parseEnd) ts := by
  unfold parseStatement
  rw [Prog.bind_ok (isAtEnd_run ts)]
  by_cases hend : (next ts).type = .endOfFile
  · simp [hend]
  · rw [if_neg (by simpa using hend), if_neg hend, Prog.bind_ok (peek_run ts)]
    simp only [Prog.run_ite, Prog.run_throw]

/-- A statement is returned before the end only. -/
theorem parseEnd_run {stmt : Statement} {ts mid : List Lexeme} {semicolon : Bool}
    (h : acceptPunctuation ";" ts = .ok semicolon mid) :
    parseEnd stmt ts =
      if (next mid).type = .endOfFile then .ok stmt mid
      else .error (.exception ("Unexpected tokens after statement: " ++ (next mid).value)) mid := by
  unfold parseEnd
  rw [Prog.bind_ok h, Prog.bind_ok (isAtEnd_run mid)]
  by_cases hend : (next mid).type = .endOfFile
  · simp [hend]
  · rw [if_neg (by simpa using hend), if_neg hend, Prog.bind_ok (peek_run mid)]
    rfl

theorem matchToken_iff {type : TokenType} {v : String} (hv : v ≠ "") {t : Lexeme} :
    matchToken type v t = true ↔ t = ⟨type, v⟩ := by
  obtain ⟨type', value'⟩ := t
  simp [matchToken, hv]

theorem matchToken_any_iff {type : TokenType} {t : Lexeme} :
    matchToken type "" t = true ↔ t.type = type := by
  simp [matchToken]

theorem oneToken_terminal {type : TokenType} {v : String} (hv : v ≠ "") :
    oneToken (matchToken type v) = terminal type v := by
  ext w
  constructor
  · rintro ⟨t, ht, rfl⟩
    rw [(matchToken_iff hv).1 ht]
    rfl
  · rintro rfl
    exact ⟨_, (matchToken_iff hv).2 rfl, rfl⟩

theorem oneToken_any (type : TokenType) : oneToken (matchToken type "") = anyOf type := by
  ext w
  constructor
  · rintro ⟨t, ht, rfl⟩
    rw [matchToken_any_iff] at ht
    exact ⟨t.value, by rw [← ht]⟩
  · rintro ⟨value, rfl⟩
    exact ⟨_, matchToken_any_iff.2 rfl, rfl⟩

theorem within_expect (type : TokenType) (v : String) (what : Lexeme → String) :
    Within (expect type v what) (oneToken (matchToken type v)) := by
  have h : Within (expect type v what) (oneToken (matchToken type v) * 1 + 0) :=
    Within.takeIf_bind (fun t _ => Within.pure t.value)
      (Consumes.get_bind (fun ts => Within.throw _ _))
  rwa [mul_one, add_zero] at h

theorem within_expectKeyword {v : String} (hv : v ≠ "") :
    Within (expectKeyword v) (keyword v) := by
  rw [keyword, ← oneToken_terminal hv]
  exact within_expect _ _ _

theorem within_expectPunctuation {v : String} (hv : v ≠ "") :
    Within (expectPunctuation v) (punctuation v) := by
  rw [punctuation, ← oneToken_terminal hv]
  exact within_expect _ _ _

theorem within_expectAny (type : TokenType) (what : Lexeme → String) :
    Within (expect type "" what) (anyOf type) := by
  rw [← oneToken_any]
  exact within_expect _ _ _

theorem within_parseIdentifier : Within parseIdentifier identifier := within_expectAny _ _

section Accept

variable {α : Type} {v : String} {f : Bool → Parser α} {L M : Language Lexeme}

theorem within_acceptKeyword (hv : v ≠ "") (hyes : Within (f true) L) (hno : Within (f false) M) :
    Within (acceptKeyword v >>= f) (keyword v * L + M) := by
  rw [keyword, ← oneToken_terminal hv, acceptKeyword, bind_assoc]
  exact Within.takeIf_bind (fun _ _ => hyes) hno

theorem within_acceptPunctuation (hv : v ≠ "") (hyes : Within (f true) L)
    (hno : Within (f false) M) : Within (acceptPunctuation v >>= f) (punctuation v * L + M) := by
  rw [punctuation, ← oneToken_terminal hv, acceptPunctuation, bind_assoc]
  exact Within.takeIf_bind (fun _ _ => hyes) hno

theorem within_accept_any {type : TokenType} {f : Option Lexeme → Parser α}
    (hyes : ∀ t, Within (f (some t)) L) (hno : Within (f none) M) :
    Within (accept type >>= f) (anyOf type * L + M) := by
  rw [← oneToken_any]
  exact Within.takeIf_bind (fun t _ => hyes t) hno

theorem within_accept {type : TokenType} {f : Option Lexeme → Parser α} (hv : v ≠ "")
    (hyes : ∀ t, Within (f (some t)) L) (hno : Within (f none) M) :
    Within (accept type v >>= f) (terminal type v * L + M) := by
  rw [← oneToken_terminal hv]
  exact Within.takeIf_bind (fun t _ => hyes t) hno

end Accept

theorem within_commaSeparated {α : Type} {item : Parser α} {A : Language Lexeme}
    (h : Within item A) : Within (commaSeparated item) (commaList A) := by
  rw [commaList, punctuation, ← oneToken_terminal (by simp)]
  exact Within.separated h

/-! ## Names, scopes and timestamps -/

theorem within_parseTableRef : Within parseTableRef tableRef := by
  refine Within.bind within_parseIdentifier (fun first => ?_)
  rw [opt, add_comm]
  refine within_acceptPunctuation (by simp) ?_ (Within.pure _)
  exact Within.bind_pure within_parseIdentifier (fun _ => Within.pure _)

theorem within_parseScopePart : Within parseScopePart scopePart := by
  have hshape : scopePart = terminal .operator "*" * 1 + identifier := by
    rw [mul_one, scopePart]
  rw [hshape]
  exact within_accept (by simp) (fun _ => Within.pure _) within_parseIdentifier

theorem within_parseAccessScope : Within parseAccessScope accessScope := by
  refine Within.bind within_parseScopePart (fun first => ?_)
  rw [opt, add_comm]
  refine within_acceptPunctuation (by simp) ?_ (Within.pure _)
  exact Within.bind_pure within_parseScopePart (fun _ => Within.pure _)

theorem oneToken_isPermission : oneToken isPermission = permission := by
  ext w
  constructor
  · rintro ⟨t, ht, rfl⟩
    simp only [isPermission, Bool.or_eq_true, matchToken_iff (v := "READ") (by simp),
      matchToken_iff (v := "WRITE") (by simp), matchToken_iff (v := "CREATE") (by simp),
      matchToken_iff (v := "DELETE") (by simp)] at ht
    rcases ht with ((rfl | rfl) | rfl) | rfl
    · exact .inl (.inl (.inl rfl))
    · exact .inl (.inl (.inr rfl))
    · exact .inl (.inr rfl)
    · exact .inr rfl
  · rintro (((rfl | rfl) | rfl) | rfl)
    · exact ⟨_, by simp [isPermission, matchToken], rfl⟩
    · exact ⟨_, by simp [isPermission, matchToken], rfl⟩
    · exact ⟨_, by simp [isPermission, matchToken], rfl⟩
    · exact ⟨_, by simp [isPermission, matchToken], rfl⟩

theorem within_parsePermission : Within parsePermission permission := by
  have hshape : permission = oneToken isPermission * 1 + 0 := by
    rw [mul_one, add_zero, oneToken_isPermission]
  rw [hshape]
  exact Within.takeIf_bind (fun _ _ => Within.pure _) (Within.throw _ _)

theorem within_parsePermissions : Within parsePermissions (commaList permission) :=
  within_commaSeparated within_parsePermission

theorem within_parseTimestampPart (name : String) (count : Nat) :
    Within (parseTimestampPart name count) (digits count) := by
  refine Consumes.bind (R := fun value used => used = [⟨.integerLiteral, value⟩]) ?_ ?_
  · refine Consumes.takeIf_bind ?_ (Consumes.get_bind (fun _ => Consumes.throw))
    intro t ht
    refine Consumes.pure ?_
    rw [← matchToken_any_iff.1 ht]
  · rintro value _ rfl
    refine Consumes.ite (fun _ => Consumes.throw) ?_
    intro hlen
    exact Consumes.pure ⟨value, not_not.1 hlen, rfl⟩

theorem within_parseTimestamp : Within parseTimestamp timestamp := by
  unfold timestamp
  simp only [mul_assoc]
  refine Within.bind (within_parseTimestampPart _ _) (fun _ => ?_)
  refine Within.bind (within_expectPunctuation (by simp)) (fun _ => ?_)
  refine Within.bind (within_parseTimestampPart _ _) (fun _ => ?_)
  refine Within.bind (within_expectPunctuation (by simp)) (fun _ => ?_)
  refine Within.bind (within_parseTimestampPart _ _) (fun _ => ?_)
  refine Within.bind (within_expectPunctuation (by simp)) (fun _ => ?_)
  refine Within.bind (within_parseTimestampPart _ _) (fun _ => ?_)
  refine Within.bind (within_expectPunctuation (by simp)) (fun _ => ?_)
  refine Within.bind (within_parseTimestampPart _ _) (fun _ => ?_)
  refine Within.bind (within_expectPunctuation (by simp)) (fun _ => ?_)
  refine Within.bind (within_parseTimestampPart _ _) (fun _ => ?_)
  refine Within.bind (within_expectPunctuation (by simp)) (fun _ => ?_)
  exact Within.bind_pure (within_parseTimestampPart _ _) (fun _ => Within.pure _)

/-! ## Expressions and conditions -/

theorem within_parseLiteral : Within parseLiteral literal := by
  have hshape : literal = anyOf .stringLiteral * 1 +
      (anyOf .integerLiteral * 1 + (terminal .keyword "NULL" * 1 + 0)) := by
    simp only [mul_one, add_zero, literal, stringLit, integerLit, keyword, add_assoc]
  rw [hshape]
  refine within_accept_any (fun _ => Within.pure _) ?_
  refine within_accept_any (fun _ => Within.pure _) ?_
  refine within_accept (by simp) (fun _ => Within.pure _) ?_
  exact Consumes.get_bind (fun _ => Within.throw _ _)

theorem within_parseValue : Within parseValue value := by
  have hshape : value = anyOf .identifier * 1 + literal := by
    rw [mul_one, value, identifier]
  rw [hshape]
  refine within_accept_any (fun _ => Within.pure _) ?_
  exact Within.bind_pure within_parseLiteral (fun _ => Within.pure _)

theorem within_parseAggregateFunction (func : String) : Within (parseAggregateFunction func) 1 := by
  refine Within.ite (fun _ => Within.pure _) (fun _ => ?_)
  refine Within.ite (fun _ => Within.pure _) (fun _ => ?_)
  exact Within.ite (fun _ => Within.pure _) (fun _ => Within.throw _ _)

theorem oneToken_isAggregate :
    oneToken isAggregate = keyword "SUM" + keyword "COUNT" + keyword "AVG" := by
  ext w
  constructor
  · rintro ⟨t, ht, rfl⟩
    simp only [isAggregate, Bool.or_eq_true, matchToken_iff (v := "SUM") (by simp),
      matchToken_iff (v := "COUNT") (by simp), matchToken_iff (v := "AVG") (by simp)] at ht
    rcases ht with (rfl | rfl) | rfl
    · exact .inl (.inl rfl)
    · exact .inl (.inr rfl)
    · exact .inr rfl
  · rintro ((rfl | rfl) | rfl)
    · exact ⟨_, by simp [isAggregate, matchToken], rfl⟩
    · exact ⟨_, by simp [isAggregate, matchToken], rfl⟩
    · exact ⟨_, by simp [isAggregate, matchToken], rfl⟩

theorem within_parseExpression : Within parseExpression (aggregate + value) := by
  unfold aggregate
  rw [← oneToken_isAggregate]
  simp only [mul_assoc]
  refine Within.takeIf_bind (fun func _ => ?_) within_parseValue
  refine Within.bind (within_expectPunctuation (by simp)) (fun _ => ?_)
  refine Within.bind within_parseIdentifier (fun column => ?_)
  refine Within.bind_pure (within_expectPunctuation (by simp)) (fun _ => ?_)
  exact Within.bind_pure (within_parseAggregateFunction _) (fun _ => Within.pure _)

/-- An operator the parser knows is one of the grammar, so a token it takes is a `<cmp_op>`. -/
theorem parseComparisonOperator_ok {v : String} {ts rest : List Lexeme} {op : ComparisonOperator}
    (h : parseComparisonOperator v ts = .ok op rest) : rest = ts ∧ [⟨.operator, v⟩] ∈ cmpOp := by
  unfold parseComparisonOperator at h
  split at h
  next hv => cases h; subst hv; exact ⟨rfl, .inl (.inl (.inl (.inl (.inl rfl))))⟩
  split at h
  next hv => cases h; subst hv; exact ⟨rfl, .inl (.inl (.inl (.inl (.inr rfl))))⟩
  split at h
  next hv => cases h; subst hv; exact ⟨rfl, .inl (.inl (.inl (.inr rfl)))⟩
  split at h
  next hv => cases h; subst hv; exact ⟨rfl, .inl (.inl (.inr rfl))⟩
  split at h
  next hv => cases h; subst hv; exact ⟨rfl, .inl (.inr rfl)⟩
  split at h
  next hv => cases h; subst hv; exact ⟨rfl, .inr rfl⟩
  cases h

theorem within_parsePredicateTail (v : Expression) :
    Within (parsePredicateTail v)
      (keyword "BETWEEN" * (value * (keyword "AND" * value)) +
        (keyword "LIKE" * stringLit + cmpOp * value)) := by
  refine within_acceptKeyword (by simp) ?_ (within_acceptKeyword (by simp) ?_ ?_)
  · refine Within.bind within_parseValue (fun _ => ?_)
    refine Within.bind (within_expectKeyword (by simp)) (fun _ => ?_)
    exact Within.bind_pure within_parseValue (fun _ => Within.pure _)
  · exact Within.bind_pure (within_expectAny _ _) (fun _ => Within.pure _)
  · refine Consumes.takeIf_bind ?_ Consumes.throw
    intro t ht
    refine Consumes.bind within_parseValue ?_
    -- The operator is only checked after the right operand has been read.
    intro right used hused ts b rest hrun
    obtain ⟨op, mid, hop, hb⟩ := Prog.bind_eq_ok.1 hrun
    obtain ⟨rfl, hmem⟩ := parseComparisonOperator_ok hop
    cases hb
    have htoken : t = ⟨.operator, t.value⟩ := by rw [← matchToken_any_iff.1 ht]
    refine ⟨[], rfl, ?_⟩
    show t :: (used ++ []) ∈ cmpOp * value
    rw [List.append_nil, htoken]
    exact Language.append_mem_mul hmem hused

/-- A value and what may follow it make a predicate without parentheses. -/
theorem value_mul_tail :
    value * (keyword "BETWEEN" * (value * (keyword "AND" * value)) +
      (keyword "LIKE" * stringLit + cmpOp * value)) = betweenPred + (likePred + comparison) := by
  simp only [mul_add, betweenPred, likePred, comparison, mul_assoc]

theorem within_parseAndCondition {p : Parser Condition} (hp : Consumes p (fun _ => Predicate)) :
    Consumes (parseAndCondition p) (fun _ => AndExpr) := by
  refine Consumes.bind hp ?_
  intro left used hused
  refine Consumes.loop (R := fun _ => AndExpr) (.operand hused) ?_
  intro left used t hleft ht
  rw [(matchToken_iff (by simp)).1 ht]
  refine Consumes.bind hp ?_
  intro right more hmore
  refine Consumes.pure ?_
  rw [List.append_nil]
  exact .and hleft hmore

theorem within_parseOrCondition {p : Parser Condition} (hp : Consumes p (fun _ => Predicate)) :
    Consumes (parseOrCondition p) (fun _ => OrExpr) := by
  refine Consumes.bind (within_parseAndCondition hp) ?_
  intro left used hused
  refine Consumes.loop (R := fun _ => OrExpr) (.operand hused) ?_
  intro left used t hleft ht
  rw [(matchToken_iff (by simp)).1 ht]
  refine Consumes.bind (within_parseAndCondition hp) ?_
  intro right more hmore
  refine Consumes.pure ?_
  rw [List.append_nil]
  exact .or hleft hmore

theorem within_parsePredicate (depth : Nat) :
    Consumes (parsePredicate depth) (fun _ => Predicate) := by
  induction depth with
  | zero => exact Consumes.throw
  | succ depth ih =>
      have h : Within (parsePredicate (depth + 1))
          (punctuation "(" * (condition * punctuation ")") +
            (betweenPred + (likePred + comparison))) := by
        refine within_acceptPunctuation (by simp) ?_ ?_
        · refine Within.bind (within_parseOrCondition ih) (fun _ => ?_)
          exact Within.bind_pure (within_expectPunctuation (by simp)) (fun _ => Within.pure _)
        · rw [← value_mul_tail]
          exact Within.bind within_parseValue within_parsePredicateTail
      refine Consumes.mono h ?_
      rintro _ used (hparen | hbetween | hlike | hcomparison)
      · obtain ⟨_, rfl, w, hw, rfl⟩ := Language.mem_mul.1 hparen
        obtain ⟨a, ha, _, rfl, rfl⟩ := Language.mem_mul.1 hw
        exact .parentheses ha
      · exact .between hbetween
      · exact .like hlike
      · exact .comparison hcomparison

theorem within_parseCondition : Within parseCondition condition :=
  Consumes.get_bind (fun _ => within_parseOrCondition (within_parsePredicate _))

/-! ## Statements -/

theorem oneToken_isColumnType : oneToken isColumnType = colType := by
  ext w
  constructor
  · rintro ⟨t, ht, rfl⟩
    simp only [isColumnType, Bool.or_eq_true, matchToken_iff (v := "INT") (by simp),
      matchToken_iff (v := "STRING") (by simp)] at ht
    rcases ht with rfl | rfl
    · exact .inl rfl
    · exact .inr rfl
  · rintro (rfl | rfl)
    · exact ⟨_, by simp [isColumnType, matchToken], rfl⟩
    · exact ⟨_, by simp [isColumnType, matchToken], rfl⟩

/-- `if (Match(keyword)) { Advance(); flag = true; }` -/
theorem within_flag {v : String} (hv : v ≠ "") : Within (acceptKeyword v) (opt (keyword v)) := by
  have h := within_acceptKeyword (f := fun flag => (pure flag : Parser Bool)) hv (Within.pure _)
    (Within.pure _)
  rw [mul_one, add_comm, bind_pure] at h
  exact h

theorem within_parseColumnDefinition : Within parseColumnDefinition colDef := by
  have hshape : colDef = identifier * (oneToken isColumnType * (opt (keyword "NOT_NULL") *
      (opt (keyword "INDEXED") * (keyword "DEFAULT" * literal + 1))) + 0) := by
    simp only [colDef, oneToken_isColumnType, opt, add_zero, mul_assoc,
      add_comm (1 : Language Lexeme) (_ * _)]
  rw [hshape]
  refine Within.bind within_parseIdentifier (fun _ => ?_)
  refine Within.takeIf_bind (fun _ _ => ?_) (Within.throw _ _)
  refine Within.bind (within_flag (by simp)) (fun _ => ?_)
  refine Within.bind (within_flag (by simp)) (fun _ => ?_)
  refine within_acceptKeyword (by simp) ?_ (Within.pure _)
  exact Within.bind_pure within_parseLiteral (fun _ => Within.pure _)

theorem within_parseCreateStatement :
    Within parseCreateStatement (createDb + (createUser + createTable)) := by
  have hshape : createDb + (createUser + createTable) = keyword "CREATE" *
      (keyword "DATABASE" * identifier + (keyword "USER" * (identifier * (keyword "PASSWORD" *
        stringLit)) + (keyword "TABLE" * (tableRef * (punctuation "(" * (commaList colDef *
        punctuation ")"))) + 0))) := by
    simp only [createDb, createUser, createTable, mul_add, mul_assoc, add_zero]
  rw [hshape]
  refine Within.bind (within_expectKeyword (by simp)) (fun _ => ?_)
  refine within_acceptKeyword (by simp) ?_ (within_acceptKeyword (by simp) ?_
    (within_acceptKeyword (by simp) ?_ (Within.throw _ _)))
  · exact Within.bind_pure within_parseIdentifier (fun _ => Within.pure _)
  · refine Within.bind within_parseIdentifier (fun _ => ?_)
    refine Within.bind (within_expectKeyword (by simp)) (fun _ => ?_)
    exact Within.bind_pure (within_expectAny _ _) (fun _ => Within.pure _)
  · refine Within.bind within_parseTableRef (fun _ => ?_)
    refine Within.bind (within_expectPunctuation (by simp)) (fun _ => ?_)
    refine Within.bind (within_commaSeparated within_parseColumnDefinition) (fun _ => ?_)
    exact Within.bind_pure (within_expectPunctuation (by simp)) (fun _ => Within.pure _)

theorem within_parseGrantStatement : Within parseGrantStatement grantStmt := by
  unfold grantStmt
  simp only [mul_assoc]
  refine Within.bind (within_expectKeyword (by simp)) (fun _ => ?_)
  refine Within.bind within_parsePermissions (fun _ => ?_)
  refine Within.bind (within_expectKeyword (by simp)) (fun _ => ?_)
  refine Within.bind within_parseAccessScope (fun _ => ?_)
  refine Within.bind (within_expectKeyword (by simp)) (fun _ => ?_)
  exact Within.bind_pure within_parseIdentifier (fun _ => Within.pure _)

theorem within_parseRevokeStatement : Within parseRevokeStatement revokeStmt := by
  unfold revokeStmt
  simp only [mul_assoc]
  refine Within.bind (within_expectKeyword (by simp)) (fun _ => ?_)
  refine Within.bind within_parsePermissions (fun _ => ?_)
  refine Within.bind (within_expectKeyword (by simp)) (fun _ => ?_)
  refine Within.bind within_parseAccessScope (fun _ => ?_)
  refine Within.bind (within_expectKeyword (by simp)) (fun _ => ?_)
  exact Within.bind_pure within_parseIdentifier (fun _ => Within.pure _)

theorem within_parseDropStatement : Within parseDropStatement (dropDb + dropTable) := by
  have hshape : dropDb + dropTable = keyword "DROP" *
      (keyword "DATABASE" * identifier + (keyword "TABLE" * tableRef + 0)) := by
    simp only [dropDb, dropTable, mul_add, mul_assoc, add_zero]
  rw [hshape]
  refine Within.bind (within_expectKeyword (by simp)) (fun _ => ?_)
  refine within_acceptKeyword (by simp) ?_ (within_acceptKeyword (by simp) ?_ (Within.throw _ _))
  · exact Within.bind_pure within_parseIdentifier (fun _ => Within.pure _)
  · exact Within.bind_pure within_parseTableRef (fun _ => Within.pure _)

theorem within_parseUseStatement : Within parseUseStatement useDb := by
  refine Within.bind (within_expectKeyword (by simp)) (fun _ => ?_)
  exact Within.bind_pure within_parseIdentifier (fun _ => Within.pure _)

theorem within_parseRevertStatement : Within parseRevertStatement revertStmt := by
  unfold revertStmt
  rw [mul_assoc]
  refine Within.bind (within_expectKeyword (by simp)) (fun _ => ?_)
  refine Within.bind within_parseTableRef (fun _ => ?_)
  exact Within.bind_pure within_parseTimestamp (fun _ => Within.pure _)

/-- The body of the `VALUE` loop takes a comma before any row. -/
theorem within_parseRow : Within parseRow (opt (punctuation ",") * rowValues) := by
  have hshape : opt (punctuation ",") * rowValues =
      punctuation "," * rowValues + rowValues := by
    rw [opt, add_mul, one_mul, add_comm]
  have hrow : Within (do
      let _ ← expectPunctuation "("
      let row ← commaSeparated parseLiteral
      let _ ← expectPunctuation ")"
      return row) rowValues := by
    unfold rowValues
    rw [mul_assoc]
    refine Within.bind (within_expectPunctuation (by simp)) (fun _ => ?_)
    refine Within.bind (within_commaSeparated within_parseLiteral) (fun _ => ?_)
    exact Within.bind_pure (within_expectPunctuation (by simp)) (fun _ => Within.pure _)
  rw [hshape]
  exact within_acceptPunctuation (by simp) hrow hrow

theorem head?_of_mem_rowValues {w : List Lexeme} (h : w ∈ rowValues) :
    w.head? = some ⟨.punctuation, "("⟩ := by
  rw [rowValues, mul_assoc] at h
  obtain ⟨_, rfl, _, -, rfl⟩ := Language.mem_mul.1 h
  rfl

theorem head?_of_mem_commaList_rowValues {w : List Lexeme} (h : w ∈ commaList rowValues) :
    w.head? = some ⟨.punctuation, "("⟩ := by
  obtain ⟨u, hu, v, -, rfl⟩ := Language.mem_mul.1 h
  rw [List.head?_append, head?_of_mem_rowValues hu]
  rfl

/-- Only the first round can take a comma that the loop condition has not seen. -/
theorem within_parseRows (rounds : Nat) : ∀ values,
    Within (parseRows rounds values) (opt (punctuation ",") * commaList rowValues) := by
  induction rounds with
  | zero => exact fun _ => Within.throw _ _
  | succ rounds ih =>
      intro values
      refine Consumes.bind within_parseRow ?_
      intro row used hused ts out rest hrun
      obtain ⟨lead, hlead, w, hw, rfl⟩ := Language.mem_mul.1 hused
      change (if ts.head?.any (matchToken .punctuation ",") = true
        then parseRows rounds (values ++ [row])
        else pure (values ++ [row])) ts = .ok out rest at hrun
      split at hrun
      next hcomma =>
        obtain ⟨more, rfl, hmore⟩ := ih _ ts out rest hrun
        refine ⟨more, rfl, ?_⟩
        obtain ⟨lead', hlead', w', hw', rfl⟩ := Language.mem_mul.1 hmore
        rcases hlead' with rfl | rfl
        · -- Without a comma the next row would start here with its parenthesis.
          rw [List.nil_append, List.head?_append, head?_of_mem_commaList_rowValues hw'] at hcomma
          simp [matchToken] at hcomma
        · rw [List.append_assoc]
          exact Language.append_mem_mul hlead (cons_mem_separatedBy hw rfl hw')
      next hcomma =>
        cases hrun
        refine ⟨[], rfl, ?_⟩
        show lead ++ w ++ [] ∈ _
        rw [List.append_nil]
        exact Language.append_mem_mul hlead (mem_separatedBy_of_mem hw)

theorem within_parseInsertStatement :
    Within parseInsertStatement (insertStmtOf (opt (punctuation ","))) := by
  unfold insertStmtOf insertHead
  rw [mul_assoc _ (opt (punctuation ",")) (commaList rowValues)]
  simp only [mul_assoc _ _ (opt (punctuation ",") * commaList rowValues)]
  simp only [mul_assoc]
  refine Within.bind (within_expectKeyword (by simp)) (fun _ => ?_)
  refine Within.bind (within_expectKeyword (by simp)) (fun _ => ?_)
  refine Within.bind within_parseTableRef (fun _ => ?_)
  refine Within.bind (within_expectPunctuation (by simp)) (fun _ => ?_)
  refine Within.bind (within_commaSeparated within_parseIdentifier) (fun _ => ?_)
  refine Within.bind (within_expectPunctuation (by simp)) (fun _ => ?_)
  refine Within.bind (within_expectKeyword (by simp)) (fun _ => ?_)
  refine Consumes.get_bind (fun _ => ?_)
  exact Within.bind_pure (within_parseRows _ _) (fun _ => Within.pure _)

theorem within_parseAssignment : Within parseAssignment assignment := by
  unfold assignment
  rw [mul_assoc, ← oneToken_terminal (by simp)]
  refine Within.bind within_parseIdentifier (fun _ => ?_)
  refine Within.bind (within_expect _ _ _) (fun _ => ?_)
  exact Within.bind_pure within_parseValue (fun _ => Within.pure _)

theorem within_parseUpdateStatement : Within parseUpdateStatement updateStmt := by
  unfold updateStmt
  simp only [mul_assoc]
  refine Within.bind (within_expectKeyword (by simp)) (fun _ => ?_)
  refine Within.bind within_parseTableRef (fun _ => ?_)
  refine Within.bind (within_expectKeyword (by simp)) (fun _ => ?_)
  refine Within.bind (within_commaSeparated within_parseAssignment) (fun _ => ?_)
  refine Within.bind (within_expectKeyword (by simp)) (fun _ => ?_)
  exact Within.bind_pure within_parseCondition (fun _ => Within.pure _)

theorem within_parseDeleteStatement : Within parseDeleteStatement deleteStmt := by
  unfold deleteStmt
  simp only [mul_assoc]
  refine Within.bind (within_expectKeyword (by simp)) (fun _ => ?_)
  refine Within.bind (within_expectKeyword (by simp)) (fun _ => ?_)
  refine Within.bind within_parseTableRef (fun _ => ?_)
  refine Within.bind (within_expectKeyword (by simp)) (fun _ => ?_)
  exact Within.bind_pure within_parseCondition (fun _ => Within.pure _)

theorem within_parseSelectItem : Within parseSelectItem (selectItemOf value) := by
  unfold selectItemOf
  rw [opt, add_comm 1]
  refine Within.bind within_parseExpression (fun _ => ?_)
  refine within_acceptKeyword (by simp) ?_ (Within.pure _)
  exact Within.bind_pure within_parseIdentifier (fun _ => Within.pure _)

theorem within_parseSelectList : Within parseSelectList (selectListOf value) := by
  have hshape : selectListOf value =
      terminal .operator "*" * 1 + commaList (selectItemOf value) := by
    rw [mul_one, selectListOf]
  rw [hshape]
  refine within_accept (by simp) (fun _ => Within.pure _) ?_
  exact Within.bind_pure (within_commaSeparated within_parseSelectItem) (fun _ => Within.pure _)

theorem within_parseWhereClause : Within parseWhereClause (opt (keyword "WHERE" * condition)) := by
  rw [opt, add_comm]
  refine within_acceptKeyword (by simp) ?_ (Within.pure _)
  exact Within.bind_pure within_parseCondition (fun _ => Within.pure _)

theorem within_parseSelectStatement : Within parseSelectStatement (selectStmtOf value) := by
  unfold selectStmtOf
  simp only [mul_assoc]
  refine Within.bind (within_expectKeyword (by simp)) (fun _ => ?_)
  refine Within.bind within_parseSelectList (fun _ => ?_)
  refine Within.bind (within_expectKeyword (by simp)) (fun _ => ?_)
  refine Within.bind within_parseTableRef (fun _ => ?_)
  exact Within.bind_pure within_parseWhereClause (fun _ => Within.pure _)

/-- The statements the parser takes, without the final `";"`. -/
theorem within_parseByKeyword (v : String) :
    Within (parseByKeyword v) (dbStmt + ddlStmt + (insertStmtOf (opt (punctuation ",")) +
      updateStmt + deleteStmt + selectStmtOf value) + accessStmt) := by
  refine Within.ite (fun _ => Within.mono within_parseCreateStatement ?_) (fun _ => ?_)
  · rintro w (h | h | h)
    · exact .inl (.inl (.inl (.inl (.inl (.inl h)))))
    · exact .inr (.inl (.inl h))
    · exact .inl (.inl (.inr (.inl h)))
  refine Within.ite (fun _ => Within.mono within_parseDropStatement ?_) (fun _ => ?_)
  · rintro w (h | h)
    · exact .inl (.inl (.inl (.inl (.inl (.inr h)))))
    · exact .inl (.inl (.inr (.inr h)))
  refine Within.ite (fun _ => Within.mono within_parseUseStatement ?_) (fun _ => ?_)
  · exact fun w h => .inl (.inl (.inl (.inl (.inr h))))
  refine Within.ite (fun _ => Within.mono within_parseGrantStatement ?_) (fun _ => ?_)
  · exact fun w h => .inr (.inl (.inr h))
  refine Within.ite (fun _ => Within.mono within_parseRevokeStatement ?_) (fun _ => ?_)
  · exact fun w h => .inr (.inr h)
  refine Within.ite (fun _ => Within.mono within_parseRevertStatement ?_) (fun _ => ?_)
  · exact fun w h => .inl (.inl (.inl (.inr h)))
  refine Within.ite (fun _ => Within.mono within_parseInsertStatement ?_) (fun _ => ?_)
  · exact fun w h => .inl (.inr (.inl (.inl (.inl h))))
  refine Within.ite (fun _ => Within.mono within_parseUpdateStatement ?_) (fun _ => ?_)
  · exact fun w h => .inl (.inr (.inl (.inl (.inr h))))
  refine Within.ite (fun _ => Within.mono within_parseDeleteStatement ?_) (fun _ => ?_)
  · exact fun w h => .inl (.inr (.inl (.inr h)))
  refine Within.ite (fun _ => Within.mono within_parseSelectStatement ?_)
    (fun _ => Within.throw _ _)
  exact fun w h => .inl (.inr (.inr h))

end Parser

end QuasarDB.Server
