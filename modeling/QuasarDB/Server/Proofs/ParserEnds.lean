import QuasarDB.Server.Proofs.ParserSound

set_option autoImplicit false

/-! # The parser ends on every token list

The bounds on the rounds of loops and on the depth of parentheses are never reached, so the model
accepts and refuses exactly what the source does; where it refuses, it throws an exception. -/

namespace QuasarDB.Server

namespace Parser

open TokenReader Grammar

variable {n : Nat}

/-! ## Tokens -/

theorem ends_refuse {α : Type} (what : Lexeme → String) :
    Ends n (do throw (.exception (what (← peek))) : Parser α) := by
  intro ts _ e rest h
  rw [Prog.bind_ok (peek_run ts)] at h
  cases h
  exact ⟨_, rfl⟩

theorem ends_expect (type : TokenType) (v : String) (what : Lexeme → String) :
    Ends n (expect type v what) :=
  Ends.takeIf_bind (fun _ => Ends.pure) (ends_refuse what)

theorem ends_parseIdentifier : Ends n parseIdentifier := ends_expect _ _ _

section Accept

variable {α : Type} {v : String} {f : Bool → Parser α}

theorem ends_acceptKeyword (hyes : Ends (n - 1) (f true)) (hno : Ends n (f false)) :
    Ends n (acceptKeyword v >>= f) := by
  rw [acceptKeyword, bind_assoc]
  exact Ends.takeIf_bind (fun _ => hyes) hno

theorem ends_acceptPunctuation (hyes : Ends (n - 1) (f true)) (hno : Ends n (f false)) :
    Ends n (acceptPunctuation v >>= f) := by
  rw [acceptPunctuation, bind_assoc]
  exact Ends.takeIf_bind (fun _ => hyes) hno

end Accept

theorem ends_commaSeparated {α : Type} {item : Parser α} {A : Language Lexeme}
    (hend : Ends n item) (hitem : Within item A) : Ends n (commaSeparated item) := by
  refine Ends.bind hend hitem (fun first => ?_)
  refine Ends.loop (R := fun _ => True) ?_ ?_ [first]
  · intro items
    exact Consumes.bind hitem (fun _ _ _ => Consumes.pure trivial)
  · intro items
    exact Ends.bind hend hitem (fun _ => Ends.pure)

/-! ## Names, scopes and timestamps -/

theorem ends_parseTableRef : Ends n parseTableRef := by
  refine Ends.bind ends_parseIdentifier within_parseIdentifier (fun _ => ?_)
  refine ends_acceptPunctuation ?_ Ends.pure
  exact Ends.bind ends_parseIdentifier within_parseIdentifier (fun _ => Ends.pure)

theorem ends_parseScopePart : Ends n parseScopePart :=
  Ends.takeIf_bind (fun _ => Ends.pure) ends_parseIdentifier

theorem ends_parseAccessScope : Ends n parseAccessScope := by
  refine Ends.bind ends_parseScopePart within_parseScopePart (fun _ => ?_)
  refine ends_acceptPunctuation ?_ Ends.pure
  exact Ends.bind ends_parseScopePart within_parseScopePart (fun _ => Ends.pure)

theorem ends_parsePermissions : Ends n parsePermissions :=
  ends_commaSeparated (Ends.takeIf_bind (fun _ => Ends.pure) Ends.throw) within_parsePermission

theorem ends_parseTimestampPart (name : String) (count : Nat) :
    Ends n (parseTimestampPart name count) :=
  Ends.bind (ends_expect _ _ _) (within_expect _ _ _) (fun _ => Ends.ite Ends.throw Ends.pure)

theorem ends_parseTimestamp : Ends n parseTimestamp := by
  refine Ends.bind (ends_parseTimestampPart _ _) (within_parseTimestampPart _ _) (fun _ => ?_)
  refine Ends.bind (ends_expect _ _ _) (within_expect _ _ _) (fun _ => ?_)
  refine Ends.bind (ends_parseTimestampPart _ _) (within_parseTimestampPart _ _) (fun _ => ?_)
  refine Ends.bind (ends_expect _ _ _) (within_expect _ _ _) (fun _ => ?_)
  refine Ends.bind (ends_parseTimestampPart _ _) (within_parseTimestampPart _ _) (fun _ => ?_)
  refine Ends.bind (ends_expect _ _ _) (within_expect _ _ _) (fun _ => ?_)
  refine Ends.bind (ends_parseTimestampPart _ _) (within_parseTimestampPart _ _) (fun _ => ?_)
  refine Ends.bind (ends_expect _ _ _) (within_expect _ _ _) (fun _ => ?_)
  refine Ends.bind (ends_parseTimestampPart _ _) (within_parseTimestampPart _ _) (fun _ => ?_)
  refine Ends.bind (ends_expect _ _ _) (within_expect _ _ _) (fun _ => ?_)
  refine Ends.bind (ends_parseTimestampPart _ _) (within_parseTimestampPart _ _) (fun _ => ?_)
  refine Ends.bind (ends_expect _ _ _) (within_expect _ _ _) (fun _ => ?_)
  exact Ends.bind (ends_parseTimestampPart _ _) (within_parseTimestampPart _ _)
    (fun _ => Ends.pure)

/-! ## Expressions and conditions -/

theorem ends_parseLiteral : Ends n parseLiteral := by
  refine Ends.takeIf_bind (fun _ => Ends.pure) ?_
  refine Ends.takeIf_bind (fun _ => Ends.pure) ?_
  exact Ends.takeIf_bind (fun _ => Ends.pure) (ends_refuse _)

theorem ends_parseValue : Ends n parseValue :=
  Ends.takeIf_bind (fun _ => Ends.pure)
    (Ends.bind ends_parseLiteral within_parseLiteral (fun _ => Ends.pure))

theorem ends_parseAggregateFunction (func : String) : Ends n (parseAggregateFunction func) :=
  Ends.ite Ends.pure (Ends.ite Ends.pure (Ends.ite Ends.pure Ends.throw))

theorem ends_parseExpression : Ends n parseExpression := by
  refine Ends.takeIf_bind (fun _ => ?_) ends_parseValue
  refine Ends.bind (ends_expect _ _ _) (within_expect _ _ _) (fun _ => ?_)
  refine Ends.bind ends_parseIdentifier within_parseIdentifier (fun _ => ?_)
  refine Ends.bind (ends_expect _ _ _) (within_expect _ _ _) (fun _ => ?_)
  exact Ends.bind (ends_parseAggregateFunction _) (within_parseAggregateFunction _)
    (fun _ => Ends.pure)

theorem ends_parseComparisonOperator (op : String) : Ends n (parseComparisonOperator op) :=
  Ends.ite Ends.pure (Ends.ite Ends.pure (Ends.ite Ends.pure (Ends.ite Ends.pure
    (Ends.ite Ends.pure (Ends.ite Ends.pure Ends.throw)))))

theorem consumes_parseComparisonOperator (op : String) :
    Consumes (parseComparisonOperator op) (fun _ _ => True) := by
  intro ts a rest h
  obtain ⟨rfl, -⟩ := parseComparisonOperator_ok h
  exact ⟨[], rfl, trivial⟩

theorem ends_parsePredicateTail (v : Expression) : Ends n (parsePredicateTail v) := by
  refine ends_acceptKeyword ?_ (ends_acceptKeyword ?_ (Ends.takeIf_bind (fun _ => ?_) Ends.throw))
  · refine Ends.bind ends_parseValue within_parseValue (fun _ => ?_)
    refine Ends.bind (ends_expect _ _ _) (within_expect _ _ _) (fun _ => ?_)
    exact Ends.bind ends_parseValue within_parseValue (fun _ => Ends.pure)
  · exact Ends.bind (ends_expect _ _ _) (within_expect _ _ _) (fun _ => Ends.pure)
  · refine Ends.bind ends_parseValue within_parseValue (fun _ => ?_)
    exact Ends.bind (ends_parseComparisonOperator _) (consumes_parseComparisonOperator _)
      (fun _ => Ends.pure)

theorem ends_parseAndCondition {p : Parser Condition} (hend : Ends n p)
    (hp : Consumes p (fun _ => Predicate)) : Ends n (parseAndCondition p) := by
  refine Ends.bind hend hp (fun left => ?_)
  refine Ends.loop (R := fun _ => True) ?_ ?_ left
  · exact fun _ => Consumes.bind hp (fun _ _ _ => Consumes.pure trivial)
  · exact fun _ => Ends.bind hend hp (fun _ => Ends.pure)

theorem ends_parseOrCondition {p : Parser Condition} (hend : Ends n p)
    (hp : Consumes p (fun _ => Predicate)) : Ends n (parseOrCondition p) := by
  have hand := ends_parseAndCondition hend hp
  refine Ends.bind hand (within_parseAndCondition hp) (fun left => ?_)
  refine Ends.loop (R := fun _ => True) ?_ ?_ left
  · exact fun _ => Consumes.bind (within_parseAndCondition hp) (fun _ _ _ => Consumes.pure trivial)
  · exact fun _ => Ends.bind hand (within_parseAndCondition hp) (fun _ => Ends.pure)

/-- A parenthesis takes a token, so the depth never exceeds the number of tokens. -/
theorem ends_parsePredicate (depth : Nat) : Ends depth (parsePredicate (depth + 1)) := by
  induction depth with
  | zero =>
      intro ts hts e rest h
      have hnil : ts = [] := List.length_eq_zero_iff.1 (Nat.le_zero.1 hts)
      subst hnil
      have hvalue : Ends 0 (parseValue >>= parsePredicateTail) :=
        Ends.bind ends_parseValue within_parseValue ends_parsePredicateTail
      exact hvalue [] hts e rest h
  | succ depth ih =>
      refine ends_acceptPunctuation ?_ ?_
      · refine Ends.bind (ends_parseOrCondition ih (within_parsePredicate _))
          (within_parseOrCondition (within_parsePredicate _)) (fun _ => ?_)
        exact Ends.bind (ends_expect _ _ _) (within_expect _ _ _) (fun _ => Ends.pure)
      · exact Ends.bind ends_parseValue within_parseValue ends_parsePredicateTail

theorem ends_parseCondition : Ends n parseCondition := by
  intro ts _ e rest h
  exact ends_parseOrCondition (ends_parsePredicate ts.length) (within_parsePredicate _) ts le_rfl
    e rest h

/-! ## Statements -/

theorem ends_flag (v : String) : Ends n (acceptKeyword v) :=
  Ends.takeIf_bind (fun _ => Ends.pure) Ends.pure

theorem ends_parseColumnDefinition : Ends n parseColumnDefinition := by
  refine Ends.bind ends_parseIdentifier within_parseIdentifier (fun _ => ?_)
  refine Ends.takeIf_bind (fun _ => ?_) Ends.throw
  refine Ends.bind (ends_flag _) (within_flag (by simp)) (fun _ => ?_)
  refine Ends.bind (ends_flag _) (within_flag (by simp)) (fun _ => ?_)
  refine ends_acceptKeyword ?_ Ends.pure
  exact Ends.bind ends_parseLiteral within_parseLiteral (fun _ => Ends.pure)

theorem ends_parseCreateStatement : Ends n parseCreateStatement := by
  refine Ends.bind (ends_expect _ _ _) (within_expect _ _ _) (fun _ => ?_)
  refine ends_acceptKeyword ?_ (ends_acceptKeyword ?_ (ends_acceptKeyword ?_ Ends.throw))
  · exact Ends.bind ends_parseIdentifier within_parseIdentifier (fun _ => Ends.pure)
  · refine Ends.bind ends_parseIdentifier within_parseIdentifier (fun _ => ?_)
    refine Ends.bind (ends_expect _ _ _) (within_expect _ _ _) (fun _ => ?_)
    exact Ends.bind (ends_expect _ _ _) (within_expect _ _ _) (fun _ => Ends.pure)
  · refine Ends.bind ends_parseTableRef within_parseTableRef (fun _ => ?_)
    refine Ends.bind (ends_expect _ _ _) (within_expect _ _ _) (fun _ => ?_)
    refine Ends.bind (ends_commaSeparated ends_parseColumnDefinition within_parseColumnDefinition)
      (within_commaSeparated within_parseColumnDefinition) (fun _ => ?_)
    exact Ends.bind (ends_expect _ _ _) (within_expect _ _ _) (fun _ => Ends.pure)

theorem ends_parseGrantStatement : Ends n parseGrantStatement := by
  refine Ends.bind (ends_expect _ _ _) (within_expect _ _ _) (fun _ => ?_)
  refine Ends.bind ends_parsePermissions within_parsePermissions (fun _ => ?_)
  refine Ends.bind (ends_expect _ _ _) (within_expect _ _ _) (fun _ => ?_)
  refine Ends.bind ends_parseAccessScope within_parseAccessScope (fun _ => ?_)
  refine Ends.bind (ends_expect _ _ _) (within_expect _ _ _) (fun _ => ?_)
  exact Ends.bind ends_parseIdentifier within_parseIdentifier (fun _ => Ends.pure)

theorem ends_parseRevokeStatement : Ends n parseRevokeStatement := by
  refine Ends.bind (ends_expect _ _ _) (within_expect _ _ _) (fun _ => ?_)
  refine Ends.bind ends_parsePermissions within_parsePermissions (fun _ => ?_)
  refine Ends.bind (ends_expect _ _ _) (within_expect _ _ _) (fun _ => ?_)
  refine Ends.bind ends_parseAccessScope within_parseAccessScope (fun _ => ?_)
  refine Ends.bind (ends_expect _ _ _) (within_expect _ _ _) (fun _ => ?_)
  exact Ends.bind ends_parseIdentifier within_parseIdentifier (fun _ => Ends.pure)

theorem ends_parseDropStatement : Ends n parseDropStatement := by
  refine Ends.bind (ends_expect _ _ _) (within_expect _ _ _) (fun _ => ?_)
  refine ends_acceptKeyword ?_ (ends_acceptKeyword ?_ Ends.throw)
  · exact Ends.bind ends_parseIdentifier within_parseIdentifier (fun _ => Ends.pure)
  · exact Ends.bind ends_parseTableRef within_parseTableRef (fun _ => Ends.pure)

theorem ends_parseUseStatement : Ends n parseUseStatement := by
  refine Ends.bind (ends_expect _ _ _) (within_expect _ _ _) (fun _ => ?_)
  exact Ends.bind ends_parseIdentifier within_parseIdentifier (fun _ => Ends.pure)

theorem ends_parseRevertStatement : Ends n parseRevertStatement := by
  refine Ends.bind (ends_expect _ _ _) (within_expect _ _ _) (fun _ => ?_)
  refine Ends.bind ends_parseTableRef within_parseTableRef (fun _ => ?_)
  exact Ends.bind ends_parseTimestamp within_parseTimestamp (fun _ => Ends.pure)

theorem ends_parseRow : Ends n parseRow := by
  have hrow : ∀ {m}, Ends m (do
      let _ ← expectPunctuation "("
      let row ← commaSeparated parseLiteral
      let _ ← expectPunctuation ")"
      return row) := by
    intro m
    refine Ends.bind (ends_expect _ _ _) (within_expect _ _ _) (fun _ => ?_)
    refine Ends.bind (ends_commaSeparated ends_parseLiteral within_parseLiteral)
      (within_commaSeparated within_parseLiteral) (fun _ => ?_)
    exact Ends.bind (ends_expect _ _ _) (within_expect _ _ _) (fun _ => Ends.pure)
  exact ends_acceptPunctuation hrow hrow

/-- A row takes a token. -/
theorem parseRow_length_lt {ts rest : List Lexeme} {row : List Literal}
    (h : parseRow ts = .ok row rest) : rest.length < ts.length := by
  obtain ⟨used, rfl, hused⟩ := within_parseRow ts row rest h
  obtain ⟨lead, -, w, hw, rfl⟩ := Language.mem_mul.1 hused
  have hne : w ≠ [] := by
    rintro rfl
    have := head?_of_mem_rowValues hw
    simp at this
  have := List.length_pos_of_ne_nil hne
  simp only [List.length_append]
  omega

theorem ends_parseRows (rounds : Nat) : ∀ (values : List (List Literal)) (ts : List Lexeme),
    ts.length < rounds → ∀ e rest, parseRows rounds values ts = .error e rest →
      ∃ what, e = .exception what := by
  induction rounds with
  | zero => exact fun values ts h => absurd h (Nat.not_lt_zero _)
  | succ rounds ih =>
      intro values ts hts e rest h
      unfold parseRows at h
      cases hrow : parseRow ts with
      | ok row mid =>
          rw [Prog.bind_ok hrow] at h
          change (if mid.head?.any (matchToken .punctuation ",") = true
            then parseRows rounds (values ++ [row])
            else pure (values ++ [row])) mid = _ at h
          split at h
          · have := parseRow_length_lt hrow
            exact ih _ mid (by omega) e rest h
          · cases h
      | error failure mid =>
          rw [Prog.bind_error hrow] at h
          cases h
          exact ends_parseRow ts le_rfl _ _ hrow

theorem ends_parseInsertStatement : Ends n parseInsertStatement := by
  refine Ends.bind (ends_expect _ _ _) (within_expect _ _ _) (fun _ => ?_)
  refine Ends.bind (ends_expect _ _ _) (within_expect _ _ _) (fun _ => ?_)
  refine Ends.bind ends_parseTableRef within_parseTableRef (fun _ => ?_)
  refine Ends.bind (ends_expect _ _ _) (within_expect _ _ _) (fun _ => ?_)
  refine Ends.bind (ends_commaSeparated ends_parseIdentifier within_parseIdentifier)
    (within_commaSeparated within_parseIdentifier) (fun columns => ?_)
  refine Ends.bind (ends_expect _ _ _) (within_expect _ _ _) (fun _ => ?_)
  refine Ends.bind (ends_expect _ _ _) (within_expect _ _ _) (fun _ => ?_)
  intro ts _ e rest h
  rw [Prog.run_get_bind] at h
  cases hrows : parseRows (ts.length + 1) [] ts with
  | ok rows mid =>
      rw [Prog.bind_ok hrows] at h
      cases h
  | error failure mid =>
      rw [Prog.bind_error hrows] at h
      cases h
      exact ends_parseRows _ _ ts (Nat.lt_succ_self _) _ _ hrows

theorem ends_parseAssignment : Ends n parseAssignment := by
  refine Ends.bind ends_parseIdentifier within_parseIdentifier (fun _ => ?_)
  refine Ends.bind (ends_expect _ _ _) (within_expect _ _ _) (fun _ => ?_)
  exact Ends.bind ends_parseValue within_parseValue (fun _ => Ends.pure)

theorem ends_parseUpdateStatement : Ends n parseUpdateStatement := by
  refine Ends.bind (ends_expect _ _ _) (within_expect _ _ _) (fun _ => ?_)
  refine Ends.bind ends_parseTableRef within_parseTableRef (fun _ => ?_)
  refine Ends.bind (ends_expect _ _ _) (within_expect _ _ _) (fun _ => ?_)
  refine Ends.bind (ends_commaSeparated ends_parseAssignment within_parseAssignment)
    (within_commaSeparated within_parseAssignment) (fun _ => ?_)
  refine Ends.bind (ends_expect _ _ _) (within_expect _ _ _) (fun _ => ?_)
  exact Ends.bind ends_parseCondition within_parseCondition (fun _ => Ends.pure)

theorem ends_parseDeleteStatement : Ends n parseDeleteStatement := by
  refine Ends.bind (ends_expect _ _ _) (within_expect _ _ _) (fun _ => ?_)
  refine Ends.bind (ends_expect _ _ _) (within_expect _ _ _) (fun _ => ?_)
  refine Ends.bind ends_parseTableRef within_parseTableRef (fun _ => ?_)
  refine Ends.bind (ends_expect _ _ _) (within_expect _ _ _) (fun _ => ?_)
  exact Ends.bind ends_parseCondition within_parseCondition (fun _ => Ends.pure)

theorem ends_parseSelectItem : Ends n parseSelectItem := by
  refine Ends.bind ends_parseExpression within_parseExpression (fun _ => ?_)
  refine ends_acceptKeyword ?_ Ends.pure
  exact Ends.bind ends_parseIdentifier within_parseIdentifier (fun _ => Ends.pure)

theorem ends_parseSelectStatement : Ends n parseSelectStatement := by
  refine Ends.bind (ends_expect _ _ _) (within_expect _ _ _) (fun _ => ?_)
  refine Ends.bind (Ends.takeIf_bind (fun _ => Ends.pure) ?_) within_parseSelectList (fun _ => ?_)
  · exact Ends.bind (ends_commaSeparated ends_parseSelectItem within_parseSelectItem)
      (within_commaSeparated within_parseSelectItem) (fun _ => Ends.pure)
  refine Ends.bind (ends_expect _ _ _) (within_expect _ _ _) (fun _ => ?_)
  refine Ends.bind ends_parseTableRef within_parseTableRef (fun _ => ?_)
  refine Ends.bind (ends_acceptKeyword ?_ Ends.pure) within_parseWhereClause (fun _ => Ends.pure)
  exact Ends.bind ends_parseCondition within_parseCondition (fun _ => Ends.pure)

theorem ends_parseByKeyword (v : String) : Ends n (parseByKeyword v) := by
  refine Ends.ite ends_parseCreateStatement (Ends.ite ends_parseDropStatement ?_)
  refine Ends.ite ends_parseUseStatement (Ends.ite ends_parseGrantStatement ?_)
  refine Ends.ite ends_parseRevokeStatement (Ends.ite ends_parseRevertStatement ?_)
  refine Ends.ite ends_parseInsertStatement (Ends.ite ends_parseUpdateStatement ?_)
  exact Ends.ite ends_parseDeleteStatement (Ends.ite ends_parseSelectStatement Ends.throw)

theorem ends_parseEnd (stmt : Statement) : Ends n (parseEnd stmt) := by
  intro ts _ e rest h
  cases haccept : acceptPunctuation ";" ts with
  | ok semicolon mid =>
      rw [parseEnd_run haccept] at h
      split at h
      · cases h
      · cases h
        exact ⟨_, rfl⟩
  | error failure mid =>
      have hend : Ends ts.length (acceptPunctuation ";") :=
        Ends.takeIf_bind (fun _ => Ends.pure) Ends.pure
      unfold parseEnd at h
      rw [Prog.bind_error haccept] at h
      cases h
      exact hend ts le_rfl _ _ haccept

theorem ends_parseStatement : Ends n parseStatement := by
  intro ts hts e rest h
  rw [parseStatement_run] at h
  split at h
  · cases h
    exact ⟨_, rfl⟩
  · split at h
    · cases h
      exact ⟨_, rfl⟩
    · exact Ends.bind (ends_parseByKeyword _) (within_parseByKeyword _) ends_parseEnd ts hts e rest h

end Parser

/-- What the parser refuses, it refuses with an exception. -/
theorem parse_error {tokens : List Token} {failure : Failure} (h : parse tokens = .error failure) :
    ∃ what, failure = .exception what := by
  unfold parse at h
  cases hrun : Parser.parseStatement (tokens.map Token.toLexeme) with
  | ok s rest => simp [hrun] at h
  | error e rest =>
      simp only [hrun, Except.error.injEq] at h
      subst h
      exact Parser.ends_parseStatement _ le_rfl _ rest hrun

/-- Parsing does not run out of rounds. -/
theorem parse_ne_endless (tokens : List Token) : parse tokens ≠ .error .endless := by
  intro h
  obtain ⟨what, hwhat⟩ := parse_error h
  cases hwhat

end QuasarDB.Server
