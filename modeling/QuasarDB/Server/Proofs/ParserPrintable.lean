import QuasarDB.Server.Proofs.LexerSpells
import QuasarDB.Server.Parser
import Mathlib.Data.List.TakeWhile

set_option autoImplicit false

/-! # What the parser can produce

A statement that is parsed from a text is one the syntax can express, except that a `SELECT` item may
also be a literal. So its names have no dot, its lists are not empty, and an integer literal is a
sequence of digits. -/

namespace QuasarDB.Server

/-! ## Tokens of a text -/

/-- What the lexer guarantees of the tokens that carry a value. -/
def Lexeme.Lexed (t : Lexeme) : Prop :=
  match t.type with
  | .identifier => IsIdentifier t.value
  | .stringLiteral => NoQuote t.value
  | .integerLiteral => IsDigits t.value
  | _ => True

namespace Lexer

theorem scanWhile_fst (p : Char → Bool) (cs : List Char) :
    ∀ lexer, (scanWhile p cs lexer).1 = cs.takeWhile p := by
  induction cs with
  | nil => exact fun _ => rfl
  | cons c cs ih =>
      intro lexer
      rw [scanWhile, List.takeWhile_cons]
      split
      · rw [← ih (advance c cs lexer)]
      · rfl

theorem lexed_scanStringLiteral (c : Char) (rest : List Char) (start : Lexer) :
    (scanStringLiteral c rest start).1.toLexeme.Lexed := by
  unfold scanStringLiteral
  dsimp only
  split
  · exact trivial
  · show NoQuote (String.ofList _)
    intro hquote
    rw [String.toList_ofList, scanWhile_fst] at hquote
    simpa using List.mem_takeWhile_imp hquote

theorem lexed_scanNumber {c : Char} {rest : List Char} {start : Lexer}
    (hrest : start.rest = c :: rest) (hc : isDigit c = true) :
    (scanNumber start).1.toLexeme.Lexed := by
  have hvalue : (scanWhile isDigit start.rest start).1 = c :: rest.takeWhile isDigit := by
    rw [scanWhile_fst, hrest, List.takeWhile_cons, if_pos hc]
  show IsDigits (String.ofList (scanWhile isDigit start.rest start).1)
  rw [hvalue]
  refine ⟨?_, ?_⟩
  · intro hempty
    have := congrArg String.toList hempty
    simp at this
  · intro d hd
    rw [String.toList_ofList] at hd
    rcases List.mem_cons.1 hd with rfl | hd
    · exact hc
    · exact List.mem_takeWhile_imp hd

theorem lexed_scanIdentifierOrKeyword {c : Char} {rest : List Char} {start : Lexer}
    (hrest : start.rest = c :: rest) (hc : isAlpha c = true ∨ c = '_') :
    (scanIdentifierOrKeyword start).1.toLexeme.Lexed := by
  have hword := isWordChar_of_isAlpha hc
  have hvalue : (scanWhile isWordChar start.rest start).1 = c :: rest.takeWhile isWordChar := by
    rw [scanWhile_fst, hrest, List.takeWhile_cons, if_pos hword]
  unfold scanIdentifierOrKeyword
  dsimp only
  rw [hvalue]
  split
  · exact trivial
  · rename_i hkeyword
    show IsIdentifier (String.ofList (c :: rest.takeWhile isWordChar))
    refine ⟨⟨c, _, String.toList_ofList, hc⟩, ?_, ?_⟩
    · intro d hd
      rw [String.toList_ofList] at hd
      rcases List.mem_cons.1 hd with rfl | hd
      · exact hword
      · exact List.mem_takeWhile_imp hd
    · rw [String.toList_ofList]
      simpa using hkeyword

theorem lexed_nextToken (lexer : Lexer) : lexer.nextToken.1.toLexeme.Lexed := by
  unfold nextToken
  dsimp only
  split
  · exact trivial
  · rename_i c rest hrest
    split
    · exact lexed_scanStringLiteral c rest _
    split
    · exact lexed_scanNumber hrest ‹_›
    split
    · rename_i hc
      exact lexed_scanIdentifierOrKeyword hrest (by simpa using hc)
    split
    · unfold scanOperator
      dsimp only
      split
      · split <;> exact trivial
      · exact trivial
    · split <;> exact trivial

theorem lexed_tokenizeLoop (rounds : Nat) :
    ∀ lexer, ∀ t ∈ tokenizeLoop rounds lexer, t.toLexeme.Lexed := by
  induction rounds with
  | zero => simp [tokenizeLoop]
  | succ rounds ih =>
      intro lexer t ht
      have hnext := lexed_nextToken lexer
      rw [tokenizeLoop] at ht
      dsimp only at ht
      split at ht
      · rwa [List.mem_singleton.1 ht]
      · rcases List.mem_cons.1 ht with rfl | ht
        · exact hnext
        · exact ih _ t ht

theorem lexed_tokenize (source : String) :
    ∀ t ∈ (tokenize source).map Token.toLexeme, t.Lexed := by
  intro t ht
  obtain ⟨token, htoken, rfl⟩ := List.mem_map.1 ht
  exact lexed_tokenizeLoop _ _ token htoken

end Lexer

/-! ## Productions -/

/-- An expression of a `SELECT` item, as the parser takes it. -/
def Expression.Parsed : Expression → Prop
  | .identifier name => IsIdentifier name
  | .literal l => l.Printable
  | .aggregate _ column => IsIdentifier column

def SelectItem.Parsed (item : SelectItem) : Prop :=
  item.expr.Parsed ∧ (item.aliasName = "" ∨ IsIdentifier item.aliasName)

/-- The statements the parser can produce. -/
def Statement.Parsed : Statement → Prop
  | .select selectAll items table whereClause =>
      (if selectAll then items = [] else items ≠ [] ∧ ∀ i ∈ items, i.Parsed) ∧
        table.Printable ∧ ∀ c ∈ whereClause, c.Printable
  | s => s.Printable

namespace Parser

open TokenReader

variable {α : Type}

/-- On tokens of a text, a successful run returns a result with `Q`. -/
abbrev Builds (p : Parser α) (Q : α → Prop) : Prop := Returns Lexeme.Lexed p Q

theorem builds_expect (type : TokenType) (v : String) (what : Lexeme → String) :
    Builds (expect type v what) (fun value => Lexeme.Lexed ⟨type, value⟩) := by
  refine Returns.takeIf_bind (fun t ht hmatch => Returns.pure ?_) ?_
  · have htype : t.type = type := by
      simp only [matchToken, Bool.and_eq_true, beq_iff_eq] at hmatch
      exact hmatch.1
    rwa [← htype]
  · exact Returns.bind (Q := fun _ => True)
      (Returns.get_bind (fun _ => Returns.pure trivial)) (fun _ _ => Returns.throw)

theorem builds_expectKeyword (v : String) : Builds (expectKeyword v) (fun _ => True) :=
  Returns.mono (builds_expect _ _ _) (fun _ _ => trivial)

theorem builds_expectPunctuation (v : String) : Builds (expectPunctuation v) (fun _ => True) :=
  Returns.mono (builds_expect _ _ _) (fun _ _ => trivial)

theorem builds_parseIdentifier : Builds parseIdentifier IsIdentifier := builds_expect _ _ _

section Accept

variable {v : String} {f : Bool → Parser α} {Q : α → Prop}

theorem builds_acceptKeyword (hyes : Builds (f true) Q) (hno : Builds (f false) Q) :
    Builds (acceptKeyword v >>= f) Q := by
  rw [acceptKeyword, bind_assoc]
  exact Returns.takeIf_bind (fun _ _ _ => hyes) hno

theorem builds_acceptPunctuation (hyes : Builds (f true) Q) (hno : Builds (f false) Q) :
    Builds (acceptPunctuation v >>= f) Q := by
  rw [acceptPunctuation, bind_assoc]
  exact Returns.takeIf_bind (fun _ _ _ => hyes) hno

end Accept

theorem builds_commaSeparated {item : Parser α} {Q : α → Prop} (h : Builds item Q) :
    Builds (commaSeparated item) (fun as => as ≠ [] ∧ ∀ a ∈ as, Q a) :=
  Returns.separated h

/-! ## Names, scopes and timestamps -/

theorem builds_parseTableRef : Builds parseTableRef TableRef.Printable := by
  refine Returns.bind builds_parseIdentifier (fun first hfirst => ?_)
  refine builds_acceptPunctuation ?_ (Returns.pure ⟨.inl rfl, hfirst⟩)
  exact Returns.bind builds_parseIdentifier (fun _ hsecond => Returns.pure ⟨.inr hfirst, hsecond⟩)

theorem builds_parseScopePart : Builds parseScopePart IsScopePart :=
  Returns.takeIf_bind (fun _ _ _ => Returns.pure (.inl rfl))
    (Returns.mono builds_parseIdentifier (fun _ h => .inr h))

theorem builds_parseAccessScope : Builds parseAccessScope TableRef.PrintableScope := by
  refine Returns.bind builds_parseScopePart (fun first hfirst => ?_)
  refine builds_acceptPunctuation ?_ (Returns.pure ⟨hfirst, .inl rfl⟩)
  exact Returns.bind builds_parseScopePart (fun _ hsecond => Returns.pure ⟨hfirst, hsecond⟩)

theorem isPermission_value {t : Lexeme} (h : isPermission t = true) : IsPermission t.value := by
  simp only [isPermission, matchToken, Bool.or_eq_true, Bool.and_eq_true, beq_iff_eq] at h
  simp only [IsPermission, List.mem_cons, List.not_mem_nil, or_false]
  rcases h with ((⟨-, h⟩ | ⟨-, h⟩) | ⟨-, h⟩) | ⟨-, h⟩ <;>
    simp only [String.reduceEq, false_or] at h <;> simp [h]

theorem builds_parsePermissions :
    Builds parsePermissions (fun names => names ≠ [] ∧ ∀ n ∈ names, IsPermission n) := by
  refine builds_commaSeparated (Returns.takeIf_bind (fun t _ ht => ?_) Returns.throw)
  exact Returns.pure (isPermission_value ht)

theorem builds_parseTimestampPart (name : String) (count : Nat) :
    Builds (parseTimestampPart name count) (fun v => IsDigits v ∧ v.length = count) := by
  refine Returns.bind (builds_expect _ _ _) (fun v hv => ?_)
  refine Returns.ite (fun _ => Returns.throw) (fun hlen => Returns.pure ⟨hv, ?_⟩)
  simpa using hlen

theorem builds_parseTimestamp : Builds parseTimestamp IsTimestamp := by
  refine Returns.bind (builds_parseTimestampPart _ _) (fun year hyear => ?_)
  refine Returns.bind (builds_expectPunctuation _) (fun _ _ => ?_)
  refine Returns.bind (builds_parseTimestampPart _ _) (fun month hmonth => ?_)
  refine Returns.bind (builds_expectPunctuation _) (fun _ _ => ?_)
  refine Returns.bind (builds_parseTimestampPart _ _) (fun day hday => ?_)
  refine Returns.bind (builds_expectPunctuation _) (fun _ _ => ?_)
  refine Returns.bind (builds_parseTimestampPart _ _) (fun hour hhour => ?_)
  refine Returns.bind (builds_expectPunctuation _) (fun _ _ => ?_)
  refine Returns.bind (builds_parseTimestampPart _ _) (fun minute hminute => ?_)
  refine Returns.bind (builds_expectPunctuation _) (fun _ _ => ?_)
  refine Returns.bind (builds_parseTimestampPart _ _) (fun second hsecond => ?_)
  refine Returns.bind (builds_expectPunctuation _) (fun _ _ => ?_)
  refine Returns.bind (builds_parseTimestampPart _ _) (fun millisecond hmillisecond => ?_)
  exact Returns.pure ⟨year, month, day, hour, minute, second, millisecond, rfl, hyear, hmonth,
    hday, hhour, hminute, hsecond, hmillisecond⟩

/-! ## Expressions and conditions -/

theorem builds_parseLiteral : Builds parseLiteral Literal.Printable := by
  refine Returns.takeIf_bind (fun t ht hmatch => Returns.pure ?_) ?_
  · have htype : t.type = .stringLiteral := by simpa [matchToken] using hmatch
    rw [Lexeme.Lexed, htype] at ht
    exact ht
  refine Returns.takeIf_bind (fun t ht hmatch => Returns.pure ?_) ?_
  · have htype : t.type = .integerLiteral := by simpa [matchToken] using hmatch
    rw [Lexeme.Lexed, htype] at ht
    exact ht
  refine Returns.takeIf_bind (fun _ _ _ => Returns.pure rfl) ?_
  exact Returns.bind (Q := fun _ => True)
    (Returns.get_bind (fun _ => Returns.pure trivial)) (fun _ _ => Returns.throw)

theorem builds_parseValue : Builds parseValue Expression.PrintableValue := by
  refine Returns.takeIf_bind (fun t ht hmatch => Returns.pure ?_) ?_
  · have htype : t.type = .identifier := by simpa [matchToken] using hmatch
    rw [Lexeme.Lexed, htype] at ht
    exact ht
  · exact Returns.bind builds_parseLiteral (fun _ hl => Returns.pure hl)

theorem Expression.PrintableValue.parsed {e : Expression} (h : e.PrintableValue) : e.Parsed := by
  cases e with
  | aggregate => exact h.elim
  | _ => exact h

theorem builds_parseExpression : Builds parseExpression Expression.Parsed := by
  refine Returns.takeIf_bind (fun func _ _ => ?_)
    (Returns.mono builds_parseValue (fun _ h => Expression.PrintableValue.parsed h))
  refine Returns.bind (builds_expectPunctuation _) (fun _ _ => ?_)
  refine Returns.bind builds_parseIdentifier (fun column hcolumn => ?_)
  refine Returns.bind (builds_expectPunctuation _) (fun _ _ => ?_)
  have hfunction : Builds (parseAggregateFunction func.value) (fun _ => True) :=
    Returns.ite (fun _ => Returns.pure trivial) (fun _ =>
      Returns.ite (fun _ => Returns.pure trivial) (fun _ =>
        Returns.ite (fun _ => Returns.pure trivial) (fun _ => Returns.throw)))
  exact Returns.bind hfunction (fun _ _ => Returns.pure hcolumn)

theorem builds_parseComparisonOperator (op : String) :
    Builds (parseComparisonOperator op) (fun _ => True) := by
  unfold parseComparisonOperator
  repeat refine Returns.ite (fun _ => Returns.pure trivial) (fun _ => ?_)
  exact Returns.throw

theorem builds_parsePredicateTail {e : Expression} (he : e.PrintableValue) :
    Builds (parsePredicateTail e) Condition.Printable := by
  refine builds_acceptKeyword ?_ (builds_acceptKeyword ?_ (Returns.takeIf_bind ?_ Returns.throw))
  · refine Returns.bind builds_parseValue (fun lower hlower => ?_)
    refine Returns.bind (builds_expectKeyword _) (fun _ _ => ?_)
    exact Returns.bind builds_parseValue (fun upper hupper => Returns.pure ⟨he, hlower, hupper⟩)
  · exact Returns.bind (builds_expect _ _ _) (fun pattern hpattern => Returns.pure ⟨he, hpattern⟩)
  · intro op _ _
    refine Returns.bind builds_parseValue (fun right hright => ?_)
    exact Returns.bind (builds_parseComparisonOperator _) (fun _ _ => Returns.pure ⟨he, hright⟩)

theorem builds_parseOrCondition {p : Parser Condition} (hp : Builds p Condition.Printable) :
    Builds (parseOrCondition p) Condition.Printable := by
  have hand : Builds (parseAndCondition p) Condition.Printable := by
    refine Returns.bind hp (fun left hleft => Returns.loop (fun left hleft => ?_) hleft)
    exact Returns.bind hp (fun right hright => Returns.pure ⟨hleft, hright⟩)
  refine Returns.bind hand (fun left hleft => Returns.loop (fun left hleft => ?_) hleft)
  exact Returns.bind hand (fun right hright => Returns.pure ⟨hleft, hright⟩)

theorem builds_parsePredicate (depth : Nat) :
    Builds (parsePredicate depth) Condition.Printable := by
  induction depth with
  | zero => exact Returns.throw
  | succ depth ih =>
      refine builds_acceptPunctuation ?_ ?_
      · refine Returns.bind (builds_parseOrCondition ih) (fun condition hcondition => ?_)
        exact Returns.bind (builds_expectPunctuation _) (fun _ _ => Returns.pure hcondition)
      · exact Returns.bind builds_parseValue (fun e he => builds_parsePredicateTail he)

theorem builds_parseCondition : Builds parseCondition Condition.Printable :=
  Returns.get_bind (fun _ => builds_parseOrCondition (builds_parsePredicate _))

/-! ## Statements -/

theorem builds_parseColumnDefinition : Builds parseColumnDefinition ColumnDef.Printable := by
  refine Returns.bind builds_parseIdentifier (fun name hname => ?_)
  refine Returns.takeIf_bind (fun type _ _ => ?_) Returns.throw
  have hflag : ∀ v, Builds (acceptKeyword v) (fun _ => True) := fun v =>
    Returns.takeIf_bind (fun _ _ _ => Returns.pure trivial) (Returns.pure trivial)
  refine Returns.bind (hflag _) (fun _ _ => Returns.bind (hflag _) (fun _ _ => ?_))
  refine builds_acceptKeyword ?_ (Returns.pure ⟨hname, by simp⟩)
  refine Returns.bind builds_parseLiteral (fun literal hliteral => Returns.pure ⟨hname, ?_⟩)
  simpa using hliteral

theorem builds_parseCreateStatement : Builds parseCreateStatement Statement.Parsed := by
  refine Returns.bind (builds_expectKeyword _) (fun _ _ => ?_)
  refine builds_acceptKeyword ?_ (builds_acceptKeyword ?_ (builds_acceptKeyword ?_ Returns.throw))
  · exact Returns.bind builds_parseIdentifier (fun _ hname => Returns.pure hname)
  · refine Returns.bind builds_parseIdentifier (fun username husername => ?_)
    refine Returns.bind (builds_expectKeyword _) (fun _ _ => ?_)
    exact Returns.bind (builds_expect _ _ _) (fun _ hpassword =>
      Returns.pure ⟨husername, hpassword⟩)
  · refine Returns.bind builds_parseTableRef (fun table htable => ?_)
    refine Returns.bind (builds_expectPunctuation _) (fun _ _ => ?_)
    refine Returns.bind (builds_commaSeparated builds_parseColumnDefinition)
      (fun columns hcolumns => ?_)
    exact Returns.bind (builds_expectPunctuation _) (fun _ _ => Returns.pure ⟨htable, hcolumns⟩)

theorem builds_parseGrantStatement : Builds parseGrantStatement Statement.Parsed := by
  refine Returns.bind (builds_expectKeyword _) (fun _ _ => ?_)
  refine Returns.bind builds_parsePermissions (fun permissions hpermissions => ?_)
  refine Returns.bind (builds_expectKeyword _) (fun _ _ => ?_)
  refine Returns.bind builds_parseAccessScope (fun scope hscope => ?_)
  refine Returns.bind (builds_expectKeyword _) (fun _ _ => ?_)
  exact Returns.bind builds_parseIdentifier (fun _ husername =>
    Returns.pure ⟨hpermissions.1, hpermissions.2, hscope, husername⟩)

theorem builds_parseRevokeStatement : Builds parseRevokeStatement Statement.Parsed := by
  refine Returns.bind (builds_expectKeyword _) (fun _ _ => ?_)
  refine Returns.bind builds_parsePermissions (fun permissions hpermissions => ?_)
  refine Returns.bind (builds_expectKeyword _) (fun _ _ => ?_)
  refine Returns.bind builds_parseAccessScope (fun scope hscope => ?_)
  refine Returns.bind (builds_expectKeyword _) (fun _ _ => ?_)
  exact Returns.bind builds_parseIdentifier (fun _ husername =>
    Returns.pure ⟨hpermissions.1, hpermissions.2, hscope, husername⟩)

theorem builds_parseDropStatement : Builds parseDropStatement Statement.Parsed := by
  refine Returns.bind (builds_expectKeyword _) (fun _ _ => ?_)
  refine builds_acceptKeyword ?_ (builds_acceptKeyword ?_ Returns.throw)
  · exact Returns.bind builds_parseIdentifier (fun _ hname => Returns.pure hname)
  · exact Returns.bind builds_parseTableRef (fun _ htable => Returns.pure htable)

theorem builds_parseUseStatement : Builds parseUseStatement Statement.Parsed := by
  refine Returns.bind (builds_expectKeyword _) (fun _ _ => ?_)
  exact Returns.bind builds_parseIdentifier (fun _ hname => Returns.pure hname)

theorem builds_parseRevertStatement : Builds parseRevertStatement Statement.Parsed := by
  refine Returns.bind (builds_expectKeyword _) (fun _ _ => ?_)
  refine Returns.bind builds_parseTableRef (fun table htable => ?_)
  exact Returns.bind builds_parseTimestamp (fun _ ht => Returns.pure ⟨htable, ht⟩)

/-- Rows, none of them empty. -/
def PrintableRows (values : List (List Literal)) : Prop :=
  ∀ r ∈ values, r ≠ [] ∧ ∀ l ∈ r, l.Printable

theorem builds_parseRow : Builds parseRow (fun r => r ≠ [] ∧ ∀ l ∈ r, l.Printable) := by
  refine builds_acceptPunctuation ?_ ?_ <;>
  · refine Returns.bind (builds_expectPunctuation _) (fun _ _ => ?_)
    refine Returns.bind (builds_commaSeparated builds_parseLiteral) (fun row hrow => ?_)
    exact Returns.bind (builds_expectPunctuation _) (fun _ _ => Returns.pure hrow)

theorem builds_parseRows (rounds : Nat) : ∀ values, PrintableRows values →
    Builds (parseRows rounds values) (fun rows => rows ≠ [] ∧ PrintableRows rows) := by
  induction rounds with
  | zero => exact fun _ _ => Returns.throw
  | succ rounds ih =>
      intro values hvalues
      refine Returns.bind builds_parseRow (fun row hrow => ?_)
      have hrows : PrintableRows (values ++ [row]) := by
        intro r hr
        rcases List.mem_append.1 hr with hr | hr
        · exact hvalues r hr
        · rwa [List.mem_singleton.1 hr]
      refine Returns.get_bind (fun ts => Returns.ite (fun _ => ih _ hrows) (fun _ => ?_))
      exact Returns.pure ⟨by simp, hrows⟩

theorem builds_parseInsertStatement : Builds parseInsertStatement Statement.Parsed := by
  refine Returns.bind (builds_expectKeyword _) (fun _ _ => ?_)
  refine Returns.bind (builds_expectKeyword _) (fun _ _ => ?_)
  refine Returns.bind builds_parseTableRef (fun table htable => ?_)
  refine Returns.bind (builds_expectPunctuation _) (fun _ _ => ?_)
  refine Returns.bind (builds_commaSeparated builds_parseIdentifier) (fun columns hcolumns => ?_)
  refine Returns.bind (builds_expectPunctuation _) (fun _ _ => ?_)
  refine Returns.bind (builds_expectKeyword _) (fun _ _ => ?_)
  refine Returns.get_bind (fun ts => ?_)
  refine Returns.bind (builds_parseRows _ [] (by simp [PrintableRows])) (fun values hvalues => ?_)
  exact Returns.pure ⟨htable, hcolumns, hvalues⟩

theorem builds_parseAssignment :
    Builds parseAssignment (fun a => IsIdentifier a.1 ∧ a.2.PrintableValue) := by
  refine Returns.bind builds_parseIdentifier (fun column hcolumn => ?_)
  refine Returns.bind (builds_expect _ _ _) (fun _ _ => ?_)
  exact Returns.bind builds_parseValue (fun _ hvalue => Returns.pure ⟨hcolumn, hvalue⟩)

theorem builds_parseUpdateStatement : Builds parseUpdateStatement Statement.Parsed := by
  refine Returns.bind (builds_expectKeyword _) (fun _ _ => ?_)
  refine Returns.bind builds_parseTableRef (fun table htable => ?_)
  refine Returns.bind (builds_expectKeyword _) (fun _ _ => ?_)
  refine Returns.bind (builds_commaSeparated builds_parseAssignment)
    (fun assignments hassignments => ?_)
  refine Returns.bind (builds_expectKeyword _) (fun _ _ => ?_)
  exact Returns.bind builds_parseCondition (fun c hc =>
    Returns.pure ⟨htable, hassignments, c, rfl, hc⟩)

theorem builds_parseDeleteStatement : Builds parseDeleteStatement Statement.Parsed := by
  refine Returns.bind (builds_expectKeyword _) (fun _ _ => ?_)
  refine Returns.bind (builds_expectKeyword _) (fun _ _ => ?_)
  refine Returns.bind builds_parseTableRef (fun table htable => ?_)
  refine Returns.bind (builds_expectKeyword _) (fun _ _ => ?_)
  exact Returns.bind builds_parseCondition (fun c hc => Returns.pure ⟨htable, c, rfl, hc⟩)

theorem builds_parseSelectItem : Builds parseSelectItem SelectItem.Parsed := by
  refine Returns.bind builds_parseExpression (fun expr hexpr => ?_)
  refine builds_acceptKeyword ?_ (Returns.pure ⟨hexpr, .inl rfl⟩)
  exact Returns.bind builds_parseIdentifier (fun _ halias => Returns.pure ⟨hexpr, .inr halias⟩)

theorem builds_parseSelectStatement : Builds parseSelectStatement Statement.Parsed := by
  refine Returns.bind (builds_expectKeyword _) (fun _ _ => ?_)
  have hlist : Builds parseSelectList (fun list =>
      if list.1 then list.2 = [] else list.2 ≠ [] ∧ ∀ i ∈ list.2, i.Parsed) := by
    refine Returns.takeIf_bind (fun _ _ _ => Returns.pure rfl) ?_
    refine Returns.bind (builds_commaSeparated builds_parseSelectItem) (fun items hitems => ?_)
    exact Returns.pure hitems
  refine Returns.bind hlist (fun list hlist => ?_)
  refine Returns.bind (builds_expectKeyword _) (fun _ _ => ?_)
  refine Returns.bind builds_parseTableRef (fun table htable => ?_)
  have hwhere : Builds parseWhereClause (fun clause => ∀ c ∈ clause, c.Printable) := by
    refine builds_acceptKeyword ?_ (Returns.pure (by simp))
    exact Returns.bind builds_parseCondition (fun c hc => Returns.pure (by simpa using hc))
  exact Returns.bind hwhere (fun clause hclause => Returns.pure ⟨hlist, htable, hclause⟩)

theorem builds_parseByKeyword (keyword : String) :
    Builds (parseByKeyword keyword) Statement.Parsed := by
  refine Returns.ite (fun _ => builds_parseCreateStatement) (fun _ => ?_)
  refine Returns.ite (fun _ => builds_parseDropStatement) (fun _ => ?_)
  refine Returns.ite (fun _ => builds_parseUseStatement) (fun _ => ?_)
  refine Returns.ite (fun _ => builds_parseGrantStatement) (fun _ => ?_)
  refine Returns.ite (fun _ => builds_parseRevokeStatement) (fun _ => ?_)
  refine Returns.ite (fun _ => builds_parseRevertStatement) (fun _ => ?_)
  refine Returns.ite (fun _ => builds_parseInsertStatement) (fun _ => ?_)
  refine Returns.ite (fun _ => builds_parseUpdateStatement) (fun _ => ?_)
  refine Returns.ite (fun _ => builds_parseDeleteStatement) (fun _ => ?_)
  exact Returns.ite (fun _ => builds_parseSelectStatement) (fun _ => Returns.throw)

theorem builds_parseStatement : Builds parseStatement Statement.Parsed := by
  refine Returns.get_bind (fun ts => ?_)
  refine Returns.ite (fun _ => Returns.throw) (fun _ => Returns.get_bind (fun ts => ?_))
  refine Returns.ite (fun _ => Returns.throw) (fun _ => ?_)
  refine Returns.bind (builds_parseByKeyword _) (fun s hs => ?_)
  refine builds_acceptPunctuation ?_ ?_ <;>
  · refine Returns.get_bind (fun ts => Returns.ite (fun _ => Returns.pure hs) (fun _ => ?_))
    exact Returns.get_bind (fun ts => Returns.throw)

end Parser

/-- A statement that is parsed from a text is one the parser can produce. -/
theorem parsed_of_parse_tokenize {source : String} {s : Statement}
    (h : parse (Lexer.tokenize source) = .ok s) : s.Parsed := by
  unfold parse at h
  split at h
  · rename_i s' rest hrun
    cases h
    exact (Parser.builds_parseStatement _ (Lexer.lexed_tokenize source) _ _ hrun).1
  · cases h

end QuasarDB.Server
