import QuasarDB.Server.Parser
import QuasarDB.Server.Proofs.LexerSpells
import QuasarDB.Server.Proofs.ParserSound

set_option autoImplicit false

/-! # The parser reads a printed statement back -/

namespace QuasarDB.Server

namespace Parser

open TokenReader

/-! ## Tokens -/

theorem expect_run {type : TokenType} {v : String} (what : Lexeme → String) (ts : List Lexeme) :
    expect type v what (⟨type, v⟩ :: ts) = .ok v ts := by
  unfold expect accept
  rw [Prog.bind_ok (takeIf_pos (by simp [matchToken]) ts)]
  rfl

theorem expect_any_run {type : TokenType} (v : String) (what : Lexeme → String)
    (ts : List Lexeme) : expect type "" what (⟨type, v⟩ :: ts) = .ok v ts := by
  unfold expect accept
  rw [Prog.bind_ok (takeIf_pos (by simp [matchToken]) ts)]
  rfl

theorem expectKeyword_run (v : String) (ts : List Lexeme) :
    expectKeyword v (Printer.keyword v :: ts) = .ok v ts := expect_run _ ts

theorem expectPunctuation_run (v : String) (ts : List Lexeme) :
    expectPunctuation v (Printer.punctuation v :: ts) = .ok v ts := expect_run _ ts

theorem expectOperator_run (v : String) (ts : List Lexeme) :
    expectOperator v (Printer.operator v :: ts) = .ok v ts := expect_run _ ts

theorem parseIdentifier_run (name : String) (ts : List Lexeme) :
    parseIdentifier (Printer.identifier name :: ts) = .ok name ts := expect_any_run _ _ ts

theorem acceptKeyword_run (v : String) (ts : List Lexeme) :
    acceptKeyword v (Printer.keyword v :: ts) = .ok true ts := by
  unfold acceptKeyword accept
  rw [Prog.bind_ok (takeIf_pos (by simp [matchToken, Printer.keyword]) ts)]
  rfl

theorem acceptPunctuation_run (v : String) (ts : List Lexeme) :
    acceptPunctuation v (Printer.punctuation v :: ts) = .ok true ts := by
  unfold acceptPunctuation accept
  rw [Prog.bind_ok (takeIf_pos (by simp [matchToken, Printer.punctuation]) ts)]
  rfl

theorem acceptKeyword_of_nextIsNot {v : String} {ts : List Lexeme}
    (h : NextIsNot (matchToken .keyword v) ts) : acceptKeyword v ts = .ok false ts := by
  unfold acceptKeyword accept
  rw [Prog.bind_ok (takeIf_of_nextIsNot h)]
  rfl

theorem acceptPunctuation_of_nextIsNot {v : String} {ts : List Lexeme}
    (h : NextIsNot (matchToken .punctuation v) ts) : acceptPunctuation v ts = .ok false ts := by
  unfold acceptPunctuation accept
  rw [Prog.bind_ok (takeIf_of_nextIsNot h)]
  rfl

/-- A comma list in print is read back. -/
theorem commaSeparated_run {α : Type} {item : Parser α} {write : α → List Lexeme}
    {F : List Lexeme → Prop} {as : List α} {rest : List Lexeme} (hne : as ≠ [])
    (hitem : ∀ x ∈ as, ∀ rest, F rest → item (write x ++ rest) = .ok x rest)
    (hF : ∀ ts, F (Printer.punctuation "," :: ts)) (hrest : F rest)
    (hstop : NextIsNot (matchToken .punctuation ",") rest) :
    commaSeparated item (Printer.commaList write as ++ rest) = .ok as rest := by
  cases as with
  | nil => exact absurd rfl hne
  | cons a as =>
      rw [Printer.commaList, Printer.joined, List.append_assoc]
      exact separated_run (by simp [matchToken, Printer.punctuation]) hitem hF hrest hstop

/-! ## Names, scopes and timestamps -/

theorem parseTableRef_run {table : TableRef} {rest : List Lexeme}
    (hrest : NextIsNot (matchToken .punctuation ".") rest) :
    parseTableRef (Printer.tableRef table ++ rest) = .ok table rest := by
  obtain ⟨database, name⟩ := table
  unfold parseTableRef Printer.tableRef
  split
  next hdb =>
    cases (show database = "" from hdb)
    rw [List.singleton_append, Prog.bind_ok (parseIdentifier_run _ _),
      Prog.bind_ok (acceptPunctuation_of_nextIsNot hrest)]
    rfl
  next hdb =>
    rw [List.cons_append, Prog.bind_ok (parseIdentifier_run _ _), List.cons_append,
      Prog.bind_ok (acceptPunctuation_run _ _), if_pos rfl, List.singleton_append,
      Prog.bind_ok (parseIdentifier_run _ _)]
    rfl

theorem parseScopePart_run (part : String) (rest : List Lexeme) :
    parseScopePart (Printer.scopePart part :: rest) = .ok part rest := by
  unfold parseScopePart Printer.scopePart accept
  split
  next hstar =>
    rw [Prog.bind_ok (takeIf_pos (by simp [matchToken, Printer.operator]) rest), hstar]
    rfl
  next hname =>
    rw [Prog.bind_ok (takeIf_neg (by simp [matchToken, Printer.identifier]) rest)]
    exact parseIdentifier_run _ _

theorem parseAccessScope_run (scope : TableRef) (rest : List Lexeme) :
    parseAccessScope (Printer.accessScope scope ++ rest) = .ok scope rest := by
  unfold parseAccessScope Printer.accessScope
  rw [List.cons_append, Prog.bind_ok (parseScopePart_run _ _), List.cons_append,
    Prog.bind_ok (acceptPunctuation_run _ _), if_pos rfl, List.singleton_append,
    Prog.bind_ok (parseScopePart_run _ _)]
  rfl

theorem parsePermission_run {name : String} (h : IsPermission name) (rest : List Lexeme) :
    parsePermission (Printer.permission name ++ rest) = .ok name rest := by
  have htake : isPermission (Printer.keyword name) = true := by
    simp only [IsPermission, List.mem_cons, List.not_mem_nil, or_false] at h
    rcases h with rfl | rfl | rfl | rfl <;> decide
  unfold parsePermission Printer.permission
  rw [List.singleton_append, Prog.bind_ok (takeIf_pos htake rest)]
  rfl

theorem parsePermissions_run {names : List String} (hne : names ≠ [])
    (h : ∀ p ∈ names, IsPermission p) {rest : List Lexeme}
    (hrest : NextIsNot (matchToken .punctuation ",") rest) :
    parsePermissions (Printer.commaList Printer.permission names ++ rest) = .ok names rest :=
  commaSeparated_run (F := fun _ => True) hne
    (fun p hp rest _ => parsePermission_run (h p hp) rest) (fun _ => trivial) trivial hrest

theorem parseTimestampPart_run (name : String) {v : String} {count : Nat} (hv : v.length = count)
    (rest : List Lexeme) :
    parseTimestampPart name count (⟨.integerLiteral, v⟩ :: rest) = .ok v rest := by
  unfold parseTimestampPart
  rw [Prog.bind_ok (expect_any_run _ _ _), if_neg (by simp [hv])]
  rfl

theorem exists_ofList_two {v : String} (h : v.length = 2) : ∃ a b, v = String.ofList [a, b] := by
  obtain ⟨a, b, hv⟩ := List.length_eq_two.1 ((String.length_toList).trans h)
  exact ⟨a, b, by rw [← hv, String.ofList_toList]⟩

theorem exists_ofList_three {v : String} (h : v.length = 3) :
    ∃ a b c, v = String.ofList [a, b, c] := by
  obtain ⟨a, b, c, hv⟩ := List.length_eq_three.1 ((String.length_toList).trans h)
  exact ⟨a, b, c, by rw [← hv, String.ofList_toList]⟩

theorem exists_ofList_four {v : String} (h : v.length = 4) :
    ∃ a b c d, v = String.ofList [a, b, c, d] := by
  have hlen : v.toList.length = 4 := (String.length_toList).trans h
  match hv : v.toList, hlen with
  | [a, b, c, d], _ => exact ⟨a, b, c, d, by rw [← hv, String.ofList_toList]⟩

/-- The parts of a timestamp are the digits at their places. -/
theorem timestamp_of_parts {year month day hour minute second millisecond : String}
    (hyear : year.length = 4) (hmonth : month.length = 2) (hday : day.length = 2)
    (hhour : hour.length = 2) (hminute : minute.length = 2) (hsecond : second.length = 2)
    (hmillisecond : millisecond.length = 3) :
    Printer.timestamp (year ++ "." ++ month ++ "." ++ day ++ "-" ++ hour ++ ":" ++ minute ++ ":" ++
        second ++ "." ++ millisecond) =
      [⟨.integerLiteral, year⟩, Printer.punctuation ".", ⟨.integerLiteral, month⟩,
        Printer.punctuation ".", ⟨.integerLiteral, day⟩, Printer.punctuation "-",
        ⟨.integerLiteral, hour⟩, Printer.punctuation ":", ⟨.integerLiteral, minute⟩,
        Printer.punctuation ":", ⟨.integerLiteral, second⟩, Printer.punctuation ".",
        ⟨.integerLiteral, millisecond⟩] := by
  obtain ⟨y₁, y₂, y₃, y₄, rfl⟩ := exists_ofList_four hyear
  obtain ⟨o₁, o₂, rfl⟩ := exists_ofList_two hmonth
  obtain ⟨d₁, d₂, rfl⟩ := exists_ofList_two hday
  obtain ⟨h₁, h₂, rfl⟩ := exists_ofList_two hhour
  obtain ⟨i₁, i₂, rfl⟩ := exists_ofList_two hminute
  obtain ⟨s₁, s₂, rfl⟩ := exists_ofList_two hsecond
  obtain ⟨m₁, m₂, m₃, rfl⟩ := exists_ofList_three hmillisecond
  simp only [Printer.timestamp, Printer.timestampPart, String.toList_append, String.toList_ofList]
  rfl

theorem parseTimestamp_run {t : String} (ht : IsTimestamp t) (rest : List Lexeme) :
    parseTimestamp (Printer.timestamp t ++ rest) = .ok t rest := by
  obtain ⟨year, month, day, hour, minute, second, millisecond, rfl, hyear, hmonth, hday, hhour,
    hminute, hsecond, hmillisecond⟩ := ht
  rw [timestamp_of_parts hyear.2 hmonth.2 hday.2 hhour.2 hminute.2 hsecond.2 hmillisecond.2]
  simp only [List.cons_append, List.nil_append]
  unfold parseTimestamp
  rw [Prog.bind_ok (parseTimestampPart_run _ hyear.2 _), Prog.bind_ok (expectPunctuation_run _ _),
    Prog.bind_ok (parseTimestampPart_run _ hmonth.2 _), Prog.bind_ok (expectPunctuation_run _ _),
    Prog.bind_ok (parseTimestampPart_run _ hday.2 _), Prog.bind_ok (expectPunctuation_run _ _),
    Prog.bind_ok (parseTimestampPart_run _ hhour.2 _), Prog.bind_ok (expectPunctuation_run _ _),
    Prog.bind_ok (parseTimestampPart_run _ hminute.2 _), Prog.bind_ok (expectPunctuation_run _ _),
    Prog.bind_ok (parseTimestampPart_run _ hsecond.2 _), Prog.bind_ok (expectPunctuation_run _ _),
    Prog.bind_ok (parseTimestampPart_run _ hmillisecond.2 _)]
  rfl

/-! ## Expressions and conditions -/

theorem parseLiteral_run {l : Literal} (h : l.Printable) (rest : List Lexeme) :
    parseLiteral (Printer.literal l :: rest) = .ok l rest := by
  obtain ⟨type, v⟩ := l
  unfold parseLiteral accept
  cases type with
  | string =>
      rw [Prog.bind_ok (takeIf_pos (by simp [matchToken, Printer.literal]) rest)]
      rfl
  | integer =>
      rw [Prog.bind_ok (takeIf_neg (by simp [matchToken, Printer.literal]) rest)]
      dsimp only
      rw [Prog.bind_ok (takeIf_pos (by simp [matchToken, Printer.literal]) rest)]
      rfl
  | null =>
      rw [Prog.bind_ok (takeIf_neg (by simp [matchToken, Printer.literal, Printer.keyword]) rest)]
      dsimp only
      rw [Prog.bind_ok (takeIf_neg (by simp [matchToken, Printer.literal, Printer.keyword]) rest)]
      dsimp only
      rw [Prog.bind_ok (takeIf_pos (by simp [matchToken, Printer.literal, Printer.keyword]) rest)]
      cases (show v = "NULL" from h)
      rfl

theorem literal_not_identifier (l : Literal) :
    matchToken .identifier "" (Printer.literal l) = false := by
  obtain ⟨type, v⟩ := l
  cases type <;> simp [matchToken, Printer.literal, Printer.keyword]

theorem parseValue_run {e : Expression} (h : e.PrintableValue) (rest : List Lexeme) :
    parseValue (Printer.expression e ++ rest) = .ok e rest := by
  unfold parseValue accept
  cases e with
  | identifier name =>
      rw [Printer.expression, List.singleton_append,
        Prog.bind_ok (takeIf_pos (by simp [matchToken, Printer.identifier]) rest)]
      rfl
  | literal l =>
      rw [Printer.expression, List.singleton_append,
        Prog.bind_ok (takeIf_neg (literal_not_identifier l) rest)]
      dsimp only
      rw [Prog.bind_ok (parseLiteral_run h rest)]
      rfl
  | aggregate function column => exact absurd h (by simp [Expression.PrintableValue])

theorem parseAggregateFunction_run (function : AggregateFunction) (ts : List Lexeme) :
    parseAggregateFunction (Printer.keyword (Printer.aggregateName function)).value ts =
      .ok function ts := by
  cases function <;> rfl

theorem parseExpression_run {e : Expression}
    (h : e.PrintableValue ∨ ∃ function column, e = .aggregate function column)
    (rest : List Lexeme) : parseExpression (Printer.expression e ++ rest) = .ok e rest := by
  rcases h with h | ⟨function, column, rfl⟩
  · have hnot : NextIsNot isAggregate (Printer.expression e ++ rest) := by
      cases e with
      | identifier name => simp [Printer.expression, Printer.identifier, isAggregate, matchToken]
      | literal l =>
          obtain ⟨type, v⟩ := l
          cases type <;>
            simp [Printer.expression, Printer.literal, Printer.keyword, isAggregate, matchToken]
      | aggregate function column => exact absurd h (by simp [Expression.PrintableValue])
    unfold parseExpression
    rw [Prog.bind_ok (takeIf_of_nextIsNot hnot)]
    exact parseValue_run h rest
  · have htake : isAggregate (Printer.keyword (Printer.aggregateName function)) = true := by
      cases function <;> decide
    unfold parseExpression
    rw [Printer.expression, List.cons_append, Prog.bind_ok (takeIf_pos htake _)]
    dsimp only
    rw [List.cons_append, Prog.bind_ok (expectPunctuation_run _ _), List.cons_append,
      Prog.bind_ok (parseIdentifier_run _ _), List.singleton_append,
      Prog.bind_ok (expectPunctuation_run _ _),
      Prog.bind_ok (parseAggregateFunction_run function _)]
    rfl

theorem parseComparisonOperator_run (op : ComparisonOperator) (ts : List Lexeme) :
    parseComparisonOperator (Printer.operator (Printer.comparisonOperator op)).value ts =
      .ok op ts := by
  cases op <;> rfl

/-- A value starts with no parenthesis. -/
theorem value_not_punctuation {e : Expression} (h : e.PrintableValue) (v : String)
    (rest : List Lexeme) :
    NextIsNot (matchToken .punctuation v) (Printer.expression e ++ rest) := by
  cases e with
  | identifier name => simp [Printer.expression, Printer.identifier, matchToken]
  | literal l =>
      obtain ⟨type, v⟩ := l
      cases type <;> simp [Printer.expression, Printer.literal, Printer.keyword, matchToken]
  | aggregate function column => exact absurd h (by simp [Expression.PrintableValue])

/-- A predicate without parentheses is read by its value and what follows it. -/
theorem parsePredicate_atom {e : Expression} {c : Condition} {w rest : List Lexeme} {depth : Nat}
    (he : e.PrintableValue) (htail : parsePredicateTail e w = .ok c rest) :
    parsePredicate (depth + 1) (Printer.expression e ++ w) = .ok c rest := by
  rw [parsePredicate, Prog.bind_ok (acceptPunctuation_of_nextIsNot (value_not_punctuation he _ _)),
    if_neg (by simp), Prog.bind_ok (parseValue_run he _), htail]

/-! ### Levels -/

/-- A condition that is written the same way on both levels is read by the lower one. -/
def ReadsPredicate (c : Condition) : Prop :=
  ∀ depth rest, (Printer.condition .predicate c).length < depth →
    parsePredicate depth (Printer.condition .predicate c ++ rest) = .ok c rest

/-- The loop of `ParseAndCondition` goes on from `c` as from its left operand. -/
def ReadsAnd (c : Condition) : Prop :=
  ∀ depth rest b out, (Printer.condition .andExpr c).length < depth →
    Loops (matchToken .keyword "AND")
      (fun left => do return .and left (← parsePredicate depth)) c rest b out →
    parseAndCondition (parsePredicate depth) (Printer.condition .andExpr c ++ rest) = .ok b out

/-- The loop of `ParseOrCondition` goes on from `c` as from its left operand. -/
def ReadsOr (c : Condition) : Prop :=
  ∀ depth rest b out, (Printer.condition .orExpr c).length < depth →
    NextIsNot (matchToken .keyword "AND") rest →
    Loops (matchToken .keyword "OR")
      (fun left => do return .or left (← parseAndCondition (parsePredicate depth))) c rest b out →
    parseOrCondition (parsePredicate depth) (Printer.condition .orExpr c ++ rest) = .ok b out

theorem ReadsPredicate.readsAnd {c : Condition} (h : ReadsPredicate c)
    (hsame : Printer.condition .andExpr c = Printer.condition .predicate c) : ReadsAnd c := by
  intro depth rest b out hdepth hloop
  rw [hsame] at hdepth ⊢
  unfold parseAndCondition
  rw [Prog.bind_ok (h depth rest hdepth)]
  exact hloop.loop_eq

theorem ReadsAnd.readsOr {c : Condition} (h : ReadsAnd c)
    (hsame : Printer.condition .orExpr c = Printer.condition .andExpr c) : ReadsOr c := by
  intro depth rest b out hdepth hand hloop
  rw [hsame] at hdepth ⊢
  unfold parseOrCondition
  rw [Prog.bind_ok (h depth rest c rest hdepth (.done hand))]
  exact hloop.loop_eq

/-- A condition in parentheses is read by the level of `OR`. -/
theorem ReadsOr.readsPredicate {c : Condition} (h : ReadsOr c)
    (hparen : Printer.condition .predicate c =
      Printer.parenthesized (Printer.condition .orExpr c)) : ReadsPredicate c := by
  intro depth rest hdepth
  obtain ⟨depth, rfl⟩ : ∃ n, depth = n + 1 := ⟨depth - 1, by omega⟩
  rw [hparen, Printer.parenthesized] at hdepth ⊢
  simp only [List.length_cons, List.length_append, List.length_nil] at hdepth
  rw [List.cons_append, List.append_assoc, List.singleton_append, parsePredicate,
    Prog.bind_ok (acceptPunctuation_run _ _), if_pos rfl,
    Prog.bind_ok (h depth _ c _ (by omega) (by simp [matchToken, Printer.punctuation])
      (.done (by simp [matchToken, Printer.punctuation]))),
    Prog.bind_ok (expectPunctuation_run _ _)]
  rfl

/-- A left operand of `AND` and a further one. -/
theorem readsAnd_and {left right : Condition} (hleft : ReadsAnd left)
    (hright : ReadsPredicate right) : ReadsAnd (.and left right) := by
  intro depth rest b out hdepth hloop
  have hprint : Printer.condition .andExpr (.and left right) = Printer.condition .andExpr left ++
      Printer.keyword "AND" :: Printer.condition .predicate right := by
    simp [Printer.condition]
  rw [hprint] at hdepth ⊢
  simp only [List.length_append, List.length_cons] at hdepth
  rw [List.append_assoc, List.cons_append]
  refine hleft depth _ b out (by omega) ?_
  refine .round (by simp [matchToken, Printer.keyword]) ?_ (by simp) hloop
  rw [Prog.bind_ok (hright depth rest (by omega))]
  rfl

/-- A left operand of `OR` and a further one. -/
theorem readsOr_or {left right : Condition} (hleft : ReadsOr left) (hright : ReadsAnd right) :
    ReadsOr (.or left right) := by
  intro depth rest b out hdepth hand hloop
  have hprint : Printer.condition .orExpr (.or left right) = Printer.condition .orExpr left ++
      Printer.keyword "OR" :: Printer.condition .andExpr right := by
    simp [Printer.condition]
  rw [hprint] at hdepth ⊢
  simp only [List.length_append, List.length_cons] at hdepth
  rw [List.append_assoc, List.cons_append]
  refine hleft depth _ b out (by omega) (by simp [matchToken, Printer.keyword]) ?_
  refine .round (by simp [matchToken, Printer.keyword]) ?_ (by simp) hloop
  rw [Prog.bind_ok (hright depth rest right rest (by omega) (.done hand))]
  rfl

/-- A condition is read back on each of the three levels it can be written on. -/
theorem reads_condition : ∀ {c : Condition}, c.Printable →
    ReadsPredicate c ∧ ReadsAnd c ∧ ReadsOr c
  | .comparison left op right, h => by
      have hpred : ReadsPredicate (.comparison left op right) := by
        intro depth rest hdepth
        obtain ⟨depth, rfl⟩ : ∃ n, depth = n + 1 := ⟨depth - 1, by omega⟩
        rw [Printer.condition, List.append_assoc]
        refine parsePredicate_atom h.1 ?_
        unfold parsePredicateTail accept
        rw [List.cons_append, Prog.bind_ok (acceptKeyword_of_nextIsNot (by
            simp [matchToken, Printer.operator])), if_neg (by simp),
          Prog.bind_ok (acceptKeyword_of_nextIsNot (by simp [matchToken, Printer.operator])),
          if_neg (by simp),
          Prog.bind_ok (takeIf_pos (by simp [matchToken, Printer.operator]) _)]
        dsimp only
        rw [Prog.bind_ok (parseValue_run h.2 rest),
          Prog.bind_ok (parseComparisonOperator_run op rest)]
        rfl
      exact ⟨hpred, hpred.readsAnd rfl, (hpred.readsAnd rfl).readsOr rfl⟩
  | .between value lower upper, h => by
      have hpred : ReadsPredicate (.between value lower upper) := by
        intro depth rest hdepth
        obtain ⟨depth, rfl⟩ : ∃ n, depth = n + 1 := ⟨depth - 1, by omega⟩
        rw [Printer.condition, List.append_assoc, List.append_assoc]
        refine parsePredicate_atom h.1 ?_
        unfold parsePredicateTail
        rw [List.cons_append, Prog.bind_ok (acceptKeyword_run _ _), if_pos rfl,
          Prog.bind_ok (parseValue_run h.2.1 _), List.cons_append,
          Prog.bind_ok (expectKeyword_run _ _), Prog.bind_ok (parseValue_run h.2.2 _)]
        rfl
      exact ⟨hpred, hpred.readsAnd rfl, (hpred.readsAnd rfl).readsOr rfl⟩
  | .like value pattern, h => by
      have hpred : ReadsPredicate (.like value pattern) := by
        intro depth rest hdepth
        obtain ⟨depth, rfl⟩ : ∃ n, depth = n + 1 := ⟨depth - 1, by omega⟩
        rw [Printer.condition, List.append_assoc]
        refine parsePredicate_atom h.1 ?_
        unfold parsePredicateTail
        rw [List.cons_append, Prog.bind_ok (acceptKeyword_of_nextIsNot (by
            simp [matchToken, Printer.keyword])), if_neg (by simp),
          Prog.bind_ok (acceptKeyword_run _ _), if_pos rfl, List.singleton_append,
          Prog.bind_ok (expect_any_run _ _ _)]
        rfl
      exact ⟨hpred, hpred.readsAnd rfl, (hpred.readsAnd rfl).readsOr rfl⟩
  | .and left right, h => by
      obtain ⟨-, hleft, -⟩ := reads_condition h.1
      obtain ⟨hright, -, -⟩ := reads_condition h.2
      have hand := readsAnd_and hleft hright
      have hor := hand.readsOr rfl
      exact ⟨hor.readsPredicate rfl, hand, hor⟩
  | .or left right, h => by
      obtain ⟨-, -, hleft⟩ := reads_condition h.1
      obtain ⟨-, hright, -⟩ := reads_condition h.2
      have hor := readsOr_or hleft hright
      have hpred := hor.readsPredicate rfl
      exact ⟨hpred, hpred.readsAnd rfl, hor⟩

theorem parseCondition_run {c : Condition} (h : c.Printable) {rest : List Lexeme}
    (hand : NextIsNot (matchToken .keyword "AND") rest)
    (hor : NextIsNot (matchToken .keyword "OR") rest) :
    parseCondition (Printer.condition .orExpr c ++ rest) = .ok c rest := by
  unfold parseCondition
  rw [Prog.run_get_bind]
  refine (reads_condition h).2.2 _ rest c rest ?_ hand (.done hor)
  rw [List.length_append]
  omega

/-! ## Parts of statements -/

theorem flag_run (b : Bool) (v : String) {rest : List Lexeme}
    (h : NextIsNot (matchToken .keyword v) rest) :
    acceptKeyword v (Printer.flag b v ++ rest) = .ok b rest := by
  cases b with
  | true => exact acceptKeyword_run v rest
  | false => exact acceptKeyword_of_nextIsNot h

/-- The next token is no keyword. -/
def NoKeywordNext (ts : List Lexeme) : Prop := ∀ v, NextIsNot (matchToken .keyword v) ts

theorem noKeywordNext_punctuation (v : String) (ts : List Lexeme) :
    NoKeywordNext (Printer.punctuation v :: ts) := by
  simp [NoKeywordNext, matchToken, Printer.punctuation]

theorem parseColumnDefinition_run {column : ColumnDef} (h : column.Printable)
    {rest : List Lexeme} (hrest : NoKeywordNext rest) :
    parseColumnDefinition (Printer.columnDef column ++ rest) = .ok column rest := by
  obtain ⟨name, type, notNull, indexed, default⟩ := column
  have htype : isColumnType (Printer.columnType type) = true := by cases type <;> decide
  have hback : (if (Printer.columnType type).value = "INT" then ColumnType.int
      else ColumnType.string) = type := by cases type <;> rfl
  unfold parseColumnDefinition Printer.columnDef
  rw [List.cons_append, Prog.bind_ok (parseIdentifier_run _ _), List.cons_append,
    Prog.bind_ok (takeIf_pos htype _)]
  dsimp only
  rw [hback]
  -- Behind the flags stands `DEFAULT` or what follows the column.
  cases default with
  | none =>
      rw [List.append_nil, List.append_assoc]
      have hindexed : NextIsNot (matchToken .keyword "NOT_NULL")
          (Printer.flag indexed "INDEXED" ++ rest) := by
        cases indexed with
        | true => simp [Printer.flag, Printer.keyword, matchToken]
        | false => exact hrest _
      rw [Prog.bind_ok (flag_run _ _ hindexed), Prog.bind_ok (flag_run _ _ (hrest _)),
        Prog.bind_ok (acceptKeyword_of_nextIsNot (hrest _)), if_neg (by simp)]
      rfl
  | some l =>
      rw [List.append_assoc, List.append_assoc]
      have hindexed : NextIsNot (matchToken .keyword "NOT_NULL")
          (Printer.flag indexed "INDEXED" ++ ([Printer.keyword "DEFAULT", Printer.literal l] ++
            rest)) := by
        cases indexed <;> simp [Printer.flag, Printer.keyword, matchToken]
      rw [Prog.bind_ok (flag_run _ _ hindexed),
        Prog.bind_ok (flag_run _ _ (by simp [Printer.keyword, matchToken])), List.cons_append,
        Prog.bind_ok (acceptKeyword_run _ _), if_pos rfl, List.singleton_append,
        Prog.bind_ok (parseLiteral_run (h.2 l rfl) _)]
      rfl

/-- A row, with or without a comma before it. -/
theorem parseRow_run {r : List Literal} (hne : r ≠ []) (h : ∀ l ∈ r, l.Printable)
    {lead : List Lexeme} (hlead : lead = [] ∨ lead = [Printer.punctuation ","])
    (rest : List Lexeme) : parseRow (lead ++ (Printer.row r ++ rest)) = .ok r rest := by
  have haccept : ∃ b, acceptPunctuation "," (lead ++ (Printer.row r ++ rest)) =
      .ok b (Printer.row r ++ rest) := by
    rcases hlead with rfl | rfl
    · exact ⟨false, acceptPunctuation_of_nextIsNot
        (by simp [Printer.row, Printer.punctuation, matchToken])⟩
    · exact ⟨true, acceptPunctuation_run _ _⟩
  obtain ⟨b, haccept⟩ := haccept
  unfold parseRow
  rw [Prog.bind_ok haccept, Printer.row, List.cons_append,
    Prog.bind_ok (expectPunctuation_run _ _), List.append_assoc, List.singleton_append,
    Prog.bind_ok (commaSeparated_run (F := fun _ => True) hne
      (fun l hl rest _ => parseLiteral_run (h l hl) rest) (fun _ => trivial) trivial
      (by simp [Printer.punctuation, matchToken])),
    Prog.bind_ok (expectPunctuation_run _ _)]
  rfl

theorem parseRows_run (rs : List (List Literal)) : ∀ (r : List Literal) (lead : List Lexeme)
    (values : List (List Literal)) (rounds : Nat) (rest : List Lexeme),
    (∀ x ∈ r :: rs, x ≠ [] ∧ ∀ l ∈ x, l.Printable) →
    (lead = [] ∨ lead = [Printer.punctuation ","]) → rs.length < rounds →
    NextIsNot (matchToken .punctuation ",") rest →
    parseRows rounds values (lead ++ (Printer.row r ++
      (rs.flatMap (fun x => Printer.punctuation "," :: Printer.row x) ++ rest))) =
        .ok (values ++ r :: rs) rest := by
  induction rs with
  | nil =>
      intro r lead values rounds rest h hlead hrounds hrest
      obtain ⟨rounds, rfl⟩ : ∃ n, rounds = n + 1 := ⟨rounds - 1, by omega⟩
      have hr := h r (by simp)
      have hstop : rest.head?.any (matchToken .punctuation ",") = false := by
        cases rest with
        | nil => rfl
        | cons t rest =>
            show matchToken .punctuation "," t = false
            exact nextIsNot_cons.1 hrest
      rw [parseRows, Prog.bind_ok (parseRow_run hr.1 hr.2 hlead _), List.flatMap_nil,
        List.nil_append, Prog.run_get_bind, hstop]
      rfl
  | cons x rs ih =>
      intro r lead values rounds rest h hlead hrounds hrest
      obtain ⟨rounds, rfl⟩ : ∃ n, rounds = n + 1 := ⟨rounds - 1, by omega⟩
      have hr := h r (by simp)
      have hnext := ih x [Printer.punctuation ","] (values ++ [r]) rounds rest
        (fun y hy => h y (List.mem_cons_of_mem _ hy)) (.inr rfl)
        (by simpa using hrounds) hrest
      rw [parseRows, Prog.bind_ok (parseRow_run hr.1 hr.2 hlead _), List.flatMap_cons,
        List.cons_append, List.cons_append, List.append_assoc, Prog.run_get_bind]
      rw [List.singleton_append] at hnext
      show (if matchToken .punctuation "," (Printer.punctuation ",") = true
        then parseRows rounds (values ++ [r]) else _) _ = _
      rw [if_pos (by decide), hnext, List.append_assoc, List.singleton_append]

theorem parseAssignment_run {a : String × Expression} (h : a.2.PrintableValue)
    (rest : List Lexeme) : parseAssignment (Printer.assignment a ++ rest) = .ok a rest := by
  unfold parseAssignment Printer.assignment
  rw [List.cons_append, Prog.bind_ok (parseIdentifier_run _ _), List.cons_append,
    Prog.bind_ok (expectOperator_run _ _), Prog.bind_ok (parseValue_run h rest)]
  rfl

theorem parseSelectItem_run {item : SelectItem} (h : item.Printable) {rest : List Lexeme}
    (hrest : NextIsNot (matchToken .keyword "AS") rest) :
    parseSelectItem (Printer.selectItem item ++ rest) = .ok item rest := by
  obtain ⟨expr, aliasName⟩ := item
  have hexpr : expr.PrintableValue ∨ ∃ function column, expr = .aggregate function column := by
    cases expr with
    | identifier name => exact .inl h.1
    | literal l => exact absurd h.1 (by simp)
    | aggregate function column => exact .inr ⟨function, column, rfl⟩
  unfold parseSelectItem Printer.selectItem
  rw [List.append_assoc, Prog.bind_ok (parseExpression_run hexpr _)]
  split
  next hnone =>
    cases (show aliasName = "" from hnone)
    rw [List.nil_append, Prog.bind_ok (acceptKeyword_of_nextIsNot hrest)]
    rfl
  next hsome =>
    rw [List.cons_append, Prog.bind_ok (acceptKeyword_run _ _), if_pos rfl, List.singleton_append,
      Prog.bind_ok (parseIdentifier_run _ _)]
    rfl

theorem parseSelectList_run {selectAll : Bool} {items : List SelectItem}
    (h : if selectAll then items = [] else items ≠ [] ∧ ∀ i ∈ items, i.Printable)
    (rest : List Lexeme) :
    parseSelectList (Printer.selectList selectAll items ++ Printer.keyword "FROM" :: rest) =
      .ok (selectAll, items) (Printer.keyword "FROM" :: rest) := by
  unfold parseSelectList Printer.selectList accept
  cases selectAll with
  | true =>
      cases (show items = [] from h)
      rw [if_pos rfl, List.singleton_append,
        Prog.bind_ok (takeIf_pos (by simp [matchToken, Printer.operator]) _)]
      rfl
  | false =>
      obtain ⟨hne, hitems⟩ : items ≠ [] ∧ ∀ i ∈ items, i.Printable := h
      have hstar : NextIsNot (matchToken .operator "*")
          (Printer.commaList Printer.selectItem items ++ Printer.keyword "FROM" :: rest) := by
        cases items with
        | nil => exact absurd rfl hne
        | cons item items =>
            obtain ⟨expr, aliasName⟩ := item
            have hitem := (hitems _ (List.mem_cons_self ..)).1
            cases expr with
            | identifier name =>
                simp [Printer.commaList, Printer.joined, Printer.selectItem, Printer.expression,
                  Printer.identifier, matchToken]
            | literal l => exact absurd hitem (by simp)
            | aggregate function column =>
                simp [Printer.commaList, Printer.joined, Printer.selectItem, Printer.expression,
                  Printer.keyword, matchToken]
      rw [if_neg (by simp), Prog.bind_ok (takeIf_of_nextIsNot hstar)]
      dsimp only
      rw [Prog.bind_ok (commaSeparated_run (F := fun ts => NextIsNot (matchToken .keyword "AS") ts)
        hne (fun i hi rest hrest => parseSelectItem_run (hitems i hi) hrest)
        (by simp [matchToken, Printer.punctuation]) (by simp [matchToken, Printer.keyword])
        (by simp [matchToken, Printer.keyword]))]
      rfl

/-- What stands behind a statement: an optional `;` and the end of file. -/
def Ending (rest : List Lexeme) : Prop :=
  rest = [Printer.punctuation ";", ⟨.endOfFile, ""⟩] ∨ rest = [⟨.endOfFile, ""⟩]

theorem Ending.noKeywordNext {rest : List Lexeme} (h : Ending rest) : NoKeywordNext rest := by
  rcases h with rfl | rfl
  · exact noKeywordNext_punctuation _ _
  · simp [NoKeywordNext, matchToken]

theorem Ending.not_punctuation {rest : List Lexeme} (h : Ending rest) {v : String}
    (hv : v ∈ [",", "."]) : NextIsNot (matchToken .punctuation v) rest := by
  simp only [List.mem_cons, List.not_mem_nil, or_false] at hv
  rcases h with rfl | rfl
  · rcases hv with rfl | rfl <;> simp [matchToken, Printer.punctuation]
  · rcases hv with rfl | rfl <;> simp [matchToken]

theorem parseWhereClause_run {clause : Option Condition} (h : ∀ c ∈ clause, c.Printable)
    {rest : List Lexeme} (hrest : Ending rest) :
    parseWhereClause (Printer.whereClause clause ++ rest) = .ok clause rest := by
  unfold parseWhereClause
  cases clause with
  | none =>
      rw [Printer.whereClause, List.nil_append,
        Prog.bind_ok (acceptKeyword_of_nextIsNot (hrest.noKeywordNext _))]
      rfl
  | some c =>
      rw [Printer.whereClause, List.cons_append, Prog.bind_ok (acceptKeyword_run _ _), if_pos rfl,
        Prog.bind_ok (parseCondition_run (h c rfl) (hrest.noKeywordNext _)
          (hrest.noKeywordNext _))]
      rfl

/-- No dot follows a table name in a statement. -/
theorem whereClause_not_dot (clause : Option Condition) {rest : List Lexeme}
    (hrest : Ending rest) :
    NextIsNot (matchToken .punctuation ".") (Printer.whereClause clause ++ rest) := by
  cases clause with
  | none => exact hrest.not_punctuation (by simp)
  | some c => simp [Printer.whereClause, Printer.keyword, matchToken]

/-! ## Statements -/

section Statements

variable {rest : List Lexeme}

theorem parseCreateStatement_run {s : Statement} (hs : s.Printable)
    (hcreate : (Printer.statement s).head? = some (Printer.keyword "CREATE")) :
    parseCreateStatement (Printer.statement s ++ rest) = .ok s rest := by
  unfold parseCreateStatement
  cases s with
  | createDatabase name =>
      rw [Printer.statement, List.cons_append, Prog.bind_ok (expectKeyword_run _ _),
        List.cons_append, Prog.bind_ok (acceptKeyword_run _ _), if_pos rfl, List.singleton_append,
        Prog.bind_ok (parseIdentifier_run _ _)]
      rfl
  | createUser username password =>
      rw [Printer.statement, List.cons_append, Prog.bind_ok (expectKeyword_run _ _),
        List.cons_append,
        Prog.bind_ok (acceptKeyword_of_nextIsNot (by simp [matchToken, Printer.keyword])),
        if_neg (by simp), Prog.bind_ok (acceptKeyword_run _ _), if_pos rfl, List.cons_append,
        Prog.bind_ok (parseIdentifier_run _ _), List.cons_append,
        Prog.bind_ok (expectKeyword_run _ _), List.singleton_append,
        Prog.bind_ok (expect_any_run _ _ _)]
      rfl
  | createTable table columns =>
      obtain ⟨-, hne, hcolumns⟩ := hs
      rw [Printer.statement, List.cons_append, Prog.bind_ok (expectKeyword_run _ _),
        List.cons_append,
        Prog.bind_ok (acceptKeyword_of_nextIsNot (by simp [matchToken, Printer.keyword])),
        if_neg (by simp),
        Prog.bind_ok (acceptKeyword_of_nextIsNot (by simp [matchToken, Printer.keyword])),
        if_neg (by simp), Prog.bind_ok (acceptKeyword_run _ _), if_pos rfl, List.append_assoc,
        List.cons_append,
        Prog.bind_ok (parseTableRef_run (by simp [matchToken, Printer.punctuation])),
        Prog.bind_ok (expectPunctuation_run _ _), List.append_assoc, List.singleton_append,
        Prog.bind_ok (commaSeparated_run hne
          (fun c hc rest hrest => parseColumnDefinition_run (hcolumns c hc) hrest)
          (noKeywordNext_punctuation ",") (noKeywordNext_punctuation ")" rest)
          (by simp [matchToken, Printer.punctuation])),
        Prog.bind_ok (expectPunctuation_run _ _)]
      rfl
  | _ => simp [Printer.statement, Printer.keyword] at hcreate

theorem parseGrantStatement_run {permissions : List String} {scope : TableRef}
    {username : String} (hs : (Statement.grant permissions scope username).Printable) :
    parseGrantStatement (Printer.statement (.grant permissions scope username) ++ rest) =
      .ok (.grant permissions scope username) rest := by
  unfold parseGrantStatement
  rw [Printer.statement, List.cons_append, Prog.bind_ok (expectKeyword_run _ _),
    List.append_assoc, List.cons_append,
    Prog.bind_ok (parsePermissions_run hs.1 hs.2.1 (by simp [matchToken, Printer.keyword])),
    Prog.bind_ok (expectKeyword_run _ _), List.append_assoc,
    Prog.bind_ok (parseAccessScope_run _ _), List.cons_append,
    Prog.bind_ok (expectKeyword_run _ _), List.singleton_append,
    Prog.bind_ok (parseIdentifier_run _ _)]
  rfl

theorem parseRevokeStatement_run {permissions : List String} {scope : TableRef}
    {username : String} (hs : (Statement.revoke permissions scope username).Printable) :
    parseRevokeStatement (Printer.statement (.revoke permissions scope username) ++ rest) =
      .ok (.revoke permissions scope username) rest := by
  unfold parseRevokeStatement
  rw [Printer.statement, List.cons_append, Prog.bind_ok (expectKeyword_run _ _),
    List.append_assoc, List.cons_append,
    Prog.bind_ok (parsePermissions_run hs.1 hs.2.1 (by simp [matchToken, Printer.keyword])),
    Prog.bind_ok (expectKeyword_run _ _), List.append_assoc,
    Prog.bind_ok (parseAccessScope_run _ _), List.cons_append,
    Prog.bind_ok (expectKeyword_run _ _), List.singleton_append,
    Prog.bind_ok (parseIdentifier_run _ _)]
  rfl

theorem parseDropStatement_run {s : Statement} (hrest : Ending rest)
    (hdrop : (Printer.statement s).head? = some (Printer.keyword "DROP")) :
    parseDropStatement (Printer.statement s ++ rest) = .ok s rest := by
  unfold parseDropStatement
  cases s with
  | dropDatabase name =>
      rw [Printer.statement, List.cons_append, Prog.bind_ok (expectKeyword_run _ _),
        List.cons_append, Prog.bind_ok (acceptKeyword_run _ _), if_pos rfl, List.singleton_append,
        Prog.bind_ok (parseIdentifier_run _ _)]
      rfl
  | dropTable table =>
      rw [Printer.statement, List.cons_append, Prog.bind_ok (expectKeyword_run _ _),
        List.cons_append,
        Prog.bind_ok (acceptKeyword_of_nextIsNot (by simp [matchToken, Printer.keyword])),
        if_neg (by simp), Prog.bind_ok (acceptKeyword_run _ _), if_pos rfl,
        Prog.bind_ok (parseTableRef_run (hrest.not_punctuation (by simp)))]
      rfl
  | _ => simp [Printer.statement, Printer.keyword] at hdrop

theorem parseUseStatement_run (name : String) :
    parseUseStatement (Printer.statement (.useDatabase name) ++ rest) =
      .ok (.useDatabase name) rest := by
  unfold parseUseStatement
  rw [Printer.statement, List.cons_append, Prog.bind_ok (expectKeyword_run _ _),
    List.singleton_append, Prog.bind_ok (parseIdentifier_run _ _)]
  rfl

theorem parseRevertStatement_run {table : TableRef} {t : String} (ht : IsTimestamp t) :
    parseRevertStatement (Printer.statement (.revert table t) ++ rest) =
      .ok (.revert table t) rest := by
  unfold parseRevertStatement
  rw [Printer.statement, List.cons_append, Prog.bind_ok (expectKeyword_run _ _),
    List.append_assoc,
    Prog.bind_ok (parseTableRef_run
      (by simp [Printer.timestamp, Printer.timestampPart, matchToken])),
    Prog.bind_ok (parseTimestamp_run ht rest)]
  rfl

/-- Every further row has its separator, so there is a round for each of them. -/
theorem length_le_length_flatMap {α : Type} (separator : Lexeme) (write : α → List Lexeme)
    (as : List α) : as.length ≤ (as.flatMap (fun a => separator :: write a)).length := by
  induction as with
  | nil => simp
  | cons a as ih =>
      rw [List.flatMap_cons, List.length_append, List.length_cons, List.length_cons]
      omega

theorem parseInsertStatement_run {table : TableRef} {columns : List String}
    {values : List (List Literal)} (hs : (Statement.insert table columns values).Printable)
    (hrest : Ending rest) :
    parseInsertStatement (Printer.statement (.insert table columns values) ++ rest) =
      .ok (.insert table columns values) rest := by
  obtain ⟨-, ⟨hne, -⟩, hvalues, hrows⟩ := hs
  cases values with
  | nil => exact absurd rfl hvalues
  | cons r rs =>
      unfold parseInsertStatement
      rw [Printer.statement, List.cons_append, Prog.bind_ok (expectKeyword_run _ _),
        List.cons_append, Prog.bind_ok (expectKeyword_run _ _), List.append_assoc,
        List.cons_append,
        Prog.bind_ok (parseTableRef_run (by simp [matchToken, Printer.punctuation])),
        Prog.bind_ok (expectPunctuation_run _ _), List.append_assoc, List.cons_append,
        Prog.bind_ok (commaSeparated_run (F := fun _ => True) hne
          (fun name _ rest _ => parseIdentifier_run name rest) (fun _ => trivial) trivial
          (by simp [matchToken, Printer.punctuation])),
        Prog.bind_ok (expectPunctuation_run _ _), List.cons_append,
        Prog.bind_ok (expectKeyword_run _ _), Prog.run_get_bind, Printer.commaList,
        Printer.joined, List.append_assoc]
      have hrun := parseRows_run rs r [] []
        ((Printer.row r ++ (rs.flatMap (fun x => Printer.punctuation "," :: Printer.row x) ++
          rest)).length + 1) rest hrows (.inl rfl)
        (by
          have hrounds := length_le_length_flatMap (Printer.punctuation ",") Printer.row rs
          simp only [List.length_append]
          omega)
        (hrest.not_punctuation (by simp))
      rw [List.nil_append] at hrun
      rw [Prog.bind_ok hrun]
      rfl

theorem parseUpdateStatement_run {table : TableRef} {assignments : List (String × Expression)}
    {clause : Option Condition} (hs : (Statement.update table assignments clause).Printable)
    (hrest : Ending rest) :
    parseUpdateStatement (Printer.statement (.update table assignments clause) ++ rest) =
      .ok (.update table assignments clause) rest := by
  obtain ⟨-, ⟨hne, hassignments⟩, c, rfl, hc⟩ := hs
  unfold parseUpdateStatement
  rw [Printer.statement, List.cons_append, Prog.bind_ok (expectKeyword_run _ _),
    List.append_assoc, List.cons_append,
    Prog.bind_ok (parseTableRef_run (by simp [matchToken, Printer.keyword])),
    Prog.bind_ok (expectKeyword_run _ _), Printer.whereClause, List.append_assoc,
    List.cons_append,
    Prog.bind_ok (commaSeparated_run (F := fun _ => True) hne
      (fun a ha rest _ => parseAssignment_run (hassignments a ha).2 rest) (fun _ => trivial)
      trivial (by simp [matchToken, Printer.keyword])),
    Prog.bind_ok (expectKeyword_run _ _),
    Prog.bind_ok (parseCondition_run hc (hrest.noKeywordNext _) (hrest.noKeywordNext _))]
  rfl

theorem parseDeleteStatement_run {table : TableRef} {clause : Option Condition}
    (hs : (Statement.delete table clause).Printable) (hrest : Ending rest) :
    parseDeleteStatement (Printer.statement (.delete table clause) ++ rest) =
      .ok (.delete table clause) rest := by
  obtain ⟨-, c, rfl, hc⟩ := hs
  unfold parseDeleteStatement
  rw [Printer.statement, List.cons_append, Prog.bind_ok (expectKeyword_run _ _),
    List.cons_append, Prog.bind_ok (expectKeyword_run _ _), Printer.whereClause,
    List.append_assoc, List.cons_append,
    Prog.bind_ok (parseTableRef_run (by simp [matchToken, Printer.keyword])),
    Prog.bind_ok (expectKeyword_run _ _),
    Prog.bind_ok (parseCondition_run hc (hrest.noKeywordNext _) (hrest.noKeywordNext _))]
  rfl

theorem parseSelectStatement_run {selectAll : Bool} {items : List SelectItem} {table : TableRef}
    {clause : Option Condition} (hs : (Statement.select selectAll items table clause).Printable)
    (hrest : Ending rest) :
    parseSelectStatement (Printer.statement (.select selectAll items table clause) ++ rest) =
      .ok (.select selectAll items table clause) rest := by
  obtain ⟨hitems, -, hclause⟩ := hs
  unfold parseSelectStatement
  rw [Printer.statement, List.cons_append, Prog.bind_ok (expectKeyword_run _ _),
    List.append_assoc, List.cons_append, Prog.bind_ok (parseSelectList_run hitems _)]
  dsimp only
  rw [Prog.bind_ok (expectKeyword_run _ _), List.append_assoc,
    Prog.bind_ok (parseTableRef_run (whereClause_not_dot clause hrest)),
    Prog.bind_ok (parseWhereClause_run hclause hrest)]
  rfl

/-- A printed statement starts with the keyword its production is chosen by. -/
theorem parseByKeyword_run {s : Statement} (hs : s.Printable) (hrest : Ending rest) :
    ∃ v, (Printer.statement s).head? = some (Printer.keyword v) ∧
      parseByKeyword v (Printer.statement s ++ rest) = .ok s rest := by
  cases s with
  | createDatabase name => exact ⟨"CREATE", rfl, parseCreateStatement_run hs rfl⟩
  | dropDatabase name => exact ⟨"DROP", rfl, parseDropStatement_run hrest rfl⟩
  | useDatabase name => exact ⟨"USE", rfl, parseUseStatement_run name⟩
  | createUser username password => exact ⟨"CREATE", rfl, parseCreateStatement_run hs rfl⟩
  | grant permissions scope username => exact ⟨"GRANT", rfl, parseGrantStatement_run hs⟩
  | revoke permissions scope username => exact ⟨"REVOKE", rfl, parseRevokeStatement_run hs⟩
  | revert table t => exact ⟨"REVERT", rfl, parseRevertStatement_run hs.2⟩
  | createTable table columns => exact ⟨"CREATE", rfl, parseCreateStatement_run hs rfl⟩
  | dropTable table => exact ⟨"DROP", rfl, parseDropStatement_run hrest rfl⟩
  | insert table columns values => exact ⟨"INSERT", rfl, parseInsertStatement_run hs hrest⟩
  | update table assignments clause => exact ⟨"UPDATE", rfl, parseUpdateStatement_run hs hrest⟩
  | delete table clause => exact ⟨"DELETE", rfl, parseDeleteStatement_run hs hrest⟩
  | select selectAll items table clause =>
      exact ⟨"SELECT", rfl, parseSelectStatement_run hs hrest⟩

theorem parseStatement_printed {s : Statement} (hs : s.Printable) (hrest : Ending rest) :
    ∃ last, parseStatement (Printer.statement s ++ rest) = .ok s last := by
  obtain ⟨v, hhead, hrun⟩ := parseByKeyword_run hs hrest
  have hnext : next (Printer.statement s ++ rest) = Printer.keyword v := by
    rw [next, List.headD_eq_head?_getD, List.head?_append, hhead]
    rfl
  have hend : ∃ last, parseEnd s rest = .ok s last := by
    rcases hrest with rfl | rfl
    · exact ⟨_, parseEnd_run (acceptPunctuation_run ";" [⟨.endOfFile, ""⟩])⟩
    · exact ⟨_, parseEnd_run (acceptPunctuation_of_nextIsNot (by simp [matchToken]))⟩
  obtain ⟨last, hend⟩ := hend
  refine ⟨last, ?_⟩
  rw [parseStatement_run, hnext, if_neg (by simp [Printer.keyword]),
    if_neg (by simp [Printer.keyword])]
  show (parseByKeyword v >>= parseEnd) _ = _
  rw [Prog.bind_ok hrun, hend]

end Statements

end Parser

end QuasarDB.Server
