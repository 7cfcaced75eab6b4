import QuasarDB.Server.AstJson
import QuasarDB.Server.Proofs.ParserPrintable

set_option autoImplicit false

/-! # What a storage node reads is what the server has written

The encoder and the decoder of the syntax tree are two case analyses. Decoding what was encoded gives
the statement back, with integers in canonical decimal and without the password of a `CREATE USER`. -/

namespace QuasarDB.Server

open Core

/-! ## What the wire keeps of a statement -/

/-- The literal with an integer in canonical decimal. -/
def Literal.canonical (l : Literal) : Literal :=
  match l.literalType with
  | .integer => ⟨.integer, toString (decimalValue l.value.toList)⟩
  | _ => l

/-- An integer literal is an `int` of 32 bits. -/
def Literal.FitsInt32 (l : Literal) : Prop :=
  l.literalType = .integer → decimalValue l.value.toList < 2 ^ 31

instance (l : Literal) : Decidable l.FitsInt32 := inferInstanceAs (Decidable (_ → _))

def Expression.canonical : Expression → Expression
  | .literal l => .literal l.canonical
  | e => e

def Expression.literals : Expression → List Literal
  | .literal l => [l]
  | _ => []

def Condition.canonical : Condition → Condition
  | .comparison left op right => .comparison left.canonical op right.canonical
  | .between value lower upper => .between value.canonical lower.canonical upper.canonical
  | .like value pattern => .like value.canonical pattern
  | .and left right => .and left.canonical right.canonical
  | .or left right => .or left.canonical right.canonical

def Condition.literals : Condition → List Literal
  | .comparison left _ right => left.literals ++ right.literals
  | .between value lower upper => value.literals ++ lower.literals ++ upper.literals
  | .like value _ => value.literals
  | .and left right => left.literals ++ right.literals
  | .or left right => left.literals ++ right.literals

def ColumnDef.canonical (column : ColumnDef) : ColumnDef :=
  { column with defaultValue := column.defaultValue.map Literal.canonical }

def SelectItem.canonical (item : SelectItem) : SelectItem :=
  { item with expr := item.expr.canonical }

/-- What arrives of a statement. -/
def Statement.canonical : Statement → Statement
  | .createUser username _ => .createUser username ""
  | .createTable table columns => .createTable table (columns.map ColumnDef.canonical)
  | .insert table columns values => .insert table columns (values.map (·.map Literal.canonical))
  | .update table assignments whereClause =>
      .update table (assignments.map fun a => (a.1, a.2.canonical))
        (whereClause.map Condition.canonical)
  | .delete table whereClause => .delete table (whereClause.map Condition.canonical)
  | .select selectAll items table whereClause =>
      .select selectAll (items.map SelectItem.canonical) table
        (whereClause.map Condition.canonical)
  | s => s

/-- All literals of a statement. -/
def Statement.literals : Statement → List Literal
  | .createTable _ columns => columns.flatMap (·.defaultValue.toList)
  | .insert _ _ values => values.flatten
  | .update _ assignments whereClause =>
      assignments.flatMap (·.2.literals) ++ whereClause.toList.flatMap Condition.literals
  | .delete _ whereClause => whereClause.toList.flatMap Condition.literals
  | .select _ items _ whereClause =>
      items.flatMap (·.expr.literals) ++ whereClause.toList.flatMap Condition.literals
  | _ => []

/-! ## Successful steps -/

section Except

variable {ε α β : Type}

@[simp] theorem except_ok_bind (a : α) (f : α → Except ε β) : (Except.ok a >>= f) = f a := rfl

@[simp] theorem except_pure (a : α) : (pure a : Except ε α) = .ok a := rfl

end Except

/-- The encoding succeeds, and decoding its value gives `a`. -/
def RoundTrips {α : Type} (encoded : Except String Json) (decode : Json → Except String α) (a : α) :
    Prop :=
  ∃ json, encoded = .ok json ∧ decode json = .ok a

/-- Elements that are encoded and decoded one by one. -/
theorem mapM_roundTrips {α β : Type} {encode : α → Except String Json}
    {decode : Json → Except String β} {g : α → β} {as : List α}
    (h : ∀ a ∈ as, RoundTrips (encode a) decode (g a)) :
    ∃ elements, as.mapM encode = .ok elements ∧ elements.mapM decode = .ok (as.map g) := by
  induction as with
  | nil => exact ⟨[], rfl, rfl⟩
  | cons a as ih =>
      obtain ⟨json, hencode, hdecode⟩ := h a (by simp)
      obtain ⟨elements, hencodes, hdecodes⟩ := ih (fun b hb => h b (by simp [hb]))
      exact ⟨json :: elements, by simp [hencode, hencodes], by simp [hdecode, hdecodes]⟩

/-! ## Names -/

theorem ne_dot_of_isIdentifier {name : String} (h : IsIdentifier name) :
    ∀ c ∈ name.toList, c ≠ '.' := by
  rintro c hc rfl
  exact absurd (h.2.1 _ hc) (by decide)

theorem ne_dot_of_isScopePart {part : String} (h : IsScopePart part) :
    ∀ c ∈ part.toList, c ≠ '.' := by
  rcases h with rfl | h
  · decide
  · exact ne_dot_of_isIdentifier h

/-- A reference without a dot in its names is read back from its text. -/
theorem tableFromString_tableToString {table : TableRef}
    (hdb : ∀ c ∈ table.database.toList, c ≠ '.') (htable : ∀ c ∈ table.table.toList, c ≠ '.') :
    tableFromString (tableToString table) = table := by
  have hall : ∀ {w : List Char}, (∀ c ∈ w, c ≠ '.') → ∀ c ∈ w, (c != '.') = true := by
    intro w hw c hc
    simpa using hw c hc
  obtain ⟨database, name⟩ := table
  by_cases hempty : database = ""
  · subst hempty
    have hnil : name.toList.dropWhile (· != '.') = [] := List.dropWhile_eq_nil_iff.2 (hall htable)
    show tableFromString name = _
    unfold tableFromString
    rw [hnil]
  · have htext : (database ++ "." ++ name).toList = database.toList ++ '.' :: name.toList := by
      simp [String.toList_append]
    have hdrop : (database.toList ++ '.' :: name.toList).dropWhile (· != '.') =
        '.' :: name.toList := by
      rw [List.dropWhile_append_of_pos (hall hdb)]
      rfl
    have htake : (database.toList ++ '.' :: name.toList).takeWhile (· != '.') =
        database.toList := by
      rw [List.takeWhile_append_of_pos (hall hdb)]
      simp
    rw [tableToString, if_neg hempty]
    unfold tableFromString
    rw [htext, hdrop, htake]
    simp

theorem tableFromString_of_printable {table : TableRef} (h : table.Printable) :
    tableFromString (tableToString table) = table := by
  refine tableFromString_tableToString ?_ (ne_dot_of_isIdentifier h.2)
  rcases h.1 with hempty | hdb
  · simp [hempty]
  · exact ne_dot_of_isIdentifier hdb

theorem tableFromString_of_printableScope {scope : TableRef} (h : scope.PrintableScope) :
    tableFromString (tableToString scope) = scope :=
  tableFromString_tableToString (ne_dot_of_isScopePart h.1) (ne_dot_of_isScopePart h.2)

/-! ## Literals -/

theorem toInt_of_lt {n : Nat} (h : n < 2 ^ 31) : toInt n = n := by
  refine Int.bmod_eq_of_le_mul_two ?_ ?_ <;> push_cast <;> omega

/-- Digits are read as their number if it is below `2 ^ 31`. -/
theorem stoi_digits {v : String} (hv : IsDigits v) :
    stoi v = if decimalValue v.toList < 2 ^ 31 then .ok (decimalValue v.toList : Int)
      else .error "stoi" := by
  obtain ⟨hne, hdigits⟩ := hv
  obtain ⟨c, rest, htext⟩ : ∃ c rest, v.toList = c :: rest := by
    cases htext : v.toList with
    | nil => exact absurd (String.toList_eq_nil_iff.1 htext) hne
    | cons c rest => exact ⟨c, rest, rfl⟩
  rw [htext] at hdigits ⊢
  have hc := isDigit_iff.1 (hdigits c (by simp))
  have hspace : Lexer.isSpace c = false := by
    rw [Lexer.isSpace]
    simp only [Bool.or_eq_false_iff, beq_eq_false_iff_ne, Bool.and_eq_false_iff,
      decide_eq_false_iff_not]
    refine ⟨?_, by omega⟩
    rintro rfl
    exact absurd hc (by decide)
  have hsign : splitSign (c :: rest) = (false, c :: rest) := by
    unfold splitSign
    split
    · rename_i heq
      cases heq
      exact absurd hc (by decide)
    · rename_i heq
      cases heq
      exact absurd hc (by decide)
    · rfl
  have htake : (c :: rest).takeWhile Lexer.isDigit = c :: rest :=
    List.takeWhile_eq_self_iff.2 hdigits
  unfold stoi
  rw [htext, List.dropWhile_cons_of_neg (by simp [hspace]), hsign]
  simp only [htake, List.isEmpty_cons, Bool.false_eq_true, if_false]
  by_cases hfit : decimalValue (c :: rest) < 2 ^ 31
  · rw [if_pos ⟨by omega, by exact_mod_cast hfit⟩, if_pos hfit]
  · rw [if_neg (fun h => hfit (by exact_mod_cast h.2)), if_neg hfit]

theorem stoi_of_digits {v : String} (hv : IsDigits v) (hfit : decimalValue v.toList < 2 ^ 31) :
    stoi v = .ok (decimalValue v.toList) := by
  rw [stoi_digits hv, if_pos hfit]

/-- What is encoded of a literal: an object the decoders of literals and of expressions read. -/
theorem literal_roundTrips {l : Literal} (hl : l.Printable) (hfit : l.FitsInt32) :
    ∃ value, literalValue l = .ok value ∧ ∀ members,
      literalFromJson (.object ([("node_type", .string "Literal"),
        ("data_type", .string (literalTypeName l.literalType)), ("value", value)] ++ members)) =
        .ok l.canonical := by
  obtain ⟨type, v⟩ := l
  cases type with
  | string =>
      refine ⟨.string v, rfl, fun members => ?_⟩
      simp [literalFromJson, literalTypeName, literalTypeFromString, Literal.canonical]
  | null =>
      have hnull : v = "NULL" := hl
      refine ⟨.null, rfl, fun members => ?_⟩
      simp [literalFromJson, literalTypeName, literalTypeFromString, Literal.canonical, hnull]
  | integer =>
      have hn := hfit rfl
      refine ⟨.integer (decimalValue v.toList), ?_, fun members => ?_⟩
      · simp [literalValue, stoi_of_digits hl hn]
      · simp [literalFromJson, literalTypeName, literalTypeFromString, Literal.canonical,
          toInt_of_lt hn]
        rfl

/-! ## Expressions and conditions -/

/-- What is encoded of an expression: an object without an alias, which is no wildcard and is read
    the same with one. -/
theorem expression_roundTrips {e : Expression} (he : e.Parsed) (hfit : ∀ l ∈ e.literals, l.FitsInt32) :
    ∃ members, e.toJson = .ok (.object members) ∧ (∀ m ∈ members, m.1 ≠ "alias") ∧
      ∀ more, expressionFromJson (.object (members ++ more)) = .ok e.canonical ∧
        ∃ type, Json.valueString (.object (members ++ more)) "node_type" "" = .ok type ∧
          type ≠ "Wildcard" := by
  cases e with
  | identifier name =>
      refine ⟨_, rfl, by simp, fun more => ⟨?_, "Identifier", ?_, by decide⟩⟩ <;>
        simp [expressionFromJson, Expression.canonical]
  | aggregate function column =>
      refine ⟨_, rfl, by simp, fun more => ⟨?_, "AggregateFunction", ?_, by decide⟩⟩
      · cases function <;>
          simp [expressionFromJson, Expression.canonical, aggregateName, aggregateFromName]
      · simp
  | literal l =>
      obtain ⟨value, hvalue, hread⟩ := literal_roundTrips he (hfit l (by simp [Expression.literals]))
      refine ⟨_, by simp [Expression.toJson, Literal.toJson, hvalue]; rfl, by simp,
        fun more => ⟨?_, "Literal", ?_, by decide⟩⟩
      · have hliteral := hread more
        simp only [List.cons_append, List.nil_append] at hliteral ⊢
        simp [expressionFromJson, Expression.canonical, hliteral]
      · simp

/-- The form of `expression_roundTrips` for an expression that gets no alias. -/
theorem expression_roundTrips' {e : Expression} (he : e.Parsed)
    (hfit : ∀ l ∈ e.literals, l.FitsInt32) :
    RoundTrips e.toJson expressionFromJson e.canonical := by
  obtain ⟨members, htoJson, -, hread⟩ := expression_roundTrips he hfit
  have h := (hread []).1
  rw [List.append_nil] at h
  exact ⟨_, htoJson, h⟩

theorem Expression.PrintableValue.parsed {e : Expression} (h : e.PrintableValue) : e.Parsed :=
  Parser.Expression.PrintableValue.parsed h

theorem part_eq {json v : Json} {key : String} (h : json.get key = .ok v) :
    part json key = .ok ⟨v, sizeOf_lt_of_get h⟩ := by
  unfold part
  split
  · rename_i v' h'
    cases h.symm.trans h'
    rfl
  · rename_i e h'
    cases h.symm.trans h'

theorem comparisonOperatorFromName_name (op : ComparisonOperator) :
    comparisonOperatorFromName (comparisonOperatorName op) = op := by
  cases op <;> rfl

/-- The two operands of a binary node, and its operator. -/
theorem binaryExpression_members (op : String) (left right : Json) :
    (binaryExpression op left right).valueString "node_type" "" = .ok "BinaryExpression" ∧
      (binaryExpression op left right).valueString "operator" "" = .ok op ∧
      (binaryExpression op left right).get "left" = .ok left ∧
      (binaryExpression op left right).get "right" = .ok right := by
  simp [binaryExpression]

/-- The induction is on the condition; the operator tells the binary nodes apart. -/
theorem condition_roundTrips {c : Condition} (hc : c.Printable)
    (hfit : ∀ l ∈ c.literals, l.FitsInt32) :
    RoundTrips c.toJson conditionFromJson c.canonical := by
  induction c with
  | comparison left op right =>
      simp only [Condition.literals, List.mem_append, or_imp, forall_and] at hfit
      obtain ⟨l, hl, hl'⟩ := expression_roundTrips' hc.1.parsed hfit.1
      obtain ⟨r, hr, hr'⟩ := expression_roundTrips' hc.2.parsed hfit.2
      refine ⟨binaryExpression (comparisonOperatorName op) l r, by simp [Condition.toJson, hl, hr], ?_⟩
      obtain ⟨htype, hop, hleft, hright⟩ :=
        binaryExpression_members (comparisonOperatorName op) l r
      have hother : comparisonOperatorName op ≠ "AND" ∧ comparisonOperatorName op ≠ "OR" ∧
          comparisonOperatorName op ≠ "LIKE" := by
        cases op <;> decide
      rw [conditionFromJson]
      simp [htype, hop, hleft, hright, hother, hl', hr', comparisonOperatorFromName_name,
        Condition.canonical]
  | between value lower upper =>
      simp only [Condition.literals, List.mem_append, or_imp, forall_and] at hfit
      obtain ⟨v, hv, hv'⟩ := expression_roundTrips' hc.1.parsed hfit.1.1
      obtain ⟨l, hl, hl'⟩ := expression_roundTrips' hc.2.1.parsed hfit.1.2
      obtain ⟨u, hu, hu'⟩ := expression_roundTrips' hc.2.2.parsed hfit.2
      refine ⟨_, by simp only [Condition.toJson, hv, hl, hu, except_ok_bind]; rfl, ?_⟩
      rw [conditionFromJson]
      simp [hv', hl', hu', Condition.canonical]
  | like value pattern =>
      obtain ⟨v, hv, hv'⟩ := expression_roundTrips' hc.1.parsed hfit
      have hpattern : (⟨.string, pattern⟩ : Literal).Printable := hc.2
      obtain ⟨p, hp, hp'⟩ := literal_roundTrips hpattern (by simp [Literal.FitsInt32])
      have hread := hp' []
      rw [List.append_nil] at hread
      refine ⟨_, by simp only [Condition.toJson, Literal.toJson, hv, hp, except_ok_bind]; rfl, ?_⟩
      obtain ⟨htype, hop, hleft, hright⟩ := binaryExpression_members "LIKE" v _
      rw [conditionFromJson, htype, except_ok_bind, hop]
      simp only [except_ok_bind, hleft, hright, hread, hv']
      rfl
  | and left right ihl ihr =>
      simp only [Condition.literals, List.mem_append, or_imp, forall_and] at hfit
      obtain ⟨l, hl, hl'⟩ := ihl hc.1 hfit.1
      obtain ⟨r, hr, hr'⟩ := ihr hc.2 hfit.2
      refine ⟨binaryExpression "AND" l r, by simp [Condition.toJson, hl, hr], ?_⟩
      obtain ⟨htype, hop, hleft, hright⟩ := binaryExpression_members "AND" l r
      rw [conditionFromJson]
      simp [htype, hop, part_eq hleft, part_eq hright, hl', hr', Condition.canonical]
  | or left right ihl ihr =>
      simp only [Condition.literals, List.mem_append, or_imp, forall_and] at hfit
      obtain ⟨l, hl, hl'⟩ := ihl hc.1 hfit.1
      obtain ⟨r, hr, hr'⟩ := ihr hc.2 hfit.2
      refine ⟨binaryExpression "OR" l r, by simp [Condition.toJson, hl, hr], ?_⟩
      obtain ⟨htype, hop, hleft, hright⟩ := binaryExpression_members "OR" l r
      rw [conditionFromJson]
      simp [htype, hop, part_eq hleft, part_eq hright, hl', hr', Condition.canonical]

/-! ## The parts of a statement -/

theorem literal_roundTrips' {l : Literal} (hl : l.Printable) (hfit : l.FitsInt32) :
    RoundTrips l.toJson literalFromJson l.canonical := by
  obtain ⟨value, hvalue, hread⟩ := literal_roundTrips hl hfit
  have h := hread []
  rw [List.append_nil] at h
  exact ⟨_, by simp only [Literal.toJson, hvalue, except_ok_bind]; rfl, h⟩

theorem column_roundTrips {column : ColumnDef} (hcolumn : column.Printable)
    (hfit : ∀ l ∈ column.defaultValue, l.FitsInt32) :
    RoundTrips column.toJson columnFromJson column.canonical := by
  obtain ⟨name, columnType, notNull, indexed, defaultValue⟩ := column
  obtain ⟨-, hdefault⟩ := hcolumn
  have htype : columnTypeFromName (columnTypeName columnType) = columnType := by
    cases columnType <;> rfl
  cases defaultValue with
  | none =>
      refine ⟨_, rfl, ?_⟩
      cases notNull <;> cases indexed <;>
        simp [columnFromJson, arrayMember, ColumnDef.canonical, htype]
  | some literal =>
      obtain ⟨json, hjson, hread⟩ := literal_roundTrips' (hdefault literal rfl) (hfit literal rfl)
      refine ⟨_, by simp only [ColumnDef.toJson, hjson, except_ok_bind]; rfl, ?_⟩
      rw [Json.set_of_ne _ _ (by simp)]
      cases notNull <;> cases indexed <;>
        simp [columnFromJson, arrayMember, ColumnDef.canonical, htype, hread]

theorem assignment_roundTrips {a : String × Expression} (ha : a.2.PrintableValue)
    (hfit : ∀ l ∈ a.2.literals, l.FitsInt32) :
    RoundTrips (assignmentToJson a) assignmentFromJson (a.1, a.2.canonical) := by
  obtain ⟨json, hjson, hread⟩ := expression_roundTrips' ha.parsed hfit
  refine ⟨_, by simp only [assignmentToJson, hjson, except_ok_bind]; rfl, ?_⟩
  simp [assignmentFromJson, hread]

/-- An item is no wildcard, so it is appended to the items read before it. -/
theorem projection_roundTrips {item : SelectItem} (hitem : item.Parsed)
    (hfit : ∀ l ∈ item.expr.literals, l.FitsInt32) :
    ∃ json, item.toJson = .ok json ∧ ∀ result,
      projectionFromJson result json = .ok (result.1, result.2 ++ [item.canonical]) := by
  obtain ⟨members, hmembers, halias, hread⟩ := expression_roundTrips hitem.1 hfit
  have hnone : (Json.object members).valueString "alias" "" = .ok "" := by
    have hfind := Json.find_append_of_ne "alias" halias []
    rw [List.append_nil, Json.find_nil, Json.find] at hfind
    rw [Json.valueString, Json.value, hfind]
  have hsome : (Json.object (members ++ [("alias", .string item.aliasName)])).valueString "alias" "" =
      .ok item.aliasName := by
    have hfind := Json.find_append_of_ne "alias" halias [("alias", .string item.aliasName)]
    rw [Json.find_cons, if_pos rfl, Json.find] at hfind
    rw [Json.valueString, Json.value, hfind]
    rfl
  by_cases hempty : item.aliasName = ""
  · obtain ⟨hexpr, type, htype, hwildcard⟩ := hread []
    rw [List.append_nil] at hexpr htype
    refine ⟨_, by simp only [SelectItem.toJson, hmembers, except_ok_bind, if_pos hempty]; rfl, ?_⟩
    intro result
    simp [projectionFromJson, htype, hwildcard, selectItemFromJson, hexpr, hnone,
      SelectItem.canonical, hempty]
  · obtain ⟨hexpr, type, htype, hwildcard⟩ := hread [("alias", .string item.aliasName)]
    refine ⟨_, by simp only [SelectItem.toJson, hmembers, except_ok_bind, if_neg hempty]; rfl, ?_⟩
    intro result
    rw [Json.set_of_ne _ _ halias]
    simp [projectionFromJson, htype, hwildcard, selectItemFromJson, hexpr, hsome,
      SelectItem.canonical]

theorem projections_roundTrip {items : List SelectItem} (hitems : ∀ i ∈ items, i.Parsed)
    (hfit : ∀ i ∈ items, ∀ l ∈ i.expr.literals, l.FitsInt32) :
    ∃ projections, items.mapM SelectItem.toJson = .ok projections ∧ ∀ result,
      projections.foldlM projectionFromJson result =
        .ok (result.1, result.2 ++ items.map SelectItem.canonical) := by
  induction items with
  | nil => exact ⟨[], rfl, fun result => by simp⟩
  | cons item items ih =>
      obtain ⟨json, hjson, hread⟩ := projection_roundTrips (hitems item (by simp))
        (hfit item (by simp))
      obtain ⟨projections, hprojections, hreads⟩ := ih (fun i hi => hitems i (by simp [hi]))
        (fun i hi => hfit i (by simp [hi]))
      refine ⟨json :: projections, by simp [hjson, hprojections], fun result => ?_⟩
      simp [hread, hreads]

theorem whereClause_roundTrips (ms : List (String × Json)) (hms : ∀ m ∈ ms, m.1 ≠ "where_clause")
    {clause : Option Condition} (hclause : ∀ c ∈ clause, c.Printable)
    (hfit : ∀ l ∈ clause.toList.flatMap Condition.literals, l.FitsInt32) :
    ∃ more, withWhereClause (.object ms) clause = .ok (.object (ms ++ more)) ∧
      whereClauseFromJson (.object (ms ++ more)) = .ok (clause.map Condition.canonical) := by
  cases clause with
  | none =>
      refine ⟨[], by simp [withWhereClause], ?_⟩
      rw [whereClauseFromJson, Json.find_append_of_ne _ hms]
      rfl
  | some c =>
      obtain ⟨json, hjson, hread⟩ := condition_roundTrips (hclause c rfl) (by simpa using hfit)
      refine ⟨[("where_clause", json)], ?_, ?_⟩
      · simp [withWhereClause, hjson, Json.set_of_ne _ _ hms]
      · rw [whereClauseFromJson, Json.find_append_of_ne _ hms]
        simp [hread]

/-! ## Statements -/

theorem getStrings_array (names : List String) :
    (Json.array (names.map Json.string)).getStrings = .ok names := by
  show (names.map Json.string).mapM Json.getString = _
  induction names with
  | nil => rfl
  | cons name names ih => simp [ih]

theorem forall_mem_flatMap {α β : Type} {f : α → List β} {P : β → Prop} {as : List α}
    (h : ∀ b ∈ as.flatMap f, P b) : ∀ a ∈ as, ∀ b ∈ f a, P b :=
  fun a ha b hb => h b (List.mem_flatMap.2 ⟨a, ha, hb⟩)

/-- Every statement the parser can produce round-trips, if its integers fit. -/
theorem statement_roundTrips {s : Statement} (hs : s.Parsed)
    (hfit : ∀ l ∈ s.literals, l.FitsInt32) :
    RoundTrips (serializeAst s) deserializeAst s.canonical := by
  cases s with
  | createDatabase name => exact ⟨_, rfl, by simp [deserializeAst, Statement.canonical]⟩
  | dropDatabase name => exact ⟨_, rfl, by simp [deserializeAst, Statement.canonical]⟩
  | useDatabase name => exact ⟨_, rfl, by simp [deserializeAst, Statement.canonical]⟩
  | createUser username password => exact ⟨_, rfl, by simp [deserializeAst, Statement.canonical]⟩
  | grant permissions scope username =>
      refine ⟨_, rfl, ?_⟩
      simp [deserializeAst, Statement.canonical, getStrings_array,
        tableFromString_of_printableScope hs.2.2.1]
  | revoke permissions scope username =>
      refine ⟨_, rfl, ?_⟩
      simp [deserializeAst, Statement.canonical, getStrings_array,
        tableFromString_of_printableScope hs.2.2.1]
  | revert table timestamp =>
      refine ⟨_, rfl, ?_⟩
      simp [deserializeAst, Statement.canonical, tableFromJson, tableFromString_of_printable hs.1]
  | dropTable table =>
      refine ⟨_, rfl, ?_⟩
      simp [deserializeAst, Statement.canonical, tableFromJson, tableFromString_of_printable hs]
  | createTable table columns =>
      have hcolumns : ∀ c ∈ columns, RoundTrips c.toJson columnFromJson c.canonical := fun c hc =>
        column_roundTrips (hs.2.2 c hc) (fun l hl =>
          forall_mem_flatMap hfit c hc l (Option.mem_toList.2 hl))
      obtain ⟨elements, hencode, hdecode⟩ := mapM_roundTrips hcolumns
      refine ⟨_, by simp only [serializeAst, hencode, except_ok_bind]; rfl, ?_⟩
      simp [deserializeAst, Statement.canonical, tableFromJson, arrayMember, hdecode,
        tableFromString_of_printable hs.1]
  | insert table columns values =>
      -- the values are an array of rows, each an array of literals
      have hrow : ∀ row ∈ values, RoundTrips (do return Json.array (← row.mapM Literal.toJson))
          (fun row => (elements row).mapM literalFromJson) (row.map Literal.canonical) := by
        intro row hrow
        have hliterals : ∀ l ∈ row, RoundTrips l.toJson literalFromJson l.canonical := fun l hl =>
          literal_roundTrips' ((hs.2.2.2 row hrow).2 l hl)
            (hfit l (List.mem_flatten.2 ⟨row, hrow, hl⟩))
        obtain ⟨elements, hencode, hdecode⟩ := mapM_roundTrips hliterals
        exact ⟨.array elements, by simp [hencode], hdecode⟩
      obtain ⟨rows, hencode, hdecode⟩ := mapM_roundTrips hrow
      refine ⟨_, by simp only [serializeAst, hencode, except_ok_bind]; rfl, ?_⟩
      simp [deserializeAst, Statement.canonical, tableFromJson, arrayMember, hdecode,
        getStrings_array, tableFromString_of_printable hs.1]
  | update table assignments whereClause =>
      simp only [Statement.literals, List.mem_append, or_imp, forall_and] at hfit
      obtain ⟨htable, ⟨-, hassignments⟩, c, rfl, hc⟩ := hs
      obtain ⟨elements, hencode, hdecode⟩ := mapM_roundTrips fun a ha =>
        assignment_roundTrips (hassignments a ha).2 (forall_mem_flatMap hfit.1 a ha)
      obtain ⟨more, hmore, hread⟩ := whereClause_roundTrips
        [("node_type", .string "UpdateStatement"), ("table", .string (tableToString table)),
          ("assignments", .array elements)] (by simp) (by simpa using hc) hfit.2
      refine ⟨_, by simp only [serializeAst, hencode, except_ok_bind]; exact hmore, ?_⟩
      simp only [List.cons_append, List.nil_append] at hread ⊢
      simp [deserializeAst, Statement.canonical, tableFromJson, arrayMember, hdecode, hread,
        tableFromString_of_printable htable]
  | delete table whereClause =>
      obtain ⟨htable, c, rfl, hc⟩ := hs
      obtain ⟨more, hmore, hread⟩ := whereClause_roundTrips
        [("node_type", .string "DeleteStatement"), ("table", .string (tableToString table))]
        (by simp) (by simpa using hc) hfit
      refine ⟨_, hmore, ?_⟩
      simp only [List.cons_append, List.nil_append] at hread ⊢
      simp [deserializeAst, Statement.canonical, tableFromJson, hread,
        tableFromString_of_printable htable]
  | select selectAll items table whereClause =>
      simp only [Statement.literals, List.mem_append, or_imp, forall_and] at hfit
      obtain ⟨hitems, htable, hclause⟩ := hs
      -- `*` is written as a projection of its own, and read back as the flag
      obtain ⟨projections, hencode, hdecode⟩ : ∃ projections,
          projectionsToJson selectAll items = .ok projections ∧
          projections.foldlM projectionFromJson (false, []) =
            .ok (selectAll, items.map SelectItem.canonical) := by
        cases selectAll with
        | true =>
            have hnil : items = [] := hitems
            exact ⟨_, rfl, by simp [projectionFromJson, hnil]⟩
        | false =>
            obtain ⟨projections, hencode, hdecode⟩ :=
              projections_roundTrip hitems.2 (forall_mem_flatMap hfit.1)
            exact ⟨projections, hencode, by simp [hdecode]⟩
      obtain ⟨more, hmore, hread⟩ := whereClause_roundTrips
        [("node_type", .string "SelectStatement"), ("table", .string (tableToString table)),
          ("projections", .array projections)] (by simp) hclause hfit.2
      refine ⟨_, by simp only [serializeAst, hencode, except_ok_bind]; exact hmore, ?_⟩
      simp only [List.cons_append, List.nil_append] at hread ⊢
      simp [deserializeAst, Statement.canonical, tableFromJson, arrayMember, hdecode, hread,
        tableFromString_of_printable htable]

/-- A statement that is parsed from a text, whose integers fit into 32 bits, is encoded, and the
    storage node decodes the same statement, with canonical integers and without a password. -/
theorem deserializeAst_serializeAst {source : String} {s : Statement}
    (hs : parse (Lexer.tokenize source) = .ok s) (hfit : ∀ l ∈ s.literals, l.FitsInt32) :
    ∃ json, serializeAst s = .ok json ∧ deserializeAst json = .ok s.canonical :=
  statement_roundTrips (parsed_of_parse_tokenize hs) hfit

theorem deserializeAst_serializeAst_update :
    ∃ json, serializeAst (.update ⟨"shop", "t"⟩ [("n", .literal ⟨.integer, "007"⟩)]
        (some (.like (.identifier "name") "a.*"))) = .ok json ∧
      deserializeAst json = .ok (.update ⟨"shop", "t"⟩ [("n", .literal ⟨.integer, "7"⟩)]
        (some (.like (.identifier "name") "a.*"))) :=
  deserializeAst_serializeAst
    (s := .update ⟨"shop", "t"⟩ [("n", .literal ⟨.integer, "007"⟩)]
      (some (.like (.identifier "name") "a.*")))
    (show parse (Lexer.tokenize "UPDATE shop.t SET n = 007 WHERE name LIKE \"a.*\";") = _ by
      decide +kernel)
    (by decide)

end QuasarDB.Server
