import QuasarDB.Server.Lexer

set_option autoImplicit false

/-! # The lexer accounts for every character

The source is the texts of the tokens, in their order, with blanks between them, and each token says
where its text starts. Lines and columns count bytes: any source, UTF-8 or not, is read with one character
for each of its bytes. -/

namespace QuasarDB.Server

/-- The line and the column behind a text that starts at line 1, column 1. -/
def placeAfter (text : List Char) : Nat × Nat :=
  (1 + text.count '\n', 1 + (text.reverse.takeWhile (· != '\n')).length)

theorem placeAfter_newline (text : List Char) :
    placeAfter (text ++ ['\n']) = ((placeAfter text).1 + 1, 1) := by
  simp [placeAfter, Nat.add_assoc]

theorem placeAfter_append {c : Char} (h : c ≠ '\n') (text : List Char) :
    placeAfter (text ++ [c]) = ((placeAfter text).1, (placeAfter text).2 + 1) := by
  simp [placeAfter, h, Nat.add_assoc]

/-- A token is what the lexer makes of the text `span`, when `after` comes behind it. -/
def Lexeme.HasText (t : Lexeme) (span after : List Char) : Prop :=
  match t.type with
  | .keyword => t.value = String.ofList (Lexer.toUpper span) ∧ t.value ∈ Lexer.keywords
  | .identifier =>
      t.value = String.ofList span ∧ String.ofList (Lexer.toUpper span) ∉ Lexer.keywords
  | .stringLiteral => span = '"' :: (t.value.toList ++ ['"'])
  | .integerLiteral | .operator | .punctuation => t.value = String.ofList span
  | .invalid =>
      (∃ c ≠ '"', span = [c] ∧ t.value = String.ofList [c]) ∨
        (span = '"' :: t.value.toList ∧ '"' ∉ t.value.toList ∧ after = [])
  | .endOfFile => False

/-- A token with its text, and the blanks before it. -/
structure Piece where
  gap : List Char
  span : List Char
  token : Token

namespace Piece

def text (piece : Piece) : List Char := piece.gap ++ piece.span

/-- The piece stands between `before` and `after`. -/
structure Stands (piece : Piece) (before after : List Char) : Prop where
  blank : ∀ c ∈ piece.gap, Lexer.isSpace c = true
  span_ne_nil : piece.span ≠ []
  place : (piece.token.line, piece.token.column) = placeAfter (before ++ piece.gap)
  hasText : piece.token.HasText piece.span after

end Piece

namespace Lexer

/-! ## One token -/

/-- The lexer has read `before`, and `rest` is left. -/
structure Stands (lexer : Lexer) (before rest : List Char) : Prop where
  place : (lexer.line, lexer.column) = placeAfter before
  rest : lexer.rest = rest

variable {lexer : Lexer} {before rest : List Char} {c : Char}

theorem Stands.advance (h : lexer.Stands before (c :: rest)) :
    (advance c rest lexer).Stands (before ++ [c]) rest := by
  have hplace := h.place
  unfold Lexer.advance
  by_cases hc : c = '\n'
  · subst hc
    refine ⟨?_, rfl⟩
    rw [placeAfter_newline, ← hplace]
    rfl
  · rw [if_neg (by simpa using hc)]
    refine ⟨?_, rfl⟩
    rw [placeAfter_append hc, ← hplace]

/-- A scan takes the longest front that passes its test. -/
theorem Stands.scanWhile (p : Char → Bool) (h : lexer.Stands before rest) :
    ∃ front back stop, rest = front ++ back ∧ Lexer.scanWhile p rest lexer = (front, stop) ∧
      stop.Stands (before ++ front) back ∧ (∀ d ∈ front, p d = true) ∧
      ∀ d ∈ back.head?, p d = false := by
  induction rest generalizing lexer before with
  | nil => exact ⟨[], [], lexer, rfl, rfl, by simpa using h, by simp, by simp⟩
  | cons c rest ih =>
      by_cases hc : p c = true
      · obtain ⟨front, back, stop, hrest, hscan, hstop, hall, hback⟩ := ih h.advance
        refine ⟨c :: front, back, stop, by rw [hrest]; rfl, ?_, ?_, ?_, hback⟩
        · rw [Lexer.scanWhile, if_pos hc, hscan]
        · simpa using hstop
        · exact List.forall_mem_cons.2 ⟨hc, hall⟩
      · refine ⟨[], c :: rest, lexer, rfl, ?_, by simpa using h, by simp, by simpa using hc⟩
        rw [Lexer.scanWhile, if_neg hc]

/-- The scan of a token from where it starts: its text, and the lexer behind it. -/
def Accounts (before rest : List Char) (scanned : Token × Lexer) : Prop :=
  ∃ span after, span ≠ [] ∧ rest = span ++ after ∧ scanned.2.Stands (before ++ span) after ∧
    (scanned.1.line, scanned.1.column) = placeAfter before ∧ scanned.1.HasText span after

/-- A scan that begins with a character of its kind takes that one. -/
theorem Stands.scanWord {p : Char → Bool} (h : lexer.Stands before (c :: rest)) (hc : p c = true) :
    ∃ front back stop, front ≠ [] ∧ c :: rest = front ++ back ∧
      Lexer.scanWhile p lexer.rest lexer = (front, stop) ∧ stop.Stands (before ++ front) back := by
  obtain ⟨front, back, stop, hrest, hscan, hstop, -, hback⟩ := h.scanWhile p
  refine ⟨front, back, stop, ?_, hrest, by rw [h.rest]; exact hscan, hstop⟩
  rintro rfl
  rw [List.nil_append] at hrest
  rw [← hrest] at hback
  exact absurd (hback c rfl) (by rw [hc]; decide)

theorem Stands.scanNumber (h : lexer.Stands before (c :: rest)) (hc : isDigit c = true) :
    Accounts before (c :: rest) lexer.scanNumber := by
  obtain ⟨front, back, stop, hne, hrest, hscan, hstop⟩ := h.scanWord hc
  unfold Lexer.scanNumber
  rw [hscan]
  exact ⟨front, back, hne, hrest, hstop, h.place, rfl⟩

theorem Stands.scanIdentifierOrKeyword (h : lexer.Stands before (c :: rest))
    (hc : isWordChar c = true) : Accounts before (c :: rest) lexer.scanIdentifierOrKeyword := by
  obtain ⟨front, back, stop, hne, hrest, hscan, hstop⟩ := h.scanWord hc
  unfold Lexer.scanIdentifierOrKeyword
  rw [hscan]
  dsimp only
  split
  · next hkeyword =>
      exact ⟨front, back, hne, hrest, hstop, h.place, rfl, List.contains_iff_mem.1 hkeyword⟩
  · next hkeyword =>
      exact ⟨front, back, hne, hrest, hstop, h.place, rfl,
        fun hmem => hkeyword (List.contains_iff_mem.2 hmem)⟩

/-- One character makes an operator, a punctuation mark or an invalid token. -/
theorem Stands.scanOne (h : lexer.Stands before (c :: rest)) {type : TokenType}
    (hplain : type = .operator ∨ type = .punctuation ∨ type = .invalid ∧ c ≠ '"') :
    Accounts before (c :: rest) (token lexer type [c], Lexer.advance c rest lexer) := by
  refine ⟨[c], rest, by simp, rfl, h.advance, h.place, ?_⟩
  rcases hplain with rfl | rfl | ⟨rfl, hc⟩
  · rfl
  · rfl
  · exact .inl ⟨c, hc, rfl, rfl⟩

theorem Stands.scanOperator (h : lexer.Stands before (c :: rest)) :
    Accounts before (c :: rest) (scanOperator c rest lexer) := by
  have hone := @Stands.scanOne _ _ _ _ h .operator (.inl rfl)
  unfold Lexer.scanOperator
  split
  · next after =>
      split
      · refine ⟨[c, '='], after, by simp, rfl, ?_, h.place, rfl⟩
        simpa using h.advance.advance
      · exact hone
  · exact hone

theorem Stands.scanStringLiteral (h : lexer.Stands before ('"' :: rest)) :
    Accounts before ('"' :: rest) (scanStringLiteral '"' rest lexer) := by
  obtain ⟨front, back, stop, hrest, hscan, hstop, hall, hback⟩ := h.advance.scanWhile (· != '"')
  have hquote : '"' ∉ front := fun hmem => absurd (hall _ hmem) (by simp)
  unfold Lexer.scanStringLiteral
  rw [hscan]
  dsimp only
  rw [hstop.rest]
  cases back with
  | nil =>
      rw [List.append_nil] at hrest
      refine ⟨'"' :: front, [], by simp, by rw [hrest]; simp, by simpa using hstop, h.place, .inr ?_⟩
      simpa [token] using hquote
  | cons quote after =>
      obtain rfl : quote = '"' := by simpa using hback quote rfl
      refine ⟨'"' :: (front ++ ['"']), after, by simp, by rw [hrest]; simp, ?_, h.place, ?_⟩
      · simpa using hstop.advance
      · simp [Lexeme.HasText, token]

/-! ## All tokens -/

/-- `NextToken` skips the blanks, and either they were all that was left or a token follows. -/
theorem Stands.nextToken (h : lexer.Stands before rest) :
    ∃ gap text, rest = gap ++ text ∧ (∀ d ∈ gap, isSpace d = true) ∧
      ((text = [] ∧ lexer.nextToken.1.toLexeme = ⟨.endOfFile, ""⟩ ∧
        (lexer.nextToken.1.line, lexer.nextToken.1.column) = placeAfter (before ++ gap)) ∨
      Accounts (before ++ gap) text lexer.nextToken) := by
  obtain ⟨gap, text, start, hrest, hscan, hstart, hgap, -⟩ := h.scanWhile isSpace
  have hskip : lexer.skipWhitespace = start := by
    rw [Lexer.skipWhitespace, h.rest, hscan]
  refine ⟨gap, text, hrest, hgap, ?_⟩
  unfold Lexer.nextToken
  rw [hskip]
  dsimp only
  rw [hstart.rest]
  cases text with
  | nil => exact .inl ⟨rfl, rfl, hstart.place⟩
  | cons c text =>
      refine .inr ?_
      dsimp only
      by_cases hquote : c = '"'
      · subst hquote
        exact hstart.scanStringLiteral
      rw [if_neg (by simpa using hquote)]
      by_cases hdigit : isDigit c = true
      · rw [if_pos hdigit]
        exact hstart.scanNumber hdigit
      rw [if_neg hdigit]
      by_cases hletter : (isAlpha c || c == '_') = true
      · rw [if_pos hletter]
        refine hstart.scanIdentifierOrKeyword ?_
        simp only [isWordChar, Char.isAlphanum, isAlpha, Bool.or_eq_true] at hletter ⊢
        tauto
      rw [if_neg hletter]
      by_cases hoperator : isOperatorChar c = true
      · rw [if_pos hoperator]
        exact hstart.scanOperator
      rw [if_neg hoperator]
      by_cases hmark : isPunctuationChar c = true
      · rw [if_pos hmark]
        exact hstart.scanOne (.inr (.inl rfl))
      · rw [if_neg hmark]
        exact hstart.scanOne (.inr (.inr ⟨rfl, hquote⟩))

theorem tokenizeLoop_finish (rounds : Nat) (h : lexer.nextToken.1.type = .endOfFile) :
    tokenizeLoop (rounds + 1) lexer = [lexer.nextToken.1] :=
  if_pos h

theorem tokenizeLoop_token (rounds : Nat) (h : lexer.nextToken.1.type ≠ .endOfFile) :
    tokenizeLoop (rounds + 1) lexer =
      lexer.nextToken.1 :: tokenizeLoop rounds lexer.nextToken.2 :=
  if_neg h

/-- The tokens of what is left: each with its text, and the end of the file at the end. -/
theorem Stands.tokenizeLoop (rounds : Nat) (h : lexer.Stands before rest)
    (hrounds : rest.length < rounds) :
    ∃ pieces last eof, rest = pieces.flatMap Piece.text ++ last ∧
      (∀ c ∈ last, isSpace c = true) ∧
      tokenizeLoop rounds lexer = pieces.map Piece.token ++ [eof] ∧
      eof.toLexeme = ⟨.endOfFile, ""⟩ ∧ (eof.line, eof.column) = placeAfter (before ++ rest) ∧
      ∀ front piece back, pieces = front ++ piece :: back →
        piece.Stands (before ++ front.flatMap Piece.text) (back.flatMap Piece.text ++ last) := by
  induction rounds generalizing lexer before rest with
  | zero => exact absurd hrounds (Nat.not_lt_zero _)
  | succ rounds ih =>
      obtain ⟨gap, text, rfl, hgap, ⟨rfl, heof, hplace⟩ | ⟨span, after, hne, rfl, hnext, hplace, htext⟩⟩ :=
        h.nextToken
      · refine ⟨[], gap, lexer.nextToken.1, by simp, hgap, ?_, heof, by simpa using hplace, by simp⟩
        exact tokenizeLoop_finish rounds (congrArg Lexeme.type heof)
      · have hpos := List.length_pos_iff.2 hne
        obtain ⟨pieces, last, eof, rfl, hlast, htokens, heof, hend, hpieces⟩ :=
          ih hnext (by simp only [List.length_append] at hrounds ⊢; omega)
        have htype : lexer.nextToken.1.type ≠ .endOfFile := by
          intro heq
          rw [Lexeme.HasText, heq] at htext
          exact htext
        refine ⟨⟨gap, span, lexer.nextToken.1⟩ :: pieces, last, eof, ?_, hlast, ?_, heof, ?_, ?_⟩
        · simp [Piece.text]
        · rw [tokenizeLoop_token rounds htype, htokens]
          rfl
        · simpa using hend
        · intro front piece back hsplit
          cases front with
          | nil =>
              obtain ⟨rfl, rfl⟩ := List.cons.inj hsplit
              exact ⟨hgap, hne, by simpa using hplace, htext⟩
          | cons first front =>
              obtain ⟨rfl, htail⟩ := List.cons.inj hsplit
              simpa [Piece.text] using hpieces front piece back htail

end Lexer

end QuasarDB.Server
