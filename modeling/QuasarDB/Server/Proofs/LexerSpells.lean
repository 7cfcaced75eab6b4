import QuasarDB.Server.Printer

set_option autoImplicit false

/-! # The lexer reads a text back

A text that spells well-formed tokens is tokenized to these tokens and an end of file. -/

namespace QuasarDB.Server

open Lexer

/-! ## Characters -/

theorem isDigit_iff {c : Char} : isDigit c = true ↔ 48 ≤ c.toNat ∧ c.toNat ≤ 57 := by
  simp [isDigit, Char.isDigit, UInt32.le_iff_toNat_le, ← Char.toNat_val]

theorem isAlpha_iff {c : Char} :
    isAlpha c = true ↔ (65 ≤ c.toNat ∧ c.toNat ≤ 90) ∨ (97 ≤ c.toNat ∧ c.toNat ≤ 122) := by
  show (decide (65 ≤ c.val ∧ c.val ≤ 90) || (decide (97 ≤ c.val) && decide (c.val ≤ 122))) = true ↔ _
  simp [UInt32.le_iff_toNat_le, ← Char.toNat_val]

theorem isWordChar_iff {c : Char} :
    isWordChar c = true ↔ (isAlpha c = true ∨ isDigit c = true) ∨ c = '_' := by
  simp [isWordChar, Char.isAlphanum, isAlpha, isDigit]

theorem isWordChar_not_space {c : Char} (h : isWordChar c = true) : isSpace c = false := by
  have hbound : 48 ≤ c.toNat := by
    rcases isWordChar_iff.1 h with (h | h) | rfl
    · rcases isAlpha_iff.1 h with h | h <;> omega
    · exact (isDigit_iff.1 h).1
    · decide
  have hne : c ≠ ' ' := by
    rintro rfl
    exact absurd hbound (by decide)
  simp only [isSpace, Bool.or_eq_false_iff, beq_eq_false_iff_ne, Bool.and_eq_false_iff,
    decide_eq_false_iff_not]
  exact ⟨hne, .inr (by omega)⟩

theorem isWordChar_of_isAlpha {c : Char} (h : isAlpha c = true ∨ c = '_') :
    isWordChar c = true := by
  rcases h with h | h
  · exact isWordChar_iff.2 (.inl (.inl h))
  · exact isWordChar_iff.2 (.inr h)

theorem isDigit_eq_false_of_isAlpha {c : Char} (h : isAlpha c = true ∨ c = '_') :
    isDigit c = false := by
  rw [Bool.eq_false_iff, ne_eq, isDigit_iff]
  rcases h with h | rfl
  · rcases isAlpha_iff.1 h with h | h <;> omega
  · decide

theorem isWordChar_ne_quote {c : Char} (h : isWordChar c = true) : (c == '"') = false := by
  rw [beq_eq_false_iff_ne]
  rintro rfl
  exact absurd h (by decide)

/-- What `toUpper` sends to a letter or an underscore is one. -/
theorem isAlpha_of_toUpper {c : Char} (h : isAlpha c.toUpper = true ∨ c.toUpper = '_') :
    isAlpha c = true ∨ c = '_' := by
  by_cases hlower : 'a'.val ≤ c.val ∧ c.val ≤ 'z'.val
  · exact .inl (isAlpha_iff.2 (.inr hlower))
  · unfold Char.toUpper at h
    rwa [dif_neg hlower] at h

/-! ## Scanning -/

@[simp] theorem advance_rest (c : Char) (rest : List Char) (lexer : Lexer) :
    (advance c rest lexer).rest = rest := by
  unfold advance
  split <;> rfl

/-- A scan takes the characters that pass the test and stops before the first that does not. -/
theorem scanWhile_append {p : Char → Bool} {a b : List Char} (ha : ∀ c ∈ a, p c = true)
    (hb : ∀ c ∈ b.head?, p c = false) : ∀ lexer : Lexer, lexer.rest = a ++ b →
      ∃ stop, scanWhile p (a ++ b) lexer = (a, stop) ∧ stop.rest = b := by
  induction a with
  | nil =>
      intro lexer hrest
      cases b with
      | nil => exact ⟨lexer, rfl, hrest⟩
      | cons c b =>
          refine ⟨lexer, ?_, hrest⟩
          rw [List.nil_append, scanWhile, if_neg (by simp [hb c rfl])]
  | cons c a ih =>
      intro lexer _
      obtain ⟨stop, hscan, hstop⟩ := ih (fun d hd => ha d (by simp [hd]))
        (advance c (a ++ b) lexer) (by simp)
      refine ⟨stop, ?_, hstop⟩
      rw [List.cons_append, scanWhile, if_pos (ha c (by simp)), hscan]

theorem skipWhitespace_append {lexer : Lexer} {space rest : List Char}
    (hrest : lexer.rest = space ++ rest) (hspace : ∀ c ∈ space, isSpace c = true)
    (hhead : ∀ c ∈ rest.head?, isSpace c = false) : lexer.skipWhitespace.rest = rest := by
  obtain ⟨stop, hscan, hstop⟩ := scanWhile_append hspace hhead lexer hrest
  rw [skipWhitespace, hrest, hscan]
  exact hstop

/-! ## One token -/

/-- A token the lexer can give. -/
def Lexeme.WellFormed (t : Lexeme) : Prop :=
  match t.type with
  | .keyword => t.value ∈ keywords
  | .identifier => IsIdentifier t.value
  | .stringLiteral => NoQuote t.value
  | .integerLiteral => IsDigits t.value
  | .operator => t.value ∈ ["==", "!=", "<", ">", "<=", ">=", "=", "*"]
  | .punctuation => t.value ∈ ["(", ")", ",", ";", ".", "-", ":"]
  | _ => False

section NextToken

variable {lexer : Lexer} {space w text : List Char}

/-- `NextToken` reads `t` and leaves `text`. -/
def Lexer.Reads (lexer : Lexer) (t : Lexeme) (text : List Char) : Prop :=
  lexer.nextToken.1.toLexeme = t ∧ lexer.nextToken.2.rest = text

theorem nextToken_word {c : Char} (hrest : lexer.rest = space ++ (c :: w ++ text))
    (hspace : ∀ d ∈ space, isSpace d = true) (hc : isAlpha c = true ∨ c = '_')
    (hw : ∀ d ∈ c :: w, isWordChar d = true) (htext : ∀ d ∈ text.head?, isWordChar d = false) :
    lexer.Reads (if keywords.contains (String.ofList (toUpper (c :: w))) then
        ⟨.keyword, String.ofList (toUpper (c :: w))⟩
      else ⟨.identifier, String.ofList (c :: w)⟩) text := by
  have hskip : lexer.skipWhitespace.rest = c :: w ++ text :=
    skipWhitespace_append hrest hspace
      (by simpa using isWordChar_not_space (isWordChar_of_isAlpha hc))
  obtain ⟨stop, hscan, hstop⟩ := scanWhile_append hw htext lexer.skipWhitespace hskip
  have hnext : lexer.nextToken = lexer.skipWhitespace.scanIdentifierOrKeyword := by
    unfold nextToken
    simp only [hskip, List.cons_append]
    rw [if_neg (by simp [isWordChar_ne_quote (isWordChar_of_isAlpha hc)]),
      if_neg (by simp [isDigit_eq_false_of_isAlpha hc]), if_pos (by simpa using hc)]
  unfold Lexer.Reads
  rw [hnext, scanIdentifierOrKeyword, hskip, hscan]
  dsimp only
  split
  · exact ⟨rfl, hstop⟩
  · exact ⟨rfl, hstop⟩

theorem nextToken_digits {c : Char} (hrest : lexer.rest = space ++ (c :: w ++ text))
    (hspace : ∀ d ∈ space, isSpace d = true) (hw : ∀ d ∈ c :: w, isDigit d = true)
    (htext : ∀ d ∈ text.head?, isDigit d = false) :
    lexer.Reads ⟨.integerLiteral, String.ofList (c :: w)⟩ text := by
  have hc : isDigit c = true := hw c (by simp)
  have hword : isWordChar c = true := isWordChar_iff.2 (.inl (.inr hc))
  have hskip : lexer.skipWhitespace.rest = c :: w ++ text :=
    skipWhitespace_append hrest hspace (by simpa using isWordChar_not_space hword)
  obtain ⟨stop, hscan, hstop⟩ := scanWhile_append hw htext lexer.skipWhitespace hskip
  have hnext : lexer.nextToken = lexer.skipWhitespace.scanNumber := by
    unfold nextToken
    simp only [hskip, List.cons_append]
    rw [if_neg (by simp [isWordChar_ne_quote hword]), if_pos hc]
  unfold Lexer.Reads
  rw [hnext, scanNumber, hskip, hscan]
  exact ⟨rfl, hstop⟩

theorem nextToken_string (hrest : lexer.rest = space ++ ('"' :: (w ++ ['"']) ++ text))
    (hspace : ∀ d ∈ space, isSpace d = true) (hw : '"' ∉ w) :
    lexer.Reads ⟨.stringLiteral, String.ofList w⟩ text := by
  have hskip : lexer.skipWhitespace.rest = '"' :: (w ++ ('"' :: text)) :=
    skipWhitespace_append (by simpa using hrest) hspace (by simp; decide)
  obtain ⟨stop, hscan, hstop⟩ := scanWhile_append (p := (· != '"')) (a := w) (b := '"' :: text)
    (by
      intro d hd
      rw [bne_iff_ne]
      rintro rfl
      exact hw hd)
    (by simp) (advance '"' (w ++ '"' :: text) lexer.skipWhitespace) (by simp)
  have hnext : lexer.nextToken =
      scanStringLiteral '"' (w ++ '"' :: text) lexer.skipWhitespace := by
    unfold nextToken
    simp only [hskip]
    rw [if_pos (by simp)]
  unfold Lexer.Reads
  rw [hnext, scanStringLiteral, hscan]
  simp only [hstop]
  exact ⟨rfl, by simp⟩

/-- `NextToken` at a character that starts no word, number or string. -/
theorem nextToken_symbol {c : Char} (hrest : lexer.rest = space ++ c :: text)
    (hspace : ∀ d ∈ space, isSpace d = true)
    (hc : isSpace c = false ∧ isWordChar c = false ∧ (c == '"') = false) :
    lexer.nextToken =
      if isOperatorChar c then scanOperator c text lexer.skipWhitespace
      else if isPunctuationChar c then scanPunctuation c text lexer.skipWhitespace
      else (token lexer.skipWhitespace .invalid [c], advance c text lexer.skipWhitespace) := by
  obtain ⟨hs, hw, hq⟩ := hc
  have hword : ¬ ((isAlpha c = true ∨ isDigit c = true) ∨ c = '_') := by
    rw [← isWordChar_iff, hw]
    simp
  push Not at hword
  have hskip : lexer.skipWhitespace.rest = c :: text :=
    skipWhitespace_append hrest hspace (by simpa using hs)
  unfold nextToken
  simp only [hskip]
  rw [if_neg (by simp [hq]), if_neg (by simpa using hword.1.2),
    if_neg (by simp [hword.1.1, hword.2])]

theorem lexer_reads_operator {v : String}
    (hv : v ∈ ["==", "!=", "<", ">", "<=", ">=", "=", "*"])
    (hrest : lexer.rest = space ++ (v.toList ++ text)) (hspace : ∀ d ∈ space, isSpace d = true)
    (htext : ∀ d ∈ text.head?, v.length = 1 → d ≠ '=') : lexer.Reads ⟨.operator, v⟩ text := by
  have htwo : ∀ {c : Char}, (c = '=' ∨ c = '!' ∨ c = '<' ∨ c = '>') →
      lexer.rest = space ++ c :: '=' :: text →
      lexer.Reads ⟨.operator, String.ofList [c, '=']⟩ text := by
    intro c hc hrest
    have hnext := nextToken_symbol hrest hspace (by rcases hc with rfl | rfl | rfl | rfl <;> decide)
    rw [if_pos (by rcases hc with rfl | rfl | rfl | rfl <;> decide), scanOperator,
      if_pos (by rcases hc with rfl | rfl | rfl | rfl <;> decide)] at hnext
    unfold Lexer.Reads
    rw [hnext]
    exact ⟨rfl, by simp⟩
  have hone : ∀ {c : Char}, (c = '=' ∨ c = '<' ∨ c = '>' ∨ c = '*') →
      lexer.rest = space ++ c :: text → (∀ d ∈ text.head?, d ≠ '=') →
      lexer.Reads ⟨.operator, String.ofList [c]⟩ text := by
    intro c hc hrest hne
    have hnext := nextToken_symbol hrest hspace (by rcases hc with rfl | rfl | rfl | rfl <;> decide)
    have hscan : scanOperator c text lexer.skipWhitespace =
        (token lexer.skipWhitespace .operator [c], advance c text lexer.skipWhitespace) := by
      unfold scanOperator
      split
      next after => exact absurd rfl (hne '=' (by simp))
      next => rfl
    rw [if_pos (by rcases hc with rfl | rfl | rfl | rfl <;> decide), hscan] at hnext
    unfold Lexer.Reads
    rw [hnext]
    exact ⟨rfl, by simp⟩
  simp only [List.mem_cons, List.not_mem_nil, or_false] at hv
  rcases hv with rfl | rfl | rfl | rfl | rfl | rfl | rfl | rfl
  · exact htwo (.inl rfl) hrest
  · exact htwo (.inr (.inl rfl)) hrest
  · exact hone (.inr (.inl rfl)) hrest (fun d hd => htext d hd rfl)
  · exact hone (.inr (.inr (.inl rfl))) hrest (fun d hd => htext d hd rfl)
  · exact htwo (.inr (.inr (.inl rfl))) hrest
  · exact htwo (.inr (.inr (.inr rfl))) hrest
  · exact hone (.inl rfl) hrest (fun d hd => htext d hd rfl)
  · exact hone (.inr (.inr (.inr rfl))) hrest (fun d hd => htext d hd rfl)

theorem lexer_reads_punctuation {v : String} (hv : v ∈ ["(", ")", ",", ";", ".", "-", ":"])
    (hrest : lexer.rest = space ++ (v.toList ++ text)) (hspace : ∀ d ∈ space, isSpace d = true) :
    lexer.Reads ⟨.punctuation, v⟩ text := by
  have hone : ∀ {c : Char}, c ∈ ['(', ')', ',', ';', '.', '-', ':'] →
      lexer.rest = space ++ c :: text → lexer.Reads ⟨.punctuation, String.ofList [c]⟩ text := by
    intro c hc hrest
    simp only [List.mem_cons, List.not_mem_nil, or_false] at hc
    have hnext := nextToken_symbol hrest hspace
      (by rcases hc with rfl | rfl | rfl | rfl | rfl | rfl | rfl <;> decide)
    rw [if_neg (by rcases hc with rfl | rfl | rfl | rfl | rfl | rfl | rfl <;> decide),
      if_pos (by rcases hc with rfl | rfl | rfl | rfl | rfl | rfl | rfl <;> decide),
      scanPunctuation] at hnext
    unfold Lexer.Reads
    rw [hnext]
    exact ⟨rfl, by simp⟩
  simp only [List.mem_cons, List.not_mem_nil, or_false] at hv
  rcases hv with rfl | rfl | rfl | rfl | rfl | rfl | rfl
  · exact hone (by simp) hrest
  · exact hone (by simp) hrest
  · exact hone (by simp) hrest
  · exact hone (by simp) hrest
  · exact hone (by simp) hrest
  · exact hone (by simp) hrest
  · exact hone (by simp) hrest

/-- What a keyword may be written as starts with a letter and goes on with word characters. -/
theorem spelled_keyword {v : String} {w : List Char} (hv : v ∈ keywords)
    (hw : toUpper w = v.toList) : ∃ c rest, w = c :: rest ∧ (isAlpha c = true ∨ c = '_') ∧
      ∀ d ∈ c :: rest, isWordChar d = true := by
  have hkeyword : ∀ v ∈ keywords, v.toList ≠ [] ∧
      ∀ d ∈ v.toList, isAlpha d = true ∨ d = '_' := by decide
  obtain ⟨hne, hletters⟩ := hkeyword v hv
  have hw' : ∀ d ∈ w, isAlpha d = true ∨ d = '_' := by
    intro d hd
    refine isAlpha_of_toUpper (hletters d.toUpper ?_)
    rw [← hw]
    exact List.mem_map_of_mem hd
  cases w with
  | nil => exact absurd hw.symm hne
  | cons c rest =>
      exact ⟨c, rest, rfl, hw' c (by simp), fun d hd => isWordChar_of_isAlpha (hw' d hd)⟩

/-- A well-formed token is read back from any spelling of it. -/
theorem lexer_reads {t : Lexeme} (ht : t.WellFormed) (hw : t.SpelledAs w)
    (hends : t.EndsBefore text) (hspace : ∀ d ∈ space, isSpace d = true)
    (hrest : lexer.rest = space ++ (w ++ text)) : lexer.Reads t text ∧ w ≠ [] := by
  obtain ⟨type, v⟩ := t
  cases type with
  | keyword =>
      obtain ⟨c, w, rfl, hc, hall⟩ := spelled_keyword ht hw
      have h := nextToken_word hrest hspace hc hall hends
      have hv : String.ofList (toUpper (c :: w)) = v := by
        rw [show toUpper (c :: w) = v.toList from hw, String.ofList_toList]
      rw [hv, if_pos (List.contains_iff_mem.2 ht)] at h
      exact ⟨h, by simp⟩
  | identifier =>
      obtain ⟨⟨c, rest, hlist, hc⟩, hall, hno⟩ := ht
      cases (show w = v.toList from hw)
      rw [hlist] at hrest hall hno
      have h := nextToken_word hrest hspace hc hall hends
      rw [if_neg (by simpa using hno), ← hlist, String.ofList_toList] at h
      exact ⟨h, by simp [hlist]⟩
  | stringLiteral =>
      cases (show w = '"' :: (v.toList ++ ['"']) from hw)
      have h := nextToken_string hrest hspace ht
      rw [String.ofList_toList] at h
      exact ⟨h, by simp⟩
  | integerLiteral =>
      cases (show w = v.toList from hw)
      obtain ⟨hne, hall⟩ := ht
      cases hlist : v.toList with
      | nil => exact absurd (String.toList_eq_nil_iff.1 hlist) hne
      | cons c rest =>
          rw [hlist] at hrest hall
          have h := nextToken_digits hrest hspace hall hends
          rw [← hlist, String.ofList_toList] at h
          exact ⟨h, by simp⟩
  | operator =>
      cases (show w = v.toList from hw)
      refine ⟨lexer_reads_operator ht hrest hspace hends, ?_⟩
      have hne : ∀ v ∈ ["==", "!=", "<", ">", "<=", ">=", "=", "*"], v.toList ≠ [] := by decide
      exact hne v ht
  | punctuation =>
      cases (show w = v.toList from hw)
      refine ⟨lexer_reads_punctuation ht hrest hspace, ?_⟩
      have hne : ∀ v ∈ ["(", ")", ",", ";", ".", "-", ":"], v.toList ≠ [] := by decide
      exact hne v ht
  | endOfFile => exact absurd ht (by simp [Lexeme.WellFormed])
  | invalid => exact absurd ht (by simp [Lexeme.WellFormed])

end NextToken

/-! ## A whole text -/

/-- Every spelling takes a character, so a round for each character is enough. -/
theorem tokenizeLoop_of_spells {ts : List Lexeme} {text : List Char} (h : Spells ts text) :
    (∀ t ∈ ts, t.WellFormed) → ∀ (rounds : Nat) (lexer : Lexer), lexer.rest = text →
      text.length < rounds →
      (tokenizeLoop rounds lexer).map Token.toLexeme = ts ++ [⟨.endOfFile, ""⟩] := by
  induction h with
  | nil hspace =>
      intro _ rounds lexer hrest hrounds
      obtain ⟨rounds, rfl⟩ : ∃ n, rounds = n + 1 := ⟨rounds - 1, by omega⟩
      have hskip : lexer.skipWhitespace.rest = [] :=
        skipWhitespace_append (by simpa using hrest) hspace (by simp)
      have hnext : lexer.nextToken =
          (token lexer.skipWhitespace .endOfFile [], lexer.skipWhitespace) := by
        unfold nextToken
        simp only [hskip]
      rw [tokenizeLoop, hnext]
      rfl
  | @cons t ts space w text hspace hw hends _ ih =>
      intro hall rounds lexer hrest hrounds
      obtain ⟨rounds, rfl⟩ : ∃ n, rounds = n + 1 := ⟨rounds - 1, by omega⟩
      have ht := hall t (by simp)
      obtain ⟨⟨htoken, hnext⟩, hne⟩ := lexer_reads ht hw hends hspace hrest
      have hlen := List.length_pos_of_ne_nil hne
      have hmore := ih (fun u hu => hall u (by simp [hu])) rounds lexer.nextToken.2 hnext
        (by simp only [List.length_append] at hrounds; omega)
      have htype : lexer.nextToken.1.type ≠ .endOfFile := by
        rw [show lexer.nextToken.1.type = t.type from congrArg Lexeme.type htoken]
        intro hend
        simp [Lexeme.WellFormed, hend] at ht
      show (if lexer.nextToken.1.type = .endOfFile then [lexer.nextToken.1]
        else lexer.nextToken.1 :: tokenizeLoop rounds lexer.nextToken.2).map Token.toLexeme = _
      rw [if_neg htype, List.map_cons, htoken, hmore, List.cons_append]

/-- Tokenizing a text gives the tokens it spells. -/
theorem tokenize_of_spells {ts : List Lexeme} {text : String} (h : Spells ts text.toList)
    (hts : ∀ t ∈ ts, t.WellFormed) :
    (tokenize text).map Token.toLexeme = ts ++ [⟨.endOfFile, ""⟩] :=
  tokenizeLoop_of_spells h hts _ _ rfl (Nat.lt_succ_self _)

end QuasarDB.Server
