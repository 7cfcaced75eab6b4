import QuasarDB.Server.Proofs.LexerSpells

set_option autoImplicit false

/-! # The tokens of any text

What one token takes from a text, whatever the text is, and which texts have a `;` among their
tokens. -/

namespace QuasarDB.Server

open Lexer

/-! ## One token -/

/-- A token of a text that does not begin with a space, and what it leaves of the text. -/
inductive Lexes : List Char → Lexeme → List Char → Prop where
  | finish : Lexes [] ⟨.endOfFile, ""⟩ []
  | string {v after : List Char} (h : '"' ∉ v) :
      Lexes ('"' :: (v ++ '"' :: after)) ⟨.stringLiteral, String.ofList v⟩ after
  | unterminated {v : List Char} (h : '"' ∉ v) :
      Lexes ('"' :: v) ⟨.invalid, String.ofList v⟩ []
  | punctuation {c : Char} {after : List Char} (h : isPunctuationChar c = true) :
      Lexes (c :: after) ⟨.punctuation, String.ofList [c]⟩ after
  | other {w after : List Char} {t : Lexeme} (hw : w ≠ []) (hquote : '"' ∉ w) (hend : ';' ∉ w)
      (htype : t.type ≠ .punctuation ∧ t.type ≠ .endOfFile) : Lexes (w ++ after) t after

/-- A text up to where a test first fails. -/
theorem exists_split (p : Char → Bool) (text : List Char) :
    ∃ front back, text = front ++ back ∧ (∀ c ∈ front, p c = true) ∧
      ∀ c ∈ back.head?, p c = false := by
  refine ⟨text.takeWhile p, text.dropWhile p, List.takeWhile_append_dropWhile.symm,
    List.all_eq_true.1 List.all_takeWhile, ?_⟩
  intro c hc
  have hnot := List.head?_dropWhile_not p text
  rw [Option.mem_def.1 hc] at hnot
  simpa using hnot

section NextToken

variable {lexer : Lexer} {space : List Char}

theorem nextToken_finish (hrest : lexer.rest = space) (hspace : ∀ d ∈ space, isSpace d = true) :
    lexer.Reads ⟨.endOfFile, ""⟩ [] := by
  have hskip : lexer.skipWhitespace.rest = [] :=
    skipWhitespace_append (hrest.trans (List.append_nil space).symm) hspace (by simp)
  unfold Lexer.Reads nextToken
  simp only [hskip]
  exact ⟨rfl, trivial⟩

/-- A string without its closing quote takes the rest of the text. -/
theorem nextToken_unterminated {v : List Char} (hrest : lexer.rest = space ++ '"' :: v)
    (hspace : ∀ d ∈ space, isSpace d = true) (hv : '"' ∉ v) :
    lexer.Reads ⟨.invalid, String.ofList v⟩ [] := by
  have hskip : lexer.skipWhitespace.rest = '"' :: v :=
    skipWhitespace_append hrest hspace (by simp; decide)
  have hall : ∀ d ∈ v, (d != '"') = true := by
    intro d hd
    rw [bne_iff_ne]
    rintro rfl
    exact hv hd
  obtain ⟨stop, hscan, hstop⟩ := scanWhile_append hall (show ∀ c ∈ ([] : List Char).head?, _ by simp)
    (advance '"' v lexer.skipWhitespace) (by simp)
  rw [List.append_nil] at hscan
  have hnext : lexer.nextToken = scanStringLiteral '"' v lexer.skipWhitespace := by
    unfold nextToken
    simp only [hskip]
    rw [if_pos (by simp)]
  unfold Lexer.Reads
  rw [hnext, scanStringLiteral, hscan]
  simp only [hstop]
  exact ⟨rfl, trivial⟩

/-- A string, closed or not. -/
theorem nextToken_quote {v : List Char} (hrest : lexer.rest = space ++ '"' :: v)
    (hspace : ∀ d ∈ space, isSpace d = true) :
    Lexes ('"' :: v) lexer.nextToken.1.toLexeme lexer.nextToken.2.rest := by
  obtain ⟨front, back, rfl, hfront, hback⟩ := exists_split (· != '"') v
  have hquote : '"' ∉ front := fun h => absurd (hfront _ h) (by simp)
  cases back with
  | nil =>
      rw [List.append_nil] at hrest ⊢
      obtain ⟨htoken, hnext⟩ := nextToken_unterminated hrest hspace hquote
      rw [htoken, hnext]
      exact .unterminated hquote
  | cons c back =>
      obtain rfl : c = '"' := by simpa using hback c rfl
      have hrest' : lexer.rest = space ++ ('"' :: (front ++ ['"']) ++ back) := by simpa using hrest
      obtain ⟨htoken, hnext⟩ := nextToken_string hrest' hspace hquote
      rw [htoken, hnext]
      exact .string hquote

/-- A token of characters that all pass a test which fails for `"` and `;`. -/
theorem Lexes.of_reads {p : Char → Bool} {w after : List Char} {t : Lexeme}
    (h : lexer.Reads t after) (hw : w ≠ []) (hall : ∀ c ∈ w, p c = true)
    (hp : p '"' = false ∧ p ';' = false) (htype : t.type ≠ .punctuation ∧ t.type ≠ .endOfFile) :
    Lexes (w ++ after) lexer.nextToken.1.toLexeme lexer.nextToken.2.rest := by
  rw [h.1, h.2]
  refine .other hw (fun hmem => ?_) (fun hmem => ?_) htype
  · exact absurd (hall _ hmem) (by simp [hp.1])
  · exact absurd (hall _ hmem) (by simp [hp.2])

theorem nextToken_operator {c : Char} {text : List Char}
    (hnext : lexer.nextToken = scanOperator c text lexer.skipWhitespace)
    (hc : isOperatorChar c = true) :
    Lexes (c :: text) lexer.nextToken.1.toLexeme lexer.nextToken.2.rest := by
  have hone : ∀ d ∈ [c], isOperatorChar d = true := by simpa using hc
  have hsingle : lexer.nextToken = (token lexer.skipWhitespace .operator [c],
      advance c text lexer.skipWhitespace) →
      Lexes (c :: text) lexer.nextToken.1.toLexeme lexer.nextToken.2.rest := by
    intro hnext
    have hreads : lexer.Reads ⟨.operator, String.ofList [c]⟩ text := by
      unfold Lexer.Reads
      rw [hnext]
      exact ⟨rfl, advance_rest _ _ _⟩
    exact Lexes.of_reads hreads (w := [c]) (by simp) hone (by decide) (by simp)
  unfold scanOperator at hnext
  split at hnext
  next after =>
    split at hnext
    · have hreads : lexer.Reads ⟨.operator, String.ofList [c, '=']⟩ after := by
        unfold Lexer.Reads
        rw [hnext]
        exact ⟨rfl, advance_rest _ _ _⟩
      have htwo : ∀ d ∈ [c, '='], isOperatorChar d = true := by
        simpa using ⟨hc, by decide⟩
      exact Lexes.of_reads hreads (w := [c, '=']) (by simp) htwo (by decide) (by simp)
    · exact hsingle hnext
  next => exact hsingle hnext

/-- Every token is one of those of `Lexes`, after some spaces. -/
theorem nextToken_lexes (lexer : Lexer) :
    ∃ space text, lexer.rest = space ++ text ∧ (∀ d ∈ space, isSpace d = true) ∧
      Lexes text lexer.nextToken.1.toLexeme lexer.nextToken.2.rest := by
  obtain ⟨space, text, hrest, hspace, hhead⟩ := exists_split isSpace lexer.rest
  refine ⟨space, text, hrest, hspace, ?_⟩
  cases text with
  | nil =>
      obtain ⟨htoken, hnext⟩ := nextToken_finish (hrest.trans (List.append_nil space)) hspace
      rw [htoken, hnext]
      exact .finish
  | cons c text =>
      have hspace' : isSpace c = false := hhead c rfl
      by_cases hquote : c = '"'
      · subst hquote
        exact nextToken_quote hrest hspace
      by_cases hdigit : isDigit c = true
      · obtain ⟨w, after, rfl, hw, hafter⟩ := exists_split isDigit text
        have hall : ∀ d ∈ c :: w, isDigit d = true := List.forall_mem_cons.2 ⟨hdigit, hw⟩
        have hreads := nextToken_digits hrest hspace hall hafter
        exact Lexes.of_reads hreads (w := c :: w) (by simp) hall (by decide) (by simp)
      by_cases hletter : isAlpha c = true ∨ c = '_'
      · obtain ⟨w, after, rfl, hw, hafter⟩ := exists_split isWordChar text
        have hall : ∀ d ∈ c :: w, isWordChar d = true :=
          List.forall_mem_cons.2 ⟨isWordChar_of_isAlpha hletter, hw⟩
        have hreads := nextToken_word hrest hspace hletter hall hafter
        refine Lexes.of_reads hreads (w := c :: w) (by simp) hall (by decide) ?_
        split <;> simp
      have hword : isWordChar c = false := by
        rw [Bool.eq_false_iff, ne_eq, isWordChar_iff]
        rintro ((h | h) | h)
        · exact hletter (.inl h)
        · exact hdigit h
        · exact hletter (.inr h)
      have hnext := nextToken_symbol hrest hspace ⟨hspace', hword, by simpa using hquote⟩
      split at hnext
      · exact nextToken_operator hnext ‹_›
      · split at hnext
        · rw [hnext]
          exact (advance_rest c text _).symm ▸ Lexes.punctuation ‹_›
        · -- a character of no token
          have hreads : lexer.Reads ⟨.invalid, String.ofList [c]⟩ text := by
            unfold Lexer.Reads
            rw [hnext]
            exact ⟨rfl, advance_rest _ _ _⟩
          refine hreads.1 ▸ hreads.2 ▸ Lexes.other (w := [c]) (by simp) ?_ ?_ (by simp)
          · simpa using Ne.symm hquote
          · intro hmem
            obtain rfl : ';' = c := by simpa using hmem
            exact absurd rfl ‹¬ isPunctuationChar ';' = true›

end NextToken

/-! ## Semicolons -/

/-- A semicolon stands outside the string literals of the text: after an even number of quotes. -/
def Outside (text : List Char) : Prop :=
  ∃ before after, text = before ++ ';' :: after ∧ before.count '"' % 2 = 0

theorem not_outside_of_not_mem {text : List Char} (h : ';' ∉ text) : ¬ Outside text := by
  rintro ⟨before, after, rfl, _⟩
  exact h (by simp)

/-- What comes after a text with all its literals closed. -/
theorem outside_append {front back : List Char} (heven : front.count '"' % 2 = 0)
    (hfront : ¬ Outside front) : Outside (front ++ back) ↔ Outside back := by
  constructor
  · rintro ⟨before, after, htext, hcount⟩
    rcases List.append_eq_append_iff.1 htext with ⟨more, rfl, rfl⟩ | ⟨more, rfl, hmore⟩
    · refine ⟨more, after, rfl, ?_⟩
      rw [List.count_append] at hcount
      omega
    · -- the semicolon would stand in front, or be the first character of what follows
      cases more with
      | nil =>
          rw [List.append_nil] at heven
          exact ⟨[], after, by simpa using hmore.symm, rfl⟩
      | cons c more =>
          obtain ⟨rfl, -⟩ := List.cons.inj hmore
          exact absurd ⟨before, more, rfl, hcount⟩ hfront
  · rintro ⟨before, after, rfl, hcount⟩
    refine ⟨front ++ before, after, (List.append_assoc _ _ _).symm, ?_⟩
    rw [List.count_append]
    omega

/-- A quote that is not closed hides what follows it. -/
theorem not_outside_quote {v : List Char} (h : '"' ∉ v) : ¬ Outside ('"' :: v) := by
  rintro ⟨before, after, htext, hcount⟩
  cases before with
  | nil => exact absurd (List.cons.inj htext).1 (by decide)
  | cons c before =>
      obtain ⟨rfl, rfl⟩ := List.cons.inj htext
      have hzero : before.count '"' = 0 :=
        List.count_eq_zero.2 fun hmem => h (List.mem_append_left _ hmem)
      rw [List.count_cons_self, hzero] at hcount
      exact absurd hcount (by decide)

theorem outside_string {v after : List Char} (h : '"' ∉ v) :
    Outside ('"' :: (v ++ '"' :: after)) ↔ Outside after := by
  have hclosed : ¬ Outside ('"' :: v ++ ['"']) := by
    rintro ⟨before, rest, htext, hcount⟩
    rcases List.append_eq_append_iff.1 htext with ⟨more, rfl, hmore⟩ | ⟨more, hmore, hrest⟩
    · cases more with
      | nil => exact absurd (List.cons.inj hmore).1 (by decide)
      | cons c more => exact absurd hmore (by simp)
    · cases more with
      | nil => exact absurd (List.cons.inj hrest).1 (by decide)
      | cons c more =>
          obtain ⟨rfl, -⟩ := List.cons.inj hrest
          exact not_outside_quote h ⟨before, more, hmore, hcount⟩
  have hcount : ('"' :: v ++ ['"']).count '"' % 2 = 0 := by
    rw [List.count_append, List.count_cons_self, List.count_eq_zero.2 h]
    rfl
  have happend : Outside ('"' :: v ++ ['"'] ++ after) ↔ _ := outside_append hcount hclosed
  simpa using happend

/-- A token is the semicolon when the next semicolon outside the literals is in it. -/
theorem Lexes.outside {text after : List Char} {t : Lexeme} (h : Lexes text t after) :
    Outside text ↔ t = ⟨.punctuation, ";"⟩ ∨ Outside after := by
  cases h with
  | finish => simp [not_outside_of_not_mem]
  | string hv => simp [outside_string hv]
  | unterminated hv => simp [not_outside_quote hv, not_outside_of_not_mem]
  | @punctuation c after hc =>
      by_cases hsemicolon : c = ';'
      · subst hsemicolon
        exact iff_of_true ⟨[], after, rfl, rfl⟩ (.inl rfl)
      · have hquote : '"' ≠ c := by
          rintro rfl
          exact absurd hc (by decide)
        have hvalue : String.ofList [c] ≠ ";" := by
          intro hvalue
          have hlist := congrArg String.toList hvalue
          rw [String.toList_ofList] at hlist
          exact hsemicolon (List.cons.inj hlist).1
        have hskip : Outside ([c] ++ after) ↔ Outside after :=
          outside_append (by simp [Ne.symm hquote])
            (not_outside_of_not_mem (by simpa using Ne.symm hsemicolon))
        have hne : (⟨.punctuation, String.ofList [c]⟩ : Lexeme) ≠ ⟨.punctuation, ";"⟩ :=
          fun h => hvalue (congrArg Lexeme.value h)
        rw [← List.singleton_append, hskip]
        simp only [hne, false_or]
  | @other w after t hw hquote hend htype =>
      have hne : t ≠ ⟨.punctuation, ";"⟩ := by
        rintro rfl
        exact htype.1 rfl
      rw [outside_append (by rw [List.count_eq_zero.2 hquote]) (not_outside_of_not_mem hend)]
      simp [hne]

/-- The end of the text is all that is left. -/
theorem Lexes.of_endOfFile {text after : List Char} {t : Lexeme} (h : Lexes text t after)
    (ht : t.type = .endOfFile) : after = [] := by
  cases h with
  | finish => rfl
  | unterminated _ => rfl
  | string _ => exact absurd ht (by simp)
  | punctuation _ => exact absurd ht (by simp)
  | other _ _ _ htype => exact absurd ht htype.2

theorem Lexes.length {text after : List Char} {t : Lexeme} (h : Lexes text t after)
    (ht : t.type ≠ .endOfFile) : after.length < text.length := by
  cases h with
  | finish => exact absurd rfl ht
  | string _ =>
      simp only [List.length_cons, List.length_append]
      omega
  | unterminated _ => exact Nat.succ_pos _
  | punctuation _ => exact Nat.lt_succ_self _
  | other hw _ _ _ =>
      have hpos := List.length_pos_of_ne_nil hw
      rw [List.length_append]
      omega

theorem tokenizeLoop_semicolon (rounds : Nat) (lexer : Lexer) (h : lexer.rest.length < rounds) :
    (∃ t ∈ tokenizeLoop rounds lexer, t.toLexeme = ⟨.punctuation, ";"⟩) ↔ Outside lexer.rest := by
  induction rounds generalizing lexer with
  | zero => exact absurd h (Nat.not_lt_zero _)
  | succ rounds ih =>
      obtain ⟨space, text, hrest, hspace, hlexes⟩ := nextToken_lexes lexer
      have hskip : Outside lexer.rest ↔ Outside text := by
        have hnot : ∀ c : Char, isSpace c = false → c ∉ space := by
          intro c hc hmem
          rw [hspace c hmem] at hc
          exact absurd hc (by decide)
        rw [hrest]
        refine outside_append ?_ (not_outside_of_not_mem (hnot ';' (by decide)))
        rw [List.count_eq_zero.2 (hnot '"' (by decide))]
      rw [hskip, hlexes.outside]
      show (∃ t ∈ if lexer.nextToken.1.type = .endOfFile then [lexer.nextToken.1]
        else lexer.nextToken.1 :: tokenizeLoop rounds lexer.nextToken.2, _) ↔ _
      by_cases hend : lexer.nextToken.1.type = .endOfFile
      · rw [if_pos hend, hlexes.of_endOfFile hend]
        simp [not_outside_of_not_mem]
      · have hlength := hlexes.length hend
        rw [if_neg hend, List.exists_mem_cons_iff, ih]
        rw [hrest, List.length_append] at h
        omega

/-- The tokens of a text have a `;` if and only if one stands outside its string literals. -/
theorem tokenize_semicolon (source : String) :
    (∃ t ∈ tokenize source, t.toLexeme = ⟨.punctuation, ";"⟩) ↔ Outside source.toList :=
  tokenizeLoop_semicolon _ _ (Nat.lt_succ_self _)

end QuasarDB.Server
