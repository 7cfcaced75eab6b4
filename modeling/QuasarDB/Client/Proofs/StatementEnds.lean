import QuasarDB.Client.Reader
import QuasarDB.Server.Proofs.LexerTokens

set_option autoImplicit false

/-! # Where a statement ends

The client looks for a `;` outside string literals, where a quote directly after a backslash neither
opens nor closes a literal. For the lexer every quote does. -/

namespace QuasarDB.Client

open Server

/-- The number of quotes that stand directly after a backslash. -/
def escapedQuotes : Option Char → List Char → Nat
  | _, [] => 0
  | previous, c :: text =>
      (if c = '"' ∧ previous = some '\\' then 1 else 0) + escapedQuotes (some c) text

/-- A semicolon of the text has a number of quotes before it, some of them directly after a
    backslash. -/
def SemicolonAfter (text : List Char) (quotes escaped : Nat) : Prop :=
  ∃ before after, text = before ++ ';' :: after ∧ before.count '"' = quotes ∧
    escapedQuotes none before = escaped

/-- The first semicolon of a text is its first character, or a later one. -/
theorem exists_semicolon_cons {c : Char} {text : List Char} {P : List Char → Prop} :
    (∃ before after, c :: text = before ++ ';' :: after ∧ P before) ↔
      (c = ';' ∧ P []) ∨ ∃ before after, text = before ++ ';' :: after ∧ P (c :: before) := by
  constructor
  · rintro ⟨before, after, htext, hP⟩
    cases before with
    | nil => exact .inl ⟨(List.cons.inj htext).1, hP⟩
    | cons d before =>
        obtain ⟨rfl, rfl⟩ := List.cons.inj htext
        exact .inr ⟨before, after, rfl, hP⟩
  · rintro (⟨rfl, hP⟩ | ⟨before, after, rfl, hP⟩)
    · exact ⟨[], text, rfl, hP⟩
    · exact ⟨c :: before, after, rfl, hP⟩

/-- Whether the scan is inside a literal after `c`. -/
def inStringAfter (previous : Option Char) (c : Char) (inString : Bool) : Bool :=
  if c == '"' && previous != some '\\' then !inString else inString

theorem endsLoop_cons (previous : Option Char) (inString : Bool) (c : Char) (text : List Char) :
    endsLoop previous inString (c :: text) =
      if !inStringAfter previous c inString && c == ';' then true
      else endsLoop (some c) (inStringAfter previous c inString) text := rfl

/-- The scan is inside a literal after an odd number of quotes that count. -/
theorem inStringAfter_parity (previous : Option Char) (c : Char) (inString : Bool)
    (before : List Char) :
    ((c :: before).count '"' + escapedQuotes previous (c :: before) + inString.toNat) % 2 =
      (before.count '"' + escapedQuotes (some c) before +
        (inStringAfter previous c inString).toNat) % 2 := by
  have hflip : (!inString).toNat = 1 - inString.toNat := by cases inString <;> rfl
  have hle : inString.toNat ≤ 1 := Bool.toNat_le inString
  rw [List.count_cons, escapedQuotes, inStringAfter]
  by_cases hquote : c = '"'
  · by_cases hescaped : previous = some '\\'
    · simp only [hquote, hescaped, beq_self_eq_true, and_self, if_true, bne_self_eq_false,
        Bool.and_false, Bool.false_eq_true, if_false]
      omega
    · have htoggles : ((c == '"') && (previous != some '\\')) = true := by simp [hquote, hescaped]
      rw [if_pos htoggles, hflip]
      simp only [hquote, hescaped, beq_self_eq_true, if_true, and_false, if_false]
      omega
  · have hstays : ((c == '"') && (previous != some '\\')) = false := by simp [hquote]
    simp [hquote]

theorem endsLoop_iff (text : List Char) (previous : Option Char) (inString : Bool) :
    endsLoop previous inString text = true ↔
      ∃ before after, text = before ++ ';' :: after ∧
        (before.count '"' + escapedQuotes previous before + inString.toNat) % 2 = 0 := by
  induction text generalizing previous inString with
  | nil => simp [endsLoop]
  | cons c text ih =>
      rw [exists_semicolon_cons, endsLoop_cons]
      simp only [inStringAfter_parity, ← ih]
      have hhere : (c = ';' ∧ (([] : List Char).count '"' + escapedQuotes previous [] +
          inString.toNat) % 2 = 0) ↔ (!inStringAfter previous c inString && c == ';') = true := by
        by_cases hsemicolon : c = ';'
        · subst hsemicolon
          cases inString <;> simp [inStringAfter, escapedQuotes]
        · simp [hsemicolon]
      rw [hhere]
      cases !inStringAfter previous c inString && c == ';' <;> simp

theorem endsStatement_iff (text : List Char) :
    endsStatement text = true ↔
      ∃ quotes escaped, SemicolonAfter text quotes escaped ∧ (quotes + escaped) % 2 = 0 := by
  rw [endsStatement, endsLoop_iff]
  constructor
  · rintro ⟨before, after, htext, hcount⟩
    exact ⟨_, _, ⟨before, after, htext, rfl, rfl⟩, hcount⟩
  · rintro ⟨_, _, ⟨before, after, htext, rfl, rfl⟩, hcount⟩
    exact ⟨before, after, htext, hcount⟩

/-! ## Client and server -/

/-- The texts whose escaped quotes leave it at that. Either a semicolon stands after an even number of
    quotes and an even number of escaped ones, or those after an odd number of escaped quotes stand on
    both sides of the literals, or there are none. -/
def Undisputed (text : List Char) : Prop :=
  (∃ quotes escaped, SemicolonAfter text quotes escaped ∧ quotes % 2 = 0 ∧ escaped % 2 = 0) ∨
    ((∃ quotes escaped, SemicolonAfter text quotes escaped ∧ quotes % 2 = 0 ∧ escaped % 2 = 1) ↔
      ∃ quotes escaped, SemicolonAfter text quotes escaped ∧ quotes % 2 = 1 ∧ escaped % 2 = 1)

theorem outside_iff (text : List Char) :
    Outside text ↔ ∃ quotes escaped, SemicolonAfter text quotes escaped ∧ quotes % 2 = 0 := by
  constructor
  · rintro ⟨before, after, htext, hcount⟩
    exact ⟨_, _, ⟨before, after, htext, rfl, rfl⟩, hcount⟩
  · rintro ⟨_, _, ⟨before, after, htext, rfl, rfl⟩, hcount⟩
    exact ⟨before, after, htext, hcount⟩

/-- Client and server agree on whether the text has the end of a statement exactly when its escaped
    quotes do not matter. -/
theorem endsStatement_iff_tokenize (source : String) :
    (endsStatement source.toList = true ↔
      ∃ t ∈ Lexer.tokenize source, t.toLexeme = ⟨.punctuation, ";"⟩) ↔
    Undisputed source.toList := by
  rw [tokenize_semicolon, outside_iff, endsStatement_iff, Undisputed]
  by_cases hboth : ∃ quotes escaped, SemicolonAfter source.toList quotes escaped ∧
      quotes % 2 = 0 ∧ escaped % 2 = 0
  · obtain ⟨quotes, escaped, hsemicolon, hquotes, hescaped⟩ := hboth
    have hclient : ∃ quotes escaped, SemicolonAfter source.toList quotes escaped ∧
        (quotes + escaped) % 2 = 0 := ⟨quotes, escaped, hsemicolon, by omega⟩
    have hserver : ∃ quotes escaped, SemicolonAfter source.toList quotes escaped ∧
        quotes % 2 = 0 := ⟨quotes, escaped, hsemicolon, hquotes⟩
    exact iff_of_true (iff_of_true hclient hserver)
      (.inl ⟨quotes, escaped, hsemicolon, hquotes, hescaped⟩)
  · -- every semicolon that one of them sees stands after an odd number of escaped quotes
    have hodd : ∀ {quotes escaped}, SemicolonAfter source.toList quotes escaped →
        quotes % 2 = 0 → escaped % 2 = 1 := by
      intro quotes escaped hsemicolon hquotes
      by_contra heven
      exact hboth ⟨quotes, escaped, hsemicolon, hquotes, by omega⟩
    have hclient : (∃ quotes escaped, SemicolonAfter source.toList quotes escaped ∧
        (quotes + escaped) % 2 = 0) ↔ ∃ quotes escaped, SemicolonAfter source.toList quotes escaped ∧
          quotes % 2 = 1 ∧ escaped % 2 = 1 := by
      constructor
      · rintro ⟨quotes, escaped, hsemicolon, hsum⟩
        have hquotes : quotes % 2 = 1 := by
          by_contra heven
          have hescaped := hodd hsemicolon (by omega)
          omega
        exact ⟨quotes, escaped, hsemicolon, hquotes, by omega⟩
      · rintro ⟨quotes, escaped, hsemicolon, hquotes, hescaped⟩
        exact ⟨quotes, escaped, hsemicolon, by omega⟩
    have hserver : (∃ quotes escaped, SemicolonAfter source.toList quotes escaped ∧
        quotes % 2 = 0) ↔ ∃ quotes escaped, SemicolonAfter source.toList quotes escaped ∧
          quotes % 2 = 0 ∧ escaped % 2 = 1 := by
      constructor
      · rintro ⟨quotes, escaped, hsemicolon, hquotes⟩
        exact ⟨quotes, escaped, hsemicolon, hquotes, hodd hsemicolon hquotes⟩
      · rintro ⟨quotes, escaped, hsemicolon, hquotes, _⟩
        exact ⟨quotes, escaped, hsemicolon, hquotes⟩
    rw [hclient, hserver, or_iff_right hboth]
    exact iff_comm

/-- A string that ends in a backslash is closed for the server only. -/
theorem endsStatement_disagrees :
    ¬ (endsStatement "INSERT INTO t (c) VALUE (\"\\\");".toList = true ↔
      ∃ t ∈ Lexer.tokenize "INSERT INTO t (c) VALUE (\"\\\");",
        t.toLexeme = ⟨.punctuation, ";"⟩) := by
  decide

/-- Without escaped quotes there is nothing to disagree about. -/
theorem undisputed_of_escapedQuotes {text : List Char}
    (h : ∀ before after, text = before ++ ';' :: after → escapedQuotes none before = 0) :
    Undisputed text := by
  refine .inr (iff_of_false ?_ ?_)
  · rintro ⟨_, _, ⟨before, after, htext, rfl, rfl⟩, _, hescaped⟩
    rw [h before after htext] at hescaped
    exact absurd hescaped (by decide)
  · rintro ⟨_, _, ⟨before, after, htext, rfl, rfl⟩, _, hescaped⟩
    rw [h before after htext] at hescaped
    exact absurd hescaped (by decide)

end QuasarDB.Client
