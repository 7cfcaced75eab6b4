import Mathlib.Data.List.Basic

set_option autoImplicit false

/-! # Base64

Standard base64 with padding: three bytes become four characters of six bits each, and one or two
bytes at the end become two or three characters and as many `=` as are missing. `decodeBlocks`
decodes whole blocks of four characters and reads the padding as zero bits, so that it gives back
the bytes with a zero byte for each `=`. -/

namespace Base64

/-! ## The alphabet -/

/-- The character of six bits. -/
def digit (n : Nat) : Char :=
  if n < 26 then Char.ofNat (n + 65)
  else if n < 52 then Char.ofNat (n - 26 + 97)
  else if n < 62 then Char.ofNat (n - 52 + 48)
  else if n = 62 then '+'
  else '/'

/-- The six bits of a character. -/
def value (c : Char) : Option Nat :=
  if 'A' ≤ c ∧ c ≤ 'Z' then some (c.toNat - 65)
  else if 'a' ≤ c ∧ c ≤ 'z' then some (c.toNat - 97 + 26)
  else if '0' ≤ c ∧ c ≤ '9' then some (c.toNat - 48 + 52)
  else if c = '+' then some 62
  else if c = '/' then some 63
  else none

theorem value_digit {n : Nat} (h : n < 64) : value (digit n) = some n := by
  have hall : ∀ m : Fin 64, value (digit m) = some m.val := by decide
  exact hall ⟨n, h⟩

/-- A character of the alphabet. -/
def IsDigit (c : Char) : Prop := ∃ n, n < 64 ∧ c = digit n

theorem isDigit_digit {n : Nat} (h : n < 64) : IsDigit (digit n) := ⟨n, h, rfl⟩

/-- What holds of the 64 characters one by one. -/
theorem IsDigit.of_forall {P : Char → Prop} (h : ∀ n : Fin 64, P (digit n)) {c : Char}
    (hc : IsDigit c) : P c := by
  obtain ⟨n, hn, rfl⟩ := hc
  exact h ⟨n, hn⟩

theorem IsDigit.ne_pad {c : Char} (hc : IsDigit c) : c ≠ '=' := by
  have hall : ∀ n : Fin 64, digit n ≠ '=' := by decide
  exact IsDigit.of_forall (P := fun c => c ≠ '=') hall hc

/-! ## Encoding -/

/-- The characters of the bytes, without the padding. -/
def unpadded : List UInt8 → List Char
  | a :: b :: c :: rest =>
      digit (a.toNat / 4) :: digit (a.toNat % 4 * 16 + b.toNat / 16) ::
        digit (b.toNat % 16 * 4 + c.toNat / 64) :: digit (c.toNat % 64) :: unpadded rest
  | [a, b] =>
      [digit (a.toNat / 4), digit (a.toNat % 4 * 16 + b.toNat / 16), digit (b.toNat % 16 * 4)]
  | [a] => [digit (a.toNat / 4), digit (a.toNat % 4 * 16)]
  | [] => []

/-- How many bytes are missing from the last three. -/
def padding (n : Nat) : Nat := (3 - n % 3) % 3

def encode (bytes : List UInt8) : List Char :=
  unpadded bytes ++ List.replicate (padding bytes.length) '='

theorem isDigit_of_mem_unpadded {bytes : List UInt8} {c : Char} (hc : c ∈ unpadded bytes) :
    IsDigit c := by
  induction bytes using unpadded.induct with
  | case1 x y z rest ih =>
      have hx := x.toNat_lt
      have hy := y.toNat_lt
      have hz := z.toNat_lt
      rw [unpadded] at hc
      simp only [List.mem_cons] at hc
      rcases hc with rfl | rfl | rfl | rfl | hc
      · exact isDigit_digit (by omega)
      · exact isDigit_digit (by omega)
      · exact isDigit_digit (by omega)
      · exact isDigit_digit (by omega)
      · exact ih hc
  | case2 x y =>
      have hx := x.toNat_lt
      have hy := y.toNat_lt
      simp only [unpadded, List.mem_cons, List.not_mem_nil, or_false] at hc
      rcases hc with rfl | rfl | rfl
      · exact isDigit_digit (by omega)
      · exact isDigit_digit (by omega)
      · exact isDigit_digit (by omega)
  | case3 x =>
      have hx := x.toNat_lt
      simp only [unpadded, List.mem_cons, List.not_mem_nil, or_false] at hc
      rcases hc with rfl | rfl
      · exact isDigit_digit (by omega)
      · exact isDigit_digit (by omega)
  | case4 => cases hc

theorem unpadded_eq_nil {bytes : List UInt8} (h : unpadded bytes = []) : bytes = [] := by
  cases bytes using unpadded.fun_cases with
  | case1 x y z rest => cases h
  | case2 x y => cases h
  | case3 x => cases h
  | case4 => rfl

theorem length_encode (bytes : List UInt8) : (encode bytes).length = 4 * ((bytes.length + 2) / 3) := by
  rw [encode, List.length_append, List.length_replicate, padding]
  induction bytes using unpadded.induct with
  | case1 x y z rest ih =>
      simp only [unpadded, List.length_cons]
      omega
  | case2 x y => simp [unpadded]
  | case3 x => simp [unpadded]
  | case4 => rfl

/-! ## Decoding -/

/-- The bytes of four times six bits. -/
def block (w x y z : Nat) : List UInt8 :=
  [UInt8.ofNat (w * 4 + x / 16), UInt8.ofNat (x % 16 * 16 + y / 4), UInt8.ofNat (y % 4 * 64 + z)]

/-- The six bits of a character or of padding. -/
def paddedValue (c : Char) : Option Nat := if c = '=' then some 0 else value c

/-- Blocks of four characters, of which the last one may end in one or two `=`. -/
def decodeBlocks : List Char → Option (List UInt8)
  | [] => some []
  | a :: b :: c :: d :: rest => do
      let w ← value a
      let x ← value b
      let y ← if rest = [] ∧ d = '=' then paddedValue c else value c
      let z ← if rest = [] then paddedValue d else value d
      return block w x y z ++ (← decodeBlocks rest)
  | _ => none

theorem paddedValue_digit {n : Nat} (h : n < 64) : paddedValue (digit n) = some n := by
  rw [paddedValue, if_neg (isDigit_digit h).ne_pad, value_digit h]

theorem decodeBlocks_digits {w x y z : Nat} (hw : w < 64) (hx : x < 64) (hy : y < 64) (hz : z < 64)
    (rest : List Char) :
    decodeBlocks (digit w :: digit x :: digit y :: digit z :: rest)
      = (decodeBlocks rest).map (block w x y z ++ ·) := by
  rw [decodeBlocks]
  simp only [value_digit, paddedValue_digit, hw, hx, hy, hz, ite_self]
  cases decodeBlocks rest <;> rfl

/-- A last block with padding. -/
theorem decodeBlocks_padded {w x y : Nat} {c : Char} (hw : w < 64) (hx : x < 64)
    (hc : paddedValue c = some y) :
    decodeBlocks [digit w, digit x, c, '='] = some (block w x y 0) := by
  have hpad : paddedValue '=' = some 0 := rfl
  rw [decodeBlocks]
  simp [value_digit, hw, hx, hc, hpad, decodeBlocks]

theorem ofNat_toNat_eq {n : Nat} {a : UInt8} (h : n = a.toNat) : UInt8.ofNat n = a := by
  rw [h, UInt8.ofNat_toNat]

/-- Decoding gives the bytes back, with zero bytes for the padding. -/
theorem decodeBlocks_encode (bytes : List UInt8) :
    decodeBlocks (encode bytes) = some (bytes ++ List.replicate (padding bytes.length) 0) := by
  rw [encode]
  induction bytes using unpadded.induct with
  | case1 a b c rest ih =>
      have ha := a.toNat_lt
      have hb := b.toNat_lt
      have hc := c.toNat_lt
      have hpadding : padding (a :: b :: c :: rest).length = padding rest.length := by
        simp only [padding, List.length_cons]
        omega
      have hblock : block (a.toNat / 4) (a.toNat % 4 * 16 + b.toNat / 16)
          (b.toNat % 16 * 4 + c.toNat / 64) (c.toNat % 64) = [a, b, c] := by
        rw [block, ofNat_toNat_eq (a := a) (by omega), ofNat_toNat_eq (a := b) (by omega),
          ofNat_toNat_eq (a := c) (by omega)]
      rw [hpadding, unpadded, List.cons_append, List.cons_append, List.cons_append,
        List.cons_append, decodeBlocks_digits (by omega) (by omega) (by omega) (by omega), ih, hblock]
      rfl
  | case2 a b =>
      have ha := a.toNat_lt
      have hb := b.toNat_lt
      change decodeBlocks [_, _, digit (b.toNat % 16 * 4), '='] = some [a, b, 0]
      rw [decodeBlocks_padded (by omega) (by omega) (paddedValue_digit (by omega)), block,
        ofNat_toNat_eq (a := a) (by omega), ofNat_toNat_eq (a := b) (by omega),
        ofNat_toNat_eq (a := 0) (by rw [UInt8.toNat_zero]; omega)]
  | case3 a =>
      have ha := a.toNat_lt
      change decodeBlocks [_, _, '=', '='] = some [a, 0, 0]
      rw [decodeBlocks_padded (by omega) (by omega) rfl, block,
        ofNat_toNat_eq (a := a) (by omega), ofNat_toNat_eq (a := 0) (by rw [UInt8.toNat_zero]; omega),
        ofNat_toNat_eq (a := 0) (by rfl)]
  | case4 => rfl

end Base64
