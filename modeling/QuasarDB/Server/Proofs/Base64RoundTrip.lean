import QuasarDB.Library.Base64
import QuasarDB.Library.Results
import QuasarDB.Server.Base64Url

set_option autoImplicit false

/-! # The round trip of base64 for URLs

The alphabet for URLs is undone, the padding that was cut off is put back, and the zero bytes the
decoder gives for it are popped, together with those that the bytes themselves end in. From
1610612734 bytes on the size of the text is no `int` any more. -/

namespace QuasarDB.Server

open Base64

/-- The cryptographic library does standard base64 with padding, as long as the sizes are `int`s. -/
structure Evp.Standard (evp : Evp) : Prop where
  encode : ∀ bytes, (Base64.encode bytes).length < 2 ^ 31 →
    evp.encodeBlock bytes = Base64.encode bytes
  decode : ∀ text bytes, text.length < 2 ^ 31 → decodeBlocks text = some bytes →
    evp.decodeBlock text = some bytes

/-! ## The alphabet for URLs -/

theorem ofUrl_toUrl {c : Char} (hc : IsDigit c) : ofUrl (toUrl c) = c := by
  have hall : ∀ n : Fin 64, ofUrl (toUrl (digit n)) = digit n := by decide
  exact IsDigit.of_forall (P := fun c => ofUrl (toUrl c) = c) hall hc

theorem toUrl_ne_pad {c : Char} (hc : IsDigit c) : toUrl c ≠ '=' := by
  have hall : ∀ n : Fin 64, toUrl (digit n) ≠ '=' := by decide
  exact IsDigit.of_forall (P := fun c => toUrl c ≠ '=') hall hc

theorem map_ofUrl_toUrl (bytes : List UInt8) :
    ((unpadded bytes).map toUrl).map ofUrl = unpadded bytes := by
  rw [List.map_map]
  refine (List.map_congr_left ?_).trans (List.map_id _)
  intro c hc
  exact ofUrl_toUrl (isDigit_of_mem_unpadded hc)

/-- Behind other characters the padding is cut off, and nothing else. -/
theorem resizeToLastNotOf_append {c : Char} {body : List Char} (hbody : ∀ x ∈ body, x ≠ c) {n : Nat}
    (hn : body = [] → n = 0) : resizeToLastNotOf c (body ++ List.replicate n c) = body := by
  rw [resizeToLastNotOf]
  rcases List.eq_nil_or_concat body with rfl | ⟨front, x, rfl⟩
  · rw [hn rfl]
    rfl
  · rw [List.concat_eq_append] at hbody ⊢
    have hx : (x == c) = false := beq_eq_false_iff_ne.2 (hbody x (by simp))
    have hall : ((front ++ [x] ++ List.replicate n c).all (· == c)) = false := by
      simp [hx]
    have hpads : ∀ y ∈ List.replicate n c, (y == c) = true := by
      intro y hy
      rw [List.eq_of_mem_replicate hy, beq_self_eq_true]
    rw [hall, if_neg Bool.false_ne_true, List.reverse_append, List.reverse_replicate,
      List.dropWhile_append_of_pos hpads, List.reverse_concat, List.dropWhile_cons_of_neg (by simp [hx]),
      List.reverse_cons, List.reverse_reverse]

theorem resize_encode (bytes : List UInt8) :
    resizeToLastNotOf '=' ((encode bytes).map toUrl) = (unpadded bytes).map toUrl := by
  have hpad : toUrl '=' = '=' := rfl
  rw [encode, List.map_append, List.map_replicate, hpad]
  apply resizeToLastNotOf_append
  · intro x hx
    obtain ⟨c, hc, rfl⟩ := List.mem_map.1 hx
    exact toUrl_ne_pad (isDigit_of_mem_unpadded hc)
  · intro hnil
    rw [unpadded_eq_nil (List.map_eq_nil_iff.1 hnil)]
    rfl

/-! ## Zero bytes at the end -/

theorem popZeros_append_replicate (bytes : List UInt8) (n : Nat) :
    popZeros (bytes ++ List.replicate n 0) = popZeros bytes := by
  have hzeros : ∀ y ∈ List.replicate n (0 : UInt8), (y == 0) = true := by
    intro y hy
    rw [List.eq_of_mem_replicate hy, beq_self_eq_true]
  rw [popZeros, List.reverse_append, List.reverse_replicate, List.dropWhile_append_of_pos hzeros,
    popZeros]

theorem length_popZeros_le (bytes : List UInt8) : (popZeros bytes).length ≤ bytes.length := by
  rw [popZeros, List.length_reverse]
  exact (List.dropWhile_sublist _).length_le.trans List.length_reverse.le

/-- Nothing is popped exactly when there is no zero byte at the end. -/
theorem popZeros_eq_self_iff (bytes : List UInt8) :
    popZeros bytes = bytes ↔ bytes.getLast? ≠ some 0 := by
  rcases List.eq_nil_or_concat bytes with rfl | ⟨front, x, rfl⟩
  · simp [popZeros]
  · rw [List.concat_eq_append, List.getLast?_append, popZeros, List.reverse_append]
    by_cases hx : x = 0
    · subst hx
      have hle := length_popZeros_le front
      rw [popZeros] at hle
      refine iff_of_false ?_ (by simp)
      intro heq
      have hlen := congrArg List.length heq
      simp at hlen hle
      omega
    · refine iff_of_true ?_ (by simpa using hx)
      simp [hx]

/-! ## Decoding what was encoded -/

/-- From here on the length of the text is no `int`. -/
def longest : Nat := 1610612733

theorem length_encode_lt {bytes : List UInt8} (h : bytes.length ≤ longest) :
    (encode bytes).length < 2 ^ 31 := by
  rw [longest] at h
  rw [length_encode]
  omega

theorem castInt_of_lt {n : Nat} (h : n < 2 ^ 31) : castInt n = n := by
  have hlow : -((2 ^ 32 : Nat) / 2 : Int) ≤ n := by omega
  have hhigh : (n : Int) < ((2 ^ 32 : Nat) + 1) / 2 := by omega
  exact Int.bmod_eq_of_le hlow hhigh

/-- What is missing from the last four characters. -/
theorem padding_of_length {u missing k : Nat} (hk : u + missing = 4 * k) (hmissing : missing < 4) :
    ((4 - (u : Int).tmod 4).tmod 4).toNat = missing := by
  rw [Int.tmod_eq_emod_of_nonneg (by omega : (0 : Int) ≤ u),
    Int.tmod_eq_emod_of_nonneg (by omega : (0 : Int) ≤ 4 - (u : Int) % 4)]
  omega

variable {evp : Evp}

theorem decodeNormalized_unpadded (hevp : evp.Standard) {bytes : List UInt8}
    (h : bytes.length ≤ longest) : decodeNormalized evp (unpadded bytes) = popZeros bytes := by
  have hlt := length_encode_lt h
  have hlength : (unpadded bytes).length + padding bytes.length = 4 * ((bytes.length + 2) / 3) := by
    rw [← length_encode, encode, List.length_append, List.length_replicate]
  have hu : (unpadded bytes).length < 2 ^ 31 := by
    rw [length_encode] at hlt
    omega
  have hmissing : padding bytes.length < 4 := by
    rw [padding]
    omega
  rw [decodeNormalized]
  simp only [castInt_of_lt hu, padding_of_length hlength hmissing]
  rw [← encode, castInt_of_lt hlt, Int.toNat_natCast, List.take_length,
    hevp.decode _ _ hlt (decodeBlocks_encode bytes)]
  exact popZeros_append_replicate _ _

theorem base64UrlDecode_unpadded (hevp : evp.Standard) {bytes : List UInt8}
    (h : bytes.length ≤ longest) :
    base64UrlDecode evp ((unpadded bytes).map toUrl) = popZeros bytes := by
  have hnone : (unpadded bytes).findIdx? (· == '=') = none := by
    rw [List.findIdx?_eq_none_iff]
    intro c hc
    exact beq_eq_false_iff_ne.2 (isDigit_of_mem_unpadded hc).ne_pad
  rw [base64UrlDecode, map_ofUrl_toUrl]
  simp only [hnone]
  exact decodeNormalized_unpadded hevp h

/-! ## Encoding -/

theorem intResult_of_mem {z : Int} (h : -2 ^ 31 ≤ z ∧ z < 2 ^ 31) : intResult z = .ok z := by
  rw [intResult, if_pos h]

theorem intResult_eq_ok {z y : Int} (h : intResult z = .ok y) :
    (-2 ^ 31 ≤ z ∧ z < 2 ^ 31) ∧ y = z := by
  rw [intResult] at h
  split_ifs at h with hz
  · exact ⟨hz, (Except.ok.inj h).symm⟩

/-- A size of which four thirds are an `int`. -/
theorem le_longest_of_blocks {size : Int} (h : 4 * (size + 2).tdiv 3 < 2 ^ 31) :
    size.toNat ≤ longest := by
  rw [longest]
  by_cases hneg : size < 0
  · omega
  · rw [Int.tdiv_eq_ediv_of_nonneg (by omega)] at h
    omega

/-- Whatever the size, no more bytes are encoded than have a text whose length is an `int`. -/
theorem base64UrlEncode_eq_ok (hevp : evp.Standard) {data : List UInt8} {text : List Char}
    (h : base64UrlEncode evp data = .ok text) :
    ∃ n, n ≤ longest ∧ text = (unpadded (data.take n)).map toUrl := by
  rw [base64UrlEncode] at h
  obtain ⟨sum, hsum, h₁⟩ := Except.bind_eq_ok.1 h
  obtain ⟨encodedSize, hsize, h₂⟩ := Except.bind_eq_ok.1 h₁
  obtain ⟨bufSize, hbuf, h₃⟩ := Except.bind_eq_ok.1 h₂
  have hrange := (intResult_eq_ok hsize).1
  rw [(intResult_eq_ok hsum).2] at hrange
  have hn := le_longest_of_blocks hrange.2
  have htake : (data.take (castInt data.length).toNat).length ≤ longest :=
    (List.length_take_le _ _).trans hn
  refine ⟨_, hn, ?_⟩
  rw [← resize_encode, ← hevp.encode _ (length_encode_lt htake)]
  split_ifs at h₃
  · cases h₃
  · exact (Except.ok.inj h₃).symm

theorem base64UrlEncode_of_le (hevp : evp.Standard) {data : List UInt8}
    (h : data.length ≤ longest) :
    base64UrlEncode evp data = .ok ((unpadded data).map toUrl) := by
  have hlt := length_encode_lt h
  have hsize : castInt data.length = data.length := by
    rw [longest] at h
    exact castInt_of_lt (by omega)
  have hblocks : ((data.length : Int) + 2).tdiv 3 = ((data.length + 2) / 3 : Nat) := by
    rw [Int.tdiv_eq_ediv_of_nonneg (by omega)]
    omega
  rw [longest] at h
  rw [base64UrlEncode, hsize, Int.toNat_natCast, List.take_length, hevp.encode _ hlt]
  refine Except.bind_eq_ok.2 ⟨_, intResult_of_mem (by omega), ?_⟩
  refine Except.bind_eq_ok.2 ⟨_, intResult_of_mem (by rw [hblocks]; omega), ?_⟩
  refine Except.bind_eq_ok.2 ⟨_, intResult_of_mem (by rw [hblocks]; omega), ?_⟩
  rw [if_neg (by rw [hblocks]; omega), ← resize_encode]
  rfl

/-- Decoding undoes encoding exactly for the bytes that do not end in a zero byte and are not too
    many for an `int`. -/
theorem base64Url_roundTrips_iff (hevp : evp.Standard) (data : List UInt8) :
    (base64UrlEncode evp data).map (base64UrlDecode evp) = .ok data ↔
      data.length ≤ 1610612733 ∧ data.getLast? ≠ some 0 := by
  constructor
  · intro h
    cases hencode : base64UrlEncode evp data with
    | error failure =>
        rw [hencode] at h
        cases h
    | ok text =>
        rw [hencode] at h
        obtain ⟨n, hn, rfl⟩ := base64UrlEncode_eq_ok hevp hencode
        have hdecode : popZeros (data.take n) = data := by
          have htake : (data.take n).length ≤ longest := (List.length_take_le _ _).trans hn
          rw [← base64UrlDecode_unpadded hevp htake]
          exact Except.ok.inj h
        -- only all the bytes can be as long as they are
        have hlength := (length_popZeros_le (data.take n)).trans (List.length_take_le _ _)
        rw [hdecode] at hlength
        rw [List.take_of_length_le hlength] at hdecode
        exact ⟨hlength.trans hn, (popZeros_eq_self_iff data).1 hdecode⟩
  · rintro ⟨hlength, hlast⟩
    rw [base64UrlEncode_of_le hevp hlength]
    have hdecode := base64UrlDecode_unpadded hevp hlength
    rw [(popZeros_eq_self_iff data).2 hlast] at hdecode
    exact congrArg Except.ok hdecode

/-! ## A library that does standard base64 -/

def standardEvp : Evp := { encodeBlock := Base64.encode, decodeBlock := decodeBlocks }

theorem standard_standardEvp : standardEvp.Standard :=
  ⟨fun _ _ => rfl, fun _ _ _ h => h⟩

/-- A zero byte that is not at the end. -/
theorem base64Url_roundTrips_iff_zero :
    (base64UrlEncode standardEvp [104, 0, 105]).map (base64UrlDecode standardEvp)
        = .ok [104, 0, 105] ↔
      [104, 0, 105].length ≤ 1610612733 ∧ [104, 0, 105].getLast? ≠ some (0 : UInt8) :=
  base64Url_roundTrips_iff standard_standardEvp [104, 0, 105]

/-- A zero byte is taken for padding. -/
theorem base64UrlDecode_drops_zero :
    standardEvp.Standard ∧ base64UrlEncode standardEvp [0] = .ok ['A', 'A'] ∧
      base64UrlDecode standardEvp ['A', 'A'] = [] ∧
      (base64UrlEncode standardEvp [0]).map (base64UrlDecode standardEvp) ≠ .ok [0] := by
  have hencode : base64UrlEncode standardEvp [0] = .ok ['A', 'A'] := by rfl
  have hdecode : base64UrlDecode standardEvp ['A', 'A'] = [] := by rfl
  refine ⟨standard_standardEvp, hencode, hdecode, ?_⟩
  rw [hencode]
  change Except.ok (base64UrlDecode standardEvp ['A', 'A']) ≠ _
  rw [hdecode]
  intro h
  cases h

end QuasarDB.Server
