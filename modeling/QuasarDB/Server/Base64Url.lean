import QuasarDB.Library.Prog

set_option autoImplicit false

/-! # Base64 for URLs

`Base64UrlEncode` and `Base64UrlDecode` of `security.cpp`, around two functions of the cryptographic
library. A `std::string` is the list of its characters here. The sizes go through `int`, in which
the first function also computes. -/

namespace QuasarDB.Server

/-- The functions of the cryptographic library. -/
structure Evp where
  /-- The text `EVP_EncodeBlock` writes for the bytes it is to read. -/
  encodeBlock : List UInt8 → List Char
  /-- What `EVP_DecodeBlock` writes for the text it is to read, unless it returns a negative number.
      -/
  decodeBlock : List Char → Option (List UInt8)

/-! ## `int` -/

/-- `static_cast<int>` of a size. -/
def castInt (size : Nat) : Int := Int.bmod size (2 ^ 32)

/-- The result of an operation on `int`. -/
def intResult (z : Int) : Except Failure Int :=
  if -2 ^ 31 ≤ z ∧ z < 2 ^ 31 then .ok z else .error (.undefined "signed integer overflow")

/-! ## Characters and bytes at the end -/

/-- `result.resize(result.find_last_not_of(c) + 1)`, unless there is no other character. -/
def resizeToLastNotOf (c : Char) (result : List Char) : List Char :=
  if result.all (· == c) then result else (result.reverse.dropWhile (· == c)).reverse

/-- The loop that pops zero bytes. -/
def popZeros (buf : List UInt8) : List UInt8 := (buf.reverse.dropWhile (· == 0)).reverse

/-! ## Encoding -/

def toUrl (c : Char) : Char := if c = '+' then '-' else if c = '/' then '_' else c

/-- `Base64UrlEncode`. A vector cannot have a negative size; `EVP_EncodeBlock` reads nothing when it
    is told a negative one. -/
def base64UrlEncode (evp : Evp) (data : List UInt8) : Except Failure (List Char) := do
  let size := castInt data.length
  let blocks := (← intResult (size + 2)).tdiv 3
  let encodedSize ← intResult (4 * blocks)
  let bufSize ← intResult (encodedSize + 1)
  if bufSize < 0 then throw (.exception "cannot create std::vector larger than max_size()")
  let result := evp.encodeBlock (data.take size.toNat)
  return resizeToLastNotOf '=' (result.map toUrl)

/-! ## Decoding -/

def ofUrl (c : Char) : Char := if c = '-' then '+' else if c = '_' then '/' else c

/-- The rest of `Base64UrlDecode`, once there is no padding in the text. -/
def decodeNormalized (evp : Evp) (normalized : List Char) : List UInt8 :=
  let padding := (4 - (castInt normalized.length).tmod 4).tmod 4
  let padded := normalized ++ List.replicate padding.toNat '='
  match evp.decodeBlock (padded.take (castInt padded.length).toNat) with
  | none => []
  | some buf => popZeros buf

/-- `Base64UrlDecode`. -/
def base64UrlDecode (evp : Evp) (input : List Char) : List UInt8 :=
  let normalized := input.map ofUrl
  match normalized.findIdx? (· == '=') with
  | none => decodeNormalized evp normalized
  | some eqPos =>
      if (normalized.drop eqPos).any (· != '=') then []
      else decodeNormalized evp (normalized.take eqPos)

end QuasarDB.Server
