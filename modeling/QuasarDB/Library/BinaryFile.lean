import QuasarDB.Library.Prog

set_option autoImplicit false

/-! # Binary files

Numbers as the bytes they have in memory, and a `std::fstream` that is open for reading and writing in
binary mode. A stream has one position for both; where it stands in its file is written
`around front back`, and the lemmas say how a sequence of operations moves it. The disk takes every
write. -/

/-! ## Numbers -/

/-- The bytes of a number in memory, the lowest first. -/
def bytesOf : Nat → Nat → List UInt8
  | 0, _ => []
  | width + 1, n => UInt8.ofNat n :: bytesOf width (n / 256)

/-- The number that bytes in memory stand for. -/
def ofBytes : List UInt8 → Nat
  | [] => 0
  | b :: bytes => b.toNat + 256 * ofBytes bytes

@[simp] theorem length_bytesOf (width n : Nat) : (bytesOf width n).length = width := by
  induction width generalizing n with
  | zero => rfl
  | succ width ih => rw [bytesOf, List.length_cons, ih]

theorem ofBytes_bytesOf {width n : Nat} (h : n < 256 ^ width) : ofBytes (bytesOf width n) = n := by
  induction width generalizing n with
  | zero =>
      rw [Nat.pow_zero] at h
      rw [bytesOf, ofBytes]
      omega
  | succ width ih =>
      have hrest : n / 256 < 256 ^ width := by
        rw [Nat.pow_succ] at h
        exact Nat.div_lt_of_lt_mul (by omega)
      rw [bytesOf, ofBytes, ih hrest, UInt8.toNat_ofNat']
      omega

theorem ofBytes_lt (bytes : List UInt8) : ofBytes bytes < 256 ^ bytes.length := by
  induction bytes with
  | nil =>
      rw [ofBytes, List.length_nil]
      omega
  | cons b bytes ih =>
      have hb : b.toNat < 256 := b.toNat_lt
      rw [ofBytes, List.length_cons, Nat.pow_succ]
      omega

theorem bytesOf_ofBytes (bytes : List UInt8) : bytesOf bytes.length (ofBytes bytes) = bytes := by
  induction bytes with
  | nil => rfl
  | cons b bytes ih =>
      have hb : b.toNat < 256 := b.toNat_lt
      have hbyte : UInt8.ofNat (b.toNat + 256 * ofBytes bytes) = b := by
        apply UInt8.toNat.inj
        rw [UInt8.toNat_ofNat']
        omega
      have hrest : (b.toNat + 256 * ofBytes bytes) / 256 = ofBytes bytes := by omega
      rw [ofBytes, List.length_cons, bytesOf, hbyte, hrest, ih]

/-- `std::uint32_t` in memory. -/
def wordBytes (n : UInt32) : List UInt8 := bytesOf 4 n.toNat

def wordOfBytes (bytes : List UInt8) : UInt32 := .ofNat (ofBytes bytes)

@[simp] theorem length_wordBytes (n : UInt32) : (wordBytes n).length = 4 := length_bytesOf 4 n.toNat

@[simp] theorem wordOfBytes_wordBytes (n : UInt32) : wordOfBytes (wordBytes n) = n := by
  have h : n.toNat < 256 ^ 4 := n.toNat_lt
  rw [wordOfBytes, wordBytes, ofBytes_bytesOf h, UInt32.ofNat_toNat]

theorem wordBytes_wordOfBytes {bytes : List UInt8} (h : bytes.length = 4) :
    wordBytes (wordOfBytes bytes) = bytes := by
  have hlt : ofBytes bytes < 2 ^ 32 := by
    have hlt := ofBytes_lt bytes
    rw [h] at hlt
    exact hlt
  rw [wordBytes, wordOfBytes, UInt32.toNat_ofNat', Nat.mod_eq_of_lt hlt, ← h, bytesOf_ofBytes]

/-! ## Streams -/

structure FileStream where
  /-- The content of the file. -/
  bytes : List UInt8
  position : Nat
  /-- `fail()`. -/
  failed : Bool
  isOpen : Bool

namespace FileStream

/-- `open(path, in | out | binary)` on a file with this content. -/
def openOn (bytes : List UInt8) : FileStream :=
  { bytes, position := 0, failed := false, isOpen := true }

/-- `seekg(offset, beg)`, `seekp(offset, beg)`. -/
def seek (offset : Int) : Prog FileStream Unit :=
  modify fun s =>
    if s.failed then s
    else if offset < 0 ∨ !s.isOpen then { s with failed := true }
    else { s with position := offset.toNat }

/-- `seekp(0, end)`. -/
def seekEnd : Prog FileStream Unit :=
  modify fun s =>
    if s.failed then s
    else if !s.isOpen then { s with failed := true }
    else { s with position := s.bytes.length }

/-- `tellg()`, `tellp()`. -/
def tell : Prog FileStream Int := do
  let s ← get
  return if s.failed || !s.isOpen then -1 else s.position

/-- `read(buffer, count)`: what the stream has left, and a failure if that is less. -/
def read (count : Nat) : Prog FileStream (List UInt8) := do
  let s ← get
  if s.failed || !s.isOpen then
    set { s with failed := true }
    return []
  else
    let data := (s.bytes.drop s.position).take count
    set { s with position := s.position + data.length, failed := data.length < count }
    return data

/-- `write(data, size)`. -/
def write (data : List UInt8) : Prog FileStream Unit :=
  modify fun s =>
    if s.failed || !s.isOpen then { s with failed := true }
    else { s with
      bytes := s.bytes.take s.position ++ data ++ s.bytes.drop (s.position + data.length)
      position := s.position + data.length }

/-- `if (is_open()) close()`. -/
def closeIfOpen : Prog FileStream Unit := modify fun s => { s with isOpen := false }

/-- `std::filesystem::resize_file` on the file. -/
def resize (size : Nat) : Prog FileStream Unit :=
  modify fun s =>
    { s with bytes := s.bytes.take size ++ List.replicate (size - s.bytes.length) 0 }

/-- `open(path, in | out | binary)` again. -/
def reopen : Prog FileStream Unit := modify fun s => openOn s.bytes

/-! ## Where a stream stands -/

/-- The stream can be used. -/
structure Good (s : FileStream) : Prop where
  failed : s.failed = false
  isOpen : s.isOpen = true

/-- The stream between two parts of its file. -/
def around (front back : List UInt8) : FileStream :=
  { bytes := front ++ back, position := front.length, failed := false, isOpen := true }

theorem good_around (front back : List UInt8) : (around front back).Good := ⟨rfl, rfl⟩

@[simp] theorem bytes_around (front back : List UInt8) : (around front back).bytes = front ++ back :=
  rfl

@[simp] theorem failed_around (front back : List UInt8) : (around front back).failed = false := rfl

variable {s : FileStream} {front back data : List UInt8}

theorem run_seek (h : s.Good) (hbytes : s.bytes = front ++ back) {offset : Int}
    (hoffset : offset = front.length) : seek offset s = .ok () (around front back) := by
  obtain ⟨bytes, position, failed, isOpen⟩ := s
  obtain ⟨rfl, rfl⟩ := h
  subst hbytes hoffset
  have hnonneg : ¬ ((front.length : Int) < 0) := by omega
  simp [seek, around, hnonneg]

theorem run_seekEnd (h : s.Good) : seekEnd s = .ok () (around s.bytes []) := by
  obtain ⟨bytes, position, failed, isOpen⟩ := s
  obtain ⟨rfl, rfl⟩ := h
  simp [seekEnd, around]

@[simp] theorem run_tell :
    tell (around front back) = .ok (front.length : Int) (around front back) := rfl

theorem run_read {count : Nat} (hcount : data.length = count) :
    read count (around front (data ++ back)) = .ok data (around (front ++ data) back) := by
  subst hcount
  simp [read, around]

@[simp] theorem run_write :
    write data (around front []) = .ok () (around (front ++ data) []) := by
  simp [write, around]

/-- What is written takes the place of as many bytes. -/
theorem run_overwrite {old : List UInt8} (hlength : old.length = data.length) :
    write data (around front (old ++ back)) = .ok () (around (front ++ data) back) := by
  have hdrop : (front ++ (old ++ back)).drop (front.length + data.length) = back := by
    rw [← List.append_assoc, ← hlength, ← List.length_append, List.drop_left]
  simp [write, around, hdrop]

@[simp] theorem run_closeIfOpen : closeIfOpen s = .ok () { s with isOpen := false } := rfl

theorem run_resize (hbytes : s.bytes = front ++ back) :
    resize front.length s = .ok () { s with bytes := front } := by
  have hshort : front.length - s.bytes.length = 0 := by
    rw [hbytes, List.length_append]
    omega
  simp only [resize, Prog.run_modify, hshort, List.replicate_zero, List.append_nil]
  rw [hbytes, List.take_left]

@[simp] theorem run_reopen : reopen s = .ok () (openOn s.bytes) := rfl

theorem good_openOn (bytes : List UInt8) : (openOn bytes).Good := ⟨rfl, rfl⟩

end FileStream
