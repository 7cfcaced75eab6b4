import QuasarDB.Library.BinaryFile

set_option autoImplicit false

/-! # Readers and writers of streams

A reader returns `none` where C++ code returns `std::nullopt` after a `read` that failed or a check of
what was read. `Reads x data a` says that `x` finds `a` in the bytes `data` wherever they stand in a file,
and takes these bytes and no more; `Writes x data a` that `x` appends them. Both go through programs step
by step, so a writer and a reader are compared by the bytes between them. -/

namespace FileStream

/-- A function that reads a value or returns `std::nullopt`. -/
abbrev Reader (α : Type) : Type := OptionT (Prog FileStream) α

/-- `if (!read(buffer, count)) return std::nullopt`. -/
def readExactly (count : Nat) : Reader (List UInt8) := OptionT.mk do
  let data ← read count
  let stream ← get
  return if stream.failed then none else some data

/-- `if (condition) return std::nullopt`. -/
def refuseIf (condition : Bool) : Reader Unit := if condition then failure else pure ()

def readByte : Reader UInt8 := do
  match ← readExactly 1 with
  | [byte] => return byte
  | _ => failure

/-- A `std::uint32_t`. -/
def readWord : Reader UInt32 := do
  return wordOfBytes (← readExactly 4)

/-- A string and its bytes. -/
def textBytes (text : String) : List UInt8 := text.toByteArray.data.toList

/-- The string of these bytes. Bytes that are no UTF-8 text are refused, as they are no `String`. -/
def textOfBytes (bytes : List UInt8) : Option String := String.fromUTF8? ⟨bytes.toArray⟩

/-- A string of a given size. -/
def readText (count : Nat) : Reader String := do
  match textOfBytes (← readExactly count) with
  | some text => return text
  | none => failure

theorem length_textBytes (text : String) : (textBytes text).length = text.utf8ByteSize := by
  rw [textBytes, Array.length_toList]
  rfl

theorem textOfBytes_textBytes (text : String) : textOfBytes (textBytes text) = some text := by
  rw [textOfBytes, textBytes, Array.toArray_toList, String.fromUTF8?, dif_pos text.isValidUTF8]
  rfl

theorem textBytes_of_eq_some {bytes : List UInt8} {text : String} (h : textOfBytes bytes = some text) :
    textBytes text = bytes := by
  rw [textOfBytes, String.fromUTF8?] at h
  split at h
  · obtain rfl := Option.some.inj h
    rfl
  · cases h

/-- What a function that throws gives to a reader. -/
def ofExcept {α : Type} (result : Except String α) : Reader α := OptionT.lift (Prog.ofExcept result)

/-! ## Reading -/

variable {α β : Type}

/-- The reader finds `a` in these bytes. -/
def Reads (x : Reader α) (data : List UInt8) (a : α) : Prop :=
  ∀ front back, x.run (around front (data ++ back)) = .ok (some a) (around (front ++ data) back)

theorem reads_pure (a : α) : Reads (pure a) [] a := by
  intro front back
  rw [List.append_nil]
  rfl

theorem run_reader_bind {x : Reader α} {f : α → Reader β} {s t : FileStream} {a : α}
    (h : x.run s = .ok (some a) t) : (x >>= f).run s = (f a).run t := by
  rw [OptionT.run_bind]
  exact Prog.bind_ok h

theorem Reads.bind {x : Reader α} {f : α → Reader β} {data data' : List UInt8} {a : α} {b : β}
    (hx : Reads x data a) (hf : Reads (f a) data' b) : Reads (x >>= f) (data ++ data') b := by
  intro front back
  rw [List.append_assoc, run_reader_bind (hx front (data' ++ back)), hf (front ++ data) back,
    List.append_assoc]

/-- A step that takes no bytes. -/
theorem Reads.bind_nil {x : Reader α} {f : α → Reader β} {data : List UInt8} {a : α} {b : β}
    (hx : Reads x [] a) (hf : Reads (f a) data b) : Reads (x >>= f) data b :=
  hx.bind hf

/-- The last step of a reader. -/
theorem Reads.bind_pure {x : Reader α} {f : α → β} {data : List UInt8} {a : α} {b : β}
    (hx : Reads x data a) (hb : f a = b) : Reads (x >>= fun a => pure (f a)) data b := by
  intro front back
  rw [run_reader_bind (hx front back), hb]
  rfl

theorem reads_readExactly {data : List UInt8} {count : Nat} (h : data.length = count) :
    Reads (readExactly count) data data := by
  intro front back
  exact Prog.bind_ok (run_read h)

theorem reads_readByte (byte : UInt8) : Reads readByte [byte] byte := by
  have hread : Reads (readExactly 1) [byte] [byte] := reads_readExactly rfl
  exact hread.bind (reads_pure byte)

theorem reads_readWord (word : UInt32) : Reads readWord (wordBytes word) word := by
  intro front back
  rw [readWord, run_reader_bind (reads_readExactly (length_wordBytes word) front back),
    wordOfBytes_wordBytes]
  rfl

theorem reads_readText {text : String} {count : Nat} (h : text.utf8ByteSize = count) :
    Reads (readText count) (textBytes text) text := by
  intro front back
  have hlength : (textBytes text).length = count := by rw [length_textBytes, h]
  rw [readText, run_reader_bind (reads_readExactly hlength front back), textOfBytes_textBytes]
  rfl

theorem reads_refuseIf {condition : Bool} (h : condition = false) :
    Reads (refuseIf condition) [] () := by
  rw [refuseIf, h]
  exact reads_pure ()

theorem reads_ofExcept {result : Except String α} {a : α} (h : result = .ok a) :
    Reads (ofExcept result) [] a := by
  intro front back
  rw [h, List.append_nil]
  rfl

/-! ## What was read -/

theorem reader_bind_eq_ok {x : Reader α} {f : α → Reader β} {s u : FileStream} {b : β}
    (h : (x >>= f).run s = .ok (some b) u) :
    ∃ a t, x.run s = .ok (some a) t ∧ (f a).run t = .ok (some b) u := by
  rw [OptionT.run_bind] at h
  obtain ⟨found, t, hx, hf⟩ := Prog.bind_eq_ok.1 h
  cases found with
  | none => cases hf
  | some a => exact ⟨a, t, hx, hf⟩

theorem length_read_le {count : Nat} {data : List UInt8} {s t : FileStream}
    (h : read count s = .ok data t) : data.length ≤ count := by
  rw [read, Prog.run_get_bind, Prog.run_ite] at h
  split at h
  · obtain ⟨rfl, -⟩ := Prog.pure_eq_ok.1 h
    exact Nat.zero_le count
  · obtain ⟨rfl, -⟩ := Prog.pure_eq_ok.1 h
    exact List.length_take_le count _

theorem length_readExactly_le {count : Nat} {data : List UInt8} {s t : FileStream}
    (h : (readExactly count).run s = .ok (some data) t) : data.length ≤ count := by
  obtain ⟨taken, s₁, hread, hcheck⟩ := Prog.bind_eq_ok.1 h
  obtain ⟨hdata, -⟩ := Prog.pure_eq_ok.1 hcheck
  split at hdata
  · cases hdata
  · obtain rfl := Option.some.inj hdata
    exact length_read_le hread

theorem size_readText_le {count : Nat} {text : String} {s t : FileStream}
    (h : (readText count).run s = .ok (some text) t) : text.utf8ByteSize ≤ count := by
  rw [readText] at h
  obtain ⟨bytes, s₁, hread, hmatch⟩ := reader_bind_eq_ok h
  cases htext : textOfBytes bytes with
  | none =>
      rw [htext] at hmatch
      cases hmatch
  | some found =>
      rw [htext] at hmatch
      cases hmatch
      rw [← length_textBytes, textBytes_of_eq_some htext]
      exact length_readExactly_le hread

theorem refuseIf_eq_ok {condition : Bool} {s t : FileStream}
    (h : (refuseIf condition).run s = .ok (some ()) t) : condition = false := by
  cases condition with
  | false => rfl
  | true => cases h

/-! ## Writing -/

/-- The writer appends these bytes and returns `a`. -/
def Writes (x : Prog FileStream α) (data : List UInt8) (a : α) : Prop :=
  ∀ front, x (around front []) = .ok a (around (front ++ data) [])

theorem writes_write (data : List UInt8) : Writes (write data) data () := by
  intro front
  exact run_write

theorem Writes.bind {x : Prog FileStream α} {f : α → Prog FileStream β} {data data' : List UInt8}
    {a : α} {b : β} (hx : Writes x data a) (hf : Writes (f a) data' b) :
    Writes (x >>= f) (data ++ data') b := by
  intro front
  rw [Prog.bind_ok (hx front), hf (front ++ data), List.append_assoc]

/-- `return !fail()`. -/
theorem writes_succeeded : Writes (do return !(← get).failed) [] true := by
  intro front
  rw [Prog.run_get_bind, failed_around, List.append_nil]
  rfl

end FileStream
