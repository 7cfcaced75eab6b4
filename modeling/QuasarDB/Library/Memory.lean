import QuasarDB.Library.BinaryFile

set_option autoImplicit false

/-! # Memory of a fixed size

A block of bytes that C++ code reads and writes through pointers into it. An access that is not inside
the block is undefined. The lemmas say what an access does to a block that is seen as three parts, of
which the middle one is accessed. -/

structure Memory (size : Nat) where
  bytes : List UInt8
  length_bytes : bytes.length = size

namespace Memory

variable {size : Nat}

/-- `std::memcpy` from the block. -/
def load (offset count : Nat) : Prog (Memory size) (List UInt8) := do
  let memory ← get
  if offset + count ≤ size then return (memory.bytes.drop offset).take count
  else throw (.undefined "access outside of the memory")

/-- The block with other bytes at an offset. -/
def replace (memory : Memory size) (offset : Nat) (data : List UInt8)
    (h : offset + data.length ≤ size) : Memory size where
  bytes := memory.bytes.take offset ++ data ++ memory.bytes.drop (offset + data.length)
  length_bytes := by
    have hsize := memory.length_bytes
    simp only [List.length_append, List.length_take, List.length_drop]
    omega

@[simp] theorem bytes_replace (memory : Memory size) {offset : Nat} {data : List UInt8}
    (h : offset + data.length ≤ size) :
    (memory.replace offset data h).bytes =
      memory.bytes.take offset ++ data ++ memory.bytes.drop (offset + data.length) := rfl

/-- `std::memcpy` to the block. -/
def store (offset : Nat) (data : List UInt8) : Prog (Memory size) Unit := do
  let memory ← get
  if h : offset + data.length ≤ size then set (memory.replace offset data h)
  else throw (.undefined "access outside of the memory")

/-- A `std::uint32_t` in the block. -/
def loadWord (offset : Nat) : Prog (Memory size) UInt32 := do
  return wordOfBytes (← load offset 4)

def storeWord (offset : Nat) (word : UInt32) : Prog (Memory size) Unit :=
  store offset (wordBytes word)

/-! ## Accesses to a part -/

variable {memory : Memory size} {front part back : List UInt8} {offset : Nat}

theorem run_load (hbytes : memory.bytes = front ++ part ++ back) (hoffset : front.length = offset)
    {count : Nat} (hcount : part.length = count) :
    load offset count memory = .ok part memory := by
  have hsize := memory.length_bytes
  rw [hbytes, List.length_append, List.length_append] at hsize
  have hin : offset + count ≤ size := by omega
  rw [load, Prog.run_get_bind, if_pos hin, hbytes, List.append_assoc, ← hoffset, List.drop_left,
    ← hcount, List.take_left]
  rfl

theorem run_loadWord {word : UInt32} (hbytes : memory.bytes = front ++ wordBytes word ++ back)
    (hoffset : front.length = offset) : loadWord offset memory = .ok word memory := by
  rw [loadWord, Prog.bind_ok (run_load hbytes hoffset (length_wordBytes word)), wordOfBytes_wordBytes]
  rfl

/-- The part is replaced and the rest is left alone. -/
theorem run_store (data : List UInt8) (hbytes : memory.bytes = front ++ part ++ back)
    (hoffset : front.length = offset) (hlength : part.length = data.length) :
    ∃ memory', store offset data memory = .ok () memory' ∧
      memory'.bytes = front ++ data ++ back := by
  have hsize := memory.length_bytes
  rw [hbytes, List.length_append, List.length_append] at hsize
  have hin : offset + data.length ≤ size := by omega
  have hfront : memory.bytes.take offset = front := by
    rw [hbytes, List.append_assoc, ← hoffset, List.take_left]
  have hback : memory.bytes.drop (offset + data.length) = back := by
    rw [hbytes, ← hoffset, ← hlength, ← List.length_append, List.drop_left]
  rw [store, Prog.run_get_bind, dif_pos hin]
  refine ⟨memory.replace offset data hin, rfl, ?_⟩
  rw [bytes_replace, hfront, hback]

theorem run_storeWord (word : UInt32) (hbytes : memory.bytes = front ++ part ++ back)
    (hoffset : front.length = offset) (hlength : part.length = 4) :
    ∃ memory', storeWord offset word memory = .ok () memory' ∧
      memory'.bytes = front ++ wordBytes word ++ back :=
  run_store (wordBytes word) hbytes hoffset (by rw [hlength, length_wordBytes])

/-- What is stored was not longer than the block. -/
theorem store_eq_ok {data : List UInt8} {memory' : Memory size}
    (h : store offset data memory = .ok () memory') : offset + data.length ≤ size := by
  by_contra hout
  rw [store, Prog.run_get_bind, dif_neg hout] at h
  cases h

end Memory
