/-!
# Byte memory

A `Memory` is a run of bytes of fixed size, all zero until written. Device contents, disk images
and the buffers shared with clients are memories. Only the part written so far is stored, so a
large buffer costs nothing until it is used.

* `byte_write` — a write changes the bytes it covers, and no others.
* `read_write` — what was written inside the memory reads back.
* `read_write_of_disjoint` — a write elsewhere does not show.
* `take_drop_read` — part of what is read is read from further on.
-/

namespace BlockMux

/-- A run of `size` bytes; the bytes after the stored ones are zero. -/
structure Memory where
  size : Nat
  stored : Array UInt8
  deriving DecidableEq, Repr

namespace Memory

/-- A memory of zero bytes. -/
def zeroed (size : Nat) : Memory := ⟨size, #[]⟩

/-- The byte at `pos`, zero outside the memory. -/
def byte (m : Memory) (pos : Nat) : UInt8 := m.stored.getD pos 0

/-- The `len` bytes from `pos` on. -/
def read (m : Memory) (pos len : Nat) : List UInt8 :=
  (List.range len).map fun i => m.byte (pos + i)

/-- Zero bytes are stored until at least `count` bytes are. -/
def grow (stored : Array UInt8) (count : Nat) : Array UInt8 :=
  stored ++ Array.replicate (count - stored.size) 0

/-- Puts `bytes` into the stored bytes from `pos` on; those that do not fit are dropped. -/
def put (stored : Array UInt8) (pos : Nat) : List UInt8 → Array UInt8
  | [] => stored
  | b :: bytes => put (stored.setIfInBounds pos b) (pos + 1) bytes

/-- Overwrites the memory with `bytes` from `pos` on; what lies beyond its end is dropped. -/
def write (m : Memory) (pos : Nat) (bytes : List UInt8) : Memory :=
  -- Growing no further than the end keeps a write far outside from storing anything there.
  let stored := grow m.stored (min m.size (pos + bytes.length))
  { m with stored := put stored pos (bytes.take (m.size - pos)) }

/-! ## What a write changes -/

theorem getD_grow (stored : Array UInt8) (count i : Nat) :
    (grow stored count).getD i 0 = stored.getD i 0 := by
  unfold grow
  simp only [Array.getD_eq_getD_getElem?, Array.getElem?_append]
  split
  · rfl
  · rename_i h
    rw [Array.getElem?_eq_none (Nat.le_of_not_lt h), Array.getElem?_replicate]
    split <;> rfl

theorem size_grow (stored : Array UInt8) (count : Nat) :
    (grow stored count).size = max stored.size count := by
  simp only [grow, Array.size_append, Array.size_replicate]
  omega

theorem getElem?_put (stored : Array UInt8) (pos : Nat) (bytes : List UInt8) (i : Nat) :
    (put stored pos bytes)[i]? =
      if pos ≤ i ∧ i < pos + bytes.length ∧ i < stored.size then bytes[i - pos]?
      else stored[i]? := by
  induction bytes generalizing stored pos with
  | nil =>
    have : ¬(pos ≤ i ∧ i < pos + ([] : List UInt8).length ∧ i < stored.size) := by
      simp only [List.length_nil]
      omega
    rw [put, if_neg this]
  | cons b bytes ih =>
    rw [put, ih, Array.size_setIfInBounds, Array.getElem?_setIfInBounds, List.length_cons]
    by_cases hi : pos = i
    · subst hi
      have hout : ¬(pos + 1 ≤ pos ∧ pos < pos + 1 + bytes.length ∧ pos < stored.size) := by omega
      rw [if_neg hout, if_pos rfl, Nat.sub_self, List.getElem?_cons_zero]
      by_cases hs : pos < stored.size
      · rw [if_pos hs, if_pos ⟨Nat.le_refl _, by omega, hs⟩]
      · rw [if_neg hs, if_neg (fun h => hs h.2.2), Array.getElem?_eq_none (Nat.le_of_not_lt hs)]
    · by_cases hin : pos + 1 ≤ i ∧ i < pos + 1 + bytes.length ∧ i < stored.size
      · have hsub : i - pos = i - (pos + 1) + 1 := by omega
        rw [if_pos hin, if_pos (by omega), hsub, List.getElem?_cons_succ]
      · have hout : ¬(pos ≤ i ∧ i < pos + (bytes.length + 1) ∧ i < stored.size) := by omega
        rw [if_neg hin, if_neg hi, if_neg hout]

theorem size_write (m : Memory) (pos : Nat) (bytes : List UInt8) :
    (m.write pos bytes).size = m.size := rfl

theorem byte_write (m : Memory) (pos : Nat) (bytes : List UInt8) (i : Nat) :
    (m.write pos bytes).byte i =
      if pos ≤ i ∧ i < pos + bytes.length ∧ i < m.size then bytes.getD (i - pos) 0
      else m.byte i := by
  have hlen : (bytes.take (m.size - pos)).length = min (m.size - pos) bytes.length :=
    List.length_take
  simp only [byte, write, Array.getD_eq_getD_getElem?, getElem?_put, hlen, size_grow]
  by_cases hin : pos ≤ i ∧ i < pos + bytes.length ∧ i < m.size
  · rw [if_pos hin, if_pos (by omega), List.getElem?_take, if_pos (by omega),
      List.getD_eq_getElem?_getD]
  · rw [if_neg hin, if_neg (by omega)]
    simpa only [Array.getD_eq_getD_getElem?] using getD_grow m.stored _ i

/-! ## Reading -/

theorem length_read (m : Memory) (pos len : Nat) : (m.read pos len).length = len := by
  simp [read]

theorem getElem?_read (m : Memory) (pos len i : Nat) :
    (m.read pos len)[i]? = if i < len then some (m.byte (pos + i)) else none := by
  simp only [read, List.getElem?_map]
  by_cases h : i < len
  · simp [h]
  · simp [h]

/-- A run of bytes can be read in two parts. -/
theorem read_add (m : Memory) (pos a b : Nat) :
    m.read pos (a + b) = m.read pos a ++ m.read (pos + a) b := by
  simp only [read, List.range_add, List.map_append, List.map_map, Function.comp_def,
    Nat.add_assoc]

theorem take_drop_read (m : Memory) {pos len off n : Nat} (h : off + n ≤ len) :
    ((m.read pos len).drop off).take n = m.read (pos + off) n := by
  -- the run is read as what comes before, the part, and the rest
  obtain ⟨rest, rfl⟩ := Nat.exists_eq_add_of_le h
  rw [Nat.add_assoc, read_add, read_add]
  rw [List.drop_left' (length_read ..), List.take_left' (length_read ..)]

theorem take_read (m : Memory) {pos len n : Nat} (h : n ≤ len) :
    (m.read pos len).take n = m.read pos n := by
  obtain ⟨rest, rfl⟩ := Nat.exists_eq_add_of_le h
  rw [read_add, List.take_left' (length_read ..)]

theorem read_congr {m m' : Memory} {pos len : Nat}
    (h : ∀ i, pos ≤ i → i < pos + len → m.byte i = m'.byte i) :
    m.read pos len = m'.read pos len := by
  refine List.map_congr_left fun i hi => ?_
  have := List.mem_range.1 hi
  exact h _ (by omega) (by omega)

theorem read_write {m : Memory} {pos : Nat} {bytes : List UInt8}
    (h : pos + bytes.length ≤ m.size) : (m.write pos bytes).read pos bytes.length = bytes := by
  refine List.ext_getElem? fun i => ?_
  rw [getElem?_read]
  by_cases hi : i < bytes.length
  · rw [if_pos hi, byte_write, if_pos (by omega), Nat.add_sub_cancel_left,
      List.getD_eq_getElem?_getD, List.getElem?_eq_getElem hi, Option.getD_some]
  · rw [if_neg hi, List.getElem?_eq_none (Nat.le_of_not_lt hi)]

theorem read_write_of_disjoint (m : Memory) {pos pos' len : Nat} {bytes : List UInt8}
    (h : pos + bytes.length ≤ pos' ∨ pos' + len ≤ pos) :
    (m.write pos bytes).read pos' len = m.read pos' len :=
  read_congr fun i h₁ h₂ => by rw [byte_write, if_neg (by omega)]

end Memory
end BlockMux
