import BlockMux.Proofs.Histories
import BlockMux.Proofs.Reference

/-!
# What a packet moves

Carrying out a packet that passed the checks copies bytes between the window on the device and the
session's buffer. Seen in the bytes of the session this is the copy of the sequential reference;
seen in the bytes of a session with another buffer and another window it is nothing.

Main statements:

* `slice_read`, `read_write_splice` — reading and writing part of a run of bytes.
* `bytes_moved_self`, `bytes_moved_other` — what a packet does to its own session and to others.
-/

namespace BlockMux

namespace Bytes

theorem slice_read (m : Memory) {pos len off n : Nat} (h : off + n ≤ len) :
    slice (m.read pos len) off n = m.read (pos + off) n := by
  rw [slice, m.take_drop_read h]

/-- Three parts, of which the middle one is replaced. -/
theorem splice_append {first middle last new : List UInt8} {pos : Nat} (hpos : first.length = pos)
    (h : new.length = middle.length) :
    splice (first ++ (middle ++ last)) pos new = first ++ (new ++ last) := by
  have hdrop : (first ++ (middle ++ last)).drop (first.length + new.length) = last := by
    rw [← List.append_assoc, h, ← List.length_append]
    exact List.drop_left
  rw [splice, ← hpos, List.take_left, hdrop]

theorem read_write_splice {m : Memory} {pos len off : Nat} {bytes : List UInt8}
    (h : off + bytes.length ≤ len) (hm : pos + len ≤ m.size) :
    (m.write (pos + off) bytes).read pos len = splice (m.read pos len) off bytes := by
  obtain ⟨rest, rfl⟩ := Nat.exists_eq_add_of_le h
  -- only the middle part is written, and it reads back
  have hfirst : (m.write (pos + off) bytes).read pos off = m.read pos off :=
    Memory.read_write_of_disjoint m (.inr (Nat.le_refl _))
  have hmiddle : (m.write (pos + off) bytes).read (pos + off) bytes.length = bytes :=
    Memory.read_write (by omega)
  have hlast : (m.write (pos + off) bytes).read (pos + off + bytes.length) rest =
      m.read (pos + off + bytes.length) rest :=
    Memory.read_write_of_disjoint m (.inl (Nat.le_refl _))
  have hsame : bytes.length = (m.read (pos + off) bytes.length).length :=
    (Memory.length_read ..).symm
  rw [Nat.add_assoc off, Memory.read_add, Memory.read_add, hfirst, hmiddle, hlast,
    Memory.read_add, Memory.read_add, splice_append (Memory.length_read ..) hsame]

end Bytes

/-! ## Memories of an arena -/

/-- The memory behind a buffer. -/
def Arena.memory (arena : Arena) (buffer : SharedBuffer) : Memory :=
  (arena.memories[buffer.memory]?).getD (Memory.zeroed 0)

/-- The sizes of the memories. -/
def Arena.sizes (arena : Arena) : List Nat := arena.memories.map (·.size)

/-- The memories are as before, except that bytes of one were overwritten. -/
def Arena.Filled (memory : Nat) (arena arena' : Arena) : Prop :=
  arena' = arena ∨ ∃ offset bytes,
    arena' = ⟨arena.memories.modify memory fun m => m.write offset bytes⟩

/-- A buffer that was mapped is backed by a new memory. -/
theorem Arena.map_eq_some {arena arena' : Arena} {base size : Nat} {buffer : SharedBuffer}
    (h : arena.map base size = some (arena', buffer)) :
    1 ≤ size ∧ buffer = ⟨arena.memories.length, base, size⟩ ∧
      arena' = ⟨arena.memories ++ [Memory.zeroed size]⟩ := by
  unfold map at h
  split at h
  · simp at h
  · simp only [Option.some.injEq, Prod.mk.injEq] at h
    obtain ⟨rfl, rfl⟩ := h
    exact ⟨by omega, rfl, rfl⟩

/-- The last memory comes after all others. -/
theorem Arena.sizes_new (arena : Arena) (memory : Memory) :
    (⟨arena.memories ++ [memory]⟩ : Arena).sizes[arena.memories.length]? = some memory.size := by
  have hlength : arena.sizes.length = arena.memories.length := List.length_map _
  rw [← hlength, Arena.sizes, List.map_append]
  exact List.getElem?_concat_length

theorem Arena.memory_modify_self {arena : Arena} {buffer : SharedBuffer} {memory : Memory}
    (h : arena.memories[buffer.memory]? = some memory) (f : Memory → Memory) :
    (⟨arena.memories.modify buffer.memory f⟩ : Arena).memory buffer = f memory := by
  rw [Arena.memory, List.getElem?_modify_eq, h]
  rfl

theorem Arena.memory_modify_other {arena : Arena} {buffer : SharedBuffer} {other : Nat}
    (h : other ≠ buffer.memory) (f : Memory → Memory) :
    (⟨arena.memories.modify other f⟩ : Arena).memory buffer = arena.memory buffer := by
  rw [Arena.memory, List.getElem?_modify_ne _ _ h]
  rfl

theorem Arena.Filled.sizes {memory : Nat} {arena arena' : Arena} (h : Filled memory arena arena') :
    arena'.sizes = arena.sizes := by
  rcases h with rfl | ⟨offset, bytes, rfl⟩
  · rfl
  · refine List.ext_getElem? fun i => ?_
    simp only [Arena.sizes, List.getElem?_map, List.getElem?_modify]
    by_cases hi : memory = i
    · cases arena.memories[i]? <;> simp [hi, Memory.size_write]
    · cases arena.memories[i]? <;> simp [hi]

theorem Arena.filled_write {arena arena' : Arena} {buffer : SharedBuffer} {offset : Nat}
    {bytes : List UInt8} (h : arena.write buffer offset bytes = some arena') :
    Filled buffer.memory arena arena' := by
  unfold Arena.write at h
  split at h
  · exact .inr ⟨offset, bytes, (Option.some.inj h).symm⟩
  · simp at h

theorem Arena.Filled.memory_of_ne {memory : Nat} {arena arena' : Arena}
    (h : Filled memory arena arena') {buffer : SharedBuffer} (hne : memory ≠ buffer.memory) :
    arena'.memory buffer = arena.memory buffer := by
  rcases h with rfl | ⟨offset, bytes, rfl⟩
  · rfl
  · exact memory_modify_other hne _

/-- A buffer of a known size has a memory behind it. -/
theorem Arena.exists_memory {arena : Arena} {buffer : SharedBuffer}
    (h : arena.sizes[buffer.memory]? = some buffer.size) :
    ∃ memory, arena.memories[buffer.memory]? = some memory ∧ memory.size = buffer.size := by
  rw [Arena.sizes, List.getElem?_map] at h
  exact Option.map_eq_some_iff.1 h

theorem Arena.read_of_inside {arena : Arena} {buffer : SharedBuffer} {offset len : Nat}
    (hsize : arena.sizes[buffer.memory]? = some buffer.size) (hstart : offset < buffer.size)
    (hstop : offset + len ≤ buffer.size) :
    arena.read buffer offset len = some ((arena.memory buffer).read offset len) := by
  obtain ⟨memory, hmemory, -⟩ := exists_memory hsize
  have haccess : accessible buffer offset len = true := by simp [accessible, hstart, hstop]
  rw [Arena.read, if_pos haccess, Arena.memory, hmemory]
  rfl

theorem Arena.write_of_inside {buffer : SharedBuffer} {offset : Nat} {bytes : List UInt8}
    (arena : Arena) (hstart : offset < buffer.size) (hstop : offset + bytes.length ≤ buffer.size) :
    arena.write buffer offset bytes =
      some ⟨arena.memories.modify buffer.memory fun m => m.write offset bytes⟩ := by
  have haccess : accessible buffer offset bytes.length = true := by
    simp [accessible, hstart, hstop]
  rw [Arena.write, if_pos haccess]

/-! ## What a client writes -/

/-- Whether a step of a client writes into its buffer. -/
def ClientStep.fills : ClientStep → Bool
  | write _ _ => true
  | request _ bytes => bytes.isSome
  | _ => false

namespace Channel

theorem filled_writeContent {ch : Channel} {arena arena' : Arena} {packet : Packet}
    {bytes : List UInt8} {count : Nat}
    (h : ch.writeContent arena packet bytes = .ok (arena', count)) :
    Arena.Filled ch.buffer.memory arena arena' := by
  unfold writeContent view at h
  split at h
  · simp at h
  · rename_i payload hpayload
    split at hpayload
    · simp at hpayload
    · obtain rfl := Except.ok.inj hpayload
      split at h
      · simp at h
      · rename_i result hstore
        obtain ⟨after, hwrite, rfl⟩ := Option.map_eq_some_iff.1 hstore
        simp only [Except.ok.injEq, Prod.mk.injEq] at h
        obtain ⟨rfl, -⟩ := h
        exact Arena.filled_write hwrite

theorem filled_request (ch : Channel) (arena : Arena) (packet : Packet)
    (bytes : Option (List UInt8)) :
    Arena.Filled ch.buffer.memory arena (ch.request arena packet bytes).2.1 ∧
      (bytes = none → (ch.request arena packet bytes).2.1 = arena) := by
  unfold request
  split
  · exact ⟨.inl rfl, fun _ => rfl⟩
  · rename_i ch₁ offset hallocate
    -- reserving changes neither memory nor buffer, so only the payload can be written
    have hbuffer := (used_allocate hallocate).buffer
    cases bytes with
    | none =>
      simp only [Option.mapM_none, pure, Except.pure]
      split <;> exact ⟨.inl rfl, fun _ => rfl⟩
    | some bytes =>
      refine ⟨?_, by simp⟩
      cases hwrite : ch₁.writeContent arena { packet with offset := offset } bytes with
      | error e =>
        simp only [Option.mapM_some, hwrite]
        exact .inl rfl
      | ok written =>
        have hfilled := filled_writeContent hwrite
        rw [hbuffer] at hfilled
        simp only [Option.mapM_some, hwrite, Functor.map, Except.map]
        split <;> exact hfilled

/-- A client's step writes at most into the client's own buffer. -/
theorem filled_perform (ch : Channel) (arena : Arena) (step : ClientStep) :
    Arena.Filled ch.buffer.memory arena (ch.perform arena step).2.1 := by
  cases step with
  | write packet bytes =>
    simp only [perform]
    split
    · exact .inl rfl
    · rename_i hwrite
      exact filled_writeContent hwrite
  | request packet bytes => exact (filled_request ch arena packet bytes).1
  | allocate size => simp only [perform]; split <;> exact .inl rfl
  | submit packet => simp only [perform]; split <;> exact .inl rfl
  | takeSubmitted => simp only [perform]; split <;> exact .inl rfl
  | acknowledge packet => simp only [perform]; split <;> exact .inl rfl
  | popAck => simp only [perform]; split <;> exact .inl rfl
  | _ => exact .inl rfl

theorem arena_perform {step : ClientStep} (h : step.fills = false) (ch : Channel) (arena : Arena) :
    (ch.perform arena step).2.1 = arena := by
  cases step with
  | write packet bytes => simp [ClientStep.fills] at h
  | request packet bytes =>
    have hnone : bytes = none := by simpa [ClientStep.fills] using h
    exact (filled_request ch arena packet bytes).2 hnone
  | allocate size => simp only [perform]; split <;> rfl
  | submit packet => simp only [perform]; split <;> rfl
  | takeSubmitted => simp only [perform]; split <;> rfl
  | acknowledge packet => simp only [perform]; split <;> rfl
  | popAck => simp only [perform]; split <;> rfl
  | _ => rfl

end Channel

/-! ## What a packet moves -/

namespace Session

/-- The bytes of a session's window and of its buffer. -/
def bytes (s : Session) (contents : Memory) (arena : Arena) : Bytes :=
  ⟨contents.read (s.grant.offset * s.blockSize) (s.grant.span * s.blockSize),
    (arena.memory s.channel.buffer).read 0 s.channel.buffer.size⟩

/-- The device and the memories after the blocks of a packet were copied. -/
def moved (s : Session) (contents : Memory) (arena : Arena) (packet : Packet) : Memory × Arena :=
  let pos := (s.grant.offset + packet.block) * s.blockSize
  let len := packet.count * s.blockSize
  match packet.operation with
  | .read =>
    (contents, ⟨arena.memories.modify s.channel.buffer.memory fun memory =>
      memory.write packet.offset (contents.read pos len)⟩)
  | .write =>
    (contents.write pos ((arena.memory s.channel.buffer).read packet.offset len), arena)
  | .unsupported _ => (contents, arena)

theorem size_moved (s : Session) (contents : Memory) (arena : Arena) (packet : Packet) :
    (s.moved contents arena packet).1.size = contents.size := by
  unfold moved
  cases packet.operation <;> rfl

theorem filled_moved (s : Session) (contents : Memory) (arena : Arena) (packet : Packet) :
    Arena.Filled s.channel.buffer.memory arena (s.moved contents arena packet).2 := by
  unfold moved
  cases packet.operation with
  | read => exact .inr ⟨_, _, rfl⟩
  | write => exact .inl rfl
  | unsupported code => exact .inl rfl

/-- The exact bounds of a packet that passed the checks. -/
theorem bounds_of_accepts {s : Session} {packet : Packet} (h : s.accepts packet = true) :
    1 ≤ packet.count ∧ packet.block + packet.count ≤ s.grant.span ∧
      packet.count * s.blockSize ≤ packet.size ∧ 1 ≤ packet.size ∧
      packet.offset + packet.size ≤ s.channel.buffer.size ∧
      s.operations.supports packet.operation = true := by
  simp only [accepts, Bool.and_eq_true, bne_iff_ne, decide_eq_true_eq] at h
  obtain ⟨⟨⟨⟨⟨hsize, hcount⟩, hspan⟩, hops⟩, hlarge⟩, hfits⟩ := h
  exact ⟨by omega, hspan, hlarge, by omega, hfits, hops⟩

/-- The bytes of the window that a packet names. -/
theorem window_bounds {s : Session} {packet : Packet}
    (h : packet.block + packet.count ≤ s.grant.span) :
    packet.block * s.blockSize + packet.count * s.blockSize ≤ s.grant.span * s.blockSize := by
  rw [← Nat.add_mul]
  exact Nat.mul_le_mul_right _ h

/-- Carrying out a packet does to its session what the reference does. -/
theorem bytes_moved_self {s : Session} {packet : Packet} {contents : Memory} {arena : Arena}
    (h : s.accepts packet = true)
    (hwindow : (s.grant.offset + s.grant.span) * s.blockSize ≤ contents.size)
    (hbuffer : arena.sizes[s.channel.buffer.memory]? = some s.channel.buffer.size) :
    s.bytes (s.moved contents arena packet).1 (s.moved contents arena packet).2 =
      (s.bytes contents arena).copy s packet := by
  obtain ⟨-, hspan, hlarge, -, hfits, -⟩ := bounds_of_accepts h
  have hbytes := window_bounds hspan
  rw [Nat.add_mul] at hwindow
  obtain ⟨memory, hmemory, hsize⟩ := Arena.exists_memory hbuffer
  have hfound : arena.memory s.channel.buffer = memory := by rw [Arena.memory, hmemory]; rfl
  -- the payload may be larger than the blocks, but not smaller
  have hinside : packet.offset + packet.count * s.blockSize ≤ s.channel.buffer.size := by omega
  cases hop : packet.operation with
  | read =>
    simp only [bytes, moved, Bytes.copy, hop]
    rw [Arena.memory_modify_self hmemory, hfound, Nat.add_mul, Bytes.slice_read _ hbytes]
    have hsplice : (memory.write (0 + packet.offset) (contents.read
        (s.grant.offset * s.blockSize + packet.block * s.blockSize)
        (packet.count * s.blockSize))).read 0 s.channel.buffer.size = _ :=
      Bytes.read_write_splice (by rwa [Memory.length_read]) (by omega)
    rw [Nat.zero_add] at hsplice
    rw [hsplice]
  | write =>
    simp only [bytes, moved, Bytes.copy, hop]
    rw [hfound, Nat.add_mul, Bytes.slice_read _ hinside, Nat.zero_add]
    rw [Bytes.read_write_splice (by rwa [Memory.length_read]) hwindow]
  | unsupported code => simp only [moved, Bytes.copy, hop]

/-- Carrying out a packet changes nothing for a session with another memory behind its buffer, if
the packet only reads or its window lies elsewhere. -/
theorem bytes_moved_other {s t : Session} {packet : Packet} {contents : Memory} {arena : Arena}
    (h : t.accepts packet = true) (hsame : t.blockSize = s.blockSize)
    (hmemory : t.channel.buffer.memory ≠ s.channel.buffer.memory)
    (hwindow : t.operations.write = true → s.grant.overlaps t.grant = false) :
    s.bytes (t.moved contents arena packet).1 (t.moved contents arena packet).2 =
      s.bytes contents arena := by
  obtain ⟨-, hspan, -, -, -, hops⟩ := bounds_of_accepts h
  cases hop : packet.operation with
  | read =>
    simp only [bytes, moved, hop]
    rw [Arena.memory_modify_other hmemory]
  | write =>
    rw [hop] at hops
    have hapart := hwindow hops
    simp only [bytes, moved, hop]
    rw [Memory.read_write_of_disjoint]
    rw [Memory.length_read, hsame, ← Nat.add_mul, ← Nat.add_mul]
    -- whichever window comes first ends before the other one
    rcases Bool.and_eq_false_iff.1 hapart with hafter | hbefore
    · have hstop : t.grant.offset + t.grant.span ≤ s.grant.offset :=
        Nat.le_of_not_lt (of_decide_eq_false hafter)
      exact .inl (Nat.mul_le_mul_right _ (by omega))
    · have hstop : s.grant.offset + s.grant.span ≤ t.grant.offset :=
        Nat.le_of_not_lt (of_decide_eq_false hbefore)
      exact .inr (Nat.mul_le_mul_right _ (by omega))
  | unsupported code => simp only [moved, hop]

end Session
end BlockMux
