import BlockMux.Proofs.Tenancy

/-!
# Who owns the bytes of a device

A session that may write owns the bytes of its window. When the request of a session is carried out,
a byte of the device changes only if the session owns it, and, where the payload is named by its
address, only if the device finds that address in a buffer.

Main statements:

* `OwnedBy` — a byte belongs to the open session that a request came from.
* `byte_move` — what a changed byte says about the transfer that changed it.
* `Guest.owns` — the byte belongs to the session that asked.
-/

namespace BlockMux

/-! ## Whose byte it is -/

/-- Whether a byte of the device lies in the window of a session that may write. -/
structure Session.Owns (s : Session) (pos : Nat) : Prop where
  writeable : s.grant.writeable = true
  first : s.grant.offset * s.blockSize ≤ pos
  last : pos < (s.grant.offset + s.grant.span) * s.blockSize

theorem Session.Owns.congr {s s' : Session} {pos : Nat} (h : s.Owns pos)
    (hterms : s'.terms = s.terms) : s'.Owns pos := by
  simp only [Session.terms, Session.Terms.mk.injEq] at hterms
  obtain ⟨hgrant, -, -, -, -, hsize, -, -⟩ := hterms
  exact ⟨by rw [hgrant]; exact h.writeable, by rw [hgrant, hsize]; exact h.first,
    by rw [hgrant, hsize]; exact h.last⟩

/-- Whether an open session owns a byte of the device. -/
def System.Owned {δ : Type} (sys : System δ) (pos : Nat) : Prop :=
  ∃ seat s, sys.session? seat = some s ∧ s.Owns pos

/-- Whether the open session that a request came from owns a byte of the device. -/
def System.OwnedBy {δ : Type} (sys : System δ) (request : Request) (pos : Nat) : Prop :=
  ∃ seat s, sys.session? seat = some s ∧ s.mailbox = request.mailbox ∧ s.Owns pos

namespace Ram

/-! ## What a transfer changes -/

/-- Whether a byte lies in the blocks of a write. -/
def Writes (ram : Ram) (t : Transfer) (pos : Nat) : Prop :=
  t.direction = .write ∧ t.block * ram.blockSize ≤ pos ∧ pos < (t.block + t.count) * ram.blockSize

/-- Whether a byte differs between two states of a device. -/
def Changed (ram ram' : Ram) (pos : Nat) : Prop :=
  ram'.contents.byte pos ≠ ram.contents.byte pos

instance (ram ram' : Ram) (pos : Nat) : Decidable (ram.Changed ram' pos) :=
  inferInstanceAs (Decidable (_ ≠ _))

theorem length_of_read {arena : Arena} {buffer : SharedBuffer} {offset len : Nat}
    {bytes : List UInt8} (h : arena.read buffer offset len = some bytes) : bytes.length = len := by
  unfold Arena.read at h
  split at h
  · obtain ⟨memory, -, rfl⟩ := Option.map_eq_some_iff.1 h
    exact Memory.length_read ..
  · simp at h

theorem byte_write_ne {m : Memory} {start pos : Nat} {bytes : List UInt8}
    (h : (m.write start bytes).byte pos ≠ m.byte pos) :
    start ≤ pos ∧ pos < start + bytes.length := by
  rw [Memory.byte_write] at h
  split at h
  · rename_i hin
    exact ⟨hin.1, hin.2.1⟩
  · exact absurd rfl h

theorem byte_moveView {ram : Ram} {arena : Arena} {direction : Direction} {start len pos : Nat}
    {payload : PayloadView}
    (h : (ram.moveView arena direction start len payload).1.byte pos ≠ ram.contents.byte pos) :
    direction = .write ∧ start ≤ pos ∧ pos < start + len := by
  unfold moveView at h
  cases direction with
  | read =>
    dsimp only at h
    split at h
    · exact absurd rfl h
    · exact absurd rfl h
  | write =>
    dsimp only at h
    split at h
    · exact absurd rfl h
    · rename_i bytes hbytes
      -- a view may hold less than the blocks, but no more of it is fetched
      have hlength : bytes.length = min len payload.length := length_of_read hbytes
      obtain ⟨hfirst, hlast⟩ := byte_write_ne h
      exact ⟨rfl, hfirst, by omega⟩

theorem byte_moveAddress {ram : Ram} {arena : Arena} {direction : Direction}
    {start len address pos : Nat}
    (h : (ram.moveAddress arena direction start len address).1.byte pos ≠
      ram.contents.byte pos) :
    direction = .write ∧ start ≤ pos ∧ pos < start + len ∧
      ∃ buffer ∈ ram.buffers, buffer.contains address len = true := by
  unfold moveAddress at h
  split at h
  · exact absurd rfl h
  · rename_i buffer hfound
    have hbuffer := List.find?_some hfound
    cases direction with
    | read =>
      dsimp only at h
      split at h
      · exact absurd rfl h
      · exact absurd rfl h
    | write =>
      dsimp only at h
      split at h
      · exact absurd rfl h
      · -- from a buffer that was found all bytes of the blocks are read
        rename_i bytes hbytes
        obtain ⟨hfirst, hlast⟩ := byte_write_ne h
        rw [length_of_read hbytes] at hlast
        exact ⟨rfl, hfirst, hlast, buffer, List.mem_of_find?_eq_some hfound, hbuffer⟩

/-- A changed byte is one of the blocks of a write, and a payload named by its address was found in
a buffer. -/
theorem byte_move {ram : Ram} {arena : Arena} {t : Transfer} {pos : Nat}
    (h : (ram.move arena t).1.byte pos ≠ ram.contents.byte pos) :
    ram.Writes t pos ∧ ∀ address, t.target = .address address →
      ∃ buffer ∈ ram.buffers, buffer.contains address (t.count * ram.blockSize) = true := by
  unfold move at h
  rw [Writes, Nat.add_mul]
  split at h
  · cases htarget : t.target with
    | view payload =>
      rw [htarget] at h
      obtain ⟨hwrite, hfirst, hlast⟩ := byte_moveView h
      exact ⟨⟨hwrite, hfirst, hlast⟩, fun address heq => by simp at heq⟩
    | address address =>
      rw [htarget] at h
      obtain ⟨hwrite, hfirst, hlast, hbuffer⟩ := byte_moveAddress h
      refine ⟨⟨hwrite, hfirst, hlast⟩, fun other heq => ?_⟩
      obtain rfl := Target.address.inj heq
      exact hbuffer
  · exact absurd rfl h

/-- A byte that changes when the request of a guest is carried out is the guest's own. -/
theorem Guest.owns {shape : Shape} {s : Session} (hguest : Guest shape s) {ram : Ram}
    (hblock : ram.blockSize = shape.blockSize) {arena : Arena} {e : Exchange} (may : s.MayAsk e)
    {pos : Nat} (h : (ram.move arena e.transfer).1.byte pos ≠ ram.contents.byte pos) :
    s.Owns pos := by
  obtain ⟨⟨hwrite, hfirst, hlast⟩, -⟩ := byte_move h
  obtain ⟨-, hspan, -, -, -, hops⟩ := Session.bounds_of_accepts may.accepted
  obtain ⟨direction, target, hdirection, -, htransfer⟩ := transfer_of_mayAsk may
  have hsize : ram.blockSize = s.blockSize := hblock.trans hguest.blockSize.symm
  rw [htransfer] at hwrite hfirst hlast
  rw [hsize] at hfirst hlast
  dsimp only at hwrite hfirst hlast
  -- only the operation of writing asks for a write, and only a writeable grant permits it
  have hwriteable : s.grant.writeable = true := by
    rw [hguest.operations] at hops
    cases hop : e.request.packet.operation with
    | read => simp [hop, Session.direction?, hwrite] at hdirection
    | write =>
      rw [hop] at hops
      simpa [Operations.supports, Multiplexer.allowed, Operations.readWrite] using hops
    | unsupported code => simp [hop, Session.direction?] at hdirection
  refine ⟨hwriteable, Nat.le_trans (Nat.mul_le_mul_right _ (Nat.le_add_right ..)) hfirst,
    Nat.lt_of_lt_of_le hlast (Nat.mul_le_mul_right _ ?_)⟩
  omega

end Ram
end BlockMux
