import BlockMux.Proofs.Histories
import Mathlib.Data.List.Pairwise

/-!
# The reservations of a client

A client divides its buffer by first fit. Which bytes are free can be said byte by byte: those that
no reservation covers. The search only compares ends with starts, in the order of offsets, and
leaves each reservation behind for good; it still finds the lowest free range because reservations
never overlap, are never empty, and never leave the buffer.

Main statements:

* `firstFit_clear`, `firstFit_le` — the search ends at the lowest offset whose range is clear.
* `Layout.insert`, `filter_insert` — a reservation in a clear range keeps the others apart, and
  giving it up restores them.
* `Laid.perform` — the layout after any step on the channel.
* `allocate_exact` — reserving on a channel, after any steps.
-/

namespace BlockMux

/-! ## Layouts -/

namespace Allocation

/-- Whether the byte at `pos` belongs to the reservation. -/
def Covers (a : Allocation) (pos : Nat) : Prop := a.offset ≤ pos ∧ pos < a.stop

/-- Whether no byte belongs to both reservations. -/
def Apart (a b : Allocation) : Prop := ∀ pos, ¬(a.Covers pos ∧ b.Covers pos)

/-- Whether the payload of a packet lies in the reservation. -/
def Holds (a : Allocation) (packet : Packet) : Prop :=
  a.offset ≤ packet.offset ∧ packet.offset + packet.size ≤ a.stop

/-- Whether `size` bytes from `offset` on end before, or start after, each reservation. -/
def Clear (live : List Allocation) (offset size : Nat) : Prop :=
  ∀ a ∈ live, offset + size ≤ a.offset ∨ a.stop ≤ offset

/-- Reservations that are not empty, lie below `limit`, and follow one another. -/
structure Layout (limit : Nat) (live : List Allocation) : Prop where
  ordered : live.Pairwise fun a b => a.stop ≤ b.offset
  pos : ∀ a ∈ live, 1 ≤ a.size
  stop_le : ∀ a ∈ live, a.stop ≤ limit

namespace Layout

variable {limit : Nat} {live : List Allocation}

theorem nil (limit : Nat) : Layout limit [] :=
  ⟨.nil, fun _ h => absurd h List.not_mem_nil, fun _ h => absurd h List.not_mem_nil⟩

theorem filter (h : Layout limit live) (keep : Allocation → Bool) :
    Layout limit (live.filter keep) where
  ordered := h.ordered.filter keep
  pos a ha := h.pos a (List.mem_filter.1 ha).1
  stop_le a ha := h.stop_le a (List.mem_filter.1 ha).1

theorem tail {a : Allocation} (h : Layout limit (a :: live)) : Layout limit live where
  ordered := (List.pairwise_cons.1 h.ordered).2
  pos b hb := h.pos b (List.mem_cons_of_mem a hb)
  stop_le b hb := h.stop_le b (List.mem_cons_of_mem a hb)

theorem apart (h : Layout limit live) : live.Pairwise Apart := by
  refine h.ordered.imp ?_
  intro a b hab pos hboth
  obtain ⟨⟨-, ha⟩, hb, -⟩ := hboth
  omega

end Layout

/-- Byte by byte, a range that is not empty is clear when no reservation covers any of it. -/
theorem clear_iff {limit offset size : Nat} {live : List Allocation} (h : Layout limit live)
    (hsize : 1 ≤ size) :
    Clear live offset size ↔
      ∀ pos, offset ≤ pos → pos < offset + size → ∀ a ∈ live, ¬a.Covers pos := by
  constructor
  · intro hclear pos hlo hhi a ha hcovers
    obtain ⟨hstart, hstop⟩ := hcovers
    rcases hclear a ha with hbefore | hafter
    · omega
    · omega
  · intro hfree a ha
    have hpos := h.pos a ha
    by_contra hmeets
    -- the later one of the two starts is a byte of both
    refine hfree (max offset a.offset) ?_ ?_ a ha ⟨?_, ?_⟩
    · omega
    · omega
    · omega
    · unfold stop at *
      omega

/-! ## The search -/

/-- The search, which starts before all reservations, ends at a clear range. -/
theorem firstFit_clear {limit size candidate : Nat} {live : List Allocation}
    (h : Layout limit live) (hstart : ∀ a ∈ live, candidate ≤ a.offset) :
    candidate ≤ firstFit size candidate live ∧ Clear live (firstFit size candidate live) size := by
  -- on the reservations; all of them lie behind the candidate, and stay behind the next one
  induction live generalizing candidate with
  | nil => exact ⟨Nat.le_refl _, fun a ha => absurd ha List.not_mem_nil⟩
  | cons a live ih =>
    have hlater : ∀ b ∈ live, a.stop ≤ b.offset := (List.pairwise_cons.1 h.ordered).1
    rw [firstFit]
    split
    case isTrue hfits =>
      refine ⟨Nat.le_refl _, ?_⟩
      intro b hb
      rcases List.mem_cons.1 hb with rfl | hb
      · exact .inl hfits
      · have := hlater b hb
        unfold stop at this
        exact .inl (by omega)
    case isFalse =>
      obtain ⟨hle, hclear⟩ := ih h.tail hlater
      have ha : candidate ≤ a.offset := hstart a List.mem_cons_self
      have hstop : a.offset ≤ a.stop := Nat.le_add_right _ _
      refine ⟨by omega, ?_⟩
      intro b hb
      rcases List.mem_cons.1 hb with rfl | hb
      · exact .inr hle
      · exact hclear b hb

/-- The search never passes a clear range. -/
theorem firstFit_le {size candidate offset : Nat} {live : List Allocation}
    (hstart : candidate ≤ offset) (hclear : Clear live offset size) :
    firstFit size candidate live ≤ offset := by
  induction live generalizing candidate with
  | nil => exact hstart
  | cons a live ih =>
    rw [firstFit]
    split
    case isTrue => exact hstart
    case isFalse hmiss =>
      -- the range is behind the candidate, where there is no room before this reservation
      have hbehind : a.stop ≤ offset := by
        rcases hclear a List.mem_cons_self with hbefore | hafter
        · omega
        · exact hafter
      exact ih hbehind fun b hb => hclear b (List.mem_cons_of_mem a hb)

/-- The search with every sum checked to stay within a word. -/
def firstFit? (size candidate : Nat) : List Allocation → Option Nat
  | [] => if candidate + size ≤ maxWord then some candidate else none
  | a :: live =>
    if candidate + size ≤ maxWord then
      if candidate + size ≤ a.offset then some candidate
      else if a.stop ≤ maxWord then firstFit? size a.stop live else none
    else none

/-- Every candidate lies in the buffer, so no sum exceeds the buffer and the size asked for. -/
theorem firstFit?_eq {limit size candidate : Nat} {live : List Allocation}
    (h : Layout limit live) (hcandidate : candidate ≤ limit) (hsum : limit + size ≤ maxWord) :
    firstFit? size candidate live = some (firstFit size candidate live) := by
  induction live generalizing candidate with
  | nil => rw [firstFit?, firstFit, if_pos (by omega)]
  | cons a live ih =>
    have hstop : a.stop ≤ limit := h.stop_le a List.mem_cons_self
    rw [firstFit?, firstFit, if_pos (by omega)]
    split
    · rfl
    · rw [if_pos (by omega), ih h.tail hstop]

/-! ## Adding and giving up -/

theorem insert_perm (new : Allocation) (live : List Allocation) :
    (insert new live).Perm (new :: live) := by
  induction live with
  | nil => exact .refl _
  | cons a live ih =>
    rw [insert]
    split
    · exact .refl _
    · exact (ih.cons a).trans (.swap new a live)

theorem Layout.insert {limit : Nat} {new : Allocation} {live : List Allocation}
    (h : Layout limit live) (hpos : 1 ≤ new.size) (hstop : new.stop ≤ limit)
    (hclear : Clear live new.offset new.size) : Layout limit (Allocation.insert new live) := by
  have hperm := insert_perm new live
  refine ⟨?_, ?_, ?_⟩
  · induction live with
    | nil => exact List.pairwise_singleton _ _
    | cons a live ih =>
      obtain ⟨hlater, hlive⟩ := List.pairwise_cons.1 h.ordered
      have hapart := hclear a List.mem_cons_self
      have ha := h.pos a List.mem_cons_self
      rw [Allocation.insert]
      split
      case isTrue hlt =>
        -- it starts before the first one, so it ends before it, and before all behind it
        have hbefore : new.stop ≤ a.offset := by
          unfold stop at *
          omega
        refine List.pairwise_cons.2 ⟨?_, h.ordered⟩
        intro b hb
        rcases List.mem_cons.1 hb with rfl | hb
        · exact hbefore
        · have := hlater b hb
          unfold stop at *
          omega
      case isFalse hge =>
        have hafter : a.stop ≤ new.offset := by
          unfold stop at *
          omega
        refine List.pairwise_cons.2 ⟨?_, ih h.tail ?_ (insert_perm new live)⟩
        · intro b hb
          rcases List.mem_cons.1 ((insert_perm new live).mem_iff.1 hb) with rfl | hb
          · exact hafter
          · exact hlater b hb
        · exact fun b hb => hclear b (List.mem_cons_of_mem a hb)
  · intro a ha
    rcases List.mem_cons.1 (hperm.mem_iff.1 ha) with rfl | ha
    · exact hpos
    · exact h.pos a ha
  · intro a ha
    rcases List.mem_cons.1 (hperm.mem_iff.1 ha) with rfl | ha
    · exact hstop
    · exact h.stop_le a ha

/-- Giving up a reservation at an offset that no other one has restores the others, in order. -/
theorem filter_insert (new : Allocation) {live : List Allocation}
    (h : ∀ a ∈ live, a.offset ≠ new.offset) :
    (insert new live).filter (·.offset != new.offset) = live := by
  induction live with
  | nil => simp [insert]
  | cons a live ih =>
    have ha : (a.offset != new.offset) = true := by simpa using h a List.mem_cons_self
    rw [insert]
    split
    · have hrest : (a :: live).filter (·.offset != new.offset) = a :: live :=
        List.filter_eq_self.2 fun b hb => by simpa using h b hb
      rw [List.filter_cons_of_neg (by simp), hrest]
    · have hlive := ih fun b hb => h b (List.mem_cons_of_mem a hb)
      rw [List.filter_cons, if_pos ha, hlive]

end Allocation

/-! ## Channels -/

/-- What is written elsewhere in a buffer does not show. -/
theorem Arena.read_write_apart {arena arena' : Arena} {buffer : SharedBuffer}
    {offset other len : Nat} {bytes : List UInt8}
    (h : arena.write buffer offset bytes = some arena')
    (hapart : offset + bytes.length ≤ other ∨ other + len ≤ offset) :
    arena'.read buffer other len = arena.read buffer other len := by
  unfold Arena.write at h
  split at h
  · obtain rfl := Option.some.inj h
    simp only [Arena.read, List.getElem?_modify_eq]
    cases arena.memories[buffer.memory]? with
    | none => rfl
    | some memory =>
      simp only [Option.map_some, Option.map_eq_map,
        Memory.read_write_of_disjoint memory hapart]
  · simp at h

namespace Channel

open Allocation

/-- Whether no reservation covers a byte of the buffer. -/
def IsFree (ch : Channel) (pos : Nat) : Prop :=
  pos < ch.buffer.size ∧ ∀ a ∈ ch.allocations, ¬a.Covers pos

/-- Whether the `size` bytes from `offset` on are all free. -/
def Fits (ch : Channel) (offset size : Nat) : Prop :=
  ∀ pos, offset ≤ pos → pos < offset + size → ch.IsFree pos

/-- The reservations of the channel lie apart in its buffer. -/
def Laid (ch : Channel) : Prop := Layout ch.buffer.size ch.allocations

theorem fits_iff {ch : Channel} (h : ch.Laid) {offset size : Nat} (hsize : 1 ≤ size) :
    ch.Fits offset size ↔
      offset + size ≤ ch.buffer.size ∧ Clear ch.allocations offset size := by
  rw [clear_iff h hsize]
  constructor
  · intro hfits
    have hlast : offset + size - 1 < ch.buffer.size :=
      (hfits (offset + size - 1) (by omega) (by omega)).1
    exact ⟨by omega, fun pos hlo hhi => (hfits pos hlo hhi).2⟩
  · rintro ⟨hstop, hfree⟩ pos hlo hhi
    exact ⟨by omega, hfree pos hlo hhi⟩

/-- A reservation succeeds exactly where the lowest clear range ends in the buffer. -/
theorem allocate_eq_ok_iff {ch next : Channel} {size offset : Nat} :
    ch.allocate size = .ok (next, offset) ↔
      1 ≤ size ∧ offset = firstFit size 0 ch.allocations ∧ offset + size ≤ ch.buffer.size ∧
        next = { ch with allocations := Allocation.insert ⟨offset, size⟩ ch.allocations } := by
  unfold allocate
  dsimp only
  split
  case isTrue hfull =>
    refine iff_of_false (by simp) ?_
    rintro ⟨hsize, rfl, hstop, -⟩
    omega
  case isFalse hroom =>
    simp only [Except.ok.injEq, Prod.mk.injEq]
    constructor
    · rintro ⟨rfl, rfl⟩
      exact ⟨by omega, rfl, by omega, rfl⟩
    · rintro ⟨-, rfl, -, rfl⟩
      exact ⟨rfl, rfl⟩

theorem Laid.allocate {ch next : Channel} {size offset : Nat} (h : ch.Laid)
    (hnext : ch.allocate size = .ok (next, offset)) :
    next.Laid ∧ Clear ch.allocations offset size := by
  obtain ⟨hsize, hoffset, hstop, rfl⟩ := allocate_eq_ok_iff.1 hnext
  have hclear : Clear ch.allocations offset size := by
    rw [hoffset]
    exact (firstFit_clear h fun a _ => Nat.zero_le a.offset).2
  exact ⟨Layout.insert h hsize hstop hclear, hclear⟩

theorem Laid.release {ch : Channel} (h : ch.Laid) (offset : Nat) : (ch.release offset).Laid :=
  Layout.filter h _

/-- What leaves buffer and reservations alone keeps the layout. -/
theorem Laid.congr {ch ch' : Channel} (h : ch.Laid) (hbuffer : ch'.buffer = ch.buffer)
    (hallocations : ch'.allocations = ch.allocations) : ch'.Laid := by
  unfold Laid
  rwa [hbuffer, hallocations]

theorem Laid.popAcksOf {ch : Channel} (h : ch.Laid) (acked : List Packet) :
    (ch.popAcksOf acked).Laid := by
  induction acked generalizing ch with
  | nil => exact h
  | cons packet rest ih => exact ih ((h.congr rfl rfl : Laid { ch with
      acked := rest
      signals.ackFreed := ch.signals.ackFreed + 1 }).release packet.offset)

theorem Laid.submit {ch next : Channel} {packet : Packet} (h : ch.Laid)
    (hnext : ch.submit packet = .ok next) : next.Laid := by
  unfold Channel.submit at hnext
  split at hnext
  · simp at hnext
  · obtain rfl := Except.ok.inj hnext
    exact h.congr rfl rfl

theorem Laid.acknowledge {ch next : Channel} {packet : Packet} (h : ch.Laid)
    (hnext : ch.acknowledge packet = .ok next) : next.Laid := by
  unfold Channel.acknowledge at hnext
  split at hnext
  · simp at hnext
  · obtain rfl := Except.ok.inj hnext
    exact h.congr rfl rfl

theorem Laid.request {ch : Channel} (h : ch.Laid) (arena : Arena) (packet : Packet)
    (bytes : Option (List UInt8)) : (ch.request arena packet bytes).1.Laid := by
  unfold Channel.request
  split
  · exact h
  · rename_i next offset hallocate
    -- what was reserved stays reserved, whether or not the rest succeeds
    have hnext := (h.allocate hallocate).1
    dsimp only
    split
    · exact hnext
    · split
      · exact hnext
      · rename_i hsubmit
        exact hnext.submit hsubmit

/-- Whatever is done with a channel, its reservations stay apart in its buffer. -/
theorem Laid.perform {ch : Channel} (h : ch.Laid) (arena : Arena) (step : ClientStep) :
    (ch.perform arena step).1.Laid := by
  cases step with
  | allocate size =>
    simp only [Channel.perform]
    split
    · exact h
    · rename_i hallocate
      exact (h.allocate hallocate).1
  | release packet => exact h.release packet.offset
  | submit packet =>
    simp only [Channel.perform]
    split
    · exact h
    · rename_i hsubmit
      exact h.submit hsubmit
  | takeSubmitted =>
    simp only [Channel.perform, takeSubmitted]
    cases ch.submitted <;> exact h.congr rfl rfl
  | acknowledge packet =>
    simp only [Channel.perform]
    split
    · exact h
    · rename_i hacknowledge
      exact h.acknowledge hacknowledge
  | popAck =>
    simp only [Channel.perform, popAck]
    cases ch.acked <;> exact h.congr rfl rfl
  | popAcks => exact h.popAcksOf ch.acked
  | write packet bytes =>
    simp only [Channel.perform]
    split <;> exact h
  | request packet bytes => exact h.request arena packet bytes
  | _ => exact h.congr rfl rfl

/-- Carries steps out one after the other. -/
def performAll (ch : Channel) (arena : Arena) : List ClientStep → Channel × Arena
  | [] => (ch, arena)
  | step :: steps => (ch.perform arena step).1.performAll (ch.perform arena step).2.1 steps

theorem Laid.performAll {ch : Channel} (h : ch.Laid) (arena : Arena) (steps : List ClientStep) :
    (ch.performAll arena steps).1.Laid := by
  induction steps generalizing ch arena with
  | nil => exact h
  | cons step steps ih => exact ih (h.perform arena step) _

theorem buffer_performAll (ch : Channel) (arena : Arena) (steps : List ClientStep) :
    (ch.performAll arena steps).1.buffer = ch.buffer := by
  induction steps generalizing ch arena with
  | nil => rfl
  | cons step steps ih => exact (ih _ _).trans (ch.place_perform arena step).1

theorem laid_create {buffer : SharedBuffer} {capacity : Nat} {ch : Channel}
    (h : create buffer capacity = .ok ch) : ch.Laid ∧ ch.buffer = buffer := by
  unfold create at h
  split at h
  · simp at h
  · obtain rfl := Except.ok.inj h
    exact ⟨.nil _, rfl⟩

/-! ## Reserving -/

/-- A reservation is possible exactly when enough free bytes lie in a row, and it is made where
they first do. -/
theorem allocate_ok_iff_fits {ch : Channel} (h : ch.Laid) {size : Nat} :
    (∃ next offset, ch.allocate size = .ok (next, offset)) ↔
      1 ≤ size ∧ ∃ offset, ch.Fits offset size := by
  constructor
  · rintro ⟨next, offset, hnext⟩
    obtain ⟨hsize, -, hstop, -⟩ := allocate_eq_ok_iff.1 hnext
    exact ⟨hsize, offset, (fits_iff h hsize).2 ⟨hstop, (h.allocate hnext).2⟩⟩
  · rintro ⟨hsize, offset, hfits⟩
    obtain ⟨hstop, hclear⟩ := (fits_iff h hsize).1 hfits
    -- the search ends no later than where the bytes lie, so its range ends in the buffer, too
    have hle : firstFit size 0 ch.allocations ≤ offset := firstFit_le (Nat.zero_le offset) hclear
    exact ⟨_, _, allocate_eq_ok_iff.2 ⟨hsize, rfl, by omega, rfl⟩⟩

/-- Releasing what was just reserved restores the channel. -/
theorem release_allocate {ch next : Channel} {size offset : Nat} (h : ch.Laid)
    (hnext : ch.allocate size = .ok (next, offset)) : next.release offset = ch := by
  obtain ⟨-, hclear⟩ := h.allocate hnext
  obtain ⟨hsize, -, -, rfl⟩ := allocate_eq_ok_iff.1 hnext
  have hother : ∀ a ∈ ch.allocations, a.offset ≠ offset := by
    intro a ha
    have hpos := h.pos a ha
    have hapart := hclear a ha
    unfold stop at hapart
    omega
  have hrestored := filter_insert ⟨offset, size⟩ hother
  simp only [Channel.release, hrestored]

theorem release_unknown {ch : Channel} {offset : Nat}
    (h : ∀ a ∈ ch.allocations, a.offset ≠ offset) : ch.release offset = ch := by
  have hsame : ch.allocations.filter (·.offset != offset) = ch.allocations :=
    List.filter_eq_self.2 fun a ha => by simpa using h a ha
  simp only [release, hsame]

/-! ## Payloads -/

theorem writeContent_eq_ok {ch : Channel} {arena arena' : Arena} {packet : Packet}
    {bytes : List UInt8} {count : Nat}
    (h : ch.writeContent arena packet bytes = .ok (arena', count)) :
    arena.write ch.buffer packet.offset (bytes.take packet.size) = some arena' := by
  unfold writeContent view at h
  split at h
  · simp at h
  · rename_i payload hpayload
    split at hpayload
    · simp at hpayload
    · obtain rfl := Except.ok.inj hpayload
      split at h
      · simp at h
      · rename_i result hstore
        obtain ⟨after, hwrite, rfl⟩ := Option.map_eq_some_iff.1 hstore
        simp only [Except.ok.injEq, Prod.mk.injEq] at h
        obtain ⟨rfl, -⟩ := h
        exact hwrite

/-- Filling a payload does not change what another one reads, if no byte belongs to both. -/
theorem readContent_write {ch : Channel} (arena : Arena) {packet other : Packet}
    (bytes : List UInt8) (len : Nat)
    (h : packet.offset + packet.size ≤ other.offset ∨
      other.offset + other.size ≤ packet.offset) :
    ch.readContent (ch.perform arena (.write packet bytes)).2.1 other len =
      ch.readContent arena other len := by
  simp only [perform]
  split
  · rfl
  · rename_i arena' count hwrite
    have hfill := writeContent_eq_ok hwrite
    have hlength : (bytes.take packet.size).length ≤ packet.size := List.length_take_le _ _
    unfold readContent view
    split
    · rfl
    · rename_i payload hpayload
      split at hpayload
      · simp at hpayload
      · obtain rfl := Except.ok.inj hpayload
        have hread : arena'.read ch.buffer other.offset (min len other.size) =
            arena.read ch.buffer other.offset (min len other.size) :=
          Arena.read_write_apart hfill (by omega)
        simp only [PayloadView.fetch, hread]

/-- Payloads in different reservations have no byte in common. -/
theorem Laid.payloads_apart {ch : Channel} (h : ch.Laid) {a b : Allocation}
    (ha : a ∈ ch.allocations) (hb : b ∈ ch.allocations) (hab : a ≠ b) {p q : Packet}
    (hp : a.Holds p) (hq : b.Holds q) :
    p.offset + p.size ≤ q.offset ∨ q.offset + q.size ≤ p.offset := by
  -- the order of the two does not matter
  have : Std.Symm fun a b : Allocation => a.stop ≤ b.offset ∨ b.stop ≤ a.offset :=
    ⟨fun _ _ h => Or.symm h⟩
  have hpairs : ch.allocations.Pairwise fun a b => a.stop ≤ b.offset ∨ b.stop ≤ a.offset :=
    h.ordered.imp fun hab => Or.inl hab
  have hordered := hpairs.forall ha hb hab
  obtain ⟨hp, hp'⟩ := hp
  obtain ⟨hq, hq'⟩ := hq
  omega

/-- After any steps on a new channel, the reservations share no byte, are not empty and lie in the
buffer. Some bytes can be reserved exactly when as many free ones lie in a row; they are reserved at
the lowest offset where they do, nothing else on the channel changes, and giving them up restores
the channel as it was. A reservation that fails, or the release of an offset at which nothing is
reserved, changes nothing. If twice the buffer stays within a word, so does every sum of the search.
Whatever is written into a payload in one reservation, a payload in another one reads as before. -/
theorem allocations_exact {buffer : SharedBuffer} {capacity : Nat} {new : Channel}
    (hnew : create buffer capacity = .ok new) (arena : Arena) (steps : List ClientStep) :
    let ch := (new.performAll arena steps).1
    (ch.allocations.Pairwise Apart ∧
      ∀ a ∈ ch.allocations, 1 ≤ a.size ∧ a.stop ≤ buffer.size) ∧
    (∀ size, ((∃ next offset, ch.allocate size = .ok (next, offset)) ↔
      1 ≤ size ∧ ∃ offset, ch.Fits offset size)) ∧
    (∀ size next offset, ch.allocate size = .ok (next, offset) →
      ch.Fits offset size ∧ (∀ other, ch.Fits other size → offset ≤ other) ∧
      next.allocations.Perm (⟨offset, size⟩ :: ch.allocations) ∧
      next = { ch with allocations := next.allocations } ∧ next.release offset = ch) ∧
    (∀ size e, ch.allocate size = .error e → ∀ arena,
      ch.perform arena (.allocate size) = (ch, arena, .error e)) ∧
    (∀ offset, (∀ a ∈ ch.allocations, a.offset ≠ offset) → ch.release offset = ch) ∧
    (buffer.size + buffer.size ≤ maxWord → ∀ size ≤ buffer.size,
      firstFit? size 0 ch.allocations = some (firstFit size 0 ch.allocations)) ∧
    ∀ a ∈ ch.allocations, ∀ b ∈ ch.allocations, a ≠ b → ∀ p q, a.Holds p → b.Holds q →
      ∀ arena bytes len, ch.readContent (ch.perform arena (.write p bytes)).2.1 q len =
        ch.readContent arena q len := by
  intro ch
  obtain ⟨hlaid, hbuffer⟩ := laid_create hnew
  have h : ch.Laid := hlaid.performAll arena steps
  replace hbuffer : ch.buffer = buffer := (new.buffer_performAll arena steps).trans hbuffer
  refine ⟨⟨Layout.apart h, ?_⟩, ?_, ?_, ?_, ?_, ?_, ?_⟩
  · intro a ha
    exact ⟨h.pos a ha, hbuffer ▸ h.stop_le a ha⟩
  · exact fun size => allocate_ok_iff_fits h
  · intro size next offset hnext
    obtain ⟨hsize, hoffset, hstop, hnext'⟩ := allocate_eq_ok_iff.1 hnext
    refine ⟨(fits_iff h hsize).2 ⟨hstop, (h.allocate hnext).2⟩, ?_, ?_, ?_, ?_⟩
    · intro other hfits
      rw [hoffset]
      exact firstFit_le (Nat.zero_le other) ((fits_iff h hsize).1 hfits).2
    · rw [hnext']
      exact insert_perm _ _
    · rw [hnext']
    · exact release_allocate h hnext
  · intro size e herror arena
    simp only [perform, herror]
  · exact fun offset => release_unknown
  · intro hdouble size hsize
    exact firstFit?_eq h (Nat.zero_le _) (by rw [hbuffer]; omega)
  · intro a ha b hb hab p q hp hq arena bytes len
    exact readContent_write arena bytes len (h.payloads_apart ha hb hab hp hq)

/-- A channel over a buffer of 100 bytes. -/
def narrow : Channel where
  buffer := ⟨0, 0, 100⟩
  capacity := 2

/-- Three reservations, of which the middle one is given up, twice, and partly taken again. -/
def fragmented : List ClientStep :=
  [.allocate 40, .allocate 30, .allocate 20, .release ⟨.read, 0, 1, 40, 30, false⟩,
    .release ⟨.read, 0, 1, 40, 30, false⟩, .allocate 11]

/-- After these steps, 19 bytes close the gap exactly, and 20 bytes fit nowhere. -/
theorem allocations_exact_fragmented :
    create ⟨0, 0, 100⟩ 2 = .ok narrow ∧
      let ch := { narrow with allocations := [⟨0, 40⟩, ⟨40, 11⟩, ⟨70, 20⟩] }
      (narrow.performAll {} fragmented).1 = ch ∧ ch.Fits 51 19 ∧
        (∀ other, ch.Fits other 19 → 51 ≤ other) ∧ ¬∃ offset, ch.Fits offset 20 := by
  have hnew : create ⟨0, 0, 100⟩ 2 = .ok narrow := rfl
  have hch : (narrow.performAll {} fragmented).1 =
      { narrow with allocations := [⟨0, 40⟩, ⟨40, 11⟩, ⟨70, 20⟩] } := by decide +kernel
  have hexact := allocations_exact hnew {} fragmented
  rw [hch] at hexact
  obtain ⟨-, hpossible, hreserved, -⟩ := hexact
  obtain ⟨hfits, hlowest, -⟩ := hreserved 19
    { narrow with allocations := [⟨0, 40⟩, ⟨40, 11⟩, ⟨51, 19⟩, ⟨70, 20⟩] } 51 rfl
  refine ⟨hnew, hch, hfits, hlowest, ?_⟩
  intro hroom
  obtain ⟨next, offset, hnext⟩ := (hpossible 20).2 ⟨by decide, hroom⟩
  have hfull : ({ narrow with
      allocations := [⟨0, 40⟩, ⟨40, 11⟩, ⟨70, 20⟩] } : Channel).allocate 20 =
        .error .bufferExhausted := rfl
  rw [hfull] at hnext
  simp at hnext

end Channel
end BlockMux
