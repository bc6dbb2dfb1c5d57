import BlockMux.Device.StreamDevice
import BlockMux.Proofs.GrantBounds
import BlockMux.Proofs.Promptness
import BlockMux.Proofs.SequentialDrain

/-!
# Sessions on a medium

A medium is lawful if it does what reading and writing at a position mean, and if an access that
fails transfers nothing. A device on such a medium keeps its blocks whatever it is made to do: only
bytes of the medium are overwritten. So the window of every session lies on the device and its buffer
has a memory behind it, and a sound packet fails only if the medium does.

A disk image is a lawful medium.

Main statements:

* `LawfulMedium` — what media have to satisfy.
* `StreamDevice.prompt` — a device on a lawful medium is prompt, and keeps its blocks.
* `Aboard.runSteps` — along every run the window and the buffer of every session are there.
* `StreamDevice.settles` — a sound packet is carried out unless the medium fails.
-/

namespace BlockMux

/-! ## Lawful media -/

/-- Reads return the bytes of the medium, writes overwrite them, and an access that fails changes no
byte. -/
class LawfulMedium (μ : Type) [Medium μ] : Prop where
  length_ok : ∀ {m m' : μ} {n}, Medium.length m = (.ok n, m') →
    n = (Medium.contents m).size ∧ Medium.contents m' = Medium.contents m
  read_ok : ∀ {m m' : μ} {pos len bytes}, pos + len ≤ (Medium.contents m).size →
    Medium.read m pos len = (.ok bytes, m') →
      bytes = (Medium.contents m).read pos len ∧ Medium.contents m' = Medium.contents m
  read_error : ∀ {m m' : μ} {pos len e}, Medium.read m pos len = (.error e, m') →
    Medium.contents m' = Medium.contents m
  write_ok : ∀ {m m' : μ} {pos bytes}, pos + bytes.length ≤ (Medium.contents m).size →
    Medium.write m pos bytes = (.ok (), m') →
      Medium.contents m' = (Medium.contents m).write pos bytes
  write_error : ∀ {m m' : μ} {pos bytes e}, Medium.write m pos bytes = (.error e, m') →
    Medium.contents m' = Medium.contents m
  flush : ∀ m : μ, Medium.contents (Medium.flush m) = Medium.contents m
  poke : ∀ (m : μ) pos bytes,
    Medium.contents (Medium.poke m pos bytes) = (Medium.contents m).write pos bytes

instance : LawfulMedium Image where
  length_ok := by
    intro m m' n h
    obtain ⟨hn, rfl⟩ := Prod.mk.inj h
    exact ⟨(Except.ok.inj hn).symm, rfl⟩
  read_ok := by
    intro m m' pos len bytes _ h
    obtain ⟨hread, rfl⟩ := Prod.mk.inj h
    refine ⟨?_, rfl⟩
    -- a read of no bytes succeeds wherever it is
    rcases Nat.eq_zero_or_pos len with rfl | hlen
    · rw [Image.read, if_pos rfl] at hread
      exact (Except.ok.inj hread).symm
    · exact ((Image.read_eq_ok hlen).1 hread).2.2.symm
  read_error := by
    intro m m' pos len e h
    obtain ⟨-, rfl⟩ := Prod.mk.inj h
    rfl
  write_ok := by
    intro m m' pos bytes _ h
    simp only [Medium.write, Image.write] at h
    split at h
    · simp at h
    · rename_i image hwrite
      split at hwrite
      · simp at hwrite
      · obtain rfl := Except.ok.inj hwrite
        obtain ⟨-, rfl⟩ := Prod.mk.inj h
        rfl
  write_error := by
    intro m m' pos bytes e h
    simp only [Medium.write] at h
    split at h
    · obtain ⟨-, rfl⟩ := Prod.mk.inj h
      rfl
    · simp at h
  flush := fun _ => rfl
  poke := fun _ _ _ => rfl

namespace StreamDevice

variable {μ : Type} [Medium μ]

/-! ## What a device on a medium keeps -/

/-- The device has so many blocks of this size, and the medium has the bytes for them. -/
structure Holds (blockSize blockCount : Nat) (device : StreamDevice μ) : Prop where
  blockSize_eq : device.blockSize = blockSize
  blockCount_eq : device.blockCount = blockCount
  large : blockCount * blockSize ≤ (Medium.contents device.medium).size

/-- A medium with as many bytes holds as many blocks. -/
theorem Holds.medium {blockSize blockCount : Nat} {device : StreamDevice μ}
    (h : device.Holds blockSize blockCount) {medium : μ}
    (hsize : (Medium.contents medium).size = (Medium.contents device.medium).size) :
    Holds blockSize blockCount { device with medium := medium } :=
  ⟨h.blockSize_eq, h.blockCount_eq, hsize ▸ h.large⟩

variable [LawfulMedium μ] {blockSize blockCount : Nat} {device : StreamDevice μ} {arena : Arena}

/-- A device that could be made has blocks of some bytes. -/
theorem holds_of_create {medium : μ} (h : create medium blockSize = .ok device) :
    1 ≤ blockSize ∧ Holds blockSize device.blockCount device := by
  unfold create at h
  split at h
  · simp at h
  · rename_i hsome
    split at h
    · simp at h
    · rename_i size after hlength
      obtain rfl := Except.ok.inj h
      obtain ⟨rfl, hkept⟩ := LawfulMedium.length_ok hlength
      refine ⟨by omega, rfl, rfl, ?_⟩
      rw [hkept]
      exact Nat.div_mul_le_self _ _

omit [LawfulMedium μ] in
/-- The bytes of blocks on the device are on the medium. -/
theorem Holds.inside (h : device.Holds blockSize blockCount) (block count : Nat)
    (hblocks : block + count ≤ blockCount) :
    block * blockSize + count * blockSize ≤ (Medium.contents device.medium).size := by
  rw [← Nat.add_mul]
  exact Nat.le_trans (Nat.mul_le_mul_right _ hblocks) h.large

/-- A transfer that changes no size, whether it is carried out or not. -/
def KeepsSizes (device : StreamDevice μ) (arena : Arena) (result : Option Arena × μ) : Prop :=
  (Medium.contents result.2).size = (Medium.contents device.medium).size ∧
    ∀ arena', result.1 = some arena' → arena'.sizes = arena.sizes

theorem keepsSizes_readIn (device : StreamDevice μ) (arena : Arena) {pos len : Nat}
    (hinside : pos + len ≤ (Medium.contents device.medium).size) (payload : PayloadView) :
    device.KeepsSizes arena (device.readIn arena pos len payload) := by
  unfold readIn
  split
  · rename_i hread
    exact ⟨by rw [LawfulMedium.read_error hread], by simp⟩
  · rename_i bytes medium hread
    refine ⟨by rw [(LawfulMedium.read_ok hinside hread).2], ?_⟩
    intro arena' hstored
    obtain ⟨⟨arena'', moved⟩, hstore, rfl⟩ := Option.map_eq_some_iff.1 hstored
    exact Ram.sizes_store hstore

theorem keepsSizes_writeOut (device : StreamDevice μ) (arena : Arena) {pos len : Nat}
    (hinside : pos + len ≤ (Medium.contents device.medium).size) (payload : PayloadView) :
    device.KeepsSizes arena (device.writeOut arena pos len payload) := by
  unfold writeOut
  split
  · exact ⟨rfl, by simp⟩
  · rename_i bytes hfetch
    -- the payload was asked for no more bytes than the blocks have
    have hlen : bytes.length ≤ len := by
      unfold PayloadView.fetch Arena.read at hfetch
      split at hfetch
      · obtain ⟨memory, -, rfl⟩ := Option.map_eq_some_iff.1 hfetch
        rw [Memory.length_read]
        exact Nat.min_le_left _ _
      · simp at hfetch
    split
    · rename_i hwrite
      exact ⟨by rw [LawfulMedium.write_error hwrite], by simp⟩
    · rename_i hwrite
      refine ⟨by rw [LawfulMedium.write_ok (by omega) hwrite, Memory.size_write], ?_⟩
      intro arena' hsame
      rw [Option.some.inj hsame]

theorem Holds.keepsSizes_transfer (h : device.Holds blockSize blockCount) (arena : Arena)
    (t : Transfer) (payload : PayloadView) :
    device.KeepsSizes arena (device.transfer arena t payload) := by
  simp only [transfer, h.blockSize_eq, h.blockCount_eq]
  by_cases hrefused : blockCount < t.block + t.count ∨ payload.length < t.count * blockSize
  · rw [if_pos hrefused]
    exact ⟨rfl, by simp⟩
  · have hinside := h.inside t.block t.count (by omega)
    rw [if_neg hrefused]
    cases t.direction with
    | read => exact keepsSizes_readIn device arena hinside payload
    | write => exact keepsSizes_writeOut device arena hinside payload

theorem Holds.submit (h : device.Holds blockSize blockCount) (arena : Arena) (t : Transfer)
    (request : Request) :
    (device.submit arena t request).driver.Holds blockSize blockCount ∧
      (device.submit arena t request).arena.sizes = arena.sizes := by
  unfold StreamDevice.submit
  split
  · exact ⟨h, rfl⟩
  · rename_i payload _
    obtain ⟨hsize, hsizes⟩ := h.keepsSizes_transfer arena t payload
    split
    · rename_i medium htransfer
      rw [htransfer] at hsize
      exact ⟨h.medium hsize, rfl⟩
    · rename_i arena' medium htransfer
      rw [htransfer] at hsize hsizes
      exact ⟨h.medium hsize, hsizes _ rfl⟩

omit [LawfulMedium μ] in
theorem allocate_eq_some {device' : StreamDevice μ} {arena' : Arena} {size : Nat}
    {buffer : SharedBuffer}
    (h : Driver.allocate device arena size = some (device', arena', buffer)) :
    device' = device ∧ buffer = ⟨arena.memories.length, 0, size⟩ ∧
      arena' = ⟨arena.memories ++ [Memory.zeroed size]⟩ := by
  obtain ⟨⟨arena₁, buffer₁⟩, hmap, hfound⟩ := Option.map_eq_some_iff.1 h
  simp only [Prod.mk.injEq] at hfound
  obtain ⟨rfl, rfl, rfl⟩ := hfound
  exact ⟨rfl, (Arena.map_eq_some hmap).2⟩

/-- A device on a lawful medium carries out or refuses what it is asked for, and keeps its blocks. -/
theorem prompt (blockSize blockCount : Nat) :
    Device.Prompt (Holds blockSize blockCount : StreamDevice μ → Prop) where
  uncongested := fun _ arena t request => submit_ne_congested _ arena t request
  submit := fun h arena t request => (h.submit arena t request).1
  sync := fun {device} h => h.medium (by rw [LawfulMedium.flush])
  allocate := by
    intro device arena size device' arena' buffer h hnew
    rw [(allocate_eq_some hnew).1]
    exact h
  release := fun h _ => h
  advance := by
    intro device h arena step
    cases step with
    | poke pos bytes => exact h.medium (by rw [LawfulMedium.poke, Memory.size_write])
    | _ => exact h

end StreamDevice

/-! ## Sessions on a medium -/

/-- A session on a device with so many blocks of this size: it was told their size, its window lies
on the device, and its buffer has a memory behind it. -/
structure Session.Aboard (blockSize blockCount : Nat) (arena : Arena) (s : Session) : Prop where
  blockSize_eq : s.blockSize = blockSize
  byView : s.usesAddresses = false
  window : s.grant.offset + s.grant.span ≤ blockCount
  backed : arena.sizes[s.channel.buffer.memory]? = some s.channel.buffer.size

/-- Memories may have been added, and those of before have kept their sizes. -/
def Arena.Grown (arena arena' : Arena) : Prop :=
  ∀ (i size : Nat), arena.sizes[i]? = some size → arena'.sizes[i]? = some size

theorem Arena.Grown.of_sizes {arena arena' : Arena} (h : arena'.sizes = arena.sizes) :
    arena.Grown arena' := by
  intro i size hi
  rw [h]
  exact hi

namespace Session

variable {blockSize blockCount : Nat} {arena arena' : Arena} {s s' : Session} {packet : Packet}

theorem Aboard.congr (h : s.Aboard blockSize blockCount arena) (hterms : s'.terms = s.terms)
    (hgrown : arena.Grown arena') : s'.Aboard blockSize blockCount arena' := by
  simp only [terms, Terms.mk.injEq] at hterms
  obtain ⟨hgrant, -, -, hbuffer, -, hsize, -, haddr⟩ := hterms
  refine ⟨hsize.trans h.blockSize_eq, haddr.trans h.byView, by rw [hgrant]; exact h.window, ?_⟩
  rw [hbuffer]
  exact hgrown _ _ h.backed

/-- Named by a view, the payload of a sound packet is where the packet says. -/
theorem transfer?_byView (hview : s.usesAddresses = false) (hsound : s.Sound packet) :
    s.transfer? packet = (direction? packet.operation).map fun direction =>
      ⟨direction, s.grant.offset + packet.block, packet.count,
        .view ⟨s.channel.buffer, packet.offset, packet.size⟩⟩ := by
  have htarget : s.target? packet =
      some (.view ⟨s.channel.buffer, packet.offset, packet.size⟩) := by
    rw [target?, hview, Channel.view, if_neg (Nat.not_lt_of_le hsound.fits)]
    rfl
  rw [transfer?, htarget]
  cases direction? packet.operation <;> rfl

/-- The payload of a sound packet can be fetched as far as the blocks go. -/
theorem Aboard.fetch_payload (h : s.Aboard blockSize blockCount arena) (hsound : s.Sound packet) :
    (⟨s.channel.buffer, packet.offset, packet.size⟩ : PayloadView).fetch arena
        (packet.count * s.blockSize) =
      some ((arena.memory s.channel.buffer).read packet.offset (packet.count * s.blockSize)) := by
  have hsize := hsound.size_pos
  have hlarge := hsound.large
  have hfits := hsound.fits
  have hstart : packet.offset < s.channel.buffer.size := by omega
  have hstop : packet.offset + packet.count * s.blockSize ≤ s.channel.buffer.size := by omega
  rw [PayloadView.fetch, Nat.min_eq_left hlarge]
  exact Arena.read_of_inside h.backed hstart hstop

end Session

namespace System

variable {μ : Type} [Medium μ] [LawfulMedium μ] {blockSize blockCount : Nat}
  {sys sys' : System (StreamDevice μ)} {step : Step} {answer : Answer}

/-- All open sessions are aboard. -/
def AllAboard (blockSize blockCount : Nat) (sys : System (StreamDevice μ)) : Prop :=
  ∀ seat s, sys.session? seat = some s → s.Aboard blockSize blockCount sys.mux.backend.arena

omit [LawfulMedium μ] in
theorem grown_allocate {b b' : Backend (StreamDevice μ)} {size : Nat} {buffer : SharedBuffer}
    (h : b.allocate size = some (b', buffer)) : b.arena.Grown b'.arena := by
  obtain ⟨-, -, harena⟩ := StreamDevice.allocate_eq_some (Backend.driver_allocate h)
  intro i size hi
  rw [harena]
  exact Ram.sizes_grow _ hi

/-- Sessions at work overwrite bytes of buffers, and no more. -/
theorem sizes_acts {s s' : Session} {b b' : Backend (StreamDevice μ)}
    (hdriver : b.driver.Holds blockSize blockCount) (acts : s.Acts b s' b') :
    b'.arena.sizes = b.arena.sizes := by
  have hboth : b'.driver.Holds blockSize blockCount ∧ b'.arena.sizes = b.arena.sizes := by
    refine acts.backend (P := fun c : Backend (StreamDevice μ) =>
      c.driver.Holds blockSize blockCount ∧ c.arena.sizes = b.arena.sizes) (fun _ _ hc => hc)
      (fun hc => ⟨(StreamDevice.prompt _ _).sync hc.1, hc.2⟩) ?_ ⟨hdriver, rfl⟩
    intro c t packet _ hc
    have hsubmit := hc.1.submit c.arena t ⟨packet, s.mailbox⟩
    rw [Backend.driver_submit, Backend.arena_submit]
    exact ⟨hsubmit.1, hsubmit.2.trans hc.2⟩
  exact hboth.2

/-- No step takes a memory away or changes its size. -/
theorem grown_transition (hdriver : sys.mux.backend.driver.Holds blockSize blockCount)
    (h : sys.Transition step sys' answer) :
    sys.mux.backend.arena.Grown sys'.mux.backend.arena := by
  cases h with
  | unchanged => exact .of_sizes rfl
  | refused left =>
    cases left with
    | early roster => exact .of_sizes rfl
    | late roster backend_eq => exact grown_allocate backend_eq
  | opened parsed a =>
    show Arena.Grown _ a.backend.arena
    exact grown_allocate a.backend_eq
  | closed hs => exact .of_sizes rfl
  | @client seat step client hc =>
    exact .of_sizes (client.channel.filled_perform sys.mux.backend.arena step).sizes
  | acted hseat hs acts => exact .of_sizes (sizes_acts hdriver acts)
  | device step =>
    refine .of_sizes ?_
    rw [Backend.arena_advance]
    cases step <;> rfl

omit [LawfulMedium μ] in
theorem aboard_of_admission {mux : Multiplexer (StreamDevice μ)} {args : Arguments}
    (hdriver : mux.backend.driver.Holds blockSize blockCount)
    (a : Multiplexer.Admission mux args) :
    a.session.Aboard blockSize blockCount a.backend.arena := by
  obtain ⟨hsame, hbuffer, harena⟩ :=
    StreamDevice.allocate_eq_some (Backend.driver_allocate a.backend_eq)
  obtain ⟨rule, request, -, -, hgrant⟩ := Grant.resolve_eq_ok a.grant_eq
  obtain ⟨-, -, hstop, -, -⟩ := WindowRequest.grant_eq_ok hgrant
  have hchannel : a.session.channel.buffer = a.buffer := congrArg Channel.buffer a.channel_new.1
  refine ⟨?_, rfl, Nat.le_trans hstop (Nat.le_of_eq hdriver.blockCount_eq), ?_⟩
  · show a.backend.driver.blockSize = blockSize
    rw [hsame]
    exact hdriver.blockSize_eq
  · -- the memory of the buffer is the one just added
    rw [hchannel, hbuffer, harena]
    exact mux.backend.arena.sizes_new _

theorem AllAboard.transition (haboard : sys.AllAboard blockSize blockCount)
    (hdriver : sys.mux.backend.driver.Holds blockSize blockCount)
    (h : sys.Transition step sys' answer) : sys'.AllAboard blockSize blockCount := by
  intro seat s hs
  rcases h.terms_before hs with ⟨t, ht, hterms⟩ | ⟨_, _, args, a, -, -, -, rfl, hmux⟩
  · exact (haboard seat t ht).congr hterms (grown_transition hdriver h)
  · rw [hmux]
    exact aboard_of_admission hdriver a

/-- On a device with blocks to hold, every session that is ever open is aboard. -/
theorem AllAboard.runSteps {driver : StreamDevice μ} (hdriver : driver.Holds blockSize blockCount)
    (config : Config) (table : Option PartitionTable) (steps : List Step) :
    ((create (.create driver config table)).runSteps steps).AllAboard blockSize blockCount := by
  induction steps using List.reverseRecOn with
  | nil =>
    intro seat s hs
    simp [create, System.runSteps, session?] at hs
  | append_singleton steps step ih =>
    have ho := (Orderly.create (.create driver config table)).runSteps steps
    have hbefore := (StreamDevice.prompt blockSize blockCount).driver_runSteps hdriver config table
      steps
    rw [runSteps_concat]
    exact ih.transition hbefore (step_transition ho step)

end System

/-! ## Carrying out -/

namespace StreamDevice

variable {μ : Type} [Medium μ]

/-- Whether the medium does what a packet needs: returns the bytes of the blocks, or takes those of
the payload. -/
def works (s : Session) (x : StreamDevice μ × Arena) (packet : Packet) : Bool :=
  let pos := (s.grant.offset + packet.block) * s.blockSize
  let len := packet.count * s.blockSize
  match packet.operation with
  | .read => (Medium.read x.1.medium pos len).1.isOk
  | .write =>
    (Medium.write x.1.medium pos ((x.2.memory s.channel.buffer).read packet.offset len)).1.isOk
  | .unsupported _ => false

/-- What a device on a medium keeps to, as far as a session is concerned. -/
def Carries (blockSize blockCount : Nat) (s : Session) (x : StreamDevice μ × Arena) : Prop :=
  x.1.Holds blockSize blockCount ∧ s.Aboard blockSize blockCount x.2

variable [LawfulMedium μ] {blockSize blockCount : Nat} {s : Session}

omit [LawfulMedium μ] in
/-- A sound packet names blocks of the device, and its payload holds them. -/
theorem Carries.has_blocks {x : StreamDevice μ × Arena} (h : Carries blockSize blockCount s x)
    {packet : Packet} (hsound : s.Sound packet) :
    ¬(x.1.blockCount < s.grant.offset + packet.block + packet.count ∨
      packet.size < packet.count * s.blockSize) := by
  have hinside := hsound.inside
  have hlarge := hsound.large
  have hwindow := h.2.window
  rw [h.1.blockCount_eq]
  omega

/-- A device on a lawful medium settles what a session aboard asks for at once: a sound packet is
carried out unless the medium fails. -/
theorem settles (blockSize blockCount : Nat) (s : Session) :
    s.Settles (fun device : StreamDevice μ => Medium.contents device.medium) (works s)
      (Carries blockSize blockCount s) where
  settles := by
    intro x packet t hx hsound ht
    show s.Settlement _ x.1 x.2 packet _ (x.1.submit x.2 t ⟨packet, s.mailbox⟩)
    have hgood := (s.accepts_iff packet).2 hsound
    have hinside := hsound.inside
    have hwindow := hx.2.window
    have hsize : x.1.blockSize = s.blockSize := hx.1.blockSize_eq.trans hx.2.blockSize_eq.symm
    have hblocks := hx.has_blocks hsound
    -- the bytes of the blocks are on the medium
    have hbytes : (s.grant.offset + packet.block) * s.blockSize + packet.count * s.blockSize ≤
        (Medium.contents x.1.medium).size := by
      rw [hx.2.blockSize_eq]
      exact hx.1.inside _ _ (by omega)
    rw [Session.transfer?_byView hx.2.byView hsound] at ht
    cases hop : packet.operation with
    | unsupported code => simp [hop, Session.direction?] at ht
    | read =>
      rw [hop] at ht
      obtain rfl := Option.some.inj ht
      simp only [submit, transfer, hsize, if_neg hblocks, readIn, works, hop]
      rcases hread : Medium.read x.1.medium ((s.grant.offset + packet.block) * s.blockSize)
        (packet.count * s.blockSize) with ⟨result, medium⟩
      cases result with
      | error e => exact .refused (LawfulMedium.read_error hread)
      | ok bytes =>
        obtain ⟨rfl, hkept⟩ := LawfulMedium.read_ok hbytes hread
        dsimp only
        rw [Ram.store_payload x.2 hgood (Memory.length_read ..)]
        refine .done ?_
        simp only [Session.moved, hop, hkept]
    | write =>
      rw [hop] at ht
      obtain rfl := Option.some.inj ht
      simp only [submit, transfer, hsize, if_neg hblocks, writeOut, works, hop,
        hx.2.fetch_payload hsound]
      rcases hwrite : Medium.write x.1.medium ((s.grant.offset + packet.block) * s.blockSize)
        ((x.2.memory s.channel.buffer).read packet.offset (packet.count * s.blockSize)) with
        ⟨result, medium⟩
      cases result with
      | error e => exact .refused (LawfulMedium.write_error hwrite)
      | ok _ =>
        have hwritten := LawfulMedium.write_ok (by rwa [Memory.length_read]) hwrite
        refine .done ?_
        simp only [Session.moved, hop, hwritten]
  keeps := by
    intro x packet hx hsound
    obtain ⟨t, ht⟩ := hsound.transfer?
    rw [Session.serve_of_sound hsound ht]
    obtain ⟨hdriver, hsizes⟩ := hx.1.submit x.2 t ⟨packet, s.mailbox⟩
    exact ⟨hdriver, hx.2.congr rfl (.of_sizes hsizes)⟩

end StreamDevice
end BlockMux
