import BlockMux.Proofs.Completions
import BlockMux.Proofs.Course
import BlockMux.Proofs.GrantBounds
import BlockMux.Proofs.Moves

/-!
# Sessions housed on a device in memory

A device in memory hands every session a buffer at addresses of its own, and keeps it as long as
the session is open. Whatever waits in the queue is then carried out in full, whether it names its
payload by a view or by an address: nothing the device does to a housed session can fail.

Main statements:

* `Houses.move_eq` — what a housed session asks for is carried out.
* `Turn`, `Houses.turn` — the few things that a device does, and that they keep sessions housed.
* `submit_turn`, `advance_turns`, `Acts.turns` — everything a device is made to do comes to turns.
-/

namespace BlockMux

namespace Ram

/-- What a device in memory never changes. -/
structure Shape where
  size : Nat
  blockSize : Nat
  usesAddresses : Bool
  queueDepth : Option Nat
  badBlocks : Option (Nat × Nat)
  deriving DecidableEq, Repr

/-- The shape of a device. -/
def shape (ram : Ram) : Shape :=
  ⟨ram.contents.size, ram.blockSize, ram.usesAddresses, ram.queueDepth, ram.badBlocks⟩

/-- A session that was opened on a device of this shape. -/
structure Guest (shape : Shape) (s : Session) : Prop where
  blockSize : s.blockSize = shape.blockSize
  blockSize_pos : 1 ≤ shape.blockSize
  usesAddresses : s.usesAddresses = shape.usesAddresses
  operations : s.operations = Multiplexer.allowed .readWrite s.grant
  window : (s.grant.offset + s.grant.span) * shape.blockSize ≤ shape.size
  bound : shape.size ≤ maxWord

/-- The device houses the guests: each has a buffer among those handed out, which lie apart and
have memories behind them, and everything that waits was asked for by a guest. -/
structure Houses (shape : Shape) (guests : Session → Prop) (ram : Ram) (arena : Arena) : Prop where
  shape_eq : ram.shape = shape
  below : ∀ buffer ∈ ram.buffers, buffer.stop ≤ ram.nextBase
  apart : ram.buffers.Pairwise fun first later => first.stop ≤ later.base
  size_pos : ∀ buffer ∈ ram.buffers, 1 ≤ buffer.size
  backed : ∀ buffer ∈ ram.buffers, arena.sizes[buffer.memory]? = some buffer.size
  guest : ∀ s, guests s → Guest shape s
  buffer : ∀ s, guests s → s.channel.buffer ∈ ram.buffers
  waiting : ∀ job ∈ ram.queue, ∃ s, guests s ∧ s.MayAsk ⟨job.transfer, job.request, .dispatched⟩
  idle : shape.queueDepth = none → ram.queue = []

theorem Guest.congr {shape : Shape} {s s' : Session} (h : Guest shape s)
    (hterms : s'.terms = s.terms) : Guest shape s' := by
  simp only [Session.terms, Session.Terms.mk.injEq] at hterms
  obtain ⟨hgrant, -, -, -, -, hsize, hops, haddr⟩ := hterms
  exact ⟨hsize.trans h.blockSize, h.blockSize_pos, haddr.trans h.usesAddresses,
    by rw [hops, hgrant, h.operations], by rw [hgrant]; exact h.window, h.bound⟩

/-! ## Carrying out -/

/-- Of buffers that lie apart, an address belongs to one. -/
theorem find?_contains {buffers : List SharedBuffer} {buffer : SharedBuffer} {address len : Nat}
    (apart : buffers.Pairwise fun first later => first.stop ≤ later.base)
    (hmem : buffer ∈ buffers) (hlen : 1 ≤ len) (hcontains : buffer.contains address len = true) :
    buffers.find? (·.contains address len) = some buffer := by
  simp only [SharedBuffer.contains, Bool.and_eq_true, decide_eq_true_eq] at hcontains
  obtain ⟨hbase, hstop⟩ := hcontains
  -- on the buffers: those before this one end before it, and cannot contain the address
  induction buffers with
  | nil => simp at hmem
  | cons first rest ih =>
    obtain ⟨hfirst, hrest⟩ := List.pairwise_cons.1 apart
    rcases List.mem_cons.1 hmem with rfl | hlater
    · have hhead : buffer.contains address len = true := by
        simp [SharedBuffer.contains, hbase, hstop]
      exact List.find?_cons_of_pos hhead
    · have hnot : first.contains address len = false := by
        have := hfirst buffer hlater
        simp only [SharedBuffer.contains, Bool.and_eq_false_iff, decide_eq_false_iff_not]
        omega
      rw [List.find?_cons_of_neg (by simp [hnot])]
      exact ih hrest hlater

variable {shape : Shape} {guests : Session → Prop} {ram : Ram} {arena : Arena} {s : Session}
  {e : Exchange}

/-- The transfer of a packet that passed the checks. -/
theorem transfer_of_mayAsk (may : s.MayAsk e) :
    ∃ direction target, Session.direction? e.request.packet.operation = some direction ∧
      s.target? e.request.packet = some target ∧
      e.transfer = ⟨direction, s.grant.offset + e.request.packet.block, e.request.packet.count,
        target⟩ := by
  have htransfer := may.transfer
  unfold Session.transfer? at htransfer
  split at htransfer
  · rename_i direction target hdirection htarget
    exact ⟨direction, target, hdirection, htarget, (Option.some.inj htransfer).symm⟩
  · simp at htransfer

/-- The blocks that a packet of a guest names end on the device. -/
theorem Guest.stop_le (h : Guest shape s) {packet : Packet} (good : s.accepts packet = true) :
    (s.grant.offset + packet.block + packet.count) * shape.blockSize ≤ shape.size := by
  obtain ⟨-, hspan, -⟩ := Session.bounds_of_accepts good
  exact Nat.le_trans (Nat.mul_le_mul_right _ (by omega)) h.window

theorem Guest.inRange_eq (h : Guest shape s) (hshape : ram.shape = shape) (may : s.MayAsk e) :
    ram.inRange e.transfer = true := by
  obtain ⟨direction, target, -, -, htransfer⟩ := transfer_of_mayAsk may
  have hsize : ram.contents.size = shape.size := congrArg Shape.size hshape
  have hblock : ram.blockSize = shape.blockSize := congrArg Shape.blockSize hshape
  have hstop := h.stop_le may.accepted
  -- blocks hold at least one byte, so their number stays below the word limit as well
  have hblocks : s.grant.offset + e.request.packet.block + e.request.packet.count ≤ maxWord :=
    Nat.le_trans (Nat.le_mul_of_pos_right _ h.blockSize_pos) (Nat.le_trans hstop h.bound)
  rw [inRange, htransfer, hsize, hblock]
  simp [hblocks, hstop]

theorem isBad_eq (hshape : ram.shape = shape) (may : s.MayAsk e) :
    ram.isBad e.transfer = s.touchesBad shape.badBlocks e.request.packet := by
  obtain ⟨direction, target, -, -, htransfer⟩ := transfer_of_mayAsk may
  have hbad : ram.badBlocks = shape.badBlocks := congrArg Shape.badBlocks hshape
  cases hrange : shape.badBlocks with
  | none => simp only [isBad, Session.touchesBad, hbad, hrange]
  | some range => simp only [isBad, Session.touchesBad, hbad, hrange, htransfer]

/-- Of what guests ask for, a device refuses for good exactly what touches bad blocks. -/
theorem Guest.refused_iff (h : Guest shape s) (hshape : ram.shape = shape) {t : Transfer}
    {request : Request} {outcome : Outcome} (may : s.MayAsk ⟨t, request, outcome⟩)
    (arena : Arena) :
    (ram.submit arena t request).outcome = .ioError ↔
      s.touchesBad shape.badBlocks request.packet = true := by
  have hrange := h.inRange_eq hshape may
  have hbad := isBad_eq hshape may
  dsimp only at hrange hbad
  rw [(ram.answers arena t request).ioError_iff, hrange, hbad]
  simp

/-- The payload of a guest's packet can be read as far as the blocks go. -/
theorem Houses.read_payload (h : Houses shape guests ram arena) (hs : guests s) {packet : Packet}
    (good : s.accepts packet = true) :
    arena.read s.channel.buffer packet.offset (packet.count * s.blockSize) =
      some ((arena.memory s.channel.buffer).read packet.offset (packet.count * s.blockSize)) := by
  obtain ⟨-, -, hlarge, hpos, hfits, -⟩ := Session.bounds_of_accepts good
  exact Arena.read_of_inside (h.backed _ (h.buffer s hs)) (by omega) (by omega)

/-- The payload of a packet takes all bytes of the blocks. -/
theorem write_payload (arena : Arena) {packet : Packet} (good : s.accepts packet = true)
    {bytes : List UInt8} (hbytes : bytes.length = packet.count * s.blockSize) :
    arena.write s.channel.buffer packet.offset bytes =
      some ⟨arena.memories.modify s.channel.buffer.memory fun m =>
        m.write packet.offset bytes⟩ := by
  obtain ⟨-, -, hlarge, hpos, hfits, -⟩ := Session.bounds_of_accepts good
  exact Arena.write_of_inside arena (by omega) (by omega)

/-- A view of the payload holds at least the bytes of the blocks. -/
theorem Houses.fetch_payload (h : Houses shape guests ram arena) (hs : guests s) {packet : Packet}
    (good : s.accepts packet = true) :
    (⟨s.channel.buffer, packet.offset, packet.size⟩ : PayloadView).fetch arena
        (packet.count * s.blockSize) =
      some ((arena.memory s.channel.buffer).read packet.offset (packet.count * s.blockSize)) := by
  obtain ⟨-, -, hlarge, -⟩ := Session.bounds_of_accepts good
  rw [PayloadView.fetch, Nat.min_eq_left hlarge]
  exact h.read_payload hs good

theorem store_payload (arena : Arena) {packet : Packet} (good : s.accepts packet = true)
    {bytes : List UInt8} (hbytes : bytes.length = packet.count * s.blockSize) :
    (⟨s.channel.buffer, packet.offset, packet.size⟩ : PayloadView).store arena bytes =
      some (⟨arena.memories.modify s.channel.buffer.memory fun m =>
        m.write packet.offset bytes⟩, packet.count * s.blockSize) := by
  obtain ⟨-, -, hlarge, -⟩ := Session.bounds_of_accepts good
  -- nothing is cut off
  have htake : bytes.take packet.size = bytes := List.take_of_length_le (by omega)
  simp only [PayloadView.store, htake, write_payload arena good hbytes, Option.map_some, hbytes]

/-- What a guest asks for is carried out in full, by view as by address. -/
theorem Houses.move_eq (h : Houses shape guests ram arena) (hs : guests s) (may : s.MayAsk e) :
    ram.move arena e.transfer =
      ((s.moved ram.contents arena e.request.packet).1,
        (s.moved ram.contents arena e.request.packet).2, true) := by
  have hguest := h.guest s hs
  have hrange := hguest.inRange_eq h.shape_eq may
  obtain ⟨hcount, -, hlarge, -, hfits, -⟩ := Session.bounds_of_accepts may.accepted
  obtain ⟨direction, target, hdirection, htarget, htransfer⟩ := transfer_of_mayAsk may
  have hblock : ram.blockSize = s.blockSize :=
    (congrArg Shape.blockSize h.shape_eq).trans hguest.blockSize.symm
  -- an empty range would be found in any buffer that ends or begins there
  have hlen : 1 ≤ e.request.packet.count * s.blockSize :=
    Nat.mul_pos hcount (hguest.blockSize ▸ hguest.blockSize_pos)
  have hcontains : s.channel.buffer.contains (s.channel.address e.request.packet)
      (e.request.packet.count * s.blockSize) = true := by
    rw [SharedBuffer.contains, Bool.and_eq_true, decide_eq_true_eq, decide_eq_true_eq]
    unfold SharedBuffer.stop Channel.address
    omega
  have hfind := find?_contains h.apart (h.buffer s hs) hlen hcontains
  have hoffset : s.channel.address e.request.packet - s.channel.buffer.base =
      e.request.packet.offset := Nat.add_sub_cancel_left _ _
  rw [move, if_pos hrange, htransfer, hblock]
  unfold Session.target? at htarget
  -- two directions and two ways to name the payload: all four find it and move it in full
  cases hop : e.request.packet.operation with
  | unsupported code => simp [hop, Session.direction?] at hdirection
  | read =>
    rw [hop] at hdirection
    obtain rfl := Option.some.inj hdirection
    have hbytes := Memory.length_read ram.contents
      ((s.grant.offset + e.request.packet.block) * s.blockSize)
      (e.request.packet.count * s.blockSize)
    split at htarget
    · obtain rfl := Option.some.inj htarget
      simp only [moveAddress, hfind, hoffset, write_payload arena may.accepted hbytes,
        Session.moved, hop]
    · rw [Channel.view, if_neg (Nat.not_lt_of_le hfits)] at htarget
      obtain rfl := Option.some.inj htarget
      simp only [moveView, store_payload arena may.accepted hbytes, Session.moved, hop,
        beq_self_eq_true]
  | write =>
    rw [hop] at hdirection
    obtain rfl := Option.some.inj hdirection
    split at htarget
    · obtain rfl := Option.some.inj htarget
      simp only [moveAddress, hfind, hoffset, h.read_payload hs may.accepted, Session.moved, hop]
    · rw [Channel.view, if_neg (Nat.not_lt_of_le hfits)] at htarget
      obtain rfl := Option.some.inj htarget
      simp only [moveView, h.fetch_payload hs may.accepted, Session.moved, hop,
        Memory.length_read, beq_self_eq_true]

/-- Without a queue, what a guest asks for is carried out before the answer. -/
theorem Houses.submit_atOnce (h : Houses shape guests ram arena) (hs : guests s) {t : Transfer}
    {request : Request} {outcome : Outcome} (may : s.MayAsk ⟨t, request, outcome⟩)
    (sound : s.touchesBad ram.badBlocks request.packet = false) (shallow : ram.queueDepth = none) :
    ram.submit arena t request =
      ⟨{ ram with
          contents := (s.moved ram.contents arena request.packet).1
          accepted := ram.accepted ++ [t] },
        (s.moved ram.contents arena request.packet).2, .dispatched,
        [.completed request true]⟩ := by
  have hrange := (h.guest s hs).inRange_eq h.shape_eq may
  have hbad := isBad_eq h.shape_eq may
  have hmove := h.move_eq hs may
  have hblocks : shape.badBlocks = ram.badBlocks := (congrArg Shape.badBlocks h.shape_eq).symm
  rw [hblocks] at hbad
  dsimp only at hrange hbad hmove
  simp only [submit, hrange, hbad, sound, shallow, execute, hmove, Bool.not_true,
    Bool.or_self, Bool.false_eq_true, if_false]

/-! ## Turns -/

/-- What a device does at a time, together with the log: it refuses a transfer, takes one into the
queue, carries one out before it answers, or carries out the oldest of the queue. -/
inductive Turn (guests : Session → Prop) : Recorded Ram × Arena → Recorded Ram × Arena → Prop
  | refuse {r : Recorded Ram} {arena : Arena} {s : Session} {t : Transfer} {request : Request}
      {outcome : Outcome} (waiters : List Nat) (hs : guests s)
      (may : s.MayAsk ⟨t, request, outcome⟩)
      (refused : outcome ≠ .dispatched)
      (why : outcome = .ioError ↔ s.touchesBad r.driver.badBlocks request.packet = true) :
      Turn guests (r, arena) (⟨{ r.driver with waiters := waiters },
        r.exchanges ++ [⟨t, request, outcome⟩], r.notices⟩, arena)
  | queue {r : Recorded Ram} {arena : Arena} {s : Session} {t : Transfer} {request : Request}
      (accepted : List Transfer) (hs : guests s) (may : s.MayAsk ⟨t, request, .dispatched⟩)
      (sound : s.touchesBad r.driver.badBlocks request.packet = false)
      (deep : r.driver.queueDepth ≠ none) :
      Turn guests (r, arena)
        (⟨{ r.driver with queue := r.driver.queue ++ [⟨t, request⟩], accepted := accepted },
          r.exchanges ++ [⟨t, request, .dispatched⟩], r.notices⟩, arena)
  | atOnce {r : Recorded Ram} {arena : Arena} {s : Session} {t : Transfer} {request : Request}
      (accepted : List Transfer) (hs : guests s) (may : s.MayAsk ⟨t, request, .dispatched⟩)
      (sound : s.touchesBad r.driver.badBlocks request.packet = false)
      (shallow : r.driver.queueDepth = none) :
      Turn guests (r, arena)
        (⟨{ r.driver with
            contents := (s.moved r.driver.contents arena request.packet).1, accepted := accepted },
          r.exchanges ++ [⟨t, request, .dispatched⟩], r.notices ++ [.completed request true]⟩,
          (s.moved r.driver.contents arena request.packet).2)
  | next {r : Recorded Ram} {arena : Arena} {s : Session} {job : Job} {rest : List Job}
      (oldest : r.driver.queue = job :: rest) (hs : guests s)
      (may : s.MayAsk ⟨job.transfer, job.request, .dispatched⟩) :
      Turn guests (r, arena)
        (⟨{ r.driver with
            contents := (s.moved r.driver.contents arena job.request.packet).1
            queue := rest
            waiters := [] },
          r.exchanges,
          r.notices ++ .completed job.request true :: r.driver.waiters.map .ready⟩,
          (s.moved r.driver.contents arena job.request.packet).2)

/-- A chain of turns. -/
def Turns (guests : Session → Prop) : Recorded Ram × Arena → Recorded Ram × Arena → Prop :=
  Relation.ReflTransGen (Turn guests)

/-- A packet moves bytes, and the device stays one that houses the guests. -/
theorem Houses.moved (h : Houses shape guests ram arena) (s : Session) (packet : Packet)
    {rest : List Job} (hrest : ∀ job ∈ rest, job ∈ ram.queue)
    (accepted : List Transfer) (waiters : List Nat) :
    Houses shape guests
      { ram with
        contents := (s.moved ram.contents arena packet).1
        queue := rest
        accepted := accepted
        waiters := waiters }
      (s.moved ram.contents arena packet).2 := by
  have hsizes := (s.filled_moved ram.contents arena packet).sizes
  refine ⟨?_, h.below, h.apart, h.size_pos, ?_, h.guest, h.buffer, ?_, ?_⟩
  · -- of the shape only the size could have changed
    rw [← h.shape_eq]
    show Shape.mk (s.moved ram.contents arena packet).1.size _ _ _ _ = ram.shape
    rw [s.size_moved]
    rfl
  · rw [hsizes]
    exact h.backed
  · exact fun job hjob => h.waiting job (hrest job hjob)
  · intro hdepth
    refine List.eq_nil_iff_forall_not_mem.2 fun job hjob => ?_
    have hold := hrest job hjob
    rw [h.idle hdepth] at hold
    simp at hold

/-- Sessions stay housed. -/
theorem Houses.turn {r r' : Recorded Ram} {arena arena' : Arena}
    (h : Houses shape guests r.driver arena) (turn : Turn guests (r, arena) (r', arena')) :
    Houses shape guests r'.driver arena' := by
  cases turn with
  | refuse waiters => exact { h with }
  | @queue _ _ s t request accepted hs may sound deep =>
    refine { h with waiting := ?_, idle := ?_ }
    · intro job hjob
      rcases List.mem_append.1 hjob with hold | hnew
      · exact h.waiting job hold
      · obtain rfl := List.mem_singleton.1 hnew
        exact ⟨s, hs, may⟩
    · -- a device without a queue never takes this turn
      intro hdepth
      exact absurd ((congrArg Shape.queueDepth h.shape_eq).trans hdepth) deep
  | atOnce accepted hs may sound shallow => exact h.moved _ _ (fun _ => id) _ _
  | next oldest hs may =>
    refine h.moved _ _ (fun job hjob => ?_) _ _
    rw [oldest]
    exact List.mem_cons_of_mem _ hjob

theorem Houses.turns {x y : Recorded Ram × Arena} (h : Houses shape guests x.1.driver x.2)
    (turns : Turns guests x y) : Houses shape guests y.1.driver y.2 := by
  induction turns with
  | refl => exact h
  | tail _ last ih => exact ih.turn last

/-! ## What comes to turns -/

/-- A guest's question to the device is a turn. -/
theorem Houses.submit_turn {r : Recorded Ram} (h : Houses shape guests r.driver arena)
    (hs : guests s) {t : Transfer} {request : Request}
    (may : ∀ outcome, s.MayAsk ⟨t, request, outcome⟩) :
    Turn guests (r, arena)
      ((r.submit arena t request).driver, (r.submit arena t request).arena) := by
  have hrange := (h.guest s hs).inRange_eq h.shape_eq (may .dispatched)
  have hbad := isBad_eq h.shape_eq (may .dispatched)
  have hblocks : shape.badBlocks = r.driver.badBlocks :=
    (congrArg Shape.badBlocks h.shape_eq).symm
  rw [hblocks] at hbad
  dsimp only at hrange hbad
  have hanswer := r.driver.answers arena t request
  have hreply : Driver.submit r.driver arena t request = r.driver.submit arena t request := rfl
  rw [Recorded.submit, hreply]
  generalize r.driver.submit arena t request = reply at hanswer ⊢
  cases hanswer with
  | refused unsound =>
    -- a guest's transfer stays on the device, so it touches bad blocks
    rw [hrange, hbad] at unsound
    rw [List.append_nil]
    exact .refuse r.driver.waiters hs (may .ioError) (by simp) (by simpa using unsound)
  | congested _ good =>
    rw [hbad] at good
    rw [List.append_nil]
    exact .refuse _ hs (may .congested) (by simp) (by simp [good])
  | queued _ good deep =>
    rw [List.append_nil]
    exact .queue _ hs (may .dispatched) (hbad.symm.trans good) (by simp [deep])
  | atOnce _ good shallow moved =>
    obtain ⟨rfl, rfl, rfl⟩ := (h.move_eq hs (may .dispatched)).symm.trans moved
    exact .atOnce _ hs (may .dispatched) (hbad.symm.trans good) shallow

/-- Carrying out the oldest of the queue is a turn. -/
theorem Houses.completion_turn {r : Recorded Ram} (h : Houses shape guests r.driver arena)
    {ram : Ram} {arena' : Arena} {notices : List Notice}
    (done : r.driver.Completion arena ram arena' notices) :
    Turn guests (r, arena) (⟨ram, r.exchanges, r.notices ++ notices⟩, arena') := by
  obtain ⟨oldest, moved⟩ := done
  obtain ⟨s, hs, may⟩ := h.waiting _ (by rw [oldest]; exact List.mem_cons_self)
  obtain ⟨rfl, rfl, rfl⟩ := (h.move_eq hs may).symm.trans moved
  exact .next oldest hs may

theorem Houses.completions_turns {r : Recorded Ram} (h : Houses shape guests r.driver arena)
    {ram : Ram} {arena' : Arena} {notices : List Notice}
    (done : Completions r.driver arena ram arena' notices) :
    Turns guests (r, arena) (⟨ram, r.exchanges, r.notices ++ notices⟩, arena') := by
  -- the device houses the guests after each transfer, so the next one can be carried out too
  generalize hdriver : r.driver = before at done
  induction done generalizing r with
  | none =>
    rw [List.append_nil, ← hdriver]
    exact .refl
  | next first _ ih =>
    subst hdriver
    have hturn := h.completion_turn (completion first)
    have hrest := ih (h.turn hturn) rfl
    rw [List.append_assoc] at hrest
    exact hrest.head hturn

/-- A step of the device comes to turns, unless someone changes its bytes. -/
theorem Houses.advance_turns {r : Recorded Ram} (h : Houses shape guests r.driver arena)
    {step : DeviceStep} (hstep : ∀ pos bytes, step ≠ .poke pos bytes) :
    Turns guests (r, arena)
      ((r.advance arena step).driver, (r.advance arena step).arena) := by
  have hadvance := r.driver.advances arena step
  have hprogress : Device.advance r.driver arena step = r.driver.advance arena step := rfl
  rw [Recorded.advance, hprogress]
  generalize r.driver.advance arena step = progress at hadvance ⊢
  cases hadvance with
  | poked poke => exact absurd poke (hstep _ _)
  | completed _ all => exact h.completions_turns all

/-! ## Handing out buffers -/

theorem le_pages (size : Nat) : size ≤ pages size := by
  unfold pages pageSize
  omega

theorem allocate_eq_some {ram ram' : Ram} {arena arena' : Arena} {size : Nat}
    {buffer : SharedBuffer} (h : ram.allocate arena size = some (ram', arena', buffer)) :
    1 ≤ size ∧ buffer = ⟨arena.memories.length, ram.nextBase, size⟩ ∧
      ram' = { ram with
        nextBase := ram.nextBase + pages size
        buffers := ram.buffers ++ [buffer] } ∧
      arena' = ⟨arena.memories ++ [Memory.zeroed size]⟩ := by
  obtain ⟨⟨arena₁, buffer₁⟩, hmap, hfound⟩ := Option.map_eq_some_iff.1 h
  simp only [Prod.mk.injEq] at hfound
  obtain ⟨rfl, rfl, rfl⟩ := hfound
  obtain ⟨hsize, hbuffer, harena⟩ := Arena.map_eq_some hmap
  exact ⟨hsize, hbuffer, rfl, harena⟩

/-- A new memory leaves the others where they are. -/
theorem sizes_grow {arena : Arena} {i size : Nat} (memory : Memory)
    (h : arena.sizes[i]? = some size) :
    (⟨arena.memories ++ [memory]⟩ : Arena).sizes[i]? = some size := by
  have hlt := (List.getElem?_eq_some_iff.1 h).1
  rw [Arena.sizes, List.map_append]
  exact (List.getElem?_append_left hlt).trans h

/-- The buffer handed out next lies behind all others. -/
theorem Houses.allocate (h : Houses shape guests ram arena) {ram' : Ram} {arena' : Arena}
    {size : Nat} {buffer : SharedBuffer}
    (hnew : ram.allocate arena size = some (ram', arena', buffer)) :
    Houses shape guests ram' arena' := by
  obtain ⟨hsize, hbuffer, rfl, rfl⟩ := allocate_eq_some hnew
  have hstop : buffer.stop = ram.nextBase + size := by rw [hbuffer]; rfl
  have hpages := le_pages size
  -- the new buffer starts where all others have ended, and has the memory just added
  refine ⟨h.shape_eq, ?_, ?_, ?_, ?_, h.guest, ?_, h.waiting, h.idle⟩
  · intro other hother
    show other.stop ≤ ram.nextBase + pages size
    rcases List.mem_append.1 hother with hold | hlast
    · have := h.below other hold
      omega
    · rw [List.mem_singleton.1 hlast, hstop]
      omega
  · refine List.pairwise_append.2 ⟨h.apart, List.pairwise_singleton _ _, ?_⟩
    intro first hfirst later hlater
    rw [List.mem_singleton.1 hlater, hbuffer]
    exact h.below first hfirst
  · intro other hother
    rcases List.mem_append.1 hother with hold | hlast
    · exact h.size_pos other hold
    · rw [List.mem_singleton.1 hlast, hbuffer]
      exact hsize
  · intro other hother
    rcases List.mem_append.1 hother with hold | hlast
    · exact sizes_grow _ (h.backed other hold)
    · rw [List.mem_singleton.1 hlast, hbuffer]
      exact arena.sizes_new _
  · exact fun s hs => List.mem_append_left _ (h.buffer s hs)

/-- A buffer that is handed out and taken back again leaves the others. -/
theorem Houses.release (h : Houses shape guests ram arena) {ram' : Ram} {arena' : Arena}
    {size : Nat} {buffer : SharedBuffer}
    (hnew : ram.allocate arena size = some (ram', arena', buffer)) :
    Houses shape guests (ram'.release buffer) arena' := by
  have hafter := h.allocate hnew
  obtain ⟨hsize, hbuffer, rfl, rfl⟩ := allocate_eq_some hnew
  have hsub : ∀ other, other ∈ (ram.buffers ++ [buffer]).filter (·.base != buffer.base) →
      other ∈ ram.buffers ++ [buffer] := fun other hother => (List.mem_filter.1 hother).1
  refine ⟨hafter.shape_eq, fun other hother => hafter.below other (hsub other hother),
    hafter.apart.filter _, fun other hother => hafter.size_pos other (hsub other hother),
    fun other hother => hafter.backed other (hsub other hother), hafter.guest, ?_, hafter.waiting,
    hafter.idle⟩
  intro s hs
  have hold := h.buffer s hs
  have hstop := h.below _ hold
  have hpos := h.size_pos _ hold
  -- buffers are taken back by their first address, which no guest shares with the new one
  have hbase : s.channel.buffer.base ≠ buffer.base := by
    rw [hbuffer]
    unfold SharedBuffer.stop at hstop
    dsimp only
    omega
  exact List.mem_filter.2 ⟨List.mem_append_left _ hold, by simpa using hbase⟩

/-- A session with a buffer of the device becomes a guest. -/
theorem Houses.welcome (h : Houses shape guests ram arena) {new : Session}
    (hguest : Guest shape new) (hbuffer : new.channel.buffer ∈ ram.buffers) :
    Houses shape (fun s => guests s ∨ s.terms = new.terms) ram arena := by
  refine { h with guest := ?_, buffer := ?_, waiting := ?_ }
  · intro s hs
    rcases hs with hs | hterms
    · exact h.guest s hs
    · exact hguest.congr hterms
  · intro s hs
    rcases hs with hs | hterms
    · exact h.buffer s hs
    · rw [show s.channel.buffer = new.channel.buffer from
        congrArg Session.Terms.buffer hterms]
      exact hbuffer
  · -- the newcomer has asked for nothing yet
    intro job hjob
    obtain ⟨s, hs, may⟩ := h.waiting job hjob
    exact ⟨s, .inl hs, may⟩

end Ram

/-! ## The work of sessions -/

namespace Session

variable {shape : Ram.Shape} {guests : Session → Prop} {s s' : Session}
  {b b' : Backend (Recorded Ram)}

/-- What a guest does makes the device take turns. -/
theorem Acts.turns (h : Ram.Houses shape guests b.driver.driver b.arena) (hs : guests s)
    (acts : s.Acts b s' b') : Ram.Turns guests (b.driver, b.arena) (b'.driver, b'.arena) := by
  refine acts.backend (P := fun c => Ram.Turns guests (b.driver, b.arena) (c.driver, c.arena))
    (fun _ _ hc => hc) (fun hc => hc) ?_ .refl
  intro c t packet may hturns
  -- sessions are still housed, which is what makes the next question a turn
  have hturn := (h.turns hturns).submit_turn hs may
  rw [Backend.driver_submit, Backend.arena_submit]
  exact hturns.tail hturn

end Session

/-! ## Systems -/

theorem Backend.allocate_ram {b b' : Backend (Recorded Ram)} {size : Nat} {buffer : SharedBuffer}
    (h : b.allocate size = some (b', buffer)) :
    b.driver.driver.allocate b.arena size = some (b'.driver.driver, b'.arena, buffer) ∧
      b'.driver.exchanges = b.driver.exchanges ∧ b'.driver.notices = b.driver.notices := by
  obtain ⟨⟨d, arena, buffer'⟩, hfound, heq⟩ := Option.map_eq_some_iff.1 h
  obtain ⟨⟨ram, rest⟩, hinner, hd⟩ := Option.map_eq_some_iff.1 hfound
  simp only [Prod.mk.injEq] at heq hd
  obtain ⟨rfl, rfl⟩ := hd
  obtain ⟨rfl, rfl⟩ := heq
  exact ⟨hinner, rfl, rfl⟩

/-- An opened session is a guest of the device. -/
theorem Ram.Guest.of_admission {shape : Shape} {mux : Multiplexer (Recorded Ram)}
    {args : Arguments} (hbefore : mux.backend.driver.driver.shape = shape)
    (a : Multiplexer.Admission mux args) (hafter : a.backend.driver.driver.shape = shape)
    (hbound : shape.size ≤ maxWord) : Guest shape a.session := by
  obtain ⟨rule, request, -, -, hgrant⟩ := Grant.resolve_eq_ok a.grant_eq
  obtain ⟨-, hoffset, hstop, -, -⟩ := WindowRequest.grant_eq_ok hgrant
  have hcount : Driver.blockCount mux.backend.driver = shape.size / shape.blockSize := by
    rw [← hbefore]
    rfl
  -- a window was granted, so there are blocks, and they hold bytes
  rw [hcount] at hoffset hstop
  refine ⟨congrArg Shape.blockSize hafter, ?_, congrArg Shape.usesAddresses hafter, rfl, ?_,
    hbound⟩
  · -- the block count is a quotient by the block size, and dividing by zero leaves no blocks
    rcases Nat.eq_zero_or_pos shape.blockSize with hzero | hpos
    · rw [hzero, Nat.div_zero] at hoffset
      omega
    · exact hpos
  · exact Nat.le_trans (Nat.mul_le_mul_right _ hstop) (Nat.div_mul_le_self _ _)

namespace System

/-- The open sessions, as far as their terms go. -/
def guests (sys : System (Recorded Ram)) (s : Session) : Prop :=
  ∃ seat t, sys.session? seat = some t ∧ s.terms = t.terms

/-- The device of a system houses the sessions, all of which are open, each with a memory of its
own. -/
structure Housing (shape : Ram.Shape) (sys : System (Recorded Ram)) : Prop where
  houses : Ram.Houses shape sys.guests sys.mux.backend.driver.driver sys.mux.backend.arena
  apart : ∀ {i j s t}, sys.session? i = some s → sys.session? j = some t → i ≠ j →
    s.channel.buffer.memory ≠ t.channel.buffer.memory
  seated : ∀ client ∈ sys.seats, ∃ s, client = .active s

variable {shape : Ram.Shape} {sys sys' : System (Recorded Ram)} {step : Step} {answer : Answer}

theorem guests_congr {s t : Session} (hterms : s.terms = t.terms) (ht : sys.guests t) :
    sys.guests s := by
  obtain ⟨seat, u, hu, hsame⟩ := ht
  exact ⟨seat, u, hu, hterms.trans hsame⟩

/-- Where no session comes or goes, the guests stay. -/
theorem guests_transition (h : sys.Transition step sys' answer)
    (hopen : ∀ text changes, step ≠ .openSession text changes)
    (hclose : ∀ seat, step ≠ .closeSession seat) : sys'.guests = sys.guests := by
  funext s
  refine propext ⟨?_, ?_⟩
  · rintro ⟨seat, t, ht, hterms⟩
    rcases h.terms_before ht with ⟨u, hu, hsame⟩ | ⟨text, changes, -, -, hstep, -⟩
    · exact ⟨seat, u, hu, hterms.trans hsame⟩
    · exact absurd hstep (hopen text changes)
  · rintro ⟨seat, t, ht, hterms⟩
    obtain ⟨u, hu, hsame⟩ := h.terms_after (hclose seat) ht
    exact ⟨seat, u, hu, hterms.trans hsame.symm⟩

theorem apart_transition (h : sys.Transition step sys' answer) (hhousing : Housing shape sys)
    (hopen : ∀ text changes, step ≠ .openSession text changes) {i j : Nat} {s t : Session}
    (hs : sys'.session? i = some s) (ht : sys'.session? j = some t) (hij : i ≠ j) :
    s.channel.buffer.memory ≠ t.channel.buffer.memory := by
  rcases h.terms_before hs with ⟨s₀, hs₀, hsame⟩ | ⟨text, changes, -, -, hstep, -⟩
  · rcases h.terms_before ht with ⟨t₀, ht₀, hsame'⟩ | ⟨text, changes, -, -, hstep, -⟩
    · rw [show s.channel.buffer = s₀.channel.buffer from congrArg Session.Terms.buffer hsame,
        show t.channel.buffer = t₀.channel.buffer from congrArg Session.Terms.buffer hsame']
      exact hhousing.apart hs₀ ht₀ hij
    · exact absurd hstep (hopen text changes)
  · exact absurd hstep (hopen text changes)

theorem guests_opened {args : Arguments} (a : Multiplexer.Admission sys.mux args) :
    guests ⟨a.after, sys.seats ++ [.active a.session]⟩ =
      fun s => sys.guests s ∨ s.terms = a.session.terms := by
  funext s
  refine propext ⟨?_, ?_⟩
  · rintro ⟨seat, t, ht, hterms⟩
    rcases session?_append ht with ⟨-, rfl⟩ | hold
    · exact .inr hterms
    · exact .inl ⟨seat, t, hold, hterms⟩
  · rintro (⟨seat, t, ht, hterms⟩ | hterms)
    · refine ⟨seat, t, ?_, hterms⟩
      have hlt : seat < sys.seats.length := (List.getElem?_eq_some_iff.1 (seat_of_session? ht)).1
      rw [session?, List.getElem?_append_left hlt]
      exact ht
    · refine ⟨sys.seats.length, a.session, ?_, hterms⟩
      rw [session?, List.getElem?_concat_length]
      rfl

theorem Housing.opened (hhousing : Housing shape sys) (hbound : shape.size ≤ maxWord)
    {args : Arguments} (a : Multiplexer.Admission sys.mux args) :
    Housing shape ⟨a.after, sys.seats ++ [.active a.session]⟩ := by
  obtain ⟨hallocate, -, -⟩ := Backend.allocate_ram a.backend_eq
  have hafter := hhousing.houses.allocate hallocate
  obtain ⟨-, hbuffer, hram, -⟩ := Ram.allocate_eq_some hallocate
  have hchannel : a.session.channel.buffer = a.buffer := congrArg Channel.buffer a.channel_new.1
  have hguest := Ram.Guest.of_admission hhousing.houses.shape_eq a hafter.shape_eq hbound
  have hmem : a.session.channel.buffer ∈ a.backend.driver.driver.buffers := by
    rw [hchannel, hram]
    exact List.mem_append_right _ (List.mem_singleton_self _)
  -- the new memory lies behind the memories of all open sessions
  have hbehind : ∀ {seat t}, sys.session? seat = some t →
      t.channel.buffer.memory < a.session.channel.buffer.memory := by
    intro seat t ht
    have hbacked := hhousing.houses.backed _ (hhousing.houses.buffer t ⟨seat, t, ht, rfl⟩)
    have hlt := (List.getElem?_eq_some_iff.1 hbacked).1
    rw [Arena.sizes, List.length_map] at hlt
    rw [hchannel, hbuffer]
    exact hlt
  refine ⟨?_, ?_, ?_⟩
  · rw [guests_opened]
    exact hafter.welcome hguest hmem
  · intro i j t t' hi hj hij
    rcases session?_append hi with ⟨hi', rfl⟩ | hi'
    · rcases session?_append hj with ⟨hj', rfl⟩ | hj'
      · exact absurd (hi'.trans hj'.symm) hij
      · exact Ne.symm (Nat.ne_of_lt (hbehind hj'))
    · rcases session?_append hj with ⟨hj', rfl⟩ | hj'
      · exact Nat.ne_of_lt (hbehind hi')
      · exact hhousing.apart hi' hj' hij
  · intro client hclient
    rcases List.mem_append.1 hclient with hold | hnew
    · exact hhousing.seated client hold
    · exact ⟨a.session, List.mem_singleton.1 hnew⟩

/-- Every step but closing keeps the sessions housed. -/
theorem Housing.transition (h : sys.Transition step sys' answer) (hhousing : Housing shape sys)
    (hbound : shape.size ≤ maxWord) (hclose : ∀ seat, step ≠ .closeSession seat) :
    Housing shape sys' := by
  have hstep := h
  cases h with
  | unchanged => exact hhousing
  | refused left =>
    cases left with
    | early roster => exact ⟨hhousing.houses, hhousing.apart, hhousing.seated⟩
    | late roster backend_eq =>
      obtain ⟨hallocate, -, -⟩ := Backend.allocate_ram backend_eq
      exact ⟨hhousing.houses.release hallocate, hhousing.apart, hhousing.seated⟩
  | opened parsed a => exact hhousing.opened hbound a
  | @closed seat => exact absurd rfl (hclose seat)
  | @client seat step client hc =>
    have hguests := guests_transition hstep (by simp) (by simp)
    refine ⟨?_, fun hi hj => apart_transition hstep hhousing (by simp) hi hj, ?_⟩
    · rw [hguests]
      -- a client writes into buffers, which keep their sizes
      have hsizes := (client.channel.filled_perform sys.mux.backend.arena step).sizes
      refine { hhousing.houses with backed := ?_ }
      intro buffer hbuffer
      exact (congrArg (·[buffer.memory]?) hsizes).trans (hhousing.houses.backed buffer hbuffer)
    · intro other hother
      rcases List.mem_or_eq_of_mem_set hother with hold | rfl
      · exact hhousing.seated other hold
      · obtain ⟨s, rfl⟩ := hhousing.seated client (List.mem_of_getElem? hc)
        exact ⟨_, rfl⟩
  | @acted step seat s s' b _ hseat hs acts quiet =>
    have hopen : ∀ text changes, step ≠ .openSession text changes := by
      rintro text changes rfl
      simp [Step.seat?] at hseat
    have hguests := guests_transition hstep hopen hclose
    refine ⟨?_, fun hi hj => apart_transition hstep hhousing hopen hi hj, ?_⟩
    · rw [hguests]
      exact hhousing.houses.turns (acts.turns hhousing.houses ⟨seat, s, hs, rfl⟩)
    · intro other hother
      rcases List.mem_or_eq_of_mem_set hother with hold | rfl
      · exact hhousing.seated other hold
      · exact ⟨s', rfl⟩
  | device step =>
    refine ⟨?_, hhousing.apart, hhousing.seated⟩
    rw [Backend.driver_advance, Backend.arena_advance]
    -- a poke is no turn, but it changes neither the buffers nor the queue
    by_cases hpoke : ∃ pos bytes, step = .poke pos bytes
    · obtain ⟨pos, bytes, rfl⟩ := hpoke
      exact { hhousing.houses with }
    · have hstep : ∀ pos bytes, step ≠ .poke pos bytes :=
        fun pos bytes heq => hpoke ⟨pos, bytes, heq⟩
      exact hhousing.houses.turns (hhousing.houses.advance_turns hstep)

/-- A fresh device houses its sessions as long as none is closed. -/
theorem Housing.runSteps {ram : Ram} (config : Config) (table : Option PartitionTable)
    (hqueue : ram.queue = []) (hbuffers : ram.buffers = []) (hbound : ram.contents.size ≤ maxWord)
    {steps : List Step} (hclose : ∀ seat, .closeSession seat ∉ steps) :
    Housing ram.shape ((recorded (.create ram config table)).runSteps steps) := by
  induction steps using List.reverseRecOn with
  | nil =>
    refine ⟨⟨rfl, ?_, ?_, ?_, ?_, ?_, ?_, ?_, fun _ => hqueue⟩, ?_, ?_⟩
    all_goals simp [System.runSteps, recorded, System.create, Multiplexer.create, Multiplexer.map,
      Backend.map, guests, session?, hqueue, hbuffers]
  | append_singleton steps step ih =>
    have hearlier : ∀ seat, .closeSession seat ∉ steps :=
      fun seat hmem => hclose seat (List.mem_append_left _ hmem)
    have hlast : ∀ seat, step ≠ .closeSession seat := by
      rintro seat rfl
      exact hclose seat (by simp)
    have ho := (Orderly.create ((Multiplexer.create ram config table).map
      fun driver => (⟨driver, [], []⟩ : Recorded Ram))).runSteps steps
    rw [runSteps_concat]
    exact (ih hearlier).transition (step_transition ho step) hbound hlast

end System
end BlockMux
