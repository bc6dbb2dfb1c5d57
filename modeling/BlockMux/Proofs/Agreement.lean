import BlockMux.Proofs.Placement
import BlockMux.Proofs.Tenancy

/-!
# Devices of three kinds

A device in memory copies between its bytes and a view of the payload, or finds the buffer of a
device address among all that it has handed out; an image reads and writes whole ranges, and checks
them in ways of its own. What sessions ask for, all of them carry out in full and at once, as long
as no queue is kept and no block is bad. So a system goes the same way on all of them: it gives the
same answers, and nothing but the placement of buffers tells the devices apart.

The image of a recorded device stands for the device; every step is shown to lead from a system and
its image to a system and its image.

Main statements:

* `Houses.submit_asImage` — what a guest asks for, the image carries out as well.
* `Session.twins_lockstep` — a session and its twin on the image do everything alike.
* `System.step_asImage`, `System.runSteps_asImage` — so do systems.
* `Outset.devices_agree` — runs on the three kinds of devices agree.
-/

namespace BlockMux

/-! ## Carrying out -/

/-- An image with the bytes of the device, which was flushed some times. -/
def Ram.asImage (flushes : Nat) (ram : Ram) : ImageDevice :=
  ⟨{ contents := ram.contents, flushes := flushes }, ram.blockSize, ram.blockCount⟩

/-- The image of a recorded device. -/
def Recorded.asImage (flushes : Nat) (r : Recorded Ram) : ImageDevice := r.driver.asImage flushes

/-- What a guest asks for, the image carries out as the device in memory does. -/
theorem Ram.Houses.submit_asImage {shape : Shape} {guests : Session → Prop} {ram : Ram}
    {arena : Arena} {s : Session} {packet : Packet} {t : Transfer}
    (h : Houses shape guests ram arena) (hs : guests s) (good : s.accepts packet = true)
    (ht : s.unplaced.transfer? packet = some t) (flushes : Nat) (request : Request) :
    (ram.asImage flushes).submit arena t request =
      ⟨({ ram with contents := (s.moved ram.contents arena packet).1 } : Ram).asImage flushes,
        (s.moved ram.contents arena packet).2, .dispatched, [.completed request true]⟩ := by
  have hguest := h.guest s hs
  obtain ⟨hcount, -, hlarge, -, hfits, -⟩ := Session.bounds_of_accepts good
  have hblock : ram.blockSize = s.blockSize :=
    (congrArg Shape.blockSize h.shape_eq).trans hguest.blockSize.symm
  have hpos : 1 ≤ s.blockSize := hguest.blockSize ▸ hguest.blockSize_pos
  have hstop : (s.grant.offset + packet.block + packet.count) * s.blockSize ≤
      ram.contents.size := by
    rw [hguest.blockSize, show ram.contents.size = shape.size from congrArg Shape.size h.shape_eq]
    exact hguest.stop_le good
  -- the image counts whole blocks and asks for a payload that holds them all
  have hinside : ¬(ram.contents.size / s.blockSize <
      s.grant.offset + packet.block + packet.count ∨ packet.size < packet.count * s.blockSize) := by
    have hblocks := (Nat.le_div_iff_mul_le hpos).2 hstop
    omega
  have hlen : packet.count * s.blockSize ≠ 0 := Nat.ne_of_gt (Nat.mul_pos hcount hpos)
  have hview : s.channel.unplaced.view packet =
      .ok ⟨s.channel.buffer.unplaced, packet.offset, packet.size⟩ := by
    rw [Channel.view_unplaced, Channel.view, if_neg (Nat.not_lt_of_le hfits)]
    rfl
  rw [Session.transfer?_unplaced, hview] at ht
  cases hop : packet.operation with
  | unsupported code => simp [hop, Session.direction?] at ht
  | read =>
    rw [hop] at ht
    obtain rfl := Option.some.inj ht
    have hstore : PayloadView.store ⟨s.channel.buffer.unplaced, packet.offset, packet.size⟩ arena
        (ram.contents.read ((s.grant.offset + packet.block) * s.blockSize)
          (packet.count * s.blockSize)) = _ :=
      store_payload arena good (Memory.length_read ..)
    rw [Nat.add_mul] at hstop
    simp only [asImage, StreamDevice.submit, StreamDevice.transfer, StreamDevice.readIn, Medium.read,
      blockCount, Image.read, Image.touches, hblock, if_neg hinside, if_neg hlen,
      if_neg (Nat.not_lt_of_le hstop), hstore, Option.map_some, Session.moved, hop,
      Bool.false_eq_true, if_false]
  | write =>
    rw [hop] at ht
    obtain rfl := Option.some.inj ht
    have hfetch : PayloadView.fetch ⟨s.channel.buffer.unplaced, packet.offset, packet.size⟩ arena
        (packet.count * s.blockSize) = _ := h.fetch_payload hs good
    simp only [asImage, StreamDevice.submit, StreamDevice.transfer, StreamDevice.writeOut,
      Medium.write, blockCount, Image.write, Image.touches, hblock, if_neg hinside, hfetch,
      Session.moved, hop, Bool.false_eq_true, if_false, Memory.size_write]

/-! ## Sessions on both devices -/

namespace Session

variable {shape : Ram.Shape} {guests : Session → Prop} {flushes : Nat} {s : Session}
  {b : Backend (Recorded Ram)}

theorem collect_unplaced (s : Session) (b : Backend (Recorded Ram)) :
    s.unplaced.collect (b.map (Recorded.asImage flushes)) =
      ((s.collect b).1.unplaced, (s.collect b).2.map (Recorded.asImage flushes)) :=
  Prod.ext (acknowledgeAll_unplaced s _) rfl

/-- A guest of a device in memory, and the session that stands for it on the image. -/
structure Twins (shape : Ram.Shape) (guests : Session → Prop) (flushes : Nat) (s : Session)
    (b : Backend (Recorded Ram)) (t : Session) (c : Backend ImageDevice) : Prop where
  session : t = s.unplaced
  backend : c = b.map (Recorded.asImage flushes)
  houses : Ram.Houses shape guests b.driver.driver b.arena
  guest : guests s
  poised : s.Poised

/-- What a guest asks for is carried out at once on both devices. -/
theorem dispatch_twins (hdepth : shape.queueDepth = none) (hbad : shape.badBlocks = none)
    (hhouses : Ram.Houses shape guests b.driver.driver b.arena) (hs : guests s)
    (hpoised : s.Poised) {packet : Packet} (good : s.accepts packet = true) :
    Twins shape guests flushes (s.dispatch b packet).1 (s.dispatch b packet).2
      (s.unplaced.dispatch (b.map (Recorded.asImage flushes)) packet).1
      (s.unplaced.dispatch (b.map (Recorded.asImage flushes)) packet).2 := by
  obtain ⟨t, ht, hdispatch⟩ := dispatch_of_accepts good b
  obtain ⟨t', ht', hdispatch'⟩ := dispatch_of_accepts (s := s.unplaced) good
    (b.map (Recorded.asImage flushes))
  have hsound : s.touchesBad b.driver.driver.badBlocks packet = false := by
    rw [show b.driver.driver.badBlocks = none from
      (congrArg Ram.Shape.badBlocks hhouses.shape_eq).trans hbad]
    rfl
  have hshallow : b.driver.driver.queueDepth = none :=
    (congrArg Ram.Shape.queueDepth hhouses.shape_eq).trans hdepth
  have may : s.MayAsk ⟨t, ⟨packet, s.mailbox⟩, .dispatched⟩ := ⟨good, ht, rfl⟩
  -- either device sends the completion before it answers
  have hram : Driver.submit b.driver.driver b.arena t ⟨packet, s.mailbox⟩ = _ :=
    hhouses.submit_atOnce hs may hsound hshallow
  have hleft : Driver.submit b.driver b.arena t ⟨packet, s.mailbox⟩ = _ :=
    show b.driver.submit b.arena t ⟨packet, s.mailbox⟩ = _ by rw [Recorded.submit, hram]
  have hright : Driver.submit (b.driver.asImage flushes) b.arena t' ⟨packet, s.mailbox⟩ = _ :=
    hhouses.submit_asImage hs good ht' flushes ⟨packet, s.mailbox⟩
  rw [hdispatch, hdispatch', show s.unplaced.mailbox = s.mailbox from rfl]
  simp only [Backend.submit, Backend.map, hleft, hright]
  refine ⟨rfl, ?_, ?_, hs, hpoised⟩
  · rw [Backend.map_post]
    rfl
  · rw [Backend.driver_post, Backend.arena_post]
    exact hhouses.moved s packet (fun job hjob => hjob) _ _

/-- A guest and its twin do everything alike. -/
theorem twins_lockstep (hdepth : shape.queueDepth = none) (hbad : shape.badBlocks = none)
    (hguests : ∀ {s t : Session}, s.terms = t.terms → guests t → guests s) :
    Lockstep (Twins shape guests flushes) where
  inStep := by
    rintro s b _ _ ⟨rfl, rfl, -, -, -⟩
    exact ⟨rfl, rfl, rfl, rfl, rfl⟩
  signals := by
    rintro s b _ _ ⟨rfl, rfl, -, -, -⟩ event
    rw [map_signals]
    cases event <;> rfl
  collect := by
    rintro s b _ _ ⟨rfl, rfl, hhouses, hs, hpoised⟩
    have hacks := collect_acksOnly s b
    rw [collect_unplaced]
    exact ⟨rfl, rfl, hhouses, hguests hacks.terms hs, hacks.poised hpoised⟩
  gauge := by
    rintro s b _ _ ⟨rfl, rfl, hhouses, hs, hpoised⟩ full
    exact ⟨rfl, rfl, hhouses, hguests (t := s) rfl hs, hpoised.congr rfl rfl rfl⟩
  take := by
    rintro s b _ _ ⟨rfl, rfl, hhouses, hs, hpoised⟩ packet rest
    have hpicked : guests (s.picked rest) := hguests (t := s) rfl hs
    have hsame : s.unplaced.picked rest = (s.picked rest).unplaced := rfl
    -- the checks do not look at the placement, so both take the packet or both reject it
    rw [take_eq, take_eq, hsame, accepts_unplaced]
    split
    · rename_i good
      exact dispatch_twins hdepth hbad hhouses hpicked (hpoised.picked rest) good
    · have hacks := acknowledge_acksOnly (s.picked rest) packet false
      rw [acknowledge_unplaced]
      exact ⟨rfl, rfl, hhouses, hguests hacks.terms hpicked, hacks.poised (hpoised.picked rest)⟩
  retry := by
    rintro s b _ _ packet ⟨rfl, rfl, hhouses, hs, hpoised⟩ hheld
    exact dispatch_twins (s := s.unheld) hdepth hbad hhouses (hguests (t := s) rfl hs)
      (poised_unheld s) (hpoised.accepted packet hheld)
  clear := by
    rintro s b _ _ ⟨rfl, rfl, hhouses, hs, hpoised⟩ event
    rw [map_clear]
    cases event <;> exact ⟨rfl, rfl, hhouses, hguests (t := s) rfl hs, hpoised.congr rfl rfl rfl⟩

end Session

/-! ## Openings on both devices -/

/-- Where the device in memory has a buffer, so has the image, with the same memory behind it. -/
theorem Backend.allocate_asImage {b b' : Backend (Recorded Ram)} {flushes size : Nat}
    {buffer : SharedBuffer} (h : b.allocate size = some (b', buffer)) :
    (b.map (Recorded.asImage flushes)).allocate size =
      some (b'.map (Recorded.asImage flushes), buffer.unplaced) := by
  obtain ⟨hallocate, -, -⟩ := allocate_ram h
  obtain ⟨found, hmap, -⟩ := Option.map_eq_some_iff.1 hallocate
  have hfits := (Arena.map_isSome b.arena b.driver.driver.nextBase size).1 (by rw [hmap]; rfl)
  obtain ⟨-, hbuffer, hram, harena⟩ := Ram.allocate_eq_some hallocate
  -- what fits behind the other buffers fits at address 0
  have hzero : b.arena.mapAtZero size = some (b'.arena, buffer.unplaced) := by
    rw [Arena.mapAtZero, Arena.map, if_neg (by omega), harena, hbuffer]
    rfl
  have hsame : b'.driver.asImage flushes = b.driver.asImage flushes := by
    rw [Recorded.asImage, hram]
    rfl
  have hafter : b'.map (Recorded.asImage flushes) =
      ⟨b.driver.asImage flushes, b'.arena, b.mailboxes⟩ := by
    rw [map, hsame, mailboxes_allocate h]
  show ((b.arena.mapAtZero size).map _).map _ = _
  rw [hzero, hafter]
  rfl

namespace Multiplexer

variable {flushes : Nat}

theorem equip_asImage (mux : Multiplexer (Recorded Ram)) (grant : Grant) (ticket size : Nat)
    (h : (mux.equip grant ticket size).2 ≠ .error .bufferUnavailable) :
    (mux.map (Recorded.asImage flushes)).equip grant ticket size =
      ((mux.equip grant ticket size).1.map (Recorded.asImage flushes),
        (mux.equip grant ticket size).2.map Session.unplaced) := by
  revert h
  unfold equip
  rw [backend_map, config_map]
  cases hallocate : mux.backend.allocate size with
  | none => exact fun h => absurd rfl h
  | some found =>
    obtain ⟨b, buffer⟩ := found
    intro _
    rw [Backend.allocate_asImage hallocate]
    dsimp only
    -- a channel is made, or not, wherever the buffer lies
    rw [Channel.create_unplaced]
    cases Channel.create buffer mux.config.queueSize <;> rfl

theorem openWith_asImage (mux : Multiplexer (Recorded Ram)) (args : Arguments)
    (h : (mux.openWith args).2 ≠ .error .bufferUnavailable) :
    (mux.map (Recorded.asImage flushes)).openWith args =
      ((mux.openWith args).1.map (Recorded.asImage flushes),
        (mux.openWith args).2.map Session.unplaced) := by
  -- all checks before the buffer ask only for the number of blocks, the rules and the roster
  have hcount : Driver.blockCount (mux.map (Recorded.asImage flushes)).backend.driver =
      Driver.blockCount mux.backend.driver := rfl
  revert h
  unfold openWith
  rcases bufferSize args with e | size
  · exact fun _ => rfl
  · simp only [enter]
    rw [hcount, config_map, table_map, roster_map]
    rcases Grant.resolve mux.config args mux.table _ with e | grant
    · exact fun _ => rfl
    · dsimp only
      rcases mux.roster.register grant with e | ⟨roster, ticket⟩
      · exact fun _ => rfl
      · exact equip_asImage { mux with roster := roster } grant ticket size

end Multiplexer

/-! ## Steps on both devices -/

/-- A step that can be taken on devices of all kinds: it asks for no address, and not for what only
a device with a queue or a script does. -/
def Step.isCommon : Step → Bool
  | .client _ (.address _) => false
  | .device (.peek _ _) => true
  | .device (.poke _ _) => true
  | .device _ => false
  | _ => true

/-- Whether an opening failed because the driver had no buffer. -/
def Answer.lacksBuffer : Answer → Bool
  | .notOpened .bufferUnavailable => true
  | _ => false

namespace System

variable {shape : Ram.Shape} {sys : System (Recorded Ram)} {step : Step} {seat flushes : Nat}

/-- The system on the image. -/
def asImage (flushes : Nat) (sys : System (Recorded Ram)) : System ImageDevice :=
  ⟨sys.mux.map (Recorded.asImage flushes), sys.seats.map Seat.unplaced⟩

theorem session?_asImage (sys : System (Recorded Ram)) (flushes seat : Nat) :
    (sys.asImage flushes).session? seat = (sys.session? seat).map Session.unplaced := by
  rw [session?, asImage, List.getElem?_map]
  cases h : sys.seats[seat]? with
  | none => simp [session?, h]
  | some client => simp [session?, h, Seat.session?_unplaced]

theorem withSession_asImage (sys : System (Recorded Ram)) (flushes flushes' seat : Nat)
    (s : Session) (b : Backend (Recorded Ram)) :
    (sys.asImage flushes).withSession seat s.unplaced (b.map (Recorded.asImage flushes')) =
      (sys.withSession seat s b).asImage flushes' := by
  simp only [withSession, asImage, List.map_set]
  rfl

theorem work_asImage (f : Session → Backend (Recorded Ram) → Session × Backend (Recorded Ram))
    (g : Session → Backend ImageDevice → Session × Backend ImageDevice)
    (hwork : ∀ s, sys.session? seat = some s → ∃ flushes',
      g s.unplaced (sys.mux.backend.map (Recorded.asImage flushes)) =
        ((f s sys.mux.backend).1.unplaced,
          (f s sys.mux.backend).2.map (Recorded.asImage flushes'))) :
    ∃ flushes', (sys.asImage flushes).work seat g =
      ((sys.work seat f).1.asImage flushes', (sys.work seat f).2.unplaced) := by
  have hbackend : (sys.asImage flushes).mux.backend =
      sys.mux.backend.map (Recorded.asImage flushes) := rfl
  unfold work
  rw [session?_asImage]
  cases hs : sys.session? seat with
  | none => exact ⟨flushes, rfl⟩
  | some s =>
    obtain ⟨flushes', hsame⟩ := hwork s hs
    refine ⟨flushes', ?_⟩
    simp only [Option.map_some]
    rw [hbackend, hsame, withSession_asImage]
    rfl

theorem openSession_asImage (text : String) (changes : List (String × String))
    (hsupplied : (sys.openSession text changes).2.lacksBuffer = false) :
    (sys.asImage flushes).openSession text changes =
      ((sys.openSession text changes).1.asImage flushes,
        (sys.openSession text changes).2.unplaced) := by
  revert hsupplied
  unfold openSession
  rcases Arguments.parse text with e | args
  · exact fun _ => rfl
  · dsimp only
    generalize List.foldl _ args changes = args
    intro hsupplied
    -- only the device in memory runs out of buffers, and the answer would have told so
    have hfound : (sys.mux.openWith args).2 ≠ .error .bufferUnavailable := by
      intro hlacks
      rcases hopen : sys.mux.openWith args with ⟨mux, result⟩
      rw [hopen] at hlacks hsupplied
      obtain rfl : result = .error .bufferUnavailable := hlacks
      simp [Answer.lacksBuffer] at hsupplied
    rw [show (sys.asImage flushes).mux = sys.mux.map (Recorded.asImage flushes) from rfl,
      Multiplexer.openWith_asImage _ _ hfound]
    rcases sys.mux.openWith args with ⟨mux, e | s⟩
    · rfl
    · simp [asImage, Answer.unplaced, Except.map, Seat.unplaced]

/-- On the image the step does what it does on the device in memory. -/
theorem step_asImage (ho : sys.Orderly) (hdepth : shape.queueDepth = none)
    (hbad : shape.badBlocks = none)
    (hhouses : Ram.Houses shape sys.guests sys.ram sys.mux.backend.arena)
    (hcommon : step.isCommon = true) (hsupplied : (sys.step step).2.lacksBuffer = false)
    (flushes : Nat) :
    ∃ flushes', (sys.asImage flushes).step step =
      ((sys.step step).1.asImage flushes', (sys.step step).2.unplaced) := by
  have hlockstep : Session.Lockstep (Session.Twins shape sys.guests flushes) :=
    Session.twins_lockstep hdepth hbad guests_congr
  -- work that keeps twins together does the same on both seats
  have htogether : ∀ f g (seat : Nat),
      (∀ {s b t c}, Session.Twins shape sys.guests flushes s b t c →
        Session.Twins shape sys.guests flushes (f s b).1 (f s b).2 (g t c).1 (g t c).2) →
      ∃ flushes', (sys.asImage flushes).work seat g =
        ((sys.work seat f).1.asImage flushes', (sys.work seat f).2.unplaced) := by
    intro f g seat hkeep
    refine work_asImage f g fun s hs => ⟨flushes, ?_⟩
    have hafter := hkeep ⟨rfl, rfl, hhouses, ⟨seat, s, hs, rfl⟩, ho.poised hs⟩
    exact Prod.ext hafter.session hafter.backend
  cases step with
  | openSession text changes => exact ⟨flushes, openSession_asImage text changes hsupplied⟩
  | closeSession seat =>
    refine ⟨flushes, ?_⟩
    simp only [System.step, closeSession]
    rw [session?_asImage]
    cases sys.session? seat with
    | none => rfl
    | some s =>
      simp only [asImage, Option.map_some, List.map_set]
      rfl
  | client seat step =>
    have hstep : ∀ packet, step ≠ .address packet := by
      rintro packet rfl
      simp [Step.isCommon] at hcommon
    refine ⟨flushes, ?_⟩
    simp only [System.step, clientStep]
    rw [show (sys.asImage flushes).seats = sys.seats.map Seat.unplaced from rfl,
      List.getElem?_map]
    cases sys.seats[seat]? with
    | none => rfl
    | some client =>
      simp only [Option.map_some, Seat.channel_unplaced, asImage, Multiplexer.map, Backend.map,
        Channel.perform_unplaced _ _ hstep, Seat.withChannel_unplaced, List.map_set]
      rfl
  | process seat event =>
    exact htogether (fun s b => s.process b event) (fun s b => s.process b event) seat
      fun h => hlockstep.process h event
  | handle seat event =>
    exact htogether (fun s b => s.handle b event) (fun s b => s.handle b event) seat
      fun h => hlockstep.handle h event
  | run seat =>
    exact htogether (fun s b => s.run b) (fun s b => s.run b) seat fun h => hlockstep.run h
  | readCompletionEvent seat =>
    refine ⟨flushes, ?_⟩
    simp only [System.step, readCompletionEvent]
    rw [session?_asImage]
    cases sys.session? seat with
    | none => rfl
    | some s =>
      simp only [asImage, Option.map_some, withSession, List.map_set]
      rfl
  | sync seat =>
    -- only an image counts how often it is flushed
    exact work_asImage (fun s b => (s, b.sync)) (fun s b => (s, b.sync)) fun s hs =>
      ⟨flushes + 1, rfl⟩
  | device step =>
    refine ⟨flushes, ?_⟩
    cases step with
    | peek pos len => rfl
    | poke pos bytes => rfl
    | _ => simp [Step.isCommon] at hcommon

/-! ## Runs on both devices -/

section

variable {δ : Type} [Device δ]

/-- In a run, every opening that comes so far finds a buffer. -/
def Supplied (sys : System δ) (steps : List Step) : Prop :=
  ∀ answered ∈ sys.transcript steps, answered.2.lacksBuffer = false

instance (sys : System δ) (steps : List Step) : Decidable (Supplied sys steps) :=
  inferInstanceAs (Decidable (∀ answered ∈ sys.transcript steps, answered.2.lacksBuffer = false))

/-- The answers of a run, without the placement of buffers. -/
def answers (sys : System δ) (steps : List Step) : List Answer :=
  (sys.transcript steps).map fun answered => answered.2.unplaced

theorem Supplied.init {sys : System δ} {steps later : List Step}
    (h : Supplied sys (steps ++ later)) : Supplied sys steps := by
  intro answered hanswered
  refine h answered ?_
  rw [transcript_append]
  exact List.mem_append_left _ hanswered

theorem answers_concat (sys : System δ) (steps : List Step) (step : Step) :
    sys.answers (steps ++ [step]) =
      sys.answers steps ++ [((sys.runSteps steps).step step).2.unplaced] := by
  simp only [answers, transcript_concat, List.map_append, List.map_cons, List.map_nil]

end

/-- A device in memory and an image with the same bytes go through a run alike, if no queue keeps
transfers waiting and every block can be transferred. -/
theorem runSteps_asImage {ram : Ram} (hdepth : ram.queueDepth = none) (hbad : ram.badBlocks = none)
    (hqueue : ram.queue = []) (hbuffers : ram.buffers = []) (hbound : ram.contents.size ≤ maxWord)
    (config : Config) (table : Option PartitionTable) {steps : List Step}
    (hcommon : ∀ step ∈ steps, step.isCommon = true)
    (hsupplied : Supplied (create (.create ram config table)) steps) :
    ∃ flushes, (create (.create (ram.asImage 0) config table)).runSteps steps =
        ((recorded (.create ram config table)).runSteps steps).asImage flushes ∧
      (create (.create (ram.asImage 0) config table)).answers steps =
        (create (.create ram config table)).answers steps := by
  -- on the run; at each step the device houses the sessions that are open then
  induction steps using List.reverseRecOn with
  | nil => exact ⟨0, rfl, rfl⟩
  | append_singleton steps step ih =>
    let c : Course Ram := ⟨ram, config, table, steps⟩
    have hlast : (c.final.step step).2.lacksBuffer = false := by
      refine hsupplied (step, (c.final.step step).2) ?_
      rw [← recorded_transcript, transcript_concat]
      exact List.mem_append_right _ (List.mem_singleton_self _)
    obtain ⟨flushes, hfinal, hanswers⟩ :=
      ih (fun earlier hearlier => hcommon earlier (List.mem_append_left _ hearlier)) hsupplied.init
    obtain ⟨flushes', hstep⟩ := step_asImage c.orderly hdepth hbad
      (c.houses hdepth hqueue hbuffers hbound) (hcommon step (by simp)) hlast flushes
    have hsame : (create (.create (ram.asImage 0) config table)).runSteps steps =
        c.final.asImage flushes := hfinal
    refine ⟨flushes', ?_, ?_⟩
    · rw [runSteps_concat, runSteps_concat, hsame, hstep]
      rfl
    · rw [answers_concat, answers_concat, hanswers, hsame, hstep, Answer.unplaced_unplaced,
        ← recorded_runSteps, map_step Recorded.hom]
      rfl

/-! ## What can be seen -/

/-- What clients and sessions can see of a system, and the bytes of its device. -/
structure Sight where
  seats : List Seat
  mailboxes : List Mailbox
  roster : Roster
  arena : Arena
  contents : Memory

/-- The sight of a system, without the placement of buffers. -/
def sight {δ : Type} (contents : δ → Memory) (sys : System δ) : Sight :=
  ⟨sys.seats.map Seat.unplaced, sys.mux.backend.mailboxes, sys.mux.roster, sys.mux.backend.arena,
    contents sys.mux.backend.driver⟩

/-- Two systems, whose devices keep their bytes in ways of their own, give the same answers in a
run, and after every step of it the same can be seen of them. -/
structure Agree {δ ε : Type} [Device δ] [Device ε] (contents : δ → Memory) (contents' : ε → Memory)
    (sys : System δ) (sys' : System ε) (steps : List Step) : Prop where
  answers : sys'.answers steps = sys.answers steps
  sight : ∀ earlier, earlier <+: steps →
    sight contents' (sys'.runSteps earlier) = sight contents (sys.runSteps earlier)

theorem sight_asImage (sys : System (Recorded Ram)) (flushes : Nat) :
    sight (fun device : ImageDevice => device.medium.contents) (sys.asImage flushes) =
      sight Ram.contents (sys.map Recorded.driver) := by
  have hseats : (sys.asImage flushes).seats.map Seat.unplaced = sys.seats.map Seat.unplaced := by
    rw [asImage, List.map_map]
    exact List.map_congr_left fun client _ => client.unplaced_unplaced
  rw [sight, hseats]
  rfl

end System

/-- The bytes, rules and partitions that systems on devices of several kinds start with. -/
structure Outset where
  contents : Memory
  blockSize : Nat
  config : Config
  table : Option PartitionTable := none

namespace Outset

open BlockMux.System

/-- The system on a device in memory, which is handed addresses or views. -/
def onRam (o : Outset) (usesAddresses : Bool) : System Ram :=
  .create (.create
    { contents := o.contents, blockSize := o.blockSize, usesAddresses := usesAddresses }
    o.config o.table)

/-- The system on an image. -/
def onImage (o : Outset) : System ImageDevice :=
  .create (.create ⟨{ contents := o.contents }, o.blockSize, o.contents.size / o.blockSize⟩ o.config
    o.table)

theorem agree_onImage (o : Outset) (hbound : o.contents.size ≤ maxWord) (usesAddresses : Bool)
    {steps : List Step} (hcommon : ∀ step ∈ steps, step.isCommon = true)
    (hsupplied : Supplied (o.onRam usesAddresses) steps) :
    Agree Ram.contents (·.medium.contents) (o.onRam usesAddresses) o.onImage steps := by
  -- the part of the run up to any step is a run that both go through alike
  have halike : ∀ earlier, earlier <+: steps →
      o.onImage.answers earlier = (o.onRam usesAddresses).answers earlier ∧
        sight (fun device : ImageDevice => device.medium.contents) (o.onImage.runSteps earlier) =
          sight Ram.contents ((o.onRam usesAddresses).runSteps earlier) := by
    rintro earlier ⟨later, rfl⟩
    have hfirst : ∀ step ∈ earlier, step.isCommon = true :=
      fun step hstep => hcommon step (List.mem_append_left _ hstep)
    obtain ⟨flushes, hfinal, hanswers⟩ :=
      runSteps_asImage rfl rfl rfl rfl hbound o.config o.table hfirst hsupplied.init
    refine ⟨hanswers, ?_⟩
    rw [show o.onImage.runSteps earlier = _ from hfinal, sight_asImage, recorded_runSteps]
    rfl
  exact ⟨(halike steps (List.prefix_refl steps)).1,
    fun earlier hearlier => (halike earlier hearlier).2⟩

/-- Devices of three kinds with the same bytes cannot be told apart by what clients and sessions do,
as long as there are buffers: a device in memory that is handed views, one that is handed addresses,
and an image. -/
theorem devices_agree (o : Outset) (hbound : o.contents.size ≤ maxWord) {steps : List Step}
    (hcommon : ∀ step ∈ steps, step.isCommon = true) (hview : Supplied (o.onRam false) steps)
    (haddress : Supplied (o.onRam true) steps) :
    Agree Ram.contents Ram.contents (o.onRam false) (o.onRam true) steps ∧
      Agree Ram.contents (·.medium.contents) (o.onRam false) o.onImage steps := by
  have h := o.agree_onImage hbound false hcommon hview
  have h' := o.agree_onImage hbound true hcommon haddress
  refine ⟨⟨h'.answers.symm.trans h.answers, ?_⟩, h⟩
  intro earlier hearlier
  exact (h'.sight earlier hearlier).symm.trans (h.sight earlier hearlier)

/-- Eight blocks for two clients. -/
def shared : Outset where
  contents := Memory.zeroed 128
  blockSize := 16
  config := { rules := [{}], queueSize := 4 }

/-- One client writes a block from a payload that is larger; the other one reads it, and asks for
one that is not in its window; then the first one leaves. -/
def exchange : List Step :=
  [.openSession "ram_quota=8192,tx_buf_size=32,span=4" [],
    .openSession "ram_quota=8192,tx_buf_size=64,offset=2,writeable=no" [],
    .client 0 (.request ⟨.write, 3, 1, 0, 24, false⟩ (some (List.replicate 24 170))),
    .process 0 .submitted,
    .client 1 (.request ⟨.read, 1, 1, 0, 16, false⟩ none),
    .client 1 (.request ⟨.read, 9, 1, 0, 16, false⟩ none),
    .run 1, .client 1 (.read ⟨.read, 1, 1, 0, 16, false⟩ 16), .client 1 .popAcks,
    .client 0 .popAcks, .closeSession 0, .sync 1, .device (.peek 0 64)]

theorem devices_agree_exchange :
    Agree Ram.contents Ram.contents (shared.onRam false) (shared.onRam true) exchange ∧
      Agree Ram.contents (·.medium.contents) (shared.onRam false) shared.onImage exchange :=
  devices_agree shared (by decide) (by decide) (by decide +kernel) (by decide +kernel)

end Outset
end BlockMux
