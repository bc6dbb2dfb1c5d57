import BlockMux.Proofs.Streams

/-!
# Synchronous drivers

A device in memory that was given no queue, and a device on a medium, settle every request before
they answer. Sessions on them have nothing under way between two events, and the work on their
submit queues is what the sequential specification says: what is carried out, what fails, and which
bytes change.

A sound packet fails on a device in memory only for a bad block, and on a medium only if the medium
fails.

Main statements:

* `Ram.settles` — a device in memory without a queue settles what its guests ask for.
* `drainsInTurn` — on a driver that settles requests at once, sessions drain in turn.
* `drains_inTurn` — so they do on the devices at hand.
-/

namespace BlockMux

/-! ## Devices in memory -/

namespace Ram

variable {shape : Shape} {guests : Session → Prop} {s : Session}

/-- What touches a bad block is refused, and nothing else happens. -/
theorem Houses.submit_refused {ram : Ram} {arena : Arena} (h : Houses shape guests ram arena)
    (hs : guests s) {t : Transfer} {request : Request} (may : s.MayAsk ⟨t, request, .ioError⟩)
    (hbad : s.touchesBad ram.badBlocks request.packet = true) :
    ram.submit arena t request = ⟨ram, arena, .ioError, []⟩ := by
  rw [show ram.badBlocks = shape.badBlocks from congrArg Shape.badBlocks h.shape_eq] at hbad
  have hrefused := ((h.guest s hs).refused_iff h.shape_eq may arena).2 hbad
  have hanswer := ram.answers arena t request
  generalize ram.submit arena t request = reply at hrefused hanswer ⊢
  cases hanswer with
  | refused => rfl
  | _ => simp at hrefused

/-- What a device without a queue does with a sound packet of a guest. -/
theorem Houses.submit_sound (hdepth : shape.queueDepth = none) {x : Ram × Arena}
    (h : Houses shape guests x.1 x.2) (hs : guests s) {packet : Packet} {t : Transfer}
    (hsound : s.Sound packet) (ht : s.transfer? packet = some t) :
    s.Settlement Ram.contents x.1 x.2 packet (!s.touchesBad x.1.badBlocks packet)
        (x.1.submit x.2 t ⟨packet, s.mailbox⟩) ∧
      Houses shape guests (x.1.submit x.2 t ⟨packet, s.mailbox⟩).driver
        (x.1.submit x.2 t ⟨packet, s.mailbox⟩).arena := by
  have may : ∀ outcome, s.MayAsk ⟨t, ⟨packet, s.mailbox⟩, outcome⟩ :=
    fun _ => ⟨(s.accepts_iff packet).2 hsound, ht, rfl⟩
  cases hbad : s.touchesBad x.1.badBlocks packet with
  | true =>
    rw [h.submit_refused hs (may .ioError) hbad]
    exact ⟨.refused rfl, h⟩
  | false =>
    have hshallow : x.1.queueDepth = none := (congrArg Shape.queueDepth h.shape_eq).trans hdepth
    rw [h.submit_atOnce hs (may .dispatched) hbad hshallow]
    exact ⟨.done rfl, h.moved s packet (fun _ hjob => hjob) _ _⟩

/-- A device in memory without a queue settles what a guest asks for at once: a sound packet is
carried out unless it touches a bad block. -/
theorem settles (hs : guests s) (hdepth : shape.queueDepth = none) :
    s.Settles Ram.contents (fun x packet => !s.touchesBad x.1.badBlocks packet)
      (fun x => Houses shape guests x.1 x.2) where
  settles := fun hx hsound ht => (hx.submit_sound hdepth hs hsound ht).1
  keeps := by
    intro x packet hx hsound
    obtain ⟨t, ht⟩ := hsound.transfer?
    rw [Session.serve_of_sound hsound ht]
    exact (hx.submit_sound hdepth hs hsound ht).2

end Ram

/-! ## Systems -/

namespace System

/-- Whatever session is open, with no packet in flight and no completion to collect: when it is told
that packets were submitted, it serves those that are due, one after the other. -/
def DrainsInTurn {δ : Type} [Device δ] (sys : System δ) (contents : δ → Memory)
    (works : Session → δ × Arena → Packet → Bool) : Prop :=
  ∀ seat s, sys.session? seat = some s → s.inFlight = 0 →
    (sys.mux.backend.mailbox s.mailbox).completions = [] →
      ∃ s' b', sys.step (.process seat .submitted) = (sys.withSession seat s' b', .done) ∧
        s.Serial contents (works s) sys.mux.backend s' b'

/-- Where sessions hold no packet and can be reached, and the driver settles at once what they ask
for, they drain in turn. -/
theorem drainsInTurn {δ : Type} [Device δ] {sys : System δ} {contents : δ → Memory}
    {works : Session → δ × Arena → Packet → Bool} (ho : sys.Orderly) (hfree : sys.Free)
    (hsettles : ∀ seat s, sys.session? seat = some s → ∃ Keeps,
      s.Settles contents (works s) Keeps ∧ Keeps (sys.mux.backend.driver, sys.mux.backend.arena)) :
    sys.DrainsInTurn contents works := by
  intro seat s hs hinFlight hempty
  have hpending := (ho.poised hs).pending_of_free (hfree.free hs)
  obtain ⟨Keeps, hsettle, hkeeps⟩ := hsettles seat s hs
  have hcleared : s.Cleared sys.mux.backend := ⟨ho.mailbox_lt hs, hfree.isOpen hs, hempty⟩
  refine ⟨(s.drain sys.mux.backend).1, (s.drain sys.mux.backend).2, ?_, ?_⟩
  · simp only [step, work, hs]
    rfl
  · exact Session.serial_drain hsettle hkeeps hcleared hinFlight (hfree.free hs) hpending

/-- What a session with nothing under way does is found by asking for it. -/
theorem DrainsInTurn.serves {δ : Type} [Device δ] {sys : System δ} {contents : δ → Memory}
    {works : Session → δ × Arena → Packet → Bool} (h : sys.DrainsInTurn contents works)
    {seat due : Nat}
    (hidle : (sys.session? seat).map (fun s =>
      (s.due, s.inFlight, (sys.mux.backend.mailbox s.mailbox).completions)) = some (due, 0, [])) :
    ∃ s s' b', sys.session? seat = some s ∧ s.due = due ∧
      sys.step (.process seat .submitted) = (sys.withSession seat s' b', .done) ∧
        s.Serial contents (works s) sys.mux.backend s' b' := by
  obtain ⟨s, hs, hfacts⟩ := Option.map_eq_some_iff.1 hidle
  simp only [Prod.mk.injEq] at hfacts
  obtain ⟨hdue, hinFlight, hempty⟩ := hfacts
  obtain ⟨s', b', hstep, hserial⟩ := h seat s hs hinFlight hempty
  exact ⟨s, s', b', hs, hdue, hstep, hserial⟩

end System

/-! ## Courses -/

namespace Course

open BlockMux.System

theorem drainsInTurn_ram (c : Course Ram) (hdepth : c.driver.queueDepth = none)
    (hqueue : c.driver.queue = []) (hbuffers : c.driver.buffers = [])
    (hbound : c.driver.contents.size ≤ maxWord) :
    ((System.create c.mux).runSteps c.steps).DrainsInTurn Ram.contents
      fun s x packet => !s.touchesBad x.1.badBlocks packet := by
  have hhouses := c.houses hdepth hqueue hbuffers hbound
  have hfree := Free.runSteps Ram.prompt hdepth c.config c.table c.steps
  refine System.drainsInTurn ((Orderly.create c.mux).runSteps c.steps) hfree ?_
  intro seat s hs
  -- the log changes neither the sessions nor the device
  rw [← c.plain_final] at hs ⊢
  have hguest : c.final.guests s := ⟨seat, s, hs, rfl⟩
  exact ⟨_, Ram.settles hguest hdepth, hhouses⟩

theorem drainsInTurn_stream {μ : Type} [Medium μ] [LawfulMedium μ] (c : Course (StreamDevice μ))
    (hlarge : c.driver.blockCount * c.driver.blockSize ≤ (Medium.contents c.driver.medium).size) :
    ((System.create c.mux).runSteps c.steps).DrainsInTurn
      (fun device => Medium.contents device.medium) StreamDevice.works := by
  have hholds : c.driver.Holds c.driver.blockSize c.driver.blockCount := ⟨rfl, rfl, hlarge⟩
  have hprompt := StreamDevice.prompt (μ := μ) c.driver.blockSize c.driver.blockCount
  have hfree := Free.runSteps hprompt hholds c.config c.table c.steps
  have haboard := AllAboard.runSteps hholds c.config c.table c.steps
  have hdriver := hprompt.driver_runSteps hholds c.config c.table c.steps
  refine System.drainsInTurn ((Orderly.create c.mux).runSteps c.steps) hfree ?_
  intro seat s hs
  exact ⟨_, StreamDevice.settles c.driver.blockSize c.driver.blockCount s, hdriver,
    haboard seat s hs⟩

/-- Sessions drain in turn on every driver that settles requests before it answers, whatever has
happened before: on a device in memory without a queue, which is handed views or addresses and has no
more bytes than a machine can count, where a sound packet succeeds unless it touches a bad block; and
on a device on any lawful medium, such as an image, that has the bytes of its blocks, as it has when
the device is made, where a sound packet succeeds unless the medium fails. -/
theorem drains_inTurn :
    (∀ c : Course Ram, c.driver.queueDepth = none → c.driver.queue = [] → c.driver.buffers = [] →
      c.driver.contents.size ≤ maxWord →
        ((System.create c.mux).runSteps c.steps).DrainsInTurn Ram.contents
          fun s x packet => !s.touchesBad x.1.badBlocks packet) ∧
    ∀ (μ : Type) [Medium μ] [LawfulMedium μ] (c : Course (StreamDevice μ)),
      c.driver.blockCount * c.driver.blockSize ≤ (Medium.contents c.driver.medium).size →
        ((System.create c.mux).runSteps c.steps).DrainsInTurn
          (fun device => Medium.contents device.medium) StreamDevice.works :=
  ⟨drainsInTurn_ram, fun _ _ _ c hlarge => c.drainsInTurn_stream hlarge⟩

/-- A client with three slots left submits four packets: one that can be read, one whose blocks are
bad, one that asks for nothing known, and one too many. -/
def rush : List Step :=
  [.openSession "ram_quota=8192,tx_buf_size=64" [],
    .client 0 (.submit ⟨.write, 0, 1, 0, 16, false⟩), .process 0 .submitted,
    .client 0 (.submit ⟨.read, 1, 1, 0, 24, false⟩),
    .client 0 (.submit ⟨.read, 2, 2, 0, 32, false⟩),
    .client 0 (.submit ⟨.unsupported 7, 0, 1, 0, 16, false⟩),
    .client 0 (.submit ⟨.write, 3, 1, 16, 16, false⟩)]

/-- The client on a device in memory that is handed addresses. -/
def rushed : Course Ram where
  driver :=
    { contents := Memory.zeroed 128, blockSize := 16, usesAddresses := true,
      badBlocks := some (3, 4) }
  config := { rules := [{}], queueSize := 4 }
  steps := rush

/-- The client on an image that is worn where the bad block is. -/
def rushedImage : Course ImageDevice where
  driver := ⟨{ contents := Memory.zeroed 128, badRead := some (48, 64) }, 16, 8⟩
  config := { rules := [{}], queueSize := 4 }
  steps := rush

/-- On either device three of the four packets are due, and the first of them succeeds. -/
theorem drains_inTurn_rushed :
    let onRam := (System.create rushed.mux).runSteps rushed.steps
    let onImage := (System.create rushedImage.mux).runSteps rushedImage.steps
    (∃ s s' b', onRam.session? 0 = some s ∧ s.due = 3 ∧
      onRam.step (.process 0 .submitted) = (onRam.withSession 0 s' b', .done) ∧
      s.Serial Ram.contents (fun x packet => !s.touchesBad x.1.badBlocks packet) onRam.mux.backend
        s' b') ∧
    (∃ s s' b', onImage.session? 0 = some s ∧ s.due = 3 ∧
      onImage.step (.process 0 .submitted) = (onImage.withSession 0 s' b', .done) ∧
      s.Serial (fun device => device.medium.contents) (StreamDevice.works s) onImage.mux.backend
        s' b') ∧
    ((onRam.step (.process 0 .submitted)).1.session? 0).map
        (fun s => s.channel.acked.map (·.succeeded)) = some [true, true, false, false] ∧
    ((onImage.step (.process 0 .submitted)).1.session? 0).map
        (fun s => s.channel.acked.map (·.succeeded)) = some [true, true, false, false] := by
  have hram := drains_inTurn.1 rushed rfl rfl rfl (by decide)
  have himage := drains_inTurn.2 Image rushedImage (by decide)
  exact ⟨hram.serves (by decide +kernel), himage.serves (by decide +kernel), by decide +kernel,
    by decide +kernel⟩

end Course
end BlockMux
