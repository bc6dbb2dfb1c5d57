import BlockMux.Proofs.Moves
import BlockMux.Proofs.SpuriousWakeups

/-!
# One packet after the other

A session works through its submit queue in rounds: each collects what is finished, looks whether a
slot is left for another acknowledgement, and takes a packet. On a driver that settles every request
before it answers, a packet that was carried out waits in the mailbox until the next round, and one
that was rejected or refused is acknowledged in the same one.

None of this shows at the end. What comes out is what a sequential specification says, which serves
the packets one after the other and knows no rounds, no mailbox and no credit: as many packets as
there are, or as there are free slots, each acknowledged in its turn.

Main statements:

* `serveAll`, `verdicts` — the sequential specification.
* `Settles` — what the specification asks of a driver.
* `Settles.bytes_serveAll` — in the specification, exactly the packets that succeed move bytes.
* `collect_take` — what one round does, once its completion is collected.
* `serial_drain` — working through the submit queue is what the specification says.
-/

namespace BlockMux.Session

open Backend

variable {δ : Type}

/-! ## The sequential specification -/

/-- What a packet has to be like to be carried out, in exact numbers. -/
structure Sound (s : Session) (packet : Packet) : Prop where
  size_pos : 1 ≤ packet.size
  count_pos : 1 ≤ packet.count
  inside : packet.block + packet.count ≤ s.grant.span
  permitted : s.operations.supports packet.operation = true
  large : packet.count * s.blockSize ≤ packet.size
  fits : packet.offset + packet.size ≤ s.channel.buffer.size

/-- The checks of a session pass exactly the sound packets. -/
theorem accepts_iff (s : Session) (packet : Packet) :
    s.accepts packet = true ↔ s.Sound packet := by
  constructor
  · intro h
    obtain ⟨hcount, hspan, hlarge, hsize, hfits, hops⟩ := bounds_of_accepts h
    exact ⟨hsize, hcount, hspan, hops, hlarge, hfits⟩
  · rintro ⟨hsize, hcount, hspan, hops, hlarge, hfits⟩
    have hnonempty : packet.size ≠ 0 := by omega
    have hsome : packet.count ≠ 0 := by omega
    simp [accepts, hnonempty, hsome, hspan, hops, hlarge, hfits]

instance (s : Session) (packet : Packet) : Decidable (s.Sound packet) :=
  decidable_of_iff _ (s.accepts_iff packet)

section Specification

variable [Driver δ]

/-- The driver, on these memories, carries out what the packet asks for, and says so before it
answers. -/
def CarriedOut (s : Session) (x : δ × Arena) (packet : Packet) : Prop :=
  ∃ t ∈ s.transfer? packet,
    (Driver.submit x.1 x.2 t ⟨packet, s.mailbox⟩).notices = [.completed ⟨packet, s.mailbox⟩ true]

instance (s : Session) (x : δ × Arena) (packet : Packet) : Decidable (s.CarriedOut x packet) :=
  inferInstanceAs (Decidable (∃ t ∈ s.transfer? packet, _ = _))

/-- The driver and the memories after a packet was served: the driver is asked for a sound one. -/
def serve (s : Session) (x : δ × Arena) (packet : Packet) : δ × Arena :=
  if s.Sound packet then
    match s.transfer? packet with
    | none => x
    | some t =>
      let reply := Driver.submit x.1 x.2 t ⟨packet, s.mailbox⟩
      (reply.driver, reply.arena)
  else x

/-- The acknowledgement of a packet. -/
def verdict (s : Session) (x : δ × Arena) (packet : Packet) : Packet :=
  { packet with succeeded := decide (s.Sound packet ∧ s.CarriedOut x packet) }

/-- The driver and the memories after packets were served one after the other. -/
def serveAll (s : Session) (x : δ × Arena) (packets : List Packet) : δ × Arena :=
  packets.foldl s.serve x

/-- The acknowledgements of packets that are served one after the other. -/
def verdicts (s : Session) : δ × Arena → List Packet → List Packet
  | _, [] => []
  | x, packet :: rest => s.verdict x packet :: verdicts s (s.serve x packet) rest

theorem length_verdicts (s : Session) (x : δ × Arena) (packets : List Packet) :
    (s.verdicts x packets).length = packets.length := by
  induction packets generalizing x with
  | nil => rfl
  | cons packet rest ih => rw [verdicts, List.length_cons, ih, List.length_cons]

theorem serveAll_concat (s : Session) (x : δ × Arena) (packets : List Packet) (packet : Packet) :
    s.serveAll x (packets ++ [packet]) = s.serve (s.serveAll x packets) packet := by
  simp only [serveAll, List.foldl_append, List.foldl_cons, List.foldl_nil]

theorem verdicts_concat (s : Session) (x : δ × Arena) (packets : List Packet) (packet : Packet) :
    s.verdicts x (packets ++ [packet]) =
      s.verdicts x packets ++ [s.verdict (s.serveAll x packets) packet] := by
  induction packets generalizing x with
  | nil => rfl
  | cons first rest ih =>
    rw [List.cons_append, verdicts, ih, verdicts, List.cons_append]
    rfl

theorem serve_of_sound {s : Session} {packet : Packet} {t : Transfer} (h : s.Sound packet)
    (ht : s.transfer? packet = some t) (x : δ × Arena) :
    s.serve x packet = ((Driver.submit x.1 x.2 t ⟨packet, s.mailbox⟩).driver,
      (Driver.submit x.1 x.2 t ⟨packet, s.mailbox⟩).arena) := by
  rw [serve, if_pos h, ht]

/-! ## Drivers that settle requests at once -/

/-- The driver has settled a request before it answered: it moved the bytes and said so, or it
refused and moved none. -/
inductive Settlement (s : Session) (contents : δ → Memory) (d : δ) (arena : Arena)
    (packet : Packet) : Bool → Reply δ → Prop
  | done {d' : δ} {arena' : Arena}
      (moved : (contents d', arena') = s.moved (contents d) arena packet) :
      Settlement s contents d arena packet true
        ⟨d', arena', .dispatched, [.completed ⟨packet, s.mailbox⟩ true]⟩
  | refused {d' : δ} (kept : contents d' = contents d) :
      Settlement s contents d arena packet false ⟨d', arena, .ioError, []⟩

/-- In the states that it keeps to, the driver settles at once what the session asks for. Its bytes
are `contents`, and `works` tells whether it can do the work. -/
structure Settles (s : Session) (contents : δ → Memory) (works : δ × Arena → Packet → Bool)
    (Keeps : δ × Arena → Prop) : Prop where
  settles : ∀ {x packet t}, Keeps x → s.Sound packet → s.transfer? packet = some t →
    Settlement s contents x.1 x.2 packet (works x packet)
      (Driver.submit x.1 x.2 t ⟨packet, s.mailbox⟩)
  keeps : ∀ {x packet}, Keeps x → s.Sound packet → Keeps (s.serve x packet)

variable {s : Session} {contents : δ → Memory} {works : δ × Arena → Packet → Bool}
  {Keeps : δ × Arena → Prop}

omit [Driver δ] in
/-- A sound packet has a transfer. -/
theorem Sound.transfer? {packet : Packet} (h : s.Sound packet) :
    ∃ t, s.transfer? packet = some t :=
  transfer?_of_accepts ((s.accepts_iff packet).2 h)

namespace Settles

/-- The driver's answer tells whether it could do the work. -/
theorem carriedOut_iff (h : Settles s contents works Keeps) {x : δ × Arena} (hx : Keeps x)
    {packet : Packet} (hsound : s.Sound packet) :
    s.CarriedOut x packet ↔ works x packet = true := by
  obtain ⟨t, ht⟩ := hsound.transfer?
  have hsettled := h.settles hx hsound ht
  have hasked : s.CarriedOut x packet ↔
      (Driver.submit x.1 x.2 t ⟨packet, s.mailbox⟩).notices =
        [.completed ⟨packet, s.mailbox⟩ true] := by
    simp [CarriedOut, ht]
  rw [hasked]
  generalize Driver.submit x.1 x.2 t ⟨packet, s.mailbox⟩ = reply at hsettled ⊢
  generalize works x packet = working at hsettled ⊢
  cases hsettled <;> simp

/-- A sound packet that is carried out moves its bytes, and any other one moves none. -/
theorem bytes_serve (h : Settles s contents works Keeps) {x : δ × Arena} (hx : Keeps x)
    (packet : Packet) :
    (contents (s.serve x packet).1, (s.serve x packet).2) =
      if s.Sound packet ∧ s.CarriedOut x packet then s.moved (contents x.1) x.2 packet
      else (contents x.1, x.2) := by
  by_cases hsound : s.Sound packet
  · obtain ⟨t, ht⟩ := hsound.transfer?
    have hsettled := h.settles hx hsound ht
    have hworks := h.carriedOut_iff hx hsound
    rw [serve_of_sound hsound ht]
    generalize Driver.submit x.1 x.2 t ⟨packet, s.mailbox⟩ = reply at hsettled ⊢
    generalize works x packet = working at hsettled hworks
    cases hsettled with
    | done moved => rw [if_pos ⟨hsound, hworks.2 rfl⟩, moved]
    | refused kept =>
      have hfailed : ¬s.CarriedOut x packet := by simp [hworks]
      rw [if_neg (fun hboth => hfailed hboth.2), kept]
  · rw [serve, if_neg hsound, if_neg (fun hboth => hsound hboth.1)]

theorem keeps_serve (h : Settles s contents works Keeps) {x : δ × Arena} (hx : Keeps x)
    (packet : Packet) : Keeps (s.serve x packet) := by
  by_cases hsound : s.Sound packet
  · exact h.keeps hx hsound
  · rw [serve, if_neg hsound]
    exact hx

theorem keeps_serveAll (h : Settles s contents works Keeps) {x : δ × Arena} (hx : Keeps x)
    (packets : List Packet) : Keeps (s.serveAll x packets) := by
  induction packets generalizing x with
  | nil => exact hx
  | cons packet rest ih => exact ih (h.keeps_serve hx packet)

/-- Served one after the other, exactly the packets that succeed move bytes, in their order. -/
theorem bytes_serveAll (h : Settles s contents works Keeps) {x : δ × Arena} (hx : Keeps x)
    (packets : List Packet) :
    (contents (s.serveAll x packets).1, (s.serveAll x packets).2) =
      ((s.verdicts x packets).filter (·.succeeded)).foldl (fun y packet => s.moved y.1 y.2 packet)
        (contents x.1, x.2) := by
  induction packets generalizing x with
  | nil => rfl
  | cons packet rest ih =>
    have hrest := ih (h.keeps_serve hx packet)
    have hfirst := h.bytes_serve hx packet
    -- the flag of the acknowledgement is what decides whether bytes are moved
    by_cases hdone : s.Sound packet ∧ s.CarriedOut x packet
    · have hsucceeded : (s.verdict x packet).succeeded = true := decide_eq_true hdone
      rw [if_pos hdone] at hfirst
      rw [verdicts, List.filter_cons_of_pos hsucceeded, List.foldl_cons]
      rw [hfirst] at hrest
      exact hrest
    · have hfailed : ¬(s.verdict x packet).succeeded = true := by
        rw [verdict, decide_eq_true_eq]
        exact hdone
      rw [if_neg hdone] at hfirst
      rw [verdicts, List.filter_cons_of_neg hfailed]
      rw [hfirst] at hrest
      exact hrest

end Settles

/-! ## Rounds -/

/-- The session has collected: its mailbox is there, open and empty. -/
structure Cleared (s : Session) (c : Backend δ) : Prop where
  mailbox_lt : s.mailbox < c.mailboxes.length
  isOpen : (c.mailbox s.mailbox).isOpen = true
  empty : (c.mailbox s.mailbox).completions = []

section Round

variable {t : Session} {c : Backend δ}

/-- A packet in hand that is sound, once the driver has settled what it asks for and the session has
collected. -/
theorem collect_dispatch (h : Settles s contents works Keeps) (hterms : t.terms = s.terms)
    (hcleared : s.Cleared c) (hkeeps : Keeps (c.driver, c.arena)) {packet : Packet}
    (hsound : s.Sound packet) :
    ((t.dispatch c packet).1.collect (t.dispatch c packet).2).1 =
      t.acknowledge packet (decide (s.CarriedOut (c.driver, c.arena) packet)) := by
  obtain ⟨transfer, htransfer⟩ := hsound.transfer?
  have hmailbox : t.mailbox = s.mailbox := congrArg Terms.mailbox hterms
  have hsettled := h.settles hkeeps hsound htransfer
  have hworks := h.carriedOut_iff hkeeps hsound
  have hfound :=
    (completions_submit hcleared.mailbox_lt hcleared.isOpen transfer ⟨packet, s.mailbox⟩).2
  rw [hcleared.empty, List.nil_append] at hfound
  rw [dispatch_eq ((transfer?_congr hterms packet).trans htransfer), hmailbox]
  have houtcome : (c.submit transfer ⟨packet, s.mailbox⟩).2 =
      (Driver.submit c.driver c.arena transfer ⟨packet, s.mailbox⟩).outcome := rfl
  rw [houtcome]
  -- from here on only the answer of the driver counts, and what it put into the mailbox
  generalize c.submit transfer ⟨packet, s.mailbox⟩ = after at hfound ⊢
  generalize Driver.submit c.driver c.arena transfer ⟨packet, s.mailbox⟩ = reply
    at hsettled hfound ⊢
  generalize works (c.driver, c.arena) packet = working at hsettled hworks
  cases hsettled with
  | done moved =>
    -- the completion waits in the mailbox, so it is collecting that acknowledges the packet
    have hone : (after.1.mailbox t.mailbox).completions = [⟨packet, true⟩] := by
      rw [hmailbox, hfound]
      simp [Notice.completionFor]
    rw [decide_eq_true (hworks.2 rfl), answered, collect, hone]
    rfl
  | refused kept =>
    -- the packet is acknowledged at once, and there is nothing to collect
    have hfailed : ¬s.CarriedOut (c.driver, c.arena) packet := by simp [hworks]
    have hsame : (t.acknowledge packet false).mailbox = s.mailbox :=
      (congrArg Terms.mailbox (acknowledge_acksOnly t packet false).terms).trans hmailbox
    rw [decide_eq_false hfailed, answered, collect_of_empty (by rw [hsame, hfound]; rfl)]

/-- Whether a packet is taken and rejected, or refused, or carried out: once the session has
collected, the packet has been acknowledged as the specification says. -/
theorem collect_take (h : Settles s contents works Keeps) (hterms : t.terms = s.terms)
    (hcleared : s.Cleared c) (hkeeps : Keeps (c.driver, c.arena)) (packet : Packet)
    (rest : List Packet) :
    ((t.take c packet rest).1.collect (t.take c packet rest).2).1 =
      (t.picked rest).acknowledge packet
        (decide (s.Sound packet ∧ s.CarriedOut (c.driver, c.arena) packet)) := by
  have hpicked : (t.picked rest).terms = s.terms := hterms
  rw [take_eq, accepts_congr hpicked]
  by_cases hsound : s.Sound packet
  · rw [if_pos ((s.accepts_iff packet).2 hsound)]
    rw [collect_dispatch h hpicked hcleared hkeeps hsound]
    simp only [hsound, true_and]
  · -- a packet that is rejected never reaches the driver
    have hsame : ((t.picked rest).acknowledge packet false).mailbox = s.mailbox :=
      congrArg Terms.mailbox ((acknowledge_acksOnly _ packet false).terms.trans hpicked)
    rw [if_neg (fun good => hsound ((s.accepts_iff packet).1 good))]
    rw [collect_of_empty (by rw [hsame, hcleared.empty])]
    rw [decide_eq_false (fun hboth => hsound hboth.1)]

/-- To the driver a round is the service of its packet, and it leaves the mailbox open. -/
theorem backend_take (hterms : t.terms = s.terms) (hcleared : s.Cleared c) (packet : Packet)
    (rest : List Packet) :
    ((t.take c packet rest).2.driver, (t.take c packet rest).2.arena) =
        s.serve (c.driver, c.arena) packet ∧
      ((t.take c packet rest).2.mailbox s.mailbox).isOpen = true := by
  have hpicked : (t.picked rest).terms = s.terms := hterms
  have hmailbox : (t.picked rest).mailbox = s.mailbox := congrArg Terms.mailbox hterms
  rw [take_eq, accepts_congr hpicked]
  by_cases hsound : s.Sound packet
  · obtain ⟨transfer, htransfer⟩ := hsound.transfer?
    rw [if_pos ((s.accepts_iff packet).2 hsound), serve_of_sound hsound htransfer]
    rw [dispatch_eq ((transfer?_congr hpicked packet).trans htransfer), hmailbox]
    have hafter :=
      (completions_submit hcleared.mailbox_lt hcleared.isOpen transfer ⟨packet, s.mailbox⟩).1
    exact ⟨by rw [driver_submit, arena_submit], hafter⟩
  · rw [if_neg (fun good => hsound ((s.accepts_iff packet).1 good)), serve, if_neg hsound]
    exact ⟨rfl, hcleared.isOpen⟩

end Round

/-! ## Working through the submit queue -/

/-- How many packets a session may take, if each is acknowledged before the next one is taken. -/
def due (s : Session) : Nat := min s.channel.submitted.length s.channel.ackSlotsFree

/-- What comes of a session and its backend when the specification serves the packets that are due:
those, and no others, are taken and acknowledged in order; the driver and the bytes are as the
service leaves them; and nothing is under way. -/
structure Serial (contents : δ → Memory) (works : δ × Arena → Packet → Bool) (s : Session)
    (b : Backend δ) (s' : Session) (b' : Backend δ) : Prop where
  submitted : s'.channel.submitted = s.channel.submitted.drop s.due
  acked : s'.channel.acked = s.channel.acked ++
    s.verdicts (b.driver, b.arena) (s.channel.submitted.take s.due)
  device : (b'.driver, b'.arena) =
    s.serveAll (b.driver, b.arena) (s.channel.submitted.take s.due)
  bytes : (contents b'.driver, b'.arena) =
    ((s.verdicts (b.driver, b.arena) (s.channel.submitted.take s.due)).filter
      (·.succeeded)).foldl (fun y packet => s.moved y.1 y.2 packet) (contents b.driver, b.arena)
  carriedOut_iff : ∀ earlier packet later,
    s.channel.submitted.take s.due = earlier ++ packet :: later → s.Sound packet →
      (s.CarriedOut (s.serveAll (b.driver, b.arena) earlier) packet ↔
        works (s.serveAll (b.driver, b.arena) earlier) packet = true)
  collected : (b'.mailbox s.mailbox).completions = []
  inFlight : s'.inFlight = 0
  free : s'.driverCongested = false
  pending : s'.pending = none
  full_iff : s'.ackQueueFull = true ↔ s'.channel.ackSlotsFree = 0

/-- Between two rounds: the session, once it has collected, has acknowledged the packets served so
far, and has nothing under way. -/
structure Serving (s : Session) (b : Backend δ) (served : List Packet) (t : Session)
    (c : Backend δ) : Prop where
  terms : t.terms = s.terms
  queue : s.channel.submitted = served ++ t.channel.submitted
  room : served.length ≤ s.channel.ackSlotsFree
  acked : (t.collect c).1.channel.acked =
    s.channel.acked ++ s.verdicts (b.driver, b.arena) served
  inFlight : (t.collect c).1.inFlight = 0
  free : t.driverCongested = false
  pending : t.pending = none
  mailbox_lt : s.mailbox < c.mailboxes.length
  isOpen : (c.mailbox s.mailbox).isOpen = true
  device : (c.driver, c.arena) = s.serveAll (b.driver, b.arena) served

variable {b c : Backend δ} {t : Session} {served : List Packet}

/-- As many slots are left as were free, less the packets served. -/
theorem Serving.ackSlotsFree_eq (h : Serving s b served t c) :
    (t.collect c).1.channel.ackSlotsFree = s.channel.ackSlotsFree - served.length := by
  have hcapacity : (t.collect c).1.channel.capacity = s.channel.capacity :=
    congrArg Terms.capacity ((collect_acksOnly t c).terms.trans h.terms)
  rw [Channel.ackSlotsFree, Channel.ackSlotsFree, hcapacity, h.acked, List.length_append,
    length_verdicts, Nat.sub_add_eq]

/-- Collecting leaves the mailbox as a round needs it. -/
theorem Serving.cleared (h : Serving s b served t c) : s.Cleared (t.collect c).2 := by
  have hmailbox : t.mailbox = s.mailbox := congrArg Terms.mailbox h.terms
  have hafter : (t.collect c).2.mailbox s.mailbox = (c.mailbox s.mailbox).empty := by
    rw [collect, hmailbox, mailbox_modifyMailbox h.mailbox_lt]
  refine ⟨?_, ?_, ?_⟩
  · rw [collect, length_modifyMailbox]
    exact h.mailbox_lt
  · rw [hafter]
    exact h.isOpen
  · rw [hafter]
    rfl

/-- A round serves one more packet. -/
theorem Serving.take (h : Settles s contents works Keeps) (hkeeps : Keeps (b.driver, b.arena))
    (hserving : Serving s b served t c) {packet : Packet} {rest : List Packet}
    (hqueue : t.channel.submitted = packet :: rest) (may : (t.ready c).MayTake) :
    Serving s b (served ++ [packet]) ((t.ready c).take (t.collect c).2 packet rest).1
      ((t.ready c).take (t.collect c).2 packet rest).2 := by
  have hready : (t.ready c).terms = s.terms := (terms_ready t c).trans hserving.terms
  have hcleared := hserving.cleared
  have hact := take_act (t.collect c).2 ((submitted_ready t c).trans hqueue) may
  have hroom : (t.collect c).1.inFlight < (t.collect c).1.channel.ackSlotsFree := may.room
  have hslots := hserving.ackSlotsFree_eq
  have hdevice : ((t.collect c).2.driver, (t.collect c).2.arena) =
      s.serveAll (b.driver, b.arena) served := hserving.device
  have hkept : Keeps ((t.collect c).2.driver, (t.collect c).2.arena) := by
    rw [hdevice]
    exact h.keeps_serveAll hkeeps served
  have hround := collect_take h hready hcleared hkept packet rest
  obtain ⟨hserved, hstays⟩ := backend_take hready hcleared packet rest
  rw [hdevice] at hround hserved
  -- a slot is left, so the acknowledgement is not lost
  have hslot : ((t.ready c).picked rest).channel.acked.length <
      ((t.ready c).picked rest).channel.capacity := by
    have hfree : 0 < (t.collect c).1.channel.capacity - (t.collect c).1.channel.acked.length :=
      Nat.lt_of_le_of_lt (Nat.zero_le _) hroom
    exact Nat.lt_of_sub_pos hfree
  rw [acknowledge_of_room hslot] at hround
  -- what the session holds is the same before and after it collects
  have hafter := collect_acksOnly ((t.ready c).take (t.collect c).2 packet rest).1
    ((t.ready c).take (t.collect c).2 packet rest).2
  rw [hround] at hafter
  have hcongested : (t.collect c).1.driverCongested = false :=
    (collect_acksOnly t c).congested.trans hserving.free
  have hpending : (t.collect c).1.pending = none :=
    (collect_acksOnly t c).pending.trans hserving.pending
  refine ⟨hact.terms_eq.trans hready, ?_, ?_, ?_, ?_, hafter.congested.symm.trans hcongested,
    hafter.pending.symm.trans hpending, ?_, hstays, ?_⟩
  · rw [submitted_take, hserving.queue, hqueue, List.append_assoc]
    rfl
  · rw [List.length_append, List.length_singleton]
    omega
  · rw [hround, verdicts_concat]
    show (t.collect c).1.channel.acked ++ [_] = _
    rw [hserving.acked, List.append_assoc]
    rfl
  · rw [hround]
    show (t.collect c).1.inFlight + 1 - 1 = 0
    rw [hserving.inFlight]
  · rw [length_act hact]
    exact hcleared.mailbox_lt
  · rw [hserved, serveAll_concat]

/-- Where the rounds stop, for want of a slot or of a packet, the specification is done. -/
theorem Serving.serial (h : Settles s contents works Keeps) (hkeeps : Keeps (b.driver, b.arena))
    (hserving : Serving s b served t c) {full : Bool}
    (hfull : full = decide ((t.collect c).1.channel.ackSlotsFree ≤ (t.collect c).1.inFlight))
    (hstopped : t.channel.submitted = [] ∨ full = true) :
    Serial contents works s b { (t.collect c).1 with ackQueueFull := full } (t.collect c).2 := by
  have hacks := collect_acksOnly t c
  have hslots := hserving.ackSlotsFree_eq
  have hroom := hserving.room
  have hqueue := hserving.queue
  have hinFlight := hserving.inFlight
  -- what was served is what is due
  have hdue : s.due = served.length := by
    have hlength := congrArg List.length hqueue
    rw [List.length_append] at hlength
    unfold due
    rcases hstopped with hnone | htrue
    · rw [hnone, List.length_nil] at hlength
      omega
    · have hno := of_decide_eq_true (hfull.symm.trans htrue)
      omega
  have htake : s.channel.submitted.take s.due = served := by
    rw [hdue, hqueue, List.take_left]
  have hdrop : s.channel.submitted.drop s.due = t.channel.submitted := by
    rw [hdue, hqueue, List.drop_left]
  have hdevice : ((t.collect c).2.driver, (t.collect c).2.arena) =
      s.serveAll (b.driver, b.arena) served := hserving.device
  refine ⟨?_, ?_, ?_, ?_, ?_, hserving.cleared.empty, hinFlight,
    hacks.congested.trans hserving.free, hacks.pending.trans hserving.pending, ?_⟩
  · rw [hdrop]
    exact hacks.submitted
  · rw [htake]
    exact hserving.acked
  · rw [htake]
    exact hdevice
  · rw [htake, ← h.bytes_serveAll hkeeps served, ← hdevice]
  · intro earlier packet later _ hsound
    exact h.carriedOut_iff (h.keeps_serveAll hkeeps earlier) hsound
  · show full = true ↔ (t.collect c).1.channel.ackSlotsFree = 0
    rw [hfull, decide_eq_true_eq, hinFlight, Nat.le_zero]

/-- On a driver that settles every request before it answers, a session with nothing under way works
through its submit queue as the specification serves the packets that are due. -/
theorem serial_drain (h : Settles s contents works Keeps) (hkeeps : Keeps (b.driver, b.arena))
    (hcleared : s.Cleared b) (hinFlight : s.inFlight = 0) (hfree : s.driverCongested = false)
    (hpending : s.pending = none) : Serial contents works s b (s.drain b).1 (s.drain b).2 := by
  have hcollect := collect_of_empty hcleared.empty
  have hstart : Serving s b [] s b := by
    refine ⟨rfl, rfl, Nat.zero_le _, ?_, ?_, hfree, hpending, hcleared.mailbox_lt, hcleared.isOpen,
      rfl⟩
    · rw [hcollect, verdicts, List.append_nil]
    · rw [hcollect]
      exact hinFlight
  refine drainQueue_rule (P := fun t c => ∃ served, Serving s b served t c) ?take ?held ?full ?done
    rfl ⟨[], hstart⟩
  case take =>
    rintro t c packet rest ⟨served, hserving⟩ hqueue may
    exact ⟨served ++ [packet], hserving.take h hkeeps hqueue may⟩
  case held =>
    -- the driver never leaves a session with a packet to hold
    rintro t c ⟨served, hserving⟩ hcong
    rw [hserving.free] at hcong
    simp at hcong
  case full =>
    rintro t c ⟨served, hserving⟩ hfull
    exact hserving.serial h hkeeps (by simp [hfull]) (.inr rfl)
  case done =>
    rintro t c ⟨served, hserving⟩ hnone may
    have hroom : ¬(t.collect c).1.channel.ackSlotsFree ≤ (t.collect c).1.inFlight :=
      Nat.not_le.2 may.room
    exact hserving.serial h hkeeps (by simp [hroom]) (.inl hnone)

end Specification

end BlockMux.Session
