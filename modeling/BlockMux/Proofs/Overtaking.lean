import BlockMux.Proofs.Service
import BlockMux.Proofs.Tenancy

/-!
# In which order packets are acknowledged

A device in memory finishes the packets of a session in the order in which the session took them,
however long they wait and whoever else uses it. What the session settles by itself, because the
packet fails the checks or the device refuses it for good, does not wait: its acknowledgement comes
before those of all packets that are still to be carried out. Nothing else overtakes.

Main statements:

* `inLine_submit`, `inLine_advance`, `inLine_foreign` — what is in line for one mailbox.
* `InTurn.act` — where an act of the session puts a packet that it takes.
* `acknowledged_inTurn` — the order of the acknowledgements along every course of events.
* `overtaken_by_failure` — a packet that fails the checks overtakes one that waits in the queue.
-/

namespace BlockMux

namespace Ram

variable {shape : Shape} {ram : Ram}

/-- What a device takes goes behind everything it holds. -/
theorem Fits.finished {arena : Arena} {t : Transfer} {request : Request} {reply : Reply Ram}
    (h : ram.Fits shape) (hanswer : ram.Answer arena t request reply) :
    Notice.finished reply.notices ++ reply.driver.heldRequests =
      ram.heldRequests ++ request.takenWith reply.outcome := by
  cases hanswer with
  | refused => exact (List.append_nil _).symm
  | congested => exact (List.append_nil _).symm
  | queued => exact List.map_append
  | atOnce _ _ shallow =>
    -- carried out before the answer, when nothing else can be waiting
    have hidle := h.idle ((congrArg Shape.queueDepth h.shape_eq).symm.trans shallow)
    show [request] ++ ram.heldRequests = ram.heldRequests ++ [request]
    rw [hidle]
    rfl

end Ram

/-! ## What is in line for a mailbox -/

namespace Backend

/-- The packets that the device took for a mailbox and that are not collected yet, in the order in
which it took them. -/
def inLine (b : Backend (Recorded Ram)) (id : Nat) : List Packet :=
  (b.mailbox id).completions.map (·.packet) ++
    (Request.toMailbox id b.driver.driver.heldRequests).map (·.packet)

variable {shape : Ram.Shape} {id : Nat} {b b' : Backend (Recorded Ram)}

/-- Notices move packets along the line. -/
theorem inLine_of_finished {new : List Notice} {taken : List Request}
    (hmailbox : (b'.mailbox id).completions =
      (b.mailbox id).completions ++ Notice.completionsFor id new)
    (hheld : Notice.finished new ++ b'.driver.driver.heldRequests =
      b.driver.driver.heldRequests ++ taken) :
    b'.inLine id = b.inLine id ++ (Request.toMailbox id taken).map (·.packet) := by
  have hline := congrArg (fun requests => (Request.toMailbox id requests).map (·.packet)) hheld
  simp only [Request.toMailbox, List.filter_append, List.map_append] at hline
  rw [inLine, inLine, hmailbox, List.map_append, Notice.packets_completionsFor, List.append_assoc,
    List.append_assoc]
  exact congrArg _ hline

theorem inLine_submit (hfits : b.driver.driver.Fits shape) (hid : id < b.mailboxes.length)
    (hopen : (b.mailbox id).isOpen = true) (t : Transfer) (request : Request) :
    (b.submit t request).1.inLine id = b.inLine id ++
      (Request.toMailbox id (request.takenWith (b.submit t request).2)).map (·.packet) := by
  refine inLine_of_finished (completions_submit hid hopen t request).2 ?_
  rw [driver_submit]
  exact hfits.finished (Ram.answers ..)

theorem inLine_advance (hid : id < b.mailboxes.length) (hopen : (b.mailbox id).isOpen = true)
    (step : DeviceStep) : (b.advance step).1.inLine id = b.inLine id := by
  have hheld : Notice.finished (Device.advance b.driver b.arena step).notices ++
      (b.advance step).1.driver.driver.heldRequests = b.driver.driver.heldRequests ++ [] := by
    rw [driver_advance, List.append_nil]
    exact (b.driver.driver.advances b.arena step).held
  -- nothing is taken here, so nothing new is in line
  have hline := inLine_of_finished (completions_advance hid hopen step).2 hheld
  exact hline.trans (List.append_nil _)

/-- What is foreign to a mailbox neither adds to its line nor changes the order of it. -/
theorem inLine_foreign (hfits : b.driver.driver.Fits shape) (hid : id < b.mailboxes.length)
    (hopen : (b.mailbox id).isOpen = true) (h : Foreign id b b') : b'.inLine id = b.inLine id := by
  cases h with
  | @submit t request other =>
    have hnone : Request.toMailbox id (request.takenWith (b.submit t request).2) = [] := by
      cases (b.submit t request).2 <;> simp [Request.takenWith, Request.toMailbox, other]
    rw [inLine_submit hfits hid hopen, hnone]
    exact List.append_nil _
  | advance step => exact inLine_advance hid hopen step
  | allocate h =>
    have hmailbox : b'.mailbox id = b.mailbox id := by rw [mailbox, mailboxes_allocate h, mailbox]
    obtain ⟨-, -, hram, -⟩ := Ram.allocate_eq_some (allocate_ram h).1
    rw [inLine, inLine, hmailbox, hram]
    rfl
  | addMailbox =>
    rw [inLine, mailbox_addMailbox hid]
    rfl
  | mailbox hne f =>
    rw [inLine, mailbox_modifyMailbox_ne hne]
    rfl
  | _ => rfl

end Backend

/-! ## The order of the acknowledgements -/

theorem Reference.carries_congr {s s' : Session} (h : s'.terms = s.terms)
    (bad : Option (Nat × Nat)) (packet : Packet) :
    carries s' bad packet = carries s bad packet := by
  have hgrant : s'.grant = s.grant := congrArg Session.Terms.grant h
  simp only [carries, Session.accepts_congr h, Session.touchesBad, hgrant]

namespace Session

/-- The packets that a session has taken and not acknowledged, in the order in which it took them:
the device has finished them, or still holds them, or refused the last one for now. -/
def awaited (s : Session) (b : Backend (Recorded Ram)) : List Packet :=
  b.inLine s.mailbox ++ s.pending.toList

/-- Of two packets, each with its place among those taken, the first one may be acknowledged before
the second one: it was taken earlier, or it is not carried out and the other one is. -/
def MayPrecede (s : Session) (bad : Option (Nat × Nat)) (first second : Packet × Nat) : Prop :=
  first.2 < second.2 ∨
    Reference.carries s bad first.1 = false ∧ Reference.carries s bad second.1 = true

/-- The packets taken, in the order `line` in which they are acknowledged: those that are already,
and then those that are awaited. Each stands there with its place among the packets taken. -/
structure InTurn (bad : Option (Nat × Nat)) (submitted popped : List Packet) (s : Session)
    (b : Backend (Recorded Ram)) (taken : List Packet) (line : List (Packet × Nat)) : Prop where
  queue : submitted = taken ++ s.channel.submitted
  places : line.Perm taken.zipIdx
  acks : (popped ++ s.channel.acked ++ s.awaited b).map Packet.unmarked = line.map (·.1.unmarked)
  order : line.Pairwise (s.MayPrecede bad)
  carried : ∀ packet ∈ s.awaited b, Reference.carries s bad packet = true

variable {bad : Option (Nat × Nat)} {submitted popped taken : List Packet}
  {line : List (Packet × Nat)} {s s' : Session} {b b' : Backend (Recorded Ram)}

theorem MayPrecede.congr {x y : Packet × Nat} (h : s.MayPrecede bad x y)
    (hterms : s'.terms = s.terms) : s'.MayPrecede bad x y := by
  unfold MayPrecede at h ⊢
  rwa [Reference.carries_congr hterms, Reference.carries_congr hterms]

/-- A packet that is already acknowledged, or awaited, may move on. -/
theorem InTurn.congr (h : InTurn bad submitted popped s b taken line)
    (hterms : s'.terms = s.terms) (hqueue : s'.channel.submitted = s.channel.submitted)
    (hacks : (s'.channel.acked ++ s'.awaited b').map Packet.unmarked =
      (s.channel.acked ++ s.awaited b).map Packet.unmarked)
    (hawaited : ∀ packet ∈ s'.awaited b', packet ∈ s.awaited b) :
    InTurn bad submitted popped s' b' taken line := by
  refine ⟨h.queue.trans (by rw [hqueue]), h.places, ?_,
    h.order.imp fun hpair => hpair.congr hterms, ?_⟩
  · have hold := h.acks
    rw [List.append_assoc, List.map_append] at hold ⊢
    rw [hacks, hold]
  · intro packet hmem
    rw [Reference.carries_congr hterms]
    exact h.carried packet (hawaited packet hmem)

/-- The packets in line were taken before the next one. -/
theorem InTurn.place_lt (h : InTurn bad submitted popped s b taken line) {x : Packet × Nat}
    (hx : x ∈ line) : x.2 < taken.length := by
  have hlt := List.snd_lt_of_mem_zipIdx (h.places.mem_iff.1 hx)
  omega

/-- The packet taken last has the last place. -/
theorem zipIdx_taken (taken : List Packet) (packet : Packet) :
    (taken ++ [packet]).zipIdx = taken.zipIdx ++ [(packet, taken.length)] := by
  rw [List.zipIdx_append, List.zipIdx_singleton, Nat.zero_add]

/-- A packet that is to be carried out goes to the end of the line. -/
theorem InTurn.wait {packet : Packet} {rest : List Packet}
    (h : InTurn bad submitted popped s b taken line)
    (hqueue : s.channel.submitted = packet :: rest) (hterms : s'.terms = s.terms)
    (hrest : s'.channel.submitted = rest) (hacked : s'.channel.acked = s.channel.acked)
    (hawaited : s'.awaited b' = s.awaited b ++ [packet])
    (hcarried : Reference.carries s bad packet = true) :
    InTurn bad submitted popped s' b' (taken ++ [packet]) (line ++ [(packet, taken.length)]) := by
  refine ⟨?_, ?_, ?_, ?_, ?_⟩
  · rw [h.queue, hqueue, hrest, List.append_assoc]
    rfl
  · rw [zipIdx_taken]
    exact h.places.append_right _
  · rw [hacked, hawaited, ← List.append_assoc, List.map_append, h.acks, List.map_append]
    rfl
  · -- the packet was taken after all those in line, so each of them may precede it
    suffices hline : List.Pairwise (s.MayPrecede bad) (line ++ [(packet, taken.length)]) from
      hline.imp fun hpair => hpair.congr hterms
    refine List.pairwise_append.2 ⟨h.order, List.pairwise_singleton .., fun x hx y hy => ?_⟩
    rw [List.mem_singleton.1 hy]
    exact .inl (h.place_lt hx)
  · intro other hmem
    rw [Reference.carries_congr hterms]
    rw [hawaited] at hmem
    rcases List.mem_append.1 hmem with hold | hnew
    · exact h.carried other hold
    · rw [List.mem_singleton.1 hnew]
      exact hcarried

/-- A packet that is not carried out goes in front of all those awaited. -/
theorem InTurn.overtake {packet : Packet} {rest : List Packet}
    (h : InTurn bad submitted popped s b taken line)
    (hqueue : s.channel.submitted = packet :: rest) (hterms : s'.terms = s.terms)
    (hrest : s'.channel.submitted = rest)
    (hacked : s'.channel.acked = s.channel.acked ++ [packet.unmarked])
    (hawaited : s'.awaited b' = s.awaited b)
    (hfails : Reference.carries s bad packet = false) :
    ∃ line', InTurn bad submitted popped s' b' (taken ++ [packet]) line' := by
  -- the line is what is acknowledged and what is awaited, and the packet goes in between
  have hacks := h.acks
  rw [List.map_append] at hacks
  obtain ⟨front, back, rfl, hfront, hback⟩ := List.map_eq_append_iff.1 hacks.symm
  refine ⟨front ++ (packet, taken.length) :: back, ?_, ?_, ?_, ?_, ?_⟩
  · rw [h.queue, hqueue, hrest, List.append_assoc]
    rfl
  · rw [zipIdx_taken]
    exact List.perm_middle.trans ((h.places.cons _).trans (List.perm_append_singleton _ _).symm)
  · rw [hacked, hawaited, ← List.append_assoc, List.map_append, List.map_append, ← hfront,
      ← hback, List.map_append, List.map_cons, List.append_assoc]
    rfl
  · obtain ⟨hpairs, hpairs', hcross⟩ := List.pairwise_append.1 h.order
    have hbefore : ∀ x ∈ front, s.MayPrecede bad x (packet, taken.length) :=
      fun x hx => .inl (h.place_lt (List.mem_append_left _ hx))
    have hafter : ∀ y ∈ back, s.MayPrecede bad (packet, taken.length) y := by
      intro y hy
      -- up to its mark, which does not matter here, the packet is one that is awaited
      have hmem : y.1.unmarked ∈ (s.awaited b).map Packet.unmarked := by
        rw [← hback]
        exact List.mem_map_of_mem hy
      obtain ⟨other, hother, hsame⟩ := List.mem_map.1 hmem
      have hcarried : Reference.carries s bad other.unmarked = true := h.carried other hother
      rw [hsame] at hcarried
      exact .inr ⟨hfails, hcarried⟩
    suffices hline : List.Pairwise (s.MayPrecede bad) (front ++ (packet, taken.length) :: back)
      from hline.imp fun hpair => hpair.congr hterms
    refine List.pairwise_append.2 ⟨hpairs, List.pairwise_cons.2 ⟨hafter, hpairs'⟩, ?_⟩
    intro x hx y hy
    rcases List.mem_cons.1 hy with rfl | hy
    · exact hbefore x hx
    · exact hcross x hx y hy
  · intro other hmem
    rw [Reference.carries_congr hterms]
    exact h.carried other (hawaited ▸ hmem)

/-! ## Along a run -/

theorem awaited_collect (hid : s.mailbox < b.mailboxes.length) :
    (s.collect b).1.awaited (s.collect b).2 =
      (Request.toMailbox s.mailbox b.driver.driver.heldRequests).map (·.packet) ++
        s.pending.toList := by
  have hacks := collect_acksOnly s b
  have hbox : (s.collect b).2.mailbox s.mailbox = (b.mailbox s.mailbox).empty :=
    Backend.mailbox_modifyMailbox hid _
  rw [awaited, hacks.pending, show (s.collect b).1.mailbox = s.mailbox from
    congrArg Terms.mailbox hacks.terms, Backend.inLine, hbox]
  rfl

/-- A packet that the device does not refuse for good is awaited. -/
theorem awaited_answered {packet : Packet} {outcome : Outcome} (hfree : s.pending = none)
    (hsettled : outcome ≠ .ioError)
    (hline : b'.inLine s.mailbox = b.inLine s.mailbox ++
      (Request.toMailbox s.mailbox (Request.takenWith ⟨packet, s.mailbox⟩ outcome)).map
        (·.packet)) :
    (s.answered packet outcome).awaited b' = b.inLine s.mailbox ++ [packet] ∧
      (s.answered packet outcome).channel = s.channel := by
  cases outcome with
  | dispatched =>
    refine ⟨?_, rfl⟩
    show b'.inLine s.mailbox ++ s.pending.toList = _
    simp [hline, hfree, Request.takenWith, Request.toMailbox]
  | congested =>
    refine ⟨?_, rfl⟩
    show b'.inLine s.mailbox ++ [packet] = _
    simp [hline, Request.takenWith, Request.toMailbox]
  | ioError => exact absurd rfl hsettled

variable {shape : Ram.Shape}

/-- A packet that the session asks the device for is awaited, unless it is refused for good. -/
theorem InTurn.take {packet : Packet} {rest : List Packet} {t : Transfer}
    (h : InTurn shape.badBlocks submitted popped s b taken line) (hguest : Ram.Guest shape s)
    (hfits : b.driver.driver.Fits shape) (hfree : s.pending = none)
    (hroom : s.channel.acked.length < s.channel.capacity)
    (hline : (b.submit t ⟨packet, s.mailbox⟩).1.inLine s.mailbox = b.inLine s.mailbox ++
      (Request.toMailbox s.mailbox (Request.takenWith ⟨packet, s.mailbox⟩
        (b.submit t ⟨packet, s.mailbox⟩).2)).map (·.packet))
    (queue : s.channel.submitted = packet :: rest) (good : s.accepts packet = true)
    (ht : s.transfer? packet = some t) :
    ∃ line', InTurn shape.badBlocks submitted popped
      ((s.picked rest).answered packet (b.submit t ⟨packet, s.mailbox⟩).2)
      (b.submit t ⟨packet, s.mailbox⟩).1 (taken ++ [packet]) line' := by
  have may : s.MayAsk ⟨t, ⟨packet, s.mailbox⟩, .dispatched⟩ := ⟨good, ht, rfl⟩
  have hrefused := hguest.refused_iff hfits.shape_eq may b.arena
  have hterms := terms_answered (s.picked rest) packet (b.submit t ⟨packet, s.mailbox⟩).2
  by_cases hout : (b.submit t ⟨packet, s.mailbox⟩).2 = .ioError
  · -- refused for good: it is acknowledged at once, before everything that is awaited
    have hfails : Reference.carries s shape.badBlocks packet = false := by
      simp [Reference.carries, hrefused.1 hout]
    have hstays : (b.submit t ⟨packet, s.mailbox⟩).1.inLine s.mailbox = b.inLine s.mailbox := by
      rw [hline, hout]
      exact List.append_nil _
    have hacknowledge := acknowledge_of_room (s := s.picked rest) hroom packet false
    rw [hout, answered, hacknowledge]
    refine h.overtake queue rfl rfl rfl ?_ hfails
    exact congrArg (· ++ s.pending.toList) hstays
  · -- taken, or put off: from now on it is awaited, behind the others
    have hcarried : Reference.carries s shape.badBlocks packet = true := by
      simp [Reference.carries, good, mt hrefused.2 hout]
    have hanswered := awaited_answered (s := s.picked rest) hfree hout hline
    obtain ⟨hawaited, hchannel⟩ := hanswered
    have hawaits : s.awaited b = b.inLine s.mailbox := by simp [awaited, hfree]
    have hacked := congrArg Channel.acked hchannel
    rw [show (s.picked rest).channel.acked = s.channel.acked from rfl] at hacked
    refine ⟨_, h.wait queue hterms (congrArg Channel.submitted hchannel) hacked ?_ hcarried⟩
    rw [hawaits]
    exact hawaited

/-- The packet that a session holds is not refused for good, and keeps its place. -/
theorem InTurn.retry {packet : Packet} {t : Transfer}
    (h : InTurn shape.badBlocks submitted popped s b taken line) (hguest : Ram.Guest shape s)
    (hfits : b.driver.driver.Fits shape)
    (hline : (b.submit t ⟨packet, s.mailbox⟩).1.inLine s.mailbox = b.inLine s.mailbox ++
      (Request.toMailbox s.mailbox (Request.takenWith ⟨packet, s.mailbox⟩
        (b.submit t ⟨packet, s.mailbox⟩).2)).map (·.packet))
    (hheld : s.pending = some packet) (good : s.accepts packet = true)
    (ht : s.transfer? packet = some t) :
    InTurn shape.badBlocks submitted popped
      (s.unheld.answered packet (b.submit t ⟨packet, s.mailbox⟩).2)
      (b.submit t ⟨packet, s.mailbox⟩).1 taken line := by
  have may : s.MayAsk ⟨t, ⟨packet, s.mailbox⟩, .dispatched⟩ := ⟨good, ht, rfl⟩
  have hrefused := hguest.refused_iff hfits.shape_eq may b.arena
  have hawaits : s.awaited b = b.inLine s.mailbox ++ [packet] := by rw [awaited, hheld]; rfl
  have hcarried := h.carried packet (by rw [hawaits]; simp)
  -- it was not refused for good when it was taken, and bad blocks stay the same
  have hout : (b.submit t ⟨packet, s.mailbox⟩).2 ≠ .ioError := by
    intro hout
    simp [Reference.carries, hrefused.1 hout] at hcarried
  have hanswered := awaited_answered (s := s.unheld) rfl hout hline
  obtain ⟨hawaited, hchannel⟩ := hanswered
  have hsame : (s.unheld.answered packet (b.submit t ⟨packet, s.mailbox⟩).2).awaited
      (b.submit t ⟨packet, s.mailbox⟩).1 = s.awaited b := hawaited.trans hawaits.symm
  refine h.congr (terms_answered s.unheld packet _) (congrArg Channel.submitted hchannel) ?_ ?_
  · rw [hsame, hchannel]
    rfl
  · rw [hsame]
    exact fun _ => id

/-- Collecting moves packets from those awaited to those acknowledged, in the same order. -/
theorem InTurn.collect (h : InTurn bad submitted popped s b taken line)
    (hid : s.mailbox < b.mailboxes.length)
    (hslots : s.channel.acked.length + (b.mailbox s.mailbox).completions.length ≤
      s.channel.capacity) :
    InTurn bad submitted popped (s.collect b).1 (s.collect b).2 taken line := by
  have hacks := collect_acksOnly s b
  have hacked : (s.collect b).1.channel.acked = _ := (acknowledgeAll_of_room hslots).1
  refine h.congr hacks.terms hacks.submitted ?_ ?_
  · rw [hacked, awaited_collect hid, awaited, Backend.inLine]
    simp only [List.append_assoc, List.map_append, List.map_map]
    -- without its mark, an acknowledgement is the packet of its completion
    rfl
  · intro packet hmem
    rw [awaited_collect hid] at hmem
    rw [awaited, Backend.inLine, List.append_assoc]
    exact List.mem_append_right _ hmem

theorem InTurn.clear (h : InTurn bad submitted popped s b taken line)
    (hid : s.mailbox < b.mailboxes.length) (event : Event) :
    InTurn bad submitted popped (s.clear b event).1 (s.clear b event).2 taken line := by
  cases event with
  | completion =>
    have hawaited : s.awaited (b.modifyMailbox s.mailbox Mailbox.clearSignals) = s.awaited b := by
      rw [awaited, Backend.inLine, Backend.mailbox_modifyMailbox hid]
      rfl
    refine h.congr rfl rfl (congrArg (fun packets => (s.channel.acked ++ packets).map _) hawaited)
      ?_
    show ∀ packet ∈ s.awaited (b.modifyMailbox s.mailbox Mailbox.clearSignals), _
    rw [hawaited]
    exact fun _ => id
  | _ => exact h.congr rfl rfl rfl fun _ => id

/-- The order is kept by every act; a packet taken goes to the end of the line, or to the front of
those awaited. -/
theorem InTurn.act (h : InTurn shape.badBlocks submitted popped s b taken line) (hs : s.Poised)
    (hguest : Ram.Guest shape s) (hfits : b.driver.driver.Fits shape)
    (hbalanced : Balanced Ram.custody submitted popped s b) (act : s.Act b s' b') :
    ∃ taken' line', InTurn shape.badBlocks submitted popped s' b' taken' line' := by
  obtain ⟨_, _, _, hbooks, -⟩ := hbalanced
  have hid := hbooks.mailbox_lt
  have hline := fun t request => Backend.inLine_submit hfits hid hbooks.isOpen t request
  cases act with
  | collect => exact ⟨taken, line, h.collect hid hbooks.slots⟩
  | gauge => exact ⟨taken, line, h.congr rfl rfl rfl fun _ => id⟩
  | @reject packet rest _ queue may failed =>
    -- a packet that fails the checks is acknowledged without the device
    have hfails : Reference.carries s shape.badBlocks packet = false := by
      simp [Reference.carries, failed]
    rw [acknowledge_of_room (hbooks.pick queue may).slot]
    exact ⟨_, h.overtake queue rfl rfl rfl rfl hfails⟩
  | take _ queue may good ht =>
    exact ⟨_, h.take hguest hfits (hs.pending_eq_none may) (hbooks.pick queue may).slot
      (hline _ _) queue good ht⟩
  | retry _ hheld good ht =>
    exact ⟨taken, line, h.retry hguest hfits (hline _ _) hheld good ht⟩
  | clear _ event => exact ⟨taken, line, h.clear hid event⟩
  | sync => exact ⟨taken, line, h.congr rfl rfl rfl fun _ => id⟩

theorem InTurn.client {sub' pop' : List Packet} {channel : Channel}
    (h : InTurn bad submitted popped s b taken line) (used : s.channel.Used channel sub' pop') :
    InTurn bad (submitted ++ sub') (popped ++ pop') { s with channel := channel } b taken line := by
  have hterms := terms_used used
  refine ⟨?_, h.places, ?_, h.order.imp fun hpair => hpair.congr hterms, ?_⟩
  · rw [used.submitted, h.queue, List.append_assoc]
  · have hacks := h.acks
    rw [used.acked, ← List.append_assoc] at hacks
    exact hacks
  · intro packet hmem
    rw [Reference.carries_congr hterms]
    exact h.carried packet hmem

/-- A session that was just opened has taken nothing. -/
theorem InTurn.opened {ram : Ram} (hqueue : ram.queue = [])
    (before : Backend.Foreigns s.mailbox { driver := ⟨ram, [], []⟩ } b)
    (mailbox : s.mailbox = b.mailboxes.length) (fresh : s.Fresh) :
    InTurn bad [] [] s b.addMailbox.1 [] [] := by
  have hempty : Ram.custody.Holds ram [] := by
    show [] = ram.queue.map (·.request)
    rw [hqueue]
    rfl
  obtain ⟨_, rfl, hheld, -⟩ := unclaimed hempty before
  have hbox : b.addMailbox.1.mailbox s.mailbox = {} := by
    rw [mailbox]
    exact Backend.mailbox_addMailbox_new b
  -- a mailbox number is given once, so nothing that the device holds is for this one
  have hawaited : s.awaited b.addMailbox.1 = [] := by
    rw [awaited, Backend.inLine, hbox, fresh.pending]
    show [] ++ (Request.toMailbox s.mailbox b.driver.driver.heldRequests).map (·.packet) ++ [] = []
    rw [hheld]
    rfl
  refine ⟨?_, .refl _, ?_, .nil, ?_⟩
  · rw [fresh.submitted]
    rfl
  · rw [fresh.acked, hawaited]
    rfl
  · simp [hawaited]

/-- The order of the acknowledgements along every run of the session. -/
theorem Run.inTurn {ram : Ram} (hqueue : ram.queue = [])
    (run : Run ⟨ram, [], []⟩ submitted popped s b) (hguest : Ram.Guest ram.shape s) :
    b.driver.driver.Fits ram.shape ∧
      ∃ taken line, InTurn ram.badBlocks submitted popped s b taken line := by
  have hempty : Ram.custody.Holds ram [] := by
    show [] = ram.queue.map (·.request)
    rw [hqueue]
    rfl
  -- along the run the terms stay, so the session is the same guest at every point of it
  induction run with
  | opened before mailbox fresh =>
    have hfits : ram.Fits ram.shape := ⟨rfl, fun _ => hempty.symm⟩
    have hbefore := Backend.fits_foreigns (b := { driver := ⟨ram, [], []⟩ }) hfits before
    exact ⟨⟨hbefore.shape_eq, hbefore.idle⟩, [], [], .opened hqueue before mailbox fresh⟩
  | @foreign _ _ s b b' earlier hforeign ih =>
    obtain ⟨hfits, taken, line, h⟩ := ih hguest
    obtain ⟨_, _, _, hbooks, -⟩ := earlier.balanced hempty
    have hline := Backend.inLine_foreign hfits hbooks.mailbox_lt hbooks.isOpen hforeign
    have hawaited : s.awaited b' = s.awaited b := congrArg (· ++ s.pending.toList) hline
    refine ⟨Backend.fits_foreign hfits hforeign, taken, line, h.congr rfl rfl ?_ ?_⟩
    · rw [hawaited]
    · rw [hawaited]
      exact fun _ => id
  | act earlier hact ih =>
    have hbefore := hguest.congr hact.terms_eq.symm
    obtain ⟨hfits, taken, line, h⟩ := ih hbefore
    exact ⟨hact.acts.fits hfits,
      InTurn.act h earlier.poised hbefore hfits (earlier.balanced hempty) hact⟩
  | client _ used ih =>
    obtain ⟨hfits, taken, line, h⟩ := ih (hguest.congr (terms_used used).symm)
    exact ⟨hfits, taken, line, h.client used⟩

end Session

namespace Course

open BlockMux.System

/-- Along every course of events on a device in memory, acknowledgements enter the queue in the
order in which the packets were taken, except that a packet that is not carried out may come before
packets that were taken earlier and are. -/
theorem acknowledged_inTurn (c : Course Ram) (hqueue : c.driver.queue = [])
    (hbuffers : c.driver.buffers = []) (hbound : c.driver.contents.size ≤ maxWord) {seat : Nat}
    {s : Session} (hside : KeepsSide seat c.steps) (hs : c.final.session? seat = some s) :
    ∃ taken line, s.InTurn c.driver.badBlocks (c.submitted seat) (c.popped seat)
      c.final.mux.backend taken line := by
  have hguest := (c.lodges hbuffers hbound).guest s ⟨seat, s, hs, rfl⟩
  exact ((c.run_of_session hside hs).inTurn hqueue hguest).2

/-- A device that can keep one transfer waiting, asked for one block that is in the window and one
that is not. -/
def hasty : Course Ram where
  driver := { contents := Memory.zeroed 128, blockSize := 16, queueDepth := some 1 }
  config := { rules := [{}] }
  steps := [.openSession "ram_quota=1M, tx_buf_size=64, label=a" [],
    .client 0 (.request ⟨.read, 1, 1, 0, 16, false⟩ none),
    .client 0 (.request ⟨.read, 9, 1, 0, 16, false⟩ none),
    .process 0 .submitted, .device .completeNext, .process 0 .completion]

/-- Both packets are acknowledged, the one taken second before the one taken first. -/
theorem overtaken_by_failure :
    ∃ s, hasty.final.session? 0 = some s ∧ s.channel.submitted = [] ∧
      ¬(hasty.popped 0 ++ s.channel.acked).map Packet.unmarked <+:
        (hasty.submitted 0).map Packet.unmarked := by
  have hend : (hasty.final.session? 0).any (fun s => s.channel.submitted == [] &&
      !((hasty.popped 0 ++ s.channel.acked).map Packet.unmarked).isPrefixOf
        ((hasty.submitted 0).map Packet.unmarked)) = true := by decide +kernel
  obtain ⟨s, hs, hrest⟩ := (Option.any_eq_true _ _).1 hend
  rw [Bool.and_eq_true, beq_iff_eq, Bool.not_eq_true'] at hrest
  refine ⟨s, hs, hrest.1, fun hfifo => ?_⟩
  rw [List.isPrefixOf_iff_prefix.2 hfifo] at hrest
  simp at hrest

theorem acknowledged_inTurn_hasty :
    ∃ s, hasty.final.session? 0 = some s ∧ ∃ taken line,
      s.InTurn hasty.driver.badBlocks (hasty.submitted 0) (hasty.popped 0)
        hasty.final.mux.backend taken line := by
  have hopen : (hasty.final.session? 0).isSome = true := by decide +kernel
  obtain ⟨s, hs⟩ := Option.isSome_iff_exists.1 hopen
  exact ⟨s, hs, acknowledged_inTurn hasty rfl rfl (by decide) (by decide) hs⟩

end Course
end BlockMux
