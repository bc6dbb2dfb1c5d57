import BlockMux.Proofs.Ledger

/-!
# The credit of a session

A session counts the packets that it has taken and not acknowledged, and takes another one only
while a free acknowledgement slot is not spoken for. So its count is exact, it never exceeds the
number of free slots, and no acknowledgement is lost for want of a slot.

The last is also true in the middle of the work of an event. A strict session does the same work,
but stops at an acknowledgement that would be lost and at a difference that would fall below zero.
It never stops.

Main statements:

* `process?_of_balanced` — while the books balance, the strict session does all of its work.
* `credit_kept` — the credit of a session at every point of every course of events.
-/

namespace BlockMux

/-! ## Strict sessions -/

/-- The number of free acknowledgement slots, if no more slots are taken than there are. -/
def Channel.ackSlotsFree? (ch : Channel) : Option Nat :=
  if ch.acked.length ≤ ch.capacity then some (ch.capacity - ch.acked.length) else none

namespace Session

variable {δ : Type}

/-- Acknowledges a packet that is counted as in flight and that has a slot in the queue. -/
def acknowledge? (s : Session) (packet : Packet) (success : Bool) : Option Session :=
  match s.channel.acknowledge { packet with succeeded := success } with
  | .error _ => none
  | .ok channel =>
    if s.inFlight = 0 then none
    else some { s with channel := channel, inFlight := s.inFlight - 1 }

/-- Acknowledges finished requests in order. -/
def acknowledgeAll? (s : Session) (completions : List Completion) : Option Session :=
  completions.foldlM (fun s completion => s.acknowledge? completion.packet completion.success) s

/-- Acknowledges what the driver has finished. -/
def collect? (s : Session) (b : Backend δ) : Option (Session × Backend δ) := do
  let s' ← s.acknowledgeAll? (b.mailbox s.mailbox).completions
  return (s', b.modifyMailbox s.mailbox Mailbox.empty)

/-- Asks the driver for the transfer of a packet. -/
def dispatch? [Driver δ] (s : Session) (b : Backend δ) (packet : Packet) :
    Option (Session × Backend δ) :=
  match s.transfer? packet with
  | none => (s.acknowledge? packet false).map fun s => (s, b)
  | some transfer =>
    match b.submit transfer ⟨packet, s.mailbox⟩ with
    | (b, .dispatched) => some (s, b)
    | (b, .congested) => some ({ s with driverCongested := true, pending := some packet }, b)
    | (b, .ioError) => (s.acknowledge? packet false).map fun s => (s, b)

/-- Acknowledges what is finished and tells whether a packet may be taken. -/
def prepare? (s : Session) (b : Backend δ) : Option (Session × Backend δ × Bool) := do
  let (s, b) ← s.collect? b
  if s.driverCongested then return (s, b, false)
  else
    let free ← s.channel.ackSlotsFree?
    let full : Bool := free ≤ s.inFlight
    return ({ s with ackQueueFull := full }, b, !full)

/-- Takes `packet`, the first of the submit queue, where `rest` comes after it. -/
def take? [Driver δ] (s : Session) (b : Backend δ) (packet : Packet) (rest : List Packet) :
    Option (Session × Backend δ) :=
  let s := { s with channel.submitted := rest, inFlight := s.inFlight + 1 }
  if s.accepts packet then s.dispatch? b packet
  else (s.acknowledge? packet false).map fun s => (s, b)

/-- Works through the packets of the submit queue until one may not be taken. -/
def drainQueue? [Driver δ] : List Packet → Session → Backend δ → Option (Session × Backend δ)
  | [], s, b => do
    let (s, b, _) ← s.prepare? b
    return (s, b)
  | packet :: rest, s, b => do
    match ← s.prepare? b with
    | (s, b, false) => return (s, b)
    | (s, b, true) =>
      let (s, b) ← s.take? b packet rest
      drainQueue? rest s b

/-- Takes as many submitted packets as may be taken. -/
def drain? [Driver δ] (s : Session) (b : Backend δ) : Option (Session × Backend δ) :=
  drainQueue? s.channel.submitted s b

/-- Tries a refused transfer again, and goes on with the submit queue unless it is refused
again. -/
def resume? [Driver δ] (s : Session) (b : Backend δ) : Option (Session × Backend δ) := do
  let (s, b) ← s.collect? b
  match s.pending with
  | none => s.drain? b
  | some packet =>
    let (s, b) ← { s with pending := none, driverCongested := false }.dispatch? b packet
    if s.driverCongested then return (s, b) else s.drain? b

/-- Does the work of an event, whether it was signalled or not. -/
def process? [Driver δ] (s : Session) (b : Backend δ) : Event → Option (Session × Backend δ)
  | .submitted => s.drain? b
  | .ackFreed => s.resume? b
  | .completion => s.resume? b

/-- Handles an event: clears it and does its work. -/
def handle? [Driver δ] (s : Session) (b : Backend δ) (event : Event) :
    Option (Session × Backend δ) :=
  let (s, b) := s.clear b event
  s.process? b event

/-! ## What a strict session does -/

/-- A packet that is counted and has a slot is acknowledged. -/
theorem acknowledge?_of_room {s : Session} (hcounted : 1 ≤ s.inFlight)
    (hroom : s.channel.acked.length < s.channel.capacity) (packet : Packet) (success : Bool) :
    s.acknowledge? packet success = some (s.acknowledge packet success) := by
  have hnot : s.inFlight ≠ 0 := by omega
  rw [acknowledge_of_room hroom, acknowledge?, Channel.acknowledge,
    if_neg (Nat.not_le_of_lt hroom)]
  dsimp only
  rw [if_neg hnot]

/-- With a count and a slot for each of them, all completions are acknowledged. -/
theorem acknowledgeAll?_of_room {s : Session} {completions : List Completion}
    (hcounted : completions.length ≤ s.inFlight)
    (hroom : s.channel.acked.length + completions.length ≤ s.channel.capacity) :
    s.acknowledgeAll? completions = some (s.acknowledgeAll completions) := by
  -- every acknowledgement uses up one count and one slot
  induction completions generalizing s with
  | nil => rfl
  | cons completion completions ih =>
    rw [List.length_cons] at hcounted hroom
    have hslot : s.channel.acked.length < s.channel.capacity := by omega
    have hfirst := acknowledge?_of_room (by omega) hslot completion.packet completion.success
    rw [acknowledgeAll?, List.foldlM_cons, hfirst, Option.bind_eq_bind, Option.bind_some]
    rw [acknowledge_of_room hslot]
    refine (ih ?_ ?_).trans ?_
    · show completions.length ≤ s.inFlight - 1
      omega
    · simp only [List.length_append, List.length_singleton]
      omega
    · rw [← acknowledge_of_room hslot]
      rfl

section Driver

variable [Driver δ]

/-- Only the acknowledgement of a refused packet could stop the session. -/
theorem dispatch?_of_room {s : Session} (hcounted : 1 ≤ s.inFlight)
    (hroom : s.channel.acked.length < s.channel.capacity) (b : Backend δ) (packet : Packet) :
    s.dispatch? b packet = some (s.dispatch b packet) := by
  have hacknowledge := acknowledge?_of_room hcounted hroom packet false
  unfold dispatch? dispatch
  cases s.transfer? packet with
  | none =>
    dsimp only
    rw [hacknowledge]
    rfl
  | some transfer =>
    dsimp only
    rcases b.submit transfer ⟨packet, s.mailbox⟩ with ⟨b', outcome⟩
    cases outcome with
    | dispatched => rfl
    | congested => rfl
    | ioError =>
      dsimp only
      rw [hacknowledge]
      rfl

theorem take?_of_mayTake {s : Session} (may : s.MayTake) (b : Backend δ) (packet : Packet)
    (rest : List Packet) : s.take? b packet rest = some (s.take b packet rest) := by
  -- a slot was free and not spoken for, and the packet taken is counted
  have hslots := may.room
  unfold Channel.ackSlotsFree at hslots
  have hroom : (s.picked rest).channel.acked.length < (s.picked rest).channel.capacity := by
    show s.channel.acked.length < s.channel.capacity
    omega
  have hcounted : 1 ≤ (s.picked rest).inFlight := Nat.le_add_left 1 s.inFlight
  show (if (s.picked rest).accepts packet then (s.picked rest).dispatch? b packet
    else ((s.picked rest).acknowledge? packet false).map fun s => (s, b)) = _
  rw [take_eq]
  split
  · exact dispatch?_of_room hcounted hroom b packet
  · rw [acknowledge?_of_room hcounted hroom]
    rfl

end Driver

/-! ## While the books balance -/

section Balanced

variable [Device δ] {custody : Custody δ} {submitted popped : List Packet} {s : Session}
  {b : Backend (Recorded δ)}

/-- What balanced books say of the counts of a session. -/
theorem Balanced.counts (h : Balanced custody submitted popped s b) :
    s.pending.toList.length + (b.mailbox s.mailbox).completions.length ≤ s.inFlight ∧
      s.inFlight + s.channel.acked.length ≤ s.channel.capacity := by
  obtain ⟨taken, failed, held, hbooks, -⟩ := h
  have hcredit := hbooks.credit
  simp only [outstanding, List.length_append, List.length_map, List.length_nil] at hcredit
  exact ⟨by omega, hbooks.room⟩

/-- The books balance along every chain of acts. -/
theorem Balanced.acts {s' : Session} {b' : Backend (Recorded δ)}
    (h : Balanced custody submitted popped s b) (hs : s.Poised) (acts : s.Acts b s' b') :
    Balanced custody submitted popped s' b' := by
  have hpair : s'.Poised ∧ Balanced custody submitted popped s' b' := by
    refine acts.invariant (P := fun t c => t.Poised ∧ Balanced custody submitted popped t c) ?_
      ⟨hs, h⟩
    intro t c t' c' act hP
    exact ⟨act.poised hP.1, hP.2.act hP.1 act⟩
  exact hpair.2

theorem collect?_of_balanced (h : Balanced custody submitted popped s b) :
    s.collect? b = some (s.collect b) := by
  obtain ⟨hcounted, hroom⟩ := h.counts
  rw [collect?, acknowledgeAll?_of_room (by omega) (by omega)]
  rfl

theorem prepare?_of_balanced (h : Balanced custody submitted popped s b) (hs : s.Poised) :
    s.prepare? b = some (s.prepare b) := by
  have hcollected := h.act hs (.collect s b)
  obtain ⟨-, hroom⟩ := hcollected.counts
  have hslots : (s.collect b).1.channel.ackSlotsFree? =
      some (s.collect b).1.channel.ackSlotsFree := if_pos (by omega)
  rw [prepare?, collect?_of_balanced h, Option.bind_eq_bind, Option.bind_some, prepare]
  dsimp only
  rw [hslots]
  split <;> rfl

theorem drainQueue?_of_balanced {queue : List Packet} (h : Balanced custody submitted popped s b)
    (hs : s.Poised) (hqueue : s.channel.submitted = queue) :
    drainQueue? queue s b = some (drainQueue queue s b) := by
  -- on the packets left; the books balance again whenever the next packet is looked at
  induction queue generalizing s b with
  | nil =>
    rw [drainQueue?, prepare?_of_balanced h hs]
    rfl
  | cons packet rest ih =>
    have hprepare := prepare_acts s b
    rw [drainQueue?, drainQueue, prepare?_of_balanced h hs, Option.bind_eq_bind, Option.bind_some]
    rcases prepare_cases s b with ⟨-, heq⟩ | ⟨-, heq⟩ | ⟨may, heq⟩
    · rw [heq]
      rfl
    · rw [heq]
      rfl
    · rw [heq] at hprepare ⊢
      dsimp only at hprepare ⊢
      have hqueue' : (s.ready b).channel.submitted = packet :: rest :=
        (submitted_ready s b).trans hqueue
      -- the packet taken leaves balanced books behind, so the rest of the queue can follow
      have htaken := hprepare.trans (take_act (s.collect b).2 hqueue' may).acts
      rw [take?_of_mayTake may, Option.bind_eq_bind, Option.bind_some]
      exact ih (h.acts hs htaken) (htaken.poised hs) (submitted_take _ _ packet rest)

theorem drain?_of_balanced (h : Balanced custody submitted popped s b) (hs : s.Poised) :
    s.drain? b = some (s.drain b) :=
  drainQueue?_of_balanced h hs rfl

theorem resume?_of_balanced (h : Balanced custody submitted popped s b) (hs : s.Poised) :
    s.resume? b = some (s.resume b) := by
  have hcollect : s.Acts b (s.collect b).1 (s.collect b).2 := (Act.collect s b).acts
  rw [resume?, resume, collect?_of_balanced h, Option.bind_eq_bind, Option.bind_some]
  rcases hc : s.collect b with ⟨s₁, b₁⟩
  rw [hc] at hcollect
  dsimp only at hcollect ⊢
  have h₁ := h.acts hs hcollect
  have hs₁ := hcollect.poised hs
  cases hheld : s₁.pending with
  | none => exact drain?_of_balanced h₁ hs₁
  | some packet =>
    -- the held packet is counted, so it has a slot whatever the driver answers
    obtain ⟨hcounted, hroom⟩ := h₁.counts
    rw [hheld, Option.toList_some, List.length_singleton] at hcounted
    have hslot : s₁.unheld.channel.acked.length < s₁.unheld.channel.capacity := by
      show s₁.channel.acked.length < s₁.channel.capacity
      omega
    have hone : 1 ≤ s₁.unheld.inFlight := by
      show 1 ≤ s₁.inFlight
      omega
    have hretry := (retry_act hs₁ b₁ hheld).acts
    dsimp only
    rw [show ({ s₁ with pending := none, driverCongested := false } : Session) = s₁.unheld from rfl,
      dispatch?_of_room hone hslot, Option.bind_some]
    split
    · rfl
    · exact drain?_of_balanced (h₁.acts hs₁ hretry) (hretry.poised hs₁)

/-- While the books balance, the strict session does all of its work. -/
theorem process?_of_balanced (h : Balanced custody submitted popped s b) (hs : s.Poised)
    (event : Event) : s.process? b event = some (s.process b event) := by
  cases event with
  | submitted => exact drain?_of_balanced h hs
  | ackFreed => exact resume?_of_balanced h hs
  | completion => exact resume?_of_balanced h hs

theorem handle?_of_balanced (h : Balanced custody submitted popped s b) (hs : s.Poised)
    (event : Event) : s.handle? b event = some (s.handle b event) := by
  have hclear := Act.clear s b event
  exact process?_of_balanced (h.act hs hclear) (hclear.poised hs) event

/-- The credit of a session: `held` are the requests in the custody of the driver. -/
structure Credit (custody : Custody δ) (s : Session) (b : Backend (Recorded δ))
    (held : List Request) : Prop where
  holds : custody.Holds b.driver.driver held
  /-- The driver holds what it took and has not reported as finished. -/
  charged : (Notice.finished b.driver.notices ++ held).Perm
    (Exchange.takenRequests b.driver.exchanges)
  /-- The count is that of the requests held by the driver, the completions not collected, and the
  packet that waits to be tried again. -/
  inFlight : s.inFlight = (Request.toMailbox s.mailbox held).length +
    (b.mailbox s.mailbox).completions.length + (if s.pending.isSome then 1 else 0)
  room : s.inFlight + s.channel.acked.length ≤ s.channel.capacity
  slots : s.inFlight ≤ s.channel.ackSlotsFree
  congested : s.driverCongested = true ↔ s.pending.isSome = true
  /-- Whatever event comes next, all acknowledgements find a slot, and nothing is taken from a
  number that is smaller. -/
  strict : ∀ event, s.process? b event = some (s.process b event) ∧
    s.handle? b event = some (s.handle b event)

theorem Balanced.credit (h : Balanced custody submitted popped s b) (hs : s.Poised) :
    ∃ held, Credit custody s b held := by
  have hbalanced := h
  obtain ⟨taken, failed, held, hbooks, -⟩ := h
  have hcredit := hbooks.credit
  have hroom := hbooks.room
  simp only [outstanding, List.length_append, List.length_map, List.length_nil] at hcredit
  have hpending : s.pending.toList.length = if s.pending.isSome then 1 else 0 := by
    cases s.pending <;> rfl
  -- the books count packets in lists; the credit is the same count in numbers
  refine ⟨held, hbooks.holds, hbooks.charged, by omega, hroom, ?_, by rw [hs.congested],
    fun event => ⟨process?_of_balanced hbalanced hs event, handle?_of_balanced hbalanced hs event⟩⟩
  unfold Channel.ackSlotsFree
  omega

end Balanced
end Session

namespace Course

variable {δ : Type} [Device δ]

/-- With every driver that settles each request at most once, along every course of events and for
every session whose client keeps to its side: the session counts exactly the packets that are under
way, for each of them it has a free acknowledgement slot, and it holds a packet exactly when it is
congested. So the next event, whichever it is, loses no acknowledgement. -/
theorem credit_kept (custody : Custody δ) (c : Course δ) (hempty : custody.Holds c.driver [])
    {seat : Nat} {s : Session} (hside : System.KeepsSide seat c.steps)
    (hs : c.final.session? seat = some s) :
    ∃ held, s.Credit custody c.final.mux.backend held := by
  have run := c.run_of_session hside hs
  exact (run.balanced hempty).credit run.poised

theorem credit_kept_mixed :
    ∃ s, mixed.final.session? 0 = some s ∧ s.inFlight = 3 ∧
      ∃ held, s.Credit Scripted.custody mixed.final.mux.backend held := by
  have hcounted : (mixed.final.session? 0).any (·.inFlight == 3) = true := by decide +kernel
  obtain ⟨s, hs, hthree⟩ := (Option.any_eq_true _ _).1 hcounted
  have hempty : Scripted.custody.Holds mixed.driver [] := rfl
  exact ⟨s, hs, by simpa using hthree, credit_kept Scripted.custody mixed hempty (by decide) hs⟩

end Course
end BlockMux
