import BlockMux.Session.System
import Mathlib.Data.List.Induction

/-!
# What a client has done

The answers of a run tell which packets a client has submitted and which acknowledgements it has
taken. A client that keeps to its own side of the channel changes the queues in no other way: it
puts packets behind the submit queue, and takes acknowledgements from the front of the other one.

Main statements:

* `perform_used` — how a client's step moves the queues of its channel.
* `place_perform` — no step moves the buffer or changes the capacity.
* `transcript_concat`, `submittedBy_concat`, `poppedBy_concat` — histories grow at their end.
-/

namespace BlockMux

/-! ## Steps of a client -/

namespace ClientStep

/-- Whether a step is one of the client's side, rather than of the session's. -/
def isClients : ClientStep → Bool
  | takeSubmitted => false
  | acknowledge _ => false
  | _ => true

/-- The packets that a step with this result put into the submit queue. -/
def submissions : ClientStep → Except ChannelError ClientAnswer → List Packet
  | submit packet, .ok _ => [packet]
  -- the payload of a request is where the channel found room for it
  | request packet _, .ok (.number offset) => [{ packet with offset := offset }]
  | _, _ => []

/-- The acknowledgements that a step with this result took. -/
def pops : ClientStep → Except ChannelError ClientAnswer → List Packet
  | popAck, .ok (.packet (some packet)) => [packet]
  | popAcks, .ok (.packets packets) => packets
  | _, _ => []

end ClientStep

namespace Channel

/-- The client has put `sub` behind the submit queue and taken `pop` from the acknowledgements. -/
structure Used (ch ch' : Channel) (sub pop : List Packet) : Prop where
  submitted : ch'.submitted = ch.submitted ++ sub
  acked : ch.acked = pop ++ ch'.acked
  buffer : ch'.buffer = ch.buffer
  capacity : ch'.capacity = ch.capacity

/-- The queues are as they were. -/
theorem Used.none {ch ch' : Channel} (hsubmitted : ch'.submitted = ch.submitted)
    (hacked : ch'.acked = ch.acked) (hbuffer : ch'.buffer = ch.buffer)
    (hcapacity : ch'.capacity = ch.capacity) : Used ch ch' [] [] :=
  ⟨by rw [hsubmitted, List.append_nil], by rw [hacked, List.nil_append], hbuffer, hcapacity⟩

theorem used_allocate {ch ch' : Channel} {size offset : Nat}
    (h : ch.allocate size = .ok (ch', offset)) : Used ch ch' [] [] := by
  unfold allocate at h
  dsimp only at h
  split at h
  · simp at h
  · simp only [Except.ok.injEq, Prod.mk.injEq] at h
    obtain ⟨rfl, -⟩ := h
    exact .none rfl rfl rfl rfl

theorem used_submit {ch ch' : Channel} {packet : Packet} (h : ch.submit packet = .ok ch') :
    Used ch ch' [packet] [] := by
  unfold submit at h
  split at h
  · simp at h
  · simp only [Except.ok.injEq] at h
    subst h
    exact ⟨rfl, rfl, rfl, rfl⟩

theorem used_popAcksOf {ch : Channel} {acked : List Packet} (h : ch.acked = acked) :
    Used ch (ch.popAcksOf acked) [] acked := by
  -- taking acknowledgements touches only their queue and the reservations
  have hstays : ∀ ch : Channel, (ch.popAcksOf acked).submitted = ch.submitted ∧
      (ch.popAcksOf acked).buffer = ch.buffer ∧ (ch.popAcksOf acked).capacity = ch.capacity := by
    clear h
    induction acked with
    | nil => exact fun ch => ⟨rfl, rfl, rfl⟩
    | cons packet rest ih => exact fun ch => ih _
  obtain ⟨hsubmitted, hbuffer, hcapacity⟩ := hstays ch
  refine ⟨by rw [hsubmitted, List.append_nil], ?_, hbuffer, hcapacity⟩
  rw [acked_popAcksOf ch acked h, List.append_nil, h]

theorem used_request {ch : Channel} (arena : Arena) (packet : Packet)
    (bytes : Option (List UInt8)) :
    Used ch (ch.request arena packet bytes).1
      ((ClientStep.request packet bytes).submissions
        ((ch.request arena packet bytes).2.2.map .number)) [] := by
  unfold request
  split
  · exact .none rfl rfl rfl rfl
  · rename_i ch₁ offset hallocate
    -- whatever fails after the reservation leaves the queues as they were
    have h₁ := used_allocate hallocate
    dsimp only
    split
    · exact h₁
    · split
      · exact h₁
      · rename_i hsubmit
        have h₂ := used_submit hsubmit
        refine ⟨?_, ?_, h₂.buffer.trans h₁.buffer, h₂.capacity.trans h₁.capacity⟩
        · rw [h₂.submitted, h₁.submitted, List.append_nil]
          rfl
        · rw [h₁.acked, h₂.acked]
          rfl

/-- A step of the client's side moves the queues as its result says. -/
theorem perform_used (ch : Channel) (arena : Arena) {step : ClientStep}
    (hstep : step.isClients = true) :
    Used ch (ch.perform arena step).1 (step.submissions (ch.perform arena step).2.2)
      (step.pops (ch.perform arena step).2.2) := by
  cases step with
  | takeSubmitted => simp [ClientStep.isClients] at hstep
  | acknowledge packet => simp [ClientStep.isClients] at hstep
  | allocate size =>
    simp only [perform]
    split
    · exact .none rfl rfl rfl rfl
    · rename_i h
      exact used_allocate h
  | submit packet =>
    simp only [perform]
    split
    · exact .none rfl rfl rfl rfl
    · rename_i h
      exact used_submit h
  | popAck =>
    simp only [perform, popAck]
    cases h : ch.acked with
    | nil => exact .none rfl rfl rfl rfl
    | cons packet rest => exact ⟨(List.append_nil _).symm, h, rfl, rfl⟩
  | popAcks => exact used_popAcksOf rfl
  | write packet bytes =>
    simp only [perform]
    split <;> exact .none rfl rfl rfl rfl
  | request packet bytes => exact used_request arena packet bytes
  | release packet => exact .none rfl rfl rfl rfl
  | read packet len => exact .none rfl rfl rfl rfl
  | view packet => exact .none rfl rfl rfl rfl
  | address packet => exact .none rfl rfl rfl rfl
  | readSignals => exact .none rfl rfl rfl rfl

/-- No step on a channel, from whichever side, moves its buffer or changes its capacity. -/
theorem place_perform (ch : Channel) (arena : Arena) (step : ClientStep) :
    (ch.perform arena step).1.buffer = ch.buffer ∧
      (ch.perform arena step).1.capacity = ch.capacity := by
  by_cases hstep : step.isClients = true
  · have h := ch.perform_used arena hstep
    exact ⟨h.buffer, h.capacity⟩
  · cases step with
    | takeSubmitted =>
      simp only [perform, takeSubmitted]
      cases ch.submitted <;> exact ⟨rfl, rfl⟩
    | acknowledge packet =>
      simp only [perform, acknowledge]
      by_cases hfull : ch.capacity ≤ ch.acked.length
      · simp [hfull]
      · simp [hfull]
    | _ => exact absurd rfl hstep

end Channel

/-! ## Histories of a run -/

namespace System

variable {δ : Type} [Device δ]

/-- The steps of a run with their answers. -/
def transcript (sys : System δ) : List Step → List (Step × Answer)
  | [] => []
  | step :: steps => (step, (sys.step step).2) :: transcript (sys.step step).1 steps

omit [Device δ] in
/-- What one answered step of the client on a seat yields. -/
def ofClient (seat : Nat) (f : ClientStep → Except ChannelError ClientAnswer → List Packet) :
    Step × Answer → List Packet
  | (.client other step, .client result) => if other = seat then f step result else []
  | _ => []

/-- The packets that the client on a seat has submitted, the first one first. -/
def submittedBy (seat : Nat) (answered : List (Step × Answer)) : List Packet :=
  answered.flatMap (ofClient seat ClientStep.submissions)

/-- The acknowledgements that the client on a seat has taken, the first one first. -/
def poppedBy (seat : Nat) (answered : List (Step × Answer)) : List Packet :=
  answered.flatMap (ofClient seat ClientStep.pops)

/-- Whether a step is not the session's side of the channel on a seat, used from outside. -/
def isFairTo (seat : Nat) : Step → Bool
  | .client other step => other != seat || step.isClients
  | _ => true

/-- The client on a seat keeps to its own side of the channel. -/
def KeepsSide (seat : Nat) (steps : List Step) : Prop := ∀ step ∈ steps, isFairTo seat step = true

instance (seat : Nat) (steps : List Step) : Decidable (KeepsSide seat steps) :=
  inferInstanceAs (Decidable (∀ step ∈ steps, isFairTo seat step = true))

theorem runSteps_concat (sys : System δ) (steps : List Step) (step : Step) :
    sys.runSteps (steps ++ [step]) = ((sys.runSteps steps).step step).1 := by
  rw [runSteps, List.foldl_append]
  rfl

theorem transcript_append (sys : System δ) (steps later : List Step) :
    sys.transcript (steps ++ later) =
      sys.transcript steps ++ (sys.runSteps steps).transcript later := by
  -- on the first steps, which move the system that the later ones start from
  induction steps generalizing sys with
  | nil => rfl
  | cons first steps ih =>
    rw [List.cons_append, transcript, ih]
    rfl

theorem transcript_concat (sys : System δ) (steps : List Step) (step : Step) :
    sys.transcript (steps ++ [step]) =
      sys.transcript steps ++ [(step, ((sys.runSteps steps).step step).2)] :=
  transcript_append sys steps [step]

theorem submittedBy_concat (seat : Nat) (answered : List (Step × Answer)) (last : Step × Answer) :
    submittedBy seat (answered ++ [last]) =
      submittedBy seat answered ++ ofClient seat ClientStep.submissions last := by
  simp only [submittedBy, List.flatMap_append, List.flatMap_singleton]

theorem poppedBy_concat (seat : Nat) (answered : List (Step × Answer)) (last : Step × Answer) :
    poppedBy seat (answered ++ [last]) =
      poppedBy seat answered ++ ofClient seat ClientStep.pops last := by
  simp only [poppedBy, List.flatMap_append, List.flatMap_singleton]

theorem KeepsSide.init {seat : Nat} {steps : List Step} {step : Step}
    (h : KeepsSide seat (steps ++ [step])) : KeepsSide seat steps :=
  fun earlier hmem => h earlier (List.mem_append_left _ hmem)

theorem KeepsSide.last {seat : Nat} {steps : List Step} {client : ClientStep}
    (h : KeepsSide seat (steps ++ [.client seat client])) : client.isClients = true := by
  have hlast := h (.client seat client) (by simp)
  simpa [isFairTo] using hlast

end System
end BlockMux
