import BlockMux.Proofs.Acts

/-!
# Sessions in lockstep

Which way a session goes is decided by its queues, flags and counters and by the events that were
signalled. Two sessions on backends of different kinds that agree in these keep doing so, if they
do whenever they acknowledge, take a packet, or try one again. Then all they do in an event, and in
a run of events, is the same on both sides.

Main statements:

* `Lockstep` — a relation between sessions at work that their few single acts keep.
* `Lockstep.process`, `Lockstep.handle`, `Lockstep.run` — the work of events keeps it.
-/

namespace BlockMux.Session

variable {δ ε : Type}

/-- The two sessions go the same way wherever a session has to choose. -/
structure InStep (s t : Session) : Prop where
  submitted : t.channel.submitted = s.channel.submitted
  slots : t.channel.ackSlotsFree = s.channel.ackSlotsFree
  inFlight : t.inFlight = s.inFlight
  pending : t.pending = s.pending
  congested : t.driverCongested = s.driverCongested

/-- A relation between two sessions at work, each on its own backend, that lasts. -/
structure Lockstep [Driver δ] [Driver ε]
    (R : Session → Backend δ → Session → Backend ε → Prop) : Prop where
  inStep : ∀ {s b t c}, R s b t c → InStep s t
  signals : ∀ {s b t c}, R s b t c → ∀ event, t.signals c event = s.signals b event
  collect : ∀ {s b t c}, R s b t c → R (s.collect b).1 (s.collect b).2 (t.collect c).1 (t.collect c).2
  gauge : ∀ {s b t c}, R s b t c → ∀ full,
    R { s with ackQueueFull := full } b { t with ackQueueFull := full } c
  take : ∀ {s b t c}, R s b t c → ∀ packet rest,
    R (s.take b packet rest).1 (s.take b packet rest).2 (t.take c packet rest).1
      (t.take c packet rest).2
  retry : ∀ {s b t c packet}, R s b t c → s.pending = some packet →
    R (s.unheld.dispatch b packet).1 (s.unheld.dispatch b packet).2 (t.unheld.dispatch c packet).1
      (t.unheld.dispatch c packet).2
  clear : ∀ {s b t c}, R s b t c → ∀ event,
    R (s.clear b event).1 (s.clear b event).2 (t.clear c event).1 (t.clear c event).2

namespace Lockstep

variable [Driver δ] [Driver ε] {R : Session → Backend δ → Session → Backend ε → Prop}
  {s t : Session} {b : Backend δ} {c : Backend ε}

theorem prepare (h : Lockstep R) (hR : R s b t c) :
    R (s.prepare b).1 (s.prepare b).2.1 (t.prepare c).1 (t.prepare c).2.1 ∧
      (t.prepare c).2.2 = (s.prepare b).2.2 := by
  have hcollect := h.collect hR
  have hsame := h.inStep hcollect
  unfold Session.prepare
  generalize s.collect b = x at hcollect hsame ⊢
  generalize t.collect c = y at hcollect hsame ⊢
  obtain ⟨s₁, b₁⟩ := x
  obtain ⟨t₁, c₁⟩ := y
  dsimp only at hcollect hsame ⊢
  -- after collecting, both ask the same flags and counters
  have hfull : decide (t₁.channel.ackSlotsFree ≤ t₁.inFlight) =
      decide (s₁.channel.ackSlotsFree ≤ s₁.inFlight) := by rw [hsame.slots, hsame.inFlight]
  by_cases hheld : s₁.driverCongested = true
  · rw [if_pos hheld, if_pos (hsame.congested.trans hheld)]
    exact ⟨hcollect, rfl⟩
  · rw [if_neg hheld, if_neg (hsame.congested ▸ hheld), hfull]
    exact ⟨h.gauge hcollect _, rfl⟩

theorem drainQueue (h : Lockstep R) (queue : List Packet) (hR : R s b t c) :
    R (Session.drainQueue queue s b).1 (Session.drainQueue queue s b).2
      (Session.drainQueue queue t c).1 (Session.drainQueue queue t c).2 := by
  -- on the packets left in the queue: both may take the next one, or neither may
  induction queue generalizing s b t c with
  | nil => exact (h.prepare hR).1
  | cons packet rest ih =>
    obtain ⟨hprepare, hmay⟩ := h.prepare hR
    rw [Session.drainQueue, Session.drainQueue]
    generalize s.prepare b = x at hprepare hmay ⊢
    generalize t.prepare c = y at hprepare hmay ⊢
    obtain ⟨s₁, b₁, may⟩ := x
    obtain ⟨t₁, c₁, may'⟩ := y
    dsimp only at hprepare hmay ⊢
    subst hmay
    cases may' with
    | false => exact hprepare
    | true => exact ih (h.take hprepare packet rest)

theorem drain (h : Lockstep R) (hR : R s b t c) :
    R (s.drain b).1 (s.drain b).2 (t.drain c).1 (t.drain c).2 := by
  rw [Session.drain, Session.drain, (h.inStep hR).submitted]
  exact h.drainQueue _ hR

theorem resume (h : Lockstep R) (hR : R s b t c) :
    R (s.resume b).1 (s.resume b).2 (t.resume c).1 (t.resume c).2 := by
  have hcollect := h.collect hR
  have hsame := h.inStep hcollect
  rw [Session.resume, Session.resume]
  generalize s.collect b = x at hcollect hsame ⊢
  generalize t.collect c = y at hcollect hsame ⊢
  obtain ⟨s₁, b₁⟩ := x
  obtain ⟨t₁, c₁⟩ := y
  dsimp only at hcollect hsame ⊢
  rw [hsame.pending]
  cases hheld : s₁.pending with
  | none => exact h.drain hcollect
  | some packet =>
    -- the same packet is held on both sides, and is refused again on both or on neither
    have hretry := h.retry hcollect hheld
    have hafter := h.inStep hretry
    rw [unheld, unheld] at hretry hafter
    dsimp only
    rw [hafter.congested]
    split
    · exact hretry
    · exact h.drain hretry

theorem process (h : Lockstep R) (hR : R s b t c) (event : Event) :
    R (s.process b event).1 (s.process b event).2 (t.process c event).1 (t.process c event).2 := by
  cases event with
  | submitted => exact h.drain hR
  | ackFreed => exact h.resume hR
  | completion => exact h.resume hR

theorem handle (h : Lockstep R) (hR : R s b t c) (event : Event) :
    R (s.handle b event).1 (s.handle b event).2 (t.handle c event).1 (t.handle c event).2 :=
  h.process (h.clear hR event) event

theorem handleSignalled (h : Lockstep R) (hR : R s b t c) (event : Event) :
    R (s.handleSignalled b event).1 (s.handleSignalled b event).2
      (t.handleSignalled c event).1 (t.handleSignalled c event).2 := by
  rw [Session.handleSignalled, Session.handleSignalled, h.signals hR event]
  split
  · exact hR
  · exact h.handle hR event

theorem handleRound (h : Lockstep R) (hR : R s b t c) :
    R (s.handleRound b).1 (s.handleRound b).2 (t.handleRound c).1 (t.handleRound c).2 :=
  h.handleSignalled (h.handleSignalled (h.handleSignalled hR .submitted) .ackFreed) .completion

theorem handleRounds (h : Lockstep R) (limit : Nat) (hR : R s b t c) :
    R (Session.handleRounds limit s b).1 (Session.handleRounds limit s b).2
      (Session.handleRounds limit t c).1 (Session.handleRounds limit t c).2 := by
  induction limit generalizing s b t c with
  | zero => exact hR
  | succ limit ih =>
    -- both find the same events signalled, so they stop at the same round
    have hquiet : t.isQuiet c = s.isQuiet b := by simp only [isQuiet, h.signals hR]
    rw [Session.handleRounds, Session.handleRounds, hquiet]
    split
    · exact hR
    · exact ih (h.handleRound hR)

theorem run (h : Lockstep R) (hR : R s b t c) :
    R (s.run b).1 (s.run b).2 (t.run c).1 (t.run c).2 := by
  have hsame := h.inStep hR
  rw [Session.run, Session.run, hsame.submitted, hsame.pending]
  exact h.handleRounds _ hR

end Lockstep
end BlockMux.Session
