import BlockMux.Proofs.Recorded
import BlockMux.Proofs.Runs

/-!
# Courses of events

What a multiplexer starts with, and the steps that follow. The driver is recorded, so that the
transfers it was asked for and the completions it sent can be spoken of; without the log the
course is that of the plain multiplexer.

* `askedFor_submit`, `askedFor_foreign` — how the part of the log about one mailbox grows.
* `Acts.backend` — what a session at work does to its backend.
* `run_of_session` — what a course is for one session.
* `plain_final`, `plain_submitted`, `plain_popped` — the course without the log.
-/

namespace BlockMux

/-! ## What the log tells of one mailbox -/

namespace Exchange

/-- The exchanges for a mailbox. -/
def toMailbox (id : Nat) (log : List Exchange) : List Exchange :=
  log.filter (·.request.mailbox == id)

theorem toMailbox_concat_of_eq {id : Nat} {e : Exchange} (h : e.request.mailbox = id)
    (log : List Exchange) : toMailbox id (log ++ [e]) = toMailbox id log ++ [e] := by
  simp [toMailbox, h]

theorem toMailbox_concat_of_ne {id : Nat} {e : Exchange} (h : e.request.mailbox ≠ id)
    (log : List Exchange) : toMailbox id (log ++ [e]) = toMailbox id log := by
  simp [toMailbox, h]

end Exchange

namespace Backend

variable {δ : Type} [Device δ]

/-- What the driver of a backend was asked for on behalf of a mailbox. -/
def askedFor (b : Backend (Recorded δ)) (id : Nat) : List Exchange :=
  Exchange.toMailbox id b.driver.exchanges

theorem exchanges_submit (b : Backend (Recorded δ)) (t : Transfer) (request : Request) :
    (b.submit t request).1.driver.exchanges =
      b.driver.exchanges ++ [⟨t, request, (b.submit t request).2⟩] := by
  rw [driver_submit]
  rfl

theorem askedFor_submit (b : Backend (Recorded δ)) (t : Transfer) (packet : Packet) (id : Nat) :
    (b.submit t ⟨packet, id⟩).1.askedFor id =
      b.askedFor id ++ [⟨t, ⟨packet, id⟩, (b.submit t ⟨packet, id⟩).2⟩] := by
  rw [askedFor, exchanges_submit]
  exact Exchange.toMailbox_concat_of_eq (by rfl) _

theorem exchanges_advance (b : Backend (Recorded δ)) (step : DeviceStep) :
    (b.advance step).1.driver.exchanges = b.driver.exchanges := by
  rw [driver_advance]
  rfl

theorem exchanges_allocate {b b' : Backend (Recorded δ)} {size : Nat} {buffer : SharedBuffer}
    (h : b.allocate size = some (b', buffer)) : b'.driver.exchanges = b.driver.exchanges := by
  obtain ⟨found, hfound, heq⟩ := Option.map_eq_some_iff.1 h
  obtain ⟨inner, -, hinner⟩ := Option.map_eq_some_iff.1 hfound
  simp only [Prod.mk.injEq] at heq
  rw [← heq.1, ← hinner]

theorem askedFor_foreign {id : Nat} {b b' : Backend (Recorded δ)} (h : Foreign id b b') :
    b'.askedFor id = b.askedFor id := by
  unfold askedFor
  cases h with
  | submit t other => rw [exchanges_submit, Exchange.toMailbox_concat_of_ne other]
  | advance step => rw [exchanges_advance]
  | sync => rfl
  | allocate h => rw [exchanges_allocate h]
  | release buffer => rfl
  | addMailbox => rfl
  | mailbox h f => rfl
  | arena arena => rfl

theorem askedFor_foreigns {id : Nat} {b b' : Backend (Recorded δ)} (h : Foreigns id b b') :
    b'.askedFor id = b.askedFor id := by
  induction h with
  | refl => rfl
  | tail _ last ih => exact (askedFor_foreign last).trans ih

end Backend

/-- A session may be asking the driver so: the packet passed its checks, the transfer is the one
that the packet stands for, and the session's own mailbox is to be reported to. -/
structure Session.MayAsk (s : Session) (e : Exchange) : Prop where
  accepted : s.accepts e.request.packet = true
  transfer : s.transfer? e.request.packet = some e.transfer
  mailbox : e.request.mailbox = s.mailbox

theorem Session.MayAsk.congr {s s' : Session} {e : Exchange} (h : s.MayAsk e)
    (hterms : s'.terms = s.terms) : s'.MayAsk e := by
  have hmailbox : s'.mailbox = s.mailbox := congrArg Terms.mailbox hterms
  refine ⟨?_, ?_, ?_⟩
  · rw [accepts_congr hterms]
    exact h.accepted
  · rw [transfer?_congr hterms]
    exact h.transfer
  · rw [hmailbox]
    exact h.mailbox

/-- What a session at work does to its backend. Apart from its mailbox and the write cache, it has
the driver do nothing but what it may ask for. -/
theorem Session.Acts.backend {δ : Type} [Driver δ] {s s' : Session} {b b' : Backend δ}
    {P : Backend δ → Prop} (acts : s.Acts b s' b')
    (hmailbox : ∀ {c} id f, P c → P (c.modifyMailbox id f))
    (hsync : ∀ {c}, P c → P c.sync)
    (hsubmit : ∀ {c t packet}, (∀ outcome, s.MayAsk ⟨t, ⟨packet, s.mailbox⟩, outcome⟩) → P c →
      P (c.submit t ⟨packet, s.mailbox⟩).1)
    (hb : P b) : P b' := by
  have hpair : s'.terms = s.terms ∧ P b' := by
    refine acts.invariant (P := fun t c => t.terms = s.terms ∧ P c) ?_ ⟨rfl, hb⟩
    rintro t c t' c' act ⟨hterms, hc⟩
    refine ⟨act.terms_eq.trans hterms, ?_⟩
    have hid : t.mailbox = s.mailbox := congrArg Terms.mailbox hterms
    -- the driver is asked for checked packets only, also when they are tried again
    have hasks : ∀ {packet : Packet} {transfer : Transfer}, t.accepts packet = true →
        t.transfer? packet = some transfer → P (c.submit transfer ⟨packet, t.mailbox⟩).1 := by
      intro packet transfer good htransfer
      have may : ∀ outcome, t.MayAsk ⟨transfer, ⟨packet, s.mailbox⟩, outcome⟩ :=
        fun _ => ⟨good, htransfer, hid.symm⟩
      rw [hid]
      exact hsubmit (fun outcome => (may outcome).congr hterms.symm) hc
    cases act with
    | collect => exact hmailbox _ _ hc
    | gauge => exact hc
    | reject => exact hc
    | take _ _ _ good htransfer => exact hasks good htransfer
    | retry _ _ good htransfer => exact hasks good htransfer
    | clear _ event =>
      cases event with
      | completion => exact hmailbox _ _ hc
      | _ => exact hc
    | sync => exact hsync hc
  exact hpair.2

/-! ## Courses -/

/-- A course of events: what a multiplexer is made of, and the steps from there on. -/
structure Course (δ : Type) where
  driver : δ
  config : Config
  table : Option PartitionTable := none
  steps : List Step

namespace Course

open BlockMux.System

variable {δ : Type}

/-- The multiplexer at the start. -/
def mux (c : Course δ) : Multiplexer δ := .create c.driver c.config c.table

/-- The system at the start. -/
def start (c : Course δ) : System (Recorded δ) := recorded c.mux

variable [Device δ]

/-- The system at the end. -/
def final (c : Course δ) : System (Recorded δ) := c.start.runSteps c.steps

/-- The packets that the client on a seat has submitted. -/
def submitted (c : Course δ) (seat : Nat) : List Packet :=
  submittedBy seat (c.start.transcript c.steps)

/-- The acknowledgements that the client on a seat has taken. -/
def popped (c : Course δ) (seat : Nat) : List Packet :=
  poppedBy seat (c.start.transcript c.steps)

theorem plain_final (c : Course δ) :
    c.final.map Recorded.driver = (create c.mux).runSteps c.steps :=
  recorded_runSteps c.mux c.steps

theorem plain_submitted (c : Course δ) (seat : Nat) :
    c.submitted seat = submittedBy seat ((create c.mux).transcript c.steps) := by
  rw [submitted, start, recorded_transcript]

theorem plain_popped (c : Course δ) (seat : Nat) :
    c.popped seat = poppedBy seat ((create c.mux).transcript c.steps) := by
  rw [popped, start, recorded_transcript]

theorem orderly (c : Course δ) : c.final.Orderly := (Orderly.create _).runSteps c.steps

theorem run_of_session (c : Course δ) {seat : Nat} {s : Session} (hside : KeepsSide seat c.steps)
    (hs : c.final.session? seat = some s) :
    Session.Run ⟨c.driver, [], []⟩ (c.submitted seat) (c.popped seat) s c.final.mux.backend :=
  System.run_of_session hside hs

end Course
end BlockMux
