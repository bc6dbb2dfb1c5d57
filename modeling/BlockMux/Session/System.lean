import BlockMux.Session.Multiplexer
import BlockMux.Transport.ClientStep

/-!
# Systems

A multiplexer with its clients. Each client has a seat, which holds its session while that is
open, and keeps the channel after it is closed. A step is anything that a client, a session, the
device or the one who opens sessions can do.

* `length_seats_step` — a step never takes a seat away.
-/

namespace BlockMux

/-- A client's seat. -/
inductive Seat where
  /-- The session is open. -/
  | active (session : Session)
  /-- The session is closed, and its client keeps the channel. -/
  | retired (channel : Channel)
  deriving DecidableEq, Repr

namespace Seat

/-- The channel of the client. -/
def channel : Seat → Channel
  | active s => s.channel
  | retired channel => channel

/-- Gives the seat a new channel. -/
def withChannel (channel : Channel) : Seat → Seat
  | active s => active { s with channel := channel }
  | retired _ => retired channel

/-- The session, while it is open. -/
def session? : Seat → Option Session
  | active s => some s
  | retired _ => none

end Seat

/-- A multiplexer with the seats of its clients, in the order they were taken. -/
structure System (δ : Type) where
  mux : Multiplexer δ
  seats : List Seat := []

/-- A step of a system. -/
inductive Step where
  /-- Opens a session with argument text, some arguments of which are set anew. -/
  | openSession (text : String) (changes : List (String × String))
  | closeSession (seat : Nat)
  | client (seat : Nat) (step : ClientStep)
  /-- Does the work of an event without looking at its signals. -/
  | process (seat : Nat) (event : Session.Event)
  /-- Handles an event: clears it and does its work. -/
  | handle (seat : Nat) (event : Session.Event)
  /-- Handles the events of a session until none is left. -/
  | run (seat : Nat)
  /-- Reads the completion event of a session, which clears it. -/
  | readCompletionEvent (seat : Nat)
  | sync (seat : Nat)
  | device (step : DeviceStep)
  deriving DecidableEq, Repr

/-- What a step of a system yields. -/
inductive Answer where
  | done
  | number (n : Nat)
  /-- A session was opened. -/
  | opened (session : Session)
  | notOpened (cause : OpenError)
  | client (result : Except ChannelError ClientAnswer)
  | device (result : DeviceAnswer)
  /-- The step names a session that is not open, or a seat that was never taken. -/
  | noSession

namespace System

/-- A system without clients. -/
def create {δ : Type} (mux : Multiplexer δ) : System δ := { mux := mux }

section Sessions

variable {δ : Type} [Driver δ]

/-- Opens a session on a new seat. -/
def openSession (sys : System δ) (text : String) (changes : List (String × String)) :
    System δ × Answer :=
  match Arguments.parse text with
  | .error e => (sys, .notOpened (.arguments e))
  | .ok args =>
    let args := changes.foldl (fun args (key, value) => args.set key value) args
    match sys.mux.openWith args with
    | (mux, .error e) => ({ sys with mux := mux }, .notOpened e)
    | (mux, .ok session) => (⟨mux, sys.seats ++ [.active session]⟩, .opened session)

/-- The open session on a seat. -/
def session? (sys : System δ) (seat : Nat) : Option Session := sys.seats[seat]?.bind Seat.session?

/-- Puts a session back on its seat, with the backend it worked on. -/
def withSession (sys : System δ) (seat : Nat) (s : Session) (b : Backend δ) : System δ :=
  ⟨{ sys.mux with backend := b }, sys.seats.set seat (.active s)⟩

/-- Has the session on a seat work. -/
def work (sys : System δ) (seat : Nat)
    (f : Session → Backend δ → Session × Backend δ) : System δ × Answer :=
  match sys.session? seat with
  | none => (sys, .noSession)
  | some s =>
    let (s, b) := f s sys.mux.backend
    (sys.withSession seat s b, .done)

/-- Closes the session on a seat. -/
def closeSession (sys : System δ) (seat : Nat) : System δ × Answer :=
  match sys.session? seat with
  | none => (sys, .noSession)
  | some s => (⟨sys.mux.close s, sys.seats.set seat (.retired s.channel)⟩, .done)

/-- Carries out a step of the client on a seat. -/
def clientStep (sys : System δ) (seat : Nat) (step : ClientStep) : System δ × Answer :=
  match sys.seats[seat]? with
  | none => (sys, .noSession)
  | some client =>
    let (channel, arena, result) := client.channel.perform sys.mux.backend.arena step
    (⟨{ sys.mux with backend.arena := arena }, sys.seats.set seat (client.withChannel channel)⟩,
      .client result)

/-- Reads and clears the completion event of the session on a seat. -/
def readCompletionEvent (sys : System δ) (seat : Nat) : System δ × Answer :=
  match sys.session? seat with
  | none => (sys, .noSession)
  | some s =>
    let (s', b) := s.clear sys.mux.backend .completion
    (sys.withSession seat s' b, .number (s.signals sys.mux.backend .completion))

omit [Driver δ] in
theorem length_seats_work (sys : System δ) (seat : Nat)
    (f : Session → Backend δ → Session × Backend δ) :
    (sys.work seat f).1.seats.length = sys.seats.length := by
  unfold work
  split
  · rfl
  · simp [withSession]

end Sessions

section Steps

variable {δ : Type} [Device δ]

/-- Carries a step out. -/
def step (sys : System δ) : Step → System δ × Answer
  | .openSession text changes => sys.openSession text changes
  | .closeSession seat => sys.closeSession seat
  | .client seat step => sys.clientStep seat step
  | .process seat event => sys.work seat fun s b => s.process b event
  | .handle seat event => sys.work seat fun s b => s.handle b event
  | .run seat => sys.work seat fun s b => s.run b
  | .readCompletionEvent seat => sys.readCompletionEvent seat
  | .sync seat => sys.work seat fun s b => (s, b.sync)
  | .device step =>
    let (b, result) := sys.mux.backend.advance step
    ({ sys with mux.backend := b }, .device result)

/-- The system after steps in order. -/
def runSteps (sys : System δ) (steps : List Step) : System δ :=
  steps.foldl (fun sys step => (sys.step step).1) sys

theorem length_seats_step (sys : System δ) (step : Step) :
    sys.seats.length ≤ (sys.step step).1.seats.length := by
  cases step with
  | openSession text changes =>
    simp only [System.step, openSession]
    split
    · exact Nat.le_refl _
    · split
      · exact Nat.le_refl _
      · simp
  | closeSession seat =>
    simp only [System.step, closeSession]
    split <;> simp
  | client seat step =>
    simp only [System.step, clientStep]
    split <;> simp
  | process seat event => exact Nat.le_of_eq (length_seats_work ..).symm
  | handle seat event => exact Nat.le_of_eq (length_seats_work ..).symm
  | run seat => exact Nat.le_of_eq (length_seats_work ..).symm
  | readCompletionEvent seat =>
    simp only [System.step, readCompletionEvent]
    split
    · exact Nat.le_refl _
    · simp [withSession]
  | sync seat => exact Nat.le_of_eq (length_seats_work ..).symm
  | device step => exact Nat.le_refl _

end Steps
end System
end BlockMux
