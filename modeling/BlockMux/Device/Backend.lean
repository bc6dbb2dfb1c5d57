import BlockMux.Device.Driver

/-!
# The shared side of sessions

The backend is what all sessions share: the driver, the arena of memories and one mailbox for
each session. Every exchange with the driver goes through the backend, which delivers the notices
of the driver to the mailboxes they are for.

* `driver_post` — notices change only mailboxes.
-/

namespace BlockMux

/-- A finished request, as its session learns of it. -/
structure Completion where
  packet : Packet
  success : Bool
  deriving DecidableEq, Repr

/-- The completions that wait for a session, the oldest first, and its completion event. -/
structure Mailbox where
  completions : List Completion := []
  /-- How often the event was signalled since it was last read. -/
  signals : Nat := 0
  /-- Whether the session still takes completions. -/
  isOpen : Bool := true
  deriving DecidableEq, Repr

namespace Mailbox

/-- Puts a completion in; once the mailbox is closed it is dropped without a signal. -/
def put (mailbox : Mailbox) (completion : Completion) : Mailbox :=
  if mailbox.isOpen then
    { mailbox with
      completions := mailbox.completions ++ [completion]
      signals := mailbox.signals + 1 }
  else mailbox

/-- Signals the event. -/
def wake (mailbox : Mailbox) : Mailbox := { mailbox with signals := mailbox.signals + 1 }

/-- Takes all completions out. -/
def empty (mailbox : Mailbox) : Mailbox := { mailbox with completions := [] }

/-- Closes the mailbox; what is in it is lost. -/
def close (mailbox : Mailbox) : Mailbox := { mailbox with completions := [], isOpen := false }

/-- Reads the event, which clears it. -/
def clearSignals (mailbox : Mailbox) : Mailbox := { mailbox with signals := 0 }

end Mailbox

/-- A driver with the memories and mailboxes of its sessions. -/
structure Backend (δ : Type) where
  driver : δ
  arena : Arena := {}
  mailboxes : List Mailbox := []

namespace Backend

variable {δ : Type}

/-- The mailbox of a session. -/
def mailbox (b : Backend δ) (id : Nat) : Mailbox := (b.mailboxes[id]?).getD {}

/-- Changes one mailbox. -/
def modifyMailbox (b : Backend δ) (id : Nat) (f : Mailbox → Mailbox) : Backend δ :=
  { b with mailboxes := b.mailboxes.modify id f }

/-- Adds a mailbox. -/
def addMailbox (b : Backend δ) : Backend δ × Nat :=
  ({ b with mailboxes := b.mailboxes ++ [{}] }, b.mailboxes.length)

/-- Delivers a notice. -/
def deliver (b : Backend δ) : Notice → Backend δ
  -- a closed mailbox loses completions, but its event can still be signalled
  | .completed request success =>
    b.modifyMailbox request.mailbox (·.put ⟨request.packet, success⟩)
  | .ready id => b.modifyMailbox id Mailbox.wake

/-- Delivers notices in order. -/
def post (b : Backend δ) (notices : List Notice) : Backend δ := notices.foldl deliver b

/-- Asks the driver for a transfer. -/
def submit [Driver δ] (b : Backend δ) (transfer : Transfer) (request : Request) :
    Backend δ × Outcome :=
  let reply := Driver.submit b.driver b.arena transfer request
  ({ b with driver := reply.driver, arena := reply.arena }.post reply.notices, reply.outcome)

/-- Asks the driver to flush. -/
def sync [Driver δ] (b : Backend δ) : Backend δ := { b with driver := Driver.sync b.driver }

/-- Asks the driver for a buffer. -/
def allocate [Driver δ] (b : Backend δ) (size : Nat) : Option (Backend δ × SharedBuffer) :=
  (Driver.allocate b.driver b.arena size).map fun (driver, arena, buffer) =>
    ({ b with driver := driver, arena := arena }, buffer)

/-- Gives a buffer back to the driver. -/
def release [Driver δ] (b : Backend δ) (buffer : SharedBuffer) : Backend δ :=
  { b with driver := Driver.release b.driver buffer }

/-- Lets the device take a step. -/
def advance [Device δ] (b : Backend δ) (step : DeviceStep) : Backend δ × DeviceAnswer :=
  let progress := Device.advance b.driver b.arena step
  ({ b with driver := progress.driver, arena := progress.arena }.post progress.notices,
    progress.answer)

theorem driver_post (b : Backend δ) (notices : List Notice) :
    (b.post notices).driver = b.driver := by
  unfold post
  induction notices generalizing b with
  | nil => rfl
  | cons notice notices ih =>
    rw [List.foldl_cons, ih]
    cases notice <;> rfl

end Backend
end BlockMux
