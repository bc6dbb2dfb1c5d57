import BlockMux.Access.Roster
import BlockMux.Device.StreamDevice
import BlockMux.Disk.Discovery
import BlockMux.Session.Session

/-!
# The multiplexer

The multiplexer owns the device and lets sessions in. A session has to bring the memory it costs,
its arguments have to resolve to a grant, the grant must not conflict with an open session, and
the driver has to have a buffer for it. Whatever an unsuccessful attempt took is given back.
-/

namespace BlockMux

/-- Why a session is not opened. -/
inductive OpenError where
  /-- The memory that the client offers does not cover the session. -/
  | quotaExceeded (got need : Nat)
  /-- No payload buffer was asked for. -/
  | noBuffer
  | arguments (cause : ArgumentError)
  | denied (cause : Denial)
  /-- The driver has no buffer of the size asked for. -/
  | bufferUnavailable
  | channel (cause : ChannelError)
  deriving DecidableEq, Repr

namespace OpenError

/-- The text of the error. -/
def message : OpenError → String
  | quotaExceeded got need => s!"insufficient quota: got {got}, need {need}"
  | noBuffer => "packet buffer size must not be zero"
  | arguments cause => cause.message
  | denied cause => "session denied: " ++ cause.message
  | bufferUnavailable => "failed to map DMA buffer"
  | channel cause => cause.message

end OpenError

/-- Why a multiplexer cannot be made from an image. -/
inductive ImageError where
  | table (cause : TableError)
  | io (cause : IoError)
  deriving DecidableEq, Repr

namespace ImageError

/-- The text of the error. -/
def message : ImageError → String
  | table cause => cause.message
  | io cause => cause.message

end ImageError

/-- A device, the rules for its use, and the sessions on it. -/
structure Multiplexer (δ : Type) where
  backend : Backend δ
  config : Config
  table : Option PartitionTable := none
  roster : Roster := {}

namespace Multiplexer

variable {δ : Type}

/-- A multiplexer without sessions. -/
def create (driver : δ) (config : Config) (table : Option PartitionTable) : Multiplexer δ :=
  { backend := { driver := driver }, config := config, table := table }

/-- A multiplexer on an image, with the partition table found there. -/
def ofImage (image : Image) (blockSize : Nat) (config : Config) :
    Except ImageError (Multiplexer ImageDevice) :=
  match PartitionTable.discover image blockSize config.useGpt with
  | .error e => .error (.table e)
  | .ok table =>
    match StreamDevice.create image blockSize with
    | .error e => .error (.io e)
    | .ok device => .ok (create device config (some table))

/-! ## Opening -/

/-- The memory charged for a session besides its buffer. -/
def sessionCost : Nat := 4096

/-- The size of the buffer that the arguments ask for, if the memory they bring covers it. -/
def bufferSize (args : Arguments) : Except OpenError Nat :=
  -- both are read before either is judged
  match args.quantity "ram_quota" 0, args.quantity "tx_buf_size" 0 with
  | .error e, _ => .error (.arguments e)
  | _, .error e => .error (.arguments e)
  | .ok quota, .ok size =>
    if size = 0 then .error .noBuffer
    else if quota < sessionCost + size then
      .error (.quotaExceeded quota (satAdd sessionCost size))
    else .ok size

/-- The operations that both the device and the grant allow. -/
def allowed (device : Operations) (grant : Grant) : Operations :=
  ⟨device.read && grant.readable, device.write && grant.writeable⟩

/-- Sets a session up on a channel. -/
def seat [Driver δ] (mux : Multiplexer δ) (grant : Grant) (ticket : Nat) (channel : Channel) :
    Multiplexer δ × Session :=
  let driver := mux.backend.driver
  let (backend, mailbox) := mux.backend.addMailbox
  ({ mux with backend := backend },
    { grant := grant
      ticket := ticket
      mailbox := mailbox
      channel := channel
      blockSize := Driver.blockSize driver
      operations := allowed (Driver.operations driver) grant
      usesAddresses := Driver.usesAddresses driver })

/-- Takes the grant of a ticket off the roster. -/
def withdraw (mux : Multiplexer δ) (ticket : Nat) : Multiplexer δ :=
  { mux with roster := mux.roster.release ticket }

/-- Gives a buffer back to the driver. -/
def releaseBuffer [Driver δ] (mux : Multiplexer δ) (buffer : SharedBuffer) : Multiplexer δ :=
  { mux with backend := mux.backend.release buffer }

/-- Finds a buffer for a session whose grant is on the roster under `ticket`. Where that fails the
grant is withdrawn. -/
def equip [Driver δ] (mux : Multiplexer δ) (grant : Grant) (ticket size : Nat) :
    Multiplexer δ × Except OpenError Session :=
  match mux.backend.allocate size with
  | none => (mux.withdraw ticket, .error .bufferUnavailable)
  | some (backend, buffer) =>
    let mux := { mux with backend := backend }
    -- a configuration from text has queues, one given directly may have none
    match Channel.create buffer mux.config.queueSize with
    | .error e => ((mux.releaseBuffer buffer).withdraw ticket, .error (.channel e))
    | .ok channel =>
      let (mux, session) := mux.seat grant ticket channel
      (mux, .ok session)

/-- Lets a session with the given arguments and buffer size in. -/
def enter [Driver δ] (mux : Multiplexer δ) (args : Arguments) (size : Nat) :
    Multiplexer δ × Except OpenError Session :=
  match Grant.resolve mux.config args mux.table (Driver.blockCount mux.backend.driver) with
  | .error e => (mux, .error (.denied e))
  | .ok grant =>
    match mux.roster.register grant with
    | .error e => (mux, .error (.denied e))
    | .ok (roster, ticket) => { mux with roster := roster }.equip grant ticket size

/-- Opens a session with the given arguments. -/
def openWith [Driver δ] (mux : Multiplexer δ) (args : Arguments) :
    Multiplexer δ × Except OpenError Session :=
  match bufferSize args with
  | .error e => (mux, .error e)
  | .ok size => mux.enter args size

/-! ## Closing -/

/-- Closes a session: its buffer and its grant are given up, and what it still had under way is
abandoned. -/
def close [Driver δ] (mux : Multiplexer δ) (s : Session) : Multiplexer δ :=
  let mux := (mux.releaseBuffer s.channel.buffer).withdraw s.ticket
  { mux with backend := mux.backend.modifyMailbox s.mailbox Mailbox.close }

end Multiplexer
end BlockMux
