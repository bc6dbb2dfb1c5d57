import BlockMux.Proofs.Histories
import BlockMux.Proofs.Lockstep

/-!
# Recorded drivers

A driver can be given a log: every transfer it is asked for, with its answer, and every notice it
sends. Statements about the calls that a session makes are about the log. Keeping it changes
nothing else: a system on a recorded driver does, step by step, what the system on the driver
itself does.

Main statements:

* `Device.Hom` — a map of drivers that answers alike; all of a system commutes with it.
* `map_runSteps`, `map_transcript` — systems on the two drivers run alike and answer alike.
* `Recorded.hom` — forgetting the log is such a map.
-/

namespace BlockMux

/-! ## Drivers that answer alike -/

/-- A map between the states of two devices that commutes with everything they do. -/
structure Device.Hom {δ ε : Type} [Device δ] [Device ε] (f : δ → ε) : Prop where
  blockCount : ∀ d, Driver.blockCount (f d) = Driver.blockCount d
  blockSize : ∀ d, Driver.blockSize (f d) = Driver.blockSize d
  operations : ∀ d, Driver.operations (f d) = Driver.operations d
  usesAddresses : ∀ d, Driver.usesAddresses (f d) = Driver.usesAddresses d
  submit : ∀ d arena t request,
    Driver.submit (f d) arena t request = (Driver.submit d arena t request).map f
  sync : ∀ d, Driver.sync (f d) = f (Driver.sync d)
  allocate : ∀ d arena size,
    Driver.allocate (f d) arena size =
      (Driver.allocate d arena size).map fun (d, rest) => (f d, rest)
  release : ∀ d buffer, Driver.release (f d) buffer = f (Driver.release d buffer)
  advance : ∀ d arena step, Device.advance (f d) arena step = (Device.advance d arena step).map f

variable {δ ε : Type}

/-- The backend with another driver. -/
def Backend.map (f : δ → ε) (b : Backend δ) : Backend ε := ⟨f b.driver, b.arena, b.mailboxes⟩

/-- The multiplexer with another driver. -/
def Multiplexer.map (f : δ → ε) (mux : Multiplexer δ) : Multiplexer ε :=
  ⟨mux.backend.map f, mux.config, mux.table, mux.roster⟩

@[simp] theorem Multiplexer.backend_map (f : δ → ε) (mux : Multiplexer δ) :
    (mux.map f).backend = mux.backend.map f := rfl
@[simp] theorem Multiplexer.config_map (f : δ → ε) (mux : Multiplexer δ) :
    (mux.map f).config = mux.config := rfl
@[simp] theorem Multiplexer.table_map (f : δ → ε) (mux : Multiplexer δ) :
    (mux.map f).table = mux.table := rfl
@[simp] theorem Multiplexer.roster_map (f : δ → ε) (mux : Multiplexer δ) :
    (mux.map f).roster = mux.roster := rfl

/-- The system with another driver. -/
def System.map (f : δ → ε) (sys : System δ) : System ε := ⟨sys.mux.map f, sys.seats⟩

/-- A pair whose backend has another driver. -/
def Session.mapPair (f : δ → ε) (x : Session × Backend δ) : Session × Backend ε :=
  (x.1, x.2.map f)

namespace Backend

theorem map_post (f : δ → ε) (b : Backend δ) (notices : List Notice) :
    (b.post notices).map f = (b.map f).post notices := by
  induction notices generalizing b with
  | nil => rfl
  | cons notice notices ih =>
    -- a notice goes to a mailbox, and mailboxes are not the driver's
    have hone : (b.deliver notice).map f = (b.map f).deliver notice := by
      cases notice <;> rfl
    rw [post, List.foldl_cons, ← post, ih, hone]
    rfl

variable [Device δ] [Device ε] {f : δ → ε}

theorem map_submit (hf : Device.Hom f) (b : Backend δ) (t : Transfer) (request : Request) :
    (b.map f).submit t request = ((b.submit t request).1.map f, (b.submit t request).2) := by
  simp only [submit, map_post]
  simp only [map, hf.submit, Reply.map]

theorem map_advance (hf : Device.Hom f) (b : Backend δ) (step : DeviceStep) :
    (b.map f).advance step = ((b.advance step).1.map f, (b.advance step).2) := by
  simp only [advance, map_post]
  simp only [map, hf.advance, Progress.map]

theorem map_allocate (hf : Device.Hom f) (b : Backend δ) (size : Nat) :
    (b.map f).allocate size = (b.allocate size).map fun (b, buffer) => (b.map f, buffer) := by
  simp only [allocate, map, hf.allocate, Option.map_map]
  rfl

theorem map_release (hf : Device.Hom f) (b : Backend δ) (buffer : SharedBuffer) :
    (b.map f).release buffer = (b.release buffer).map f := by
  simp only [release, map, hf.release]

theorem map_sync (hf : Device.Hom f) (b : Backend δ) : (b.map f).sync = b.sync.map f := by
  simp only [sync, map, hf.sync]

end Backend

/-! ## Sessions on the two drivers -/

namespace Session

theorem map_clear (f : δ → ε) (s : Session) (b : Backend δ) (event : Event) :
    s.clear (b.map f) event = mapPair f (s.clear b event) := by
  cases event <;> rfl

theorem map_signals (f : δ → ε) (s : Session) (b : Backend δ) (event : Event) :
    s.signals (b.map f) event = s.signals b event := by
  cases event <;> rfl

variable [Device δ] [Device ε] {f : δ → ε}

theorem map_dispatch (hf : Device.Hom f) (s : Session) (b : Backend δ) (packet : Packet) :
    s.dispatch (b.map f) packet = mapPair f (s.dispatch b packet) := by
  unfold dispatch
  split
  · rfl
  · -- the answers are the same, so the session goes the same way on both
    rw [Backend.map_submit hf]
    rcases b.submit _ _ with ⟨b', outcome⟩
    cases outcome <;> rfl

theorem map_take (hf : Device.Hom f) (s : Session) (b : Backend δ) (packet : Packet)
    (rest : List Packet) : s.take (b.map f) packet rest = mapPair f (s.take b packet rest) := by
  unfold take
  dsimp only
  split
  · exact map_dispatch hf _ b packet
  · rfl

/-- The session and its twin on the other driver do everything alike. -/
theorem lockstep (hf : Device.Hom f) : Lockstep fun s b t c => t = s ∧ c = b.map f where
  inStep := by
    rintro _ b t _ ⟨rfl, rfl⟩
    exact ⟨rfl, rfl, rfl, rfl, rfl⟩
  signals := by
    rintro _ b t _ ⟨rfl, rfl⟩ event
    exact map_signals f t b event
  collect := by
    rintro _ b t _ ⟨rfl, rfl⟩
    exact ⟨rfl, rfl⟩
  gauge := by
    rintro _ b t _ ⟨rfl, rfl⟩ full
    exact ⟨rfl, rfl⟩
  take := by
    rintro _ b t _ ⟨rfl, rfl⟩ packet rest
    rw [map_take hf]
    exact ⟨rfl, rfl⟩
  retry := by
    rintro _ b t _ packet ⟨rfl, rfl⟩ -
    rw [map_dispatch hf]
    exact ⟨rfl, rfl⟩
  clear := by
    rintro _ b t _ ⟨rfl, rfl⟩ event
    rw [map_clear]
    exact ⟨rfl, rfl⟩

theorem map_process (hf : Device.Hom f) (s : Session) (b : Backend δ) (event : Event) :
    s.process (b.map f) event = mapPair f (s.process b event) :=
  have h := (lockstep hf).process ⟨rfl, rfl⟩ event
  Prod.ext h.1 h.2

theorem map_handle (hf : Device.Hom f) (s : Session) (b : Backend δ) (event : Event) :
    s.handle (b.map f) event = mapPair f (s.handle b event) :=
  have h := (lockstep hf).handle ⟨rfl, rfl⟩ event
  Prod.ext h.1 h.2

theorem map_run (hf : Device.Hom f) (s : Session) (b : Backend δ) :
    s.run (b.map f) = mapPair f (s.run b) :=
  have h := (lockstep hf).run ⟨rfl, rfl⟩
  Prod.ext h.1 h.2

end Session

/-! ## Multiplexers on the two drivers -/

namespace Multiplexer

variable [Device δ] [Device ε] {f : δ → ε}

theorem map_equip (hf : Device.Hom f) (mux : Multiplexer δ) (grant : Grant) (ticket size : Nat) :
    (mux.map f).equip grant ticket size =
      ((mux.equip grant ticket size).1.map f, (mux.equip grant ticket size).2) := by
  unfold equip
  rw [backend_map, config_map, Backend.map_allocate hf]
  rcases mux.backend.allocate size with _ | ⟨b, buffer⟩
  · rfl
  · simp only [Option.map_some]
    -- without a channel the buffer goes back to the driver, which both do alike
    rcases Channel.create buffer mux.config.queueSize with e | channel
    · simp only [releaseBuffer, Backend.map_release hf]
      rfl
    · simp only [seat, Backend.map, Backend.addMailbox, hf.blockSize, hf.operations,
        hf.usesAddresses]
      rfl

theorem map_openWith (hf : Device.Hom f) (mux : Multiplexer δ) (args : Arguments) :
    (mux.map f).openWith args = ((mux.openWith args).1.map f, (mux.openWith args).2) := by
  unfold openWith
  rcases bufferSize args with e | size
  · rfl
  · simp only [enter]
    rw [show Driver.blockCount (mux.map f).backend.driver = Driver.blockCount mux.backend.driver
      from hf.blockCount _, config_map, table_map, roster_map]
    rcases Grant.resolve mux.config args mux.table _ with e | grant
    · rfl
    · dsimp only
      rcases mux.roster.register grant with e | ⟨roster, ticket⟩
      · rfl
      · exact map_equip hf { mux with roster := roster } grant ticket size

theorem map_close (hf : Device.Hom f) (mux : Multiplexer δ) (s : Session) :
    (mux.map f).close s = (mux.close s).map f := by
  simp only [close, releaseBuffer, map, Backend.map_release hf]
  rfl

end Multiplexer

/-! ## Systems on the two drivers -/

namespace System

theorem map_work (f : δ → ε) (sys : System δ) (seat : Nat)
    (g : Session → Backend δ → Session × Backend δ)
    (g' : Session → Backend ε → Session × Backend ε)
    (hg : ∀ s b, g' s (b.map f) = Session.mapPair f (g s b)) :
    (sys.map f).work seat g' = ((sys.work seat g).1.map f, (sys.work seat g).2) := by
  unfold work
  rw [show (sys.map f).session? seat = sys.session? seat from rfl]
  rcases sys.session? seat with _ | s
  · rfl
  · dsimp only
    rw [show (sys.map f).mux.backend = sys.mux.backend.map f from rfl, hg]
    rfl

variable [Device δ] [Device ε] {f : δ → ε}

theorem map_openSession (hf : Device.Hom f) (sys : System δ) (text : String)
    (changes : List (String × String)) :
    (sys.map f).openSession text changes =
      ((sys.openSession text changes).1.map f, (sys.openSession text changes).2) := by
  unfold openSession
  rcases Arguments.parse text with e | args
  · rfl
  · dsimp only
    rw [show (sys.map f).mux = sys.mux.map f from rfl, Multiplexer.map_openWith hf]
    rcases sys.mux.openWith _ with ⟨mux, e | s⟩
    · rfl
    · rfl

theorem map_step (hf : Device.Hom f) (sys : System δ) (step : Step) :
    (sys.map f).step step = ((sys.step step).1.map f, (sys.step step).2) := by
  cases step with
  | openSession text changes => exact map_openSession hf sys text changes
  | closeSession seat =>
    simp only [System.step, closeSession]
    rw [show (sys.map f).session? seat = sys.session? seat from rfl]
    rcases sys.session? seat with _ | s
    · rfl
    · dsimp only
      rw [show (sys.map f).mux = sys.mux.map f from rfl, Multiplexer.map_close hf]
      rfl
  | client seat step =>
    simp only [System.step, clientStep]
    rw [show (sys.map f).seats = sys.seats from rfl]
    rcases sys.seats[seat]? with _ | client
    · rfl
    · rfl
  | process seat event =>
    exact map_work f sys seat (fun s b => s.process b event) (fun s b => s.process b event)
      fun s b => Session.map_process hf s b event
  | handle seat event =>
    exact map_work f sys seat (fun s b => s.handle b event) (fun s b => s.handle b event)
      fun s b => Session.map_handle hf s b event
  | run seat =>
    exact map_work f sys seat (fun s b => s.run b) (fun s b => s.run b)
      fun s b => Session.map_run hf s b
  | readCompletionEvent seat =>
    simp only [System.step, readCompletionEvent]
    rw [show (sys.map f).session? seat = sys.session? seat from rfl]
    rcases sys.session? seat with _ | s
    · rfl
    · rfl
  | sync seat =>
    refine map_work f sys seat (fun s b => (s, b.sync)) (fun s b => (s, b.sync)) fun s b => ?_
    rw [Backend.map_sync hf]
    rfl
  | device step =>
    simp only [System.step]
    rw [show (sys.map f).mux.backend = sys.mux.backend.map f from rfl, Backend.map_advance hf]
    rfl

theorem map_runSteps (hf : Device.Hom f) (sys : System δ) (steps : List Step) :
    (sys.map f).runSteps steps = (sys.runSteps steps).map f := by
  induction steps generalizing sys with
  | nil => rfl
  | cons step steps ih =>
    rw [runSteps, List.foldl_cons, map_step hf]
    exact ih _

theorem map_transcript (hf : Device.Hom f) (sys : System δ) (steps : List Step) :
    (sys.map f).transcript steps = sys.transcript steps := by
  induction steps generalizing sys with
  | nil => rfl
  | cons step steps ih => rw [transcript, transcript, map_step hf, ih]

end System

/-! ## Recording -/

/-- A transfer that a driver was asked for, and what it answered. -/
structure Exchange where
  transfer : Transfer
  request : Request
  outcome : Outcome
  deriving DecidableEq, Repr

/-- A driver with the log of what it was asked for and of what it told sessions. -/
structure Recorded (δ : Type) where
  driver : δ
  /-- The transfers asked for, the first one first. -/
  exchanges : List Exchange := []
  /-- The notices sent, the first one first. -/
  notices : List Notice := []

namespace Recorded

/-- Asks for a transfer, and notes the answer. -/
def submit [Driver δ] (r : Recorded δ) (arena : Arena) (t : Transfer) (request : Request) :
    Reply (Recorded δ) :=
  let reply := Driver.submit r.driver arena t request
  ⟨⟨reply.driver, r.exchanges ++ [⟨t, request, reply.outcome⟩], r.notices ++ reply.notices⟩,
    reply.arena, reply.outcome, reply.notices⟩

/-- Lets the device take a step, and notes what it sends. -/
def advance [Device δ] (r : Recorded δ) (arena : Arena) (step : DeviceStep) :
    Progress (Recorded δ) :=
  let progress := Device.advance r.driver arena step
  ⟨{ r with driver := progress.driver, notices := r.notices ++ progress.notices },
    progress.arena, progress.notices, progress.answer⟩

instance [Device δ] : Device (Recorded δ) where
  blockCount r := Driver.blockCount r.driver
  blockSize r := Driver.blockSize r.driver
  operations r := Driver.operations r.driver
  usesAddresses r := Driver.usesAddresses r.driver
  submit := submit
  sync r := { r with driver := Driver.sync r.driver }
  allocate r arena size :=
    (Driver.allocate r.driver arena size).map fun (d, rest) => ({ r with driver := d }, rest)
  release r buffer := { r with driver := Driver.release r.driver buffer }
  advance := advance

/-- Keeping a log changes nothing else. -/
theorem hom [Device δ] : Device.Hom (Recorded.driver : Recorded δ → δ) where
  blockCount _ := rfl
  blockSize _ := rfl
  operations _ := rfl
  usesAddresses _ := rfl
  submit _ _ _ _ := rfl
  sync _ := rfl
  allocate r arena size := by
    simp only [Driver.allocate, Option.map_map, Function.comp_def, Option.map_id']
  release _ _ := rfl
  advance _ _ _ := rfl

end Recorded

namespace System

/-- A system without clients on a recorded driver, of which nothing is noted yet. -/
def recorded (mux : Multiplexer δ) : System (Recorded δ) :=
  create (mux.map fun driver => ⟨driver, [], []⟩)

/-- The transfers that the driver of a system was asked for. -/
def exchanges (sys : System (Recorded δ)) : List Exchange := sys.mux.backend.driver.exchanges

/-- The notices that the driver of a system has sent. -/
def notices (sys : System (Recorded δ)) : List Notice := sys.mux.backend.driver.notices

variable [Device δ]

/-- Without its log, the recorded system is the system itself. -/
theorem recorded_runSteps (mux : Multiplexer δ) (steps : List Step) :
    ((recorded mux).runSteps steps).map Recorded.driver = (create mux).runSteps steps :=
  (map_runSteps Recorded.hom _ _).symm

theorem recorded_transcript (mux : Multiplexer δ) (steps : List Step) :
    (recorded mux).transcript steps = (create mux).transcript steps :=
  (map_transcript Recorded.hom _ _).symm

end System
end BlockMux
