import BlockMux.Device.Ram
import BlockMux.Proofs.Course
import BlockMux.Proofs.GrantBounds
import BlockMux.Proofs.TableSoundness

/-!
# Transfers stay in their windows

Whatever packets a client makes up and in whatever order things happen, a session asks its driver
only for blocks of the window it was granted, with a right it was granted and a payload in its own
buffer. The window lies on the device and in the partition that the rule names, so sessions bound
to different partitions never name a common block.

Main statements:

* `Opening` — an opening in the course of events, with everything that the session got from it.
* `Opening.confined_of_mayAsk` — what a session may ask for is confined by its opening.
* `Confinement.transition` — every step keeps all transfers confined.
* `transfers_confined` — confinement along every course of events.
-/

namespace BlockMux

/-- How a multiplexer is made: without a table, with a table that was checked against a number of
blocks below the word limit, or from an image. -/
inductive Multiplexer.Built : {δ : Type} → Multiplexer δ → Prop
  | plain {δ : Type} (driver : δ) (config : Config) : Built (.create driver config none)
  | tabled {δ : Type} (driver : δ) (config : Config) {format : TableFormat} {ps : List Partition}
      {blockCount : Nat} {table : PartitionTable}
      (made : PartitionTable.ofPartitions format ps blockCount = .ok table)
      (bound : blockCount < maxWord) : Built (.create driver config (some table))
  | image {image : Image} {blockSize : Nat} {config : Config} {mux : Multiplexer ImageDevice}
      (made : Multiplexer.ofImage image blockSize config = .ok mux)
      (bound : image.contents.size ≤ maxWord) : Built mux

/-- A discovered table was checked against fewer blocks than the word limit. -/
theorem PartitionTable.discover_eq_ok {image : Image} {blockSize : Nat} {useGpt : Bool}
    {table : PartitionTable} (h : discover image blockSize useGpt = .ok table)
    (bound : image.contents.size ≤ maxWord) :
    ∃ format ps count, ofPartitions format ps count = .ok table ∧ count < maxWord := by
  obtain ⟨hsize, format, ps, hmade, -⟩ := discover_cases h
  exact ⟨format, ps, _, hmade, blockCount_lt_maxWord hsize bound⟩

/-- The partitions of a multiplexer's table share no block. -/
theorem Multiplexer.Built.apart {δ : Type} {mux : Multiplexer δ} (h : mux.Built)
    {table : PartitionTable} (htable : mux.table = some table) {i j : Nat} {p q : Partition}
    (hi : table.partition? i = some p) (hj : table.partition? j = some q) (hij : i ≠ j) :
    p.Apart q := by
  cases h with
  | plain driver config => simp [create] at htable
  | tabled driver config made bound =>
    obtain rfl := Option.some.inj htable
    exact PartitionTable.apart_partition? made bound hi hj hij
  | @image image blockSize config _ made bound =>
    -- the table that was discovered on the image itself
    unfold ofImage at made
    split at made
    · simp at made
    · rename_i found hfound
      split at made
      · simp at made
      · simp only [Except.ok.injEq] at made
        subst made
        obtain rfl := Option.some.inj htable
        obtain ⟨format, ps, count, hmade, hcount⟩ :=
          PartitionTable.discover_eq_ok hfound bound
        exact PartitionTable.apart_partition? hmade hcount hi hj hij

/-! ## Openings -/

/-- An opening in a run that let a session in: where it stands among the steps, what its arguments
came to, and what the session got. -/
structure Opening {δ : Type} [Device δ] (start : System δ) (steps : List Step) where
  before : List Step
  text : String
  changes : List (String × String)
  after : List Step
  args : Arguments
  admission : Multiplexer.Admission (start.runSteps before).mux args
  rule : Rule
  request : WindowRequest
  steps_eq : steps = before ++ .openSession text changes :: after
  parsed : (Arguments.parse text).map
    (fun args => changes.foldl (fun args (key, value) => args.set key value) args) = .ok args
  rule_eq : Rule.bestRule? start.mux.config.rules args.label = some rule
  request_eq : WindowRequest.ofArguments args = .ok request
  grant_eq : (request.restrict rule).grant args.label start.mux.table
    (Driver.blockCount (start.runSteps before).mux.backend.driver) = .ok admission.grant

/-- Whether a transfer names a block of the device. -/
def Transfer.Names (t : Transfer) (block : Nat) : Prop :=
  t.block ≤ block ∧ block < t.block + t.count

/-- Whether device, rule and client all allow a direction. -/
def Direction.Allowed (device : Operations) (rule : Rule) (request : WindowRequest) :
    Direction → Prop
  | .read => device.read = true ∧ rule.readable = true ∧ request.readable = true
  | .write => device.write = true ∧ rule.writeable = true ∧ request.writeable = true

/-- Whether a payload of `size` bytes lies in a buffer. -/
def Target.Inside (buffer : SharedBuffer) (size : Nat) : Target → Prop
  | .view payload =>
    payload.buffer = buffer ∧ payload.length = size ∧ payload.offset + size ≤ buffer.size
  | .address start => buffer.base ≤ start ∧ start + size ≤ buffer.stop

theorem Direction.allowed_of_supports {device : Operations} {rule : Rule}
    {request : WindowRequest} {g : Grant} {operation : Operation} {direction : Direction}
    (hops : (Multiplexer.allowed device g).supports operation = true)
    (hdirection : Session.direction? operation = some direction)
    (hreadable : g.readable = (request.restrict rule).readable)
    (hwriteable : g.writeable = (request.restrict rule).writeable) :
    direction.Allowed device rule request := by
  cases operation with
  | read =>
    obtain rfl := Option.some.inj hdirection
    simp only [Operations.supports, Multiplexer.allowed, Bool.and_eq_true] at hops
    rw [hreadable, WindowRequest.restrict, Bool.and_eq_true] at hops
    exact hops
  | write =>
    obtain rfl := Option.some.inj hdirection
    simp only [Operations.supports, Multiplexer.allowed, Bool.and_eq_true] at hops
    rw [hwriteable, WindowRequest.restrict, Bool.and_eq_true] at hops
    exact hops
  | unsupported code => simp [Session.direction?] at hdirection

theorem Target.inside_of_target? {s : Session} {packet : Packet} {target : Target}
    (h : s.target? packet = some target)
    (hfits : packet.offset + packet.size ≤ s.channel.buffer.size) :
    target.Inside s.channel.buffer packet.size := by
  unfold Session.target? at h
  split at h
  · obtain rfl := Option.some.inj h
    refine ⟨Nat.le_add_right _ _, ?_⟩
    show s.channel.buffer.base + packet.offset + packet.size ≤ s.channel.buffer.stop
    unfold SharedBuffer.stop
    omega
  · rw [Channel.view, if_neg (Nat.not_lt_of_le hfits)] at h
    obtain rfl := Option.some.inj h
    exact ⟨rfl, rfl, hfits⟩

namespace Opening

variable {δ : Type} [Device δ] {start : System δ} {steps : List Step}

/-- The session as it was opened. -/
def session (o : Opening start steps) : Session := o.admission.session

/-- The window and the rights that the session was granted. -/
def grant (o : Opening start steps) : Grant := o.admission.grant

/-- The opening in a longer run. -/
def extend (o : Opening start steps) (step : Step) : Opening start (steps ++ [step]) :=
  { o with
    after := o.after ++ [step]
    steps_eq := by
      have hlonger := congrArg (· ++ [step]) o.steps_eq
      simpa only [List.append_assoc, List.cons_append] using hlonger }

/-- A transfer that keeps to what the session was granted when it was opened. -/
structure Confined (o : Opening start steps) (e : Exchange) : Prop where
  mailbox : e.request.mailbox = o.session.mailbox
  count_pos : 1 ≤ e.transfer.count
  window : o.grant.offset ≤ e.transfer.block ∧
    e.transfer.block + e.transfer.count ≤ o.grant.offset + o.grant.span
  device : o.grant.offset + o.grant.span ≤
    Driver.blockCount (start.runSteps o.before).mux.backend.driver
  partition : ∀ index, o.rule.partition = some index → ∃ table p,
    start.mux.table = some table ∧ table.partition? index = some p ∧
      p.start ≤ o.grant.offset ∧ o.grant.offset + o.grant.span ≤ p.start + p.count
  direction : Session.direction? e.request.packet.operation = some e.transfer.direction
  allowed : e.transfer.direction.Allowed (Driver.operations o.admission.backend.driver) o.rule
    o.request
  payload : e.transfer.target.Inside o.session.channel.buffer e.request.packet.size
  large : e.transfer.count * o.session.blockSize ≤ e.request.packet.size

/-- What a session may ask for is confined by what it was opened with. -/
theorem confined_of_mayAsk (o : Opening start steps) {e : Exchange} (h : o.session.MayAsk e) :
    o.Confined e := by
  have haccepted := h.accepted
  simp only [Session.accepts, Bool.and_eq_true, bne_iff_ne, decide_eq_true_eq] at haccepted
  obtain ⟨⟨⟨⟨⟨-, hcount⟩, hspan⟩, hops⟩, hlarge⟩, hfits⟩ := haccepted
  have htransfer := h.transfer
  unfold Session.transfer? at htransfer
  split at htransfer
  · rename_i direction target hdirection htarget
    have hte := Option.some.inj htransfer
    obtain ⟨hwindow, hoffset, hdevice, hreadable, hwriteable⟩ :=
      WindowRequest.grant_eq_ok o.grant_eq
    refine ⟨h.mailbox, ?_, ?_, hdevice, fun index hindex => ?_, ?_, ?_, ?_, ?_⟩
    · rw [← hte]
      exact Nat.one_le_iff_ne_zero.2 hcount
    · -- packets count blocks from the start of the window
      rw [← hte]
      refine ⟨Nat.le_add_right _ _, ?_⟩
      show o.grant.offset + e.request.packet.block + e.request.packet.count ≤ _
      have hspan' : e.request.packet.block + e.request.packet.count ≤ o.grant.span := hspan
      omega
    · exact WindowRequest.window_eq_ok hwindow hindex
    · rw [← hte]
      exact hdirection
    · rw [← hte]
      exact Direction.allowed_of_supports hops hdirection hreadable hwriteable
    · rw [← hte]
      exact Target.inside_of_target? htarget hfits
    · rw [← hte]
      exact hlarge
  · simp at htransfer

end Opening

/-! ## Along a run -/

/-- What a chain of acts adds to the log is what its session may ask for. -/
theorem Session.Acts.mayAsk {δ : Type} [Device δ] {s s' : Session} {b b' : Backend (Recorded δ)}
    (h : s.Acts b s' b') :
    ∀ e ∈ b'.driver.exchanges, e ∈ b.driver.exchanges ∨ s.MayAsk e := by
  refine h.backend (P := fun c => ∀ e ∈ c.driver.exchanges, e ∈ b.driver.exchanges ∨ s.MayAsk e)
    (fun _ _ hc => hc) (fun hc => hc) ?_ (fun e he => .inl he)
  intro c t packet may hc e he
  rw [Backend.exchanges_submit] at he
  rcases List.mem_append.1 he with hold | hnew
  · exact hc e hold
  · rw [List.mem_singleton.1 hnew]
    exact .inr (may _)

namespace System

variable {δ : Type} [Device δ]

/-- No step changes the rules or the table. -/
theorem settings_transition {sys sys' : System δ} {step : Step} {answer : Answer}
    (h : sys.Transition step sys' answer) :
    sys'.mux.config = sys.mux.config ∧ sys'.mux.table = sys.mux.table := by
  cases h with
  | refused left => cases left <;> exact ⟨rfl, rfl⟩
  | _ => exact ⟨rfl, rfl⟩

theorem settings_runSteps {start : System δ} (ho : start.Orderly) (steps : List Step) :
    (start.runSteps steps).mux.config = start.mux.config ∧
      (start.runSteps steps).mux.table = start.mux.table := by
  induction steps using List.reverseRecOn with
  | nil => exact ⟨rfl, rfl⟩
  | append_singleton steps step ih =>
    rw [runSteps_concat]
    obtain ⟨hconfig, htable⟩ := settings_transition (step_transition (ho.runSteps steps) step)
    exact ⟨hconfig.trans ih.1, htable.trans ih.2⟩

end System

/-- All that was asked for so far is confined, and every open session has the terms of its
opening. -/
structure Confinement {δ : Type} [Device δ] (start : System (Recorded δ)) (steps : List Step) :
    Prop where
  terms : ∀ {seat s}, (start.runSteps steps).session? seat = some s →
    ∃ o : Opening start steps, s.terms = o.session.terms
  confined : ∀ e ∈ (start.runSteps steps).exchanges, ∃ o : Opening start steps, o.Confined e

/-- What a step adds to the log is what an open session may ask for. -/
theorem System.exchanges_transition {δ : Type} [Device δ] {sys sys' : System (Recorded δ)}
    {step : Step} {answer : Answer} (h : sys.Transition step sys' answer) :
    ∀ e ∈ sys'.exchanges, e ∈ sys.exchanges ∨
      ∃ i t, sys.session? i = some t ∧ t.MayAsk e := by
  intro e he
  unfold exchanges at he ⊢
  cases h with
  | unchanged => exact .inl he
  | refused left =>
    cases left with
    | early roster => exact .inl he
    | late roster backend_eq =>
      rw [← Backend.exchanges_allocate backend_eq]
      exact .inl he
  | opened parsed a =>
    rw [← Backend.exchanges_allocate a.backend_eq]
    exact .inl he
  | closed => exact .inl he
  | client => exact .inl he
  | @acted _ i t _ _ _ hacting hacted acts =>
    rcases acts.mayAsk e he with hold | hnew
    · exact .inl hold
    · exact .inr ⟨i, t, hacted, hnew⟩
  | device step =>
    rw [← Backend.exchanges_advance _ step]
    exact .inl he

/-- Every opening that is let in is one of the run. -/
theorem exists_opening {δ : Type} [Device δ] {start : System δ} (ho : start.Orderly)
    {steps : List Step} {text : String} {changes : List (String × String)} {args : Arguments}
    (parsed : (Arguments.parse text).map
      (fun args => changes.foldl (fun args (key, value) => args.set key value) args) = .ok args)
    (a : Multiplexer.Admission (start.runSteps steps).mux args) :
    ∃ o : Opening start (steps ++ [.openSession text changes]), o.session = a.session := by
  obtain ⟨hconfig, htable⟩ := System.settings_runSteps ho steps
  have hresolve := a.grant_eq
  rw [hconfig, htable] at hresolve
  obtain ⟨rule, request, hrule, hrequest, hgrant⟩ := Grant.resolve_eq_ok hresolve
  exact ⟨⟨steps, text, changes, [], args, a, rule, request, rfl, parsed, hrule, hrequest, hgrant⟩,
    rfl⟩

/-! ## An opening is known by its mailbox -/

/-- Along a run mailboxes are only added. -/
theorem System.length_mailboxes_runSteps {δ : Type} [Device δ] {start : System δ}
    (ho : start.Orderly) (before after : List Step) :
    (start.runSteps before).mux.backend.mailboxes.length ≤
      (start.runSteps (before ++ after)).mux.backend.mailboxes.length := by
  induction after using List.reverseRecOn with
  | nil => exact Nat.le_of_eq (by rw [List.append_nil])
  | append_singleton after step ih =>
    rw [← List.append_assoc, runSteps_concat]
    exact Nat.le_trans ih (length_transition (step_transition (ho.runSteps _) step))

namespace Opening

variable {δ : Type} [Device δ] {start : System δ} {steps : List Step}

theorem mailbox_eq (o : Opening start steps) :
    o.session.mailbox = (start.runSteps o.before).mux.backend.mailboxes.length := by
  rw [← o.admission.mailboxes_eq]
  rfl

/-- An opening adds the mailbox of its session. -/
theorem mailbox_lt (o : Opening start steps) :
    o.session.mailbox <
      (start.runSteps
        (o.before ++ [.openSession o.text o.changes])).mux.backend.mailboxes.length := by
  have hstep : ((start.runSteps o.before).step (.openSession o.text o.changes)).1.mux =
      o.admission.after := by
    show ((start.runSteps o.before).openSession o.text o.changes).1.mux = o.admission.after
    rw [System.openSession_of_admission o.parsed o.admission]
  rw [System.runSteps_concat, hstep, mailbox_eq, ← o.admission.mailboxes_eq]
  exact Nat.lt_of_lt_of_eq (Nat.lt_succ_self _) (Backend.length_addMailbox _).symm

theorem mailbox_lt_of_later (ho : start.Orderly) {o o' : Opening start steps} {between : List Step}
    (h : o'.before = o.before ++ .openSession o.text o.changes :: between) :
    o.session.mailbox < o'.session.mailbox := by
  have hgrows := System.length_mailboxes_runSteps ho
    (o.before ++ [.openSession o.text o.changes]) between
  rw [o'.mailbox_eq, h, List.append_cons]
  exact Nat.lt_of_lt_of_le o.mailbox_lt hgrows

theorem before_eq (ho : start.Orderly) (o o' : Opening start steps)
    (h : o.session.mailbox = o'.session.mailbox) : o.before = o'.before := by
  have hsteps := o.steps_eq.symm.trans o'.steps_eq
  -- of two openings in one run one comes first, and the later one has a later mailbox
  rcases List.append_eq_append_iff.1 hsteps with ⟨between, hlater, htail⟩ | ⟨between, hlater, htail⟩
  · cases between with
    | nil => rw [hlater, List.append_nil]
    | cons step between =>
      obtain ⟨rfl, -⟩ := List.cons.inj htail
      have := mailbox_lt_of_later ho hlater
      omega
  · cases between with
    | nil => rw [hlater, List.append_nil]
    | cons step between =>
      obtain ⟨rfl, -⟩ := List.cons.inj htail
      have := mailbox_lt_of_later ho hlater
      omega

end Opening

theorem Opening.Confined.extend {δ : Type} [Device δ] {start : System δ} {steps : List Step}
    {o : Opening start steps} {e : Exchange} (h : o.Confined e) (step : Step) :
    (o.extend step).Confined e := { h with }

theorem Confinement.concat {δ : Type} [Device δ] {start : System (Recorded δ)}
    (ho : start.Orderly) {steps : List Step} (h : Confinement start steps) (step : Step) :
    Confinement start (steps ++ [step]) := by
  have htransition := System.step_transition (ho.runSteps steps) step
  -- what was confined stays so in the longer run; the last step adds one opening at most
  refine ⟨?_, ?_⟩
  · intro seat s hs
    rw [System.runSteps_concat] at hs
    rcases htransition.terms_before hs with
      ⟨t, ht, hterms⟩ | ⟨text, changes, args, a, rfl, parsed, -, rfl, -⟩
    · obtain ⟨o, hsame⟩ := h.terms ht
      exact ⟨o.extend step, hterms.trans hsame⟩
    · obtain ⟨o, hsession⟩ := exists_opening ho parsed a
      exact ⟨o, by rw [hsession]⟩
  · intro e he
    rw [System.runSteps_concat] at he
    rcases System.exchanges_transition htransition e he with hold | ⟨i, t, ht, hmay⟩
    · obtain ⟨o, hconfined⟩ := h.confined e hold
      exact ⟨o.extend step, hconfined.extend step⟩
    · obtain ⟨o, hsame⟩ := h.terms ht
      exact ⟨o.extend step, (o.confined_of_mayAsk (hmay.congr hsame.symm)).extend step⟩

namespace Course

variable {δ : Type} [Device δ]

theorem confinement (c : Course δ) : Confinement c.start c.steps := by
  have ho : c.start.Orderly := System.Orderly.create _
  generalize c.steps = steps
  induction steps using List.reverseRecOn with
  | nil => exact ⟨fun hs => by simp [start, System.recorded, System.create, System.runSteps,
      System.session?] at hs, fun e he => by simp [start, System.recorded, System.create,
      System.runSteps, System.exchanges, Multiplexer.map, Backend.map] at he⟩
  | append_singleton steps step ih => exact ih.concat ho step

/-- With every multiplexer that is made properly and every driver, along every course of events:
each transfer that was asked for is confined by the opening of its session, and sessions whose
rules bind them to different partitions never name a common block. -/
theorem transfers_confined (c : Course δ) (hbuilt : c.mux.Built) :
    (∀ e ∈ c.final.exchanges, ∃ o : Opening c.start c.steps, o.Confined e ∧
      ∀ o' : Opening c.start c.steps, o'.session.mailbox = e.request.mailbox →
        o'.before = o.before) ∧
      ∀ (o o' : Opening c.start c.steps) (e e' : Exchange) (i j : Nat),
        o.Confined e → o'.Confined e' → o.rule.partition = some i → o'.rule.partition = some j →
          i ≠ j → ∀ block, ¬(e.transfer.Names block ∧ e'.transfer.Names block) := by
  refine ⟨?_, ?_⟩
  · intro e he
    obtain ⟨o, h⟩ := c.confinement.confined e he
    exact ⟨o, h, fun o' ho' =>
      Opening.before_eq (System.Orderly.create _) o' o (ho'.trans h.mailbox)⟩
  intro o o' e e' i j h h' hi hj hij block
  obtain ⟨table, p, htable, hp, hstart, hstop⟩ := h.partition i hi
  obtain ⟨table', q, htable', hq, hstart', hstop'⟩ := h'.partition j hj
  obtain rfl : table = table' := Option.some.inj (htable.symm.trans htable')
  -- both windows lie in their partitions, and those share no block
  have hapart := hbuilt.apart htable hp hq hij
  rintro ⟨⟨hfirst, hlast⟩, hfirst', hlast'⟩
  have hwindow := h.window
  have hwindow' := h'.window
  refine hapart.not_covers block ⟨⟨?_, ?_⟩, ?_, ?_⟩
  · omega
  · omega
  · omega
  · omega

/-- Two partitions of four blocks each. -/
def halves : List Partition := [⟨1, 0, 4, .classic 0x83⟩, ⟨2, 4, 4, .classic 0x83⟩]

/-- Two sessions, each bound to one of the partitions; one of the packets leaves its window. -/
def divided : Course Ram where
  driver := { contents := Memory.zeroed 4096, blockSize := 512 }
  config :=
    { rules :=
        [{ label := some "a", partition := some 1 }, { label := some "b", partition := some 2 }]
      queueSize := 2 }
  table := some ⟨.classic, halves⟩
  steps := [.openSession "label=a,ram_quota=8192,tx_buf_size=1024" [],
    .openSession "label=b,ram_quota=8192,tx_buf_size=1024" [],
    .client 0 (.submit ⟨.write, 3, 1, 0, 512, false⟩),
    .client 1 (.submit ⟨.read, 0, 2, 0, 1024, false⟩),
    .client 0 (.submit ⟨.write, 3, 2, 0, 1024, false⟩), .process 1 .submitted,
    .process 0 .submitted]

theorem transfers_confined_divided :
    divided.mux.Built ∧ divided.final.exchanges.length = 2 ∧
      (∀ e ∈ divided.final.exchanges, ∃ o : Opening divided.start divided.steps, o.Confined e ∧
        ∀ o' : Opening divided.start divided.steps, o'.session.mailbox = e.request.mailbox →
          o'.before = o.before) ∧
      ∀ (o o' : Opening divided.start divided.steps) (e e' : Exchange), o.Confined e →
        o'.Confined e' → o.rule.partition = some 1 → o'.rule.partition = some 2 →
          ∀ block, ¬(e.transfer.Names block ∧ e'.transfer.Names block) := by
  have hplaced : PartitionTable.placed 8 halves = halves :=
    List.mergeSort_of_pairwise (by decide)
  have hsorted : halves.mergeSort (fun p q => decide (p.index ≤ q.index)) = halves :=
    List.mergeSort_of_pairwise (by decide)
  have hmade : PartitionTable.ofPartitions .classic halves 8 = .ok ⟨.classic, halves⟩ := by
    rw [PartitionTable.ofPartitions, hplaced, hsorted]
    rfl
  have hbuilt : divided.mux.Built := .tabled divided.driver divided.config hmade (by decide)
  obtain ⟨hconfined, happart⟩ := transfers_confined divided hbuilt
  exact ⟨hbuilt, by decide +kernel, hconfined,
    fun o o' e e' h h' hi hj => happart o o' e e' 1 2 h h' hi hj (by decide)⟩

end Course
end BlockMux
