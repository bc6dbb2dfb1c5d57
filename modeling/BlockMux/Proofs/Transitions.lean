import BlockMux.Proofs.Acts
import BlockMux.Proofs.Histories
import BlockMux.Proofs.Mailboxes

/-!
# What a step of a system can do

A step opens a session or turns one away, closes one, lets a client use its channel, has a session
act, or lets the device move on. `Transition` says so once; what a run keeps is shown by going
through its cases.

Main statements:

* `openWith_ok`, `openWith_error` — what an opening went through, and what a refused one leaves.
* `step_transition` — every step is a transition.
* `Orderly.runSteps` — sessions stay poised, and no two share a mailbox.
-/

namespace BlockMux

/-! ## Openings -/

/-- Nothing was entered on the roster, or what was entered has been taken off again. -/
inductive Roster.Restored (roster : Roster) : Roster → Prop
  | untouched : Restored roster roster
  | withdrawn {grant : Grant} {next : Roster} {ticket : Nat}
      (entered : roster.register grant = .ok (next, ticket)) :
      Restored roster (next.release ticket)

namespace Multiplexer

variable {δ : Type} [Driver δ]

/-- What an opening found on its way: the size and the grant that the arguments come to, and the
places that the roster, the driver and the channel gave. -/
structure Admission (mux : Multiplexer δ) (args : Arguments) where
  size : Nat
  grant : Grant
  roster : Roster
  ticket : Nat
  backend : Backend δ
  buffer : SharedBuffer
  channel : Channel
  size_eq : bufferSize args = .ok size
  grant_eq :
    Grant.resolve mux.config args mux.table (Driver.blockCount mux.backend.driver) = .ok grant
  roster_eq : mux.roster.register grant = .ok (roster, ticket)
  backend_eq : mux.backend.allocate size = some (backend, buffer)
  channel_eq : Channel.create buffer mux.config.queueSize = .ok channel

namespace Admission

variable {mux : Multiplexer δ} {args : Arguments}

/-- The session that was opened. -/
def session (a : Admission mux args) : Session where
  grant := a.grant
  ticket := a.ticket
  mailbox := a.backend.mailboxes.length
  channel := a.channel
  blockSize := Driver.blockSize a.backend.driver
  operations := allowed (Driver.operations a.backend.driver) a.grant
  usesAddresses := Driver.usesAddresses a.backend.driver

/-- The multiplexer afterwards. -/
def after (a : Admission mux args) : Multiplexer δ :=
  { mux with backend := a.backend.addMailbox.1, roster := a.roster }

theorem mailboxes_eq (a : Admission mux args) : a.backend.mailboxes = mux.backend.mailboxes :=
  Backend.mailboxes_allocate a.backend_eq

theorem channel_new (a : Admission mux args) :
    a.channel = { buffer := a.buffer, capacity := mux.config.queueSize } ∧
      1 ≤ mux.config.queueSize := by
  have h := a.channel_eq
  unfold Channel.create at h
  split at h
  · simp at h
  · simp only [Except.ok.injEq] at h
    exact ⟨h.symm, by omega⟩

/-- An admission says that the opening succeeds. -/
theorem openWith_eq (a : Admission mux args) : mux.openWith args = (a.after, .ok a.session) := by
  simp only [openWith, a.size_eq, enter, a.grant_eq, a.roster_eq, equip, a.backend_eq,
    a.channel_eq]
  rfl

end Admission

theorem openWith_ok {mux mux' : Multiplexer δ} {args : Arguments} {s : Session}
    (h : mux.openWith args = (mux', .ok s)) :
    ∃ a : Admission mux args, mux' = a.after ∧ s = a.session := by
  -- each check on the way fails into an error, so all of them have passed
  unfold openWith at h
  split at h
  · simp at h
  · rename_i size hsize
    unfold enter at h
    split at h
    · simp at h
    · rename_i grant hgrant
      split at h
      · simp at h
      · rename_i roster ticket hroster
        unfold equip at h
        split at h
        · simp at h
        · rename_i backend buffer hbackend
          dsimp only at h
          split at h
          · simp at h
          · rename_i channel hchannel
            simp only [Prod.mk.injEq, Except.ok.injEq] at h
            refine ⟨⟨size, grant, roster, ticket, backend, buffer, channel, hsize, hgrant, hroster,
              hbackend, hchannel⟩, h.1.symm, h.2.symm⟩

/-- What a refused opening leaves: the driver may have handed out a buffer and taken it back. -/
inductive TurnedAway (mux : Multiplexer δ) : Multiplexer δ → Prop
  | early (roster : Roster) (restored : mux.roster.Restored roster) :
      TurnedAway mux { mux with roster := roster }
  | late {size : Nat} {backend : Backend δ} {buffer : SharedBuffer} (roster : Roster)
      (backend_eq : mux.backend.allocate size = some (backend, buffer))
      (restored : mux.roster.Restored roster) :
      TurnedAway mux { mux with roster := roster, backend := backend.release buffer }

theorem openWith_error {mux mux' : Multiplexer δ} {args : Arguments} {e : OpenError}
    (h : mux.openWith args = (mux', .error e)) : TurnedAway mux mux' := by
  unfold openWith at h
  split at h
  · obtain ⟨rfl, -⟩ := Prod.mk.inj h
    exact .early mux.roster .untouched
  · unfold enter at h
    split at h
    · obtain ⟨rfl, -⟩ := Prod.mk.inj h
      exact .early mux.roster .untouched
    · split at h
      · obtain ⟨rfl, -⟩ := Prod.mk.inj h
        exact .early mux.roster .untouched
      · rename_i entered
        unfold equip at h
        split at h
        · obtain ⟨rfl, -⟩ := Prod.mk.inj h
          exact .early _ (.withdrawn entered)
        · rename_i backend_eq
          dsimp only at h
          split at h
          · obtain ⟨rfl, -⟩ := Prod.mk.inj h
            exact .late _ backend_eq (.withdrawn entered)
          · simp at h

end Multiplexer

/-! ## Transitions -/

/-- The seat that a step is about. -/
def Step.seat? : Step → Option Nat
  | .openSession .. | .device _ => none
  | .closeSession seat | .client seat _ | .process seat _ | .handle seat _ | .run seat
  | .readCompletionEvent seat | .sync seat => some seat

namespace System

variable {δ : Type} [Device δ]

/-- The system after a client's step on its channel. -/
def afterClient (sys : System δ) (seat : Nat) (client : Seat) (step : ClientStep) : System δ :=
  ⟨{ sys.mux with backend.arena := (client.channel.perform sys.mux.backend.arena step).2.1 },
    sys.seats.set seat
      (client.withChannel (client.channel.perform sys.mux.backend.arena step).1)⟩

/-- The system after a session is closed. -/
def afterClose (sys : System δ) (seat : Nat) (s : Session) : System δ :=
  ⟨sys.mux.close s, sys.seats.set seat (.retired s.channel)⟩

/-- What a step can do to a system, and what it answers. -/
inductive Transition (sys : System δ) : Step → System δ → Answer → Prop
  /-- The step names an absent session, or the arguments of an opening cannot be read. -/
  | unchanged {step : Step} {answer : Answer}
      (quiet : answer = .noSession ∨ ∃ e, answer = .notOpened e) : Transition sys step sys answer
  /-- An opening is refused. -/
  | refused {step : Step} {mux : Multiplexer δ} {e : OpenError} (left : sys.mux.TurnedAway mux) :
      Transition sys step { sys with mux := mux } (.notOpened e)
  /-- A session is opened. -/
  | opened {text : String} {changes : List (String × String)} {args : Arguments}
      (parsed : (Arguments.parse text).map
        (fun args => changes.foldl (fun args (key, value) => args.set key value) args) = .ok args)
      (a : Multiplexer.Admission sys.mux args) :
      Transition sys (.openSession text changes) ⟨a.after, sys.seats ++ [.active a.session]⟩
        (.opened a.session)
  /-- A session is closed. -/
  | closed {seat : Nat} {s : Session} (hs : sys.session? seat = some s) :
      Transition sys (.closeSession seat) (sys.afterClose seat s) .done
  /-- A client uses its channel. -/
  | client {seat : Nat} {step : ClientStep} {client : Seat} (hc : sys.seats[seat]? = some client) :
      Transition sys (.client seat step) (sys.afterClient seat client step)
        (.client (client.channel.perform sys.mux.backend.arena step).2.2)
  /-- A session acts. -/
  | acted {step : Step} {seat : Nat} {s s' : Session} {b : Backend δ} {answer : Answer}
      (hseat : step.seat? = some seat) (hs : sys.session? seat = some s)
      (acts : s.Acts sys.mux.backend s' b)
      (quiet : answer = .done ∨ ∃ n, answer = .number n) :
      Transition sys step (sys.withSession seat s' b) answer
  /-- The device moves on. -/
  | device (step : DeviceStep) :
      Transition sys (.device step)
        { sys with mux.backend := (sys.mux.backend.advance step).1 }
        (.device (sys.mux.backend.advance step).2)

/-- The sessions of a system are poised, and each has a mailbox of its own. -/
structure Orderly (sys : System δ) : Prop where
  poised : ∀ {seat s}, sys.session? seat = some s → s.Poised
  mailbox_lt : ∀ {seat s}, sys.session? seat = some s →
    s.mailbox < sys.mux.backend.mailboxes.length
  mailbox_inj : ∀ {i j s t}, sys.session? i = some s → sys.session? j = some t →
    s.mailbox = t.mailbox → i = j

theorem work_transition {sys : System δ} {step : Step} {seat : Nat}
    {f : Session → Backend δ → Session × Backend δ} (hseat : step.seat? = some seat)
    (hacts : ∀ s, sys.session? seat = some s →
      s.Acts sys.mux.backend (f s sys.mux.backend).1 (f s sys.mux.backend).2) :
    Transition sys step (sys.work seat f).1 (sys.work seat f).2 := by
  unfold work
  split
  · exact .unchanged (.inl rfl)
  · rename_i s hs
    exact .acted hseat hs (hacts s hs) (.inl rfl)

theorem openSession_transition (sys : System δ) (text : String)
    (changes : List (String × String)) :
    Transition sys (.openSession text changes) (sys.openSession text changes).1
      (sys.openSession text changes).2 := by
  unfold openSession
  split
  · exact .unchanged (.inr ⟨_, rfl⟩)
  · rename_i args hparse
    dsimp only
    split
    · rename_i mux e hopen
      exact .refused (Multiplexer.openWith_error hopen)
    · rename_i mux s hopen
      obtain ⟨a, rfl, rfl⟩ := Multiplexer.openWith_ok hopen
      exact .opened (by rw [hparse]; rfl) a

/-- An admission says what the step does. -/
theorem openSession_of_admission {sys : System δ} {text : String}
    {changes : List (String × String)} {args : Arguments}
    (parsed : (Arguments.parse text).map
      (fun args => changes.foldl (fun args (key, value) => args.set key value) args) = .ok args)
    (a : Multiplexer.Admission sys.mux args) :
    sys.openSession text changes =
      (⟨a.after, sys.seats ++ [.active a.session]⟩, .opened a.session) := by
  unfold openSession
  cases hparse : Arguments.parse text with
  | error e =>
    rw [hparse] at parsed
    simp [Except.map] at parsed
  | ok found =>
    rw [hparse] at parsed
    obtain rfl := Except.ok.inj parsed
    dsimp only
    rw [a.openWith_eq]

theorem step_transition {sys : System δ} (ho : sys.Orderly) (step : Step) :
    Transition sys step (sys.step step).1 (sys.step step).2 := by
  cases step with
  | openSession text changes => exact openSession_transition sys text changes
  | closeSession seat =>
    -- here and below: nothing happens where no session is open
    simp only [System.step, closeSession]
    split
    · exact .unchanged (.inl rfl)
    · rename_i s hs
      exact .closed hs
  | client seat step =>
    simp only [System.step, clientStep]
    split
    · exact .unchanged (.inl rfl)
    · rename_i client hc
      exact .client hc
  | process seat event =>
    exact work_transition rfl fun s hs => Session.process_acts (ho.poised hs) _ event
  | handle seat event =>
    exact work_transition rfl fun s hs => Session.handle_acts (ho.poised hs) _ event
  | run seat =>
    exact work_transition rfl fun s hs => Session.run_acts (ho.poised hs) _
  | readCompletionEvent seat =>
    simp only [System.step, readCompletionEvent]
    split
    · exact .unchanged (.inl rfl)
    · rename_i s hs
      exact .acted rfl hs (Session.Act.clear s _ .completion).acts (.inr ⟨_, rfl⟩)
  | sync seat =>
    exact work_transition rfl fun s hs => (Session.Act.sync s _).acts
  | device step => exact .device step

/-! ## Orderly systems -/

section
omit [Device δ]

theorem session?_set {sys : System δ} {mux : Multiplexer δ} {i j : Nat} {client old : Seat}
    {s : Session} (hold : sys.seats[i]? = some old)
    (h : (⟨mux, sys.seats.set i client⟩ : System δ).session? j = some s) :
    (i = j ∧ client.session? = some s) ∨ (i ≠ j ∧ sys.session? j = some s) := by
  unfold session? at h
  dsimp only at h
  by_cases hij : i = j
  · subst hij
    have hi : i < sys.seats.length := (List.getElem?_eq_some_iff.1 hold).1
    rw [List.getElem?_set_self hi] at h
    exact .inl ⟨rfl, h⟩
  · rw [List.getElem?_set_ne hij] at h
    exact .inr ⟨hij, h⟩

theorem seat_of_session? {sys : System δ} {seat : Nat} {s : Session}
    (h : sys.session? seat = some s) : sys.seats[seat]? = some (.active s) := by
  unfold session? at h
  obtain ⟨client, hclient, hs⟩ := Option.bind_eq_some_iff.1 h
  cases client with
  | active t =>
    obtain rfl : t = s := Option.some.inj hs
    exact hclient
  | retired channel => simp [Seat.session?] at hs

theorem session?_append {sys : System δ} {mux : Multiplexer δ} {new s : Session} {j : Nat}
    (h : (⟨mux, sys.seats ++ [.active new]⟩ : System δ).session? j = some s) :
    (j = sys.seats.length ∧ s = new) ∨ sys.session? j = some s := by
  unfold session? at h
  dsimp only at h
  -- a seat of before, the new one, or one that nobody has taken
  rcases Nat.lt_trichotomy j sys.seats.length with hj | rfl | hj
  · rw [List.getElem?_append_left hj] at h
    exact .inr h
  · rw [List.getElem?_concat_length] at h
    exact .inl ⟨rfl, (Option.some.inj h).symm⟩
  · rw [List.getElem?_eq_none (by simp; omega)] at h
    simp at h

theorem Orderly.create (mux : Multiplexer δ) : (System.create mux).Orderly :=
  ⟨fun h => by simp [System.create, session?] at h, fun h => by simp [System.create, session?] at h,
    fun h => by simp [System.create, session?] at h⟩

/-- Replacing one session by a later state of it keeps a system orderly. -/
theorem Orderly.replace {sys : System δ} (ho : sys.Orderly) {mux : Multiplexer δ} {seat : Nat}
    {s s' : Session} (hs : sys.session? seat = some s) (hterms : s'.terms = s.terms)
    (hpoised : s'.Poised)
    (hlength : sys.mux.backend.mailboxes.length = mux.backend.mailboxes.length) :
    Orderly ⟨mux, sys.seats.set seat (.active s')⟩ := by
  have hseat := seat_of_session? hs
  have hmailbox : s'.mailbox = s.mailbox := congrArg Session.Terms.mailbox hterms
  -- whoever sits somewhere now has the mailbox of the one who sat there before
  have hbefore : ∀ {j t}, (⟨mux, sys.seats.set seat (.active s')⟩ : System δ).session? j = some t →
      ∃ u, sys.session? j = some u ∧ t.mailbox = u.mailbox ∧ t.Poised := by
    intro j t ht
    rcases session?_set hseat ht with ⟨rfl, hnew⟩ | ⟨-, hold⟩
    · obtain rfl : s' = t := Option.some.inj hnew
      exact ⟨s, hs, hmailbox, hpoised⟩
    · exact ⟨t, hold, rfl, ho.poised hold⟩
  refine ⟨?_, ?_, ?_⟩
  · intro j t ht
    obtain ⟨-, -, -, hpoised⟩ := hbefore ht
    exact hpoised
  · intro j t ht
    obtain ⟨u, hu, hut, -⟩ := hbefore ht
    rw [hut]
    exact hlength ▸ ho.mailbox_lt hu
  · intro i j t t' hi hj heq
    -- the mailboxes are those of before, where they differed
    obtain ⟨u, hu, hut, -⟩ := hbefore hi
    obtain ⟨v, hv, hvt, -⟩ := hbefore hj
    exact ho.mailbox_inj hu hv (by rw [← hut, ← hvt, heq])

/-- Retiring a session, or changing nothing but the backend, keeps a system orderly. -/
theorem Orderly.mono {sys sys' : System δ} (ho : sys.Orderly)
    (hsessions : ∀ {j t}, sys'.session? j = some t → sys.session? j = some t)
    (hlength : sys.mux.backend.mailboxes.length = sys'.mux.backend.mailboxes.length) :
    sys'.Orderly :=
  ⟨fun ht => ho.poised (hsessions ht), fun ht => hlength ▸ ho.mailbox_lt (hsessions ht),
    fun hi hj heq => ho.mailbox_inj (hsessions hi) (hsessions hj) heq⟩

end

theorem Orderly.opened {sys : System δ} (ho : sys.Orderly) {args : Arguments}
    (a : Multiplexer.Admission sys.mux args) :
    Orderly ⟨a.after, sys.seats ++ [.active a.session]⟩ := by
  have hlength : a.after.backend.mailboxes.length = sys.mux.backend.mailboxes.length + 1 := by
    rw [← a.mailboxes_eq]
    exact Backend.length_addMailbox _
  -- the new mailbox is the next number, which no open session has
  have hnew : a.session.mailbox = sys.mux.backend.mailboxes.length := by
    rw [← a.mailboxes_eq]
    rfl
  refine ⟨?_, ?_, ?_⟩
  · intro seat t ht
    rcases session?_append ht with ⟨-, rfl⟩ | hold
    · -- a new session holds no packet
      exact ⟨rfl, fun _ hp => by simp [Multiplexer.Admission.session] at hp⟩
    · exact ho.poised hold
  · intro seat t ht
    rw [hlength]
    rcases session?_append ht with ⟨-, rfl⟩ | hold
    · omega
    · have := ho.mailbox_lt hold
      omega
  · intro i j t t' hi hj heq
    rcases session?_append hi with ⟨hi', rfl⟩ | hi'
    · rcases session?_append hj with ⟨hj', rfl⟩ | hj'
      · rw [hi', hj']
      · have := ho.mailbox_lt hj'
        omega
    · rcases session?_append hj with ⟨hj', rfl⟩ | hj'
      · have := ho.mailbox_lt hi'
        omega
      · exact ho.mailbox_inj hi' hj' heq

end System

/-! ## What steps leave alone -/

namespace Session

theorem terms_perform (s : Session) (arena : Arena) (step : ClientStep) :
    ({ s with channel := (s.channel.perform arena step).1 } : Session).terms = s.terms := by
  obtain ⟨hbuffer, hcapacity⟩ := s.channel.place_perform arena step
  simp only [terms, hbuffer, hcapacity]

theorem length_act {δ : Type} [Driver δ] {s s' : Session} {b b' : Backend δ}
    (h : s.Act b s' b') : b'.mailboxes.length = b.mailboxes.length := by
  cases h with
  | collect => exact Backend.length_modifyMailbox _ _ _
  | gauge => rfl
  | reject => rfl
  | take => exact Backend.length_submit _ _ _
  | retry => exact Backend.length_submit _ _ _
  | clear _ event =>
    cases event with
    | submitted => rfl
    | ackFreed => rfl
    | completion => exact Backend.length_modifyMailbox _ _ _
  | sync => rfl

theorem length_acts {δ : Type} [Driver δ] {s s' : Session} {b b' : Backend δ}
    (h : s.Acts b s' b') : b'.mailboxes.length = b.mailboxes.length :=
  h.invariant (P := fun _ c => c.mailboxes.length = b.mailboxes.length)
    (fun act hc => (length_act act).trans hc) rfl

theorem Act.mailbox_lt {δ : Type} [Driver δ] {s s' : Session} {b b' : Backend δ}
    (h : s.Act b s' b') (hid : s.mailbox < b.mailboxes.length) :
    s'.mailbox < b'.mailboxes.length := by
  have hmailbox : s'.mailbox = s.mailbox := congrArg Terms.mailbox h.terms_eq
  rw [hmailbox, length_act h]
  exact hid

theorem Acts.mailbox_lt {δ : Type} [Driver δ] {s s' : Session} {b b' : Backend δ}
    (h : s.Acts b s' b') (hid : s.mailbox < b.mailboxes.length) :
    s'.mailbox < b'.mailboxes.length :=
  h.invariant (P := fun t c => t.mailbox < c.mailboxes.length) Act.mailbox_lt hid

end Session

/-! ## Orderly runs -/

namespace System

variable {δ : Type} [Device δ]

theorem Orderly.transition {sys sys' : System δ} {step : Step} {answer : Answer}
    (ho : sys.Orderly) (h : sys.Transition step sys' answer) : sys'.Orderly := by
  cases h with
  | unchanged => exact ho
  | refused left =>
    cases left with
    | early roster => exact ho.mono id rfl
    | late roster backend_eq =>
      refine ho.mono id ?_
      exact congrArg List.length (Backend.mailboxes_allocate backend_eq).symm
  | opened parsed a => exact ho.opened a
  | closed hs =>
    refine ho.mono (fun ht => ?_) (Backend.length_modifyMailbox _ _ _).symm
    rcases session?_set (seat_of_session? hs) ht with ⟨-, hnone⟩ | ⟨-, hold⟩
    · simp [Seat.session?] at hnone
    · exact hold
  | @client seat step client hc =>
    cases client with
    | active s =>
      have hs : sys.session? seat = some s := by rw [session?, hc]; rfl
      have hterms := s.terms_perform sys.mux.backend.arena step
      exact ho.replace hs hterms ((ho.poised hs).congr hterms rfl rfl) rfl
    | retired channel =>
      refine ho.mono (fun ht => ?_) rfl
      rcases session?_set hc ht with ⟨-, hnone⟩ | ⟨-, hold⟩
      · simp [Seat.withChannel, Seat.session?] at hnone
      · exact hold
  | acted hseat hs acts quiet =>
    exact ho.replace hs acts.terms_eq (acts.poised (ho.poised hs)) (Session.length_acts acts).symm
  | device step => exact ho.mono id (Backend.length_advance _ _).symm

theorem Orderly.runSteps {sys : System δ} (ho : sys.Orderly) (steps : List Step) :
    (sys.runSteps steps).Orderly := by
  induction steps using List.reverseRecOn with
  | nil => exact ho
  | append_singleton steps step ih =>
    rw [runSteps_concat]
    exact ih.transition (step_transition ih step)

end System
end BlockMux
