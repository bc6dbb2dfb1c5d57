import BlockMux.Proofs.Transitions

/-!
# The run of one session

Seen from one session, a run of the system is a run of that session: it acts, its client uses the
channel, and whatever else happens leaves its queues and its mailbox to it. A law about one
session is proved for such runs, and `run_of_session` carries it over to systems.

Main statements:

* `Transition.foreign` — a step that is not about a session is foreign to it.
* `run_of_session` — the part of a system's run that one session sees.
-/

namespace BlockMux

/-- What happens to a backend without the session that has mailbox `id`. -/
inductive Backend.Foreign {δ : Type} [Device δ] (id : Nat) : Backend δ → Backend δ → Prop
  | submit (b : Backend δ) (t : Transfer) {request : Request} (other : request.mailbox ≠ id) :
      Foreign id b (b.submit t request).1
  | advance (b : Backend δ) (step : DeviceStep) : Foreign id b (b.advance step).1
  | sync (b : Backend δ) : Foreign id b b.sync
  | allocate {b b' : Backend δ} {size : Nat} {buffer : SharedBuffer}
      (h : b.allocate size = some (b', buffer)) : Foreign id b b'
  | release (b : Backend δ) (buffer : SharedBuffer) : Foreign id b (b.release buffer)
  | addMailbox (b : Backend δ) : Foreign id b b.addMailbox.1
  | mailbox (b : Backend δ) {other : Nat} (h : other ≠ id) (f : Mailbox → Mailbox) :
      Foreign id b (b.modifyMailbox other f)
  | arena (b : Backend δ) (arena : Arena) : Foreign id b { b with arena := arena }

/-- A chain of foreign happenings. -/
def Backend.Foreigns {δ : Type} [Device δ] (id : Nat) : Backend δ → Backend δ → Prop :=
  Relation.ReflTransGen (Backend.Foreign id)

namespace Session

/-- A session as it is opened. -/
structure Fresh (s : Session) : Prop where
  submitted : s.channel.submitted = []
  acked : s.channel.acked = []
  capacity_pos : 1 ≤ s.channel.capacity
  inFlight : s.inFlight = 0
  pending : s.pending = none
  congested : s.driverCongested = false

theorem Fresh.poised {s : Session} (h : s.Fresh) : s.Poised :=
  ⟨by rw [h.congested, h.pending]; rfl, fun packet hp => by simp [h.pending] at hp⟩

/-- What a client does with its channel leaves the terms of the session. -/
theorem terms_used {s : Session} {channel : Channel}
    {sub pop : List Packet} (h : s.channel.Used channel sub pop) :
    ({ s with channel := channel } : Session).terms = s.terms := by
  simp only [Session.terms, h.buffer, h.capacity]

/-- The runs of one session on a system that began with `driver`: its client has submitted `sub`
and taken the acknowledgements `pop`. -/
inductive Run {δ : Type} [Device δ] (driver : δ) :
    List Packet → List Packet → Session → Backend δ → Prop
  | opened {s : Session} {b : Backend δ}
      (before : Backend.Foreigns s.mailbox { driver := driver } b)
      (mailbox : s.mailbox = b.mailboxes.length) (fresh : s.Fresh) :
      Run driver [] [] s b.addMailbox.1
  | foreign {sub pop : List Packet} {s : Session} {b b' : Backend δ} (run : Run driver sub pop s b)
      (h : Backend.Foreign s.mailbox b b') : Run driver sub pop s b'
  | act {sub pop : List Packet} {s s' : Session} {b b' : Backend δ} (run : Run driver sub pop s b)
      (h : s.Act b s' b') : Run driver sub pop s' b'
  | client {sub pop sub' pop' : List Packet} {s : Session} {b : Backend δ} {channel : Channel}
      (run : Run driver sub pop s b) (used : s.channel.Used channel sub' pop') :
      Run driver (sub ++ sub') (pop ++ pop') { s with channel := channel } b

variable {δ : Type} [Device δ] {driver : δ} {sub pop : List Packet} {s s' : Session}
  {b b' : Backend δ}

theorem Run.poised (run : Run driver sub pop s b) : s.Poised := by
  induction run with
  | opened _ _ fresh => exact fresh.poised
  | foreign _ _ ih => exact ih
  | act _ hact ih => exact hact.poised ih
  | client _ used ih => exact ih.congr (terms_used used) rfl rfl

theorem Run.foreigns (run : Run driver sub pop s b) (h : Backend.Foreigns s.mailbox b b') :
    Run driver sub pop s b' := by
  induction h with
  | refl => exact run
  | tail _ last ih => exact ih.foreign last

theorem Run.acts (run : Run driver sub pop s b) (h : s.Acts b s' b') : Run driver sub pop s' b' :=
  h.invariant (P := fun s b => Run driver sub pop s b) (fun act run => run.act act) run

theorem Act.foreign {id : Nat} (h : s.Act b s' b') (hid : s.mailbox ≠ id) :
    Backend.Foreigns id b b' := by
  cases h with
  | collect => exact .single (.mailbox b hid _)
  | gauge => exact .refl
  | reject => exact .refl
  | take => exact .single (.submit b _ hid)
  | retry => exact .single (.submit b _ hid)
  | clear _ event =>
    cases event with
    | submitted => exact .refl
    | ackFreed => exact .refl
    | completion => exact .single (.mailbox b hid _)
  | sync => exact .single (.sync b)

theorem Acts.foreign {id : Nat} (h : s.Acts b s' b') (hid : s.mailbox ≠ id) :
    Backend.Foreigns id b b' := by
  have hpair : s'.mailbox ≠ id ∧ Backend.Foreigns id b b' :=
    h.invariant (P := fun t c => t.mailbox ≠ id ∧ Backend.Foreigns id b c)
      (fun {s₁ _ _ _} act hP =>
        ⟨(congrArg Terms.mailbox act.terms_eq).trans_ne hP.1, hP.2.trans (act.foreign hP.1)⟩)
      ⟨hid, .refl⟩
  exact hpair.2

end Session

namespace Multiplexer

variable {δ : Type} [Device δ]

theorem TurnedAway.foreign {mux mux' : Multiplexer δ} (h : mux.TurnedAway mux') (id : Nat) :
    Backend.Foreigns id mux.backend mux'.backend := by
  cases h with
  | early roster => exact .refl
  | late roster backend_eq =>
    exact (Relation.ReflTransGen.single (.allocate backend_eq)).tail (.release _ _)

theorem Admission.fresh {mux : Multiplexer δ} {args : Arguments}
    (a : Admission mux args) : a.session.Fresh := by
  obtain ⟨hchannel, hpos⟩ := a.channel_new
  have hnew : a.session.channel = { buffer := a.buffer, capacity := mux.config.queueSize } :=
    hchannel
  exact ⟨by rw [hnew], by rw [hnew], by rwa [hnew], rfl, rfl, rfl⟩

end Multiplexer

namespace System

variable {δ : Type} [Device δ]

/-- A step is foreign to a session that it is not about. -/
theorem Transition.foreign {sys sys' : System δ} {step : Step} {answer : Answer} {id : Nat}
    (h : sys.Transition step sys' answer)
    (hid : ∀ {seat s}, step.seat? = some seat → sys.session? seat = some s → s.mailbox ≠ id) :
    Backend.Foreigns id sys.mux.backend sys'.mux.backend := by
  cases h with
  | unchanged => exact .refl
  | refused left => exact left.foreign id
  | opened parsed a =>
    exact (Relation.ReflTransGen.single (.allocate a.backend_eq)).tail (.addMailbox a.backend)
  | closed hs =>
    exact (Relation.ReflTransGen.single (.release _ _)).tail (.mailbox _ (hid rfl hs) _)
  | client hc => exact .single (.arena _ _)
  | acted hseat hs acts => exact acts.foreign (hid hseat hs)
  | device step => exact .single (.advance _ step)

theorem length_transition {sys sys' : System δ} {step : Step} {answer : Answer}
    (h : sys.Transition step sys' answer) :
    sys.mux.backend.mailboxes.length ≤ sys'.mux.backend.mailboxes.length := by
  cases h with
  | unchanged => exact Nat.le_refl _
  | refused left =>
    cases left with
    | early roster => exact Nat.le_refl _
    | late roster backend_eq =>
      exact Nat.le_of_eq (congrArg List.length (Backend.mailboxes_allocate backend_eq).symm)
  | opened parsed a =>
    rw [← a.mailboxes_eq]
    exact Nat.le_trans (Nat.le_succ _) (Nat.le_of_eq (Backend.length_addMailbox _).symm)
  | closed hs => exact Nat.le_of_eq (Backend.length_modifyMailbox _ _ _).symm
  | client hc => exact Nat.le_refl _
  | acted hseat hs acts => exact Nat.le_of_eq (Session.length_acts acts).symm
  | device step => exact Nat.le_of_eq (Backend.length_advance _ _).symm

/-- Before a mailbox is handed out, everything is foreign to it. -/
theorem foreign_of_fresh {driver : δ} {config : Config} {table : Option PartitionTable}
    (steps : List Step) {id : Nat}
    (hid : ((create (.create driver config table)).runSteps steps).mux.backend.mailboxes.length ≤
      id) :
    Backend.Foreigns id { driver := driver }
      ((create (.create driver config table)).runSteps steps).mux.backend := by
  -- a mailbox that is not handed out at the end was not handed out before
  induction steps using List.reverseRecOn with
  | nil => exact .refl
  | append_singleton steps step ih =>
    have ho := (Orderly.create (.create driver config table)).runSteps steps
    have h := step_transition ho step
    rw [runSteps_concat] at hid ⊢
    have hbefore := Nat.le_trans (length_transition h) hid
    refine (ih hbefore).trans (h.foreign fun _ hs => ?_)
    have := ho.mailbox_lt hs
    omega

/-- A session at a seat that a step is not about was there before, or is the one just opened. -/
theorem Transition.session?_of_other {sys sys' : System δ} {step : Step} {answer : Answer}
    {seat : Nat} {s : Session} (h : sys.Transition step sys' answer)
    (hseat : step.seat? ≠ some seat)
    (hs : sys'.session? seat = some s) :
    sys.session? seat = some s ∨
      ∃ (args : Arguments) (a : Multiplexer.Admission sys.mux args),
        seat = sys.seats.length ∧ s = a.session ∧ sys'.mux = a.after := by
  cases h with
  | unchanged => exact .inl hs
  | refused left => exact .inl hs
  | opened parsed a =>
    rcases session?_append hs with ⟨hlast, rfl⟩ | hold
    · exact .inr ⟨_, a, hlast, rfl, rfl⟩
    · exact .inl hold
  | closed hclosed =>
    rcases session?_set (seat_of_session? hclosed) hs with ⟨rfl, -⟩ | ⟨-, hold⟩
    · exact absurd rfl hseat
    · exact .inl hold
  | client hc =>
    rcases session?_set hc hs with ⟨rfl, -⟩ | ⟨-, hold⟩
    · exact absurd rfl hseat
    · exact .inl hold
  | acted hacting hacted acts =>
    rcases session?_set (seat_of_session? hacted) hs with ⟨rfl, -⟩ | ⟨-, hold⟩
    · exact absurd hacting hseat
    · exact .inl hold
  | device step => exact .inl hs

/-- A step changes no session's terms; a session that is new has those of its opening. -/
theorem Transition.terms_before {sys sys' : System δ} {step : Step} {answer : Answer} {seat : Nat}
    {s : Session} (h : sys.Transition step sys' answer) (hs : sys'.session? seat = some s) :
    (∃ t, sys.session? seat = some t ∧ s.terms = t.terms) ∨
      ∃ (text : String) (changes : List (String × String)) (args : Arguments)
        (a : Multiplexer.Admission sys.mux args), step = .openSession text changes ∧
        (Arguments.parse text).map
          (fun args => changes.foldl (fun args (key, value) => args.set key value) args) =
            .ok args ∧ seat = sys.seats.length ∧ s = a.session ∧ sys'.mux = a.after := by
  cases h with
  | unchanged => exact .inl ⟨s, hs, rfl⟩
  | refused left => exact .inl ⟨s, hs, rfl⟩
  | opened parsed a =>
    rcases session?_append hs with ⟨hlast, rfl⟩ | hold
    · exact .inr ⟨_, _, _, a, rfl, parsed, hlast, rfl, rfl⟩
    · exact .inl ⟨s, hold, rfl⟩
  | closed hclosed =>
    rcases session?_set (seat_of_session? hclosed) hs with ⟨-, hnone⟩ | ⟨-, hold⟩
    · simp [Seat.session?] at hnone
    · exact .inl ⟨s, hold, rfl⟩
  | @client i step old hc =>
    rcases session?_set hc hs with ⟨rfl, hnew⟩ | ⟨-, hold⟩
    · cases old with
      -- a client may go on using the channel of a closed session, but that opens none
      | retired channel => simp [Seat.withChannel, Seat.session?] at hnew
      | active t =>
        obtain rfl := Option.some.inj hnew
        exact .inl ⟨t, by rw [session?, hc]; rfl, t.terms_perform sys.mux.backend.arena step⟩
    · exact .inl ⟨s, hold, rfl⟩
  | @acted _ i t _ _ _ hacting hacted acts =>
    rcases session?_set (seat_of_session? hacted) hs with ⟨rfl, hnew⟩ | ⟨-, hold⟩
    · obtain rfl := Option.some.inj hnew
      exact .inl ⟨t, hacted, acts.terms_eq⟩
    · exact .inl ⟨s, hold, rfl⟩
  | device step => exact .inl ⟨s, hs, rfl⟩

/-- A session stays open, on its terms, until it is closed. -/
theorem Transition.terms_after {sys sys' : System δ} {step : Step} {answer : Answer} {seat : Nat}
    {t : Session} (h : sys.Transition step sys' answer) (hopen : step ≠ .closeSession seat)
    (ht : sys.session? seat = some t) : ∃ s, sys'.session? seat = some s ∧ s.terms = t.terms := by
  have hlt : seat < sys.seats.length := (List.getElem?_eq_some_iff.1 (seat_of_session? ht)).1
  -- a step about another seat leaves this one
  have hother : ∀ {i : Nat} (mux : Multiplexer δ) (client : Seat), i ≠ seat →
      (⟨mux, sys.seats.set i client⟩ : System δ).session? seat = some t := by
    intro i mux client hi
    rw [session?, List.getElem?_set_ne hi]
    exact ht
  have hown : ∀ (mux : Multiplexer δ) (s : Session),
      (⟨mux, sys.seats.set seat (.active s)⟩ : System δ).session? seat = some s := by
    intro mux s
    rw [session?, List.getElem?_set_self hlt]
    rfl
  cases h with
  | unchanged => exact ⟨t, ht, rfl⟩
  | refused left => exact ⟨t, ht, rfl⟩
  | opened parsed a =>
    refine ⟨t, ?_, rfl⟩
    rw [session?, List.getElem?_append_left hlt]
    exact ht
  | @closed i s hclosed =>
    have hi : i ≠ seat := fun heq => hopen (by rw [heq])
    exact ⟨t, hother _ _ hi, rfl⟩
  | @client i step old hc =>
    by_cases hi : i = seat
    · subst hi
      obtain rfl : old = .active t := Option.some.inj (hc.symm.trans (seat_of_session? ht))
      exact ⟨_, hown _ _, t.terms_perform sys.mux.backend.arena step⟩
    · exact ⟨t, hother _ _ hi, rfl⟩
  | @acted _ i u s' _ _ hacting hacted acts =>
    by_cases hi : i = seat
    · subst hi
      obtain rfl : u = t := Option.some.inj (hacted.symm.trans ht)
      exact ⟨s', hown _ _, acts.terms_eq⟩
    · exact ⟨t, hother _ _ hi, rfl⟩
  | device step => exact ⟨t, ht, rfl⟩

/-! ## Histories along a step -/

section Histories

variable {seat : Nat} {f : ClientStep → Except ChannelError ClientAnswer → List Packet}

omit [Device δ] in
/-- Only an answer to the client of the seat counts. -/
theorem ofClient_eq_nil {step : Step} {answer : Answer}
    (h : ∀ client result, step = .client seat client → answer ≠ .client result) :
    ofClient seat f (step, answer) = [] := by
  cases step with
  | client other client =>
    cases answer with
    | client result =>
      have hne : other ≠ seat := by
        rintro rfl
        exact h client result rfl rfl
      rw [ofClient, if_neg hne]
    | _ => rfl
  | _ => rfl

omit [Device δ] in
theorem ofClient_of_other {step : Step} (hseat : step.seat? ≠ some seat) (answer : Answer) :
    ofClient seat f (step, answer) = [] := by
  refine ofClient_eq_nil fun client result heq => ?_
  subst heq
  exact absurd rfl hseat

/-- A client that has no seat yet has done nothing. -/
theorem ofClient_of_absent (sys : System δ) (steps : List Step)
    (habsent : (sys.runSteps steps).seats.length ≤ seat) :
    (sys.transcript steps).flatMap (ofClient seat f) = [] := by
  induction steps using List.reverseRecOn with
  | nil => rfl
  | append_singleton steps step ih =>
    rw [runSteps_concat] at habsent
    have hbefore := Nat.le_trans (length_seats_step _ step) habsent
    rw [transcript_concat, List.flatMap_append, ih hbefore, List.flatMap_singleton]
    -- a client without a seat is answered that there is no session
    refine ofClient_eq_nil fun client result heq => ?_
    subst heq
    simp [System.step, clientStep, List.getElem?_eq_none hbefore]

end Histories

/-- A step about a session is an act of it, its client's, or foreign to it. -/
theorem Transition.run_of_own {sys sys' : System δ} {step : Step} {answer : Answer} {seat : Nat}
    {s : Session} {driver : δ} {sub pop : List Packet} (h : sys.Transition step sys' answer)
    (hside : ∀ client, step = .client seat client → client.isClients = true)
    (hseat : step.seat? = some seat) (hs : sys'.session? seat = some s)
    (ih : ∀ t, sys.session? seat = some t → Session.Run driver sub pop t sys.mux.backend) :
    Session.Run driver (sub ++ ofClient seat ClientStep.submissions (step, answer))
      (pop ++ ofClient seat ClientStep.pops (step, answer)) s sys'.mux.backend := by
  -- where no client is answered, the histories stay
  have hquiet : (∀ result, answer ≠ .client result) →
      Session.Run driver sub pop s sys'.mux.backend →
      Session.Run driver (sub ++ ofClient seat ClientStep.submissions (step, answer))
        (pop ++ ofClient seat ClientStep.pops (step, answer)) s sys'.mux.backend := by
    intro hanswer run
    rw [ofClient_eq_nil fun _ result _ => hanswer result,
      ofClient_eq_nil fun _ result _ => hanswer result, List.append_nil, List.append_nil]
    exact run
  cases h with
  | unchanged quiet =>
    refine hquiet (fun result => ?_) (ih s hs)
    rcases quiet with rfl | ⟨e, rfl⟩ <;> simp
  | refused left => exact hquiet (fun _ => by simp) ((ih s hs).foreigns (left.foreign _))
  | opened parsed a => simp [Step.seat?] at hseat
  | closed hclosed =>
    obtain rfl := Option.some.inj hseat
    rcases session?_set (seat_of_session? hclosed) hs with ⟨-, hnone⟩ | ⟨hne, -⟩
    · simp [Seat.session?] at hnone
    · exact absurd rfl hne
  | @client _ client old hc =>
    obtain rfl := Option.some.inj hseat
    rcases session?_set hc hs with ⟨-, hnew⟩ | ⟨hne, -⟩
    · cases old with
      | retired channel => simp [Seat.withChannel, Seat.session?] at hnew
      | active t =>
        obtain rfl := Option.some.inj hnew
        have run := ih t (by rw [session?, hc]; rfl)
        have used := t.channel.perform_used sys.mux.backend.arena (hside client rfl)
        rw [ofClient, ofClient, if_pos rfl, if_pos rfl]
        exact (run.client used).foreign (.arena _ _)
    · exact absurd rfl hne
  | acted hacting hacted acts quiet =>
    obtain rfl := Option.some.inj (hacting.symm.trans hseat)
    refine hquiet (fun result => ?_) ?_
    · rcases quiet with rfl | ⟨n, rfl⟩ <;> simp
    · rcases session?_set (seat_of_session? hacted) hs with ⟨-, hnew⟩ | ⟨hne, -⟩
      · obtain rfl := Option.some.inj hnew
        exact (ih _ hacted).acts acts
      · exact absurd rfl hne
  | device step => simp [Step.seat?] at hseat

/-- What a system's run is for the session on one seat, if its client keeps to its side. -/
theorem run_of_session {driver : δ} {config : Config} {table : Option PartitionTable}
    {steps : List Step} {seat : Nat} {s : Session} (hside : KeepsSide seat steps)
    (hs : ((create (.create driver config table)).runSteps steps).session? seat = some s) :
    Session.Run driver
      (submittedBy seat ((create (.create driver config table)).transcript steps))
      (poppedBy seat ((create (.create driver config table)).transcript steps)) s
      ((create (.create driver config table)).runSteps steps).mux.backend := by
  -- on the last step: it is about this seat, or foreign to the session on it, or opens it
  induction steps using List.reverseRecOn generalizing s with
  | nil => simp [create, runSteps, session?] at hs
  | append_singleton steps step ih =>
    have ho := (Orderly.create (.create driver config table)).runSteps steps
    have h := step_transition ho step
    have hbefore := fun t ht => ih (s := t) hside.init ht
    rw [runSteps_concat] at hs ⊢
    rw [transcript_concat, submittedBy_concat, poppedBy_concat]
    by_cases hseat : step.seat? = some seat
    · refine h.run_of_own (fun client heq => ?_) hseat hs hbefore
      subst heq
      exact hside.last
    · rw [ofClient_of_other hseat, ofClient_of_other hseat, List.append_nil, List.append_nil]
      rcases h.session?_of_other hseat hs with hold | ⟨args, a, rfl, rfl, hmux⟩
      -- an old session is not the one the step is about, since mailboxes tell sessions apart
      · refine (hbefore s hold).foreigns (h.foreign fun hother ht hmailbox => ?_)
        exact hseat (hother.trans (congrArg some (ho.mailbox_inj ht hold hmailbox)))
      · rw [hmux, submittedBy, poppedBy, ofClient_of_absent _ _ (Nat.le_refl _),
          ofClient_of_absent _ _ (Nat.le_refl _)]
        have hlength := congrArg List.length a.mailboxes_eq
        have hfresh : Backend.Foreigns a.session.mailbox { driver := driver } _ :=
          foreign_of_fresh steps (Nat.le_of_eq hlength.symm)
        exact .opened (hfresh.tail (.allocate a.backend_eq)) rfl a.fresh

end System
end BlockMux
