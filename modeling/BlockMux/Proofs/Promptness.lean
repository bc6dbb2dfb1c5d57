import BlockMux.Proofs.Tenancy

/-!
# Prompt drivers

A driver that never refuses a transfer for want of room never makes a session hold a packet. Which
drivers are so may depend on their state, as on whether a device in memory was given a queue; what
matters is that nothing a system does to the driver leads out of these states. Then the open
sessions of a system are free at any time, and since the mailbox of a session is closed only together
with it, what the driver reports reaches them.

Main statements:

* `Device.Prompt` — a kind of driver states without congestion, which nothing leads out of.
* `Prompt.runSteps` — open sessions on a prompt driver are free and can be reached.
* `Ram.prompt` — a device in memory without a queue is prompt.
-/

namespace BlockMux

/-- In states with `P` the driver refuses nothing for want of room, and it stays in them. -/
structure Device.Prompt {δ : Type} [Device δ] (P : δ → Prop) : Prop where
  uncongested : ∀ {d}, P d → ∀ arena t request,
    (Driver.submit d arena t request).outcome ≠ .congested
  submit : ∀ {d}, P d → ∀ arena t request, P (Driver.submit d arena t request).driver
  sync : ∀ {d}, P d → P (Driver.sync d)
  allocate : ∀ {d arena size d' arena' buffer}, P d →
    Driver.allocate d arena size = some (d', arena', buffer) → P d'
  release : ∀ {d}, P d → ∀ buffer, P (Driver.release d buffer)
  advance : ∀ {d}, P d → ∀ arena step, P (Device.advance d arena step).driver

variable {δ : Type} [Device δ] {P : δ → Prop}

/-! ## The driver -/

theorem Backend.driver_allocate {b b' : Backend δ} {size : Nat} {buffer : SharedBuffer}
    (h : b.allocate size = some (b', buffer)) :
    Driver.allocate b.driver b.arena size = some (b'.driver, b'.arena, buffer) := by
  obtain ⟨⟨d, arena, buffer'⟩, hfound, heq⟩ := Option.map_eq_some_iff.1 h
  simp only [Prod.mk.injEq] at heq
  obtain ⟨rfl, rfl⟩ := heq
  exact hfound

namespace Device.Prompt

theorem driver_foreign (h : Prompt P) {id : Nat} {b b' : Backend δ} (hb : P b.driver)
    (hforeign : Backend.Foreign id b b') : P b'.driver := by
  cases hforeign with
  | submit t =>
    rw [Backend.driver_submit]
    exact h.submit hb _ _ _
  | advance step =>
    rw [Backend.driver_advance]
    exact h.advance hb _ _
  | sync => exact h.sync hb
  | allocate hnew => exact h.allocate hb (Backend.driver_allocate hnew)
  | release buffer => exact h.release hb _
  | addMailbox => exact hb
  | mailbox => exact hb
  | arena => exact hb

theorem driver_foreigns (h : Prompt P) {id : Nat} {b b' : Backend δ} (hb : P b.driver)
    (hforeigns : Backend.Foreigns id b b') : P b'.driver := by
  induction hforeigns with
  | refl => exact hb
  | tail _ last ih => exact h.driver_foreign ih last

/-- Nothing that a system does to its driver leads out of the states. -/
theorem driver_runSteps (h : Prompt P) {driver : δ} (hdriver : P driver) (config : Config)
    (table : Option PartitionTable) (steps : List Step) :
    P ((System.create (.create driver config table)).runSteps steps).mux.backend.driver :=
  -- seen from a mailbox that nobody has, all of the run is foreign
  h.driver_foreigns (b := { driver := driver }) hdriver
    (System.foreign_of_fresh steps (Nat.le_refl _))

end Device.Prompt

/-! ## Sessions at work -/

namespace Session

variable {s s' : Session} {b b' : Backend δ}

omit [Device δ] in
theorem free_answered {packet : Packet} {outcome : Outcome} (hfree : s.driverCongested = false)
    (h : outcome ≠ .congested) : (s.answered packet outcome).driverCongested = false := by
  cases outcome with
  | dispatched => exact hfree
  | congested => exact absurd rfl h
  | ioError => exact (acknowledge_acksOnly s packet false).congested.trans hfree

/-- A session that the driver never refuses stays free. -/
theorem Act.free (h : s.Act b s' b')
    (hnever : ∀ t request, (b.submit t request).2 ≠ .congested)
    (hfree : s.driverCongested = false) : s'.driverCongested = false := by
  cases h with
  | collect => exact (collect_acksOnly s b).congested.trans hfree
  | gauge => exact hfree
  | reject => exact (acknowledge_acksOnly _ _ _).congested.trans hfree
  | @take _ rest => exact free_answered (s := s.picked rest) hfree (hnever _ _)
  | retry => exact free_answered (s := s.unheld) rfl (hnever _ _)
  | clear _ event => cases event <;> exact hfree
  | sync => exact hfree

/-- Sessions at work close no mailbox. -/
theorem Act.isOpen (h : s.Act b s' b') {id : Nat} (hid : id < b.mailboxes.length)
    (hopen : (b.mailbox id).isOpen = true) : (b'.mailbox id).isOpen = true := by
  -- a mailbox that is emptied, or whose event is read, is as open as before
  have hkeeps : ∀ f : Mailbox → Mailbox, (∀ box, (f box).isOpen = box.isOpen) →
      ((b.modifyMailbox s.mailbox f).mailbox id).isOpen = true := by
    intro f hf
    by_cases hown : s.mailbox = id
    · subst hown
      rw [Backend.mailbox_modifyMailbox hid, hf]
      exact hopen
    · rw [Backend.mailbox_modifyMailbox_ne hown]
      exact hopen
  cases h with
  | collect => exact hkeeps _ fun _ => rfl
  | gauge => exact hopen
  | reject => exact hopen
  | take => exact (Backend.completions_submit hid hopen _ _).1
  | retry => exact (Backend.completions_submit hid hopen _ _).1
  | clear _ event =>
    cases event with
    | completion => exact hkeeps _ fun _ => rfl
    | _ => exact hopen
  | sync => exact hopen

end Session

/-! ## Systems -/

namespace System

/-- The open sessions hold no packet, and their mailboxes are open. -/
structure Free (sys : System δ) : Prop where
  free : ∀ {seat s}, sys.session? seat = some s → s.driverCongested = false
  isOpen : ∀ {seat s}, sys.session? seat = some s →
    (sys.mux.backend.mailbox s.mailbox).isOpen = true

variable {sys sys' : System δ} {step : Step} {answer : Answer}

theorem Free.opened (hfree : sys.Free) (ho : sys.Orderly) {args : Arguments}
    (a : Multiplexer.Admission sys.mux args) :
    Free ⟨a.after, sys.seats ++ [.active a.session]⟩ := by
  refine ⟨?_, ?_⟩
  · intro seat s hs
    rcases session?_append hs with ⟨-, rfl⟩ | hold
    · rfl
    · exact hfree.free hold
  · intro seat s hs
    show (a.backend.addMailbox.1.mailbox s.mailbox).isOpen = true
    rcases session?_append hs with ⟨-, rfl⟩ | hold
    · rw [show a.session.mailbox = a.backend.mailboxes.length from rfl,
        Backend.mailbox_addMailbox_new]
    · have hid : s.mailbox < a.backend.mailboxes.length := by
        rw [a.mailboxes_eq]
        exact ho.mailbox_lt hold
      rw [Backend.mailbox_addMailbox hid, Backend.mailbox, a.mailboxes_eq]
      exact hfree.isOpen hold

theorem Free.acted (hfree : sys.Free) (ho : sys.Orderly) (hprompt : Device.Prompt P)
    (hdriver : P sys.mux.backend.driver) {seat : Nat} {s s' : Session} {b : Backend δ}
    (hs : sys.session? seat = some s) (acts : s.Acts sys.mux.backend s' b) :
    Free (sys.withSession seat s' b) := by
  -- the acts keep what makes the next one keep the session free
  have hstays : P b.driver ∧ s'.driverCongested = false := by
    refine acts.invariant (P := fun t c => P c.driver ∧ t.driverCongested = false) ?_
      ⟨hdriver, hfree.free hs⟩
    rintro t c t' c' act ⟨hc, ht⟩
    refine ⟨?_, act.free (fun _ _ => hprompt.uncongested hc _ _ _) ht⟩
    refine act.acts.backend (P := fun c => P c.driver) (fun _ _ h => h) hprompt.sync ?_ hc
    intro c t packet _ hc
    rw [Backend.driver_submit]
    exact hprompt.submit hc _ _ _
  have hopen : ∀ {id}, id < sys.mux.backend.mailboxes.length →
      (sys.mux.backend.mailbox id).isOpen = true → (b.mailbox id).isOpen = true := by
    intro id hid hid'
    have hboth : id < b.mailboxes.length ∧ (b.mailbox id).isOpen = true := by
      refine acts.invariant
        (P := fun _ c => id < c.mailboxes.length ∧ (c.mailbox id).isOpen = true) ?_ ⟨hid, hid'⟩
      rintro t c t' c' act ⟨hlt, hc⟩
      exact ⟨Session.length_act act ▸ hlt, act.isOpen hlt hc⟩
    exact hboth.2
  have hmailbox : s'.mailbox = s.mailbox := congrArg Session.Terms.mailbox acts.terms_eq
  refine ⟨?_, ?_⟩
  · intro i t ht
    rcases session?_set (seat_of_session? hs) ht with ⟨-, hnew⟩ | ⟨-, hold⟩
    · obtain rfl := Option.some.inj hnew
      exact hstays.2
    · exact hfree.free hold
  · intro i t ht
    show (b.mailbox t.mailbox).isOpen = true
    rcases session?_set (seat_of_session? hs) ht with ⟨-, hnew⟩ | ⟨-, hold⟩
    · obtain rfl := Option.some.inj hnew
      rw [hmailbox]
      exact hopen (ho.mailbox_lt hs) (hfree.isOpen hs)
    · exact hopen (ho.mailbox_lt hold) (hfree.isOpen hold)

theorem Free.transition (hfree : sys.Free) (ho : sys.Orderly) (hprompt : Device.Prompt P)
    (hdriver : P sys.mux.backend.driver) (h : sys.Transition step sys' answer) : sys'.Free := by
  cases h with
  | unchanged => exact hfree
  | refused left =>
    cases left with
    | early roster => exact ⟨hfree.free, hfree.isOpen⟩
    | @late _ backend buffer roster backend_eq =>
      refine ⟨hfree.free, fun {seat s} hs => ?_⟩
      show (backend.mailbox s.mailbox).isOpen = true
      rw [Backend.mailbox, Backend.mailboxes_allocate backend_eq]
      exact hfree.isOpen hs
  | opened parsed a => exact hfree.opened ho a
  | @closed seat s hs =>
    -- the mailbox that is closed is not that of a session that stays
    have hothers : ∀ {j t}, (sys.afterClose seat s).session? j = some t →
        sys.session? j = some t ∧ s.mailbox ≠ t.mailbox := by
      intro j t ht
      rcases session?_set (seat_of_session? hs) ht with ⟨-, hnone⟩ | ⟨hne, hold⟩
      · simp [Seat.session?] at hnone
      · exact ⟨hold, fun heq => hne (ho.mailbox_inj hs hold heq)⟩
    refine ⟨fun ht => hfree.free (hothers ht).1, fun {j t} ht => ?_⟩
    obtain ⟨hold, hne⟩ := hothers ht
    have hkept : ((sys.afterClose seat s).mux.backend.mailbox t.mailbox) =
        sys.mux.backend.mailbox t.mailbox :=
      Backend.mailbox_modifyMailbox_ne (b := sys.mux.backend.release s.channel.buffer) hne _
    rw [hkept]
    exact hfree.isOpen hold
  | @client seat step client hc =>
    have hothers : ∀ {j t}, (sys.afterClient seat client step).session? j = some t →
        ∃ u, sys.session? j = some u ∧ t.driverCongested = u.driverCongested ∧
          t.mailbox = u.mailbox := by
      intro j t ht
      rcases session?_set hc ht with ⟨rfl, hnew⟩ | ⟨-, hold⟩
      · cases client with
        | active u =>
          obtain rfl := Option.some.inj hnew
          exact ⟨u, by rw [session?, hc]; rfl, rfl, rfl⟩
        | retired channel => simp [Seat.withChannel, Seat.session?] at hnew
      · exact ⟨t, hold, rfl, rfl⟩
    refine ⟨fun ht => ?_, fun ht => ?_⟩
    · obtain ⟨u, hu, hsame, -⟩ := hothers ht
      exact hsame.trans (hfree.free hu)
    · obtain ⟨u, hu, -, hsame⟩ := hothers ht
      rw [hsame]
      exact hfree.isOpen hu
  | acted hseat hs acts => exact hfree.acted ho hprompt hdriver hs acts
  | device step =>
    exact ⟨hfree.free, fun ht =>
      (Backend.completions_advance (ho.mailbox_lt ht) (hfree.isOpen ht) step).1⟩

/-- On a prompt driver the open sessions hold no packet and can be reached, whatever happens. -/
theorem Free.runSteps (hprompt : Device.Prompt P) {driver : δ} (hdriver : P driver)
    (config : Config) (table : Option PartitionTable) (steps : List Step) :
    ((create (.create driver config table)).runSteps steps).Free := by
  induction steps using List.reverseRecOn with
  | nil =>
    exact ⟨fun hs => by simp [create, System.runSteps, session?] at hs,
      fun hs => by simp [create, System.runSteps, session?] at hs⟩
  | append_singleton steps step ih =>
    have ho := (Orderly.create (.create driver config table)).runSteps steps
    have hbefore := hprompt.driver_runSteps hdriver config table steps
    rw [runSteps_concat]
    exact ih.transition ho hprompt hbefore (step_transition ho step)

end System

/-! ## Devices in memory -/

/-- Without a queue a device in memory has no room to want. -/
theorem Ram.prompt : Device.Prompt fun ram : Ram => ram.queueDepth = none where
  uncongested := by
    intro ram hdepth arena t request hcongested
    have hanswer := ram.answers arena t request
    rw [show Driver.submit ram arena t request = ram.submit arena t request from rfl] at hcongested
    generalize ram.submit arena t request = reply at hanswer hcongested
    cases hanswer with
    | congested _ _ deep => simp [hdepth] at deep
    | _ => simp at hcongested
  submit := by
    intro ram hdepth arena t request
    exact (congrArg Shape.queueDepth (ram.answers arena t request).steady.shape).trans hdepth
  sync := fun hdepth => hdepth
  allocate := by
    intro ram arena size ram' arena' buffer hdepth hnew
    obtain ⟨-, -, rfl, -⟩ := allocate_eq_some hnew
    exact hdepth
  release := fun hdepth _ => hdepth
  advance := by
    intro ram hdepth arena step
    exact (congrArg Shape.queueDepth (ram.advances arena step).steady.shape).trans hdepth

end BlockMux
