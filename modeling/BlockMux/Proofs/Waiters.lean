import BlockMux.Proofs.Housing

/-!
# Waiting for room

A device in memory refuses a transfer when its queue is full, and remembers whose it was. It wakes
everyone it remembers after its next completion. So while anyone is remembered the queue is full,
and the completion that wakes them is still to come.

A session that is not at work can rely on two things: nothing arrives in its mailbox without a
signal, and it stays remembered until it is signalled. `Watches` says so of everything that can
happen meanwhile.

Main statements:

* `queues_transition`, `queues_runSteps` — the queue is full as long as anyone waits.
* `Foreigns.watches` — what happens elsewhere leaves no session unsignalled.
* `waiters_transition`, `waiters_runSteps` — only a completion forgets those who wait.
-/

namespace BlockMux

/-! ## The device -/

namespace Ram

/-- A device with a queue of `depth` transfers, which is full as long as anyone waits for room. -/
structure Waits (depth : Nat) (ram : Ram) : Prop where
  depth_eq : ram.queueDepth = some depth
  length_le : ram.queue.length ≤ depth
  full : ram.waiters ≠ [] → ram.queue.length = depth

variable {ram ram' : Ram} {arena arena' : Arena} {notices : List Notice} {depth id : Nat}

section Answers

variable {t : Transfer} {request : Request} {reply : Reply Ram}

theorem Answer.waits (h : ram.Answer arena t request reply) (hwaits : ram.Waits depth) :
    reply.driver.Waits depth := by
  have hdepth := hwaits.depth_eq
  cases h with
  | refused => exact hwaits
  | congested _ _ deep full =>
    -- whoever is refused finds the queue full
    obtain rfl := Option.some.inj (deep.symm.trans hdepth)
    exact ⟨hdepth, hwaits.length_le, fun _ => Nat.le_antisymm hwaits.length_le full⟩
  | queued _ _ deep room =>
    obtain rfl := Option.some.inj (deep.symm.trans hdepth)
    refine ⟨hdepth, ?_, ?_⟩
    · simp only [List.length_append, List.length_singleton]
      omega
    · -- a queue with room has nobody waiting, so nobody waits now
      intro hwaiters
      have := hwaits.full hwaiters
      omega
  | atOnce _ _ shallow => simp [hdepth] at shallow

/-- What is refused for want of room is remembered, and no one is told. -/
theorem Answer.of_congested (h : ram.Answer arena t request reply)
    (hrefused : reply.outcome = .congested) :
    request.mailbox ∈ reply.driver.waiters ∧ reply.notices = [] := by
  cases h with
  | congested => exact ⟨List.mem_append_right _ (List.mem_singleton_self _), rfl⟩
  | _ => simp at hrefused

/-- An answer makes the device forget nobody. -/
theorem Answer.remembers (h : ram.Answer arena t request reply) (hid : id ∈ ram.waiters) :
    id ∈ reply.driver.waiters := by
  cases h with
  | congested => exact List.mem_append_left _ hid
  | _ => exact hid

/-- Only who asks may start to wait. -/
theorem Answer.waiters (h : ram.Answer arena t request reply) (hid : id ∈ reply.driver.waiters) :
    id ∈ ram.waiters ∨ id = request.mailbox := by
  cases h with
  | congested =>
    rcases List.mem_append.1 hid with hold | hnew
    · exact .inl hold
    · exact .inr (List.mem_singleton.1 hnew)
  | _ => exact .inl hid

end Answers

theorem Completion.waits (h : ram.Completion arena ram' arena' notices)
    (hwaits : ram.Waits depth) : ram'.Waits depth := by
  obtain ⟨oldest, -⟩ := h
  have hlength := hwaits.length_le
  rw [oldest, List.length_cons] at hlength
  exact ⟨hwaits.depth_eq, Nat.le_of_succ_le hlength, fun hne => absurd rfl hne⟩

/-- Already the first completion wakes everyone. -/
theorem Completion.wakes (h : ram.Completion arena ram' arena' notices) (hid : id ∈ ram.waiters) :
    .ready id ∈ notices := by
  cases h
  exact List.mem_cons_of_mem _ (List.mem_map_of_mem hid)

theorem Completions.waits (h : Completions ram arena ram' arena' notices)
    (hwaits : ram.Waits depth) : ram'.Waits depth := by
  induction h with
  | none => exact hwaits
  | next first _ ih => exact ih ((completion first).waits hwaits)

/-- Whoever waits still waits after the completions, or is woken by one of them. -/
theorem Completions.wakes (h : Completions ram arena ram' arena' notices)
    (hid : id ∈ ram.waiters) : id ∈ ram'.waiters ∨ .ready id ∈ notices := by
  cases h with
  | none => exact .inl hid
  | next first => exact .inr (List.mem_append_left _ ((completion first).wakes hid))

/-- Nobody starts to wait while the device works. -/
theorem Completions.waiters (h : Completions ram arena ram' arena' notices)
    (hid : id ∈ ram'.waiters) : id ∈ ram.waiters := by
  induction h with
  | none => exact hid
  | next first _ ih =>
    -- after the first completion nobody is left who waits
    have hnone := ih hid
    cases completion first
    simp at hnone

section Steps

variable {step : DeviceStep} {progress : Progress Ram}

theorem Advance.waits (h : ram.Advance arena step progress) (hwaits : ram.Waits depth) :
    progress.driver.Waits depth := by
  cases h with
  | poked => exact ⟨hwaits.depth_eq, hwaits.length_le, hwaits.full⟩
  | completed _ all => exact all.waits hwaits

/-- A step of the device forgets only whom it wakes. -/
theorem Advance.wakes (h : ram.Advance arena step progress) (hid : id ∈ ram.waiters) :
    id ∈ progress.driver.waiters ∨ .ready id ∈ progress.notices := by
  cases h with
  | poked => exact .inl hid
  | completed _ all => exact all.wakes hid

theorem Advance.waiters (h : ram.Advance arena step progress)
    (hid : id ∈ progress.driver.waiters) : id ∈ ram.waiters := by
  cases h with
  | poked => exact hid
  | completed _ all => exact all.waiters hid

/-- Only a completion wakes those who wait. -/
theorem waiters_of_advance (hid : id ∈ ram.waiters) (arena : Arena)
    (hnext : step ≠ .completeNext) (hall : step ≠ .completeAll) :
    id ∈ (ram.advance arena step).driver.waiters := by
  cases step with
  | completeNext => exact absurd rfl hnext
  | completeAll => exact absurd rfl hall
  | _ => exact hid

end Steps

end Ram

/-! ## Mailboxes -/

/-- The second mailbox is a later state of the first, in which nothing has arrived without a
signal. -/
structure Mailbox.Alert (mailbox mailbox' : Mailbox) : Prop where
  signals : mailbox.signals ≤ mailbox'.signals
  arrived : mailbox'.completions ≠ [] → mailbox.completions ≠ [] ∨ 0 < mailbox'.signals

namespace Mailbox.Alert

theorem refl (mailbox : Mailbox) : Alert mailbox mailbox := ⟨Nat.le_refl _, .inl⟩

theorem trans {m₁ m₂ m₃ : Mailbox} (h : Alert m₁ m₂) (h' : Alert m₂ m₃) : Alert m₁ m₃ := by
  refine ⟨Nat.le_trans h.signals h'.signals, ?_⟩
  intro hsome
  rcases h'.arrived hsome with hearlier | hsignalled
  · rcases h.arrived hearlier with hfirst | hsignalled
    · exact .inl hfirst
    · exact .inr (Nat.lt_of_lt_of_le hsignalled h'.signals)
  · exact .inr hsignalled

theorem put (mailbox : Mailbox) (completion : Completion) :
    Alert mailbox (mailbox.put completion) := by
  unfold Mailbox.put
  split
  · exact ⟨Nat.le_succ _, fun _ => .inr (Nat.succ_pos _)⟩
  · exact refl mailbox

theorem wake (mailbox : Mailbox) : Alert mailbox mailbox.wake := ⟨Nat.le_succ _, .inl⟩

theorem empty (mailbox : Mailbox) : Alert mailbox mailbox.empty :=
  ⟨Nat.le_refl _, fun h => absurd rfl h⟩

end Mailbox.Alert

namespace Backend

section Post

variable {δ : Type} {b : Backend δ} {id : Nat}

theorem alert_deliver (hid : id < b.mailboxes.length) (notice : Notice) :
    (b.mailbox id).Alert ((b.deliver notice).mailbox id) := by
  -- a notice for someone else leaves the mailbox as it is
  cases notice with
  | completed request success =>
    by_cases hfor : request.mailbox = id
    · subst hfor
      rw [deliver, mailbox_modifyMailbox hid]
      exact .put _ _
    · rw [deliver, mailbox_modifyMailbox_ne hfor]
      exact .refl _
  | ready other =>
    by_cases hfor : other = id
    · subst hfor
      rw [deliver, mailbox_modifyMailbox hid]
      exact .wake _
    · rw [deliver, mailbox_modifyMailbox_ne hfor]
      exact .refl _

theorem alert_post (hid : id < b.mailboxes.length) (notices : List Notice) :
    (b.mailbox id).Alert ((b.post notices).mailbox id) := by
  induction notices generalizing b with
  | nil => exact .refl _
  | cons notice notices ih =>
    rw [post_cons]
    exact (alert_deliver hid notice).trans (ih (by rwa [length_deliver]))

/-- Whoever is told that there is room is signalled, once for each time. -/
theorem signals_post (hid : id < b.mailboxes.length) (notices : List Notice) :
    (b.mailbox id).signals + notices.count (.ready id) ≤ ((b.post notices).mailbox id).signals := by
  induction notices generalizing b with
  | nil => exact Nat.le_refl _
  | cons notice notices ih =>
    have hid' : id < (b.deliver notice).mailboxes.length := by rwa [length_deliver]
    have hrest := ih hid'
    rw [post_cons, List.count_cons]
    split
    · rename_i hready
      rw [beq_iff_eq.1 hready] at hrest ⊢
      have hnow : ((b.deliver (.ready id)).mailbox id).signals = (b.mailbox id).signals + 1 := by
        rw [deliver, mailbox_modifyMailbox hid]
        rfl
      omega
    · -- any other notice takes no signal away
      have hnow := (alert_deliver hid notice).signals
      omega

theorem signalled_post (hid : id < b.mailboxes.length) {notices : List Notice}
    (h : .ready id ∈ notices) : 0 < ((b.post notices).mailbox id).signals := by
  have hcount := List.count_pos_iff.2 h
  have hsignals := signals_post hid notices
  omega

end Post

/-! ## The backend -/

/-- The session with this mailbox is signalled, or will be when there is room. -/
def Alarmed (b : Backend (Recorded Ram)) (id : Nat) : Prop :=
  0 < (b.mailbox id).signals ∨ id ∈ b.driver.driver.waiters

/-- From one backend to the other, nothing arrives in the mailbox without a signal, and its session
is remembered until it is signalled. -/
structure Watches (id : Nat) (b b' : Backend (Recorded Ram)) : Prop where
  alert : (b.mailbox id).Alert (b'.mailbox id)
  waiting : id ∈ b.driver.driver.waiters → b'.Alarmed id

variable {id depth : Nat} {b b' b'' : Backend (Recorded Ram)}

theorem Watches.alarmed (h : Watches id b b') (halarmed : b.Alarmed id) : b'.Alarmed id := by
  rcases halarmed with hsignalled | hwaits
  · exact .inl (Nat.lt_of_lt_of_le hsignalled h.alert.signals)
  · exact h.waiting hwaits

theorem Watches.refl (id : Nat) (b : Backend (Recorded Ram)) : Watches id b b :=
  ⟨.refl _, .inr⟩

theorem Watches.trans (h : Watches id b b') (h' : Watches id b' b'') : Watches id b b'' :=
  ⟨h.alert.trans h'.alert, fun hwaits => h'.alarmed (h.waiting hwaits)⟩

/-- A change that neither the device nor the mailbox notices. -/
theorem Watches.still (hwaiters : b'.driver.driver.waiters = b.driver.driver.waiters)
    (hmailbox : b'.mailbox id = b.mailbox id) : Watches id b b' := by
  refine ⟨?_, ?_⟩
  · rw [hmailbox]
    exact .refl _
  · intro hwaits
    right
    rwa [hwaiters]

theorem waiters_of_submit (h : id ∈ b.driver.driver.waiters) (t : Transfer) (request : Request) :
    id ∈ (b.submit t request).1.driver.driver.waiters := by
  rw [driver_submit]
  exact (Ram.answers ..).remembers h

theorem watches_submit (hid : id < b.mailboxes.length) (t : Transfer) (request : Request) :
    Watches id b (b.submit t request).1 := by
  refine ⟨?_, fun hwaits => .inr (waiters_of_submit hwaits t request)⟩
  let reply := Driver.submit b.driver b.arena t request
  exact alert_post (b := ⟨reply.driver, reply.arena, b.mailboxes⟩) hid reply.notices

/-- A session that is refused for want of room is remembered, and its mailbox is as it was. -/
theorem submit_of_congested {t : Transfer} {request : Request} (id : Nat)
    (h : (b.submit t request).2 = .congested) :
    request.mailbox ∈ (b.submit t request).1.driver.driver.waiters ∧
      (b.submit t request).1.mailbox id = b.mailbox id := by
  have hrefused : (b.driver.driver.submit b.arena t request).outcome = .congested := h
  obtain ⟨hwaits, hnotices⟩ := (Ram.answers ..).of_congested hrefused
  refine ⟨?_, ?_⟩
  · rw [driver_submit]
    exact hwaits
  · have hnone : (Driver.submit b.driver b.arena t request).notices = [] := hnotices
    rw [submit, hnone]
    rfl

theorem watches_advance (hid : id < b.mailboxes.length) (step : DeviceStep) :
    Watches id b (b.advance step).1 := by
  let progress := Device.advance b.driver b.arena step
  refine ⟨alert_post (b := ⟨progress.driver, progress.arena, b.mailboxes⟩) hid progress.notices, ?_⟩
  intro hwaits
  rcases (Ram.advances _ b.arena step).wakes hwaits with hstill | hready
  · right
    rw [driver_advance]
    exact hstill
  · left
    exact signalled_post (b := ⟨progress.driver, progress.arena, b.mailboxes⟩) hid hready

/-- Handing out a buffer touches neither the queue nor those who wait. -/
theorem allocate_waits {size : Nat} {buffer : SharedBuffer}
    (h : b.allocate size = some (b', buffer)) :
    b'.driver.driver.waiters = b.driver.driver.waiters ∧
      b'.driver.driver.queue = b.driver.driver.queue ∧
      b'.driver.driver.queueDepth = b.driver.driver.queueDepth := by
  obtain ⟨hallocate, -, -⟩ := allocate_ram h
  obtain ⟨-, -, hram, -⟩ := Ram.allocate_eq_some hallocate
  rw [hram]
  exact ⟨rfl, rfl, rfl⟩

theorem Foreign.length_le (h : Foreign id b b') : b.mailboxes.length ≤ b'.mailboxes.length := by
  cases h with
  | submit t other => exact Nat.le_of_eq (length_submit b t _).symm
  | advance step => exact Nat.le_of_eq (length_advance b step).symm
  | sync => exact Nat.le_refl _
  | allocate h => exact Nat.le_of_eq (congrArg List.length (mailboxes_allocate h)).symm
  | release buffer => exact Nat.le_refl _
  | addMailbox => rw [length_addMailbox]; exact Nat.le_succ _
  | mailbox hne f => exact Nat.le_of_eq (length_modifyMailbox _ _ _).symm
  | arena arena => exact Nat.le_refl _

/-- What happens elsewhere leaves no session unsignalled. -/
theorem Foreign.watches (hid : id < b.mailboxes.length) (h : Foreign id b b') :
    Watches id b b' := by
  cases h with
  | submit t other => exact watches_submit hid t _
  | advance step => exact watches_advance hid step
  | sync => exact .still rfl rfl
  | allocate h =>
    have hsame : b'.mailbox id = b.mailbox id := by
      rw [Backend.mailbox, mailboxes_allocate h]
      rfl
    exact .still (allocate_waits h).1 hsame
  | release buffer => exact .still rfl rfl
  | addMailbox => exact .still rfl (mailbox_addMailbox hid)
  | mailbox hne f => exact .still rfl (mailbox_modifyMailbox_ne hne f)
  | arena arena => exact .still rfl rfl

theorem Foreigns.watches (hid : id < b.mailboxes.length) (h : Foreigns id b b') :
    Watches id b b' := by
  have hboth : id < b'.mailboxes.length ∧ Watches id b b' := by
    induction h with
    | refl => exact ⟨hid, .refl id b⟩
    | tail _ last ih =>
      obtain ⟨hlt, hsofar⟩ := ih
      exact ⟨Nat.lt_of_lt_of_le hlt last.length_le, hsofar.trans (last.watches hlt)⟩
  exact hboth.2

/-- The queue of the device is full as long as anyone waits, and all who wait have mailboxes. -/
structure Queues (depth : Nat) (b : Backend (Recorded Ram)) : Prop where
  waits : b.driver.driver.Waits depth
  known : ∀ id ∈ b.driver.driver.waiters, id < b.mailboxes.length

theorem Queues.submit (h : b.Queues depth) (t : Transfer) {request : Request}
    (hid : request.mailbox < b.mailboxes.length) : (b.submit t request).1.Queues depth := by
  refine ⟨?_, ?_⟩
  · rw [driver_submit]
    exact (Ram.answers ..).waits h.waits
  · intro id hmem
    rw [length_submit]
    rw [driver_submit] at hmem
    rcases (Ram.answers ..).waiters hmem with hold | rfl
    · exact h.known id hold
    · exact hid

theorem Queues.advance (h : b.Queues depth) (step : DeviceStep) :
    (b.advance step).1.Queues depth := by
  refine ⟨?_, ?_⟩
  · rw [driver_advance]
    exact (Ram.advances ..).waits h.waits
  · intro id hmem
    rw [length_advance]
    rw [driver_advance] at hmem
    exact h.known id ((Ram.advances ..).waiters hmem)

/-- A change that leaves the queue and those who wait alone, and takes no mailbox away. -/
theorem Queues.still (h : b.Queues depth)
    (hwaiters : b'.driver.driver.waiters = b.driver.driver.waiters)
    (hqueue : b'.driver.driver.queue = b.driver.driver.queue)
    (hdepth : b'.driver.driver.queueDepth = b.driver.driver.queueDepth)
    (hlength : b.mailboxes.length ≤ b'.mailboxes.length) : b'.Queues depth := by
  refine ⟨⟨?_, ?_, ?_⟩, ?_⟩
  · rw [hdepth]
    exact h.waits.depth_eq
  · rw [hqueue]
    exact h.waits.length_le
  · rw [hwaiters, hqueue]
    exact h.waits.full
  · intro id hmem
    rw [hwaiters] at hmem
    exact Nat.lt_of_lt_of_le (h.known id hmem) hlength

theorem Queues.allocate (h : b.Queues depth) {size : Nat} {buffer : SharedBuffer}
    (hallocate : b.allocate size = some (b', buffer)) : b'.Queues depth := by
  obtain ⟨hwaiters, hqueue, hdepth⟩ := allocate_waits hallocate
  have hlength := congrArg List.length (mailboxes_allocate hallocate)
  exact h.still hwaiters hqueue hdepth (Nat.le_of_eq hlength.symm)

end Backend

/-! ## Sessions at work -/

namespace Session

variable {depth id : Nat} {s s' : Session} {b b' : Backend (Recorded Ram)}

theorem Acts.queues (acts : s.Acts b s' b') (hid : s.mailbox < b.mailboxes.length)
    (h : b.Queues depth) : b'.Queues depth := by
  have hpair := acts.backend (P := fun c : Backend (Recorded Ram) =>
    s.mailbox < c.mailboxes.length ∧ c.Queues depth) ?_ (fun hc => hc) ?_ ⟨hid, h⟩
  · exact hpair.2
  · rintro c other f ⟨hlt, hqueues⟩
    have hlength := Backend.length_modifyMailbox c other f
    exact ⟨hlength ▸ hlt, hqueues.still rfl rfl rfl (Nat.le_of_eq hlength.symm)⟩
  · rintro c t packet _ ⟨hlt, hqueues⟩
    exact ⟨c.length_submit t _ ▸ hlt, hqueues.submit t hlt⟩

/-- A session at work makes the device forget nobody. -/
theorem Acts.waiters (acts : s.Acts b s' b') (h : id ∈ b.driver.driver.waiters) :
    id ∈ b'.driver.driver.waiters :=
  acts.backend (P := fun c : Backend (Recorded Ram) => id ∈ c.driver.driver.waiters)
    (fun _ _ hc => hc) (fun hc => hc) (fun _ hc => Backend.waiters_of_submit hc _ _) h

end Session

/-! ## Systems -/

namespace System

open Backend

variable {depth id : Nat} {sys sys' : System (Recorded Ram)} {step : Step} {answer : Answer}

theorem queues_transition (ho : sys.Orderly) (h : sys.Transition step sys' answer)
    (hqueues : sys.mux.backend.Queues depth) : sys'.mux.backend.Queues depth := by
  cases h with
  | unchanged => exact hqueues
  | refused left =>
    cases left with
    | early roster => exact hqueues
    | late roster backend_eq =>
      exact (hqueues.allocate backend_eq).still rfl rfl rfl (Nat.le_refl _)
  | opened parsed a =>
    have hlength : a.backend.mailboxes.length ≤ a.after.backend.mailboxes.length := by
      rw [Multiplexer.Admission.after, length_addMailbox]
      exact Nat.le_succ _
    exact (hqueues.allocate a.backend_eq).still rfl rfl rfl hlength
  | closed hs => exact hqueues.still rfl rfl rfl (Nat.le_of_eq (length_modifyMailbox _ _ _).symm)
  | client hc => exact hqueues.still rfl rfl rfl (Nat.le_refl _)
  | acted hseat hs acts => exact acts.queues (ho.mailbox_lt hs) hqueues
  | device step => exact hqueues.advance step

/-- Only a completion forgets those who wait. -/
theorem waiters_transition (h : sys.Transition step sys' answer)
    (hnext : step ≠ .device .completeNext) (hall : step ≠ .device .completeAll)
    (hwaits : id ∈ sys.mux.backend.driver.driver.waiters) :
    id ∈ sys'.mux.backend.driver.driver.waiters := by
  cases h with
  | unchanged => exact hwaits
  | refused left =>
    cases left with
    | early roster => exact hwaits
    | late roster backend_eq =>
      rw [← (allocate_waits backend_eq).1] at hwaits
      exact hwaits
  | opened parsed a =>
    rw [← (allocate_waits a.backend_eq).1] at hwaits
    exact hwaits
  | closed hs => exact hwaits
  | client hc => exact hwaits
  | acted hseat hs acts => exact acts.waiters hwaits
  | device step =>
    rw [driver_advance]
    exact Ram.waiters_of_advance hwaits _ (fun heq => hnext (congrArg Step.device heq))
      fun heq => hall (congrArg Step.device heq)

theorem queues_runSteps (ho : sys.Orderly) (hqueues : sys.mux.backend.Queues depth)
    (steps : List Step) : (sys.runSteps steps).mux.backend.Queues depth := by
  induction steps using List.reverseRecOn with
  | nil => exact hqueues
  | append_singleton steps step ih =>
    rw [runSteps_concat]
    exact queues_transition (ho.runSteps steps) (step_transition (ho.runSteps steps) step) ih

theorem waiters_runSteps (ho : sys.Orderly) {steps : List Step}
    (hnext : .device .completeNext ∉ steps) (hall : .device .completeAll ∉ steps)
    (hwaits : id ∈ sys.mux.backend.driver.driver.waiters) :
    id ∈ (sys.runSteps steps).mux.backend.driver.driver.waiters := by
  induction steps using List.reverseRecOn with
  | nil => exact hwaits
  | append_singleton steps step ih =>
    simp only [List.mem_append, List.mem_singleton, not_or] at hnext hall
    rw [runSteps_concat]
    exact waiters_transition (step_transition (ho.runSteps steps) step) (Ne.symm hnext.2)
      (Ne.symm hall.2) (ih hnext.1 hall.1)

/-- While anyone waits, the next completion succeeds, and signals everyone who waits. -/
theorem completeNext_wakes (hqueues : sys.mux.backend.Queues depth) (hdepth : 1 ≤ depth)
    (hwaits : id ∈ sys.mux.backend.driver.driver.waiters) :
    (sys.step (.device .completeNext)).2 = .device (.truth true) ∧
      0 < ((sys.step (.device .completeNext)).1.mux.backend.mailbox id).signals := by
  have hfull := hqueues.waits.full (List.ne_nil_of_mem hwaits)
  have hid := hqueues.known id hwaits
  obtain ⟨ram', arena', notices, hnext⟩ : ∃ ram' arena' notices,
      sys.mux.backend.driver.driver.completeNext sys.mux.backend.arena =
        some (ram', arena', notices) := by
    cases hnext : sys.mux.backend.driver.driver.completeNext sys.mux.backend.arena with
    | none =>
      -- a full queue holds at least one transfer
      rw [(Ram.completeNext_eq_none_iff _ _).1 hnext] at hfull
      simp only [List.length_nil] at hfull
      omega
    | some found => exact ⟨_, _, _, rfl⟩
  have hready := (Ram.completion hnext).wakes hwaits
  have hadvance : Device.advance sys.mux.backend.driver.driver sys.mux.backend.arena
      .completeNext = ⟨ram', arena', notices, .truth true⟩ := by
    show Ram.advance _ _ _ = _
    simp only [Ram.advance, hnext]
  have hrecorded : Device.advance sys.mux.backend.driver sys.mux.backend.arena .completeNext =
      ⟨⟨ram', sys.exchanges, sys.notices ++ notices⟩, arena', notices, .truth true⟩ := by
    show Recorded.advance _ _ _ = _
    rw [Recorded.advance, hadvance]
    rfl
  let moved : Backend (Recorded Ram) :=
    ⟨⟨ram', sys.exchanges, sys.notices ++ notices⟩, arena', sys.mux.backend.mailboxes⟩
  have hmoved : id < moved.mailboxes.length := hid
  have hsignalled := signalled_post hmoved hready
  rw [System.step, Backend.advance, hrecorded]
  exact ⟨rfl, hsignalled⟩

end System
end BlockMux
