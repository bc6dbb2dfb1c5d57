import BlockMux.Proofs.Ledger
import BlockMux.Proofs.Waiters
import Mathlib.Data.List.Count

/-!
# What a device in memory owes its callers

A device in memory is asked for transfers and told to carry out those that wait. Each request that
it is given is in one place: the call that brought it has handed it back, or it waits, or it is
finished. Requests are finished in the order in which they were taken, each reports to its own
mailbox once, and whoever was turned away for want of room is signalled when there is room.

All of this is said with the calls and what they returned, and with the log of the notices sent.

Main statements:

* `Upkeep.asked`, `Upkeep.stepped`, `upkeep` — what one call keeps, and so any number of them.
* `contract_kept` — what callers can rely on after any calls.
-/

namespace BlockMux

/-! ## Calls and what they return -/

/-- A call of a device. -/
inductive DeviceCall where
  | ask (transfer : Transfer) (request : Request)
  | step (step : DeviceStep)
  deriving DecidableEq, Repr

/-- A call with what it returned. -/
inductive Dealing where
  | asked (exchange : Exchange)
  | stepped (step : DeviceStep) (answer : DeviceAnswer)
  deriving DecidableEq, Repr

/-- Whether a step of a device has carried a transfer out. -/
def DeviceAnswer.worked : DeviceAnswer → Bool
  | .truth b => b
  | .number count => count != 0
  | _ => false

namespace Dealing

/-- The request that a call brings. -/
def brought? : Dealing → Option Request
  | asked e => some e.request
  | stepped _ _ => none

/-- The request that a call hands back. -/
def handedBack? : Dealing → Option Request
  | asked e => if e.outcome = .dispatched then none else some e.request
  | stepped _ _ => none

/-- The job that a call gives the device. -/
def taken? : Dealing → Option Job
  | asked e => if e.outcome = .dispatched then some ⟨e.transfer, e.request⟩ else none
  | stepped _ _ => none

/-- Who was turned away since the last completion, once for each time, if `ids` were so before the
call. -/
def turnedAway (ids : List Nat) : Dealing → List Nat
  | asked e => if e.outcome = .congested then ids ++ [e.request.mailbox] else ids
  | stepped _ answer => if answer.worked then [] else ids

end Dealing

/-- Calls of a device with what they returned, the first one first. -/
abbrev Talk := List Dealing

namespace Talk

/-- The requests brought, in order. -/
def brought (talk : Talk) : List Request := talk.filterMap Dealing.brought?

/-- The requests handed back, in order. -/
def handedBack (talk : Talk) : List Request := talk.filterMap Dealing.handedBack?

/-- The jobs taken, in order. -/
def taken (talk : Talk) : List Job := talk.filterMap Dealing.taken?

/-- Who was turned away since the last completion. -/
def turnedAway (talk : Talk) : List Nat := talk.foldl Dealing.turnedAway []

theorem taken_concat_of_none (talk : Talk) {d : Dealing} (h : d.taken? = none) :
    taken (talk ++ [d]) = talk.taken := by
  simp [taken, h]

theorem taken_concat_of_some (talk : Talk) {d : Dealing} {job : Job} (h : d.taken? = some job) :
    taken (talk ++ [d]) = talk.taken ++ [job] := by
  simp [taken, h]

theorem turnedAway_concat (talk : Talk) (d : Dealing) :
    turnedAway (talk ++ [d]) = d.turnedAway talk.turnedAway := by
  rw [turnedAway, List.foldl_append]
  rfl

/-- What is brought is handed back or taken. -/
theorem brought_perm (talk : Talk) :
    talk.brought.Perm (talk.handedBack ++ talk.taken.map (·.request)) := by
  induction talk with
  | nil => exact .refl _
  | cons d talk ih =>
    cases d with
    | stepped step answer => exact ih
    | asked e =>
      by_cases htaken : e.outcome = .dispatched
      · have hmiddle := (ih.cons e.request).trans List.perm_middle.symm
        simpa [brought, handedBack, taken, Dealing.brought?, Dealing.handedBack?, Dealing.taken?,
          htaken] using hmiddle
      · simpa [brought, handedBack, taken, Dealing.brought?, Dealing.handedBack?, Dealing.taken?,
          htaken] using ih

end Talk

namespace Backend

variable {δ : Type} [Device δ]

/-- Carries out a call. -/
def deal (b : Backend δ) : DeviceCall → Backend δ × Dealing
  | .ask t request =>
    let (b, outcome) := b.submit t request
    (b, .asked ⟨t, request, outcome⟩)
  | .step step =>
    let (b, answer) := b.advance step
    (b, .stepped step answer)

/-- Carries out calls in order. -/
def dealAll (b : Backend δ) (calls : List DeviceCall) : Backend δ :=
  calls.foldl (fun b call => (b.deal call).1) b

/-- Calls carried out in order, with what they return. -/
def talk (b : Backend δ) : List DeviceCall → Talk
  | [] => []
  | call :: calls => (b.deal call).2 :: talk (b.deal call).1 calls

theorem dealAll_concat (b : Backend δ) (calls : List DeviceCall) (call : DeviceCall) :
    b.dealAll (calls ++ [call]) = ((b.dealAll calls).deal call).1 := by
  rw [dealAll, List.foldl_append]
  rfl

theorem talk_concat (b : Backend δ) (calls : List DeviceCall) (call : DeviceCall) :
    b.talk (calls ++ [call]) = b.talk calls ++ [((b.dealAll calls).deal call).2] := by
  induction calls generalizing b with
  | nil => rfl
  | cons first calls ih =>
    rw [List.cons_append, talk, talk, ih]
    rfl

end Backend

/-! ## Working through the queue -/

namespace Ram

variable {ram ram' : Ram} {arena arena' : Arena} {notices : List Notice}

/-- The front of the queue is finished, and the rest waits on. -/
theorem Completions.served (h : Completions ram arena ram' arena' notices) :
    ∃ front, ram.queue = front ++ ram'.queue ∧ Notice.finished notices = front.map (·.request) := by
  induction h with
  | none => exact ⟨[], rfl, rfl⟩
  | @next start _ _ _ _ _ _ _ first _ ih =>
    obtain ⟨front, hqueue, hfinished⟩ := ih
    cases completion first with
    | @intro job rest _ _ _ oldest =>
      replace hqueue : rest = front ++ _ := hqueue
      refine ⟨job :: front, by rw [oldest, hqueue, List.cons_append], ?_⟩
      rw [Notice.finished_append, hfinished]
      -- whoever waits for room is only woken
      show job.request :: Notice.finished (start.waiters.map .ready) ++ _ = _
      rw [Notice.finished_ready]
      rfl

/-- Work on the queue changes neither what was taken nor how much can wait. -/
theorem Completions.frame (h : Completions ram arena ram' arena' notices) :
    ram'.accepted = ram.accepted ∧ ram'.queueDepth = ram.queueDepth := by
  induction h with
  | none => exact ⟨rfl, rfl⟩
  | next first _ ih =>
    cases completion first
    exact ih

theorem completeUpTo_drains (ram : Ram) (arena : Arena) {limit : Nat}
    (h : ram.queue.length ≤ limit) :
    (ram.completeUpTo arena limit).1.queue = [] ∧
      (ram.completeUpTo arena limit).2.2.2 = ram.queue.length := by
  -- on the number of transfers still to carry out
  induction limit generalizing ram arena with
  | zero => exact ⟨List.length_eq_zero_iff.1 (Nat.le_zero.1 h), (Nat.le_zero.1 h).symm⟩
  | succ limit ih =>
    rw [completeUpTo]
    split
    · rename_i hnone
      have hempty := (completeNext_eq_none_iff _ _).1 hnone
      exact ⟨hempty, by rw [hempty]; rfl⟩
    · rename_i next arena' _ hnext
      have hlength : ram.queue.length = next.queue.length + 1 := by
        obtain ⟨oldest, -⟩ := completion hnext
        rw [oldest]
        rfl
      rw [hlength] at h ⊢
      obtain ⟨hempty, hcount⟩ := ih next arena' (Nat.le_of_succ_le_succ h)
      exact ⟨hempty, congrArg (· + 1) hcount⟩

/-- Already the first completion leaves nobody waiting for room. -/
theorem Completions.forgets (h : Completions ram arena ram' arena' notices)
    (hwork : ram'.queue ≠ ram.queue) : ram'.waiters = [] := by
  cases h with
  | none => exact absurd rfl hwork
  | next first later =>
    refine List.eq_nil_iff_forall_not_mem.2 fun id hid => ?_
    have hwaits := later.waiters hid
    cases completion first
    simp at hwaits

/-- Whoever waits for room is woken as often as it was turned away. -/
theorem Completions.wakesAll (h : Completions ram arena ram' arena' notices)
    (hwork : ram'.queue ≠ ram.queue) (id : Nat) :
    ram.waiters.count id ≤ notices.count (.ready id) := by
  cases h with
  | none => exact absurd rfl hwork
  | next first later =>
    cases completion first
    have hready : Function.Injective Notice.ready := fun _ _ heq => Notice.ready.inj heq
    have hcount := List.count_map_of_injective ram.waiters Notice.ready hready id
    rw [List.count_append, List.count_cons]
    omega

/-- A step of the device that carries transfers out takes them off the queue; any other step leaves
those who wait for room alone. -/
theorem advance_worked (ram : Ram) (arena : Arena) (step : DeviceStep) :
    ((ram.advance arena step).answer.worked = true ∧
      Completions ram arena (ram.advance arena step).driver (ram.advance arena step).arena
        (ram.advance arena step).notices ∧
      (ram.advance arena step).driver.queue ≠ ram.queue) ∨
    ((ram.advance arena step).answer.worked = false ∧
      (ram.advance arena step).driver.waiters = ram.waiters) := by
  cases step with
  | completeNext =>
    simp only [advance]
    split
    · exact .inr ⟨rfl, rfl⟩
    · rename_i hnext
      refine .inl ⟨rfl, completions_single hnext, ?_⟩
      obtain ⟨oldest, -⟩ := completion hnext
      rw [oldest]
      exact (List.cons_ne_self _ _).symm
  | completeAll =>
    obtain ⟨hdrained, hcount⟩ := ram.completeUpTo_drains arena (Nat.le_refl ram.queue.length)
    have hall := ram.completions_upTo arena ram.queue.length
    simp only [advance, completeAll, hcount]
    cases hqueue : ram.queue with
    | nil => exact .inr ⟨rfl, rfl⟩
    | cons job rest =>
      rw [hqueue] at hdrained hall
      refine .inl ⟨rfl, hall, ?_⟩
      rw [hdrained]
      exact (List.cons_ne_nil job rest).symm
  | _ => exact .inr ⟨rfl, rfl⟩

/-- After a step of the device those wait for room who were turned away since the last
completion. -/
theorem waiters_advance (ram : Ram) (arena : Arena) (step : DeviceStep) :
    (ram.advance arena step).driver.waiters =
      (Dealing.stepped step (ram.advance arena step).answer).turnedAway ram.waiters := by
  show _ = if (ram.advance arena step).answer.worked then [] else ram.waiters
  rcases ram.advance_worked arena step with ⟨hworked, hall, hwork⟩ | ⟨hidle, hsame⟩
  · rw [hworked, hall.forgets hwork]
    rfl
  · rw [hidle, hsame]
    rfl

/-! ## What the calls keep -/

/-- A device in which `depth` transfers can wait, after some calls and having sent these notices. -/
structure Upkeep (depth : Option Nat) (talk : Talk) (sent : List Notice) (ram : Ram) : Prop where
  depth_eq : ram.queueDepth = depth
  /-- What was taken is served front to back; the rest waits. -/
  line : ∃ served, talk.taken = served ++ ram.queue ∧
    Notice.finished sent = served.map (·.request)
  listed : ram.accepted = talk.taken.map (·.transfer)
  room : ∀ d, depth = some d → ram.queue.length ≤ d
  /-- Without a queue nothing waits. -/
  prompt : depth = none → ram.queue = []
  waiters : ram.waiters = talk.turnedAway

variable {depth : Option Nat} {talk : Talk} {sent : List Notice}

/-- A call that gives the device no job and carries none out may change only the bytes and who
waits for room. -/
theorem Upkeep.idle (h : Upkeep depth talk sent ram) {d : Dealing} (hd : d.taken? = none)
    (contents : Memory) {waiters : List Nat} (hwaiters : waiters = d.turnedAway ram.waiters) :
    Upkeep depth (talk ++ [d]) (sent ++ [])
      { ram with contents := contents, waiters := waiters } := by
  have htaken := talk.taken_concat_of_none hd
  rw [List.append_nil]
  refine ⟨h.depth_eq, ?_, ?_, h.room, h.prompt, ?_⟩
  · rw [htaken]
    exact h.line
  · rw [htaken]
    exact h.listed
  · rw [Talk.turnedAway_concat, ← h.waiters]
    exact hwaiters

theorem Upkeep.asked {t : Transfer} {request : Request} {reply : Reply Ram}
    (h : Upkeep depth talk sent ram) (answer : ram.Answer arena t request reply) :
    Upkeep depth (talk ++ [.asked ⟨t, request, reply.outcome⟩]) (sent ++ reply.notices)
      reply.driver := by
  obtain ⟨served, htaken, hfinished⟩ := h.line
  cases answer with
  | refused => exact h.idle rfl ram.contents rfl
  | congested => exact h.idle rfl ram.contents rfl
  | queued _ _ deep room =>
    have htaken' := talk.taken_concat_of_some (d := .asked ⟨t, request, .dispatched⟩) rfl
    refine ⟨h.depth_eq, ⟨served, ?_, ?_⟩, ?_, ?_, ?_, ?_⟩
    · rw [htaken', htaken, List.append_assoc]
    · rw [List.append_nil, hfinished]
    · rw [htaken', List.map_append, h.listed]
      rfl
    · intro d hdepth
      obtain rfl := Option.some.inj (deep.symm.trans (h.depth_eq.trans hdepth))
      rw [List.length_append]
      exact room
    · intro hshallow
      exact absurd (deep.symm.trans (h.depth_eq.trans hshallow)) (by simp)
    · rw [Talk.turnedAway_concat]
      exact h.waiters
  | atOnce _ _ shallow =>
    have htaken' := talk.taken_concat_of_some (d := .asked ⟨t, request, .dispatched⟩) rfl
    -- nothing waits, so the new job is the last of all that were served
    have hqueue := h.prompt (h.depth_eq.symm.trans shallow)
    rw [hqueue, List.append_nil] at htaken
    refine ⟨h.depth_eq, ⟨served ++ [⟨t, request⟩], ?_, ?_⟩, ?_, h.room, h.prompt, ?_⟩
    · rw [htaken', htaken]
      show _ = served ++ [⟨t, request⟩] ++ ram.queue
      rw [hqueue, List.append_nil]
    · rw [Notice.finished_append, hfinished, List.map_append]
      rfl
    · rw [htaken', List.map_append, h.listed]
      rfl
    · rw [Talk.turnedAway_concat]
      exact h.waiters

theorem Upkeep.stepped (h : Upkeep depth talk sent ram) (arena : Arena) (step : DeviceStep) :
    Upkeep depth (talk ++ [.stepped step (ram.advance arena step).answer])
      (sent ++ (ram.advance arena step).notices) (ram.advance arena step).driver := by
  have haway := waiters_advance ram arena step
  have hadvance := ram.advances arena step
  generalize ram.advance arena step = progress at haway hadvance ⊢
  cases hadvance with
  | poked => exact h.idle rfl _ haway
  | completed answer all =>
    obtain ⟨served, htaken, hfinished⟩ := h.line
    obtain ⟨front, hqueue, hfront⟩ := all.served
    obtain ⟨haccepted, hdepth⟩ := all.frame
    have htaken' := talk.taken_concat_of_none (d := .stepped step answer) rfl
    refine ⟨hdepth.trans h.depth_eq, ⟨served ++ front, ?_, ?_⟩, ?_, ?_, ?_, ?_⟩
    · rw [htaken', htaken, hqueue, List.append_assoc]
    · rw [Notice.finished_append, hfinished, hfront, List.map_append]
    · rw [htaken', haccepted, h.listed]
    · intro d hdeep
      have hroom := h.room d hdeep
      rw [hqueue, List.length_append] at hroom
      exact Nat.le_of_add_left_le hroom
    · intro hshallow
      rw [h.prompt hshallow] at hqueue
      exact (List.append_eq_nil_iff.1 hqueue.symm).2
    · rw [Talk.turnedAway_concat, ← h.waiters]
      exact haway

end Ram

namespace Backend

variable {b : Backend (Recorded Ram)} {depth : Option Nat} {talk : Talk}

theorem upkeep_deal (h : Ram.Upkeep depth talk b.driver.notices b.driver.driver)
    (call : DeviceCall) :
    Ram.Upkeep depth (talk ++ [(b.deal call).2]) (b.deal call).1.driver.notices
      (b.deal call).1.driver.driver := by
  cases call with
  | ask t request =>
    simp only [deal, driver_submit]
    exact h.asked (Ram.answers ..)
  | step step =>
    simp only [deal, driver_advance]
    exact h.stepped b.arena step

/-- Any number of calls keep up what one call keeps up. -/
theorem upkeep (h : Ram.Upkeep depth [] b.driver.notices b.driver.driver)
    (calls : List DeviceCall) :
    Ram.Upkeep depth (b.talk calls) (b.dealAll calls).driver.notices
      (b.dealAll calls).driver.driver := by
  induction calls using List.reverseRecOn with
  | nil => exact h
  | append_singleton calls call ih =>
    rw [talk_concat, dealAll_concat]
    exact upkeep_deal ih call

/-- An open mailbox gets what is for it by a call, and stays open. -/
theorem delivered_deal {id : Nat} (hid : id < b.mailboxes.length)
    (hopen : (b.mailbox id).isOpen = true) (call : DeviceCall) :
    ∃ sent, (b.deal call).1.driver.notices = b.driver.notices ++ sent ∧
      ((b.deal call).1.mailbox id).isOpen = true ∧
      ((b.deal call).1.mailbox id).completions =
        (b.mailbox id).completions ++ Notice.completionsFor id sent := by
  cases call with
  | ask t request =>
    refine ⟨_, ?_, completions_submit hid hopen t request⟩
    simp only [deal, driver_submit]
    rfl
  | step step =>
    refine ⟨_, ?_, completions_advance hid hopen step⟩
    simp only [deal, driver_advance]
    rfl

theorem length_dealAll (b : Backend (Recorded Ram)) (calls : List DeviceCall) :
    (b.dealAll calls).mailboxes.length = b.mailboxes.length := by
  induction calls using List.reverseRecOn with
  | nil => rfl
  | append_singleton calls call ih =>
    rw [dealAll_concat, ← ih]
    cases call with
    | ask t request => exact length_submit _ t request
    | step step => exact length_advance _ step

theorem delivered_dealAll {id : Nat} (hid : id < b.mailboxes.length)
    (hopen : (b.mailbox id).isOpen = true) (calls : List DeviceCall) :
    ∃ sent, (b.dealAll calls).driver.notices = b.driver.notices ++ sent ∧
      ((b.dealAll calls).mailbox id).isOpen = true ∧
      ((b.dealAll calls).mailbox id).completions =
        (b.mailbox id).completions ++ Notice.completionsFor id sent := by
  induction calls using List.reverseRecOn with
  | nil => exact ⟨[], (List.append_nil _).symm, hopen, (List.append_nil _).symm⟩
  | append_singleton calls call ih =>
    obtain ⟨sent, hnotices, hopen', hcompletions⟩ := ih
    have hid' : id < (b.dealAll calls).mailboxes.length := by rwa [length_dealAll]
    obtain ⟨more, hnotices', hopen'', hcompletions'⟩ := delivered_deal hid' hopen' call
    rw [dealAll_concat]
    refine ⟨sent ++ more, ?_, hopen'', ?_⟩
    · rw [hnotices', hnotices, List.append_assoc]
    · rw [hcompletions', hcompletions, Notice.completionsFor_append, List.append_assoc]

end Backend

/-! ## The contract -/

namespace Ram

/-- What callers can rely on after the calls of `talk`, which led from the first backend to the
second: every request is handed back, waiting or finished, and finished only once. -/
structure Contract (start : Backend (Recorded Ram)) (talk : Talk) (b : Backend (Recorded Ram)) :
    Prop where
  /-- Each request brought is in one place. -/
  places : talk.brought.Perm
    (talk.handedBack ++ (b.driver.driver.heldRequests ++ Notice.finished b.driver.notices))
  /-- Requests are finished in the order in which they were taken. -/
  inOrder : ∃ served, talk.taken = served ++ b.driver.driver.queue ∧
    Notice.finished b.driver.notices = served.map (·.request)
  /-- A finished request is reported to its own mailbox, once. -/
  delivered : ∀ id < start.mailboxes.length, (start.mailbox id).isOpen = true →
    (b.mailbox id).completions =
      (start.mailbox id).completions ++ Notice.completionsFor id b.driver.notices
  room : ∀ depth, start.driver.driver.queueDepth = some depth →
    b.driver.driver.queue.length ≤ depth
  /-- Without a queue nothing waits. -/
  prompt : start.driver.driver.queueDepth = none → b.driver.driver.queue = []
  listed : b.driver.driver.accepted = talk.taken.map (·.transfer)
  counted : b.driver.driver.accepted.length =
    (Notice.finished b.driver.notices).length + b.driver.driver.queue.length
  completeNext : (b.advance .completeNext).2 = .truth (!b.driver.driver.queue.isEmpty)
  completeAll : (b.advance .completeAll).2 = .number b.driver.driver.queue.length ∧
    (b.advance .completeAll).1.driver.driver.queue = []
  /-- Whoever was turned away since the last completion is signalled by the next, once for each
  time. -/
  woken : ∀ id < start.mailboxes.length, ∀ step, (b.advance step).2.worked = true →
    (b.mailbox id).signals + talk.turnedAway.count id ≤ ((b.advance step).1.mailbox id).signals

variable {depth : Option Nat} {talk : Talk} {sent : List Notice}

theorem Upkeep.places (h : Upkeep depth talk sent ram) :
    talk.brought.Perm (talk.handedBack ++ (ram.heldRequests ++ Notice.finished sent)) := by
  obtain ⟨served, htaken, hfinished⟩ := h.line
  have hrequests : talk.taken.map (·.request) = Notice.finished sent ++ ram.heldRequests := by
    rw [htaken, List.map_append, hfinished, heldRequests]
  have hperm := talk.brought_perm
  rw [hrequests] at hperm
  exact hperm.trans (List.perm_append_comm.append_left _)

theorem Upkeep.counted (h : Upkeep depth talk sent ram) :
    ram.accepted.length = (Notice.finished sent).length + ram.queue.length := by
  obtain ⟨served, htaken, hfinished⟩ := h.line
  rw [h.listed, htaken, hfinished, List.length_map, List.length_map, List.length_append]

end Ram

namespace Backend

/-- A completion signals everyone who waits for room. -/
theorem woken (b : Backend (Recorded Ram)) {id : Nat} (hid : id < b.mailboxes.length)
    {step : DeviceStep} (hworked : (b.advance step).2.worked = true) :
    (b.mailbox id).signals + b.driver.driver.waiters.count id ≤
      ((b.advance step).1.mailbox id).signals := by
  replace hworked : (b.driver.driver.advance b.arena step).answer.worked = true := hworked
  rcases b.driver.driver.advance_worked b.arena step with ⟨-, hall, hwork⟩ | ⟨hidle, -⟩
  · have hcount := hall.wakesAll hwork id
    let progress := Device.advance b.driver b.arena step
    have hsignals := signals_post (b := ⟨progress.driver, progress.arena, b.mailboxes⟩) hid
      progress.notices
    exact Nat.le_trans (Nat.add_le_add_left hcount _) hsignals
  · rw [hidle] at hworked
    simp at hworked

theorem completeNext_answer (b : Backend (Recorded Ram)) :
    (b.advance .completeNext).2 = .truth (!b.driver.driver.queue.isEmpty) := by
  show (b.driver.driver.advance b.arena .completeNext).answer = _
  simp only [Ram.advance]
  split
  · rename_i hnone
    rw [(Ram.completeNext_eq_none_iff _ _).1 hnone]
    rfl
  · rename_i hnext
    obtain ⟨oldest, -⟩ := Ram.completion hnext
    rw [oldest]
    rfl

theorem completeAll_answer (b : Backend (Recorded Ram)) :
    (b.advance .completeAll).2 = .number b.driver.driver.queue.length ∧
      (b.advance .completeAll).1.driver.driver.queue = [] := by
  obtain ⟨hdrained, hcount⟩ :=
    b.driver.driver.completeUpTo_drains b.arena (Nat.le_refl b.driver.driver.queue.length)
  rw [driver_advance]
  exact ⟨congrArg DeviceAnswer.number hcount, hdrained⟩

end Backend

namespace Ram

/-- A device with or without a queue, with or without bad blocks, honours its contract in every
state that calls can bring it to. -/
theorem contract_kept (ram : Ram) (hqueue : ram.queue = []) (haccepted : ram.accepted = [])
    (hwaiters : ram.waiters = []) (arena : Arena) (mailboxes : List Mailbox)
    (calls : List DeviceCall) :
    let start : Backend (Recorded Ram) := ⟨⟨ram, [], []⟩, arena, mailboxes⟩
    Contract start (start.talk calls) (start.dealAll calls) := by
  intro start
  have hstart : Upkeep ram.queueDepth [] start.driver.notices start.driver.driver := by
    refine ⟨rfl, ⟨[], hqueue.symm, rfl⟩, haccepted, ?_, fun _ => hqueue, hwaiters⟩
    intro d _
    show ram.queue.length ≤ d
    rw [hqueue]
    exact Nat.zero_le d
  have hkept := Backend.upkeep hstart calls
  have hlength := start.length_dealAll calls
  refine ⟨hkept.places, hkept.line, ?_, hkept.room, hkept.prompt, hkept.listed, hkept.counted,
    Backend.completeNext_answer _, Backend.completeAll_answer _, ?_⟩
  · intro id hid hopen
    obtain ⟨sent, hnotices, -, hcompletions⟩ := Backend.delivered_dealAll hid hopen calls
    rw [hnotices]
    exact hcompletions
  · intro id hid step hworked
    have hid' : id < (start.dealAll calls).mailboxes.length := by rwa [hlength]
    have hwoken := (start.dealAll calls).woken hid' hworked
    rwa [hkept.waiters] at hwoken

/-- A device in which one transfer can wait and whose last block is bad. -/
def narrow : Ram where
  contents := .zeroed 64
  blockSize := 16
  queueDepth := some 1
  badBlocks := some (3, 4)

/-- A transfer of one block from or to a device address. -/
def blockAt (direction : Direction) (block address : Nat) : Transfer :=
  ⟨direction, block, 1, .address address⟩

/-- Two sessions ask for transfers by turns: the second is turned away once, then the first is
twice, once for good. -/
def byTurns : List DeviceCall :=
  [.ask (blockAt .write 0 0x1000) ⟨⟨.write, 0, 1, 0, 16, false⟩, 0⟩,
    .ask (blockAt .read 1 0x2000) ⟨⟨.read, 1, 1, 0, 16, false⟩, 1⟩,
    .step .completeNext,
    .ask (blockAt .read 1 0x2000) ⟨⟨.read, 1, 1, 0, 16, false⟩, 1⟩,
    .ask (blockAt .write 3 0x1000) ⟨⟨.write, 3, 1, 0, 16, false⟩, 0⟩,
    .ask (blockAt .write 2 0x1000) ⟨⟨.write, 2, 1, 0, 16, false⟩, 0⟩]

theorem contract_kept_byTurns :
    let start : Backend (Recorded Ram) := ⟨⟨narrow, [], []⟩, {}, [{}, {}]⟩
    Contract start (start.talk byTurns) (start.dealAll byTurns) ∧
      (start.talk byTurns).handedBack.map (·.mailbox) = [1, 0, 0] ∧
      (start.talk byTurns).turnedAway = [0] ∧
      (start.dealAll byTurns).driver.driver.heldRequests.map (·.mailbox) = [1] :=
  ⟨contract_kept narrow rfl rfl rfl {} [{}, {}] byTurns, by decide +kernel, by decide +kernel,
    by decide +kernel⟩

end Ram
end BlockMux
