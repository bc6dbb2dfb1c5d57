import BlockMux.Proofs.Ownership
import Mathlib.Data.List.Pairwise

/-!
# What closed sessions leave behind

A session that is closed loses its grant and its buffer, but what it asked for stays in the queue of
a device in memory. A device that accesses memory by itself finds no buffer at the address any more,
so nothing comes of it. A device that was handed a view still holds the payload, and carries a write
out that nobody is open for.

Main statements:

* `Vacant` — addresses that were handed out and belong to no buffer any more.
* `Tended` — everyone in the queue asked while open, and is open or was closed with it waiting.
* `Deeds` — what a driver does: it is asked for transfers, and carries out the head of its queue.
* `changes_owned` — each deed changes only blocks of its own transfer, in the window of the open
  session that asks or has asked for it; or, on a device without addresses, of a session that was
  closed with that request in the queue, where it has waited ever since.
* `departed_writes` — the second case happens, also to a window that is someone else's by then.
-/

namespace BlockMux

namespace Ram

/-! ## Buffers that are gone -/

/-- A run of addresses that was handed out, and belongs to no buffer any more. -/
structure Vacant (ram : Ram) (buffer : SharedBuffer) : Prop where
  below : buffer.stop ≤ ram.nextBase
  apart : ∀ other ∈ ram.buffers, other.stop ≤ buffer.base ∨ buffer.stop ≤ other.base

namespace Vacant

variable {ram ram' : Ram} {arena arena' : Arena} {buffer : SharedBuffer}

theorem of_stock (h : ram.Vacant buffer) (hstock : ram'.stock = ram.stock) :
    ram'.Vacant buffer := by
  obtain ⟨hbuffers, hbase⟩ := Prod.mk.inj hstock
  exact ⟨by rw [hbase]; exact h.below, by rw [hbuffers]; exact h.apart⟩

/-- Addresses are not handed out again. -/
theorem allocate (h : ram.Vacant buffer) {size : Nat} {new : SharedBuffer}
    (hnew : ram.allocate arena size = some (ram', arena', new)) : ram'.Vacant buffer := by
  obtain ⟨hsize, hbuffer, rfl, -⟩ := allocate_eq_some hnew
  refine ⟨Nat.le_trans h.below (Nat.le_add_right ..), ?_⟩
  intro other hother
  rcases List.mem_append.1 hother with hold | hlast
  · exact h.apart other hold
  · rw [List.mem_singleton.1 hlast, hbuffer]
    exact .inr h.below

theorem release (h : ram.Vacant buffer) (other : SharedBuffer) :
    (ram.release other).Vacant buffer :=
  ⟨h.below, fun found hfound => h.apart found (List.mem_filter.1 hfound).1⟩

end Vacant

/-- Of two different buffers one ends before the other begins. -/
theorem apart_of_ne {buffers : List SharedBuffer} {a b : SharedBuffer}
    (apart : buffers.Pairwise fun first later => first.stop ≤ later.base) (ha : a ∈ buffers)
    (hb : b ∈ buffers) (hne : a ≠ b) : a.stop ≤ b.base ∨ b.stop ≤ a.base := by
  have hsymm : Std.Symm fun a b : SharedBuffer => a.stop ≤ b.base ∨ b.stop ≤ a.base :=
    ⟨fun _ _ hab => hab.symm⟩
  have hapart : buffers.Pairwise fun a b => a.stop ≤ b.base ∨ b.stop ≤ a.base :=
    apart.imp Or.inl
  exact hapart.forall ha hb hne

/-- A buffer that is taken back leaves its addresses vacant. -/
theorem Houses.vacate {shape : Shape} {guests : Session → Prop} {ram : Ram} {arena : Arena}
    (h : Houses shape guests ram.emptied arena) {buffer : SharedBuffer}
    (hmem : buffer ∈ ram.buffers) : (ram.release buffer).Vacant buffer := by
  refine ⟨h.below buffer hmem, ?_⟩
  intro other hother
  obtain ⟨hother, hbase⟩ := List.mem_filter.1 hother
  have hne : other ≠ buffer := by
    rintro rfl
    simp at hbase
  exact apart_of_ne h.apart hother hmem hne

/-- Where its addresses are vacant, nothing comes of what a session asked for. -/
theorem Vacant.move_eq {ram : Ram} {shape : Shape} {s : Session} {e : Exchange} (arena : Arena)
    (hguest : Guest shape s) (h : ram.Vacant s.channel.buffer)
    (hblock : ram.blockSize = s.blockSize) (haddresses : s.usesAddresses = true) (may : s.MayAsk e) :
    ram.move arena e.transfer = (ram.contents, arena, false) := by
  obtain ⟨direction, target, -, htarget, htransfer⟩ := transfer_of_mayAsk may
  rw [Session.target?, if_pos haddresses] at htarget
  obtain rfl := Option.some.inj htarget
  obtain ⟨hcount, -, hlarge, hpos, hfits, -⟩ := Session.bounds_of_accepts may.accepted
  -- the payload is not empty, so a buffer that holds it would meet the vacant addresses
  have hlen : 1 ≤ e.request.packet.count * s.blockSize :=
    Nat.mul_pos hcount (hguest.blockSize ▸ hguest.blockSize_pos)
  have hnone : ram.buffers.find? (·.contains (s.channel.address e.request.packet)
      (e.request.packet.count * s.blockSize)) = none := by
    refine List.find?_eq_none.2 fun other hother hcontains => ?_
    have hapart := h.apart other hother
    rw [SharedBuffer.contains, Bool.and_eq_true, decide_eq_true_eq, decide_eq_true_eq]
      at hcontains
    unfold SharedBuffer.stop at hcontains hapart
    unfold Channel.address at hcontains
    omega
  rw [move, htransfer]
  split
  · simp only [moveAddress, hblock, hnone]
  · rfl

end Ram

/-! ## Who waits in the queue -/

/-- A request that was in the queue when its session was closed, and still is. -/
structure Leftover (start : System (Recorded Ram)) (steps : List Step) (job : Job) where
  before : List Step
  seat : Nat
  after : List Step
  session : Session
  steps_eq : steps = before ++ .closeSession seat :: after
  /-- The session as it was when it was closed. -/
  wasOpen : (start.runSteps before).session? seat = some session
  /-- From the closing on it has waited. -/
  waited : ∀ now, before <+: now → now <+: steps → job ∈ (start.runSteps now).ram.queue
  asked : session.MayAsk ⟨job.transfer, job.request, .dispatched⟩

/-- The same leftover, one step later, if the step has left it in the queue. -/
def Leftover.later {start : System (Recorded Ram)} {steps : List Step} {job : Job}
    (o : Leftover start steps job) (step : Step)
    (waits : job ∈ (start.runSteps (steps ++ [step])).ram.queue) :
    Leftover start (steps ++ [step]) job :=
  { o with
    after := o.after ++ [step]
    steps_eq := (congrArg (· ++ [step]) o.steps_eq).trans (List.append_assoc ..)
    waited := by
      intro now hbefore hnow
      -- the one moment that is new is that after the step
      rcases List.prefix_concat_iff.1 hnow with rfl | hearlier
      · exact waits
      · exact o.waited now hbefore hearlier }

/-- A request of the queue is that of an open session, or was left by a session whose buffer is
gone. -/
inductive Tended (shape : Ram.Shape) (start : System (Recorded Ram)) (steps : List Step)
    (sys : System (Recorded Ram)) (job : Job) : Prop
  | guest {s : Session} (hs : sys.guests s)
      (may : s.MayAsk ⟨job.transfer, job.request, .dispatched⟩)
  | left (o : Leftover start steps job) (guest : Ram.Guest shape o.session)
      (gone : sys.ram.Vacant o.session.channel.buffer)

namespace Ram

variable {ram ram' : Ram} {arena arena' : Arena} {notices : List Notice} {job : Job}

theorem Answer.queue {t : Transfer} {request : Request} {reply : Reply Ram}
    (h : ram.Answer arena t request reply) (hjob : job ∈ reply.driver.queue) :
    job ∈ ram.queue ∨ job = ⟨t, request⟩ := by
  cases h with
  | queued =>
    rcases List.mem_append.1 hjob with hold | hnew
    · exact .inl hold
    · exact .inr (List.mem_singleton.1 hnew)
  | _ => exact .inl hjob

theorem Completion.queue (h : ram.Completion arena ram' arena' notices)
    (hjob : job ∈ ram'.queue) : job ∈ ram.queue := by
  obtain ⟨oldest, -⟩ := h
  rw [oldest]
  exact List.mem_cons_of_mem _ hjob

theorem Completions.queue (h : Completions ram arena ram' arena' notices)
    (hjob : job ∈ ram'.queue) : job ∈ ram.queue := by
  induction h with
  | none => exact hjob
  | next first _ ih => exact (completion first).queue (ih hjob)

theorem Advance.queue {step : DeviceStep} {progress : Progress Ram}
    (h : ram.Advance arena step progress) (hjob : job ∈ progress.driver.queue) :
    job ∈ ram.queue := by
  cases h with
  | poked => exact hjob
  | completed _ all => exact all.queue hjob

end Ram

/-- What a session at work has put into the queue it may have asked for. -/
theorem Session.Acts.queued {s s' : Session} {b b' : Backend (Recorded Ram)}
    (acts : s.Acts b s' b') {job : Job} (hjob : job ∈ b'.driver.driver.queue) :
    job ∈ b.driver.driver.queue ∨ s.MayAsk ⟨job.transfer, job.request, .dispatched⟩ := by
  revert job
  refine acts.backend (P := fun c : Backend (Recorded Ram) => ∀ {job}, job ∈ c.driver.driver.queue →
    job ∈ b.driver.driver.queue ∨ s.MayAsk ⟨job.transfer, job.request, .dispatched⟩)
    (fun _ _ hc => hc) (fun hc => hc) ?_ .inl
  intro c t packet may hc job hjob
  rw [Backend.driver_submit] at hjob
  rcases (Ram.answers ..).queue hjob with hold | rfl
  · exact hc hold
  · exact .inr (may .dispatched)

/-- Handing out a buffer moves no byte and carries nothing out. -/
theorem Backend.allocate_leaves {b b' : Backend (Recorded Ram)} {size : Nat}
    {buffer : SharedBuffer} (h : b.allocate size = some (b', buffer)) :
    b'.driver.driver.contents = b.driver.driver.contents ∧
      b'.driver.driver.queue = b.driver.driver.queue := by
  obtain ⟨hallocate, -, -⟩ := allocate_ram h
  obtain ⟨-, -, hram, -⟩ := Ram.allocate_eq_some hallocate
  rw [hram]
  exact ⟨rfl, rfl⟩

/-! ## Along a course -/

section

variable {shape : Ram.Shape} {start sys sys' : System (Recorded Ram)} {steps : List Step}
  {step : Step} {answer : Answer} {job : Job}

/-- Who is open stays a guest, what is vacant stays vacant, and what waits goes on waiting. -/
theorem Tended.keep (h : Tended shape start steps sys job)
    (hguests : ∀ s, sys.guests s → sys'.guests s)
    (hvacant : ∀ buffer, sys.ram.Vacant buffer → sys'.ram.Vacant buffer)
    (waits : job ∈ (start.runSteps (steps ++ [step])).ram.queue) :
    Tended shape start (steps ++ [step]) sys' job := by
  cases h with
  | guest hs may => exact .guest (hguests _ hs) may
  | left o guest gone => exact .left (o.later step waits) guest (hvacant _ gone)

/-- A session that is closed leaves what it has in the queue. -/
theorem Tended.close {seat : Nat} {s : Session} (h : Tended shape start steps sys job)
    (hsys : sys = start.runSteps steps) (hlodges : sys.Lodges shape)
    (hs : sys.session? seat = some s) (hjob : job ∈ sys.ram.queue)
    (waits : job ∈ (start.runSteps (steps ++ [.closeSession seat])).ram.queue) :
    Tended shape start (steps ++ [.closeSession seat]) (sys.afterClose seat s) job := by
  have hlt := (List.getElem?_eq_some_iff.1 (System.seat_of_session? hs)).1
  cases h with
  | @guest t ht may =>
    obtain ⟨i, u, hu, hterms⟩ := ht
    by_cases hi : seat = i
    · -- the one that is closed: this is the closing that its leftover tells of
      subst hi
      obtain rfl := Option.some.inj (hs.symm.trans hu)
      have hopen : sys.guests s := ⟨seat, s, hs, rfl⟩
      have hwas : (start.runSteps steps).session? seat = some s := by rw [← hsys, hs]
      have hwaited : ∀ now, steps <+: now → now <+: steps ++ [.closeSession seat] →
          job ∈ (start.runSteps now).ram.queue := by
        intro now hbefore hnow
        -- right after the closing, or right before it
        rcases List.prefix_concat_iff.1 hnow with rfl | hearlier
        · exact waits
        · obtain rfl := hearlier.eq_of_length_le hbefore.length_le
          rw [← hsys]
          exact hjob
      exact .left ⟨steps, seat, [], s, rfl, hwas, hwaited, may.congr hterms.symm⟩
        (hlodges.guest s hopen) (hlodges.vacate (hlodges.buffer s hopen))
    · refine .guest ⟨i, u, ?_, hterms⟩ may
      rw [System.session?, System.afterClose, List.getElem?_set_ne hi]
      exact hu
  | left o guest gone => exact .left (o.later _ waits) guest (gone.release _)

theorem Tended.transition (hsys : sys = start.runSteps steps)
    (hsys' : sys' = start.runSteps (steps ++ [step])) (hlodges : sys.Lodges shape)
    (htransition : sys.Transition step sys' answer)
    (h : ∀ job ∈ sys.ram.queue, Tended shape start steps sys job) :
    ∀ job ∈ sys'.ram.queue, Tended shape start (steps ++ [step]) sys' job := by
  intro job hjob
  have waits : job ∈ (start.runSteps (steps ++ [step])).ram.queue := by
    rw [← hsys']
    exact hjob
  -- only a session at work adds to the queue, and only a closing takes a guest away
  cases htransition with
  | unchanged => exact (h job hjob).keep (fun _ => id) (fun _ => id) waits
  | refused left =>
    cases left with
    | early roster =>
      refine Tended.keep (h job hjob) ?_ ?_ waits
      · exact fun _ => id
      · exact fun _ => id
    | @late size backend buffer roster backend_eq =>
      obtain ⟨hallocate, -, -⟩ := Backend.allocate_ram backend_eq
      have hjob : job ∈ backend.driver.driver.queue := hjob
      rw [(Backend.allocate_leaves backend_eq).2] at hjob
      refine Tended.keep (h job hjob) ?_ ?_ waits
      · exact fun _ => id
      · exact fun _ hvacant => (Ram.Vacant.allocate hvacant hallocate).release buffer
  | opened parsed a =>
    obtain ⟨hallocate, -, -⟩ := Backend.allocate_ram a.backend_eq
    have hjob : job ∈ a.backend.driver.driver.queue := hjob
    rw [(Backend.allocate_leaves a.backend_eq).2] at hjob
    refine Tended.keep (h job hjob) ?_ ?_ waits
    · intro s hs
      rw [System.guests_opened]
      exact .inl hs
    · exact fun _ hvacant => Ram.Vacant.allocate hvacant hallocate
  | closed hs => exact (h job hjob).close hsys hlodges hs hjob waits
  | @client seat step client hc =>
    have hstep : sys.Transition (.client seat step) (sys.afterClient seat client step) _ :=
      .client hc
    have hguests := System.guests_transition hstep (by simp) (by simp)
    refine Tended.keep (h job hjob) ?_ ?_ waits
    · intro s hs
      rw [hguests]
      exact hs
    · exact fun _ => id
  | @acted step seat s s' b _ hseat hs acts quiet =>
    have hguests := System.guests_set hs acts.terms_eq { sys.mux with backend := b }
    have hstock : ∀ buffer, sys.ram.Vacant buffer → (sys.withSession seat s' b).ram.Vacant buffer :=
      fun _ hvacant => hvacant.of_stock acts.steady.stock
    -- what has just been asked for is the session's own
    rcases acts.queued hjob with hold | may
    · refine Tended.keep (h job hold) ?_ hstock waits
      intro t ht
      rw [System.withSession, hguests]
      exact ht
    · refine .guest (s := s) ?_ may
      rw [System.withSession, hguests]
      exact ⟨seat, s, hs, rfl⟩
  | device step =>
    have hdriver : ({ sys with mux.backend := (sys.mux.backend.advance step).1 } :
        System (Recorded Ram)).ram = (sys.ram.advance sys.mux.backend.arena step).driver :=
      (sys.ram_advance step).1
    rw [hdriver] at hjob
    refine Tended.keep (h job ((Ram.advances ..).queue hjob)) ?_ ?_ waits
    · exact fun _ => id
    · intro buffer hvacant
      rw [hdriver]
      exact hvacant.of_stock (Ram.advances _ _ step).stock

end

namespace Course

open BlockMux.System

/-- Along every course of events, everything in the queue is an open session's, or was left by a
closed one. -/
theorem tended (c : Course Ram) (hqueue : c.driver.queue = []) (hbuffers : c.driver.buffers = [])
    (hbound : c.driver.contents.size ≤ maxWord) :
    ∀ job ∈ c.final.ram.queue, Tended c.driver.shape c.start c.steps c.final job := by
  have hall : ∀ steps, ∀ job ∈ (c.start.runSteps steps).ram.queue,
      Tended c.driver.shape c.start steps (c.start.runSteps steps) job := by
    intro steps
    induction steps using List.reverseRecOn with
    | nil =>
      intro job hjob
      have hjob : job ∈ c.driver.queue := hjob
      rw [hqueue] at hjob
      simp at hjob
    | append_singleton steps step ih =>
      -- a session that the step closes is a guest of the system before it
      have hlodges := Lodges.runSteps c.config c.table hbuffers hbound steps
      have ho : (c.start.runSteps steps).Orderly := (Orderly.create _).runSteps steps
      have hnext : c.start.runSteps (steps ++ [step]) = ((c.start.runSteps steps).step step).1 :=
        runSteps_concat ..
      rw [hnext]
      exact Tended.transition rfl hnext.symm hlodges (step_transition ho step) ih
  exact hall c.steps

end Course

/-! ## What happens to the device -/

/-- What a device in memory does from one state to another: it is asked for the transfers of a log,
and carries out what is at the head of its queue. Each deed changes bytes in the blocks of its own
transfer only, and only such as `mine` gives to whoever asks for it, or, when it has waited in the
queue, such as `left` gives to what waits. -/
inductive Ram.Deeds (mine : Request → Nat → Prop) (left : Job → Nat → Prop) :
    Ram → Arena → List Exchange → Ram → Arena → Prop
  | none (ram : Ram) (arena : Arena) : Deeds mine left ram arena [] ram arena
  /-- A transfer is asked for. -/
  | asked {ram ram' : Ram} {arena arena' : Arena} {log : List Exchange} (t : Transfer)
      (request : Request)
      (owned : ∀ pos, ram.Changed (ram.submit arena t request).driver pos →
        ram.Writes t pos ∧ mine request pos)
      (later : Deeds mine left (ram.submit arena t request).driver
        (ram.submit arena t request).arena log ram' arena') :
      Deeds mine left ram arena (⟨t, request, (ram.submit arena t request).outcome⟩ :: log)
        ram' arena'
  /-- What is at the head of the queue is carried out. -/
  | next {ram ram' ram'' : Ram} {arena arena' arena'' : Arena} {log : List Exchange} {job : Job}
      {rest : List Job} {notices : List Notice} (oldest : ram.queue = job :: rest)
      (done : ram.completeNext arena = some (ram', arena', notices))
      (owned : ∀ pos, ram.Changed ram' pos →
        ram.Writes job.transfer pos ∧ (mine job.request pos ∨ left job pos))
      (later : Deeds mine left ram' arena' log ram'' arena'') :
      Deeds mine left ram arena log ram'' arena''

/-- Whether a byte belonged to the session that a request of the queue was left by, on a device
that is handed views. -/
def Course.LeftTo (c : Course Ram) (job : Job) (pos : Nat) : Prop :=
  c.driver.usesAddresses = false ∧ ∃ o : Leftover c.start c.steps job, o.session.Owns pos

namespace Ram

variable {ram ram' ram'' : Ram} {arena arena' arena'' : Arena} {pos : Nat}

theorem Deeds.trans {mine : Request → Nat → Prop} {left : Job → Nat → Prop}
    {log more : List Exchange} (h : Deeds mine left ram arena log ram' arena')
    (h' : Deeds mine left ram' arena' more ram'' arena'') :
    Deeds mine left ram arena (log ++ more) ram'' arena'' := by
  induction h with
  | none => exact h'
  | asked t request owned _ ih => exact .asked t request owned (ih h')
  | next oldest done owned _ ih => exact .next oldest done owned (ih h')

theorem Answer.changed {t : Transfer} {request : Request} {reply : Reply Ram}
    (h : ram.Answer arena t request reply) (hchanged : ram.Changed reply.driver pos) :
    (ram.move arena t).1.byte pos ≠ ram.contents.byte pos := by
  cases h with
  | atOnce _ _ _ moved =>
    rw [moved]
    exact hchanged
  | _ => exact absurd rfl hchanged

end Ram

section

variable {shape : Ram.Shape} {start sys : System (Recorded Ram)} {steps : List Step} {job : Job}
  {ram : Ram} {arena arena' : Arena} {pos : Nat}

/-- Whoever it is that a request of the queue is from, it changes only bytes that are or were that
session's. -/
theorem Tended.owned (h : Tended shape start steps sys job) (hlodges : sys.Lodges shape)
    (hsteady : Ram.Steady sys.ram arena ram arena')
    (hchanged : (ram.move arena' job.transfer).1.byte pos ≠ ram.contents.byte pos) :
    sys.OwnedBy job.request pos ∨
      (shape.usesAddresses = false ∧ ∃ o : Leftover start steps job, o.session.Owns pos) := by
  have hshape : ram.shape = shape := hsteady.shape.trans hlodges.shape_eq
  have hblock : ram.blockSize = shape.blockSize := congrArg Ram.Shape.blockSize hshape
  cases h with
  | @guest s hs may =>
    have howns := (hlodges.guest s hs).owns hblock may hchanged
    obtain ⟨seat, t, ht, hterms⟩ := hs
    have hmailbox : t.mailbox = s.mailbox := congrArg Session.Terms.mailbox hterms.symm
    exact .inl ⟨seat, t, ht, hmailbox.trans may.mailbox.symm, howns.congr hterms.symm⟩
  | left o guest gone =>
    refine .inr ⟨?_, o, guest.owns hblock o.asked hchanged⟩
    -- by address nothing would come of it
    by_contra haddress
    have huses : o.session.usesAddresses = true := by
      rw [guest.usesAddresses]
      simpa using haddress
    refine hchanged ?_
    rw [(gone.of_stock hsteady.stock).move_eq arena' guest (hblock.trans guest.blockSize.symm) huses
      o.asked]

/-- A session at work makes the driver change only bytes of its own. -/
theorem Session.Acts.deeds {s s' : Session} {b b' : Backend (Recorded Ram)}
    {mine : Request → Nat → Prop} (acts : s.Acts b s' b') (left : Job → Nat → Prop)
    (hguest : Ram.Guest shape s) (hshape : b.driver.driver.shape = shape)
    (hmine : ∀ packet pos, s.Owns pos → mine ⟨packet, s.mailbox⟩ pos) :
    ∃ log, b'.driver.exchanges = b.driver.exchanges ++ log ∧
      Ram.Deeds mine left b.driver.driver b.arena log b'.driver.driver b'.arena := by
  have hpair := acts.backend (P := fun c : Backend (Recorded Ram) => c.driver.driver.shape = shape ∧
    ∃ log, c.driver.exchanges = b.driver.exchanges ++ log ∧
      Ram.Deeds mine left b.driver.driver b.arena log c.driver.driver c.arena)
    (fun _ _ hc => hc) (fun hc => hc) ?_ ⟨hshape, [], (List.append_nil _).symm, .none _ _⟩
  · exact hpair.2
  -- what is asked for next goes to the end of the chain, and to the end of the log
  rintro c t packet may ⟨hcurrent, log, hlog, hdeeds⟩
  have hblock : c.driver.driver.blockSize = shape.blockSize :=
    congrArg Ram.Shape.blockSize hcurrent
  have hsteady := (c.driver.driver.answers c.arena t ⟨packet, s.mailbox⟩).steady
  have howned : ∀ pos, c.driver.driver.Changed
      (c.driver.driver.submit c.arena t ⟨packet, s.mailbox⟩).driver pos →
        c.driver.driver.Writes t pos ∧ mine ⟨packet, s.mailbox⟩ pos := by
    intro pos hchanged
    have hmoved := (Ram.answers ..).changed hchanged
    exact ⟨(Ram.byte_move hmoved).1, hmine packet pos (hguest.owns hblock (may .dispatched) hmoved)⟩
  rw [Backend.exchanges_submit, Backend.driver_submit, Backend.arena_submit, hlog,
    List.append_assoc]
  exact ⟨hsteady.shape.trans hcurrent, _, rfl, hdeeds.trans (.asked t _ howned (.none _ _))⟩

/-- Carrying out what waits changes bytes of sessions that are open or were closed meanwhile. -/
theorem Tended.deeds {ram' : Ram} {after : Arena} {notices : List Notice}
    (hlodges : sys.Lodges shape) (h : ∀ job ∈ sys.ram.queue, Tended shape start steps sys job)
    (hsteady : Ram.Steady sys.ram arena ram arena')
    (hqueue : ∀ job ∈ ram.queue, job ∈ sys.ram.queue)
    (done : Ram.Completions ram arena' ram' after notices) :
    Ram.Deeds sys.OwnedBy (fun job pos => shape.usesAddresses = false ∧
      ∃ o : Leftover start steps job, o.session.Owns pos) ram arena' [] ram' after := by
  -- each request carried out is one that was in the queue from the start, whose bytes are told by
  -- the system as it was then
  induction done with
  | none => exact .none _ _
  | @next current _ _ now _ _ _ _ first _ ih =>
    have hfirst := Ram.completion first
    have hrest := ih (hsteady.trans hfirst.steady) fun other hother =>
      hqueue other (hfirst.queue hother)
    cases hfirst with
    | @intro job _ _ _ _ oldest moved =>
      have hhead : job ∈ current.queue := by
        rw [oldest]
        exact List.mem_cons_self
      refine .next oldest first ?_ hrest
      intro pos hchanged
      have hmoved : (current.move now job.transfer).1.byte pos ≠ current.contents.byte pos := by
        rw [moved]
        exact hchanged
      exact ⟨(Ram.byte_move hmoved).1, (h job (hqueue job hhead)).owned hlodges hsteady hmoved⟩

end

namespace Course

open BlockMux.System

/-- After every course of events in which sessions come and go, whatever happens next, unless
someone else changes the device: either its contents and its queue stay as they are, or the step
comes to deeds of the driver. Each transfer asked for changes only blocks of its own in the window
of the open session that asks, which may write. Each request carried out from the head of the queue
changes only blocks of its own, in such a window of the open session that asked for it, or, on a
device that is handed views, of a session that was closed while that request was in the queue, where
it has waited ever since. -/
theorem changes_owned (c : Course Ram) (hqueue : c.driver.queue = [])
    (hbuffers : c.driver.buffers = []) (hbound : c.driver.contents.size ≤ maxWord) {step : Step}
    (hpoke : ∀ pos bytes, step ≠ .device (.poke pos bytes)) :
    ∃ log, (c.final.step step).1.exchanges = c.final.exchanges ++ log ∧
      (Ram.Deeds c.final.OwnedBy c.LeftTo c.final.ram c.final.mux.backend.arena log
          (c.final.step step).1.ram (c.final.step step).1.mux.backend.arena ∨
        log = [] ∧ (c.final.step step).1.ram.contents = c.final.ram.contents ∧
          (c.final.step step).1.ram.queue = c.final.ram.queue) := by
  have hlodges := c.lodges hbuffers hbound
  have htended := c.tended hqueue hbuffers hbound
  have htransition := step_transition c.orderly step
  generalize (c.final.step step).1 = sys' at htransition ⊢
  generalize (c.final.step step).2 = answer at htransition
  have hnil := (List.append_nil c.final.exchanges).symm
  cases htransition with
  | unchanged => exact ⟨[], hnil, .inr ⟨rfl, rfl, rfl⟩⟩
  | refused left =>
    cases left with
    | early roster => exact ⟨[], hnil, .inr ⟨rfl, rfl, rfl⟩⟩
    | @late size backend buffer roster backend_eq =>
      obtain ⟨hcontents, hkept⟩ := Backend.allocate_leaves backend_eq
      exact ⟨[], (Backend.exchanges_allocate backend_eq).trans hnil, .inr ⟨rfl, hcontents, hkept⟩⟩
  | opened parsed a =>
    obtain ⟨hcontents, hkept⟩ := Backend.allocate_leaves a.backend_eq
    exact ⟨[], (Backend.exchanges_allocate a.backend_eq).trans hnil, .inr ⟨rfl, hcontents, hkept⟩⟩
  | closed hs => exact ⟨[], hnil, .inr ⟨rfl, rfl, rfl⟩⟩
  -- a client writes only to its buffer, which the contents are no part of
  | client hc => exact ⟨[], hnil, .inr ⟨rfl, rfl, rfl⟩⟩
  | @acted _ seat s s' b _ hseat hs acts quiet =>
    have hmine : ∀ packet pos, s.Owns pos → c.final.OwnedBy ⟨packet, s.mailbox⟩ pos :=
      fun _ _ howns => ⟨seat, s, hs, rfl, howns⟩
    obtain ⟨log, hlog, hdeeds⟩ :=
      acts.deeds c.LeftTo (hlodges.guest s ⟨seat, s, hs, rfl⟩) hlodges.shape_eq hmine
    exact ⟨log, hlog, .inl hdeeds⟩
  | device step =>
    refine ⟨[], (Backend.exchanges_advance ..).trans hnil, .inl ?_⟩
    obtain ⟨hram, harena⟩ := c.final.ram_advance step
    show Ram.Deeds _ _ _ _ _ (c.final.mux.backend.advance step).1.driver.driver
      (c.final.mux.backend.advance step).1.arena
    rw [hram, harena]
    have hadvance := c.final.ram.advances c.final.mux.backend.arena step
    generalize c.final.ram.advance c.final.mux.backend.arena step = progress at hadvance ⊢
    -- what is carried out was in the queue before the step
    cases hadvance with
    | poked poke => exact absurd (congrArg Step.device poke) (hpoke _ _)
    | completed _ all => exact Tended.deeds hlodges htended (.refl ..) (fun _ => id) all

/-- A session is closed while its write of a block waits in the queue. -/
def deserted : Course Ram where
  driver := { contents := Memory.zeroed 128, blockSize := 16, queueDepth := some 1 }
  config := { rules := [{}], queueSize := 4 }
  steps := [.openSession "ram_quota=8192,tx_buf_size=64" [],
    .client 0 (.request ⟨.write, 0, 1, 0, 16, false⟩ (some (List.replicate 16 170))),
    .process 0 .submitted, .closeSession 0]

theorem changes_owned_deserted :
    deserted.final.ram.queue.length = 1 ∧
      ∃ log, (deserted.final.step (.device .completeNext)).1.exchanges =
          deserted.final.exchanges ++ log ∧
        (Ram.Deeds deserted.final.OwnedBy deserted.LeftTo deserted.final.ram
            deserted.final.mux.backend.arena log
            (deserted.final.step (.device .completeNext)).1.ram
            (deserted.final.step (.device .completeNext)).1.mux.backend.arena ∨
          log = [] ∧
            (deserted.final.step (.device .completeNext)).1.ram.contents =
              deserted.final.ram.contents ∧
            (deserted.final.step (.device .completeNext)).1.ram.queue =
              deserted.final.ram.queue) :=
  ⟨by decide +kernel, changes_owned deserted rfl rfl (by decide) (by simp)⟩

/-- The same window is granted to another session afterwards. -/
def usurped : Course Ram :=
  { deserted with steps := deserted.steps ++ [.openSession "ram_quota=8192,tx_buf_size=64" []] }

/-- A driver that is handed views changes bytes that no open session owns, and bytes of a window
that another session, which has asked for nothing, was granted as its only writer. -/
theorem departed_writes :
    (¬∀ (c : Course Ram) (pos : Nat), c.driver.queue = [] → c.driver.buffers = [] →
      c.driver.contents.size ≤ maxWord →
      c.final.ram.Changed (c.final.step (.device .completeNext)).1.ram pos →
        c.final.Owned pos) ∧
    ∃ s, usurped.final.session? 1 = some s ∧ s.Owns 0 ∧
      usurped.final.mux.roster.grants = [s.grant] ∧ usurped.submitted 1 = [] ∧
      usurped.final.ram.Changed (usurped.final.step (.device .completeNext)).1.ram 0 := by
  constructor
  · intro h
    have hchanged : deserted.final.ram.Changed
        (deserted.final.step (.device .completeNext)).1.ram 0 := by decide +kernel
    obtain ⟨seat, s, hs, -⟩ := h deserted 0 rfl rfl (by decide) hchanged
    -- the only seat is a retired one
    have hnone : deserted.final.seats.filterMap Seat.session? = [] := by decide +kernel
    have hmem : s ∈ deserted.final.seats.filterMap Seat.session? :=
      List.mem_filterMap.2 ⟨_, List.mem_of_getElem? (seat_of_session? hs), rfl⟩
    rw [hnone] at hmem
    simp at hmem
  · have hopen : (usurped.final.session? 1).any (fun s => s.grant.writeable &&
        s.grant.offset == 0 && s.grant.span == 8 && s.blockSize == 16 &&
        usurped.final.mux.roster.grants == [s.grant]) = true := by decide +kernel
    obtain ⟨s, hs, hfacts⟩ := (Option.any_eq_true _ _).1 hopen
    simp only [Bool.and_eq_true, beq_iff_eq] at hfacts
    obtain ⟨⟨⟨⟨hwriteable, hoffset⟩, hspan⟩, hblock⟩, hgrants⟩ := hfacts
    have hstart : s.grant.offset * s.blockSize = 0 := by rw [hoffset, Nat.zero_mul]
    refine ⟨s, hs, ⟨hwriteable, Nat.le_of_eq hstart, ?_⟩, hgrants, by decide +kernel,
      by decide +kernel⟩
    rw [hoffset, hspan, hblock]
    decide

end Course
end BlockMux
