import BlockMux.Proofs.Departures

/-!
# An address stands for one buffer for ever

A device in memory hands buffers out at pages of their own, one after the other, and never uses an
address again. So an address that outlives its buffer leads nowhere: what a session on such a device
has left in the queue when it is closed fails, and touches nobody else's bytes, however many
sessions have been opened since.

Main statements:

* `Issued.errand`, `Issued.errands` — what handing out and taking back buffers keeps.
* `Forsaken.runSteps` — nobody else is taken for a session that is gone.
* `forsaken`, `leftover_fails` — what a closed session has left in the queue comes to nothing.
* `addresses_lasting` — buffers lie apart for ever, and what closed sessions have left fails.
-/

namespace BlockMux
namespace Ram

/-! ## Handing out and taking back -/

/-- What a device is asked for about buffers. -/
inductive Errand where
  | allocate (size : Nat)
  | release (buffer : SharedBuffer)
  deriving DecidableEq, Repr

/-- Runs an errand; the last part is the buffer that is handed out, if any. -/
def errand (ram : Ram) (arena : Arena) : Errand → Ram × Arena × Option SharedBuffer
  | .allocate size =>
    match ram.allocate arena size with
    | none => (ram, arena, none)
    | some (ram, arena, buffer) => (ram, arena, some buffer)
  | .release buffer => (ram.release buffer, arena, none)

/-- Runs errands in order; the last part is all the buffers that are handed out. -/
def errands (ram : Ram) (arena : Arena) : List Errand → Ram × Arena × List SharedBuffer
  | [] => (ram, arena, [])
  | e :: es =>
    let (ram, arena, handed) := ram.errand arena e
    let (ram, arena, more) := errands ram arena es
    (ram, arena, handed.toList ++ more)

/-- The device has handed out the buffers `ever`, each at pages of its own. -/
structure Issued (ever : List SharedBuffer) (ram : Ram) : Prop where
  next : ram.nextBase % pageSize = 0
  aligned : ∀ buffer ∈ ever, buffer.base % pageSize = 0
  size_pos : ∀ buffer ∈ ever, 1 ≤ buffer.size
  below : ∀ buffer ∈ ever, buffer.stop ≤ ram.nextBase
  apart : ever.Pairwise fun first later => first.stop ≤ later.base
  held : ram.buffers.Sublist ever

variable {ram : Ram} {ever : List SharedBuffer}

theorem Issued.errand (h : Issued ever ram) (arena : Arena) (e : Errand) :
    Issued (ever ++ (ram.errand arena e).2.2.toList) (ram.errand arena e).1 := by
  cases e with
  | release buffer =>
    rw [Ram.errand, Option.toList_none, List.append_nil]
    exact { h with held := List.filter_sublist.trans h.held }
  | allocate size =>
    simp only [Ram.errand]
    split
    · rw [Option.toList_none, List.append_nil]
      exact h
    · rename_i ram' arena' buffer hallocate
      obtain ⟨hsize, hbuffer, rfl, -⟩ := allocate_eq_some hallocate
      have hpages : pages size % pageSize = 0 := Nat.mul_mod_left _ _
      have hstop : buffer.stop ≤ ram.nextBase + pages size := by
        rw [hbuffer]
        exact Nat.add_le_add_left (le_pages size) _
      -- the new buffer starts where all the others have ended
      refine ⟨?_, ?_, ?_, ?_, ?_, h.held.append_right _⟩
      · show (ram.nextBase + pages size) % pageSize = 0
        rw [Nat.add_mod, h.next, hpages]
        rfl
      · intro other hother
        rcases List.mem_append.1 hother with hold | hnew
        · exact h.aligned other hold
        · rw [List.mem_singleton.1 hnew, hbuffer]
          exact h.next
      · intro other hother
        rcases List.mem_append.1 hother with hold | hnew
        · exact h.size_pos other hold
        · rw [List.mem_singleton.1 hnew, hbuffer]
          exact hsize
      · intro other hother
        rcases List.mem_append.1 hother with hold | hnew
        · exact Nat.le_trans (h.below other hold) (Nat.le_add_right ..)
        · rw [List.mem_singleton.1 hnew]
          exact hstop
      · refine List.pairwise_append.2 ⟨h.apart, List.pairwise_singleton .., ?_⟩
        intro first hfirst later hlater
        rw [List.mem_singleton.1 hlater, hbuffer]
        exact h.below first hfirst

theorem Issued.errands (h : Issued ever ram) (arena : Arena) (es : List Errand) :
    Issued (ever ++ (ram.errands arena es).2.2) (ram.errands arena es).1 := by
  induction es generalizing ever ram arena with
  | nil =>
    rw [Ram.errands, List.append_nil]
    exact h
  | cons e es ih =>
    rw [Ram.errands, ← List.append_assoc]
    exact ih (h.errand arena e) _

/-- The buffers handed out so far lie apart at pages of their own, those taken back included, and
a buffer that is taken back is the only one that goes. -/
structure Lasting (ever : List SharedBuffer) (ram : Ram) : Prop where
  aligned : ∀ buffer ∈ ever, buffer.base % pageSize = 0
  apart : ever.Pairwise fun first later => first.stop ≤ later.base
  held : ram.buffers.Sublist ever
  release : ∀ buffer ∈ ever, ram.release buffer = { ram with buffers := ram.buffers.erase buffer }
  /-- Addresses lie in one buffer at most, of all that ever were. -/
  single : ∀ address len, 1 ≤ len → (ever.filter (·.contains address len)).length ≤ 1

namespace Issued

theorem nodup (h : Issued ever ram) : ever.Nodup := by
  refine h.apart.imp_of_mem fun {a b} ha _ hstop heq => ?_
  have hsize := h.size_pos a ha
  rw [← heq, SharedBuffer.stop] at hstop
  omega

/-- A buffer is known by where it starts. -/
theorem base_inj (h : Issued ever ram) {a b : SharedBuffer} (ha : a ∈ ever) (hb : b ∈ ever)
    (hbase : a.base = b.base) : a = b := by
  by_contra hne
  have hapart := apart_of_ne h.apart ha hb hne
  have hsize := h.size_pos a ha
  have hsize' := h.size_pos b hb
  unfold SharedBuffer.stop at hapart
  omega

theorem release_eq (h : Issued ever ram) {buffer : SharedBuffer} (hmem : buffer ∈ ever) :
    ram.release buffer = { ram with buffers := ram.buffers.erase buffer } := by
  have hfilter : ram.buffers.filter (·.base != buffer.base) = ram.buffers.erase buffer := by
    rw [(h.nodup.sublist h.held).erase_eq_filter]
    refine List.filter_congr fun other hother => ?_
    by_cases heq : other = buffer
    · rw [heq, bne_self_eq_false, bne_self_eq_false]
    · have hbase : other.base ≠ buffer.base := fun hbase =>
        heq (h.base_inj (h.held.subset hother) hmem hbase)
      rw [bne_iff_ne.2 heq, bne_iff_ne.2 hbase]
  rw [release, hfilter]

theorem single (h : Issued ever ram) (address : Nat) {len : Nat} (hlen : 1 ≤ len) :
    (ever.filter (·.contains address len)).length ≤ 1 := by
  have hapart := h.apart.filter fun buffer => buffer.contains address len
  have hcontains : ∀ buffer ∈ ever.filter (·.contains address len),
      buffer.base ≤ address ∧ address + len ≤ buffer.stop := by
    intro buffer hbuffer
    have hfound := (List.mem_filter.1 hbuffer).2
    simpa [SharedBuffer.contains] using hfound
  generalize ever.filter (·.contains address len) = found at hapart hcontains ⊢
  cases found with
  | nil => exact Nat.zero_le _
  | cons first others =>
    cases others with
    | nil => exact Nat.le_refl _
    | cons later rest =>
      -- the first would have to end before the other begins, with the address in both
      have hstop : first.stop ≤ later.base := List.rel_of_pairwise_cons hapart List.mem_cons_self
      have hfirst := hcontains first List.mem_cons_self
      have hlater := hcontains later (List.mem_cons_of_mem _ List.mem_cons_self)
      omega

theorem lasting (h : Issued ever ram) : Lasting ever ram where
  aligned := h.aligned
  apart := h.apart
  held := h.held
  release _ hmem := h.release_eq hmem
  single address _ hlen := h.single address hlen

end Issued

/-- Whatever errands a new device is sent on, the buffers it hands out lie apart for ever. -/
theorem lasting_errands (ram : Ram) (arena : Arena) (hbuffers : ram.buffers = [])
    (hnext : ram.nextBase % pageSize = 0) (es : List Errand) :
    Lasting (ram.errands arena es).2.2 (ram.errands arena es).1 := by
  have hstart : Issued [] ram := by
    refine ⟨hnext, by simp, by simp, by simp, .nil, ?_⟩
    rw [hbuffers]
  exact (hstart.errands arena es).lasting

end Ram

/-! ## Mailboxes of closed sessions -/

namespace System

variable {δ : Type} [Device δ] {sys sys' : System δ} {step : Step} {answer : Answer} {id : Nat}

/-- A mailbox was handed out, and no open session has it. -/
structure Forsaken (id : Nat) (sys : System δ) : Prop where
  known : id < sys.mux.backend.mailboxes.length
  nobody : ∀ {seat s}, sys.session? seat = some s → s.mailbox ≠ id

/-- Nobody else has the mailbox of a session that is closed. -/
theorem Forsaken.close (ho : sys.Orderly) {seat : Nat} {s : Session}
    (hs : sys.session? seat = some s) : (sys.step (.closeSession seat)).1.Forsaken s.mailbox := by
  have hclose : (sys.step (.closeSession seat)).1 = sys.afterClose seat s := by
    simp only [System.step, closeSession, hs]
    rfl
  rw [hclose]
  refine ⟨?_, fun {j t} ht heq => ?_⟩
  · rw [show (sys.afterClose seat s).mux.backend.mailboxes.length =
      sys.mux.backend.mailboxes.length from Backend.length_modifyMailbox _ _ _]
    exact ho.mailbox_lt hs
  · rcases session?_set (seat_of_session? hs) ht with ⟨-, hnone⟩ | ⟨hne, hold⟩
    · simp [Seat.session?] at hnone
    · exact hne (ho.mailbox_inj hs hold heq.symm)

theorem Forsaken.transition (h : sys.Forsaken id) (htransition : sys.Transition step sys' answer) :
    sys'.Forsaken id := by
  refine ⟨Nat.lt_of_lt_of_le h.known (length_transition htransition), fun ht => ?_⟩
  rcases htransition.terms_before ht with ⟨u, hu, hterms⟩ | ⟨_, _, _, a, -, -, -, rfl, -⟩
  · have hsame := congrArg Session.Terms.mailbox hterms
    exact fun heq => h.nobody hu (hsame.symm.trans heq)
  · -- a new mailbox gets the next number
    have hknown := h.known
    rw [← a.mailboxes_eq] at hknown
    exact (Nat.ne_of_lt hknown).symm

theorem Forsaken.runSteps (h : sys.Forsaken id) (ho : sys.Orderly) (steps : List Step) :
    (sys.runSteps steps).Forsaken id := by
  induction steps using List.reverseRecOn with
  | nil => exact h
  | append_singleton steps step ih =>
    rw [runSteps_concat]
    exact ih.transition (step_transition (ho.runSteps steps) step)

end System

/-! ## What closed sessions have left -/

namespace Course

open BlockMux.System

/-- Nobody gets the mailbox of a session that was closed. -/
theorem forsaken (c : Course Ram) {before after : List Step} {seat : Nat} {s : Session}
    (hsteps : c.steps = before ++ .closeSession seat :: after)
    (hs : (c.start.runSteps before).session? seat = some s) : c.final.Forsaken s.mailbox := by
  have ho : (c.start.runSteps before).Orderly := (Orderly.create _).runSteps before
  have hclosed := (Forsaken.close ho hs).runSteps (ho.transition (step_transition ho _)) after
  rwa [final, hsteps, System.runSteps, List.foldl_append, List.foldl_cons]

/-- On a device that is handed addresses, what still waits for a mailbox that nobody has cannot be
carried out any more. -/
theorem leftover_fails (c : Course Ram) (hqueue : c.driver.queue = [])
    (hbuffers : c.driver.buffers = []) (hbound : c.driver.contents.size ≤ maxWord)
    (haddresses : c.driver.usesAddresses = true) {ram : Ram} {arena : Arena}
    {notices : List Notice}
    (earlier : Ram.Completions c.final.ram c.final.mux.backend.arena ram arena notices)
    {job : Job} (hjob : job ∈ ram.queue) (hforsaken : c.final.Forsaken job.request.mailbox) :
    ram.move arena job.transfer = (ram.contents, arena, false) := by
  have hsteady := earlier.steady
  cases c.tended hqueue hbuffers hbound job (earlier.queue hjob) with
  | @guest t ht may =>
    -- whoever asked for it would still be open, with a mailbox that nobody has
    obtain ⟨j, u, hu, hterms⟩ := ht
    have hsame : t.mailbox = u.mailbox := congrArg Session.Terms.mailbox hterms
    exact absurd (hsame.symm.trans may.mailbox.symm) (hforsaken.nobody hu)
  | left o guest gone =>
    have hshape : ram.shape = c.driver.shape :=
      hsteady.shape.trans (c.lodges hbuffers hbound).shape_eq
    have hblock : ram.blockSize = c.driver.blockSize := congrArg Ram.Shape.blockSize hshape
    exact (gone.of_stock hsteady.stock).move_eq arena guest (hblock.trans guest.blockSize.symm)
      (guest.usesAddresses.trans haddresses) o.asked

/-- A device in memory never hands an address out twice. All buffers that it ever hands out lie
apart, at most one of them has a given address, and taking one back takes only that. So with
sessions that come and go, what a closed one has left in the queue fails whenever it is carried
out, and neither the contents nor anyone's buffer changes. -/
theorem addresses_lasting :
    (∀ (ram : Ram) (arena : Arena) (errands : List Ram.Errand), ram.buffers = [] →
      ram.nextBase % Ram.pageSize = 0 →
        Ram.Lasting (ram.errands arena errands).2.2 (ram.errands arena errands).1) ∧
    ∀ (c : Course Ram) (before after : List Step) (seat : Nat) (s : Session),
      c.driver.queue = [] → c.driver.buffers = [] → c.driver.contents.size ≤ maxWord →
      c.driver.usesAddresses = true → c.steps = before ++ .closeSession seat :: after →
      (c.start.runSteps before).session? seat = some s →
      ∀ (ram : Ram) (arena : Arena) (notices : List Notice),
        Ram.Completions c.final.ram c.final.mux.backend.arena ram arena notices →
        ∀ (job : Job) (rest : List Job), ram.queue = job :: rest →
          job.request.mailbox = s.mailbox →
          ram.completeNext arena = some ({ ram with queue := rest, waiters := [] }, arena,
            .completed job.request false :: ram.waiters.map .ready) := by
  refine ⟨?_, ?_⟩
  · intro ram arena errands hbuffers hnext
    exact ram.lasting_errands arena hbuffers hnext errands
  · intro c before after seat s hqueue hbuffers hbound haddresses hsteps hs ram arena notices
      earlier job rest hjob hmailbox
    have hforsaken := c.forsaken hsteps hs
    rw [← hmailbox] at hforsaken
    have hwaits : job ∈ ram.queue := by rw [hjob]; exact List.mem_cons_self
    -- to carry it out is to take it off the queue and try to move its bytes
    have hmove : ({ ram with queue := rest } : Ram).move arena job.transfer =
        (ram.contents, arena, false) :=
      c.leftover_fails hqueue hbuffers hbound haddresses earlier hwaits hforsaken
    simp only [Ram.completeNext, hjob, Ram.execute, hmove]

/-- Two buffers are handed out, the first is taken back, a third has no bytes, and a fourth is
handed out. -/
def traffic : List Ram.Errand :=
  [.allocate 0x1001, .allocate 16, .release ⟨0, 0x10000000, 0x1001⟩, .allocate 0, .allocate 0x1000]

/-- A session on a device that is handed addresses is closed while its write waits, and another one
is opened on the same window. -/
def stale : Course Ram where
  driver :=
    { contents := Memory.zeroed 128, blockSize := 16, usesAddresses := true, queueDepth := some 1 }
  config := { rules := [{}], queueSize := 4 }
  steps := usurped.steps

theorem addresses_lasting_stale :
    Ram.Lasting (stale.driver.errands {} traffic).2.2 (stale.driver.errands {} traffic).1 ∧
      (stale.driver.errands {} traffic).2.2.map (·.base) = [0x10000000, 0x10002000, 0x10003000] ∧
      ∃ job rest, stale.final.ram.queue = job :: rest ∧
        stale.final.ram.completeNext stale.final.mux.backend.arena =
          some ({ stale.final.ram with queue := rest, waiters := [] },
            stale.final.mux.backend.arena,
            .completed job.request false :: stale.final.ram.waiters.map .ready) := by
  have hopen : ((stale.start.runSteps (stale.steps.take 3)).session? 0).any
      (fun s => s.mailbox == 0) = true := by decide +kernel
  obtain ⟨s, hs, hmailbox⟩ := (Option.any_eq_true _ _).1 hopen
  have hwaits : stale.final.ram.queue.head?.any (fun job => job.request.mailbox == 0) = true := by
    decide +kernel
  obtain ⟨job, hhead, hjob⟩ := (Option.any_eq_true _ _).1 hwaits
  obtain ⟨rest, hqueue⟩ := List.head?_eq_some_iff.1 hhead
  have hsame : job.request.mailbox = s.mailbox :=
    (beq_iff_eq.1 hjob).trans (beq_iff_eq.1 hmailbox).symm
  exact ⟨addresses_lasting.1 stale.driver {} traffic rfl (by decide), by decide +kernel, job, rest,
    hqueue, addresses_lasting.2 stale (stale.steps.take 3) (stale.steps.drop 4) 0 s rfl rfl
      (by decide) rfl rfl hs _ _ _ (.none ..) job rest hqueue hsame⟩

end Course
end BlockMux
