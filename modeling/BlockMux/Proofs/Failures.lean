import BlockMux.Proofs.Ownership
import BlockMux.Proofs.Streams

/-!
# What failed transfers leave behind

A transfer that is refused leaves every byte of the device and of the memories alone. So does one
that is carried out and fails, with one exception: a device in memory that is handed a view shorter
than the blocks moves all of the view before it reports a failure. A device on a medium looks at the
length of the view first.

Main statements:

* `Ram.Remains`, `Ram.move_failed` — what a device in memory leaves of a transfer that fails.
* `Ram.Completions.leave` — any number of failures in a row leave everything alone, short views
  apart.
* `failures_leave` — refused and failed transfers on either device.
* `Ram.torn_by_failure` — the exception happens.
-/

namespace BlockMux

/-! ## Short views -/

namespace PayloadView

variable {view : PayloadView} {arena arena' : Arena}

/-- A view that gives too few bytes has no more of them. -/
theorem fetch_short {len : Nat} {bytes : List UInt8} (h : view.fetch arena len = some bytes)
    (hfew : bytes.length ≠ len) :
    view.length < len ∧ view.fetch arena view.length = some bytes ∧ bytes.length = view.length := by
  have hmoved : bytes.length = min len view.length := Ram.length_of_read h
  have hshort : view.length < len := by omega
  refine ⟨hshort, ?_, by omega⟩
  rw [← h, fetch, fetch, Nat.min_eq_right (Nat.le_of_lt hshort), Nat.min_self]

/-- A view that takes too few bytes is full. -/
theorem store_short {bytes : List UInt8} {moved : Nat}
    (h : view.store arena bytes = some (arena', moved)) (hfew : moved ≠ bytes.length) :
    view.length < bytes.length ∧
      view.store arena (bytes.take view.length) = some (arena', moved) ∧ moved = view.length := by
  obtain ⟨written, -, hfound⟩ := Option.map_eq_some_iff.1 h
  have hmoved := (Prod.mk.inj hfound).2.symm
  rw [List.length_take] at hmoved
  refine ⟨by omega, ?_, by omega⟩
  rw [← h, store, store, List.take_take, Nat.min_self]

end PayloadView

/-! ## Devices in memory -/

namespace Ram

/-- What is there after a transfer that has failed. -/
inductive Remains (ram : Ram) (arena : Arena) (t : Transfer) : Memory → Arena → Prop
  /-- Everything is as before. -/
  | whole : Remains ram arena t ram.contents arena
  /-- All of a view shorter than the blocks has been moved. -/
  | torn {payload : PayloadView} {contents : Memory} {arena' : Arena}
      (target : t.target = .view payload) (short : payload.length < t.count * ram.blockSize)
      (moved : ram.moveView arena t.direction (t.block * ram.blockSize) payload.length payload =
        (contents, arena', true)) : Remains ram arena t contents arena'

/-- Whether a transfer is handed a view shorter than its blocks. -/
def Short (ram : Ram) (t : Transfer) : Prop :=
  ∃ payload, t.target = .view payload ∧ payload.length < t.count * ram.blockSize

variable {ram ram' : Ram} {arena arena' : Arena} {t : Transfer} {contents : Memory}
  {notices : List Notice}

theorem Remains.of_whole (hcontents : contents = ram.contents) (harena : arena' = arena) :
    ram.Remains arena t contents arena' := by
  rw [hcontents, harena]
  exact .whole

theorem Remains.of_not_short (h : ram.Remains arena t contents arena') (hlong : ¬ram.Short t) :
    contents = ram.contents ∧ arena' = arena := by
  cases h with
  | whole => exact ⟨rfl, rfl⟩
  | torn target short => exact absurd ⟨_, target, short⟩ hlong

/-- By view a transfer fails because nothing of the view can be reached, or because all of it has
been moved and is not enough. -/
theorem moveView_failed {direction : Direction} {pos len : Nat} {payload : PayloadView}
    (h : ram.moveView arena direction pos len payload = (contents, arena', false)) :
    (contents = ram.contents ∧ arena' = arena) ∨ (payload.length < len ∧
      ram.moveView arena direction pos payload.length payload = (contents, arena', true)) := by
  unfold moveView at h ⊢
  cases direction with
  | write =>
    dsimp only at h ⊢
    split at h
    · simp only [Prod.mk.injEq] at h
      exact .inl ⟨h.1.symm, h.2.1.symm⟩
    · rename_i bytes hfetch
      simp only [Prod.mk.injEq, beq_eq_false_iff_ne] at h
      obtain ⟨rfl, rfl, hfew⟩ := h
      obtain ⟨hshort, hagain, hlength⟩ := PayloadView.fetch_short hfetch hfew
      simp only [hagain, hlength, beq_self_eq_true]
      exact .inr ⟨hshort, trivial⟩
  | read =>
    dsimp only at h ⊢
    split at h
    · simp only [Prod.mk.injEq] at h
      exact .inl ⟨h.1.symm, h.2.1.symm⟩
    · rename_i stored moved hstore
      simp only [Prod.mk.injEq, beq_eq_false_iff_ne] at h
      obtain ⟨rfl, rfl, hfew⟩ := h
      rw [← Memory.length_read ram.contents pos len] at hfew
      obtain ⟨hshort, hagain, hlength⟩ := PayloadView.store_short hstore hfew
      rw [Memory.length_read] at hshort
      rw [Memory.take_read _ (Nat.le_of_lt hshort)] at hagain
      simp only [hagain, hlength, beq_self_eq_true]
      exact .inr ⟨hshort, trivial⟩

/-- By address a transfer fails only if no byte can be reached. -/
theorem moveAddress_failed {direction : Direction} {pos len address : Nat}
    (h : ram.moveAddress arena direction pos len address = (contents, arena', false)) :
    contents = ram.contents ∧ arena' = arena := by
  unfold moveAddress at h
  split at h
  · simp only [Prod.mk.injEq] at h
    exact ⟨h.1.symm, h.2.1.symm⟩
  · cases direction <;> dsimp only at h <;> split at h <;> simp only [Prod.mk.injEq] at h
    · exact ⟨h.1.symm, h.2.1.symm⟩
    · simp at h
    · exact ⟨h.1.symm, h.2.1.symm⟩
    · simp at h

theorem move_failed (h : ram.move arena t = (contents, arena', false)) :
    ram.Remains arena t contents arena' := by
  unfold move at h
  split at h
  · cases htarget : t.target with
    | view payload =>
      simp only [htarget] at h
      rcases moveView_failed h with ⟨hcontents, harena⟩ | ⟨hshort, hmoved⟩
      · exact .of_whole hcontents harena
      · exact .torn htarget hshort hmoved
    | address address =>
      simp only [htarget] at h
      obtain ⟨hcontents, harena⟩ := moveAddress_failed h
      exact .of_whole hcontents harena
  · simp only [Prod.mk.injEq] at h
    exact .of_whole h.1.symm h.2.1.symm

section Answers

variable {request : Request} {reply : Reply Ram}

/-- What is refused has no effect on any byte. -/
theorem Answer.refusal_leaves (h : ram.Answer arena t request reply)
    (hrefused : reply.outcome ≠ .dispatched) :
    reply.driver.contents = ram.contents ∧ reply.arena = arena := by
  cases h with
  | refused => exact ⟨rfl, rfl⟩
  | congested => exact ⟨rfl, rfl⟩
  | queued => exact absurd rfl hrefused
  | atOnce => exact absurd rfl hrefused

theorem Answer.failure_leaves (h : ram.Answer arena t request reply)
    (hfailed : .completed request false ∈ reply.notices) :
    ram.Remains arena t reply.driver.contents reply.arena := by
  cases h with
  | atOnce _ _ _ moved =>
    -- the one notice tells whether the transfer that was just carried out has succeeded
    obtain ⟨-, rfl⟩ := Notice.completed.inj (List.mem_singleton.1 hfailed)
    exact move_failed moved
  | _ => simp at hfailed

end Answers

theorem Completion.failure_leaves (h : ram.Completion arena ram' arena' notices) {job : Job}
    {rest : List Job} (holdest : ram.queue = job :: rest)
    (hfailed : .completed job.request false ∈ notices) :
    ram.Remains arena job.transfer ram'.contents arena' := by
  cases h with
  | intro oldest moved =>
    obtain ⟨rfl, -⟩ := List.cons.inj (oldest.symm.trans holdest)
    rcases List.mem_cons.1 hfailed with hhead | hready
    · obtain ⟨-, rfl⟩ := Notice.completed.inj hhead
      exact move_failed moved
    · -- whoever waited for room is told nothing about requests
      obtain ⟨id, -, hid⟩ := List.mem_map.1 hready
      simp at hid

/-- Failures in a row leave everything alone, unless a view is too short. -/
theorem Completions.leave (h : Completions ram arena ram' arena' notices)
    (hfailed : ∀ request, .completed request true ∉ notices)
    (hlong : ∀ job ∈ ram.queue, ¬ram.Short job.transfer) :
    ram'.contents = ram.contents ∧ arena' = arena := by
  induction h with
  | none => exact ⟨rfl, rfl⟩
  | next first _ ih =>
    cases completion first with
    | @intro job rest contents arena₁ success oldest moved =>
      have hsuccess : success = false := by
        cases success with
        | false => rfl
        | true => exact absurd (List.mem_append_left _ List.mem_cons_self) (hfailed job.request)
      rw [hsuccess] at moved
      rw [oldest] at hlong
      obtain ⟨rfl, rfl⟩ := (move_failed moved).of_not_short (hlong job List.mem_cons_self)
      exact ih (fun request hmem => hfailed request (List.mem_append_right _ hmem))
        fun other hother => hlong other (List.mem_cons_of_mem _ hother)

end Ram

/-! ## Devices on a medium -/

namespace StreamDevice

variable {μ : Type} [Medium μ]

/-- What a device has come to when it was asked for transfers, flushed and otherwise used. -/
inductive Reached (start : StreamDevice μ) : StreamDevice μ → Prop
  | start : Reached start start
  | submit {device : StreamDevice μ} (h : Reached start device) (arena : Arena) (t : Transfer)
      (request : Request) : Reached start (device.submit arena t request).driver
  | sync {device : StreamDevice μ} (h : Reached start device) : Reached start device.sync
  | advance {device : StreamDevice μ} (h : Reached start device) (arena : Arena)
      (step : DeviceStep) : Reached start (device.advance arena step).driver

variable [LawfulMedium μ] {start device : StreamDevice μ} {blockSize blockCount : Nat}
  {arena : Arena} {t : Transfer} {payload : PayloadView} {after : μ}

theorem Reached.holds (h : start.Reached device) (hstart : start.Holds blockSize blockCount) :
    device.Holds blockSize blockCount := by
  have hprompt := prompt (μ := μ) blockSize blockCount
  induction h with
  | start => exact hstart
  | submit _ arena t request ih => exact hprompt.submit ih arena t request
  | sync _ ih => exact hprompt.sync ih
  | advance _ arena step ih => exact hprompt.advance ih arena step

theorem readIn_failed {pos len : Nat} (hinside : pos + len ≤ (Medium.contents device.medium).size)
    (h : device.readIn arena pos len payload = (none, after)) :
    Medium.contents after = Medium.contents device.medium := by
  unfold readIn at h
  split at h
  · rename_i hread
    rw [← (Prod.mk.inj h).2]
    exact LawfulMedium.read_error hread
  · rename_i hread
    rw [← (Prod.mk.inj h).2]
    exact (LawfulMedium.read_ok hinside hread).2

theorem writeOut_failed {pos len : Nat}
    (h : device.writeOut arena pos len payload = (none, after)) :
    Medium.contents after = Medium.contents device.medium := by
  unfold writeOut at h
  split at h
  · rw [← (Prod.mk.inj h).2]
  · split at h
    · rename_i hwrite
      rw [← (Prod.mk.inj h).2]
      exact LawfulMedium.write_error hwrite
    · simp at h

/-- A transfer that fails has not come to the medium, or the medium has failed. -/
theorem Holds.transfer_failed (hholds : device.Holds blockSize blockCount)
    (h : device.transfer arena t payload = (none, after)) :
    Medium.contents after = Medium.contents device.medium := by
  simp only [transfer, hholds.blockSize_eq, hholds.blockCount_eq] at h
  split at h
  · rw [← (Prod.mk.inj h).2]
  · rename_i hserved
    have hinside := hholds.inside t.block t.count (by omega)
    cases hdirection : t.direction with
    | read =>
      rw [hdirection] at h
      exact readIn_failed hinside h
    | write =>
      rw [hdirection] at h
      exact writeOut_failed h

theorem Holds.refusal_leaves (hholds : device.Holds blockSize blockCount) {request : Request}
    (hrefused : (device.submit arena t request).outcome ≠ .dispatched) :
    Medium.contents (device.submit arena t request).driver.medium = Medium.contents device.medium ∧
      (device.submit arena t request).arena = arena := by
  unfold StreamDevice.submit at hrefused ⊢
  split
  · exact ⟨rfl, rfl⟩
  · rename_i target
    split
    · rename_i htransfer
      exact ⟨hholds.transfer_failed htransfer, rfl⟩
    · rename_i htransfer
      simp [target, htransfer] at hrefused

omit [LawfulMedium μ] in
/-- What a device on a medium completes has succeeded. -/
theorem submit_succeeds (device : StreamDevice μ) (arena : Arena) (t : Transfer)
    (request other : Request) :
    .completed other false ∉ (device.submit arena t request).notices := by
  unfold submit
  split
  · simp
  · split <;> simp

end StreamDevice

/-! ## Both -/

/-- A request that is refused, or completed without success, leaves all bytes of the device and of
the memories as they were, except that a device in memory moves all of a view that is shorter than
the blocks before it reports the failure. -/
theorem failures_leave {μ : Type} [Medium μ] [LawfulMedium μ] (ram : Ram) (medium : μ)
    (blockSize : Nat) (arena : Arena) :
    (∀ (t : Transfer) (request : Request), (ram.submit arena t request).outcome ≠ .dispatched →
      (ram.submit arena t request).driver.contents = ram.contents ∧
        (ram.submit arena t request).arena = arena) ∧
    (∀ (t : Transfer) (request : Request),
      .completed request false ∈ (ram.submit arena t request).notices →
        ram.Remains arena t (ram.submit arena t request).driver.contents
          (ram.submit arena t request).arena) ∧
    (∀ (ram' : Ram) (arena' : Arena) (notices : List Notice) (job : Job) (rest : List Job),
      ram.queue = job :: rest → ram.completeNext arena = some (ram', arena', notices) →
      .completed job.request false ∈ notices →
        ram.Remains arena job.transfer ram'.contents arena') ∧
    (∀ (ram' : Ram) (arena' : Arena) (notices : List Notice),
      Ram.Completions ram arena ram' arena' notices →
      (∀ request, .completed request true ∉ notices) →
      (∀ job ∈ ram.queue, ¬ram.Short job.transfer) →
        ram'.contents = ram.contents ∧ arena' = arena) ∧
    ∀ (start device : StreamDevice μ), StreamDevice.create medium blockSize = .ok start →
      start.Reached device → ∀ (t : Transfer) (request : Request),
        ((device.submit arena t request).outcome ≠ .dispatched →
          Medium.contents (device.submit arena t request).driver.medium =
              Medium.contents device.medium ∧
            (device.submit arena t request).arena = arena) ∧
        ∀ other, .completed other false ∉ (device.submit arena t request).notices := by
  refine ⟨fun t request => (ram.answers arena t request).refusal_leaves,
    fun t request => (ram.answers arena t request).failure_leaves, ?_, ?_, ?_⟩
  · intro ram' arena' notices job rest holdest hnext hfailed
    exact (Ram.completion hnext).failure_leaves holdest hfailed
  · intro ram' arena' notices hall hfailed hlong
    exact hall.leave hfailed hlong
  · intro start device hmade hreached t request
    have hholds := hreached.holds (StreamDevice.holds_of_create hmade).2
    exact ⟨hholds.refusal_leaves, device.submit_succeeds arena t request⟩

namespace Ram

/-- Four empty blocks. -/
def blank : Ram where
  contents := .zeroed 64
  blockSize := 16

/-- A buffer whose bytes are all 0xaa. -/
def filled : Arena := ⟨[⟨64, Array.replicate 64 170⟩]⟩

/-- The write of a whole block from half as many bytes. -/
def halfWrite : Transfer := ⟨.write, 0, 1, .view ⟨⟨0, 0x10000000, 64⟩, 0, 8⟩⟩

/-- The write of a block from an address that belongs to no buffer. -/
def lostWrite : Transfer := ⟨.write, 1, 1, .address 0x1000⟩

/-- The same blocks with a write that waits. -/
def waiting (t : Transfer) : Ram :=
  { blank with queueDepth := some 1, queue := [⟨t, ⟨⟨.write, 0, 1, 0, 8, false⟩, 0⟩⟩] }

/-- What is reported to have failed may have changed the device: eight bytes of a block are written
when the view has no more. -/
theorem torn_by_failure :
    ¬∀ (ram : Ram) (arena : Arena) (t : Transfer) (request : Request),
      .completed request false ∈ (ram.submit arena t request).notices →
        (ram.submit arena t request).driver.contents = ram.contents ∧
          (ram.submit arena t request).arena = arena := by
  intro h
  have hwhole := h blank filled halfWrite ⟨⟨.write, 0, 1, 0, 8, false⟩, 0⟩ (by decide +kernel)
  have htorn : (blank.submit filled halfWrite ⟨⟨.write, 0, 1, 0, 8, false⟩, 0⟩).driver.contents ≠
      blank.contents := by decide +kernel
  exact htorn hwhole.1

end Ram

/-- Four empty blocks on a medium that cannot be written in the second of them. -/
def scratched : StreamDevice Image where
  medium := { contents := .zeroed 64, badWrite := some (16, 32) }
  blockSize := 16
  blockCount := 4

/-- The write of a block that cannot be written. -/
def scratchedWrite : Transfer := ⟨.write, 1, 1, .view ⟨⟨0, 0x10000000, 64⟩, 0, 16⟩⟩

/-- A device in memory is asked for a block beyond the end, handed a view that is too short, at once
and later, and an address without a buffer; a medium cannot be written. -/
theorem failures_leave_scratched :
    let half : Request := ⟨⟨.write, 0, 1, 0, 8, false⟩, 0⟩
    (Ram.blank.submit Ram.filled { Ram.halfWrite with block := 4 } half).driver.contents =
        Ram.blank.contents ∧
      Ram.blank.Remains Ram.filled Ram.halfWrite
        (Ram.blank.submit Ram.filled Ram.halfWrite half).driver.contents
        (Ram.blank.submit Ram.filled Ram.halfWrite half).arena ∧
      (Ram.waiting Ram.halfWrite).Remains Ram.filled Ram.halfWrite
        ((Ram.waiting Ram.halfWrite).completeUpTo Ram.filled 1).1.contents
        ((Ram.waiting Ram.halfWrite).completeUpTo Ram.filled 1).2.1 ∧
      ((Ram.waiting Ram.lostWrite).completeUpTo Ram.filled 1).1.contents = Ram.blank.contents ∧
      Medium.contents (scratched.submit Ram.filled scratchedWrite half).driver.medium =
        Medium.contents scratched.medium := by
  intro half
  have hleave := fun ram => failures_leave ram scratched.medium 16 Ram.filled
  obtain ⟨hrefused, hfailed, -, -, hstream⟩ := hleave Ram.blank
  obtain ⟨-, -, hnext, -⟩ := hleave (Ram.waiting Ram.halfWrite)
  obtain ⟨-, -, -, hall, -⟩ := hleave (Ram.waiting Ram.lostWrite)
  refine ⟨(hrefused { Ram.halfWrite with block := 4 } half (by decide +kernel)).1,
    hfailed Ram.halfWrite half (by decide +kernel), ?_, ?_,
    ((hstream scratched scratched rfl .start scratchedWrite half).1 (by decide +kernel)).1⟩
  · have hdone : (Ram.waiting Ram.halfWrite).completeNext Ram.filled =
        some (((Ram.waiting Ram.halfWrite).completeUpTo Ram.filled 1).1,
          ((Ram.waiting Ram.halfWrite).completeUpTo Ram.filled 1).2.1,
          [.completed half false]) := by decide +kernel
    exact hnext _ _ _ ⟨Ram.halfWrite, half⟩ [] rfl hdone List.mem_cons_self
  · have hnotices : ((Ram.waiting Ram.lostWrite).completeUpTo Ram.filled 1).2.2.1 =
        [.completed half false] := by decide +kernel
    refine (hall _ _ _ (Ram.completions_upTo (Ram.waiting Ram.lostWrite) Ram.filled 1) ?_ ?_).1
    · simp [hnotices]
    · simp [Ram.waiting, Ram.Short, Ram.lostWrite]

end BlockMux
