import BlockMux.Device.Ram

/-!
# What a device in memory does

A device in memory answers a transfer in one of four ways, and `Answer` tells with each of them why
it is given and what has changed. What waits in its queue is carried out one after the other:
`Completion` is what happens with the oldest, and `Completions` with any number of them. A step of
the device comes to completions, unless it changes the bytes directly.

What holds of devices in memory follows from these cases; nothing needs to look into the
definitions of `submit`, `completeNext` and `advance` again.

Main statements:

* `answers` — the cases of `submit`.
* `completion` — what the completion of the oldest transfer does.
* `advances` — the cases of `advance`.
-/

namespace BlockMux
namespace Ram

/-- The answers to a transfer. -/
inductive Answer (ram : Ram) (arena : Arena) (t : Transfer) (request : Request) : Reply Ram → Prop
  /-- It leaves the device or touches a bad block. -/
  | refused (unsound : ram.inRange t = false ∨ ram.isBad t = true) :
      Answer ram arena t request ⟨ram, arena, .ioError, []⟩
  /-- The queue is full, so whoever asks waits for room. -/
  | congested {depth : Nat} (inside : ram.inRange t = true) (good : ram.isBad t = false)
      (deep : ram.queueDepth = some depth) (full : depth ≤ ram.queue.length) :
      Answer ram arena t request
        ⟨{ ram with waiters := ram.waiters ++ [request.mailbox] }, arena, .congested, []⟩
  /-- It waits in the queue. -/
  | queued {depth : Nat} (inside : ram.inRange t = true) (good : ram.isBad t = false)
      (deep : ram.queueDepth = some depth) (room : ram.queue.length < depth) :
      Answer ram arena t request
        ⟨{ ram with
            queue := ram.queue ++ [⟨t, request⟩]
            accepted := ram.accepted ++ [t] }, arena, .dispatched, []⟩
  /-- Without a queue it is carried out before the answer. -/
  | atOnce {contents : Memory} {arena' : Arena} {success : Bool} (inside : ram.inRange t = true)
      (good : ram.isBad t = false) (shallow : ram.queueDepth = none)
      (moved : ram.move arena t = (contents, arena', success)) :
      Answer ram arena t request
        ⟨{ ram with contents := contents, accepted := ram.accepted ++ [t] }, arena', .dispatched,
          [.completed request success]⟩

theorem answers (ram : Ram) (arena : Arena) (t : Transfer) (request : Request) :
    ram.Answer arena t request (ram.submit arena t request) := by
  unfold submit
  split
  · rename_i unsound
    exact .refused (by simpa using unsound)
  · rename_i sound
    obtain ⟨inside, good⟩ : ram.inRange t = true ∧ ram.isBad t = false := by simpa using sound
    split
    · rename_i depth deep
      split
      · rename_i full
        exact .congested inside good deep full
      · rename_i room
        exact .queued inside good deep (Nat.lt_of_not_le room)
    · rename_i shallow
      exact .atOnce inside good shallow rfl

/-- A transfer is refused for good only for where it is. -/
theorem Answer.ioError_iff {ram : Ram} {arena : Arena} {t : Transfer} {request : Request}
    {reply : Reply Ram} (h : ram.Answer arena t request reply) :
    reply.outcome = .ioError ↔ ram.inRange t = false ∨ ram.isBad t = true := by
  cases h with
  | refused unsound => simp [unsound]
  | congested inside good => simp [inside, good]
  | queued inside good => simp [inside, good]
  | atOnce inside good => simp [inside, good]

/-- The oldest transfer of the queue is carried out, and whoever waits for room is woken. -/
inductive Completion (ram : Ram) (arena : Arena) : Ram → Arena → List Notice → Prop
  | intro {job : Job} {rest : List Job} {contents : Memory} {arena' : Arena} {success : Bool}
      (oldest : ram.queue = job :: rest)
      (moved : ram.move arena job.transfer = (contents, arena', success)) :
      Completion ram arena { ram with contents := contents, queue := rest, waiters := [] } arena'
        (.completed job.request success :: ram.waiters.map .ready)

variable {ram ram' : Ram} {arena arena' : Arena} {notices : List Notice}

theorem completion (h : ram.completeNext arena = some (ram', arena', notices)) :
    ram.Completion arena ram' arena' notices := by
  unfold completeNext at h
  split at h
  · simp at h
  · rename_i job rest oldest
    simp only [Option.some.injEq, Prod.mk.injEq] at h
    obtain ⟨rfl, rfl, rfl⟩ := h
    exact .intro oldest rfl

/-- Any number of completions, one after the other. -/
inductive Completions : Ram → Arena → Ram → Arena → List Notice → Prop
  | none (ram : Ram) (arena : Arena) : Completions ram arena ram arena []
  | next {ram ram' ram'' : Ram} {arena arena' arena'' : Arena} {notices more : List Notice}
      (first : ram.completeNext arena = some (ram', arena', notices))
      (later : Completions ram' arena' ram'' arena'' more) :
      Completions ram arena ram'' arena'' (notices ++ more)

theorem completions_single (h : ram.completeNext arena = some (ram', arena', notices)) :
    Completions ram arena ram' arena' notices := by
  have hnext := Completions.next h (.none ram' arena')
  rwa [List.append_nil] at hnext

theorem completions_upTo (ram : Ram) (arena : Arena) (limit : Nat) :
    Completions ram arena (ram.completeUpTo arena limit).1 (ram.completeUpTo arena limit).2.1
      (ram.completeUpTo arena limit).2.2.1 := by
  -- on the number of transfers still to carry out
  induction limit generalizing ram arena with
  | zero => exact .none ram arena
  | succ limit ih =>
    rw [completeUpTo]
    split
    · exact .none ram arena
    · rename_i ram' arena' notices hnext
      exact .next hnext (ih ram' arena')

/-- The ends of a step of the device. -/
inductive Advance (ram : Ram) (arena : Arena) (step : DeviceStep) : Progress Ram → Prop
  /-- Someone else changes its bytes. -/
  | poked {pos : Nat} {bytes : List UInt8} (poke : step = .poke pos bytes) :
      Advance ram arena step
        ⟨{ ram with contents := ram.contents.write pos bytes }, arena, [], .done⟩
  /-- As many transfers as the step allows are carried out. -/
  | completed {ram' : Ram} {arena' : Arena} {notices : List Notice} (answer : DeviceAnswer)
      (all : Completions ram arena ram' arena' notices) :
      Advance ram arena step ⟨ram', arena', notices, answer⟩

theorem advances (ram : Ram) (arena : Arena) (step : DeviceStep) :
    ram.Advance arena step (ram.advance arena step) := by
  cases step with
  | poke pos bytes => exact .poked rfl
  | completeNext =>
    simp only [advance]
    split
    · exact .completed _ (.none ram arena)
    · rename_i hnext
      exact .completed _ (completions_single hnext)
  | completeAll => exact .completed _ (ram.completions_upTo arena ram.queue.length)
  | _ => exact .completed _ (.none ram arena)

end Ram
end BlockMux
