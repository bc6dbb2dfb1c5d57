import BlockMux.Device.StreamDevice
import BlockMux.Device.Scripted
import BlockMux.Proofs.Completions
import Mathlib.Data.List.Perm.Basic

/-!
# Drivers that settle each request at most once

A driver either refuses a request or takes it into its custody, and reports each request in its
custody at most once. `Custody` says so of every step of a device, with a relation between its
states and the requests it holds; in between it may keep them as it likes.

Main statements:

* `Ram.custody`, `StreamDevice.custody`, `Scripted.custody` — the devices at hand keep custody.
-/

namespace BlockMux

/-- The request that a notice reports as finished. -/
def Notice.finished? : Notice → Option Request
  | .completed request _ => some request
  | .ready _ => none

/-- The requests that notices report as finished, in order. -/
def Notice.finished (notices : List Notice) : List Request := notices.filterMap Notice.finished?

/-- The requests that the driver takes with this answer. -/
def Request.takenWith (request : Request) : Outcome → List Request
  | .dispatched => [request]
  | _ => []

/-- The device settles each request at most once: whatever it reports as finished is a request it
has just taken or held before, and what is left it still holds. -/
structure Custody (δ : Type) [Device δ] where
  /-- Which requests a device holds. -/
  Holds : δ → List Request → Prop
  submit : ∀ {d held}, Holds d held → ∀ arena t request,
    ∃ held', Holds (Driver.submit d arena t request).driver held' ∧
      (Notice.finished (Driver.submit d arena t request).notices ++ held').Perm
        (request.takenWith (Driver.submit d arena t request).outcome ++ held)
  advance : ∀ {d held}, Holds d held → ∀ arena step,
    ∃ held', Holds (Device.advance d arena step).driver held' ∧
      (Notice.finished (Device.advance d arena step).notices ++ held').Perm held
  sync : ∀ {d held}, Holds d held → Holds (Driver.sync d) held
  allocate : ∀ {d held arena size d' arena' buffer}, Holds d held →
    Driver.allocate d arena size = some (d', arena', buffer) → Holds d' held
  release : ∀ {d held}, Holds d held → ∀ buffer, Holds (Driver.release d buffer) held

theorem Notice.finished_append (l l' : List Notice) :
    finished (l ++ l') = finished l ++ finished l' :=
  List.filterMap_append

/-- Waking sessions finishes nothing. -/
theorem Notice.finished_ready (ids : List Nat) : finished (ids.map .ready) = [] := by
  induction ids with
  | nil => rfl
  | cons id ids ih => exact ih

/-! ## Devices on media -/

namespace StreamDevice

/-- A device on a medium holds nothing: every request is finished before the answer, or refused. -/
def custody {μ : Type} [Medium μ] : Custody (StreamDevice μ) where
  Holds _ held := held = []
  submit := by
    rintro d held rfl arena t request
    refine ⟨[], rfl, ?_⟩
    show (Notice.finished (d.submit arena t request).notices ++ []).Perm
      (request.takenWith (d.submit arena t request).outcome ++ [])
    unfold submit
    split
    · exact .refl _
    · split <;> exact .refl _
  advance := by
    rintro d held rfl arena step
    refine ⟨[], rfl, ?_⟩
    show (Notice.finished (d.advance arena step).notices ++ []).Perm []
    unfold advance
    split <;> exact .refl _
  sync h := h
  allocate h _ := h
  release h _ := h

end StreamDevice

/-! ## Memory-backed devices -/

namespace Ram

/-- The requests in the queue. -/
def heldRequests (ram : Ram) : List Request := ram.queue.map (·.request)

variable {ram ram' : Ram} {arena arena' : Arena} {notices : List Notice}

theorem Answer.held {t : Transfer} {request : Request} {reply : Reply Ram}
    (h : ram.Answer arena t request reply) :
    (Notice.finished reply.notices ++ reply.driver.heldRequests).Perm
      (request.takenWith reply.outcome ++ ram.heldRequests) := by
  cases h with
  | refused => exact .refl _
  | congested => exact .refl _
  | queued =>
    -- the request joins the end of the queue; the law counts it in front
    simp only [heldRequests, List.map_append]
    show (ram.queue.map (·.request) ++ [request]).Perm ([request] ++ ram.queue.map (·.request))
    exact List.perm_append_comm
  | atOnce => exact .refl _

theorem Completion.held (h : ram.Completion arena ram' arena' notices) :
    Notice.finished notices ++ ram'.heldRequests = ram.heldRequests := by
  cases h with
  | @intro job rest _ _ _ oldest =>
    -- one request is finished; whoever waited for room is only woken
    show job.request :: Notice.finished (ram.waiters.map .ready) ++ rest.map (·.request) = _
    rw [Notice.finished_ready, heldRequests, oldest]
    rfl

theorem Completions.held (h : Completions ram arena ram' arena' notices) :
    Notice.finished notices ++ ram'.heldRequests = ram.heldRequests := by
  induction h with
  | none => rfl
  | next first _ ih => rw [Notice.finished_append, List.append_assoc, ih, (completion first).held]

/-- What a step of the device finishes is the front of what it held. -/
theorem Advance.held {step : DeviceStep} {progress : Progress Ram}
    (h : ram.Advance arena step progress) :
    Notice.finished progress.notices ++ progress.driver.heldRequests = ram.heldRequests := by
  cases h with
  | poked => rfl
  | completed _ all => exact all.held

/-- A device in memory holds the requests in its queue. -/
def custody : Custody Ram where
  Holds ram held := held = ram.heldRequests
  submit := by
    rintro ram held rfl arena t request
    exact ⟨_, rfl, (ram.answers arena t request).held⟩
  advance := by
    rintro ram held rfl arena step
    exact ⟨_, rfl, .of_eq (ram.advances arena step).held⟩
  sync h := h
  allocate := by
    rintro ram held arena size ram' arena' buffer rfl h
    obtain ⟨found, -, hfound⟩ := Option.map_eq_some_iff.1 h
    simp only [Prod.mk.injEq] at hfound
    rw [← hfound.1]
    rfl
  release h _ := h

end Ram

/-! ## Scripted devices -/

namespace Scripted

/-- The requests taken for later that are not completed yet. -/
def heldRequests (device : Scripted) : List Request := device.held.filterMap id

theorem held_follow (device : Scripted) (arena : Arena) (t : Transfer) (request : Request) :
    (Notice.finished (device.follow arena t request).notices ++
        (device.follow arena t request).driver.heldRequests).Perm
      (request.takenWith (device.follow arena t request).outcome ++ device.heldRequests) := by
  unfold follow
  cases device.script.headD .ok with
  | hold =>
    simp only [heldRequests, List.filterMap_append]
    show (device.held.filterMap id ++ [request]).Perm ([request] ++ device.held.filterMap id)
    exact List.perm_append_comm
  | _ => exact .refl _

/-- Completing a held request takes it out of what is held. -/
theorem held_set {held : List (Option Request)} {position : Nat} {request : Request}
    (h : held[position]? = some (some request)) :
    (request :: (held.set position none).filterMap id).Perm (held.filterMap id) := by
  -- the request at the position becomes an empty place, which counts for nothing
  induction held generalizing position with
  | nil => simp at h
  | cons first held ih =>
    cases position with
    | zero =>
      obtain rfl : first = some request := by simpa using h
      exact .refl _
    | succ position =>
      have hrest : (request :: (held.set position none).filterMap id).Perm (held.filterMap id) :=
        ih (by simpa using h)
      cases first with
      | none => exact hrest
      | some other => exact (List.Perm.swap _ _ _).trans (hrest.cons other)

/-- A scripted device holds what it took for later and has not completed. -/
def custody : Custody Scripted where
  Holds device held := held = device.heldRequests
  submit := by
    rintro device held rfl arena t request
    refine ⟨_, rfl, ?_⟩
    show (Notice.finished (device.submit arena t request).notices ++
      (device.submit arena t request).driver.heldRequests).Perm
        (request.takenWith (device.submit arena t request).outcome ++ device.heldRequests)
    unfold submit
    split
    · exact device.held_follow arena t request
    · split
      · exact device.held_follow arena t request
      · exact .refl _
  advance := by
    rintro device held rfl arena step
    refine ⟨_, rfl, ?_⟩
    show (Notice.finished (device.advance arena step).notices ++
      (device.advance arena step).driver.heldRequests).Perm device.heldRequests
    cases step with
    | finish position success =>
      -- a held request can be finished only once: its place is emptied then
      simp only [advance, finish]
      split
      · exact .refl _
      · rename_i hfinish
        split at hfinish
        · rename_i request hheld
          simp only [Option.some.injEq, Prod.mk.injEq] at hfinish
          obtain ⟨rfl, rfl⟩ := hfinish
          exact held_set hheld
        · simp at hfinish
    | wakeAll =>
      show (Notice.finished (device.waiters.map .ready) ++ device.heldRequests).Perm _
      rw [Notice.finished_ready]
      exact .refl _
    | _ => exact .refl _
  sync := by
    rintro device held rfl
    show device.heldRequests = device.sync.heldRequests
    unfold sync
    split <;> rfl
  allocate := by
    rintro device held arena size device' arena' buffer rfl h
    replace h : device.allocate arena size = some (device', arena', buffer) := h
    unfold allocate at h
    split at h
    · simp at h
    · obtain ⟨found, -, hfound⟩ := Option.map_eq_some_iff.1 h
      simp only [Prod.mk.injEq] at hfound
      rw [← hfound.1]
  release h _ := h

end Scripted
end BlockMux
