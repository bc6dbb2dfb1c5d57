import BlockMux.Device.Backend

/-!
# What arrives in a mailbox

Notices reach only the mailboxes they are for. An open mailbox gets every completion that is for
it, in the order they were sent, and no mailbox comes or goes with a notice.

Main statements:

* `completions_post`, `completions_submit`, `completions_advance` — an open mailbox gains exactly
  the completions that are for it.
* `mailbox_modifyMailbox_ne`, `length_post` — other mailboxes stay.
* `driver_submit`, `arena_submit`, `driver_advance`, `arena_advance` — the rest is the driver's.
-/

namespace BlockMux

/-- The completion that a notice brings to a mailbox. -/
def Notice.completionFor (id : Nat) : Notice → Option Completion
  | .completed request success =>
    if request.mailbox = id then some ⟨request.packet, success⟩ else none
  | .ready _ => none

namespace Backend

variable {δ : Type} {b : Backend δ} {id : Nat}

theorem mailbox_modifyMailbox (h : id < b.mailboxes.length) (f : Mailbox → Mailbox) :
    (b.modifyMailbox id f).mailbox id = f (b.mailbox id) := by
  simp [mailbox, modifyMailbox, List.getElem?_modify_eq, List.getElem?_eq_getElem h]

theorem mailbox_modifyMailbox_ne {other : Nat} (h : other ≠ id) (f : Mailbox → Mailbox) :
    (b.modifyMailbox other f).mailbox id = b.mailbox id := by
  simp only [mailbox, modifyMailbox, List.getElem?_modify_ne _ _ h]

theorem length_modifyMailbox (b : Backend δ) (id : Nat) (f : Mailbox → Mailbox) :
    (b.modifyMailbox id f).mailboxes.length = b.mailboxes.length := by
  simp only [modifyMailbox, List.length_modify]

theorem length_deliver (b : Backend δ) (notice : Notice) :
    (b.deliver notice).mailboxes.length = b.mailboxes.length := by
  cases notice <;> exact length_modifyMailbox _ _ _

theorem post_cons (b : Backend δ) (notice : Notice) (notices : List Notice) :
    b.post (notice :: notices) = (b.deliver notice).post notices := rfl

theorem length_post (b : Backend δ) (notices : List Notice) :
    (b.post notices).mailboxes.length = b.mailboxes.length := by
  induction notices generalizing b with
  | nil => rfl
  | cons notice notices ih => rw [post_cons, ih, length_deliver]

theorem arena_post (b : Backend δ) (notices : List Notice) :
    (b.post notices).arena = b.arena := by
  induction notices generalizing b with
  | nil => rfl
  | cons notice notices ih =>
    rw [post_cons, ih]
    cases notice <;> rfl

theorem completions_deliver (hid : id < b.mailboxes.length) (hopen : (b.mailbox id).isOpen = true)
    (notice : Notice) :
    ((b.deliver notice).mailbox id).isOpen = true ∧
      ((b.deliver notice).mailbox id).completions =
        (b.mailbox id).completions ++ (notice.completionFor id).toList := by
  -- either kind of notice touches one mailbox, and only completions add to one
  cases notice with
  | completed request success =>
    by_cases hfor : request.mailbox = id
    · subst hfor
      simp [deliver, mailbox_modifyMailbox hid, Mailbox.put, hopen, Notice.completionFor]
    · simp [deliver, mailbox_modifyMailbox_ne hfor, Notice.completionFor, hfor, hopen]
  | ready other =>
    by_cases hfor : other = id
    · subst hfor
      simp [deliver, mailbox_modifyMailbox hid, Mailbox.wake, Notice.completionFor, hopen]
    · simp [deliver, mailbox_modifyMailbox_ne hfor, Notice.completionFor, hopen]

theorem completions_post (hid : id < b.mailboxes.length) (hopen : (b.mailbox id).isOpen = true)
    (notices : List Notice) :
    ((b.post notices).mailbox id).isOpen = true ∧
      ((b.post notices).mailbox id).completions =
        (b.mailbox id).completions ++ notices.filterMap (Notice.completionFor id) := by
  induction notices generalizing b with
  | nil => simp [post, hopen]
  | cons notice notices ih =>
    obtain ⟨hopen', hfirst⟩ := completions_deliver hid hopen notice
    have hid' : id < (b.deliver notice).mailboxes.length := by rwa [length_deliver]
    obtain ⟨hopen'', hrest⟩ := ih hid' hopen'
    refine ⟨hopen'', ?_⟩
    rw [post_cons, hrest, hfirst, List.append_assoc, List.filterMap_cons]
    cases notice.completionFor id <;> rfl

theorem mailbox_addMailbox (hid : id < b.mailboxes.length) :
    b.addMailbox.1.mailbox id = b.mailbox id := by
  simp [mailbox, addMailbox, List.getElem?_append_left hid]

theorem mailbox_addMailbox_new (b : Backend δ) :
    b.addMailbox.1.mailbox b.mailboxes.length = {} := by
  simp [mailbox, addMailbox]

theorem length_addMailbox (b : Backend δ) :
    b.addMailbox.1.mailboxes.length = b.mailboxes.length + 1 := by
  simp [addMailbox]

section Driver

variable [Driver δ]

@[simp] theorem driver_submit (b : Backend δ) (t : Transfer) (request : Request) :
    (b.submit t request).1.driver = (Driver.submit b.driver b.arena t request).driver :=
  driver_post _ _

@[simp] theorem arena_submit (b : Backend δ) (t : Transfer) (request : Request) :
    (b.submit t request).1.arena = (Driver.submit b.driver b.arena t request).arena :=
  arena_post _ _

theorem length_submit (b : Backend δ) (t : Transfer) (request : Request) :
    (b.submit t request).1.mailboxes.length = b.mailboxes.length :=
  length_post _ _

theorem completions_submit (hid : id < b.mailboxes.length)
    (hopen : (b.mailbox id).isOpen = true) (t : Transfer) (request : Request) :
    ((b.submit t request).1.mailbox id).isOpen = true ∧
      ((b.submit t request).1.mailbox id).completions = (b.mailbox id).completions ++
        (Driver.submit b.driver b.arena t request).notices.filterMap (Notice.completionFor id) :=
  let reply := Driver.submit b.driver b.arena t request
  completions_post (b := ⟨reply.driver, reply.arena, b.mailboxes⟩) hid hopen reply.notices

theorem mailboxes_allocate {b' : Backend δ} {size : Nat} {buffer : SharedBuffer}
    (h : b.allocate size = some (b', buffer)) : b'.mailboxes = b.mailboxes := by
  obtain ⟨found, -, hfound⟩ := Option.map_eq_some_iff.1 h
  simp only [Prod.mk.injEq] at hfound
  rw [← hfound.1]

end Driver

@[simp] theorem driver_advance [Device δ] (b : Backend δ) (step : DeviceStep) :
    (b.advance step).1.driver = (Device.advance b.driver b.arena step).driver :=
  driver_post _ _

@[simp] theorem arena_advance [Device δ] (b : Backend δ) (step : DeviceStep) :
    (b.advance step).1.arena = (Device.advance b.driver b.arena step).arena :=
  arena_post _ _

theorem length_advance [Device δ] (b : Backend δ) (step : DeviceStep) :
    (b.advance step).1.mailboxes.length = b.mailboxes.length :=
  length_post _ _

theorem completions_advance [Device δ] (hid : id < b.mailboxes.length)
    (hopen : (b.mailbox id).isOpen = true) (step : DeviceStep) :
    ((b.advance step).1.mailbox id).isOpen = true ∧
      ((b.advance step).1.mailbox id).completions = (b.mailbox id).completions ++
        (Device.advance b.driver b.arena step).notices.filterMap (Notice.completionFor id) :=
  let progress := Device.advance b.driver b.arena step
  completions_post (b := ⟨progress.driver, progress.arena, b.mailboxes⟩) hid hopen progress.notices

end Backend
end BlockMux
