import BlockMux.Proofs.Accounts
import BlockMux.Proofs.Custody

/-!
# Sessions that come and go

Where sessions are also closed, the queue of a device in memory may hold what a session asked for
that is gone, so the device no longer houses everyone it works for. Apart from its queue it does:
transfers change neither the shape of the device nor the buffers and the sizes of memories, and what
openings and closings do to the buffers the accounts tell.

Main statements:

* `Steady` — what transfers leave as it is; `Answer.steady`, `Advance.steady`,
  `Acts.steady`.
* `Houses.depart` — a device goes on housing those whose buffers it has kept.
* `Fits` — a device without a queue holds nothing back.
* `Course.lodges` — along every course of events the device, apart from its queue, houses the open
  sessions; `Course.houses` — and with its queue, if it was made without one.
-/

namespace BlockMux

namespace Ram

/-! ## What transfers leave as it is -/

/-- The shape, the buffers handed out and the sizes of the memories are as before. -/
structure Steady (ram : Ram) (arena : Arena) (ram' : Ram) (arena' : Arena) : Prop where
  shape : ram'.shape = ram.shape
  stock : ram'.stock = ram.stock
  sizes : arena'.sizes = arena.sizes

namespace Steady

variable {ram ram' ram'' : Ram} {arena arena' arena'' : Arena}

theorem refl (ram : Ram) (arena : Arena) : Steady ram arena ram arena := ⟨rfl, rfl, rfl⟩

theorem trans (h : Steady ram arena ram' arena') (h' : Steady ram' arena' ram'' arena'') :
    Steady ram arena ram'' arena'' :=
  ⟨h'.shape.trans h.shape, h'.stock.trans h.stock, h'.sizes.trans h.sizes⟩

end Steady

theorem sizes_store {view : PayloadView} {arena arena' : Arena} {bytes : List UInt8} {moved : Nat}
    (h : view.store arena bytes = some (arena', moved)) : arena'.sizes = arena.sizes := by
  obtain ⟨after, hwrite, heq⟩ := Option.map_eq_some_iff.1 h
  obtain ⟨rfl, -⟩ := Prod.mk.inj heq
  exact (Arena.filled_write hwrite).sizes

/-- Carrying a transfer out, whether it succeeds or not, changes no size. -/
theorem sizes_move (ram : Ram) (arena : Arena) (t : Transfer) :
    (ram.move arena t).1.size = ram.contents.size ∧
      (ram.move arena t).2.1.sizes = arena.sizes := by
  unfold move
  -- by view or by address, bytes are overwritten where they are or nothing is done
  split
  · cases t.target with
    | view payload =>
      dsimp only
      unfold moveView
      cases t.direction with
      | read =>
        dsimp only
        split
        · exact ⟨rfl, rfl⟩
        · rename_i hstore
          exact ⟨rfl, sizes_store hstore⟩
      | write =>
        dsimp only
        split
        · exact ⟨rfl, rfl⟩
        · exact ⟨Memory.size_write .., rfl⟩
    | address address =>
      dsimp only
      unfold moveAddress
      split
      · exact ⟨rfl, rfl⟩
      · cases t.direction with
        | read =>
          dsimp only
          split
          · exact ⟨rfl, rfl⟩
          · rename_i hwrite
            exact ⟨rfl, (Arena.filled_write hwrite).sizes⟩
        | write =>
          dsimp only
          split
          · exact ⟨rfl, rfl⟩
          · exact ⟨Memory.size_write .., rfl⟩
  · exact ⟨rfl, rfl⟩

/-- New contents of the same size make no other device. -/
theorem Steady.of_size (ram : Ram) {ram' : Ram} {arena arena' : Arena}
    (hsize : ram'.contents.size = ram.contents.size) (hsizes : arena'.sizes = arena.sizes)
    (hshape : ram'.shape = { ram.shape with size := ram'.contents.size })
    (hstock : ram'.stock = ram.stock) : Steady ram arena ram' arena' := by
  refine ⟨?_, hstock, hsizes⟩
  rw [hshape, hsize]
  rfl

theorem Answer.steady {ram : Ram} {arena : Arena} {t : Transfer} {request : Request}
    {reply : Reply Ram} (h : ram.Answer arena t request reply) :
    Steady ram arena reply.driver reply.arena := by
  cases h with
  | refused => exact .refl ram arena
  | congested => exact ⟨rfl, rfl, rfl⟩
  | queued => exact ⟨rfl, rfl, rfl⟩
  | atOnce _ _ _ moved =>
    obtain ⟨hsize, hsizes⟩ := ram.sizes_move arena t
    rw [moved] at hsize hsizes
    exact .of_size ram hsize hsizes rfl rfl

theorem Completion.steady {ram ram' : Ram} {arena arena' : Arena} {notices : List Notice}
    (h : ram.Completion arena ram' arena' notices) : Steady ram arena ram' arena' := by
  cases h with
  | @intro job _ _ _ _ _ moved =>
    obtain ⟨hsize, hsizes⟩ := ram.sizes_move arena job.transfer
    rw [moved] at hsize hsizes
    exact .of_size ram hsize hsizes rfl rfl

theorem Completions.steady {ram ram' : Ram} {arena arena' : Arena} {notices : List Notice}
    (h : Completions ram arena ram' arena' notices) : Steady ram arena ram' arena' := by
  induction h with
  | none ram arena => exact .refl ram arena
  | next first _ ih => exact (completion first).steady.trans ih

theorem Advance.steady {ram : Ram} {arena : Arena} {step : DeviceStep} {progress : Progress Ram}
    (h : ram.Advance arena step progress) : Steady ram arena progress.driver progress.arena := by
  cases h with
  | poked => exact .of_size ram (Memory.size_write ..) rfl rfl rfl
  | completed _ all => exact all.steady

/-! ## The device apart from its queue -/

/-- The device without what waits in its queue. -/
def emptied (ram : Ram) : Ram := { ram with queue := [] }

variable {shape : Shape} {guests guests' : Session → Prop} {ram ram' : Ram} {arena arena' : Arena}

theorem Houses.steady (h : Houses shape guests ram.emptied arena)
    (hsteady : Steady ram arena ram' arena') : Houses shape guests ram'.emptied arena' := by
  obtain ⟨hbuffers, hbase⟩ := Prod.mk.inj hsteady.stock
  have hshape : ram'.emptied.shape = ram.emptied.shape := hsteady.shape
  refine ⟨hshape.trans h.shape_eq, ?_, ?_, ?_, ?_, h.guest, ?_, by simp [emptied], fun _ => rfl⟩
  · show ∀ buffer ∈ ram'.buffers, buffer.stop ≤ ram'.nextBase
    rw [hbuffers, hbase]
    exact h.below
  · show ram'.buffers.Pairwise _
    rw [hbuffers]
    exact h.apart
  · show ∀ buffer ∈ ram'.buffers, 1 ≤ buffer.size
    rw [hbuffers]
    exact h.size_pos
  · show ∀ buffer ∈ ram'.buffers, _
    rw [hbuffers, hsteady.sizes]
    exact h.backed
  · show ∀ s, guests s → s.channel.buffer ∈ ram'.buffers
    rw [hbuffers]
    exact h.buffer

theorem allocate_emptied {size : Nat} {buffer : SharedBuffer}
    (h : ram.allocate arena size = some (ram', arena', buffer)) :
    ram.emptied.allocate arena size = some (ram'.emptied, arena', buffer) := by
  obtain ⟨⟨mapped, found⟩, hmap, heq⟩ := Option.map_eq_some_iff.1 h
  simp only [Prod.mk.injEq] at heq
  obtain ⟨rfl, rfl, rfl⟩ := heq
  exact Option.map_eq_some_iff.2 ⟨_, hmap, rfl⟩

/-- When a buffer is taken back, the device goes on housing those whose buffers it has kept. -/
theorem Houses.depart (h : Houses shape guests ram.emptied arena) {buffer : SharedBuffer}
    (hfewer : ∀ s, guests' s → guests s)
    (hkept : ∀ s, guests' s → s.channel.buffer ∈ (ram.release buffer).buffers) :
    Houses shape guests' (ram.release buffer).emptied arena := by
  have hsub : ∀ other ∈ (ram.release buffer).buffers, other ∈ ram.buffers :=
    fun other hother => (List.mem_filter.1 hother).1
  exact ⟨h.shape_eq, fun other hother => h.below other (hsub other hother), h.apart.filter _,
    fun other hother => h.size_pos other (hsub other hother),
    fun other hother => h.backed other (hsub other hother), fun s hs => h.guest s (hfewer s hs),
    hkept, by simp [emptied], fun _ => rfl⟩

/-! ## Nothing held back -/

/-- The device is one of this shape, and holds nothing back if it has no queue. -/
structure Fits (shape : Shape) (ram : Ram) : Prop where
  shape_eq : ram.shape = shape
  idle : shape.queueDepth = none → ram.heldRequests = []

theorem Fits.answer {t : Transfer} {request : Request} {reply : Reply Ram} (h : ram.Fits shape)
    (hanswer : ram.Answer arena t request reply) : reply.driver.Fits shape := by
  refine ⟨hanswer.steady.shape.trans h.shape_eq, fun hdepth => ?_⟩
  have hnone : ram.queueDepth = none :=
    (congrArg Shape.queueDepth h.shape_eq).trans hdepth
  cases hanswer with
  | queued _ _ deep => simp [hnone] at deep
  | _ => exact h.idle hdepth

theorem Fits.advance {step : DeviceStep} {progress : Progress Ram} (h : ram.Fits shape)
    (hadvance : ram.Advance arena step progress) : progress.driver.Fits shape := by
  refine ⟨hadvance.steady.shape.trans h.shape_eq, fun hdepth => ?_⟩
  have hheld := hadvance.held
  rw [h.idle hdepth] at hheld
  exact (List.append_eq_nil_iff.1 hheld).2

end Ram

/-! ## Sessions at work -/

namespace Backend

variable {shape : Ram.Shape} {id : Nat} {b b' : Backend (Recorded Ram)}

theorem fits_submit (hfits : b.driver.driver.Fits shape) (t : Transfer) (request : Request) :
    (b.submit t request).1.driver.driver.Fits shape := by
  rw [driver_submit]
  exact hfits.answer (Ram.answers ..)

theorem fits_foreign (hfits : b.driver.driver.Fits shape) (h : Foreign id b b') :
    b'.driver.driver.Fits shape := by
  cases h with
  | submit t other => exact fits_submit hfits t _
  | advance step =>
    rw [driver_advance]
    exact hfits.advance (Ram.advances ..)
  | allocate h =>
    obtain ⟨-, -, hram, -⟩ := Ram.allocate_eq_some (allocate_ram h).1
    rw [hram]
    exact ⟨hfits.shape_eq, hfits.idle⟩
  | _ => exact ⟨hfits.shape_eq, hfits.idle⟩

theorem fits_foreigns (hfits : b.driver.driver.Fits shape) (h : Foreigns id b b') :
    b'.driver.driver.Fits shape := by
  induction h with
  | refl => exact hfits
  | tail _ last ih => exact fits_foreign ih last

end Backend

theorem Session.Acts.steady {s s' : Session} {b b' : Backend (Recorded Ram)}
    (acts : s.Acts b s' b') :
    Ram.Steady b.driver.driver b.arena b'.driver.driver b'.arena := by
  refine acts.backend (P := fun c : Backend (Recorded Ram) =>
    Ram.Steady b.driver.driver b.arena c.driver.driver c.arena)
    (fun _ _ hc => hc) (fun hc => hc) ?_ (.refl _ _)
  intro c t packet _ hc
  rw [Backend.driver_submit, Backend.arena_submit]
  exact hc.trans (Ram.answers ..).steady

theorem Session.Acts.fits {shape : Ram.Shape} {s s' : Session} {b b' : Backend (Recorded Ram)}
    (hfits : b.driver.driver.Fits shape) (acts : s.Acts b s' b') :
    b'.driver.driver.Fits shape :=
  acts.backend (P := fun c : Backend (Recorded Ram) => c.driver.driver.Fits shape)
    (fun _ _ hc => hc) (fun hc => hc) (fun _ hc => Backend.fits_submit hc _ _) hfits

/-! ## Along a course -/

namespace System

variable {shape : Ram.Shape} {sys sys' : System (Recorded Ram)} {step : Step} {answer : Answer}

/-- The device of a system, without its log. -/
def ram (sys : System (Recorded Ram)) : Ram := sys.mux.backend.driver.driver

/-- What a step of the device leaves. -/
theorem ram_advance (sys : System (Recorded Ram)) (step : DeviceStep) :
    (sys.mux.backend.advance step).1.driver.driver =
        (sys.ram.advance sys.mux.backend.arena step).driver ∧
      (sys.mux.backend.advance step).1.arena =
        (sys.ram.advance sys.mux.backend.arena step).arena := by
  rw [Backend.driver_advance, Backend.arena_advance]
  exact ⟨rfl, rfl⟩

/-- The device, apart from what waits in its queue, houses the open sessions. -/
def Lodges (shape : Ram.Shape) (sys : System (Recorded Ram)) : Prop :=
  Ram.Houses shape sys.guests sys.ram.emptied sys.mux.backend.arena

/-- An open session has one of the buffers that the device has handed out. -/
theorem Accounts.buffer (h : (sys.map Recorded.driver).Accounts) {s : Session}
    (hs : sys.guests s) : s.channel.buffer ∈ sys.ram.buffers := by
  obtain ⟨seat, t, ht, hterms⟩ := hs
  have hopen : t ∈ (sys.map Recorded.driver).sessions :=
    List.mem_filterMap.2 ⟨_, List.mem_of_getElem? (seat_of_session? ht), rfl⟩
  have hbuffers : sys.ram.buffers = _ := h.buffers
  rw [hbuffers, show s.channel.buffer = s.terms.buffer from rfl, hterms]
  exact List.mem_map_of_mem (List.mem_map_of_mem hopen)

/-- A session that has worked is the same guest. -/
theorem guests_set {seat : Nat} {s s' : Session} (hs : sys.session? seat = some s)
    (hterms : s'.terms = s.terms) (mux : Multiplexer (Recorded Ram)) :
    guests ⟨mux, sys.seats.set seat (.active s')⟩ = sys.guests := by
  have hseat := seat_of_session? hs
  have hlt := (List.getElem?_eq_some_iff.1 hseat).1
  funext t
  -- who has just worked stands for the same guest before and after
  refine propext ⟨?_, ?_⟩
  · rintro ⟨i, u, hu, hsame⟩
    rcases session?_set hseat hu with ⟨rfl, hnew⟩ | ⟨-, hold⟩
    · obtain rfl := Option.some.inj hnew
      exact ⟨seat, s, hs, hsame.trans hterms⟩
    · exact ⟨i, u, hold, hsame⟩
  · rintro ⟨i, u, hu, hsame⟩
    by_cases hi : seat = i
    · subst hi
      obtain rfl := Option.some.inj (hs.symm.trans hu)
      refine ⟨seat, s', ?_, hsame.trans hterms.symm⟩
      rw [session?, List.getElem?_set_self hlt]
      rfl
    · refine ⟨i, u, ?_, hsame⟩
      rw [session?, List.getElem?_set_ne hi]
      exact hu

/-- Every step keeps the device one that houses the open sessions. -/
theorem Lodges.transition (h : sys.Lodges shape) (htransition : sys.Transition step sys' answer)
    (haccounts : (sys'.map Recorded.driver).Accounts) (hbound : shape.size ≤ maxWord) :
    sys'.Lodges shape := by
  have hstep := htransition
  cases htransition with
  | unchanged => exact h
  | refused left =>
    cases left with
    | early roster => exact h
    | late roster backend_eq =>
      obtain ⟨hallocate, -, -⟩ := Backend.allocate_ram backend_eq
      exact Ram.Houses.release h (Ram.allocate_emptied hallocate)
  | opened parsed a =>
    obtain ⟨hallocate, -, -⟩ := Backend.allocate_ram a.backend_eq
    have hafter := Ram.Houses.allocate h (Ram.allocate_emptied hallocate)
    have hguest : Ram.Guest shape a.session :=
      .of_admission h.shape_eq a hafter.shape_eq hbound
    have hnew : guests ⟨a.after, sys.seats ++ [.active a.session]⟩ a.session := by
      rw [guests_opened]
      exact .inr rfl
    -- whoever is let in was handed the last buffer, and becomes a guest
    rw [Lodges, guests_opened]
    exact hafter.welcome hguest (Accounts.buffer haccounts hnew)
  | @closed seat s hs =>
    refine Ram.Houses.depart h (fun t ht => ?_) fun t ht => Accounts.buffer haccounts ht
    -- a guest that is left sits on another seat
    obtain ⟨i, u, hu, hterms⟩ := ht
    rcases session?_set (seat_of_session? hs) hu with ⟨-, hnone⟩ | ⟨-, hold⟩
    · simp [Seat.session?] at hnone
    · exact ⟨i, u, hold, hterms⟩
  | @client seat step client hc =>
    rw [Lodges, guests_transition hstep (by simp) (by simp)]
    refine Ram.Houses.steady h ⟨rfl, rfl, ?_⟩
    exact (client.channel.filled_perform sys.mux.backend.arena step).sizes
  | @acted step seat s s' b _ hseat hs acts quiet =>
    rw [Lodges, withSession, guests_set hs acts.terms_eq]
    exact Ram.Houses.steady h acts.steady
  | device step =>
    obtain ⟨hram, harena⟩ := sys.ram_advance step
    have hsteady := (sys.ram.advances sys.mux.backend.arena step).steady
    rw [← hram, ← harena] at hsteady
    exact Ram.Houses.steady h hsteady

/-- A device that has handed out no buffer is accounted for. -/
theorem Accounts.create {mux : Multiplexer Ram} (hroster : mux.roster = {})
    (hbuffers : mux.backend.driver.buffers = []) : (System.create mux).Accounts := by
  refine ⟨?_, hbuffers, ⟨?_, ?_⟩, ⟨?_, ?_⟩⟩
  all_goals simp [System.create, sessions, hroster, hbuffers]

theorem Lodges.runSteps {ram : Ram} (config : Config) (table : Option PartitionTable)
    (hbuffers : ram.buffers = []) (hbound : ram.contents.size ≤ maxWord) (steps : List Step) :
    ((recorded (.create ram config table)).runSteps steps).Lodges ram.shape := by
  induction steps using List.reverseRecOn with
  | nil =>
    refine ⟨rfl, ?_, ?_, ?_, ?_, ?_, ?_, ?_, fun _ => rfl⟩
    all_goals simp [System.runSteps, recorded, System.create, Multiplexer.create, Multiplexer.map,
      Backend.map, guests, session?, System.ram, Ram.emptied, hbuffers]
  | append_singleton steps step ih =>
    have ho := (Orderly.create ((Multiplexer.create ram config table).map
      fun driver => (⟨driver, [], []⟩ : Recorded Ram))).runSteps steps
    have hstart : (System.create (.create ram config table)).Accounts := .create rfl hbuffers
    have haccounts := hstart.runSteps (Orderly.create _) (steps ++ [step])
    rw [← recorded_runSteps, runSteps_concat] at haccounts
    rw [runSteps_concat]
    exact ih.transition (step_transition ho step) haccounts hbound

end System

/-- Along every course of events the device, apart from its queue, houses the open sessions. -/
theorem Course.lodges (c : Course Ram) (hbuffers : c.driver.buffers = [])
    (hbound : c.driver.contents.size ≤ maxWord) : c.final.Lodges c.driver.shape :=
  System.Lodges.runSteps c.config c.table hbuffers hbound c.steps

/-- A device that was made without a queue holds nothing back. -/
theorem Course.fits (c : Course Ram) (hqueue : c.driver.queue = []) :
    c.final.ram.Fits c.driver.shape := by
  have hstart : c.driver.Fits c.driver.shape := by
    refine ⟨rfl, fun _ => ?_⟩
    rw [Ram.heldRequests, hqueue]
    rfl
  -- seen from a mailbox that nobody has, all of the course is foreign
  exact Backend.fits_foreigns (b := { driver := ⟨c.driver, [], []⟩ }) hstart
    (System.foreign_of_fresh c.steps (Nat.le_refl _))

/-- Along every course of events a device without a queue houses the open sessions. -/
theorem Course.houses (c : Course Ram) (hdepth : c.driver.queueDepth = none)
    (hqueue : c.driver.queue = []) (hbuffers : c.driver.buffers = [])
    (hbound : c.driver.contents.size ≤ maxWord) :
    Ram.Houses c.driver.shape c.final.guests c.final.ram c.final.mux.backend.arena := by
  have hnone : c.final.ram.queue = [] := List.map_eq_nil_iff.1 ((c.fits hqueue).idle hdepth)
  have hsame : c.final.ram.emptied = c.final.ram := by rw [Ram.emptied, ← hnone]
  have hlodges := c.lodges hbuffers hbound
  rwa [System.Lodges, hsame] at hlodges

end BlockMux
