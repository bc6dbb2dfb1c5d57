import BlockMux.Proofs.Housing
import BlockMux.Proofs.Ledger

/-!
# How a device in memory serves one session

Whatever the schedule, a device in memory carries out the packets of a session in the order it took
them, each in full, and nothing else touches the session's bytes: not the packets of others, whose
buffers are other memories and whose windows lie elsewhere or are only read, and not their clients.

Main statements:

* `Served.turn` — what one turn of the device does to the service of one session.
* `Served.runSteps` — the service along a run in which no session is closed, no byte poked and the
  session's buffer not written by its client.
-/

namespace BlockMux

/-! ## What is for one mailbox -/

theorem Notice.completionsFor_of_eq {id : Nat} {request : Request} (h : request.mailbox = id)
    (success : Bool) :
    completionsFor id [.completed request success] = [⟨request.packet, success⟩] := by
  simp [completionsFor, completionFor, h]

theorem Notice.completionsFor_of_ne {id : Nat} {request : Request} (h : request.mailbox ≠ id)
    (success : Bool) : completionsFor id [.completed request success] = [] := by
  simp [completionsFor, completionFor, h]

theorem Notice.completionsFor_ready (id : Nat) (ids : List Nat) :
    completionsFor id (ids.map .ready) = [] := by
  induction ids with
  | nil => rfl
  | cons other ids ih => exact ih

/-- What a turn carries out is reported before anyone is woken. -/
theorem Notice.completionsFor_woken (id : Nat) (notice : Notice) (ids : List Nat) :
    completionsFor id (notice :: ids.map .ready) = completionsFor id [notice] := by
  rw [← List.singleton_append, completionsFor_append, completionsFor_ready, List.append_nil]

theorem Request.toMailbox_concat_of_eq {id : Nat} {request : Request} (h : request.mailbox = id)
    (requests : List Request) :
    toMailbox id (requests ++ [request]) = toMailbox id requests ++ [request] := by
  simp [toMailbox, h]

theorem Request.toMailbox_concat_of_ne {id : Nat} {request : Request} (h : request.mailbox ≠ id)
    (requests : List Request) :
    toMailbox id (requests ++ [request]) = toMailbox id requests := by
  simp [toMailbox, h]

theorem Request.toMailbox_cons_of_eq {id : Nat} {request : Request} (h : request.mailbox = id)
    (requests : List Request) :
    toMailbox id (request :: requests) = request :: toMailbox id requests := by
  simp [toMailbox, h]

theorem Request.toMailbox_cons_of_ne {id : Nat} {request : Request} (h : request.mailbox ≠ id)
    (requests : List Request) : toMailbox id (request :: requests) = toMailbox id requests := by
  simp [toMailbox, h]

namespace Session

theorem moved_congr {s s' : Session} (h : s'.terms = s.terms) (contents : Memory) (arena : Arena)
    (packet : Packet) : s'.moved contents arena packet = s.moved contents arena packet := by
  simp only [terms, Terms.mk.injEq] at h
  obtain ⟨hgrant, -, -, hbuffer, -, hsize, -, -⟩ := h
  simp only [moved, hgrant, hbuffer, hsize]

/-- The other session reports elsewhere, has another memory, and does not write to blocks of this
one's window. -/
structure Apart (s other : Session) : Prop where
  mailbox : other.mailbox ≠ s.mailbox
  memory : other.channel.buffer.memory ≠ s.channel.buffer.memory
  window : other.grant.writeable = true → s.grant.overlaps other.grant = false

theorem Apart.mailbox_ne {s other : Session} {e : Exchange} (h : s.Apart other)
    (may : other.MayAsk e) : e.request.mailbox ≠ s.mailbox := by
  rw [may.mailbox]
  exact h.mailbox

/-! ## Service -/

/-- How a device has served a session that had the bytes `init` when it asked for the first time:
what it took is carried out in order, and the bytes are those that this leaves. -/
structure Served (s : Session) (bad : Option (Nat × Nat)) (init : Bytes) (r : Recorded Ram)
    (arena : Arena) : Prop where
  fifo : (Exchange.takenRequests (Exchange.toMailbox s.mailbox r.exchanges)).map (·.packet) =
    (Notice.completionsFor s.mailbox r.notices).map (·.packet) ++
      (Request.toMailbox s.mailbox r.driver.heldRequests).map (·.packet)
  success : ∀ completion ∈ Notice.completionsFor s.mailbox r.notices, completion.success = true
  bytes : s.bytes r.driver.contents arena =
    ((Notice.completionsFor s.mailbox r.notices).map (·.packet)).foldl (Bytes.copy s) init
  refused : ∀ e ∈ Exchange.toMailbox s.mailbox r.exchanges,
    e.outcome = .ioError ↔ s.touchesBad bad e.request.packet = true

variable {s : Session} {bad : Option (Nat × Nat)} {init : Bytes} {r r' : Recorded Ram}
  {arena arena' : Arena} {shape : Ram.Shape} {guests : Session → Prop}

/-- What is neither about the session nor touches its bytes leaves the service as it is. -/
theorem Served.frame (h : s.Served bad init r arena)
    (hexchanges : Exchange.toMailbox s.mailbox r'.exchanges =
      Exchange.toMailbox s.mailbox r.exchanges)
    (hnotices : Notice.completionsFor s.mailbox r'.notices =
      Notice.completionsFor s.mailbox r.notices)
    (hheld : Request.toMailbox s.mailbox r'.driver.heldRequests =
      Request.toMailbox s.mailbox r.driver.heldRequests)
    (hbytes : s.bytes r'.driver.contents arena' = s.bytes r.driver.contents arena) :
    s.Served bad init r' arena' := by
  refine ⟨?_, ?_, ?_, ?_⟩
  · rw [hexchanges, hnotices, hheld]
    exact h.fifo
  · rw [hnotices]
    exact h.success
  · rw [hbytes, hnotices]
    exact h.bytes
  · rw [hexchanges]
    exact h.refused

/-- A packet of the session is carried out. -/
theorem Served.carried (h : s.Served bad init r arena)
    (hhouses : Ram.Houses shape guests r.driver arena) (hs : guests s) {packet : Packet}
    (good : s.accepts packet = true)
    (hnotices : Notice.completionsFor s.mailbox r'.notices =
      Notice.completionsFor s.mailbox r.notices ++ [⟨packet, true⟩])
    (hcontents : r'.driver.contents = (s.moved r.driver.contents arena packet).1)
    (hexchanges : ∀ e ∈ Exchange.toMailbox s.mailbox r'.exchanges,
      e.outcome = .ioError ↔ s.touchesBad bad e.request.packet = true)
    (hfifo : (Exchange.takenRequests (Exchange.toMailbox s.mailbox r'.exchanges)).map (·.packet) =
      (Notice.completionsFor s.mailbox r.notices).map (·.packet) ++
        packet :: (Request.toMailbox s.mailbox r'.driver.heldRequests).map (·.packet)) :
    s.Served bad init r' (s.moved r.driver.contents arena packet).2 := by
  -- the packet goes from the queue to the completions, and its bytes are moved
  refine ⟨?_, ?_, ?_, hexchanges⟩
  · rw [hfifo, hnotices, List.map_append, List.append_assoc]
    rfl
  · intro completion hmem
    rw [hnotices] at hmem
    rcases List.mem_append.1 hmem with hold | hnew
    · exact h.success completion hold
    · rw [List.mem_singleton.1 hnew]
  · have hguest := hhouses.guest s hs
    have hsize : r.driver.contents.size = shape.size := congrArg Ram.Shape.size hhouses.shape_eq
    have hwindow : (s.grant.offset + s.grant.span) * s.blockSize ≤ r.driver.contents.size := by
      rw [hsize, hguest.blockSize]
      exact hguest.window
    rw [hcontents, bytes_moved_self good hwindow (hhouses.backed _ (hhouses.buffer s hs)),
      h.bytes, hnotices, List.map_append, List.foldl_append]
    rfl

/-- A new exchange of the session, answered as its blocks deserve. -/
theorem Served.answered (h : s.Served bad init r arena) {e : Exchange}
    (hmailbox : e.request.mailbox = s.mailbox)
    (why : e.outcome = .ioError ↔ s.touchesBad bad e.request.packet = true) :
    ∀ e' ∈ Exchange.toMailbox s.mailbox (r.exchanges ++ [e]),
      e'.outcome = .ioError ↔ s.touchesBad bad e'.request.packet = true := by
  intro e' he'
  rw [Exchange.toMailbox_concat_of_eq hmailbox] at he'
  rcases List.mem_append.1 he' with hold | hnew
  · exact h.refused e' hold
  · rw [List.mem_singleton.1 hnew]
    exact why

/-- A packet of another session leaves the bytes of this one. -/
theorem bytes_moved_apart (hhouses : Ram.Houses shape guests r.driver arena) (hs : guests s)
    {u : Session} (hu : guests u) (hapart : s.Apart u) {packet : Packet}
    (good : u.accepts packet = true) :
    s.bytes (u.moved r.driver.contents arena packet).1 (u.moved r.driver.contents arena packet).2 =
      s.bytes r.driver.contents arena := by
  have hguest := hhouses.guest s hs
  have hother := hhouses.guest u hu
  refine bytes_moved_other good (hother.blockSize.trans hguest.blockSize.symm) hapart.memory ?_
  intro hwrite
  rw [hother.operations] at hwrite
  exact hapart.window hwrite

/-- One turn of the device: it is about a packet of the session, or foreign to its bytes. -/
theorem Served.turn (h : s.Served shape.badBlocks init r arena)
    (hhouses : Ram.Houses shape guests r.driver arena) (hs : guests s)
    (hothers : ∀ u, guests u → u.terms = s.terms ∨ s.Apart u)
    (turn : Ram.Turn guests (r, arena) (r', arena')) :
    s.Served shape.badBlocks init r' arena' := by
  have hbad : r.driver.badBlocks = shape.badBlocks := congrArg Ram.Shape.badBlocks hhouses.shape_eq
  have hblocks : ∀ {u : Session} {packet : Packet}, u.terms = s.terms →
      u.touchesBad r.driver.badBlocks packet = s.touchesBad shape.badBlocks packet := by
    intro u packet hterms
    rw [hbad]
    unfold touchesBad
    rw [show u.grant = s.grant from congrArg Terms.grant hterms]
  -- each turn is about this session or about one that is apart from it
  cases turn with
  | @refuse _ _ u t request outcome waiters hu may refused why =>
    rcases hothers u hu with hterms | hapart
    · have hmailbox := (may.congr hterms.symm).mailbox
      rw [hblocks hterms] at why
      refine ⟨?_, h.success, h.bytes, h.answered hmailbox why⟩
      have hnone : request.takenWith outcome = [] := by
        cases outcome with
        | dispatched => exact absurd rfl refused
        | congested => rfl
        | ioError => rfl
      rw [Exchange.toMailbox_concat_of_eq hmailbox, Exchange.takenRequests_concat, hnone,
        List.append_nil]
      exact h.fifo
    · have hne : request.mailbox ≠ s.mailbox := hapart.mailbox_ne may
      exact h.frame (Exchange.toMailbox_concat_of_ne hne _) rfl rfl rfl
  | @queue _ _ u t request accepted hu may sound deep =>
    have hheld : ({ r.driver with
        queue := r.driver.queue ++ [⟨t, request⟩], accepted := accepted } : Ram).heldRequests =
        r.driver.heldRequests ++ [request] := List.map_append
    rcases hothers u hu with hterms | hapart
    · have hmailbox := (may.congr hterms.symm).mailbox
      rw [hblocks hterms] at sound
      refine ⟨?_, h.success, h.bytes, h.answered hmailbox (by simp [sound])⟩
      rw [Exchange.toMailbox_concat_of_eq hmailbox, Exchange.takenRequests_concat, hheld,
        Request.toMailbox_concat_of_eq hmailbox, List.map_append, List.map_append, h.fifo,
        List.append_assoc]
      rfl
    · have hne : request.mailbox ≠ s.mailbox := hapart.mailbox_ne may
      refine h.frame (Exchange.toMailbox_concat_of_ne hne _) rfl ?_ rfl
      rw [hheld, Request.toMailbox_concat_of_ne hne]
  | @atOnce _ _ u t request accepted hu may sound shallow =>
    rcases hothers u hu with hterms | hapart
    · have may' := may.congr hterms.symm
      have hmailbox := may'.mailbox
      rw [hblocks hterms] at sound
      -- without a queue, all that was taken before is carried out
      have hidle : r.driver.queue = [] :=
        hhouses.idle ((congrArg Ram.Shape.queueDepth hhouses.shape_eq).symm.trans shallow)
      have hnone : r.driver.heldRequests = [] := by rw [Ram.heldRequests, hidle]; rfl
      have hfifo := h.fifo
      rw [hnone, Request.toMailbox, List.filter_nil, List.map_nil, List.append_nil] at hfifo
      rw [moved_congr hterms]
      refine h.carried hhouses hs may'.accepted ?_ rfl (h.answered hmailbox (by simp [sound])) ?_
      · rw [Notice.completionsFor_append, Notice.completionsFor_of_eq hmailbox]
      · rw [Exchange.toMailbox_concat_of_eq hmailbox, Exchange.takenRequests_concat,
          List.map_append, hfifo]
        show _ = _ ++ request.packet :: (Request.toMailbox s.mailbox r.driver.heldRequests).map _
        rw [hnone]
        rfl
    · have hne : request.mailbox ≠ s.mailbox := hapart.mailbox_ne may
      refine h.frame (Exchange.toMailbox_concat_of_ne hne _) ?_ rfl
        (bytes_moved_apart hhouses hs hu hapart may.accepted)
      rw [Notice.completionsFor_append, Notice.completionsFor_of_ne hne, List.append_nil]
  | @next _ _ u job rest oldest hu may =>
    have hheld : r.driver.heldRequests = job.request :: rest.map (·.request) := by
      rw [Ram.heldRequests, oldest]
      rfl
    rcases hothers u hu with hterms | hapart
    · have may' := may.congr hterms.symm
      have hmailbox := may'.mailbox
      rw [moved_congr hterms]
      refine h.carried hhouses hs may'.accepted ?_ rfl h.refused ?_
      · rw [Notice.completionsFor_append, Notice.completionsFor_woken,
          Notice.completionsFor_of_eq hmailbox]
      · rw [h.fifo, hheld, Request.toMailbox_cons_of_eq hmailbox]
        rfl
    · have hne : job.request.mailbox ≠ s.mailbox := hapart.mailbox_ne may
      refine h.frame rfl ?_ ?_ (bytes_moved_apart hhouses hs hu hapart may.accepted)
      · rw [Notice.completionsFor_append, Notice.completionsFor_woken,
          Notice.completionsFor_of_ne hne, List.append_nil]
      · rw [hheld, Request.toMailbox_cons_of_ne hne]
        rfl

theorem Served.turns {x y : Recorded Ram × Arena} (h : s.Served shape.badBlocks init x.1 x.2)
    (hhouses : Ram.Houses shape guests x.1.driver x.2) (hs : guests s)
    (hothers : ∀ u, guests u → u.terms = s.terms ∨ s.Apart u) (turns : Ram.Turns guests x y) :
    s.Served shape.badBlocks init y.1 y.2 := by
  induction turns with
  | refl => exact h
  | tail earlier last ih => exact ih.turn (hhouses.turns earlier) hs hothers last

end Session

/-! ## Along a run -/

/-- Whether a step closes a session. -/
def Step.closes : Step → Bool
  | .closeSession _ => true
  | _ => false

/-- Whether a step neither changes bytes of the device from outside nor has the client on a seat
write into its buffer. -/
def Step.spares (seat : Nat) : Step → Bool
  | .device (.poke _ _) => false
  | .client other step => other != seat || !step.fills
  | _ => true

/-- Sessions stay, on their terms, as long as none is closed. -/
theorem System.session?_runSteps {sys : System (Recorded Ram)} (ho : sys.Orderly)
    {steps : List Step}
    (hclose : ∀ step ∈ steps, step.closes = false) {i : Nat} {t : Session}
    (ht : sys.session? i = some t) :
    ∃ t', (sys.runSteps steps).session? i = some t' ∧ t'.terms = t.terms := by
  induction steps generalizing sys t with
  | nil => exact ⟨t, ht, rfl⟩
  | cons step steps ih =>
    have h := System.step_transition ho step
    have hopen : step ≠ .closeSession i := by
      rintro rfl
      simpa [Step.closes] using hclose _ List.mem_cons_self
    obtain ⟨t', ht', hsame⟩ := h.terms_after hopen ht
    obtain ⟨t'', ht'', hlater⟩ := ih (ho.transition h)
      (fun later hlater => hclose later (List.mem_cons_of_mem _ hlater)) ht'
    exact ⟨t'', ht'', hlater.trans hsame⟩

theorem Arena.memory_grow {arena : Arena} {buffer : SharedBuffer} (memory : Memory)
    (h : arena.sizes[buffer.memory]? = some buffer.size) :
    (⟨arena.memories ++ [memory]⟩ : Arena).memory buffer = arena.memory buffer := by
  have hlt := (List.getElem?_eq_some_iff.1 h).1
  rw [Arena.sizes, List.length_map] at hlt
  rw [Arena.memory, List.getElem?_append_left hlt]
  rfl

namespace Session

theorem bytes_of_memory {s : Session} {arena arena' : Arena} (contents : Memory)
    (h : arena'.memory s.channel.buffer = arena.memory s.channel.buffer) :
    s.bytes contents arena' = s.bytes contents arena := by
  simp only [bytes, h]

open BlockMux.System

variable {s : Session} {init : Bytes} {shape : Ram.Shape} {sys sys' : System (Recorded Ram)}
  {step : Step} {answer : Answer} {seat : Nat}

/-- Handing out a buffer leaves the service as it is. -/
theorem Served.allocate {ram : Ram} {b b' : Backend (Recorded Ram)} {size : Nat}
    {buffer : SharedBuffer} {guests : Session → Prop}
    (h : s.Served shape.badBlocks init b.driver b.arena)
    (hhouses : Ram.Houses shape guests b.driver.driver b.arena) (hs : guests s)
    (hnew : b.allocate size = some (b', buffer)) (hqueue : ram.queue = b'.driver.driver.queue)
    (hcontents : ram.contents = b'.driver.driver.contents) :
    s.Served shape.badBlocks init { b'.driver with driver := ram } b'.arena := by
  obtain ⟨hallocate, hexchanges, hnotices⟩ := Backend.allocate_ram hnew
  obtain ⟨-, -, hram, harena⟩ := Ram.allocate_eq_some hallocate
  rw [hram] at hqueue hcontents
  refine h.frame ?_ ?_ ?_ ?_
  · rw [← hexchanges]
  · rw [← hnotices]
  · simp only [Ram.heldRequests, hqueue]
  · rw [harena, bytes_of_memory _ (Arena.memory_grow _ (hhouses.backed _ (hhouses.buffer s hs)))]
    exact congrArg (s.bytes · b.arena) hcontents

/-- The service along one step of the system. -/
theorem Served.transition (h : sys.Transition step sys' answer)
    (hserved : s.Served shape.badBlocks init sys.mux.backend.driver sys.mux.backend.arena)
    (hhousing : Housing shape sys) {t : Session} (ht : sys.session? seat = some t)
    (hterms : s.terms = t.terms) (hothers : ∀ u, sys.guests u → u.terms = s.terms ∨ s.Apart u)
    (hclose : step.closes = false) (hspare : step.spares seat = true) :
    s.Served shape.badBlocks init sys'.mux.backend.driver sys'.mux.backend.arena := by
  have hguest : sys.guests s := ⟨seat, t, ht, hterms⟩
  -- only acts and device steps make the device work; the rest can touch other memories only
  cases h with
  | unchanged => exact hserved
  | refused left =>
    cases left with
    | early roster => exact hserved
    | late roster backend_eq => exact hserved.allocate hhousing.houses hguest backend_eq rfl rfl
  | opened parsed a => exact hserved.allocate hhousing.houses hguest a.backend_eq rfl rfl
  | closed hs => simp [Step.closes] at hclose
  | @client i step client hc =>
    by_cases hi : i = seat
    · subst hi
      have hstill : step.fills = false := by simpa [Step.spares] using hspare
      refine hserved.frame rfl rfl rfl ?_
      show s.bytes _ (client.channel.perform sys.mux.backend.arena step).2.1 = _
      rw [Channel.arena_perform hstill]
      rfl
    · obtain ⟨u, rfl⟩ := hhousing.seated client (List.mem_of_getElem? hc)
      have hu : sys.session? i = some u := by rw [session?, hc]; rfl
      have hne : u.channel.buffer.memory ≠ s.channel.buffer.memory := by
        rw [show s.channel.buffer = t.channel.buffer from congrArg Terms.buffer hterms]
        exact hhousing.apart hu ht hi
      have hfilled := u.channel.filled_perform sys.mux.backend.arena step
      exact hserved.frame rfl rfl rfl (bytes_of_memory _ (hfilled.memory_of_ne hne))
  | @acted _ i u _ _ _ hseat hu acts quiet =>
    have hturns := acts.turns hhousing.houses ⟨i, u, hu, rfl⟩
    exact hserved.turns hhousing.houses hguest hothers hturns
  | device step =>
    have hpoke : ∀ pos bytes, step ≠ .poke pos bytes := by
      rintro pos bytes rfl
      simp [Step.spares] at hspare
    rw [Backend.driver_advance, Backend.arena_advance]
    exact hserved.turns hhousing.houses hguest hothers (hhousing.houses.advance_turns hpoke)

/-- The service along a run. -/
theorem Served.runSteps {t : Session} {steps : List Step} (ho : sys.Orderly)
    (hserved : s.Served shape.badBlocks init sys.mux.backend.driver sys.mux.backend.arena)
    (hhousing : Housing shape sys) (hbound : shape.size ≤ maxWord)
    (ht : sys.session? seat = some t) (hterms : s.terms = t.terms)
    (hothers : ∀ u, (sys.runSteps steps).guests u → u.terms = s.terms ∨ s.Apart u)
    (hclose : ∀ step ∈ steps, step.closes = false)
    (hspare : ∀ step ∈ steps, step.spares seat = true) :
    s.Served shape.badBlocks init (sys.runSteps steps).mux.backend.driver
      (sys.runSteps steps).mux.backend.arena := by
  -- on the first step, with the sessions of the end in view all the time
  induction steps generalizing sys t with
  | nil => exact hserved
  | cons step steps ih =>
    have h := step_transition ho step
    have hopen : ∀ i, step ≠ .closeSession i := by
      rintro i rfl
      simpa [Step.closes] using hclose _ List.mem_cons_self
    -- whoever is open now is open at the end, on the same terms
    have hothers' : ∀ u, sys.guests u → u.terms = s.terms ∨ s.Apart u := by
      rintro u ⟨i, v, hv, hsame⟩
      obtain ⟨v', hv', hlater⟩ := session?_runSteps ho hclose hv
      exact hothers u ⟨i, v', hv', hsame.trans hlater.symm⟩
    have hnext := hserved.transition h hhousing ht hterms hothers'
      (hclose _ List.mem_cons_self) (hspare _ List.mem_cons_self)
    obtain ⟨t', ht', hsame⟩ := h.terms_after (hopen seat) ht
    exact ih (ho.transition h) hnext (hhousing.transition h hbound hopen) ht'
      (hterms.trans hsame.symm) hothers
      (fun later hlater => hclose later (List.mem_cons_of_mem _ hlater))
      (fun later hlater => hspare later (List.mem_cons_of_mem _ hlater))

end Session
end BlockMux
