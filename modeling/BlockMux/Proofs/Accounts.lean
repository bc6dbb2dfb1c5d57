import BlockMux.Proofs.Housing
import BlockMux.Proofs.Writers

/-!
# Grants and buffers are accounted for

An opening takes a place on the roster, then a buffer of the device, then a channel. When it fails
on the way, whatever it took is given back; when the session is closed, what it had is given back.
Both find what to give back by a number, the ticket of the grant or the address of the buffer, and
numbers are not given out twice. So the roster and the device have exactly what the open sessions
have, in the same order.

Main statements:

* `Numbered.filter` — taking out by number takes out one element.
* `Accounts.untouched`, `Accounts.enlarged`, `Accounts.reduced` — what openings and closings do.
* `openings_accounted` — the accounts are right after every course of events.
-/

namespace BlockMux

/-! ## The quota -/

/-- Whether the memory that a client brings is the cause. -/
def OpenError.isOfQuota : OpenError → Bool
  | .noBuffer => true
  | .quotaExceeded .. => true
  | _ => false

/-- Whether an opening got past the check of the memory that the client brings. -/
def Answer.pastQuota : Answer → Bool
  | .notOpened e => !e.isOfQuota
  | _ => true

/-- The arguments that an opening comes with. -/
def openingArguments (text : String) (changes : List (String × String)) :
    Except ArgumentError Arguments :=
  (Arguments.parse text).map fun args =>
    changes.foldl (fun args (key, value) => args.set key value) args

namespace Multiplexer

theorem bufferSize_eq_ok {args : Arguments} {size : Nat} (h : bufferSize args = .ok size) :
    args.quantity "tx_buf_size" 0 = .ok size ∧ 1 ≤ size := by
  unfold bufferSize at h
  split at h
  · simp at h
  · simp at h
  · rename_i hsize
    split at h
    · simp at h
    · split at h
      · simp at h
      · obtain rfl := Except.ok.inj h
        exact ⟨hsize, by omega⟩

variable {δ : Type} [Driver δ] {mux : Multiplexer δ} {args : Arguments}

/-- Past the quota no opening fails for its quota. -/
theorem enter_error {size : Nat} {e : OpenError} (h : (mux.enter args size).2 = .error e) :
    e.isOfQuota = false := by
  unfold enter at h
  split at h
  · obtain rfl := Except.error.inj h
    rfl
  · split at h
    · obtain rfl := Except.error.inj h
      rfl
    · unfold equip at h
      split at h
      · obtain rfl := Except.error.inj h
        rfl
      · dsimp only at h
        split at h
        · obtain rfl := Except.error.inj h
          rfl
        · simp at h

/-- An opening fails for its quota exactly when it asks for no buffer, or for one that the memory
left after the cost of a session does not cover. -/
theorem openWith_quota (mux : Multiplexer δ) {quota size : Nat}
    (hquota : args.quantity "ram_quota" 0 = .ok quota)
    (hsize : args.quantity "tx_buf_size" 0 = .ok size) :
    (∃ e, (mux.openWith args).2 = .error e ∧ e.isOfQuota = true) ↔
      ¬ (1 ≤ size ∧ sessionCost + size ≤ quota) := by
  unfold openWith bufferSize
  rw [hquota, hsize]
  dsimp only
  by_cases hnone : size = 0
  · rw [if_pos hnone]
    refine iff_of_true ⟨_, rfl, rfl⟩ ?_
    omega
  · rw [if_neg hnone]
    by_cases hshort : quota < sessionCost + size
    · rw [if_pos hshort]
      refine iff_of_true ⟨_, rfl, rfl⟩ ?_
      omega
    · -- both checks are passed, and nothing after them looks at the quota
      rw [if_neg hshort]
      refine iff_of_false ?_ (by omega)
      rintro ⟨e, he, hof⟩
      rw [enter_error he] at hof
      simp at hof

end Multiplexer

/-! ## Numbers -/

/-- Numbers that were given out once, where `next` is given out next. -/
structure Numbered (next : Nat) (numbers : List Nat) : Prop where
  nodup : numbers.Nodup
  lt : ∀ n ∈ numbers, n < next

namespace Numbered

variable {next next' : Nat} {numbers : List Nat} {α : Type} {number : α → Nat}

theorem mono (h : Numbered next numbers) (hle : next ≤ next') : Numbered next' numbers :=
  ⟨h.nodup, fun n hn => Nat.lt_of_lt_of_le (h.lt n hn) hle⟩

theorem concat (h : Numbered next numbers) (hlt : next < next') :
    Numbered next' (numbers ++ [next]) := by
  refine ⟨?_, ?_⟩
  · rw [List.nodup_append]
    refine ⟨h.nodup, by simp, ?_⟩
    intro n hn m hm
    obtain rfl := List.mem_singleton.1 hm
    exact Nat.ne_of_lt (h.lt n hn)
  · intro n hn
    rcases List.mem_append.1 hn with hold | hnew
    · exact Nat.lt_trans (h.lt n hold) hlt
    · rwa [List.mem_singleton.1 hnew]

theorem sublist {fewer : List Nat} (h : Numbered next numbers) (hsub : fewer.Sublist numbers) :
    Numbered next fewer :=
  ⟨h.nodup.sublist hsub, fun n hn => h.lt n (hsub.subset hn)⟩

/-- Where everyone has a number of his own, taking out by number takes out one. -/
theorem filter {before after : List α} {x : α}
    (h : Numbered next ((before ++ x :: after).map number)) :
    (before ++ x :: after).filter (fun y => number y != number x) = before ++ after := by
  have hnodup := h.nodup
  rw [List.map_append, List.map_cons, List.nodup_append, List.nodup_cons] at hnodup
  obtain ⟨-, ⟨hafter, -⟩, hbefore⟩ := hnodup
  -- neither before nor after is there another one of this number
  have hkept : before.filter (fun y => number y != number x) = before := by
    refine List.filter_eq_self.2 fun y hy => ?_
    have hne := hbefore _ (List.mem_map_of_mem hy) _ (List.mem_cons_self)
    simpa using hne
  have hkept' : after.filter (fun y => number y != number x) = after := by
    refine List.filter_eq_self.2 fun y hy => ?_
    have hne : number y ≠ number x := by
      intro heq
      exact hafter (heq ▸ List.mem_map_of_mem hy)
    simpa using hne
  rw [List.filter_append, hkept, List.filter_cons_of_neg (by simp), hkept']

/-- What has just been numbered is taken out again. -/
theorem filter_last {list : List α} {x : α} (h : Numbered next (list.map number))
    (hx : number x = next) : (list ++ [x]).filter (fun y => number y != number x) = list := by
  have hlast : Numbered (next + 1) ((list ++ [x]).map number) := by
    rw [List.map_append, List.map_singleton, hx]
    exact h.concat (Nat.lt_succ_self _)
  rw [hlast.filter, List.append_nil]

end Numbered

/-- What was entered and taken off again has left nothing but its number. -/
theorem Roster.Restored.entries_eq {roster roster' : Roster} (h : roster.Restored roster')
    (hnumbered : Numbered roster.nextTicket (roster.entries.map (·.1))) :
    roster'.entries = roster.entries ∧ roster.nextTicket ≤ roster'.nextTicket := by
  cases h with
  | untouched => exact ⟨rfl, Nat.le_refl _⟩
  | withdrawn entered =>
    obtain ⟨-, rfl, rfl⟩ := register_eq_ok entered
    refine ⟨?_, Nat.le_succ _⟩
    exact hnumbered.filter_last (x := (roster.nextTicket, _)) rfl

/-! ## Buffers of the device -/

namespace Ram

/-- The buffers handed out, and the address of the next one. -/
def stock (ram : Ram) : List SharedBuffer × Nat := (ram.buffers, ram.nextBase)

variable {ram ram' : Ram} {arena arena' : Arena}

theorem Answer.stock {t : Transfer} {request : Request} {reply : Reply Ram}
    (h : ram.Answer arena t request reply) : reply.driver.stock = ram.stock := by
  cases h <;> rfl

theorem Completions.stock {notices : List Notice} (h : Completions ram arena ram' arena' notices) :
    ram'.stock = ram.stock := by
  induction h with
  | none => rfl
  | next first _ ih =>
    cases completion first
    exact ih

theorem Advance.stock {step : DeviceStep} {progress : Progress Ram}
    (h : ram.Advance arena step progress) : progress.driver.stock = ram.stock := by
  cases h with
  | poked => rfl
  | completed _ all => exact all.stock

end Ram

/-- A session at work gets no buffer and gives none back. -/
theorem Session.Acts.stock {s s' : Session} {b b' : Backend Ram} (acts : s.Acts b s' b') :
    b'.driver.stock = b.driver.stock := by
  refine acts.backend (P := fun c : Backend Ram => c.driver.stock = b.driver.stock)
    (fun _ _ hc => hc) (fun hc => hc) ?_ rfl
  intro c t packet _ hc
  rw [Backend.driver_submit]
  exact (Ram.answers ..).stock.trans hc

/-! ## Open sessions -/

namespace System

section Sessions

variable {δ : Type}

/-- The open sessions, in the order they were opened. -/
def sessions (sys : System δ) : List Session := sys.seats.filterMap Seat.session?

/-- The sessions on the seats before this one, and on those after it. -/
def around (sys : System δ) (seat : Nat) : List Session × List Session :=
  ((sys.seats.take seat).filterMap Seat.session?,
    (sys.seats.drop (seat + 1)).filterMap Seat.session?)

variable {sys : System δ} {seat : Nat} {old : Seat}

/-- Who sits on a seat sits between the others, also after it has changed. -/
theorem sessions_set (hold : sys.seats[seat]? = some old) (mux : Multiplexer δ) (client : Seat) :
    (⟨mux, sys.seats.set seat client⟩ : System δ).sessions =
      (sys.around seat).1 ++ (client.session?.toList ++ (sys.around seat).2) := by
  have hlt := (List.getElem?_eq_some_iff.1 hold).1
  unfold sessions around
  dsimp only
  rw [List.set_eq_take_append_cons_drop, if_pos hlt, List.filterMap_append, List.filterMap_cons]
  cases client.session? with
  | none => rfl
  | some s => rfl

theorem sessions_split (hold : sys.seats[seat]? = some old) :
    sys.sessions = (sys.around seat).1 ++ (old.session?.toList ++ (sys.around seat).2) := by
  obtain ⟨hlt, hget⟩ := List.getElem?_eq_some_iff.1 hold
  have hsame : sys.seats.set seat old = sys.seats := by
    rw [← hget]
    exact List.set_getElem_self hlt
  have hset := sessions_set hold sys.mux old
  rw [hsame] at hset
  exact hset

/-- A session that keeps its terms leaves the terms of all as they are. -/
theorem terms_set (hold : sys.seats[seat]? = some old) (mux : Multiplexer δ) {client : Seat}
    (hsame : client.session?.map Session.terms = old.session?.map Session.terms) :
    (⟨mux, sys.seats.set seat client⟩ : System δ).sessions.map Session.terms =
      sys.sessions.map Session.terms := by
  have hlist : client.session?.toList.map Session.terms =
      old.session?.toList.map Session.terms := by
    rw [← Option.toList_map, ← Option.toList_map, hsame]
  rw [sessions_set hold, sessions_split hold]
  simp only [List.map_append, hlist]

end Sessions

/-! ## Accounts -/

variable {sys sys' : System Ram} {mux : Multiplexer Ram} {step : Step} {answer : Answer}

/-- The roster and the device have what the open sessions have, each under a number of its own. -/
structure Accounts (sys : System Ram) : Prop where
  entries : sys.mux.roster.entries =
    (sys.sessions.map Session.terms).map fun terms => (terms.ticket, terms.grant)
  buffers : sys.mux.backend.driver.buffers = (sys.sessions.map Session.terms).map (·.buffer)
  tickets : Numbered sys.mux.roster.nextTicket (sys.mux.roster.entries.map (·.1))
  bases : Numbered sys.mux.backend.driver.nextBase
    (sys.mux.backend.driver.buffers.map (·.base))

/-- What neither opens nor closes a session leaves the accounts as they are. -/
theorem Accounts.congr (h : sys.Accounts)
    (hterms : sys'.sessions.map Session.terms = sys.sessions.map Session.terms)
    (hroster : sys'.mux.roster = sys.mux.roster)
    (hstock : sys'.mux.backend.driver.stock = sys.mux.backend.driver.stock) : sys'.Accounts := by
  obtain ⟨hbuffers, hbase⟩ := Prod.mk.inj hstock
  refine ⟨?_, ?_, ?_, ?_⟩
  · rw [hroster, hterms]
    exact h.entries
  · rw [hbuffers, hterms]
    exact h.buffers
  · rw [hroster]
    exact h.tickets
  · rw [hbuffers, hbase]
    exact h.bases

/-- A failed opening has left nothing, apart from numbers that are not given out again and memories
that nobody has. -/
structure Untouched (sys sys' : System Ram) : Prop where
  seats : sys'.seats = sys.seats
  entries : sys'.mux.roster.entries = sys.mux.roster.entries
  tickets : sys.mux.roster.nextTicket ≤ sys'.mux.roster.nextTicket
  /-- The device has the same contents, queue and buffers. -/
  device : ∃ base, sys.mux.backend.driver.nextBase ≤ base ∧
    sys'.mux.backend.driver = { sys.mux.backend.driver with nextBase := base }
  mailboxes : sys'.mux.backend.mailboxes = sys.mux.backend.mailboxes
  memories : sys.mux.backend.arena.memories <+: sys'.mux.backend.arena.memories
  rules : sys'.mux.config = sys.mux.config ∧ sys'.mux.table = sys.mux.table

theorem Untouched.refl (sys : System Ram) : sys.Untouched sys :=
  ⟨rfl, rfl, Nat.le_refl _, ⟨_, Nat.le_refl _, rfl⟩, rfl, List.prefix_rfl, rfl, rfl⟩

theorem Accounts.untouched (h : sys.Accounts) (left : sys.mux.TurnedAway mux) :
    sys.Untouched { sys with mux := mux } := by
  cases left with
  | early roster restored =>
    obtain ⟨hentries, htickets⟩ := restored.entries_eq h.tickets
    exact ⟨rfl, hentries, htickets, ⟨_, Nat.le_refl _, rfl⟩, rfl, List.prefix_rfl, rfl, rfl⟩
  | @late size backend buffer roster backend_eq restored =>
    obtain ⟨hentries, htickets⟩ := restored.entries_eq h.tickets
    obtain ⟨⟨ram, arena, buffer'⟩, hallocate, hfound⟩ := Option.map_eq_some_iff.1 backend_eq
    simp only [Prod.mk.injEq] at hfound
    obtain ⟨rfl, rfl⟩ := hfound
    obtain ⟨hsize, hbuffer, rfl, rfl⟩ := Ram.allocate_eq_some hallocate
    -- the address of the buffer was new, so taking it back takes back nothing else
    have hback : (sys.mux.backend.driver.buffers ++ [buffer']).filter (·.base != buffer'.base) =
        sys.mux.backend.driver.buffers := h.bases.filter_last (by rw [hbuffer])
    refine ⟨rfl, hentries, htickets, ⟨_, Nat.le_add_right _ (Ram.pages size), ?_⟩, rfl,
      List.prefix_append _ _, rfl, rfl⟩
    show Ram.release _ buffer' = _
    rw [Ram.release, hback]

theorem Accounts.of_untouched (h : sys.Accounts) (huntouched : sys.Untouched sys') :
    sys'.Accounts := by
  obtain ⟨base, hbase, hdevice⟩ := huntouched.device
  have hsessions : sys'.sessions = sys.sessions := by rw [sessions, huntouched.seats, sessions]
  refine ⟨?_, ?_, ?_, ?_⟩
  · rw [huntouched.entries, hsessions]
    exact h.entries
  · rw [hdevice, hsessions]
    exact h.buffers
  · rw [huntouched.entries]
    exact h.tickets.mono huntouched.tickets
  · rw [hdevice]
    exact h.bases.mono hbase

/-- An opening has added the session with its grant and its buffer, and nothing else. -/
structure Enlarged (sys sys' : System Ram) (s : Session) : Prop where
  seats : sys'.seats = sys.seats ++ [.active s]
  entries : sys'.mux.roster.entries = sys.mux.roster.entries ++ [(s.ticket, s.grant)]
  ticket : s.ticket = sys.mux.roster.nextTicket ∧
    sys'.mux.roster.nextTicket = sys.mux.roster.nextTicket + 1
  /-- The device has the same contents and queue. -/
  device : sys'.mux.backend.driver = { sys.mux.backend.driver with
    buffers := sys.mux.backend.driver.buffers ++ [s.channel.buffer]
    nextBase := sys.mux.backend.driver.nextBase + Ram.pages s.channel.buffer.size }
  base : s.channel.buffer.base = sys.mux.backend.driver.nextBase
  size_pos : 1 ≤ s.channel.buffer.size
  mailboxes : sys'.mux.backend.mailboxes = sys.mux.backend.mailboxes ++ [({} : Mailbox)]
  memories : sys'.mux.backend.arena.memories =
    sys.mux.backend.arena.memories ++ [Memory.zeroed s.channel.buffer.size]
  rules : sys'.mux.config = sys.mux.config ∧ sys'.mux.table = sys.mux.table

theorem enlarged_of_admission {args : Arguments} (a : Multiplexer.Admission sys.mux args) :
    sys.Enlarged ⟨a.after, sys.seats ++ [.active a.session]⟩ a.session ∧
      args.quantity "tx_buf_size" 0 = .ok a.session.channel.buffer.size := by
  -- what the arguments, the roster and the device gave on the way
  obtain ⟨hquantity, -⟩ := Multiplexer.bufferSize_eq_ok a.size_eq
  obtain ⟨⟨ram, arena, buffer⟩, hallocate, hfound⟩ := Option.map_eq_some_iff.1 a.backend_eq
  obtain ⟨hbackend, hbuffer⟩ := Prod.mk.inj hfound
  obtain ⟨hsize, hnew, hram, harena⟩ := Ram.allocate_eq_some hallocate
  obtain ⟨-, hticket, hroster⟩ := Roster.register_eq_ok a.roster_eq
  have hchannel : a.session.channel.buffer = buffer :=
    (congrArg Channel.buffer a.channel_new.1).trans hbuffer.symm
  have hgrant : a.session.grant = a.grant := rfl
  have hentered : a.session.ticket = sys.mux.roster.nextTicket := hticket
  refine ⟨⟨rfl, ?_, ⟨hentered, ?_⟩, ?_, ?_, ?_, ?_, ?_, rfl, rfl⟩, ?_⟩
  · show a.roster.entries = _
    rw [hroster, hentered, hgrant]
  · show a.roster.nextTicket = _
    rw [hroster]
  · show a.backend.driver = _
    rw [← hbackend, hchannel, hram, hnew]
  · rw [hchannel, hnew]
  · rw [hchannel, hnew]
    exact hsize
  · show a.backend.mailboxes ++ [({} : Mailbox)] = _
    rw [← hbackend]
  · show a.backend.arena.memories = _
    rw [← hbackend, harena, hchannel, hnew]
  · rw [hchannel, hnew]
    exact hquantity

theorem Accounts.of_enlarged (h : sys.Accounts) {s : Session} (henlarged : sys.Enlarged sys' s) :
    sys'.Accounts := by
  obtain ⟨hticket, hnext⟩ := henlarged.ticket
  have hsessions : sys'.sessions = sys.sessions ++ [s] := by
    rw [sessions, henlarged.seats, List.filterMap_append]
    rfl
  refine ⟨?_, ?_, ?_, ?_⟩
  · rw [henlarged.entries, hsessions, h.entries]
    simp only [List.map_append]
    rfl
  · rw [henlarged.device, hsessions, h.buffers]
    simp only [List.map_append]
    rfl
  · rw [henlarged.entries, hnext, List.map_append, List.map_singleton, hticket]
    exact h.tickets.concat (Nat.lt_succ_self _)
  · -- a buffer has at least one page, so the next one gets another address
    have hpages := Nat.le_trans henlarged.size_pos (Ram.le_pages s.channel.buffer.size)
    rw [henlarged.device]
    dsimp only
    rw [List.map_append, List.map_singleton, henlarged.base]
    exact h.bases.concat (by omega)

/-- A closing has taken the session away from between the others, with its grant and its buffer, and
nothing else. -/
structure Reduced (sys sys' : System Ram) (seat : Nat) (s : Session) (before after : List Session) :
    Prop where
  sessions : sys.sessions = before ++ s :: after ∧ sys'.sessions = before ++ after
  seats : sys'.seats = sys.seats.set seat (.retired s.channel)
  entries : sys'.mux.roster.entries = (before ++ after).map fun t => (t.ticket, t.grant)
  tickets : sys'.mux.roster.nextTicket = sys.mux.roster.nextTicket
  /-- The device has the same contents and queue. -/
  device : sys'.mux.backend.driver = { sys.mux.backend.driver with
    buffers := (before ++ after).map (·.channel.buffer) }
  arena : sys'.mux.backend.arena = sys.mux.backend.arena
  mailboxes : ∀ id, s.mailbox ≠ id → sys'.mux.backend.mailbox id = sys.mux.backend.mailbox id
  rules : sys'.mux.config = sys.mux.config ∧ sys'.mux.table = sys.mux.table

theorem Accounts.reduced (h : sys.Accounts) {seat : Nat} {s : Session}
    (hs : sys.session? seat = some s) :
    sys.Reduced (sys.afterClose seat s) seat s (sys.around seat).1 (sys.around seat).2 := by
  have hseat := seat_of_session? hs
  have hsplit : sys.sessions = (sys.around seat).1 ++ s :: (sys.around seat).2 :=
    sessions_split hseat
  -- the entry and the buffer of the session stand between those of the others
  have hentries : sys.mux.roster.entries =
      (sys.around seat).1.map (fun t => (t.ticket, t.grant)) ++
        (s.ticket, s.grant) :: (sys.around seat).2.map (fun t => (t.ticket, t.grant)) := by
    rw [h.entries, hsplit, List.map_map, List.map_append, List.map_cons]
    rfl
  have hbuffers : sys.mux.backend.driver.buffers =
      (sys.around seat).1.map (·.channel.buffer) ++
        s.channel.buffer :: (sys.around seat).2.map (·.channel.buffer) := by
    rw [h.buffers, hsplit, List.map_map, List.map_append, List.map_cons]
    rfl
  have htickets := h.tickets
  have hbases := h.bases
  rw [hentries] at htickets
  rw [hbuffers] at hbases
  refine ⟨⟨hsplit, ?_⟩, rfl, ?_, rfl, ?_, rfl, ?_, rfl, rfl⟩
  · exact sessions_set hseat _ _
  · show sys.mux.roster.entries.filter (·.1 != s.ticket) = _
    rw [hentries, List.map_append]
    exact htickets.filter
  · show Ram.release _ _ = _
    have hleft := hbases.filter
    rw [Ram.release, hbuffers, hleft, List.map_append]
  · intro id hne
    exact Backend.mailbox_modifyMailbox_ne hne _

theorem Accounts.of_reduced (h : sys.Accounts) {seat : Nat} {s : Session}
    {before after : List Session} (hreduced : sys.Reduced sys' seat s before after) :
    sys'.Accounts := by
  obtain ⟨hsplit, hsessions⟩ := hreduced.sessions
  have hfewer : (before ++ after).Sublist sys.sessions := by
    rw [hsplit]
    exact List.Sublist.append_left (List.sublist_cons_self s after) before
  refine ⟨?_, ?_, ?_, ?_⟩
  · rw [hreduced.entries, hsessions, List.map_map]
    rfl
  · rw [hreduced.device, hsessions, List.map_map]
    rfl
  · have htickets := h.tickets
    rw [h.entries, List.map_map, List.map_map] at htickets
    rw [hreduced.entries, hreduced.tickets, List.map_map]
    exact htickets.sublist (hfewer.map _)
  · have hbases := h.bases
    rw [h.buffers, List.map_map, List.map_map] at hbases
    rw [hreduced.device, List.map_map]
    exact hbases.sublist (hfewer.map _)

/-! ## Along a course -/

theorem Accounts.transition (h : sys.Accounts) (htransition : sys.Transition step sys' answer) :
    sys'.Accounts := by
  cases htransition with
  | unchanged => exact h
  | refused left => exact h.of_untouched (h.untouched left)
  | opened parsed a => exact h.of_enlarged (enlarged_of_admission a).1
  | closed hs => exact h.of_reduced (h.reduced hs)
  | @client seat step client hc =>
    -- neither a client nor a session at work changes the terms that the accounts are about
    refine h.congr (terms_set hc _ ?_) rfl rfl
    cases client with
    | retired channel => rfl
    | active s => exact congrArg some (s.terms_perform sys.mux.backend.arena step)
  | acted hseat hs acts =>
    refine h.congr (terms_set (seat_of_session? hs) _ ?_) rfl acts.stock
    exact congrArg some acts.terms_eq
  | device step =>
    refine h.congr rfl rfl ?_
    rw [Backend.driver_advance]
    exact (Ram.advances _ _ step).stock

theorem Accounts.runSteps (ho : sys.Orderly) (h : sys.Accounts) (steps : List Step) :
    (sys.runSteps steps).Accounts := by
  induction steps using List.reverseRecOn with
  | nil => exact h
  | append_singleton steps step ih =>
    rw [runSteps_concat]
    exact ih.transition (step_transition (ho.runSteps steps) step)

/-- What the accounts of a system say of its openings and closings. -/
structure Accounted (sys : System Ram) : Prop where
  /-- The roster lists the grants of the open sessions in the order they were opened. -/
  grants : sys.mux.roster.grants = sys.sessions.map (·.grant)
  /-- The buffers handed out are those of the open sessions. -/
  buffers : sys.mux.backend.driver.buffers = sys.sessions.map (·.channel.buffer)
  /-- A failed opening changes nothing. -/
  refused : ∀ text changes e, (sys.step (.openSession text changes)).2 = .notOpened e →
    sys.Untouched (sys.step (.openSession text changes)).1
  /-- An opening adds a grant and a buffer of the size that was asked for. -/
  opened : ∀ text changes s, (sys.step (.openSession text changes)).2 = .opened s →
    sys.Enlarged (sys.step (.openSession text changes)).1 s ∧
      ∃ args, openingArguments text changes = .ok args ∧
        args.quantity "tx_buf_size" 0 = .ok s.channel.buffer.size
  /-- A closing takes away what the session had. -/
  closed : ∀ seat s, sys.session? seat = some s → ∃ before after,
    sys.Reduced (sys.step (.closeSession seat)).1 seat s before after
  /-- The memory that an opening brings has to cover the session and its buffer. -/
  quota : ∀ text changes args quota size, openingArguments text changes = .ok args →
    args.quantity "ram_quota" 0 = .ok quota → args.quantity "tx_buf_size" 0 = .ok size →
      ((sys.step (.openSession text changes)).2.pastQuota = true ↔
        1 ≤ size ∧ Multiplexer.sessionCost + size ≤ quota)

theorem openSession_pastQuota {text : String} {changes : List (String × String)}
    {args : Arguments} {quota size : Nat} (hargs : openingArguments text changes = .ok args)
    (hquota : args.quantity "ram_quota" 0 = .ok quota)
    (hsize : args.quantity "tx_buf_size" 0 = .ok size) :
    (sys.openSession text changes).2.pastQuota = true ↔
      1 ≤ size ∧ Multiplexer.sessionCost + size ≤ quota := by
  unfold openSession
  cases hparse : Arguments.parse text with
  | error e =>
    rw [openingArguments, hparse] at hargs
    simp [Except.map] at hargs
  | ok found =>
    rw [openingArguments, hparse] at hargs
    obtain rfl := Except.ok.inj hargs
    dsimp only at hquota hsize ⊢
    have hopen := sys.mux.openWith_quota hquota hsize
    generalize sys.mux.openWith _ = result at hopen ⊢
    obtain ⟨mux, outcome⟩ := result
    cases outcome with
    | error e =>
      -- past the quota means that the failure, if there is one, has another cause
      have hof : e.isOfQuota = true ↔ ¬ (1 ≤ size ∧ Multiplexer.sessionCost + size ≤ quota) := by
        rw [← hopen]
        constructor
        · exact fun hof => ⟨e, rfl, hof⟩
        · rintro ⟨cause, hcause, hof⟩
          obtain rfl := Except.error.inj hcause
          exact hof
      show (!e.isOfQuota) = true ↔ _
      rw [Bool.not_eq_true', ← Bool.not_eq_true, hof, not_not]
    | ok s =>
      refine iff_of_true rfl ?_
      by_contra hshort
      obtain ⟨cause, hcause, -⟩ := hopen.2 hshort
      simp at hcause

theorem Accounts.accounted (h : sys.Accounts) : sys.Accounted := by
  refine ⟨?_, ?_, ?_, ?_, ?_, ?_⟩
  · rw [Roster.grants, h.entries, List.map_map, List.map_map]
    rfl
  · rw [h.buffers, List.map_map]
    rfl
  · -- an opening that fails: of its transitions only the refused and the unchanged are left
    intro text changes e hanswer
    have htransition := openSession_transition sys text changes
    rw [show (sys.openSession text changes).2 = .notOpened e from hanswer] at htransition
    show sys.Untouched (sys.openSession text changes).1
    generalize (sys.openSession text changes).1 = sys' at htransition ⊢
    cases htransition with
    | unchanged => exact .refl sys
    | refused left => exact h.untouched left
    | acted hseat => simp [Step.seat?] at hseat
  · intro text changes s hanswer
    have htransition := openSession_transition sys text changes
    rw [show (sys.openSession text changes).2 = .opened s from hanswer] at htransition
    show sys.Enlarged (sys.openSession text changes).1 s ∧ _
    generalize (sys.openSession text changes).1 = sys' at htransition ⊢
    cases htransition with
    | unchanged quiet => simp at quiet
    | acted hseat => simp [Step.seat?] at hseat
    | opened parsed a =>
      obtain ⟨henlarged, hsize⟩ := enlarged_of_admission a
      exact ⟨henlarged, _, parsed, hsize⟩
  · intro seat s hs
    have hclose : (sys.step (.closeSession seat)).1 = sys.afterClose seat s := by
      simp only [System.step, closeSession, hs]
      rfl
    rw [hclose]
    exact ⟨_, _, h.reduced hs⟩
  · intro text changes args quota size hargs hquota hsize
    exact openSession_pastQuota hargs hquota hsize

end System

namespace Course

open BlockMux.System

/-- On a device in memory that has no buffer handed out at first, after every course of events: the
roster and the device have exactly the grants and the buffers of the open sessions, a failed opening
leaves nothing behind, and what an opening adds a closing takes away. -/
theorem openings_accounted (c : Course Ram) (hnone : c.driver.buffers = []) :
    ((create c.mux).runSteps c.steps).Accounted := by
  have hstart : (create c.mux).Accounts := by
    refine ⟨rfl, ?_, ⟨List.nodup_nil, by simp [create, mux, Multiplexer.create]⟩, ?_⟩
    · show c.driver.buffers = []
      exact hnone
    · show Numbered _ (c.driver.buffers.map (·.base))
      rw [hnone]
      exact ⟨List.nodup_nil, by simp⟩
  exact (hstart.runSteps (Orderly.create _) c.steps).accounted

/-- Three sessions are opened, two of them on the same window, and the second is closed with a
packet that waits; two more are turned away. -/
def visited : Course Ram where
  driver := { contents := Memory.zeroed 128, blockSize := 16, queueDepth := some 1 }
  config := { rules := [{}], queueSize := 4 }
  steps := [.openSession "ram_quota=8192,tx_buf_size=32,writeable=no" [],
    .openSession "ram_quota=8192,tx_buf_size=64,writeable=no" [],
    .openSession "ram_quota=8192,tx_buf_size=4097" [],
    .openSession "ram_quota=8192,tx_buf_size=48,span=4" [],
    .client 1 (.submit ⟨.read, 0, 1, 0, 16, false⟩), .handle 1 .submitted, .closeSession 1,
    .openSession "ram_quota=8192,tx_buf_size=48" []]

theorem openings_accounted_visited :
    ((create visited.mux).runSteps visited.steps).mux.backend.driver.buffers.map (·.size) =
        [32, 48] ∧
      ((create visited.mux).runSteps visited.steps).Accounted :=
  ⟨by decide +kernel, openings_accounted visited rfl⟩

end Course
end BlockMux
