import BlockMux.Access.Grant

/-!
# The roster of open sessions

The roster holds the grants of all open sessions. A grant is entered only if it does not share a
block with another one while both may write.

* `grants_register` — an entered grant stands at the end of the roster.
-/

namespace BlockMux

/-- The grants of open sessions, each under its ticket, in the order they were entered. -/
structure Roster where
  nextTicket : Nat := 0
  entries : List (Nat × Grant) := []
  deriving DecidableEq, Repr

namespace Roster

/-- The grants of the open sessions. -/
def grants (roster : Roster) : List Grant := roster.entries.map (·.2)

/-- Whether two grants share a block that both may write to. -/
def conflict (g h : Grant) : Bool := g.overlaps h && g.writeable && h.writeable

/-- Enters a grant and hands out its ticket; a conflict is reported with the earliest session. -/
def register (roster : Roster) (grant : Grant) : Except Denial (Roster × Nat) :=
  -- an overlap with only one writer is allowed
  match roster.grants.find? (conflict grant) with
  | some other => .error (.writeConflict other.label)
  | none =>
    .ok (⟨roster.nextTicket + 1, roster.entries ++ [(roster.nextTicket, grant)]⟩, roster.nextTicket)

/-- Takes the grant of a ticket off the roster. -/
def release (roster : Roster) (ticket : Nat) : Roster :=
  { roster with entries := roster.entries.filter (·.1 != ticket) }

theorem grants_register {roster next : Roster} {grant : Grant} {ticket : Nat}
    (h : roster.register grant = .ok (next, ticket)) : next.grants = roster.grants ++ [grant] := by
  unfold register at h
  split at h
  · simp at h
  · simp only [Except.ok.injEq, Prod.mk.injEq] at h
    obtain ⟨rfl, rfl⟩ := h
    simp [grants]

end Roster
end BlockMux
