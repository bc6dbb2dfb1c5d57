import BlockMux.Access.Grant

/-!
# The bounds of a grant

A grant is checked against its partition and against the device. What passes lies inside both, in
exact numbers, and has no right that the rule or the client left out.

Main statements:

* `grant_eq_ok` — where the window of a grant lies, and which rights it has.
* `resolve_eq_ok` — a resolved grant comes from the rule for the label and the client's request.
-/

namespace BlockMux

namespace WindowRequest

/-- A window inside a run of blocks is not empty and stays inside, and its first block is a word. -/
theorem within_eq_ok {request : WindowRequest} {start count offset span : Nat}
    (h : request.within start count = .ok (offset, span)) :
    start ≤ offset ∧ offset ≤ maxWord ∧ 1 ≤ span ∧ offset + span ≤ start + count := by
  unfold within at h
  split at h
  · simp at h
  · split at h
    · simp at h
    · split at h
      · simp at h
      · simp only [Except.ok.injEq, Prod.mk.injEq] at h
        obtain ⟨rfl, hspan⟩ := h
        -- a span of 0 asks for all that is left, which is not empty past the first check
        split at hspan <;> omega

/-- The window of a request that is bound to a partition lies in that partition. -/
theorem window_eq_ok {request : WindowRequest} {table : Option PartitionTable}
    {blockCount offset span index : Nat}
    (h : request.window table blockCount = .ok (offset, span))
    (hindex : request.partition = some index) :
    ∃ t p, table = some t ∧ t.partition? index = some p ∧ p.start ≤ offset ∧
      offset + span ≤ p.start + p.count := by
  unfold window at h
  rw [hindex] at h
  cases table with
  | none => simp at h
  | some t =>
    dsimp only at h
    split at h
    · simp at h
    · rename_i p hp
      obtain ⟨hstart, -, -, hstop⟩ := within_eq_ok h
      exact ⟨t, p, rfl, hp, hstart, hstop⟩

theorem grant_eq_ok {request : WindowRequest} {label : String} {table : Option PartitionTable}
    {blockCount : Nat} {g : Grant} (h : request.grant label table blockCount = .ok g) :
    request.window table blockCount = .ok (g.offset, g.span) ∧
      g.offset < blockCount ∧ g.offset + g.span ≤ blockCount ∧
      g.readable = request.readable ∧ g.writeable = request.writeable := by
  unfold WindowRequest.grant at h
  split at h
  · simp at h
  · rename_i offset span hwindow
    split at h
    · simp at h
    · split at h
      · simp at h
      · simp only [Except.ok.injEq] at h
        subst h
        have hoffset : offset < blockCount := by omega
        have hstop : offset + span ≤ blockCount := by omega
        exact ⟨hwindow, hoffset, hstop, rfl, rfl⟩

end WindowRequest

namespace Grant

theorem resolve_eq_ok {config : Config} {args : Arguments} {table : Option PartitionTable}
    {blockCount : Nat} {g : Grant} (h : resolve config args table blockCount = .ok g) :
    ∃ rule request, Rule.bestRule? config.rules args.label = some rule ∧
      WindowRequest.ofArguments args = .ok request ∧
      (request.restrict rule).grant args.label table blockCount = .ok g := by
  unfold resolve at h
  split at h
  · simp at h
  · rename_i rule hrule
    split at h
    · simp at h
    · rename_i request hrequest
      exact ⟨rule, request, hrule, hrequest, h⟩

end Grant
end BlockMux
