import TypedColumns.Proofs.Codec.Discerning
import TypedColumns.Proofs.Handle.Lifecycle

/-!
# The rows of a handle

Which rows a handle holds can be told from its history alone: the values of every accepted append
and a missing row for every accepted `appendNull`, in the order of the calls (`accepted`). While the
handle is building, its builder is that of these rows, whatever its codec, as long as the codec
keeps its rows. So the column that it hands out reads as these rows.
-/

namespace TypedColumns.Handle

universe u

variable {α : Type u}

/-- The rows that a call adds: none if it was answered by an error. -/
def added : Call α × Answer → List (Option α)
  | (.append batch, .ok _) => (batch.values.toOption.getD []).map some
  | (.appendNull, .ok _) => [none]
  | _ => []

/-- The rows of all accepted calls. -/
def accepted (past : List (Call α × Answer)) : List (Option α) := past.flatMap added

theorem accepted_append (past : List (Call α × Answer)) (c : Call α) (answer : Answer) :
    accepted (past ++ [(c, answer)]) = accepted past ++ added (c, answer) := by
  simp [accepted]

variable [Footprint α] {codec : Codec α} {build : List (Option α) → Builder}
variable {value : Option α → Value}

section Invariant

variable {P : List (Option α) → Builder → Prop}
variable (values : ∀ rows b as b', P rows b → (codec.appendAll as).apply b = (.ok (), b') →
  P (rows ++ as.map some) b')
variable (missing : ∀ rows b b', P rows b → codec.appendNull.apply b = (.ok (), b') →
  P (rows ++ [none]) b')

include values missing

/-- What the writes of a codec keep true of the rows and the builder, a call keeps true that leaves
the handle building. -/
theorem builder_of_call {rows : List (Option α)} {h : Handle}
    (holds : h.state.closed? = none → P rows h.builder) (c : Call α) (l : Ledger)
    (building : (h.call codec c l).2.1.state.closed? = none) :
    P (rows ++ added (c, (h.call codec c l).1)) (h.call codec c l).2.1.builder := by
  cases closed : h.state.closed? with
  | some why =>
    rw [call_closed codec closed] at building
    rw [closed] at building
    cases building
  | none =>
    obtain ⟨held, state⟩ := closed?_eq_none closed
    have before := holds closed
    have same : P (rows ++ []) h.builder := by rwa [List.append_nil]
    cases c with
    | append batch =>
      cases read : batch.values with
      | error fault =>
        rw [call_invalidBatch codec l state read]
        exact same
      | ok as =>
        by_cases nonempty : as = []
        · subst nonempty
          rw [call_emptyBatch codec l state read, added, read]
          exact same
        · cases grown : l.arena.grow (Footprint.totals as) with
          | error refusal =>
            rw [call_refusedBatch codec l state read nonempty grown] at building
            cases building
          | ok arena =>
            rw [call_admittedBatch codec l state read nonempty grown] at building ⊢
            rcases written : (codec.appendAll as).apply h.builder with ⟨e | _, b'⟩
            · rw [written] at building
              cases building
            · rw [added, read]
              exact values rows h.builder as b' before written
    | appendNull =>
      cases accepts : h.descriptor.acceptsNulls with
      | false =>
        rw [call_refusedNull codec l state accepts]
        exact same
      | true =>
        rw [call_acceptedNull codec l state accepts] at building ⊢
        rcases written : codec.appendNull.apply h.builder with ⟨e | _, b'⟩
        · rw [written] at building
          cases building
        · exact missing rows h.builder b' before written
    | finalize =>
      rw [call_finalize codec l state] at building
      split at building
      · cases building
      · cases building

/-- And so it is true of the accepted rows and the builder of a handle that is building. -/
theorem builder_of_runs (start : P [] codec.newBuilder) {h : Handle}
    {past : List (Call α × Answer)} (runs : Runs codec (fresh codec) past h) :
    h.state.closed? = none → P (accepted past) h.builder := by
  induction runs with
  | start => exact fun _ => start
  | call run c l ih =>
    rw [accepted_append]
    exact builder_of_call values missing ih c l

end Invariant

/-- While the handle is building, it holds the rows of the accepted calls and nothing else. -/
structure Rows (codec : Codec α) (build : List (Option α) → Builder) (rows : List (Option α))
    (h : Handle) : Prop where
  descriptor : h.descriptor = codec.descriptor
  builder : h.state.closed? = none → h.builder = build rows

theorem Rows.run (keeps : codec.Keeps build value) {h : Handle} {past : List (Call α × Answer)}
    (runs : Runs codec (fresh codec) past h) : Rows codec build (accepted past) h := by
  refine ⟨((kept_fresh codec).run runs).descriptor, ?_⟩
  refine builder_of_runs (P := fun rows b => b = build rows) ?_ ?_ keeps.newBuilder runs
  · rintro rows b as b' rfl written
    rw [keeps.appendAll] at written
    exact (Prod.mk.inj written).2.symm
  · rintro rows b b' rfl written
    rw [keeps.appendNull] at written
    exact (Prod.mk.inj written).2.symm

/-- A building handle hands out the column of its rows. -/
theorem Rows.finalize (keeps : codec.Keeps build value) {rows : List (Option α)} {h : Handle}
    {held : Reservation} (holds : Rows codec build rows h) (state : h.state = .building held)
    (l : Ledger) : ∃ c, (h.finalize l).1 = .ok ⟨c, held⟩ ∧
      c.Holds codec.descriptor.dataType (rows.map value) := by
  have building : h.state.closed? = none := by rw [state]; rfl
  obtain ⟨c, finished, sound⟩ := keeps.finishes rows
  rw [← holds.builder building] at finished
  have checked : checkedColumn h.descriptor h.builder.finish.1 = .ok c := by
    have type : ¬ c.dataType ≠ h.descriptor.dataType := by
      rw [sound.dataType, holds.descriptor]
      exact fun other => other rfl
    rw [finished, checkedColumn, if_neg type, sound.types, sound.offsets]
    rfl
  refine ⟨c, ?_, sound⟩
  simp only [Handle.finalize, state, checked]

/-- Whatever was called on a handle of one of the library's types, as long as it is building it
hands out a column of that type, and the column reads as the values of the accepted appends, in the
order of the calls, with a missing row for each accepted `appendNull`. Nothing that shows in a
column is lost on the way. -/
theorem rows_of_runs (t : ShippedType) {capacity : Nat} {l l' : Ledger} {h₀ h : Handle}
    {past : List (Call t.Values × Answer)} {held : Reservation}
    (acquired : acquire t.codec capacity (some l) = .ok (h₀, l')) (runs : Runs t.codec h₀ past h)
    (building : h.state = .building held) (ledger : Ledger) :
    (∃ c, (h.finalize ledger).1 = .ok ⟨c, held⟩ ∧ c.dataType = t.codec.descriptor.dataType ∧
      c.length = (accepted past).length ∧ c.rows = (accepted past).map t.read ∧
      c.missing = (accepted past).map fun row => (t.read row).isMissing) ∧
    Discerns t.read t.shown ∧
    t.read none = (if t.codec.descriptor.dataType.isUnion then .variant 0 "_null_markers" .missing
      else .missing) := by
  obtain ⟨build, keeps⟩ := t.faithful
  obtain ⟨rfl, -⟩ := acquire_eq acquired
  obtain ⟨c, finalized, holds⟩ := (Rows.run keeps runs).finalize keeps building ledger
  refine ⟨⟨c, finalized, holds.dataType, ?_, holds.rows, ?_⟩, t.discerns, t.read_none⟩
  · rw [holds.length, List.length_map]
  · rw [holds.missing, List.map_map]
    rfl

/-- Two records, the first of them absent, then a missing row, and a batch that falls short. -/
theorem rows_of_records :
    ∃ past h held,
      Runs ShippedType.fuzzOptional.codec (fresh ShippedType.fuzzOptional.codec) past h ∧
      h.state = .building held ∧ past.length = 3 ∧ (accepted past).length = 3 ∧
      ∃ c, (h.finalize (.opened .tracking)).1 = .ok ⟨c, held⟩ ∧
        c.rows = (accepted past).map ShippedType.fuzzOptional.read := by
  let codec := ShippedType.fuzzOptional.codec
  have acquired : acquire codec 4 (some (.opened .tracking)) =
    .ok (fresh codec, ⟨.tracking, [.acquired codec.name 4]⟩) := rfl
  have first : Runs codec (fresh codec) _ _ :=
    Runs.start.call (.append (.ofList [⟨none⟩, ⟨some default⟩])) (.opened .tracking)
  have second : Runs codec (fresh codec) _ _ := first.call .appendNull (.opened .tracking)
  have third : Runs codec (fresh codec) _ _ :=
    second.call (.append ⟨some [⟨none⟩], 2⟩) (.opened .tracking)
  obtain ⟨⟨c, finalized, -, -, rows, -⟩, -⟩ :=
    rows_of_runs .fuzzOptional acquired third rfl (.opened .tracking)
  exact ⟨_, _, _, third, rfl, rfl, rfl, c, finalized, rows⟩

end TypedColumns.Handle
