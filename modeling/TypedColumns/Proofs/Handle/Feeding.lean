import TypedColumns.Proofs.Cell.RoundTrip
import TypedColumns.Proofs.Cell.Wrapping
import TypedColumns.Proofs.Codec.Feeding

/-!
# Rows in batches

What a handle of one of the library's types hands out depends on its rows alone, and of these only
on what shows in a column. How the rows were divided into batches does not matter, nor does it
matter how the codec takes the values of a batch, nor whether an absent record comes as a value or
as a missing row: the columns are the same, and so are the streams made of them (`FedAlike`). What
the handle holds in its arena depends on the values that it was given.
-/

namespace TypedColumns.Handle

open Cell (wrap)

section Charges

variable {α : Type} [Footprint α]

/-- The values among rows. -/
def valuesOf (rows : List (Option α)) : List α := rows.filterMap id

omit [Footprint α] in
theorem valuesOf_map_some (as : List α) : valuesOf (as.map some) = as := by
  rw [valuesOf, List.filterMap_map]
  exact List.filterMap_some

/-- What a call is charged are the values that it adds. -/
theorem charge_eq_totals (c : Call α) (answer : Answer) :
    charge (c, answer) = Footprint.totals (valuesOf (added (c, answer))) := by
  cases c with
  | append batch =>
    cases answer with
    | error e => rfl
    | ok column => rw [charge, added, valuesOf_map_some]
  | appendNull => cases answer <;> rfl
  | finalize => cases answer <;> rfl

/-- What a history is charged are the values among its rows, however they are divided. -/
theorem charged_eq_totals (past : List (Call α × Answer)) :
    charged past = Footprint.totals (valuesOf (accepted past)) := by
  induction past with
  | nil => rfl
  | cons call past ih =>
    have values : valuesOf (accepted (call :: past)) =
        valuesOf (added call) ++ valuesOf (accepted past) := by
      simp [valuesOf, accepted]
    rw [charged] at ih
    rw [charged, sumOf_cons, ih, charge_eq_totals, values, Footprint.totals, Footprint.totals,
      Footprint.totals, sumOf_append]

/-- A column that was handed out reads as the rows of the history, and holds what was charged. -/
theorem holds_of_columns {codec : Codec α} {build : List (Option α) → Builder}
    {value : Option α → Value} (keeps : codec.Keeps build value) {past : List (Call α × Answer)}
    {h : Handle} (run : Runs codec (fresh codec) past h) {a : HeldColumn} (mem : a ∈ columns past) :
    a.column.Holds codec.descriptor.dataType ((accepted past).map value) ∧
      a.held.size = charged past % counterRange := by
  obtain ⟨-, earlier, h', l, before, finalized, rows⟩ := finalized_of_runs run mem
  obtain ⟨state, -, -⟩ := column_of_finalize finalized
  obtain ⟨c, again, holds⟩ := (Rows.run keeps before).finalize keeps state l
  obtain rfl : c = a.column :=
    congrArg HeldColumn.column (Except.ok.inj (again.symm.trans finalized))
  rw [charged_eq_totals, rows, ← charged_eq_totals]
  exact ⟨holds, ((kept_fresh codec).run before).reserved _ state⟩

end Charges

/-- What two handles come to that have rows of which the same shows: `h` and `h'` are the handles,
`rows` and `rows'` what they were given, `held` and `held'` what they hold. -/
structure FedAlike (t : ShippedType) (rows rows' : List (Option t.Values)) (h h' : Handle)
    (held held' : Reservation) (c : Column) : Prop where
  first : ∀ l, (h.finalize l).1 = .ok ⟨c, held⟩
  second : ∀ l, (h'.finalize l).1 = .ok ⟨c, held'⟩
  /-- Without a handle, calls of any kind that write such rows lead a new builder to the same
  column, and none of them fails. -/
  fed : ∀ feeds : List (Feed t.Values),
    (feeds.flatMap Feed.rows).map t.shown = rows.map t.shown →
      (∀ answer ∈ (Feed.run t.codec feeds t.codec.newBuilder).1, answer = .ok ()) ∧
        (Feed.run t.codec feeds t.codec.newBuilder).2.finish.1 = .ok c
  /-- The column makes a cell. -/
  wraps : ∀ o held, ∃ cell,
    (wrap t.codec.descriptor ⟨c, held⟩ ⟨o, none⟩ (.opened .tracking)).1 = .ok cell
  /-- Cells of the two columns have the same bytes. -/
  stream : ∀ d options l l' cell cell', (wrap d ⟨c, held⟩ options l).1 = .ok cell →
    (wrap d ⟨c, held'⟩ options l').1 = .ok cell' →
      cell.name = cell'.name ∧ cell.buffer = cell'.buffer
  /-- The same values take the same room. -/
  reserved : valuesOf rows = valuesOf rows' → held = held'

/-- An arena that only counts admits a cell of every column that can be wrapped. -/
theorem wraps_of_columns (t : ShippedType) {past : List (Call t.Values × Answer)} {h : Handle}
    {a : HeldColumn} (runs : Runs t.codec (fresh t.codec) past h)
    (finalized : (h.finalize (.opened .tracking)).1 = .ok a) (o : Stream.WriteOptions)
    (held : Reservation) : ∃ cell,
      (wrap t.codec.descriptor ⟨a.column, held⟩ ⟨o, none⟩ (.opened .tracking)).1 = .ok cell := by
  have answer : (h.call t.codec .finalize (.opened .tracking)).1 = .ok (some a) := by
    simp only [call, finalized, Except.map]
  have given := runs.call .finalize (.opened .tracking)
  have mem : a ∈ columns
      (past ++ [(.finalize, (h.call t.codec .finalize (.opened .tracking)).1)]) := by
    rw [columns_append, answer]
    exact List.mem_append_right _ List.mem_cons_self
  have acquired : acquire t.codec 0 (some (.opened .tracking)) = .ok (fresh t.codec, _) := rfl
  cases found : Cell.columnFault? t.codec.descriptor a.column with
  | some fault =>
    exact absurd rfl (t.wrappable acquired given mem .standard (.opened .tracking) _
      (Cell.wrap_of_columnFault? found _ _))
  | none =>
    obtain ⟨type, full⟩ := Cell.columnFault?_eq_none.1 found
    obtain ⟨taken, wrapped⟩ := Cell.wrap_unlimited o held type full
    exact ⟨_, wrapped⟩

/-- Two handles of one of the library's types whose accepted calls add rows of which the same shows
hand out the same column, and the same bytes if it is wrapped, however the rows are divided into
calls, whatever the handles refused in between, and whatever happened in their arenas. -/
theorem fedAlike_of_runs (t : ShippedType) {capacity capacity' : Nat} {l₀ l₁ l₀' l₁' : Ledger}
    {h₀ h h₀' h' : Handle} {past past' : List (Call t.Values × Answer)} {held held' : Reservation}
    (acquired : acquire t.codec capacity (some l₀) = .ok (h₀, l₁))
    (acquired' : acquire t.codec capacity' (some l₀') = .ok (h₀', l₁'))
    (runs : Runs t.codec h₀ past h) (runs' : Runs t.codec h₀' past' h')
    (building : h.state = .building held) (building' : h'.state = .building held')
    (alike : (accepted past).map t.shown = (accepted past').map t.shown) :
    ∃ c, FedAlike t (accepted past) (accepted past') h h' held held' c := by
  obtain ⟨build, keeps⟩ := t.faithful
  have size := ((kept_acquire acquired).run runs).reserved held building
  have size' := ((kept_acquire acquired').run runs').reserved held' building'
  obtain ⟨rfl, -⟩ := acquire_eq acquired
  obtain ⟨rfl, -⟩ := acquire_eq acquired'
  have same : ∀ {rows : List (Option t.Values)}, rows.map t.shown = (accepted past).map t.shown →
      build rows = build (accepted past) := keeps.build_alike t.writesShown
  have holds := Rows.run keeps runs
  have holds' : Rows t.codec build (accepted past) h' := by
    obtain ⟨descriptor, builder⟩ := Rows.run keeps runs'
    exact ⟨descriptor, fun open? => (builder open?).trans (same alike.symm)⟩
  obtain ⟨c, finished, sound⟩ := keeps.finishes (accepted past)
  have column : ∀ {h : Handle} {held : Reservation}, Rows t.codec build (accepted past) h →
      h.state = .building held → ∀ l, (h.finalize l).1 = .ok ⟨c, held⟩ := by
    intro h held holds building l
    obtain ⟨c', finalized, -⟩ := holds.finalize keeps building l
    obtain ⟨-, own, -⟩ := column_of_finalize finalized
    rw [holds.builder (by rw [building]; rfl), finished] at own
    cases own
    exact finalized
  refine ⟨c, column holds building, column holds' building', ?_, ?_, ?_, ?_⟩
  · intro feeds fed
    rw [keeps.newBuilder, Feed.run_of_keeps keeps, List.nil_append, same fed]
    refine ⟨fun answer mem => ?_, finished⟩
    obtain ⟨feed, -, rfl⟩ := List.mem_map.1 mem
    rfl
  · exact wraps_of_columns t runs (column holds building _)
  · intro d options l l' cell cell' wrapped wrapped'
    obtain ⟨-, name, buffer⟩ := Cell.wrap_ok (Prod.ext wrapped rfl)
    obtain ⟨-, name', buffer'⟩ := Cell.wrap_ok (Prod.ext wrapped' rfl)
    exact ⟨name.trans name'.symm, buffer.trans buffer'.symm⟩
  · intro values
    rw [charged_eq_totals] at size size'
    rw [values, ← size'] at size
    exact congrArg Reservation.mk size

/-- A record, an absent one and a record, in one batch, and one by one with an empty batch and a
missing row in between. -/
theorem fedAlike_of_records :
    ∃ past past' h h' held held' c,
      Runs ShippedType.fuzzOptional.codec (fresh ShippedType.fuzzOptional.codec) past h ∧
      Runs ShippedType.fuzzOptional.codec (fresh ShippedType.fuzzOptional.codec) past' h' ∧
      h.state = .building held ∧ h'.state = .building held' ∧ past.length = 1 ∧ past'.length = 4 ∧
      FedAlike .fuzzOptional (accepted past) (accepted past') h h' held held' c := by
  let codec := ShippedType.fuzzOptional.codec
  have acquired : acquire codec 3 (some (.opened .tracking)) =
    .ok (fresh codec, ⟨.tracking, [.acquired codec.name 3]⟩) := rfl
  have whole : Runs codec (fresh codec) _ _ :=
    Runs.start.call (.append (.ofList [⟨some default⟩, ⟨none⟩, ⟨some default⟩]))
      (.opened .tracking)
  have first : Runs codec (fresh codec) _ _ :=
    Runs.start.call (.append (.ofList [⟨some default⟩])) (.opened .tracking)
  have second : Runs codec (fresh codec) _ _ := first.call .appendNull (.opened .tracking)
  have third : Runs codec (fresh codec) _ _ := second.call (.append .empty) (.opened .tracking)
  have fourth : Runs codec (fresh codec) _ _ :=
    third.call (.append (.ofList [⟨some default⟩])) (.opened .tracking)
  obtain ⟨c, fed⟩ := fedAlike_of_runs .fuzzOptional acquired acquired whole fourth rfl rfl rfl
  exact ⟨_, _, _, _, _, _, c, whole, fourth, rfl, rfl, rfl, rfl, fed⟩

end TypedColumns.Handle
