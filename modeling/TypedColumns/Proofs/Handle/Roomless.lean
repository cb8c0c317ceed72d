import TypedColumns.Proofs.Handle.Columns
import TypedColumns.Proofs.Handle.Feeding

/-!
# Arenas without room

An arena that may hold no byte at all refuses every value, since every value takes some room in
place. So the only calls of a handle in it that add anything are those of `appendNull`: they are
charged nothing, and the arena is not asked. A type that takes missing values can fill a column
with them (`missing_rows_of_roomless`), whereas a value that is itself missing is refused like all
other values.
-/

namespace TypedColumns

universe u

/-- An arena that may hold no byte. -/
def Ledger.Roomless (l : Ledger) : Prop := l.arena.capacity = some 0

theorem Ledger.Roomless.grow {l : Ledger} (roomless : l.Roomless) {n : Nat} (some : 0 < n) :
    l.arena.grow n = .error ⟨n, l.arena.allocated, 0⟩ := by
  rw [Arena.grow_bounded roomless (by decide), if_neg (by omega)]

/-- Every value takes room in place. -/
theorem ShippedType.size_pos (t : ShippedType) : 0 < Footprint.size t.Values := by
  cases t with
  | number type =>
    have bytes := type.bytes_pos
    change 0 < 8 * type.bytes / 8
    omega
  | _ => decide

namespace Handle

section

variable {α : Type u} [Footprint α] {codec : Codec α} {h : Handle} {l : Ledger}

theorem totals_pos (size : 0 < Footprint.size α) {values : List α} (nonempty : values ≠ []) :
    0 < Footprint.totals values := by
  cases values with
  | nil => exact absurd rfl nonempty
  | cons a as =>
    rw [Footprint.totals, sumOf_cons, Footprint.total]
    omega

/-- Values in a batch end the life of a building handle. Nothing is written, and nothing taken. -/
theorem call_roomless (size : 0 < Footprint.size α) (roomless : l.Roomless) {held : Reservation}
    (state : h.state = .building held) {batch : Batch α} {values : List α}
    (read : batch.values = .ok values) (nonempty : values ≠ []) :
    h.call codec (.append batch) l =
      (.error (.allocation ⟨Footprint.totals values, l.arena.allocated, 0⟩),
        { h with state := .failed held },
        l.report (.refused ⟨Footprint.totals values, l.arena.allocated, 0⟩)) :=
  call_refusedBatch codec l state read nonempty (roomless.grow (totals_pos size nonempty))

/-- A batch that is accepted is empty. -/
theorem values_of_roomless (size : 0 < Footprint.size α) (roomless : l.Roomless) {batch : Batch α}
    {column : Option HeldColumn} (accepted : (h.call codec (.append batch) l).1 = .ok column) :
    batch.values = .ok [] := by
  obtain ⟨values, held, read, -, rfl | ⟨arena, grown⟩⟩ := values_of_accepted accepted
  · exact read
  · by_cases nonempty : values = []
    · rw [read, nonempty]
    · rw [roomless.grow (totals_pos size nonempty)] at grown
      cases grown

/-- A missing value that is accepted is one that the type takes. -/
theorem acceptsNulls_of_call {column : Option HeldColumn}
    (accepted : (h.call codec .appendNull l).1 = .ok column) :
    h.descriptor.acceptsNulls = true := by
  cases closed : h.state.closed? with
  | some why =>
    rw [call_closed codec closed] at accepted
    cases accepted
  | none =>
    obtain ⟨held, state⟩ := closed?_eq_none closed
    cases accepts : h.descriptor.acceptsNulls with
    | true => rfl
    | false =>
      rw [call_refusedNull codec l state accepts] at accepted
      cases accepted

/-- A call adds nothing but a missing row, and that only to a type that takes them. -/
theorem added_of_roomless (size : 0 < Footprint.size α) (roomless : l.Roomless) (c : Call α)
    {row : Option α} (mem : row ∈ added (c, (h.call codec c l).1)) :
    row = none ∧ h.descriptor.acceptsNulls = true := by
  cases c with
  | append batch =>
    cases answered : (h.call codec (.append batch) l).1 with
    | error e =>
      rw [answered] at mem
      cases mem
    | ok column =>
      rw [answered, added, values_of_roomless size roomless answered] at mem
      cases mem
  | appendNull =>
    cases answered : (h.call codec .appendNull l).1 with
    | error e =>
      rw [answered] at mem
      cases mem
    | ok column =>
      rw [answered] at mem
      exact ⟨List.mem_singleton.1 mem, acceptsNulls_of_call answered⟩
  | finalize =>
    cases answered : (h.call codec .finalize l).1 <;> rw [answered] at mem <;> cases mem

/-- By induction on the calls: all rows of a history are missing. -/
theorem accepted_of_roomless (size : 0 < Footprint.size α) {past : List (Call α × Answer)}
    (run : RunsWhere (fun _ l => l.Roomless) codec (fresh codec) past h) {row : Option α}
    (mem : row ∈ accepted past) : row = none ∧ codec.descriptor.acceptsNulls = true := by
  induction run with
  | start => cases mem
  | @call past h' run c l roomless ih =>
    rw [accepted_append, List.mem_append] at mem
    rcases mem with before | now
    · exact ih before
    · obtain ⟨missing, accepts⟩ := added_of_roomless size roomless c now
      have kept := (kept_fresh codec).run run.runs
      exact ⟨missing, kept.descriptor ▸ accepts⟩

/-- No call takes anything, or gives anything back. -/
theorem arena_call_of_roomless (size : 0 < Footprint.size α) (roomless : l.Roomless) (c : Call α) :
    (h.call codec c l).2.2.arena = l.arena := by
  cases closed : h.state.closed? with
  | some why => rw [call_closed codec closed]
  | none =>
    obtain ⟨held, state⟩ := closed?_eq_none closed
    cases c with
    | append batch =>
      cases read : batch.values with
      | error fault => rw [call_invalidBatch codec l state read]
      | ok values =>
        by_cases nonempty : values = []
        · rw [call_emptyBatch codec l state (nonempty ▸ read)]
        · rw [call_roomless size roomless state read nonempty]
          rfl
    | appendNull => rfl
    | finalize =>
      rw [call_finalize codec l state]
      split <;> rfl

end

/-- What a history in an arena without room comes to for a handle of one of the library's types. -/
structure Unfilled (t : ShippedType) (past : List (Call t.Values × Answer)) (h : Handle) :
    Prop where
  /-- Rows come from `appendNull` alone. -/
  rows : accepted past = List.replicate (accepted past).length none
  /-- There are none where the type does not take missing values. -/
  none : t.codec.descriptor.acceptsNulls = false → accepted past = []
  /-- A column that was handed out has these rows, and holds nothing. -/
  columns : ∀ a ∈ columns past, a.reserved = 0 ∧ a.column.length = (accepted past).length ∧
    a.column.rows = List.replicate (accepted past).length (t.read .none)
  /-- The arena does not notice any further call. -/
  arena : ∀ c l, l.Roomless → (h.call t.codec c l).2.2.arena = l.arena
  /-- A value in a batch, missing or not, is refused as long as the handle is building. -/
  refuses : h.state.closed? = .none → ∀ batch values l, l.Roomless → batch.values = .ok values →
    values ≠ [] → ∃ h', h.call t.codec (.append batch) l =
      (.error (.allocation ⟨Footprint.totals values, l.arena.allocated, 0⟩), h',
        l.report (.refused ⟨Footprint.totals values, l.arena.allocated, 0⟩)) ∧
      h'.state.closed? = some .failed ∧ h'.builder = h.builder
  empty : h.state.closed? = .none → ∀ batch l, batch.values = .ok [] →
    h.call t.codec (.append batch) l = (.ok .none, h, l)
  /-- A missing row gets in where the type takes it. -/
  null : h.state.closed? = .none → t.codec.descriptor.acceptsNulls = true → ∀ l,
    (h.call t.codec .appendNull l).1 = .ok .none ∧
      (h.call t.codec .appendNull l).2.1.state = h.state
  /-- What is there can be handed out at any time. -/
  finalizes : h.state.closed? = .none → ∀ l, ∃ a, (h.finalize l).1 = .ok a ∧ a.reserved = 0 ∧
    a.column.length = (accepted past).length

/-- In an arena without room, a handle of one of the library's types is given no value at all. It
hands out a column of as many missing rows as `appendNull` was accepted for, which are charged
nothing. So its columns are empty if the type does not take missing values. -/
theorem missing_rows_of_roomless (t : ShippedType) {capacity : Nat} {l₀ l₁ : Ledger} {h₀ h : Handle}
    {past : List (Call t.Values × Answer)}
    (acquired : acquire t.codec capacity (some l₀) = .ok (h₀, l₁))
    (run : RunsWhere (fun _ l => l.Roomless) t.codec h₀ past h) : Unfilled t past h := by
  have kept := (kept_acquire acquired).run run.runs
  obtain ⟨rfl, -⟩ := acquire_eq acquired
  obtain ⟨build, keeps⟩ := t.faithful
  have only {row : Option t.Values} (mem : row ∈ accepted past) :=
    accepted_of_roomless t.size_pos run mem
  have rows : accepted past = List.replicate (accepted past).length .none :=
    List.eq_replicate_of_mem fun row mem => (only mem).1
  have free : charged past = 0 := by
    rw [charged_eq_totals, rows, valuesOf, List.filterMap_replicate_of_none rfl]
    rfl
  have values : (accepted past).map t.read =
      List.replicate (accepted past).length (t.read .none) := by
    rw [rows, List.map_replicate, List.length_replicate]
  constructor
  case rows => exact rows
  case none =>
    intro refused
    cases given : accepted past with
    | nil => rfl
    | cons row rest =>
      have accepts := (only (given ▸ List.mem_cons_self)).2
      rw [refused] at accepts
      cases accepts
  case columns =>
    intro a mem
    obtain ⟨holds, size⟩ := holds_of_columns keeps run.runs mem
    refine ⟨?_, ?_, holds.rows.trans values⟩
    · rw [HeldColumn.reserved, size, free]
      rfl
    · rw [holds.length, List.length_map]
  case arena =>
    intro c l roomless
    exact arena_call_of_roomless t.size_pos roomless c
  case refuses =>
    intro open' batch values l roomless read nonempty
    obtain ⟨held, state⟩ := closed?_eq_none open'
    exact ⟨_, call_roomless t.size_pos roomless state read nonempty, rfl, rfl⟩
  case empty =>
    intro open' batch l read
    obtain ⟨held, state⟩ := closed?_eq_none open'
    exact call_emptyBatch _ l state read
  case null =>
    intro open' accepts l
    obtain ⟨held, state⟩ := closed?_eq_none open'
    have written := keeps.appendNull (accepted past)
    rw [← (Rows.run keeps run.runs).builder open'] at written
    rw [call_acceptedNull _ l state (kept.descriptor ▸ accepts), written, state]
    exact ⟨rfl, rfl⟩
  case finalizes =>
    intro open' l
    obtain ⟨held, state⟩ := closed?_eq_none open'
    obtain ⟨c, finalized, holds⟩ := (Rows.run keeps run.runs).finalize keeps state l
    refine ⟨_, finalized, ?_, ?_⟩
    · rw [HeldColumn.reserved, kept.reserved held state, free]
      rfl
    · rw [holds.length, List.length_map]

/-- A missing transform gets into a column of an arena without room, and a transform does not. -/
theorem missing_rows_of_transform :
    ∃ past h, RunsWhere (fun _ l => l.Roomless) ShippedType.transform3D.codec
        (fresh ShippedType.transform3D.codec) past h ∧
      Unfilled .transform3D past h ∧
      (∃ a, (h.finalize (.opened (.bounded 0))).1 = .ok a ∧ a.column.length = 1) ∧
      ∃ refusal, (h.call ShippedType.transform3D.codec
        (.append (.ofList [.translationAndMat3x3 default])) (.opened (.bounded 0))).1 =
          .error (.allocation refusal) := by
  let codec := ShippedType.transform3D.codec
  let ledger := Ledger.opened (.bounded 0)
  have acquired : acquire codec 2 (some ledger) =
    .ok (fresh codec, ⟨.bounded 0, [.acquired codec.name 2]⟩) := rfl
  have first : RunsWhere (fun _ l => l.Roomless) codec (fresh codec) [] (fresh codec) := .start
  obtain ⟨answer, state⟩ :=
    (missing_rows_of_roomless .transform3D acquired first).null rfl rfl ledger
  have run : RunsWhere (fun _ l => l.Roomless) codec (fresh codec) _ _ :=
    first.call .appendNull ledger rfl
  have unfilled := missing_rows_of_roomless .transform3D acquired run
  have building := congrArg State.closed? state
  obtain ⟨a, finalized, -, length⟩ := unfilled.finalizes building ledger
  obtain ⟨_, refused, -, -⟩ := unfilled.refuses building _ _ ledger rfl
    (Batch.values_ofList [Transform3D.translationAndMat3x3 default]) (List.cons_ne_nil _ _)
  refine ⟨_, _, run, unfilled, ⟨a, finalized, length.trans ?_⟩, _, congrArg Prod.fst refused⟩
  rw [accepted_append, answer]
  rfl

/-- Not every column of an arena without room is empty. -/
theorem filled_although_roomless :
    ¬ ∀ (t : ShippedType) (past : List (Call t.Values × Answer)) (h : Handle),
      RunsWhere (fun _ l => l.arena = .bounded 0) t.codec (fresh t.codec) past h →
        ∀ a ∈ columns past, a.column.length = 0 := by
  intro empty
  let codec := ShippedType.fuzzOptional.codec
  let ledger := Ledger.opened (.bounded 0)
  obtain ⟨build, keeps⟩ := ShippedType.fuzzOptional.faithful
  have null : RunsWhere (fun _ l => l.arena = .bounded 0) codec (fresh codec) _ _ :=
    RunsWhere.start.call .appendNull ledger rfl
  obtain ⟨c, finalized, holds⟩ := (Rows.run keeps null.runs).finalize keeps rfl ledger
  have none := empty .fuzzOptional _ _ (null.call .finalize ledger rfl) _
    (mem_columns_of_finalize finalized _)
  rw [holds.length] at none
  cases none

end Handle

end TypedColumns
