import TypedColumns.Proofs.Arena.Accounts
import TypedColumns.Proofs.Codec.Payload
import TypedColumns.Proofs.Handle.Feeding

/-!
# What a column holds in its arena

The payload of a column is what its rows cost, whatever the batches they came in
(`payload_of_columns`). Values are charged before they are written, and charged enough: a column
that has nothing but values holds at least its payload in the arena (`covered_of_runs`).

What is held is shown by a counter, and so this is for histories whose charges the counter can
show. In a bounded arena that is every history: what is admitted stays within the capacity
(`charged_lt_of_bounded`).
-/

namespace TypedColumns.Handle

section

variable {α : Type} [Footprint α] {codec : Codec α} {cost : Option α → Nat} {h : Handle}
variable {past : List (Call α × Answer)}

/-- The builder of a handle that is building has the codec's tree, and the payload of its rows. -/
theorem payload_of_runs (costs : codec.Costs cost) (runs : Runs codec (fresh codec) past h) :
    h.state.closed? = none →
      h.builder.bare = codec.newBuilder ∧ h.builder.payload = sumOf cost (accepted past) := by
  refine builder_of_runs
    (P := fun rows b => b.bare = codec.newBuilder ∧ b.payload = sumOf cost rows) ?_ ?_ ?_ runs
  · rintro rows b as b' ⟨tree, payload⟩ written
    obtain ⟨b₁, done, tree', payload'⟩ := costs.appendAll as b tree
    obtain rfl : b' = b₁ := (Prod.mk.inj (written.symm.trans done)).2
    refine ⟨tree', ?_⟩
    rw [payload', payload, sumOf_append, sumOf_map]
  · rintro rows b b' ⟨tree, payload⟩ written
    obtain ⟨b₁, done, tree', payload'⟩ := costs.appendNull b tree
    obtain rfl : b' = b₁ := (Prod.mk.inj (written.symm.trans done)).2
    refine ⟨tree', ?_⟩
    rw [payload', payload, sumOf_append]
    rfl
  · refine ⟨costs.bare, ?_⟩
    rw [← costs.bare, Builder.payload_bare]
    rfl

/-- A column that was handed out has the payload of the rows of the history. -/
theorem payload_of_columns (costs : codec.Costs cost) (runs : Runs codec (fresh codec) past h)
    {a : HeldColumn} (mem : a ∈ columns past) : a.column.payload = sumOf cost (accepted past) := by
  obtain ⟨-, earlier, h', l, before, finalized, rows⟩ := finalized_of_runs runs mem
  obtain ⟨state, finished, -⟩ := column_of_finalize finalized
  obtain ⟨-, payload⟩ := payload_of_runs costs before (by rw [state]; rfl)
  rw [Builder.payload_of_finish finished, payload, rows]

omit [Footprint α] in
/-- Without a call of `appendNull`, all rows are values. -/
theorem accepted_of_appends (appends : ∀ made ∈ past, made.1 ≠ .appendNull) :
    ∃ as : List α, accepted past = as.map some := by
  induction past with
  | nil => exact ⟨[], rfl⟩
  | cons made past ih =>
    obtain ⟨as, rest⟩ := ih fun other mem => appends other (List.mem_cons_of_mem made mem)
    obtain ⟨bs, own⟩ : ∃ bs : List α, added made = bs.map some := by
      obtain ⟨c, answer⟩ := made
      cases c with
      | append batch =>
        cases answer with
        | error e => exact ⟨[], rfl⟩
        | ok column => exact ⟨_, rfl⟩
      | appendNull => exact absurd rfl (appends _ List.mem_cons_self)
      | finalize => cases answer <;> exact ⟨[], rfl⟩
    refine ⟨bs ++ as, ?_⟩
    rw [List.map_append, ← own, ← rest]
    rfl

/-- What covers each value covers all values of a history. -/
theorem cost_le_charged (covers : ∀ a, cost (some a) ≤ Footprint.total a)
    (appends : ∀ made ∈ past, made.1 ≠ .appendNull) :
    sumOf cost (accepted past) ≤ charged past := by
  obtain ⟨as, rows⟩ := accepted_of_appends appends
  rw [charged_eq_totals, rows, valuesOf_map_some, sumOf_map]
  exact Footprint.sumOf_le_totals covers as

/-- The arena has the capacity, and accounts for what the handle holds. -/
def HeldIn (capacity : Nat) (h : Handle) (l : Ledger) : Prop :=
  ∃ others, l.arena.Accounts (some capacity) (others + h.reserved)

/-- By induction on the calls: nothing is admitted that the counter cannot show. -/
theorem charged_lt_of_bounded {capacity : Nat}
    (run : RunsWhere (HeldIn capacity) codec (fresh codec) past h) :
    charged past < counterRange := by
  induction run with
  | start =>
    change 0 < counterRange
    decide
  | @call past h' run c l found ih =>
    rw [charged_append]
    cases c with
    | append batch =>
      cases answered : (h'.call codec (.append batch) l).1 with
      | error e => exact ih
      | ok column =>
        obtain ⟨values, held, read, state, rfl | ⟨arena, grown⟩⟩ := values_of_accepted answered
        · rw [charge, read]
          exact ih
        · obtain ⟨others, accounts, -, range⟩ := found
          have size := ((kept_fresh codec).run run.runs).reserved held state
          rw [Nat.mod_eq_of_lt ih] at size
          rw [accounts, Arena.grow_bounded rfl range, reserved_building state, size] at grown
          split at grown
          · next fits =>
            rw [charge, read]
            dsimp only [Except.toOption, Option.getD] at fits ⊢
            omega
          · cases grown
    | appendNull => exact ih
    | finalize => exact ih

end

/-- The column has the payload of the rows and holds what was charged. If all rows are values, that
covers the payload, and the column holds it as far as the counter can show. -/
structure Pays (t : ShippedType) (past : List (Call t.Values × Answer)) (a : HeldColumn) :
    Prop where
  payload : a.column.payload = sumOf t.cost (accepted past)
  reserved : a.reserved = charged past % counterRange
  covered : (∀ made ∈ past, made.1 ≠ .appendNull) → a.column.payload ≤ charged past
  held : (∀ made ∈ past, made.1 ≠ .appendNull) → charged past < counterRange →
    a.column.payload ≤ a.reserved

/-- What a history comes to in bytes for a handle of one of the library's types. -/
structure Covered (t : ShippedType) (past : List (Call t.Values × Answer)) (h : Handle) : Prop where
  /-- On every builder with the codec's tree, whatever its rows, a value adds what it costs. -/
  append : ∀ a b, b.bare = t.codec.newBuilder → ∃ b', (t.codec.append a).apply b = (.ok (), b') ∧
    b'.bare = t.codec.newBuilder ∧ b'.payload = b.payload + t.cost (some a)
  cost : ∀ a, t.cost (some a) ≤ Footprint.total a
  /-- The builder of a building handle is one of these. -/
  tree : h.state.closed? = none → h.builder.bare = t.codec.newBuilder
  columns : ∀ a ∈ columns past, Pays t past a
  /-- There is a column to hand out at any time. -/
  finalizes : h.state.closed? = none → ∀ l, ∃ a, (h.finalize l).1 = .ok a ∧ Pays t past a

/-- Appending a value adds no more to the payload of the builder than the value is charged, and so
a column that has nothing but values holds at least its payload in the arena. -/
theorem covered_of_runs (t : ShippedType) {capacity : Nat} {l₀ l₁ : Ledger} {h₀ h : Handle}
    {past : List (Call t.Values × Answer)}
    (acquired : acquire t.codec capacity (some l₀) = .ok (h₀, l₁))
    (run : Runs t.codec h₀ past h) :
    Covered t past h ∧
      ∀ limit, RunsWhere (HeldIn limit) t.codec h₀ past h → charged past < counterRange := by
  obtain ⟨rfl, -⟩ := acquire_eq acquired
  obtain ⟨build, keeps⟩ := t.faithful
  have pays {a : HeldColumn} (payload : a.column.payload = sumOf t.cost (accepted past))
      (reserved : a.reserved = charged past % counterRange) : Pays t past a := by
    have covered (appends : ∀ made ∈ past, made.1 ≠ .appendNull) :
        a.column.payload ≤ charged past := payload ▸ cost_le_charged t.cost_le_total appends
    refine ⟨payload, reserved, covered, fun appends range => ?_⟩
    rw [reserved, Nat.mod_eq_of_lt range]
    exact covered appends
  refine ⟨?_, fun limit => charged_lt_of_bounded⟩
  constructor
  case append =>
    intro a b tree
    exact (t.costs.append a) b tree
  case cost => exact t.cost_le_total
  case tree =>
    intro building
    exact (payload_of_runs t.costs run building).1
  case columns =>
    intro a mem
    exact pays (payload_of_columns t.costs run mem) (holds_of_columns keeps run mem).2
  case finalizes =>
    intro building l
    obtain ⟨held, state⟩ := closed?_eq_none building
    obtain ⟨c, finalized, -⟩ := (Rows.run keeps run).finalize keeps state l
    obtain ⟨-, finished, -⟩ := column_of_finalize finalized
    refine ⟨_, finalized, pays ?_ (((kept_fresh t.codec).run run).reserved held state)⟩
    rw [Builder.payload_of_finish finished, (payload_of_runs t.costs run building).2]

/-- A record with three letters in its texts, and one without any. -/
theorem covered_of_records :
    ∃ past h a, RunsWhere (HeldIn 200) ShippedType.fuzzRecord.codec
        (fresh ShippedType.fuzzRecord.codec) past h ∧
      Covered .fuzzRecord past h ∧ charged past < counterRange ∧
      (h.finalize (.opened .tracking)).1 = .ok a ∧ a.column.payload = 39 ∧ a.reserved = 155 := by
  let codec := ShippedType.fuzzRecord.codec
  let record : FuzzRecord := ⟨none, .ofString "ab", some (.ofList [.ofString "c"]), 0⟩
  have acquired : acquire codec 2 (some (.opened (.bounded 200))) =
    .ok (fresh codec, ⟨.bounded 200, [.acquired codec.name 2]⟩) := rfl
  have run : RunsWhere (HeldIn 200) codec (fresh codec) _ _ :=
    RunsWhere.start.call (.append (.ofList [record, default])) (.opened (.bounded 200))
      ⟨0, rfl, by decide, by decide⟩
  obtain ⟨covered, bounded⟩ := covered_of_runs .fuzzRecord acquired run.runs
  obtain ⟨a, finalized, pays⟩ := covered.finalizes rfl (.opened .tracking)
  exact ⟨_, _, a, run, covered, bounded 200 run, finalized, pays.payload, pays.reserved⟩

end TypedColumns.Handle
