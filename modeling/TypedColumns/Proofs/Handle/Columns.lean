import TypedColumns.Codec.Irregular
import TypedColumns.Proofs.Cell.RoundTrip
import TypedColumns.Proofs.Column.WellFormed
import TypedColumns.Proofs.Handle.Rows

/-!
# The columns of a history

A codec may write what it likes. Whatever it does, a column that comes out of a history was
finalized by a building handle (`column_of_runs`), has gone through all checks, and is well formed
for the type that the codec declares (`wellFormed_of_runs`).

The checks do not look through a union of a single variant whose id is not zero: such a field may
require values and still have none (`required_value_missing`).
-/

namespace TypedColumns.Handle

universe u

variable {α : Type u} [Footprint α] {codec : Codec α}

/-- Only `finalize` hands out a column. -/
theorem column_of_call {c : Call α} {h : Handle} {l : Ledger} {a : HeldColumn}
    (given : (h.call codec c l).1.toOption.join = some a) : (h.finalize l).1 = .ok a := by
  cases c with
  | append batch =>
    simp only [call] at given
    cases result : (h.append codec batch l).1 <;> rw [result] at given <;> cases given
  | appendNull =>
    simp only [call] at given
    cases result : (h.appendNull codec).1 <;> rw [result] at given <;> cases given
  | finalize =>
    simp only [call] at given
    cases result : (h.finalize l).1 <;> rw [result] at given <;> cases given
    rfl

/-- A handle that hands out a column is finalized by it. -/
theorem closed_of_column {c : Call α} {h : Handle} {l : Ledger} {a : HeldColumn}
    (given : (h.call codec c l).1.toOption.join = some a) :
    c = .finalize ∧ (h.call codec c l).2.1.state.closed? = some .finalized := by
  cases c with
  | append batch =>
    simp only [call] at given
    cases result : (h.append codec batch l).1 <;> rw [result] at given <;> cases given
  | appendNull =>
    simp only [call] at given
    cases result : (h.appendNull codec).1 <;> rw [result] at given <;> cases given
  | finalize =>
    refine ⟨rfl, ?_⟩
    cases closed : h.state.closed? with
    | some why =>
      rw [call_closed codec closed] at given
      cases given
    | none =>
      obtain ⟨held, state⟩ := closed?_eq_none closed
      rw [call_finalize codec l state] at given ⊢
      cases checked : checkedColumn h.descriptor h.builder.finish.1 with
      | error e =>
        rw [checked] at given
        cases given
      | ok column => rfl

/-- Every column of a history was finalized by the handle of an earlier one, and no row has been
added since. -/
theorem finalized_of_runs {h₀ h : Handle} {past : List (Call α × Answer)}
    (run : Runs codec h₀ past h) {a : HeldColumn} (mem : a ∈ columns past) :
    h.state.closed? = some .finalized ∧
      ∃ earlier h' l, Runs codec h₀ earlier h' ∧ (h'.finalize l).1 = .ok a ∧
        accepted past = accepted earlier := by
  induction run with
  | start => cases mem
  | @call past h' run c l ih =>
    rw [columns_append, List.mem_append] at mem
    rcases mem with before | now
    · obtain ⟨closed, earlier, h₁, l₁, run₁, finalized, rows⟩ := ih before
      rw [call_closed codec closed]
      refine ⟨closed, earlier, h₁, l₁, run₁, finalized, ?_⟩
      rw [accepted_append, rows]
      cases c <;> exact List.append_nil _
    · have given : (h'.call codec c l).1.toOption.join = some a := by simpa using now
      obtain ⟨rfl, closed⟩ := closed_of_column given
      refine ⟨closed, past, h', l, run, column_of_call given, ?_⟩
      rw [accepted_append]
      cases (h'.call codec .finalize l).1 <;> exact List.append_nil _

theorem column_of_runs {h₀ h : Handle} {past : List (Call α × Answer)} (run : Runs codec h₀ past h)
    {a : HeldColumn} (mem : a ∈ columns past) :
    ∃ earlier h' l, Runs codec h₀ earlier h' ∧ (h'.finalize l).1 = .ok a := by
  obtain ⟨-, earlier, h', l, before, finalized, -⟩ := finalized_of_runs run mem
  exact ⟨earlier, h', l, before, finalized⟩

/-- A column that a handle gives is that of its builder, and of the type that it declares. -/
theorem column_of_finalize {h : Handle} {a : HeldColumn} {l : Ledger}
    (finalized : (h.finalize l).1 = .ok a) : h.state = .building a.held ∧
      h.builder.finish.1 = .ok a.column ∧ a.column.dataType = h.descriptor.dataType := by
  cases state : h.state with
  | failed held => simp only [finalize, state] at finalized; cases finalized
  | finalized => simp only [finalize, state] at finalized; cases finalized
  | building held =>
    simp only [finalize, state] at finalized
    cases finished : h.builder.finish.1 with
    | error fault =>
      rw [finished] at finalized
      cases finalized
    | ok c =>
      rw [finished] at finalized
      simp only [checkedColumn] at finalized
      split at finalized
      · cases finalized
      · next column checked =>
        split at checked
        · cases checked
        · next type =>
          split at checked
          · cases checked
          · cases checked
            cases finalized
            exact ⟨rfl, rfl, Decidable.not_not.1 type⟩

/-- What a handle hands out is among the columns of its history. -/
theorem mem_columns_of_finalize {h : Handle} {a : HeldColumn} {l : Ledger}
    (finalized : (h.finalize l).1 = .ok a) (past : List (Call α × Answer)) :
    a ∈ columns (past ++ [(.finalize, (h.call codec .finalize l).1)]) := by
  have given : (h.call codec .finalize l).1 = .ok (some a) := by
    simp only [Handle.call, finalized, Except.map]
  rw [columns_append, given]
  exact List.mem_append_right _ List.mem_cons_self

/-- A history may go on with the column of the builder, if that is of the handle's type. -/
theorem Runs.finalize {h₀ h : Handle} {past : List (Call α × Answer)} (run : Runs codec h₀ past h)
    {held : Reservation} (state : h.state = .building held) {c : Column}
    (finished : h.builder.finish.1 = .ok c) (type : c.dataType = h.descriptor.dataType)
    (clean : c.typeFault? = none ∧ c.offsetFault? = none) :
    ∃ past' h', Runs codec h₀ past' h' ∧ ⟨c, held⟩ ∈ columns past' := by
  have finalized : (h.finalize (.opened .tracking)).1 = .ok ⟨c, held⟩ := by
    rw [Cell.finalize_building state finished type clean]
  exact ⟨_, _, run.call .finalize (.opened .tracking), mem_columns_of_finalize finalized past⟩

/-- A column that any codec's handle gives is well formed for the type that the codec declares. A
required field has a value in every row of its struct that is present, as far as unions are looked
through. -/
theorem wellFormed_of_runs {capacity : Nat} {l₀ l₁ : Ledger} {h₀ h : Handle}
    {past : List (Call α × Answer)} (acquired : acquire codec capacity (some l₀) = .ok (h₀, l₁))
    (run : Runs codec h₀ past h) {a : HeldColumn} (mem : a ∈ columns past) :
    a.column.dataType = codec.descriptor.dataType ∧ a.column.WellFormed Value.missingAs ∧
      (codec.descriptor.dataType.Counted → a.column.WellFormed fun _ => Value.isMissing) := by
  obtain ⟨earlier, h', l, before, finalized⟩ := column_of_runs run mem
  have kept := (kept_acquire acquired).run before
  obtain ⟨-, -, type⟩ := column_of_finalize finalized
  rw [kept.descriptor] at type
  have sound : a.column.Sound := by
    rcases result : h'.finalize l with ⟨answer, h'', l''⟩
    rw [result] at finalized
    cases finalized
    exact sound_of_finalize result
  exact ⟨type, sound.wellFormed, fun counted => sound.wellFormed_of_counted (type ▸ counted)⟩

open Irregular (OnlyInt OptionalInt)

/-- A union of one variant with a number in it. -/
theorem wellFormed_number : ∃ past h a, Runs Codec.noNullUnion (fresh Codec.noNullUnion) past h ∧
    a ∈ columns past ∧ a.column.rows = [.variant 0 "int" (.number .int32 7)] ∧
    a.column.WellFormed fun _ => Value.isMissing := by
  have acquired : acquire Codec.noNullUnion 1 (some (.opened .tracking)) =
    .ok (fresh Codec.noNullUnion, ⟨.tracking, [.acquired "test.NoNullUnion" 1]⟩) := rfl
  have first : Runs Codec.noNullUnion (fresh Codec.noNullUnion) _ _ :=
    Runs.start.call (.append (.ofList [⟨7⟩])) (.opened .tracking)
  let c : Column := .union Codec.noNullUnionVariants [0] [0] [.number .int32 [some 7]]
  have types : c.typeFault? = none := by
    simp [c, Codec.noNullUnionVariants, Column.typeFault?, Column.variantFault?, Column.dataType]
  obtain ⟨past, h, run, mem⟩ := first.finalize rfl (rfl : _ = Except.ok c) rfl ⟨types, rfl⟩
  exact ⟨past, h, _, run, mem, rfl,
    (wellFormed_of_runs acquired run mem).2.2 ⟨rfl, trivial, trivial⟩⟩

/-! ## A union that is not looked through -/

/-- Structs with a required union of one variant. -/
def lone : Codec OptionalInt where
  descriptor := ⟨"lone", false, .struct loneFields⟩
  newBuilder := .struct loneFields #[] [.union loneVariants #[] [Codec.optionalInt.newBuilder]]
  append value := do
    Write.toField 0 .union (Codec.optionalInt.appendVariant 5 value)
    Write.endRow "lone" true

/-- The required field of the one row has no value. -/
theorem required_value_missing : ∃ past h a, Runs lone (fresh lone) past h ∧ a ∈ columns past ∧
    a.column.dataType = .struct loneFields ∧ a.column.validity = [true] ∧
    a.column.rows = [.struct [("u", .variant 5 "o" .missing)]] ∧
    ¬ a.column.WellFormed fun _ => Value.isMissing := by
  have first : Runs lone (fresh lone) _ _ :=
    Runs.start.call (.append (.ofList [⟨none⟩])) (.opened .tracking)
  let c : Column := .struct loneFields [true] [.union loneVariants [5] [0] [.number .int32 [none]]]
  have fits : Column.fieldFault? [true] loneFields
      [.union loneVariants [5] [0] [.number .int32 [none]]] = none :=
    Column.fieldFault?_cons.2 ⟨⟨rfl, rfl, .inr rfl⟩, rfl⟩
  have types : c.typeFault? = none := by
    simp [c, loneVariants, Column.typeFault?, Column.typeFaultAmong?, Column.variantFault?,
      Column.dataType]
  have finished : Column.structOf loneFields none
      [.union loneVariants [5] [0] [.number .int32 [none]]] = .ok c :=
    Stream.structOf_marks (List.cons_ne_nil _ _) rfl fits
  obtain ⟨past, h, run, mem⟩ := first.finalize rfl finished rfl ⟨types, rfl⟩
  refine ⟨past, h, _, run, mem, rfl, rfl, rfl, ?_⟩
  intro wellFormed
  rw [Column.WellFormed] at wellFormed
  obtain ⟨-, v, row, present⟩ := wellFormed.1.required 0 _ _ rfl rfl rfl 0 rfl
  cases Option.some.inj row
  cases present

end TypedColumns.Handle
