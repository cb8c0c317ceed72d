import Mathlib.Data.List.Forall2
import TypedColumns.Codec.Irregular
import TypedColumns.Proofs.Cell.Wrapping
import TypedColumns.Proofs.Codec.Delegation

/-!
# Handles of types that hold one value

A handle of a type that leaves its values to another codec does what the handle of that codec does
with the values inside (`Handle.Twin`): it is in the same state, holds the same, and hands out the
same column. Only where an error names the type, the names differ (`Handle.Renamed`).

The cells of the column differ in the name too, and in one thing more: the field of the outer type
is not nullable, whatever the inner codec declares. So a column with missing rows, which a nullable
inner type is free to write for a value, makes a cell of the inner type but not of the outer one
(`wrappedOptional_not_transparent`).
-/

namespace TypedColumns

universe u

/-- The batch of the values inside. -/
def Batch.map {α β : Type u} (get : α → β) (batch : Batch α) : Batch β :=
  ⟨batch.view.map (List.map get), batch.count⟩

theorem Batch.values_map {α β : Type u} (get : α → β) (batch : Batch α) :
    (batch.map get).values = batch.values.map (List.map get) := by
  obtain ⟨view, count⟩ := batch
  rw [Batch.values, Batch.values, Batch.map]
  dsimp only
  by_cases empty : count = 0
  · rw [if_pos empty, if_pos empty]
    rfl
  · rw [if_neg empty, if_neg empty]
    cases view with
    | none => rfl
    | some values =>
      rw [Option.map_some]
      dsimp only
      rw [List.length_map]
      by_cases enough : count ≤ values.length
      · rw [if_pos enough, if_pos enough, ← List.map_take]
        rfl
      · rw [if_neg enough, if_neg enough]
        rfl

namespace Handle

variable {α β : Type u} [Footprint α] [Footprint β]

/-- The call with the values inside. -/
def Call.map (get : α → β) : Call α → Call β
  | .append batch => .append (batch.map get)
  | .appendNull => .appendNull
  | .finalize => .finalize

/-- Calls one after the other, each with the ledger that it finds: what they are answered and how
they leave their arenas, and the handle in the end. -/
def callAll (codec : Codec α) : List (Call α × Ledger) → Handle → List (Answer × Arena) × Handle
  | [], h => ([], h)
  | (c, l) :: calls, h =>
    let (answer, h, l) := h.call codec c l
    let (answers, h) := callAll codec calls h
    ((answer, l.arena) :: answers, h)

/-- Answers that differ at most in the name of the handle's type. -/
inductive Renamed (outer inner : String) : Answer → Answer → Prop
  | same (answer : Answer) : Renamed outer inner answer answer
  | closed (action : String) (why : Closed) :
      Renamed outer inner (.error (.argument (.handleClosed action outer why)))
        (.error (.argument (.handleClosed action inner why)))
  | notNullable :
      Renamed outer inner (.error (.argument (.notNullable outer)))
        (.error (.argument (.notNullable inner)))
  | finalization (fault : FinishFault) :
      Renamed outer inner (.error (.finalization outer fault)) (.error (.finalization inner fault))

/-- Handles of two types with the same builder, in the same state. While they are building, the
builder is one of those that the codec writes to. -/
structure Twin (outer : Codec α) (inner : Codec β) (P : Builder → Prop) (h g : Handle) : Prop where
  first : h.descriptor = outer.descriptor
  second : g.descriptor = inner.descriptor
  builder : h.builder = g.builder
  state : h.state = g.state
  suits : h.state.closed? = none → P h.builder

section Twins

variable {outer : Codec α} {inner : Codec β} {get : α → β} {P : Builder → Prop} {h g : Handle}

/-- What two handles answer to one call, and what the call leaves. -/
structure CalledAlike (outer : Codec α) (inner : Codec β) (P : Builder → Prop)
    (r r' : Answer × Handle × Ledger) : Prop where
  answer : Renamed outer.name inner.name r.1 r'.1
  twin : Twin outer inner P r.2.1 r'.2.1
  arena : r.2.2.arena = r'.2.2.arena

theorem checkedColumn_renamed {d d' : Descriptor} (type : d.dataType = d'.dataType)
    (result : Except BuildFault Column) :
    (∃ c, checkedColumn d result = .ok c ∧ checkedColumn d' result = .ok c) ∨
      ∃ fault, checkedColumn d result = .error (.finalization d.name fault) ∧
        checkedColumn d' result = .error (.finalization d'.name fault) := by
  cases result with
  | error fault => exact .inr ⟨_, rfl, rfl⟩
  | ok c =>
    rw [checkedColumn, checkedColumn, type]
    by_cases other : c.dataType ≠ d'.dataType
    · rw [if_pos other, if_pos other]
      exact .inr ⟨_, rfl, rfl⟩
    · rw [if_neg other, if_neg other]
      cases c.typeFault? <|> c.offsetFault? with
      | none => exact .inl ⟨c, rfl, rfl⟩
      | some fault => exact .inr ⟨_, rfl, rfl⟩

/-- Twins that are closed. -/
theorem Twin.close (twin : Twin outer inner P h g) {builder builder' : Builder} {state : State}
    {why : Closed} (same : builder = builder') (closed : state.closed? = some why) :
    Twin outer inner P { h with builder, state } { g with builder := builder', state } := by
  refine ⟨twin.first, twin.second, same, rfl, fun building => ?_⟩
  rw [show state.closed? = none from building] at closed
  cases closed

/-- Both handles write the same, and what comes of it decides for both. -/
theorem Twin.written (twin : Twin outer inner P h g) {w : Write}
    (kept : P (w.apply h.builder).2) (held : Reservation) (l : Ledger) :
    CalledAlike outer inner P
      (match w.apply h.builder with
        | (.ok (), builder) => (.ok none, { h with builder, state := .building held }, l)
        | (.error e, builder) => (.error e, { h with builder, state := .failed held }, l))
      (match w.apply g.builder with
        | (.ok (), builder) => (.ok none, { g with builder, state := .building held }, l)
        | (.error e, builder) => (.error e, { g with builder, state := .failed held }, l)) := by
  rw [← twin.builder]
  rcases written : w.apply h.builder with ⟨e | _, builder⟩
  · exact ⟨.same _, twin.close rfl rfl, rfl⟩
  · rw [written] at kept
    exact ⟨.same _, ⟨twin.first, twin.second, rfl, rfl, fun _ => kept⟩, rfl⟩

/-- One call on twins: a batch of values and the values inside, a missing value of a type that the
inner codec does not declare nullable, or the end. -/
theorem Twin.call (leaves : outer.Leaves inner get) (uniform : inner.Uniform P)
    (twin : Twin outer inner P h g) (c : Call α) (l : Ledger)
    (given : c = .appendNull → inner.descriptor.nullable = false) :
    CalledAlike outer inner P (h.call outer c l) (g.call inner (c.map get) l) := by
  have names : h.descriptor.name = outer.name ∧ g.descriptor.name = inner.name := by
    rw [twin.first, twin.second]
    exact ⟨rfl, rfl⟩
  have type : h.descriptor.dataType = g.descriptor.dataType := by
    rw [twin.first, twin.second, leaves.descriptor]
  cases closed : h.state.closed? with
  | some why =>
    rw [call_closed outer closed, call_closed inner (twin.state ▸ closed)]
    have action : (c.map get).action = c.action := by cases c <;> rfl
    refine ⟨?_, twin, rfl⟩
    rw [closedFault, closedFault, names.1, names.2, action]
    exact .closed c.action why
  | none =>
    obtain ⟨held, state⟩ := closed?_eq_none closed
    have state' : g.state = .building held := twin.state ▸ state
    have suits := twin.suits closed
    cases c with
    | append batch =>
      have inside := Batch.values_map get batch
      cases read : batch.values with
      | error fault =>
        rw [read] at inside
        rw [call_invalidBatch outer l state read, Call.map, call_invalidBatch inner l state' inside]
        exact ⟨.same _, twin, rfl⟩
      | ok values =>
        rw [read] at inside
        by_cases nonempty : values = []
        · subst nonempty
          rw [call_emptyBatch outer l state read, Call.map, call_emptyBatch inner l state' inside]
          exact ⟨.same _, twin, rfl⟩
        · have nonempty' : values.map get ≠ [] :=
            fun empty => nonempty (List.map_eq_nil_iff.1 empty)
          have totals := leaves.totals values
          cases grown : l.arena.grow (Footprint.totals values) with
          | error refusal =>
            rw [call_refusedBatch outer l state read nonempty grown, Call.map,
              call_refusedBatch inner l state' inside nonempty' (totals ▸ grown)]
            exact ⟨.same _, twin.close twin.builder rfl, rfl⟩
          | ok arena =>
            rw [call_admittedBatch outer l state read nonempty grown, Call.map,
              call_admittedBatch inner l state' inside nonempty' (totals ▸ grown), totals]
            dsimp only
            rw [leaves.apply_appendAll uniform values suits]
            exact twin.written (uniform.kept (.values (values.map get)) _ suits) _ _
    | appendNull =>
      have accepts : g.descriptor.acceptsNulls = h.descriptor.acceptsNulls := by
        rw [Descriptor.acceptsNulls, Descriptor.acceptsNulls, type, twin.first, twin.second,
          leaves.descriptor, given rfl]
      cases accepted : h.descriptor.acceptsNulls with
      | false =>
        rw [call_refusedNull outer l state accepted, Call.map,
          call_refusedNull inner l state' (accepts.trans accepted), names.1, names.2]
        exact ⟨.notNullable, twin, rfl⟩
      | true =>
        rw [call_acceptedNull outer l state accepted, Call.map,
          call_acceptedNull inner l state' (accepts.trans accepted), leaves.appendNull]
        exact twin.written (uniform.kept .missing _ suits) held l
    | finalize =>
      rw [call_finalize outer l state, Call.map, call_finalize inner l state', ← twin.builder]
      rcases checkedColumn_renamed type h.builder.finish.1 with
        ⟨column, checked, checked'⟩ | ⟨fault, checked, checked'⟩
      · rw [checked, checked']
        exact ⟨.same _, twin.close rfl rfl, rfl⟩
      · rw [checked, checked', names.1, names.2]
        exact ⟨.finalization fault, twin.close rfl rfl, rfl⟩

/-- By induction on the calls. -/
theorem Twin.callAll (leaves : outer.Leaves inner get) (uniform : inner.Uniform P)
    (calls : List (Call α × Ledger)) (twin : Twin outer inner P h g)
    (given : ∀ call ∈ calls, call.1 = .appendNull → inner.descriptor.nullable = false) :
    List.Forall₂ (fun a a' => Renamed outer.name inner.name a.1 a'.1 ∧ a.2 = a'.2)
        (h.callAll outer calls).1
        (g.callAll inner (calls.map fun call => (call.1.map get, call.2))).1 ∧
      Twin outer inner P (h.callAll outer calls).2
        (g.callAll inner (calls.map fun call => (call.1.map get, call.2))).2 := by
  induction calls generalizing h g with
  | nil => exact ⟨.nil, twin⟩
  | cons call calls ih =>
    obtain ⟨c, l⟩ := call
    obtain ⟨given, others⟩ := List.forall_mem_cons.1 given
    have called := twin.call leaves uniform c l given
    obtain ⟨answers, twin⟩ := ih called.twin others
    exact ⟨.cons ⟨called.answer, called.arena⟩ answers, twin⟩

end Twins

end Handle

/-! ## Cells -/

section Cells

open Cell (wrap columnFault?)
open TypedColumns.Stream (write)

variable {α β : Type u} [Footprint α] [Footprint β] {outer : Codec α} {inner : Codec β}
variable {get : α → β}

namespace Codec

/-- The field that the cells of the outer type declare: that of the inner type under another name,
and not nullable. -/
theorem Leaves.field (leaves : outer.Leaves inner get) : outer.descriptor.field =
    { inner.descriptor.field with name := outer.name, nullable := false } := by
  rw [leaves.descriptor]
  rfl

/-- A column can be wrapped as one of the outer type if it can be as one of the inner type, and has
no missing rows where the inner type's field is nullable. -/
theorem Leaves.columnFault? (leaves : outer.Leaves inner get) (c : Column) :
    columnFault? outer.descriptor c = none ↔ columnFault? inner.descriptor c = none ∧
      (inner.descriptor.nullable = true → c.nullCount = 0) := by
  have type : outer.descriptor.dataType = inner.descriptor.dataType := by rw [leaves.descriptor]
  have required : outer.descriptor.nullable = false := by rw [leaves.descriptor]
  by_cases same : c.dataType = inner.descriptor.dataType
  · rw [Cell.columnFault?_of_type same, Cell.columnFault?_of_type (same.trans type.symm), required]
    cases inner.descriptor.nullable <;> simp
  · rw [Cell.columnFault?, Cell.columnFault?, type, if_pos same, if_pos same]
    constructor
    · intro none
      cases none
    · intro both
      cases both.1

/-- Leaving values to another codec shows in nothing but names, as long as no missing row of a
nullable type comes to a cell. -/
structure Transparent (outer : Codec α) (inner : Codec β) (get : α → β) (P : Builder → Prop) :
    Prop where
  total : ∀ a : α, Footprint.total a = Footprint.total (get a)
  newBuilder : outer.newBuilder = inner.newBuilder
  dataType : outer.descriptor.dataType = inner.descriptor.dataType
  /-- Values, missing values, optional values and runs, in any order, also after some failed. -/
  feeds : ∀ (fs : List (Feed α)) b, P b →
    Feed.run outer fs b = Feed.run inner (fs.map (Feed.map get)) b
  /-- New handles that are called alike answer alike, find the arenas the same again, and come to
  the same. Missing values are among the calls if both types take them. -/
  handles : P inner.newBuilder → ∀ calls : List (Handle.Call α × Ledger),
    (∀ call ∈ calls, call.1 = .appendNull → inner.descriptor.nullable = false) →
    ∃ answers answers' h g,
      (Handle.fresh outer).callAll outer calls = (answers, h) ∧
      (Handle.fresh inner).callAll inner (calls.map fun call => (call.1.map get, call.2)) =
        (answers', g) ∧
      List.Forall₂ (fun a a' => Handle.Renamed outer.name inner.name a.1 a'.1 ∧ a.2 = a'.2)
        answers answers' ∧
      h.state = g.state ∧ h.length = g.length ∧ h.reserved = g.reserved ∧ h.builder = g.builder
  /-- Two cells of a column differ in their names and in what their fields say of missing rows. -/
  cells : ∀ a options l l' cell cell', (wrap outer.descriptor a options l).1 = .ok cell →
    (wrap inner.descriptor a options l').1 = .ok cell' →
      (cell.name = outer.name ∧ cell.buffer = write options.write
        { inner.descriptor.field with name := outer.name, nullable := false } a.column) ∧
      cell'.name = inner.name ∧
        cell'.buffer = write options.write inner.descriptor.field a.column
  /-- Where the inner field is nullable, the outer one is not. -/
  columnFault? : ∀ c, columnFault? outer.descriptor c = none ↔
    columnFault? inner.descriptor c = none ∧ (inner.descriptor.nullable = true → c.nullCount = 0)

theorem Leaves.transparent {P : Builder → Prop} (leaves : outer.Leaves inner get)
    (uniform : inner.Uniform P) : outer.Transparent inner get P := by
  constructor
  case total => exact leaves.total
  case newBuilder => exact leaves.newBuilder
  case dataType => rw [leaves.descriptor]
  case feeds => exact fun fs b suits => leaves.run uniform fs suits
  case handles =>
    intro suits calls given
    have fresh : Handle.Twin outer inner P (Handle.fresh outer) (Handle.fresh inner) :=
      ⟨rfl, rfl, leaves.newBuilder, rfl, fun _ => leaves.newBuilder.symm.subst suits⟩
    obtain ⟨answers, twin⟩ := fresh.callAll leaves uniform calls given
    refine ⟨_, _, _, _, rfl, rfl, answers, twin.state, ?_, ?_, twin.builder⟩
    · rw [Handle.length, Handle.length, twin.builder]
    · rw [Handle.reserved, Handle.reserved, twin.state]
  case cells =>
    intro a options l l' cell cell' wrapped wrapped'
    obtain ⟨-, name, buffer⟩ := Cell.wrap_ok (Prod.ext wrapped rfl)
    obtain ⟨-, name', buffer'⟩ := Cell.wrap_ok (Prod.ext wrapped' rfl)
    exact ⟨⟨name, leaves.field ▸ buffer⟩, name', buffer'⟩
  case columnFault? => exact leaves.columnFault?

end Codec

end Cells

namespace Codec

/-- Types that hold one value, however many of them around one another, show in nothing but names
and in that their fields are not nullable, if the codec inside writes runs of values as it writes
values. So do all codecs of the library, on all builders of theirs, and all that keep to the
rules. -/
theorem transparent_of_newtype {α β : Type u} [Footprint β] {inner : Codec β} {P : Builder → Prop}
    {footprint : Footprint α} {outer : Codec α} {get : α → β} (uniform : inner.Uniform P)
    (chain : Newtype inner α footprint outer get) : outer.Transparent inner get P ∧
      (∀ t : ShippedType, t.codec.Uniform t.Suits ∧ t.Suits t.codec.newBuilder) ∧
      ∀ {γ : Type u} [Footprint γ] (c : Codec γ),
        (∀ row, c.appendOption row = row.elim c.appendNull c.append) →
        (∀ as, c.appendAll as = as.forM c.append) → c.Uniform fun _ => True :=
  ⟨chain.leaves.transparent uniform, fun t => ⟨t.uniform, t.suits_newBuilder⟩,
    fun _ => uniform_of_rules⟩

/-- Two types around a number. -/
theorem transparent_meters :
    (number .float32).Uniform (ShippedType.number .float32).Suits ∧
      meters.Transparent (number .float32) (fun m => m.value.value)
        (ShippedType.number .float32).Suits := by
  have uniform := (ShippedType.number .float32).uniform
  have chain : Newtype (number .float32) Irregular.Meters inferInstance meters
      (Component.Radius.value ∘ Irregular.Meters.value) :=
    (Newtype.one "cell.components.Radius" Component.Radius.value).around "test.Meters"
      Irregular.Meters.value
  exact ⟨uniform, (transparent_of_newtype uniform chain).1⟩

/-- A handle that is given one value and hands out the column of it. -/
theorem handed_out {α : Type u} [Footprint α] {c : Codec α} {a : α} {b : Builder} {column : Column}
    (written : (c.appendAll [a]).apply c.newBuilder = (.ok (), b))
    (finished : b.finish.1 = .ok column) (type : column.dataType = c.descriptor.dataType)
    (clean : column.typeFault? = none ∧ column.offsetFault? = none) :
    ∃ h l, (Handle.fresh c).append c (.ofList [a]) (.opened .tracking) = (.ok (), h, l) ∧
      ∀ l, (h.finalize l).1 = .ok ⟨column, ⟨(0 + Footprint.totals [a]) % counterRange⟩⟩ := by
  have read : (Batch.ofList [a]).values = .ok [a] := Batch.values_ofList [a]
  have grown := Arena.grow_tracking (a := (Ledger.opened .tracking).arena) rfl
    (Footprint.totals [a])
  refine ⟨⟨c.descriptor, b, .building ⟨(0 + Footprint.totals [a]) % counterRange⟩⟩,
    ⟨⟨none, (0 + Footprint.totals [a]) % counterRange⟩, []⟩, ?_,
    Cell.finalize_building rfl finished type clean⟩
  simp only [Handle.append, Handle.fresh, read, Reservation.grow_of_arena _ grown, Handle.write,
    written]
  rfl

/-- Not only the name tells the types apart: an absent record is a missing row in the columns of
both, and the column makes a cell of the nullable type, but none of the type around it. -/
theorem wrappedOptional_not_transparent :
    ∃ h l g l' a cell,
      (Handle.fresh wrappedOptional).append wrappedOptional (.ofList [⟨⟨none⟩⟩])
        (.opened .tracking) = (.ok (), h, l) ∧
      (Handle.fresh fuzzOptional).append fuzzOptional (.ofList [⟨none⟩])
        (.opened .tracking) = (.ok (), g, l') ∧
      (h.finalize l).1 = .ok a ∧ (g.finalize l').1 = .ok a ∧
      (Cell.wrap fuzzOptional.descriptor a .standard (.opened .tracking)).1 = .ok cell ∧
      (Cell.wrap wrappedOptional.descriptor a .standard (.opened .tracking)).1 =
        .error (.argument (.columnNulls "test.WrappedOptional")) := by
  obtain ⟨build, keeps⟩ := fuzzOptional_faithful
  have written := keeps.appendAll [] [⟨none⟩]
  rw [← keeps.newBuilder] at written
  obtain ⟨column, finished, holds⟩ := keeps.finishes ([] ++ [⟨none⟩].map some)
  have clean := And.intro holds.types holds.offsets
  obtain ⟨g, l', appended', finalized'⟩ := handed_out written finished holds.dataType clean
  obtain ⟨h, l, appended, finalized⟩ :=
    handed_out (c := wrappedOptional) (a := ⟨⟨none⟩⟩) written finished holds.dataType clean
  have count : column.nullCount = 1 := by
    rw [Column.nullCount_eq_missing (holds.dataType ▸ rfl) (holds.dataType ▸ nofun), holds.missing]
    rfl
  have found : Cell.columnFault? wrappedOptional.descriptor column =
      some (.columnNulls "test.WrappedOptional") := by
    rw [Cell.columnFault?_of_type (d := wrappedOptional.descriptor) holds.dataType, count,
      if_pos ⟨rfl, Nat.one_pos⟩]
    rfl
  obtain ⟨taken, wrapped⟩ := Cell.wrap_unlimited (d := fuzzOptional.descriptor) .standard _
    holds.dataType rfl
  exact ⟨h, l, g, l', _, _, appended, appended', finalized l, finalized' l', wrapped,
    Cell.wrap_of_columnFault? found _ _⟩

end Codec

end TypedColumns
