import TypedColumns.Encoder
import TypedColumns.Proofs.Arena.Room
import TypedColumns.Proofs.Handle.Columns
import TypedColumns.Proofs.Handle.Rows

/-!
# What encoding comes to

A batch of one of the library's types is encoded, or refused for one of two reasons: it has fewer
values than it claims, or the arena has no room for the values that it gives. Nothing else can go
wrong: whatever the values, writing them succeeds and there is a column of them.

`Encoder.Outcomes` tells the outcomes apart and says what each of them leaves in the arena.
-/

namespace TypedColumns

universe u

namespace Batch

variable {α : Type u} {b : Batch α}

/-- The batch claims values that are not there, or more than there are. -/
def Invalid (b : Batch α) : Prop :=
  0 < b.count ∧ (b.view = none ∨ ∃ values, b.view = some values ∧ values.length < b.count)

/-- The first values of the view, as many as are claimed. -/
def given (b : Batch α) : List α := (b.view.getD []).take b.count

theorem values_of_invalid (invalid : b.Invalid) : ∃ fault, b.values = .error fault := by
  obtain ⟨pos, absent | ⟨values, view, short⟩⟩ := invalid
  · exact ⟨_, by rw [Batch.values, if_neg (Nat.ne_of_gt pos), absent]⟩
  · refine ⟨.short values.length b.count, ?_⟩
    rw [Batch.values, if_neg (Nat.ne_of_gt pos), view]
    exact if_neg (Nat.not_le_of_lt short)

theorem values_of_valid (valid : ¬ b.Invalid) : b.values = .ok b.given := by
  rw [Batch.values, given]
  split
  · next none => rw [none, List.take_zero]
  · next some =>
    have pos : 0 < b.count := Nat.pos_of_ne_zero some
    cases view : b.view with
    | none => exact absurd ⟨pos, .inl view⟩ valid
    | some values =>
      refine if_pos (Nat.le_of_not_lt fun short => valid ⟨pos, .inr ⟨values, view, short⟩⟩)

theorem given_of_empty (none : b.count = 0) : b.given = [] := by
  rw [given, none, List.take_zero]

end Batch

/-! ## One outcome excludes the others -/

namespace CellError

variable {β : Type u} {r : Except CellError β} {kind : ErrorKind}

theorem fails_iff_of_error {e : CellError} (failed : r = .error e) :
    (∃ e', r = .error e' ∧ e'.kind = kind) ↔ e.kind = kind := by
  constructor
  · rintro ⟨e', same, own⟩
    rw [failed] at same
    cases same
    exact own
  · exact fun own => ⟨e, failed, own⟩

theorem not_fails_of_ok {b : β} (made : r = .ok b) : ¬ ∃ e, r = .error e ∧ e.kind = kind := by
  rintro ⟨e, same, -⟩
  rw [made] at same
  cases same

theorem not_made_of_error {e : CellError} (failed : r = .error e) : ¬ ∃ b, r = .ok b := by
  rintro ⟨b, same⟩
  rw [failed] at same
  cases same

end CellError

namespace Encoder

open Batch (values_of_invalid values_of_valid)
open CellError (fails_iff_of_error not_fails_of_ok not_made_of_error)

/-! ## Any codec -/

section Codec

variable {α : Type u} [Footprint α] {codec : Codec α} {batch : Batch α} {values : List α}
variable {l : Ledger} {arena : Arena}

/-- A batch that cannot be read is refused before anything else happens. -/
theorem encode_of_fault {fault : BatchFault} (read : batch.values = .error fault) :
    encode codec batch l = (.error (.argument (.batch fault)), l) := by
  rw [encode, read]

/-- Filling a new handle asks for room first. -/
theorem fill_of_refusal {refusal : Refusal} (nonempty : values ≠ [])
    (refused : l.arena.grow (Footprint.totals values) = .error refusal) :
    fill codec values (Handle.fresh codec) l = (.error (.allocation refusal),
      { Handle.fresh codec with state := .failed .empty }, l.report (.refused refusal)) := by
  rw [fill, if_neg (by simpa using nonempty)]
  cases values with
  | nil => exact absurd rfl nonempty
  | cons a as =>
    simp only [Handle.append, Handle.fresh, Batch.values_ofList,
      Reservation.grow_of_refusal _ refused]

theorem encode_of_refusal {refusal : Refusal} (read : batch.values = .ok values)
    (nonempty : values ≠ [])
    (refused : l.arena.grow (Footprint.totals values) = .error refusal) :
    (encode codec batch l).1 = .error (.allocation refusal) := by
  have filled : fill codec values (Handle.fresh codec)
      (l.report (.acquired codec.name values.length)) = _ := fill_of_refusal nonempty refused
  simp only [encode, read, Handle.acquire]
  rw [Handle.fresh] at filled
  rw [filled]

/-- Filling a new handle with values that there is room for comes down to writing them. -/
theorem fill_of_arena (nonempty : values ≠ [])
    (grown : l.arena.grow (Footprint.totals values) = .ok arena) :
    fill codec values (Handle.fresh codec) l =
      let (result, h) := (Handle.fresh codec).write ⟨Footprint.totals values % counterRange⟩
        (codec.appendAll values)
      (result, h, { l with arena }) := by
  have size : (Reservation.empty.size + Footprint.totals values) % counterRange =
      Footprint.totals values % counterRange := by
    rw [show Reservation.empty.size = 0 from rfl, Nat.zero_add]
  rw [fill, if_neg (by simpa using nonempty)]
  cases values with
  | nil => exact absurd rfl nonempty
  | cons a as =>
    simp only [Handle.append, Handle.fresh, Batch.values_ofList,
      Reservation.grow_of_arena _ grown, size]

end Codec

/-! ## Codecs that keep their rows -/

section Keeps

variable {α : Type u} [Footprint α] {codec : Codec α} {build : List (Option α) → Builder}
variable {value : Option α → Value} {batch : Batch α} {values : List α} {l : Ledger}

/-- A new handle that is filled has the rows of the values, and holds what is charged for them. -/
theorem fill_of_room (keeps : codec.Keeps build value)
    (admitted : values ≠ [] → ∃ arena, l.arena.grow (Footprint.totals values) = .ok arena) :
    ∃ h l', fill codec values (Handle.fresh codec) l = (.ok (), h, l') ∧
      h.state = .building ⟨Footprint.totals values % counterRange⟩ ∧
      Handle.Rows codec build (values.map some) h := by
  cases values with
  | nil =>
    exact ⟨_, l, by rw [fill, List.isEmpty_nil, if_pos rfl], rfl, rfl, fun _ => keeps.newBuilder⟩
  | cons a as =>
    obtain ⟨arena, grown⟩ := admitted (List.cons_ne_nil a as)
    have written := keeps.appendAll [] (a :: as)
    rw [← keeps.newBuilder, List.nil_append] at written
    refine ⟨⟨codec.descriptor, build ((a :: as).map some), .building ⟨_⟩⟩, { l with arena }, ?_,
      rfl, rfl, fun _ => rfl⟩
    rw [fill_of_arena (List.cons_ne_nil a as) grown]
    simp only [Handle.write, Handle.fresh, written]

/-- Values that there is room for become a column. -/
theorem encode_of_room (keeps : codec.Keeps build value) (read : batch.values = .ok values)
    (admitted : values ≠ [] → ∃ arena, l.arena.grow (Footprint.totals values) = .ok arena) :
    ∃ c, (encode codec batch l).1 = .ok ⟨c, ⟨Footprint.totals values % counterRange⟩⟩ ∧
      c.Holds codec.descriptor.dataType ((values.map some).map value) := by
  obtain ⟨h, l', filled, state, rows⟩ := fill_of_room keeps
    (l := l.report (.acquired codec.name values.length)) admitted
  obtain ⟨c, finalized, holds⟩ := rows.finalize keeps state l'
  refine ⟨c, ?_, holds⟩
  rw [Handle.fresh] at filled
  simp only [encode, read, Handle.acquire, filled, finalized]

end Keeps

/-! ## The library's types -/

/-- What encoding a batch of one of the library's types comes to. -/
structure Outcomes (t : ShippedType) (batch : Batch t.Values) (l : Ledger) : Prop where
  invalid_iff : (∃ e, (encode t.codec batch l).1 = .error e ∧ e.kind = .invalidArgument) ↔
    batch.Invalid
  refused_iff : (∃ e, (encode t.codec batch l).1 = .error e ∧ e.kind = .allocationFailed) ↔
    ¬ batch.Invalid ∧ 0 < batch.count ∧ ∃ capacity, l.arena.capacity = some capacity ∧
      capacity < l.arena.allocated + Footprint.totals batch.given
  encoded_iff : (∃ a, (encode t.codec batch l).1 = .ok a) ↔
    ¬ batch.Invalid ∧ (batch.count = 0 ∨ l.arena.HasRoom (Footprint.totals batch.given))
  /-- No other error occurs, and none takes anything of the arena. -/
  error : ∀ e, (encode t.codec batch l).1 = .error e →
    (e.kind = .invalidArgument ∨ e.kind = .allocationFailed) ∧
      (encode t.codec batch l).2.arena = l.arena
  /-- A batch that claims no values is encoded, whatever its view and however full the arena. -/
  empty : batch.count = 0 → ∃ a, (encode t.codec batch l).1 = .ok a ∧ a.length = 0
  /-- The column has a row for each of the values given. -/
  column : ∀ a, (encode t.codec batch l).1 = .ok a →
    a.column.dataType = t.codec.descriptor.dataType ∧ a.length = batch.count ∧
      a.column.rows = batch.given.map fun v => t.read (some v)
  /-- It holds just what is charged for them. -/
  charged : ∀ a, (encode t.codec batch l).1 = .ok a →
    a.reserved = Footprint.totals batch.given ∧ (encode t.codec batch l).2.arena =
      { l.arena with allocated := l.arena.allocated + Footprint.totals batch.given }
  /-- This much is given back when the column is dropped, whatever the arena was used for in
  between, and no earlier. -/
  dropped : ∀ a, (encode t.codec batch l).1 = .ok a → ∀ later : Ledger,
    a.reserved ≤ later.arena.allocated → later.arena.allocated < counterRange →
      (a.drop later).arena =
        { later.arena with allocated := later.arena.allocated - Footprint.totals batch.given }

section Shipped

variable {t : ShippedType} {batch : Batch t.Values} {l : Ledger} {room : Option Nat} {held : Nat}

/-- A valid batch of values that there is room for. -/
theorem encode_ok (acc : l.arena.Accounts room held)
    (sums : room = none → held + Footprint.totals batch.given < counterRange)
    (valid : ¬ batch.Invalid)
    (fits : batch.count = 0 ∨ l.arena.HasRoom (Footprint.totals batch.given)) :
    ∃ c, (encode t.codec batch l).1 = .ok ⟨c, ⟨Footprint.totals batch.given⟩⟩ ∧
      c.Holds t.codec.descriptor.dataType (batch.given.map fun v => t.read (some v)) ∧
      (encode t.codec batch l).2.arena =
        { l.arena with allocated := l.arena.allocated + Footprint.totals batch.given } := by
  obtain ⟨build, keeps⟩ := t.faithful
  have fits : l.arena.HasRoom (Footprint.totals batch.given) := by
    rcases fits with none | fits
    · rw [Batch.given_of_empty none]
      exact acc.hasRoom_zero
    · exact fits
  have small := acc.lt_range sums fits
  have own : Footprint.totals batch.given % counterRange = Footprint.totals batch.given :=
    Nat.mod_eq_of_lt (by omega)
  obtain ⟨c, encoded, holds⟩ := encode_of_room keeps (values_of_valid valid)
    fun _ => ⟨_, acc.grow_of_room fits⟩
  rw [own] at encoded
  rw [List.map_map] at holds
  refine ⟨c, encoded, holds, ?_⟩
  have after := encode_accounts acc (Prod.ext encoded rfl)
  rw [after.eq fun _ => small, acc.eq fun _ => Nat.lt_of_le_of_lt (Nat.le_add_right _ _) small]
  rfl

theorem outcomes_of_invalid (invalid : batch.Invalid) : Outcomes t batch l := by
  obtain ⟨fault, read⟩ := values_of_invalid invalid
  have encoded : encode t.codec batch l = _ := encode_of_fault read
  have failed : (encode t.codec batch l).1 = _ := congrArg Prod.fst encoded
  constructor
  case invalid_iff => exact (fails_iff_of_error failed).trans (iff_of_true rfl invalid)
  case refused_iff =>
    exact (fails_iff_of_error failed).trans
      (iff_of_false ErrorKind.noConfusion fun valid => valid.1 invalid)
  case encoded_iff =>
    exact iff_of_false (not_made_of_error failed) fun valid => valid.1 invalid
  case error =>
    intro e same
    rw [encoded] at same ⊢
    cases same
    exact ⟨.inl rfl, rfl⟩
  case empty =>
    intro none
    exact absurd none (Nat.ne_of_gt invalid.1)
  all_goals
    intro a same
    rw [encoded] at same
    cases same

theorem outcomes_of_full (acc : l.arena.Accounts room held) (valid : ¬ batch.Invalid)
    (some : 0 < batch.count) (full : ¬ l.arena.HasRoom (Footprint.totals batch.given)) :
    Outcomes t batch l := by
  obtain ⟨capacity, bounded, refused⟩ := acc.grow_of_full full
  have nonempty : batch.given ≠ [] := by
    intro none
    rw [none] at full
    exact full acc.hasRoom_zero
  have encoded : (encode t.codec batch l).1 = _ :=
    encode_of_refusal (values_of_valid valid) nonempty refused
  have arena : (encode t.codec batch l).2.arena = l.arena :=
    (encode_accounts acc (Prod.ext encoded rfl)).unique acc
  constructor
  case invalid_iff =>
    exact (fails_iff_of_error encoded).trans (iff_of_false ErrorKind.noConfusion valid)
  case refused_iff =>
    exact (fails_iff_of_error encoded).trans
      (iff_of_true rfl ⟨valid, some, Arena.not_hasRoom_iff.1 full⟩)
  case encoded_iff =>
    refine iff_of_false (not_made_of_error encoded) fun fits => ?_
    exact fits.2.elim (Nat.ne_of_gt some) full
  case error =>
    intro e same
    rw [encoded] at same
    cases same
    exact ⟨.inr rfl, arena⟩
  case empty =>
    intro none
    exact absurd none (Nat.ne_of_gt some)
  all_goals
    intro a same
    rw [encoded] at same
    cases same

theorem outcomes_of_room (acc : l.arena.Accounts room held)
    (sums : room = none → held + Footprint.totals batch.given < counterRange)
    (valid : ¬ batch.Invalid)
    (fits : batch.count = 0 ∨ l.arena.HasRoom (Footprint.totals batch.given)) :
    Outcomes t batch l := by
  obtain ⟨c, encoded, holds, arena⟩ := encode_ok acc sums valid fits
  have length : c.length = batch.count := by
    rw [holds.length, List.length_map, Batch.length_values (values_of_valid valid)]
  constructor
  case invalid_iff => exact iff_of_false (not_fails_of_ok encoded) valid
  case refused_iff =>
    refine iff_of_false (not_fails_of_ok encoded) ?_
    rintro ⟨-, some, full⟩
    exact fits.elim (Nat.ne_of_gt some) (Arena.not_hasRoom_iff.2 full)
  case encoded_iff => exact iff_of_true ⟨_, encoded⟩ ⟨valid, fits⟩
  case error =>
    intro e same
    rw [encoded] at same
    cases same
  case empty =>
    intro none
    exact ⟨_, encoded, length.trans none⟩
  case column =>
    intro a same
    rw [encoded] at same
    cases same
    exact ⟨holds.dataType, length, holds.rows⟩
  case charged =>
    intro a same
    rw [encoded] at same
    cases same
    exact ⟨rfl, arena⟩
  case dropped =>
    intro a same later own range
    rw [encoded] at same
    cases same
    exact Reservation.release_arena own range

/-- A batch of one of the library's types is refused if it is invalid, refused if the arena has no
room for its values, and encoded otherwise, to a column that shows all that its values are. -/
theorem outcomes_of_encode (t : ShippedType) (batch : Batch t.Values)
    (acc : l.arena.Accounts room held)
    (sums : room = none → held + Footprint.totals batch.given < counterRange) :
    Outcomes t batch l ∧ Discerns t.read t.shown := by
  refine ⟨?_, t.discerns⟩
  by_cases invalid : batch.Invalid
  · exact outcomes_of_invalid invalid
  by_cases fits : batch.count = 0 ∨ l.arena.HasRoom (Footprint.totals batch.given)
  · exact outcomes_of_room acc sums invalid fits
  · have some : 0 < batch.count := Nat.pos_of_ne_zero fun none => fits (.inl none)
    exact outcomes_of_full acc invalid some fun room => fits (.inr room)

/-- An arena of ten bytes has room for one more number of four bytes but not for two. -/
theorem outcomes_of_numbers :
    (⟨some 10, 4⟩ : Arena).Accounts (some 10) 4 ∧
      (∃ a, (encode (Codec.number .int32) (.ofList [7#32]) (.opened ⟨some 10, 4⟩)).1 = .ok a ∧
        a.reserved = 4) ∧
      ∃ e, (encode (Codec.number .int32) (.ofList [7#32, 8#32]) (.opened ⟨some 10, 4⟩)).1 =
        .error e ∧ e.kind = .allocationFailed := by
  have acc : (Ledger.opened ⟨some 10, 4⟩).arena.Accounts (some 10) 4 :=
    ⟨rfl, by decide, by decide⟩
  have one := (outcomes_of_encode (.number .int32) (.ofList [7#32]) acc nofun).1
  have two := (outcomes_of_encode (.number .int32) (.ofList [7#32, 8#32]) acc nofun).1
  have valid (values : List (BitVec 32)) : ¬ (Batch.ofList values).Invalid := by
    rintro ⟨-, absent | ⟨_, view, short⟩⟩
    · cases absent
    · cases view
      exact Nat.lt_irrefl _ short
  obtain ⟨a, encoded⟩ := one.encoded_iff.2 ⟨valid [7#32], .inr (by intro c h; cases h; decide)⟩
  refine ⟨acc, ⟨a, encoded, (one.charged a encoded).1⟩, ?_⟩
  exact two.refused_iff.2 ⟨valid [7#32, 8#32], by decide, 10, rfl, by decide⟩

end Shipped

end Encoder

end TypedColumns
