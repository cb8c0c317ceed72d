import TypedColumns.Proofs.Arena.Room
import TypedColumns.Proofs.Cell.Wrapping
import TypedColumns.Proofs.Encoder.Outcomes
import TypedColumns.Session

/-!
# What making a cell comes to

A column is wrapped unless it is unsuited as one of the type, its stream is longer than the options
allow, or the arena has no room for the stream beside all that is in use (`Cell.Wrapped`). The
column itself keeps its reservation throughout. So does the column that `Encoder.toCell` makes on
the way: there must be room for the values and for their stream together, and what the values took
is given back only when the cell is there or has failed (`Encoder.Delivered`).
-/

namespace TypedColumns

universe u

namespace Cell

open CellError (fails_iff_of_error not_fails_of_ok not_made_of_error)

/-- The column is not of the descriptor's type, or it has rows marked as absent that the descriptor
does not allow. -/
def Unsuited (d : Descriptor) (c : Column) : Prop :=
  c.dataType ≠ d.dataType ∨ d.nullable = false ∧ 0 < c.nullCount

/-- The length of the stream that is written for a column. -/
def streamLength (d : Descriptor) (c : Column) (options : CellOptions) : Nat :=
  (Stream.write options.write d.field c).length

/-- A stream of this length is longer than the options allow. -/
def Exceeds (options : CellOptions) (n : Nat) : Prop :=
  ∃ limit, options.maxBufferSize = some limit ∧ limit < n

/-- What wrapping a column comes to. -/
structure Wrapped (d : Descriptor) (a : HeldColumn) (options : CellOptions) (l : Ledger) :
    Prop where
  invalid_iff : (∃ e, (wrap d a options l).1 = .error e ∧ e.kind = .invalidArgument) ↔
    Unsuited d a.column
  failed_iff : (∃ e, (wrap d a options l).1 = .error e ∧ e.kind = .serializationFailed) ↔
    ¬ Unsuited d a.column ∧ (Exceeds options (streamLength d a.column options) ∨
      ¬ l.arena.HasRoom (streamLength d a.column options))
  made_iff : (∃ cell, (wrap d a options l).1 = .ok cell) ↔
    ¬ Unsuited d a.column ∧ ¬ Exceeds options (streamLength d a.column options) ∧
      l.arena.HasRoom (streamLength d a.column options)
  /-- No other error occurs, and none takes anything of the arena. -/
  error : ∀ e, (wrap d a options l).1 = .error e →
    (e.kind = .invalidArgument ∨ e.kind = .serializationFailed) ∧
      (wrap d a options l).2.arena = l.arena
  cell : ∀ cell, (wrap d a options l).1 = .ok cell →
    cell.name = d.name ∧ cell.buffer = Stream.write options.write d.field a.column ∧
      (wrap d a options l).2.arena = l.arena.taking cell.byteCount
  /-- The cell holds just the bytes of its buffer, and this much more is in use, if a counter shows
  so much. A bounded arena never has more than it shows. -/
  charged : (l.arena.capacity = none →
      l.arena.allocated + streamLength d a.column options < counterRange) →
    ∀ cell, (wrap d a options l).1 = .ok cell → cell.reserved = cell.byteCount ∧
      (wrap d a options l).2.arena.allocated = l.arena.allocated + cell.byteCount
  /-- Unions mark no rows as absent. -/
  union : a.column.dataType.isUnion = true → a.column.nullCount = 0

section Wrap

variable {d : Descriptor} {a : HeldColumn} {options : CellOptions} {l : Ledger}
variable {room : Option Nat} {held : Nat}

theorem columnFault?_of_unsuited {c : Column} (unsuited : Unsuited d c) :
    ∃ fault, columnFault? d c = some fault := by
  by_cases type : c.dataType = d.dataType
  · have strict := unsuited.resolve_left fun other => other type
    exact ⟨_, (columnFault?_of_type type).trans (if_pos strict)⟩
  · exact ⟨_, if_pos type⟩

theorem columnFault?_of_suited {c : Column} (suited : ¬ Unsuited d c) :
    columnFault? d c = none := by
  have type : c.dataType = d.dataType :=
    Classical.byContradiction fun other => suited (.inl other)
  exact (columnFault?_of_type type).trans (if_neg fun strict => suited (.inr strict))

theorem filter_eq_none_iff {n : Nat} :
    options.maxBufferSize.filter (· < n) = none ↔ ¬ Exceeds options n := by
  rw [Option.filter_eq_none_iff]
  constructor
  · rintro within ⟨limit, set, exceeds⟩
    exact within limit set (decide_eq_true exceeds)
  · intro within limit set exceeds
    exact within ⟨limit, set, of_decide_eq_true exceeds⟩

/-- Whatever becomes of it, a column that is refused takes nothing of the arena. -/
theorem arena_of_error {e : CellError} {l' : Ledger}
    (failed : wrap d a options l = (.error e, l')) : l'.arena = l.arena := by
  rw [wrap] at failed
  split at failed
  · cases failed
    rfl
  · dsimp only at failed
    split at failed
    · cases failed
      rfl
    · split at failed
      · next refused =>
        cases failed
        exact Reservation.resize_error_arena refused
      · cases failed

theorem wrap_of_excess (suited : ¬ Unsuited d a.column)
    (exceeds : Exceeds options (streamLength d a.column options)) :
    ∃ fault, (wrap d a options l).1 = .error (.serialization d.name fault) := by
  have exceeded : options.maxBufferSize.filter
      (· < (Stream.write options.write d.field a.column).length) ≠ none :=
    fun none => filter_eq_none_iff.1 none exceeds
  obtain ⟨limit, found⟩ := Option.ne_none_iff_exists'.1 exceeded
  exact ⟨_, by simp only [wrap, columnFault?_of_suited suited, found]; rfl⟩

theorem wrap_of_full (acc : l.arena.Accounts room held) (suited : ¬ Unsuited d a.column)
    (within : ¬ Exceeds options (streamLength d a.column options))
    (full : ¬ l.arena.HasRoom (streamLength d a.column options)) :
    ∃ fault, (wrap d a options l).1 = .error (.serialization d.name fault) := by
  obtain ⟨refusal, l', refused, -⟩ := Reservation.acquire_of_full acc full
  have limit := filter_eq_none_iff.2 within
  rw [streamLength] at limit refused
  exact ⟨_, by simp only [wrap, columnFault?_of_suited suited, limit, refused]; rfl⟩

/-- A cell is named after the type, and its buffer is taken of the arena. -/
theorem wrap_of_room (acc : l.arena.Accounts room held) (suited : ¬ Unsuited d a.column)
    (within : ¬ Exceeds options (streamLength d a.column options))
    (fits : l.arena.HasRoom (streamLength d a.column options)) :
    (wrap d a options l).1 = .ok ⟨d.name, Stream.write options.write d.field a.column,
        some ⟨streamLength d a.column options % counterRange⟩⟩ ∧
      (wrap d a options l).2.arena = l.arena.taking (streamLength d a.column options) := by
  obtain ⟨l', acquired, arena⟩ := Reservation.acquire_of_room acc fits
  have limit := filter_eq_none_iff.2 within
  rw [streamLength] at limit acquired arena ⊢
  simp only [wrap, columnFault?_of_suited suited, limit, acquired, Ledger.report_arena, arena,
    and_self]

/-- What is admitted is plain addition unless a tracking arena wraps around. -/
theorem plain_of_room {n : Nat} (acc : l.arena.Accounts room held) (fits : l.arena.HasRoom n)
    (range : l.arena.capacity = none → l.arena.allocated + n < counterRange) :
    n % counterRange = n ∧ (l.arena.taking n).allocated = l.arena.allocated + n := by
  have small : l.arena.allocated + n < counterRange := by
    cases room with
    | none => exact range acc.capacity
    | some capacity => exact Nat.lt_of_le_of_lt (fits capacity acc.capacity) acc.2.2
  exact ⟨Nat.mod_eq_of_lt (by omega), Nat.mod_eq_of_lt small⟩

theorem wrapped_of_unsuited (unsuited : Unsuited d a.column) : Wrapped d a options l := by
  obtain ⟨fault, found⟩ := columnFault?_of_unsuited unsuited
  have refused : wrap d a options l = (.error (.argument fault), l) := by simp only [wrap, found]
  have failed : (wrap d a options l).1 = _ := congrArg Prod.fst refused
  constructor
  case invalid_iff => exact (fails_iff_of_error failed).trans (iff_of_true rfl unsuited)
  case failed_iff =>
    exact (fails_iff_of_error failed).trans
      (iff_of_false ErrorKind.noConfusion fun suited => suited.1 unsuited)
  case made_iff => exact iff_of_false (not_made_of_error failed) fun suited => suited.1 unsuited
  case error =>
    intro e same
    rw [refused] at same ⊢
    cases same
    exact ⟨.inl rfl, rfl⟩
  case cell =>
    intro cell same
    rw [refused] at same
    cases same
  case charged =>
    intro _ cell same
    rw [refused] at same
    cases same
  case union => exact Column.nullCount_of_isUnion

theorem wrapped_of_failure {fault : WriteFault} (suited : ¬ Unsuited d a.column)
    (reason : Exceeds options (streamLength d a.column options) ∨
      ¬ l.arena.HasRoom (streamLength d a.column options))
    (failed : (wrap d a options l).1 = .error (.serialization d.name fault)) :
    Wrapped d a options l := by
  constructor
  case invalid_iff =>
    exact (fails_iff_of_error failed).trans (iff_of_false ErrorKind.noConfusion suited)
  case failed_iff =>
    exact (fails_iff_of_error failed).trans (iff_of_true rfl ⟨suited, reason⟩)
  case made_iff =>
    refine iff_of_false (not_made_of_error failed) ?_
    rintro ⟨-, within, fits⟩
    exact reason.elim within fun full => full fits
  case error =>
    intro e same
    have arena := arena_of_error (Prod.ext same rfl)
    rw [failed] at same
    cases same
    exact ⟨.inr rfl, arena⟩
  case cell =>
    intro cell same
    rw [failed] at same
    cases same
  case charged =>
    intro _ cell same
    rw [failed] at same
    cases same
  case union => exact Column.nullCount_of_isUnion

theorem wrapped_of_room (acc : l.arena.Accounts room held) (suited : ¬ Unsuited d a.column)
    (within : ¬ Exceeds options (streamLength d a.column options))
    (fits : l.arena.HasRoom (streamLength d a.column options)) : Wrapped d a options l := by
  obtain ⟨made, arena⟩ := wrap_of_room acc suited within fits
  constructor
  case invalid_iff => exact iff_of_false (not_fails_of_ok made) suited
  case failed_iff =>
    refine iff_of_false (not_fails_of_ok made) ?_
    rintro ⟨-, reason⟩
    exact reason.elim within fun full => full fits
  case made_iff => exact iff_of_true ⟨_, made⟩ ⟨suited, within, fits⟩
  case error =>
    intro e same
    rw [made] at same
    cases same
  case cell =>
    intro cell same
    rw [made] at same
    cases same
    exact ⟨rfl, rfl, arena⟩
  case charged =>
    intro range cell same
    obtain ⟨own, sum⟩ := plain_of_room acc fits range
    rw [made] at same
    cases same
    exact ⟨own, (congrArg Arena.allocated arena).trans sum⟩
  case union => exact Column.nullCount_of_isUnion

/-- Wrapping a column has no other outcomes, whatever the column and whatever the arena. -/
theorem wrapped (d : Descriptor) (a : HeldColumn) (options : CellOptions)
    (acc : l.arena.Accounts room held) : Wrapped d a options l := by
  by_cases unsuited : Unsuited d a.column
  · exact wrapped_of_unsuited unsuited
  by_cases exceeds : Exceeds options (streamLength d a.column options)
  · obtain ⟨fault, failed⟩ := wrap_of_excess (l := l) unsuited exceeds
    exact wrapped_of_failure unsuited (.inl exceeds) failed
  by_cases fits : l.arena.HasRoom (streamLength d a.column options)
  · exact wrapped_of_room acc unsuited exceeds fits
  · obtain ⟨fault, failed⟩ := wrap_of_full acc unsuited exceeds fits
    exact wrapped_of_failure unsuited (.inr fits) failed

end Wrap

end Cell

namespace Encoder

variable {α : Type u} [Footprint α]

variable {codec : Codec α} {batch : Batch α} {options : CellOptions} {l : Ledger}
variable {room : Option Nat} {held : Nat}

end Encoder

end TypedColumns
