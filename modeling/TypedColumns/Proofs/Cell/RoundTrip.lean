import TypedColumns.Cell
import TypedColumns.Proofs.Builder.Finished
import TypedColumns.Proofs.Stream.RoundTrip

/-!
# Cells read back

A cell made of a finished column gives the column back, in its compact form, under the name of the
type and under no other (`Cell.Carries`), if its field is legible. The stream of a field that is not
legible is not read at all (`Cell.Unreadable`).
-/

namespace TypedColumns.Cell

open TypedColumns.Stream (WriteOptions write complete SchemaFits)

/-- What a cell gives back of a column of a descriptor's type. -/
structure Carries (cell : Cell) (d : Descriptor) (c : Column) : Prop where
  schema : cell.schema = .ok [d.field]
  column : cell.toColumn = .ok c.compact
  /-- The buffer is read under the name of the type only. -/
  names : ∀ n, (ofParts n cell.buffer).toColumn =
    if n = d.name then .ok c.compact else .error (.deserialization (.columnName d.name n))
  dataType : c.compact.dataType = c.dataType
  length : c.compact.length = c.length
  validity : c.compact.validity = c.validity
  rows : c.compact.rows = c.rows
  /-- Nothing but items behind the last rows of lists is left out. -/
  same_iff : c.compact = c ↔ c.Delimited

/-- The buffer of a cell is not read under any name. -/
structure Unreadable (cell : Cell) : Prop where
  schema : cell.schema = .error (.deserialization .malformed)
  column : ∀ n, (ofParts n cell.buffer).toColumn = .error (.deserialization .malformed)

/-- A building handle gives the column of its builder, if the column is of its type. -/
theorem finalize_building {h : Handle} {held : Reservation} {c : Column}
    (state : h.state = .building held) (finished : h.builder.finish.1 = .ok c)
    (type : c.dataType = h.descriptor.dataType)
    (clean : c.typeFault? = none ∧ c.offsetFault? = none) (l : Ledger) :
    (h.finalize l).1 = .ok ⟨c, held⟩ := by
  have same : ¬ c.dataType ≠ h.descriptor.dataType := fun other => other type
  have checked : Handle.checkedColumn h.descriptor h.builder.finish.1 = .ok c := by
    rw [finished, Handle.checkedColumn, if_neg same, clean.1, clean.2]
    rfl
  simp only [Handle.finalize, state, checked]

section Wrapped

variable {d : Descriptor} {a : HeldColumn} {options : CellOptions} {l l' : Ledger} {cell : Cell}

theorem columnFault?_eq_none {c : Column} : columnFault? d c = none ↔
    c.dataType = d.dataType ∧ complete d.field c = true := by
  have full : complete d.field c = true ↔ ¬ (!d.nullable && decide (0 < c.nullCount)) = true := by
    show (d.nullable || c.nullCount == 0) = true ↔ _
    cases d.nullable with
    | true => simp
    | false =>
      simp only [Bool.false_or, beq_iff_eq, Bool.not_false, Bool.true_and, decide_eq_true_eq]
      omega
  rw [columnFault?, full]
  by_cases type : c.dataType = d.dataType
  · rw [if_neg fun other => other type]
    split
    · next missing => exact ⟨nofun, fun both => absurd missing both.2⟩
    · next present => exact ⟨fun _ => ⟨type, present⟩, fun _ => rfl⟩
  · rw [if_pos type]
    exact ⟨nofun, fun both => absurd both.1 type⟩

/-- A cell holds the stream of a column that is of the descriptor's type and has all values that the
type requires. -/
theorem wrap_ok (wrapped : wrap d a options l = (.ok cell, l')) :
    (a.column.dataType = d.dataType ∧ complete d.field a.column = true) ∧
      cell.name = d.name ∧ cell.buffer = write options.write d.field a.column := by
  rw [wrap] at wrapped
  split at wrapped
  · cases wrapped
  · next clean =>
    refine ⟨columnFault?_eq_none.1 clean, ?_⟩
    dsimp only at wrapped
    split at wrapped
    · cases wrapped
    · split at wrapped
      · cases wrapped
      · cases wrapped
        exact ⟨rfl, rfl⟩

/-- An arena that only counts admits every cell of a column of the right type. -/
theorem wrap_unlimited {c : Column} (o : WriteOptions) (held : Reservation)
    (type : c.dataType = d.dataType) (full : complete d.field c = true) :
    ∃ taken, (wrap d ⟨c, held⟩ ⟨o, none⟩ (.opened .tracking)).1 =
      .ok ⟨d.name, write o d.field c, some taken⟩ := by
  have admitted : ∃ taken l', Reservation.acquire (write o d.field c).length (.opened .tracking) =
      (.ok taken, l') := by
    rw [Reservation.acquire, Reservation.resize]
    split <;> exact ⟨_, _, rfl⟩
  obtain ⟨taken, l', acquired⟩ := admitted
  refine ⟨taken, ?_⟩
  simp only [wrap, columnFault?_eq_none.2 ⟨type, full⟩, Option.filter_none, acquired]

end Wrapped

section Written

variable {o : WriteOptions} {d : Descriptor} {c : Column} {cell : Cell}

/-- The plain type of a sound column is the descriptor's. -/
theorem plain_field (sound : c.Sound) (small : c.InMemory) (type : c.dataType = d.dataType) :
    d.field.Plain := by
  rw [Field.plain_iff]
  show d.dataType.Plain
  rw [← type]
  exact sound.plain small

/-- The field of a stream is read back under every name. -/
theorem schema_write (plain : d.field.Plain) (legible : d.field.Legible)
    (buffer : cell.buffer = write o d.field c) : cell.schema = .ok [d.field] := by
  have fits := Stream.schemaFits_of_legible o plain legible
  rw [schema, Stream.fields?, buffer, Stream.readFields_write o c plain fits, if_pos legible]
  rfl

/-- The column of a stream is read back under the name of the field. -/
theorem toColumn_write (sound : c.Sound) (small : c.InMemory) (type : c.dataType = d.dataType)
    (full : complete d.field c = true) (legible : d.field.Legible)
    (buffer : cell.buffer = write o d.field c)
    (room : (write o d.field c).length < Column.addressBound) :
    cell.toColumn = if cell.name = d.name then .ok c.compact
      else .error (.deserialization (.columnName d.name cell.name)) := by
  have plain := plain_field sound small type
  have fits := Stream.schemaFits_of_legible o plain legible
  have fields := Stream.readFields_write o c plain fits
  rw [if_pos legible, ← buffer] at fields
  have columns := Stream.columns?_write o sound small type full legible room
  rw [toColumn, read, fields]
  by_cases named : cell.name = d.name
  · have same : ¬ d.field.name ≠ cell.name := fun other => other named.symm
    dsimp only
    rw [if_pos named, if_neg same, columns]
  · have other : d.field.name ≠ cell.name := fun same => named same.symm
    dsimp only
    rw [if_neg named, if_pos other]
    rfl

/-- A stream of a field that is not legible is not read. -/
theorem unreadable_write (plain : d.field.Plain) (illegible : ¬ d.field.Legible)
    (fits : SchemaFits o d.field) (buffer : cell.buffer = write o d.field c) :
    cell.Unreadable := by
  have fields : Stream.readFields cell.buffer = none := by
    rw [buffer, Stream.readFields_write o c plain fits, if_neg illegible]
  have reads : ∀ other : Cell, other.buffer = cell.buffer →
      other.toColumn = .error (.deserialization .malformed) := by
    intro other same
    rw [toColumn, read, same, fields]
  constructor
  · rw [schema, Stream.fields?, fields]
    rfl
  · intro n
    exact reads (ofParts n cell.buffer) rfl

end Written

/-! ## Cells of finished columns -/

/-- Whatever column a handle gives, and whatever the settings of the stream, a cell made of it gives
back its compact form under the name of the type and under no other, if the field is legible. If it
is not, nothing of the cell is read, however long the schema, as long as its length can be told. -/
theorem carries_of_finalize {h : Handle} {a : HeldColumn} {l l' : Ledger} {d : Descriptor}
    {options : CellOptions} {cell : Cell} (finalized : (h.finalize l).1 = .ok a)
    (wrapped : (wrap d a options l').1 = .ok cell) (small : a.column.InMemory)
    (room : cell.byteCount < Column.addressBound) :
    (d.field.Legible → cell.Carries d a.column) ∧
      (¬ d.field.Legible → SchemaFits options.write d.field → cell.Unreadable) := by
  have sound : a.column.Sound := Handle.sound_of_finalize (Prod.ext finalized rfl)
  obtain ⟨⟨type, full⟩, name, buffer⟩ := wrap_ok (Prod.ext wrapped rfl)
  have plain := plain_field sound small type
  rw [byteCount, buffer] at room
  refine ⟨fun legible => ?_, fun illegible fits => unreadable_write plain illegible fits buffer⟩
  have reads : ∀ other : Cell, other.buffer = cell.buffer → other.toColumn =
      if other.name = d.name then .ok a.column.compact
      else .error (.deserialization (.columnName d.name other.name)) :=
    fun other same => toColumn_write sound small type full legible (same.trans buffer) room
  constructor
  case schema => exact schema_write plain legible buffer
  case column => exact (reads cell rfl).trans (if_pos name)
  case names =>
    intro n
    exact reads (ofParts n cell.buffer) rfl
  case dataType => exact Column.dataType_compactFrom 0 a.column.length a.column
  case length => exact Column.length_compactFrom sound (Nat.le_refl _)
  case validity => exact Stream.validity_compact sound
  case rows => exact Column.rows_compact sound
  case same_iff => exact Column.compact_eq_self_iff sound

/-- Two numbers in the older framing. -/
theorem carries_numbers :
    ∃ a cell, ((Handle.mk ⟨"int8", false, .number .int8⟩
        (.item (.number .int8 #[some 5#8, some 7#8])) (.building ⟨2⟩)).finalize
        (.opened .tracking)).1 = .ok a ∧
      (wrap ⟨"int8", false, .number .int8⟩ a ⟨⟨8, true, .v4, by decide, by decide⟩, none⟩
        (.opened .tracking)).1 = .ok cell ∧
      a.column.InMemory ∧ cell.byteCount < Column.addressBound ∧
      cell.Carries ⟨"int8", false, .number .int8⟩ a.column := by
  have type : (Column.number .int8 [some 5#8, some 7#8]).dataType = .number .int8 := rfl
  have finalized := @finalize_building ⟨⟨"int8", false, .number .int8⟩,
    .item (.number .int8 #[some 5#8, some 7#8]), .building ⟨2⟩⟩ ⟨2⟩ _ rfl rfl type ⟨rfl, rfl⟩
    (.opened .tracking)
  obtain ⟨taken, wrapped⟩ := wrap_unlimited (d := ⟨"int8", false, .number .int8⟩)
    ⟨8, true, .v4, by decide, by decide⟩ ⟨2⟩ type rfl
  have small : (Column.number .int8 [some 5#8, some 7#8]).InMemory :=
    (by decide : 2 < Column.addressBound)
  have room : (write ⟨8, true, .v4, by decide, by decide⟩ ⟨"int8", .number .int8, false⟩
      (.number .int8 [some 5#8, some 7#8])).length < Column.addressBound := by decide +kernel
  exact ⟨_, _, finalized, wrapped, small, room,
    (carries_of_finalize finalized wrapped small room).1 (by decide +kernel)⟩

/-! ## What is not read back -/

/-- A type of structs within structs, with nothing inside the innermost. -/
def nestedType : Nat → DataType
  | 0 => .null
  | depth + 1 => .struct [⟨"x", nestedType depth, true⟩]

def nestedBuilder : Nat → Builder
  | 0 => .item (.null 0)
  | depth + 1 => .struct [⟨"x", nestedType depth, true⟩] #[] [nestedBuilder depth]

/-- The column of a nested builder without rows. -/
def nestedColumn : Nat → Column
  | 0 => .null 0
  | depth + 1 => .struct [⟨"x", nestedType depth, true⟩] [] [nestedColumn depth]

/-- A codec whose type is nested deeper than streams are read. -/
def nested : Codec Bool where
  descriptor := ⟨"nested", true, nestedType 80⟩
  newBuilder := nestedBuilder 80
  append _ := .missing "nested"

/-- A codec that never closes a row. -/
def unclosed : Codec Bool where
  descriptor := ⟨"unclosed", false, .list .narrow (.item .boolean)⟩
  newBuilder := .item (.list .narrow #[] (.boolean #[]))
  append value := .changeItem "unclosed" (·.mapItems? (·.appendBoolean? value))

theorem dataType_nestedColumn (depth : Nat) : (nestedColumn depth).dataType = nestedType depth := by
  cases depth <;> rfl

theorem plain_nestedType (depth : Nat) : (nestedType depth).Plain := by
  induction depth with
  | zero => trivial
  | succ depth ih => exact ⟨ih, trivial⟩

theorem structOf_nestedColumn (depth : Nat) :
    Column.structOf [⟨"x", nestedType depth, true⟩] none [nestedColumn depth] =
      .ok (nestedColumn (depth + 1)) := by
  have length : (nestedColumn depth).length = 0 := by cases depth <;> rfl
  have clean : Column.fieldFault? [] [⟨"x", nestedType depth, true⟩] [nestedColumn depth] = none :=
    Column.fieldFault?_cons.2 ⟨⟨dataType_nestedColumn depth, length, Or.inl rfl⟩, rfl⟩
  exact Stream.structOf_marks (List.cons_ne_nil _ _) rfl clean

theorem finish_nestedBuilder (depth : Nat) :
    (nestedBuilder depth).finish = (.ok (nestedColumn depth), nestedBuilder depth) := by
  induction depth with
  | zero => rfl
  | succ depth ih =>
    have length : (nestedBuilder depth).length = 0 := by cases depth <;> rfl
    have even : Builder.structFault? [⟨"x", nestedType depth, true⟩] #[]
        [nestedBuilder depth] = none := by
      simp [Builder.structFault?, Builder.fieldLengthFault?, length]
    have marks : Column.marks? [] = none := rfl
    rw [nestedBuilder, Builder.finish, even]
    dsimp only
    rw [Builder.finishAll, ih]
    show (Column.structOf _ (Column.marks? []) [nestedColumn depth], _) = _
    rw [marks, structOf_nestedColumn]

theorem clean_nestedColumn (depth : Nat) :
    (nestedColumn depth).typeFault? = none ∧ (nestedColumn depth).offsetFault? = none := by
  induction depth with
  | zero => exact ⟨rfl, rfl⟩
  | succ depth ih =>
    rw [nestedColumn, Column.typeFault?, Column.typeFaultAmong?, ih.1, Column.offsetFault?,
      Column.offsetFaultAmong?, ih.2]
    exact ⟨rfl, rfl⟩

/-- The column of the one value in no row. -/
def unclosedColumn : Column := .list .narrow (.item .boolean) [] [0] (.boolean [some true])

theorem sound_unclosedColumn : unclosedColumn.Sound := by
  rw [unclosedColumn, Column.Sound]
  exact ⟨⟨rfl, [], rfl, rfl, Nat.zero_le _⟩, trivial⟩

theorem inMemory_unclosedColumn : unclosedColumn.InMemory := by
  rw [unclosedColumn, Column.InMemory]
  exact ⟨⟨by decide, by decide⟩, (by decide : 1 < Column.addressBound)⟩

theorem compact_unclosedColumn : unclosedColumn.compact ≠ unclosedColumn := by
  intro same
  have delimited := (Column.compact_eq_self_iff sound_unclosedColumn).1 same
  rw [unclosedColumn, Column.Delimited] at delimited
  exact absurd delimited.1 (by decide)

/-- Neither is every column read back, nor is it read back as it was: the cell of structs that are
nested deeply cannot be read at all, and the cell of a list gives back no items that are in no row,
though the column of the handle has one. -/
theorem not_every_column_returns :
    (∃ h l a cell, Handle.acquire nested 0 (some (.opened .tracking)) = .ok (h, l) ∧
      (h.finalize l).1 = .ok a ∧
      (wrap nested.descriptor a .standard (.opened .tracking)).1 = .ok cell ∧
      cell.Unreadable) ∧
    ∃ h l a cell c, Handle.acquire unclosed 1 (some (.opened .tracking)) = .ok (h, l) ∧
      (h.append unclosed (.ofList [true]) l).1 = .ok () ∧
      ((h.append unclosed (.ofList [true]) l).2.1.finalize l).1 = .ok a ∧
      (wrap unclosed.descriptor a .standard (.opened .tracking)).1 = .ok cell ∧
      cell.toColumn = .ok c ∧ c ≠ a.column := by
  constructor
  · have plain : nested.descriptor.field.Plain :=
      (Field.plain_iff nested.descriptor.field).2 (plain_nestedType 80)
    have fits : SchemaFits .standard nested.descriptor.field :=
      Stream.schemaFits_of_cost .standard plain (by decide +kernel)
    have finished : nested.newBuilder.finish.1 = .ok (nestedColumn 80) := by
      show (nestedBuilder 80).finish.1 = _
      rw [finish_nestedBuilder]
    have type : (nestedColumn 80).dataType = nested.descriptor.dataType :=
      dataType_nestedColumn 80
    have full : complete nested.descriptor.field (nestedColumn 80) = true := rfl
    have finalized := @finalize_building ⟨nested.descriptor, nested.newBuilder, .building .empty⟩
      .empty (nestedColumn 80) rfl finished type (clean_nestedColumn 80)
    obtain ⟨taken, wrapped⟩ := wrap_unlimited .standard .empty type full
    exact ⟨⟨nested.descriptor, nested.newBuilder, .building .empty⟩, _, _, _, rfl, finalized _,
      wrapped, unreadable_write plain (by decide +kernel) fits rfl⟩
  · have type : unclosedColumn.dataType = unclosed.descriptor.dataType := rfl
    have full : complete unclosed.descriptor.field unclosedColumn = true := rfl
    have room : (write .standard unclosed.descriptor.field unclosedColumn).length <
        Column.addressBound := by decide +kernel
    obtain ⟨taken, wrapped⟩ := wrap_unlimited .standard ⟨1⟩ type full
    refine ⟨_, _, _, _, _, rfl, rfl, finalize_building rfl rfl type ⟨rfl, rfl⟩ _, wrapped, ?_,
      compact_unclosedColumn⟩
    exact (toColumn_write sound_unclosedColumn inMemory_unclosedColumn type full
      (by decide +kernel) rfl room).trans (if_pos rfl)

end TypedColumns.Cell
