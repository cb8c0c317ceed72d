import TypedColumns.Codec.Flat
import TypedColumns.Proofs.Cell.RoundTrip
import TypedColumns.Proofs.Stream.Cutting

/-!
# Cells whose buffer is cut off

A buffer that is cut off anywhere is not read, with two exceptions (`CutOff`). Where at most three
bytes of the end mark are left, the batch is whole and the column is read as from the whole buffer.
Where at most three bytes are left behind the schema, the stream looks like one without a batch, and
it is read as the column without rows, although every cell has a batch.
-/

namespace TypedColumns.Cell

open TypedColumns.Stream (WriteOptions write complete SchemaFits Batched schemaLength batchLength
  endFrame)

/-- What is read of the first bytes of the stream of a column. -/
inductive CutOff (o : WriteOptions) (d : Descriptor) (c : Column) (bytes : Bytes) : Prop
  /-- A message is cut off. -/
  | refused
      (inside : bytes.length < schemaLength o d.field ∨
        schemaLength o d.field + 4 ≤ bytes.length ∧
          bytes.length < schemaLength o d.field + batchLength o c ∨
        schemaLength o d.field + batchLength o c + 4 ≤ bytes.length)
      (result : (ofParts d.name bytes).toColumn = .error (.deserialization .malformed))
  /-- Not even the length of the batch is left. -/
  | rowless
      (behind : schemaLength o d.field ≤ bytes.length)
      (few : bytes.length < schemaLength o d.field + 4)
      (result : (ofParts d.name bytes).toColumn = .ok (.empty d.dataType))
  /-- Nothing is missing but the end mark. -/
  | unmarked
      (behind : schemaLength o d.field + batchLength o c ≤ bytes.length)
      (few : bytes.length < schemaLength o d.field + batchLength o c + 4)
      (result : (ofParts d.name bytes).toColumn = .ok c.compact)

/-- What the batches of a stream come to as a column of a type. -/
def ofBatches (type : DataType) : Option (List Column) → Except CellError Column
  | none => .error (.deserialization .malformed)
  | some [] => .ok (.empty type)
  | some [column] => .ok column
  | some columns => .error (.deserialization (.batchCount columns.length))

section Written

variable {o : WriteOptions} {d : Descriptor} {c : Column}

theorem toColumn_of_unread {cell : Cell} (fields : Stream.readFields cell.buffer = none) :
    cell.toColumn = .error (.deserialization .malformed) := by
  rw [toColumn, read, fields]

theorem toColumn_of_fields {cell : Cell} {rest : Bytes} (named : cell.name = d.name)
    (fields : Stream.readFields cell.buffer = some ([d.field], rest)) :
    cell.toColumn = ofBatches d.dataType (Stream.columns? d.field rest) := by
  have same : ¬ d.field.name ≠ cell.name := fun other => other named.symm
  rw [toColumn, read, fields]
  dsimp only
  rw [if_neg same]
  rcases Stream.columns? d.field rest with _ | _ | ⟨column, _ | _⟩ <;> rfl

/-- The first bytes of a stream, with its schema told by `readFields` and its batch by `Batched`. -/
theorem cutOff_take {m : Stream.Message} (plain : d.field.Plain) (legible : d.field.Legible)
    (batched : Batched o d.field c m) {n : Nat} (cut : n < (write o d.field c).length) :
    CutOff o d c ((write o d.field c).take n) := by
  have length : ((write o d.field c).take n).length = n := List.length_take_of_le (Nat.le_of_lt cut)
  have fields := Stream.readFields_take (c := c) (n := n) plain
    (Stream.schemaFits_of_legible o plain legible)
  rw [Stream.length_write] at cut
  by_cases schema : n < schemaLength o d.field
  · rw [if_neg fun both => Nat.not_lt_of_le both.1 schema] at fields
    exact .refused (Or.inl (by omega)) (toColumn_of_unread fields)
  rw [if_pos ⟨Nat.le_of_not_lt schema, legible⟩] at fields
  have result := @toColumn_of_fields d (ofParts d.name _) _ rfl fields
  rw [batched.columns?_take] at result
  by_cases between : n < schemaLength o d.field + 4
  · rw [if_pos (by omega)] at result
    exact .rowless (by omega) (by omega) result
  by_cases batch : n < schemaLength o d.field + batchLength o c
  · rw [if_neg (by omega), if_pos (by omega)] at result
    exact .refused (Or.inr (Or.inl (by omega))) result
  by_cases mark : n < schemaLength o d.field + batchLength o c + 4
  · rw [if_neg (by omega), if_neg (by omega), if_neg (by omega)] at result
    exact .unmarked (by omega) (by omega) result
  · rw [if_neg (by omega), if_neg (by omega), if_pos (by omega)] at result
    exact .refused (Or.inr (Or.inr (by omega))) result

/-- Cut off right behind its schema, the stream of any column reads as the column without rows. -/
theorem toColumn_behind_schema {m : Stream.Message} (plain : d.field.Plain)
    (legible : d.field.Legible) (batched : Batched o d.field c m) :
    (ofParts d.name ((write o d.field c).take (schemaLength o d.field))).toColumn =
      .ok (.empty d.dataType) := by
  have fields := Stream.readFields_take (c := c) (n := schemaLength o d.field) plain
    (Stream.schemaFits_of_legible o plain legible)
  rw [if_pos ⟨Nat.le_refl _, legible⟩] at fields
  have result := @toColumn_of_fields d (ofParts d.name _) _ rfl fields
  rwa [batched.columns?_take, if_pos (by omega)] at result

/-- No part of the stream of a field that is not legible is read. -/
theorem unreadable_take (plain : d.field.Plain) (illegible : ¬ d.field.Legible)
    (fits : SchemaFits o d.field) (n : Nat) :
    (ofParts d.name ((write o d.field c).take n)).toColumn =
      .error (.deserialization .malformed) := by
  have fields := Stream.readFields_take (c := c) (n := n) plain fits
  rw [if_neg fun both => illegible both.2] at fields
  exact toColumn_of_unread fields

end Written

/-! ## Parts of the cells of finished columns -/

/-- What is read of the buffer of a cell, as a whole and in part. -/
structure ReadInPart (o : WriteOptions) (cell : Cell) (d : Descriptor) (c : Column) : Prop where
  name : cell.name = d.name
  whole : cell.toColumn = .ok c.compact
  /-- Nothing but items behind the last rows of lists is left out. -/
  same_iff : c.compact = c ↔ c.Delimited
  rows : c.compact.rows = c.rows
  part : ∀ bytes, bytes <+: cell.buffer → bytes ≠ cell.buffer → CutOff o d c bytes

/-- Whatever column a handle gives, and whatever the settings of the stream, a cell made of it that
is cut off gives the same column as the whole cell, or nothing, or the column without rows; the last
only if it is cut off within three bytes behind the schema. Of a field that is not legible no part
is read. -/
theorem readInPart_of_finalize {h : Handle} {a : HeldColumn} {l l' : Ledger} {d : Descriptor}
    {options : CellOptions} {cell : Cell} (finalized : (h.finalize l).1 = .ok a)
    (wrapped : (wrap d a options l').1 = .ok cell) (small : a.column.InMemory)
    (room : cell.byteCount < Column.addressBound) :
    (d.field.Legible → ReadInPart options.write cell d a.column) ∧
      (¬ d.field.Legible → SchemaFits options.write d.field → ∀ bytes, bytes <+: cell.buffer →
        (ofParts cell.name bytes).toColumn = .error (.deserialization .malformed)) := by
  have sound : a.column.Sound := Handle.sound_of_finalize (Prod.ext finalized rfl)
  obtain ⟨⟨type, full⟩, name, buffer⟩ := wrap_ok (Prod.ext wrapped rfl)
  have plain := plain_field sound small type
  rw [byteCount, buffer] at room
  constructor
  · intro legible
    obtain ⟨m, batched⟩ :=
      Stream.batched_of_sound options.write sound small type full legible room
    refine ⟨name, ?_, Column.compact_eq_self_iff sound, Column.rows_compact sound, ?_⟩
    · exact (toColumn_write sound small type full legible buffer room).trans (if_pos name)
    · intro bytes part proper
      have taken := List.prefix_iff_eq_take.1 part
      have cut : bytes.length < (write options.write d.field a.column).length := by
        rw [← buffer]
        exact Nat.lt_of_le_of_ne part.length_le fun whole => proper (part.eq_of_length whole)
      rw [taken, buffer]
      exact cutOff_take plain legible batched cut
  · intro illegible fits bytes part
    rw [List.prefix_iff_eq_take.1 part, buffer, name]
    exact unreadable_take plain illegible fits bytes.length

/-- A column of two numbers. -/
def twoNumbers : Column := .number .int32 [some 1#32, some 2#32]

theorem room_twoNumbers : (write .standard (Codec.number .int32).descriptor.field
    twoNumbers).length < Column.addressBound := by
  decide +kernel

theorem legible_number : (Codec.number .int32).descriptor.field.Legible := by
  decide +kernel

theorem inMemory_twoNumbers : twoNumbers.InMemory :=
  (by decide : 2 < Column.addressBound)

/-- The two numbers, appended to a handle, finalized, and made a cell. -/
theorem wrapped_twoNumbers :
    ∃ h l held cell, Handle.acquire (.number .int32) 2 (some (.opened .tracking)) = .ok (h, l) ∧
      (h.append (.number .int32) (.ofList [1#32, 2#32]) l).1 = .ok () ∧
      ((h.append (.number .int32) (.ofList [1#32, 2#32]) l).2.1.finalize l).1 =
        .ok ⟨twoNumbers, held⟩ ∧
      (wrap (Codec.number .int32).descriptor ⟨twoNumbers, held⟩ .standard
        (.opened .tracking)).1 = .ok cell := by
  obtain ⟨taken, wrapped⟩ := wrap_unlimited (d := (Codec.number .int32).descriptor)
    (c := twoNumbers) .standard ⟨8⟩ rfl rfl
  exact ⟨_, _, ⟨8⟩, _, rfl, rfl, finalize_building rfl rfl rfl ⟨rfl, rfl⟩ _, wrapped⟩

theorem readInPart_twoNumbers :
    ∃ (h : Handle) (l : Ledger) (a : HeldColumn) (cell : Cell), (h.finalize l).1 = .ok a ∧
      (wrap (Codec.number .int32).descriptor a .standard (.opened .tracking)).1 = .ok cell ∧
      a.column.InMemory ∧ cell.byteCount < Column.addressBound ∧
      ReadInPart .standard cell (Codec.number .int32).descriptor a.column := by
  obtain ⟨h, l, held, cell, acquired, appended, finalized, wrapped⟩ := wrapped_twoNumbers
  have room : cell.byteCount < Column.addressBound := by
    obtain ⟨-, -, buffer⟩ := wrap_ok (Prod.ext wrapped rfl)
    rw [byteCount, buffer]
    exact room_twoNumbers
  exact ⟨_, _, _, cell, finalized, wrapped, inMemory_twoNumbers, room,
    (readInPart_of_finalize finalized wrapped inMemory_twoNumbers room).1 legible_number⟩

/-- A cell that is cut off does read as another column: cut off behind its schema, the cell of two
numbers reads as a column without numbers. -/
theorem numbers_lost_behind_schema :
    ∃ h l a cell bytes c,
      Handle.acquire (.number .int32) 2 (some (.opened .tracking)) = .ok (h, l) ∧
      (h.append (.number .int32) (.ofList [1#32, 2#32]) l).1 = .ok () ∧
      ((h.append (.number .int32) (.ofList [1#32, 2#32]) l).2.1.finalize l).1 = .ok a ∧
      (wrap (Codec.number .int32).descriptor a .standard (.opened .tracking)).1 = .ok cell ∧
      bytes <+: cell.buffer ∧ bytes ≠ cell.buffer ∧
      (ofParts cell.name bytes).toColumn = .ok c ∧ c.length = 0 ∧ a.column.length = 2 := by
  obtain ⟨h, l, held, cell, acquired, appended, finalized, wrapped⟩ := wrapped_twoNumbers
  obtain ⟨⟨type, full⟩, name, buffer⟩ := wrap_ok (Prod.ext wrapped rfl)
  have sound : twoNumbers.Sound := Handle.sound_of_finalize (Prod.ext finalized rfl)
  obtain ⟨m, batched⟩ := Stream.batched_of_sound .standard sound inMemory_twoNumbers type full
    legible_number room_twoNumbers
  have result := toColumn_behind_schema (plain_field sound inMemory_twoNumbers type)
    legible_number batched
  have cut : schemaLength .standard (Codec.number .int32).descriptor.field <
      (write .standard (Codec.number .int32).descriptor.field twoNumbers).length := by
    have length := Stream.length_write .standard (Codec.number .int32).descriptor.field twoNumbers
    have pos := Stream.batchLength_pos .standard twoNumbers
    omega
  refine ⟨h, l, _, cell, _, _, acquired, appended, finalized, wrapped,
    buffer ▸ List.take_prefix _ _, ?_, name ▸ result, rfl, rfl⟩
  intro whole
  have same := congrArg List.length (whole.trans buffer)
  rw [List.length_take_of_le (Nat.le_of_lt cut)] at same
  exact Nat.ne_of_lt cut same

end TypedColumns.Cell
