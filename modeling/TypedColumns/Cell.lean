import TypedColumns.Handle
import TypedColumns.Stream.Column

/-!
# Cells

A cell carries one column as a stream, under the name of the column's type. It is made of a finished
column, in whose arena its buffer is accounted for, or put together from a name and a buffer
received from elsewhere, which are not accounted for at all.

`wrap` asks in this order: whether the column is of the type, whether it has missing rows that the
type forbids, whether the buffer is within the size limit, and whether the arena has room for it.
-/

namespace TypedColumns

structure CellOptions where
  write : Stream.WriteOptions
  /-- The most bytes a buffer may have. -/
  maxBufferSize : Option Nat

/-- Without a size limit. -/
def CellOptions.standard : CellOptions := ⟨.standard, none⟩

structure Cell where
  name : String
  buffer : Bytes
  /-- What the cell holds in the arena of the column it was made of. -/
  held : Option Reservation

namespace Cell

/-- A cell received from elsewhere. -/
def ofParts (name : String) (buffer : Bytes) : Cell := ⟨name, buffer, none⟩

def byteCount (c : Cell) : Nat := c.buffer.length

/-- The bytes the cell holds in its arena. -/
def reserved (c : Cell) : Nat := (c.held.map (·.size)).getD 0

/-- What is wrong with a column as one of the type. -/
def columnFault? (d : Descriptor) (c : Column) : Option ArgumentFault :=
  if c.dataType ≠ d.dataType then some (.wrongType c.dataType d.name d.dataType)
  else if !d.nullable && 0 < c.nullCount then some (.columnNulls d.name)
  else none

/-- Makes a cell of a column. The column stays as it is. -/
def wrap (d : Descriptor) (a : HeldColumn) (options : CellOptions) (l : Ledger) :
    Except CellError Cell × Ledger :=
  match columnFault? d a.column with
  | some fault => (.error (.argument fault), l)
  | none =>
    let buffer := Stream.write options.write d.field a.column
    match options.maxBufferSize.filter (· < buffer.length) with
    | some limit => (.error (.serialization d.name (.tooLarge buffer.length limit)), l)
    | none =>
      match Reservation.acquire buffer.length l with
      | (.error refusal, l) => (.error (.serialization d.name (.refused refusal)), l)
      | (.ok held, l) =>
        (.ok ⟨d.name, buffer, some held⟩,
          l.report (.wrapped d.name a.length buffer.length))

/-- The fields that the buffer declares. -/
def schema (c : Cell) : Except CellError (List Field) :=
  match Stream.fields? c.buffer with
  | some fields => .ok fields
  | none => .error (.deserialization .malformed)

/-- The column that the buffer holds: the one column of the cell's name, from the one batch. A
stream that ends before its first batch holds the column without rows. -/
def read (c : Cell) : Except ReadFault Column :=
  match Stream.readFields c.buffer with
  | none => .error .malformed
  | some ([field], rest) =>
    if field.name ≠ c.name then .error (.columnName field.name c.name)
    else match Stream.columns? field rest with
      | none => .error .malformed
      | some [] => .ok (.empty field.type)
      | some [column] => .ok column
      | some columns => .error (.batchCount columns.length)
  | some (fields, _) => .error (.columnCount fields.length)

/-- `read`, with the error of a cell operation. -/
def toColumn (c : Cell) : Except CellError Column :=
  match c.read with
  | .ok column => .ok column
  | .error fault => .error (.deserialization fault)

/-- Gives back what the cell holds. -/
def drop (c : Cell) (l : Ledger) : Ledger :=
  match c.held with
  | some held => held.release l
  | none => l

end Cell

end TypedColumns
