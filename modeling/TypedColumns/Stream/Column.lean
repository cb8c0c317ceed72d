import TypedColumns.Column.Compact
import TypedColumns.Stream.Message

/-!
# A column as a stream

`Stream.write` makes a stream of one column: a schema of one field, one batch, and the end mark.

Reading takes the schema first. The batches are read as columns of the schema's one field: a batch
has to have as many rows as it says, and no missing rows if the field requires values. Whatever
follows the end mark is left alone.
-/

namespace TypedColumns.Stream

/-- The stream of a column of a field. -/
def write (o : WriteOptions) (field : Field) (c : Column) : Bytes :=
  let p := parts o.version c.compact
  let body := bodyOf o.alignment p.buffers
  frame o (writeMessage o.version .schema 0 (writeSchema [field])) ++
    frame o (writeMessage o.version .batch body.length (writeBatch o.alignment c.length p)) ++
    body ++ endFrame o

/-- The fields of a stream and what follows the schema. -/
def readFields (bs : Bytes) : Option (List Field × Bytes) := do
  match ← next? bs with
  | .finished => none
  | .message m _ rest =>
    match m.tag with
    | .batch => none
    | .schema => return (← readSchema m.header, rest)

/-- The column of a batch. -/
def readBatchColumn (field : Field) (m : Message) (body : Bytes) : Option Column := do
  match m.tag with
  | .schema => none
  | .batch =>
    let (rows, p) ← readBatch m.header body
    let (c, _) ← readFieldColumn m.version field p
    if c.length = rows && complete field c then return c else none

/-- The columns of the batches up to the end of the stream. Every message takes at least one byte,
so the length of the stream is fuel enough. -/
def readBatches (field : Field) : Nat → Bytes → Option (List Column)
  | 0, _ => some []
  | fuel + 1, bs => do
    match ← next? bs with
    | .finished => return []
    | .message m body rest =>
      let c ← readBatchColumn field m body
      return c :: (← readBatches field fuel rest)

/-- The fields that a stream declares. -/
def fields? (bs : Bytes) : Option (List Field) := (readFields bs).map (·.1)

/-- The columns of a stream of one field, after its schema was read. -/
def columns? (field : Field) (rest : Bytes) : Option (List Column) :=
  readBatches field (rest.length + 1) rest

end TypedColumns.Stream
