import TypedColumns.Stream.Parts
import TypedColumns.Stream.Schema
import TypedColumns.Stream.Shape

/-!
# Messages of a stream

A stream is a row of messages. A message is a flat table, framed by its length and filled up to the
alignment, and the body that the table speaks of. A frame begins with a continuation mark, except in
the older framing; a frame of length zero ends the stream.

The body of a batch is its buffers, each filled up to the alignment; the table lists where each of
them is.
-/

namespace TypedColumns.Stream

open FlatTable (Ref Writer Table)

/-! ## Writing -/

/-- The table of a message around its header. -/
def writeMessage (version : Version) (tag : HeaderTag) (bodyLength : Nat) (header : Writer Ref) :
    Bytes :=
  FlatTable.build do
    let header ← header
    FlatTable.table
      ([(0, .scalar (Bytes.ofNat 2 version.number)), (1, .scalar (Bytes.ofNat 1 tag.number))] ++
        FlatTable.Entry.unlessZero 3 8 bodyLength ++ [(2, .ref header)])

/-- Numbers of eight bytes, two by two. -/
def pairBytes (pairs : List (Nat × Nat)) : Bytes :=
  pairs.flatMap fun (a, b) => Bytes.ofNat 8 a ++ Bytes.ofNat 8 b

/-- Where each buffer begins in the body, and how long it is without padding. -/
def bufferPlaces (alignment start : Nat) : List Bytes → List (Nat × Nat)
  | [] => []
  | bs :: rest =>
    (start, bs.length) ::
      bufferPlaces alignment (start + (Bytes.padTo alignment bs).length) rest

/-- The buffers one after the other, each on the alignment. -/
def bodyOf (alignment : Nat) (buffers : List Bytes) : Bytes :=
  buffers.flatMap (Bytes.padTo alignment)

/-- The header of a batch of `rows` rows. -/
def writeBatch (alignment rows : Nat) (p : Parts) : Writer Ref := do
  let buffers ← FlatTable.vector 8 p.buffers.length
    (pairBytes (bufferPlaces alignment 0 p.buffers))
  let nodes ← FlatTable.vector 8 p.nodes.length
    (pairBytes (p.nodes.map fun n => (n.length, n.nullCount)))
  FlatTable.table (FlatTable.Entry.unlessZero 0 8 rows ++ [(1, .ref nodes), (2, .ref buffers)])

/-- The mark in front of a frame's length. -/
def continuation : Bytes := [0xff, 0xff, 0xff, 0xff]

def frameMark (o : WriteOptions) : Bytes := if o.legacyFraming then [] else continuation

/-- A table with its length in front, filled up to the alignment. -/
def frame (o : WriteOptions) (table : Bytes) : Bytes :=
  let lead := (frameMark o).length + 4
  let padding := Bytes.paddingTo o.alignment (table.length + lead)
  frameMark o ++ Bytes.ofNat 4 (table.length + padding) ++ table ++ Bytes.zeros padding

/-- The frame that ends a stream. -/
def endFrame (o : WriteOptions) : Bytes := frameMark o ++ Bytes.ofNat 4 0

/-! ## Reading -/

structure Message where
  version : Version
  tag : HeaderTag
  header : Table
  bodyLength : Nat

/-- All versions before the newer one are read alike. -/
def readVersion (n : Int) : Version := if n < Version.v5.number then .v4 else .v5

/-- The message of a frame. Its table is looked through before anything is read from it. -/
def readMessage (table : Bytes) : Option Message := do
  let b := table.toArray
  if !FlatTable.hasShape TableKind.shape .message b then none
  let t ← FlatTable.root? b
  let version ← t.int 0 2
  let tag ← HeaderTag.ofNumber? (← t.word 1 1)
  return ⟨readVersion version, tag, ← t.child 2, ← t.word 3 8⟩

/-- The pairs of numbers of a vector. -/
def readPairs (t : Table) (slot : Nat) : Option (List (Nat × Nat)) := do
  (← FlatTable.vector? 16 t.buffer (← t.required slot)).mapM fun pos => do
    return (← FlatTable.word? 8 t.buffer pos, ← FlatTable.word? 8 t.buffer (pos + 8))

/-- Whether the buffers of a batch are packed, that is, begin with the length that they have when
they are unpacked. There are two ways to pack buffers. -/
def readPacked (header : Table) : Option Bool := do
  match ← header.ref? 3 with
  | none => return false
  | some pos =>
    let settings ← FlatTable.table? header.buffer pos
    let way ← settings.int 0 1
    if way = 0 ∨ way = 1 then return true else none

/-- Unpacks a buffer. Only those that are empty or that are kept as they are can be unpacked; the
latter say −1 for their length. -/
def unpack? (bs : Bytes) : Option Bytes :=
  if bs.isEmpty then some []
  else do
    let length := Bytes.toInt (← bs.slice? 0 8)
    if length = 0 then return []
    else if length = -1 then return bs.drop 8
    else none

/-- The items up to the first that is not there. -/
def available {α : Type} : List (Option α) → List α
  | some a :: rest => a :: available rest
  | _ => []

/-- The rows, nodes and buffers of a batch. There need not be buffers that no column asks for, so
the first that cannot be read is taken for the end. -/
def readBatch (header : Table) (body : Bytes) : Option (Nat × Parts) := do
  let rows ← header.word 0 8
  let nodes ← readPairs header 1
  let places ← readPairs header 2
  let packed ← readPacked header
  let buffers := places.map fun (start, length) => do
    let bs ← body.slice? start length
    if packed then unpack? bs else return bs
  return (rows, ⟨nodes.map fun (length, nullCount) => ⟨length, nullCount⟩, available buffers⟩)

/-- What comes next in a stream. -/
inductive Next
  | finished
  | message (m : Message) (body rest : Bytes)

/-- The length of the next frame's table and what follows it. Where not even a length is left the
stream is finished, as it is after a frame of length zero. -/
def frameLength? (bs : Bytes) : Option (Option (Nat × Bytes)) :=
  let lengthOf (bs : Bytes) : Option (Option (Nat × Bytes)) := do
    let length := Bytes.toInt (← bs.slice? 0 4)
    if length < 0 then none
    else if length = 0 then return none
    else return some (length.toNat, bs.drop 4)
  match bs.slice? 0 4 with
  | none => some none
  | some mark => lengthOf (if mark = continuation then bs.drop 4 else bs)

/-- The next message with its body. -/
def next? (bs : Bytes) : Option Next := do
  match ← frameLength? bs with
  | none => return .finished
  | some (length, rest) =>
    let table ← Bytes.slice? rest 0 length
    let m ← readMessage table
    let rest := rest.drop length
    let body ← Bytes.slice? rest 0 m.bodyLength
    return .message m body (rest.drop m.bodyLength)

end TypedColumns.Stream
