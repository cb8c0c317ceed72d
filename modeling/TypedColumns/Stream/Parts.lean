import TypedColumns.Bytes.Bitmap
import TypedColumns.Bytes.Utf8
import TypedColumns.Column.Check
import TypedColumns.Stream.Options

/-!
# Columns as nodes and buffers

A column travels as a list of nodes, one per column and child, and a list of buffers. Both run from
the outside in: a column's own node and buffers come before those of its children.

The buffers of a column are its validity bitmap, which every column has except those of missing
values and, in the newer version, unions; then its offsets; then its values. Slots without a value
are written as zeros. Offsets are written as they are, so a column has to be compact.

Reading takes nodes and buffers from the front and checks everything it is told: buffers are long
enough, offsets never go down and stay within the items, texts are well-formed, the rows of a union
select values that exist. A bitmap counts only if its node speaks of missing rows, and then it has
to mark as many.
-/

namespace TypedColumns.Stream

/-- The number of rows of a column, and how many of them are marked as absent. Both are numbers of
eight bytes, so a negative number of absent rows is a very large one. -/
structure Node where
  length : Nat
  nullCount : Nat
  deriving DecidableEq, Repr

structure Parts where
  nodes : List Node
  buffers : List Bytes
  deriving DecidableEq, Repr

namespace Parts

def empty : Parts := ⟨[], []⟩

def append (p q : Parts) : Parts := ⟨p.nodes ++ q.nodes, p.buffers ++ q.buffers⟩

instance : Append Parts := ⟨append⟩

end Parts

/-! ## Writing -/

/-- The bitmap of a column's marks. -/
def validityBuffer (validity : List Bool) : Bytes :=
  if validity.all id then Bytes.Bitmap.full validity.length else Bytes.Bitmap.pack validity

def numberBuffer {t : NumberType} (slots : List (Option t.Bits)) : Bytes :=
  slots.flatMap fun slot => Bytes.ofNat t.bytes (slot.map (·.toNat) |>.getD 0)

/-- A column without rows writes no offsets. -/
def offsetBuffer (width : OffsetWidth) (offsets : List Nat) : Bytes :=
  if offsets.length ≤ 1 then [] else offsets.flatMap (Bytes.ofNat width.bytes)

/-- Where the runs of bytes begin and end when they follow each other. -/
def runOffsets (start : Nat) : List Bytes → List Nat
  | [] => [start]
  | bs :: rest => start :: runOffsets (start + bs.length) rest

/-- The node and buffers of a column of texts or byte strings. -/
def runParts (width : OffsetWidth) (slots : List (Option Bytes)) : Parts :=
  let runs := slots.map (·.getD [])
  ⟨[⟨slots.length, (slots.map Option.isSome).count false⟩],
   [validityBuffer (slots.map Option.isSome), offsetBuffer width (runOffsets 0 runs),
    runs.flatten]⟩

mutual

/-- The nodes and buffers of a compact column. -/
def parts (version : Version) : Column → Parts
  | .null length => ⟨[⟨length, length⟩], []⟩
  | .boolean slots =>
    ⟨[⟨slots.length, (slots.map Option.isSome).count false⟩],
     [validityBuffer (slots.map Option.isSome), Bytes.Bitmap.pack (slots.map (·.getD false))]⟩
  | .number _ slots =>
    ⟨[⟨slots.length, (slots.map Option.isSome).count false⟩],
     [validityBuffer (slots.map Option.isSome), numberBuffer slots]⟩
  | .text width slots => runParts width (slots.map (·.map Bytes.ofString))
  | .binary width slots => runParts width slots
  | .list width _ validity offsets items =>
    ⟨[⟨validity.length, validity.count false⟩],
     [validityBuffer validity, offsetBuffer width offsets]⟩ ++
      parts version items
  | .fixedSizeList _ _ validity items =>
    ⟨[⟨validity.length, validity.count false⟩], [validityBuffer validity]⟩ ++ parts version items
  | .struct _ validity children =>
    ⟨[⟨validity.length, validity.count false⟩], [validityBuffer validity]⟩ ++
      partsOfAll version children
  | .union _ ids offsets children =>
    let marks := match version with
      | .v4 => [validityBuffer (List.replicate ids.length true)]
      | .v5 => []
    ⟨[⟨ids.length, 0⟩],
     marks ++ [ids.map (·.toUInt8), offsets.flatMap (Bytes.ofNat 4)]⟩ ++
      partsOfAll version children
  | .foreign _ => ⟨[⟨0, 0⟩], []⟩

/-- The nodes and buffers of each column in turn. -/
def partsOfAll (version : Version) : List Column → Parts
  | [] => .empty
  | c :: cs => parts version c ++ partsOfAll version cs

end

/-! ## Reading -/

/-- Takes a node from the front. -/
def takeNode? (p : Parts) : Option (Node × Parts) :=
  match p.nodes with
  | [] => none
  | n :: nodes => some (n, { p with nodes })

/-- Takes a buffer from the front. -/
def takeBuffer? (p : Parts) : Option (Bytes × Parts) :=
  match p.buffers with
  | [] => none
  | bs :: buffers => some (bs, { p with buffers })

/-- The marks of a bitmap, as many of them for absent rows as the node says. -/
def readBitmap (node : Node) (bitmap : Bytes) : Option (List Bool) := do
  let validity ← Bytes.Bitmap.bits? node.length bitmap
  if validity.count false = node.nullCount then return validity else none

/-- The marks of a column's rows. If no row is absent, or a negative number of them, the bitmap does
not matter. -/
def readValidity (node : Node) (bitmap : Bytes) : Option (List Bool) :=
  if node.nullCount = 0 ∨ 1 <<< 63 ≤ node.nullCount then some (List.replicate node.length true)
  else readBitmap node bitmap

/-- The marks of a struct's rows, if any is absent. No bitmap has a negative number of them. -/
def readMarks (node : Node) (bitmap : Bytes) : Option (Option (List Bool)) :=
  if node.nullCount = 0 then some none else (readBitmap node bitmap).map some

/-- Leaves the slots of absent rows empty. -/
def slotsOf {α : Type} (validity : List Bool) (values : List α) : List (Option α) :=
  List.zipWith (fun valid value => if valid then some value else none) validity values

/-- Words of `width` bytes each. -/
def words (width : Nat) (bs : Bytes) : Nat → List Nat
  | 0 => []
  | n + 1 => Bytes.toNat (bs.take width) :: words width (bs.drop width) n

/-- The numbers of a column's rows. -/
def readNumbers (t : NumberType) (length : Nat) (bs : Bytes) : Option (List t.Bits) :=
  if length * t.bytes ≤ bs.length then some ((words t.bytes bs length).map (BitVec.ofNat _))
  else none

/-- Whether no offset is below the one before it, and none is above `limit`. A negative offset is a
very large one. -/
def ascending (limit : Nat) : List Nat → Bool
  | [] => true
  | [last] => last ≤ limit
  | first :: second :: rest => first ≤ second && ascending limit (second :: rest)

/-- The offsets of a column's rows among `limit` items. Without rows they may be left out. -/
def readOffsets (width : OffsetWidth) (length limit : Nat) (bs : Bytes) : Option (List Nat) :=
  if length = 0 ∧ bs.isEmpty then some [0]
  else if (length + 1) * width.bytes ≤ bs.length then
    let offsets := words width.bytes bs (length + 1)
    if ascending limit offsets then some offsets else none
  else none

/-- The runs of bytes that consecutive offsets delimit. -/
def byteRuns (bs : Bytes) : List Nat → List Bytes
  | start :: stop :: rest => (bs.drop start).take (stop - start) :: byteRuns bs (stop :: rest)
  | _ => []

/-- The texts that offsets delimit. If the bytes are well-formed as a whole, also an empty text has
to stand between two characters; one offset delimits no text. -/
def readTexts (bs : Bytes) (offsets : List Nat) : Option (List String) :=
  if 1 < offsets.length && (Bytes.toString? bs).isSome && !offsets.all (Bytes.isBoundary bs) then
    none
  else (byteRuns bs offsets).mapM Bytes.toString?

/-- Reads the node, bitmap, offsets and bytes of a column of texts or byte strings. -/
def readRuns {α : Type} (width : OffsetWidth) (read : Bytes → List Nat → Option (List α))
    (p : Parts) : Option (List (Option α) × Parts) := do
  let (node, p) ← takeNode? p
  let (bitmap, p) ← takeBuffer? p
  let (offsets, p) ← takeBuffer? p
  let (bytes, p) ← takeBuffer? p
  let offsets ← readOffsets width node.length bytes.length offsets
  let values ← read bytes offsets
  return (slotsOf (← readValidity node bitmap) values, p)

/-- Whether a field that requires values has all of them. Only the column's own marks count. -/
def complete (f : Field) (c : Column) : Bool := f.nullable || c.nullCount == 0

/-- The marks of the rows, once for each of the `size` items of a row. -/
def repeated (size : Nat) (validity : List Bool) : List Bool :=
  validity.flatMap (List.replicate size)

/-- Whether lists of one length have all items that their field requires. If lists are absent, items
of the others have to be there; if none is, also the items behind the last list. -/
def completeItems (item : Field) (size : Nat) (validity : List Bool) (items : Column) : Bool :=
  complete item items ||
    validity.contains false &&
      !Column.unmasked (repeated size validity) (items.validity.map not)

mutual

/-- Reads a column of a type from the front of the nodes and buffers. -/
def readColumn (version : Version) : DataType → Parts → Option (Column × Parts)
  | .null, p => do
    let (node, p) ← takeNode? p
    if node.nullCount = node.length then return (.null node.length, p) else none
  | .boolean, p => do
    let (node, p) ← takeNode? p
    let (bitmap, p) ← takeBuffer? p
    let (values, p) ← takeBuffer? p
    let values ← Bytes.Bitmap.bits? node.length values
    return (.boolean (slotsOf (← readValidity node bitmap) values), p)
  | .number t, p => do
    let (node, p) ← takeNode? p
    let (bitmap, p) ← takeBuffer? p
    let (values, p) ← takeBuffer? p
    let values ← readNumbers t node.length values
    return (.number t (slotsOf (← readValidity node bitmap) values), p)
  | .text width, p => do
    let (slots, p) ← readRuns width readTexts p
    return (.text width slots, p)
  | .binary width, p => do
    let (slots, p) ← readRuns width (fun bs offsets => some (byteRuns bs offsets)) p
    return (.binary width slots, p)
  | .list width item, p => do
    let (node, p) ← takeNode? p
    let (bitmap, p) ← takeBuffer? p
    let (offsets, p) ← takeBuffer? p
    let (items, p) ← readFieldColumn version item p
    let offsets ← readOffsets width node.length items.length offsets
    let validity ← readValidity node bitmap
    if complete item items then return (.list width item validity offsets items, p)
    else none
  | .fixedSizeList item size, p => do
    let (node, p) ← takeNode? p
    let (bitmap, p) ← takeBuffer? p
    let (items, p) ← readFieldColumn version item p
    if size < 0 ∨ items.length < node.length * size.toNat then none
    let validity ← readValidity node bitmap
    if completeItems item size.toNat validity items then
      let items := items.slice 0 (node.length * size.toNat)
      return (.fixedSizeList item size validity items, p)
    else none
  | .struct fields, p => do
    let (node, p) ← takeNode? p
    let (bitmap, p) ← takeBuffer? p
    let (children, p) ← readFieldColumns version fields p
    let marks ← readMarks node bitmap
    if children.isEmpty then
      return (.struct fields (marks.getD (List.replicate node.length true)) children, p)
    match Column.structOf fields marks children with
    | .ok c => return (c, p)
    | .error _ => none
  | .union variants, p => do
    let (node, p) ← takeNode? p
    let p ← match version with
      | .v4 => (takeBuffer? p).map (·.2)
      | .v5 => some p
    let (ids, p) ← takeBuffer? p
    let (offsets, p) ← takeBuffer? p
    if ids.length < node.length ∨ offsets.length < node.length * 4 then none
    let (children, p) ← readVariantColumns version variants p
    match Column.unionOf variants ((ids.take node.length).map (·.toInt8))
        (words 4 offsets node.length) children with
    | .ok c => return (c, p)
    | .error _ => none
  | .sparseUnion _, _ | .foreign _, _ => none

/-- Reads a column of a field's type. -/
def readFieldColumn (version : Version) : Field → Parts → Option (Column × Parts)
  | ⟨_, type, _⟩, p => readColumn version type p

def readFieldColumns (version : Version) : List Field → Parts → Option (List Column × Parts)
  | [], p => some ([], p)
  | f :: fs, p => do
    let (c, p) ← readFieldColumn version f p
    let (cs, p) ← readFieldColumns version fs p
    return (c :: cs, p)

def readVariantColumns (version : Version) : List Variant → Parts → Option (List Column × Parts)
  | [], p => some ([], p)
  | ⟨_, f⟩ :: vs, p => do
    let (c, p) ← readFieldColumn version f p
    let (cs, p) ← readVariantColumns version vs p
    return (c :: cs, p)

end

end TypedColumns.Stream
