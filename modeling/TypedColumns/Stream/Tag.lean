/-!
# Tags

Numbers that tell kinds of messages and of data types apart.
-/

namespace TypedColumns.Stream

/-- What the header of a message is. -/
inductive HeaderTag
  | schema | batch
  deriving DecidableEq, Repr

def HeaderTag.number : HeaderTag → Nat
  | .schema => 1
  | .batch => 3

/-- The tag of a number; other kinds of headers are not read. -/
def HeaderTag.ofNumber? : Nat → Option HeaderTag
  | 1 => some .schema
  | 3 => some .batch
  | _ => none

@[simp] theorem HeaderTag.ofNumber?_number (t : HeaderTag) : ofNumber? t.number = some t := by
  cases t <;> rfl

/-- The tags that tell types apart. -/
inductive TypeTag
  | null | int | float | binary | text | boolean | decimal | date | time | timestamp | interval
  | list | struct | union | fixedSizeBinary | fixedSizeList | map | duration
  | wideBinary | wideText | wideList | runEndEncoded | binaryView | textView | listView
  | wideListView
  deriving DecidableEq, Repr

namespace TypeTag

/-- All tags, in the order of their numbers. -/
def all : List TypeTag :=
  [.null, .int, .float, .binary, .text, .boolean, .decimal, .date, .time, .timestamp, .interval,
   .list, .struct, .union, .fixedSizeBinary, .fixedSizeList, .map, .duration,
   .wideBinary, .wideText, .wideList, .runEndEncoded, .binaryView, .textView, .listView,
   .wideListView]

/-- Tags are numbered from one on. -/
def number (t : TypeTag) : Nat := all.idxOf t + 1

def ofNumber? (n : Nat) : Option TypeTag := all.find? (·.number == n)

@[simp] theorem ofNumber?_number (t : TypeTag) : ofNumber? t.number = some t := by
  cases t <;> rfl

end TypeTag

end TypedColumns.Stream
