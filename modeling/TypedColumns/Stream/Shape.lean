import TypedColumns.FlatTable.Shape
import TypedColumns.Stream.Tag

/-!
# Shapes of messages

The tables that messages consist of, with what their slots hold.
-/

namespace TypedColumns.Stream

open FlatTable (Content Shape)

/-- The kinds of tables in a message. -/
inductive TableKind
  | message | schema | field | batch
  /-- The settings of a data type. -/
  | settings (tag : TypeTag)
  /-- A key and a value, which say nothing about the data. -/
  | remark
  | dictionary
  | compression
  deriving DecidableEq, Repr

namespace TableKind

def ofHeader (n : Nat) : Option TableKind :=
  (HeaderTag.ofNumber? n).map fun
    | .schema => .schema
    | .batch => .batch

def ofType (n : Nat) : Option TableKind := (TypeTag.ofNumber? n).map .settings

/-- The settings of each data type. -/
def settingsShape : TypeTag → List (Nat × Content TableKind)
  | .int => [(0, .number 4), (1, .number 1)]
  | .float | .date | .interval | .duration => [(0, .number 2)]
  | .decimal => [(0, .number 4), (1, .number 4), (2, .number 4)]
  | .time => [(0, .number 2), (1, .number 4)]
  | .timestamp => [(0, .number 2), (1, .text)]
  | .union => [(0, .number 2), (1, .vector 4 4)]
  | .fixedSizeBinary | .fixedSizeList => [(0, .number 4)]
  | .map => [(0, .number 1)]
  | _ => []

def shape : Shape TableKind
  | .message =>
    [(0, .number 2), (2, .choice 1 ofHeader), (3, .number 8), (4, .tables .remark)]
  | .schema =>
    [(0, .number 2), (1, .tables .field), (2, .tables .remark), (3, .vector 8 8)]
  | .field =>
    [(0, .text), (1, .number 1), (3, .choice 2 ofType), (4, .table .dictionary),
     (5, .tables .field), (6, .tables .remark)]
  | .batch =>
    [(0, .number 8), (1, .vector 16 1), (2, .vector 16 1), (3, .table .compression),
     (4, .vector 8 8)]
  | .settings tag => settingsShape tag
  | .remark => [(0, .text), (1, .text)]
  | .dictionary => [(0, .number 8), (1, .table (.settings .int)), (2, .number 1), (3, .number 2)]
  | .compression => [(0, .number 1), (1, .number 1)]

end TableKind

end TypedColumns.Stream
