import TypedColumns.Column.Basic

/-!
# Compact columns

The items of a list column may hold more than its rows refer to: items in front of the first run,
behind the last one, or of rows that were cut off. `Column.compact` leaves such items out, at every
depth, and counts the offsets from the first item that is left. Rows read the same as before.
-/

namespace TypedColumns.Column

mutual

/-- The compact form of the `count` rows from `start` on. -/
def compactFrom (start count : Nat) : Column → Column
  | .list width item validity offsets items =>
    let validity := (validity.drop start).take count
    let offsets := (offsets.drop start).take (count + 1)
    let first := offsets.headD 0
    let last := offsets.getLastD first
    .list width item validity (offsets.map (· - first)) (compactFrom first (last - first) items)
  | .fixedSizeList item size validity items =>
    .fixedSizeList item size ((validity.drop start).take count)
      (compactFrom (start * size.toNat) (count * size.toNat) items)
  | .struct fields validity children =>
    .struct fields ((validity.drop start).take count) (compactAllFrom start count children)
  | .union variants ids offsets children =>
    .union variants ((ids.drop start).take count) ((offsets.drop start).take count)
      (compactAll children)
  | .foreign type => .foreign type
  | .null length => .null (min count (length - start))
  | .boolean slots => .boolean ((slots.drop start).take count)
  | .number type slots => .number type ((slots.drop start).take count)
  | .text width slots => .text width ((slots.drop start).take count)
  | .binary width slots => .binary width ((slots.drop start).take count)

/-- The compact form of the same rows of each column. -/
def compactAllFrom (start count : Nat) : List Column → List Column
  | [] => []
  | c :: cs => compactFrom start count c :: compactAllFrom start count cs

/-- The compact form of each column as a whole. -/
def compactAll : List Column → List Column
  | [] => []
  | c :: cs => compactFrom 0 c.length c :: compactAll cs

end

/-- The compact form of a whole column. -/
def compact (c : Column) : Column := compactFrom 0 c.length c

@[simp] theorem dataType_compactFrom (start count : Nat) (c : Column) :
    (compactFrom start count c).dataType = c.dataType := by
  cases c <;> simp [compactFrom, dataType]

end TypedColumns.Column
