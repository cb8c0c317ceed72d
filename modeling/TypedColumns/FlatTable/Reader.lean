import TypedColumns.Bytes.Utf8

/-!
# Reading flat tables

Objects are read at their positions in a buffer. A step that leads out of the buffer has no value.
-/

namespace TypedColumns.FlatTable

/-- The bytes that tables are read from, at any position. -/
abbrev Buffer : Type := Array UInt8

/-- The bytes of a range, if all of them are there. -/
def range? (b : Buffer) (pos length : Nat) : Option Bytes :=
  if pos + length ≤ b.size then some (b.extract pos (pos + length)).toList else none

/-- The number of `width` bytes at a position. -/
def word? (width : Nat) (b : Buffer) (pos : Nat) : Option Nat :=
  (range? b pos width).map Bytes.toNat

/-- The signed number of `width` bytes at a position. -/
def int? (width : Nat) (b : Buffer) (pos : Nat) : Option Int :=
  (range? b pos width).map Bytes.toInt

/-- The position that the distance at a position leads to. -/
def follow? (b : Buffer) (pos : Nat) : Option Nat := (word? 4 b pos).map (pos + ·)

/-- A table at a position of a buffer, with the position and the length of its layout. -/
structure Table where
  buffer : Buffer
  pos : Nat
  layout : Nat
  layoutSize : Nat

/-- The table at a position. -/
def table? (b : Buffer) (pos : Nat) : Option Table := do
  let layout := (pos : Int) - (← int? 4 b pos)
  if layout < 0 then none
  return ⟨b, pos, layout.toNat, ← word? 2 b layout.toNat⟩

/-- The root table of a buffer. -/
def root? (b : Buffer) : Option Table := do table? b (← follow? b 0)

namespace Table

/-- Where a slot's content is; a slot that is left out is at no position. -/
def slot? (t : Table) (slot : Nat) : Option (Option Nat) :=
  if t.layoutSize < 4 + 2 * slot + 2 then some none
  else match word? 2 t.buffer (t.layout + 4 + 2 * slot) with
    | none => none
    | some 0 => some none
    | some place => some (some (t.pos + place))

/-- The unsigned number in a slot, zero if left out. -/
def word (t : Table) (slot width : Nat) : Option Nat := do
  match ← t.slot? slot with
  | none => return 0
  | some pos => word? width t.buffer pos

/-- The signed number in a slot, or what it is if left out. -/
def intOr (t : Table) (usual : Int) (slot width : Nat) : Option Int := do
  match ← t.slot? slot with
  | none => return usual
  | some pos => int? width t.buffer pos

/-- The signed number in a slot, zero if left out. -/
def int (t : Table) (slot width : Nat) : Option Int := t.intOr 0 slot width

/-- Where the object that a slot refers to is. -/
def ref? (t : Table) (slot : Nat) : Option (Option Nat) := do
  match ← t.slot? slot with
  | none => return none
  | some pos => some <$> follow? t.buffer pos

/-- The object that a slot has to refer to. -/
def required (t : Table) (slot : Nat) : Option Nat := do
  match ← t.ref? slot with
  | none => none
  | some pos => return pos

/-- The table that a slot refers to. -/
def child (t : Table) (slot : Nat) : Option Table := do table? t.buffer (← t.required slot)

/-- Whether a slot has content. -/
def has (t : Table) (slot : Nat) : Bool := (t.slot? slot).bind id |>.isSome

end Table

/-- The text at a position. -/
def string? (b : Buffer) (pos : Nat) : Option String := do
  Bytes.toString? (← range? b (pos + 4) (← word? 4 b pos))

/-- The positions of the items of a vector, `size` bytes each. -/
def vector? (size : Nat) (b : Buffer) (pos : Nat) : Option (List Nat) := do
  let count ← word? 4 b pos
  if b.size < pos + 4 + size * count then none
  return (List.range count).map fun i => pos + 4 + size * i

/-- The tables of a vector of references. -/
def tables? (b : Buffer) (pos : Nat) : Option (List Table) := do
  (← vector? 4 b pos).mapM fun item => do table? b (← follow? b item)

end TypedColumns.FlatTable
