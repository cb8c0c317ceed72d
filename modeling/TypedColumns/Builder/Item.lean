import TypedColumns.Column.Basic
import TypedColumns.Error

/-!
# Builders of flat columns and lists

An item builder collects the slots of a flat column, or the items of lists together with the ends of
the rows. Lists may hold lists. A row is added to a list builder in two steps: its items go to the
builder of the items, then `endRow` closes the row over everything added since the row before.

Adding missing values never fails (`appendNulls`): a missing list of fixed size still takes its
slots, any other missing list takes no items. Finishing gives the column and leaves the builder
without rows, with one exception: a builder of nothing but missing values keeps its count.

A list of fixed size must hold the right number of items. `finish` checks this for the list it is
asked to finish; for lists further inside, nothing checks before the column is put together, and
`column?` then has no value. Lists of no items at all are counted by their marks alone, so without a
missing one among them their column has no rows.
-/

namespace TypedColumns

inductive ItemBuilder
  | null (length : Nat)
  | boolean (slots : Array (Option Bool))
  | number (type : NumberType) (slots : Array (Option type.Bits))
  | text (width : OffsetWidth) (slots : Array (Option String))
  | binary (width : OffsetWidth) (slots : Array (Option Bytes))
  /-- Each row is its validity and where its run of items ends. -/
  | list (width : OffsetWidth) (rows : Array (Bool × Nat)) (items : ItemBuilder)
  | fixedSizeList (size : Nat) (validity : Array Bool) (items : ItemBuilder)

/-- What tells item builders apart: the type of their slots, not the size of fixed lists. -/
inductive ItemKind
  | null
  | boolean
  | number (type : NumberType)
  | text (width : OffsetWidth)
  | binary (width : OffsetWidth)
  | list (width : OffsetWidth) (item : ItemKind)
  | fixedSizeList (item : ItemKind)
  deriving DecidableEq, Repr

namespace ItemBuilder

instance : Inhabited ItemBuilder := ⟨.null 0⟩

def kind : ItemBuilder → ItemKind
  | .null _ => .null
  | .boolean _ => .boolean
  | .number type _ => .number type
  | .text width _ => .text width
  | .binary width _ => .binary width
  | .list width _ items => .list width items.kind
  | .fixedSizeList _ _ items => .fixedSizeList items.kind

/-- The number of rows closed so far. -/
def length : ItemBuilder → Nat
  | .null length => length
  | .boolean slots => slots.size
  | .number _ slots => slots.size
  | .text _ slots => slots.size
  | .binary _ slots => slots.size
  | .list _ rows _ => rows.size
  | .fixedSizeList _ validity _ => validity.size

/-- Adds `n` missing values. -/
def appendNulls (n : Nat) : ItemBuilder → ItemBuilder
  | .null length => .null (length + n)
  | .boolean slots => .boolean (slots ++ Array.replicate n none)
  | .number type slots => .number type (slots ++ Array.replicate n none)
  | .text width slots => .text width (slots ++ Array.replicate n none)
  | .binary width slots => .binary width (slots ++ Array.replicate n none)
  | .list width rows items =>
    .list width (rows ++ Array.replicate n (false, items.length)) items
  | .fixedSizeList size validity items =>
    .fixedSizeList size (validity ++ Array.replicate n false) (items.appendNulls (n * size))

/-- Closes a row of a list over the items added since the last row. -/
def endRow? (valid : Bool) : ItemBuilder → Option ItemBuilder
  | .list width rows items => some (.list width (rows.push (valid, items.length)) items)
  | .fixedSizeList size validity items => some (.fixedSizeList size (validity.push valid) items)
  | _ => none

/-- Works on the items of a list. -/
def withItems? {ρ : Type} (work : ItemBuilder → ρ × ItemBuilder) :
    ItemBuilder → Option (ρ × ItemBuilder)
  | .list width rows items => let (r, items) := work items; some (r, .list width rows items)
  | .fixedSizeList size validity items =>
    let (r, items) := work items; some (r, .fixedSizeList size validity items)
  | _ => none

/-- Changes the items of a list, where the change applies to them. -/
def mapItems? (work : ItemBuilder → Option ItemBuilder) : ItemBuilder → Option ItemBuilder
  | .list width rows items => (work items).map (.list width rows ·)
  | .fixedSizeList size validity items => (work items).map (.fixedSizeList size validity ·)
  | _ => none

def appendBoolean? (value : Bool) : ItemBuilder → Option ItemBuilder
  | .boolean slots => some (.boolean (slots.push (some value)))
  | _ => none

def appendNumber? (type : NumberType) (value : type.Bits) : ItemBuilder → Option ItemBuilder
  | .number t slots =>
    if h : type = t then some (.number t (slots.push (some (h ▸ value)))) else none
  | _ => none

/-- Adds a run of truth values at once. -/
def appendBooleans? (values : List Bool) : ItemBuilder → Option ItemBuilder
  | .boolean slots => some (.boolean (slots ++ (values.map some).toArray))
  | _ => none

/-- Adds a run of numbers at once. -/
def appendNumbers? (type : NumberType) (values : List type.Bits) :
    ItemBuilder → Option ItemBuilder
  | .number t slots =>
    if h : type = t then some (.number t (slots ++ (values.map fun v => some (h ▸ v)).toArray))
    else none
  | _ => none

def appendText? (value : String) : ItemBuilder → Option ItemBuilder
  | .text width slots => some (.text width (slots.push (some value)))
  | _ => none

def appendBinary? (value : Bytes) : ItemBuilder → Option ItemBuilder
  | .binary width slots => some (.binary width (slots.push (some value)))
  | _ => none

/-- The marks of a column of lists of `size` items each. -/
def listMarks (size : Nat) (validity : List Bool) : List Bool :=
  if size = 0 then (Column.marks? validity).getD [] else validity

/-- The column of everything added, unless a list of fixed size holds the wrong number of items. -/
def column? : ItemBuilder → Option Column
  | .null length => some (.null length)
  | .boolean slots => some (.boolean slots.toList)
  | .number type slots => some (.number type slots.toList)
  | .text width slots => some (.text width slots.toList)
  | .binary width slots => some (.binary width slots.toList)
  | .list width rows items =>
    items.column?.map fun c =>
      .list width (.item c.dataType) (rows.toList.map (·.1)) (0 :: rows.toList.map (·.2)) c
  | .fixedSizeList size validity items =>
    items.column?.bind fun c =>
      if c.length = validity.size * size then
        some (.fixedSizeList (.item c.dataType) size (listMarks size validity.toList) c)
      else none

/-- The builder after its column was taken. -/
def reset : ItemBuilder → ItemBuilder
  | .null length => .null length
  | .boolean _ => .boolean #[]
  | .number type _ => .number type #[]
  | .text width _ => .text width #[]
  | .binary width _ => .binary width #[]
  | .list width _ items => .list width #[] items.reset
  | .fixedSizeList size _ items => .fixedSizeList size #[] items.reset

/-- The one thing that is checked before a column is put together. -/
def lengthFault? : ItemBuilder → Option BuildFault
  | .fixedSizeList size validity items =>
    if items.length = validity.size * size then none
    else some (.listLength validity.size size items.length)
  | _ => none

/-- Takes the column and resets the builder. After a fault the builder is as it was. -/
def finish (b : ItemBuilder) : Except BuildFault Column × ItemBuilder :=
  match b.lengthFault?, b.column? with
  | some fault, _ => (.error fault, b)
  | none, none => (.error .unevenItems, b)
  | none, some c => (.ok c, b.reset)

@[simp] theorem kind_appendNulls (n : Nat) (b : ItemBuilder) :
    (b.appendNulls n).kind = b.kind := by
  induction b generalizing n with
  | list width rows items _ => rfl
  | fixedSizeList size validity items ih => simp [appendNulls, kind, ih]
  | _ => rfl

@[simp] theorem length_appendNulls (n : Nat) (b : ItemBuilder) :
    (b.appendNulls n).length = b.length + n := by
  cases b <;> simp [appendNulls, length]

/-- Missing values can be added one by one or all at once. -/
theorem appendNulls_add (m n : Nat) (b : ItemBuilder) :
    b.appendNulls (m + n) = (b.appendNulls m).appendNulls n := by
  induction b generalizing m n with
  | fixedSizeList size validity items ih =>
    simp only [appendNulls, Nat.add_mul, ih, ← Array.replicate_append_replicate, Array.append_assoc]
  | null length => simp only [appendNulls, Nat.add_assoc]
  | list width rows items _ =>
    simp only [appendNulls, ← Array.replicate_append_replicate, Array.append_assoc]
  | _ => simp only [appendNulls, ← Array.replicate_append_replicate, Array.append_assoc]

@[simp] theorem kind_reset (b : ItemBuilder) : b.reset.kind = b.kind := by
  induction b with
  | list width rows items ih => simp [reset, kind, ih]
  | fixedSizeList size validity items ih => simp [reset, kind, ih]
  | _ => rfl

theorem length_listMarks {size : Nat} (validity : List Bool) (h : 0 < size) :
    (listMarks size validity).length = validity.length := by
  simp [listMarks, Nat.ne_of_gt h]

/-- A column has the rows of its builder, if its lists have items at all. -/
theorem length_column {b : ItemBuilder} {c : Column} (h : b.column? = some c)
    (sized : ∀ validity items, b ≠ .fixedSizeList 0 validity items) : c.length = b.length := by
  cases b with
  | list width rows items =>
    obtain ⟨_, _, rfl⟩ := Option.map_eq_some_iff.1 h
    simp [length, Column.length]
  | fixedSizeList size validity items =>
    have size_pos : 0 < size := Nat.pos_of_ne_zero fun zero => sized validity items (zero ▸ rfl)
    obtain ⟨_, _, h⟩ := Option.bind_eq_some_iff.1 h
    split at h <;> cases h
    simp [length, Column.length, length_listMarks _ size_pos]
  | _ => cases h; simp [length, Column.length]

end ItemBuilder

end TypedColumns
