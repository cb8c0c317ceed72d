import TypedColumns.Bytes.LittleEndian
import TypedColumns.DataType.Basic

/-!
# Columns

A column holds the values of one data type. Flat columns keep one slot per row, empty where the
value is missing. Nested columns keep the values of all rows in child columns of their own: a list
column says where each row's run of items begins and ends, a list column of fixed size needs no
offsets, a struct column has one child per field with as many rows as the struct, and a union
column names for each row the variant and the position within that variant's child.

A child is kept whole, also where no row refers to its values: rows that are missing still have
slots in the children of structs and of lists of fixed size. `Column.Rows` gives the values row by
row.
-/

namespace TypedColumns

inductive Column
  | null (length : Nat)
  | boolean (slots : List (Option Bool))
  | number (type : NumberType) (slots : List (Option type.Bits))
  | text (width : OffsetWidth) (slots : List (Option String))
  | binary (width : OffsetWidth) (slots : List (Option Bytes))
  /-- One more offset than there are rows; row `i` runs from offset `i` to offset `i + 1`. -/
  | list (width : OffsetWidth) (item : Field) (validity : List Bool) (offsets : List Nat)
      (items : Column)
  | fixedSizeList (item : Field) (size : Int) (validity : List Bool) (items : Column)
  | struct (fields : List Field) (validity : List Bool) (children : List Column)
  | union (variants : List Variant) (ids : List TypeId) (offsets : List Nat)
      (children : List Column)
  /-- A column of a type whose values are not read has no rows. -/
  | foreign (type : DataType)

namespace Column

instance : Inhabited Column := ⟨.null 0⟩

/-- The type a column declares; the fields of nested columns are taken at their word. -/
def dataType : Column → DataType
  | .null _ => .null
  | .boolean _ => .boolean
  | .number type _ => .number type
  | .text width _ => .text width
  | .binary width _ => .binary width
  | .list width item _ _ _ => .list width item
  | .fixedSizeList item size _ _ => .fixedSizeList item size
  | .struct fields _ _ => .struct fields
  | .union variants _ _ _ => .union variants
  | .foreign type => type

/-- The number of rows. -/
def length : Column → Nat
  | .null length => length
  | .boolean slots => slots.length
  | .number _ slots => slots.length
  | .text _ slots => slots.length
  | .binary _ slots => slots.length
  | .list _ _ validity _ _ => validity.length
  | .fixedSizeList _ _ validity _ => validity.length
  | .struct _ validity _ => validity.length
  | .union _ ids _ _ => ids.length
  | .foreign _ => 0

/-- Which rows the column itself marks as present. Columns of missing values and unions mark
none as absent: they have no marks. -/
def validity : Column → List Bool
  | .null length => List.replicate length true
  | .boolean slots => slots.map Option.isSome
  | .number _ slots => slots.map Option.isSome
  | .text _ slots => slots.map Option.isSome
  | .binary _ slots => slots.map Option.isSome
  | .list _ _ validity _ _ => validity
  | .fixedSizeList _ _ validity _ => validity
  | .struct _ validity _ => validity
  | .union _ ids _ _ => List.replicate ids.length true
  | .foreign _ => []

/-- Marks are kept only if a row is absent. Without them, the rows have to be counted by something
else. -/
def marks? (validity : List Bool) : Option (List Bool) :=
  if validity.contains false then some validity else none

/-- The marks that are kept say as much as all of them, once the rows are counted. -/
@[simp] theorem marks?_getD (validity : List Bool) :
    (marks? validity).getD (List.replicate validity.length true) = validity := by
  unfold marks?
  split
  · rfl
  · next all =>
    refine (List.eq_replicate_of_mem fun b mem => ?_).symm
    cases b with
    | true => rfl
    | false => exact absurd (List.contains_iff_mem.2 mem) all

/-- The number of rows marked as absent. -/
def nullCount : Column → Nat
  | .null _ => 0
  | .union _ _ _ _ => 0
  | c => c.validity.count false

theorem nullCount_eq (c : Column) : c.nullCount = c.validity.count false := by
  cases c <;> simp [nullCount, validity, List.count_replicate]

@[simp] theorem length_validity (c : Column) : c.validity.length = c.length := by
  cases c <;> simp [validity, length]

/-- The position of the variant a type id selects. -/
def variantIndex? (variants : List Variant) (id : TypeId) : Option Nat :=
  variants.findIdx? (·.id == id)

/-- The entry that each row of a union selects among one list per variant. -/
def selected {α : Type} (variants : List Variant) (ids : List TypeId) (offsets : List Nat)
    (entries : List (List α)) : List (Option α) :=
  List.zipWith
    (fun id offset => do (← entries[← variantIndex? variants id]?)[offset]?)
    ids offsets

/-- Whether missing values of the variants make rows of the union missing. They do, but not those
of a single variant whose id is not zero. -/
def countsMissing : List Variant → Bool
  | [v] => v.id == 0
  | _ => true

mutual

/-- Which rows have no value. A row of a union has none when the value it selected is missing, so
here the variants count that a union's own marks leave out. -/
def missing : Column → List Bool
  | .null length => List.replicate length true
  | .boolean slots => slots.map Option.isNone
  | .number _ slots => slots.map Option.isNone
  | .text _ slots => slots.map Option.isNone
  | .binary _ slots => slots.map Option.isNone
  | .list _ _ validity _ _ => validity.map not
  | .fixedSizeList _ _ validity _ => validity.map not
  | .struct _ validity _ => validity.map not
  | .union variants ids offsets children =>
    if countsMissing variants then
      (selected variants ids offsets (missingAll children)).map (·.getD false)
    else List.replicate ids.length false
  | .foreign _ => []

/-- `missing` of each column. -/
def missingAll : List Column → List (List Bool)
  | [] => []
  | c :: cs => c.missing :: missingAll cs

end

mutual

/-- The `count` rows from `start` on. The items of a list stay, as do the values of a union: the
rows that are left refer to them by position. -/
def slice (start count : Nat) : Column → Column
  | .null length => .null (min count (length - start))
  | .boolean slots => .boolean ((slots.drop start).take count)
  | .number type slots => .number type ((slots.drop start).take count)
  | .text width slots => .text width ((slots.drop start).take count)
  | .binary width slots => .binary width ((slots.drop start).take count)
  | .list width item validity offsets items =>
    .list width item ((validity.drop start).take count) ((offsets.drop start).take (count + 1))
      items
  | .fixedSizeList item size validity items =>
    .fixedSizeList item size ((validity.drop start).take count)
      (items.slice (start * size.toNat) (count * size.toNat))
  | .struct fields validity children =>
    .struct fields ((validity.drop start).take count) (sliceAll start count children)
  | .union variants ids offsets children =>
    .union variants ((ids.drop start).take count) ((offsets.drop start).take count) children
  | .foreign type => .foreign type

/-- The same rows of each column. -/
def sliceAll (start count : Nat) : List Column → List Column
  | [] => []
  | c :: cs => c.slice start count :: sliceAll start count cs

end

mutual

/-- The column without rows. -/
def empty : DataType → Column
  | .null => .null 0
  | .boolean => .boolean []
  | .number type => .number type []
  | .text width => .text width []
  | .binary width => .binary width []
  | .list width item => .list width item [] [0] (emptyOf item)
  | .fixedSizeList item size => .fixedSizeList item size [] (emptyOf item)
  | .struct fields => .struct fields [] (emptyFields fields)
  | .union variants => .union variants [] [] (emptyVariants variants)
  | .sparseUnion variants => .foreign (.sparseUnion variants)
  | .foreign name => .foreign (.foreign name)

/-- The column without rows of a field's type. -/
def emptyOf : Field → Column
  | ⟨_, type, _⟩ => empty type

def emptyFields : List Field → List Column
  | [] => []
  | f :: fs => emptyOf f :: emptyFields fs

def emptyVariants : List Variant → List Column
  | [] => []
  | ⟨_, f⟩ :: vs => emptyOf f :: emptyVariants vs

end

@[simp] theorem dataType_empty (t : DataType) : (empty t).dataType = t := by
  cases t <;> simp [empty, dataType]

@[simp] theorem length_empty (t : DataType) : (empty t).length = 0 := by
  cases t <;> simp [empty, length]

end Column

end TypedColumns
