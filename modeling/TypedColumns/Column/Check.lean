import TypedColumns.Column.Basic
import TypedColumns.Error

/-!
# Checks on columns built from parts

`structOf` and `unionOf` build a column from children only if the children fit: every child of a
struct has its field's type and as many rows as the struct, and is present wherever the field
requires it and the struct itself is present; every row of a union selects a declared variant and a
value that variant has.

A union is not asked for the types of its children when it is built, nor a list for its offsets.
`typeFault?` looks through a whole column for a union whose child has another type than its variant
declares, and `offsetFault?` for a list whose offsets go down or lead beyond its items.
-/

namespace TypedColumns.Column

/-- Whether a row is missing in the child though the struct is present there. -/
def unmasked (validity missing : List Bool) : Bool :=
  (validity.zip missing).any fun (valid, missing) => valid && missing

/-- The first fault of a struct's children: a child of another type than its field, of another
number of rows than the struct, or with a missing value in a field that requires one. -/
def fieldFault? (validity : List Bool) : List Field → List Column → Option BuildFault
  | f :: fs, c :: cs =>
    if c.dataType ≠ f.type then some (.fieldType f.name f.type c.dataType)
    else if c.length ≠ validity.length then some (.fieldRows f.name validity.length c.length)
    else if !f.nullable && unmasked validity c.missing then some (.fieldNulls f.name)
    else fieldFault? validity fs cs
  | _, _ => none

/-- A struct of at least one child, which has the marks given or as many rows as its first child. -/
def structOf (fields : List Field) (marks : Option (List Bool)) (children : List Column) :
    Except BuildFault Column :=
  match children with
  | [] => .error .structWithoutFields
  | first :: _ =>
    let validity := marks.getD (List.replicate first.length true)
    if validity.length ≠ first.length then
      .error (.structMarks first.length validity.length)
    else match fieldFault? validity fields children with
      | some fault => .error fault
      | none => .ok (.struct fields validity children)

/-- The length of the child a type id selects. -/
def variantLength? (variants : List Variant) (children : List Column) (id : TypeId) : Option Nat :=
  do return (← children[← variantIndex? variants id]?).length

/-- A union whose rows select values that are there. -/
def unionOf (variants : List Variant) (ids : List TypeId) (offsets : List Nat)
    (children : List Column) : Except BuildFault Column :=
  let lengths := ids.map (variantLength? variants children)
  if lengths.any Option.isNone then .error .undeclaredTypeId
  else if (lengths.zip offsets).any fun (length, offset) => length.getD 0 ≤ offset then
    .error .offsetOutOfRange
  else .ok (.union variants ids offsets children)

mutual

/-- The first union, outermost and leftmost, that has a child of another type than its variant
declares. -/
def typeFault? : Column → Option BuildFault
  | .list _ _ _ _ items => items.typeFault?
  | .fixedSizeList _ _ _ items => items.typeFault?
  | .struct _ _ children => typeFaultAmong? children
  | .union variants _ _ children => variantFault? (.union variants) variants children
  | _ => none

/-- The first type fault inside the columns. -/
def typeFaultAmong? : List Column → Option BuildFault
  | [] => none
  | c :: cs => c.typeFault? <|> typeFaultAmong? cs

/-- Each child of a union in order: its own type against the declared one, then what is inside. -/
def variantFault? (union : DataType) : List Variant → List Column → Option BuildFault
  | v :: vs, c :: cs =>
    if c.dataType ≠ v.field.type then some (.variantType union v.field.type c.dataType)
    else c.typeFault? <|> variantFault? union vs cs
  | _, _ => none

end

/-- The first of the offsets that leads beyond the items or is below the one before it. The offsets
stand from `position` on, behind one that is `last`. -/
def offsetsFault? (items : Nat) : Nat → Nat → List Nat → Option BuildFault
  | _, _, [] => none
  | position, last, offset :: rest =>
    if items < offset then some (.offsetBeyond position offset items)
    else if offset < last then some (.offsetOrder (position - 1) last offset)
    else offsetsFault? items (position + 1) offset rest

mutual

/-- The first list, outermost and leftmost, whose offsets are not those of runs of its items. -/
def offsetFault? : Column → Option BuildFault
  | .list width item _ offsets items =>
    offsetsFault? items.length 0 0 offsets <|>
      items.offsetFault?.map (.child (.list width item) 0)
  | .fixedSizeList item size _ items =>
    items.offsetFault?.map (.child (.fixedSizeList item size) 0)
  | .struct fields _ children => offsetFaultAmong? (.struct fields) 0 children
  | .union variants _ _ children => offsetFaultAmong? (.union variants) 0 children
  | _ => none

/-- The first fault of offsets inside the children, which stand from `index` on. -/
def offsetFaultAmong? (parent : DataType) (index : Nat) : List Column → Option BuildFault
  | [] => none
  | c :: cs =>
    c.offsetFault?.map (.child parent index) <|> offsetFaultAmong? parent (index + 1) cs

end

end TypedColumns.Column
