import TypedColumns.Column.Basic

/-!
# Rows of a column

`Column.rows` reads a column row by row. A missing row is `Value.missing`, whatever its children
hold; a row of a union is the value it selected, together with the variant it chose.
-/

namespace TypedColumns

/-- The value of one row. -/
inductive Value
  | missing
  | boolean (value : Bool)
  | number (type : NumberType) (bits : type.Bits)
  | text (value : String)
  | binary (value : Bytes)
  | list (items : List Value)
  | struct (fields : List (String × Value))
  | variant (id : TypeId) (name : String) (value : Value)

namespace Value

instance : Inhabited Value := ⟨.missing⟩

/-- The value of a slot that may be empty. -/
def ofSlot {α : Type} (f : α → Value) : Option α → Value
  | none => .missing
  | some a => f a

end Value

namespace Column

/-- The runs of entries that consecutive offsets delimit. -/
def runs {α : Type} (entries : List α) : List Nat → List (List α)
  | start :: stop :: rest => (entries.drop start).take (stop - start) :: runs entries (stop :: rest)
  | _ => []

/-- Runs of `size` entries, one for each row. -/
def chunks {α : Type} (size : Nat) (entries : List α) : Nat → List (List α)
  | 0 => []
  | n + 1 => entries.take size :: chunks size (entries.drop size) n

/-- Puts the rows of the children of a struct side by side. -/
def fieldRows (fields : List Field) (children : List (List Value)) (row : Nat) :
    List (String × Value) :=
  List.zipWith (fun f values => (f.name, values.getD row .missing)) fields children

/-- The row of a union that selects a value. -/
def variantRow (variants : List Variant) (id : TypeId) (value : Option Value) : Value :=
  let name := ((variants.find? (·.id == id)).map (·.field.name)).getD ""
  .variant id name (value.getD .missing)

/-- The row is missing where it is marked so. -/
def masked (validity : List Bool) (values : List Value) : List Value :=
  List.zipWith (fun valid value => if valid then value else .missing) validity values

mutual

/-- The values of all rows, in order. -/
def rows : Column → List Value
  | .null length => List.replicate length .missing
  | .boolean slots => slots.map (.ofSlot .boolean)
  | .number type slots => slots.map (.ofSlot (.number type))
  | .text _ slots => slots.map (.ofSlot .text)
  | .binary _ slots => slots.map (.ofSlot .binary)
  | .list _ _ validity offsets items =>
    masked validity ((runs items.rows offsets).map .list)
  | .fixedSizeList _ size validity items =>
    masked validity ((chunks size.toNat items.rows validity.length).map .list)
  | .struct fields validity children =>
    let values := rowsAll children
    masked validity ((List.range validity.length).map fun i => .struct (fieldRows fields values i))
  | .union variants ids offsets children =>
    List.zipWith (variantRow variants) ids (selected variants ids offsets (rowsAll children))
  | .foreign _ => []

/-- `rows` of each column. -/
def rowsAll : List Column → List (List Value)
  | [] => []
  | c :: cs => c.rows :: rowsAll cs

end

end Column

end TypedColumns
