import TypedColumns.Proofs.FlatTable.Looking
import TypedColumns.Stream.Message

/-!
# What looking through a schema takes

The cost of looking through the schema of a field, told by recursion over the field: every field is
a table with its name, a table of settings and the fields of its children. A field is legible if
its schema is within the limits. Only fields with very many children, or with very deep ones, are
not.
-/

namespace TypedColumns

open FlatTable (Cost)

/-- The cost of the settings of a type. Only numbers, sizes and type ids are settings. -/
def DataType.settingsCost : DataType → Cost
  | .number t =>
    match Stream.NumberClass.ofType t with
    | .int true => .table 2 (.plain 9)
    | .int false => .table 1 (.plain 6)
    | .float precision => if precision = 0 then .table 0 (.plain 0) else .table 1 (.plain 4)
  | .fixedSizeList _ size => if size = 0 then .table 0 (.plain 0) else .table 1 (.plain 6)
  | .union variants => .table 2 (.plain (14 + 4 * variants.length))
  | _ => .table 0 (.plain 0)

mutual

/-- The cost of the fields of a type's children, with the references to them. -/
def DataType.childrenCost : DataType → Cost
  | .list _ item => .plain 8 + item.cost
  | .fixedSizeList item _ => .plain 8 + item.cost
  | .struct fields => Field.costs fields
  | .union variants => Variant.costs variants
  | _ => .plain 0

/-- The cost of a field: a table of six slots, around the settings of the type and its children. -/
def Field.cost : Field → Cost
  | ⟨name, type, nullable⟩ =>
    .table 6 (.plain (33 + (Bytes.ofString name).length + nullable.toNat) +
      (type.settingsCost + type.childrenCost))

def Field.costs : List Field → Cost
  | [] => .plain 0
  | f :: fs => .plain 8 + f.cost + Field.costs fs

def Variant.costs : List Variant → Cost
  | [] => .plain 0
  | ⟨_, f⟩ :: vs => .plain 8 + f.cost + Variant.costs vs

end

/-- The cost of a message with the schema of one field. -/
def Field.schemaCost (f : Field) : Cost :=
  .plain 4 + .table 3 (.plain 13 + .table 2 (.plain 20 + f.cost))

/-- The limits allow for looking through the schema of the field. -/
def Field.Legible (f : Field) : Prop :=
  f.schemaCost.depth ≤ FlatTable.maxDepth ∧ f.schemaCost.tables ≤ FlatTable.maxTables ∧
    f.schemaCost.bytes ≤ FlatTable.maxBytes

instance (f : Field) : Decidable f.Legible := inferInstanceAs (Decidable (_ ∧ _ ∧ _))

/-- What the limits leave for the field itself. -/
theorem Field.Legible.bounds {f : Field} (legible : f.Legible) :
    f.cost.depth ≤ FlatTable.maxDepth ∧ f.cost.tables ≤ FlatTable.maxTables ∧
      f.cost.bytes + 67 ≤ FlatTable.maxBytes := by
  obtain ⟨depth, tables, bytes⟩ := legible
  rw [schemaCost] at depth tables bytes
  simp only [Cost.table, Cost.depth_add, Cost.depth_plain, Cost.tables_add, Cost.tables_plain,
    Cost.bytes_add, Cost.bytes_plain] at depth tables bytes
  omega

end TypedColumns
