import TypedColumns.Builder.Basic

/-!
# Printed builders

A struct or union builder prints its declaration and the number of its rows, not the rows.
-/

namespace TypedColumns

/-- An optional part between the words for its presence or absence. -/
def optionText {α : Type} (text : α → String) : Option α → String
  | none => "None"
  | some a => "Some(" ++ text a ++ ")"

/-- The declaration of a builder with children and how many rows it has; other builders have
nothing to declare. -/
def Builder.debug : Builder → String
  | .struct fields validity _ =>
    "StructColumnBuilder \x7b fields: [" ++ commaSeparated (Field.debugAll fields) ++ "], len: " ++
      toString validity.size ++ " \x7d"
  | .union variants rows _ =>
    "DenseUnionBuilder \x7b fields: [" ++ commaSeparated (Variant.debugAll variants) ++
      "], len: " ++ toString rows.size ++ ", null_type_id: " ++
      optionText (fun id => toString id.toInt) (Builder.nullVariant? variants) ++ " \x7d"
  | .item _ => ""

end TypedColumns
