import TypedColumns.DataType.Text

/-!
# Descriptors

A descriptor gives a type of values its stable name, the data type of its columns, and whether the
rows of a column may be missing. A column of the type is one field, named after the type.
-/

namespace TypedColumns

structure Descriptor where
  name : String
  nullable : Bool
  dataType : DataType
  deriving DecidableEq, Inhabited

namespace Descriptor

/-- The one field of a column of this type. -/
def field (d : Descriptor) : Field := ⟨d.name, d.dataType, d.nullable⟩

/-- Whether a missing row may be added. A union has a variant for missing rows, so it takes them
though its field is not nullable. -/
def acceptsNulls (d : Descriptor) : Bool := d.nullable || d.dataType.isUnion

/-- Every part of a descriptor, spelled out. -/
def debug (d : Descriptor) : String :=
  "TypeDescriptor \x7b name: " ++ Text.Quoted.encode d.name ++ ", nullable: " ++
    boolText d.nullable ++ ", data_type: Some(" ++ d.dataType.debug ++ ") \x7d"

end Descriptor

end TypedColumns
