import TypedColumns.DataType.Basic
import TypedColumns.Text.Quoted

/-!
# Printed data types

A data type has two printed forms. `DataType.debug` spells every part out. `DataType.display` is the
form used in messages: a struct on the outside lists its fields by name and type only, and every
other type prints as in the full form.
-/

namespace TypedColumns

/-- The name of a number type. -/
def NumberType.text : NumberType → String
  | .int8 => "Int8"
  | .int16 => "Int16"
  | .int32 => "Int32"
  | .int64 => "Int64"
  | .uint8 => "UInt8"
  | .uint16 => "UInt16"
  | .uint32 => "UInt32"
  | .uint64 => "UInt64"
  | .float16 => "Float16"
  | .float32 => "Float32"
  | .float64 => "Float64"

/-- Types with wide offsets have their own names. -/
def OffsetWidth.prefixed (width : OffsetWidth) (name : String) : String :=
  match width with
  | .narrow => name
  | .wide => "Large" ++ name

/-- The spelling of a truth value. -/
def boolText : Bool → String
  | true => "true"
  | false => "false"

/-- Parts with commas between them. -/
def commaSeparated (parts : List String) : String := ", ".intercalate parts

mutual

/-- Every part of a data type, spelled out. -/
def DataType.debug : DataType → String
  | .null => "Null"
  | .boolean => "Boolean"
  | .number t => t.text
  | .text w => w.prefixed "Utf8"
  | .binary w => w.prefixed "Binary"
  | .list w item => w.prefixed "List" ++ "(" ++ item.debug ++ ")"
  | .fixedSizeList item size => "FixedSizeList(" ++ item.debug ++ ", " ++ toString size ++ ")"
  | .struct fields => "Struct([" ++ commaSeparated (Field.debugAll fields) ++ "])"
  | .union variants => "Union([" ++ commaSeparated (Variant.debugAll variants) ++ "], Dense)"
  | .sparseUnion variants =>
    "Union([" ++ commaSeparated (Variant.debugAll variants) ++ "], Sparse)"
  | .foreign name => name

/-- Every part of a field, spelled out. -/
def Field.debug : Field → String
  | ⟨name, type, nullable⟩ =>
    "Field \x7b name: " ++ Text.Quoted.encode name ++ ", data_type: " ++ type.debug ++
      ", nullable: " ++ boolText nullable ++
      ", dict_id: 0, dict_is_ordered: false, metadata: \x7b\x7d \x7d"

/-- A variant prints as the pair of its id and its field. -/
def Variant.debug : Variant → String
  | ⟨id, field⟩ => "(" ++ toString id.toInt ++ ", " ++ field.debug ++ ")"

/-- The printed forms of the fields, in order. -/
def Field.debugAll : List Field → List String
  | [] => []
  | f :: fs => f.debug :: Field.debugAll fs

/-- The printed forms of the variants, in order. -/
def Variant.debugAll : List Variant → List String
  | [] => []
  | v :: vs => v.debug :: Variant.debugAll vs

end

mutual

/-- The form of a data type used in messages. -/
def DataType.display : DataType → String
  | .struct fields => "Struct(" ++ commaSeparated (Field.displayAll fields) ++ ")"
  | type => type.debug

/-- The fields of a struct as name and type. -/
def Field.displayAll : List Field → List String
  | [] => []
  | ⟨name, type, _⟩ :: fs => (name ++ " " ++ type.display) :: Field.displayAll fs

end

end TypedColumns
