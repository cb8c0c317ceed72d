import TypedColumns.Codec.Basic

/-!
# Codecs of flat values

Numbers, truth values, texts and lists of texts. Runs of numbers and of truth values are appended
at once.
-/

namespace TypedColumns

/-- The name of the type of values that a column of numbers holds. -/
def NumberType.typeName : NumberType → String
  | .int8 => "int8"
  | .int16 => "int16"
  | .int32 => "int32"
  | .int64 => "int64"
  | .uint8 => "uint8"
  | .uint16 => "uint16"
  | .uint32 => "uint32"
  | .uint64 => "uint64"
  | .float16 => "float16"
  | .float32 => "float32"
  | .float64 => "float64"

namespace Codec

def number (type : NumberType) : Codec type.Bits where
  descriptor := ⟨type.typeName, false, .number type⟩
  newBuilder := .item (.number type #[])
  append value := .changeItem type.typeName (·.appendNumber? type value)
  appendAll values := .changeItem type.typeName (·.appendNumbers? type values)

def boolean : Codec Bool where
  descriptor := ⟨"bool", false, .boolean⟩
  newBuilder := .item (.boolean #[])
  append value := .changeItem "bool" (·.appendBoolean? value)
  appendAll values := .changeItem "bool" (·.appendBooleans? values)

def text : Codec TextBuffer where
  descriptor := ⟨"utf8", false, .text .narrow⟩
  newBuilder := .item (.text .narrow #[])
  append value := .changeItem "utf8" (·.appendText? value.content)

/-- Each text is added to the items, then the row is closed. -/
def texts : Codec (ListBuffer TextBuffer) where
  descriptor := ⟨"list<utf8>", false, .list .narrow (.item (.text .narrow))⟩
  newBuilder := .item (.list .narrow #[] (.text .narrow #[]))
  append values := .changeItem "list<utf8>" fun b => do
    let b ← values.items.foldlM (fun b value => b.mapItems? (·.appendText? value.content)) b
    b.endRow? true

end Codec

end TypedColumns
