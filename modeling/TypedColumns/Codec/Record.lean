import TypedColumns.Codec.Flat

/-!
# A record of mixed fields

`FuzzRecord` has required and optional fields of several shapes, so that columns of it have every
kind of nesting a struct can have.
-/

namespace TypedColumns

structure FuzzRecord where
  singleFloatOptional : Option NumberType.float32.Bits
  /-- Required: missing only when the whole record is. -/
  singleStringRequired : TextBuffer
  manyStringsOptional : Option (ListBuffer TextBuffer)
  flattenedScalar : NumberType.float32.Bits

instance : Inhabited FuzzRecord := ⟨⟨none, .ofString "", none, 0⟩⟩

open Footprint (recordSize part) in
instance : Footprint FuzzRecord where
  size := recordSize
    [part (Option NumberType.float32.Bits), part TextBuffer, part (Option (ListBuffer TextBuffer)),
     part NumberType.float32.Bits]
  align := 8
  spare := true
  heap r := Footprint.heap r.singleStringRequired + Footprint.heap r.manyStringsOptional

namespace Codec

def fuzzRecordFields : List Field :=
  [⟨"single_float_optional", .number .float32, true⟩,
   ⟨"single_string_required", .text .narrow, false⟩,
   ⟨"many_strings_optional", texts.descriptor.dataType, true⟩,
   ⟨"flattened_scalar", .number .float32, false⟩]

def fuzzRecord : Codec FuzzRecord where
  descriptor := ⟨"cell.testing.datatypes.FuzzRecord", false, .struct fuzzRecordFields⟩
  newBuilder :=
    .struct fuzzRecordFields #[]
      [(number .float32).newBuilder, text.newBuilder, texts.newBuilder,
       (number .float32).newBuilder]
  append value := do
    (number .float32).appendFieldOption 0 value.singleFloatOptional
    text.appendField 1 value.singleStringRequired
    texts.appendFieldOption 2 value.manyStringsOptional
    (number .float32).appendField 3 value.flattenedScalar
    Write.endRow "cell.testing.datatypes.FuzzRecord" true

end Codec

end TypedColumns
