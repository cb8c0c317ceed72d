import TypedColumns.Codec.Component

/-!
# Codecs that try the limits

A codec is free to break its promises: to name a data type that its builder does not produce, to
close a row before every field has a value, to write a missing value where one is required, or to
fail half way through a row. The codecs of this module each do one such thing, next to a few that
wrap other codecs or choose their variants in an unusual order. `Codec.freeStruct` and
`Codec.freeUnion` append whatever write they are given.
-/

namespace TypedColumns

namespace Irregular

structure PlainLabel where
  value : TextBuffer

structure Meters where
  value : Component.Radius

structure WrappedOptional where
  value : Component.FuzzOptional

abbrev Int32 : Type := NumberType.int32.Bits

structure OptionalInt where
  value : Option Int32

structure Mismatched where
  value : Int32

structure OnlyInt where
  value : Int32

structure HalfRow where
  first : Int32
  second : Option Int32

structure Picky where
  number : Int32
  text : TextBuffer

structure RequiredNull where
  value : Option Int32

structure BadUnion where
  value : Int32

structure Chosen where
  id : TypeId
  value : Int32

instance : Footprint PlainLabel := .wrapping PlainLabel.value
instance : Footprint Meters := .wrapping Meters.value
instance : Footprint WrappedOptional := .wrapping WrappedOptional.value
instance : Footprint OptionalInt := .flat (Footprint.size (Option Int32)) 4 true
instance : Footprint Mismatched := .flat (Footprint.size Int32) 4 false
instance : Footprint OnlyInt := .flat (Footprint.size Int32) 4 false
instance : Footprint RequiredNull := .flat (Footprint.size (Option Int32)) 4 true
instance : Footprint BadUnion := .flat (Footprint.size Int32) 4 false

open Footprint (recordSize part) in
instance : Footprint HalfRow := .flat (recordSize [part Int32, part (Option Int32)]) 4 true

open Footprint (recordSize part) in
instance : Footprint Picky := .flat (recordSize [part Int32, part TextBuffer]) 8 true

open Footprint (recordSize part) in
instance : Footprint Chosen := .flat (recordSize [(1, 1), part Int32]) 4 false

/-- A write takes no memory of its own. -/
instance : Footprint Write := .flat 0 1 false

end Irregular

/-- The float of the same value as an integer of at most 53 binary digits: its sign, the exponent of
its leading digit, and the digits after that one. -/
def float64OfInt (n : Int) : NumberType.float64.Bits :=
  let m := n.natAbs
  if m = 0 then 0
  else
    let sign := if n < 0 then 1 <<< 63 else 0
    BitVec.ofNat _ (sign + (m.log2 + 1023) <<< 52 + (m <<< (52 - m.log2) - 1 <<< 52))

namespace Codec

open Irregular

def plainLabel : Codec PlainLabel := delegate "Label" text PlainLabel.value

def meters : Codec Meters := delegate "test.Meters" radius Meters.value

/-- Missing rows come in as values, though the field of this type is not nullable. -/
def wrappedOptional : Codec WrappedOptional :=
  delegate "test.WrappedOptional" fuzzOptional WrappedOptional.value

def optionalInt : Codec OptionalInt where
  descriptor := ⟨"test.OptionalInt", true, .number .int32⟩
  newBuilder := (number .int32).newBuilder
  append value := (number .int32).appendOption value.value

/-- The builder produces floats where the descriptor promises integers. -/
def mismatch : Codec Mismatched where
  descriptor := ⟨"test.Mismatch", false, .number .int32⟩
  newBuilder := (number .float64).newBuilder
  append value := (number .float64).append (float64OfInt value.value.toInt)

def noNullUnionVariants : List Variant := [⟨0, ⟨"int", .number .int32, false⟩⟩]

/-- A union without a variant for missing rows. -/
def noNullUnion : Codec OnlyInt where
  descriptor := ⟨"test.NoNullUnion", false, .union noNullUnionVariants⟩
  newBuilder := .union noNullUnionVariants #[] [(number .int32).newBuilder]
  append value := (number .int32).appendVariant 0 value.value

def halfRowFields : List Field :=
  [⟨"a", .number .int32, false⟩, ⟨"b", .number .int32, false⟩]

/-- A row may be closed with its second field left out. -/
def halfRow : Codec HalfRow where
  descriptor := ⟨"test.HalfRow", false, .struct halfRowFields⟩
  newBuilder :=
    .struct halfRowFields #[] [(number .int32).newBuilder, (number .int32).newBuilder]
  append value := do
    (number .int32).appendField 0 value.first
    if let some second := value.second then
      (number .int32).appendField 1 second
    Write.endRow "test.HalfRow" true

def pickyFields : List Field := [⟨"n", .number .int32, false⟩, ⟨"s", .text .narrow, false⟩]

/-- Some numbers are written to the wrong place after the row has begun. -/
def picky : Codec Picky where
  descriptor := ⟨"test.Picky", false, .struct pickyFields⟩
  newBuilder := .struct pickyFields #[] [(number .int32).newBuilder, text.newBuilder]
  append value := do
    (number .int32).appendField 0 value.number
    if value.number.toInt < 0 then
      (number .int32).appendField 1 value.number
    if 100 < value.number.toInt then
      (number .int32).appendField 9 value.number
    text.appendField 1 value.text
    Write.endRow "test.Picky" true

def requiredNullFields : List Field := [⟨"x", .number .int32, false⟩]

/-- A missing value may be written to a field that requires one. -/
def requiredNull : Codec RequiredNull where
  descriptor := ⟨"test.RequiredNull", false, .struct requiredNullFields⟩
  newBuilder := .struct requiredNullFields #[] [(number .int32).newBuilder]
  append value := do
    (number .int32).appendFieldOption 0 value.value
    Write.endRow "test.RequiredNull" true

def badUnionVariants : List Variant :=
  [⟨0, ⟨"_null_markers", .null, true⟩⟩, ⟨1, ⟨"int", .number .int32, false⟩⟩]

/-- A variant of integers has a builder of floats. -/
def badUnion : Codec BadUnion where
  descriptor := ⟨"test.BadUnion", false, .union badUnionVariants⟩
  newBuilder := .union badUnionVariants #[] [.item (.null 0), (number .float64).newBuilder]
  append value := (number .float64).appendVariant 1 (float64OfInt value.value.toInt)

def chosenVariants : List Variant :=
  [⟨5, ⟨"float", .number .float64, false⟩⟩, ⟨1, ⟨"int", .number .int32, false⟩⟩,
   ⟨3, ⟨"none", .null, true⟩⟩]

/-- The value names its variant, which may be of another type or not be there. -/
def chosen : Codec Chosen where
  descriptor := ⟨"test.Variants", false, .union chosenVariants⟩
  newBuilder :=
    .union chosenVariants #[]
      [(number .float64).newBuilder, (number .int32).newBuilder, .item (.null 0)]
  append value := (number .int32).appendVariant value.id value.value

/-- Appends any write to a struct. -/
def freeStruct : Codec Write where
  descriptor := ⟨"dyn.struct", false, .struct []⟩
  newBuilder := .struct [] #[] []
  append w := w

/-- Appends any write to a union. -/
def freeUnion : Codec Write where
  descriptor := ⟨"dyn.union", false, .union []⟩
  newBuilder := .union [] #[] []
  append w := w

end Codec

end TypedColumns
