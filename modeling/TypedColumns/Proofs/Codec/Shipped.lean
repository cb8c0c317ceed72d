import TypedColumns.Codec.Component
import TypedColumns.Proofs.Codec.Transforms

/-!
# The codecs of this library

`ShippedType` lists the types that have a codec here. Every one of them keeps its rows
(`ShippedType.faithful`), and rows read alike only if they differ in nothing but the room that
texts and lists set aside (`ShippedType.discerns`): so floats keep their bits, and an absent
optional field is not an empty one. The one type whose values may themselves be missing is
`fuzzOptional`.
-/

namespace TypedColumns

/-! ## Components -/

/-- The record of a row, if there is any. -/
def Component.FuzzOptional.record? (row : Option Component.FuzzOptional) : Option FuzzRecord :=
  row.bind Component.FuzzOptional.value

namespace Codec

/-- A codec that leaves its values to another one keeps its rows when that one does. -/
theorem delegate_faithful {α β : Type} [Footprint α] [Footprint β] (name : String) {inner : Codec β}
    {get : α → β} {value : Option β → Value} (faithful : inner.Faithful value) :
    (delegate name inner get).Faithful fun row => value (row.map get) := by
  obtain ⟨build, keeps⟩ := faithful
  have append : ∀ (rows : List (Option α)) (a : α),
      ((delegate name inner get).append a).apply (build (rows.map (Option.map get))) =
        (.ok (), build ((rows ++ [some a]).map (Option.map get))) := by
    intro rows a
    rw [List.map_append]
    exact keeps.append _ (get a)
  have null : ∀ rows : List (Option α),
      (delegate name inner get).appendNull.apply (build (rows.map (Option.map get))) =
        (.ok (), build ((rows ++ [none]).map (Option.map get))) := by
    intro rows
    rw [List.map_append]
    exact keeps.appendNull _
  refine ⟨fun rows => build (rows.map (Option.map get)), keeps.newBuilder,
    fun rows => keeps.kind _, ?_, append, ?_, null, apply_appendOption append null rfl,
    apply_appendAll append rfl, ?_⟩
  · intro rows
    rw [keeps.length, List.length_map]
  · intro rows
    rw [List.map_append]
    exact keeps.missing _
  · intro rows
    have finishes := keeps.finishes (rows.map (Option.map get))
    rw [List.map_map] at finishes
    exact finishes

open Component.FuzzOptional (record?)

/-- A component without a record is a missing row. -/
theorem fuzzOptional_faithful : fuzzOptional.Faithful fun row => readFuzzRecord (record? row) := by
  obtain ⟨build, keeps⟩ := fuzzRecord_faithful
  have append : ∀ (rows : List (Option Component.FuzzOptional)) (a : Component.FuzzOptional),
      (fuzzOptional.append a).apply (build (rows.map record?)) =
        (.ok (), build ((rows ++ [some a]).map record?)) := by
    intro rows a
    rw [List.map_append]
    exact keeps.appendOption _ a.value
  have null : ∀ rows : List (Option Component.FuzzOptional),
      (build (rows.map record?)).appendNull =
        (.ok (), build ((rows ++ [none]).map record?)) := by
    intro rows
    rw [List.map_append]
    exact keeps.missing _
  refine ⟨fun rows => build (rows.map record?), keeps_of_rules keeps.newBuilder
    (fun rows => keeps.kind _) ?_ append null rfl rfl (apply_appendAll append rfl) ?_⟩
  · intro rows
    rw [keeps.length, List.length_map]
  · intro rows
    have finishes := keeps.finishes (rows.map record?)
    rw [List.map_map] at finishes
    exact finishes

end Codec

/-! ## All types -/

/-- The types that have a codec in this library. -/
inductive ShippedType
  | number (type : NumberType)
  | boolean
  | text
  | texts
  | vec3D
  | quaternion
  | mat3x3
  | translationAndMat3x3
  | translationRotationScale3D
  | transform3D
  | fuzzRecord
  | label
  | labelComponent
  | radius
  | scalarScattering
  | transform3DComponent
  | fuzzRequired
  | fuzzOptional
  deriving DecidableEq

namespace ShippedType

def Values : ShippedType → Type
  | number type => type.Bits
  | boolean => Bool
  | text => TextBuffer
  | texts => ListBuffer TextBuffer
  | vec3D => Vec3D
  | quaternion => Quaternion
  | mat3x3 => Mat3x3
  | translationAndMat3x3 => TranslationAndMat3x3
  | translationRotationScale3D => TranslationRotationScale3D
  | transform3D => Transform3D
  | fuzzRecord => FuzzRecord
  | label => Label
  | labelComponent => Component.Label
  | radius => Component.Radius
  | scalarScattering => Component.ScalarScattering
  | transform3DComponent => Component.Transform3D
  | fuzzRequired => Component.FuzzRequired
  | fuzzOptional => Component.FuzzOptional

instance : (t : ShippedType) → Footprint t.Values
  | number type => inferInstanceAs (Footprint type.Bits)
  | boolean => inferInstanceAs (Footprint Bool)
  | text => inferInstanceAs (Footprint TextBuffer)
  | texts => inferInstanceAs (Footprint (ListBuffer TextBuffer))
  | vec3D => inferInstanceAs (Footprint Vec3D)
  | quaternion => inferInstanceAs (Footprint Quaternion)
  | mat3x3 => inferInstanceAs (Footprint Mat3x3)
  | translationAndMat3x3 => inferInstanceAs (Footprint TranslationAndMat3x3)
  | translationRotationScale3D => inferInstanceAs (Footprint TranslationRotationScale3D)
  | transform3D => inferInstanceAs (Footprint Transform3D)
  | fuzzRecord => inferInstanceAs (Footprint FuzzRecord)
  | label => inferInstanceAs (Footprint Label)
  | labelComponent => inferInstanceAs (Footprint Component.Label)
  | radius => inferInstanceAs (Footprint Component.Radius)
  | scalarScattering => inferInstanceAs (Footprint Component.ScalarScattering)
  | transform3DComponent => inferInstanceAs (Footprint Component.Transform3D)
  | fuzzRequired => inferInstanceAs (Footprint Component.FuzzRequired)
  | fuzzOptional => inferInstanceAs (Footprint Component.FuzzOptional)

def codec : (t : ShippedType) → Codec t.Values
  | number type => Codec.number type
  | boolean => Codec.boolean
  | text => Codec.text
  | texts => Codec.texts
  | vec3D => Codec.vec3D
  | quaternion => Codec.quaternion
  | mat3x3 => Codec.mat3x3
  | translationAndMat3x3 => Codec.translationAndMat3x3
  | translationRotationScale3D => Codec.translationRotationScale3D
  | transform3D => Codec.transform3D
  | fuzzRecord => Codec.fuzzRecord
  | label => Codec.label
  | labelComponent => Codec.labelComponent
  | radius => Codec.radius
  | scalarScattering => Codec.scalarScattering
  | transform3DComponent => Codec.transform3DComponent
  | fuzzRequired => Codec.fuzzRequired
  | fuzzOptional => Codec.fuzzOptional

/-- How a row reads in a column: a value, or a missing one. -/
def read : (t : ShippedType) → Option t.Values → Value
  | number type => .ofSlot (.number type)
  | boolean => .ofSlot .boolean
  | text => Codec.readText
  | texts => Codec.readTexts
  | vec3D => Codec.readScalars 3
  | quaternion => Codec.readScalars 4
  | mat3x3 => Codec.readScalars 9
  | translationAndMat3x3 => Column.FieldView.record Codec.translationAndMat3x3Parts
  | translationRotationScale3D => Column.FieldView.record Codec.translationRotationScale3DParts
  | transform3D => Codec.readTransform3D
  | fuzzRecord => Codec.readFuzzRecord
  | label => fun row => Codec.readText (row.map Label.value)
  | labelComponent => fun row =>
    Codec.readText ((row.map Component.Label.value).map Label.value)
  | radius => fun row => .ofSlot (.number .float32) (row.map Component.Radius.value)
  | scalarScattering => fun row => .ofSlot .boolean (row.map Component.ScalarScattering.value)
  | transform3DComponent => fun row => Codec.readTransform3D (row.map Component.Transform3D.value)
  | fuzzRequired => fun row => Codec.readFuzzRecord (row.map Component.FuzzRequired.value)
  | fuzzOptional => fun row => Codec.readFuzzRecord (Component.FuzzOptional.record? row)

/-- Every codec of the library keeps its rows. -/
theorem faithful (t : ShippedType) : t.codec.Faithful t.read := by
  cases t with
  | number type => exact Codec.number_faithful type
  | boolean => exact Codec.boolean_faithful
  | text => exact Codec.text_faithful
  | texts => exact Codec.texts_faithful
  | vec3D => exact Codec.scalars_faithful _ (by decide)
  | quaternion => exact Codec.scalars_faithful _ (by decide)
  | mat3x3 => exact Codec.scalars_faithful _ (by decide)
  | translationAndMat3x3 => exact Codec.translationAndMat3x3_faithful
  | translationRotationScale3D => exact Codec.translationRotationScale3D_faithful
  | transform3D => exact Codec.transform3D_faithful
  | fuzzRecord => exact Codec.fuzzRecord_faithful
  | label => exact Codec.delegate_faithful _ Codec.text_faithful
  | labelComponent =>
    exact Codec.delegate_faithful _ (Codec.delegate_faithful _ Codec.text_faithful)
  | radius => exact Codec.delegate_faithful _ (Codec.number_faithful .float32)
  | scalarScattering => exact Codec.delegate_faithful _ Codec.boolean_faithful
  | transform3DComponent => exact Codec.delegate_faithful _ Codec.transform3D_faithful
  | fuzzRequired => exact Codec.delegate_faithful _ Codec.fuzzRecord_faithful
  | fuzzOptional => exact Codec.fuzzOptional_faithful

end ShippedType

end TypedColumns
