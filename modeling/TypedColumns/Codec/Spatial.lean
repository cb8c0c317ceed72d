import TypedColumns.Codec.Flat

/-!
# Spatial values

Vectors, rotations and matrices are runs of a fixed number of floats. A transform is either a
translation with a matrix, or a translation with a rotation and a scale; a missing transform is a
row of a variant of its own, since a union has no other place for it.
-/

namespace TypedColumns

abbrev Scalar : Type := NumberType.float32.Bits

namespace Scalar

def zero : Scalar := 0#32

/-- The bit pattern of one. -/
def one : Scalar := 0x3f800000#32

end Scalar

abbrev Vec3D : Type := Vector Scalar 3

/-- A rotation, its real part last. -/
abbrev Quaternion : Type := Vector Scalar 4

/-- A matrix, column by column. -/
abbrev Mat3x3 : Type := Vector Scalar 9

def Vec3D.zero : Vec3D := #v[.zero, .zero, .zero]

def Quaternion.identity : Quaternion := #v[.zero, .zero, .zero, .one]

def Mat3x3.identity : Mat3x3 :=
  #v[.one, .zero, .zero, .zero, .one, .zero, .zero, .zero, .one]

structure TranslationAndMat3x3 where
  translation : Option Vec3D
  matrix : Option Mat3x3
  fromParent : Bool
  deriving DecidableEq

structure TranslationRotationScale3D where
  translation : Option Vec3D
  rotation : Option Quaternion
  scale : Option Vec3D
  fromParent : Bool
  deriving DecidableEq

inductive Transform3D
  | translationAndMat3x3 (value : TranslationAndMat3x3)
  | translationRotationScale (value : TranslationRotationScale3D)
  deriving DecidableEq

instance : Inhabited TranslationAndMat3x3 := ⟨⟨none, none, false⟩⟩
instance : Inhabited TranslationRotationScale3D := ⟨⟨none, none, none, false⟩⟩

open Footprint (recordSize part) in
instance : Footprint TranslationAndMat3x3 :=
  .flat (recordSize [part (Option Vec3D), part (Option Mat3x3), part Bool]) 4 true

open Footprint (recordSize part) in
instance : Footprint TranslationRotationScale3D :=
  .flat (recordSize [part (Option Vec3D), part (Option Quaternion), part (Option Vec3D), part Bool])
    4 true

/-- The larger alternative has a pattern to spare, which tells the other one apart. -/
instance : Footprint Transform3D :=
  .flat (max (Footprint.size TranslationAndMat3x3) (Footprint.size TranslationRotationScale3D))
    4 true

namespace Codec

/-- Runs of `n` floats. -/
def scalars (name : String) (n : Nat) : Codec (Vector Scalar n) where
  descriptor := ⟨name, false, .fixedSizeList (.item (.number .float32)) n⟩
  newBuilder := .item (.fixedSizeList n #[] (.number .float32 #[]))
  append values := .changeItem name fun b => do
    let b ← b.mapItems? (·.appendNumbers? .float32 values.toList)
    b.endRow? true

def vec3D : Codec Vec3D := scalars "cell.datatypes.Vec3D" 3

def quaternion : Codec Quaternion := scalars "cell.datatypes.Quaternion" 4

def mat3x3 : Codec Mat3x3 := scalars "cell.datatypes.Mat3x3" 9

def translationAndMat3x3Fields : List Field :=
  [⟨"translation", vec3D.descriptor.dataType, true⟩,
   ⟨"matrix", mat3x3.descriptor.dataType, true⟩,
   ⟨"from_parent", .boolean, false⟩]

def translationAndMat3x3 : Codec TranslationAndMat3x3 where
  descriptor :=
    ⟨"cell.datatypes.TranslationAndMat3x3", false, .struct translationAndMat3x3Fields⟩
  newBuilder :=
    .struct translationAndMat3x3Fields #[]
      [vec3D.newBuilder, mat3x3.newBuilder, boolean.newBuilder]
  append value := do
    vec3D.appendFieldOption 0 value.translation
    mat3x3.appendFieldOption 1 value.matrix
    boolean.appendField 2 value.fromParent
    Write.endRow "cell.datatypes.TranslationAndMat3x3" true

def translationRotationScale3DFields : List Field :=
  [⟨"translation", vec3D.descriptor.dataType, true⟩,
   ⟨"rotation", quaternion.descriptor.dataType, true⟩,
   ⟨"scale", vec3D.descriptor.dataType, true⟩,
   ⟨"from_parent", .boolean, false⟩]

def translationRotationScale3D : Codec TranslationRotationScale3D where
  descriptor :=
    ⟨"cell.datatypes.TranslationRotationScale3D", false, .struct translationRotationScale3DFields⟩
  newBuilder :=
    .struct translationRotationScale3DFields #[]
      [vec3D.newBuilder, quaternion.newBuilder, vec3D.newBuilder, boolean.newBuilder]
  append value := do
    vec3D.appendFieldOption 0 value.translation
    quaternion.appendFieldOption 1 value.rotation
    vec3D.appendFieldOption 2 value.scale
    boolean.appendField 3 value.fromParent
    Write.endRow "cell.datatypes.TranslationRotationScale3D" true

def transform3DVariants : List Variant :=
  [⟨0, ⟨"_null_markers", .null, true⟩⟩,
   ⟨1, ⟨"TranslationAndMat3x3", translationAndMat3x3.descriptor.dataType, false⟩⟩,
   ⟨2, ⟨"TranslationRotationScale", translationRotationScale3D.descriptor.dataType, false⟩⟩]

end Codec

/-- The id of the variant that holds the transform. -/
def Transform3D.variantId : Transform3D → TypeId
  | .translationAndMat3x3 _ => 1
  | .translationRotationScale _ => 2

namespace Codec

def transform3D : Codec Transform3D where
  descriptor := ⟨"cell.datatypes.Transform3D", false, .union transform3DVariants⟩
  newBuilder :=
    .union transform3DVariants #[]
      [.item (.null 0), translationAndMat3x3.newBuilder, translationRotationScale3D.newBuilder]
  append
    | .translationAndMat3x3 value =>
      translationAndMat3x3.appendVariant (Transform3D.translationAndMat3x3 value).variantId value
    | .translationRotationScale value =>
      translationRotationScale3D.appendVariant
        (Transform3D.translationRotationScale value).variantId value

end Codec

end TypedColumns
