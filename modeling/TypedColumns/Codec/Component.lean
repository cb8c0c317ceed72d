import TypedColumns.Codec.Record
import TypedColumns.Codec.Spatial

/-!
# Components

Most components hold one value of another type and leave its encoding to that type's codec, under a
name of their own. `Component.FuzzOptional` holds a record or nothing: a missing record is a missing
row, so unlike the others its field is nullable.
-/

namespace TypedColumns

/-- A text to show next to something. -/
structure Label where
  value : TextBuffer
  deriving DecidableEq

instance : Footprint Label := .wrapping Label.value

/-- A label shows as its text. -/
def Label.display (l : Label) : String := l.value.content

namespace Component

structure Label where
  value : TypedColumns.Label
  deriving DecidableEq

/-- The radius of something, for instance of a point. -/
structure Radius where
  value : NumberType.float32.Bits
  deriving DecidableEq

/-- Whether a scalar is shown as points in a scatter plot. -/
structure ScalarScattering where
  value : Bool
  deriving DecidableEq

/-- A transform between two spaces. -/
structure Transform3D where
  value : TypedColumns.Transform3D
  deriving DecidableEq

/-- A component that always holds a record. -/
structure FuzzRequired where
  value : FuzzRecord

/-- A component that may hold a record. -/
structure FuzzOptional where
  value : Option FuzzRecord

instance : Footprint Label := .wrapping Label.value
instance : Footprint Radius := .wrapping Radius.value
instance : Footprint ScalarScattering := .wrapping ScalarScattering.value
instance : Footprint Transform3D := .wrapping Transform3D.value
instance : Footprint FuzzRequired := .wrapping FuzzRequired.value
instance : Footprint FuzzOptional := .wrapping FuzzOptional.value

end Component

namespace Codec

def label : Codec Label := delegate "cell.datatypes.Label" text Label.value

def labelComponent : Codec Component.Label :=
  delegate "cell.components.Label" label Component.Label.value

def radius : Codec Component.Radius :=
  delegate "cell.components.Radius" (number .float32) Component.Radius.value

def scalarScattering : Codec Component.ScalarScattering :=
  delegate "cell.components.ScalarScattering" boolean Component.ScalarScattering.value

def transform3DComponent : Codec Component.Transform3D :=
  delegate "cell.components.Transform3D" transform3D Component.Transform3D.value

def fuzzRequired : Codec Component.FuzzRequired :=
  delegate "cell.testing.components.FuzzRequired" fuzzRecord Component.FuzzRequired.value

def fuzzOptional : Codec Component.FuzzOptional where
  descriptor :=
    ⟨"cell.testing.components.FuzzOptional", true, fuzzRecord.descriptor.dataType⟩
  newBuilder := fuzzRecord.newBuilder
  append value := fuzzRecord.appendOption value.value

end Codec

end TypedColumns
