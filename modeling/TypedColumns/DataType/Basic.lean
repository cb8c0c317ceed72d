/-!
# Data types of columns

A data type says how the values of a column are laid out. Flat types are numbers, truth values,
texts and byte strings; nested types are lists of any length, lists of one fixed length, structs,
and unions whose rows choose one of several variants. A nested type names its children by fields,
and a field says whether its values may be missing. Unions whose variants all keep a value for every
row are sparse; these, and types of which only the name is known, can be declared, but their values
are not read.

The three types are defined together because a field carries a data type and a data type carries
fields. Equality is decided by `DataType.same`, a comparison over all names, nested types,
nullability flags and type ids; `DataType.same_iff` states that it is equality.
-/

namespace TypedColumns

/-- The numbers a column can hold, named by their interpretation and their width in bits. -/
inductive NumberType
  | int8 | int16 | int32 | int64
  | uint8 | uint16 | uint32 | uint64
  | float16 | float32 | float64
  deriving DecidableEq, Repr, Inhabited

namespace NumberType

/-- The number of bytes one value takes. -/
def bytes : NumberType → Nat
  | .int8 | .uint8 => 1
  | .int16 | .uint16 | .float16 => 2
  | .int32 | .uint32 | .float32 => 4
  | .int64 | .uint64 | .float64 => 8

/-- A value is kept as its bit pattern, so that no float is ever rounded or normalised. -/
abbrev Bits (t : NumberType) : Type := BitVec (8 * t.bytes)

theorem bytes_pos (t : NumberType) : 0 < t.bytes := by cases t <;> decide

end NumberType

/-- The width of the offsets that delimit texts, byte strings and lists. -/
inductive OffsetWidth
  | narrow | wide
  deriving DecidableEq, Repr, Inhabited

/-- The number of bytes one offset takes. -/
def OffsetWidth.bytes : OffsetWidth → Nat
  | .narrow => 4
  | .wide => 8

/-- The id by which a row of a union names its variant. -/
abbrev TypeId : Type := Int8

mutual

/-- The layout of a column's values. -/
inductive DataType
  /-- Every value is missing. -/
  | null
  | boolean
  | number (type : NumberType)
  | text (width : OffsetWidth)
  | binary (width : OffsetWidth)
  /-- Each value is a run of items of any length. -/
  | list (width : OffsetWidth) (item : Field)
  /-- Each value is a run of exactly `size` items. A type that was declared elsewhere may have a
  negative size; then there are no values. -/
  | fixedSizeList (item : Field) (size : Int)
  | struct (fields : List Field)
  /-- Each value is a value of one of the variants. -/
  | union (variants : List Variant)
  | sparseUnion (variants : List Variant)
  | foreign (name : String)

/-- A named child of a nested type, or the one column of a cell. -/
structure Field where
  name : String
  type : DataType
  nullable : Bool

/-- One alternative of a union with the id that selects it. -/
structure Variant where
  id : TypeId
  field : Field

end

instance : Inhabited DataType := ⟨.null⟩
instance : Inhabited Field := ⟨⟨"", .null, true⟩⟩
instance : Inhabited Variant := ⟨⟨0, default⟩⟩

/-- The field of the items of a list whose builder was given none: items may be missing. -/
def Field.item (type : DataType) : Field := ⟨"item", type, true⟩

mutual

/-- Whether two data types agree in every name, nested type, flag and type id. -/
def DataType.same : DataType → DataType → Bool
  | .null, .null => true
  | .boolean, .boolean => true
  | .number t, .number t' => t == t'
  | .text w, .text w' => w == w'
  | .binary w, .binary w' => w == w'
  | .list w f, .list w' f' => w == w' && f.same f'
  | .fixedSizeList f n, .fixedSizeList f' n' => f.same f' && n == n'
  | .struct fs, .struct fs' => Field.allSame fs fs'
  | .union vs, .union vs' => Variant.allSame vs vs'
  | .sparseUnion vs, .sparseUnion vs' => Variant.allSame vs vs'
  | .foreign n, .foreign n' => n == n'
  | _, _ => false

/-- Whether two fields agree in name, type and nullability. -/
def Field.same : Field → Field → Bool
  | ⟨n, t, b⟩, ⟨n', t', b'⟩ => n == n' && t.same t' && b == b'

/-- Whether two variants agree in id and field. -/
def Variant.same : Variant → Variant → Bool
  | ⟨i, f⟩, ⟨i', f'⟩ => i == i' && f.same f'

/-- Whether two lists hold the same fields in the same order. -/
def Field.allSame : List Field → List Field → Bool
  | [], [] => true
  | f :: fs, f' :: fs' => f.same f' && Field.allSame fs fs'
  | _, _ => false

/-- Whether two lists hold the same variants in the same order. -/
def Variant.allSame : List Variant → List Variant → Bool
  | [], [] => true
  | v :: vs, v' :: vs' => v.same v' && Variant.allSame vs vs'
  | _, _ => false

end

mutual

theorem DataType.same_iff : (t t' : DataType) → (t.same t' = true ↔ t = t')
  | .null, t' => by cases t' <;> simp [DataType.same]
  | .boolean, t' => by cases t' <;> simp [DataType.same]
  | .number _, t' => by cases t' <;> simp [DataType.same]
  | .text _, t' => by cases t' <;> simp [DataType.same]
  | .binary _, t' => by cases t' <;> simp [DataType.same]
  | .list _ f, t' => by cases t' <;> simp [DataType.same, Field.same_iff f]
  | .fixedSizeList f _, t' => by cases t' <;> simp [DataType.same, Field.same_iff f]
  | .struct fs, t' => by cases t' <;> simp [DataType.same, Field.allSame_iff fs]
  | .union vs, t' => by cases t' <;> simp [DataType.same, Variant.allSame_iff vs]
  | .sparseUnion vs, t' => by cases t' <;> simp [DataType.same, Variant.allSame_iff vs]
  | .foreign _, t' => by cases t' <;> simp [DataType.same]

theorem Field.same_iff : (f f' : Field) → (f.same f' = true ↔ f = f')
  | ⟨_, t, _⟩, ⟨_, _, _⟩ => by simp [Field.same, DataType.same_iff t, and_assoc]

theorem Variant.same_iff : (v v' : Variant) → (v.same v' = true ↔ v = v')
  | ⟨_, f⟩, ⟨_, _⟩ => by simp [Variant.same, Field.same_iff f]

theorem Field.allSame_iff : (fs fs' : List Field) → (Field.allSame fs fs' = true ↔ fs = fs')
  | [], fs' => by cases fs' <;> simp [Field.allSame]
  | f :: fs, fs' => by cases fs' <;> simp [Field.allSame, Field.same_iff f, Field.allSame_iff fs]

theorem Variant.allSame_iff :
    (vs vs' : List Variant) → (Variant.allSame vs vs' = true ↔ vs = vs')
  | [], vs' => by cases vs' <;> simp [Variant.allSame]
  | v :: vs, vs' => by
    cases vs' <;> simp [Variant.allSame, Variant.same_iff v, Variant.allSame_iff vs]

end

instance : DecidableEq DataType := fun t t' => decidable_of_iff _ (DataType.same_iff t t')
instance : DecidableEq Field := fun f f' => decidable_of_iff _ (Field.same_iff f f')
instance : DecidableEq Variant := fun v v' => decidable_of_iff _ (Variant.same_iff v v')

/-- Unions have no validity of their own: a missing row is one that chose a missing value. -/
def DataType.isUnion : DataType → Bool
  | .union _ | .sparseUnion _ => true
  | _ => false

end TypedColumns
