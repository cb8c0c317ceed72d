import TypedColumns.Proofs.Codec.Shipped

/-!
# What a column tells apart

Two rows read alike just when nothing that shows in a column tells them apart. Two things do not
show: the room that texts and lists set aside, and whether a record that is absent came as a value
or as a missing row. So floats keep their bits, and an absent field is told from an empty one.
-/

namespace TypedColumns

/-- The text with just the room it takes. -/
def TextBuffer.trim (t : TextBuffer) : TextBuffer := .ofString t.content

/-- The texts with just the room they take. -/
def ListBuffer.trim (l : ListBuffer TextBuffer) : ListBuffer TextBuffer :=
  .ofList (l.items.map TextBuffer.trim)

def FuzzRecord.trim (r : FuzzRecord) : FuzzRecord :=
  { r with
    singleStringRequired := r.singleStringRequired.trim
    manyStringsOptional := r.manyStringsOptional.map ListBuffer.trim }

/-- Rows read alike just when what shows of them is the same, and as missing when nothing does. -/
structure Discerns {α : Type} (read : Option α → Value) (shown : Option α → Option α) : Prop where
  alike : ∀ a b, read a = read b ↔ shown a = shown b
  missing : ∀ a, (read a).isMissing = true ↔ shown a = none

section

variable {α β : Type}

/-- Lists of values that are told apart one by one are told apart. -/
theorem map_eq_map_iff {γ δ : Type} {f : α → γ} {g : α → δ} (same : ∀ a b, f a = f b ↔ g a = g b)
    (as bs : List α) : as.map f = bs.map f ↔ as.map g = bs.map g := by
  induction as generalizing bs with
  | nil =>
    cases bs with
    | nil => exact ⟨fun _ => rfl, fun _ => rfl⟩
    | cons b bs => constructor <;> intro other <;> cases other
  | cons a as ih =>
    cases bs with
    | nil => constructor <;> intro other <;> cases other
    | cons b bs => simp only [List.map_cons, List.cons.injEq, same a b, ih bs]

/-- A value is told from a missing one. -/
theorem discerns_ofSlot {f : α → Value} {g : α → α} (present : ∀ a, (f a).isMissing = false)
    (same : ∀ a b, f a = f b ↔ g a = g b) : Discerns (.ofSlot f) (Option.map g) := by
  have other : ∀ a, f a ≠ .missing := by
    intro a missing
    have there := present a
    rw [missing] at there
    cases there
  constructor
  · rintro (_ | a) (_ | b)
    · exact ⟨fun _ => rfl, fun _ => rfl⟩
    · exact ⟨fun same => absurd same.symm (other b), fun same => by cases same⟩
    · exact ⟨fun same => absurd same (other a), fun same => by cases same⟩
    · simp only [Value.ofSlot, Option.map_some, Option.some.injEq]
      exact same a b
  · rintro (_ | a)
    · exact ⟨fun _ => rfl, fun _ => rfl⟩
    · simp [Value.ofSlot, present a]

/-- A value that holds one value of another type is told apart as that one is. -/
theorem Discerns.wrapped {read : Option β → Value} {shown : Option β → Option β}
    (discerns : Discerns read shown) (get : Option α → Option β) {wrap : β → α}
    (injective : ∀ x y, wrap x = wrap y → x = y) :
    Discerns (fun row => read (get row)) fun row => (shown (get row)).map wrap := by
  constructor
  · intro a b
    refine (discerns.alike (get a) (get b)).trans ?_
    exact (Option.map_inj_right injective).symm
  · intro a
    refine (discerns.missing (get a)).trans ?_
    exact Option.map_eq_none_iff.symm

end

namespace Codec

theorem discerns_number (type : NumberType) :
    Discerns (.ofSlot (.number type)) (Option.map id) :=
  discerns_ofSlot (fun _ => rfl) fun a b => by simp

theorem discerns_boolean : Discerns (.ofSlot .boolean) (Option.map id) :=
  discerns_ofSlot (fun _ => rfl) fun a b => by simp

theorem discerns_text : Discerns readText (Option.map TextBuffer.trim) :=
  discerns_ofSlot (fun _ => rfl) fun a b => by
    simp [TextBuffer.trim, TextBuffer.ofString]

theorem discerns_texts : Discerns readTexts (Option.map ListBuffer.trim) := by
  refine discerns_ofSlot (fun _ => rfl) ?_
  intro a b
  have texts : ∀ x y : TextBuffer,
      Value.text x.content = Value.text y.content ↔ x.trim = y.trim := by
    intro x y
    simp [TextBuffer.trim, TextBuffer.ofString]
  simp only [Value.list.injEq, ListBuffer.trim, ListBuffer.ofList, ListBuffer.mk.injEq, and_true]
  exact map_eq_map_iff texts a.items b.items

theorem discerns_scalars (n : Nat) : Discerns (readScalars n) (Option.map id) := by
  refine discerns_ofSlot (fun _ => rfl) ?_
  intro a b
  have bits : ∀ x y : Scalar,
      Value.number .float32 x = Value.number .float32 y ↔ id x = id y := by
    intro x y
    simp
  simp only [Value.list.injEq, map_eq_map_iff bits a.toList b.toList, List.map_id, id,
    Vector.toList_inj]

/-- Records are told apart when their fields are. -/
theorem discerns_record {ρ : Type} {parts : List (Column.FieldView ρ)} {trim : ρ → ρ}
    (same : ∀ a b, (∀ p ∈ parts, p.read (some a) = p.read (some b)) ↔ trim a = trim b) :
    Discerns (Column.FieldView.record parts) (Option.map trim) := by
  constructor
  · rintro (_ | a) (_ | b)
    · exact ⟨fun _ => rfl, fun _ => rfl⟩
    · simp [Column.FieldView.record]
    · simp [Column.FieldView.record]
    · simp only [Column.FieldView.record, Option.map_some, Option.some.injEq, Value.struct.injEq]
      refine Iff.trans ?_ (same a b)
      rw [List.map_inj_left]
      simp only [Prod.mk.injEq, true_and]
  · rintro (_ | a)
    · exact ⟨fun _ => rfl, fun _ => rfl⟩
    · simp [Column.FieldView.record, Value.isMissing]

theorem discerns_fuzzRecord : Discerns readFuzzRecord (Option.map FuzzRecord.trim) := by
  refine discerns_record ?_
  intro a b
  have single := (discerns_number .float32).alike a.singleFloatOptional b.singleFloatOptional
  have string := discerns_text.alike (some a.singleStringRequired) (some b.singleStringRequired)
  have strings := discerns_texts.alike a.manyStringsOptional b.manyStringsOptional
  have scalar := (discerns_number .float32).alike (some a.flattenedScalar) (some b.flattenedScalar)
  simp only [Option.map_id, id, Option.map_some, Option.some.injEq] at single string scalar
  simp only [fuzzRecordParts, List.forall_mem_cons, List.not_mem_nil, false_imp_iff, implies_true,
    and_true, Option.bind_some, Option.map_some, single, string, strings, scalar, FuzzRecord.trim,
    FuzzRecord.mk.injEq]

theorem discerns_translationAndMat3x3 :
    Discerns (Column.FieldView.record translationAndMat3x3Parts) (Option.map id) := by
  refine discerns_record ?_
  rintro ⟨translation, matrix, fromParent⟩ ⟨translation', matrix', fromParent'⟩
  have vector := (discerns_scalars 3).alike translation translation'
  have scalars := (discerns_scalars 9).alike matrix matrix'
  have flag := discerns_boolean.alike (some fromParent) (some fromParent')
  simp only [Option.map_id, id, Option.some.injEq] at vector scalars flag
  simp only [translationAndMat3x3Parts, List.forall_mem_cons, List.not_mem_nil, false_imp_iff,
    implies_true, and_true, Option.bind_some, Option.map_some, vector, scalars, flag, id,
    TranslationAndMat3x3.mk.injEq]

theorem discerns_translationRotationScale3D :
    Discerns (Column.FieldView.record translationRotationScale3DParts) (Option.map id) := by
  refine discerns_record ?_
  rintro ⟨translation, rotation, scale, fromParent⟩ ⟨translation', rotation', scale', fromParent'⟩
  have vector := (discerns_scalars 3).alike translation translation'
  have quaternion := (discerns_scalars 4).alike rotation rotation'
  have scalars := (discerns_scalars 3).alike scale scale'
  have flag := discerns_boolean.alike (some fromParent) (some fromParent')
  simp only [Option.map_id, id, Option.some.injEq] at vector quaternion scalars flag
  simp only [translationRotationScale3DParts, List.forall_mem_cons, List.not_mem_nil, false_imp_iff,
    implies_true, and_true, Option.bind_some, Option.map_some, vector, quaternion, scalars, flag,
    id, TranslationRotationScale3D.mk.injEq]

theorem discerns_transform3D : Discerns readTransform3D (Option.map id) := by
  constructor
  · rintro (_ | ⟨a⟩ | ⟨a⟩) (_ | ⟨b⟩ | ⟨b⟩)
    · exact ⟨fun _ => rfl, fun _ => rfl⟩
    · simp [readTransform3D]
    · simp [readTransform3D]
    · simp [readTransform3D]
    · have matrix := discerns_translationAndMat3x3.alike (some a) (some b)
      simp only [Option.map_id, id, Option.some.injEq] at matrix
      simp [readTransform3D, matrix]
    · simp [readTransform3D]
    · simp [readTransform3D]
    · simp [readTransform3D]
    · have rotation := discerns_translationRotationScale3D.alike (some a) (some b)
      simp only [Option.map_id, id, Option.some.injEq] at rotation
      simp [readTransform3D, rotation]
  · rintro (_ | ⟨a⟩ | ⟨a⟩)
    · exact ⟨fun _ => rfl, fun _ => rfl⟩
    · simp [readTransform3D, Value.isMissing, Column.FieldView.record]
    · simp [readTransform3D, Value.isMissing, Column.FieldView.record]

end Codec

namespace ShippedType

/-- What of a row shows in a column. -/
def shown : (t : ShippedType) → Option t.Values → Option t.Values
  | number type => fun row : Option type.Bits => row.map id
  | boolean => fun row : Option Bool => row.map id
  | text => fun row : Option TextBuffer => row.map TextBuffer.trim
  | texts => fun row : Option (ListBuffer TextBuffer) => row.map ListBuffer.trim
  | vec3D => fun row : Option Vec3D => row.map id
  | quaternion => fun row : Option Quaternion => row.map id
  | mat3x3 => fun row : Option Mat3x3 => row.map id
  | translationAndMat3x3 => fun row : Option TranslationAndMat3x3 => row.map id
  | translationRotationScale3D => fun row : Option TranslationRotationScale3D => row.map id
  | transform3D => fun row : Option Transform3D => row.map id
  | fuzzRecord => fun row : Option FuzzRecord => row.map FuzzRecord.trim
  | label => fun row : Option Label => ((row.map Label.value).map TextBuffer.trim).map Label.mk
  | labelComponent => fun row : Option Component.Label =>
    ((((row.map Component.Label.value).map Label.value).map TextBuffer.trim).map Label.mk).map
      Component.Label.mk
  | radius => fun row : Option Component.Radius =>
    ((row.map Component.Radius.value).map id).map Component.Radius.mk
  | scalarScattering => fun row : Option Component.ScalarScattering =>
    ((row.map Component.ScalarScattering.value).map id).map Component.ScalarScattering.mk
  | transform3DComponent => fun row : Option Component.Transform3D =>
    ((row.map Component.Transform3D.value).map id).map Component.Transform3D.mk
  | fuzzRequired => fun row : Option Component.FuzzRequired =>
    ((row.map Component.FuzzRequired.value).map FuzzRecord.trim).map Component.FuzzRequired.mk
  | fuzzOptional => fun row : Option Component.FuzzOptional =>
    ((Component.FuzzOptional.record? row).map FuzzRecord.trim).map fun r => ⟨some r⟩

theorem discerns (t : ShippedType) : Discerns t.read t.shown := by
  cases t with
  | number type => exact Codec.discerns_number type
  | boolean => exact Codec.discerns_boolean
  | text => exact Codec.discerns_text
  | texts => exact Codec.discerns_texts
  | vec3D => exact Codec.discerns_scalars 3
  | quaternion => exact Codec.discerns_scalars 4
  | mat3x3 => exact Codec.discerns_scalars 9
  | translationAndMat3x3 => exact Codec.discerns_translationAndMat3x3
  | translationRotationScale3D => exact Codec.discerns_translationRotationScale3D
  | transform3D => exact Codec.discerns_transform3D
  | fuzzRecord => exact Codec.discerns_fuzzRecord
  | label => exact Codec.discerns_text.wrapped (Option.map Label.value) fun _ _ => Label.mk.inj
  | labelComponent =>
    exact (Codec.discerns_text.wrapped (Option.map Label.value) fun _ _ => Label.mk.inj).wrapped
      (Option.map Component.Label.value) fun _ _ => Component.Label.mk.inj
  | radius =>
    exact (Codec.discerns_number .float32).wrapped (Option.map Component.Radius.value)
      fun _ _ => Component.Radius.mk.inj
  | scalarScattering =>
    exact Codec.discerns_boolean.wrapped (Option.map Component.ScalarScattering.value)
      fun _ _ => Component.ScalarScattering.mk.inj
  | transform3DComponent =>
    exact Codec.discerns_transform3D.wrapped (Option.map Component.Transform3D.value)
      fun _ _ => Component.Transform3D.mk.inj
  | fuzzRequired =>
    exact Codec.discerns_fuzzRecord.wrapped (Option.map Component.FuzzRequired.value)
      fun _ _ => Component.FuzzRequired.mk.inj
  | fuzzOptional =>
    exact Codec.discerns_fuzzRecord.wrapped Component.FuzzOptional.record?
      fun _ _ same => Option.some.inj (Component.FuzzOptional.mk.inj same)

/-- A missing row has a variant of its own in a union, and no value anywhere else. -/
theorem read_none (t : ShippedType) :
    t.read none = if t.codec.descriptor.dataType.isUnion then .variant 0 "_null_markers" .missing
      else .missing := by
  cases t <;> rfl

end ShippedType

end TypedColumns
