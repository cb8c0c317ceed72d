import TypedColumns.Proofs.Codec.Records

/-!
# Codecs of transforms

The two kinds of transforms are records. A transform selects the variant of its kind, and a missing
one the variant of null markers, so each child has a row for every transform of its kind.
-/

namespace TypedColumns

open Column (FieldView)
open Builder (unionRows unionRows_append)

/-! ## The two kinds -/

namespace Codec

/-- What a translation with a matrix shows in each field. -/
def translationAndMat3x3Parts : List (FieldView TranslationAndMat3x3) :=
  [⟨⟨"translation", vec3D.descriptor.dataType, true⟩,
      fun row => readScalars 3 (row.bind TranslationAndMat3x3.translation),
      fun required => by cases required⟩,
   ⟨⟨"matrix", mat3x3.descriptor.dataType, true⟩,
      fun row => readScalars 9 (row.bind TranslationAndMat3x3.matrix),
      fun required => by cases required⟩,
   ⟨⟨"from_parent", .boolean, false⟩,
      fun row => .ofSlot .boolean (row.map TranslationAndMat3x3.fromParent), fun _ _ => rfl⟩]

theorem translationAndMat3x3_faithful :
    translationAndMat3x3.Faithful (FieldView.record translationAndMat3x3Parts) := by
  obtain ⟨vector, vector_keeps⟩ : vec3D.Faithful _ := scalars_faithful _ (by decide)
  obtain ⟨matrix, matrix_keeps⟩ : mat3x3.Faithful _ := scalars_faithful _ (by decide)
  obtain ⟨flag, flag_keeps⟩ := boolean_faithful
  refine ⟨_, record_keeps translationAndMat3x3Parts (fun rows =>
    [vector (rows.map (·.bind TranslationAndMat3x3.translation)),
     matrix (rows.map (·.bind TranslationAndMat3x3.matrix)),
     flag (rows.map (·.map TranslationAndMat3x3.fromParent))])
    (by simp [translationAndMat3x3Parts]) rfl ?newBuilder ?append ?missing ?finishes rfl rfl rfl⟩
  case newBuilder =>
    simp only [List.map_nil, ← vector_keeps.newBuilder, ← matrix_keeps.newBuilder,
      ← flag_keeps.newBuilder]
    rfl
  case append =>
    intro rows a validity
    refine (Write.apply_bind (vector_keeps.appendFieldOption rfl a.translation)).trans ?_
    refine (Write.apply_bind (matrix_keeps.appendFieldOption rfl a.matrix)).trans ?_
    refine (Write.apply_bind (flag_keeps.appendField rfl a.fromParent)).trans ?_
    rw [Write.apply_endRow]
    simp only [List.map_append]
    rfl
  case missing =>
    intro rows
    simp only [Builder.appendNullAll, vector_keeps.missing, matrix_keeps.missing,
      flag_keeps.missing, List.map_append]
    rfl
  case finishes =>
    intro rows
    exact ⟨vector_keeps.finishesPart _ rows, matrix_keeps.finishesPart _ rows,
      flag_keeps.finishesPart _ rows, trivial⟩

/-- What a translation with a rotation and a scale shows in each field. -/
def translationRotationScale3DParts : List (FieldView TranslationRotationScale3D) :=
  [⟨⟨"translation", vec3D.descriptor.dataType, true⟩,
      fun row => readScalars 3 (row.bind TranslationRotationScale3D.translation),
      fun required => by cases required⟩,
   ⟨⟨"rotation", quaternion.descriptor.dataType, true⟩,
      fun row => readScalars 4 (row.bind TranslationRotationScale3D.rotation),
      fun required => by cases required⟩,
   ⟨⟨"scale", vec3D.descriptor.dataType, true⟩,
      fun row => readScalars 3 (row.bind TranslationRotationScale3D.scale),
      fun required => by cases required⟩,
   ⟨⟨"from_parent", .boolean, false⟩,
      fun row => .ofSlot .boolean (row.map TranslationRotationScale3D.fromParent), fun _ _ => rfl⟩]

theorem translationRotationScale3D_faithful :
    translationRotationScale3D.Faithful (FieldView.record translationRotationScale3DParts) := by
  obtain ⟨vector, vector_keeps⟩ : vec3D.Faithful _ := scalars_faithful _ (by decide)
  obtain ⟨rotation, rotation_keeps⟩ : quaternion.Faithful _ := scalars_faithful _ (by decide)
  obtain ⟨flag, flag_keeps⟩ := boolean_faithful
  refine ⟨_, record_keeps translationRotationScale3DParts (fun rows =>
    [vector (rows.map (·.bind TranslationRotationScale3D.translation)),
     rotation (rows.map (·.bind TranslationRotationScale3D.rotation)),
     vector (rows.map (·.bind TranslationRotationScale3D.scale)),
     flag (rows.map (·.map TranslationRotationScale3D.fromParent))])
    (by simp [translationRotationScale3DParts]) rfl ?newBuilder ?append ?missing ?finishes
    rfl rfl rfl⟩
  case newBuilder =>
    simp only [List.map_nil, ← vector_keeps.newBuilder, ← rotation_keeps.newBuilder,
      ← flag_keeps.newBuilder]
    rfl
  case append =>
    intro rows a validity
    refine (Write.apply_bind (vector_keeps.appendFieldOption rfl a.translation)).trans ?_
    refine (Write.apply_bind (rotation_keeps.appendFieldOption rfl a.rotation)).trans ?_
    refine (Write.apply_bind (vector_keeps.appendFieldOption rfl a.scale)).trans ?_
    refine (Write.apply_bind (flag_keeps.appendField rfl a.fromParent)).trans ?_
    rw [Write.apply_endRow]
    simp only [List.map_append]
    rfl
  case missing =>
    intro rows
    simp only [Builder.appendNullAll, vector_keeps.missing, rotation_keeps.missing,
      flag_keeps.missing, List.map_append]
    rfl
  case finishes =>
    intro rows
    exact ⟨vector_keeps.finishesPart _ rows, rotation_keeps.finishesPart _ rows,
      vector_keeps.finishesPart _ rows, flag_keeps.finishesPart _ rows, trivial⟩

end Codec

namespace Write

/-- A write to a variant records the row and leaves the other children alone. -/
theorem apply_toVariant {id : TypeId} {kind : Builder.Kind} {w : Write} {variants : List Variant}
    {rows : Array (TypeId × Nat)} {children : List Builder} {index : Nat} {child child' : Builder}
    (declared : Column.variantIndex? variants id = some index)
    (found : children[index]? = some child) (same : child.kind = kind)
    (done : w.apply child = (.ok (), child')) :
    (toVariant id kind w).apply (.union variants rows children) =
      (.ok (), .union variants (rows.push (id, child.length)) (children.set index child')) := by
  simp only [toVariant, of, apply, Builder.withVariant, declared, found, if_pos same]
  rw [show w child = (.ok (), child') from done]
  rfl

end Write

/-! ## Transforms -/

namespace Transform3D

def translationAndMat3x3? : Option Transform3D → Option TranslationAndMat3x3
  | some (.translationAndMat3x3 value) => some value
  | _ => none

def translationRotationScale? : Option Transform3D → Option TranslationRotationScale3D
  | some (.translationRotationScale value) => some value
  | _ => none

/-- The variant that a row selects. -/
def tag : Option Transform3D → TypeId
  | none => 0
  | some t => t.variantId

/-- What the row shows in the variant. -/
def value : Option Transform3D → Value
  | none => .missing
  | some (.translationAndMat3x3 value) =>
    FieldView.record Codec.translationAndMat3x3Parts (some value)
  | some (.translationRotationScale value) =>
    FieldView.record Codec.translationRotationScale3DParts (some value)

/-- The rows of the null markers are missing. -/
theorem map_markers (rows : List (Option Transform3D)) :
    (rows.filter fun row => tag row == 0).map value =
      List.replicate (rows.filter fun row => tag row == 0).length .missing := by
  rw [List.eq_replicate_iff]
  refine ⟨List.length_map .., ?_⟩
  intro shown mem
  obtain ⟨row, filtered, rfl⟩ := List.mem_map.1 mem
  have marker := (List.mem_filter.1 filtered).2
  rcases row with _ | ⟨matrix⟩ | ⟨rotation⟩
  · rfl
  · cases marker
  · cases marker

theorem map_matrices (rows : List (Option Transform3D)) :
    (rows.filter fun row => tag row == 1).map value =
      ((rows.filterMap translationAndMat3x3?).map some).map
        (FieldView.record Codec.translationAndMat3x3Parts) := by
  induction rows with
  | nil => rfl
  | cons row rows ih =>
    rcases row with _ | ⟨matrix⟩ | ⟨rotation⟩
    · exact ih
    · exact congrArg (value (some (.translationAndMat3x3 matrix)) :: ·) ih
    · exact ih

theorem map_rotations (rows : List (Option Transform3D)) :
    (rows.filter fun row => tag row == 2).map value =
      ((rows.filterMap translationRotationScale?).map some).map
        (FieldView.record Codec.translationRotationScale3DParts) := by
  induction rows with
  | nil => rfl
  | cons row rows ih =>
    rcases row with _ | ⟨matrix⟩ | ⟨rotation⟩
    · exact ih
    · exact ih
    · exact congrArg (value (some (.translationRotationScale rotation)) :: ·) ih

/-- As many rows select a variant as it has values. -/
theorem count_matrices (rows : List (Option Transform3D)) :
    (rows.filterMap translationAndMat3x3?).length = (rows.map tag).count 1 := by
  have lengths := congrArg List.length (map_matrices rows)
  rw [List.length_map, List.length_map, List.length_map] at lengths
  rw [← lengths, List.count_eq_countP, List.countP_map, List.countP_eq_length_filter]
  rfl

theorem count_rotations (rows : List (Option Transform3D)) :
    (rows.filterMap translationRotationScale?).length = (rows.map tag).count 2 := by
  have lengths := congrArg List.length (map_rotations rows)
  rw [List.length_map, List.length_map, List.length_map] at lengths
  rw [← lengths, List.count_eq_countP, List.countP_map, List.countP_eq_length_filter]
  rfl

end Transform3D

namespace Codec

open Transform3D (tag translationAndMat3x3? translationRotationScale?)

/-- A transform reads as the record of its kind, and a missing one as a null marker. -/
def readTransform3D : Option Transform3D → Value
  | none => .variant 0 "_null_markers" .missing
  | some (.translationAndMat3x3 value) =>
    .variant 1 "TranslationAndMat3x3" (FieldView.record translationAndMat3x3Parts (some value))
  | some (.translationRotationScale value) =>
    .variant 2 "TranslationRotationScale"
      (FieldView.record translationRotationScale3DParts (some value))

theorem readTransform3D_eq (row : Option Transform3D) :
    readTransform3D row =
      Column.variantRow transform3DVariants (tag row) (some (Transform3D.value row)) := by
  rcases row with _ | ⟨matrix⟩ | ⟨rotation⟩
  · rfl
  · rfl
  · rfl

theorem nullVariant?_transform3D : Builder.nullVariant? transform3DVariants = some 0 := by
  simp [Builder.nullVariant?, transform3DVariants]

theorem transform3D_faithful : transform3D.Faithful readTransform3D := by
  obtain ⟨matrix, matrix_keeps⟩ := translationAndMat3x3_faithful
  obtain ⟨rotation, rotation_keeps⟩ := translationRotationScale3D_faithful
  let children (rows : List (Option Transform3D)) : List Builder :=
    [.item (.null ((rows.map tag).count 0)),
     matrix ((rows.filterMap translationAndMat3x3?).map some),
     rotation ((rows.filterMap translationRotationScale?).map some)]
  let build (rows : List (Option Transform3D)) : Builder :=
    .union transform3DVariants (unionRows (rows.map tag)) (children rows)
  have append : ∀ rows a, (transform3D.append a).apply (build rows) =
      (.ok (), build (rows ++ [some a])) := by
    intro rows a
    cases a with
    | translationAndMat3x3 value =>
      have place : Column.variantIndex? transform3DVariants 1 = some 1 := rfl
      refine (Write.apply_toVariant place rfl (matrix_keeps.kind _)
        (matrix_keeps.append _ value)).trans ?_
      have selected : tag (some (.translationAndMat3x3 value)) = 1 := rfl
      have marker : List.count (0 : TypeId) [1] = 0 := rfl
      have here : [some (.translationAndMat3x3 value)].filterMap translationAndMat3x3? =
        [value] := rfl
      have elsewhere : [some (.translationAndMat3x3 value)].filterMap translationRotationScale? =
        [] := rfl
      simp only [build, children, List.map_append, List.map_singleton, unionRows_append,
        List.filterMap_append, List.count_append, matrix_keeps.length, List.length_map,
        Transform3D.count_matrices, selected, marker, here, elsewhere,
        List.append_nil, Nat.add_zero]
      rfl
    | translationRotationScale value =>
      have place : Column.variantIndex? transform3DVariants 2 = some 2 := rfl
      refine (Write.apply_toVariant place rfl (rotation_keeps.kind _)
        (rotation_keeps.append _ value)).trans ?_
      have selected : tag (some (.translationRotationScale value)) = 2 := rfl
      have marker : List.count (0 : TypeId) [2] = 0 := rfl
      have here : [some (.translationRotationScale value)].filterMap translationRotationScale? =
        [value] := rfl
      have elsewhere : [some (.translationRotationScale value)].filterMap translationAndMat3x3? =
        [] := rfl
      simp only [build, children, List.map_append, List.map_singleton, unionRows_append,
        List.filterMap_append, List.count_append, rotation_keeps.length, List.length_map,
        Transform3D.count_rotations, selected, marker, here, elsewhere,
        List.append_nil, Nat.add_zero]
      rfl
  have null : ∀ rows, (build rows).appendNull = (.ok (), build (rows ++ [none])) := by
    intro rows
    have first : Column.variantIndex? transform3DVariants 0 = some 0 := rfl
    have matrices : [none].filterMap translationAndMat3x3? = [] := rfl
    have rotations : [none].filterMap translationRotationScale? = [] := rfl
    simp only [build, children, Builder.appendNull, nullVariant?_transform3D, first,
      Option.getD_some, Builder.appendNullAt, List.map_append, List.map_singleton, unionRows_append,
      List.filterMap_append, List.count_append, matrices, rotations, List.append_nil]
    rfl
  refine ⟨build, keeps_of_rules ?newBuilder (fun _ => rfl) ?length append null rfl rfl
    (apply_appendAll append rfl) ?finishes⟩
  case newBuilder =>
    simp only [build, children, List.map_nil, List.filterMap_nil, ← matrix_keeps.newBuilder,
      ← rotation_keeps.newBuilder]
    rfl
  case length =>
    intro rows
    simp [build, Builder.length, unionRows, Column.positions]
  case finishes =>
    intro rows
    have counted : ∀ i : TypeId, (rows.map tag).count i =
        (rows.filter fun row => tag row == i).length := by
      intro i
      rw [List.count_eq_countP, List.countP_map, List.countP_eq_length_filter]
      rfl
    have all : Builder.FinishesVariants tag Transform3D.value rows transform3DVariants
        (children rows) := by
      refine ⟨⟨counted 0, ?_⟩, ⟨?_, ?_⟩, ⟨?_, ?_⟩, trivial⟩
      · rw [Transform3D.map_markers, ← counted]
        exact Builder.finishes_item rfl rfl (Column.holds_null _)
      · rw [matrix_keeps.length, List.length_map, Transform3D.count_matrices, counted]
      · rw [Transform3D.map_matrices]
        exact matrix_keeps.finishes _
      · rw [rotation_keeps.length, List.length_map, Transform3D.count_rotations, counted]
      · rw [Transform3D.map_rotations]
        exact rotation_keeps.finishes _
    have declared : ∀ row ∈ rows, ∃ v ∈ transform3DVariants, v.id = tag row := by
      rintro (_ | ⟨value⟩ | ⟨value⟩) -
      · exact ⟨_, List.mem_cons_self, rfl⟩
      · exact ⟨_, List.mem_cons_of_mem _ List.mem_cons_self, rfl⟩
      · exact ⟨_, List.mem_cons_of_mem _ (List.mem_cons_of_mem _ List.mem_cons_self), rfl⟩
    have finishes := all.union declared rfl
    rw [List.map_congr_left fun row _ => readTransform3D_eq row]
    exact finishes

end Codec

end TypedColumns
