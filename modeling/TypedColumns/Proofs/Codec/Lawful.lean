import TypedColumns.Codec.Irregular
import TypedColumns.Proofs.Builder.Broken
import TypedColumns.Proofs.Codec.Shipped

/-!
# Codecs that complete a slot or none

A codec is lawful if it adds at most one slot to the builder that it is given, and fails, if it
does, before the slot is complete: on a struct, before the end of the row. On a builder that is no
union this is a matter of lengths (`Write.Closes`), and on a union of what the codecs of its
variants do. The codecs of this library are lawful (`ShippedType.lawful`), and so is one that fails
half way through a row.
-/

namespace TypedColumns

universe u

open Builder (Work)

/-- Given a builder of its kind, a write adds at most one slot to it. If it fails, it does so before
the slot is complete; on a struct, before the end of the row. -/
def Write.Lawful (w : Write) (kind : Builder.Kind) : Prop :=
  ∀ b result b', b.kind = kind → w.apply b = (result, b') →
    ∃ begun done, Work begun done b b' ∧ begun ≤ 1 ∧ ∀ e, result = .error e → done = 0

namespace Write

variable {w : Write} {kind : Builder.Kind}

/-- A write to the child of a variant is lawful if what is written to the child is. -/
theorem Lawful.toVariant (lawful : w.Lawful kind) (id : TypeId) :
    (Write.toVariant id kind w).Lawful .union := by
  rintro b result b' - written
  have answer : (joined (b.withVariant id kind w.apply).1, (b.withVariant id kind w.apply).2) =
      (result, b') := written
  rcases Builder.withVariant_cases id kind w b with ⟨fault, refused⟩ |
    ⟨variants, rows, children, index, child, inner, child', rfl, position, found, same, done,
      answered⟩
  · rw [refused] at answer
    cases answer
    exact ⟨0, 0, .none b, Nat.zero_le 1, fun _ _ => rfl⟩
  · rw [answered] at answer
    cases answer
    obtain ⟨begun, completed, work, single, incomplete⟩ := lawful child _ child' same done
    cases inner with
    | ok _ =>
      refine ⟨0 + 1, 0 + 1, .value (.none _) position found work single (.inl rfl), Nat.le_refl 1,
        nofun⟩
    | error e =>
      obtain rfl := incomplete e rfl
      refine ⟨0 + 1, 0 + 0, .value (.none _) position found work single (.inr ⟨rfl, rfl⟩),
        Nat.le_refl 1, fun _ _ => rfl⟩

/-- On a builder that is no union, a write adds at most one row, and none if it fails. -/
def Closes (w : Write) : Prop :=
  ∀ b result b', b.kind ≠ .union → w.apply b = (result, b') →
    b'.kind ≠ .union ∧ b'.length ≤ b.length + 1 ∧ ∀ e, result = .error e → b'.length ≤ b.length

theorem Closes.lawful (closes : w.Closes) (plain : kind ≠ .union) : w.Lawful kind := by
  rintro b result b' rfl written
  obtain ⟨still, slots, failing⟩ := closes b result b' plain written
  cases result with
  | ok _ => exact ⟨1, 1, .of_plain plain still slots, Nat.le_refl 1, nofun⟩
  | error e => exact ⟨0, 0, .of_plain plain still (failing e rfl), Nat.zero_le 1, fun _ _ => rfl⟩

theorem closes_changeItem {name : String} {f : ItemBuilder → Option ItemBuilder}
    (slots : ∀ a a', f a = some a' → a'.length ≤ a.length + 1) : (changeItem name f).Closes := by
  intro b result b' plain written
  simp only [changeItem, change, of, apply] at written
  split at written
  · next b₁ changed =>
    cases written
    cases b with
    | struct fields validity children => cases changed
    | union variants rows children => exact absurd rfl plain
    | item items =>
      obtain ⟨items', added, rfl⟩ := Option.map_eq_some_iff.1 changed
      exact ⟨Builder.Kind.noConfusion, slots items items' added, fun _ failed => by cases failed⟩
  · cases written
    exact ⟨plain, Nat.le_succ _, fun _ _ => Nat.le_refl _⟩

theorem closes_endRow (name : String) (valid : Bool) : (endRow name valid).Closes := by
  intro b result b' plain written
  cases b with
  | union variants rows children => exact absurd rfl plain
  | item items =>
    cases written
    exact ⟨plain, Nat.le_succ _, fun _ _ => Nat.le_refl _⟩
  | struct fields validity children =>
    rw [apply_endRow] at written
    cases written
    exact ⟨nofun, Nat.le_of_eq (Array.size_push valid), nofun⟩

theorem closes_missing (name : String) : (missing name).Closes := by
  intro b result b' plain written
  simp only [missing, of, apply] at written
  rcases added : b.appendNull with ⟨fault | _, b₁⟩
  · have length := (Builder.work_appendNull b added).length_le
    have kind := Builder.kind_appendNull b
    rw [added] at written kind
    cases written
    exact ⟨kind ▸ plain, Nat.le_succ_of_le length, fun _ _ => length⟩
  · have length := (Builder.work_appendNull b added).length_le
    have kind := Builder.kind_appendNull b
    rw [added] at written kind
    cases written
    exact ⟨kind ▸ plain, length, fun _ failed => by cases failed⟩

/-- A write to a field leaves the rows of the struct alone, whatever comes of it. -/
theorem of_toField_any {index : Nat} {kind : Builder.Kind} {w : Write} {b b' : Builder}
    {result : Except CellError Unit} (written : (toField index kind w).apply b = (result, b')) :
    b'.kind = b.kind ∧ b'.length = b.length := by
  cases b with
  | item items =>
    cases written
    exact ⟨rfl, rfl⟩
  | union variants rows children =>
    cases written
    exact ⟨rfl, rfl⟩
  | struct fields validity children =>
    simp only [toField, of, apply, Builder.withField] at written
    split at written
    · cases written
      exact ⟨rfl, rfl⟩
    · split at written
      · cases written
        exact ⟨rfl, rfl⟩
      · cases written
        exact ⟨rfl, rfl⟩

/-- What comes after a field may still close the row. -/
theorem Closes.after_field {index : Nat} {next : Unit → Write} (closes : (next ()).Closes) :
    Write.Closes (toField index kind w >>= next) := by
  intro b result b' plain written
  change ExceptT.bindCont next (toField index kind w b).1 (toField index kind w b).2 = _ at written
  rcases field : (toField index kind w).apply b with ⟨e | _, b₁⟩
  · have same := of_toField_any field
    rw [show toField index kind w b = _ from field] at written
    cases written
    rw [same.1, same.2]
    exact ⟨plain, Nat.le_succ _, fun _ _ => Nat.le_refl _⟩
  · have same := of_toField_any field
    rw [show toField index kind w b = _ from field] at written
    have rest := closes b₁ result b' (same.1 ▸ plain) written
    rwa [same.2] at rest

end Write

/-- All writes of a codec's values are lawful for its builders. -/
def Codec.Lawful {α : Type u} [Footprint α] (c : Codec α) : Prop :=
  ∀ a, (c.append a).Lawful c.kind

namespace Codec

open Write

theorem length_appendNumber? {type : NumberType} {value : type.Bits} {b b' : ItemBuilder}
    (added : b.appendNumber? type value = some b') :
    b'.length = b.length + 1 := by
  cases b with
  | number other slots =>
    simp only [ItemBuilder.appendNumber?] at added
    split at added
    · cases added
      exact Array.size_push _
    · cases added
  | _ => cases added

theorem number_closes (type : NumberType) (a : type.Bits) : ((number type).append a).Closes :=
  closes_changeItem fun _ _ added => Nat.le_of_eq (length_appendNumber? added)

theorem boolean_closes (a : Bool) : (boolean.append a).Closes := by
  refine closes_changeItem fun items items' added => ?_
  cases items with
  | boolean slots =>
    cases added
    exact Nat.le_of_eq (Array.size_push _)
  | _ => cases added

theorem text_closes (a : TextBuffer) : (text.append a).Closes := by
  refine closes_changeItem fun items items' added => ?_
  cases items with
  | text width slots =>
    cases added
    exact Nat.le_of_eq (Array.size_push _)
  | _ => cases added

theorem length_mapItems? {f : ItemBuilder → Option ItemBuilder} {b b' : ItemBuilder}
    (mapped : b.mapItems? f = some b') : b'.length = b.length := by
  cases b with
  | list width rows items =>
    obtain ⟨_, -, rfl⟩ := Option.map_eq_some_iff.1 mapped
    rfl
  | fixedSizeList size validity items =>
    obtain ⟨_, -, rfl⟩ := Option.map_eq_some_iff.1 mapped
    rfl
  | _ => cases mapped

theorem length_endRow? {valid : Bool} {b b' : ItemBuilder} (ended : b.endRow? valid = some b') :
    b'.length = b.length + 1 := by
  cases b with
  | list width rows items =>
    cases ended
    exact Array.size_push _
  | fixedSizeList size validity items =>
    cases ended
    exact Array.size_push _
  | _ => cases ended

theorem texts_closes (a : ListBuffer TextBuffer) : (texts.append a).Closes := by
  refine closes_changeItem fun items items' added => ?_
  obtain ⟨filled, folded, ended⟩ := Option.bind_eq_some_iff.1 added
  have same : filled.length = items.length := by
    clear added ended
    generalize a.items = values at folded
    induction values generalizing items with
    | nil =>
      cases folded
      rfl
    | cons value values ih =>
      rw [List.foldlM_cons] at folded
      obtain ⟨next, mapped, rest⟩ := Option.bind_eq_some_iff.1 folded
      rw [ih next rest, length_mapItems? mapped]
  exact Nat.le_of_eq (by rw [length_endRow? ended, same])

theorem scalars_closes (name : String) {n : Nat} (a : Vector Scalar n) :
    ((scalars name n).append a).Closes := by
  refine closes_changeItem fun items items' added => ?_
  obtain ⟨filled, mapped, ended⟩ := Option.bind_eq_some_iff.1 added
  exact Nat.le_of_eq (by rw [length_endRow? ended, length_mapItems? mapped])

theorem translationAndMat3x3_closes (a : TranslationAndMat3x3) :
    (translationAndMat3x3.append a).Closes :=
  (((closes_endRow _ _).after_field).after_field).after_field

theorem translationRotationScale3D_closes (a : TranslationRotationScale3D) :
    (translationRotationScale3D.append a).Closes :=
  ((((closes_endRow _ _).after_field).after_field).after_field).after_field

theorem fuzzRecord_closes (a : FuzzRecord) : (fuzzRecord.append a).Closes :=
  ((((closes_endRow _ _).after_field).after_field).after_field).after_field

theorem transform3D_lawful : transform3D.Lawful := by
  rintro (value | value)
  · have lawful : (translationAndMat3x3.append value).Lawful translationAndMat3x3.kind :=
      (translationAndMat3x3_closes value).lawful nofun
    exact lawful.toVariant _
  · have lawful : (translationRotationScale3D.append value).Lawful
        translationRotationScale3D.kind := (translationRotationScale3D_closes value).lawful nofun
    exact lawful.toVariant _

end Codec

/-- The codecs of this library write one slot at a time. -/
theorem ShippedType.lawful (t : ShippedType) : t.codec.Lawful := by
  intro a
  cases t with
  | number type => exact (Codec.number_closes type a).lawful nofun
  | boolean => exact (Codec.boolean_closes a).lawful nofun
  | text => exact (Codec.text_closes a).lawful nofun
  | texts => exact (Codec.texts_closes a).lawful nofun
  | vec3D => exact (Codec.scalars_closes _ a).lawful nofun
  | quaternion => exact (Codec.scalars_closes _ a).lawful nofun
  | mat3x3 => exact (Codec.scalars_closes _ a).lawful nofun
  | translationAndMat3x3 => exact (Codec.translationAndMat3x3_closes a).lawful nofun
  | translationRotationScale3D => exact (Codec.translationRotationScale3D_closes a).lawful nofun
  | transform3D => exact Codec.transform3D_lawful a
  | fuzzRecord => exact (Codec.fuzzRecord_closes a).lawful nofun
  | label => exact (Codec.text_closes a.value).lawful nofun
  | labelComponent => exact (Codec.text_closes a.value.value).lawful nofun
  | radius => exact (Codec.number_closes .float32 a.value).lawful nofun
  | scalarScattering => exact (Codec.boolean_closes a.value).lawful nofun
  | transform3DComponent => exact Codec.transform3D_lawful a.value
  | fuzzRequired => exact (Codec.fuzzRecord_closes a.value).lawful nofun
  | fuzzOptional =>
    obtain ⟨_ | record⟩ := a
    · exact (Write.closes_missing _).lawful nofun
    · exact (Codec.fuzzRecord_closes record).lawful nofun

end TypedColumns
