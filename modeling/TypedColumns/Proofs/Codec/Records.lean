import TypedColumns.Codec.Record
import TypedColumns.Proofs.Codec.Lists

/-!
# Codecs of records

A record codec writes every field to its child, one after the other, and closes the row. A missing
record is a missing value in every child. So each child has a row for every record, whether it is
there or not, and `record_keeps` reduces the laws of the record to those of its fields.
-/

namespace TypedColumns

open Column (FieldView)
open Builder (FinishesParts)

namespace Write

/-- A write to a child leaves the other children alone. -/
theorem apply_toField {index : Nat} {kind : Builder.Kind} {w : Write} {fields : List Field}
    {validity : Array Bool} {children : List Builder} {child child' : Builder}
    (found : children[index]? = some child) (same : child.kind = kind)
    (done : w.apply child = (.ok (), child')) :
    (toField index kind w).apply (.struct fields validity children) =
      (.ok (), .struct fields validity (children.set index child')) := by
  simp only [toField, of, apply, Builder.withField, found, if_pos same]
  rw [show w child = (.ok (), child') from done]
  rfl

theorem apply_endRow (name : String) (valid : Bool) (fields : List Field) (validity : Array Bool)
    (children : List Builder) :
    (endRow name valid).apply (.struct fields validity children) =
      (.ok (), .struct fields (validity.push valid) children) :=
  apply_change rfl

end Write

namespace Codec

section

variable {β : Type} [Footprint β] {c : Codec β} {build : List (Option β) → Builder}
variable {value : Option β → Value}

theorem Keeps.appendField (keeps : c.Keeps build value) {index : Nat} {fields : List Field}
    {validity : Array Bool} {children : List Builder} {rows : List (Option β)}
    (found : children[index]? = some (build rows)) (a : β) :
    (c.appendField index a).apply (.struct fields validity children) =
      (.ok (), .struct fields validity (children.set index (build (rows ++ [some a])))) :=
  Write.apply_toField found (keeps.kind rows) (keeps.append rows a)

theorem Keeps.appendFieldOption (keeps : c.Keeps build value) {index : Nat} {fields : List Field}
    {validity : Array Bool} {children : List Builder} {rows : List (Option β)}
    (found : children[index]? = some (build rows)) (row : Option β) :
    (c.appendFieldOption index row).apply (.struct fields validity children) =
      (.ok (), .struct fields validity (children.set index (build (rows ++ [row])))) :=
  Write.apply_toField found (keeps.kind rows) (keeps.appendOption rows row)

/-- What a child of a record finishes to: one value for each record. -/
theorem Keeps.finishesPart (keeps : c.Keeps build value) {ρ : Type} (get : Option ρ → Option β)
    (rows : List (Option ρ)) :
    (build (rows.map get)).length = rows.length ∧
      (build (rows.map get)).Finishes c.descriptor.dataType
        (rows.map fun row => value (get row)) := by
  constructor
  · rw [keeps.length, List.length_map]
  · have finishes := keeps.finishes (rows.map get)
    rw [List.map_map] at finishes
    exact finishes

end

/-- A codec that writes to every child once for each record, and once for each missing one. -/
theorem record_keeps {ρ : Type} [Footprint ρ] {c : Codec ρ} (parts : List (FieldView ρ))
    (children : List (Option ρ) → List Builder) (nonempty : parts ≠ [])
    (type : c.descriptor.dataType = .struct (parts.map FieldView.field))
    (newBuilder : c.newBuilder = .struct (parts.map FieldView.field) #[] (children []))
    (append : ∀ rows a validity,
      (c.append a).apply (.struct (parts.map FieldView.field) validity (children rows)) =
        (.ok (),
          .struct (parts.map FieldView.field) (validity.push true) (children (rows ++ [some a]))))
    (missing : ∀ rows, Builder.appendNullAll (children rows) = (.ok (), children (rows ++ [none])))
    (finishes : ∀ rows, FinishesParts rows parts (children rows))
    (appendNull : c.appendNull = .missing c.descriptor.name)
    (appendOption : c.appendOption = fun | some a => c.append a | none => c.appendNull)
    (appendAll : c.appendAll = fun as => as.forM c.append) :
    c.Keeps (fun rows =>
      .struct (parts.map FieldView.field) (rows.map Option.isSome).toArray (children rows))
      (FieldView.record parts) := by
  have value : ∀ (rows : List (Option ρ)) (a : ρ), (c.append a).apply
      (.struct (parts.map FieldView.field) (rows.map Option.isSome).toArray (children rows)) =
        (.ok (), .struct (parts.map FieldView.field) ((rows ++ [some a]).map Option.isSome).toArray
          (children (rows ++ [some a]))) := by
    intro rows a
    rw [append, List.push_toArray, List.map_append]
    rfl
  have null : ∀ rows : List (Option ρ), (Builder.struct (parts.map FieldView.field)
      (rows.map Option.isSome).toArray (children rows)).appendNull =
        (.ok (), .struct (parts.map FieldView.field) ((rows ++ [none]).map Option.isSome).toArray
          (children (rows ++ [none]))) := by
    intro rows
    rw [Builder.appendNull, missing]
    dsimp only
    rw [List.push_toArray, List.map_append]
    rfl
  refine keeps_of_rules newBuilder ?_ ?_ value null appendNull appendOption
    (apply_appendAll value appendAll) ?_
  · intro rows
    rw [kind, newBuilder]
    rfl
  · intro rows
    exact List.length_map ..
  · intro rows
    rw [type]
    exact (finishes rows).struct nonempty

/-! ## Records of mixed fields -/

/-- What a record shows in each field. -/
def fuzzRecordParts : List (FieldView FuzzRecord) :=
  [⟨⟨"single_float_optional", .number .float32, true⟩,
      fun row => .ofSlot (.number .float32) (row.bind FuzzRecord.singleFloatOptional),
      fun required => by cases required⟩,
   ⟨⟨"single_string_required", .text .narrow, false⟩,
      fun row => readText (row.map FuzzRecord.singleStringRequired), fun _ _ => rfl⟩,
   ⟨⟨"many_strings_optional", texts.descriptor.dataType, true⟩,
      fun row => readTexts (row.bind FuzzRecord.manyStringsOptional),
      fun required => by cases required⟩,
   ⟨⟨"flattened_scalar", .number .float32, false⟩,
      fun row => .ofSlot (.number .float32) (row.map FuzzRecord.flattenedScalar), fun _ _ => rfl⟩]

/-- A record reads as its four fields. -/
def readFuzzRecord : Option FuzzRecord → Value := FieldView.record fuzzRecordParts

theorem fuzzRecord_faithful : fuzzRecord.Faithful readFuzzRecord := by
  obtain ⟨float, float_keeps⟩ := number_faithful .float32
  obtain ⟨string, string_keeps⟩ := text_faithful
  obtain ⟨strings, strings_keeps⟩ := texts_faithful
  refine ⟨_, record_keeps fuzzRecordParts (fun rows =>
    [float (rows.map (·.bind FuzzRecord.singleFloatOptional)),
     string (rows.map (·.map FuzzRecord.singleStringRequired)),
     strings (rows.map (·.bind FuzzRecord.manyStringsOptional)),
     float (rows.map (·.map FuzzRecord.flattenedScalar))])
    (by simp [fuzzRecordParts]) rfl ?newBuilder ?append ?missing ?finishes rfl rfl rfl⟩
  case newBuilder =>
    simp only [List.map_nil, ← float_keeps.newBuilder, ← string_keeps.newBuilder,
      ← strings_keeps.newBuilder]
    rfl
  case append =>
    intro rows a validity
    refine (Write.apply_bind (float_keeps.appendFieldOption rfl a.singleFloatOptional)).trans ?_
    refine (Write.apply_bind (string_keeps.appendField rfl a.singleStringRequired)).trans ?_
    refine (Write.apply_bind (strings_keeps.appendFieldOption rfl a.manyStringsOptional)).trans ?_
    refine (Write.apply_bind (float_keeps.appendField rfl a.flattenedScalar)).trans ?_
    rw [Write.apply_endRow]
    simp only [List.map_append]
    rfl
  case missing =>
    intro rows
    simp only [Builder.appendNullAll, float_keeps.missing, string_keeps.missing,
      strings_keeps.missing, List.map_append]
    rfl
  case finishes =>
    intro rows
    exact ⟨float_keeps.finishesPart _ rows, string_keeps.finishesPart _ rows,
      strings_keeps.finishesPart _ rows, float_keeps.finishesPart _ rows, trivial⟩

end Codec

end TypedColumns
