import TypedColumns.Proofs.Builder.Selecting
import TypedColumns.Proofs.Codec.Lawful

/-!
# Codecs that write variants

A value that is written as a variant is a call on a union builder. Codecs that keep their rows tell
how the children of the union read, and a transform is a call of the variant of its kind, so
transforms are sorted as the calls of any union are (`UnionCall.distributed_of_run`).
-/

namespace TypedColumns

universe u

/-! ## Codecs that keep their rows -/

section Keeps

variable {α : Type u} [Footprint α] {codec : Codec α} {build : List (Option α) → Builder}
variable {value : Option α → Value} {values : List Value} {b b' : Builder}

/-- The builder of rows that read as the values. -/
def BuildsAs (build : List (Option α) → Builder) (value : Option α → Value) (values : List Value)
    (b : Builder) : Prop :=
  ∃ rows, b = build rows ∧ values = rows.map value

theorem Codec.Keeps.buildsAs_value (keeps : codec.Keeps build value)
    (before : BuildsAs build value values b) {id : TypeId} {a : α}
    (adds : (codec.variantCall id a).Adds b b') :
    BuildsAs build value (values ++ [value (some a)]) b' := by
  obtain ⟨rows, rfl, rfl⟩ := before
  have same := (keeps.append rows a).symm.trans adds
  cases same
  exact ⟨_, rfl, by rw [List.map_append, List.map_singleton]⟩

theorem Codec.Keeps.rows_of_buildsAs (keeps : codec.Keeps build value)
    (held : BuildsAs build value values b) {c : Column} (finished : b.finish.1 = .ok c) :
    c.rows = values := by
  obtain ⟨rows, rfl, rfl⟩ := held
  obtain ⟨other, same, holds⟩ := keeps.finishes rows
  obtain rfl : other = c := Except.ok.inj (same.symm.trans finished)
  exact holds.rows

end Keeps

/-! ## Transforms -/

namespace Write

theorem length_toField {index : Nat} {kind : Builder.Kind} {w : Write} {b b' : Builder}
    (done : (toField index kind w).apply b = (.ok (), b')) : b'.length = b.length :=
  (of_toField_any done).2

theorem length_endRow {name : String} {valid : Bool} {b b' : Builder}
    (done : (endRow name valid).apply b = (.ok (), b')) : b'.length = b.length + 1 := by
  have changed := of_change done
  cases b with
  | item items => cases changed
  | union variants rows children => cases changed
  | struct fields validity children =>
    cases changed
    exact Array.size_push valid

end Write

namespace Codec

variable {b b' : Builder}

theorem length_append_translationAndMat3x3 {a : TranslationAndMat3x3}
    (done : (translationAndMat3x3.append a).apply b = (.ok (), b')) :
    b'.length = b.length + 1 := by
  obtain ⟨_, first, done⟩ := Write.apply_bind_ok done
  obtain ⟨_, second, done⟩ := Write.apply_bind_ok done
  obtain ⟨_, third, done⟩ := Write.apply_bind_ok done
  rw [Write.length_endRow done, Write.length_toField third, Write.length_toField second,
    Write.length_toField first]

theorem length_append_translationRotationScale3D {a : TranslationRotationScale3D}
    (done : (translationRotationScale3D.append a).apply b = (.ok (), b')) :
    b'.length = b.length + 1 := by
  obtain ⟨_, first, done⟩ := Write.apply_bind_ok done
  obtain ⟨_, second, done⟩ := Write.apply_bind_ok done
  obtain ⟨_, third, done⟩ := Write.apply_bind_ok done
  obtain ⟨_, fourth, done⟩ := Write.apply_bind_ok done
  rw [Write.length_endRow done, Write.length_toField fourth, Write.length_toField third,
    Write.length_toField second, Write.length_toField first]

end Codec

namespace Transform3D

open Codec (transform3D transform3DVariants)

/-- The call that writes a transform, or a missing one. -/
def call : Option Transform3D → UnionCall
  | none => .missing
  | some (.translationAndMat3x3 value) =>
    Codec.translationAndMat3x3.variantCall (translationAndMat3x3 value).variantId value
  | some (.translationRotationScale value) =>
    Codec.translationRotationScale3D.variantCall (translationRotationScale value).variantId value

def newChildren : List Builder :=
  [.item (.null 0), Codec.translationAndMat3x3.newBuilder,
    Codec.translationRotationScale3D.newBuilder]

theorem tag_call (t : Option Transform3D) : (call t).tag transform3DVariants = tag t := by
  rcases t with _ | ⟨matrix⟩ | ⟨rotation⟩
  · simp [call, UnionCall.tag, Builder.nullVariant?, transform3DVariants, tag]
  · rfl
  · rfl

variable {rows : Array (TypeId × Nat)} {children : List Builder} {b : Builder}

theorem step_of_append {t : Option Transform3D}
    (done : (transform3D.appendOption t).apply (.union transform3DVariants rows children) =
      (.ok (), b)) : ∃ rows' children', b = .union transform3DVariants rows' children' ∧
      UnionCall.Step transform3DVariants rows children (call t) rows' children' := by
  rcases t with _ | ⟨matrix⟩ | ⟨rotation⟩
  · exact UnionCall.Step.of_appendNull (Write.of_missing done)
  · exact UnionCall.Step.of_write Codec.length_append_translationAndMat3x3 done
  · exact UnionCall.Step.of_write Codec.length_append_translationRotationScale3D done

/-- Transforms that are written in a row, present or missing, are calls on a union builder. -/
theorem run_of_appends (ts : List (Option Transform3D)) : ∃ rows children,
    Write.apply (ts.forM transform3D.appendOption) transform3D.newBuilder =
      (.ok (), .union transform3DVariants rows children) ∧
    UnionCall.Run transform3DVariants newChildren (ts.map call) rows children := by
  obtain ⟨build, keeps⟩ := Codec.transform3D_faithful
  -- each transform is written behind those before it
  have further (earlier : List (Option Transform3D)) {rows : Array (TypeId × Nat)}
      {children : List Builder} (before : build earlier = .union transform3DVariants rows children)
      (run : UnionCall.Run transform3DVariants newChildren (earlier.map call) rows children) :
      ∃ rows' children', Write.apply (ts.forM transform3D.appendOption) (build earlier) =
          (.ok (), .union transform3DVariants rows' children') ∧
        UnionCall.Run transform3DVariants newChildren ((earlier ++ ts).map call) rows'
          children' := by
    induction ts generalizing earlier rows children with
    | nil =>
      rw [List.append_nil]
      exact ⟨rows, children, by rw [before]; rfl, run⟩
    | cons t ts ih =>
      have written := keeps.appendOption earlier t
      have step := written
      rw [before] at step
      obtain ⟨rows', children', after, step⟩ := step_of_append step
      have next : UnionCall.Run transform3DVariants newChildren ((earlier ++ [t]).map call) rows'
          children' := by
        rw [List.map_append]
        exact run.call step
      obtain ⟨rows'', children'', rest, all⟩ := ih (earlier ++ [t]) after next
      rw [List.append_assoc] at all
      exact ⟨rows'', children'', (Write.apply_bind written).trans rest, all⟩
  rw [keeps.newBuilder]
  exact further [] keeps.newBuilder.symm .start

end Transform3D

/-- However the ids of the variants are laid out and whichever of them the calls select, a union
builder sorts its calls by variant. Transforms are written by such calls, and each is a row of the
id of its kind. -/
theorem UnionCall.distributed_of_run {variants : List Variant} {children₀ : List Builder}
    (distinct : (variants.map (·.id)).Nodup) (count : children₀.length = variants.length)
    (empty : ∀ child ∈ children₀, child.length = 0) :
    (∀ calls rows children, Run variants children₀ calls rows children →
      Distributed variants children₀ calls rows children) ∧
    ∀ ts : List (Option Transform3D), ∃ rows children,
      Write.apply (ts.forM Codec.transform3D.appendOption) Codec.transform3D.newBuilder =
        (.ok (), .union Codec.transform3DVariants rows children) ∧
      Distributed Codec.transform3DVariants Transform3D.newChildren (ts.map Transform3D.call) rows
        children ∧
      rows.toList.map (·.1) = ts.map Transform3D.tag := by
  refine ⟨fun calls rows children run =>
    (run.sorted distinct count empty).distributed distinct, fun ts => ?_⟩
  obtain ⟨rows, children, written, run⟩ := Transform3D.run_of_appends ts
  have sorted := run.sorted (by decide) rfl (by decide)
  refine ⟨rows, children, written, sorted.distributed (by decide), ?_⟩
  rw [sorted.rows_eq, Builder.unionRows_ids, List.map_map]
  exact List.map_congr_left fun t _ => Transform3D.tag_call t

/-! ## Ids that are not positions -/

namespace UnionCall

theorem length_append_number {type : NumberType} {a : type.Bits} {b b' : Builder}
    (done : ((Codec.number type).append a).apply b = (.ok (), b')) : b'.length = b.length + 1 := by
  have changed := Write.of_change done
  cases b with
  | struct fields validity children => cases changed
  | union variants rows children => cases changed
  | item items =>
    obtain ⟨items', added, rfl⟩ := Option.map_eq_some_iff.1 changed
    exact Codec.length_appendNumber? added

theorem Step.number {variants : List Variant} {rows rows' : Array (TypeId × Nat)}
    {children children' : List Builder} {type : NumberType} {id : TypeId} {a : type.Bits}
    (done : ((Codec.number type).appendVariant id a).apply (.union variants rows children) =
      (.ok (), .union variants rows' children')) :
    Step variants rows children ((Codec.number type).variantCall id a) rows' children' := by
  obtain ⟨rows'', children'', same, step⟩ := Step.of_write length_append_number done
  cases same
  exact step

def chosenChildren : List Builder :=
  [(Codec.number .float64).newBuilder, (Codec.number .int32).newBuilder, .item (.null 0)]

/-- How a call reads: the first row of a new child that has taken it. -/
def chosenValue : UnionCall → Value
  | .missing => .missing
  | .value id _ w =>
    let child := chosenChildren[if id = 5 then 0 else 1]?.getD default
    ((w.apply child).2.finish.1.toOption.bind (·.rows.head?)).getD .missing

def chosenCalls : List UnionCall :=
  [(Codec.number .int32).variantCall 1 7#32, (Codec.number .float64).variantCall 5 0#64, .missing,
    (Codec.number .int32).variantCall 1 8#32]

open Codec (chosenVariants)

theorem nullVariant?_chosen : Builder.nullVariant? chosenVariants = some 3 := by
  simp [Builder.nullVariant?, chosenVariants]

theorem run_chosen : Run chosenVariants chosenChildren chosenCalls
    #[(1, 0), (5, 0), (3, 0), (1, 1)] [.item (.number .float64 #[some 0#64]),
      .item (.number .int32 #[some 7#32, some 8#32]), .item (.null 1)] := by
  have missing (rows : Array (TypeId × Nat)) (floats ints : Builder) (n : Nat) :
      Step chosenVariants rows [floats, ints, .item (.null n)] .missing (rows.push (3, n))
        [floats, ints, .item (.null (n + 1))] := by
    refine .missing ?_
    rw [Builder.appendNull, nullVariant?_chosen]
    rfl
  have none : Run chosenVariants chosenChildren [] #[] chosenChildren := .start
  have first := none.call (@Step.number _ _ _ _ _ .int32 1 7#32 rfl)
  have second := first.call (@Step.number _ _ _ _ _ .float64 5 0#64 rfl)
  exact (second.call (missing _ _ _ 0)).call (.number rfl)

/-- What the children hold: numbers of one type, numbers of another, and nothing. -/
def ChosenHolds (floats : List (Option (BitVec 64)) → Builder)
    (ints : List (Option (BitVec 32)) → Builder) : Nat → List Value → Builder → Prop
  | 0 => BuildsAs floats (.ofSlot (.number .float64))
  | 1 => BuildsAs ints (.ofSlot (.number .int32))
  | _ => fun values b => ∃ n, b = .item (.null n) ∧ values = List.replicate n .missing

/-- The ids 5, 1 and 3 select the first, the second and the third child. -/
theorem distributed_of_chosen : ∃ rows children c,
    Run chosenVariants chosenChildren chosenCalls rows children ∧
    (Builder.union chosenVariants rows children).finish.1 = .ok c ∧
    c.rows = [.variant 1 "int" (.number .int32 7), .variant 5 "float" (.number .float64 0),
      .variant 3 "none" .missing, .variant 1 "int" (.number .int32 8)] := by
  obtain ⟨floats, floats_keep⟩ := Codec.number_faithful .float64
  obtain ⟨ints, ints_keep⟩ := Codec.number_faithful .int32
  have null : tag chosenVariants .missing = 3 := by
    rw [tag, nullVariant?_chosen, Option.getD_some]
  have distributed := (distributed_of_run (by decide) rfl (by decide)).1 _ _ _ run_chosen
  have reading : Reading chosenVariants chosenChildren chosenCalls chosenValue
      (ChosenHolds floats ints) := by
    constructor
    case new =>
      rintro (_ | _ | _ | i) child₀ found <;> cases found
      · exact ⟨[], floats_keep.newBuilder, rfl⟩
      · exact ⟨[], ints_keep.newBuilder, rfl⟩
      · exact ⟨0, rfl, rfl⟩
    case add =>
      intro c mem i position values b b' held adds
      rcases List.mem_cons.1 mem with rfl | mem
      · cases position
        exact ints_keep.buildsAs_value held adds
      rcases List.mem_cons.1 mem with rfl | mem
      · cases position
        exact floats_keep.buildsAs_value held adds
      rcases List.mem_cons.1 mem with rfl | mem
      · rw [null] at position
        cases position
        obtain ⟨n, rfl, rfl⟩ := held
        cases adds
        exact ⟨n + 1, rfl, List.replicate_succ'.symm⟩
      · obtain rfl := List.mem_singleton.1 mem
        cases position
        exact ints_keep.buildsAs_value held adds
    case read =>
      rintro (_ | _ | i) values b column held finished
      · exact floats_keep.rows_of_buildsAs held finished
      · exact ints_keep.rows_of_buildsAs held finished
      · obtain ⟨n, rfl, rfl⟩ := held
        cases finished
        rfl
  refine ⟨_, _, _, run_chosen, rfl, ?_⟩
  refine (distributed.reads chosenValue _ reading _ _ _ rfl).2.trans ?_
  simp only [chosenCalls, List.map_cons, List.map_nil, null]
  rfl

end UnionCall

end TypedColumns
