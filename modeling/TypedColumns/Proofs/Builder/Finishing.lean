import TypedColumns.Builder.Finish
import TypedColumns.Proofs.Column.Nested

/-!
# Builders that finish

`Builder.Finishes` says of a builder that finishing it gives a sound column with certain rows. A
struct builder finishes when each child does, with a row for every row of the struct, and a union
builder when each child does, with a row for every row that selected it.
-/

namespace TypedColumns.Builder

open Column (Holds HoldsParts HoldsVariants FieldView)

/-- Finishing the builder gives a sound column of the type with these rows. -/
def Finishes (b : Builder) (type : DataType) (values : List Value) : Prop :=
  ∃ c, b.finish.1 = .ok c ∧ c.Holds type values

/-- An item builder with nothing against it gives its column. -/
theorem finishes_item {items : ItemBuilder} {c : Column} {type : DataType} {values : List Value}
    (count : items.lengthFault? = none) (column : items.column? = some c)
    (holds : c.Holds type values) : (Builder.item items).Finishes type values := by
  refine ⟨c, ?_, holds⟩
  rw [finish, ItemBuilder.finish, count, column]

theorem finishAll_cons {b : Builder} {bs : List Builder} {c : Column} {cs : List Column}
    (first : b.finish.1 = .ok c) (others : (finishAll bs).1 = .ok cs) :
    (finishAll (b :: bs)).1 = .ok (c :: cs) := by
  rcases finished : b.finish with ⟨result, b'⟩
  obtain rfl : result = .ok c := by rw [← first, finished]
  rw [finishAll, finished]
  change (finishAll bs).1.map _ = _
  rw [others]
  rfl

/-! ## Structs -/

section Struct

variable {ρ : Type} {rows : List (Option ρ)} {parts : List (FieldView ρ)} {children : List Builder}

/-- There is one child for each part, with what all rows show in it. -/
def FinishesParts (rows : List (Option ρ)) : List (FieldView ρ) → List Builder → Prop
  | [], [] => True
  | p :: ps, b :: bs =>
    (b.length = rows.length ∧ b.Finishes p.field.type (rows.map p.read)) ∧ FinishesParts rows ps bs
  | _, _ => False

theorem FinishesParts.length (all : FinishesParts rows parts children) :
    children.length = parts.length := by
  induction parts generalizing children with
  | nil =>
    cases children with
    | nil => rfl
    | cons b bs => cases all
  | cons p ps ih =>
    cases children with
    | nil => cases all
    | cons b bs => rw [List.length_cons, List.length_cons, ih all.2]

theorem FinishesParts.counts (all : FinishesParts rows parts children) :
    structFault? (parts.map FieldView.field) (rows.map Option.isSome).toArray children = none := by
  have number : ¬ children.length ≠ (parts.map FieldView.field).length := by
    rw [all.length, List.length_map]
    exact fun other => other rfl
  rw [structFault?, if_neg number]
  clear number
  induction parts generalizing children with
  | nil => rfl
  | cons p ps ih =>
    cases children with
    | nil => cases all
    | cons b bs =>
      obtain ⟨⟨length, -⟩, others⟩ := all
      have same : ¬ b.length ≠ (rows.map Option.isSome).toArray.size := by
        rw [length, List.size_toArray, List.length_map]
        exact fun other => other rfl
      rw [List.map_cons, fieldLengthFault?, if_neg same]
      exact ih others

theorem FinishesParts.columns (all : FinishesParts rows parts children) :
    ∃ columns, (finishAll children).1 = .ok columns ∧ HoldsParts rows parts columns := by
  induction parts generalizing children with
  | nil =>
    cases children with
    | nil => exact ⟨[], by rw [finishAll], trivial⟩
    | cons b bs => cases all
  | cons p ps ih =>
    cases children with
    | nil => cases all
    | cons b bs =>
      obtain ⟨⟨-, c, finished, holds⟩, others⟩ := all
      obtain ⟨cs, rest, hold⟩ := ih others
      exact ⟨c :: cs, finishAll_cons finished rest, holds, hold⟩

/-- A struct builder gives a column that reads record by record. -/
theorem FinishesParts.struct (all : FinishesParts rows parts children) (some : parts ≠ []) :
    (Builder.struct (parts.map FieldView.field) (rows.map Option.isSome).toArray children).Finishes
      (.struct (parts.map FieldView.field)) (rows.map (FieldView.record parts)) := by
  obtain ⟨columns, finished, held⟩ := all.columns
  obtain ⟨made, holds⟩ := held.struct some
  refine ⟨_, ?_, holds⟩
  rcases done : finishAll children with ⟨result, children'⟩
  obtain rfl : result = .ok columns := by rw [← finished, done]
  rw [finish, all.counts, done]
  exact made

end Struct

/-! ## Unions -/

section Union

variable {ρ : Type} {tag : ρ → TypeId} {value : ρ → Value} {rows : List ρ}
variable {variants : List Variant} {children : List Builder}

/-- There is one child for each variant, with the values of the rows that selected it. -/
def FinishesVariants (tag : ρ → TypeId) (value : ρ → Value) (rows : List ρ) :
    List Variant → List Builder → Prop
  | [], [] => True
  | v :: vs, b :: bs =>
    (b.length = (rows.filter fun row => tag row == v.id).length ∧
      b.Finishes v.field.type ((rows.filter fun row => tag row == v.id).map value)) ∧
      FinishesVariants tag value rows vs bs
  | _, _ => False

theorem FinishesVariants.length (all : FinishesVariants tag value rows variants children) :
    children.length = variants.length := by
  induction variants generalizing children with
  | nil =>
    cases children with
    | nil => rfl
    | cons b bs => cases all
  | cons v vs ih =>
    cases children with
    | nil => cases all
    | cons b bs => rw [List.length_cons, List.length_cons, ih all.2]

/-- What a union builder records of its rows. -/
def unionRows (ids : List TypeId) : Array (TypeId × Nat) :=
  (ids.zip (Column.positions ids)).toArray

theorem unionRows_append (ids : List TypeId) (i : TypeId) :
    unionRows (ids ++ [i]) = (unionRows ids).push (i, ids.count i) := by
  have same : ids.length = (Column.positions ids).length := by simp [Column.positions]
  simp only [unionRows, Column.positions_append, List.zip_append same, List.push_toArray,
    List.zip_cons_cons, List.zip_nil_right]

theorem unionRows_ids (ids : List TypeId) : (unionRows ids).toList.map (·.1) = ids := by
  rw [unionRows, List.map_fst_zip]
  simp [Column.positions]

theorem unionRows_positions (ids : List TypeId) :
    (unionRows ids).toList.map (·.2) = Column.positions ids := by
  rw [unionRows, List.map_snd_zip]
  simp [Column.positions]

theorem selections_unionRows (ids : List TypeId) (i : TypeId) :
    selections (unionRows ids) i = ids.count i := by
  have same := List.countP_map (p := (· == i)) (f := Prod.fst) (l := (unionRows ids).toList)
  rw [unionRows_ids] at same
  exact same.symm

theorem FinishesVariants.counts (all : FinishesVariants tag value rows variants children) :
    unionFault? variants (unionRows (rows.map tag)) children = none := by
  have number : ¬ children.length ≠ variants.length := fun other => other all.length
  rw [unionFault?, if_neg number]
  clear number
  induction variants generalizing children with
  | nil => rfl
  | cons v vs ih =>
    cases children with
    | nil => cases all
    | cons b bs =>
      obtain ⟨⟨length, -⟩, others⟩ := all
      have same : ¬ selections (unionRows (rows.map tag)) v.id ≠ b.length := by
        rw [selections_unionRows, length, List.count_eq_countP, List.countP_map,
          List.countP_eq_length_filter]
        exact fun other => other rfl
      rw [variantLengthFault?, if_neg same]
      exact ih others

theorem FinishesVariants.columns (all : FinishesVariants tag value rows variants children) :
    ∃ columns, (finishAll children).1 = .ok columns ∧
      HoldsVariants tag value rows variants columns := by
  induction variants generalizing children with
  | nil =>
    cases children with
    | nil => exact ⟨[], by rw [finishAll], trivial⟩
    | cons b bs => cases all
  | cons v vs ih =>
    cases children with
    | nil => cases all
    | cons b bs =>
      obtain ⟨⟨-, c, finished, holds⟩, others⟩ := all
      obtain ⟨cs, rest, hold⟩ := ih others
      exact ⟨c :: cs, finishAll_cons finished rest, holds, hold⟩

/-- A union builder gives a column that reads as the values selected, with their variants. -/
theorem FinishesVariants.union (all : FinishesVariants tag value rows variants children)
    (declared : ∀ row ∈ rows, ∃ v ∈ variants, v.id = tag row)
    (counts : Column.countsMissing variants = true) :
    (Builder.union variants (unionRows (rows.map tag)) children).Finishes (.union variants)
      (rows.map fun row => Column.variantRow variants (tag row) (some (value row))) := by
  obtain ⟨columns, finished, held⟩ := all.columns
  obtain ⟨made, holds⟩ := held.union declared counts
  refine ⟨_, ?_, holds⟩
  rcases done : finishAll children with ⟨result, children'⟩
  obtain rfl : result = .ok columns := by rw [← finished, done]
  rw [finish, all.counts, done, unionRows_ids, unionRows_positions]
  exact made

end Union

end TypedColumns.Builder
