import TypedColumns.Builder.Basic
import TypedColumns.Column.Check

/-!
# Finishing a builder

Finishing checks that a builder's children have the rows that its own records speak of, finishes
the children, and puts the column together.

The order in which this happens shows after a failure. Counts are checked before anything is reset,
so a builder with a wrong count stays as it was. Children are finished in order and the first fault
ends the round: children before it are without rows, children after it keep theirs, and the
builder's own rows stay. Once all children are finished, the builder's own rows are gone as well,
even if the column cannot be put together.
-/

namespace TypedColumns.Builder

/-- The first field whose child has another number of rows than the struct. -/
def fieldLengthFault? (rows : Nat) : List Field → List Builder → Option BuildFault
  | f :: fs, b :: bs =>
    if b.length ≠ rows then some (.fieldLength f.name b.length rows)
    else fieldLengthFault? rows fs bs
  | _, _ => none

/-- What the counts of a struct builder say against finishing it. -/
def structFault? (fields : List Field) (validity : Array Bool) (children : List Builder) :
    Option BuildFault :=
  if children.length ≠ fields.length then
    some (.structChildren fields.length children.length)
  else fieldLengthFault? validity.size fields children

/-- How often a variant was selected. -/
def selections (rows : Array (TypeId × Nat)) (id : TypeId) : Nat :=
  rows.toList.countP (·.1 == id)

/-- The first variant whose child has another number of rows than there are selections of it. -/
def variantLengthFault? (rows : Array (TypeId × Nat)) :
    List Variant → List Builder → Option BuildFault
  | v :: vs, b :: bs =>
    if selections rows v.id ≠ b.length then
      some (.variantLength v.field.name (selections rows v.id) b.length)
    else variantLengthFault? rows vs bs
  | _, _ => none

/-- What the counts of a union builder say against finishing it. -/
def unionFault? (variants : List Variant) (rows : Array (TypeId × Nat)) (children : List Builder) :
    Option BuildFault :=
  if children.length ≠ variants.length then
    some (.unionChildren variants.length children.length)
  else variantLengthFault? rows variants children

mutual

/-- Takes the column out of a builder, or tells why there is none. -/
def finish : Builder → Except BuildFault Column × Builder
  | .item items =>
    let (result, items) := items.finish
    (result, .item items)
  | .struct fields validity children =>
    match structFault? fields validity children with
    | some fault => (.error fault, .struct fields validity children)
    | none =>
      match finishAll children with
      | (.error fault, children) => (.error fault, .struct fields validity children)
      | (.ok columns, children) =>
        (Column.structOf fields (Column.marks? validity.toList) columns,
          .struct fields #[] children)
  | .union variants rows children =>
    match unionFault? variants rows children with
    | some fault => (.error fault, .union variants rows children)
    | none =>
      match finishAll children with
      | (.error fault, children) => (.error fault, .union variants rows children)
      | (.ok columns, children) =>
        (Column.unionOf variants (rows.toList.map (·.1)) (rows.toList.map (·.2)) columns,
          .union variants #[] children)

/-- Finishes each builder in order, up to the first fault. -/
def finishAll : List Builder → Except BuildFault (List Column) × List Builder
  | [] => (.ok [], [])
  | b :: bs =>
    match b.finish with
    | (.error fault, b) => (.error fault, b :: bs)
    | (.ok c, b) =>
      let (result, bs) := finishAll bs
      (result.map (c :: ·), b :: bs)

end

@[simp] theorem kind_finish (b : Builder) : b.finish.2.kind = b.kind := by
  cases b with
  | item items =>
    simp only [finish, kind, ItemBuilder.finish]
    split <;> simp
  | struct fields validity children =>
    rw [finish]
    split
    · rfl
    · split <;> rfl
  | union variants rows children =>
    rw [finish]
    split
    · rfl
    · split <;> rfl

/-- A builder whose column was taken has no rows, unless it is one of nothing but missing values. -/
theorem length_finish {b b' : Builder} {c : Column} (h : b.finish = (.ok c, b'))
    (notNull : b.kind ≠ .item .null) : b'.length = 0 := by
  cases b with
  | item items =>
    simp only [finish, ItemBuilder.finish] at h
    split at h <;> cases h
    cases items <;> simp_all [length, ItemBuilder.reset, ItemBuilder.length, kind,
      ItemBuilder.kind]
  | struct fields validity children =>
    rw [finish] at h
    split at h
    · cases h
    · split at h
      · cases h
      · obtain ⟨_, rfl⟩ := Prod.mk.inj h
        rfl
  | union variants rows children =>
    rw [finish] at h
    split at h
    · cases h
    · split at h
      · cases h
      · obtain ⟨_, rfl⟩ := Prod.mk.inj h
        rfl

end TypedColumns.Builder
