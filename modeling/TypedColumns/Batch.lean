import TypedColumns.Error

/-!
# Batches

A batch claims to hold a number of values and gives a view of them that may be absent or may fall
short. `Batch.values` checks the claim: an empty batch has no values whatever its view, and a view
with more values than claimed is cut.
-/

namespace TypedColumns

universe u

structure Batch (α : Type u) where
  view : Option (List α)
  count : Nat

namespace Batch

variable {α : Type u}

/-- The batch of all the given values. -/
def ofList (values : List α) : Batch α := ⟨some values, values.length⟩

def empty : Batch α := ⟨none, 0⟩

def isEmpty (b : Batch α) : Bool := b.count == 0

/-- The first `count` values of the view. -/
def values (b : Batch α) : Except BatchFault (List α) :=
  if b.count = 0 then .ok []
  else match b.view with
    | none => .error (.absent b.count)
    | some values =>
      if b.count ≤ values.length then .ok (values.take b.count)
      else .error (.short values.length b.count)

@[simp] theorem values_ofList (values : List α) : (ofList values).values = .ok values := by
  unfold Batch.values ofList
  split
  · simp_all
  · simp

@[simp] theorem values_empty : (empty : Batch α).values = .ok [] := rfl

/-- Values that a batch gives are as many as it claims. -/
theorem length_values {b : Batch α} {values : List α} (h : b.values = .ok values) :
    values.length = b.count := by
  unfold Batch.values at h
  split at h
  · cases h
    simp_all
  · split at h
    · cases h
    · split at h <;> cases h
      simp only [List.length_take]
      omega

end Batch

end TypedColumns
