import TypedColumns.Builder.Finish
import TypedColumns.Handle
import TypedColumns.Proofs.Column.Sound

/-!
# Finished columns

A builder that finishes gives a sound column, unless there is a union in it whose child has another
type than its variant declares, or a list whose offsets are out of order. A handle asks for both, so
every column that a handle gives is sound (`Handle.sound_of_finalize`), whatever was written to its
builder and however.
-/

namespace TypedColumns

open Column (Sound SoundAll no_fault_iff)

/-! ## Item builders -/

namespace ItemBuilder

/-- A column of lists whose offsets are in order is sound, if its items are. -/
theorem sound_list {width : OffsetWidth} {rows : List (Bool × Nat)} {items : Column}
    (sound : items.Sound)
    (clean : Column.offsetsFault? items.length 0 0 (0 :: rows.map (·.2)) = none) :
    (Column.list width (.item items.dataType) (rows.map (·.1)) (0 :: rows.map (·.2))
      items).Sound := by
  rw [Sound]
  refine ⟨⟨rfl, rows.map (·.2), rfl, ?_, ?_⟩, sound⟩
  · rw [List.length_map, List.length_map]
  · exact (Column.climbs_of_offsetsFault? (Nat.zero_le _) clean).2

/-- As many items as marks take, also where the marks of lists without items are left out. -/
theorem length_items {size items : Nat} {validity : List Bool}
    (even : items = validity.length * size) :
    items = (listMarks size validity).length * size := by
  by_cases zero : size = 0
  · rw [even, zero, Nat.mul_zero, Nat.mul_zero]
  · rw [length_listMarks _ (Nat.pos_of_ne_zero zero), even]

theorem sound_of_column? {b : ItemBuilder} {c : Column} (column : b.column? = some c)
    (offsets : c.offsetFault? = none) : c.Sound := by
  induction b generalizing c with
  | list width rows items ih =>
    obtain ⟨child, inner, rfl⟩ := Option.map_eq_some_iff.1 column
    rw [Column.offsetFault?] at offsets
    obtain ⟨own, inside⟩ := no_fault_iff.1 offsets
    exact sound_list (ih inner (Option.map_eq_none_iff.1 inside)) own
  | fixedSizeList size validity items ih =>
    obtain ⟨child, inner, made⟩ := Option.bind_eq_some_iff.1 column
    split at made
    · next even =>
      cases made
      rw [Column.offsetFault?] at offsets
      rw [Sound]
      refine ⟨⟨rfl, Int.natCast_nonneg size, ?_⟩, ih inner (Option.map_eq_none_iff.1 offsets)⟩
      exact length_items (by rw [even, Array.length_toList])
    · cases made
  | _ => cases column; trivial

end ItemBuilder

/-! ## Builders with children -/

namespace Builder

/-- Every column comes from the child at its position. -/
theorem finishAll_ok {children : List Builder} {columns : List Column}
    (finished : (finishAll children).1 = .ok columns) : columns.length = children.length ∧
      ∀ (i : Nat) (c : Column), columns[i]? = some c →
        ∃ child, children[i]? = some child ∧ child.finish.1 = .ok c := by
  induction children generalizing columns with
  | nil =>
    rw [finishAll] at finished
    cases finished
    exact ⟨rfl, fun i c column => by cases column⟩
  | cons b bs ih =>
    rw [finishAll] at finished
    rcases first : b.finish with ⟨_ | c, b'⟩
    · rw [first] at finished
      cases finished
    · rcases others : finishAll bs with ⟨_ | cs, bs'⟩
      · rw [first, others] at finished
        cases finished
      · rw [first, others] at finished
        cases finished
        obtain ⟨count, each⟩ := ih (by rw [others])
        refine ⟨congrArg Nat.succ count, ?_⟩
        intro i d column
        cases i with
        | zero =>
          cases column
          exact ⟨b, rfl, by rw [first]⟩
        | succ i => exact each i d column

/-- A struct of sound children is sound, as far as it could be put together. -/
theorem sound_struct {fields : List Field} {marks : Option (List Bool)} {children : List Column}
    {c : Column} (number : children.length = fields.length)
    (made : Column.structOf fields marks children = .ok c) (sound : SoundAll children) :
    c.Sound := by
  cases children with
  | nil => cases made
  | cons first rest =>
    rw [Column.structOf] at made
    split at made
    · cases made
    · split at made
      · cases made
      · next clean =>
        cases made
        rw [Sound]
        exact ⟨⟨List.cons_ne_nil first rest, number, clean⟩, sound⟩

/-- A union of sound children is sound, if they are of the types that the variants declare. -/
theorem sound_union {variants : List Variant} {rows : List (TypeId × Nat)}
    {children : List Column} {c : Column} (number : children.length = variants.length)
    (made : Column.unionOf variants (rows.map (·.1)) (rows.map (·.2)) children = .ok c)
    (types : Column.variantFault? (.union variants) variants children = none)
    (sound : SoundAll children) : c.Sound := by
  obtain rfl := Column.unionOf_eq made
  rw [Sound]
  refine ⟨⟨(Column.types_of_variantFault? number types).1, ?_, made⟩, sound⟩
  rw [List.length_map, List.length_map]

theorem length_of_structFault? {fields : List Field} {validity : Array Bool}
    {children : List Builder} (counts : structFault? fields validity children = none) :
    children.length = fields.length := by
  rw [structFault?] at counts
  split at counts
  · cases counts
  · next same => exact Decidable.not_not.1 same

theorem length_of_unionFault? {variants : List Variant} {rows : Array (TypeId × Nat)}
    {children : List Builder} (counts : unionFault? variants rows children = none) :
    children.length = variants.length := by
  rw [unionFault?] at counts
  split at counts
  · cases counts
  · next same => exact Decidable.not_not.1 same

mutual

/-- A builder that finishes gives a sound column, unless the checks that come after find a fault. -/
theorem sound_of_finish : {b : Builder} → {c : Column} → b.finish.1 = .ok c →
    c.typeFault? = none → c.offsetFault? = none → c.Sound
  | .item items, c, finished, _, offsets => by
    have taken : items.finish.1 = .ok c := finished
    rw [ItemBuilder.finish] at taken
    split at taken
    · cases taken
    · cases taken
    · next column =>
      cases taken
      exact ItemBuilder.sound_of_column? column offsets
  | .struct fields validity children, c, finished, types, offsets => by
    rw [finish] at finished
    split at finished
    · cases finished
    · next counts =>
      split at finished
      · cases finished
      · next columns rest inner =>
        have number : columns.length = fields.length := by
          rw [(finishAll_ok (by rw [inner])).1, length_of_structFault? counts]
        obtain ⟨marks, rfl⟩ : ∃ marks, c = .struct fields marks columns :=
          Column.structOf_eq finished
        rw [Column.typeFault?] at types
        rw [Column.offsetFault?] at offsets
        exact sound_struct number finished (sound_of_finishAll inner types offsets)
  | .union variants rows children, c, finished, types, offsets => by
    rw [finish] at finished
    split at finished
    · cases finished
    · next counts =>
      split at finished
      · cases finished
      · next columns rest inner =>
        have number : columns.length = variants.length := by
          rw [(finishAll_ok (by rw [inner])).1, length_of_unionFault? counts]
        obtain rfl := Column.unionOf_eq finished
        rw [Column.typeFault?] at types
        rw [Column.offsetFault?] at offsets
        have inside := (Column.types_of_variantFault? number types).2
        exact sound_union number finished types (sound_of_finishAll inner inside offsets)

theorem sound_of_finishAll : {bs bs' : List Builder} → {cs : List Column} →
    {parent : DataType} → {index : Nat} → finishAll bs = (.ok cs, bs') →
    Column.typeFaultAmong? cs = none → Column.offsetFaultAmong? parent index cs = none →
    SoundAll cs
  | [], _, cs, _, _, finished, _, _ => by
    rw [finishAll] at finished
    cases finished
    trivial
  | b :: bs, _, cs, _, _, finished, types, offsets => by
    rw [finishAll] at finished
    split at finished
    · cases finished
    · next c b' first =>
      rcases others : finishAll bs with ⟨result, rest⟩
      rw [others] at finished
      cases result with
      | error fault => cases finished
      | ok columns =>
        cases finished
        rw [Column.typeFaultAmong?] at types
        rw [Column.offsetFaultAmong?] at offsets
        obtain ⟨type, types⟩ := no_fault_iff.1 types
        obtain ⟨offset, offsets⟩ := no_fault_iff.1 offsets
        have own : b.finish.1 = .ok c := by rw [first]
        refine ⟨sound_of_finish own type (Option.map_eq_none_iff.1 offset), ?_⟩
        exact sound_of_finishAll others types offsets

end

end Builder

/-- Every column that a handle gives is sound. -/
theorem Handle.sound_of_finalize {h h' : Handle} {a : HeldColumn} {l l' : Ledger}
    (finalized : h.finalize l = (.ok a, h', l')) : a.column.Sound := by
  rw [finalize] at finalized
  split at finalized
  · cases finalized
  · cases finalized
  · next held _ =>
    rcases finished : h.builder.finish with ⟨result, builder⟩
    rw [finished] at finalized
    cases result with
    | error fault => cases finalized
    | ok c =>
      simp only [checkedColumn] at finalized
      split at finalized
      · cases finalized
      · next column checked =>
        split at checked
        · cases checked
        · split at checked
          · cases checked
          · next clean =>
            cases checked
            cases finalized
            obtain ⟨types, offsets⟩ := no_fault_iff.1 clean
            exact Builder.sound_of_finish (by rw [finished]) types offsets

end TypedColumns
