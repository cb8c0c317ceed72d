import TypedColumns.Proofs.Column.Reading

/-!
# Reading structs and unions

The children of a struct hold one value for each row, also for the missing ones. The children of a
union hold the values of the rows that selected them, in order, so a row's position in its child is
the number of earlier rows of the same variant.
-/

namespace TypedColumns

/-- The relation holds of what stands at each position, and the lists are of one length. -/
def Alongside {α β : Type} (R : α → β → Prop) (as : List α) (bs : List β) : Prop :=
  bs.length = as.length ∧
    ∀ (i : Nat) (a : α) (b : β), as[i]? = some a → bs[i]? = some b → R a b

section

variable {α β : Type} {R : α → β → Prop} {as : List α} {bs : List β} {a : α} {b : β}

theorem Alongside.cons (related : R a b) (all : Alongside R as bs) :
    Alongside R (a :: as) (b :: bs) := by
  refine ⟨congrArg Nat.succ all.1, fun i c d here there => ?_⟩
  cases i with
  | zero =>
    cases here
    cases there
    exact related
  | succ i => exact all.2 i c d here there

theorem Alongside.of_getElem? (all : Alongside R as bs) {i : Nat} (here : bs[i]? = some b) :
    ∃ a, as[i]? = some a ∧ R a b := by
  have inside : i < as.length := all.1 ▸ (List.getElem?_eq_some_iff.1 here).1
  have there := List.getElem?_eq_getElem inside
  exact ⟨_, there, all.2 i _ b there here⟩

theorem Alongside.of_mem (all : Alongside R as bs) (mem : b ∈ bs) : ∃ a ∈ as, R a b := by
  obtain ⟨i, inside, rfl⟩ := List.getElem_of_mem mem
  obtain ⟨a, there, related⟩ := all.of_getElem? (List.getElem?_eq_getElem inside)
  exact ⟨a, List.mem_of_getElem? there, related⟩

end

namespace Column

theorem rowsAll_eq_map (columns : List Column) : rowsAll columns = columns.map rows := by
  induction columns with
  | nil => rfl
  | cons c cs ih => rw [rowsAll, ih, List.map_cons]

theorem missingAll_eq_map (columns : List Column) : missingAll columns = columns.map missing := by
  induction columns with
  | nil => rfl
  | cons c cs ih => rw [missingAll, ih, List.map_cons]

/-! ## Structs -/

/-- One field of a record and what a row shows in it. In a required field every present record has a
value. -/
structure FieldView (ρ : Type) where
  field : Field
  read : Option ρ → Value
  required : field.nullable = false → ∀ record, (read (some record)).isMissing = false

/-- How a record reads, field by field. -/
def FieldView.record {ρ : Type} (parts : List (FieldView ρ)) : Option ρ → Value
  | none => .missing
  | some record => .struct (parts.map fun p => (p.field.name, p.read (some record)))

section Struct

variable {ρ : Type} {rows : List (Option ρ)} {parts : List (FieldView ρ)} {columns : List Column}

/-- There is one column for each part, with what all rows show in it. -/
def HoldsParts (rows : List (Option ρ)) : List (FieldView ρ) → List Column → Prop
  | [], [] => True
  | p :: ps, c :: cs => c.Holds p.field.type (rows.map p.read) ∧ HoldsParts rows ps cs
  | _, _ => False

theorem HoldsParts.rowsAll (held : HoldsParts rows parts columns) :
    rowsAll columns = parts.map fun p => rows.map p.read := by
  induction parts generalizing columns with
  | nil =>
    cases columns with
    | nil => rfl
    | cons c cs => cases held
  | cons p ps ih =>
    cases columns with
    | nil => cases held
    | cons c cs =>
      obtain ⟨first, others⟩ := held
      rw [Column.rowsAll, ih others, first.rows, List.map_cons]

theorem HoldsParts.types (held : HoldsParts rows parts columns) :
    typeFaultAmong? columns = none := by
  induction parts generalizing columns with
  | nil =>
    cases columns with
    | nil => rw [typeFaultAmong?]
    | cons c cs => cases held
  | cons p ps ih =>
    cases columns with
    | nil => cases held
    | cons c cs =>
      obtain ⟨first, others⟩ := held
      rw [typeFaultAmong?, first.types, ih others]
      rfl

theorem HoldsParts.offsets (held : HoldsParts rows parts columns) (parent : DataType)
    (index : Nat) : offsetFaultAmong? parent index columns = none := by
  induction parts generalizing columns index with
  | nil =>
    cases columns with
    | nil => rw [offsetFaultAmong?]
    | cons c cs => cases held
  | cons p ps ih =>
    cases columns with
    | nil => cases held
    | cons c cs =>
      obtain ⟨first, others⟩ := held
      rw [offsetFaultAmong?, first.offsets, ih others]
      rfl

/-- No row is missing that is present. -/
theorem unmasked_map (present missing : ρ → Bool) (rows : List ρ) :
    unmasked (rows.map present) (rows.map missing) = false ↔
      ∀ row ∈ rows, present row = true → missing row = false := by
  induction rows with
  | nil => simp [unmasked]
  | cons row rows ih =>
    have split : unmasked ((row :: rows).map present) ((row :: rows).map missing) =
        (present row && missing row || unmasked (rows.map present) (rows.map missing)) := rfl
    rw [split, Bool.or_eq_false_iff, ih, List.forall_mem_cons]
    refine and_congr ?_ Iff.rfl
    cases present row <;> simp

/-- A present record has no missing value in a required field. -/
theorem unmasked_read (read : Option ρ → Value)
    (required : ∀ record, (read (some record)).isMissing = false) (rows : List (Option ρ)) :
    unmasked (rows.map Option.isSome) ((rows.map read).map Value.isMissing) = false := by
  rw [List.map_map, unmasked_map]
  rintro (_ | record) - present
  · cases present
  · exact required record

theorem HoldsParts.fits (held : HoldsParts rows parts columns) :
    fieldFault? (rows.map Option.isSome) (parts.map FieldView.field) columns = none := by
  induction parts generalizing columns with
  | nil =>
    cases columns with
    | nil => rfl
    | cons c cs => cases held
  | cons p ps ih =>
    cases columns with
    | nil => cases held
    | cons c cs =>
      obtain ⟨first, others⟩ := held
      have type : ¬ c.dataType ≠ p.field.type := fun other => other first.dataType
      have length : ¬ c.length ≠ (rows.map Option.isSome).length := by
        rw [first.length, List.length_map, List.length_map]
        exact fun other => other rfl
      have full : ¬ (!p.field.nullable && unmasked (rows.map Option.isSome) c.missing) = true := by
        rw [first.missing]
        cases nullable : p.field.nullable with
        | true => simp
        | false => rw [unmasked_read p.read (p.required nullable)]; simp
      rw [List.map_cons, fieldFault?, if_neg type, if_neg length, if_neg full]
      exact ih others

theorem fieldRows_parts (parts : List (FieldView ρ)) (rows : List (Option ρ)) {i : Nat}
    (h : i < rows.length) :
    fieldRows (parts.map FieldView.field) (parts.map fun p => rows.map p.read) i =
      parts.map fun p => (p.field.name, p.read rows[i]) := by
  induction parts with
  | nil => rfl
  | cons p ps ih =>
    have here : (rows.map p.read).getD i .missing = p.read rows[i] := by
      rw [List.getD_eq_getElem?_getD, List.getElem?_map, List.getElem?_eq_getElem h]
      rfl
    change (_, _) :: _ = _
    rw [here, List.map_cons, ← ih]
    rfl

/-- The children make a struct that reads record by record. -/
theorem HoldsParts.struct (held : HoldsParts rows parts columns) (some : parts ≠ []) :
    structOf (parts.map FieldView.field) (marks? (rows.map Option.isSome)) columns =
        .ok (.struct (parts.map FieldView.field) (rows.map Option.isSome) columns) ∧
      (Column.struct (parts.map FieldView.field) (rows.map Option.isSome) columns).Holds
        (.struct (parts.map FieldView.field)) (rows.map (FieldView.record parts)) := by
  constructor
  · have fits := held.fits
    cases columns with
    | nil =>
      cases parts with
      | nil => exact absurd rfl some
      | cons p ps => cases held
    | cons c cs =>
      cases parts with
      | nil => exact absurd rfl some
      | cons p ps =>
        have count : c.length = (rows.map Option.isSome).length := by
          rw [held.1.length, List.length_map, List.length_map]
        unfold structOf
        simp only [count, marks?_getD, fits, ne_eq, not_true_eq_false, if_false]
  · refine ⟨rfl, by simp [Column.length], ?_, ?_, ?_, ?_⟩
    · rw [typeFault?]
      exact held.types
    · rw [offsetFault?]
      exact held.offsets _ 0
    · have read : (List.range rows.length).map (fun i => Value.struct
          (fieldRows (parts.map FieldView.field) (parts.map fun p => rows.map p.read) i)) =
          rows.map fun row => Value.struct (parts.map fun p => (p.field.name, p.read row)) := by
        apply List.ext_getElem
        · rw [List.length_map, List.length_map, List.length_range]
        · intro i _ inside
          rw [List.length_map] at inside
          rw [List.getElem_map, List.getElem_map, List.getElem_range,
            fieldRows_parts parts rows inside]
      rw [Column.rows, held.rowsAll, List.length_map, read, masked_map]
      apply List.map_congr_left
      rintro (_ | record) -
      · rfl
      · rfl
    · rw [Column.missing, List.map_map, List.map_map]
      apply List.map_congr_left
      rintro (_ | record) -
      · rfl
      · rfl

end Struct

/-! ## Unions -/

/-- The position of each row among the rows that selected the same variant, when the rows of `seen`
came before. -/
def positionsFrom (seen : List TypeId) : List TypeId → List Nat
  | [] => []
  | id :: ids => seen.count id :: positionsFrom (seen ++ [id]) ids

/-- The positions of rows in their variants. -/
def positions (ids : List TypeId) : List Nat := positionsFrom [] ids

@[simp] theorem length_positionsFrom (seen ids : List TypeId) :
    (positionsFrom seen ids).length = ids.length := by
  induction ids generalizing seen with
  | nil => rfl
  | cons id ids ih => simp [positionsFrom, ih]

theorem positionsFrom_append (seen ids : List TypeId) (id : TypeId) :
    positionsFrom seen (ids ++ [id]) = positionsFrom seen ids ++ [(seen ++ ids).count id] := by
  induction ids generalizing seen with
  | nil => simp [positionsFrom]
  | cons first ids ih =>
    rw [List.cons_append, positionsFrom, ih, positionsFrom, List.cons_append, List.append_assoc]
    rfl

/-- A further row has its place behind the earlier rows of its variant. -/
theorem positions_append (ids : List TypeId) (id : TypeId) :
    positions (ids ++ [id]) = positions ids ++ [ids.count id] :=
  positionsFrom_append [] ids id

section Union

variable {ρ : Type} {tag : ρ → TypeId} {value : ρ → Value} {rows : List ρ}
variable {variants : List Variant} {columns : List Column}

/-- There is one column for each variant, with the values of the rows that selected it. -/
def HoldsVariants (tag : ρ → TypeId) (value : ρ → Value) (rows : List ρ) :
    List Variant → List Column → Prop
  | [], [] => True
  | v :: vs, c :: cs =>
    c.Holds v.field.type ((rows.filter fun row => tag row == v.id).map value) ∧
      HoldsVariants tag value rows vs cs
  | _, _ => False

/-- The column that a row finds by its type id. -/
theorem HoldsVariants.find (held : HoldsVariants tag value rows variants columns) {i : TypeId}
    (declared : ∃ v ∈ variants, v.id = i) :
    ∃ (index : Nat) (c : Column) (v : Variant), variantIndex? variants i = some index ∧
      columns[index]? = some c ∧ v.id = i ∧
      c.Holds v.field.type ((rows.filter fun row => tag row == i).map value) := by
  induction variants generalizing columns with
  | nil =>
    obtain ⟨v, none, -⟩ := declared
    cases none
  | cons v vs ih =>
    cases columns with
    | nil => cases held
    | cons c cs =>
      obtain ⟨first, others⟩ := held
      by_cases here : v.id = i
      · subst here
        refine ⟨0, c, v, ?_, rfl, rfl, first⟩
        simp [variantIndex?, List.findIdx?_cons]
      · obtain ⟨w, mem, same⟩ := declared
        have later : w ∈ vs := by
          rcases List.mem_cons.1 mem with rfl | later
          · exact absurd same here
          · exact later
        obtain ⟨index, c', v', at', column, id', holds⟩ := ih others ⟨w, later, same⟩
        refine ⟨index + 1, c', v', ?_, column, id', holds⟩
        unfold variantIndex? at at' ⊢
        rw [List.findIdx?_cons, at']
        simp [here]

theorem selected_cons {α : Type} (variants : List Variant) (i : TypeId) (ids : List TypeId)
    (offset : Nat) (offsets : List Nat) (entries : List (List α)) :
    selected variants (i :: ids) (offset :: offsets) entries =
      ((variantIndex? variants i).bind (entries[·]?)).bind (·[offset]?) ::
        selected variants ids offsets entries := by
  simp only [selected, List.zipWith_cons_cons, bind, Option.bind_assoc]

/-- Each row finds its own entry in its variant, if the variants hold the entries of their rows in
order. -/
theorem selected_positionsFrom {α : Type} {entry : ρ → α} {entries : List (List α)}
    (seen : List ρ)
    (found : ∀ row ∈ rows, ∃ index, variantIndex? variants (tag row) = some index ∧
      entries[index]? =
        some (((seen ++ rows).filter fun other => tag other == tag row).map entry)) :
    selected variants (rows.map tag) (positionsFrom (seen.map tag) (rows.map tag)) entries =
      rows.map fun row => some (entry row) := by
  induction rows generalizing seen with
  | nil => rfl
  | cons row rows ih =>
    have rest := ih (seen ++ [row]) fun other mem => by
      rw [List.append_assoc]
      exact found other (List.mem_cons_of_mem _ mem)
    rw [List.map_append] at rest
    obtain ⟨index, declared, column⟩ := found row List.mem_cons_self
    -- the entry stands behind those of the earlier rows of the same variant
    have count : (seen.map tag).count (tag row) =
        ((seen.filter fun other => tag other == tag row).map entry).length := by
      rw [List.length_map, List.count_eq_countP, List.countP_map, List.countP_eq_length_filter]
      rfl
    have here : ((variantIndex? variants (tag row)).bind (entries[·]?)).bind
        (·[(seen.map tag).count (tag row)]?) = some (entry row) := by
      rw [declared, Option.bind_some, column, Option.bind_some, count, List.filter_append,
        List.map_append, List.getElem?_append_right (Nat.le_refl _), Nat.sub_self,
        List.filter_cons_of_pos (by simp)]
      rfl
    rw [List.map_cons, positionsFrom, selected_cons, here, List.map_cons, ← rest]
    rfl

/-- A position that selects an entry is inside its child. -/
theorem positions_inside {lengths : List Nat} (seen : List ρ)
    (found : ∀ row ∈ rows, ∃ index, variantIndex? variants (tag row) = some index ∧
      lengths[index]? = some ((seen ++ rows).countP fun other => tag other == tag row)) :
    ∀ pair ∈ (rows.map tag).zip (positionsFrom (seen.map tag) (rows.map tag)),
      ∃ index length, variantIndex? variants pair.1 = some index ∧ lengths[index]? = some length ∧
        pair.2 < length := by
  induction rows generalizing seen with
  | nil =>
    rintro pair mem
    cases mem
  | cons row rows ih =>
    have rest := ih (seen ++ [row]) fun other mem => by
      rw [List.append_assoc]
      exact found other (List.mem_cons_of_mem _ mem)
    rw [List.map_append] at rest
    rintro pair mem
    rcases List.mem_cons.1 mem with rfl | later
    · obtain ⟨index, declared, length⟩ := found row List.mem_cons_self
      refine ⟨index, _, declared, length, ?_⟩
      have before : (seen.map tag).count (tag row) =
          seen.countP fun other => tag other == tag row := by
        rw [List.count_eq_countP, List.countP_map]
        rfl
      rw [List.countP_append, List.countP_cons_of_pos (by simp), before]
      omega
    · exact rest pair later

/-- Rows whose variants have as many values as there are rows of them make a union. -/
theorem unionOf_positions (found : ∀ row ∈ rows, ∃ (index : Nat) (c : Column),
      variantIndex? variants (tag row) = some index ∧ columns[index]? = some c ∧
        c.length = rows.countP fun other => tag other == tag row) :
    unionOf variants (rows.map tag) (positions (rows.map tag)) columns =
      .ok (.union variants (rows.map tag) (positions (rows.map tag)) columns) := by
  have inside : ∀ pair ∈ (rows.map tag).zip (positions (rows.map tag)), ∃ index length,
      variantIndex? variants pair.1 = some index ∧
        (columns.map Column.length)[index]? = some length ∧ pair.2 < length := by
    refine positions_inside [] ?_
    intro row mem
    obtain ⟨index, c, here, column, length⟩ := found row mem
    refine ⟨index, here, ?_⟩
    rw [List.getElem?_map, column, Option.map_some, length, List.nil_append]
  have lengths : ∀ i, variantLength? variants columns i =
      (variantIndex? variants i).bind fun index => (columns.map Column.length)[index]? := by
    intro i
    simp only [variantLength?, bind, List.getElem?_map]
    cases variantIndex? variants i with
    | none => rfl
    | some index =>
      simp only [Option.bind_some]
      cases columns[index]? with
      | none => rfl
      | some c => rfl
  unfold unionOf
  rw [if_neg, if_neg]
  · intro outside
    obtain ⟨⟨length, offset⟩, mem, bad⟩ := List.any_eq_true.1 outside
    rw [List.zip_map_left] at mem
    obtain ⟨⟨i, offset⟩, pair, same⟩ := List.mem_map.1 mem
    cases same
    obtain ⟨index, length, here, column, fits⟩ := inside _ pair
    rw [lengths, here, Option.bind_some, column] at bad
    have bad : length ≤ offset := by simpa using bad
    exact Nat.not_le_of_lt fits bad
  · intro undeclared
    obtain ⟨length, listed, bad⟩ := List.any_eq_true.1 undeclared
    rw [List.map_map] at listed
    obtain ⟨row, mem, rfl⟩ := List.mem_map.1 listed
    obtain ⟨index, c, here, column, -⟩ := found row mem
    rw [Function.comp_apply, lengths, here, Option.bind_some, List.getElem?_map, column] at bad
    cases bad

/-- A union reads as the values selected, with their variants. -/
theorem rows_positions (found : ∀ row ∈ rows, ∃ (index : Nat) (c : Column),
      variantIndex? variants (tag row) = some index ∧ columns[index]? = some c ∧
        c.rows = (rows.filter fun other => tag other == tag row).map value) :
    (Column.union variants (rows.map tag) (positions (rows.map tag)) columns).rows =
      rows.map fun row => variantRow variants (tag row) (some (value row)) := by
  have read : selected variants (rows.map tag) (positions (rows.map tag))
      (columns.map Column.rows) = rows.map fun row => some (value row) := by
    refine selected_positionsFrom [] ?_
    intro row mem
    obtain ⟨index, c, here, column, shown⟩ := found row mem
    refine ⟨index, here, ?_⟩
    rw [List.getElem?_map, column, Option.map_some, shown, List.nil_append]
  rw [Column.rows, rowsAll_eq_map, read, List.zipWith_map, List.zipWith_self]

theorem HoldsVariants.types (held : HoldsVariants tag value rows variants columns)
    (union : DataType) : variantFault? union variants columns = none := by
  induction variants generalizing columns with
  | nil =>
    cases columns with
    | nil => rw [variantFault?]; simp
    | cons c cs => cases held
  | cons v vs ih =>
    cases columns with
    | nil => cases held
    | cons c cs =>
      obtain ⟨first, others⟩ := held
      have type : ¬ c.dataType ≠ v.field.type := fun other => other first.dataType
      rw [variantFault?, if_neg type, first.types, ih others]
      rfl

theorem HoldsVariants.offsets (held : HoldsVariants tag value rows variants columns)
    (parent : DataType) (index : Nat) : offsetFaultAmong? parent index columns = none := by
  induction variants generalizing columns index with
  | nil =>
    cases columns with
    | nil => rw [offsetFaultAmong?]
    | cons c cs => cases held
  | cons v vs ih =>
    cases columns with
    | nil => cases held
    | cons c cs =>
      obtain ⟨first, others⟩ := held
      rw [offsetFaultAmong?, first.offsets, ih others]
      rfl

/-- The children make a union that reads as the values selected, with their variants. -/
theorem HoldsVariants.union (held : HoldsVariants tag value rows variants columns)
    (declared : ∀ row ∈ rows, ∃ v ∈ variants, v.id = tag row)
    (counts : countsMissing variants = true) :
    unionOf variants (rows.map tag) (positions (rows.map tag)) columns =
        .ok (.union variants (rows.map tag) (positions (rows.map tag)) columns) ∧
      (Column.union variants (rows.map tag) (positions (rows.map tag)) columns).Holds
        (.union variants)
        (rows.map fun row => variantRow variants (tag row) (some (value row))) := by
  constructor
  · apply unionOf_positions
    intro row mem
    obtain ⟨index, c, v, here, column, -, holds⟩ := held.find (declared row mem)
    refine ⟨index, c, here, column, ?_⟩
    rw [holds.length, List.length_map, List.countP_eq_length_filter]
  · refine ⟨rfl, by simp [Column.length], ?_, ?_, ?_, ?_⟩
    · rw [typeFault?]
      exact held.types _
    · rw [offsetFault?]
      exact held.offsets _ 0
    · apply rows_positions
      intro row mem
      obtain ⟨index, c, v, here, column, -, holds⟩ := held.find (declared row mem)
      exact ⟨index, c, here, column, holds.rows⟩
    · have read : selected variants (rows.map tag) (positions (rows.map tag))
          (columns.map Column.missing) = rows.map fun row => some (value row).isMissing := by
        refine selected_positionsFrom [] ?_
        intro row mem
        obtain ⟨index, c, v, here, column, -, holds⟩ := held.find (declared row mem)
        refine ⟨index, here, ?_⟩
        rw [List.getElem?_map, column, Option.map_some, holds.missing, List.nil_append,
          List.map_map]
        rfl
      rw [Column.missing, if_pos counts, missingAll_eq_map, read, List.map_map, List.map_map]
      apply List.map_congr_left
      intro row mem
      rfl

end Union

end Column

end TypedColumns
