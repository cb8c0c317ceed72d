import TypedColumns.Proofs.Rows.Writing

/-!
# What rows read as, and which are complete

`Row.valueOf` is the value that a row of a type reads as. A row is complete (`Row.Complete`) if
every required field of every struct in it that is present is given a value. Whether a value is one
that counts as missing is left open (`missing`); where all unions are looked through, the two ways
to tell agree (`complete_of_counted`).

Both are told by the parts of a row (`valueOf_union`, `complete_struct`, `complete_union`), which is
how a builder with children sees it.
-/

namespace TypedColumns

open Builder (Has)

/-- The type of a variant is that of its id, if different variants have different ids. -/
theorem Variant.typeOf_of_mem {variants : List Variant} {v : Variant}
    (distinct : (variants.map (·.id)).Nodup) (mem : v ∈ variants) :
    typeOf variants v.id = v.field.type := by
  induction variants with
  | nil => cases mem
  | cons w ws ih =>
    rw [List.map_cons] at distinct
    obtain ⟨apart, others⟩ := List.nodup_cons.1 distinct
    rcases List.mem_cons.1 mem with rfl | later
    · rw [typeOf, List.find?_cons_of_pos (by simp)]
      rfl
    · have other : (w.id == v.id) = false := by
        rw [beq_eq_false_iff_ne]
        intro same
        exact apart (same ▸ List.mem_map_of_mem later)
      have rest := ih others later
      rw [typeOf] at rest ⊢
      rw [List.find?_cons, other, rest]

theorem Variant.counted_typeOf {variants : List Variant} (all : AllCounted variants) (id : TypeId) :
    (typeOf variants id).Counted := by
  cases found : variants.find? (·.id == id) with
  | none =>
    rw [typeOf, found]
    trivial
  | some v =>
    rw [typeOf, found]
    exact all.type (List.mem_of_find?_eq_some found)

namespace Row

mutual

/-- The value that a row of the type reads as. A missing row of a union selects a missing value. -/
def valueOf : Row → DataType → Value
  | .null, .union variants =>
    Column.variantRow variants ((Builder.nullVariant? variants).getD 0) none
  | .item value, _ => value
  | .struct _ rows, .struct fields => .struct (valuesOf rows fields)
  | .variant id row, .union variants =>
    Column.variantRow variants id (some (row.valueOf (Variant.typeOf variants id)))
  | _, _ => .missing

/-- The values of the fields of a struct, by name. -/
def valuesOf : List Row → List Field → List (String × Value)
  | row :: rows, f :: fs => (f.name, row.valueOf f.type) :: valuesOf rows fs
  | _, _ => []

end

theorem valuesOf_getElem? (rows : List Row) (fields : List Field) (i : Nat) :
    (valuesOf rows fields)[i]? =
      (rows[i]?.bind fun row => fields[i]?.map fun f => (f.name, row.valueOf f.type)) := by
  induction rows generalizing fields i with
  | nil => rfl
  | cons row rows ih =>
    cases fields with
    | nil =>
      cases i with
      | zero => rfl
      | succ i =>
        rw [List.getElem?_nil, List.getElem?_cons_succ]
        cases rows[i]? with
        | none => rfl
        | some row => rfl
    | cons f fs =>
      cases i with
      | zero => rfl
      | succ i => exact ih fs i

/-! ## Parts -/

variable {row : Row} {fields : List Field} {variants : List Variant}

theorem part_getElem? (order : List Nat) {rows : List Row} {i : Nat} (own : rows[i]? = some row) :
    (Row.struct order rows).part i = row := by
  change rows.getD i .null = row
  rw [List.getD_eq_getElem?_getD, own, Option.getD_some]

theorem Fits.part (fits : row.Fits (.struct fields)) {i : Nat} {f : Field}
    (field : fields[i]? = some f) : (row.part i).Fits f.type := by
  cases fits with
  | null => exact .null f.type
  | item item typed => cases item
  | @struct _ order rows once count each =>
    have inside : i < rows.length := by
      rw [count]
      exact (List.getElem?_eq_some_iff.1 field).1
    have own : rows[i]? = some rows[i] := List.getElem?_eq_getElem inside
    rw [part_getElem? order own]
    exact each i f rows[i] field own

theorem Fits.payload (fits : row.Fits (.union variants)) :
    row.payload.Fits (Variant.typeOf variants (row.tag variants)) := by
  cases fits with
  | null => exact .null _
  | item item typed => cases item
  | variant fits => exact fits

/-- A row of a union reads as what it gives to the variant that it selects. -/
theorem valueOf_union (fits : row.Fits (.union variants)) (selects : row.Selects variants)
    (distinct : (variants.map (·.id)).Nodup) :
    row.valueOf (.union variants) = Column.variantRow variants (row.tag variants)
      (some (row.payload.valueOf (Variant.typeOf variants (row.tag variants)))) := by
  cases fits with
  | null =>
    obtain ⟨v, mem, same, null⟩ := selects
    rw [← same, Variant.typeOf_of_mem distinct mem, null rfl, same]
    rfl
  | item item typed => cases item
  | variant fits => rw [valueOf]; rfl

/-! ## Complete rows -/

/-- Every required field of a struct that is present is given a value, at every depth. -/
inductive Complete (missing : DataType → Value → Bool) : DataType → Row → Prop
  | null (t : DataType) : Complete missing t .null
  | item (t : DataType) (value : Value) : Complete missing t (.item value)
  | struct {fields : List Field} {order : List Nat} {rows : List Row}
    (required : ∀ (i : Nat) (f : Field) (row : Row), fields[i]? = some f → rows[i]? = some row →
      f.nullable = false → missing f.type (row.valueOf f.type) = false)
    (each : ∀ (i : Nat) (f : Field) (row : Row), fields[i]? = some f → rows[i]? = some row →
      Complete missing f.type row) : Complete missing (.struct fields) (.struct order rows)
  | variant {variants : List Variant} {id : TypeId} {row : Row}
    (inner : Complete missing (Variant.typeOf variants id) row) :
    Complete missing (.union variants) (.variant id row)

variable {missing : DataType → Value → Bool}

theorem complete_item {t : DataType} (item : t.IsItem) (fits : row.Fits t) :
    row.Complete missing t := by
  cases fits with
  | null => exact .null t
  | item item typed => exact .item t _
  | struct once count each => cases item
  | variant fits => cases item

/-- A row of a struct is complete if what it gives to the fields is, and what required fields need
is there. -/
theorem complete_struct (fits : row.Fits (.struct fields)) :
    row.Complete missing (.struct fields) ↔ ∀ (i : Nat) (f : Field), fields[i]? = some f →
      (row.part i).Complete missing f.type ∧ (row.present = true → f.nullable = false →
        missing f.type ((row.part i).valueOf f.type) = false) := by
  cases fits with
  | null =>
    constructor
    · intro _ i f field
      exact ⟨.null f.type, fun present => by cases present⟩
    · intro _
      exact .null _
  | item item typed => cases item
  | @struct _ order rows once count each =>
    constructor
    · intro complete i f field
      cases complete with
      | struct required complete =>
        have inside : i < rows.length := by
          rw [count]
          exact (List.getElem?_eq_some_iff.1 field).1
        have own : rows[i]? = some rows[i] := List.getElem?_eq_getElem inside
        rw [part_getElem? order own]
        exact ⟨complete i f _ field own, fun _ => required i f _ field own⟩
    · intro parts
      refine .struct ?_ ?_
      · intro i f row field own
        rw [← part_getElem? order own]
        exact (parts i f field).2 rfl
      · intro i f row field own
        rw [← part_getElem? order own]
        exact (parts i f field).1

theorem complete_union (fits : row.Fits (.union variants)) :
    row.Complete missing (.union variants) ↔
      row.payload.Complete missing (Variant.typeOf variants (row.tag variants)) := by
  cases fits with
  | null => exact ⟨fun _ => .null _, fun _ => .null _⟩
  | item item typed => cases item
  | variant fits =>
    constructor
    · intro complete
      cases complete with
      | variant inner => exact inner
    · intro inner
      exact .variant inner

/-! ## Where all unions are looked through -/

theorem isVariant_of_item {t : DataType} {value : Value} (item : t.IsItem)
    (typed : value.IsItemOf t) : value.isVariant = false := by
  cases typed <;> rfl

/-- Where all unions are looked through, a value counts as missing if none is shown. -/
theorem Fits.missingAs_valueOf {t : DataType} (fits : row.Fits t) (counted : t.Counted) :
    (row.valueOf t).missingAs t = (row.valueOf t).isMissing := by
  induction fits with
  | null t =>
    cases t with
    | union variants =>
      rw [DataType.Counted] at counted
      change (Value.variant _ _ Value.missing).missingAs (.union variants) = true
      rw [Value.missingAs_variant, counted.1, Value.missingAs_missing]
      rfl
    | _ => rfl
  | item item typed => exact Value.missingAs_eq_isMissing _ (isVariant_of_item item typed)
  | struct once count each ih => rfl
  | @variant variants id row fits ih =>
    rw [DataType.Counted] at counted
    have inner := ih (Variant.counted_typeOf counted.2 id)
    rw [valueOf, Column.variantRow, Option.getD_some, Value.missingAs_variant, counted.1,
      Bool.true_and, inner]
    rfl

/-- Rows that are complete in one sense are so in another that says the same of their values. -/
theorem Complete.of_counted {missing' : DataType → Value → Bool}
    (agree : ∀ {row : Row} {t : DataType}, row.Fits t → t.Counted →
      missing t (row.valueOf t) = missing' t (row.valueOf t))
    {t : DataType} (fits : row.Fits t) (counted : t.Counted) (complete : row.Complete missing t) :
    row.Complete missing' t := by
  induction complete with
  | null t => exact .null t
  | item t value => exact .item t value
  | @struct fields order rows required complete ih =>
    cases fits with
    | struct once count each =>
      rw [DataType.Counted] at counted
      refine .struct ?_ ?_
      · intro i f row field own nullable
        rw [← agree (each i f row field own) (counted.type (List.mem_of_getElem? field))]
        exact required i f row field own nullable
      · intro i f row field own
        exact ih i f row field own (each i f row field own)
          (counted.type (List.mem_of_getElem? field))
  | @variant variants id row inner ih =>
    cases fits with
    | variant fits =>
      rw [DataType.Counted] at counted
      exact .variant (ih fits (Variant.counted_typeOf counted.2 id))

/-- Where all unions are looked through, what counts as missing is what shows no value. -/
theorem complete_of_counted {t : DataType} (fits : row.Fits t) (counted : t.Counted) :
    row.Complete Value.missingAs t ↔ row.Complete (fun _ => Value.isMissing) t :=
  ⟨Complete.of_counted Fits.missingAs_valueOf fits counted,
    Complete.of_counted (fun fits counted => (fits.missingAs_valueOf counted).symm) fits counted⟩

end Row

end TypedColumns
