import TypedColumns.Proofs.Column.Missing

/-!
# Well-formed columns

`Column.WellFormed` spells out, node by node and position by position, what a reader of a column may
rely on: children are of the types that their fields declare, the children of a struct have its
rows, a list of fixed size has as many items as its rows take, the offsets of a list begin at zero,
never go down and stay within the items, the rows of a union select declared variants and values
that are there, and a required field has a value in every row of its struct that is present.

Whether a value is missing is left open (`missing`). With `Value.missingAs`, every sound column is
well formed (`Sound.wellFormed`); with `Value.isMissing`, so is every sound column of a type whose
unions are all looked through (`Sound.wellFormed_of_counted`).
-/

namespace TypedColumns.Column

section

variable (missing : DataType → Value → Bool)

/-- The child has a value in every row in which the struct is present, and no row of it is marked as
absent there. -/
def Provides (validity : List Bool) (type : DataType) (child : Column) : Prop :=
  ∀ i : Nat, validity[i]? = some true →
    child.validity[i]? = some true ∧ ∃ v, child.rows[i]? = some v ∧ missing type v = false

/-- The children of a struct are of the types of its fields and have its rows, and those of required
fields have their values. -/
structure FitsStruct (fields : List Field) (validity : List Bool) (children : List Column) :
    Prop where
  types : children.map dataType = fields.map (·.type)
  lengths : ∀ child ∈ children, child.length = validity.length
  required : ∀ (index : Nat) (f : Field) (child : Column), fields[index]? = some f →
    children[index]? = some child → f.nullable = false → Provides missing validity f.type child

/-- Offsets of the runs of a list's rows within its items. -/
structure FitsList (rows items : Nat) (offsets : List Nat) : Prop where
  length : offsets.length = rows + 1
  start : offsets[0]? = some 0
  ascending : ∀ (i start stop : Nat), offsets[i]? = some start → offsets[i + 1]? = some stop →
    start ≤ stop
  within : ∀ offset ∈ offsets, offset ≤ items

/-- The children of a union are of the types of its variants, and each row selects a value of one of
them. -/
structure FitsUnion (variants : List Variant) (ids : List TypeId) (offsets : List Nat)
    (children : List Column) : Prop where
  types : children.map dataType = variants.map (·.field.type)
  length : offsets.length = ids.length
  selects : ∀ (i : Nat) (id : TypeId) (offset : Nat), ids[i]? = some id →
    offsets[i]? = some offset → ∃ (index : Nat) (v : Variant) (child : Column),
      variants[index]? = some v ∧ v.id = id ∧ children[index]? = some child ∧ offset < child.length

mutual

/-- Every node of the column goes with its children. -/
def WellFormed : Column → Prop
  | .null _ | .boolean _ | .number _ _ | .text _ _ | .binary _ _ => True
  | .list _ item validity offsets items =>
    (items.dataType = item.type ∧ FitsList validity.length items.length offsets) ∧ items.WellFormed
  | .fixedSizeList item size validity items =>
    (items.dataType = item.type ∧ 0 ≤ size ∧ items.length = validity.length * size.toNat) ∧
      items.WellFormed
  | .struct fields validity children =>
    FitsStruct missing fields validity children ∧ AllWellFormed children
  | .union variants ids offsets children =>
    FitsUnion variants ids offsets children ∧ AllWellFormed children
  | .foreign _ => False

/-- Each of the columns is well formed. -/
def AllWellFormed : List Column → Prop
  | [] => True
  | c :: cs => c.WellFormed ∧ AllWellFormed cs

end

end

/-! ## Single nodes -/

theorem unmasked_iff {validity missing : List Bool} : unmasked validity missing = false ↔
    ∀ i : Nat, validity[i]? = some true → missing[i]? ≠ some true := by
  induction validity generalizing missing with
  | nil => simp [unmasked]
  | cons valid validity ih =>
    cases missing with
    | nil => simp [unmasked]
    | cons m missing =>
      have split : unmasked (valid :: validity) (m :: missing) =
          (valid && m || unmasked validity missing) := rfl
      rw [split, Bool.or_eq_false_iff, ih]
      constructor
      · rintro ⟨first, others⟩ i here there
        cases i with
        | zero =>
          cases Option.some.inj here
          cases Option.some.inj there
          cases first
        | succ i => exact others i here there
      · intro clean
        refine ⟨?_, fun i => clean (i + 1)⟩
        cases valid with
        | false => rfl
        | true =>
          cases m with
          | false => rfl
          | true => exact absurd rfl (clean 0 rfl)

/-- A row that is not missing is not marked as absent either. -/
theorem validity_of_missing {c : Column} {i : Nat} (present : c.missing[i]? = some false)
    (inside : i < c.length) : c.validity[i]? = some true := by
  have slots {α : Type} {as : List (Option α)}
      (full : (as.map Option.isNone)[i]? = some false) :
      (as.map Option.isSome)[i]? = some true := by
    rw [List.getElem?_map] at full ⊢
    obtain ⟨_ | a, here, isNone⟩ := Option.map_eq_some_iff.1 full
    · cases isNone
    · rw [here]
      rfl
  have marks {validity : List Bool} (full : (validity.map not)[i]? = some false) :
      validity[i]? = some true := by
    rw [List.getElem?_map] at full
    obtain ⟨_ | _, here, absent⟩ := Option.map_eq_some_iff.1 full
    · cases absent
    · exact here
  cases c with
  | null count =>
    have within : i < count := inside
    rw [missing, List.getElem?_replicate, if_pos within] at present
    cases present
  | boolean as => exact slots present
  | number type as => exact slots present
  | text width as => exact slots present
  | binary width as => exact slots present
  | list width item validity offsets items => exact marks present
  | fixedSizeList item size validity items => exact marks present
  | struct fields validity children => exact marks present
  | union variants ids offsets children =>
    rw [length] at inside
    rw [validity, List.getElem?_replicate, if_pos inside]
  | foreign type => cases inside

/-- A child without a missing row in a present struct has all the values it must have. -/
theorem Sound.provides {validity : List Bool} {c : Column} (sound : c.Sound)
    (same : c.length = validity.length) (clean : unmasked validity c.missing = false) :
    Provides Value.missingAs validity c.dataType c := by
  intro i here
  have inside : i < c.length := same ▸ (List.getElem?_eq_some_iff.1 here).1
  have shown : i < c.rows.length := by rwa [length_rows sound]
  have present : c.missing[i]? = some false := by
    have counted := unmasked_iff.1 clean i here
    rw [sound.missing_eq, List.getElem?_map, List.getElem?_eq_getElem shown] at counted ⊢
    cases absent : c.rows[i].missingAs c.dataType with
    | true => exact absurd (congrArg some absent) counted
    | false => exact congrArg some absent
  refine ⟨validity_of_missing present inside, c.rows[i], List.getElem?_eq_getElem shown, ?_⟩
  rw [sound.missing_eq, List.getElem?_map, List.getElem?_eq_getElem shown] at present
  exact Option.some.inj present

/-- The children of a struct that passed the checks fit it. -/
theorem fitsStruct_of_fieldFault? {fields : List Field} {validity : List Bool}
    {children : List Column} (number : children.length = fields.length)
    (clean : fieldFault? validity fields children = none) (sound : SoundAll children) :
    FitsStruct Value.missingAs fields validity children := by
  have each := (fieldFault?_iff number).1 clean
  refine ⟨?_, ?_, ?_⟩
  · apply List.ext_getElem
    · rw [List.length_map, List.length_map, number]
    · intro i here there
      rw [List.length_map] at here there
      rw [List.getElem_map, List.getElem_map]
      exact (each i _ _ (List.getElem?_eq_getElem there) (List.getElem?_eq_getElem here)).1
  · rintro child mem
    obtain ⟨i, inside, rfl⟩ := List.getElem_of_mem mem
    have field := List.getElem?_eq_getElem (number ▸ inside : i < fields.length)
    exact (each i _ _ field (List.getElem?_eq_getElem inside)).2.1
  · intro i f child field column required
    obtain ⟨type, same, nullable | clean⟩ := each i f child field column
    · rw [required] at nullable
      cases nullable
    · exact type ▸ (sound.sound (List.mem_of_getElem? column)).provides same clean

/-- Offsets that climb are those of runs. -/
theorem Climbs.fits {rows items : Nat} {stops : List Nat} (same : stops.length = rows)
    (climbs : Climbs items 0 stops) : FitsList rows items (0 :: stops) := by
  refine ⟨by rw [List.length_cons, same], rfl, ?_, ?_⟩
  · clear same
    generalize 0 = last at climbs
    intro i start stop here next
    induction stops generalizing last i with
    | nil => cases next
    | cons first stops ih =>
      cases i with
      | zero =>
        cases Option.some.inj here
        cases Option.some.inj next
        exact climbs.1
      | succ i => exact ih first climbs.2 i here next
  · clear same
    generalize 0 = last at climbs
    induction stops generalizing last with
    | nil =>
      rintro offset mem
      rw [List.mem_singleton.1 mem]
      exact climbs
    | cons first stops ih =>
      rintro offset mem
      rcases List.mem_cons.1 mem with rfl | later
      · exact Nat.le_trans climbs.1 climbs.2.start_le
      · exact ih first climbs.2 offset later

/-- The rows of a union that was put together select values that are there. -/
theorem fitsUnion_of_unionOf {variants : List Variant} {ids : List TypeId} {offsets : List Nat}
    {children : List Column} {c : Column}
    (types : children.map dataType = variants.map (·.field.type))
    (same : offsets.length = ids.length) (made : unionOf variants ids offsets children = .ok c) :
    FitsUnion variants ids offsets children := by
  refine ⟨types, same, ?_⟩
  intro i id offset row position
  obtain ⟨index, child, declared, column, inside⟩ := selects_of_unionOf made row position
  obtain ⟨v, here, named, -⟩ := find?_of_variantIndex? declared
  exact ⟨index, v, child, here, named, column, inside⟩

/-! ## Whole columns -/

mutual

theorem Sound.wellFormed : {c : Column} → c.Sound → c.WellFormed Value.missingAs
  | .list _ _ _ _ _, sound => by
    rw [Sound] at sound
    obtain ⟨⟨item, stops, rfl, same, climbs⟩, inside⟩ := sound
    rw [WellFormed]
    exact ⟨⟨by rw [item, Field.item], climbs.fits same⟩, inside.wellFormed⟩
  | .fixedSizeList _ _ _ _, sound => by
    rw [Sound] at sound
    obtain ⟨⟨item, size, even⟩, inside⟩ := sound
    rw [WellFormed]
    exact ⟨⟨by rw [item, Field.item], size, even⟩, inside.wellFormed⟩
  | .struct _ _ _, sound => by
    rw [Sound] at sound
    obtain ⟨⟨-, number, clean⟩, inside⟩ := sound
    rw [WellFormed]
    exact ⟨fitsStruct_of_fieldFault? number clean inside, allWellFormed_of_soundAll inside⟩
  | .union _ _ _ _, sound => by
    rw [Sound] at sound
    obtain ⟨⟨types, same, made⟩, inside⟩ := sound
    rw [WellFormed]
    exact ⟨fitsUnion_of_unionOf types same made, allWellFormed_of_soundAll inside⟩
  | .null _, _ => trivial
  | .boolean _, _ => trivial
  | .number _ _, _ => trivial
  | .text _ _, _ => trivial
  | .binary _ _, _ => trivial
  | .foreign _, sound => by cases sound

theorem allWellFormed_of_soundAll : {cs : List Column} → SoundAll cs →
    AllWellFormed Value.missingAs cs
  | [], _ => trivial
  | _ :: _, sound => ⟨sound.1.wellFormed, allWellFormed_of_soundAll sound.2⟩

end

mutual

/-- Where every union is looked through, required fields show a value. -/
theorem Sound.wellFormed_of_counted : {c : Column} → c.Sound → c.dataType.Counted →
    c.WellFormed fun _ => Value.isMissing
  | .list _ item _ _ items, sound, counted => by
    have outer := sound.wellFormed
    rw [Sound] at sound
    rw [WellFormed] at outer ⊢
    rw [dataType, DataType.Counted, Field.counted_iff, ← outer.1.1] at counted
    exact ⟨outer.1, sound.2.wellFormed_of_counted counted⟩
  | .fixedSizeList item _ _ items, sound, counted => by
    have outer := sound.wellFormed
    rw [Sound] at sound
    rw [WellFormed] at outer ⊢
    rw [dataType, DataType.Counted, Field.counted_iff, ← outer.1.1] at counted
    exact ⟨outer.1, sound.2.wellFormed_of_counted counted⟩
  | .struct fields validity children, sound, counted => by
    have outer := sound.wellFormed
    rw [Sound] at sound
    rw [WellFormed] at outer ⊢
    rw [dataType, DataType.Counted] at counted
    obtain ⟨⟨types, lengths, required⟩, -⟩ := outer
    have inner : ∀ c ∈ children, c.dataType.Counted := by
      intro c mem
      have listed : c.dataType ∈ fields.map (·.type) := types ▸ List.mem_map_of_mem mem
      obtain ⟨f, declared, type⟩ := List.mem_map.1 listed
      exact type ▸ counted.type declared
    refine ⟨⟨types, lengths, ?_⟩, allWellFormed_of_counted sound.2 inner⟩
    intro index f child field column nullable i here
    obtain ⟨marked, v, row, value⟩ := required index f child field column nullable i here
    have mem := List.mem_of_getElem? column
    have type : child.dataType = f.type := by
      have both := congrArg (·[index]?) types
      simp only [List.getElem?_map, column, field, Option.map_some] at both
      exact Option.some.inj both
    refine ⟨marked, v, row, ?_⟩
    have same := (sound.2.sound mem).missingAs_rows (inner child mem) v (List.mem_of_getElem? row)
    exact (same.symm.trans (by rw [type])).trans value
  | .union variants _ _ children, sound, counted => by
    have outer := sound.wellFormed
    rw [Sound] at sound
    rw [WellFormed] at outer ⊢
    rw [dataType, DataType.Counted] at counted
    have inner : ∀ c ∈ children, c.dataType.Counted := by
      intro c mem
      have listed : c.dataType ∈ variants.map (·.field.type) :=
        outer.1.types ▸ List.mem_map_of_mem mem
      obtain ⟨v, declared, type⟩ := List.mem_map.1 listed
      exact type ▸ counted.2.type declared
    exact ⟨outer.1, allWellFormed_of_counted sound.2 inner⟩
  | .null _, _, _ => trivial
  | .boolean _, _, _ => trivial
  | .number _ _, _, _ => trivial
  | .text _ _, _, _ => trivial
  | .binary _ _, _, _ => trivial
  | .foreign _, sound, _ => by cases sound

theorem allWellFormed_of_counted : {cs : List Column} → SoundAll cs →
    (∀ c ∈ cs, c.dataType.Counted) → AllWellFormed (fun _ => Value.isMissing) cs
  | [], _, _ => trivial
  | c :: _, sound, counted =>
    ⟨sound.1.wellFormed_of_counted (counted c List.mem_cons_self),
      allWellFormed_of_counted sound.2 fun d mem => counted d (List.mem_cons_of_mem c mem)⟩

end

end TypedColumns.Column
