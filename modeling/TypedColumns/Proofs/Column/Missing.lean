import TypedColumns.Proofs.Column.Compaction
import TypedColumns.Proofs.Column.Nested

/-!
# Values that count as missing

Where a field requires a value, a struct is asked which rows of the child are missing
(`Column.missing`). For a sound column this can be told from the values it shows: `Value.missingAs`
looks at a value alone, through the unions around it (`Sound.missing_eq`).

A union of a single variant whose id is not zero is not looked through: no row of it counts as
missing, whatever it selects. Where a type has no such union (`DataType.Counted`), the values that
count as missing are those that show none (`Sound.missingAs_rows`).
-/

namespace TypedColumns

/-- The type of the values that a type id selects. -/
def Variant.typeOf (variants : List Variant) (id : TypeId) : DataType :=
  ((variants.find? (·.id == id)).map (·.field.type)).getD .null

namespace Value

/-- Whether a value of the type counts as missing. -/
def missingAs : DataType → Value → Bool
  | _, .missing => true
  | .union variants, .variant id _ value =>
    Column.countsMissing variants && value.missingAs (Variant.typeOf variants id)
  | _, _ => false

def isVariant : Value → Bool
  | .variant _ _ _ => true
  | _ => false

@[simp] theorem missingAs_missing (t : DataType) : missing.missingAs t = true := by
  cases t <;> rfl

theorem missingAs_variant (variants : List Variant) (id : TypeId) (name : String) (v : Value) :
    (Value.variant id name v).missingAs (.union variants) =
      (Column.countsMissing variants && v.missingAs (Variant.typeOf variants id)) := rfl

/-- Outside of unions, a value is missing or it is not. -/
theorem missingAs_eq_isMissing (t : DataType) {v : Value} (plain : v.isVariant = false) :
    v.missingAs t = v.isMissing := by
  cases v with
  | variant id name v => cases plain
  | _ => cases t <;> rfl

end Value

mutual

/-- No union in the type is one of a single variant with another id than zero. -/
def DataType.Counted : DataType → Prop
  | .list _ item => item.Counted
  | .fixedSizeList item _ => item.Counted
  | .struct fields => Field.AllCounted fields
  | .union variants => Column.countsMissing variants = true ∧ Variant.AllCounted variants
  | _ => True

def Field.Counted : Field → Prop
  | ⟨_, type, _⟩ => type.Counted

def Field.AllCounted : List Field → Prop
  | [] => True
  | f :: fs => f.Counted ∧ Field.AllCounted fs

def Variant.AllCounted : List Variant → Prop
  | [] => True
  | ⟨_, f⟩ :: vs => f.Counted ∧ Variant.AllCounted vs

end

/-- One variant, whose id is not zero. -/
def loneVariants : List Variant := [⟨5, ⟨"o", .number .int32, true⟩⟩]

/-- A required field that is not looked through. -/
def loneFields : List Field := [⟨"u", .union loneVariants, false⟩]

theorem Field.counted_iff (f : Field) : f.Counted ↔ f.type.Counted := by
  cases f
  rw [Field.Counted]

theorem Variant.AllCounted.type {vs : List Variant} {v : Variant} (all : AllCounted vs)
    (mem : v ∈ vs) : v.field.type.Counted := by
  induction vs with
  | nil => cases mem
  | cons w ws ih =>
    cases w
    rw [AllCounted] at all
    rcases List.mem_cons.1 mem with rfl | later
    · exact (Field.counted_iff _).1 all.1
    · exact ih all.2 later

theorem Field.AllCounted.type {fs : List Field} {f : Field} (all : AllCounted fs) (mem : f ∈ fs) :
    f.type.Counted := by
  induction fs with
  | nil => cases mem
  | cons g gs ih =>
    rw [AllCounted] at all
    rcases List.mem_cons.1 mem with rfl | later
    · exact (Field.counted_iff _).1 all.1
    · exact ih all.2 later

namespace Column

theorem SoundAll.sound {cs : List Column} {c : Column} (all : SoundAll cs) (mem : c ∈ cs) :
    c.Sound := by
  induction cs with
  | nil => cases mem
  | cons d ds ih =>
    obtain ⟨first, others⟩ := all
    rcases List.mem_cons.1 mem with rfl | later
    · exact first
    · exact ih others later

theorem soundAll_of_forall {cs : List Column} (sound : ∀ c ∈ cs, c.Sound) : SoundAll cs := by
  induction cs with
  | nil => trivial
  | cons c cs ih =>
    exact ⟨sound c List.mem_cons_self, ih fun d mem => sound d (List.mem_cons_of_mem c mem)⟩

/-! ## Values outside of unions -/

theorem mem_masked {validity : List Bool} {values : List Value} {v : Value}
    (mem : v ∈ masked validity values) : v = .missing ∨ v ∈ values := by
  induction validity generalizing values with
  | nil => cases mem
  | cons valid validity ih =>
    cases values with
    | nil => cases mem
    | cons w values =>
      rcases List.mem_cons.1 mem with here | later
      · cases valid with
        | true => exact .inr (here ▸ List.mem_cons_self)
        | false => exact .inl here
      · exact (ih later).imp_right (List.mem_cons_of_mem w)

theorem isVariant_masked {validity : List Bool} {values : List Value}
    (plain : ∀ v ∈ values, v.isVariant = false) : ∀ v ∈ masked validity values,
    v.isVariant = false := by
  intro v mem
  rcases mem_masked mem with rfl | inside
  · rfl
  · exact plain v inside

/-- Only unions show variants. -/
theorem isVariant_rows {c : Column} (other : c.dataType.isUnion = false) :
    ∀ v ∈ c.rows, v.isVariant = false := by
  have slots {α : Type} (f : α → Value) (plain : ∀ a, (f a).isVariant = false)
      (as : List (Option α)) : ∀ v ∈ as.map (Value.ofSlot f), v.isVariant = false := by
    rintro v mem
    obtain ⟨_ | a, -, rfl⟩ := List.mem_map.1 mem
    · rfl
    · exact plain a
  have lists {α : Type} (f : α → Value) (plain : ∀ a, (f a).isVariant = false)
      (as : List α) : ∀ v ∈ as.map f, v.isVariant = false := by
    rintro v mem
    obtain ⟨a, -, rfl⟩ := List.mem_map.1 mem
    exact plain a
  cases c with
  | null length =>
    rintro v mem
    rw [rows] at mem
    rw [List.eq_of_mem_replicate mem]
    rfl
  | boolean s => exact slots .boolean (fun _ => rfl) s
  | number type s => exact slots (.number type) (fun _ => rfl) s
  | text width s => exact slots .text (fun _ => rfl) s
  | binary width s => exact slots .binary (fun _ => rfl) s
  | list width item validity offsets items =>
    rw [rows]
    exact isVariant_masked (lists .list (fun _ => rfl) _)
  | fixedSizeList item size validity items =>
    rw [rows]
    exact isVariant_masked (lists .list (fun _ => rfl) _)
  | struct fields validity children =>
    rw [rows]
    exact isVariant_masked (lists _ (fun _ => rfl) _)
  | union vs ids offsets cs => cases other
  | foreign type =>
    rintro v mem
    cases mem

/-- Marks say which rows show no value, if what stands under the marks does. -/
theorem isMissing_masked {validity : List Bool} {values : List Value}
    (same : values.length = validity.length) (present : ∀ v ∈ values, v.isMissing = false) :
    (masked validity values).map Value.isMissing = validity.map not := by
  induction validity generalizing values with
  | nil => rfl
  | cons valid validity ih =>
    cases values with
    | nil => cases same
    | cons v values =>
      have first := present v List.mem_cons_self
      have rest := ih (Nat.succ.inj same) fun w mem => present w (List.mem_cons_of_mem v mem)
      rw [List.map_cons, ← rest]
      cases valid with
      | true => exact congrArg (· :: _) first
      | false => rfl

/-- Outside of unions, the missing rows are those that show no value. -/
theorem Sound.missing_eq_isMissing {c : Column} (sound : c.Sound)
    (other : c.dataType.isUnion = false) : c.missing = c.rows.map Value.isMissing := by
  have lists {α : Type} (f : α → Value) (present : ∀ a, (f a).isMissing = false)
      (as : List α) : ∀ v ∈ as.map f, v.isMissing = false := by
    rintro v mem
    obtain ⟨a, -, rfl⟩ := List.mem_map.1 mem
    exact present a
  cases c with
  | null length => exact (holds_null length).missing
  | boolean s => exact (holds_boolean s).missing
  | number type s => exact (holds_number type s).missing
  | text width s => exact map_isNone (fun _ => rfl) s
  | binary width s => exact map_isNone (fun _ => rfl) s
  | list width item validity offsets items =>
    have whole := length_rows sound
    rw [Sound] at sound
    obtain ⟨⟨-, stops, rfl, same, -⟩, -⟩ := sound
    rw [missing, rows, isMissing_masked _ (lists .list (fun _ => rfl) _)]
    rw [List.length_map, length_runs, same]
  | fixedSizeList item size validity items =>
    rw [missing, rows, isMissing_masked _ (lists .list (fun _ => rfl) _)]
    rw [List.length_map, length_chunks]
  | struct fields validity children =>
    rw [missing, rows, isMissing_masked _ (lists _ (fun _ => rfl) _)]
    rw [List.length_map, List.length_range]
  | union vs ids offsets cs => cases other
  | foreign type => cases sound

theorem missingAs_of_plain {c : Column} (other : c.dataType.isUnion = false) :
    ∀ v ∈ c.rows, v.missingAs c.dataType = v.isMissing :=
  fun v mem => Value.missingAs_eq_isMissing _ (isVariant_rows other v mem)

theorem Sound.missing_eq_of_plain {c : Column} (sound : c.Sound)
    (other : c.dataType.isUnion = false) : c.missing = c.rows.map (·.missingAs c.dataType) := by
  rw [sound.missing_eq_isMissing other]
  apply List.map_congr_left
  intro v mem
  rw [missingAs_of_plain other v mem]

/-! ## Values of unions -/

section Union

variable {variants : List Variant} {ids : List TypeId} {offsets : List Nat}
variable {children : List Column}

/-- The variant that a type id selects is the first with that id. -/
theorem find?_of_variantIndex? {id : TypeId} {index : Nat}
    (declared : variantIndex? variants id = some index) :
    ∃ v, variants[index]? = some v ∧ v.id = id ∧ variants.find? (·.id == id) = some v := by
  induction variants generalizing index with
  | nil => cases declared
  | cons v vs ih =>
    rw [variantIndex?, List.findIdx?_cons] at declared
    cases here : v.id == id with
    | true =>
      rw [if_pos here] at declared
      cases declared
      exact ⟨v, rfl, by simpa using here, List.find?_cons_of_pos here⟩
    | false =>
      rw [if_neg (by simp [here])] at declared
      obtain ⟨index, later, rfl⟩ := Option.map_eq_some_iff.1 declared
      obtain ⟨w, at', same, found⟩ := ih later
      refine ⟨w, at', same, ?_⟩
      rw [List.find?_cons, here, found]

/-- Every row of a union that was put together selects a declared variant and a value that the
variant's child has. -/
theorem selects_of_unionOf {c : Column} (made : unionOf variants ids offsets children = .ok c)
    {i : Nat} {id : TypeId} {offset : Nat} (row : ids[i]? = some id)
    (position : offsets[i]? = some offset) :
    ∃ index child, variantIndex? variants id = some index ∧ children[index]? = some child ∧
      offset < child.length := by
  simp only [unionOf] at made
  split at made
  · cases made
  · next declared =>
    split at made
    · cases made
    · next inside =>
      have here : (ids.map (variantLength? variants children))[i]? =
          some (variantLength? variants children id) := by
        rw [List.getElem?_map, row]
        rfl
      have pair : (variantLength? variants children id, offset) ∈
          (ids.map (variantLength? variants children)).zip offsets := by
        refine List.mem_of_getElem? (i := i) ?_
        rw [List.getElem?_zip_eq_some]
        exact ⟨here, position⟩
      cases known : variantLength? variants children id with
      | none =>
        refine absurd (List.any_eq_true.2 ⟨_, List.mem_of_getElem? here, ?_⟩) declared
        rw [known]
        rfl
      | some length =>
        have fits : ¬ length ≤ offset := by
          intro beyond
          refine absurd (List.any_eq_true.2 ⟨_, pair, ?_⟩) inside
          simpa [known] using beyond
        rw [variantLength?_map] at known
        obtain ⟨index, found, at'⟩ := Option.bind_eq_some_iff.1 known
        rw [List.getElem?_map] at at'
        obtain ⟨child, column, rfl⟩ := Option.map_eq_some_iff.1 at'
        exact ⟨index, child, found, column, Nat.lt_of_not_le fits⟩

theorem selected_getElem? {α : Type} (entries : List (List α)) {list : List α} {i index : Nat}
    {id : TypeId} {offset : Nat} (row : ids[i]? = some id) (position : offsets[i]? = some offset)
    (declared : variantIndex? variants id = some index) (entry : entries[index]? = some list) :
    (selected variants ids offsets entries)[i]? = some list[offset]? := by
  simp only [selected, List.getElem?_zipWith, row, position, declared, entry, bind,
    Option.bind_some]

/-- What a row of a sound union shows, and whether it is missing: both are told by the row of the
variant that it selects. -/
theorem Sound.union_row (sound : (Column.union variants ids offsets children).Sound) {i : Nat}
    (inside : i < ids.length) :
    ∃ (v : Variant) (child : Column) (offset : Nat), v ∈ variants ∧ child ∈ children ∧
      child.dataType = v.field.type ∧ Variant.typeOf variants v.id = v.field.type ∧
      offset < child.length ∧
      (Column.union variants ids offsets children).rows[i]? =
        some (.variant v.id v.field.name (child.rows[offset]?.getD .missing)) ∧
      (Column.union variants ids offsets children).missing[i]? =
        some (countsMissing variants && child.missing[offset]?.getD false) := by
  rw [Sound] at sound
  obtain ⟨⟨types, same, made⟩, -⟩ := sound
  have row : ids[i]? = some ids[i] := List.getElem?_eq_getElem inside
  have position : offsets[i]? = some offsets[i] := List.getElem?_eq_getElem (same ▸ inside)
  obtain ⟨index, child, declared, column, fits⟩ := selects_of_unionOf made row position
  obtain ⟨v, at', id, found⟩ := find?_of_variantIndex? declared
  have type : child.dataType = v.field.type := by
    have both := congrArg (·[index]?) types
    simp only [List.getElem?_map, column, at', Option.map_some] at both
    exact Option.some.inj both
  refine ⟨v, child, offsets[i], List.mem_of_getElem? at', List.mem_of_getElem? column, type, ?_,
    fits, ?_, ?_⟩
  · rw [Variant.typeOf, id, found]
    rfl
  · have shown := selected_getElem? (children.map rows) row position declared
      (by rw [List.getElem?_map, column]; rfl)
    rw [rows, rowsAll_eq_map, List.getElem?_zipWith, row, shown]
    simp only [variantRow, found, id]
    rfl
  · rw [missing, missingAll_eq_map]
    cases counts : countsMissing variants with
    | false =>
      rw [if_neg Bool.false_ne_true, Bool.false_and]
      rw [List.getElem?_replicate, if_pos inside]
    | true =>
      have shown := selected_getElem? (children.map missing) row position declared
        (by rw [List.getElem?_map, column]; rfl)
      rw [if_pos rfl, List.getElem?_map, shown]
      rfl

end Union

/-! ## Sound columns -/

mutual

/-- In a sound column the missing rows are those whose values count as missing. -/
theorem Sound.missing_eq : {c : Column} → c.Sound →
    c.missing = c.rows.map (·.missingAs c.dataType)
  | .union variants ids offsets children, sound => by
    have inner : ∀ c ∈ children, c.missing = c.rows.map (·.missingAs c.dataType) := by
      rw [Sound] at sound
      exact missingAll_eq sound.2
    apply List.ext_getElem?
    intro i
    by_cases inside : i < ids.length
    · obtain ⟨v, child, offset, -, mem, type, selects, fits, row, marked⟩ := sound.union_row inside
      have all : SoundAll children := by
        rw [Sound] at sound
        exact sound.2
      have shown : offset < child.rows.length := by rwa [length_rows (all.sound mem)]
      rw [List.getElem?_map, row, marked, inner child mem, List.getElem?_map,
        List.getElem?_eq_getElem shown, Option.map_some, Option.map_some, Option.getD_some,
        Option.getD_some, dataType, Value.missingAs_variant, selects, type]
    · have rows := length_rows sound
      have missing := length_missing sound
      rw [length] at rows missing
      rw [List.getElem?_eq_none (by omega), List.getElem?_eq_none (by rw [List.length_map]; omega)]
  | .null _, sound => sound.missing_eq_of_plain rfl
  | .boolean _, sound => sound.missing_eq_of_plain rfl
  | .number _ _, sound => sound.missing_eq_of_plain rfl
  | .text _ _, sound => sound.missing_eq_of_plain rfl
  | .binary _ _, sound => sound.missing_eq_of_plain rfl
  | .list _ _ _ _ _, sound => sound.missing_eq_of_plain rfl
  | .fixedSizeList _ _ _ _, sound => sound.missing_eq_of_plain rfl
  | .struct _ _ _, sound => sound.missing_eq_of_plain rfl
  | .foreign _, sound => by cases sound

theorem missingAll_eq : {cs : List Column} → SoundAll cs →
    ∀ c ∈ cs, c.missing = c.rows.map (·.missingAs c.dataType)
  | [], _, _, mem => by cases mem
  | c :: cs, all, d, mem => by
    rcases List.mem_cons.1 mem with here | later
    · exact here ▸ all.1.missing_eq
    · exact missingAll_eq all.2 d later

end

mutual

/-- Where every union is looked through, the values that count as missing are those that show
none. -/
theorem Sound.missingAs_rows : {c : Column} → c.Sound → c.dataType.Counted →
    ∀ v ∈ c.rows, v.missingAs c.dataType = v.isMissing
  | .union variants ids offsets children, sound, counted => by
    rw [dataType, DataType.Counted] at counted
    intro v mem
    obtain ⟨i, inside, here⟩ := List.getElem_of_mem mem
    rw [length_rows sound, length] at inside
    obtain ⟨w, child, offset, declared, column, type, selects, fits, row, -⟩ :=
      sound.union_row inside
    have all : SoundAll children := by
      rw [Sound] at sound
      exact sound.2
    have shown : offset < child.rows.length := by rwa [length_rows (all.sound column)]
    have inner : child.dataType.Counted := type ▸ counted.2.type declared
    have value := missingAs_rowsAll all child column inner _ (List.getElem_mem shown)
    obtain rfl : v = .variant w.id w.field.name child.rows[offset] := by
      rw [← here, ← Option.some.injEq, ← List.getElem?_eq_getElem, row,
        List.getElem?_eq_getElem shown, Option.getD_some]
    rw [dataType, Value.missingAs_variant, counted.1, Bool.true_and, selects, ← type, value,
      Value.isMissing]
  | .null _, _, _ => missingAs_of_plain rfl
  | .boolean _, _, _ => missingAs_of_plain rfl
  | .number _ _, _, _ => missingAs_of_plain rfl
  | .text _ _, _, _ => missingAs_of_plain rfl
  | .binary _ _, _, _ => missingAs_of_plain rfl
  | .list _ _ _ _ _, _, _ => missingAs_of_plain rfl
  | .fixedSizeList _ _ _ _, _, _ => missingAs_of_plain rfl
  | .struct _ _ _, _, _ => missingAs_of_plain rfl
  | .foreign _, sound, _ => by cases sound

theorem missingAs_rowsAll : {cs : List Column} → SoundAll cs → ∀ c ∈ cs, c.dataType.Counted →
    ∀ v ∈ c.rows, v.missingAs c.dataType = v.isMissing
  | [], _, _, mem, _ => by cases mem
  | c :: cs, all, d, mem, counted => by
    rcases List.mem_cons.1 mem with here | later
    · rw [here] at counted ⊢
      exact all.1.missingAs_rows counted
    · exact missingAs_rowsAll all.2 d later counted

end

end Column

end TypedColumns
