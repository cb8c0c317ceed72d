import TypedColumns.Bytes.Utf8
import TypedColumns.Column.Check

/-!
# Sound columns

`Column.Sound` says that what a column records of its rows goes with its children, at every depth:
the runs of a list follow each other within its items, a list of fixed size has as many items as its
rows take, the children of a struct fit their fields, and the rows of a union select values that are
there. Columns of types whose values are not read are not sound.

`Column.InMemory` bounds what a column counts by the width of the numbers that it is counted with:
rows and positions by that of an address, offsets by their own width, the size of a list of fixed
size by four bytes.
-/

namespace TypedColumns

/-- The number past the last offset of a width; offsets have a sign. -/
def OffsetWidth.bound : OffsetWidth → Nat
  | .narrow => 0x8000_0000
  | .wide => 0x8000_0000_0000_0000

namespace Column

/-- The number past the last position in memory. -/
def addressBound : Nat := 0x8000_0000_0000_0000

/-- Runs that follow each other, the first from `start` on, and stay within `limit`. -/
def Climbs (limit : Nat) : Nat → List Nat → Prop
  | start, [] => start ≤ limit
  | start, stop :: rest => start ≤ stop ∧ Climbs limit stop rest

mutual

/-- The column's own records go with its children, and so do theirs. -/
def Sound : Column → Prop
  | .null _ | .boolean _ | .number _ _ | .text _ _ | .binary _ _ => True
  | .list _ item validity offsets items =>
    (item = .item items.dataType ∧
      ∃ stops, offsets = 0 :: stops ∧ stops.length = validity.length ∧
        Climbs items.length 0 stops) ∧
    items.Sound
  | .fixedSizeList item size validity items =>
    (item = .item items.dataType ∧ 0 ≤ size ∧ items.length = validity.length * size.toNat) ∧
    items.Sound
  | .struct fields validity children =>
    (children ≠ [] ∧ children.length = fields.length ∧
      fieldFault? validity fields children = none) ∧
    SoundAll children
  | .union variants ids offsets children =>
    (children.map dataType = variants.map (·.field.type) ∧ offsets.length = ids.length ∧
      unionOf variants ids offsets children = .ok (.union variants ids offsets children)) ∧
    SoundAll children
  | .foreign _ => False

/-- Each of the columns is sound. -/
def SoundAll : List Column → Prop
  | [] => True
  | c :: cs => c.Sound ∧ SoundAll cs

end

mutual

/-- Everything that the column counts is within the numbers that it is counted with. -/
def InMemory : Column → Prop
  | .null length => length < addressBound
  | .boolean slots => slots.length < addressBound
  | .number _ slots => slots.length < addressBound
  | .text width slots =>
    slots.length < addressBound ∧
      (slots.flatMap fun slot => (slot.map Bytes.ofString).getD []).length < width.bound
  | .binary width slots =>
    slots.length < addressBound ∧ (slots.flatMap (·.getD [])).length < width.bound
  | .list width _ validity offsets items =>
    (validity.length < addressBound ∧ ∀ offset ∈ offsets, offset < width.bound) ∧ items.InMemory
  | .fixedSizeList _ size validity items =>
    (validity.length < addressBound ∧ size < 0x8000_0000) ∧ items.InMemory
  | .struct _ validity children => validity.length < addressBound ∧ InMemoryAll children
  | .union _ ids offsets children =>
    (ids.length < addressBound ∧ ∀ offset ∈ offsets, offset < 0x8000_0000) ∧ InMemoryAll children
  | .foreign _ => True

/-- Each of the columns is in memory. -/
def InMemoryAll : List Column → Prop
  | [] => True
  | c :: cs => c.InMemory ∧ InMemoryAll cs

end

/-! ## What the checks ask -/

/-- Two checks one after the other find no fault just if neither does. -/
theorem no_fault_iff {φ : Type} {first second : Option φ} :
    (first <|> second) = none ↔ first = none ∧ second = none := by
  rw [Option.orElse_eq_orElse, Option.orElse_eq_or, Option.or_eq_none_iff]

theorem Climbs.start_le {limit start : Nat} {stops : List Nat} (climbs : Climbs limit start stops) :
    start ≤ limit := by
  induction stops generalizing start with
  | nil => exact climbs
  | cons stop rest ih => exact Nat.le_trans climbs.1 (ih climbs.2)

/-- Offsets without a fault climb. -/
theorem climbs_of_offsetsFault? {items position start : Nat} {stops : List Nat}
    (inside : start ≤ items) (clean : offsetsFault? items position start stops = none) :
    Climbs items start stops := by
  induction stops generalizing position start with
  | nil => exact inside
  | cons stop rest ih =>
    rw [offsetsFault?] at clean
    split at clean
    · cases clean
    · next within =>
      split at clean
      · cases clean
      · next order => exact ⟨Nat.le_of_not_lt order, ih (Nat.le_of_not_lt within) clean⟩

/-- What is asked of one child of a struct. -/
theorem fieldFault?_cons {validity : List Bool} {f : Field} {fs : List Field} {c : Column}
    {cs : List Column} :
    fieldFault? validity (f :: fs) (c :: cs) = none ↔
      (c.dataType = f.type ∧ c.length = validity.length ∧
        (f.nullable = true ∨ unmasked validity c.missing = false)) ∧
      fieldFault? validity fs cs = none := by
  rw [fieldFault?]
  by_cases type : c.dataType = f.type
  · by_cases length : c.length = validity.length
    · by_cases required : (!f.nullable && unmasked validity c.missing) = true
      · have both : f.nullable = false ∧ unmasked validity c.missing = true := by
          simpa using required
        simp [type, length, both.1, both.2]
      · have either : f.nullable = true ∨ unmasked validity c.missing = false := by
          cases nullable : f.nullable with
          | true => exact Or.inl rfl
          | false => exact Or.inr (by simpa [nullable] using required)
        rw [if_neg (fun other => other type), if_neg (fun other => other length), if_neg required]
        exact ⟨fun rest => ⟨⟨type, length, either⟩, rest⟩, fun all => all.2⟩
    · simp [type, length]
  · simp [type]

/-- What is asked of the children of a struct. -/
theorem fieldFault?_iff {validity : List Bool} {fields : List Field} {columns : List Column}
    (same : columns.length = fields.length) : fieldFault? validity fields columns = none ↔
      ∀ (i : Nat) (f : Field) (c : Column), fields[i]? = some f → columns[i]? = some c →
        c.dataType = f.type ∧ c.length = validity.length ∧
          (f.nullable = true ∨ unmasked validity c.missing = false) := by
  induction fields generalizing columns with
  | nil =>
    obtain rfl := List.length_eq_zero_iff.1 same
    exact ⟨fun _ i f c field => (by cases field), fun _ => rfl⟩
  | cons f fs ih =>
    cases columns with
    | nil => cases same
    | cons c cs =>
      rw [fieldFault?_cons, ih (Nat.succ.inj same)]
      constructor
      · rintro ⟨first, others⟩ i g d field column
        cases i with
        | zero =>
          cases field
          cases column
          exact first
        | succ i => exact others i g d field column
      · intro all
        exact ⟨all 0 f c rfl rfl, fun i g d => all (i + 1) g d⟩

/-- What is asked of the marks and children of a struct. -/
theorem structOf_cons {fields : List Field} {marks : Option (List Bool)} {first : Column}
    {rest : List Column} {c : Column} : structOf fields marks (first :: rest) = .ok c ↔
      (marks.getD (List.replicate first.length true)).length = first.length ∧
      fieldFault? (marks.getD (List.replicate first.length true)) fields (first :: rest) = none ∧
      c = .struct fields (marks.getD (List.replicate first.length true)) (first :: rest) := by
  rw [structOf]
  generalize marks.getD (List.replicate first.length true) = validity
  by_cases counted : validity.length = first.length
  · rw [if_neg fun other => other counted]
    cases fieldFault? validity fields (first :: rest) with
    | some fault => simp
    | none =>
      constructor
      · intro made
        exact ⟨counted, rfl, (Except.ok.inj made).symm⟩
      · rintro ⟨-, -, rfl⟩
        rfl
  · rw [if_pos counted]
    constructor
    · intro made
      cases made
    · rintro ⟨same, -⟩
      exact absurd same counted

/-- A struct that was put together is one of its fields and children. -/
theorem structOf_eq {fields : List Field} {marks : Option (List Bool)} {children : List Column}
    {c : Column} (made : structOf fields marks children = .ok c) :
    ∃ validity, c = .struct fields validity children := by
  cases children with
  | nil => cases made
  | cons first rest =>
    rw [structOf] at made
    split at made
    · cases made
    · split at made
      · cases made
      · exact ⟨_, (Except.ok.inj made).symm⟩

/-- A union that was put together is the one of its parts. -/
theorem unionOf_eq {variants : List Variant} {ids : List TypeId} {offsets : List Nat}
    {children : List Column} {c : Column} (made : unionOf variants ids offsets children = .ok c) :
    c = .union variants ids offsets children := by
  unfold unionOf at made
  simp only at made
  split at made
  · cases made
  · split at made
    · cases made
    · exact (Except.ok.inj made).symm

/-- What is asked of the children of a union. -/
theorem types_of_variantFault? {union : DataType} {variants : List Variant} {children : List Column}
    (same : children.length = variants.length)
    (clean : variantFault? union variants children = none) :
    children.map dataType = variants.map (·.field.type) ∧ typeFaultAmong? children = none := by
  induction variants generalizing children with
  | nil =>
    obtain rfl := List.length_eq_zero_iff.1 same
    exact ⟨rfl, by rw [typeFaultAmong?]⟩
  | cons v vs ih =>
    cases children with
    | nil => cases same
    | cons c cs =>
      rw [variantFault?] at clean
      split at clean
      · cases clean
      · next type =>
        obtain ⟨own, others⟩ := no_fault_iff.1 clean
        obtain ⟨types, inside⟩ := ih (Nat.succ.inj same) others
        constructor
        · rw [List.map_cons, List.map_cons, types, Decidable.not_not.1 type]
        · rw [typeFaultAmong?, own]
          exact inside

end Column

end TypedColumns
