import TypedColumns.Proofs.Column.Compaction
import TypedColumns.Proofs.Stream.Buffers

/-!
# Columns read back

A sound column in memory is read back from its nodes and buffers, and what follows them is left
(`readColumn_parts`). The reader takes nodes and buffers in the order in which the writer gives
them, so the induction is on the column, with whatever follows its parts.
-/

namespace TypedColumns.Stream

open Column (Sound SoundAll InMemory InMemoryAll fieldFault? fieldFault?_cons)

/-! ## Taking parts from the front -/

theorem Parts.append_assoc (p q r : Parts) : p ++ q ++ r = p ++ (q ++ r) := by
  show Parts.mk _ _ = Parts.mk _ _
  rw [Parts.mk.injEq]
  exact ⟨List.append_assoc _ _ _, List.append_assoc _ _ _⟩

@[simp] theorem Parts.nil_append (p : Parts) : (⟨[], []⟩ : Parts) ++ p = p := rfl

@[simp] theorem Parts.empty_append (p : Parts) : Parts.empty ++ p = p := rfl

@[simp] theorem takeNode?_own (n : Node) (bs : List Bytes) (p : Parts) :
    takeNode? (⟨[n], bs⟩ ++ p) = some (n, ⟨[], bs⟩ ++ p) := rfl

@[simp] theorem takeBuffer?_own (b : Bytes) (bs : List Bytes) (p : Parts) :
    takeBuffer? (⟨[], b :: bs⟩ ++ p) = some (b, ⟨[], bs⟩ ++ p) := rfl

/-! ## Flat columns -/

section Flat

variable {version : Version} {rest : Parts}

theorem readValidity_slots {α : Type} {slots : List (Option α)}
    (small : slots.length < Column.addressBound) :
    readValidity ⟨slots.length, (slots.map Option.isSome).count false⟩
      (validityBuffer (slots.map Option.isSome)) = some (slots.map Option.isSome) := by
  have count : (slots.map Option.isSome).length < Column.addressBound := by
    rwa [List.length_map]
  have marks := readValidity_validityBuffer count
  rwa [List.length_map] at marks

theorem readColumn_null (length : Nat) :
    readColumn version .null (parts version (.null length) ++ rest) =
      some (.null length, rest) := by
  rw [readColumn, parts]
  simp only [takeNode?_own, Option.bind_eq_bind, Option.bind_some, if_true, Option.pure_def,
    Parts.nil_append]

theorem readColumn_boolean {slots : List (Option Bool)}
    (small : slots.length < Column.addressBound) :
    readColumn version .boolean (parts version (.boolean slots) ++ rest) =
      some (.boolean slots, rest) := by
  have values := Bytes.Bitmap.bits_pack (slots.map (·.getD false)) []
  have marks := readValidity_slots small
  rw [List.length_map, List.append_nil] at values
  rw [readColumn, parts]
  simp only [takeNode?_own, takeBuffer?_own, Option.bind_eq_bind, Option.bind_some, values,
    marks, slotsOf_getD, Option.pure_def, Parts.nil_append]

theorem readColumn_number {t : NumberType} {slots : List (Option t.Bits)}
    (small : slots.length < Column.addressBound) :
    readColumn version (.number t) (parts version (.number t slots) ++ rest) =
      some (.number t slots, rest) := by
  rw [readColumn, parts]
  simp only [takeNode?_own, takeBuffer?_own, Option.bind_eq_bind, Option.bind_some,
    readNumbers_numberBuffer, readValidity_slots small, slotsOf_getD, Option.pure_def,
    Parts.nil_append]

/-- Columns of texts and of byte strings differ in what their runs are read as. -/
theorem readRuns_runParts {α : Type} {width : OffsetWidth} {slots : List (Option Bytes)}
    (read : Bytes → List Nat → Option (List α)) {values : List α} (rest : Parts)
    (small : slots.length < Column.addressBound)
    (inside : (slots.flatMap (·.getD [])).length < width.bound)
    (known : read (slots.map (·.getD [])).flatten (runOffsets 0 (slots.map (·.getD []))) =
      some values) :
    readRuns width read (runParts width slots ++ rest) =
      some (slotsOf (slots.map Option.isSome) values, rest) := by
  have climbs := climbs_runStops 0 (slots.map (·.getD []))
  rw [Nat.zero_add] at climbs
  have fits : ∀ offset ∈ 0 :: runStops 0 (slots.map (·.getD [])), offset < width.bound :=
    fun offset mem => Nat.lt_of_le_of_lt (le_of_mem_climbs climbs mem) (by
      rwa [List.flatMap_def] at inside)
  have offsets := readOffsets_offsetBuffer climbs fits
  rw [length_runStops, List.length_map, ← runOffsets_eq] at offsets
  rw [readRuns, runParts]
  simp only [takeNode?_own, takeBuffer?_own, Option.bind_eq_bind, Option.bind_some, offsets, known,
    readValidity_slots small, Option.pure_def, Parts.nil_append]

theorem readColumn_text {width : OffsetWidth} {slots : List (Option String)}
    (small : slots.length < Column.addressBound)
    (inside : (slots.flatMap fun slot => (slot.map Bytes.ofString).getD []).length < width.bound) :
    readColumn version (.text width) (parts version (.text width slots) ++ rest) =
      some (.text width slots, rest) := by
  -- A missing text is written like an empty one.
  have runs : (slots.map (·.map Bytes.ofString)).map (·.getD []) =
      (slots.map (·.getD "")).map Bytes.ofString := by
    rw [List.map_map, List.map_map]
    apply List.map_congr_left
    intro slot _
    cases slot with
    | none => rfl
    | some s => rfl
  have known := readTexts_runOffsets (slots.map (·.getD ""))
  rw [← runs] at known
  have count : (slots.map (·.map Bytes.ofString)).length < Column.addressBound := by
    rwa [List.length_map]
  have size : ((slots.map (·.map Bytes.ofString)).flatMap (·.getD [])).length < width.bound := by
    rwa [List.flatMap_map]
  have read := readRuns_runParts readTexts rest count size known
  have marks : (slots.map (·.map Bytes.ofString)).map Option.isSome = slots.map Option.isSome := by
    rw [List.map_map]
    apply List.map_congr_left
    intro slot _
    exact Option.isSome_map
  rw [marks, slotsOf_getD] at read
  rw [readColumn, parts]
  simp only [read, Option.bind_eq_bind, Option.bind_some, Option.pure_def]

theorem readColumn_binary {width : OffsetWidth} {slots : List (Option Bytes)}
    (small : slots.length < Column.addressBound)
    (inside : (slots.flatMap (·.getD [])).length < width.bound) :
    readColumn version (.binary width) (parts version (.binary width slots) ++ rest) =
      some (.binary width slots, rest) := by
  have runs := byteRuns_runOffsets [] (slots.map (·.getD []))
  have read := readRuns_runParts (fun bs offsets => some (byteRuns bs offsets)) rest small inside
    (congrArg some runs)
  rw [slotsOf_getD] at read
  rw [readColumn, parts]
  simp only [read, Option.bind_eq_bind, Option.bind_some, Option.pure_def]

end Flat

/-! ## Columns with children -/

theorem readFieldColumn_eq (version : Version) (f : Field) (p : Parts) :
    readFieldColumn version f p = readColumn version f.type p := by
  cases f
  rw [readFieldColumn]

/-- A sound struct is put together from its marks, or without them if no row is absent. -/
theorem structOf_marks {fields : List Field} {validity : List Bool} {children : List Column}
    (nonempty : children ≠ []) (number : children.length = fields.length)
    (clean : fieldFault? validity fields children = none) :
    Column.structOf fields (if validity.count false = 0 then none else some validity) children =
      .ok (.struct fields validity children) := by
  cases children with
  | nil => exact absurd rfl nonempty
  | cons first others =>
    have rows := Column.lengths_of_fieldFault? number clean first List.mem_cons_self
    have marks : (if validity.count false = 0 then none else some validity).getD
        (List.replicate first.length true) = validity := by
      split
      · next clear =>
        rw [Option.getD_none, rows, eq_replicate_of_count clear]
      · rfl
    simp only [Column.structOf, marks]
    rw [if_neg fun other => other rows.symm, clean]

theorem map_toInt8_toUInt8 (ids : List TypeId) :
    (ids.map (·.toUInt8)).map (·.toInt8) = ids := by
  rw [List.map_map]
  exact (List.map_congr_left fun id _ => Int8.toInt8_toUInt8 id).trans (List.map_id ids)

mutual

/-- A sound column is read back from its parts, and what follows them is left. -/
theorem readColumn_parts (version : Version) : {c : Column} → c.Sound → c.InMemory →
    (rest : Parts) → readColumn version c.dataType (parts version c ++ rest) = some (c, rest)
  | .null length, _, _, _ => readColumn_null length
  | .boolean _, _, small, _ => readColumn_boolean small
  | .number _ _, _, small, _ => readColumn_number small
  | .text _ _, _, small, _ => readColumn_text small.1 small.2
  | .binary _ _, _, small, _ => readColumn_binary small.1 small.2
  | .list width item validity _ items, sound, small, rest => by
    rw [Sound] at sound
    rw [InMemory] at small
    obtain ⟨⟨named, stops, rfl, same, climbs⟩, sound⟩ := sound
    have offsets := readOffsets_offsetBuffer climbs small.1.2
    rw [same] at offsets
    rw [Column.dataType, readColumn, parts, named, Parts.append_assoc]
    simp only [takeNode?_own, takeBuffer?_own, Parts.nil_append, Option.bind_eq_bind,
      Option.bind_some, readFieldColumn_eq, Field.item, readColumn_parts version sound small.2 rest,
      offsets, readValidity_validityBuffer small.1.1, complete, Bool.true_or, if_true,
      Option.pure_def]
  | .fixedSizeList item size validity items, sound, small, rest => by
    rw [Sound] at sound
    rw [InMemory] at small
    obtain ⟨⟨named, sized, even⟩, sound⟩ := sound
    have enough : ¬ (size < 0 ∨ items.length < items.length) := by omega
    rw [Column.dataType, readColumn, parts, named, Parts.append_assoc]
    simp only [takeNode?_own, takeBuffer?_own, Parts.nil_append, Option.bind_eq_bind,
      Option.bind_some, readFieldColumn_eq, Field.item, readColumn_parts version sound small.2 rest,
      readValidity_validityBuffer small.1.1, completeItems, complete, Bool.true_or, if_true,
      if_neg enough, Option.pure_def, ← even, Column.slice_length sound]
  | .struct fields validity children, sound, small, rest => by
    rw [Sound] at sound
    rw [InMemory] at small
    obtain ⟨⟨nonempty, number, clean⟩, sound⟩ := sound
    have several : children.isEmpty = false := List.isEmpty_eq_false_iff.2 nonempty
    rw [Column.dataType, readColumn, parts, Parts.append_assoc]
    simp only [takeNode?_own, takeBuffer?_own, Parts.nil_append, Option.bind_eq_bind,
      Option.bind_some, readFieldColumns_parts version sound small.2 number clean rest,
      readMarks_validityBuffer, several, structOf_marks nonempty number clean, Option.pure_def]
    rfl
  | .union variants ids offsets children, sound, small, rest => by
    rw [Sound] at sound
    rw [InMemory] at small
    obtain ⟨⟨types, same, made⟩, sound⟩ := sound
    have fits : ∀ offset ∈ offsets, offset < Nat.pow 256 4 :=
      fun offset mem => Nat.lt_trans (small.1.2 offset mem) (by decide)
    have read := words_ofNat fits
    rw [same] at read
    have enough : ¬ ((ids.map (·.toUInt8)).length < ids.length ∨
        (offsets.flatMap (Bytes.ofNat 4)).length < ids.length * 4) := by
      rw [List.length_map, length_flatMap_ofNat, same]
      omega
    have all : (ids.map (·.toUInt8)).take ids.length = ids.map (·.toUInt8) :=
      List.take_of_length_le (Nat.le_of_eq (List.length_map _))
    rw [Column.dataType, readColumn]
    cases version <;>
      rw [parts, Parts.append_assoc] <;>
      simp only [takeNode?_own, takeBuffer?_own, Parts.nil_append, Option.bind_eq_bind,
        Option.bind_some, Option.map_some, List.cons_append, List.nil_append, if_neg enough, all,
        map_toInt8_toUInt8, read, readVariantColumns_parts _ sound small.2 types rest, made,
        Option.pure_def]
  | .foreign _, sound, _, _ => sound.elim

theorem readFieldColumns_parts (version : Version) : {cs : List Column} → SoundAll cs →
    InMemoryAll cs → {fs : List Field} → {validity : List Bool} → cs.length = fs.length →
    fieldFault? validity fs cs = none → (rest : Parts) →
    readFieldColumns version fs (partsOfAll version cs ++ rest) = some (cs, rest)
  | [], _, _, [], _, _, _, _ => by
    rw [readFieldColumns, partsOfAll, Parts.empty_append]
  | [], _, _, _ :: _, _, same, _, _ => nomatch same
  | _ :: _, _, _, [], _, same, _, _ => nomatch same
  | _ :: _, sound, small, f :: _, _, same, clean, rest => by
    obtain ⟨⟨type, -⟩, others⟩ := fieldFault?_cons.1 clean
    have own := readColumn_parts version sound.1 small.1
    rw [type] at own
    rw [readFieldColumns, partsOfAll, Parts.append_assoc, readFieldColumn_eq]
    simp only [own, Option.bind_eq_bind, Option.bind_some, Option.pure_def,
      readFieldColumns_parts version sound.2 small.2 (Nat.succ.inj same) others rest]

theorem readVariantColumns_parts (version : Version) : {cs : List Column} → SoundAll cs →
    InMemoryAll cs → {vs : List Variant} → cs.map Column.dataType = vs.map (·.field.type) →
    (rest : Parts) →
    readVariantColumns version vs (partsOfAll version cs ++ rest) = some (cs, rest)
  | [], _, _, [], _, _ => by
    rw [readVariantColumns, partsOfAll, Parts.empty_append]
  | [], _, _, _ :: _, types, _ => nomatch types
  | _ :: _, _, _, [], types, _ => nomatch types
  | c :: _, sound, small, ⟨_, f⟩ :: _, types, rest => by
    obtain ⟨type, others⟩ := List.cons.inj types
    have own := readColumn_parts version sound.1 small.1
    rw [show c.dataType = f.type from type] at own
    rw [readVariantColumns, partsOfAll, Parts.append_assoc, readFieldColumn_eq]
    simp only [own, Option.bind_eq_bind, Option.bind_some, Option.pure_def,
      readVariantColumns_parts version sound.2 small.2 others rest]

end

end TypedColumns.Stream
