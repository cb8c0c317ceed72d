import TypedColumns.Column.Compact
import TypedColumns.Column.Rows
import TypedColumns.Proofs.Column.Nested
import TypedColumns.Proofs.Column.Sound

/-!
# The compact form of a sound column

The runs of a sound list begin with its items, so its compact form leaves out only the items behind
the last run. The compact form has the same rows (`rows_compact`), is sound and in memory if the
column is, and is the column itself just if no list has items behind its last run
(`compact_eq_self_iff`).
-/

namespace TypedColumns.Column

variable {α : Type}

/-- The compact form of a column that is cut behind its first rows: a compact form from the first
row on is all that a sound column ever asks of its children. -/
theorem compactFrom_list {width : OffsetWidth} {item : Field} {validity : List Bool}
    {stops : List Nat} {items : Column} (count : Nat) :
    compactFrom 0 count (.list width item validity (0 :: stops) items) =
      .list width item (validity.take count) (0 :: stops.take count)
        (compactFrom 0 ((stops.take count).getLastD 0) items) := by
  simp only [compactFrom, List.drop_zero, List.take_succ_cons, List.headD_cons, Nat.sub_zero,
    List.map_id', List.getLastD_cons]

/-! ## Runs that are cut -/

/-- The first runs stay within the end of the last of them. -/
theorem Climbs.take {limit start : Nat} {stops : List Nat} (climbs : Climbs limit start stops)
    (count : Nat) : Climbs ((stops.take count).getLastD start) start (stops.take count) := by
  induction stops generalizing start count with
  | nil =>
    rw [List.take_nil]
    exact Nat.le_refl start
  | cons stop rest ih =>
    cases count with
    | zero => exact Nat.le_refl start
    | succ count =>
      rw [List.take_succ_cons, List.getLastD_cons]
      exact ⟨climbs.1, ih climbs.2 count⟩

/-- No run ends behind the limit. -/
theorem Climbs.getLastD_le {limit start : Nat} {stops : List Nat}
    (climbs : Climbs limit start stops) (count : Nat) :
    (stops.take count).getLastD start ≤ limit := by
  induction stops generalizing start count with
  | nil =>
    rw [List.take_nil]
    exact climbs
  | cons stop rest ih =>
    cases count with
    | zero => exact Climbs.start_le climbs
    | succ count =>
      rw [List.take_succ_cons, List.getLastD_cons]
      exact ih climbs.2 count

theorem Climbs.start_le_getLastD {limit start : Nat} {stops : List Nat}
    (climbs : Climbs limit start stops) (count : Nat) :
    start ≤ (stops.take count).getLastD start :=
  (climbs.take count).start_le

/-- Runs are read off the items up to the end of the last one. -/
theorem runs_take {limit start : Nat} {stops : List Nat} (entries : List α)
    (climbs : Climbs limit start stops) (count : Nat) :
    runs (entries.take ((stops.take count).getLastD start)) (start :: stops.take count) =
      (runs entries (start :: stops)).take count := by
  induction stops generalizing start count with
  | nil => simp [runs]
  | cons stop rest ih =>
    cases count with
    | zero => simp [runs]
    | succ count =>
      have inside := Climbs.start_le_getLastD climbs.2 count
      rw [List.take_succ_cons, List.getLastD_cons, runs, runs, List.take_succ_cons,
        ih climbs.2 count]
      -- The first run ends before the last one does, so the cut is behind it.
      congr 1
      rw [List.drop_take, List.take_take, Nat.min_eq_left (by omega)]

/-- Runs of one length are read off as many entries as they take. -/
theorem chunks_take (size : Nat) (entries : List α) {count n : Nat} (fewer : count ≤ n) :
    chunks size (entries.take (count * size)) count = (chunks size entries n).take count := by
  induction count generalizing n entries with
  | zero => rfl
  | succ count ih =>
    cases n with
    | zero => cases fewer
    | succ n =>
      rw [chunks, chunks, List.take_succ_cons, List.take_take, List.drop_take,
        Nat.succ_mul, Nat.add_sub_cancel, ih _ (Nat.le_of_succ_le_succ fewer),
        Nat.min_eq_left (Nat.le_add_left _ _)]

theorem length_runs (entries : List α) (start : Nat) (stops : List Nat) :
    (runs entries (start :: stops)).length = stops.length := by
  induction stops generalizing start with
  | nil => rfl
  | cons stop rest ih => rw [runs, List.length_cons, List.length_cons, ih]

theorem length_chunks (size : Nat) (entries : List α) (n : Nat) :
    (chunks size entries n).length = n := by
  induction n generalizing entries with
  | zero => rfl
  | succ n ih => rw [chunks, List.length_cons, ih]

theorem take_masked (validity : List Bool) (values : List Value) (count : Nat) :
    masked (validity.take count) (values.take count) = (masked validity values).take count := by
  rw [masked, masked, List.take_zipWith]

theorem take_selected (variants : List Variant) (ids : List TypeId) (offsets : List Nat)
    (entries : List (List α)) (count : Nat) :
    selected variants (ids.take count) (offsets.take count) entries =
      (selected variants ids offsets entries).take count := by
  rw [selected, selected, List.take_zipWith]

theorem length_selected {variants : List Variant} {ids : List TypeId} {offsets : List Nat}
    (same : offsets.length = ids.length) (entries : List (List α)) :
    (selected variants ids offsets entries).length = ids.length := by
  rw [selected, List.length_zipWith, same, Nat.min_self]

/-! ## Lengths -/

/-- A column and the compact form of its first rows have these rows. -/
theorem length_compactFrom {c : Column} (sound : c.Sound) {count : Nat} (fewer : count ≤ c.length) :
    (compactFrom 0 count c).length = count := by
  cases c with
  | foreign type => cases sound
  | _ => simp_all [compactFrom, length]

theorem length_missing {c : Column} (sound : c.Sound) : c.missing.length = c.length := by
  cases c with
  | union variants ids offsets children =>
    rw [Sound] at sound
    rw [missing]
    split
    · rw [List.length_map, length_selected sound.1.2.1, length]
    · rw [List.length_replicate, length]
  | foreign type => cases sound
  | _ => simp [missing, length]

theorem length_rows {c : Column} (sound : c.Sound) : c.rows.length = c.length := by
  cases c with
  | list width item validity offsets items =>
    rw [Sound] at sound
    obtain ⟨⟨-, stops, rfl, same, -⟩, -⟩ := sound
    rw [rows, masked, List.length_zipWith, List.length_map, length_runs, same, Nat.min_self, length]
  | fixedSizeList item size validity items =>
    rw [rows, masked, List.length_zipWith, List.length_map, length_chunks, Nat.min_self, length]
  | union variants ids offsets children =>
    rw [Sound] at sound
    rw [rows, List.length_zipWith, length_selected sound.1.2.1, Nat.min_self, length]
  | foreign type => cases sound
  | _ => simp [rows, masked, length]

/-- The children of a sound struct have its rows. -/
theorem lengths_of_fieldFault? {validity : List Bool} {fields : List Field} {children : List Column}
    (number : children.length = fields.length)
    (clean : fieldFault? validity fields children = none) :
    ∀ c ∈ children, c.length = validity.length := by
  induction fields generalizing children with
  | nil =>
    obtain rfl := List.length_eq_zero_iff.1 number
    intro c mem
    cases mem
  | cons f fs ih =>
    cases children with
    | nil => cases number
    | cons c cs =>
      obtain ⟨own, others⟩ := fieldFault?_cons.1 clean
      intro child mem
      rcases List.mem_cons.1 mem with rfl | mem
      · exact own.2.1
      · exact ih (Nat.succ.inj number) others child mem

/-- All children of a struct are cut within their rows if the struct is. -/
theorem le_lengths_of_fieldFault? {validity : List Bool} {fields : List Field}
    {children : List Column} (number : children.length = fields.length)
    (clean : fieldFault? validity fields children = none) {count : Nat}
    (fewer : count ≤ validity.length) : ∀ c ∈ children, count ≤ c.length := by
  intro c mem
  rw [lengths_of_fieldFault? number clean c mem]
  exact fewer

/-- Rows of one size are cut within their items if the rows are cut. -/
theorem mul_le_items {items rows size count : Nat} (even : items = rows * size)
    (fewer : count ≤ rows) : count * size ≤ items := by
  rw [even]
  exact Nat.mul_le_mul_right size fewer

/-! ## Rows -/

mutual

/-- The first rows are missing where they were. -/
theorem missing_compactFrom : {c : Column} → c.Sound → {count : Nat} → count ≤ c.length →
    (compactFrom 0 count c).missing = c.missing.take count
  | .union variants ids offsets children, sound, count, _ => by
    rw [Sound] at sound
    rw [compactFrom, missing, missing, List.drop_zero, List.drop_zero,
      missingAll_compactAll sound.2, take_selected]
    split
    · rw [List.map_take]
    · rw [List.length_take, List.take_replicate]
  | .foreign _, sound, _, _ => sound.elim
  | .null length, _, count, _ => by simp [compactFrom, missing, List.take_replicate]
  | .boolean _, _, _, _ | .number _ _, _, _, _ | .text _ _, _, _, _ | .binary _ _, _, _, _
  | .list _ _ _ _ _, _, _, _ | .fixedSizeList _ _ _ _, _, _, _ | .struct _ _ _, _, _, _ => by
    simp [compactFrom, missing, List.map_take]

theorem missingAll_compactAll : {cs : List Column} → SoundAll cs →
    missingAll (compactAll cs) = missingAll cs
  | [], _ => rfl
  | c :: cs, sound => by
    rw [compactAll, missingAll, missingAll, missing_compactFrom sound.1 (Nat.le_refl _),
      missingAll_compactAll sound.2, ← length_missing sound.1, List.take_length]

end

/-- Cutting all children of a struct cuts its rows. -/
theorem fieldRows_take {fields : List Field} {values : List (List Value)} {count i : Nat}
    (before : i < count) :
    fieldRows fields (values.map (List.take count)) i = fieldRows fields values i := by
  rw [fieldRows, fieldRows, List.zipWith_map_right]
  congr 1
  funext f rows
  rw [List.getD_eq_getElem?_getD, List.getD_eq_getElem?_getD, List.getElem?_take_of_lt before]

mutual

/-- The first rows read as before. -/
theorem rows_compactFrom : {c : Column} → c.Sound → {count : Nat} → count ≤ c.length →
    (compactFrom 0 count c).rows = c.rows.take count
  | .list _ _ validity _ items, sound, count, _ => by
    rw [Sound] at sound
    obtain ⟨⟨-, stops, rfl, -, climbs⟩, sound⟩ := sound
    rw [compactFrom_list, rows, rows, rows_compactFrom sound (climbs.getLastD_le count),
      runs_take _ climbs, List.map_take, take_masked]
  | .fixedSizeList _ size validity items, sound, count, fewer => by
    rw [Sound] at sound
    obtain ⟨⟨-, -, even⟩, sound⟩ := sound
    rw [length] at fewer
    have inside := mul_le_items even fewer
    rw [compactFrom, rows, rows, Nat.zero_mul, rows_compactFrom sound inside, List.drop_zero,
      List.length_take, Nat.min_eq_left fewer, chunks_take _ _ fewer, List.map_take, take_masked]
  | .struct fields validity children, sound, count, fewer => by
    rw [Sound] at sound
    obtain ⟨⟨-, number, clean⟩, sound⟩ := sound
    rw [length] at fewer
    have enough := le_lengths_of_fieldFault? number clean fewer
    rw [compactFrom, rows, rows, rowsAll_compactAllFrom sound enough, List.drop_zero,
      List.length_take, Nat.min_eq_left fewer, ← take_masked, ← List.map_take, List.take_range,
      Nat.min_eq_left fewer]
    congr 1
    apply List.map_congr_left
    intro i mem
    rw [fieldRows_take (List.mem_range.1 mem)]
  | .union variants ids offsets children, sound, count, _ => by
    rw [Sound] at sound
    rw [compactFrom, rows, rows, List.drop_zero, List.drop_zero, rowsAll_compactAll sound.2,
      take_selected, List.take_zipWith]
  | .foreign _, sound, _, _ => sound.elim
  | .null length, _, count, _ => by simp [compactFrom, rows, List.take_replicate]
  | .boolean _, _, _, _ | .number _ _, _, _, _ | .text _ _, _, _, _ | .binary _ _, _, _, _ => by
    simp [compactFrom, rows, List.map_take]

theorem rowsAll_compactAllFrom : {cs : List Column} → SoundAll cs → {count : Nat} →
    (∀ c ∈ cs, count ≤ c.length) →
    rowsAll (compactAllFrom 0 count cs) = (rowsAll cs).map (List.take count)
  | [], _, _, _ => rfl
  | c :: cs, sound, count, fewer => by
    have others := fun child mem => fewer child (List.mem_cons_of_mem c mem)
    rw [compactAllFrom, rowsAll, rowsAll, List.map_cons,
      rows_compactFrom sound.1 (fewer c List.mem_cons_self), rowsAll_compactAllFrom sound.2 others]

theorem rowsAll_compactAll : {cs : List Column} → SoundAll cs →
    rowsAll (compactAll cs) = rowsAll cs
  | [], _ => rfl
  | c :: cs, sound => by
    rw [compactAll, rowsAll, rowsAll, rows_compactFrom sound.1 (Nat.le_refl _),
      rowsAll_compactAll sound.2, ← length_rows sound.1, List.take_length]

end

/-- The compact form of a column has the same rows. -/
theorem rows_compact {c : Column} (sound : c.Sound) : c.compact.rows = c.rows := by
  rw [compact, rows_compactFrom sound (Nat.le_refl _), ← length_rows sound, List.take_length]

/-! ## Soundness -/

theorem take_zip {β : Type} (as : List α) (bs : List β) (count : Nat) :
    (as.zip bs).take count = (as.take count).zip (bs.take count) := by
  rw [List.zip_eq_zipWith, List.zip_eq_zipWith, List.take_zipWith]

theorem unmasked_take {validity missing : List Bool} (clean : unmasked validity missing = false)
    (count : Nat) : unmasked (validity.take count) (missing.take count) = false := by
  rw [unmasked, List.any_eq_false] at clean ⊢
  intro pair mem
  rw [← take_zip] at mem
  exact clean pair (List.mem_of_mem_take mem)

theorem map_dataType_compactAll (cs : List Column) :
    (compactAll cs).map dataType = cs.map dataType := by
  induction cs with
  | nil => rfl
  | cons c cs ih => rw [compactAll, List.map_cons, List.map_cons, dataType_compactFrom, ih]

theorem map_length_compactAll {cs : List Column} (sound : SoundAll cs) :
    (compactAll cs).map length = cs.map length := by
  induction cs with
  | nil => rfl
  | cons c cs ih =>
    rw [compactAll, List.map_cons, List.map_cons,
      length_compactFrom sound.1 (Nat.le_refl _), ih sound.2]

theorem length_compactAllFrom (start count : Nat) (cs : List Column) :
    (compactAllFrom start count cs).length = cs.length := by
  induction cs with
  | nil => rfl
  | cons c cs ih => rw [compactAllFrom, List.length_cons, List.length_cons, ih]

/-- The children of a struct fit their fields also behind a cut. -/
theorem fieldFault?_compactAllFrom {validity : List Bool} {fields : List Field}
    {children : List Column} (sound : SoundAll children)
    (clean : fieldFault? validity fields children = none) {count : Nat}
    (fewer : count ≤ validity.length) :
    fieldFault? (validity.take count) fields (compactAllFrom 0 count children) = none := by
  induction fields generalizing children with
  | nil => cases children <;> rfl
  | cons f fs ih =>
    cases children with
    | nil => rfl
    | cons c cs =>
      obtain ⟨⟨type, length, required⟩, others⟩ := fieldFault?_cons.1 clean
      have inside : count ≤ c.length := by rw [length]; exact fewer
      rw [compactAllFrom, fieldFault?_cons]
      refine ⟨⟨?_, ?_, ?_⟩, ih sound.2 others⟩
      · rw [dataType_compactFrom, type]
      · rw [length_compactFrom sound.1 inside, List.length_take, Nat.min_eq_left fewer]
      · rw [missing_compactFrom sound.1 inside]
        exact required.imp_right fun clean => unmasked_take clean count

/-- What the rows of a union select is told by the lengths of its children. -/
theorem variantLength?_map (variants : List Variant) (children : List Column) (id : TypeId) :
    variantLength? variants children id =
      (variantIndex? variants id).bind fun i => (children.map length)[i]? := by
  rw [variantLength?]
  cases variantIndex? variants id with
  | none => rfl
  | some i =>
    show (children[i]?.bind fun c => some c.length) = (children.map length)[i]?
    rw [List.getElem?_map, Option.map_eq_bind]
    rfl

theorem unionOf_take {variants : List Variant} {ids : List TypeId} {offsets : List Nat}
    {children others : List Column} (same : others.map length = children.map length)
    (made : unionOf variants ids offsets children = .ok (.union variants ids offsets children))
    (count : Nat) :
    unionOf variants (ids.take count) (offsets.take count) others =
      .ok (.union variants (ids.take count) (offsets.take count) others) := by
  have lengths : variantLength? variants others = variantLength? variants children := by
    funext id
    rw [variantLength?_map, variantLength?_map, same]
  simp only [unionOf, lengths] at made ⊢
  by_cases undeclared : (ids.map (variantLength? variants children)).any Option.isNone = true
  · rw [if_pos undeclared] at made
    cases made
  · rw [if_neg undeclared] at made
    split at made
    · cases made
    · next inside =>
      rw [List.any_eq_true] at undeclared inside
      rw [if_neg, if_neg]
      · rw [List.any_eq_true, List.map_take, ← take_zip]
        rintro ⟨pair, mem, beyond⟩
        exact inside ⟨pair, List.mem_of_mem_take mem, beyond⟩
      · rw [List.any_eq_true, List.map_take]
        rintro ⟨length, mem, absent⟩
        exact undeclared ⟨length, List.mem_of_mem_take mem, absent⟩

mutual

/-- The first rows of a sound column are one. -/
theorem Sound.compactFrom : {c : Column} → c.Sound → {count : Nat} → count ≤ c.length →
    (compactFrom 0 count c).Sound
  | .list _ item validity _ items, sound, count, fewer => by
    rw [Sound] at sound
    obtain ⟨⟨named, stops, rfl, same, climbs⟩, sound⟩ := sound
    have inside := climbs.getLastD_le count
    rw [compactFrom_list, Sound]
    refine ⟨⟨?_, stops.take count, rfl, ?_, ?_⟩, sound.compactFrom inside⟩
    · rw [dataType_compactFrom, named]
    · rw [List.length_take, List.length_take, same]
    · rw [length_compactFrom sound inside]
      exact climbs.take count
  | .fixedSizeList item size validity items, sound, count, fewer => by
    rw [Sound] at sound
    obtain ⟨⟨named, sized, even⟩, sound⟩ := sound
    rw [length] at fewer
    have inside := mul_le_items even fewer
    rw [Column.compactFrom, Sound, Nat.zero_mul, List.drop_zero]
    refine ⟨⟨?_, sized, ?_⟩, sound.compactFrom inside⟩
    · rw [dataType_compactFrom, named]
    · rw [length_compactFrom sound inside, List.length_take, Nat.min_eq_left fewer]
  | .struct fields validity children, sound, count, fewer => by
    rw [Sound] at sound
    obtain ⟨⟨some, number, clean⟩, sound⟩ := sound
    rw [length] at fewer
    have enough := le_lengths_of_fieldFault? number clean fewer
    rw [Column.compactFrom, Sound, List.drop_zero]
    refine ⟨⟨?_, ?_, fieldFault?_compactAllFrom sound clean fewer⟩,
      sound_compactAllFrom sound enough⟩
    · rw [← List.length_pos_iff, length_compactAllFrom, List.length_pos_iff]
      exact some
    · rw [length_compactAllFrom, number]
  | .union variants ids offsets children, sound, count, _ => by
    rw [Sound] at sound
    obtain ⟨⟨types, same, made⟩, sound⟩ := sound
    rw [Column.compactFrom, Sound, List.drop_zero, List.drop_zero]
    refine ⟨⟨?_, ?_, unionOf_take (map_length_compactAll sound) made count⟩,
      sound_compactAll sound⟩
    · rw [map_dataType_compactAll, types]
    · rw [List.length_take, List.length_take, same]
  | .foreign _, sound, _, _ => sound.elim
  | .null _, _, _, _ | .boolean _, _, _, _ | .number _ _, _, _, _ | .text _ _, _, _, _
  | .binary _ _, _, _, _ => trivial

theorem sound_compactAllFrom : {cs : List Column} → SoundAll cs → {count : Nat} →
    (∀ c ∈ cs, count ≤ c.length) → SoundAll (compactAllFrom 0 count cs)
  | [], _, _, _ => trivial
  | c :: _, sound, _, fewer =>
    ⟨sound.1.compactFrom (fewer c List.mem_cons_self),
      sound_compactAllFrom sound.2 fun child mem => fewer child (List.mem_cons_of_mem c mem)⟩

theorem sound_compactAll : {cs : List Column} → SoundAll cs → SoundAll (compactAll cs)
  | [], _ => trivial
  | _ :: _, sound => ⟨sound.1.compactFrom (Nat.le_refl _), sound_compactAll sound.2⟩

end

/-! ## Memory -/

theorem mem_take_stops {stops : List Nat} {count offset : Nat}
    (mem : offset ∈ 0 :: stops.take count) : offset ∈ 0 :: stops := by
  rcases List.mem_cons.1 mem with rfl | mem
  · exact List.mem_cons_self
  · exact List.mem_cons_of_mem 0 (List.mem_of_mem_take mem)

theorem length_take_lt {as : List α} {bound : Nat} (small : as.length < bound) (count : Nat) :
    (as.take count).length < bound :=
  Nat.lt_of_le_of_lt (List.length_take_le' count as) small

theorem length_flatMap_take_le (f : α → Bytes) (as : List α) (count : Nat) :
    ((as.take count).flatMap f).length ≤ (as.flatMap f).length := by
  have split : as.flatMap f = (as.take count).flatMap f ++ (as.drop count).flatMap f := by
    rw [← List.flatMap_append, List.take_append_drop]
  rw [split, List.length_append]
  exact Nat.le_add_right _ _

mutual

/-- The first rows of a column take no more memory than all of them. -/
theorem InMemory.compactFrom : {c : Column} → c.Sound → c.InMemory → {count : Nat} →
    (compactFrom 0 count c).InMemory
  | .list _ item validity _ items, sound, small, count => by
    rw [Sound] at sound
    rw [InMemory] at small
    obtain ⟨⟨-, stops, rfl, -, -⟩, sound⟩ := sound
    rw [compactFrom_list, InMemory]
    exact ⟨⟨length_take_lt small.1.1 count,
      fun offset mem => small.1.2 offset (mem_take_stops mem)⟩, small.2.compactFrom sound⟩
  | .fixedSizeList item size validity items, sound, small, count => by
    rw [Sound] at sound
    rw [InMemory] at small
    rw [Column.compactFrom, InMemory, Nat.zero_mul, List.drop_zero]
    exact ⟨⟨length_take_lt small.1.1 count, small.1.2⟩, small.2.compactFrom sound.2⟩
  | .struct fields validity children, sound, small, count => by
    rw [Sound] at sound
    rw [InMemory] at small
    rw [Column.compactFrom, InMemory, List.drop_zero]
    exact ⟨length_take_lt small.1 count, inMemory_compactAllFrom sound.2 small.2⟩
  | .union variants ids offsets children, sound, small, count => by
    rw [Sound] at sound
    rw [InMemory] at small
    rw [Column.compactFrom, InMemory, List.drop_zero, List.drop_zero]
    exact ⟨⟨length_take_lt small.1.1 count,
      fun offset mem => small.1.2 offset (List.mem_of_mem_take mem)⟩,
      inMemory_compactAll sound.2 small.2⟩
  | .foreign _, sound, _, _ => sound.elim
  | .null length, _, small, count => by
    rw [InMemory] at small
    rw [Column.compactFrom, InMemory]
    omega
  | .boolean slots, _, small, count | .number _ slots, _, small, count => by
    rw [InMemory] at small
    rw [Column.compactFrom, InMemory, List.drop_zero]
    exact length_take_lt small count
  | .text _ slots, _, small, count | .binary _ slots, _, small, count => by
    rw [InMemory] at small
    rw [Column.compactFrom, InMemory, List.drop_zero]
    exact ⟨length_take_lt small.1 count,
      Nat.lt_of_le_of_lt (length_flatMap_take_le _ slots count) small.2⟩

theorem inMemory_compactAllFrom : {cs : List Column} → SoundAll cs → InMemoryAll cs →
    {count : Nat} → InMemoryAll (compactAllFrom 0 count cs)
  | [], _, _, _ => trivial
  | _ :: _, sound, small, _ =>
    ⟨small.1.compactFrom sound.1, inMemory_compactAllFrom sound.2 small.2⟩

theorem inMemory_compactAll : {cs : List Column} → SoundAll cs → InMemoryAll cs →
    InMemoryAll (compactAll cs)
  | [], _, _ => trivial
  | _ :: _, sound, small => ⟨small.1.compactFrom sound.1, inMemory_compactAll sound.2 small.2⟩

end

/-! ## Columns that are compact already -/

mutual

/-- No list, at any depth, has items behind its last row. -/
def Delimited : Column → Prop
  | .list _ _ _ offsets items => offsets.getLastD 0 = items.length ∧ items.Delimited
  | .fixedSizeList _ _ _ items => items.Delimited
  | .struct _ _ children => DelimitedAll children
  | .union _ _ _ children => DelimitedAll children
  | _ => True

/-- No list in any of the columns has items behind its last row. -/
def DelimitedAll : List Column → Prop
  | [] => True
  | c :: cs => c.Delimited ∧ DelimitedAll cs

end

mutual

/-- Without items behind the last rows there is nothing to leave out. -/
theorem Delimited.compactFrom : {c : Column} → c.Sound → c.Delimited →
    compactFrom 0 c.length c = c
  | .list _ item validity _ items, sound, delimited => by
    rw [Sound] at sound
    rw [Delimited] at delimited
    obtain ⟨⟨-, stops, rfl, same, -⟩, sound⟩ := sound
    obtain ⟨last, delimited⟩ := delimited
    rw [List.getLastD_cons] at last
    rw [compactFrom_list, length, List.take_length, ← same, List.take_length, last,
      delimited.compactFrom sound]
  | .fixedSizeList item size validity items, sound, delimited => by
    rw [Sound] at sound
    rw [Delimited] at delimited
    rw [Column.compactFrom, length, List.drop_zero, List.take_length, Nat.zero_mul, ← sound.1.2.2,
      delimited.compactFrom sound.2]
  | .struct fields validity children, sound, delimited => by
    rw [Sound] at sound
    rw [Delimited] at delimited
    have lengths := lengths_of_fieldFault? sound.1.2.1 sound.1.2.2
    rw [Column.compactFrom, length, List.drop_zero, List.take_length,
      compactAllFrom_eq_self sound.2 delimited lengths]
  | .union variants ids offsets children, sound, delimited => by
    rw [Sound] at sound
    rw [Delimited] at delimited
    rw [Column.compactFrom, length, List.drop_zero, List.drop_zero, List.take_length,
      ← sound.1.2.1, List.take_length, compactAll_eq_self sound.2 delimited]
  | .foreign _, sound, _ => sound.elim
  | .null length, _, _ => by simp [Column.compactFrom, Column.length]
  | .boolean _, _, _ | .number _ _, _, _ | .text _ _, _, _ | .binary _ _, _, _ => by
    simp [Column.compactFrom, length]

theorem compactAllFrom_eq_self : {cs : List Column} → SoundAll cs → DelimitedAll cs →
    {count : Nat} → (∀ c ∈ cs, c.length = count) → compactAllFrom 0 count cs = cs
  | [], _, _, _, _ => rfl
  | c :: cs, sound, delimited, count, lengths => by
    have others := fun child mem => lengths child (List.mem_cons_of_mem c mem)
    rw [compactAllFrom, ← lengths c List.mem_cons_self, delimited.1.compactFrom sound.1,
      lengths c List.mem_cons_self, compactAllFrom_eq_self sound.2 delimited.2 others]

theorem compactAll_eq_self : {cs : List Column} → SoundAll cs → DelimitedAll cs →
    compactAll cs = cs
  | [], _, _ => rfl
  | c :: cs, sound, delimited => by
    rw [compactAll, delimited.1.compactFrom sound.1, compactAll_eq_self sound.2 delimited.2]

end

mutual

/-- A compact form has nothing to leave out. -/
theorem delimited_compactFrom : {c : Column} → c.Sound → {count : Nat} → count ≤ c.length →
    (compactFrom 0 count c).Delimited
  | .list _ _ _ _ items, sound, count, _ => by
    rw [Sound] at sound
    obtain ⟨⟨-, stops, rfl, -, climbs⟩, sound⟩ := sound
    have inside := climbs.getLastD_le count
    rw [compactFrom_list, Delimited, List.getLastD_cons, length_compactFrom sound inside]
    exact ⟨rfl, delimited_compactFrom sound inside⟩
  | .fixedSizeList _ size validity items, sound, count, fewer => by
    rw [Sound] at sound
    rw [length] at fewer
    have inside := mul_le_items sound.1.2.2 fewer
    rw [Column.compactFrom, Delimited, Nat.zero_mul]
    exact delimited_compactFrom sound.2 inside
  | .struct _ _ children, sound, count, fewer => by
    rw [Sound] at sound
    rw [length] at fewer
    have enough := le_lengths_of_fieldFault? sound.1.2.1 sound.1.2.2 fewer
    rw [Column.compactFrom, Delimited]
    exact delimited_compactAllFrom sound.2 enough
  | .union _ _ _ _, sound, _, _ => by
    rw [Sound] at sound
    rw [Column.compactFrom, Delimited]
    exact delimited_compactAll sound.2
  | .foreign _, sound, _, _ => sound.elim
  | .null _, _, _, _ | .boolean _, _, _, _ | .number _ _, _, _, _ | .text _ _, _, _, _
  | .binary _ _, _, _, _ => trivial

theorem delimited_compactAllFrom : {cs : List Column} → SoundAll cs → {count : Nat} →
    (∀ c ∈ cs, count ≤ c.length) → DelimitedAll (compactAllFrom 0 count cs)
  | [], _, _, _ => trivial
  | c :: _, sound, _, fewer =>
    ⟨delimited_compactFrom sound.1 (fewer c List.mem_cons_self),
      delimited_compactAllFrom sound.2 fun child mem => fewer child (List.mem_cons_of_mem c mem)⟩

theorem delimited_compactAll : {cs : List Column} → SoundAll cs → DelimitedAll (compactAll cs)
  | [], _ => trivial
  | _ :: _, sound => ⟨delimited_compactFrom sound.1 (Nat.le_refl _), delimited_compactAll sound.2⟩

end

/-- A column is its own compact form just if no list has items behind its last row. -/
theorem compact_eq_self_iff {c : Column} (sound : c.Sound) : c.compact = c ↔ c.Delimited := by
  constructor
  · intro same
    have delimited : c.compact.Delimited := delimited_compactFrom sound (Nat.le_refl _)
    rwa [same] at delimited
  · intro delimited
    exact delimited.compactFrom sound

/-! ## Slices -/

mutual

/-- All rows of a sound column are the column. -/
theorem slice_length : {c : Column} → c.Sound → c.slice 0 c.length = c
  | .list _ item validity _ items, sound => by
    rw [Sound] at sound
    obtain ⟨⟨-, stops, rfl, same, -⟩, -⟩ := sound
    rw [slice, length, List.drop_zero, List.drop_zero, List.take_length, List.take_succ_cons,
      ← same, List.take_length]
  | .fixedSizeList item size validity items, sound => by
    rw [Sound] at sound
    rw [slice, length, List.drop_zero, List.take_length, Nat.zero_mul, ← sound.1.2.2,
      slice_length sound.2]
  | .struct fields validity children, sound => by
    rw [Sound] at sound
    have lengths := lengths_of_fieldFault? sound.1.2.1 sound.1.2.2
    rw [slice, length, List.drop_zero, List.take_length, sliceAll_length sound.2 lengths]
  | .union variants ids offsets children, sound => by
    rw [Sound] at sound
    rw [slice, length, List.drop_zero, List.drop_zero, List.take_length, ← sound.1.2.1,
      List.take_length]
  | .foreign _, sound => sound.elim
  | .null length, _ => by simp [slice, Column.length]
  | .boolean _, _ | .number _ _, _ | .text _ _, _ | .binary _ _, _ => by simp [slice, length]

theorem sliceAll_length : {cs : List Column} → SoundAll cs → {count : Nat} →
    (∀ c ∈ cs, c.length = count) → sliceAll 0 count cs = cs
  | [], _, _, _ => rfl
  | c :: cs, sound, count, lengths => by
    have others := fun child mem => lengths child (List.mem_cons_of_mem c mem)
    rw [sliceAll, sliceAll_length sound.2 others, ← lengths c List.mem_cons_self,
      slice_length sound.1]

end

end TypedColumns.Column
