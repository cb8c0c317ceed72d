import TypedColumns.Codec.Spatial
import TypedColumns.Proofs.Codec.Keeping

/-!
# Codecs of lists

Lists of texts record where each row ends, and a missing row takes no items. Runs of a fixed number
of floats record nothing, so a missing row takes as many slots as any other.
-/

namespace TypedColumns.Codec

open Column (ends ends_append itemsOf slotsOf)

/-! ## Lists of texts -/

/-- The contents of the texts of one row. -/
def textItems (row : Option (ListBuffer TextBuffer)) : List String :=
  (row.map fun l => l.items.map TextBuffer.content).getD []

/-- What a list builder records of each row: whether it is there, and where its items end. -/
def textEnds (rows : List (Option (ListBuffer TextBuffer))) : List (Bool × Nat) :=
  (rows.map Option.isSome).zip (ends 0 ((rows.map textItems).map List.length))

/-- The items of all rows. -/
def textRuns (rows : List (Option (ListBuffer TextBuffer))) : List (Option String) :=
  (rows.map textItems).flatten.map some

theorem length_textEnds (rows : List (Option (ListBuffer TextBuffer))) :
    (textEnds rows).length = rows.length := by
  simp [textEnds]

theorem textRuns_append (rows : List (Option (ListBuffer TextBuffer)))
    (row : Option (ListBuffer TextBuffer)) :
    textRuns (rows ++ [row]) = textRuns rows ++ (textItems row).map some := by
  simp [textRuns]

/-- A further row ends behind all items. -/
theorem textEnds_append (rows : List (Option (ListBuffer TextBuffer)))
    (row : Option (ListBuffer TextBuffer)) :
    textEnds (rows ++ [row]) =
      textEnds rows ++ [(row.isSome, (textRuns (rows ++ [row])).length)] := by
  have same : (rows.map Option.isSome).length =
      (ends 0 ((rows.map textItems).map List.length)).length := by simp
  rw [textEnds, List.map_append, List.map_append, List.map_singleton, List.map_singleton,
    ends_append, List.zip_append same, textRuns_append, List.length_append, textRuns,
    List.length_map, List.length_map, Nat.zero_add]
  rfl

/-- A list of texts reads as the contents, one after the other. -/
def readTexts : Option (ListBuffer TextBuffer) → Value :=
  .ofSlot fun l => .list (l.items.map fun t => .text t.content)

/-- Texts that are added to the items one by one stand behind those of earlier rows. -/
theorem appendTexts (width : OffsetWidth) (rows : Array (Bool × Nat)) (slots : List (Option String))
    (texts : List TextBuffer) :
    texts.foldlM (fun b value => b.mapItems? (·.appendText? value.content))
        (ItemBuilder.list width rows (.text .narrow slots.toArray)) =
      some (.list width rows
        (.text .narrow (slots ++ (texts.map TextBuffer.content).map some).toArray)) := by
  induction texts generalizing slots with
  | nil =>
    rw [List.map_nil, List.map_nil, List.append_nil]
    rfl
  | cons t ts ih =>
    have rest := ih (slots ++ [some t.content])
    rw [List.append_assoc] at rest
    rw [List.foldlM_cons, ItemBuilder.mapItems?, ItemBuilder.appendText?, List.push_toArray]
    exact rest

theorem texts_faithful : texts.Faithful readTexts := by
  have append : ∀ (rows : List (Option (ListBuffer TextBuffer))) (a : ListBuffer TextBuffer),
      (texts.append a).apply (.item (.list .narrow (textEnds rows).toArray
        (.text .narrow (textRuns rows).toArray))) =
        (.ok (), .item (.list .narrow (textEnds (rows ++ [some a])).toArray
          (.text .narrow (textRuns (rows ++ [some a])).toArray))) := by
    intro rows a
    apply Write.apply_changeItem
    have items : textRuns rows ++ (a.items.map TextBuffer.content).map some =
        textRuns (rows ++ [some a]) := (textRuns_append rows (some a)).symm
    rw [appendTexts, items, textEnds_append, ← List.push_toArray]
    rfl
  have null : ∀ rows : List (Option (ListBuffer TextBuffer)),
      (Builder.item (.list .narrow (textEnds rows).toArray
        (.text .narrow (textRuns rows).toArray))).appendNull =
        (.ok (), .item (.list .narrow (textEnds (rows ++ [none])).toArray
          (.text .narrow (textRuns (rows ++ [none])).toArray))) := by
    intro rows
    have items : textRuns (rows ++ [none]) = textRuns rows := by
      rw [textRuns_append]
      exact List.append_nil _
    rw [Builder.appendNull, ItemBuilder.appendNulls, append_replicate_one, textEnds_append, items]
    rfl
  refine ⟨fun rows =>
      .item (.list .narrow (textEnds rows).toArray (.text .narrow (textRuns rows).toArray)),
    keeps_of_rules rfl (fun _ => rfl) ?_ append null rfl rfl (apply_appendAll append rfl) ?_⟩
  · intro rows
    exact length_textEnds rows
  · intro rows
    -- the rows with their items as values
    let entries : List (Option (List Value)) := rows.map fun row =>
      row.map fun l => l.items.map fun t => .text t.content
    have items : (textRuns rows).map (.ofSlot .text) = (entries.map itemsOf).flatten := by
      rw [textRuns, List.map_map, List.map_flatten, List.map_map, List.map_map]
      congr 1
      apply List.map_congr_left
      rintro (_ | l) -
      · rfl
      · exact List.map_map
    have lengths :
        (rows.map textItems).map List.length = (entries.map itemsOf).map List.length := by
      rw [List.map_map, List.map_map, List.map_map]
      apply List.map_congr_left
      rintro (_ | l) -
      · rfl
      · change (l.items.map _).length = (l.items.map _).length
        rw [List.length_map, List.length_map]
    have marks : rows.map Option.isSome = entries.map Option.isSome := by
      rw [List.map_map]
      apply List.map_congr_left
      rintro (_ | l) -
      · rfl
      · rfl
    have values : rows.map readTexts = entries.map (.ofSlot .list) := by
      rw [List.map_map]
      apply List.map_congr_left
      rintro (_ | l) -
      · rfl
      · rfl
    have held := Column.holds_text .narrow (textRuns rows)
    rw [items] at held
    rw [values]
    refine Builder.finishes_item rfl ?_ held.list
    have first : (textEnds rows).map (·.1) = entries.map Option.isSome := by
      rw [textEnds, List.map_fst_zip (by simp), marks]
    have second : (textEnds rows).map (·.2) =
        ends 0 ((entries.map itemsOf).map List.length) := by
      rw [textEnds, List.map_snd_zip (by simp), lengths]
    rw [ItemBuilder.column?, first, second]
    rfl

/-! ## Runs of floats -/

/-- The slots that one row takes. -/
def scalarSlots (n : Nat) (row : Option (Vector Scalar n)) : List (Option Scalar) :=
  (row.map fun v => v.toList.map some).getD (List.replicate n none)

theorem length_scalarSlots (n : Nat) (row : Option (Vector Scalar n)) :
    (scalarSlots n row).length = n := by
  cases row with
  | none => exact List.length_replicate
  | some v =>
    change (v.toList.map some).length = n
    rw [List.length_map, Vector.length_toList]

/-- A run of floats reads as the list of them. -/
def readScalars (n : Nat) : Option (Vector Scalar n) → Value :=
  .ofSlot fun v => .list (v.toList.map (.number .float32))

theorem scalars_faithful (name : String) {n : Nat} (pos : 0 < n) :
    (scalars name n).Faithful (readScalars n) := by
  have append : ∀ (rows : List (Option (Vector Scalar n))) (a : Vector Scalar n),
      ((scalars name n).append a).apply (.item (.fixedSizeList n (rows.map Option.isSome).toArray
        (.number .float32 (rows.map (scalarSlots n)).flatten.toArray))) =
        (.ok (), .item (.fixedSizeList n ((rows ++ [some a]).map Option.isSome).toArray
          (.number .float32 ((rows ++ [some a]).map (scalarSlots n)).flatten.toArray))) := by
    intro rows a
    apply Write.apply_changeItem
    rw [ItemBuilder.mapItems?, ItemBuilder.appendNumbers?, dif_pos rfl, List.append_toArray,
      List.map_append, List.map_append, List.flatten_append]
    simp [ItemBuilder.endRow?, scalarSlots]
  have null : ∀ rows : List (Option (Vector Scalar n)),
      (Builder.item (.fixedSizeList n (rows.map Option.isSome).toArray
        (.number .float32 (rows.map (scalarSlots n)).flatten.toArray))).appendNull =
        (.ok (), .item (.fixedSizeList n ((rows ++ [none]).map Option.isSome).toArray
          (.number .float32 ((rows ++ [none]).map (scalarSlots n)).flatten.toArray))) := by
    intro rows
    rw [Builder.appendNull, ItemBuilder.appendNulls, ItemBuilder.appendNulls, append_replicate_one,
      Nat.one_mul, List.map_append, List.map_append, List.flatten_append]
    simp [scalarSlots]
  have slots : ∀ rows : List (Option (Vector Scalar n)),
      (rows.map (scalarSlots n)).flatten.length = rows.length * n := by
    intro rows
    induction rows with
    | nil => simp
    | cons row rows ih =>
      rw [List.map_cons, List.flatten_cons, List.length_append, ih, length_scalarSlots,
        List.length_cons, Nat.succ_mul, Nat.add_comm]
  refine ⟨fun rows => .item (.fixedSizeList n (rows.map Option.isSome).toArray
      (.number .float32 (rows.map (scalarSlots n)).flatten.toArray)),
    keeps_of_rules rfl (fun _ => rfl) ?_ append null rfl rfl (apply_appendAll append rfl) ?_⟩
  · intro rows
    simp [Builder.length, ItemBuilder.length]
  · intro rows
    -- the rows with their floats as values
    let entries : List (Option (List Value)) := rows.map fun row =>
      row.map fun v => v.toList.map (.number .float32)
    have sized : ∀ list, some list ∈ entries → list.length = n := by
      intro list mem
      obtain ⟨_ | v, -, same⟩ := List.mem_map.1 mem
      · cases same
      · cases same
        rw [List.length_map, Vector.length_toList]
    have items : ((rows.map (scalarSlots n)).flatten).map (.ofSlot (.number .float32)) =
        (entries.map (slotsOf n)).flatten := by
      rw [List.map_flatten, List.map_map, List.map_map]
      congr 1
      apply List.map_congr_left
      rintro (_ | v) -
      · exact List.map_replicate
      · exact List.map_map
    have marks : rows.map Option.isSome = entries.map Option.isSome := by
      rw [List.map_map]
      apply List.map_congr_left
      rintro (_ | v) -
      · rfl
      · rfl
    have values : rows.map (readScalars n) = entries.map (.ofSlot .list) := by
      rw [List.map_map]
      apply List.map_congr_left
      rintro (_ | v) -
      · rfl
      · rfl
    have held := Column.holds_number .float32 (rows.map (scalarSlots n)).flatten
    rw [items] at held
    rw [values]
    refine Builder.finishes_item ?_ ?_ (held.fixedSizeList sized)
    · rw [ItemBuilder.lengthFault?, if_pos]
      simp only [ItemBuilder.length, List.size_toArray, slots, List.length_map]
    · have full : (rows.map (scalarSlots n)).flatten.length =
          (rows.map Option.isSome).toArray.size * n := by
        rw [slots, List.size_toArray, List.length_map]
      rw [ItemBuilder.column?, ItemBuilder.column?, Option.bind_some, Column.length, if_pos full,
        ItemBuilder.listMarks, if_neg (Nat.ne_of_gt pos), marks]
      rfl

end TypedColumns.Codec
