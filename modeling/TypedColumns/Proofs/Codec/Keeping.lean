import TypedColumns.Codec.Flat
import TypedColumns.Proofs.Builder.Finishing

/-!
# Codecs that keep their rows

A codec keeps its rows when the builder is at every time a function of the rows appended so far:
`Codec.Keeps` names that function, `build`, and says that each way of appending leads from the
builder of some rows to the builder of these rows and the new one. Rows that were appended are
values or missing. What the builder of given rows finishes to is the last law.

The laws of flat codecs are here. A codec that leaves its values to another one has that one's laws.
-/

namespace TypedColumns

universe u

namespace Write

/-- A write that succeeds is followed by the next one. -/
theorem apply_bind {w : Write} {next : Unit → Write} {b b' : Builder}
    (done : w.apply b = (.ok (), b')) : Write.apply (w >>= next) b = (next ()).apply b' := by
  change ExceptT.bindCont next (w b).1 (w b).2 = _
  have result : w b = (.ok (), b') := done
  rw [result]
  rfl

/-- A row of writes that succeeds does so write by write. -/
theorem apply_bind_ok {w : Write} {next : Unit → Write} {b b' : Builder}
    (done : Write.apply (w >>= next) b = (.ok (), b')) :
    ∃ b₁, w.apply b = (.ok (), b₁) ∧ (next ()).apply b₁ = (.ok (), b') := by
  change ExceptT.bindCont next (w b).1 (w b).2 = _ at done
  rcases first : w b with ⟨_ | _, b₁⟩
  · rw [first] at done
    cases done
  · rw [first] at done
    exact ⟨b₁, first, done⟩

theorem apply_change {name : String} {f : Builder → Option Builder} {b b' : Builder}
    (changed : f b = some b') : (change name f).apply b = (.ok (), b') := by
  simp only [change, of, apply, changed]

theorem apply_changeItem {name : String} {f : ItemBuilder → Option ItemBuilder}
    {items items' : ItemBuilder} (changed : f items = some items') :
    (changeItem name f).apply (.item items) = (.ok (), .item items') := by
  apply apply_change
  rw [Builder.mapItem?, changed]
  rfl

theorem apply_missing {name : String} {b b' : Builder} (added : b.appendNull = (.ok (), b')) :
    (missing name).apply b = (.ok (), b') := by
  simp only [missing, of, apply, added]

end Write

/-- The builder is that of the rows appended so far, and finishes to a column of them. -/
structure Codec.Keeps {α : Type u} [Footprint α] (c : Codec α) (build : List (Option α) → Builder)
    (value : Option α → Value) : Prop where
  newBuilder : c.newBuilder = build []
  kind : ∀ rows, (build rows).kind = c.kind
  length : ∀ rows, (build rows).length = rows.length
  append : ∀ rows a, (c.append a).apply (build rows) = (.ok (), build (rows ++ [some a]))
  missing : ∀ rows, (build rows).appendNull = (.ok (), build (rows ++ [none]))
  appendNull : ∀ rows, c.appendNull.apply (build rows) = (.ok (), build (rows ++ [none]))
  appendOption : ∀ rows row,
    (c.appendOption row).apply (build rows) = (.ok (), build (rows ++ [row]))
  appendAll : ∀ rows as, (c.appendAll as).apply (build rows) = (.ok (), build (rows ++ as.map some))
  finishes : ∀ rows, (build rows).Finishes c.descriptor.dataType (rows.map value)

namespace Codec

/-- No row is lost, doubled or moved, and rows read as `value` says. -/
def Faithful {α : Type u} [Footprint α] (c : Codec α) (value : Option α → Value) : Prop :=
  ∃ build, c.Keeps build value

section

variable {α : Type u} [Footprint α] {c : Codec α} {build : List (Option α) → Builder}

/-- The rule for optional values that a codec may replace. -/
theorem apply_appendOption
    (append : ∀ rows a, (c.append a).apply (build rows) = (.ok (), build (rows ++ [some a])))
    (null : ∀ rows, c.appendNull.apply (build rows) = (.ok (), build (rows ++ [none])))
    (rule : c.appendOption = fun | some a => c.append a | none => c.appendNull)
    (rows : List (Option α)) (row : Option α) :
    (c.appendOption row).apply (build rows) = (.ok (), build (rows ++ [row])) := by
  rw [rule]
  cases row with
  | none => exact null rows
  | some a => exact append rows a

/-- A codec that leaves missing values to the builder, and optional values to the rule. -/
theorem keeps_of_rules {value : Option α → Value} {name : String}
    (newBuilder : c.newBuilder = build []) (kind : ∀ rows, (build rows).kind = c.kind)
    (length : ∀ rows, (build rows).length = rows.length)
    (append : ∀ rows a, (c.append a).apply (build rows) = (.ok (), build (rows ++ [some a])))
    (missing : ∀ rows, (build rows).appendNull = (.ok (), build (rows ++ [none])))
    (nulls : c.appendNull = .missing name)
    (options : c.appendOption = fun | some a => c.append a | none => c.appendNull)
    (appendAll : ∀ rows as,
      (c.appendAll as).apply (build rows) = (.ok (), build (rows ++ as.map some)))
    (finishes : ∀ rows, (build rows).Finishes c.descriptor.dataType (rows.map value)) :
    c.Keeps build value := by
  have null : ∀ rows, c.appendNull.apply (build rows) = (.ok (), build (rows ++ [none])) := by
    intro rows
    rw [nulls]
    exact Write.apply_missing (missing rows)
  exact ⟨newBuilder, kind, length, append, missing, null, apply_appendOption append null options,
    appendAll, finishes⟩

/-- Values that are appended one by one. -/
theorem apply_forM_append
    (append : ∀ rows a, (c.append a).apply (build rows) = (.ok (), build (rows ++ [some a])))
    (rows : List (Option α)) (as : List α) :
    Write.apply (as.forM c.append) (build rows) = (.ok (), build (rows ++ as.map some)) := by
  induction as generalizing rows with
  | nil =>
    rw [List.map_nil, List.append_nil]
    rfl
  | cons a as ih =>
    have rest := ih (rows ++ [some a])
    rw [List.append_assoc] at rest
    exact (Write.apply_bind (append rows a)).trans rest

/-- The rule for runs of values that a codec may replace. -/
theorem apply_appendAll
    (append : ∀ rows a, (c.append a).apply (build rows) = (.ok (), build (rows ++ [some a])))
    (rule : c.appendAll = fun as => as.forM c.append) (rows : List (Option α)) (as : List α) :
    (c.appendAll as).apply (build rows) = (.ok (), build (rows ++ as.map some)) := by
  rw [rule]
  exact apply_forM_append append rows as

end

/-! ## Numbers, truth values and texts -/

theorem append_replicate_one {α : Type} (slots : List α) (a : α) :
    slots.toArray ++ Array.replicate 1 a = (slots ++ [a]).toArray := by
  simp

/-- The builder of numbers. -/
def numberBuilder (type : NumberType) (rows : List (Option type.Bits)) : Builder :=
  .item (.number type rows.toArray)

theorem number_keeps (type : NumberType) :
    (number type).Keeps (numberBuilder type) (.ofSlot (.number type)) := by
  have append : ∀ (rows : List (Option type.Bits)) (a : type.Bits),
      ((number type).append a).apply (.item (.number type rows.toArray)) =
        (.ok (), .item (.number type (rows ++ [some a]).toArray)) := by
    intro rows a
    apply Write.apply_changeItem
    rw [ItemBuilder.appendNumber?, dif_pos rfl, List.push_toArray]
  have null : ∀ rows : List (Option type.Bits),
      (Builder.item (.number type rows.toArray)).appendNull =
        (.ok (), .item (.number type (rows ++ [none]).toArray)) := by
    intro rows
    rw [Builder.appendNull, ItemBuilder.appendNulls, append_replicate_one]
  refine keeps_of_rules rfl (fun _ => rfl) (fun _ => rfl) append null rfl rfl ?_ ?_
  · intro rows as
    apply Write.apply_changeItem
    rw [ItemBuilder.appendNumbers?, dif_pos rfl, List.append_toArray]
  · intro rows
    exact Builder.finishes_item rfl rfl (Column.holds_number type rows)

theorem number_faithful (type : NumberType) :
    (number type).Faithful (.ofSlot (.number type)) :=
  ⟨_, number_keeps type⟩

/-- The builder of truth values. -/
def booleanBuilder (rows : List (Option Bool)) : Builder := .item (.boolean rows.toArray)

theorem boolean_keeps : boolean.Keeps booleanBuilder (.ofSlot .boolean) := by
  have append : ∀ (rows : List (Option Bool)) (a : Bool),
      (boolean.append a).apply (.item (.boolean rows.toArray)) =
        (.ok (), .item (.boolean (rows ++ [some a]).toArray)) := by
    intro rows a
    apply Write.apply_changeItem
    rw [ItemBuilder.appendBoolean?, List.push_toArray]
  have null : ∀ rows : List (Option Bool), (Builder.item (.boolean rows.toArray)).appendNull =
      (.ok (), .item (.boolean (rows ++ [none]).toArray)) := by
    intro rows
    rw [Builder.appendNull, ItemBuilder.appendNulls, append_replicate_one]
  refine keeps_of_rules rfl (fun _ => rfl) (fun _ => rfl) append null rfl rfl ?_ ?_
  · intro rows as
    apply Write.apply_changeItem
    rw [ItemBuilder.appendBooleans?, List.append_toArray]
  · intro rows
    exact Builder.finishes_item rfl rfl (Column.holds_boolean rows)

theorem boolean_faithful : boolean.Faithful (.ofSlot .boolean) :=
  ⟨_, boolean_keeps⟩

/-- The slots of texts. -/
def textSlots (rows : List (Option TextBuffer)) : List (Option String) :=
  rows.map fun row => row.map TextBuffer.content

/-- A text reads as its content; the room set aside for it does not show. -/
def readText : Option TextBuffer → Value := .ofSlot fun t => .text t.content

theorem text_faithful : text.Faithful readText := by
  have append : ∀ (rows : List (Option TextBuffer)) (a : TextBuffer),
      (text.append a).apply (.item (.text .narrow (textSlots rows).toArray)) =
        (.ok (), .item (.text .narrow
          (textSlots (rows ++ [some a])).toArray)) := by
    intro rows a
    apply Write.apply_changeItem
    rw [ItemBuilder.appendText?, List.push_toArray, textSlots, textSlots, List.map_append]
    rfl
  have null : ∀ rows : List (Option TextBuffer),
      (Builder.item (.text .narrow (textSlots rows).toArray)).appendNull =
        (.ok (), .item (.text .narrow
          (textSlots (rows ++ [none])).toArray)) := by
    intro rows
    rw [Builder.appendNull, ItemBuilder.appendNulls, append_replicate_one, textSlots,
      textSlots, List.map_append]
    rfl
  refine ⟨fun rows => .item (.text .narrow (textSlots rows).toArray),
    keeps_of_rules rfl (fun _ => rfl) ?_ append null rfl rfl (apply_appendAll append rfl) ?_⟩
  · intro rows
    simp [Builder.length, ItemBuilder.length, textSlots]
  · intro rows
    have same : (textSlots rows).map (.ofSlot .text) = rows.map readText := by
      rw [textSlots, List.map_map]
      apply List.map_congr_left
      rintro (_ | t) -
      · rfl
      · rfl
    rw [← same]
    exact Builder.finishes_item rfl rfl (Column.holds_text .narrow _)

end Codec

end TypedColumns
