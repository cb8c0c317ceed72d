import TypedColumns.Column.Check
import TypedColumns.Column.Rows

/-!
# Reading columns that hold given rows

`Column.Holds` says that a column of a type has certain rows and nothing against it. There is one
lemma for each way of nesting: it puts the rows of a nested column together from the rows of its
children. What a nested column records on top of its children (the ends of the runs of a list, the
positions of the rows of a union) is computed here from the rows alone.
-/

namespace TypedColumns

/-- Whether a row reads as missing. A row of a union does if the value it selected does. -/
def Value.isMissing : Value → Bool
  | .missing => true
  | .variant _ _ value => value.isMissing
  | _ => false

namespace Column

/-- A sound column of the type with these rows. -/
structure Holds (c : Column) (type : DataType) (values : List Value) : Prop where
  dataType : c.dataType = type
  length : c.length = values.length
  types : c.typeFault? = none
  offsets : c.offsetFault? = none
  rows : c.rows = values
  missing : c.missing = values.map Value.isMissing

/-! ## Flat columns -/

section Slots

variable {α : Type} {f : α → Value}

/-- A slot is empty just when it reads as missing, if no value does. -/
theorem map_isNone (present : ∀ a, (f a).isMissing = false) (slots : List (Option α)) :
    slots.map Option.isNone = (slots.map (Value.ofSlot f)).map Value.isMissing := by
  rw [List.map_map]
  apply List.map_congr_left
  rintro (_ | a) -
  · rfl
  · exact (present a).symm

end Slots

theorem holds_null (length : Nat) :
    (Column.null length).Holds .null (List.replicate length .missing) where
  dataType := rfl
  length := by simp [Column.length]
  types := by simp [typeFault?]
  offsets := by simp [offsetFault?]
  rows := by simp [rows]
  missing := by simp [missing, Value.isMissing]

theorem holds_boolean (slots : List (Option Bool)) :
    (Column.boolean slots).Holds .boolean (slots.map (.ofSlot .boolean)) where
  dataType := rfl
  length := by simp [Column.length]
  types := by simp [typeFault?]
  offsets := by simp [offsetFault?]
  rows := by simp [rows]
  missing := by rw [missing, map_isNone (f := .boolean) fun _ => rfl]

theorem holds_number (type : NumberType) (slots : List (Option type.Bits)) :
    (Column.number type slots).Holds (.number type) (slots.map (.ofSlot (.number type))) where
  dataType := rfl
  length := by simp [Column.length]
  types := by simp [typeFault?]
  offsets := by simp [offsetFault?]
  rows := by simp [rows]
  missing := by rw [missing, map_isNone (f := .number type) fun _ => rfl]

theorem holds_text (width : OffsetWidth) (slots : List (Option String)) :
    (Column.text width slots).Holds (.text width) (slots.map (.ofSlot .text)) where
  dataType := rfl
  length := by simp [Column.length]
  types := by simp [typeFault?]
  offsets := by simp [offsetFault?]
  rows := by simp [rows]
  missing := by rw [missing, map_isNone (f := .text) fun _ => rfl]

/-! ## Lists -/

section Runs

variable {α : Type}

/-- Where runs of the given lengths end, if the first one starts at `start`. -/
def ends (start : Nat) : List Nat → List Nat
  | [] => []
  | length :: rest => (start + length) :: ends (start + length) rest

@[simp] theorem length_ends (start : Nat) (lengths : List Nat) :
    (ends start lengths).length = lengths.length := by
  induction lengths generalizing start with
  | nil => rfl
  | cons length rest ih => simp [ends, ih]

/-- A further run ends where all runs together end. -/
theorem ends_append (start : Nat) (lists : List (List α)) (run : List α) :
    ends start ((lists ++ [run]).map List.length) =
      ends start (lists.map List.length) ++ [start + lists.flatten.length + run.length] := by
  induction lists generalizing start with
  | nil => simp [ends]
  | cons first rest ih =>
    rw [List.cons_append, List.map_cons, ends, ih, List.map_cons, ends, List.cons_append,
      List.flatten_cons, List.length_append, Nat.add_assoc start]

/-- The runs between the ends are the lists that were put one behind the other. -/
theorem runs_ends (front : List α) (lists : List (List α)) :
    runs (front ++ lists.flatten) (front.length :: ends front.length (lists.map List.length)) =
      lists := by
  induction lists generalizing front with
  | nil => simp [ends, runs]
  | cons run rest ih =>
    have next := ih (front ++ run)
    rw [List.append_assoc, ← List.flatten_cons, List.length_append] at next
    rw [List.map_cons, ends, runs, next, List.flatten_cons, List.drop_left]
    have size : front.length + run.length - front.length = run.length := by omega
    rw [size, List.take_left]

/-- Ends of runs are offsets as they should be. -/
theorem offsetsFault?_ends {items start : Nat} (position : Nat) {lists : List (List α)}
    (fit : start + lists.flatten.length ≤ items) :
    offsetsFault? items position start (ends start (lists.map List.length)) = none := by
  induction lists generalizing start position with
  | nil => rfl
  | cons run rest ih =>
    rw [List.flatten_cons, List.length_append] at fit
    have inside : ¬ items < start + run.length := by omega
    have ascending : ¬ start + run.length < start := by omega
    rw [List.map_cons, ends, offsetsFault?, if_neg inside, if_neg ascending]
    exact ih (position + 1) (by omega)

/-- The chunks of lists of one size are these lists. -/
theorem chunks_flatten {size : Nat} {lists : List (List α)}
    (sized : ∀ list ∈ lists, list.length = size) :
    chunks size lists.flatten lists.length = lists := by
  induction lists with
  | nil => rfl
  | cons list rest ih =>
    have head := sized list List.mem_cons_self
    have tail := ih fun other mem => sized other (List.mem_cons_of_mem _ mem)
    rw [List.length_cons, chunks, List.flatten_cons, ← head, List.take_left, List.drop_left, head,
      tail]

end Runs

theorem masked_map {α : Type} (present : α → Bool) (f : α → Value) (as : List α) :
    masked (as.map present) (as.map f) = as.map fun a => if present a then f a else .missing := by
  induction as with
  | nil => rfl
  | cons a as ih =>
    rw [List.map_cons, List.map_cons, List.map_cons, ← ih]
    rfl

section Lists

variable {type : DataType} {items : Column} {entries : List (Option (List Value))}

/-- The items that stand in a list's row. -/
def itemsOf (entry : Option (List Value)) : List Value := entry.getD []

/-- A list column reads as the lists whose items stand one behind the other. -/
theorem Holds.list {width : OffsetWidth} (held : items.Holds type (entries.map itemsOf).flatten) :
    (Column.list width (.item type) (entries.map Option.isSome)
      (0 :: ends 0 ((entries.map itemsOf).map List.length)) items).Holds (.list width (.item type))
      (entries.map (.ofSlot .list)) where
  dataType := rfl
  length := by simp [Column.length]
  types := by
    rw [typeFault?]
    exact held.types
  offsets := by
    have fit : 0 + (entries.map itemsOf).flatten.length ≤ items.length := by
      rw [held.length]
      omega
    have start : ¬ items.length < 0 := Nat.not_lt_zero _
    rw [offsetFault?, held.offsets, offsetsFault?, if_neg start, if_neg (Nat.lt_irrefl 0),
      offsetsFault?_ends _ fit]
    rfl
  rows := by
    have read := runs_ends [] (entries.map itemsOf)
    rw [List.nil_append, List.length_nil] at read
    rw [Column.rows, held.rows, read, List.map_map, masked_map]
    apply List.map_congr_left
    rintro (_ | values) -
    · rfl
    · rfl
  missing := by
    rw [Column.missing, ← map_isNone (f := .list) fun _ => rfl, List.map_map]
    apply List.map_congr_left
    rintro (_ | values) -
    · rfl
    · rfl

/-- The slots of a row of a list of fixed size. A missing row has as many as any other. -/
def slotsOf (size : Nat) (entry : Option (List Value)) : List Value :=
  entry.getD (List.replicate size .missing)

/-- A column of lists of fixed size reads as the lists whose slots stand one behind the other. -/
theorem Holds.fixedSizeList {size : Nat} (sized : ∀ list, some list ∈ entries → list.length = size)
    (held : items.Holds type (entries.map (slotsOf size)).flatten) :
    (Column.fixedSizeList (.item type) size (entries.map Option.isSome) items).Holds
      (.fixedSizeList (.item type) size) (entries.map (.ofSlot .list)) where
  dataType := rfl
  length := by simp [Column.length]
  types := by
    rw [typeFault?]
    exact held.types
  offsets := by
    rw [offsetFault?, held.offsets]
    rfl
  rows := by
    have all : ∀ list ∈ entries.map (slotsOf size), list.length = size := by
      intro list mem
      obtain ⟨_ | values, entry, rfl⟩ := List.mem_map.1 mem
      · exact List.length_replicate
      · exact sized values entry
    have read := chunks_flatten all
    rw [List.length_map] at read
    rw [Column.rows, held.rows, Int.toNat_natCast, List.length_map, read, List.map_map, masked_map]
    apply List.map_congr_left
    rintro (_ | values) -
    · rfl
    · rfl
  missing := by
    rw [Column.missing, ← map_isNone (f := .list) fun _ => rfl, List.map_map]
    apply List.map_congr_left
    rintro (_ | values) -
    · rfl
    · rfl

end Lists

end Column

end TypedColumns
