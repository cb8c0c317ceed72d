import TypedColumns.Proofs.Builder.Finishing

/-!
# Item builders of given values

`ItemBuilder.ofValues` is the item builder of a type after some values were added one by one: each
way of adding one leads from the builder of some values to the builder of these values and the new
one (`ofValues_put`), and the builder of given values finishes to a column that shows them
(`holds_ofValues`).
-/

namespace TypedColumns

open Column (Holds ends itemsOf slotsOf)

/-- The types that an item builder can have. Lists of fixed size hold at least one item. -/
inductive DataType.IsItem : DataType → Prop
  | null : IsItem .null
  | boolean : IsItem .boolean
  | number (type : NumberType) : IsItem (.number type)
  | text (width : OffsetWidth) : IsItem (.text width)
  | binary (width : OffsetWidth) : IsItem (.binary width)
  | list (width : OffsetWidth) {t : DataType} (item : IsItem t) : IsItem (.list width (.item t))
  | fixedSizeList {t : DataType} {size : Nat} (pos : 0 < size) (item : IsItem t) :
    IsItem (.fixedSizeList (.item t) size)

namespace Column

theorem holds_binary (width : OffsetWidth) (slots : List (Option Bytes)) :
    (Column.binary width slots).Holds (.binary width) (slots.map (.ofSlot .binary)) where
  dataType := rfl
  length := by simp [Column.length]
  types := by simp [Column.typeFault?]
  offsets := by simp [Column.offsetFault?]
  rows := by simp [Column.rows]
  missing := by rw [Column.missing, Column.map_isNone (f := .binary) fun _ => rfl]

end Column

namespace Value

/-- The values that an item builder of the type can hold. -/
inductive IsItemOf : DataType → Value → Prop
  | missing (t : DataType) : IsItemOf t .missing
  | boolean (value : Bool) : IsItemOf .boolean (.boolean value)
  | number (type : NumberType) (bits : type.Bits) : IsItemOf (.number type) (.number type bits)
  | text (width : OffsetWidth) (value : String) : IsItemOf (.text width) (.text value)
  | binary (width : OffsetWidth) (value : Bytes) : IsItemOf (.binary width) (.binary value)
  | list (width : OffsetWidth) {t : DataType} {items : List Value}
    (all : ∀ v ∈ items, IsItemOf t v) : IsItemOf (.list width (.item t)) (.list items)
  | fixedSizeList {t : DataType} {size : Nat} {items : List Value} (sized : items.length = size)
    (all : ∀ v ∈ items, IsItemOf t v) : IsItemOf (.fixedSizeList (.item t) size) (.list items)

/-! ### Slots -/

def boolean? : Value → Option Bool
  | .boolean value => some value
  | _ => none

def number? (type : NumberType) : Value → Option type.Bits
  | .number t bits => if h : t = type then some (h ▸ bits) else none
  | _ => none

def text? : Value → Option String
  | .text value => some value
  | _ => none

def binary? : Value → Option Bytes
  | .binary value => some value
  | _ => none

def list? : Value → Option (List Value)
  | .list items => some items
  | _ => none

/-- The items that a row of a list takes. -/
def run (v : Value) : List Value := itemsOf v.list?

/-- The slots that a row of a list of fixed size takes. -/
def slots (size : Nat) (v : Value) : List Value := slotsOf size v.list?

theorem IsItemOf.of_run {t : DataType} {width : OffsetWidth} {v w : Value}
    (typed : v.IsItemOf (.list width (.item t))) (mem : w ∈ v.run) : w.IsItemOf t := by
  cases typed with
  | missing => cases mem
  | list _ all => exact all w mem

theorem IsItemOf.of_slots {t : DataType} {size : Nat} {v w : Value}
    (typed : v.IsItemOf (.fixedSizeList (.item t) size)) (mem : w ∈ v.slots size) :
    w.IsItemOf t := by
  cases typed with
  | missing => exact List.eq_of_mem_replicate mem ▸ .missing t
  | fixedSizeList sized all => exact all w mem

mutual

/-- Adds a value to an item builder: a list item by item, then the end of its row. -/
def put : Value → ItemBuilder → Option ItemBuilder
  | .missing, b => some (b.appendNulls 1)
  | .boolean value, b => b.appendBoolean? value
  | .number type bits, b => b.appendNumber? type bits
  | .text value, b => b.appendText? value
  | .binary value, b => b.appendBinary? value
  | .list items, b => (b.mapItems? (putAll items)).bind (·.endRow? true)
  | .struct _, _ => none
  | .variant _ _ _, _ => none

/-- Adds values in order. -/
def putAll : List Value → ItemBuilder → Option ItemBuilder
  | [], b => some b
  | v :: vs, b => (put v b).bind (putAll vs)

end

end Value

namespace ItemBuilder

mutual

/-- A new item builder of the type. -/
def ofType : DataType → ItemBuilder
  | .null => .null 0
  | .boolean => .boolean #[]
  | .number type => .number type #[]
  | .text width => .text width #[]
  | .binary width => .binary width #[]
  | .list width item => .list width #[] (ofItem item)
  | .fixedSizeList item size => .fixedSizeList size.toNat #[] (ofItem item)
  | _ => .null 0

def ofItem : Field → ItemBuilder
  | ⟨_, type, _⟩ => ofType type

end

/-- What a list builder records of its rows: whether each is there, and where its items end. -/
def listRows (vs : List Value) : List (Bool × Nat) :=
  (vs.map (·.list?.isSome)).zip (ends 0 ((vs.map Value.run).map List.length))

mutual

/-- The item builder of the type that holds the values. -/
def ofValues : DataType → List Value → ItemBuilder
  | .null, vs => .null vs.length
  | .boolean, vs => .boolean (vs.map Value.boolean?).toArray
  | .number type, vs => .number type (vs.map (Value.number? type)).toArray
  | .text width, vs => .text width (vs.map Value.text?).toArray
  | .binary width, vs => .binary width (vs.map Value.binary?).toArray
  | .list width item, vs =>
    .list width (listRows vs).toArray (ofItemValues item (vs.map Value.run).flatten)
  | .fixedSizeList item size, vs =>
    .fixedSizeList size.toNat (vs.map (·.list?.isSome)).toArray
      (ofItemValues item (vs.map (Value.slots size.toNat)).flatten)
  | _, vs => .null vs.length

def ofItemValues : Field → List Value → ItemBuilder
  | ⟨_, type, _⟩, vs => ofValues type vs

end

theorem ofValues_list (width : OffsetWidth) (t : DataType) (vs : List Value) :
    ofValues (.list width (.item t)) vs =
      .list width (listRows vs).toArray (ofValues t (vs.map Value.run).flatten) := rfl

theorem ofValues_fixedSizeList (t : DataType) (size : Nat) (vs : List Value) :
    ofValues (.fixedSizeList (.item t) size) vs =
      .fixedSizeList size (vs.map (·.list?.isSome)).toArray
        (ofValues t (vs.map (Value.slots size)).flatten) := rfl

theorem ofValues_nil {t : DataType} (item : t.IsItem) : ofValues t [] = ofType t := by
  induction item with
  | list width item ih => exact congrArg (ItemBuilder.list width #[]) ih
  | @fixedSizeList t size pos item ih => exact congrArg (ItemBuilder.fixedSizeList size #[]) ih
  | _ => rfl

@[simp] theorem length_listRows (vs : List Value) : (listRows vs).length = vs.length := by
  simp [listRows]

@[simp] theorem length_ofValues {t : DataType} (item : t.IsItem) (vs : List Value) :
    (ofValues t vs).length = vs.length := by
  cases item <;> simp [ofValues, length]

/-! ## Adding missing values -/

theorem appendNulls_zero (b : ItemBuilder) : b.appendNulls 0 = b := by
  induction b <;> simp_all [appendNulls]

/-- Missing values that can be added one by one can be added all at once. -/
theorem appendNulls_of_one {t : DataType}
    (one : ∀ vs, (ofValues t vs).appendNulls 1 = ofValues t (vs ++ [.missing])) (n : Nat)
    (vs : List Value) :
    (ofValues t vs).appendNulls n = ofValues t (vs ++ List.replicate n .missing) := by
  induction n with
  | zero => rw [appendNulls_zero, List.replicate_zero, List.append_nil]
  | succ n ih => rw [appendNulls_add, ih, one, List.append_assoc, ← List.replicate_succ']

/-- A further row ends behind all items. -/
theorem listRows_append (vs : List Value) (v : Value) :
    listRows (vs ++ [v]) =
      listRows vs ++ [(v.list?.isSome, ((vs.map Value.run).flatten ++ v.run).length)] := by
  have same : (vs.map (·.list?.isSome)).length =
      (ends 0 ((vs.map Value.run).map List.length)).length := by simp
  rw [listRows, List.map_append, List.map_append, List.map_singleton, List.map_singleton,
    Column.ends_append, List.zip_append same, Nat.zero_add, List.length_append]
  rfl

theorem runs_append (vs : List Value) (v : Value) :
    ((vs ++ [v]).map Value.run).flatten = (vs.map Value.run).flatten ++ v.run := by
  simp

theorem slots_append (size : Nat) (vs : List Value) (v : Value) :
    ((vs ++ [v]).map (Value.slots size)).flatten =
      (vs.map (Value.slots size)).flatten ++ v.slots size := by
  simp

theorem ofValues_missing {t : DataType} (item : t.IsItem) (vs : List Value) :
    (ofValues t vs).appendNulls 1 = ofValues t (vs ++ [.missing]) := by
  induction item generalizing vs with
  | list width item ih =>
    have none : Value.missing.run = [] := rfl
    rw [ofValues_list, ofValues_list, appendNulls, listRows_append, runs_append, none,
      List.append_nil, length_ofValues item]
    simp [Value.list?]
  | fixedSizeList pos item ih =>
    have all (size : Nat) : Value.missing.slots size = List.replicate size .missing := rfl
    rw [ofValues_fixedSizeList, ofValues_fixedSizeList, appendNulls, appendNulls_of_one ih,
      Nat.one_mul, slots_append, all]
    simp [Value.list?]
  | _ => simp [ofValues, appendNulls, Value.boolean?, Value.number?, Value.text?, Value.binary?]

/-! ## Adding values -/

/-- Values that can be added one by one can be added in order. -/
theorem putAll_of_put {t : DataType} {added : List Value}
    (put : ∀ v ∈ added, ∀ vs, v.put (ofValues t vs) = some (ofValues t (vs ++ [v])))
    (vs : List Value) : Value.putAll added (ofValues t vs) = some (ofValues t (vs ++ added)) := by
  induction added generalizing vs with
  | nil => rw [Value.putAll, List.append_nil]
  | cons v added ih =>
    have rest := ih (fun w mem => put w (List.mem_cons_of_mem v mem)) (vs ++ [v])
    rw [Value.putAll, put v List.mem_cons_self, Option.bind_some, rest, List.append_assoc]
    rfl

theorem ofValues_put {t : DataType} {v : Value} (typed : v.IsItemOf t) (item : t.IsItem)
    (vs : List Value) : v.put (ofValues t vs) = some (ofValues t (vs ++ [v])) := by
  induction typed generalizing vs with
  | missing t => rw [Value.put, ofValues_missing item]
  | @list width t items all ih =>
    cases item with
    | list _ item =>
      have inner := putAll_of_put (fun v mem => ih v mem item) (vs.map Value.run).flatten
      have taken : (Value.list items).run = items := rfl
      rw [ofValues_list, ofValues_list, Value.put, mapItems?, inner, Option.map_some,
        Option.bind_some, endRow?, listRows_append, runs_append, taken, length_ofValues item]
      simp [Value.list?]
  | @fixedSizeList t size items sized all ih =>
    cases item with
    | fixedSizeList pos item =>
      have inner := putAll_of_put (fun v mem => ih v mem item) (vs.map (Value.slots size)).flatten
      have taken : (Value.list items).slots size = items := rfl
      rw [ofValues_fixedSizeList, ofValues_fixedSizeList, Value.put, mapItems?, inner,
        Option.map_some, Option.bind_some, endRow?, slots_append, taken]
      simp [Value.list?]
  | number type bits =>
    rw [Value.put, ofValues, appendNumber?, dif_pos rfl]
    simp [ofValues, Value.number?]
  | _ =>
    simp [Value.put, ofValues, appendBoolean?, appendText?, appendBinary?, Value.boolean?,
      Value.text?, Value.binary?]

/-! ## Finishing -/

/-- Slots that hold values read as these. -/
theorem map_slots {α : Type} {f : Value → Option α} {g : α → Value} {vs : List Value}
    (same : ∀ v ∈ vs, Value.ofSlot g (f v) = v) : (vs.map f).map (Value.ofSlot g) = vs := by
  rw [List.map_map]
  exact (List.map_congr_left same).trans (List.map_id vs)

/-- The items of all rows are values of the items' type. -/
theorem isItemOf_flatten {t item : DataType} {taken : Value → List Value} {vs : List Value}
    (typed : ∀ v ∈ vs, v.IsItemOf t)
    (inside : ∀ v : Value, v.IsItemOf t → ∀ w ∈ taken v, w.IsItemOf item) :
    ∀ w ∈ (vs.map taken).flatten, w.IsItemOf item := by
  rintro w mem
  obtain ⟨_, listed, here⟩ := List.mem_flatten.1 mem
  obtain ⟨v, row, rfl⟩ := List.mem_map.1 listed
  exact inside v (typed v row) w here

theorem column?_list {width : OffsetWidth} {t : DataType} {vs : List Value} {c : Column}
    (column : (ofValues t (vs.map Value.run).flatten).column? = some c) (type : c.dataType = t) :
    (ofValues (.list width (.item t)) vs).column? =
      some (.list width (.item t) (vs.map (·.list?.isSome))
        (0 :: ends 0 ((vs.map Value.run).map List.length)) c) := by
  have marks : (listRows vs).map (·.1) = vs.map (·.list?.isSome) := by
    rw [listRows, List.map_fst_zip (by simp)]
  have stops : (listRows vs).map (·.2) = ends 0 ((vs.map Value.run).map List.length) := by
    rw [listRows, List.map_snd_zip (by simp)]
  rw [ofValues_list, column?, column, Option.map_some, type, List.toList_toArray, marks, stops]

theorem column?_fixedSizeList {t : DataType} {size : Nat} {vs : List Value} {c : Column}
    (pos : 0 < size) (sized : c.length = vs.length * size) (type : c.dataType = t)
    (column : (ofValues t (vs.map (Value.slots size)).flatten).column? = some c) :
    (ofValues (.fixedSizeList (.item t) size) vs).column? =
      some (.fixedSizeList (.item t) size (vs.map (·.list?.isSome)) c) := by
  have even : c.length = (vs.map (·.list?.isSome)).toArray.size * size := by
    rw [sized, List.size_toArray, List.length_map]
  rw [ofValues_fixedSizeList, column?, column, Option.bind_some, if_pos even, type,
    List.toList_toArray, listMarks, if_neg (Nat.ne_of_gt pos)]

theorem length_slots {t : DataType} {size : Nat} {v : Value}
    (typed : v.IsItemOf (.fixedSizeList (.item t) size)) : (v.slots size).length = size := by
  cases typed with
  | missing => exact List.length_replicate
  | fixedSizeList sized all => exact sized

theorem length_flatten_slots {t : DataType} {size : Nat} {vs : List Value}
    (typed : ∀ v ∈ vs, v.IsItemOf (.fixedSizeList (.item t) size)) :
    (vs.map (Value.slots size)).flatten.length = vs.length * size := by
  have same : vs.map (List.length ∘ Value.slots size) = List.replicate vs.length size := by
    refine List.eq_replicate_iff.2 ⟨List.length_map _, ?_⟩
    rintro n mem
    obtain ⟨v, row, rfl⟩ := List.mem_map.1 mem
    exact length_slots (typed v row)
  rw [List.length_flatten, List.map_map, same, List.sum_replicate_nat]

/-- The builder of given values finishes to a column that shows them. -/
theorem holds_ofValues {t : DataType} (item : t.IsItem) {vs : List Value}
    (typed : ∀ v ∈ vs, v.IsItemOf t) :
    ∃ c, (ofValues t vs).column? = some c ∧ c.Holds t vs := by
  induction item generalizing vs with
  | null =>
    have same : List.replicate vs.length .missing = vs := by
      refine (List.eq_replicate_of_mem fun v mem => ?_).symm
      cases typed v mem
      rfl
    have held := Column.holds_null vs.length
    rw [same] at held
    exact ⟨_, rfl, held⟩
  | boolean =>
    have same : (vs.map Value.boolean?).map (Value.ofSlot .boolean) = vs :=
      map_slots fun v mem => by cases typed v mem <;> rfl
    have held := Column.holds_boolean (vs.map Value.boolean?)
    rw [same] at held
    exact ⟨_, rfl, held⟩
  | number type =>
    have same : (vs.map (Value.number? type)).map (Value.ofSlot (.number type)) = vs :=
      map_slots fun v mem => by cases typed v mem <;> simp [Value.number?, Value.ofSlot]
    have held := Column.holds_number type (vs.map (Value.number? type))
    rw [same] at held
    exact ⟨_, rfl, held⟩
  | text width =>
    have same : (vs.map Value.text?).map (Value.ofSlot .text) = vs :=
      map_slots fun v mem => by cases typed v mem <;> rfl
    have held := Column.holds_text width (vs.map Value.text?)
    rw [same] at held
    exact ⟨_, rfl, held⟩
  | binary width =>
    have same : (vs.map Value.binary?).map (Value.ofSlot .binary) = vs :=
      map_slots fun v mem => by cases typed v mem <;> rfl
    have held := Column.holds_binary width (vs.map Value.binary?)
    rw [same] at held
    exact ⟨_, rfl, held⟩
  | @list width t item ih =>
    obtain ⟨c, column, inner⟩ := ih (isItemOf_flatten typed fun v typed w => typed.of_run)
    have same : (vs.map Value.list?).map (Value.ofSlot .list) = vs :=
      map_slots fun v mem => by cases typed v mem <;> rfl
    have runs : (vs.map Value.list?).map itemsOf = vs.map Value.run := List.map_map
    have marks : (vs.map Value.list?).map Option.isSome = vs.map (·.list?.isSome) := List.map_map
    rw [← runs] at inner
    have held := @Column.Holds.list t c _ width inner
    rw [same, runs, marks] at held
    exact ⟨_, column?_list column inner.dataType, held⟩
  | @fixedSizeList t size pos item ih =>
    obtain ⟨c, column, inner⟩ := ih (isItemOf_flatten typed fun v typed w => typed.of_slots)
    have same : (vs.map Value.list?).map (Value.ofSlot .list) = vs :=
      map_slots fun v mem => by cases typed v mem <;> rfl
    have slots : (vs.map Value.list?).map (slotsOf size) = vs.map (Value.slots size) := List.map_map
    have marks : (vs.map Value.list?).map Option.isSome = vs.map (·.list?.isSome) := List.map_map
    have sized : ∀ list, some list ∈ vs.map Value.list? → list.length = size := by
      rintro list mem
      obtain ⟨v, row, here⟩ := List.mem_map.1 mem
      cases typed v row with
      | missing => cases here
      | fixedSizeList sized all => cases here; exact sized
    have length : c.length = vs.length * size := by
      rw [inner.length, length_flatten_slots typed]
    rw [← slots] at inner
    have held := Column.Holds.fixedSizeList sized inner
    rw [same, marks] at held
    exact ⟨_, column?_fixedSizeList pos length inner.dataType column, held⟩

/-- Nothing is wrong with the number of items in the builder of given values. -/
theorem lengthFault?_ofValues {t : DataType} (item : t.IsItem) {vs : List Value}
    (typed : ∀ v ∈ vs, v.IsItemOf t) : (ofValues t vs).lengthFault? = none := by
  cases item with
  | @fixedSizeList t size pos item =>
    have even : (ofValues t (vs.map (Value.slots size)).flatten).length =
        (vs.map (·.list?.isSome)).toArray.size * size := by
      rw [length_ofValues item, length_flatten_slots typed, List.size_toArray, List.length_map]
    rw [ofValues_fixedSizeList, lengthFault?, if_pos even]
  | _ => rfl

/-- The builder of given values finishes to a column that shows them. -/
theorem finishes_ofValues {t : DataType} (item : t.IsItem) {vs : List Value}
    (typed : ∀ v ∈ vs, v.IsItemOf t) : (Builder.item (ofValues t vs)).Finishes t vs := by
  obtain ⟨c, column, held⟩ := holds_ofValues item typed
  exact Builder.finishes_item (lengthFault?_ofValues item typed) column held

end ItemBuilder

end TypedColumns
