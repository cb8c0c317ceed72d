import TypedColumns.Proofs.Builder.Finished
import TypedColumns.Proofs.Rows.Complete

/-!
# Finishing builders of given rows

A builder that has been given rows finishes just if all of them are complete, and then to a sound
column that reads as these rows (`Has.settled`). A builder with children reduces this to its
children: a struct asks in addition which of its rows lack a required value, a union asks for
nothing that its rows do not already have.
-/

namespace TypedColumns

open Builder (Has unionRows)

namespace Column

/-- A sound column of the type that reads as the values. -/
structure Shows (c : Column) (t : DataType) (values : List Value) : Prop where
  dataType : c.dataType = t
  sound : c.Sound
  rows : c.rows = values

section

variable {c : Column} {t : DataType} {values : List Value}

theorem Shows.length (shown : c.Shows t values) : c.length = values.length := by
  rw [← length_rows shown.sound, shown.rows]

theorem Shows.missing (shown : c.Shows t values) : c.missing = values.map (·.missingAs t) := by
  rw [shown.sound.missing_eq, shown.rows, shown.dataType]

end

/-- With marks and children of the same rows, a struct asks for nothing but its fields. -/
theorem structOf_marks? {fields : List Field} {validity : List Bool} {columns : List Column}
    {c : Column} (nonempty : columns ≠ [])
    (lengths : ∀ child ∈ columns, child.length = validity.length) :
    structOf fields (marks? validity) columns = .ok c ↔
      fieldFault? validity fields columns = none ∧ c = .struct fields validity columns := by
  cases columns with
  | nil => exact absurd rfl nonempty
  | cons first others =>
    have rows := lengths first List.mem_cons_self
    simp only [structOf]
    rw [rows, marks?_getD, if_neg fun other => other rfl]
    cases fieldFault? validity fields (first :: others) with
    | some fault =>
      constructor
      · intro made
        cases made
      · rintro ⟨clean, -⟩
        cases clean
    | none =>
      constructor
      · intro made
        exact ⟨rfl, (Except.ok.inj made).symm⟩
      · rintro ⟨-, rfl⟩
        rfl

end Column

/-! ## Children -/

namespace Builder

theorem exists_finishAll {children : List Builder}
    (each : ∀ child ∈ children, ∃ c, child.finish.1 = .ok c) :
    ∃ columns, (finishAll children).1 = .ok columns := by
  induction children with
  | nil => exact ⟨[], by rw [finishAll]⟩
  | cons b bs ih =>
    obtain ⟨c, first⟩ := each b List.mem_cons_self
    obtain ⟨cs, others⟩ := ih fun child mem => each child (List.mem_cons_of_mem b mem)
    exact ⟨c :: cs, finishAll_cons first others⟩

/-- If every child that finishes has a counterpart that does so too, to a related column, then all
counterparts finish together. -/
theorem finishAll_related {R : Column → Column → Prop} {children others : List Builder}
    {columns : List Column} (each : Alongside (fun child other => ∀ c, child.finish.1 = .ok c →
      ∃ d, other.finish.1 = .ok d ∧ R c d) children others)
    (finished : (finishAll children).1 = .ok columns) :
    ∃ columns', (finishAll others).1 = .ok columns' ∧ Alongside R columns columns' := by
  obtain ⟨number, made⟩ := finishAll_ok finished
  have relate (i : Nat) (other : Builder) (found' : others[i]? = some other) :
      ∃ c d, columns[i]? = some c ∧ other.finish.1 = .ok d ∧ R c d := by
    obtain ⟨child, found, finishes⟩ := each.of_getElem? found'
    have inside : i < columns.length := number ▸ (List.getElem?_eq_some_iff.1 found).1
    have column := List.getElem?_eq_getElem inside
    obtain ⟨own, here, done⟩ := made i _ column
    obtain rfl : child = own := Option.some.inj (found.symm.trans here)
    obtain ⟨d, done', related⟩ := finishes _ done
    exact ⟨_, d, column, done', related⟩
  obtain ⟨columns', finished'⟩ : ∃ columns', (finishAll others).1 = .ok columns' := by
    refine exists_finishAll fun other mem => ?_
    obtain ⟨i, inside, rfl⟩ := List.getElem_of_mem mem
    obtain ⟨_, d, -, done', -⟩ := relate i _ (List.getElem?_eq_getElem inside)
    exact ⟨d, done'⟩
  obtain ⟨number', made'⟩ := finishAll_ok finished'
  refine ⟨columns', finished', by rw [number', number, each.1], fun i c d column column' => ?_⟩
  obtain ⟨other, found', done'⟩ := made' i d column'
  obtain ⟨c₁, d₁, same, done, related⟩ := relate i other found'
  obtain rfl : c₁ = c := Option.some.inj (same.symm.trans column)
  obtain rfl : d₁ = d := Except.ok.inj (done.symm.trans done')
  exact related

theorem structFault?_eq_none {fields : List Field} {validity : Array Bool}
    {children : List Builder} (count : children.length = fields.length)
    (lengths : ∀ child ∈ children, child.length = validity.size) :
    structFault? fields validity children = none := by
  rw [structFault?, if_neg fun other => other count]
  clear count
  induction children generalizing fields with
  | nil => cases fields <;> rfl
  | cons b bs ih =>
    cases fields with
    | nil => rfl
    | cons f fs =>
      rw [fieldLengthFault?, if_neg fun other => other (lengths b List.mem_cons_self)]
      exact ih fun child mem => lengths child (List.mem_cons_of_mem b mem)

theorem unionFault?_eq_none {variants : List Variant} {marks : Array (TypeId × Nat)}
    {children : List Builder} (count : children.length = variants.length)
    (lengths : ∀ (i : Nat) (v : Variant) (child : Builder), variants[i]? = some v →
      children[i]? = some child → selections marks v.id = child.length) :
    unionFault? variants marks children = none := by
  rw [unionFault?, if_neg fun other => other count]
  clear count
  induction children generalizing variants with
  | nil => cases variants <;> rfl
  | cons b bs ih =>
    cases variants with
    | nil => rfl
    | cons v vs =>
      rw [variantLengthFault?, if_neg fun other => other (lengths 0 v b rfl rfl)]
      exact ih fun i w child => lengths (i + 1) w child

theorem counts_of_finish_struct {fields : List Field} {validity : Array Bool}
    {children : List Builder} {c : Column}
    (finished : (Builder.struct fields validity children).finish.1 = .ok c) :
    structFault? fields validity children = none := by
  cases counts : structFault? fields validity children with
  | none => rfl
  | some fault =>
    rw [finish, counts] at finished
    cases finished

theorem counts_of_finish_union {variants : List Variant} {marks : Array (TypeId × Nat)}
    {children : List Builder} {c : Column}
    (finished : (Builder.union variants marks children).finish.1 = .ok c) :
    unionFault? variants marks children = none := by
  cases counts : unionFault? variants marks children with
  | none => rfl
  | some fault =>
    rw [finish, counts] at finished
    cases finished

theorem finish_item {items : ItemBuilder} {c : Column} :
    (Builder.item items).finish.1 = .ok c ↔
      items.lengthFault? = none ∧ items.column? = some c := by
  rw [finish, ItemBuilder.finish]
  cases items.lengthFault? with
  | some fault =>
    constructor
    · intro made
      cases made
    · rintro ⟨counted, -⟩
      cases counted
  | none =>
    cases items.column? with
    | none =>
      constructor
      · intro made
        cases made
      · rintro ⟨-, made⟩
        cases made
    | some column =>
      constructor
      · intro made
        exact ⟨rfl, congrArg some (Except.ok.inj made)⟩
      · rintro ⟨-, made⟩
        exact congrArg Except.ok (Option.some.inj made)

theorem finish_struct {fields : List Field} {validity : Array Bool} {children : List Builder}
    {c : Column} (counts : structFault? fields validity children = none) :
    (Builder.struct fields validity children).finish.1 = .ok c ↔
      ∃ columns, (finishAll children).1 = .ok columns ∧
        Column.structOf fields (Column.marks? validity.toList) columns = .ok c := by
  rcases finished : finishAll children with ⟨_ | columns, children'⟩
  · rw [finish, counts, finished]
    constructor
    · intro made
      cases made
    · rintro ⟨columns, made, -⟩
      cases made
  · rw [finish, counts, finished]
    constructor
    · intro made
      exact ⟨columns, rfl, made⟩
    · rintro ⟨_, same, made⟩
      cases same
      exact made

theorem finish_union {variants : List Variant} {marks : Array (TypeId × Nat)}
    {children : List Builder} {c : Column}
    (counts : unionFault? variants marks children = none) :
    (Builder.union variants marks children).finish.1 = .ok c ↔
      ∃ columns, (finishAll children).1 = .ok columns ∧
        Column.unionOf variants (marks.toList.map (·.1)) (marks.toList.map (·.2)) columns =
          .ok c := by
  rcases finished : finishAll children with ⟨_ | columns, children'⟩
  · rw [finish, counts, finished]
    constructor
    · intro made
      cases made
    · rintro ⟨columns, made, -⟩
      cases made
  · rw [finish, counts, finished]
    constructor
    · intro made
      exact ⟨columns, rfl, made⟩
    · rintro ⟨_, same, made⟩
      cases same
      exact made

/-- Whether the builder finishes, and to what, is told by the rows. -/
structure Settled (t : DataType) (rows : List Row) (b : Builder) : Prop where
  finishes : (∃ c, b.finish.1 = .ok c) ↔ ∀ row ∈ rows, row.Complete Value.missingAs t
  shown : ∀ c, b.finish.1 = .ok c → c.Shows t (rows.map (·.valueOf t))

/-! ## Structs -/

section Struct

variable {fields : List Field} {rows : List Row} {children : List Builder} {columns : List Column}

/-- The columns show what the rows give to the fields. -/
def ShowFields (fields : List Field) (rows : List Row) (columns : List Column) : Prop :=
  columns.length = fields.length ∧ ∀ (i : Nat) (f : Field), fields[i]? = some f →
    ∃ c, columns[i]? = some c ∧ c.Shows f.type ((rows.map (Row.part i)).map (·.valueOf f.type))

theorem ShowFields.sound (shown : ShowFields fields rows columns) :
    ∀ c ∈ columns, c.Sound ∧ c.length = rows.length := by
  rintro c mem
  obtain ⟨i, inside, rfl⟩ := List.getElem_of_mem mem
  have within : i < fields.length := shown.1 ▸ inside
  obtain ⟨c, column, shows⟩ := shown.2 i _ (List.getElem?_eq_getElem within)
  rw [List.getElem?_eq_getElem inside] at column
  cases column
  refine ⟨shows.sound, ?_⟩
  rw [shows.length, List.length_map, List.length_map]

/-- Nothing is said against the fields if every present struct gives them what they require. -/
theorem ShowFields.fits (shown : ShowFields fields rows columns) :
    Column.fieldFault? (rows.map Row.present) fields columns = none ↔
      ∀ (i : Nat) (f : Field), fields[i]? = some f → ∀ row ∈ rows, row.present = true →
        f.nullable = false → ((row.part i).valueOf f.type).missingAs f.type = false := by
  have full (i : Nat) (f : Field) {c : Column}
      (shows : c.Shows f.type ((rows.map (Row.part i)).map (·.valueOf f.type))) :
      Column.unmasked (rows.map Row.present) c.missing = false ↔ ∀ row ∈ rows,
        row.present = true → ((row.part i).valueOf f.type).missingAs f.type = false := by
    rw [shows.missing, List.map_map, List.map_map]
    exact Column.unmasked_map _ _ rows
  rw [Column.fieldFault?_iff shown.1]
  constructor
  · intro clean i f field row mem present required
    obtain ⟨c, column, shows⟩ := shown.2 i f field
    rcases (clean i f c field column).2.2 with nullable | values
    · rw [required] at nullable
      cases nullable
    · exact (full i f shows).1 values row mem present
  · intro required i f c field column
    obtain ⟨d, column', shows⟩ := shown.2 i f field
    rw [column] at column'
    cases column'
    refine ⟨shows.dataType, by simp [shows.length], ?_⟩
    cases nullable : f.nullable with
    | true => exact .inl rfl
    | false =>
      refine .inr ((full i f shows).2 ?_)
      intro row mem present
      exact required i f field row mem present nullable

/-- The fields of a row that is there, side by side. -/
theorem ShowFields.fieldRows (shown : ShowFields fields rows columns) {j : Nat}
    {order : List Nat} {own : List Row} (row : rows[j]? = some (.struct order own))
    (count : own.length = fields.length) :
    Column.fieldRows fields (Column.rowsAll columns) j = Row.valuesOf own fields := by
  apply List.ext_getElem?
  intro i
  rw [Column.rowsAll_eq_map, Column.fieldRows, List.getElem?_zipWith, List.getElem?_map,
    Row.valuesOf_getElem?]
  cases field : fields[i]? with
  | none => cases own[i]? <;> rfl
  | some f =>
    obtain ⟨c, column, shows⟩ := shown.2 i f field
    have inside : i < own.length := count ▸ (List.getElem?_eq_some_iff.1 field).1
    have given : own[i]? = some own[i] := List.getElem?_eq_getElem inside
    have value : c.rows.getD j .missing = own[i].valueOf f.type := by
      rw [shows.rows, List.getD_eq_getElem?_getD, List.getElem?_map, List.getElem?_map, row,
        Option.map_some, Option.map_some, Option.getD_some, Row.part_getElem? order given]
    rw [column, given]
    simp only [Option.map_some, Option.bind_some, value]

/-- A struct reads as its rows. -/
theorem ShowFields.read (shown : ShowFields fields rows columns)
    (fit : ∀ row ∈ rows, row.Fits (.struct fields)) :
    (Column.struct fields (rows.map Row.present) columns).rows =
      rows.map (·.valueOf (.struct fields)) := by
  apply List.ext_getElem
  · simp [Column.rows, Column.masked]
  · intro j _ inside
    rw [List.length_map] at inside
    have row : rows[j]? = some rows[j] := List.getElem?_eq_getElem inside
    have fits := fit rows[j] (List.getElem_mem inside)
    simp only [Column.rows, Column.masked, List.getElem_zipWith, List.getElem_map,
      List.getElem_range]
    cases given : rows[j] with
    | struct order own =>
      rw [given] at fits row
      cases fits with
      | struct once count each =>
        rw [shown.fieldRows row count]
        rfl
    | item value =>
      rw [given] at fits
      cases fits with
      | item item typed => cases item
    | null => rfl
    | variant id payload => rfl

theorem ShowFields.nonempty (shown : ShowFields fields rows columns) (some : fields ≠ []) :
    columns ≠ [] := by
  rintro rfl
  exact some (List.length_eq_zero_iff.1 shown.1.symm)

/-- A struct that was put together shows the rows. -/
theorem ShowFields.struct (shown : ShowFields fields rows columns) (some : fields ≠ [])
    (fit : ∀ row ∈ rows, row.Fits (.struct fields))
    (clean : Column.fieldFault? (rows.map Row.present) fields columns = none) :
    (Column.struct fields (rows.map Row.present) columns).Shows (.struct fields)
      (rows.map (·.valueOf (.struct fields))) := by
  refine ⟨rfl, ?_, shown.read fit⟩
  rw [Column.Sound]
  exact ⟨⟨shown.nonempty some, shown.1, clean⟩,
    Column.soundAll_of_forall fun child mem => (shown.sound child mem).1⟩

/-- Children that are settled show their parts of the rows. -/
theorem showFields_of_settled (count : children.length = fields.length)
    (each : ∀ (i : Nat) (f : Field) (child : Builder), fields[i]? = some f →
      children[i]? = some child → Settled f.type (rows.map (Row.part i)) child)
    (finished : (finishAll children).1 = .ok columns) : ShowFields fields rows columns := by
  obtain ⟨same, made⟩ := finishAll_ok finished
  refine ⟨same.trans count, ?_⟩
  intro i f field
  have inside : i < columns.length := by
    rw [same, count]
    exact (List.getElem?_eq_some_iff.1 field).1
  obtain ⟨child, at', done⟩ := made i _ (List.getElem?_eq_getElem inside)
  exact ⟨columns[i], List.getElem?_eq_getElem inside, (each i f child field at').shown _ done⟩

/-- A struct builder is settled if its children are. -/
theorem settled_struct (some : fields ≠ []) (count : children.length = fields.length)
    (fit : ∀ row ∈ rows, row.Fits (.struct fields))
    (lengths : ∀ child ∈ children, child.length = rows.length)
    (each : ∀ (i : Nat) (f : Field) (child : Builder), fields[i]? = Option.some f →
      children[i]? = Option.some child → Settled f.type (rows.map (Row.part i)) child) :
    Settled (.struct fields) rows (.struct fields (rows.map Row.present).toArray children) := by
  have counts : structFault? fields (rows.map Row.present).toArray children = none :=
    structFault?_eq_none count fun child mem => by
      rw [lengths child mem, List.size_toArray, List.length_map]
  have finish (c : Column) : (Builder.struct fields (rows.map Row.present).toArray
      children).finish.1 = .ok c ↔ ∃ columns, (finishAll children).1 = .ok columns ∧
        Column.fieldFault? (rows.map Row.present) fields columns = none ∧
          c = .struct fields (rows.map Row.present) columns := by
    rw [finish_struct counts]
    refine exists_congr fun columns => and_congr_right fun finished => ?_
    have shown := showFields_of_settled count each finished
    rw [List.toList_toArray, Column.structOf_marks? (shown.nonempty some) fun child mem => by
      rw [(shown.sound child mem).2, List.length_map]]
  constructor
  · constructor
    · rintro ⟨c, done⟩ row mem
      obtain ⟨columns, finished, clean, -⟩ := (finish c).1 done
      have shown := showFields_of_settled count each finished
      refine (Row.complete_struct (fit row mem)).2 fun i f field => ?_
      obtain ⟨d, column, -⟩ := shown.2 i f field
      obtain ⟨child, at', child_done⟩ := (finishAll_ok finished).2 i d column
      have complete := (each i f child field at').finishes.1 ⟨d, child_done⟩
      exact ⟨complete _ (List.mem_map_of_mem mem), shown.fits.1 clean i f field row mem⟩
    · intro complete
      have parts (i : Nat) (f : Field) (field : fields[i]? = Option.some f) (row : Row)
          (mem : row ∈ rows) := (Row.complete_struct (fit row mem)).1 (complete row mem) i f field
      have done : ∀ child ∈ children, ∃ c, child.finish.1 = .ok c := by
        rintro child mem
        obtain ⟨i, inside, rfl⟩ := List.getElem_of_mem mem
        have field := List.getElem?_eq_getElem (count ▸ inside : i < fields.length)
        refine (each i _ _ field (List.getElem?_eq_getElem inside)).finishes.2 ?_
        intro part listed
        obtain ⟨row, here, rfl⟩ := List.mem_map.1 listed
        exact (parts i _ field row here).1
      obtain ⟨columns, finished⟩ := exists_finishAll done
      have shown := showFields_of_settled count each finished
      have clean := shown.fits.2 fun i f field row mem => (parts i f field row mem).2
      exact ⟨_, (finish _).2 ⟨columns, finished, clean, rfl⟩⟩
  · intro c done
    obtain ⟨columns, finished, clean, rfl⟩ := (finish c).1 done
    exact (showFields_of_settled count each finished).struct some fit clean

end Struct

/-! ## Unions -/

section Union

variable {variants : List Variant} {rows : List Row} {children : List Builder}
variable {columns : List Column}

/-- The columns show what the rows give to the variants. -/
def ShowVariants (variants : List Variant) (rows : List Row) (columns : List Column) : Prop :=
  columns.length = variants.length ∧ ∀ (i : Nat) (v : Variant), variants[i]? = some v →
    ∃ c, columns[i]? = some c ∧
      c.Shows v.field.type ((Row.given variants rows v.id).map (·.valueOf v.field.type))

theorem ShowVariants.types (shown : ShowVariants variants rows columns) :
    columns.map Column.dataType = variants.map (·.field.type) := by
  apply List.ext_getElem?
  intro i
  rw [List.getElem?_map, List.getElem?_map]
  cases variant : variants[i]? with
  | none =>
    rw [List.getElem?_eq_none_iff, ← shown.1, ← List.getElem?_eq_none_iff] at variant
    rw [variant]
    rfl
  | some v =>
    obtain ⟨c, column, shows⟩ := shown.2 i v variant
    rw [column, Option.map_some, Option.map_some, shows.dataType]

theorem ShowVariants.sound (shown : ShowVariants variants rows columns) :
    ∀ c ∈ columns, c.Sound := by
  rintro c mem
  obtain ⟨i, inside, rfl⟩ := List.getElem_of_mem mem
  have within : i < variants.length := shown.1 ▸ inside
  obtain ⟨c, column, shows⟩ := shown.2 i _ (List.getElem?_eq_getElem within)
  rw [List.getElem?_eq_getElem inside] at column
  cases column
  exact shows.sound

/-- The column that a row finds by the variant that it selects. -/
theorem ShowVariants.find (shown : ShowVariants variants rows columns) {row : Row}
    (selects : row.Selects variants) : ∃ (index : Nat) (c : Column) (v : Variant), v ∈ variants ∧
      v.id = row.tag variants ∧ Column.variantIndex? variants (row.tag variants) = some index ∧
      columns[index]? = some c ∧
      c.Shows v.field.type ((Row.given variants rows v.id).map (·.valueOf v.field.type)) := by
  obtain ⟨w, mem, same, -⟩ := selects
  obtain ⟨index, v, found, variant, same⟩ := exists_variantIndex? ⟨w, mem, same⟩
  obtain ⟨c, column, shows⟩ := shown.2 index v variant
  exact ⟨index, c, v, List.mem_of_getElem? variant, same, found, column, shows⟩

/-- The union of the columns in which the rows stand as they were written. -/
def unionOfRows (variants : List Variant) (rows : List Row) (columns : List Column) : Column :=
  .union variants (rows.map (Row.tag variants)) (Column.positions (rows.map (Row.tag variants)))
    columns

theorem ShowVariants.made (shown : ShowVariants variants rows columns)
    (declared : ∀ row ∈ rows, row.Selects variants) :
    Column.unionOf variants (rows.map (Row.tag variants))
        (Column.positions (rows.map (Row.tag variants))) columns =
      .ok (unionOfRows variants rows columns) := by
  apply Column.unionOf_positions
  intro row mem
  obtain ⟨index, c, v, -, same, found, column, shows⟩ := shown.find (declared row mem)
  refine ⟨index, c, found, column, ?_⟩
  rw [shows.length, List.length_map, Row.given, List.length_map, same,
    List.countP_eq_length_filter]

/-- A union reads as its rows. -/
theorem ShowVariants.read (shown : ShowVariants variants rows columns)
    (distinct : (variants.map (·.id)).Nodup) (declared : ∀ row ∈ rows, row.Selects variants)
    (fit : ∀ row ∈ rows, row.Fits (.union variants)) :
    (unionOfRows variants rows columns).rows = rows.map (·.valueOf (.union variants)) := by
  have read : (unionOfRows variants rows columns).rows = rows.map fun row =>
      Column.variantRow variants (row.tag variants)
        (some (row.payload.valueOf (Variant.typeOf variants (row.tag variants)))) := by
    apply Column.rows_positions
    intro row mem
    obtain ⟨index, c, v, listed, same, found, column, shows⟩ := shown.find (declared row mem)
    refine ⟨index, c, found, column, ?_⟩
    rw [shows.rows, Row.given, List.map_map, same]
    apply List.map_congr_left
    intro other selected
    have here : other.tag variants = v.id := by
      rw [same]
      simpa using (List.mem_filter.1 selected).2
    rw [Function.comp_apply, here, Variant.typeOf_of_mem distinct listed]
  rw [read]
  apply List.map_congr_left
  intro row mem
  exact (Row.valueOf_union (fit row mem) (declared row mem) distinct).symm

/-- The union of the children shows the rows. -/
theorem ShowVariants.union (shown : ShowVariants variants rows columns)
    (distinct : (variants.map (·.id)).Nodup) (declared : ∀ row ∈ rows, row.Selects variants)
    (fit : ∀ row ∈ rows, row.Fits (.union variants)) :
    (unionOfRows variants rows columns).Shows (.union variants)
      (rows.map (·.valueOf (.union variants))) := by
  refine ⟨rfl, ?_, shown.read distinct declared fit⟩
  rw [unionOfRows, Column.Sound]
  exact ⟨⟨shown.types, by simp [Column.positions], shown.made declared⟩,
    Column.soundAll_of_forall shown.sound⟩

/-- Children that are settled show what the rows give to them. -/
theorem showVariants_of_settled (count : children.length = variants.length)
    (each : ∀ (i : Nat) (v : Variant) (child : Builder), variants[i]? = some v →
      children[i]? = some child → Settled v.field.type (Row.given variants rows v.id) child)
    (finished : (finishAll children).1 = .ok columns) : ShowVariants variants rows columns := by
  obtain ⟨same, made⟩ := finishAll_ok finished
  refine ⟨same.trans count, ?_⟩
  intro i v variant
  have inside : i < columns.length := by
    rw [same, count]
    exact (List.getElem?_eq_some_iff.1 variant).1
  obtain ⟨child, at', done⟩ := made i _ (List.getElem?_eq_getElem inside)
  exact ⟨columns[i], List.getElem?_eq_getElem inside, (each i v child variant at').shown _ done⟩

/-- A union builder is settled if its children are. -/
theorem settled_union (distinct : (variants.map (·.id)).Nodup)
    (count : children.length = variants.length)
    (declared : ∀ row ∈ rows, row.Selects variants)
    (fit : ∀ row ∈ rows, row.Fits (.union variants))
    (lengths : ∀ (i : Nat) (v : Variant) (child : Builder), variants[i]? = some v →
      children[i]? = some child → child.length = (Row.given variants rows v.id).length)
    (each : ∀ (i : Nat) (v : Variant) (child : Builder), variants[i]? = some v →
      children[i]? = some child → Settled v.field.type (Row.given variants rows v.id) child) :
    Settled (.union variants) rows
      (.union variants (unionRows (rows.map (Row.tag variants))) children) := by
  have counts : unionFault? variants (unionRows (rows.map (Row.tag variants))) children = none :=
    unionFault?_eq_none count fun i v child variant column => by
      rw [selections_unionRows, lengths i v child variant column, Row.length_given]
  have finish (c : Column) : (Builder.union variants (unionRows (rows.map (Row.tag variants)))
      children).finish.1 = .ok c ↔ ∃ columns, (finishAll children).1 = .ok columns ∧
        c = unionOfRows variants rows columns := by
    rw [finish_union counts, unionRows_ids, unionRows_positions]
    refine exists_congr fun columns => and_congr_right fun finished => ?_
    have shown := showVariants_of_settled count each finished
    rw [shown.made declared]
    exact ⟨fun same => (Except.ok.inj same).symm, fun same => congrArg Except.ok same.symm⟩
  constructor
  · constructor
    · rintro ⟨c, done⟩ row mem
      obtain ⟨columns, finished, -⟩ := (finish c).1 done
      refine (Row.complete_union (fit row mem)).2 ?_
      obtain ⟨w, listed, same, -⟩ := declared row mem
      obtain ⟨i, inside, here⟩ := List.getElem_of_mem listed
      have variant : variants[i]? = some w := here ▸ List.getElem?_eq_getElem inside
      have shown := showVariants_of_settled count each finished
      obtain ⟨d, column, -⟩ := shown.2 i w variant
      obtain ⟨child, at', child_done⟩ := (finishAll_ok finished).2 i d column
      have complete := (each i w child variant at').finishes.1 ⟨d, child_done⟩
      rw [← same, Variant.typeOf_of_mem distinct listed]
      exact complete _ (List.mem_map_of_mem (List.mem_filter.2 ⟨mem, by simp [same]⟩))
    · intro complete
      have done : ∀ child ∈ children, ∃ c, child.finish.1 = .ok c := by
        rintro child mem
        obtain ⟨i, inside, rfl⟩ := List.getElem_of_mem mem
        have variant := List.getElem?_eq_getElem (count ▸ inside : i < variants.length)
        refine (each i _ _ variant (List.getElem?_eq_getElem inside)).finishes.2 ?_
        intro payload listed
        obtain ⟨row, selected, rfl⟩ := List.mem_map.1 listed
        obtain ⟨here, same⟩ := List.mem_filter.1 selected
        have inner := (Row.complete_union (fit row here)).1 (complete row here)
        rw [beq_iff_eq.1 same, Variant.typeOf_of_mem distinct (List.mem_of_getElem? variant)]
          at inner
        exact inner
      obtain ⟨columns, finished⟩ := exists_finishAll done
      exact ⟨_, (finish _).2 ⟨columns, finished, rfl⟩⟩
  · intro c done
    obtain ⟨columns, finished, rfl⟩ := (finish c).1 done
    exact (showVariants_of_settled count each finished).union distinct declared fit

end Union

/-! ## Builders of any type -/

theorem settled_item {t : DataType} (item : t.IsItem) {rows : List Row}
    (fit : ∀ row ∈ rows, row.Fits t) :
    Settled t rows (.item (.ofValues t (rows.map Row.value))) := by
  have typed : ∀ v ∈ rows.map Row.value, v.IsItemOf t := by
    rintro v mem
    obtain ⟨row, here, rfl⟩ := List.mem_map.1 mem
    cases fit row here with
    | null => exact .missing t
    | item item typed => exact typed
    | struct once count each => cases item
    | variant fits => cases item
  have same : rows.map Row.value = rows.map (·.valueOf t) := by
    apply List.map_congr_left
    intro row mem
    cases fit row mem with
    | null => cases item <;> rfl
    | item item typed => rw [Row.valueOf]; rfl
    | struct once count each => cases item
    | variant fits => cases item
  obtain ⟨c, finished, holds⟩ := ItemBuilder.finishes_ofValues item typed
  constructor
  · exact ⟨fun _ row mem => Row.complete_item item (fit row mem), fun _ => ⟨c, finished⟩⟩
  · intro d done
    rw [finished] at done
    cases done
    have sound := sound_of_finish finished holds.types holds.offsets
    exact ⟨holds.dataType, sound, holds.rows.trans same⟩

/-- A builder that has been given rows finishes just if all of them are complete, and then to a
column that shows them. -/
theorem Has.settled {t : DataType} {rows : List Row} {b : Builder} (has : Has t rows b)
    (fit : ∀ row ∈ rows, row.Fits t) : Settled t rows b := by
  induction has with
  | item rows item => exact settled_item item fit
  | @struct fields rows children nonempty count each ih =>
    refine settled_struct nonempty count fit ?_ ?_
    · rintro child mem
      obtain ⟨i, inside, rfl⟩ := List.getElem_of_mem mem
      have field := List.getElem?_eq_getElem (count ▸ inside : i < fields.length)
      rw [(each i _ _ field (List.getElem?_eq_getElem inside)).length, List.length_map]
    · intro i f child field here
      refine ih i f child field here fun part mem => ?_
      obtain ⟨row, listed, rfl⟩ := List.mem_map.1 mem
      exact (fit row listed).part field
  | @union variants rows children distinct count declared each ih =>
    refine settled_union distinct count declared fit ?_ ?_
    · intro i v child variant here
      exact (each i v child variant here).length
    · intro i v child variant here
      refine ih i v child variant here fun payload mem => ?_
      obtain ⟨row, selected, rfl⟩ := List.mem_map.1 mem
      obtain ⟨listed, same⟩ := List.mem_filter.1 selected
      have fits := (fit row listed).payload
      rw [beq_iff_eq.1 same, Variant.typeOf_of_mem distinct (List.mem_of_getElem? variant)] at fits
      exact fits

/-- Rows that are written to a new builder without an error finish just if every required field of a
present struct has a value, at every depth and as far as unions are looked through, and they read
back as they were written. -/
theorem finish_of_rows (name : String) {t : DataType} {rows : List Row} {b : Builder}
    (buildable : t.Buildable) (fit : ∀ row ∈ rows, row.Fits t)
    (written : Write.apply (rows.forM fun row => row.write name t) (ofType t) = (.ok (), b)) :
    ((∃ c, b.finish.1 = .ok c) ↔ ∀ row ∈ rows, row.Complete Value.missingAs t) ∧
      (∀ c, b.finish.1 = .ok c → c.Shows t (rows.map (·.valueOf t))) ∧
      (t.Counted → ((∃ c, b.finish.1 = .ok c) ↔
        ∀ row ∈ rows, row.Complete (fun _ => Value.isMissing) t)) := by
  have has := buildable.has_nil.writeAll name fit written
  rw [List.nil_append] at has
  obtain ⟨finishes, shown⟩ := has.settled fit
  refine ⟨finishes, shown, fun counted => finishes.trans ?_⟩
  exact forall₂_congr fun row mem => Row.complete_of_counted (fit row mem) counted

def pointFields : List Field :=
  [⟨"id", .number .int32, false⟩, ⟨"at", .fixedSizeList (.item (.number .float32)) 2, false⟩]

def pointVariants : List Variant :=
  [⟨0, ⟨"point", .struct pointFields, true⟩⟩, ⟨3, ⟨"label", .text .narrow, true⟩⟩]

/-- A point, whose last field is written first. -/
def pointRow : Row :=
  .struct [1, 0] [.item (.number .int32 7), .item (.list [.number .float32 0, .missing])]

/-- A point, a missing point, a label and a missing label. -/
def pointRows : List Row :=
  [.variant 0 pointRow, .variant 0 .null, .variant 3 (.item (.text "here")), .variant 3 .null]

theorem finish_points : ∃ b c,
    Write.apply (pointRows.forM fun row => row.write "points" (.union pointVariants))
      (ofType (.union pointVariants)) = (.ok (), b) ∧ b.finish.1 = .ok c ∧
    c.rows = [.variant 0 "point" (.struct [("id", .number .int32 7),
        ("at", .list [.number .float32 0, .missing])]),
      .variant 0 "point" .missing, .variant 3 "label" (.text "here"),
      .variant 3 "label" .missing] := by
  have list : DataType.IsItem (.fixedSizeList (.item (.number .float32)) 2) :=
    @DataType.IsItem.fixedSizeList _ 2 (by decide) (.number .float32)
  have buildable : DataType.Buildable (.union pointVariants) := by
    refine .union (by decide) (List.forall_mem_cons.2 ⟨?_, List.forall_mem_singleton.2 ?_⟩)
    · refine .struct (List.cons_ne_nil _ _)
        (List.forall_mem_cons.2 ⟨.item (.number .int32), List.forall_mem_singleton.2 (.item list)⟩)
    · exact .item (.text .narrow)
  have point : pointRow.Fits (.struct pointFields) := by
    refine .struct (by decide) rfl ?_
    rintro (_ | _ | i) f row field own <;> cases field <;> cases own
    · exact .item (.number .int32) (.number .int32 7)
    · refine .item list (@Value.IsItemOf.fixedSizeList _ 2 _ rfl ?_)
      exact List.forall_mem_cons.2 ⟨.number .float32 0, List.forall_mem_singleton.2 (.missing _)⟩
  have fit : ∀ row ∈ pointRows, row.Fits (.union pointVariants) :=
    List.forall_mem_cons.2 ⟨.variant point, List.forall_mem_cons.2 ⟨.variant (.null _),
      List.forall_mem_cons.2 ⟨.variant (.item (.text .narrow) (.text .narrow "here")),
        List.forall_mem_singleton.2 (.variant (.null _))⟩⟩⟩
  have whole : pointRow.Complete Value.missingAs (.struct pointFields) := by
    refine .struct ?_ ?_
    · rintro (_ | _ | i) f row field own - <;> cases field <;> cases own <;> rfl
    · rintro (_ | _ | i) f row field own <;> cases field <;> cases own
      · exact .item _ _
      · exact .item _ _
  have complete : ∀ row ∈ pointRows, row.Complete Value.missingAs (.union pointVariants) :=
    List.forall_mem_cons.2 ⟨.variant whole, List.forall_mem_cons.2 ⟨.variant (.null _),
      List.forall_mem_cons.2 ⟨.variant (.item _ _),
        List.forall_mem_singleton.2 (.variant (.null _))⟩⟩⟩
  obtain ⟨finishes, shown, -⟩ := finish_of_rows "points" buildable fit rfl
  obtain ⟨c, finished⟩ := finishes.2 complete
  exact ⟨_, c, rfl, finished, (shown c finished).rows⟩

/-! ## A union that is not looked through -/

/-- A required field is given no value in a present row, and the builder finishes. -/
theorem finish_without_required : ∃ (rows : List Row) (b : Builder),
    DataType.Buildable (.struct loneFields) ∧ (∀ row ∈ rows, row.Fits (.struct loneFields)) ∧
    Write.apply (rows.forM fun row => row.write "lone" (.struct loneFields))
      (ofType (.struct loneFields)) = (.ok (), b) ∧ (∃ c, b.finish.1 = .ok c) ∧
    ¬ ∀ row ∈ rows, row.Complete (fun _ => Value.isMissing) (.struct loneFields) := by
  have buildable : DataType.Buildable (.struct loneFields) := by
    refine .struct (List.cons_ne_nil _ _) (List.forall_mem_singleton.2 ?_)
    exact .union (by decide) (List.forall_mem_singleton.2 (.item (.number .int32)))
  have fits : (Row.struct [0] [.variant 5 .null]).Fits (.struct loneFields) := by
    refine .struct (by decide) rfl ?_
    rintro (_ | i) f row field own <;> cases field <;> cases own
    exact .variant (.null _)
  have complete : (Row.struct [0] [.variant 5 .null]).Complete Value.missingAs
      (.struct loneFields) := by
    refine .struct ?_ ?_
    · rintro (_ | i) f row field own - <;> cases field <;> cases own
      rfl
    · rintro (_ | i) f row field own <;> cases field <;> cases own
      exact .variant (.null _)
  have fit := List.forall_mem_singleton.2 fits
  have has := buildable.has_nil.writeAll "lone" fit rfl
  refine ⟨[.struct [0] [.variant 5 .null]], _, buildable, fit, rfl,
    (has.settled fit).finishes.2 (List.forall_mem_singleton.2 complete), ?_⟩
  intro all
  cases all _ List.mem_cons_self with
  | struct required each =>
    have missing := required 0 _ _ rfl rfl rfl
    cases missing

end Builder

end TypedColumns
