import TypedColumns.Proofs.Codec.Records
import TypedColumns.Proofs.Column.Missing
import TypedColumns.Proofs.Rows.Items

/-!
# Rows written to builders

A `Row` is what is written to a builder of a type: a missing row, which is added at once, a value of
an item builder, the rows of the fields of a struct, in some order and followed by the end of the
struct's row, or a row of one variant of a union.

`Builder.Has` says that a builder of a type has been given rows, and no others. New builders have
none (`Buildable.has_nil`), and a row that is written without an error is a further one
(`Has.write`): every child takes its part of it, whatever the order, and a child that is not
concerned is left alone.
-/

namespace TypedColumns

inductive Row
  /-- A missing row, added at once. -/
  | null
  | item (value : Value)
  /-- What each field is given, and the order in which the fields are written. -/
  | struct (order : List Nat) (fields : List Row)
  | variant (id : TypeId) (row : Row)

/-! ## Builders of a type -/

namespace Builder

mutual

/-- A new builder of the type, with new builders of the types of its children. -/
def ofType : DataType → Builder
  | .struct fields => .struct fields #[] (ofFields fields)
  | .union variants => .union variants #[] (ofVariants variants)
  | t => .item (.ofType t)

def ofFields : List Field → List Builder
  | [] => []
  | ⟨_, type, _⟩ :: fs => ofType type :: ofFields fs

def ofVariants : List Variant → List Builder
  | [] => []
  | ⟨_, _, type, _⟩ :: vs => ofType type :: ofVariants vs

end

theorem ofFields_eq_map (fields : List Field) : ofFields fields = fields.map (ofType ·.type) := by
  induction fields with
  | nil => rfl
  | cons f fs ih =>
    cases f
    rw [ofFields, ih, List.map_cons]

theorem ofVariants_eq_map (variants : List Variant) :
    ofVariants variants = variants.map (ofType ·.field.type) := by
  induction variants with
  | nil => rfl
  | cons v vs ih =>
    obtain ⟨_, _, _, _⟩ := v
    rw [ofVariants, ih, List.map_cons]

theorem ofType_item {t : DataType} (item : t.IsItem) : ofType t = .item (.ofType t) := by
  cases item <;> rfl

end Builder

/-- The types that are put together from item builders by structs of at least one field and unions
whose variants have different ids. -/
inductive DataType.Buildable : DataType → Prop
  | item {t : DataType} (item : t.IsItem) : Buildable t
  | struct {fields : List Field} (nonempty : fields ≠ [])
    (each : ∀ f ∈ fields, Buildable f.type) : Buildable (.struct fields)
  | union {variants : List Variant} (distinct : (variants.map (·.id)).Nodup)
    (each : ∀ v ∈ variants, Buildable v.field.type) : Buildable (.union variants)

/-! ## Writing rows -/

namespace Row

mutual

/-- Writes a row to a builder of the type. -/
def write (name : String) : Row → DataType → Write
  | .null, _ => .missing name
  | .item value, _ => .changeItem name value.put
  | .struct order rows, .struct fields => do
    order.forM fun i => (writeFields name 0 rows fields).getD i (.fail (.noField i))
    Write.endRow name true
  | .variant id row, .union variants =>
    .toVariant id (Builder.ofType (Variant.typeOf variants id)).kind
      (row.write name (Variant.typeOf variants id))
  | _, _ => .fail (.foreignBuilder name)

/-- The writes to the fields of a struct, which stand from `index` on. -/
def writeFields (name : String) (index : Nat) : List Row → List Field → List Write
  | row :: rows, f :: fs =>
    .toField index (Builder.ofType f.type).kind (row.write name f.type) ::
      writeFields name (index + 1) rows fs
  | _, _ => []

end

theorem writeFields_getElem? {name : String} {index i : Nat} {rows : List Row}
    {fields : List Field} {row : Row} {f : Field} (own : rows[i]? = some row)
    (field : fields[i]? = some f) : (writeFields name index rows fields)[i]? =
      some (.toField (index + i) (Builder.ofType f.type).kind (row.write name f.type)) := by
  induction rows generalizing index i fields with
  | nil => cases own
  | cons r rows ih =>
    cases fields with
    | nil => cases field
    | cons g fs =>
      cases i with
      | zero =>
        cases own
        cases field
        rfl
      | succ i =>
        have rest : (writeFields name (index + 1) rows fs)[i]? =
            some (.toField (index + 1 + i) _ (row.write name f.type)) := ih own field
        rw [Nat.add_assoc, Nat.add_comm 1 i] at rest
        exact rest

/-- The row has the shape of the type: a struct gives a row to every field, and writes each once. -/
inductive Fits : DataType → Row → Prop
  | null (t : DataType) : Fits t .null
  | item {t : DataType} {value : Value} (item : t.IsItem) (typed : value.IsItemOf t) :
    Fits t (.item value)
  | struct {fields : List Field} {order : List Nat} {rows : List Row}
    (once : order.Perm (List.range fields.length)) (count : rows.length = fields.length)
    (each : ∀ (i : Nat) (f : Field) (row : Row), fields[i]? = some f → rows[i]? = some row →
      Fits f.type row) : Fits (.struct fields) (.struct order rows)
  | variant {variants : List Variant} {id : TypeId} {row : Row}
    (fits : Fits (Variant.typeOf variants id) row) : Fits (.union variants) (.variant id row)

/-! ### The parts of a row -/

/-- What an item builder is given. -/
def value : Row → Value
  | .item value => value
  | _ => .missing

/-- Whether a struct is marked as present. -/
def present : Row → Bool
  | .struct _ _ => true
  | _ => false

/-- What the field at a position is given. A missing struct has missing fields. -/
def part (i : Nat) : Row → Row
  | .struct _ fields => fields.getD i .null
  | _ => .null

/-- The variant that is selected. -/
def tag (variants : List Variant) : Row → TypeId
  | .variant id _ => id
  | _ => (Builder.nullVariant? variants).getD 0

/-- The row selects a declared variant, and a missing row one of nothing but missing values. -/
def Selects (variants : List Variant) (row : Row) : Prop :=
  ∃ v ∈ variants, v.id = row.tag variants ∧ (row = .null → v.field.type = .null)

/-- What the selected variant is given. -/
def payload : Row → Row
  | .variant _ row => row
  | _ => .null

/-- What the rows give to the variant of an id. -/
def given (variants : List Variant) (rows : List Row) (id : TypeId) : List Row :=
  (rows.filter fun row => row.tag variants == id).map payload

variable {variants : List Variant} {rows : List Row} {row : Row} {id : TypeId}

theorem length_given : (given variants rows id).length = (rows.map (tag variants)).count id := by
  rw [given, List.length_map, List.count_eq_countP, List.countP_map, List.countP_eq_length_filter]
  rfl

theorem given_append_of_selects (selects : row.tag variants = id) :
    given variants (rows ++ [row]) id = given variants rows id ++ [row.payload] := by
  rw [given, List.filter_append, List.map_append, List.filter_cons_of_pos (by simp [selects])]
  rfl

theorem given_append_of_other (other : row.tag variants ≠ id) :
    given variants (rows ++ [row]) id = given variants rows id := by
  rw [given, List.filter_append, List.filter_cons_of_neg (by simpa using other), List.filter_nil,
    List.append_nil]
  rfl

end Row

/-! ## What a builder has been given -/

namespace Builder

/-- A builder of the type that has been given the rows. -/
inductive Has : DataType → List Row → Builder → Prop
  | item {t : DataType} (rows : List Row) (item : t.IsItem) :
    Has t rows (.item (.ofValues t (rows.map Row.value)))
  | struct {fields : List Field} {rows : List Row} {children : List Builder}
    (nonempty : fields ≠ []) (count : children.length = fields.length)
    (each : ∀ (i : Nat) (f : Field) (child : Builder), fields[i]? = some f →
      children[i]? = some child → Has f.type (rows.map (Row.part i)) child) :
    Has (.struct fields) rows (.struct fields (rows.map Row.present).toArray children)
  | union {variants : List Variant} {rows : List Row} {children : List Builder}
    (distinct : (variants.map (·.id)).Nodup) (count : children.length = variants.length)
    (declared : ∀ row ∈ rows, row.Selects variants)
    (each : ∀ (i : Nat) (v : Variant) (child : Builder), variants[i]? = some v →
      children[i]? = some child → Has v.field.type (Row.given variants rows v.id) child) :
    Has (.union variants) rows (.union variants (unionRows (rows.map (Row.tag variants))) children)

variable {t : DataType} {rows : List Row} {b b' : Builder}

theorem Has.length (has : Has t rows b) : b.length = rows.length := by
  cases has with
  | item rows item => simp [Builder.length, ItemBuilder.length_ofValues item]
  | struct nonempty count each => simp [Builder.length]
  | union distinct count declared each => simp [Builder.length, unionRows, Column.positions]

end Builder

open Builder (Has)

/-- A new builder has no rows. -/
theorem DataType.Buildable.has_nil {t : DataType} (buildable : t.Buildable) :
    Has t [] (.ofType t) := by
  induction buildable with
  | item item =>
    have none := Has.item [] item
    rw [List.map_nil, ItemBuilder.ofValues_nil item] at none
    rw [Builder.ofType_item item]
    exact none
  | @struct fields nonempty each ih =>
    have count : (Builder.ofFields fields).length = fields.length := by
      rw [Builder.ofFields_eq_map, List.length_map]
    refine @Has.struct _ [] _ nonempty count ?_
    intro i f child field here
    rw [Builder.ofFields_eq_map, List.getElem?_map, field] at here
    cases here
    exact ih f (List.mem_of_getElem? field)
  | @union variants distinct each ih =>
    have count : (Builder.ofVariants variants).length = variants.length := by
      rw [Builder.ofVariants_eq_map, List.length_map]
    refine @Has.union _ [] _ distinct count (fun row mem => by cases mem) ?_
    intro i v child variant here
    rw [Builder.ofVariants_eq_map, List.getElem?_map, variant] at here
    cases here
    exact ih v (List.mem_of_getElem? variant)

namespace Builder

/-! ## Missing rows -/

/-- A missing row that all children take is one in each of them. -/
theorem appendNullAll_ok {children children' : List Builder}
    (added : appendNullAll children = (.ok (), children')) :
    children'.length = children.length ∧ ∀ (i : Nat) (child' : Builder),
      children'[i]? = some child' →
        ∃ child, children[i]? = some child ∧ child.appendNull = (.ok (), child') := by
  induction children generalizing children' with
  | nil =>
    rw [appendNullAll] at added
    cases added
    exact ⟨rfl, fun i child' here => by cases here⟩
  | cons b bs ih =>
    rw [appendNullAll] at added
    rcases first : b.appendNull with ⟨_ | _, b₁⟩
    · rw [first] at added
      cases added
    · rcases others : appendNullAll bs with ⟨result, bs₁⟩
      rw [first, others] at added
      cases added
      obtain ⟨count, each⟩ := ih others
      refine ⟨congrArg Nat.succ count, ?_⟩
      intro i child' here
      cases i with
      | zero =>
        cases here
        exact ⟨b, rfl, first⟩
      | succ i => exact each i child' here

/-- A missing row at a position is one in the child there. -/
theorem appendNullAt_ok {id : TypeId} {index offset : Nat} {children children' : List Builder}
    (added : appendNullAt id index children = (.ok offset, children')) :
    ∃ child child', children[index]? = some child ∧ child.appendNull = (.ok (), child') ∧
      offset = child.length ∧ children' = children.set index child' := by
  induction children generalizing index children' with
  | nil =>
    rw [appendNullAt] at added
    cases added
  | cons b bs ih =>
    cases index with
    | zero =>
      rw [appendNullAt] at added
      rcases first : b.appendNull with ⟨_ | _, b₁⟩
      · rw [first] at added
        cases added
      · rw [first] at added
        cases added
        exact ⟨b, b₁, rfl, first, rfl, rfl⟩
    | succ index =>
      rw [appendNullAt] at added
      rcases others : appendNullAt id index bs with ⟨result, bs₁⟩
      rw [others] at added
      cases added
      obtain ⟨child, child', here, done, position, rfl⟩ := ih others
      exact ⟨child, child', here, done, position, rfl⟩

/-- What stands in a list in which one place was written. -/
theorem of_set {α : Type} {as : List α} {index i : Nat} {a' a : α}
    (here : (as.set index a')[i]? = some a) :
    (i = index ∧ a = a') ∨ (i ≠ index ∧ as[i]? = some a) := by
  by_cases same : i = index
  · subst same
    obtain ⟨inside, rfl⟩ := List.getElem?_eq_some_iff.1 here
    exact .inl ⟨rfl, List.getElem_set_self _⟩
  · rw [List.getElem?_set_ne fun other => same other.symm] at here
    exact .inr ⟨same, here⟩

theorem id_ne_of_ne {variants : List Variant} (distinct : (variants.map (·.id)).Nodup)
    {i j : Nat} {v w : Variant} (first : variants[i]? = some v) (second : variants[j]? = some w)
    (apart : i ≠ j) : v.id ≠ w.id := by
  intro equal
  have ids : (variants.map (·.id))[i]? = (variants.map (·.id))[j]? := by
    rw [List.getElem?_map, List.getElem?_map, first, second]
    exact congrArg some equal
  have inside : i < (variants.map (·.id)).length := by
    rw [List.length_map]
    exact (List.getElem?_eq_some_iff.1 first).1
  exact apart ((List.getElem?_inj inside distinct).1 ids)

/-- A further row of a struct is one of each field. -/
theorem Has.close {fields : List Field} {rows : List Row} {row : Row} {children : List Builder}
    (nonempty : fields ≠ []) (count : children.length = fields.length)
    (each : ∀ (i : Nat) (f : Field) (child : Builder), fields[i]? = some f →
      children[i]? = some child → Has f.type (rows.map (Row.part i) ++ [row.part i]) child) :
    Has (.struct fields) (rows ++ [row])
      (.struct fields ((rows.map Row.present).toArray.push row.present) children) := by
  have marks : (rows.map Row.present).toArray.push row.present =
      ((rows ++ [row]).map Row.present).toArray := by
    rw [List.push_toArray, List.map_append, List.map_singleton]
  rw [marks]
  refine Has.struct nonempty count ?_
  intro i f child field here
  rw [List.map_append, List.map_singleton]
  exact each i f child field here

/-- A further row of a union is one of the variant that it selects. -/
theorem Has.select {variants : List Variant} {rows : List Row} {children : List Builder}
    {row : Row} {index : Nat} {v : Variant} {child child' : Builder}
    (distinct : (variants.map (·.id)).Nodup) (count : children.length = variants.length)
    (declared : ∀ row ∈ rows, row.Selects variants)
    (each : ∀ (i : Nat) (v : Variant) (child : Builder), variants[i]? = some v →
      children[i]? = some child → Has v.field.type (Row.given variants rows v.id) child)
    (variant : variants[index]? = some v) (selects : row.tag variants = v.id)
    (chosen : row.Selects variants) (column : children[index]? = some child)
    (next : Has v.field.type (Row.given variants rows v.id ++ [row.payload]) child') :
    Has (.union variants) (rows ++ [row])
      (.union variants ((unionRows (rows.map (Row.tag variants))).push (v.id, child.length))
        (children.set index child')) := by
  have position : child.length = (rows.map (Row.tag variants)).count v.id := by
    rw [(each index v child variant column).length, Row.length_given]
  have marks : (unionRows (rows.map (Row.tag variants))).push (v.id, child.length) =
      unionRows ((rows ++ [row]).map (Row.tag variants)) := by
    rw [List.map_append, List.map_singleton, selects, unionRows_append, position]
  rw [marks]
  refine Has.union distinct (by rw [List.length_set, count]) ?_ ?_
  · intro other mem
    rcases List.mem_append.1 mem with before | now
    · exact declared other before
    · obtain rfl := List.mem_singleton.1 now
      exact chosen
  · intro i w later at' here
    rcases of_set here with ⟨rfl, rfl⟩ | ⟨apart, before⟩
    · rw [variant] at at'
      cases at'
      rw [Row.given_append_of_selects selects]
      exact next
    · have other : row.tag variants ≠ w.id := by
        rw [selects]
        exact (id_ne_of_ne distinct at' variant apart).symm
      rw [Row.given_append_of_other other]
      exact each i w later at' before

/-- A declared type id selects a variant. -/
theorem exists_variantIndex? {variants : List Variant} {id : TypeId}
    (declared : ∃ v ∈ variants, v.id = id) :
    ∃ (index : Nat) (v : Variant), Column.variantIndex? variants id = some index ∧
      variants[index]? = some v ∧ v.id = id := by
  obtain ⟨w, mem, same⟩ := declared
  cases found : Column.variantIndex? variants id with
  | none =>
    have other := List.findIdx?_eq_none_iff.1 found w mem
    exact absurd same (by simpa using other)
  | some index =>
    obtain ⟨v, variant, here, -⟩ := Column.find?_of_variantIndex? found
    exact ⟨index, v, rfl, variant, here⟩

theorem selects_null {variants : List Variant} {id : TypeId}
    (null : nullVariant? variants = some id) : Row.null.Selects variants := by
  obtain ⟨v, found, same⟩ := Option.map_eq_some_iff.1 null
  refine ⟨v, List.mem_of_find?_eq_some found, ?_, fun _ => ?_⟩
  · change v.id = (nullVariant? variants).getD 0
    rw [null, Option.getD_some, same]
  · simpa using List.find?_some found

/-- A missing row that a builder takes is a further row of it. -/
theorem Has.appendNull {t : DataType} {rows : List Row} {b b' : Builder} (has : Has t rows b)
    (added : b.appendNull = (.ok (), b')) : Has t (rows ++ [.null]) b' := by
  induction has generalizing b' with
  | @item t rows item =>
    rw [Builder.appendNull, ItemBuilder.ofValues_missing item] at added
    cases added
    have has := Has.item (rows ++ [.null]) item
    rw [List.map_append] at has
    exact has
  | @struct fields rows children nonempty count each ih =>
    rw [Builder.appendNull] at added
    rcases others : appendNullAll children with ⟨_ | _, children'⟩
    · rw [others] at added
      cases added
    · rw [others] at added
      cases added
      obtain ⟨length, nulls⟩ := appendNullAll_ok others
      refine Has.close nonempty (length.trans count) ?_
      intro i f child' field here
      obtain ⟨child, before, done⟩ := nulls i child' here
      exact ih i f child field before done
  | @union variants rows children distinct count declared each ih =>
    rw [Builder.appendNull] at added
    split at added
    · cases added
    · next id null =>
      have chosen : Row.null.Selects variants := selects_null null
      have selects : Row.null.tag variants = id := by
        change (nullVariant? variants).getD 0 = id
        rw [null, Option.getD_some]
      obtain ⟨w, mem, named, -⟩ := selects_null null
      obtain ⟨index, v, found, variant, same⟩ :=
        exists_variantIndex? ⟨w, mem, named.trans selects⟩
      rw [found, Option.getD_some] at added
      rcases done : appendNullAt id index children with ⟨_ | offset, children'⟩
      · rw [done] at added
        cases added
      · rw [done] at added
        cases added
        obtain ⟨child, child', column, taken, rfl, rfl⟩ := appendNullAt_ok done
        rw [← same]
        exact Has.select distinct count declared each variant (selects.trans same.symm) chosen
          column (ih index v child variant column taken)

end Builder

/-! ## Rows of any kind -/

namespace Write

theorem of_change {name : String} {f : Builder → Option Builder} {b b' : Builder}
    (done : (change name f).apply b = (.ok (), b')) : f b = some b' := by
  simp only [change, of, apply] at done
  split at done
  · next changed =>
    cases done
    exact changed
  · cases done

theorem of_missing {name : String} {b b' : Builder}
    (done : (missing name).apply b = (.ok (), b')) : b.appendNull = (.ok (), b') := by
  simp only [missing, of, apply] at done
  split at done
  · next added =>
    cases done
    exact added
  · cases done

/-- A write to a field that succeeds is one to the child of the field. -/
theorem of_toField {index : Nat} {kind : Builder.Kind} {w : Write} {fields : List Field}
    {validity : Array Bool} {children : List Builder} {b' : Builder}
    (done : (toField index kind w).apply (.struct fields validity children) = (.ok (), b')) :
    ∃ child child', children[index]? = some child ∧ w.apply child = (.ok (), child') ∧
      b' = .struct fields validity (children.set index child') := by
  simp only [toField, of, apply, Builder.withField] at done
  split at done
  · cases done
  · next child column =>
    split at done
    · rcases written : w child with ⟨result, child'⟩
      rw [written] at done
      cases done
      exact ⟨child, child', column, written, rfl⟩
    · cases done

/-- A write to a variant that succeeds is one to the child of the variant, in a new row. -/
theorem of_toVariant {id : TypeId} {kind : Builder.Kind} {w : Write} {variants : List Variant}
    {marks : Array (TypeId × Nat)} {children : List Builder} {b' : Builder}
    (done : (toVariant id kind w).apply (.union variants marks children) = (.ok (), b')) :
    ∃ index child child', Column.variantIndex? variants id = some index ∧
      children[index]? = some child ∧ w.apply child = (.ok (), child') ∧
      b' = .union variants (marks.push (id, child.length)) (children.set index child') := by
  simp only [toVariant, of, apply, Builder.withVariant] at done
  split at done
  · cases done
  · next index found =>
    split at done
    · cases done
    · next child column =>
      split at done
      · rcases written : w child with ⟨result, child'⟩
        rw [written] at done
        cases done
        exact ⟨index, child, child', found, column, written, rfl⟩
      · cases done

end Write

namespace Builder

/-- Fields that are written one after the other, each once, take their rows in any order. -/
theorem apply_fields {name : String} {own : List Row} {fields : List Field} {order : List Nat}
    (once : order.Nodup) (inside : ∀ i ∈ order, i < fields.length)
    (count : own.length = fields.length)
    (takes : ∀ (i : Nat) (f : Field) (row : Row), fields[i]? = some f → own[i]? = some row →
      ∀ {rows : List Row} {b b' : Builder}, Has f.type rows b →
        (row.write name f.type).apply b = (.ok (), b') → Has f.type (rows ++ [row]) b')
    {parts : Nat → List Row} {validity : Array Bool} {children : List Builder} {b' : Builder}
    (each : ∀ (i : Nat) (f : Field) (child : Builder), fields[i]? = some f →
      children[i]? = some child → Has f.type (parts i) child)
    (done : Write.apply (order.forM fun i =>
        (Row.writeFields name 0 own fields).getD i (.fail (.noField i)))
      (.struct fields validity children) = (.ok (), b')) :
    ∃ children', b' = .struct fields validity children' ∧ children'.length = children.length ∧
      ∀ (i : Nat) (f : Field) (child : Builder), fields[i]? = some f →
        children'[i]? = some child →
        Has f.type (if i ∈ order then parts i ++ [own.getD i .null] else parts i) child := by
  induction order generalizing parts children with
  | nil =>
    cases done
    refine ⟨children, rfl, rfl, ?_⟩
    intro i f child field here
    rw [if_neg List.not_mem_nil]
    exact each i f child field here
  | cons index order ih =>
    have here : index < fields.length := inside index List.mem_cons_self
    have field : fields[index]? = some fields[index] := List.getElem?_eq_getElem here
    have row : own[index]? = some own[index] := List.getElem?_eq_getElem (count ▸ here)
    obtain ⟨later, once⟩ := List.nodup_cons.1 once
    obtain ⟨b₁, first, rest⟩ := Write.apply_bind_ok done
    dsimp only at first
    rw [List.getD_eq_getElem?_getD, Row.writeFields_getElem? row field, Option.getD_some,
      Nat.zero_add] at first
    obtain ⟨child, child', column, written, rfl⟩ := Write.of_toField first
    have taken := takes index _ _ field row (each index _ child field column) written
    -- the child that was written is one row ahead
    have ahead : ∀ (i : Nat) (f : Field) (other : Builder), fields[i]? = some f →
        (children.set index child')[i]? = some other →
        Has f.type (if i = index then parts i ++ [own.getD i .null] else parts i) other := by
      intro i f other at' column'
      rcases of_set column' with ⟨rfl, rfl⟩ | ⟨apart, before⟩
      · rw [field] at at'
        cases at'
        rw [if_pos rfl, List.getD_eq_getElem?_getD, row, Option.getD_some]
        exact taken
      · rw [if_neg apart]
        exact each i f other at' before
    obtain ⟨children', rfl, length, all⟩ :=
      ih once (fun i mem => inside i (List.mem_cons_of_mem index mem)) ahead rest
    refine ⟨children', rfl, by rw [length, List.length_set], ?_⟩
    intro i f other at' column'
    have has := all i f other at' column'
    by_cases same : i = index
    · subst same
      rw [if_neg later, if_pos rfl] at has
      rw [if_pos List.mem_cons_self]
      exact has
    · rw [if_neg same] at has
      simpa [same] using has

/-- A row that is written without an error is a further row of the builder. -/
theorem Has.write {name : String} {t : DataType} {row : Row} (fits : row.Fits t)
    {rows : List Row} {b b' : Builder} (has : Has t rows b)
    (done : (row.write name t).apply b = (.ok (), b')) : Has t (rows ++ [row]) b' := by
  induction fits generalizing rows b b' with
  | null t =>
    rw [Row.write] at done
    exact has.appendNull (Write.of_missing done)
  | @item t value item typed =>
    rw [Row.write] at done
    cases has with
    | item rows item =>
      have changed := Write.of_change done
      rw [mapItem?, ItemBuilder.ofValues_put typed item] at changed
      cases changed
      have has := Has.item (rows ++ [.item value]) item
      rw [List.map_append] at has
      exact has
    | struct nonempty count each => cases item
    | union distinct count declared each => cases item
  | @struct fields order own once count each ih =>
    cases has with
    | item rows item => cases item
    | @struct _ _ children nonempty length each =>
      rw [Row.write] at done
      obtain ⟨b₁, written, closed⟩ := Write.apply_bind_ok done
      have inside : ∀ i ∈ order, i < fields.length :=
        fun i mem => List.mem_range.1 (once.mem_iff.1 mem)
      obtain ⟨children', rfl, same, all⟩ :=
        apply_fields (once.nodup_iff.2 List.nodup_range) inside count ih each written
      rw [Write.apply_endRow] at closed
      cases closed
      refine Has.close nonempty (same.trans length) ?_
      intro i f child field here
      have has := all i f child field here
      have mem : i ∈ order :=
        once.mem_iff.2 (List.mem_range.2 (List.getElem?_eq_some_iff.1 field).1)
      rw [if_pos mem] at has
      exact has
  | @variant variants id row fits ih =>
    cases has with
    | item rows item => cases item
    | @union _ _ children distinct count declared each =>
      rw [Row.write] at done
      obtain ⟨index, child, child', found, column, written, rfl⟩ := Write.of_toVariant done
      obtain ⟨v, variant, rfl, first⟩ := Column.find?_of_variantIndex? found
      have type : Variant.typeOf variants v.id = v.field.type := by
        rw [Variant.typeOf, first]
        rfl
      have taken := ih (type ▸ each index v child variant column) written
      rw [type] at taken
      have chosen : (Row.variant v.id row).Selects variants :=
        ⟨v, List.mem_of_getElem? variant, rfl, fun null => by cases null⟩
      exact Has.select distinct count declared each variant rfl chosen column taken

/-- Rows that are written without an error are those of the builder. -/
theorem Has.writeAll (name : String) {t : DataType} {added : List Row}
    (fit : ∀ row ∈ added, row.Fits t) {rows : List Row} {b b' : Builder} (has : Has t rows b)
    (done : Write.apply (added.forM fun row => row.write name t) b = (.ok (), b')) :
    Has t (rows ++ added) b' := by
  induction added generalizing rows b with
  | nil =>
    cases done
    rw [List.append_nil]
    exact has
  | cons row added ih =>
    obtain ⟨b₁, first, rest⟩ := Write.apply_bind_ok done
    have next := has.write (fit row List.mem_cons_self) first
    have all := ih (fun other mem => fit other (List.mem_cons_of_mem row mem)) next rest
    rw [List.append_assoc] at all
    exact all

end Builder

end TypedColumns
