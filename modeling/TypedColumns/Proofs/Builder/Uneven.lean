import TypedColumns.Proofs.Builder.Broken

/-!
# Counts that do not match

A builder is aligned when at every depth the counts of its children are those that its own rows
speak of (`Builder.Aligned`). Only aligned builders give a column, so a count that is off anywhere
is found by finishing (`aligned_of_finish`).

It is not always reported. Finishing checks the counts of structs, of unions and of a list of fixed
size that it is asked to finish. The items of a list are finished with the list, without a check of
their own, and the program stops if a list of fixed size among them is uneven. `Builder.Stops` says
when this comes to pass: the children before it finish, and all counts that are checked on the way
to it are right. It does not where no list of fixed size is among the items of another list
(`reported_of_finish`).
-/

namespace TypedColumns

/-! ## Item builders -/

namespace ItemBuilder

/-- Lists of fixed size hold at least one item each. -/
def Sized : ItemBuilder → Prop
  | .list _ _ items => items.Sized
  | .fixedSizeList size _ items => 0 < size ∧ items.Sized
  | _ => True

/-- Every list of fixed size, at any depth, has the items that its rows take. -/
def Even : ItemBuilder → Prop
  | .list _ _ items => items.Even
  | .fixedSizeList size validity items => items.length = validity.size * size ∧ items.Even
  | _ => True

/-- The lists of fixed size among the items of a list have the items that their rows take. -/
def EvenInside : ItemBuilder → Prop
  | .list _ _ items => items.Even
  | .fixedSizeList _ _ items => items.Even
  | _ => True

/-- There is no list of fixed size at any depth. -/
def Unsized : ItemBuilder → Prop
  | .list _ _ items => items.Unsized
  | .fixedSizeList _ _ _ => False
  | _ => True

/-- No list of fixed size is among the items of another list. -/
def Shallow : ItemBuilder → Prop
  | .list _ _ items => items.Unsized
  | .fixedSizeList _ _ items => items.Unsized
  | _ => True

variable {b : ItemBuilder} {c : Column}

theorem Unsized.even (unsized : b.Unsized) : b.Even := by
  induction b with
  | list width rows items ih => exact ih unsized
  | fixedSizeList size validity items ih => exact unsized.elim
  | _ => trivial

theorem Shallow.evenInside (shallow : b.Shallow) : b.EvenInside := by
  cases b with
  | list width rows items => exact Unsized.even shallow
  | fixedSizeList size validity items => exact Unsized.even shallow
  | _ => trivial

theorem Sized.length_column (sized : b.Sized) (column : b.column? = some c) :
    c.length = b.length := by
  refine ItemBuilder.length_column column ?_
  rintro validity items rfl
  exact absurd sized.1 (Nat.lt_irrefl 0)

/-- There is a column exactly of even lists. -/
theorem exists_column_iff (sized : b.Sized) : (∃ c, b.column? = some c) ↔ b.Even := by
  induction b with
  | list width rows items ih =>
    rw [Even, ← ih sized, column?]
    simp only [Option.map_eq_some_iff]
    constructor
    · rintro ⟨-, c, column, -⟩
      exact ⟨c, column⟩
    · rintro ⟨c, column⟩
      exact ⟨_, c, column, rfl⟩
  | fixedSizeList size validity items ih =>
    rw [Even, ← ih sized.2, column?]
    constructor
    · rintro ⟨c, made⟩
      obtain ⟨d, column, made⟩ := Option.bind_eq_some_iff.1 made
      split at made
      · next count => exact ⟨sized.2.length_column column ▸ count, d, column⟩
      · cases made
    · rintro ⟨count, d, column⟩
      refine ⟨_, Option.bind_eq_some_iff.2 ⟨d, column, if_pos ?_⟩⟩
      rw [sized.2.length_column column, count]
  | _ => exact ⟨fun _ => trivial, fun _ => ⟨_, rfl⟩⟩

theorem even_iff : b.Even ↔ b.lengthFault? = none ∧ b.EvenInside := by
  cases b with
  | fixedSizeList size validity items =>
    rw [Even, lengthFault?, EvenInside]
    refine and_congr_left fun _ => ?_
    split
    · next count => exact ⟨fun _ => rfl, fun _ => count⟩
    · next count => exact ⟨fun same => absurd same count, fun right => by cases right⟩
  | _ => exact ⟨fun even => ⟨rfl, even⟩, And.right⟩

theorem lengthFault?_ne_unevenItems : b.lengthFault? ≠ some .unevenItems := by
  intro found
  cases b with
  | fixedSizeList size validity items =>
    rw [lengthFault?] at found
    split at found <;> cases found
  | _ => cases found

theorem even_of_finish (sized : b.Sized) (finished : b.finish.1 = .ok c) : b.Even := by
  rw [← exists_column_iff sized]
  rw [finish] at finished
  split at finished
  · cases finished
  · cases finished
  · next column => exact ⟨_, column⟩

/-- The one count that is checked is right, and another one is not. -/
theorem finish_eq_unevenItems_iff (sized : b.Sized) :
    b.finish.1 = .error .unevenItems ↔ b.lengthFault? = none ∧ ¬ b.EvenInside := by
  have even := exists_column_iff sized
  rw [even_iff] at even
  rw [finish]
  split
  · next fault counted =>
    constructor
    · intro same
      obtain rfl : fault = .unevenItems := Except.error.inj same
      exact absurd counted lengthFault?_ne_unevenItems
    · rintro ⟨right, -⟩
      cases counted.symm.trans right
  · next counted column =>
    refine ⟨fun _ => ⟨counted, fun inside => ?_⟩, fun _ => rfl⟩
    obtain ⟨c, made⟩ := even.2 ⟨counted, inside⟩
    rw [column] at made
    cases made
  · next c counted column =>
    constructor
    · intro stopped
      cases stopped
    · rintro ⟨-, uneven⟩
      exact absurd (even.1 ⟨c, column⟩).2 uneven

end ItemBuilder

/-! ## Builders with children -/

namespace Builder

/-- The item builders at the leaves of the tree have the property. -/
inductive Each (P : ItemBuilder → Prop) : Builder → Prop
  | item {items : ItemBuilder} (here : P items) : Each P (.item items)
  | struct {fields : List Field} {validity : Array Bool} {children : List Builder}
    (each : ∀ child ∈ children, Each P child) : Each P (.struct fields validity children)
  | union {variants : List Variant} {rows : Array (TypeId × Nat)} {children : List Builder}
    (each : ∀ child ∈ children, Each P child) : Each P (.union variants rows children)

/-- At every depth, lists of fixed size have the items that their rows take, the children of a
struct have its rows, and the child of a variant has as many as there are selections of it. -/
inductive Aligned : Builder → Prop
  | item {items : ItemBuilder} (even : items.Even) : Aligned (.item items)
  | struct {fields : List Field} {validity : Array Bool} {children : List Builder}
    (count : children.length = fields.length)
    (lengths : ∀ child ∈ children, child.length = validity.size)
    (each : ∀ child ∈ children, Aligned child) : Aligned (.struct fields validity children)
  | union {variants : List Variant} {rows : Array (TypeId × Nat)} {children : List Builder}
    (count : children.length = variants.length)
    (lengths : ∀ (i : Nat) (v : Variant) (child : Builder), variants[i]? = some v →
      children[i]? = some child → child.length = selections rows v.id)
    (each : ∀ child ∈ children, Aligned child) : Aligned (.union variants rows children)

/-- Finishing comes to the items of a list, among which a list of fixed size is uneven, and finds
nothing to report before that. -/
inductive Stops : Builder → Prop
  | item {items : ItemBuilder} (counted : items.lengthFault? = none)
    (uneven : ¬ items.EvenInside) : Stops (.item items)
  | struct {fields : List Field} {validity : Array Bool} {before after : List Builder}
    {child : Builder} (counted : structFault? fields validity (before ++ child :: after) = none)
    (finished : ∀ b ∈ before, ∃ c, b.finish.1 = .ok c) (stops : Stops child) :
    Stops (.struct fields validity (before ++ child :: after))
  | union {variants : List Variant} {rows : Array (TypeId × Nat)} {before after : List Builder}
    {child : Builder} (counted : unionFault? variants rows (before ++ child :: after) = none)
    (finished : ∀ b ∈ before, ∃ c, b.finish.1 = .ok c) (stops : Stops child) :
    Stops (.union variants rows (before ++ child :: after))

section

variable {b : Builder} {fields : List Field} {validity : Array Bool} {children : List Builder}
variable {variants : List Variant} {rows : Array (TypeId × Nat)} {fault : BuildFault}

/-- The first child that fails decides. -/
theorem finishAll_eq_error_iff : (finishAll children).1 = .error fault ↔
    ∃ before child after, children = before ++ child :: after ∧
      (∀ b ∈ before, ∃ c, b.finish.1 = .ok c) ∧ child.finish.1 = .error fault := by
  induction children with
  | nil =>
    constructor
    · intro failed
      rw [finishAll] at failed
      cases failed
    · rintro ⟨before, child, after, split, -⟩
      cases before <;> cases split
  | cons b bs ih =>
    rw [finishAll]
    rcases first : b.finish with ⟨fault' | c, b'⟩
    · constructor
      · intro failed
        refine ⟨[], b, bs, rfl, List.forall_mem_nil _, ?_⟩
        rw [first]
        exact congrArg Except.error (Except.error.inj failed)
      · rintro ⟨_ | ⟨d, before⟩, child, after, split, finished, failed⟩
        · cases split
          rw [first] at failed
          exact congrArg Except.error (Except.error.inj failed)
        · cases split
          obtain ⟨c, done⟩ := finished b List.mem_cons_self
          rw [first] at done
          cases done
    · have rest : (finishAll bs).1.map (c :: ·) = .error fault ↔
          (finishAll bs).1 = .error fault := by
        cases (finishAll bs).1 with
        | error fault' => exact ⟨fun same => by cases same; rfl, fun same => by cases same; rfl⟩
        | ok columns => exact ⟨fun same => (by cases same), fun same => (by cases same)⟩
      refine rest.trans (ih.trans ⟨?_, ?_⟩)
      · rintro ⟨before, child, after, rfl, finished, failed⟩
        refine ⟨b :: before, child, after, rfl, ?_, failed⟩
        exact List.forall_mem_cons.2 ⟨⟨c, by rw [first]⟩, finished⟩
      · rintro ⟨_ | ⟨d, before⟩, child, after, split, finished, failed⟩
        · cases split
          rw [first] at failed
          cases failed
        · cases split
          exact ⟨before, child, after, rfl, (List.forall_mem_cons.1 finished).2, failed⟩

theorem length_of_structFault?_eq_none (counts : structFault? fields validity children = none) :
    ∀ child ∈ children, child.length = validity.size := by
  have count := length_of_structFault? counts
  rw [structFault?, if_neg fun other => other count] at counts
  induction children generalizing fields with
  | nil => exact List.forall_mem_nil _
  | cons b bs ih =>
    cases fields with
    | nil => cases count
    | cons f fs =>
      rw [fieldLengthFault?] at counts
      split at counts
      · cases counts
      · next same =>
        exact List.forall_mem_cons.2
          ⟨Decidable.not_not.1 same, ih counts (Nat.succ.inj count)⟩

theorem structFault?_ne_unevenItems :
    structFault? fields validity children ≠ some .unevenItems := by
  intro found
  rw [structFault?] at found
  split at found
  · cases found
  · next same =>
    clear same
    induction children generalizing fields with
    | nil => cases fields <;> cases found
    | cons b bs ih =>
      cases fields with
      | nil => cases found
      | cons f fs =>
        rw [fieldLengthFault?] at found
        split at found
        · cases found
        · exact ih found

theorem unionFault?_ne_unevenItems :
    unionFault? variants rows children ≠ some .unevenItems := by
  intro found
  rw [unionFault?] at found
  split at found
  · cases found
  · next same =>
    clear same
    induction children generalizing variants with
    | nil => cases variants <;> cases found
    | cons b bs ih =>
      cases variants with
      | nil => cases found
      | cons v vs =>
        rw [variantLengthFault?] at found
        split at found
        · cases found
        · exact ih found

theorem fieldFault?_ne_unevenItems {marks : List Bool} {columns : List Column} :
    Column.fieldFault? marks fields columns ≠ some .unevenItems := by
  intro found
  induction columns generalizing fields with
  | nil => cases fields <;> cases found
  | cons c cs ih =>
    cases fields with
    | nil => cases found
    | cons f fs =>
      rw [Column.fieldFault?] at found
      split at found
      · cases found
      split at found
      · cases found
      split at found
      · cases found
      · exact ih found

theorem structOf_ne_unevenItems {marks : Option (List Bool)} {columns : List Column} :
    Column.structOf fields marks columns ≠ .error .unevenItems := by
  intro failed
  cases columns with
  | nil => cases failed
  | cons c cs =>
    rw [Column.structOf] at failed
    split at failed
    · cases failed
    · split at failed
      · next fault found =>
        cases failed
        exact fieldFault?_ne_unevenItems found
      · cases failed

theorem unionOf_ne_unevenItems {ids : List TypeId} {offsets : List Nat} {columns : List Column} :
    Column.unionOf variants ids offsets columns ≠ .error .unevenItems := by
  intro failed
  rw [Column.unionOf] at failed
  split at failed
  · cases failed
  · split at failed <;> cases failed

/-- A struct stops when its counts are in order and its children stop. -/
theorem finish_struct_eq_unevenItems_iff :
    (Builder.struct fields validity children).finish.1 = .error .unevenItems ↔
      structFault? fields validity children = none ∧
        (finishAll children).1 = .error .unevenItems := by
  rw [finish]
  cases counted : structFault? fields validity children with
  | some fault =>
    constructor
    · intro same
      obtain rfl : fault = .unevenItems := Except.error.inj same
      exact absurd counted structFault?_ne_unevenItems
    · rintro ⟨right, -⟩
      cases right
  | none =>
    rcases finishAll children with ⟨fault | columns, children'⟩
    · constructor
      · intro failed
        exact ⟨rfl, congrArg Except.error (Except.error.inj failed)⟩
      · rintro ⟨-, failed⟩
        exact congrArg Except.error (Except.error.inj failed)
    · constructor
      · intro made
        exact absurd made structOf_ne_unevenItems
      · rintro ⟨-, same⟩
        cases same

/-- A union stops when its counts are in order and its children stop. -/
theorem finish_union_eq_unevenItems_iff :
    (Builder.union variants rows children).finish.1 = .error .unevenItems ↔
      unionFault? variants rows children = none ∧
        (finishAll children).1 = .error .unevenItems := by
  rw [finish]
  cases counted : unionFault? variants rows children with
  | some fault =>
    constructor
    · intro same
      obtain rfl : fault = .unevenItems := Except.error.inj same
      exact absurd counted unionFault?_ne_unevenItems
    · rintro ⟨right, -⟩
      cases right
  | none =>
    rcases finishAll children with ⟨fault | columns, children'⟩
    · constructor
      · intro failed
        exact ⟨rfl, congrArg Except.error (Except.error.inj failed)⟩
      · rintro ⟨-, failed⟩
        exact congrArg Except.error (Except.error.inj failed)
    · constructor
      · intro made
        exact absurd made unionOf_ne_unevenItems
      · rintro ⟨-, same⟩
        cases same

theorem Stops.of_struct (stops : Stops (.struct fields validity children)) :
    structFault? fields validity children = none ∧ ∃ before child after,
      children = before ++ child :: after ∧ (∀ b ∈ before, ∃ c, b.finish.1 = .ok c) ∧
        Stops child := by
  cases stops with
  | struct counted finished stops => exact ⟨counted, _, _, _, rfl, finished, stops⟩

theorem Stops.of_union (stops : Stops (.union variants rows children)) :
    unionFault? variants rows children = none ∧ ∃ before child after,
      children = before ++ child :: after ∧ (∀ b ∈ before, ∃ c, b.finish.1 = .ok c) ∧
        Stops child := by
  cases stops with
  | union counted finished stops => exact ⟨counted, _, _, _, rfl, finished, stops⟩

/-- By induction on the tree: a child that stops is the first that fails. -/
theorem stops_iff (sized : b.Each ItemBuilder.Sized) :
    b.finish.1 = .error .unevenItems ↔ Stops b := by
  induction b using childInduction with
  | item items =>
    cases sized with
    | item here =>
      refine (ItemBuilder.finish_eq_unevenItems_iff here).trans ⟨?_, ?_⟩
      · rintro ⟨counted, uneven⟩
        exact .item counted uneven
      · rintro ⟨counted, uneven⟩
        exact ⟨counted, uneven⟩
  | struct fields validity children ih =>
    cases sized with
    | struct each =>
      rw [finish_struct_eq_unevenItems_iff, finishAll_eq_error_iff]
      constructor
      · rintro ⟨counted, before, child, after, rfl, finished, stopped⟩
        have mem : child ∈ before ++ child :: after := by simp
        exact .struct counted finished ((ih child mem (each child mem)).1 stopped)
      · intro stops
        obtain ⟨counted, before, child, after, rfl, finished, stops⟩ := stops.of_struct
        have mem : child ∈ before ++ child :: after := by simp
        have stopped := (ih child mem (each child mem)).2 stops
        exact ⟨counted, before, child, after, rfl, finished, stopped⟩
  | union variants rows children ih =>
    cases sized with
    | union each =>
      rw [finish_union_eq_unevenItems_iff, finishAll_eq_error_iff]
      constructor
      · rintro ⟨counted, before, child, after, rfl, finished, stopped⟩
        have mem : child ∈ before ++ child :: after := by simp
        exact .union counted finished ((ih child mem (each child mem)).1 stopped)
      · intro stops
        obtain ⟨counted, before, child, after, rfl, finished, stops⟩ := stops.of_union
        have mem : child ∈ before ++ child :: after := by simp
        have stopped := (ih child mem (each child mem)).2 stops
        exact ⟨counted, before, child, after, rfl, finished, stopped⟩

/-- Where no list of fixed size is among the items of another list, no builder stops. -/
theorem Stops.not_shallow (stops : Stops b) : ¬ b.Each ItemBuilder.Shallow := by
  induction stops with
  | item counted uneven =>
    rintro ⟨shallow⟩
    exact uneven shallow.evenInside
  | struct counted finished stops ih =>
    rintro (_ | each)
    exact ih (each _ (by simp))
  | union counted finished stops ih =>
    rintro (_ | _ | each)
    exact ih (each _ (by simp))

theorem exists_finish_of_mem {columns : List Column} {child : Builder}
    (finished : (finishAll children).1 = .ok columns) (mem : child ∈ children) :
    ∃ c, child.finish.1 = .ok c := by
  obtain ⟨i, inside, rfl⟩ := List.getElem_of_mem mem
  obtain ⟨count, each⟩ := finishAll_ok finished
  obtain ⟨other, found, done⟩ := each i _ (List.getElem?_eq_getElem (count ▸ inside))
  obtain rfl : children[i] = other :=
    Option.some.inj ((List.getElem?_eq_getElem inside).symm.trans found)
  exact ⟨_, done⟩

/-- A builder that gives a column is aligned: a count that is off at any depth is found. -/
theorem aligned_of_finish (sized : b.Each ItemBuilder.Sized) {c : Column}
    (finished : b.finish.1 = .ok c) : Aligned b := by
  induction b using childInduction generalizing c with
  | item items =>
    cases sized with
    | item here => exact .item (ItemBuilder.even_of_finish here finished)
  | struct fields validity children ih =>
    cases sized with
    | struct each =>
      have counted := counts_of_finish_struct finished
      obtain ⟨columns, inner, -⟩ := (finish_struct counted).1 finished
      refine .struct (length_of_structFault? counted) (length_of_structFault?_eq_none counted) ?_
      intro child mem
      obtain ⟨c, done⟩ := exists_finish_of_mem inner mem
      exact ih child mem (each child mem) done
  | union variants rows children ih =>
    cases sized with
    | union each =>
      have counted := counts_of_finish_union finished
      obtain ⟨columns, inner, -⟩ := (finish_union counted).1 finished
      refine .union (length_of_unionFault? counted) (fun i v child variant found =>
        (length_of_unionFault?_eq_none counted variant found).symm) ?_
      intro child mem
      obtain ⟨c, done⟩ := exists_finish_of_mem inner mem
      exact ih child mem (each child mem) done

end

/-- Whatever was written to a tree of builders, and in whatever order, finishing it gives a column
only if all its counts match, at every depth. A count that is off is reported, unless finishing
comes to a list of fixed size that is uneven among the items of another list, and then the program
stops. That does not happen where no list of fixed size is among the items of another list. -/
theorem reported_of_finish (b : Builder) (sized : b.Each ItemBuilder.Sized) :
    ((∃ c, b.finish.1 = .ok c) → Aligned b) ∧
      (¬ Aligned b → ¬ Stops b → ∃ fault, b.finish.1 = .error fault ∧ fault ≠ .unevenItems) ∧
      (b.finish.1 = .error .unevenItems ↔ Stops b) ∧
      (b.Each ItemBuilder.Shallow → b.finish.1 ≠ .error .unevenItems) := by
  have stops := stops_iff sized
  refine ⟨?_, ?_, stops, ?_⟩
  · rintro ⟨c, finished⟩
    exact aligned_of_finish sized finished
  · intro askew goes
    cases finished : b.finish.1 with
    | ok c => exact absurd (aligned_of_finish sized finished) askew
    | error fault =>
      refine ⟨fault, rfl, ?_⟩
      rintro rfl
      exact goes (stops.1 finished)
  · exact fun shallow stopped => (stops.1 stopped).not_shallow shallow

/-- A new builder of lists of one pair each. -/
def pairLists : ItemBuilder :=
  .fixedSizeList 1 #[] (.fixedSizeList 2 #[] (.number .float32 #[]))

/-- One number, the end of a pair, and the end of a list of that pair. -/
def halfPair? : Option ItemBuilder := do
  let b ← pairLists.mapItems? (·.mapItems? (·.appendNumber? .float32 0x3f800000))
  let b ← b.mapItems? (·.endRow? true)
  b.endRow? true

/-- A struct of a number and a list of half a pair. -/
def halfPairStruct : Builder :=
  .struct [⟨"number", .number .int32, false⟩, ⟨"pairs", .null, true⟩] #[true]
    [.item (.number .int32 #[some 5]), .item (halfPair?.getD default)]

/-- The number finishes, the list of one pair has one pair, and the pair has one number. -/
theorem reported_of_finish_halfPair : halfPairStruct.Each ItemBuilder.Sized ∧
    halfPairStruct.finish.1 = .error .unevenItems := by
  have sized : halfPairStruct.Each ItemBuilder.Sized := by
    refine .struct (List.forall_mem_cons.2 ⟨.item trivial, List.forall_mem_singleton.2 ?_⟩)
    exact .item ⟨by decide, by decide, trivial⟩
  refine ⟨sized, (reported_of_finish halfPairStruct sized).2.2.1.2 ?_⟩
  refine @Stops.struct _ _ [_] [] _ rfl (List.forall_mem_singleton.2 ⟨_, rfl⟩) (.item rfl ?_)
  rintro ⟨count, -⟩
  exact absurd count (by decide)

/-- Appending to the items and ending rows on a new builder leads to a mismatch that finishing does
not report. -/
theorem stops_at_halfPair : ∃ b, halfPair? = some b ∧ ¬ Aligned (.item b) ∧
    ¬ ((∃ c, (Builder.item b).finish.1 = .ok c) ∨
      ∃ fault, (Builder.item b).finish.1 = .error fault ∧ fault ≠ .unevenItems) := by
  refine ⟨_, rfl, ?_, ?_⟩
  · rintro ⟨-, count, -⟩
    exact absurd count (by decide)
  · rintro (⟨c, finished⟩ | ⟨fault, failed, reported⟩)
    · cases finished
    · cases failed
      exact reported rfl

end Builder

end TypedColumns
