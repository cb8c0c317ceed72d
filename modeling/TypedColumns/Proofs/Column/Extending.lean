import TypedColumns.Proofs.Column.WellFormed

/-!
# Columns with missing rows added

`Column.Extends n k c c'` compares the columns of a builder before and after `k` missing rows were
added to the `n` that it had: the rows of `c` are the first of `c'`, and the last `k` rows of `c'`
are missing. Nested columns extend if their children do. This needs no more of the columns than
that each row has its place (`Column.Placed`), so it holds of columns as well that a later check
would refuse.

The rows in between are those that a column leaves out: lists of no items are counted by their
marks, and without a missing row there are no marks. In `c'` all `n` rows are there.
-/

namespace TypedColumns.Column

section

variable {α β γ : Type}

theorem prefix_zipWith (f : α → β → γ) {as as' : List α} {bs bs' : List β} (first : as <+: as')
    (second : bs <+: bs') : List.zipWith f as bs <+: List.zipWith f as' bs' := by
  obtain ⟨rest, rfl⟩ := first
  obtain ⟨rest', rfl⟩ := second
  induction as generalizing bs with
  | nil => exact List.nil_prefix
  | cons a as ih =>
    cases bs with
    | nil => exact List.nil_prefix
    | cons b bs => exact List.cons_prefix_cons.2 ⟨rfl, ih⟩

theorem getElem?_of_isPrefix {as bs : List α} (before : as <+: bs) {i : Nat}
    (inside : i < as.length) : bs[i]? = as[i]? := by
  obtain ⟨rest, rfl⟩ := before
  exact List.getElem?_append_left inside

/-- Further ends of runs come behind the runs before them. -/
theorem prefix_runs (entries : List α) (start : Nat) (stops more : List Nat) :
    runs entries (start :: stops) <+: runs entries (start :: (stops ++ more)) := by
  induction stops generalizing start with
  | nil => exact List.nil_prefix
  | cons stop stops ih => exact List.cons_prefix_cons.2 ⟨rfl, ih stop⟩

/-- Further entries do not get into the runs that were full before. -/
theorem prefix_chunks (size : Nat) {entries entries' : List α} (more : entries <+: entries')
    {n m : Nat} (full : n * size ≤ entries.length) (fewer : n ≤ m) :
    chunks size entries n <+: chunks size entries' m := by
  obtain ⟨rest, rfl⟩ := more
  induction n generalizing entries m with
  | zero => exact List.nil_prefix
  | succ n ih =>
    cases m with
    | zero => cases fewer
    | succ m =>
      rw [Nat.succ_mul] at full
      have first : (entries ++ rest).take size = entries.take size :=
        List.take_append_of_le_length (by omega)
      have others : (entries ++ rest).drop size = entries.drop size ++ rest :=
        List.drop_append_of_le_length (by omega)
      rw [chunks, chunks, first, others]
      refine List.cons_prefix_cons.2 ⟨rfl, ih ?_ (Nat.le_of_succ_le_succ fewer)⟩
      rw [List.length_drop]
      omega

end

/-! ## Rows and their places -/

/-- Each row of a list has an end, and each row of a union a position. -/
def Placed : Column → Prop
  | .list _ _ validity offsets _ => offsets.length = validity.length + 1
  | .union _ ids offsets _ => offsets.length = ids.length
  | _ => True

theorem Placed.length_rows {c : Column} (placed : c.Placed) : c.rows.length = c.length := by
  cases c with
  | list width item validity offsets items =>
    cases offsets with
    | nil => cases placed
    | cons start stops =>
      rw [rows, masked, List.length_zipWith, List.length_map, length_runs,
        Nat.succ.inj placed, Nat.min_self, length]
  | fixedSizeList item size validity items =>
    rw [rows, masked, List.length_zipWith, List.length_map, length_chunks, Nat.min_self, length]
  | union variants ids offsets children =>
    rw [rows, List.length_zipWith, length_selected placed, Nat.min_self, length]
  | _ => simp [rows, masked, length]

theorem Placed.length_missing {c : Column} (placed : c.Placed) : c.missing.length = c.length := by
  cases c with
  | union variants ids offsets children =>
    rw [missing]
    split
    · rw [List.length_map, length_selected placed, length]
    · rw [List.length_replicate, length]
  | _ => simp [missing, length]

/-- The column `c'` has the rows of `c` first and `k` missing ones last. -/
structure Extends (n k : Nat) (c c' : Column) : Prop where
  dataType : c'.dataType = c.dataType
  short : c.length ≤ n
  length : c'.length = n + k
  placed : c.Placed
  placed' : c'.Placed
  rows : c.rows <+: c'.rows
  missing : c.missing <+: c'.missing
  /-- Rows that `c` leaves out are there in `c'`. -/
  present : ∀ i, c.length ≤ i → i < n → c'.missing[i]? = some false
  added : ∀ i, n ≤ i → i < n + k → ∃ v, c'.rows[i]? = some v ∧ v.isMissing = true

/-! ## Flat columns -/

/-- The rows of a column are those of its slots. -/
structure Slotted {α : Type} (c : Column) (f : α → Value) (slots : List (Option α)) : Prop where
  length : c.length = slots.length
  rows : c.rows = slots.map (.ofSlot f)
  missing : c.missing = slots.map Option.isNone

/-- Slots that are added empty are missing rows. -/
theorem Extends.of_slots {α : Type} {f : α → Value} {c c' : Column} {k : Nat}
    {slots : List (Option α)} (dataType : c'.dataType = c.dataType) (placed : c.Placed)
    (placed' : c'.Placed) (old : c.Slotted f slots)
    (new : c'.Slotted f (slots ++ List.replicate k none)) : Extends slots.length k c c' where
  dataType := dataType
  short := Nat.le_of_eq old.length
  length := by rw [new.length, List.length_append, List.length_replicate]
  placed := placed
  placed' := placed'
  rows := by
    rw [old.rows, new.rows]
    exact (List.prefix_append _ _).map _
  missing := by
    rw [old.missing, new.missing]
    exact (List.prefix_append _ _).map _
  present i here there := absurd there (Nat.not_lt_of_le (old.length ▸ here))
  added i here there := by
    refine ⟨.missing, ?_, rfl⟩
    rw [new.rows, List.getElem?_map, List.getElem?_append_right here, List.getElem?_replicate,
      if_pos (by omega)]
    rfl

theorem Extends.null (n k : Nat) : Extends n k (.null n) (.null (n + k)) := by
  have slotted (m : Nat) : (Column.null m).Slotted (fun _ : Unit => .missing)
      (List.replicate m none) := by
    constructor <;> simp [Column.length, Column.rows, Column.missing, Value.ofSlot]
  have new := slotted (n + k)
  rw [← List.replicate_append_replicate] at new
  have grown : Extends (List.replicate n (none : Option Unit)).length k (.null n) (.null (n + k)) :=
    .of_slots rfl trivial trivial (slotted n) new
  rwa [List.length_replicate] at grown

/-! ## Marked columns -/

/-- The rows of a column are those of its marks and its values, side by side. -/
structure Marked (c : Column) (marks : List Bool) (values : List Value) : Prop where
  length : c.length = marks.length
  rows : c.rows = masked marks values
  missing : c.missing = marks.map not

/-- The marks that a column has are the first of all marks; those it leaves out are of rows that are
there. -/
structure Begins (marks validity : List Bool) : Prop where
  before : marks <+: validity
  valid : ∀ i, marks.length ≤ i → i < validity.length → validity[i]? = some true

theorem Begins.refl (validity : List Bool) : Begins validity validity :=
  ⟨List.prefix_rfl, fun _ here there => absurd there (Nat.not_lt_of_le here)⟩

/-- Marks that are not kept are those of rows that are there. -/
theorem begins_getD {validity : List Bool} {n : Nat} (short : n ≤ validity.length) :
    Begins ((marks? validity).getD (List.replicate n true)) validity := by
  have all := marks?_getD validity
  rw [marks?] at all ⊢
  split
  · exact .refl validity
  · next absent =>
    rw [if_neg absent, Option.getD_none] at all
    rw [Option.getD_none, ← all]
    refine ⟨?_, fun i _ inside => ?_⟩
    · rw [List.prefix_replicate_iff]
      simpa using short
    · rw [List.length_replicate] at inside
      rw [List.getElem?_replicate, if_pos inside]

theorem Extends.of_marks {c c' : Column} {k : Nat} {marks validity : List Bool}
    {values values' : List Value} (begins : Begins marks validity)
    (dataType : c'.dataType = c.dataType) (placed : c.Placed) (placed' : c'.Placed)
    (old : c.Marked marks values) (new : c'.Marked (validity ++ List.replicate k false) values')
    (same : values <+: values') (full : validity.length + k ≤ values'.length) :
    Extends validity.length k c c' where
  dataType := dataType
  short := old.length ▸ begins.before.length_le
  length := by rw [new.length, List.length_append, List.length_replicate]
  placed := placed
  placed' := placed'
  rows := by
    rw [old.rows, new.rows]
    exact prefix_zipWith _ (begins.before.trans (List.prefix_append _ _)) same
  missing := by
    rw [old.missing, new.missing]
    exact (begins.before.trans (List.prefix_append _ _)).map not
  present i here there := by
    rw [new.missing, List.getElem?_map, List.getElem?_append_left there,
      begins.valid i (old.length ▸ here) there]
    rfl
  added i here there := by
    obtain ⟨v, value⟩ : ∃ v, values'[i]? = some v :=
      ⟨_, List.getElem?_eq_getElem (Nat.lt_of_lt_of_le there full)⟩
    refine ⟨.missing, ?_, rfl⟩
    rw [new.rows, masked, List.getElem?_zipWith, List.getElem?_append_right here,
      List.getElem?_replicate, if_pos (by omega), value]
    rfl

/-- Missing lists take no items. -/
theorem Extends.list {width : OffsetWidth} {item : Field} {validity : List Bool} {stops : List Nat}
    {items : Column} {k stop : Nat} (same : stops.length = validity.length) :
    Extends validity.length k (.list width item validity (0 :: stops) items)
      (.list width item (validity ++ List.replicate k false)
        (0 :: (stops ++ List.replicate k stop)) items) := by
  refine .of_marks (.refl validity) rfl (congrArg Nat.succ same) ?_ ⟨rfl, rfl, rfl⟩ ⟨rfl, rfl, rfl⟩
    ((prefix_runs _ _ _ _).map _) ?_
  · simp [Placed, same]
  · refine Nat.le_of_eq ?_
    rw [List.length_map, length_runs, List.length_append, List.length_replicate, same]

/-- Missing lists of fixed size take their slots. -/
theorem Extends.fixedSizeList {item : Field} {size : Nat} {marks validity : List Bool}
    {items items' : Column} {k : Nat} (begins : Begins marks validity)
    (full : marks.length * size ≤ items.rows.length) (more : items.rows <+: items'.rows) :
    Extends validity.length k (.fixedSizeList item size marks items)
      (.fixedSizeList item size (validity ++ List.replicate k false) items') := by
  refine .of_marks begins rfl trivial trivial ⟨rfl, rfl, rfl⟩ ⟨rfl, rfl, rfl⟩
    ((prefix_chunks _ more full ?_).map _) ?_
  · rw [List.length_append]
    exact Nat.le_trans begins.before.length_le (Nat.le_add_right _ _)
  · refine Nat.le_of_eq ?_
    rw [List.length_map, length_chunks, List.length_append, List.length_replicate]

/-! ## Structs -/

section

variable {fields : List Field} {marks validity : List Bool} {columns columns' : List Column}

/-- The rows of the children that were there before are the first of those that they have now. -/
theorem rowsAll_of_extends {n count : Nat} (all : Alongside (Extends n 1) columns columns')
    (lengths : ∀ c ∈ columns, c.length = count) :
    rowsAll columns = (rowsAll columns').map (List.take count) := by
  rw [rowsAll_eq_map, rowsAll_eq_map, List.map_map]
  refine List.ext_getElem? fun i => ?_
  rw [List.getElem?_map, List.getElem?_map]
  cases column' : columns'[i]? with
  | none =>
    rw [List.getElem?_eq_none (all.1 ▸ List.getElem?_eq_none_iff.1 column')]
    rfl
  | some c' =>
    obtain ⟨c, column, grown⟩ := all.of_getElem? column'
    have before := List.prefix_iff_eq_take.1 grown.rows
    rw [grown.placed.length_rows, lengths c (List.mem_of_getElem? column)] at before
    rw [column, Option.map_some, Option.map_some, before]
    rfl

/-- Where a struct is present, its children were there before and are as they were. -/
theorem Extends.unmasked {c c' : Column} (grown : Extends validity.length 1 c c')
    (begins : Begins marks validity) (same : c.length = marks.length)
    (clean : unmasked marks c.missing = false) :
    unmasked (validity ++ [false]) c'.missing = false := by
  refine unmasked_iff.2 fun i present absent => ?_
  have here : validity[i]? = some true := by
    rw [List.getElem?_append] at present
    split at present
    · exact present
    · cases last : i - validity.length <;> simp [last] at present
  have within := (List.getElem?_eq_some_iff.1 here).1
  by_cases before : i < marks.length
  · rw [getElem?_of_isPrefix begins.before before] at here
    rw [getElem?_of_isPrefix grown.missing (by rwa [grown.placed.length_missing, same])] at absent
    exact unmasked_iff.1 clean i here absent
  · rw [grown.present i (same ▸ Nat.le_of_not_lt before) within] at absent
    cases absent

/-- A struct that takes a missing row has its children take one, and asks nothing of it. -/
theorem Extends.struct (begins : Begins marks validity)
    (number : columns.length = fields.length) (clean : fieldFault? marks fields columns = none)
    (all : Alongside (Extends validity.length 1) columns columns') :
    fieldFault? (validity ++ [false]) fields columns' = none ∧
      Extends validity.length 1 (.struct fields marks columns)
        (.struct fields (validity ++ [false]) columns') := by
  have fits := (fieldFault?_iff number).1 clean
  constructor
  · refine (fieldFault?_iff (all.1.trans number)).2 fun i f c' field column' => ?_
    obtain ⟨c, column, grown⟩ := all.of_getElem? column'
    obtain ⟨type, same, required⟩ := fits i f c field column
    refine ⟨grown.dataType.trans type, ?_, required.imp_right (grown.unmasked begins same)⟩
    rw [grown.length, List.length_append, List.length_singleton]
  · refine .of_marks begins rfl trivial trivial ⟨rfl, rfl, rfl⟩ ⟨rfl, rfl, rfl⟩ ?_ (by simp)
    rw [rowsAll_of_extends all (lengths_of_fieldFault? number clean)]
    have same : (List.range marks.length).map (fun i => Value.struct
          (fieldRows fields ((rowsAll columns').map (List.take marks.length)) i)) =
        (List.range marks.length).map fun i => .struct (fieldRows fields (rowsAll columns') i) :=
      List.map_congr_left fun i mem =>
        congrArg Value.struct (fieldRows_take (List.mem_range.1 mem))
    rw [same]
    refine List.IsPrefix.map _ (List.prefix_iff_eq_take.2 ?_)
    have short := begins.before.length_le
    rw [List.length_range, List.take_range, List.length_append, Nat.min_eq_left (by omega)]

end

/-! ## Unions -/

section

variable {variants : List Variant} {ids : List TypeId} {offsets lengths : List Nat}
variable {columns : List Column} {id : TypeId} {index n : Nat}

/-- Each row of a union selects a variant and a position below its length. -/
def Selects (variants : List Variant) (ids : List TypeId) (offsets lengths : List Nat) : Prop :=
  ∀ (i : Nat) (id : TypeId) (offset : Nat), ids[i]? = some id → offsets[i]? = some offset →
    ∃ index length, variantIndex? variants id = some index ∧ lengths[index]? = some length ∧
      offset < length

theorem unionOf_iff (placed : offsets.length = ids.length) :
    unionOf variants ids offsets columns = .ok (.union variants ids offsets columns) ↔
      Selects variants ids offsets (columns.map length) := by
  constructor
  · intro made i id offset row position
    obtain ⟨index, child, declared, column, inside⟩ := selects_of_unionOf made row position
    refine ⟨index, child.length, declared, ?_, inside⟩
    rw [List.getElem?_map, column]
    rfl
  · intro selects
    have known (i : Nat) (id : TypeId) (offset : Nat) (row : ids[i]? = some id)
        (position : offsets[i]? = some offset) :
        ∃ length, variantLength? variants columns id = some length ∧ offset < length := by
      obtain ⟨index, length, declared, here, inside⟩ := selects i id offset row position
      refine ⟨length, ?_, inside⟩
      rw [variantLength?_map, declared, Option.bind_some, here]
    unfold unionOf
    rw [if_neg, if_neg]
    · intro outside
      obtain ⟨⟨found, offset⟩, mem, beyond⟩ := List.any_eq_true.1 outside
      obtain ⟨i, place⟩ := List.mem_iff_getElem?.1 mem
      obtain ⟨here, position⟩ := List.getElem?_zip_eq_some.1 place
      rw [List.getElem?_map] at here
      obtain ⟨id, row, rfl⟩ := Option.map_eq_some_iff.1 here
      obtain ⟨length, same, inside⟩ := known i id offset row position
      simp only [same, Option.getD_some, decide_eq_true_eq] at beyond
      exact Nat.not_le_of_lt inside beyond
    · intro undeclared
      obtain ⟨_, mem, absent⟩ := List.any_eq_true.1 undeclared
      obtain ⟨id, listed, rfl⟩ := List.mem_map.1 mem
      obtain ⟨i, row⟩ := List.mem_iff_getElem?.1 listed
      have within : i < offsets.length := placed ▸ (List.getElem?_eq_some_iff.1 row).1
      obtain ⟨length, same, -⟩ := known i id _ row (List.getElem?_eq_getElem within)
      rw [same] at absent
      cases absent

/-- One more row selects the last place of a variant that has become longer. -/
theorem Selects.append (selects : Selects variants ids offsets lengths)
    (placed : offsets.length = ids.length) (declared : variantIndex? variants id = some index)
    {m : Nat} (found : lengths[index]? = some m) (more : m ≤ n + 1) :
    Selects variants (ids ++ [id]) (offsets ++ [n]) (lengths.set index (n + 1)) := by
  have set : (lengths.set index (n + 1))[index]? = some (n + 1) :=
    List.getElem?_set_self (List.getElem?_eq_some_iff.1 found).1
  intro i other offset row position
  by_cases before : i < ids.length
  · rw [List.getElem?_append_left before] at row
    rw [List.getElem?_append_left (placed ▸ before)] at position
    obtain ⟨j, length, at', here, inside⟩ := selects i other offset row position
    by_cases same : index = j
    · subst same
      obtain rfl : m = length := Option.some.inj (found.symm.trans here)
      exact ⟨index, n + 1, at', set, Nat.lt_of_lt_of_le inside more⟩
    · exact ⟨j, length, at', by rw [List.getElem?_set_ne same, here], inside⟩
  · have last := (List.getElem?_eq_some_iff.1 row).1
    rw [List.length_append, List.length_singleton] at last
    obtain rfl : i = ids.length := by omega
    rw [List.getElem?_concat_length] at row
    rw [← placed, List.getElem?_concat_length] at position
    cases row
    cases position
    exact ⟨index, n + 1, declared, set, Nat.lt_succ_self n⟩

/-- Longer lists do not change what the rows select. -/
theorem selected_set {α : Type} {entries : List (List α)} {list list' : List α}
    (selects : Selects variants ids offsets (entries.map List.length))
    (found : entries[index]? = some list) (more : list <+: list') :
    selected variants ids offsets (entries.set index list') =
      selected variants ids offsets entries := by
  refine List.ext_getElem? fun i => ?_
  cases row : ids[i]? with
  | none => simp [selected, List.getElem?_zipWith, row]
  | some id =>
    cases position : offsets[i]? with
    | none => simp [selected, List.getElem?_zipWith, position]
    | some offset =>
      obtain ⟨j, length, declared, here, inside⟩ := selects i id offset row position
      rw [List.getElem?_map] at here
      obtain ⟨own, entry, rfl⟩ := Option.map_eq_some_iff.1 here
      rw [selected_getElem? entries row position declared entry]
      by_cases same : index = j
      · subst same
        obtain rfl : list = own := Option.some.inj (found.symm.trans entry)
        have entry' : (entries.set index list')[index]? = some list' :=
          List.getElem?_set_self (List.getElem?_eq_some_iff.1 found).1
        rw [selected_getElem? _ row position declared entry', getElem?_of_isPrefix more inside]
      · have entry' : (entries.set index list')[j]? = some own := by
          rw [List.getElem?_set_ne same, entry]
        rw [selected_getElem? _ row position declared entry']

/-- What the rows select stays when another row selects the last entry of a longer list. -/
theorem selected_append {α : Type} {entries : List (List α)} {list list' : List α} {a : α}
    (placed : offsets.length = ids.length)
    (selects : Selects variants ids offsets (entries.map List.length))
    (declared : variantIndex? variants id = some index) (found : entries[index]? = some list)
    (more : list <+: list') (last : list'[n]? = some a) :
    selected variants (ids ++ [id]) (offsets ++ [n]) (entries.set index list') =
      selected variants ids offsets entries ++ [some a] := by
  have entry' : (entries.set index list')[index]? = some list' :=
    List.getElem?_set_self (List.getElem?_eq_some_iff.1 found).1
  have here : selected variants [id] [n] (entries.set index list') = [some a] := by
    simp only [selected, List.zipWith_cons_cons, List.zipWith_nil_left, declared, entry', last,
      bind, Option.bind_some]
  rw [← selected_set selects found more, ← here]
  exact List.zipWith_append placed.symm

/-- A union that takes a missing row has the child of its variant take one. -/
theorem Extends.union {child child' : Column}
    (made : unionOf variants ids offsets columns = .ok (.union variants ids offsets columns))
    (placed : offsets.length = ids.length) (each : ∀ c ∈ columns, c.Placed)
    (declared : variantIndex? variants id = some index) (found : columns[index]? = some child)
    (grown : Extends n 1 child child') :
    unionOf variants (ids ++ [id]) (offsets ++ [n]) (columns.set index child') =
        .ok (.union variants (ids ++ [id]) (offsets ++ [n]) (columns.set index child')) ∧
      Extends ids.length 1 (.union variants ids offsets columns)
        (.union variants (ids ++ [id]) (offsets ++ [n]) (columns.set index child')) := by
  have placed' : (offsets ++ [n]).length = (ids ++ [id]).length := by simp [placed]
  have selects := (unionOf_iff placed).1 made
  constructor
  · refine (unionOf_iff placed').2 ?_
    rw [List.map_set, grown.length]
    exact selects.append placed declared (by rw [List.getElem?_map, found]; rfl)
      (Nat.le_succ_of_le grown.short)
  · have read : (columns.map Column.rows).map List.length = columns.map Column.length := by
      rw [List.map_map]
      exact List.map_congr_left fun c mem => (each c mem).length_rows
    have told : (columns.map Column.missing).map List.length = columns.map Column.length := by
      rw [List.map_map]
      exact List.map_congr_left fun c mem => (each c mem).length_missing
    obtain ⟨v, value, absent⟩ := grown.added n (Nat.le_refl n) (Nat.lt_succ_self n)
    have shown := selected_append placed (read ▸ selects) declared
      (by rw [List.getElem?_map, found]; rfl) grown.rows value
    obtain ⟨lost, mark⟩ : ∃ lost, child'.missing[n]? = some lost := by
      refine ⟨_, List.getElem?_eq_getElem ?_⟩
      rw [grown.placed'.length_missing, grown.length]
      exact Nat.lt_succ_self n
    have marked := selected_append placed (told ▸ selects) declared
      (by rw [List.getElem?_map, found]; rfl) grown.missing mark
    rw [← List.map_set, ← rowsAll_eq_map, ← rowsAll_eq_map] at shown
    rw [← List.map_set, ← missingAll_eq_map, ← missingAll_eq_map] at marked
    refine ⟨rfl, Nat.le_refl _, by simp [Column.length], placed, placed', ?_, ?_, ?_, ?_⟩
    · rw [Column.rows, Column.rows, shown]
      exact prefix_zipWith _ (List.prefix_append _ _) (List.prefix_append _ _)
    · rw [Column.missing, Column.missing, marked, List.map_append, List.length_append,
        ← List.replicate_append_replicate]
      split <;> exact List.prefix_append _ _
    · exact fun i here there => absurd there (Nat.not_lt_of_le here)
    · intro i here there
      obtain rfl : i = ids.length := Nat.le_antisymm (Nat.le_of_lt_succ there) here
      refine ⟨variantRow variants id (some v), ?_, absent⟩
      have same : (selected variants ids offsets (rowsAll columns)).length = ids.length :=
        length_selected placed _
      rw [Column.rows, shown, List.zipWith_append same.symm, List.getElem?_append_right] <;>
        simp [same]

end

end TypedColumns.Column
