import TypedColumns.Proofs.Rows.Finishing

/-!
# Unions sort their calls by variant

A union builder hands every call on to the child of one variant, and notes the id and the length
that the child had. Ids need not be positions: a variant is looked up by its id, and the variant of
missing rows is the first that holds nothing else.

As long as each call adds one slot to its child, what a union builder holds is a stable partition of
its calls (`Distributed`): every child has taken the calls of its variant in their order and no
others, and a call stands in its child behind the earlier calls of the same id. So the counts never
speak against finishing, and a finished union reads call by call.
-/

namespace TypedColumns

universe u

/-- A call that adds a row to a union builder. -/
inductive UnionCall
  /-- A value of one variant, as it is written to builders of a kind. -/
  | value (id : TypeId) (kind : Builder.Kind) (w : Write)
  | missing

/-- The call that appends a value of a codec as a variant. -/
def Codec.variantCall {α : Type u} [Footprint α] (codec : Codec α) (id : TypeId) (a : α) :
    UnionCall :=
  .value id codec.kind (codec.append a)

namespace UnionCall

/-- The id of the variant that the call selects. -/
def tag (variants : List Variant) : UnionCall → TypeId
  | .value id _ _ => id
  | .missing => (Builder.nullVariant? variants).getD 0

/-- What the call does to the child that it selects. -/
def Adds : UnionCall → Builder → Builder → Prop
  | .value _ _ w, b, b' => w.apply b = (.ok (), b')
  | .missing, b, b' => b.appendNull = (.ok (), b')

/-- The call is answered without an error, and one slot is added to the child that it selects. -/
inductive Step (variants : List Variant) (rows : Array (TypeId × Nat)) (children : List Builder) :
    UnionCall → Array (TypeId × Nat) → List Builder → Prop
  | value {id : TypeId} {kind : Builder.Kind} {w : Write} {rows' : Array (TypeId × Nat)}
    {children' : List Builder}
    (done : (Write.toVariant id kind w).apply (.union variants rows children) =
      (.ok (), .union variants rows' children'))
    (single : ∀ index child child', Column.variantIndex? variants id = some index →
      children[index]? = some child → children'[index]? = some child' →
      child'.length = child.length + 1) :
    Step variants rows children (.value id kind w) rows' children'
  | missing {rows' : Array (TypeId × Nat)} {children' : List Builder}
    (done : (Builder.union variants rows children).appendNull =
      (.ok (), .union variants rows' children')) :
    Step variants rows children .missing rows' children'

/-- The rows and the children of a union builder that has been given the calls. -/
inductive Run (variants : List Variant) (children₀ : List Builder) :
    List UnionCall → Array (TypeId × Nat) → List Builder → Prop
  | start : Run variants children₀ [] #[] children₀
  | call {calls : List UnionCall} {c : UnionCall} {rows rows' : Array (TypeId × Nat)}
    {children children' : List Builder} (before : Run variants children₀ calls rows children)
    (step : Step variants rows children c rows' children') :
    Run variants children₀ (calls ++ [c]) rows' children'

/-- A child that has taken the calls, one after the other. -/
inductive Taken (b₀ : Builder) : List UnionCall → Builder → Prop
  | none : Taken b₀ [] b₀
  | call {calls : List UnionCall} {c : UnionCall} {b b' : Builder}
    (before : Taken b₀ calls b) (adds : c.Adds b b') : Taken b₀ (calls ++ [c]) b'

/-- The calls that select the variant of an id, in their order. -/
def given (variants : List Variant) (calls : List UnionCall) (id : TypeId) : List UnionCall :=
  calls.filter fun c => c.tag variants == id

/-! ## One call -/

/-- The call selects one child, adds one slot to it, and leaves the other children alone. -/
structure Selected (variants : List Variant) (rows : Array (TypeId × Nat))
    (children : List Builder) (c : UnionCall) (rows' : Array (TypeId × Nat))
    (children' : List Builder) (index : Nat) (child child' : Builder) : Prop where
  position : Column.variantIndex? variants (c.tag variants) = some index
  found : children[index]? = some child
  adds : c.Adds child child'
  length : child'.length = child.length + 1
  rows_eq : rows' = rows.push (c.tag variants, child.length)
  children_eq : children' = children.set index child'
  /-- A missing row goes to the first variant that holds nothing else. -/
  null : c = .missing → Builder.nullVariant? variants = some (c.tag variants)

section Step

variable {variants : List Variant} {rows rows' : Array (TypeId × Nat)}
variable {children children' : List Builder} {c : UnionCall}

theorem Step.selected (step : Step variants rows children c rows' children') :
    ∃ index child child', Selected variants rows children c rows' children' index child child' := by
  cases step with
  | value done single =>
    obtain ⟨index, child, child', position, found, adds, same⟩ := Write.of_toVariant done
    cases same
    have here : (children.set index child')[index]? = some child' :=
      List.getElem?_set_self (List.getElem?_eq_some_iff.1 found).1
    exact ⟨index, child, child', position, found, adds,
      single index child child' position found here, rfl, rfl, nofun⟩
  | missing done =>
    rw [Builder.appendNull] at done
    cases null : Builder.nullVariant? variants with
    | none =>
      rw [null] at done
      cases done
    | some id =>
      rw [null] at done
      have tag : tag variants .missing = id := by rw [UnionCall.tag, null, Option.getD_some]
      obtain ⟨v, mem, named, -⟩ := Builder.selects_null null
      obtain ⟨index, -, position, -⟩ := Builder.exists_variantIndex? ⟨v, mem, named⟩
      have here : Column.variantIndex? variants id = some index := tag ▸ position
      dsimp only at done
      rw [here, Option.getD_some] at done
      rcases added : Builder.appendNullAt id index children with ⟨_ | offset, others⟩
      · rw [added] at done
        cases done
      · rw [added] at done
        cases done
        obtain ⟨child, child', found, adds, rfl, rfl⟩ := Builder.appendNullAt_ok added
        exact ⟨index, child, child', position, found, adds, Builder.length_appendNull adds,
          by rw [tag], rfl, fun _ => by rw [tag, null]⟩

/-- A write that adds one slot to every builder adds one to the child. -/
theorem Step.of_write {id : TypeId} {kind : Builder.Kind} {w : Write} {b : Builder}
    (single : ∀ {child child'}, w.apply child = (.ok (), child') →
      child'.length = child.length + 1)
    (done : (Write.toVariant id kind w).apply (.union variants rows children) = (.ok (), b)) :
    ∃ rows' children', b = .union variants rows' children' ∧
      Step variants rows children (.value id kind w) rows' children' := by
  obtain ⟨index, child, child', position, found, written, rfl⟩ := Write.of_toVariant done
  refine ⟨_, _, rfl, .value done ?_⟩
  intro i other other' here before after
  obtain rfl : index = i := Option.some.inj (position.symm.trans here)
  obtain rfl : child = other := Option.some.inj (found.symm.trans before)
  rw [List.getElem?_set_self (List.getElem?_eq_some_iff.1 found).1] at after
  cases after
  exact single written

theorem Step.of_appendNull {b : Builder}
    (done : (Builder.union variants rows children).appendNull = (.ok (), b)) :
    ∃ rows' children', b = .union variants rows' children' ∧
      Step variants rows children .missing rows' children' := by
  obtain ⟨rows', children', rfl⟩ : ∃ rows' children', b = .union variants rows' children' := by
    rw [Builder.appendNull] at done
    cases null : Builder.nullVariant? variants with
    | none =>
      rw [null] at done
      cases done
    | some id =>
      rw [null] at done
      dsimp only at done
      split at done
      · cases done
        exact ⟨_, _, rfl⟩
      · cases done
  exact ⟨rows', children', rfl, .missing done⟩

end Step

/-! ## All calls -/

section Run

variable {variants : List Variant} {children₀ : List Builder} {calls : List UnionCall}
variable {rows rows' : Array (TypeId × Nat)} {children children' : List Builder} {c : UnionCall}

theorem length_given (id : TypeId) :
    (given variants calls id).length = (calls.map (tag variants)).count id := by
  rw [given, List.count_eq_countP, List.countP_map, List.countP_eq_length_filter]
  rfl

theorem given_append_of_selects {id : TypeId} (selects : c.tag variants = id) :
    given variants (calls ++ [c]) id = given variants calls id ++ [c] := by
  rw [given, List.filter_append, List.filter_cons_of_pos (by simp [selects])]
  rfl

theorem given_append_of_other {id : TypeId} (other : c.tag variants ≠ id) :
    given variants (calls ++ [c]) id = given variants calls id := by
  rw [given, List.filter_append, List.filter_cons_of_neg (by simpa using other), List.filter_nil,
    List.append_nil]
  rfl

/-- What the rows and the children of a union builder are after the calls. -/
structure Sorted (variants : List Variant) (children₀ : List Builder) (calls : List UnionCall)
    (rows : Array (TypeId × Nat)) (children : List Builder) : Prop where
  rows_eq : rows = Builder.unionRows (calls.map (tag variants))
  count : children.length = variants.length
  declared : ∀ c ∈ calls, ∃ index, Column.variantIndex? variants (c.tag variants) = some index
  null : .missing ∈ calls → Builder.nullVariant? variants = some (tag variants .missing)
  each : ∀ (i : Nat) (v : Variant), variants[i]? = some v → ∃ child₀ child,
    children₀[i]? = some child₀ ∧ children[i]? = some child ∧
      Taken child₀ (given variants calls v.id) child ∧
      child.length = (given variants calls v.id).length

theorem Sorted.start (count : children₀.length = variants.length)
    (empty : ∀ child ∈ children₀, child.length = 0) :
    Sorted variants children₀ [] #[] children₀ := by
  refine ⟨rfl, count, nofun, nofun, ?_⟩
  intro i v variant
  have inside : i < children₀.length := count ▸ (List.getElem?_eq_some_iff.1 variant).1
  exact ⟨_, _, List.getElem?_eq_getElem inside, List.getElem?_eq_getElem inside, .none,
    empty _ (List.getElem_mem inside)⟩

theorem Sorted.select (distinct : (variants.map (·.id)).Nodup)
    (sorted : Sorted variants children₀ calls rows children) {index : Nat} {child child' : Builder}
    (selected : Selected variants rows children c rows' children' index child child') :
    Sorted variants children₀ (calls ++ [c]) rows' children' := by
  obtain ⟨v, variant, same, -⟩ := Column.find?_of_variantIndex? selected.position
  obtain ⟨child₀, here, first, found, taken, length⟩ := sorted.each index v variant
  obtain rfl : here = child := Option.some.inj (found.symm.trans selected.found)
  rw [selected.children_eq]
  refine ⟨?rows, by rw [List.length_set, sorted.count], ?declared, ?null, ?each⟩
  case rows =>
    rw [selected.rows_eq, sorted.rows_eq, List.map_append, List.map_singleton,
      Builder.unionRows_append, length, length_given, same]
  case declared =>
    intro d mem
    rcases List.mem_append.1 mem with before | now
    · exact sorted.declared d before
    · rw [List.mem_singleton.1 now]
      exact ⟨index, selected.position⟩
  case null =>
    intro mem
    rcases List.mem_append.1 mem with before | now
    · exact sorted.null before
    · have this := List.mem_singleton.1 now
      rw [this]
      exact selected.null this.symm
  case each =>
    intro i w other
    by_cases this : i = index
    · subst this
      obtain rfl : v = w := Option.some.inj (variant.symm.trans other)
      refine ⟨child₀, child', first, ?_, ?_, ?_⟩
      · exact List.getElem?_set_self (List.getElem?_eq_some_iff.1 found).1
      · rw [given_append_of_selects same.symm]
        exact taken.call selected.adds
      · rw [given_append_of_selects same.symm, selected.length, length, List.length_append]
        rfl
    · have apart : c.tag variants ≠ w.id := by
        rw [← same]
        exact Builder.id_ne_of_ne distinct variant other fun equal => this equal.symm
      rw [List.getElem?_set_ne fun equal => this equal.symm, given_append_of_other apart]
      exact sorted.each i w other

theorem Run.sorted (distinct : (variants.map (·.id)).Nodup)
    (count : children₀.length = variants.length) (empty : ∀ child ∈ children₀, child.length = 0)
    (run : Run variants children₀ calls rows children) :
    Sorted variants children₀ calls rows children := by
  induction run with
  | start => exact .start count empty
  | call before step ih =>
    obtain ⟨index, child, child', selected⟩ := step.selected
    exact ih.select distinct selected

/-! ## Finishing -/

/-- A row stands in its variant behind the earlier rows of the same id. -/
theorem unionRows_getElem? {ids : List TypeId} {i : Nat} {id : TypeId} (row : ids[i]? = some id) :
    (Builder.unionRows ids)[i]? = some (id, (ids.take i).count id) := by
  have from_seen (seen : List TypeId) :
      (Column.positionsFrom seen ids)[i]? = some ((seen ++ ids.take i).count id) := by
    induction ids generalizing i seen with
    | nil => cases row
    | cons first ids ih =>
      cases i with
      | zero =>
        cases row
        rw [List.take_zero, List.append_nil]
        rfl
      | succ i =>
        rw [Column.positionsFrom, List.getElem?_cons_succ, ih row, List.take_succ_cons,
          List.append_assoc]
        rfl
  rw [Builder.unionRows, List.getElem?_toArray, List.getElem?_zip_eq_some]
  exact ⟨row, from_seen []⟩

/-- A fault in finishing children is one of a child. -/
theorem finishAll_error {bs : List Builder} {fault : BuildFault}
    (failed : (Builder.finishAll bs).1 = .error fault) :
    ∃ b ∈ bs, b.finish.1 = .error fault := by
  induction bs with
  | nil =>
    rw [Builder.finishAll] at failed
    cases failed
  | cons b bs ih =>
    rw [Builder.finishAll] at failed
    rcases first : b.finish with ⟨fault' | column, b'⟩
    · rw [first] at failed
      cases failed
      exact ⟨b, List.mem_cons_self, by rw [first]⟩
    · rw [first] at failed
      cases others : (Builder.finishAll bs).1 with
      | error fault' =>
        have same : fault' = fault := by
          dsimp only at failed
          rw [others] at failed
          exact Except.error.inj failed
        obtain ⟨other, mem, finished⟩ := ih (same ▸ others)
        exact ⟨other, List.mem_cons_of_mem b mem, finished⟩
      | ok columns =>
        dsimp only at failed
        rw [others] at failed
        cases failed

/-- What a child holds is told by a row of values: a new child holds none, a call adds one of them,
and a finished child reads as them. -/
structure Reading (variants : List Variant) (children₀ : List Builder) (calls : List UnionCall)
    (value : UnionCall → Value) (holds : Nat → List Value → Builder → Prop) : Prop where
  new : ∀ (i : Nat) (child₀ : Builder), children₀[i]? = some child₀ → holds i [] child₀
  add : ∀ c ∈ calls, ∀ i, Column.variantIndex? variants (c.tag variants) = some i →
    ∀ values b b', holds i values b → c.Adds b b' → holds i (values ++ [value c]) b'
  read : ∀ i values b column, holds i values b → b.finish.1 = .ok column → column.rows = values

/-- The children of a union builder that has been given the calls are a stable partition of them. -/
structure Distributed (variants : List Variant) (children₀ : List Builder)
    (calls : List UnionCall) (rows : Array (TypeId × Nat)) (children : List Builder) : Prop where
  /-- There is one row for each call. -/
  size : rows.size = calls.length
  /-- It has the id that the call selects, and the number of earlier calls with this id. -/
  row : ∀ (i : Nat) (c : UnionCall), calls[i]? = some c → rows[i]? =
    some (c.tag variants, ((calls.take i).map (tag variants)).count (c.tag variants))
  /-- Missing rows select the first variant that holds nothing else. -/
  null : .missing ∈ calls → Builder.nullVariant? variants = some (tag variants .missing)
  /-- Each child has taken the calls of its variant, in their order, and no others. -/
  child : ∀ (i : Nat) (v : Variant), variants[i]? = some v → ∃ child₀ child,
    children₀[i]? = some child₀ ∧ children[i]? = some child ∧
      Taken child₀ (given variants calls v.id) child ∧
      child.length = (rows.toList.map (·.1)).count v.id
  /-- A further call works on the selected child alone. -/
  next : ∀ c rows' children', Step variants rows children c rows' children' →
    ∃ index child child', Selected variants rows children c rows' children' index child child'
  /-- The counts do not speak against finishing. -/
  counts : Builder.unionFault? variants rows children = none
  /-- What may is a fault of a child, or a child's column that is shorter than its builder was. -/
  fault : ∀ fault, (Builder.union variants rows children).finish.1 = .error fault →
    (∃ child ∈ children, child.finish.1 = .error fault) ∨ fault = .offsetOutOfRange
  /-- The finished column has the rows of the builder and the columns of its children. -/
  column : ∀ c, (Builder.union variants rows children).finish.1 = .ok c →
    ∃ columns, c = .union variants (rows.toList.map (·.1)) (rows.toList.map (·.2)) columns ∧
      columns.length = variants.length ∧ ∀ (i : Nat) (column : Column),
        columns[i]? = some column → ∃ child, children[i]? = some child ∧
          child.finish.1 = .ok column
  /-- Each child reads as the values of its calls in their order, and the union call by call. -/
  reads : ∀ value holds, Reading variants children₀ calls value holds → ∀ ids offsets columns,
    (Builder.union variants rows children).finish.1 = .ok (.union variants ids offsets columns) →
      (∀ (i : Nat) (v : Variant), variants[i]? = some v → ∃ column, columns[i]? = some column ∧
        column.rows = (given variants calls v.id).map value) ∧
      (Column.union variants ids offsets columns).rows =
        calls.map fun c => Column.variantRow variants (c.tag variants) (some (value c))

theorem Sorted.counts (sorted : Sorted variants children₀ calls rows children) :
    Builder.unionFault? variants rows children = none := by
  refine Builder.unionFault?_eq_none sorted.count fun i v child variant here => ?_
  obtain ⟨_, other, -, found, -, length⟩ := sorted.each i v variant
  obtain rfl : child = other := Option.some.inj (here.symm.trans found)
  rw [sorted.rows_eq, Builder.selections_unionRows, length, length_given]

theorem Sorted.finish (sorted : Sorted variants children₀ calls rows children) {c : Column}
    (finished : (Builder.union variants rows children).finish.1 = .ok c) :
    ∃ columns, (Builder.finishAll children).1 = .ok columns ∧
      c = .union variants (rows.toList.map (·.1)) (rows.toList.map (·.2)) columns := by
  obtain ⟨columns, inner, made⟩ := (Builder.finish_union sorted.counts).1 finished
  exact ⟨columns, inner, Column.unionOf_eq made⟩

/-- Every call selects a column, if there is one for each variant. -/
theorem Sorted.variantLength? (sorted : Sorted variants children₀ calls rows children)
    {columns : List Column} (count : columns.length = variants.length) (mem : c ∈ calls) :
    (Column.variantLength? variants columns (c.tag variants)).isNone = false := by
  obtain ⟨index, position⟩ := sorted.declared c mem
  obtain ⟨v, variant, -⟩ := Column.find?_of_variantIndex? position
  have inside : index < columns.length := count ▸ (List.getElem?_eq_some_iff.1 variant).1
  rw [Column.variantLength?, position]
  simp [List.getElem?_eq_getElem inside]

theorem Sorted.fault (sorted : Sorted variants children₀ calls rows children) {fault : BuildFault}
    (failed : (Builder.union variants rows children).finish.1 = .error fault) :
    (∃ child ∈ children, child.finish.1 = .error fault) ∨ fault = .offsetOutOfRange := by
  rw [Builder.finish, sorted.counts] at failed
  dsimp only at failed
  split at failed
  · next others inner =>
    cases failed
    exact .inl (finishAll_error (by rw [inner]))
  · next columns others inner =>
    right
    simp only [Column.unionOf] at failed
    split at failed
    · next undeclared =>
      obtain ⟨length, listed, none⟩ := List.any_eq_true.1 undeclared
      rw [sorted.rows_eq, Builder.unionRows_ids, List.map_map] at listed
      obtain ⟨c, mem, rfl⟩ := List.mem_map.1 listed
      have count := (Builder.finishAll_ok (by rw [inner])).1.trans sorted.count
      have some := sorted.variantLength? count mem
      rw [Function.comp_apply, some] at none
      cases none
    · split at failed
      · cases failed
        rfl
      · cases failed

/-- The variant at a position is the one that its id selects. -/
theorem variantIndex?_of_getElem? (distinct : (variants.map (·.id)).Nodup) {i : Nat} {v : Variant}
    (variant : variants[i]? = some v) : Column.variantIndex? variants v.id = some i := by
  obtain ⟨index, w, position, other, same⟩ :=
    Builder.exists_variantIndex? ⟨v, List.mem_of_getElem? variant, rfl⟩
  by_cases here : index = i
  · rw [position, here]
  · exact absurd same (Builder.id_ne_of_ne distinct other variant here)

theorem Taken.holds {value : UnionCall → Value} {holds : Nat → List Value → Builder → Prop}
    (reading : Reading variants children₀ calls value holds) {i : Nat} {child₀ child : Builder}
    (first : children₀[i]? = some child₀) {taken : List UnionCall} (run : Taken child₀ taken child)
    (own : ∀ c ∈ taken, c ∈ calls ∧ Column.variantIndex? variants (c.tag variants) = some i) :
    holds i (taken.map value) child := by
  induction run with
  | none => exact reading.new i child₀ first
  | @call earlier c b b' before adds ih =>
    have held := ih fun d mem => own d (List.mem_append_left _ mem)
    obtain ⟨mem, position⟩ := own c (List.mem_append_right _ List.mem_cons_self)
    rw [List.map_append, List.map_singleton]
    exact reading.add c mem i position _ b b' held adds

theorem Sorted.reads (distinct : (variants.map (·.id)).Nodup)
    (sorted : Sorted variants children₀ calls rows children) {value : UnionCall → Value}
    {holds : Nat → List Value → Builder → Prop}
    (reading : Reading variants children₀ calls value holds) {columns : List Column}
    (finished : (Builder.finishAll children).1 = .ok columns) {i : Nat} {v : Variant}
    (variant : variants[i]? = some v) : ∃ column, columns[i]? = some column ∧
      column.rows = (given variants calls v.id).map value := by
  obtain ⟨child₀, child, first, found, taken, -⟩ := sorted.each i v variant
  obtain ⟨same, made⟩ := Builder.finishAll_ok finished
  have inside : i < columns.length := by
    rw [same]
    exact (List.getElem?_eq_some_iff.1 found).1
  have column := List.getElem?_eq_getElem inside
  obtain ⟨other, here, done⟩ := made i _ column
  obtain rfl : child = other := Option.some.inj (found.symm.trans here)
  have held := taken.holds reading first fun c mem => by
    obtain ⟨listed, selects⟩ := List.mem_filter.1 mem
    rw [beq_iff_eq.1 selects]
    exact ⟨listed, variantIndex?_of_getElem? distinct variant⟩
  exact ⟨_, column, reading.read i _ child _ held done⟩

theorem Sorted.distributed (distinct : (variants.map (·.id)).Nodup)
    (sorted : Sorted variants children₀ calls rows children) :
    Distributed variants children₀ calls rows children := by
  have ids : rows.toList.map (·.1) = calls.map (tag variants) := by
    rw [sorted.rows_eq, Builder.unionRows_ids]
  have offsets : rows.toList.map (·.2) = Column.positions (calls.map (tag variants)) := by
    rw [sorted.rows_eq, Builder.unionRows_positions]
  constructor
  case size =>
    rw [← Array.length_toList, ← List.length_map (f := (·.1)), ids, List.length_map]
  case row =>
    intro i c call
    rw [sorted.rows_eq, List.map_take]
    exact unionRows_getElem? (by rw [List.getElem?_map, call]; rfl)
  case null => exact sorted.null
  case child =>
    intro i v variant
    obtain ⟨child₀, child, first, found, taken, length⟩ := sorted.each i v variant
    exact ⟨child₀, child, first, found, taken, by rw [length, length_given, ids]⟩
  case next => exact fun c rows' children' step => step.selected
  case counts => exact sorted.counts
  case fault => exact fun fault failed => sorted.fault failed
  case column =>
    intro c finished
    obtain ⟨columns, inner, same⟩ := sorted.finish finished
    obtain ⟨length, made⟩ := Builder.finishAll_ok inner
    exact ⟨columns, same, length.trans sorted.count, made⟩
  case reads =>
    intro value holds reading ids' offsets' columns finished
    obtain ⟨columns', inner, same⟩ := sorted.finish finished
    obtain ⟨-, rfl, rfl, rfl⟩ := Column.union.inj same
    have read {i : Nat} {v : Variant} := sorted.reads distinct reading inner (i := i) (v := v)
    refine ⟨fun i v variant => read variant, ?_⟩
    rw [ids, offsets]
    refine Column.rows_positions fun c mem => ?_
    obtain ⟨index, position⟩ := sorted.declared c mem
    obtain ⟨v, variant, id, -⟩ := Column.find?_of_variantIndex? position
    obtain ⟨column, here, shown⟩ := read variant
    refine ⟨index, column, position, here, ?_⟩
    rw [shown, given, id]

end Run

end UnionCall

end TypedColumns
