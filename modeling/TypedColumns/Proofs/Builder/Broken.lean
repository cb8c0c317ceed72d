import TypedColumns.Proofs.Rows.Finishing

/-!
# Slots that are missing from unions

A union builder records a row before the codec of the value begins. If the codec fails, the row
stays, and only the counts can tell that its value is not there: a child has fewer slots than
selections (`Broken`). Where the child is a union as well, it may have recorded the row itself, and
then the counts of the outer one are in order; what is missing is missing further inside.

Nothing makes up for it. Work adds at most one slot where it adds a selection (`Work.broken`), and
finishing fails and leaves the builder broken, though it may have drained other children by then
(`Broken.finish`).
-/

namespace TypedColumns

namespace Builder

/-! ## What codecs do to builders -/

/-- What a codec does to the builder that it is given, with the slots that it begins and those that
it completes. A union is worked on by calls alone: each records a row for a value whose codec works
on the child, and a slot is completed unless that codec fails. Any other builder may be changed in
any way, and its slots are completed as soon as they are counted. -/
inductive Work : Nat → Nat → Builder → Builder → Prop
  | none (b : Builder) : Work 0 0 b b
  | plain {begun done n : Nat} {b b₁ b' : Builder} (before : Work begun done b b₁)
    (here : b₁.kind ≠ .union) (still : b'.kind ≠ .union) (slots : b'.length ≤ b₁.length + n) :
    Work (begun + n) (done + n) b b'
  | value {begun done inner completed slot index : Nat} {b child child' : Builder}
    {variants : List Variant} {rows : Array (TypeId × Nat)} {children : List Builder}
    {id : TypeId} (before : Work begun done b (.union variants rows children))
    (position : Column.variantIndex? variants id = some index)
    (found : children[index]? = some child) (work : Work inner completed child child')
    (single : inner ≤ 1) (outcome : slot = 1 ∨ slot = 0 ∧ completed = 0) :
    Work (begun + 1) (done + slot) b
      (.union variants (rows.push (id, child.length)) (children.set index child'))
  /-- A missing row that the child refuses is not recorded. -/
  | refused {begun done index : Nat} {b child child' : Builder} {variants : List Variant}
    {rows : Array (TypeId × Nat)} {children : List Builder}
    (before : Work begun done b (.union variants rows children))
    (found : children[index]? = some child) (work : Work 0 0 child child') :
    Work begun done b (.union variants rows (children.set index child'))

variable {b b' child child' : Builder} {variants : List Variant}
variable {rows rows' : Array (TypeId × Nat)} {children : List Builder}
variable {begun done index : Nat} {id : TypeId}

theorem Work.of_plain {n : Nat} (here : b.kind ≠ .union) (still : b'.kind ≠ .union)
    (slots : b'.length ≤ b.length + n) : Work n n b b' := by
  have work := Work.plain (.none b) here still slots
  rwa [Nat.zero_add] at work

theorem Work.length_le (work : Work begun done b b') : b'.length ≤ b.length + begun := by
  induction work with
  | none b => exact Nat.le_refl _
  | plain before here still slots ih => omega
  | value before position found work single outcome ih inner =>
    rw [length, Array.size_push]
    exact Nat.succ_le_succ ih
  | refused before found work ih inner => exact ih

theorem selections_push (rows : Array (TypeId × Nat)) (id i : TypeId) (offset : Nat) :
    selections (rows.push (id, offset)) i = selections rows i + if id == i then 1 else 0 := by
  rw [selections, Array.toList_push, List.countP_append, List.countP_singleton]
  rfl

theorem selections_le_push (rows : Array (TypeId × Nat)) (id i : TypeId) (offset : Nat) :
    selections rows i ≤ selections (rows.push (id, offset)) i := by
  rw [selections_push]
  exact Nat.le_add_right _ _

theorem selections_push_position {offset : Nat} {v : Variant}
    (position : Column.variantIndex? variants id = some index)
    (variant : variants[index]? = some v) :
    selections (rows.push (id, offset)) v.id = selections rows v.id + 1 := by
  obtain ⟨w, here, rfl, -⟩ := Column.find?_of_variantIndex? position
  obtain rfl : w = v := Option.some.inj (here.symm.trans variant)
  rw [selections_push, beq_self_eq_true, if_pos rfl]

/-! ## Unions that are short of a slot -/

/-- Somewhere among unions in unions, a child has fewer slots than selections. -/
inductive Broken : Builder → Prop
  | short {variants : List Variant} {rows : Array (TypeId × Nat)} {children : List Builder}
    {i : Nat} {v : Variant} {child : Builder} (variant : variants[i]? = some v)
    (found : children[i]? = some child) (short : child.length < selections rows v.id) :
    Broken (.union variants rows children)
  | inner {variants : List Variant} {rows : Array (TypeId × Nat)} {children : List Builder}
    {child : Builder} (mem : child ∈ children) (broken : Broken child) :
    Broken (.union variants rows children)

/-- Nowhere among unions in unions does a child have more slots than selections. -/
inductive Level : Builder → Prop
  | plain {b : Builder} (plain : b.kind ≠ .union) : Level b
  | union {variants : List Variant} {rows : Array (TypeId × Nat)} {children : List Builder}
    (lengths : ∀ (i : Nat) (v : Variant) (child : Builder), variants[i]? = some v →
      children[i]? = some child → child.length ≤ selections rows v.id)
    (each : ∀ child ∈ children, Level child) : Level (.union variants rows children)

/-- None of the builders has a row, as far as unions are made of unions. -/
inductive New : Builder → Prop
  | plain {b : Builder} (plain : b.kind ≠ .union) (empty : b.length = 0) : New b
  | union {variants : List Variant} {children : List Builder}
    (each : ∀ child ∈ children, New child) : New (.union variants #[] children)

theorem New.length_eq (new : New b) : b.length = 0 := by
  cases new with
  | plain plain empty => exact empty
  | union each => rfl

theorem New.level (new : New b) : Level b := by
  induction new with
  | plain plain empty => exact .plain plain
  | union each ih =>
    refine .union (fun i v child variant found => ?_) ih
    rw [(each child (List.mem_of_getElem? found)).length_eq]
    exact Nat.zero_le _

/-- Work that gives a child no more slots than selections does not make up for anything. -/
theorem Broken.set (broken : Broken (.union variants rows children))
    (found : children[index]? = some child) (inner : Broken child → Broken child')
    (more : ∀ i, selections rows i ≤ selections rows' i)
    (here : ∀ v, variants[index]? = some v →
      child'.length + selections rows v.id ≤ child.length + selections rows' v.id) :
    Broken (.union variants rows' (children.set index child')) := by
  have inside : index < children.length := (List.getElem?_eq_some_iff.1 found).1
  cases broken with
  | @short _ _ _ i v other variant other_found short =>
    by_cases same : i = index
    · subst same
      obtain rfl : child = other := Option.some.inj (found.symm.trans other_found)
      refine .short variant (List.getElem?_set_self inside) ?_
      have := here v variant
      omega
    · refine .short variant ?_ (Nat.lt_of_lt_of_le short (more v.id))
      rwa [List.getElem?_set_ne fun equal => same equal.symm]
  | @inner _ _ _ other mem other_broken =>
    obtain ⟨i, other_inside, rfl⟩ := List.getElem_of_mem mem
    by_cases same : i = index
    · subst same
      have this : children[i] = child := (List.getElem?_eq_some_iff.1 found).2
      exact .inner (List.mem_set other_inside _) (inner (this ▸ other_broken))
    · refine .inner (List.mem_of_getElem? (i := i) ?_) other_broken
      rw [List.getElem?_set_ne fun equal => same equal.symm]
      exact List.getElem?_eq_getElem other_inside

theorem Level.set (level : Level (.union variants rows children)) (inner : Level child')
    (more : ∀ i, selections rows i ≤ selections rows' i)
    (here : ∀ v, variants[index]? = some v → child'.length ≤ selections rows' v.id) :
    Level (.union variants rows' (children.set index child')) := by
  cases level with
  | plain plain => exact absurd rfl plain
  | union lengths each =>
    refine .union ?_ ?_
    · intro i v other variant found
      rcases of_set found with ⟨rfl, rfl⟩ | ⟨-, before⟩
      · exact here v variant
      · exact Nat.le_trans (lengths i v other variant before) (more v.id)
    · intro other mem
      rcases List.mem_or_eq_of_mem_set mem with before | rfl
      · exact each other before
      · exact inner

/-- A builder that is short of a slot stays so, whatever a codec does to it. -/
theorem Work.broken (work : Work begun done b b') (broken : Broken b) : Broken b' := by
  induction work with
  | none b => exact broken
  | plain before here still slots ih =>
    cases ih broken with
    | short => exact absurd rfl here
    | inner => exact absurd rfl here
  | value before position found work single outcome ih inner =>
    refine (ih broken).set found inner (fun i => selections_le_push _ _ i _) ?_
    intro v variant
    rw [selections_push_position position variant]
    have length := work.length_le
    omega
  | refused before found work ih inner =>
    refine (ih broken).set found inner (fun i => Nat.le_refl _) ?_
    intro v variant
    exact Nat.add_le_add_right work.length_le _

/-- A slot that is begun and not completed is missing somewhere, unless there was one too many. -/
theorem Work.level (work : Work begun done b b') (level : Level b) :
    Broken b' ∨ Level b' ∧ b'.length ≤ b.length + done := by
  induction work with
  | none b => exact .inr ⟨level, Nat.le_refl _⟩
  | plain before here still slots ih =>
    rcases ih level with broken | ⟨-, bound⟩
    · cases broken with
      | short => exact absurd rfl here
      | inner => exact absurd rfl here
    · exact .inr ⟨.plain still, by omega⟩
  | @value begun done inner completed slot index b child child' variants rows children id before
      position found work single outcome ih ih_inner =>
    have more (i : TypeId) := selections_le_push rows id i child.length
    have length := work.length_le
    rcases ih level with broken | ⟨now, bound⟩
    · refine .inl (broken.set found work.broken more ?_)
      intro v variant
      rw [selections_push_position position variant]
      omega
    cases now with
    | plain plain => exact absurd rfl plain
    | union lengths each =>
      rcases ih_inner (each child (List.mem_of_getElem? found)) with broken | ⟨inner_level, own⟩
      · exact .inl (.inner (List.mem_set (List.getElem?_eq_some_iff.1 found).1 _) broken)
      obtain ⟨v, variant, -⟩ := Column.find?_of_variantIndex? position
      have before_length := lengths index v child variant found
      rcases outcome with rfl | ⟨rfl, rfl⟩
      · refine .inr ⟨(Level.union lengths each).set inner_level more ?_, ?_⟩
        · intro w other
          rw [selections_push_position position other]
          have := lengths index w child other found
          omega
        · rw [Builder.length, Array.size_push]
          exact Nat.succ_le_succ bound
      · refine .inl (.short variant (List.getElem?_set_self ?_) ?_)
        · exact (List.getElem?_eq_some_iff.1 found).1
        · rw [selections_push_position position variant]
          omega
  | @refused begun done index b child child' variants rows children before found work ih ih_inner =>
    rcases ih level with broken | ⟨now, bound⟩
    · exact .inl (broken.set found work.broken (fun i => Nat.le_refl _) fun v variant =>
        Nat.add_le_add_right work.length_le _)
    cases now with
    | plain plain => exact absurd rfl plain
    | union lengths each =>
      rcases ih_inner (each child (List.mem_of_getElem? found)) with broken | ⟨inner_level, own⟩
      · exact .inl (.inner (List.mem_set (List.getElem?_eq_some_iff.1 found).1 _) broken)
      refine .inr ⟨(Level.union lengths each).set inner_level (fun i => Nat.le_refl _) ?_, bound⟩
      intro v variant
      exact Nat.le_trans own (lengths index v child variant found)

/-! ## Finishing -/

theorem length_of_unionFault?_eq_none (counts : unionFault? variants rows children = none)
    {i : Nat} {v : Variant} (variant : variants[i]? = some v)
    (found : children[i]? = some child) : selections rows v.id = child.length := by
  rw [unionFault?, if_neg fun other => other (length_of_unionFault? counts)] at counts
  induction variants generalizing children i with
  | nil => cases variant
  | cons w ws ih =>
    cases children with
    | nil => cases found
    | cons b bs =>
      rw [variantLengthFault?] at counts
      split at counts
      · cases counts
      · next same =>
        cases i with
        | zero =>
          cases variant
          cases found
          exact Decidable.not_not.1 same
        | succ i => exact ih counts variant found

/-- If a child fails and stays broken, so do the children as a whole. -/
theorem finishAll_of_broken (mem : child ∈ children) (broken : Broken child)
    (fails : ∃ fault, child.finish.1 = .error fault) (stays : Broken child.finish.2) :
    (∃ fault, (finishAll children).1 = .error fault) ∧ ∃ c ∈ (finishAll children).2, Broken c := by
  induction children with
  | nil => cases mem
  | cons b bs ih =>
    rw [finishAll]
    rcases first : b.finish with ⟨fault | column, b₁⟩
    · refine ⟨⟨fault, rfl⟩, ?_⟩
      rcases List.mem_cons.1 mem with rfl | later
      · exact ⟨b₁, List.mem_cons_self, by rwa [first] at stays⟩
      · exact ⟨child, List.mem_cons_of_mem b₁ later, broken⟩
    · rcases List.mem_cons.1 mem with rfl | later
      · obtain ⟨fault, failed⟩ := fails
        rw [first] at failed
        cases failed
      · obtain ⟨⟨fault, failed⟩, c, listed, left⟩ := ih later
        refine ⟨⟨fault, ?_⟩, c, List.mem_cons_of_mem b₁ listed, left⟩
        dsimp only
        rw [failed]
        rfl

/-- A builder that is short of a slot does not finish, and is still short of it afterwards. -/
theorem Broken.finish (broken : Broken b) :
    (∃ fault, b.finish.1 = .error fault) ∧ Broken b.finish.2 := by
  induction broken with
  | @short variants rows children i v child variant found short =>
    rw [Builder.finish]
    cases counts : unionFault? variants rows children with
    | some fault => exact ⟨⟨fault, rfl⟩, .short variant found short⟩
    | none =>
      have same := length_of_unionFault?_eq_none counts variant found
      exact absurd same.symm (Nat.ne_of_lt short)
  | @inner variants rows children child mem broken ih =>
    rw [Builder.finish]
    cases unionFault? variants rows children with
    | some fault => exact ⟨⟨fault, rfl⟩, .inner mem broken⟩
    | none =>
      obtain ⟨⟨fault, failed⟩, c, listed, left⟩ := finishAll_of_broken mem broken ih.1 ih.2
      rcases finished : finishAll children with ⟨fault' | columns, children'⟩
      · rw [finished] at listed
        exact ⟨⟨fault', rfl⟩, .inner listed left⟩
      · rw [finished] at failed
        cases failed

/-! ## Calls on a union -/

theorem appendNullAt_error {fault : BuildFault} {children' : List Builder}
    (refused : appendNullAt id index children = (.error fault, children')) :
    children' = children ∨ ∃ child child' fault', children[index]? = some child ∧
      child.appendNull = (.error fault', child') ∧ children' = children.set index child' := by
  induction children generalizing index children' with
  | nil =>
    rw [appendNullAt] at refused
    cases refused
    exact .inl rfl
  | cons b bs ih =>
    cases index with
    | zero =>
      rw [appendNullAt] at refused
      rcases first : b.appendNull with ⟨fault' | _, b₁⟩
      · rw [first] at refused
        cases refused
        exact .inr ⟨b, b₁, _, rfl, first, rfl⟩
      · rw [first] at refused
        cases refused
    | succ index =>
      rw [appendNullAt] at refused
      rcases others : appendNullAt id index bs with ⟨result, bs₁⟩
      rw [others] at refused
      cases refused
      rcases ih others with rfl | ⟨child, child', fault', found, failed, rfl⟩
      · exact .inl rfl
      · exact .inr ⟨child, child', fault', found, failed, rfl⟩

/-- The slot of a missing row. -/
def accepted : Except BuildFault Unit → Nat
  | .ok () => 1
  | .error _ => 0

/-- A missing row that is accepted is a slot, begun and completed at once. -/
theorem work_appendNull : (b : Builder) → {result : Except BuildFault Unit} → {b' : Builder} →
    b.appendNull = (result, b') → Work (accepted result) (accepted result) b b'
  | .item items, result, b', added => by
    rw [appendNull] at added
    cases added
    exact .of_plain Kind.noConfusion Kind.noConfusion
      (Nat.le_of_eq (ItemBuilder.length_appendNulls 1 items))
  | .struct fields validity children, result, b', added => by
    rw [appendNull] at added
    split at added
    · cases added
      exact .of_plain Kind.noConfusion Kind.noConfusion (Nat.le_of_eq (Array.size_push false))
    · cases added
      exact .of_plain Kind.noConfusion Kind.noConfusion (Nat.le_refl _)
  | .union variants rows children, result, b', added => by
    rw [appendNull] at added
    cases null : nullVariant? variants with
    | none =>
      rw [null] at added
      cases added
      exact .none _
    | some id =>
      rw [null] at added
      obtain ⟨v, mem, named, -⟩ := selects_null null
      have tag : (nullVariant? variants).getD 0 = id := by rw [null, Option.getD_some]
      obtain ⟨index, -, position, -⟩ := exists_variantIndex? ⟨v, mem, named.trans tag⟩
      dsimp only at added
      rw [position, Option.getD_some] at added
      rcases at' : appendNullAt id index children with ⟨fault | offset, children'⟩
      · rw [at'] at added
        cases added
        rcases appendNullAt_error at' with rfl | ⟨child, child', fault', found, refused, rfl⟩
        · exact .none _
        · exact .refused (.none _) found (work_appendNull child refused)
      · rw [at'] at added
        cases added
        obtain ⟨child, child', found, taken, rfl, rfl⟩ := appendNullAt_ok at'
        exact .value (.none _) position found (work_appendNull child taken) (Nat.le_refl 1)
          (.inl rfl)
termination_by b => sizeOf b
decreasing_by
  all_goals
    have := List.sizeOf_lt_of_mem (List.mem_of_getElem? found)
    simp only [Builder.union.sizeOf_spec]
    omega

/-- A call for a value either fails its own checks, and changes nothing, or records a row and hands
the child over. -/
theorem withVariant_cases (id : TypeId) (kind : Kind) (w : Write) (b : Builder) :
    (∃ fault, b.withVariant id kind w.apply = (.error fault, b)) ∨
    ∃ variants rows children index child result child', b = .union variants rows children ∧
      Column.variantIndex? variants id = some index ∧ children[index]? = some child ∧
      child.kind = kind ∧ w.apply child = (result, child') ∧ b.withVariant id kind w.apply =
        (.ok result,
          .union variants (rows.push (id, child.length)) (children.set index child')) := by
  cases b with
  | item items => exact .inl ⟨_, rfl⟩
  | struct fields validity children => exact .inl ⟨_, rfl⟩
  | union variants rows children =>
    cases position : Column.variantIndex? variants id with
    | none => exact .inl ⟨.noVariant id, by simp only [withVariant, position]⟩
    | some index =>
      cases found : children[index]? with
      | none => exact .inl ⟨.variantBuilder id, by simp only [withVariant, position, found]⟩
      | some child =>
        by_cases same : child.kind = kind
        · rcases written : w.apply child with ⟨result, child'⟩
          refine .inr ⟨variants, rows, children, index, child, result, child', rfl, position, found,
            same, written, ?_⟩
          simp only [withVariant, position, found, if_pos same, written]
        · exact .inl ⟨.variantBuilder id, by simp only [withVariant, position, found, if_neg same]⟩

end Builder

end TypedColumns
