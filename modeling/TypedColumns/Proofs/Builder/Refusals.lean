import TypedColumns.Proofs.Builder.Failing

/-!
# Rows of refused calls

A value that is appended to a union may be refused in three places: there is no variant of its id,
the builder of the variant is one for other values, or the codec of the value fails. The first two
come before anything is written. The codec works when the row is recorded already, and the row stays
although the call is answered by an error. A missing row is recorded last, so one that is refused
leaves no row, from whatever depth the refusal comes.

Hence a union builder has the rows of the calls that were accepted and of those that failed in the
codec of their value, in the order of the calls (`UnionCall.ids_runs`), and a single refused value
changes nothing at all unless it is of the latter kind (`Codec.recorded_of_refused`).
-/

namespace TypedColumns

universe u

/-- How a union builder answers a call. -/
inductive UnionCall.Answer
  | accepted
  /-- An error of the union's own, or of the child that a missing row was for. -/
  | refused
  /-- An error of the codec of the value. -/
  | failed
  deriving DecidableEq

namespace UnionCall

def answer : UnionCall → Builder → Answer
  | .value id kind w, b =>
    match (b.withVariant id kind w.apply).1 with
    | .ok (.ok ()) => .accepted
    | .ok (.error _) => .failed
    | .error _ => .refused
  | .missing, b =>
    match b.appendNull.1 with
    | .ok () => .accepted
    | .error _ => .refused

/-- The answers to calls that are made one after the other. -/
def answers : List UnionCall → Builder → List Answer
  | [], _ => []
  | c :: cs, b => c.answer b :: answers cs (c.run b)

/-- The ids of the calls that a union records, given the answers to the calls. -/
def recordedIds (variants : List Variant) (calls : List UnionCall) (answers : List Answer) :
    List TypeId :=
  ((calls.zip answers).filter (·.2 ≠ .refused)).map (·.1.tag variants)

/-- A call leaves the variants alone. It records no row if it is refused, and otherwise one of its
id, at the position that comes next in the child. -/
theorem recorded_run (c : UnionCall) (variants : List Variant) (rows : Array (TypeId × Nat))
    (children : List Builder) : ∃ rows' children',
    c.run (.union variants rows children) = .union variants rows' children' ∧
      ((c.answer (.union variants rows children) = .refused ∧ rows' = rows) ∨
        (c.answer (.union variants rows children) ≠ .refused ∧ ∃ offset,
          rows' = rows.push (c.tag variants, offset))) := by
  cases c with
  | value id kind w =>
    rcases Builder.withVariant_cases id kind w (.union variants rows children) with
      ⟨fault, refused⟩ | ⟨_, _, _, index, child, result, child', same, -, -, -, -, answered⟩
    · refine ⟨rows, children, by rw [run, refused], .inl ⟨?_, rfl⟩⟩
      rw [answer, refused]
    · cases same
      refine ⟨rows.push (id, child.length), children.set index child', by rw [run, answered],
        .inr ⟨?_, _, rfl⟩⟩
      rw [answer, answered]
      cases result <;> exact Answer.noConfusion
  | missing =>
    rw [run, answer, Builder.appendNull]
    cases null : Builder.nullVariant? variants with
    | none => exact ⟨rows, children, rfl, .inl ⟨rfl, rfl⟩⟩
    | some id =>
      have tag : tag variants .missing = id := by rw [UnionCall.tag, null, Option.getD_some]
      dsimp only
      rcases Builder.appendNullAt id ((Column.variantIndex? variants id).getD 0) children with
        ⟨fault | offset, children'⟩
      · exact ⟨rows, children', rfl, .inl ⟨rfl, rfl⟩⟩
      · exact ⟨_, children', rfl, .inr ⟨Answer.noConfusion, offset, by rw [tag]⟩⟩

/-- After any calls, a union has recorded those that were not refused, in their order. -/
theorem ids_runs (calls : List UnionCall) (variants : List Variant)
    (rows : Array (TypeId × Nat)) (children : List Builder) : ∃ rows' children',
    calls.foldl (fun b c => c.run b) (.union variants rows children) =
        .union variants rows' children' ∧
      rows'.toList.map (·.1) = rows.toList.map (·.1) ++
        recordedIds variants calls (answers calls (.union variants rows children)) := by
  induction calls generalizing rows children with
  | nil => exact ⟨rows, children, rfl, (List.append_nil _).symm⟩
  | cons c calls ih =>
    obtain ⟨rows₁, children₁, ran, step⟩ := c.recorded_run variants rows children
    obtain ⟨rows', children', rest, ids⟩ := ih rows₁ children₁
    refine ⟨rows', children', by rw [List.foldl_cons, ran, rest], ?_⟩
    rw [ids, answers, ran, recordedIds, recordedIds, List.zip_cons_cons]
    rcases step with ⟨refused, rfl⟩ | ⟨recorded, offset, rfl⟩
    · rw [List.filter_cons_of_neg (by simp [refused])]
    · rw [List.filter_cons_of_pos (by simp [recorded]), Array.toList_push, List.map_append,
        List.map_cons, List.append_assoc]
      rfl

end UnionCall

/-- Whatever was called on a union builder before, it has recorded the calls that were accepted or
failed in the codec of their value. A further value that is refused because of its id, or because
the builder of its variant is one for other values, leaves all as it was. One whose codec fails, at
whatever depth, has its row recorded. -/
theorem Codec.recorded_of_refused {α : Type u} [Footprint α] (codec : Codec α) (id : TypeId) (a : α)
    {variants : List Variant} {rows₀ : Array (TypeId × Nat)} {children₀ : List Builder}
    (past : List UnionCall) {e : CellError} {b' : Builder}
    (refused : (codec.appendVariant id a).apply
      (past.foldl (fun b c => c.run b) (.union variants rows₀ children₀)) = (.error e, b')) :
    ∃ rows children,
      past.foldl (fun b c => c.run b) (.union variants rows₀ children₀) =
        .union variants rows children ∧
      rows.toList.map (·.1) = rows₀.toList.map (·.1) ++ UnionCall.recordedIds variants past
        (UnionCall.answers past (.union variants rows₀ children₀)) ∧
      ((Column.variantIndex? variants id = none ∧ e = .argument (.noVariant id) ∧
          b' = .union variants rows children) ∨
        (∃ index, Column.variantIndex? variants id = some index ∧
          (∀ child, children[index]? = some child → child.kind ≠ codec.kind) ∧
          e = .argument (.variantBuilder id) ∧ b' = .union variants rows children) ∨
        ∃ index child child', Column.variantIndex? variants id = some index ∧
          children[index]? = some child ∧ (codec.append a).apply child = (.error e, child') ∧
          b' = .union variants (rows.push (id, child.length)) (children.set index child')) := by
  obtain ⟨rows, children, reached, ids⟩ := UnionCall.ids_runs past variants rows₀ children₀
  refine ⟨rows, children, reached, ids, ?_⟩
  rw [reached] at refused
  simp only [appendVariant, Write.toVariant, Write.of, Write.apply, Builder.withVariant] at refused
  cases position : Column.variantIndex? variants id with
  | none =>
    rw [position] at refused
    cases refused
    exact .inl ⟨rfl, rfl, rfl⟩
  | some index =>
    rw [position] at refused
    dsimp only at refused
    refine .inr ?_
    cases found : children[index]? with
    | none =>
      rw [found] at refused
      cases refused
      refine .inl ⟨index, rfl, ?_, rfl, rfl⟩
      intro child here
      rw [found] at here
      cases here
    | some child =>
      rw [found] at refused
      dsimp only at refused
      by_cases same : child.kind = codec.kind
      · rw [if_pos same] at refused
        rcases written : codec.append a child with ⟨result, child'⟩
        rw [written] at refused
        obtain ⟨failed, rfl⟩ := Prod.mk.inj refused
        obtain rfl : result = .error e := failed
        exact .inr ⟨index, child, child', rfl, found, written, rfl⟩
      · rw [if_neg same] at refused
        cases refused
        refine .inl ⟨index, rfl, ?_, rfl, rfl⟩
        intro other here
        obtain rfl : child = other := Option.some.inj (found.symm.trans here)
        exact same

/-- A good record and a call for a variant that is not there. -/
def goodThenUnknown : List UnionCall :=
  [nestedCall 5, .value 3 .union (.fail (.noField 0))]

/-- Then the codec of a record fails, which is the value of a union in the union. One row was
recorded before, and now there are two. -/
theorem Codec.recorded_of_refused_record :
    ∃ e b' rows children,
      (Codec.freeUnion.appendVariant 0 (Codec.picky.appendVariant 7 ⟨-1, .ofString "a"⟩)).apply
        (goodThenUnknown.foldl (fun b c => c.run b) nestedRoot) = (.error e, b') ∧
      goodThenUnknown.foldl (fun b c => c.run b) nestedRoot = .union nestedVariants rows children ∧
      rows.toList.map (·.1) = [0] ∧ b'.length = rows.size + 1 := by
  obtain ⟨e, b', refused⟩ : ∃ e b',
      (Codec.freeUnion.appendVariant 0 (Codec.picky.appendVariant 7 ⟨-1, .ofString "a"⟩)).apply
        (goodThenUnknown.foldl (fun b c => c.run b) nestedRoot) = (.error e, b') := ⟨_, _, rfl⟩
  obtain ⟨rows, children, reached, ids, sites⟩ :=
    Codec.recorded_of_refused Codec.freeUnion 0 _ goodThenUnknown refused
  refine ⟨e, b', rows, children, refused, reached, ids, ?_⟩
  rcases sites with ⟨none, -, -⟩ | ⟨index, position, other, -, -⟩ |
    ⟨index, child, child', -, -, -, recorded⟩
  · cases none
  · cases position
    cases reached
    exact (other _ rfl rfl).elim
  · rw [recorded]
    exact Array.size_push _

/-- A new union of records. -/
def recordUnion : Builder :=
  .union [⟨0, ⟨"row", .struct Codec.pickyFields, false⟩⟩] #[] [Codec.picky.newBuilder]

/-- Not every call that is answered by an error leaves the rows of the union as they were. -/
theorem Codec.recorded_although_refused :
    ¬ ∀ (a : Irregular.Picky) (e : CellError) (b' : Builder),
      (Codec.picky.appendVariant 0 a).apply recordUnion = (.error e, b') →
        b'.length = recordUnion.length := by
  intro unchanged
  have same := unchanged ⟨-1, .ofString "a"⟩ _ _ rfl
  cases same

end TypedColumns
