import TypedColumns.Proofs.Codec.Feeding

/-!
# Values that are left to another codec

A type may hold one value of another type and leave it to that type's codec, and a third type may do
the same with the second (`Codec.Newtype`). However long the chain, values are written as the codec
at its end writes them one by one (`Codec.Newtype.leaves`).

That codec may have ways of its own of writing runs of values and optional values, which the types
around it do not use. If these come to the same as writing one by one (`Codec.Uniform`), all calls
on a builder are answered alike (`Codec.Leaves.run`). So do those of the codecs of this library
(`ShippedType.uniform`), and of course the codec's that keeps to the rules.
-/

namespace TypedColumns

universe u

/-! ## Codecs that write runs as they write values -/

namespace Codec

variable {α : Type u} [Footprint α] {c : Codec α}

/-- On the builders of `P`, which its writes keep to, a codec writes optional values and runs of
values as it writes them one by one. -/
structure Uniform (c : Codec α) (P : Builder → Prop) : Prop where
  kept : ∀ (f : Feed α) b, P b → P ((f.write c).apply b).2
  appendOption : ∀ row b, P b →
    (c.appendOption row).apply b = Write.apply (row.elim c.appendNull c.append) b
  appendAll : ∀ as b, P b → (c.appendAll as).apply b = Write.apply (as.forM c.append) b

/-- A codec that keeps to the rules does so on all builders. -/
theorem uniform_of_rules (appendOption : ∀ row, c.appendOption row = row.elim c.appendNull c.append)
    (appendAll : ∀ as, c.appendAll as = as.forM c.append) : c.Uniform fun _ => True :=
  ⟨fun _ _ _ => trivial, fun row _ _ => by rw [appendOption], fun as _ _ => by rw [appendAll]⟩

/-- A codec that keeps its rows does so on the builders of rows, by whatever means. -/
theorem Keeps.uniform {build : List (Option α) → Builder} {value : Option α → Value}
    (keeps : c.Keeps build value) : c.Uniform fun b => ∃ rows, b = build rows := by
  constructor
  · rintro f b ⟨rows, rfl⟩
    rw [Feed.apply_write keeps]
    exact ⟨rows ++ f.rows, rfl⟩
  · rintro row b ⟨rows, rfl⟩
    rw [keeps.appendOption]
    cases row with
    | none => exact (keeps.appendNull rows).symm
    | some a => exact (keeps.append rows a).symm
  · rintro as b ⟨rows, rfl⟩
    rw [keeps.appendAll]
    exact (apply_forM_append keeps.append rows as).symm

end Codec

/-- The builders that a type of the library is written to: those of its kind where runs have a way
of their own, and any others elsewhere. -/
def ShippedType.Suits : ShippedType → Builder → Prop
  | number type, b => b.kind = (Codec.number type).kind
  | boolean, b => b.kind = Codec.boolean.kind
  | _, _ => True

theorem ShippedType.suits_newBuilder (t : ShippedType) : t.Suits t.codec.newBuilder := by
  cases t <;> trivial

/-- The codecs of this library write runs as they write values. -/
theorem ShippedType.uniform (t : ShippedType) : t.codec.Uniform t.Suits := by
  cases t with
  | number type =>
    have same : (number type).Suits = fun b => ∃ rows, b = Codec.numberBuilder type rows := by
      funext b
      refine propext ⟨fun suits => ?_, ?_⟩
      · rcases b with ⟨_ | _ | ⟨other, slots⟩ | _ | _ | _ | _⟩ | _ | _ <;> cases suits
        exact ⟨slots.toList, by rw [Codec.numberBuilder, Array.toArray_toList]⟩
      · rintro ⟨rows, rfl⟩
        rfl
    rw [same]
    exact (Codec.number_keeps type).uniform
  | boolean =>
    have same : boolean.Suits = fun b => ∃ rows, b = Codec.booleanBuilder rows := by
      funext b
      refine propext ⟨fun suits => ?_, ?_⟩
      · rcases b with ⟨_ | slots | _ | _ | _ | _ | _⟩ | _ | _ <;> cases suits
        exact ⟨slots.toList, by rw [Codec.booleanBuilder, Array.toArray_toList]⟩
      · rintro ⟨rows, rfl⟩
        rfl
    rw [same]
    exact Codec.boolean_keeps.uniform
  | _ => exact Codec.uniform_of_rules (fun row => by cases row <;> rfl) fun _ => rfl

/-! ## Chains of types -/

namespace Codec

/-- Types that hold one value, one around the other, around the values of a codec; `get` takes the
innermost value out. -/
inductive Newtype {β : Type u} [Footprint β] (inner : Codec β) :
    (α : Type u) → (footprint : Footprint α) → Codec α → (get : α → β) → Prop
  | one {α : Type u} (name : String) (field : α → β) :
      Newtype inner α (.wrapping field)
        (@delegate α (.wrapping field) β _ name inner field) field
  | around {α γ : Type u} {footprint : Footprint α} {c : Codec α} {get : α → β}
      (chain : Newtype inner α footprint c get) (name : String) (field : γ → α) :
      Newtype inner γ (.wrapping field)
        (@delegate γ (.wrapping field) α _ name c field) (get ∘ field)

/-- The values of `outer` are written by `inner`, one by one. -/
structure Leaves {α β : Type u} [Footprint α] [Footprint β] (outer : Codec α)
    (inner : Codec β) (get : α → β) : Prop where
  total : ∀ a : α, Footprint.total a = Footprint.total (get a)
  newBuilder : outer.newBuilder = inner.newBuilder
  descriptor : outer.descriptor = ⟨outer.name, false, inner.descriptor.dataType⟩
  append : ∀ a, outer.append a = inner.append (get a)
  appendNull : outer.appendNull = inner.appendNull
  appendOption : ∀ row, outer.appendOption row = row.elim outer.appendNull outer.append
  appendAll : ∀ as, outer.appendAll as = as.forM outer.append

theorem leaves_delegate {α β : Type u} [Footprint β] (name : String) (inner : Codec β)
    (field : α → β) :
    letI : Footprint α := .wrapping field
    Leaves (delegate name inner field) inner field := by
  letI : Footprint α := .wrapping field
  exact ⟨fun _ => rfl, rfl, rfl, fun _ => rfl, rfl, fun row => by cases row <;> rfl, fun _ => rfl⟩

/-- Who leaves values to another one leaves them to whom that one leaves them. -/
theorem Leaves.around {α β γ : Type u} [Footprint α] [Footprint β]
    {c : Codec α} {inner : Codec β} {get : α → β} (leaves : c.Leaves inner get) (name : String)
    (field : γ → α) :
    letI : Footprint γ := .wrapping field
    Leaves (delegate name c field) inner (get ∘ field) := by
  letI : Footprint γ := .wrapping field
  have own := leaves_delegate name c field
  have type : c.descriptor.dataType = inner.descriptor.dataType := by rw [leaves.descriptor]
  refine ⟨fun a => leaves.total (field a), leaves.newBuilder, ?_, fun a => leaves.append (field a),
    leaves.appendNull, own.appendOption, own.appendAll⟩
  exact congrArg (Descriptor.mk name false) type

/-- By induction on the chain. -/
theorem Newtype.leaves {α β : Type u} [Footprint β] {inner : Codec β} {footprint : Footprint α}
    {c : Codec α} {get : α → β} (chain : Newtype inner α footprint c get) :
    c.Leaves inner get := by
  induction chain with
  | one name field => exact leaves_delegate name inner field
  | around chain name field ih => exact ih.around name field

end Codec

/-! ## Calls on a builder -/

/-- The call that feeds the values inside. -/
def Feed.map {α β : Type u} (get : α → β) : Feed α → Feed β
  | value a => .value (get a)
  | values as => .values (as.map get)
  | missing => .missing
  | optional row => .optional (row.map get)

namespace Codec

variable {α β : Type u} [Footprint α] [Footprint β] {outer : Codec α} {inner : Codec β}
variable {get : α → β} {P : Builder → Prop}

theorem Leaves.totals (leaves : outer.Leaves inner get) (as : List α) :
    Footprint.totals as = Footprint.totals (as.map get) := by
  induction as with
  | nil => rfl
  | cons a as ih =>
    simp only [Footprint.totals, List.map_cons, sumOf_cons, leaves.total] at ih ⊢
    rw [ih]

theorem Leaves.forM (leaves : outer.Leaves inner get) (as : List α) :
    as.forM outer.append = (as.map get).forM inner.append := by
  induction as with
  | nil => rfl
  | cons a as ih =>
    show (outer.append a >>= fun _ => as.forM outer.append) =
      inner.append (get a) >>= fun _ => (as.map get).forM inner.append
    rw [ih, leaves.append]

/-- Runs of values are written alike. -/
theorem Leaves.apply_appendAll (leaves : outer.Leaves inner get) (uniform : inner.Uniform P)
    (as : List α) {b : Builder} (suits : P b) :
    (outer.appendAll as).apply b = (inner.appendAll (as.map get)).apply b := by
  rw [leaves.appendAll, leaves.forM, uniform.appendAll _ b suits]

/-- Every call does to a builder what the call with the values inside does. -/
theorem Leaves.apply_write (leaves : outer.Leaves inner get) (uniform : inner.Uniform P)
    (f : Feed α) {b : Builder} (suits : P b) :
    (f.write outer).apply b = ((f.map get).write inner).apply b := by
  cases f with
  | value a => rw [Feed.write, Feed.map, Feed.write, leaves.append]
  | values as => exact leaves.apply_appendAll uniform as suits
  | missing => rw [Feed.write, Feed.map, Feed.write, leaves.appendNull]
  | optional row =>
    rw [Feed.write, Feed.map, Feed.write, leaves.appendOption, uniform.appendOption _ b suits]
    cases row with
    | none => rw [Option.elim_none, leaves.appendNull, Option.map_none, Option.elim_none]
    | some a => rw [Option.elim_some, leaves.append, Option.map_some, Option.elim_some]

/-- All calls are answered alike and leave the same builder, also after some have failed. -/
theorem Leaves.run (leaves : outer.Leaves inner get) (uniform : inner.Uniform P)
    (fs : List (Feed α)) {b : Builder} (suits : P b) :
    Feed.run outer fs b = Feed.run inner (fs.map (Feed.map get)) b := by
  induction fs generalizing b with
  | nil => rfl
  | cons f fs ih =>
    have kept := uniform.kept (f.map get) b suits
    rw [List.map_cons, Feed.run, Feed.run, leaves.apply_write uniform f suits]
    rcases written : ((f.map get).write inner).apply b with ⟨answer, b'⟩
    rw [written] at kept
    dsimp only
    rw [ih kept]

end Codec

end TypedColumns
