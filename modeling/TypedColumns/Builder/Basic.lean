import TypedColumns.Builder.Item

/-!
# Builders

A builder collects the rows of a column. On top of item builders there are two builders with
children of any kind: a struct builder, whose rows are closed by a validity mark once every child
has taken a value, and a dense union builder, which records for each row the variant it selected and
the position of its value in that variant's child.

A missing value is added by `appendNull`. It reaches every child of a struct, in order, and stops
where a child refuses; in a union it goes to the first variant that holds nothing but missing
values. Whatever was written before a refusal stays written, so the builder is returned in both
cases.
-/

namespace TypedColumns

inductive Builder
  | item (items : ItemBuilder)
  | struct (fields : List Field) (validity : Array Bool) (children : List Builder)
  /-- Each row is the id of its variant and the position of its value. -/
  | union (variants : List Variant) (rows : Array (TypeId × Nat)) (children : List Builder)

namespace Builder

instance : Inhabited Builder := ⟨.item default⟩

/-- What a codec has to know of a builder before it writes to it. -/
inductive Kind
  | item (kind : ItemKind)
  | struct
  | union
  deriving DecidableEq, Repr

def kind : Builder → Kind
  | .item items => .item items.kind
  | .struct _ _ _ => .struct
  | .union _ _ _ => .union

/-- The number of rows closed so far. -/
def length : Builder → Nat
  | .item items => items.length
  | .struct _ validity _ => validity.size
  | .union _ rows _ => rows.size

def isEmpty (b : Builder) : Bool := b.length == 0

/-- The variant that stands for missing values: the first that holds nothing else. -/
def nullVariant? (variants : List Variant) : Option TypeId :=
  (variants.find? fun v => v.field.type = .null).map (·.id)

mutual

/-- Adds a missing value. -/
def appendNull : Builder → Except BuildFault Unit × Builder
  | .item items => (.ok (), .item (items.appendNulls 1))
  | .struct fields validity children =>
    match appendNullAll children with
    | (.ok (), children) => (.ok (), .struct fields (validity.push false) children)
    | (.error fault, children) => (.error fault, .struct fields validity children)
  | .union variants rows children =>
    match nullVariant? variants with
    | none => (.error .noNullVariant, .union variants rows children)
    | some id =>
      match appendNullAt id ((Column.variantIndex? variants id).getD 0) children with
      | (.ok offset, children) => (.ok (), .union variants (rows.push (id, offset)) children)
      | (.error fault, children) => (.error fault, .union variants rows children)

/-- Adds a missing value to each builder, up to the first that refuses. -/
def appendNullAll : List Builder → Except BuildFault Unit × List Builder
  | [] => (.ok (), [])
  | b :: bs =>
    match b.appendNull with
    | (.ok (), b) =>
      let (result, bs) := appendNullAll bs
      (result, b :: bs)
    | (.error fault, b) => (.error fault, b :: bs)

/-- Adds a missing value to the builder at a position, and tells how many rows it had before. -/
def appendNullAt (id : TypeId) : Nat → List Builder → Except BuildFault Nat × List Builder
  | _, [] => (.error (.variantWithoutBuilder id), [])
  | 0, b :: bs =>
    match b.appendNull with
    | (.ok (), b') => (.ok b.length, b' :: bs)
    | (.error fault, b') => (.error fault, b' :: bs)
  | i + 1, b :: bs =>
    let (result, bs) := appendNullAt id i bs
    (result, b :: bs)

end

/-- What holds of a builder as soon as it holds of its children holds of all builders. -/
@[elab_as_elim]
theorem childInduction {motive : Builder → Prop} (item : ∀ items, motive (.item items))
    (struct : ∀ fields validity children, (∀ b ∈ children, motive b) →
      motive (.struct fields validity children))
    (union : ∀ variants rows children, (∀ b ∈ children, motive b) →
      motive (.union variants rows children)) : (b : Builder) → motive b
  | .item items => item items
  | .struct fields validity children =>
    struct fields validity children fun b _ => childInduction item struct union b
  | .union variants rows children =>
    union variants rows children fun b _ => childInduction item struct union b

/-- Works on the child of a struct that belongs to the field at `index`, if it is of the kind that
is asked for. -/
def withField {ρ : Type} (index : Nat) (kind : Kind) (work : Builder → ρ × Builder)
    (b : Builder) : Except ArgumentFault ρ × Builder :=
  match b with
  | .struct fields validity children =>
    match children[index]? with
    | none => (.error (.noField index), b)
    | some child =>
      if child.kind = kind then
        let (result, child) := work child
        (.ok result, .struct fields validity (children.set index child))
      else
        (.error (.fieldBuilder ((fields[index]?.map (·.name)).getD "?")), b)
  | _ => (.error (.noField index), b)

/-- Records a row of a union and works on the child of the selected variant, if it is of the kind
that is asked for. The row is recorded before the work begins, and stays whatever comes of it. -/
def withVariant {ρ : Type} (id : TypeId) (kind : Kind) (work : Builder → ρ × Builder)
    (b : Builder) : Except ArgumentFault ρ × Builder :=
  match b with
  | .union variants rows children =>
    match Column.variantIndex? variants id with
    | none => (.error (.noVariant id), b)
    | some index =>
      match children[index]? with
      | none => (.error (.variantBuilder id), b)
      | some child =>
        if child.kind = kind then
          let (result, child') := work child
          (.ok result,
            .union variants (rows.push (id, child.length)) (children.set index child'))
        else
          (.error (.variantBuilder id), b)
  | _ => (.error (.noVariant id), b)

/-- Closes a row of a struct. -/
def endRow? (valid : Bool) : Builder → Option Builder
  | .struct fields validity children => some (.struct fields (validity.push valid) children)
  | _ => none

/-- Works on an item builder. -/
def mapItem? (work : ItemBuilder → Option ItemBuilder) : Builder → Option Builder
  | .item items => (work items).map .item
  | _ => none

@[simp] theorem kind_appendNull (b : Builder) : b.appendNull.2.kind = b.kind := by
  cases b with
  | item items => simp [appendNull, kind]
  | struct fields validity children =>
    rw [appendNull]
    split <;> rfl
  | union variants rows children =>
    rw [appendNull]
    split
    · rfl
    · split <;> rfl

/-- A missing value that is accepted is one row. -/
theorem length_appendNull {b b' : Builder} (h : b.appendNull = (.ok (), b')) :
    b'.length = b.length + 1 := by
  cases b with
  | item items =>
    cases h
    simp [length]
  | struct fields validity children =>
    rw [appendNull] at h
    split at h <;> cases h
    simp [length]
  | union variants rows children =>
    rw [appendNull] at h
    split at h
    · cases h
    · split at h <;> cases h
      simp [length]

end Builder

end TypedColumns
