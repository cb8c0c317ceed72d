import TypedColumns.Footprint
import TypedColumns.Proofs.Rows.Finishing

/-!
# Payloads

The payload of a column is what its slots take: the width of each slot of a flat column, whether or
not it has a value, the bytes of texts and byte strings, an offset for each of them and for each
row of lists, and an id and an offset for each row of a union. Marks of missing rows are left out,
as is the offset that offsets begin with. A builder has the payload of the column that it finishes
to (`Builder.payload_of_finish`).

What a write adds to the payload depends on the tree of builders, but not on the rows in it.
`Builder.bare` is that tree.
-/

namespace TypedColumns

/-- The bytes for a slot of varying length: its offset and its content. -/
def OffsetWidth.slotBytes {α : Type} (width : OffsetWidth) (size : α → Nat) (slot : Option α) :
    Nat :=
  width.bytes + (slot.map size).getD 0

namespace Column

mutual

def payload : Column → Nat
  | .null _ => 0
  | .boolean slots => slots.length
  | .number type slots => slots.length * type.bytes
  | .text width slots => sumOf (width.slotBytes String.utf8ByteSize) slots
  | .binary width slots => sumOf (width.slotBytes List.length) slots
  | .list width _ _ offsets items => (offsets.length - 1) * width.bytes + items.payload
  | .fixedSizeList _ _ _ items => items.payload
  | .struct _ _ children => payloadAll children
  | .union _ ids offsets children =>
    ids.length + offsets.length * OffsetWidth.narrow.bytes + payloadAll children
  | .foreign _ => 0

def payloadAll : List Column → Nat
  | [] => 0
  | c :: cs => c.payload + payloadAll cs

end

end Column

/-! ## Item builders -/

namespace ItemBuilder

def payload : ItemBuilder → Nat
  | .null _ => 0
  | .boolean slots => slots.size
  | .number type slots => slots.size * type.bytes
  | .text width slots => sumOf (width.slotBytes String.utf8ByteSize) slots.toList
  | .binary width slots => sumOf (width.slotBytes List.length) slots.toList
  | .list width rows items => rows.size * width.bytes + items.payload
  | .fixedSizeList _ _ items => items.payload

/-- The builder with no rows at any depth. -/
def bare : ItemBuilder → ItemBuilder
  | .null _ => .null 0
  | .boolean _ => .boolean #[]
  | .number type _ => .number type #[]
  | .text width _ => .text width #[]
  | .binary width _ => .binary width #[]
  | .list width _ items => .list width #[] items.bare
  | .fixedSizeList size _ items => .fixedSizeList size #[] items.bare

/-- The bytes for a missing row. -/
def missingBytes : ItemBuilder → Nat
  | .null _ => 0
  | .boolean _ => 1
  | .number type _ => type.bytes
  | .text width _ => width.bytes
  | .binary width _ => width.bytes
  | .list width _ _ => width.bytes
  | .fixedSizeList size _ items => size * items.missingBytes

@[simp] theorem kind_bare (b : ItemBuilder) : b.bare.kind = b.kind := by
  induction b with
  | list width rows items ih => simp [bare, kind, ih]
  | fixedSizeList size validity items ih => simp [bare, kind, ih]
  | _ => rfl

@[simp] theorem missingBytes_bare (b : ItemBuilder) : b.bare.missingBytes = b.missingBytes := by
  induction b with
  | fixedSizeList size validity items ih => simp [bare, missingBytes, ih]
  | _ => rfl

@[simp] theorem bare_appendNulls (n : Nat) (b : ItemBuilder) : (b.appendNulls n).bare = b.bare := by
  induction b generalizing n with
  | fixedSizeList size validity items ih => simp [appendNulls, bare, ih]
  | _ => rfl

/-- Missing rows of a list of fixed size take the slots of their items. -/
theorem payload_appendNulls (n : Nat) (b : ItemBuilder) :
    (b.appendNulls n).payload = b.payload + n * b.missingBytes := by
  induction b generalizing n with
  | fixedSizeList size validity items ih =>
    simp [appendNulls, payload, missingBytes, ih, Nat.mul_assoc]
  | text width slots =>
    simp [appendNulls, payload, missingBytes, sumOf_replicate, OffsetWidth.slotBytes]
  | binary width slots =>
    simp [appendNulls, payload, missingBytes, sumOf_replicate, OffsetWidth.slotBytes]
  | list width rows items _ =>
    simp [appendNulls, payload, missingBytes, Nat.add_mul]
    omega
  | _ => simp [appendNulls, payload, missingBytes, Nat.add_mul]

theorem payload_bare (b : ItemBuilder) : b.bare.payload = 0 := by
  induction b with
  | list width rows items ih => simp [bare, payload, ih]
  | fixedSizeList size validity items ih => exact ih
  | _ => simp [bare, payload]

theorem payload_of_column? {b : ItemBuilder} {c : Column} (column : b.column? = some c) :
    c.payload = b.payload := by
  induction b generalizing c with
  | list width rows items ih =>
    obtain ⟨child, inner, rfl⟩ := Option.map_eq_some_iff.1 column
    rw [Column.payload, payload, ih inner]
    simp
  | fixedSizeList size validity items ih =>
    obtain ⟨child, inner, made⟩ := Option.bind_eq_some_iff.1 column
    split at made
    · cases made
      rw [Column.payload, payload, ih inner]
    · cases made
  | _ =>
    cases column
    simp [Column.payload, payload]

end ItemBuilder

/-! ## Builders with children -/

namespace Builder

mutual

def payload : Builder → Nat
  | .item items => items.payload
  | .struct _ _ children => payloadAll children
  | .union _ rows children =>
    rows.size + rows.size * OffsetWidth.narrow.bytes + payloadAll children

def payloadAll : List Builder → Nat
  | [] => 0
  | b :: bs => b.payload + payloadAll bs

end

mutual

/-- The tree with no rows in any of its builders. -/
def bare : Builder → Builder
  | .item items => .item items.bare
  | .struct fields _ children => .struct fields #[] (bareAll children)
  | .union variants _ children => .union variants #[] (bareAll children)

def bareAll : List Builder → List Builder
  | [] => []
  | b :: bs => b.bare :: bareAll bs

end

theorem payloadAll_eq_sumOf (bs : List Builder) : payloadAll bs = sumOf payload bs := by
  induction bs with
  | nil => rfl
  | cons b bs ih => rw [payloadAll, sumOf_cons, ih]

theorem bareAll_eq_map (bs : List Builder) : bareAll bs = bs.map bare := by
  induction bs with
  | nil => rfl
  | cons b bs ih => rw [bareAll, List.map_cons, ih]

@[simp] theorem kind_bare (b : Builder) : b.bare.kind = b.kind := by
  cases b with
  | item items => simp [bare, kind]
  | struct fields validity children => rfl
  | union variants rows children => rfl

theorem payload_bare (b : Builder) : b.bare.payload = 0 := by
  have all {children : List Builder} (each : ∀ b ∈ children, b.bare.payload = 0) :
      payloadAll (bareAll children) = 0 := by
    induction children with
    | nil => rfl
    | cons b bs ih =>
      rw [bareAll, payloadAll, each b List.mem_cons_self,
        ih fun b' mem => each b' (List.mem_cons_of_mem b mem)]
  induction b using childInduction with
  | item items => exact ItemBuilder.payload_bare items
  | struct fields validity children ih => exact all ih
  | union variants rows children ih =>
    rw [bare, payload, all ih]
    simp

theorem payload_of_finishAll {children : List Builder} {columns : List Column}
    (each : ∀ b ∈ children, ∀ c, b.finish.1 = .ok c → c.payload = b.payload)
    (finished : (finishAll children).1 = .ok columns) :
    Column.payloadAll columns = payloadAll children := by
  induction children generalizing columns with
  | nil =>
    rw [finishAll] at finished
    cases finished
    rfl
  | cons b bs ih =>
    rw [finishAll] at finished
    rcases first : b.finish with ⟨_ | c, b'⟩
    · rw [first] at finished
      cases finished
    · rcases others : finishAll bs with ⟨_ | cs, bs'⟩
      · rw [first, others] at finished
        cases finished
      · rw [first, others] at finished
        cases finished
        have own := each b List.mem_cons_self c (by rw [first])
        have rest := ih (fun b' mem => each b' (List.mem_cons_of_mem b mem)) (by rw [others])
        rw [Column.payloadAll, payloadAll, own, rest]

/-- A column has the payload of the builder that it comes from. -/
theorem payload_of_finish {b : Builder} {c : Column} (finished : b.finish.1 = .ok c) :
    c.payload = b.payload := by
  induction b using childInduction generalizing c with
  | item items =>
    have taken : items.finish.1 = .ok c := finished
    rw [ItemBuilder.finish] at taken
    split at taken
    · cases taken
    · cases taken
    · next column =>
      cases taken
      exact ItemBuilder.payload_of_column? column
  | struct fields validity children ih =>
    obtain ⟨columns, inner, made⟩ := (finish_struct (counts_of_finish_struct finished)).1 finished
    obtain ⟨marks, rfl⟩ := Column.structOf_eq made
    exact payload_of_finishAll ih inner
  | union variants rows children ih =>
    obtain ⟨columns, inner, made⟩ := (finish_union (counts_of_finish_union finished)).1 finished
    obtain rfl := Column.unionOf_eq made
    rw [Column.payload, payload, payload_of_finishAll (fun b mem c => ih b mem) inner]
    simp

end Builder

end TypedColumns
