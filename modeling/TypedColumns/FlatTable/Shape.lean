import TypedColumns.FlatTable.Reader

/-!
# Shapes of flat tables

A shape says what the slots of each kind of table hold. `hasShape` looks through a whole buffer
from its root: everything that a slot leads to has to lie within the buffer and to begin on its
alignment, texts have to be well formed and to be followed by a zero, and a table whose kind is told
by another slot needs that slot. Slots that the shape does not know are not looked at.

A table that several others refer to is looked at once for each of them. So that this comes to an
end soon, there are limits to how deep tables may be nested, to how many are looked at, and to the
bytes that are.
-/

namespace TypedColumns.FlatTable

/-- What a slot of a table holds; `T` names the kinds of tables. -/
inductive Content (T : Type)
  /-- A number, which begins at a multiple of its own size. -/
  | number (size : Nat)
  | text
  /-- A vector of items of one size, the first of which begins at a multiple of `align`. -/
  | vector (size align : Nat)
  | table (kind : T)
  | tables (kind : T)
  /-- A table of the kind that the number in another slot tells, if it tells one. -/
  | choice (tag : Nat) (kind? : Nat → Option T)

/-- The slots of each kind of table. -/
abbrev Shape (T : Type) : Type := T → List (Nat × Content T)

def maxDepth : Nat := 64
def maxTables : Nat := 1000000
def maxBytes : Nat := 1 <<< 30

/-- How many tables and bytes were looked at so far. -/
structure Tally where
  tables : Nat
  bytes : Nat
  deriving DecidableEq, Repr

/-- A look at a part of a buffer, which fails if the part is not as it has to be. -/
abbrev Check (α : Type) : Type := StateT Tally Option α

namespace Check

/-- What has to hold. -/
def require (p : Prop) [Decidable p] : Check Unit := fun t => if p then some ((), t) else none

def countTable : Check Unit := fun t =>
  if t.tables < maxTables then some ((), { t with tables := t.tables + 1 }) else none

/-- A range lies within the buffer. -/
def range (b : Buffer) (pos size : Nat) : Check Unit := fun t =>
  if pos + size ≤ b.size ∧ t.bytes + size ≤ maxBytes then
    some ((), { t with bytes := t.bytes + size })
  else none

/-- A number of `size` bytes begins at a position. -/
def number (b : Buffer) (size pos : Nat) : Check Unit := do
  require (pos % size = 0)
  range b pos size

/-- The number of `size` bytes at a position. -/
def word (b : Buffer) (size pos : Nat) : Check Nat := do
  number b size pos
  liftM (word? size b pos)

/-- The position that the distance at a position leads to. -/
def follow (b : Buffer) (pos : Nat) : Check Nat := do
  return pos + (← word b 4 pos)

/-- The table at a position. -/
def table (b : Buffer) (pos : Nat) : Check Table := do
  number b 4 pos
  let layout := (pos : Int) - (← liftM (int? 4 b pos))
  require (0 ≤ layout ∧ layout < b.size)
  let size ← word b 2 layout.toNat
  require ((layout.toNat + size) % 2 = 0)
  range b layout.toNat size
  countTable
  return ⟨b, pos, layout.toNat, size⟩

/-- Where a slot's content is, if it is not left out. -/
def slot (t : Table) (i : Nat) : Check (Option Nat) := do
  if 4 + 2 * i < t.layoutSize then
    let place ← word t.buffer 2 (t.layout + 4 + 2 * i)
    return if place = 0 then none else some (t.pos + place)
  else return none

/-- A vector at a position: the position of its first item and the number of items. -/
def vector (b : Buffer) (size align pos : Nat) : Check (Nat × Nat) := do
  let count ← word b 4 pos
  require ((pos + 4) % align = 0)
  range b (pos + 4) (count * size)
  return (pos + 4, count)

def text (b : Buffer) (pos : Nat) : Check Unit := do
  let (start, length) ← vector b 1 1 pos
  require (((range? b start length).bind Bytes.toString?).isSome)
  require (b[start + length]? = some 0)

/-- The content of a slot at its position; `tableAt` looks at a table of a kind. -/
def content {T : Type} (tableAt : T → Nat → Check Unit) (t : Table) (pos : Nat) :
    Content T → Check Unit
  | .number size => number t.buffer size pos
  | .text => do text t.buffer (← follow t.buffer pos)
  | .vector size align => do
    let _ ← vector t.buffer size align (← follow t.buffer pos)
  | .table kind => do tableAt kind (← follow t.buffer pos)
  | .tables kind => do
    let (start, count) ← vector t.buffer 4 4 (← follow t.buffer pos)
    (List.range count).forM fun i => do tableAt kind (← follow t.buffer (start + 4 * i))
  | .choice tag kind? => do
    match ← slot t tag with
    | none => require False
    | some place =>
      match kind? (← word t.buffer 1 place) with
      | none => return
      | some kind => tableAt kind (← follow t.buffer pos)

/-- A slot, whatever it holds. A choice that is left out needs no tag, but then there is none. -/
def slotContent {T : Type} (tableAt : T → Nat → Check Unit) (t : Table) (i : Nat)
    (holds : Content T) : Check Unit := do
  match ← slot t i with
  | some pos => content tableAt t pos holds
  | none =>
    match holds with
    | .choice tag _ => require ((← slot t tag).isNone)
    | _ => return

/-- A table of a kind with all that it leads to, nested at most `depth` deep. -/
def tableOf {T : Type} (shape : Shape T) (b : Buffer) : Nat → T → Nat → Check Unit
  | 0, _, _ => require False
  | depth + 1, kind, pos => do
    let t ← table b pos
    (shape kind).forM fun (i, holds) => slotContent (tableOf shape b depth) t i holds

end Check

/-- Whether the root of a buffer is a table of a kind with all that it leads to. -/
def hasShape {T : Type} (shape : Shape T) (root : T) (b : Buffer) : Bool :=
  (do Check.tableOf shape b maxDepth root (← Check.follow b 0) : Check Unit).run ⟨0, 0⟩ |>.isSome

end TypedColumns.FlatTable
