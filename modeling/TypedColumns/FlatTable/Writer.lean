import TypedColumns.Bytes.Padding
import TypedColumns.Bytes.Utf8

/-!
# Writing flat tables

A flat table is a record that is read in place. Its fields stand in numbered slots, and the table
begins with the distance to a layout that says where in the table each slot is; a slot that is left
out has its default value. Texts, vectors and other tables stand outside and are reached by the
distance from the slot that refers to them.

A draft grows from its end towards its start, so an object is written after everything it refers
to, and its position is known by its distance from the end, which never changes. Tables of the same
shape share one layout.
-/

namespace TypedColumns.FlatTable

/-- The distance of an object's first byte from the end of the buffer. -/
abbrev Ref : Type := Nat

structure Draft where
  bytes : Bytes
  /-- The layouts written so far. -/
  layouts : List (Bytes × Ref)
  /-- The largest alignment asked for so far. -/
  alignment : Nat
  deriving DecidableEq, Repr

/-- A step of writing that gives what it has to be referred to by. -/
abbrev Writer (α : Type) : Type := StateM Draft α

namespace Draft

def empty : Draft := ⟨[], [], 1⟩

/-- The distance of the first byte from the end. -/
def size (d : Draft) : Ref := d.bytes.length

/-- Adds bytes in front. -/
def put (d : Draft) (bs : Bytes) : Draft := { d with bytes := bs ++ d.bytes }

/-- Adds zeros in front, so that `length` more bytes end up on the alignment. -/
def align (d : Draft) (alignment length : Nat) : Draft :=
  { d with
    bytes := Bytes.zeros (Bytes.paddingTo alignment (d.size + length)) ++ d.bytes
    alignment := max d.alignment alignment }

/-- Adds a number on its own width. -/
def putAligned (d : Draft) (bs : Bytes) : Draft := (d.align bs.length bs.length).put bs

@[simp] theorem size_put (d : Draft) (bs : Bytes) : (d.put bs).size = bs.length + d.size := by
  simp [put, size]

/-- What was written stays at the end. -/
theorem suffix_put (d : Draft) (bs : Bytes) : d.bytes <:+ (d.put bs).bytes :=
  List.suffix_append _ _

theorem suffix_align (d : Draft) (alignment length : Nat) :
    d.bytes <:+ (d.align alignment length).bytes :=
  List.suffix_append _ _

end Draft

/-- What a slot of a table holds. -/
inductive Entry
  | scalar (bs : Bytes)
  | ref (r : Ref)
  deriving DecidableEq, Repr

/-- A number of `width` bytes for a slot, unless it is the default zero. -/
def Entry.unlessZero (slot width n : Nat) : List (Nat × Entry) :=
  if n = 0 then [] else [(slot, .scalar (Bytes.ofNat width n))]

/-- Writes a text: its length, its bytes, and a zero at the end. -/
def string (s : String) : Writer Ref := modifyGet fun d =>
  let bs := Bytes.ofString s
  let d := ((d.align 4 (bs.length + 1)).put (bs ++ [0])).put (Bytes.ofNat 4 bs.length)
  (d.size, d)

/-- Writes a vector of `count` items that are given as bytes. -/
def vector (alignment count : Nat) (items : Bytes) : Writer Ref := modifyGet fun d =>
  let d := ((d.align (max alignment 4) items.length).put items).put (Bytes.ofNat 4 count)
  (d.size, d)

/-- The distances to the objects of a vector; the first item is the farthest from the end. -/
def distances (base : Nat) : List Ref → Bytes
  | [] => []
  | r :: rs => Bytes.ofNat 4 (base + 4 * (rs.length + 1) - r) ++ distances base rs

/-- Writes a vector of references. -/
def refVector (refs : List Ref) : Writer Ref := modifyGet fun d =>
  let d := d.align 4 (4 * refs.length)
  let d := (d.put (distances d.size refs)).put (Bytes.ofNat 4 refs.length)
  (d.size, d)

/-- Adds a slot's content, and gives the distance of it from the end. -/
def putEntry (d : Draft) : Entry → Ref × Draft
  | .scalar bs =>
    let d := d.putAligned bs
    (d.size, d)
  | .ref r =>
    let d := d.align 4 4
    let d := d.put (Bytes.ofNat 4 (d.size + 4 - r))
    (d.size, d)

/-- Adds the contents of slots, and gives where each of them is. -/
def putEntries (d : Draft) : List (Nat × Entry) → List (Nat × Ref) × Draft
  | [] => ([], d)
  | (slot, entry) :: rest =>
    let (r, d) := putEntry d entry
    let (slots, d) := putEntries d rest
    ((slot, r) :: slots, d)

/-- The layout of a table: its own length, the table's length, and where each slot is, up to the
last one in use. -/
def layoutOf (start table : Ref) (slots : List (Nat × Ref)) : Bytes :=
  let count := (slots.map (·.1 + 1)).foldl max 0
  let places := (List.range count).flatMap fun slot =>
    match slots.find? (·.1 == slot) with
    | some (_, r) => Bytes.ofNat 2 (table - r)
    | none => Bytes.ofNat 2 0
  Bytes.ofNat 2 (4 + 2 * count) ++ Bytes.ofNat 2 (table - start) ++ places

/-- Writes a table. Its slots are added in the order given; its first four bytes are the distance to
its layout, which stands right before it unless an earlier table has the same one. -/
def table (entries : List (Nat × Entry)) : Writer Ref := modifyGet fun d =>
  let start := d.size
  let (slots, d) := putEntries d entries
  let d := d.align 4 4
  let table := d.size + 4
  let layout := layoutOf start table slots
  match d.layouts.find? (·.1 == layout) with
  | some (_, r) => (table, d.put (Bytes.ofInt 4 ((r : Int) - table)))
  | none =>
    let d := (d.put (Bytes.ofInt 4 layout.length)).put layout
    (table, { d with layouts := (layout, d.size) :: d.layouts })

/-- The finished buffer: the distance to the root in front, and the whole on the largest alignment
in use. -/
def finish (root : Ref) (d : Draft) : Bytes :=
  let d := d.align (max d.alignment 4) 4
  (d.put (Bytes.ofNat 4 (d.size + 4 - root))).bytes

/-- Runs a writer on an empty draft and finishes with its result as root. -/
def build (root : Writer Ref) : Bytes :=
  let (r, d) := root.run .empty
  finish r d

end TypedColumns.FlatTable
