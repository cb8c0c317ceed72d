import TypedColumns.Bytes.LittleEndian

/-!
# Footprints

The memory charged for a value is the room it takes in place plus the room it owns elsewhere. The
room in place depends on the type alone: records are laid out without gaps and rounded up to their
alignment, and an optional value needs no extra room if its type has a bit pattern to spare for
absence. The room elsewhere is what texts and lists have set aside, which may be more than they
use.
-/

namespace TypedColumns

universe u

/-- The sum of the numbers that `f` gives. -/
def sumOf {α : Type u} (f : α → Nat) : List α → Nat
  | [] => 0
  | a :: as => f a + sumOf f as

@[simp] theorem sumOf_nil {α : Type u} (f : α → Nat) : sumOf f [] = 0 := rfl

@[simp] theorem sumOf_cons {α : Type u} (f : α → Nat) (a : α) (as : List α) :
    sumOf f (a :: as) = f a + sumOf f as := rfl

@[simp] theorem sumOf_append {α : Type u} (f : α → Nat) (as bs : List α) :
    sumOf f (as ++ bs) = sumOf f as + sumOf f bs := by
  induction as with
  | nil => simp
  | cons a as ih => simp [ih, Nat.add_assoc]

section Sum

variable {α : Type u}

theorem sumOf_replicate (f : α → Nat) (n : Nat) (a : α) :
    sumOf f (List.replicate n a) = n * f a := by
  induction n with
  | zero => simp
  | succ n ih => rw [List.replicate_succ, sumOf_cons, ih, Nat.succ_mul, Nat.add_comm]

theorem sumOf_const (n : Nat) (as : List α) : sumOf (fun _ => n) as = as.length * n := by
  induction as with
  | nil => simp
  | cons a as ih => rw [sumOf_cons, ih, List.length_cons, Nat.succ_mul, Nat.add_comm]

theorem sumOf_map {β : Type u} (f : β → Nat) (g : α → β) (as : List α) :
    sumOf f (as.map g) = sumOf (fun a => f (g a)) as := by
  induction as with
  | nil => rfl
  | cons a as ih => rw [List.map_cons, sumOf_cons, sumOf_cons, ih]

variable {f : α → Nat} {as : List α} {i : Nat} {a : α}

theorem le_sumOf (here : as[i]? = some a) : f a ≤ sumOf f as := by
  induction as generalizing i with
  | nil => cases here
  | cons b bs ih =>
    cases i with
    | zero =>
      obtain rfl := Option.some.inj here
      exact Nat.le_add_right _ _
    | succ i => exact Nat.le_trans (ih here) (Nat.le_add_left _ _)

theorem sumOf_set (here : as[i]? = some a) (b : α) :
    sumOf f (as.set i b) + f a = sumOf f as + f b := by
  induction as generalizing i with
  | nil => cases here
  | cons c cs ih =>
    cases i with
    | zero =>
      obtain rfl := Option.some.inj here
      simp only [List.set_cons_zero, sumOf_cons]
      omega
    | succ i =>
      have rest := ih here
      simp only [List.set_cons_succ, sumOf_cons]
      omega

theorem sumOf_eraseIdx (here : as[i]? = some a) :
    sumOf f (as.eraseIdx i) + f a = sumOf f as := by
  induction as generalizing i with
  | nil => cases here
  | cons c cs ih =>
    cases i with
    | zero =>
      obtain rfl := Option.some.inj here
      exact Nat.add_comm _ _
    | succ i =>
      have rest := ih here
      simp only [List.eraseIdx_cons_succ, sumOf_cons]
      omega

end Sum

/-- How much memory the values of a type take. -/
class Footprint (α : Type u) where
  /-- The bytes a value takes in place. -/
  size : Nat
  align : Nat
  /-- Whether some bit pattern is no value, so that absence can be told without extra room. -/
  spare : Bool
  /-- The bytes a value owns elsewhere. -/
  heap : α → Nat

namespace Footprint

/-- The bytes charged for a value. -/
def total {α : Type u} [Footprint α] (a : α) : Nat := size α + heap a

/-- The bytes charged for values, each on its own. -/
def totals {α : Type u} [Footprint α] (as : List α) : Nat := sumOf total as

/-- The next multiple of `align`. -/
def roundUp (align n : Nat) : Nat := (n + align - 1) / align * align

/-- The room in place of a record with parts of the given sizes and alignments. -/
def recordSize (parts : List (Nat × Nat)) : Nat :=
  roundUp ((parts.map (·.2)).foldl max 1) (sumOf (·.1) parts)

/-- The room in place of a part of a record, and its alignment. -/
def part (α : Type u) [Footprint α] : Nat × Nat := (size α, align α)

/-- A type whose values own nothing elsewhere. -/
@[reducible]
def flat {α : Type u} (size align : Nat) (spare : Bool) : Footprint α :=
  ⟨size, align, spare, fun _ => 0⟩

/-- A type whose values hold one value of another type and nothing else. -/
@[reducible]
def wrapping {α β : Type u} [Footprint β] (get : α → β) : Footprint α :=
  ⟨size β, align β, spare β, fun a => heap (get a)⟩

instance (width : Nat) : Footprint (BitVec width) := flat (width / 8) (width / 8) false

instance : Footprint Bool := flat 1 1 true

/-- Room for telling absence apart comes with the alignment of the value. -/
instance {α : Type u} [Footprint α] : Footprint (Option α) where
  size := if spare α then size α else size α + align α
  align := align α
  spare := true
  heap a := (a.map heap).getD 0

instance {α : Type u} [Footprint α] (n : Nat) : Footprint (Vector α n) where
  size := n * size α
  align := align α
  spare := spare α
  heap as := sumOf heap as.toList

end Footprint

/-- A text together with the room set aside for it. -/
structure TextBuffer where
  content : String
  room : Nat
  deriving DecidableEq, Inhabited

namespace TextBuffer

/-- The bytes set aside, at least as many as the text takes. -/
def capacity (t : TextBuffer) : Nat := max t.room t.content.utf8ByteSize

/-- A text with just the room it takes. -/
def ofString (s : String) : TextBuffer := ⟨s, 0⟩

theorem size_le_capacity (t : TextBuffer) : t.content.utf8ByteSize ≤ t.capacity :=
  Nat.le_max_right _ _

instance : Footprint TextBuffer := ⟨24, 8, true, capacity⟩

end TextBuffer

/-- A list together with the room set aside for its items, counted in items. -/
structure ListBuffer (α : Type u) where
  items : List α
  room : Nat
  deriving Inhabited

namespace ListBuffer

variable {α : Type u}

/-- The items that room is set aside for, at least as many as there are. -/
def capacity (l : ListBuffer α) : Nat := max l.room l.items.length

/-- A list with just the room it takes. -/
def ofList (items : List α) : ListBuffer α := ⟨items, 0⟩

theorem length_le_capacity (l : ListBuffer α) : l.items.length ≤ l.capacity :=
  Nat.le_max_right _ _

instance [Footprint α] : Footprint (ListBuffer α) where
  size := 24
  align := 8
  spare := true
  heap l := l.capacity * Footprint.size α + sumOf Footprint.heap l.items

end ListBuffer

end TypedColumns
