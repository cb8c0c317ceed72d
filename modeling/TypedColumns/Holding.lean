import TypedColumns.Encoder

/-!
# Holdings

The objects that a program keeps are handles, finished columns, plain columns, cells and
reservations. Some of them hold bytes in an arena; copies of one share what it holds. So an object
is kept once, in a `Holding`, beside the names of its owners and the number of its arena. An owner
more or less does not touch the arena, and the object goes with its last owner.

The main statements are about `bytesIn`, the bytes that a list of holdings holds in one arena: what
`alter` changes is the one holding it alters, and `leave` loses exactly what it hands out.
-/

namespace TypedColumns

inductive Object
  | handle (handle : Handle)
  | column (column : HeldColumn)
  | plain (column : Column)
  | cell (cell : Cell)
  | reservation (reservation : Reservation)

namespace Object

/-- What the object holds in its arena. -/
def held? : Object → Option Reservation
  | .handle h => h.state.held?
  | .column c => some c.held
  | .plain _ => none
  | .cell c => c.held
  | .reservation r => some r

def bytes (o : Object) : Nat := (o.held?.map (·.size)).getD 0

/-- Gives back what the object holds. -/
def drop (o : Object) (l : Ledger) : Ledger :=
  match o.held? with
  | some held => held.release l
  | none => l

theorem drop_handle (h : Handle) (l : Ledger) : (handle h).drop l = h.drop l := rfl

theorem drop_column (c : HeldColumn) (l : Ledger) : (column c).drop l = c.drop l := rfl

theorem drop_cell (c : Cell) (l : Ledger) : (cell c).drop l = c.drop l := rfl

theorem bytes_handle (h : Handle) : (handle h).bytes = h.reserved := rfl

theorem bytes_column (c : HeldColumn) : (column c).bytes = c.reserved := rfl

theorem bytes_cell (c : Cell) : (cell c).bytes = c.reserved := rfl

end Object

/-- An object with its owners, kept in one of `n` arenas. -/
structure Holding (n : Nat) where
  owners : List String
  object : Object
  arena : Fin n

namespace Holding

variable {n : Nat}

def owns (h : Holding n) (name : String) : Bool := h.owners.contains name

/-- The bytes that the object holds in the arena. -/
def bytesIn (a : Fin n) (h : Holding n) : Nat := if h.arena = a then h.object.bytes else 0

/-- The holding of a name. -/
def find? (name : String) (hs : List (Holding n)) : Option (Holding n) := hs.find? (·.owns name)

/-- Changes the holding of a name. -/
def alter (name : String) (f : Holding n → Holding n) : List (Holding n) → List (Holding n)
  | [] => []
  | h :: hs => if h.owns name then f h :: hs else h :: alter name f hs

/-- Strikes a name off the owners, and hands out the holding that is left without any. -/
def leave (name : String) : List (Holding n) → Option (Holding n) × List (Holding n)
  | [] => (none, [])
  | h :: hs =>
    if h.owns name then
      match h.owners.erase name with
      | [] => (some h, hs)
      | owners => (none, { h with owners } :: hs)
    else
      let (gone, hs) := leave name hs
      (gone, h :: hs)

/-- The bytes that all the objects hold in the arena. -/
def total (a : Fin n) (hs : List (Holding n)) : Nat := sumOf (bytesIn a) hs

@[simp] theorem total_nil (a : Fin n) : total a [] = 0 := rfl

@[simp] theorem total_cons (a : Fin n) (h : Holding n) (hs : List (Holding n)) :
    total a (h :: hs) = h.bytesIn a + total a hs := by
  simp [total]

@[simp] theorem total_append (a : Fin n) (hs ks : List (Holding n)) :
    total a (hs ++ ks) = total a hs + total a ks := by
  simp [total]

/-- Altering a holding changes the total by what that holding changes. -/
theorem total_alter (a : Fin n) {name : String} {h : Holding n} (f : Holding n → Holding n)
    {hs : List (Holding n)} (found : find? name hs = some h) :
    total a (alter name f hs) + h.bytesIn a = total a hs + (f h).bytesIn a := by
  induction hs with
  | nil => simp [find?] at found
  | cons k ks ih =>
    by_cases owned : k.owns name
    · obtain rfl : k = h := by simpa [find?, owned] using found
      simp only [alter, owned, if_true, total_cons]
      omega
    · have := ih (by simpa [find?, owned] using found)
      simp only [alter, owned, Bool.false_eq_true, if_false, total_cons]
      omega

/-- Only the holding that is handed out is missing from the total. -/
theorem total_leave (a : Fin n) (name : String) (hs : List (Holding n)) :
    total a (leave name hs).2 + ((leave name hs).1.map (bytesIn a)).getD 0 = total a hs := by
  induction hs with
  | nil => rfl
  | cons h hs ih =>
    by_cases owned : h.owns name
    · simp only [leave, owned, if_true]
      split
      · simp [Nat.add_comm]
      · simp [bytesIn]
    · simp only [leave, owned, Bool.false_eq_true, if_false, total_cons]
      omega

end Holding

end TypedColumns
