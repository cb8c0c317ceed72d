import TypedColumns.Event

/-!
# Arenas

An arena counts the bytes reserved in it. A tracking arena admits every request and its counter
wraps around; a bounded arena admits a request when the sum, taken without wrapping, stays within
its capacity. A reservation is the share of one owner, and gives back exactly what it took.

Operations work on a `Ledger`: the arena together with the events reported so far. The rules of
this module say what each operation does to the number of bytes in use.
-/

namespace TypedColumns

/-- A counter takes the values of 64 bits, those below this one, and wraps around there. -/
def counterRange : Nat := 0x1_0000_0000_0000_0000

/-- The sum of two counts, if a counter can show it. -/
def checkedSum? (m n : Nat) : Option Nat := if m + n < counterRange then some (m + n) else none

structure Arena where
  /-- A tracking arena has none. -/
  capacity : Option Nat
  allocated : Nat
  deriving DecidableEq, Repr, Inhabited

namespace Arena

/-- An arena that counts and never refuses. -/
def tracking : Arena := ⟨none, 0⟩

/-- An arena that holds at most `capacity` bytes. -/
def bounded (capacity : Nat) : Arena := ⟨some capacity, 0⟩

/-- Takes `n` more bytes, unless that exceeds the capacity. -/
def grow (a : Arena) (n : Nat) : Except Refusal Arena :=
  match a.capacity with
  | none => .ok { a with allocated := (a.allocated + n) % counterRange }
  | some capacity =>
    match (checkedSum? a.allocated n).filter (· ≤ capacity) with
    | some allocated => .ok { a with allocated }
    | none => .error ⟨n, a.allocated, capacity⟩

/-- Gives `n` bytes back. -/
def shrink (a : Arena) (n : Nat) : Arena :=
  { a with allocated := (a.allocated + (counterRange - n % counterRange)) % counterRange }

@[simp] theorem shrink_capacity (a : Arena) (n : Nat) : (a.shrink n).capacity = a.capacity := rfl

/-- Within the range of the counter, giving back is subtraction. -/
theorem shrink_allocated {a : Arena} {n : Nat} (h : n ≤ a.allocated)
    (range : a.allocated < counterRange) : (a.shrink n).allocated = a.allocated - n := by
  simp only [shrink]
  unfold counterRange at *
  omega

/-- A bounded arena admits a request exactly when it fits on top of what is in use. A sum that the
counter cannot show is beyond every capacity that it can. -/
theorem grow_bounded {a : Arena} {capacity : Nat} (h : a.capacity = some capacity)
    (range : capacity < counterRange) (n : Nat) :
    a.grow n = if a.allocated + n ≤ capacity then .ok { a with allocated := a.allocated + n }
      else .error ⟨n, a.allocated, capacity⟩ := by
  by_cases fits : a.allocated + n ≤ capacity
  · have shown : a.allocated + n < counterRange := Nat.lt_of_le_of_lt fits range
    simp [grow, h, checkedSum?, shown, fits, Option.filter]
  · by_cases shown : a.allocated + n < counterRange
    · simp [grow, h, checkedSum?, shown, fits, Option.filter]
    · simp [grow, h, checkedSum?, shown, fits]

/-- A tracking arena admits every request. -/
theorem grow_tracking {a : Arena} (h : a.capacity = none) (n : Nat) :
    a.grow n = .ok { a with allocated := (a.allocated + n) % counterRange } := by
  simp [grow, h]

theorem grow_capacity {a b : Arena} {n : Nat} (h : a.grow n = .ok b) :
    b.capacity = a.capacity := by
  unfold grow at h
  split at h
  · cases h; rfl
  · split at h <;> cases h
    rfl

end Arena

/-- An arena and what has been reported by the operations on it. -/
structure Ledger where
  arena : Arena
  events : List Event
  deriving DecidableEq, Repr

namespace Ledger

/-- A ledger on which nothing has been reported. -/
def opened (arena : Arena) : Ledger := ⟨arena, []⟩

def report (l : Ledger) (e : Event) : Ledger := { l with events := l.events ++ [e] }

/-- Takes `n` bytes of the arena; a refusal is reported. -/
def charge (l : Ledger) (n : Nat) : Except Refusal Unit × Ledger :=
  match l.arena.grow n with
  | .ok arena => (.ok (), { l with arena })
  | .error refusal => (.error refusal, l.report (.refused refusal))

/-- Gives `n` bytes back to the arena. -/
def refund (l : Ledger) (n : Nat) : Ledger := { l with arena := l.arena.shrink n }

@[simp] theorem report_arena (l : Ledger) (e : Event) : (l.report e).arena = l.arena := rfl

@[simp] theorem refund_arena (l : Ledger) (n : Nat) :
    (l.refund n).arena = l.arena.shrink n := rfl

/-- A refused request leaves the arena as it was. -/
theorem charge_error_arena {l l' : Ledger} {n : Nat} {refusal : Refusal}
    (h : l.charge n = (.error refusal, l')) : l'.arena = l.arena := by
  unfold charge at h
  split at h <;> cases h
  rfl

end Ledger

/-- The bytes one owner holds in an arena. -/
structure Reservation where
  size : Nat
  deriving DecidableEq, Repr, Inhabited

namespace Reservation

/-- A reservation that holds nothing. -/
def empty : Reservation := ⟨0⟩

/-- Takes `n` bytes more. The size wraps around with the counter. -/
def grow (r : Reservation) (n : Nat) (l : Ledger) : Except Refusal Reservation × Ledger :=
  match l.charge n with
  | (.ok (), l) => (.ok ⟨(r.size + n) % counterRange⟩, l)
  | (.error refusal, l) => (.error refusal, l)

/-- Takes or gives back what is missing to `size` bytes. -/
def resize (r : Reservation) (size : Nat) (l : Ledger) : Except Refusal Reservation × Ledger :=
  if r.size < size then r.grow (size - r.size) l
  else (.ok ⟨size⟩, l.refund (r.size - size))

/-- A new reservation of `size` bytes. -/
def acquire (size : Nat) (l : Ledger) : Except Refusal Reservation × Ledger :=
  empty.resize size l

/-- Gives everything back. -/
def release (r : Reservation) (l : Ledger) : Ledger :=
  if 0 < r.size then l.refund r.size else l

@[simp] theorem release_empty (l : Ledger) : empty.release l = l := rfl

end Reservation

end TypedColumns
