import TypedColumns.Proofs.Arena.Accounts

/-!
# Room in an arena

Whether an arena admits a request is a matter of its room alone (`Arena.HasRoom`): a bounded arena
admits what fits on top of what is in use, a tracking arena admits everything. As long as the bytes
in use are a number that the counter shows, taking them is plain addition. What an arena accounts
for determines it, so an operation that leaves the accounts as they were leaves the arena as it was.
-/

namespace TypedColumns

namespace Arena

/-- The arena can take `n` bytes on top of what is in use. -/
def HasRoom (a : Arena) (n : Nat) : Prop :=
  ∀ capacity, a.capacity = some capacity → a.allocated + n ≤ capacity

/-- The arena with `n` more bytes in use, as far as the counter goes. -/
def taking (a : Arena) (n : Nat) : Arena :=
  { a with allocated := (a.allocated + n) % counterRange }

theorem HasRoom.mono {a : Arena} {m n : Nat} (fits : a.HasRoom n) (le : m ≤ n) : a.HasRoom m :=
  fun capacity bounded => Nat.le_trans (Nat.add_le_add_left le _) (fits capacity bounded)

theorem not_hasRoom_iff {a : Arena} {n : Nat} :
    ¬ a.HasRoom n ↔ ∃ capacity, a.capacity = some capacity ∧ capacity < a.allocated + n := by
  constructor
  · intro full
    refine Classical.byContradiction fun none => full fun capacity bounded => ?_
    exact Nat.le_of_not_lt fun exceeds => none ⟨capacity, bounded, exceeds⟩
  · rintro ⟨capacity, bounded, exceeds⟩ fits
    exact absurd (fits capacity bounded) (Nat.not_le_of_lt exceeds)

namespace Accounts

variable {a b : Arena} {room : Option Nat} {held n : Nat}

/-- An arena is told by what it accounts for. -/
theorem unique (first : a.Accounts room held) (second : b.Accounts room held) : a = b := by
  cases room with
  | none => exact Eq.trans first second.symm
  | some capacity => exact first.1.trans second.1.symm

theorem eq (acc : a.Accounts room held) (range : room = none → held < counterRange) :
    a = ⟨room, held⟩ := by
  have capacity := acc.capacity
  have allocated := acc.allocated range
  cases a
  rw [Arena.mk.injEq]
  exact ⟨capacity, allocated⟩

/-- What is in use always fits. -/
theorem hasRoom_zero (acc : a.Accounts room held) : a.HasRoom 0 := by
  intro capacity bounded
  have same := acc.capacity
  rw [bounded] at same
  subst same
  rw [acc.1]
  exact acc.2.1

/-- Bytes that fit are plain addition in a bounded arena. -/
theorem taking_bounded {capacity : Nat} (acc : a.Accounts (some capacity) held)
    (fits : a.HasRoom n) : a.taking n = ⟨some capacity, held + n⟩ := by
  have within := fits capacity acc.capacity
  obtain ⟨rfl, -, range⟩ := acc
  exact congrArg (Arena.mk _) (Nat.mod_eq_of_lt (Nat.lt_of_le_of_lt within range))

/-- What fits is admitted. -/
theorem grow_of_room (acc : a.Accounts room held) (fits : a.HasRoom n) :
    a.grow n = .ok (a.taking n) := by
  cases room with
  | none => exact grow_tracking acc.capacity n
  | some capacity =>
    rw [grow_bounded acc.capacity acc.2.2, if_pos (fits capacity acc.capacity),
      acc.taking_bounded fits, acc.1]

/-- What does not fit is refused. -/
theorem grow_of_full (acc : a.Accounts room held) (full : ¬ a.HasRoom n) :
    ∃ capacity, a.capacity = some capacity ∧ a.grow n = .error ⟨n, a.allocated, capacity⟩ := by
  obtain ⟨capacity, bounded, exceeds⟩ := not_hasRoom_iff.1 full
  have same := acc.capacity
  rw [bounded] at same
  subst same
  refine ⟨capacity, bounded, ?_⟩
  rw [grow_bounded bounded acc.2.2, if_neg (Nat.not_le_of_lt exceeds)]

/-- Somebody has taken `n` bytes, as far as a counter goes, and nobody has done anything else. -/
theorem eq_taking (before : a.Accounts room held)
    (after : b.Accounts room (held + n % counterRange)) (fits : a.HasRoom n) : b = a.taking n := by
  cases room with
  | none =>
    rw [show a = _ from before, show b = _ from after, taking, Nat.add_mod_mod, Nat.mod_add_mod]
  | some capacity =>
    have within := fits capacity before.capacity
    have small : n < counterRange := by
      have range := before.2.2
      omega
    rw [before.taking_bounded fits, after.1, Nat.mod_eq_of_lt small]

/-- What is admitted is a number that the counter shows. -/
theorem lt_range (acc : a.Accounts room held) (range : room = none → held + n < counterRange)
    (fits : a.HasRoom n) : held + n < counterRange := by
  cases room with
  | none => exact range rfl
  | some capacity =>
    have within := fits capacity acc.capacity
    rw [acc.1] at within
    exact Nat.lt_of_le_of_lt within acc.2.2

end Accounts

end Arena

namespace Reservation

variable {l : Ledger} {room : Option Nat} {held n : Nat}

/-- A new reservation that fits is admitted, and takes what it asks for. -/
theorem acquire_of_room (acc : l.arena.Accounts room held) (fits : l.arena.HasRoom n) :
    ∃ l', acquire n l = (.ok ⟨n % counterRange⟩, l') ∧ l'.arena = l.arena.taking n := by
  rcases acquired : acquire n l with ⟨_ | r, l'⟩
  · rw [acquire, resize] at acquired
    split at acquired
    · have grown := grow_of_arena empty (acc.grow_of_room fits)
      exact absurd (acquired.symm.trans grown) nofun
    · cases acquired
  · have size : r.size = n % counterRange := by
      rw [acquire, resize] at acquired
      split at acquired
      · obtain ⟨size, -⟩ := grow_ok acquired
        rwa [show empty.size = 0 from rfl, Nat.sub_zero, Nat.zero_add] at size
      · next none =>
        cases acquired
        rw [Nat.eq_zero_of_not_pos none]
        rfl
    have after := acquire_accounts acc acquired
    rw [size] at after
    refine ⟨l', ?_, acc.eq_taking after fits⟩
    rw [← size]

/-- A new reservation that does not fit is refused. -/
theorem acquire_of_full (acc : l.arena.Accounts room held) (full : ¬ l.arena.HasRoom n) :
    ∃ refusal l', acquire n l = (.error refusal, l') ∧ l'.arena = l.arena := by
  have pos : 0 < n := by
    rcases Nat.eq_zero_or_pos n with rfl | pos
    · exact absurd acc.hasRoom_zero full
    · exact pos
  obtain ⟨capacity, -, refused⟩ := acc.grow_of_full full
  rw [acquire, resize, if_pos (show empty.size < n from pos)]
  exact ⟨_, _, grow_of_refusal empty refused, rfl⟩

/-- What a reservation holds is subtracted when it is given back. -/
theorem release_arena {r : Reservation} (own : r.size ≤ l.arena.allocated)
    (range : l.arena.allocated < counterRange) :
    (r.release l).arena = { l.arena with allocated := l.arena.allocated - r.size } := by
  rw [release]
  split
  · exact congrArg (Arena.mk l.arena.capacity) (Arena.shrink_allocated own range)
  · next none =>
    have zero : r.size = 0 := Nat.eq_zero_of_not_pos none
    rw [zero, Nat.sub_zero]

end Reservation

end TypedColumns
