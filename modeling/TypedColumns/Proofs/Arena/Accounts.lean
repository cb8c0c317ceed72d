import TypedColumns.Holding
import TypedColumns.Proofs.Handle.History

/-!
# What an arena accounts for

`Arena.Accounts` says that the number of bytes an arena has allocated is that of the bytes held by
its users: exactly, and within the capacity, for a bounded arena, and modulo the range of the
counter for a tracking one. Every operation that takes or gives back memory on behalf of an owner
keeps this true of what its owner holds afterwards and of what all others hold, which stands in the
statements as `rest`. An operation that fails leaves its owner with what it held before, or with
nothing if there was no owner yet.
-/

namespace TypedColumns

universe u

/-- The arena of the given room, if it has any limit, accounts for `held` bytes. -/
def Arena.Accounts (a : Arena) (room : Option Nat) (held : Nat) : Prop :=
  match room with
  | none => a = ⟨none, held % counterRange⟩
  | some capacity => a = ⟨some capacity, held⟩ ∧ held ≤ capacity ∧ capacity < counterRange

namespace Arena.Accounts

variable {a b : Arena} {room : Option Nat} {held n : Nat}

theorem capacity (h : a.Accounts room held) : a.capacity = room := by
  cases room with
  | none => rw [h]
  | some c => rw [h.1]

/-- As long as the sum stays within the counter, the arena's count is the sum. -/
theorem allocated (h : a.Accounts room held) (range : room = none → held < counterRange) :
    a.allocated = held := by
  cases room with
  | none =>
    rw [h]
    exact Nat.mod_eq_of_lt (range rfl)
  | some c => rw [h.1]

/-- An owner takes `n` bytes of an arena. Its own count wraps around as the arena's does, and does
not come to that in a bounded arena. -/
theorem grow {rest size : Nat} (h : a.Accounts room (rest + size)) (grown : a.grow n = .ok b) :
    b.Accounts room (rest + (size + n) % counterRange) := by
  cases room with
  | none =>
    have tracking : a.capacity = none := h.capacity
    rw [grow_tracking tracking] at grown
    cases grown
    have count : a.allocated = (rest + size) % counterRange := by rw [h]
    simp only [Accounts, tracking, count]
    congr 1
    simp only [counterRange]
    omega
  | some c =>
    obtain ⟨rfl, -, range⟩ := h
    rw [grow_bounded rfl range] at grown
    split at grown
    · rename_i fits
      cases grown
      have small : (size + n) % counterRange = size + n := Nat.mod_eq_of_lt (by
        dsimp only at fits
        omega)
      rw [small, ← Nat.add_assoc]
      exact ⟨rfl, fits, range⟩
    · cases grown

/-- An owner gives `n` of its bytes back. -/
theorem shrink {rest : Nat} (h : a.Accounts room (rest + n)) : (a.shrink n).Accounts room rest := by
  cases room with
  | none =>
    rw [h]
    simp only [Accounts, Arena.shrink]
    congr 1
    simp only [counterRange]
    omega
  | some c =>
    obtain ⟨rfl, fits, range⟩ := h
    refine ⟨?_, by omega, range⟩
    simp only [Arena.shrink]
    congr 1
    simp only [counterRange] at *
    omega

end Arena.Accounts

/-- The bytes of a result, none if it is an error. -/
def resultBytes {α : Type u} (bytes : α → Nat) (result : Except CellError α) : Nat :=
  (result.toOption.map bytes).getD 0

/-! ## Reservations -/

namespace Reservation

variable {r r' : Reservation} {l l' : Ledger} {room : Option Nat} {rest n : Nat}
variable {refusal : Refusal}

theorem grow_accounts (h : l.arena.Accounts room (rest + r.size))
    (grown : r.grow n l = (.ok r', l')) : l'.arena.Accounts room (rest + r'.size) := by
  obtain ⟨size, arena, admitted, rfl⟩ := grow_ok grown
  rw [size]
  exact h.grow admitted

theorem grow_error_arena (refused : r.grow n l = (.error refusal, l')) : l'.arena = l.arena := by
  obtain ⟨-, rfl⟩ := grow_error refused
  rfl

theorem resize_accounts (h : l.arena.Accounts room (rest + r.size))
    (resized : r.resize n l = (.ok r', l')) : l'.arena.Accounts room (rest + r'.size) := by
  unfold resize at resized
  split at resized
  · exact grow_accounts h resized
  · cases resized
    apply Arena.Accounts.shrink
    have split : rest + n + (r.size - n) = rest + r.size := by omega
    rw [split]
    exact h

theorem resize_error_arena (refused : r.resize n l = (.error refusal, l')) :
    l'.arena = l.arena := by
  unfold resize at refused
  split at refused
  · exact grow_error_arena refused
  · cases refused

theorem acquire_accounts (h : l.arena.Accounts room rest) (acquired : acquire n l = (.ok r', l')) :
    l'.arena.Accounts room (rest + r'.size) :=
  resize_accounts (r := empty) h acquired

theorem release_accounts (h : l.arena.Accounts room (rest + r.size)) :
    (r.release l).arena.Accounts room rest := by
  unfold release
  split
  · exact h.shrink
  · have none : r.size = 0 := by omega
    rwa [none, Nat.add_zero] at h

end Reservation

/-- An object that is dropped gives back what it holds. -/
theorem Object.drop_accounts {o : Object} {l : Ledger} {room : Option Nat} {rest : Nat}
    (acc : l.arena.Accounts room (rest + o.bytes)) :
    (o.drop l).arena.Accounts room rest := by
  unfold Object.drop
  unfold Object.bytes at acc
  cases held : o.held? with
  | none =>
    rw [held] at acc
    exact acc
  | some r =>
    rw [held] at acc
    exact Reservation.release_accounts acc

/-! ## Handles -/

namespace Handle

variable {α : Type u} [Footprint α] {codec : Codec α} {h h' : Handle} {l l' : Ledger}
variable {room : Option Nat} {rest : Nat}

/-- A call takes no more than its handle holds afterwards. -/
theorem call_append_accounts (batch : Batch α) (acc : l.arena.Accounts room (rest + h.reserved)) :
    (h.call codec (.append batch) l).2.2.arena.Accounts room
      (rest + (h.call codec (.append batch) l).2.1.reserved) := by
  cases closed : h.state.closed? with
  | some why =>
    rw [call_closed codec closed]
    exact acc
  | none =>
    obtain ⟨held, state⟩ := closed?_eq_none closed
    rw [reserved_building state] at acc
    cases read : batch.values with
    | error fault =>
      rw [call_invalidBatch codec l state read, reserved_building state]
      exact acc
    | ok values =>
      by_cases nonempty : values = []
      · subst nonempty
        rw [call_emptyBatch codec l state read, reserved_building state]
        exact acc
      · cases grown : l.arena.grow (Footprint.totals values) with
        | error refusal =>
          rw [call_refusedBatch codec l state read nonempty grown]
          exact acc
        | ok arena =>
          rw [call_admittedBatch codec l state read nonempty grown]
          rcases (codec.appendAll values).apply h.builder with ⟨_ | _, _⟩
          · exact acc.grow grown
          · exact acc.grow grown

theorem append_accounts (batch : Batch α) (acc : l.arena.Accounts room (rest + h.reserved)) :
    (h.append codec batch l).2.2.arena.Accounts room
      (rest + (h.append codec batch l).2.1.reserved) :=
  call_append_accounts batch acc

theorem reserved_appendNull (h : Handle) : (h.appendNull codec).2.reserved = h.reserved := by
  unfold appendNull
  cases state : h.state with
  | finalized => rfl
  | failed held => rfl
  | building held =>
    rw [reserved_building state]
    dsimp only
    split
    · unfold write
      rcases codec.appendNull.apply h.builder with ⟨_ | _, _⟩
      · rfl
      · rfl
    · exact reserved_building state

/-- A finished column takes over what the handle held. -/
theorem finalize_moves {result : Except CellError HeldColumn}
    (finalized : h.finalize l = (result, h', l')) :
    l'.arena = l.arena ∧ h.reserved = h'.reserved + resultBytes HeldColumn.reserved result := by
  unfold finalize at finalized
  cases state : h.state with
  | finalized =>
    rw [state] at finalized
    cases finalized
    exact ⟨rfl, rfl⟩
  | failed held =>
    rw [state] at finalized
    cases finalized
    exact ⟨rfl, rfl⟩
  | building held =>
    rw [state] at finalized
    rw [reserved_building state]
    dsimp only at finalized
    split at finalized
    · cases finalized
      exact ⟨rfl, rfl⟩
    · cases finalized
      exact ⟨rfl, (Nat.zero_add _).symm⟩

theorem drop_accounts (acc : l.arena.Accounts room (rest + h.reserved)) :
    (h.drop l).arena.Accounts room rest :=
  Object.drop_accounts (o := .handle h) acc

end Handle

/-! ## Columns and cells -/

section Cell

variable {l l' : Ledger} {room : Option Nat} {rest : Nat}

/-- A cell is accounted for beside the column it was made of. -/
theorem Cell.wrap_accounts {d : Descriptor} {c : HeldColumn} {options : CellOptions}
    {result : Except CellError Cell} (acc : l.arena.Accounts room rest)
    (wrapped : Cell.wrap d c options l = (result, l')) :
    l'.arena.Accounts room (rest + resultBytes Cell.reserved result) := by
  unfold Cell.wrap at wrapped
  split at wrapped
  · cases wrapped
    exact acc
  · dsimp only at wrapped
    split at wrapped
    · cases wrapped
      exact acc
    · split at wrapped
      · rename_i refused
        cases wrapped
        rw [Reservation.resize_error_arena refused]
        exact acc
      · rename_i acquired
        cases wrapped
        have held := Reservation.acquire_accounts acc acquired
        exact held

end Cell

namespace Encoder

variable {α : Type u} [Footprint α] {codec : Codec α} {batch : Batch α} {l l' : Ledger}
variable {room : Option Nat} {rest : Nat}

theorem fill_accounts (codec : Codec α) (values : List α) (rest : Nat) {h : Handle}
    (acc : l.arena.Accounts room (rest + h.reserved)) :
    (fill codec values h l).2.2.arena.Accounts room
      (rest + (fill codec values h l).2.1.reserved) := by
  unfold fill
  split
  · exact acc
  · exact Handle.append_accounts _ acc

/-- Only the column of a batch is left in the arena, and nothing if there is none. -/
theorem encode_accounts {result : Except CellError HeldColumn} (acc : l.arena.Accounts room rest)
    (encoded : encode codec batch l = (result, l')) :
    l'.arena.Accounts room (rest + resultBytes HeldColumn.reserved result) := by
  unfold encode at encoded
  cases read : batch.values with
  | error fault =>
    rw [read] at encoded
    cases encoded
    exact acc
  | ok values =>
    rw [read] at encoded
    simp only [Handle.acquire] at encoded
    have filled := fill_accounts codec values rest
      (h := ⟨codec.descriptor, codec.newBuilder, .building .empty⟩)
      (l := l.report (.acquired codec.name values.length)) acc
    split at encoded
    · rename_i failed
      rw [failed] at filled
      cases encoded
      exact Handle.drop_accounts filled
    · rename_i h l₁ done
      rw [done] at filled
      rcases finished : h.finalize l₁ with ⟨result, h', l₂⟩
      rw [finished] at encoded
      cases encoded
      obtain ⟨same, moved⟩ := Handle.finalize_moves finished
      apply Handle.drop_accounts
      rw [same]
      have order : rest + resultBytes HeldColumn.reserved result + h'.reserved =
          rest + h.reserved := by omega
      rw [order]
      exact filled

/-- Only the cell is left in the arena: the column is held until the cell is made. -/
theorem toCell_accounts {options : CellOptions} {result : Except CellError Cell}
    (acc : l.arena.Accounts room rest) (made : toCell codec batch options l = (result, l')) :
    l'.arena.Accounts room (rest + resultBytes Cell.reserved result) := by
  unfold toCell at made
  split at made
  · rename_i failed
    cases made
    exact encode_accounts acc failed
  · rename_i c l₁ encoded
    have held := encode_accounts acc encoded
    rcases wrapped : Cell.wrap codec.descriptor c options l₁ with ⟨result, l₂⟩
    rw [wrapped] at made
    cases made
    have both := Cell.wrap_accounts held wrapped
    apply Reservation.release_accounts
    have order : rest + resultBytes Cell.reserved result + c.held.size =
        rest + resultBytes HeldColumn.reserved (.ok c) + resultBytes Cell.reserved result := by
      simp only [resultBytes, Except.toOption, Option.map_some, Option.getD_some,
        HeldColumn.reserved]
      omega
    rw [order]
    exact both

end Encoder

end TypedColumns
