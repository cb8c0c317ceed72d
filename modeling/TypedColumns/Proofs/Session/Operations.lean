import TypedColumns.Proofs.Session.Balance

/-!
# Operations keep the balance of a session

Every operation that takes and gives back memory on behalf of an owner keeps the balance of a
session, whether it succeeds or fails. There is one lemma for each operation. Most operations end in
`make`, which keeps a new object or none; those that change an object in its place go through
`Kept.settle_update`.
-/

namespace TypedColumns

namespace Holding

variable {n : Nat}

/-- An owner more does not hold more. -/
@[simp] theorem total_alter_owner (a : Fin n) (name other : String) (hs : List (Holding n)) :
    total a (alter name (fun h => { h with owners := other :: h.owners }) hs) = total a hs := by
  induction hs with
  | nil => rfl
  | cons h hs ih =>
    by_cases owned : h.owns name
    · simp only [alter, owned, if_true, total_cons]
      rfl
    · simp only [alter, owned, Bool.false_eq_true, if_false, total_cons, ih]

theorem bytesIn_le_total (a : Fin n) {h : Holding n} {hs : List (Holding n)} (mem : h ∈ hs) :
    h.bytesIn a ≤ total a hs := by
  induction hs with
  | nil => cases mem
  | cons k ks ih =>
    rw [total_cons]
    rcases List.mem_cons.1 mem with rfl | mem
    · exact Nat.le_add_right _ _
    · exact Nat.le_trans (ih mem) (Nat.le_add_left _ _)

end Holding

namespace Session

variable {n : Nat} {room : Fin (n + 1) → Option Nat} {s : Session n}

/-- The holding that a name is found in is one of those held. -/
theorem mem_of_find? {name : String} {h : Holding (n + 1)} (found : s.find? name = some h) :
    h ∈ s.holdings :=
  List.mem_of_find?_eq_some found

theorem owns_of_find? {name : String} {h : Holding (n + 1)} (found : s.find? name = some h) :
    name ∈ h.owners := by
  have owns := List.find?_some found
  exact Holding.owns_iff.1 owns

theorem holdings_release (s : Session n) (name : String) :
    (s.release name).holdings = (Holding.leave name s.holdings).2 := by
  unfold release
  rcases Holding.leave name s.holdings with ⟨_ | _, _⟩
  · rfl
  · rfl

/-! ## Parts of operations -/

namespace Kept

theorem accounts (kept : s.Kept room) (a : Fin (n + 1)) :
    (s.ledger a).arena.Accounts (room a) (s.heldIn a) := by
  have acc := kept.balanced a
  rwa [Nat.zero_add] at acc

theorem release (kept : s.Kept room) (name : String) : (s.release name).Kept room := by
  refine ⟨kept.balanced.release name, ?_⟩
  rw [holdings_release]
  exact (kept.owned.leave name).1

/-- Memory that is neither taken nor given back on the whole leaves the balance. -/
theorem settle (kept : s.Kept room) {a : Fin (n + 1)} {l : Ledger}
    (acc : l.arena.Accounts (room a) (s.heldIn a)) : (s.settle a l).Kept room := by
  refine ⟨kept.balanced.settle (fun _ _ => rfl) ?_, kept.owned⟩
  rwa [Nat.zero_add]

/-- An object that changes in its place is in balance when the arena accounts for what it holds
afterwards and for what all others hold. -/
theorem settle_update (kept : s.Kept room) {name : String} {owners : List String} {old : Object}
    {a : Fin (n + 1)} (found : s.find? name = some ⟨owners, old, a⟩) {new : Object} {l : Ledger}
    (acc : ∀ rest, (s.ledger a).arena.Accounts (room a) (rest + old.bytes) →
      l.arena.Accounts (room a) (rest + new.bytes)) :
    ((s.settle a l).update name new).Kept room := by
  have total := heldIn_update found new a
  rw [bytesIn_eq, holds, if_pos rfl] at total
  have placed : Holding.bytesIn a ({ (⟨owners, old, a⟩ : Holding (n + 1)) with object := new }) =
      new.bytes := if_pos rfl
  rw [placed] at total
  -- what all other objects hold in the arena
  obtain ⟨rest, others⟩ : ∃ rest, s.heldIn a = rest + old.bytes := by
    have least := Holding.bytesIn_le_total a (mem_of_find? found)
    rw [bytesIn_eq, holds, if_pos rfl] at least
    change old.bytes ≤ s.heldIn a at least
    exact ⟨s.heldIn a - old.bytes, by omega⟩
  refine ⟨?_, kept.owned.alter_object name new⟩
  intro b
  rw [Nat.zero_add]
  by_cases here : a = b
  · subst here
    have after : ((s.settle a l).update name new).heldIn a = rest + new.bytes := by
      change (s.update name new).heldIn a = _
      omega
    rw [after]
    change ((s.settle a l).arenas.get a).Accounts _ _
    rw [arenas_settle, if_pos rfl]
    apply acc
    rw [← others]
    exact kept.accounts a
  · have elsewhere := heldIn_update found new b
    rw [bytesIn_eq, holds, if_neg here] at elsewhere
    have none : Holding.bytesIn b ({ (⟨owners, old, a⟩ : Holding (n + 1)) with object := new }) =
        0 := if_neg here
    rw [none] at elsewhere
    have after : ((s.settle a l).update name new).heldIn b = s.heldIn b := elsewhere
    rw [after]
    change ((s.settle a l).arenas.get b).Accounts _ _
    rw [arenas_settle, if_neg here]
    exact kept.accounts b

end Kept

/-- A new object is kept with the bytes that stood aside for it. -/
theorem Balanced.keep {object : Object} {arena : Fin (n + 1)}
    (balanced : s.Balanced room (holds object arena)) (owned : Holding.Owned s.holdings)
    (name : String) : (s.keep name object arena).Kept room := by
  have released := balanced.release name
  constructor
  · intro a
    have acc := released a
    have held : 0 + (s.keep name object arena).heldIn a =
        holds object arena a + (s.release name).heldIn a := by
      rw [heldIn_keep, bytesIn_eq]
      omega
    rw [held]
    exact acc
  · obtain ⟨others, free⟩ := owned.leave name
    rw [← holdings_release] at others free
    exact others.append free object arena

/-- An operation that makes an object leaves the arena with what the object holds, or with nothing
more if there is none. -/
theorem Kept.make (kept : s.Kept room) (name : String) {a : Fin (n + 1)}
    {result : Except CellError Object × Ledger}
    (acc : result.2.arena.Accounts (room a) (s.heldIn a + resultBytes Object.bytes result.1)) :
    (s.make name a result).2.Kept room := by
  rcases result with ⟨_ | object, l⟩
  · exact kept.settle acc
  · have aside : (s.settle a l).Balanced room (holds object a) := by
      refine kept.balanced.settle (fun b other => if_neg other) ?_
      rw [holds, if_pos rfl, Nat.add_comm]
      exact acc
    exact aside.keep kept.owned name

/-- Copies share what they hold. -/
theorem Kept.share (kept : s.Kept room) (name other : String) : (s.share name other).Kept room := by
  unfold Session.share
  split
  · exact kept
  · have released := kept.release other
    constructor
    · intro a
      have acc := released.balanced a
      simp only [heldIn, Holding.total_alter_owner]
      exact acc
    · refine released.owned.alter_owner ?_ name
      rw [holdings_release]
      exact (kept.owned.leave other).2

theorem resultBytes_asObject {α : Type} {f : α → Object} {bytes : α → Nat}
    (same : ∀ x, (f x).bytes = bytes x) (result : Except CellError α × Ledger) :
    resultBytes Object.bytes (asObject f result).1 = resultBytes bytes result.1 := by
  rcases result with ⟨_ | x, l⟩
  · rfl
  · exact same x

/-! ## Operations -/

namespace Kept

section

variable {α : Type} [Footprint α]

theorem acquire (kept : s.Kept room) (codec : Codec α) (capacity : Nat)
    (arena : Option (Fin (n + 1))) (target : String) :
    (s.acquire codec capacity arena target).2.Kept room := by
  cases arena with
  | none => exact kept
  | some a => exact kept.make target (kept.accounts a)

theorem append (kept : s.Kept room) (codec : Codec α) (batch : Batch α) (name : String) :
    (s.append codec batch name).2.Kept room := by
  unfold Session.append
  split
  · rename_i found
    exact kept.settle_update found fun _ acc => Handle.append_accounts batch acc
  · exact kept

theorem appendNull (kept : s.Kept room) (codec : Codec α) (name : String) :
    (s.appendNull codec name).2.Kept room := by
  unfold Session.appendNull
  split
  · rename_i owners h a found
    have same : ∀ b, 0 + holds (.handle (h.appendNull codec).2) a b =
        0 + Holding.bytesIn b ⟨owners, .handle h, a⟩ := by
      intro b
      rw [bytesIn_eq]
      simp only [holds, Object.bytes_handle, Handle.reserved_appendNull]
    exact ⟨kept.balanced.update found _ same, kept.owned.alter_object name _⟩
  · exact kept

theorem encode (kept : s.Kept room) (codec : Codec α) (batch : Batch α) (a : Fin (n + 1))
    (target : String) : (s.encode codec batch a target).2.Kept room := by
  apply kept.make
  rw [resultBytes_asObject Object.bytes_column]
  exact Encoder.encode_accounts (kept.accounts a) rfl

theorem toCell (kept : s.Kept room) (codec : Codec α) (batch : Batch α) (options : CellOptions)
    (a : Fin (n + 1)) (target : String) :
    (s.toCell codec batch options a target).2.Kept room := by
  apply kept.make
  rw [resultBytes_asObject Object.bytes_cell]
  exact Encoder.toCell_accounts (kept.accounts a) rfl

end

/-- What a handle held stands aside until the column it gave is kept. -/
theorem finalize (kept : s.Kept room) (name target : String) :
    (s.finalize name target).2.Kept room := by
  unfold Session.finalize
  split
  · rename_i owners h a found
    rcases finished : h.finalize (s.ledger a) with ⟨result, h', l⟩
    obtain ⟨same, moved⟩ := Handle.finalize_moves finished
    dsimp only
    have untouched : (s.settle a l).Kept room := by
      apply kept.settle
      rw [same]
      exact kept.accounts a
    have still : (s.settle a l).find? name = some ⟨owners, .handle h, a⟩ := found
    cases result with
    | error e =>
      have none : ∀ b,
          0 + holds (.handle h') a b = 0 + Holding.bytesIn b ⟨owners, .handle h, a⟩ := by
        intro b
        have all : h.reserved = h'.reserved := moved
        rw [bytesIn_eq]
        simp only [holds, Object.bytes_handle, all]
      exact ⟨untouched.balanced.update still _ none, untouched.owned.alter_object name _⟩
    | ok column =>
      have aside : ∀ b, holds (.column column) a b + holds (.handle h') a b =
          0 + Holding.bytesIn b ⟨owners, .handle h, a⟩ := by
        intro b
        have all : h.reserved = h'.reserved + column.reserved := moved
        rw [bytesIn_eq]
        simp only [holds, Object.bytes_handle, Object.bytes_column]
        split
        · omega
        · rfl
      have balanced := untouched.balanced.update still (.handle h') aside
      exact balanced.keep (untouched.owned.alter_object name _) target
  · exact kept

theorem wrap (kept : s.Kept room) (d : Descriptor) (options : CellOptions)
    (name target : String) : (s.wrap d options name target).2.Kept room := by
  unfold Session.wrap
  split
  · rename_i owners c a found
    apply kept.make
    rw [resultBytes_asObject Object.bytes_cell]
    exact Cell.wrap_accounts (kept.accounts a) rfl
  · exact kept

theorem clone (kept : s.Kept room) (name target : String) :
    (s.clone name target).2.Kept room := by
  unfold Session.clone
  split
  · exact kept.share name target
  · exact kept.share name target
  · exact kept

theorem intoPlain (kept : s.Kept room) (name target : String) :
    (s.intoPlain name target).2.Kept room := by
  unfold Session.intoPlain
  split
  · rename_i owners c a found
    have released := kept.release name
    exact released.make target (released.accounts a)
  · exact kept

theorem intoParts (kept : s.Kept room) (name : String) : (s.intoParts name).2.Kept room := by
  unfold Session.intoParts
  split
  · exact kept.release name
  · exact kept

theorem ofParts (kept : s.Kept room) (name : String) (buffer : Bytes) (target : String) :
    (s.ofParts name buffer target).2.Kept room :=
  kept.make target (kept.accounts defaultArena)

theorem reserve (kept : s.Kept room) (size : Nat) (a : Fin (n + 1)) (target : String) :
    (s.reserve size a target).2.Kept room := by
  apply kept.make
  have acc := kept.accounts a
  rcases acquired : Reservation.acquire size (s.ledger a) with ⟨refusal | r, l⟩
  · have same := Reservation.resize_error_arena acquired
    rw [← same] at acc
    exact acc
  · exact Reservation.acquire_accounts acc acquired

/-- A change of size either takes place or leaves the arena alone. -/
theorem adjust (kept : s.Kept room) (name : String)
    {change : Reservation → Ledger → Except Refusal Reservation × Ledger}
    (taken : ∀ {r r' l l' room rest}, l.arena.Accounts room (rest + r.size) →
      change r l = (.ok r', l') → l'.arena.Accounts room (rest + r'.size))
    (refused : ∀ {r l l' refusal}, change r l = (.error refusal, l') → l'.arena = l.arena) :
    (s.adjust name change).2.Kept room := by
  unfold Session.adjust
  split
  · rename_i owners r a found
    rcases changed : change r (s.ledger a) with ⟨refusal | r', l⟩
    · apply kept.settle
      have acc := kept.accounts a
      rw [← refused changed] at acc
      exact acc
    · have after : ∀ rest, (s.ledger a).arena.Accounts (room a) (rest + r.size) →
          l.arena.Accounts (room a) (rest + r'.size) := fun _ acc => taken acc changed
      exact kept.settle_update found after
  · exact kept

theorem drop (kept : s.Kept room) (name : String) : (s.drop name).2.Kept room := by
  unfold Session.drop
  split
  · exact kept.release name
  · exact kept

end Kept

end Session

end TypedColumns
