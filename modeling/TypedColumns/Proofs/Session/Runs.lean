import TypedColumns.Codec.Flat
import TypedColumns.Proofs.Session.Operations

/-!
# What the arenas of a session account for

The balance holds after any run of operations on behalf of owners, and a session that is closed
leaves its arenas as it found them. The two operations on an arena itself, `growArena` and
`shrinkArena`, take and give back bytes for nobody, and are left out.

The second half says who shares what: a copy is one more owner of the same object, a finished column
takes over what its handle held, and an object's bytes go back to the arena with its last owner.
-/

namespace TypedColumns

namespace Holding

variable {n : Nat}

/-- A name that owns nothing can be let go without any change. -/
theorem leave_absent {name : String} {hs : List (Holding n)} (absent : find? name hs = none) :
    leave name hs = (none, hs) := by
  induction hs with
  | nil => rfl
  | cons k ks ih =>
    by_cases owned : k.owns name
    · simp [find?, owned] at absent
    · have rest := ih (by simpa [find?, owned] using absent)
      simp only [leave, owned, Bool.false_eq_true, if_false, rest]

/-- One more owner finds the object that the others find. -/
theorem find?_alter_owner {name other : String} {h : Holding n} {hs : List (Holding n)}
    (found : find? name hs = some h) (absent : find? other hs = none) :
    find? other (alter name (fun h => { h with owners := other :: h.owners }) hs) =
      some { h with owners := other :: h.owners } := by
  induction hs with
  | nil => simp [find?] at found
  | cons k ks ih =>
    have here : k.owns other = false := by
      by_cases owned : k.owns other
      · simp [find?, owned] at absent
      · simpa using owned
    by_cases owned : k.owns name
    · obtain rfl : k = h := by simpa [find?, owned] using found
      simp only [alter, owned, if_true, find?, List.find?_cons]
      simp [owns]
    · have rest := ih (by simpa [find?, owned] using found) (by simpa [find?, here] using absent)
      simp only [alter, owned, Bool.false_eq_true, if_false, find?, List.find?_cons, here]
      exact rest

/-- A new object takes no other object's place. -/
theorem find?_alter_object {name other : String} {object : Object} {hs : List (Holding n)}
    (absent : find? other hs = none) :
    find? other (alter name (fun h => { h with object }) hs) = none := by
  induction hs with
  | nil => rfl
  | cons k ks ih =>
    have here : k.owns other = false := by
      by_cases owned : k.owns other
      · simp [find?, owned] at absent
      · simpa using owned
    have rest := ih (by simpa [find?, here] using absent)
    by_cases owned : k.owns name
    · have same : ({ k with object } : Holding n).owns other = k.owns other := rfl
      simp only [alter, owned, if_true, find?, List.find?_cons, same, here]
      simpa [find?, here] using absent
    · simp only [alter, owned, Bool.false_eq_true, if_false, find?, List.find?_cons, here]
      exact rest

end Holding

namespace Session

variable {n : Nat} {room : Fin (n + 1) → Option Nat} {s : Session n}

/-! ## Runs -/

/-- All operations are on behalf of an owner but for the two on an arena itself. -/
def Op.onBehalf : Op n → Bool
  | .growArena _ _ => false
  | .shrinkArena _ _ => false
  | _ => true

/-- One operation keeps the balance, also when it fails. -/
theorem Kept.run (kept : s.Kept room) {op : Op n} (owned : op.onBehalf = true) :
    (s.run op).2.Kept room := by
  cases op with
  | acquire codec capacity arena target => exact kept.acquire codec capacity arena target
  | append codec batch name => exact kept.append codec batch name
  | appendNull codec name => exact kept.appendNull codec name
  | finalize name target => exact kept.finalize name target
  | encode codec batch a target => exact kept.encode codec batch a target
  | toCell codec batch options a target => exact kept.toCell codec batch options a target
  | wrap d options name target => exact kept.wrap d options name target
  | clone name target => exact kept.clone name target
  | intoPlain name target => exact kept.intoPlain name target
  | intoParts name => exact kept.intoParts name
  | ofParts name buffer target => exact kept.ofParts name buffer target
  | reserve size a target => exact kept.reserve size a target
  | grow bytes name =>
    exact kept.adjust name Reservation.grow_accounts Reservation.grow_error_arena
  | resize size name =>
    exact kept.adjust name Reservation.resize_accounts Reservation.resize_error_arena
  | growArena bytes a => cases owned
  | shrinkArena bytes a => cases owned
  | drop name => exact kept.drop name

/-- So does a run of them. -/
theorem Kept.runAll (kept : s.Kept room) {ops : List (Op n)}
    (owned : ∀ op ∈ ops, op.onBehalf = true) : (s.runAll ops).Kept room := by
  induction ops generalizing s with
  | nil => exact kept
  | cons op ops ih =>
    have next := kept.run (owned op List.mem_cons_self)
    exact ih next fun op mem => owned op (List.mem_cons_of_mem _ mem)

/-- An arena that nobody has used yet. A capacity is a number that the counter can show. -/
def Unused (a : Arena) : Prop :=
  a.allocated = 0 ∧ ∀ c, a.capacity = some c → c < counterRange

theorem Unused.accounts {a : Arena} (unused : Unused a) : a.Accounts a.capacity 0 := by
  obtain ⟨none, range⟩ := unused
  rcases a with ⟨_ | c, allocated⟩
  · obtain rfl : allocated = 0 := none
    rfl
  · obtain rfl : allocated = 0 := none
    exact ⟨rfl, Nat.zero_le c, range c rfl⟩

theorem unused_tracking : Unused .tracking := ⟨rfl, fun _ none => by cases none⟩

/-- The room in the arenas of a session that starts with the given ones. -/
def limits (arenas : Vector Arena n) (a : Fin (n + 1)) : Option Nat :=
  ((start arenas).arenas.get a).capacity

theorem kept_start {arenas : Vector Arena n} (unused : ∀ a : Fin n, Unused (arenas.get a)) :
    (start arenas).Kept (limits arenas) := by
  refine ⟨?_, ⟨List.nodup_nil, fun h mem => by cases mem⟩⟩
  intro a
  have fresh : Unused ((start arenas).arenas.get a) := by
    change Unused (arenas.push .tracking)[a]
    simp only [Fin.getElem_fin, Vector.getElem_push]
    split
    · rename_i given
      exact unused ⟨a, given⟩
    · exact unused_tracking
  exact fresh.accounts

/-- Letting go of every name leaves nothing. -/
theorem Kept.close (kept : s.Kept room) : s.close.Kept room ∧ s.close.holdings = [] := by
  have all : ∀ (names : List String) (s : Session n), s.Kept room →
      Holding.names s.holdings = names →
      (names.foldl Session.release s).Kept room ∧
        Holding.names (names.foldl Session.release s).holdings = [] := by
    intro names
    induction names with
    | nil => exact fun s kept none => ⟨kept, none⟩
    | cons name names ih =>
      intro s kept same
      refine ih (s.release name) (kept.release name) ?_
      rw [holdings_release, Holding.names_leave, same, List.erase_cons_head]
  obtain ⟨closed, none⟩ := all s.names s kept rfl
  refine ⟨closed, ?_⟩
  rcases left : s.close.holdings with _ | ⟨h, hs⟩
  · rfl
  · have owners : h.owners ≠ [] :=
      closed.owned.owners_ne_nil h (left ▸ List.mem_cons_self)
    have nobody : h.owners ++ Holding.names hs = [] := by
      rw [← Holding.names_cons, ← left]
      exact none
    exact absurd (List.append_eq_nil_iff.1 nobody).1 owners

/-! ## Owners and what they share -/

/-- Letting go of a name that owns nothing does nothing. -/
theorem release_absent {name : String} (absent : s.find? name = none) : s.release name = s := by
  unfold release
  rw [Holding.leave_absent absent]

/-- The last owner's leaving takes just the object's bytes off what is held. -/
theorem heldIn_release_last {name : String} {h : Holding (n + 1)}
    (found : s.find? name = some h) (last : h.owners.erase name = []) (a : Fin (n + 1)) :
    (s.release name).heldIn a + h.bytesIn a = s.heldIn a := by
  have total := Holding.total_leave a name s.holdings
  rw [Holding.leave_eq found, if_pos last] at total
  rw [heldIn, holdings_release]
  exact total

/-- While others own the object, an owner's leaving changes nothing in any arena. -/
theorem release_shared {name : String} {h : Holding (n + 1)} (found : s.find? name = some h)
    (others : h.owners.erase name ≠ []) :
    (s.release name).arenas = s.arenas ∧ ∀ a, (s.release name).heldIn a = s.heldIn a := by
  have left := Holding.leave_eq found
  rw [if_neg others] at left
  constructor
  · unfold release
    rcases gone : Holding.leave name s.holdings with ⟨_ | _, _⟩
    · rfl
    · rw [gone] at left
      cases left
  · intro a
    have total := Holding.total_leave a name s.holdings
    rw [left] at total
    rw [heldIn, holdings_release]
    exact total

/-- What a session's arenas account for: the objects of the session, each of them once. -/
structure Accounted (room : Fin (n + 1) → Option Nat) (s : Session n) : Prop where
  /-- A tracking arena counts right as long as the sum does not exceed the counter. -/
  allocated : ∀ a, (room a = none → s.heldIn a < counterRange) →
    (s.arenas.get a).allocated = s.heldIn a
  capacity : ∀ a, (s.arenas.get a).capacity = room a
  within : ∀ a c, room a = some c → s.heldIn a ≤ c
  nodup : s.names.Nodup
  owners : ∀ h ∈ s.holdings, h.owners ≠ []
  /-- A finished column takes over what its handle held, and a failed `finalize` keeps it there. -/
  finalize : ∀ {name target}, s.find? target = none →
    ∀ a, (s.run (.finalize name target)).2.heldIn a = s.heldIn a
  /-- A copy is one more owner of the same object. -/
  clone : ∀ {name target outcome}, (s.run (.clone name target)).1 = .ok outcome →
    s.find? target = none → ∃ h, s.find? name = some h ∧
      (s.run (.clone name target)).2.find? target = some { h with owners := target :: h.owners } ∧
      ∀ a, (s.run (.clone name target)).2.heldIn a = s.heldIn a
  /-- Taking the plain column out gives up one share, and so does taking a cell apart. -/
  intoPlain : ∀ {name target outcome}, (s.run (.intoPlain name target)).1 = .ok outcome →
    s.find? target = none →
    ∀ a, (s.run (.intoPlain name target)).2.heldIn a = (s.release name).heldIn a
  intoParts : ∀ {name outcome}, (s.run (.intoParts name)).1 = .ok outcome →
    (s.run (.intoParts name)).2 = s.release name
  drop : ∀ {name h}, s.find? name = some h → (s.run (.drop name)).2 = s.release name
  last : ∀ {name h}, s.find? name = some h → h.owners = [name] →
    ∀ a, (s.release name).heldIn a + h.bytesIn a = s.heldIn a
  shared : ∀ {name h}, s.find? name = some h → h.owners ≠ [name] →
    (s.release name).arenas = s.arenas ∧ ∀ a, (s.release name).heldIn a = s.heldIn a
  close : s.close.holdings = [] ∧ ∀ a : Fin (n + 1), (s.close.arenas.get a).allocated = 0

theorem erase_eq_nil_iff {name : String} {owners : List String} (owner : name ∈ owners) :
    owners.erase name = [] ↔ owners = [name] := by
  constructor
  · intro none
    have length := List.length_erase_of_mem owner
    rw [none, List.length_nil] at length
    have positive := List.length_pos_of_mem owner
    have one : owners.length = 1 := by omega
    obtain ⟨only, rfl⟩ := List.length_eq_one_iff.1 one
    rw [List.mem_singleton.1 owner]
  · rintro rfl
    exact List.erase_cons_head name []

/-- Keeping an object under a free name adds what it holds. -/
theorem heldIn_keep_absent {target : String} (absent : s.find? target = none) (object : Object)
    (arena a : Fin (n + 1)) :
    (s.keep target object arena).heldIn a = s.heldIn a + holds object arena a := by
  rw [heldIn_keep, release_absent absent, bytesIn_eq]

theorem find?_release_absent {name target : String} (absent : s.find? target = none) :
    (s.release name).find? target = none := by
  unfold find? Holding.find? at absent ⊢
  rw [List.find?_eq_none] at absent ⊢
  intro h mem owner
  rw [holdings_release] at mem
  have listed : target ∈ Holding.names (Holding.leave name s.holdings).2 :=
    List.mem_flatMap.2 ⟨h, mem, Holding.owns_iff.1 owner⟩
  rw [Holding.names_leave] at listed
  obtain ⟨k, held, owns⟩ := List.mem_flatMap.1 (List.mem_of_mem_erase listed)
  exact absent k held (Holding.owns_iff.2 owns)

theorem heldIn_finalize {target : String} (absent : s.find? target = none) (name : String)
    (a : Fin (n + 1)) : (s.finalize name target).2.heldIn a = s.heldIn a := by
  unfold finalize
  split
  · rename_i owners h b found
    rcases finished : h.finalize (s.ledger b) with ⟨result, h', l⟩
    obtain ⟨-, moved⟩ := Handle.finalize_moves finished
    dsimp only
    have still : (s.settle b l).find? name = some ⟨owners, .handle h, b⟩ := found
    have total := heldIn_update still (.handle h') a
    have placed : Holding.bytesIn a ({ (⟨owners, .handle h, b⟩ : Holding (n + 1)) with
        object := .handle h' }) = holds (.handle h') b a := rfl
    rw [placed, bytesIn_eq, heldIn_settle] at total
    cases result with
    | error e =>
      have all : h.reserved = h'.reserved := moved
      simp only [holds, Object.bytes_handle, all] at total
      exact Nat.add_right_cancel total
    | ok column =>
      have all : h.reserved = h'.reserved + column.reserved := moved
      have free : ((s.settle b l).update name (.handle h')).find? target = none :=
        Holding.find?_alter_object absent
      dsimp only
      rw [heldIn_keep_absent free]
      simp only [holds, Object.bytes_handle, Object.bytes_column] at total ⊢
      split
      · rename_i here
        rw [if_pos here, if_pos here] at total
        omega
      · rename_i elsewhere
        rw [if_neg elsewhere, if_neg elsewhere] at total
        omega
  · rfl

theorem heldIn_intoPlain {name target : String} (absent : s.find? target = none)
    {outcome : Outcome} (taken : (s.intoPlain name target).1 = .ok outcome) (a : Fin (n + 1)) :
    (s.intoPlain name target).2.heldIn a = (s.release name).heldIn a := by
  unfold intoPlain at taken ⊢
  split
  · rename_i owners c b found
    have free : ((s.release name).settle b ((s.release name).ledger b)).find? target = none :=
      find?_release_absent absent
    change (Session.keep _ target (.plain c.column) b).heldIn a = _
    rw [heldIn_keep_absent free]
    simp only [holds, Object.bytes, Object.held?, Option.map_none, Option.getD_none, ite_self,
      Nat.add_zero, heldIn_settle]
  · split at taken
    · rename_i other _ _ _ _ found
      exact absurd found (other _ _ _)
    · cases taken

theorem heldIn_share {name target : String} (absent : s.find? target = none) (a : Fin (n + 1)) :
    (s.share name target).heldIn a = s.heldIn a := by
  unfold share
  split
  · rfl
  · rw [release_absent absent]
    simp only [heldIn, Holding.total_alter_owner]

theorem find?_share {name target : String} {h : Holding (n + 1)} (found : s.find? name = some h)
    (absent : s.find? target = none) :
    (s.share name target).find? target = some { h with owners := target :: h.owners } := by
  have other : target ≠ name := by
    rintro rfl
    rw [found] at absent
    cases absent
  unfold share
  rw [if_neg other, release_absent absent]
  exact Holding.find?_alter_owner found absent

/-- In every state that a session reaches, each arena accounts for just what the objects hold in it,
and copies of one object hold it together. A handle's share moves on with the column it gives, and
comes back to the arena, once, when the last owner leaves. -/
theorem accounted_of_runAll (arenas : Vector Arena n) (unused : ∀ a : Fin n, Unused (arenas.get a))
    (ops : List (Op n)) (owned : ∀ op ∈ ops, op.onBehalf = true) :
    Accounted (limits arenas) ((start arenas).runAll ops) := by
  have kept := (kept_start unused).runAll owned
  obtain ⟨closed, none⟩ := kept.close
  refine
    { allocated := fun a range => (kept.accounts a).allocated range
      capacity := fun a => (kept.accounts a).capacity
      within := ?within
      nodup := kept.owned.nodup
      owners := kept.owned.owners_ne_nil
      finalize := fun absent a => heldIn_finalize absent _ a
      clone := ?clone
      intoPlain := fun taken absent a => heldIn_intoPlain absent taken a
      intoParts := ?intoParts
      drop := ?drop
      last := ?last
      shared := ?shared
      close := ⟨none, ?close⟩ }
  case within =>
    intro a c bounded
    have acc := kept.accounts a
    rw [bounded] at acc
    exact acc.2.1
  case clone =>
    intro name target outcome copied absent
    simp only [run, clone] at copied ⊢
    split at copied
    · rename_i owners c b found
      simp only [found]
      exact ⟨_, rfl, find?_share found absent, heldIn_share absent⟩
    · rename_i owners c b found
      simp only [found]
      exact ⟨_, rfl, find?_share found absent, heldIn_share absent⟩
    · cases copied
  case intoParts =>
    intro name outcome taken
    simp only [run, intoParts] at taken ⊢
    split at taken
    · rfl
    · cases taken
  case drop =>
    intro name h found
    simp only [run, drop, found]
  case last =>
    intro name h found only a
    exact heldIn_release_last found ((erase_eq_nil_iff (owns_of_find? found)).2 only) a
  case shared =>
    intro name h found others
    exact release_shared found fun last => others ((erase_eq_nil_iff (owns_of_find? found)).1 last)
  case close =>
    intro a
    have acc := closed.accounts a
    have nothing : ((start arenas).runAll ops).close.heldIn a = 0 := by
      rw [heldIn, none]
      rfl
    rw [nothing] at acc
    exact acc.allocated fun _ => by decide

/-- A batch that is too large for the arena, and a column that is copied and given away. -/
theorem accounted_of_copies :
    ∃ s : Session 1, s.names = ["copy", "column", "handle", "plain"] ∧ s.heldIn 0 = 8 ∧
      (s.arenas.get 0).allocated = 8 ∧ Accounted (limits #v[.bounded 16]) s := by
  let codec := Codec.number .int32
  let ops : List (Op 1) :=
    [.acquire codec 4 (some 0) "handle", .append codec (.ofList [1#32, 2#32]) "handle",
      .finalize "handle" "first", .clone "first" "column", .clone "first" "copy",
      .acquire codec 4 (some 0) "handle", .append codec (.ofList [1#32, 2#32, 3#32]) "handle",
      .intoPlain "first" "plain"]
  have unused : ∀ a : Fin 1, Unused ((#v[.bounded 16] : Vector Arena 1).get a) := by
    intro a
    obtain rfl : a = 0 := Subsingleton.elim a 0
    refine ⟨rfl, ?_⟩
    rintro c ⟨⟩
    decide
  have accounted := accounted_of_runAll #v[.bounded 16] unused ops (by simp [ops, Op.onBehalf])
  exact ⟨_, by decide +kernel, by decide +kernel, by decide +kernel, accounted⟩

end Session

end TypedColumns
