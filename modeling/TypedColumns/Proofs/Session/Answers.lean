import TypedColumns.Proofs.Session.Slices

/-!
# Operations on a slice of a session

An operation on the names of some owners, which asks for no arena but theirs, returns the same in
the session and in their slice of it, and leaves a slice of what the session has become. So what it
returns depends on the owners' own objects and on the arenas they use, and of a tracking arena it
depends on nothing at all.

An outcome also shows the arena of a new object at the moment it was made. That is not what the
operation returns to its caller, and is left out of `Returned`.
-/

namespace TypedColumns.Session

variable {n : Nat}

/-- What an operation returns to its caller. -/
inductive Returned
  | done
  | made (object : Object)
  | appended (handle : Handle) (result : Except CellError Unit)
  | finalized (handle : Handle) (result : Except CellError HeldColumn)
  | sized (size : Nat)
  | parts (name : String) (buffer : Bytes)

def Outcome.returned : Outcome → Returned
  | .done => .done
  | .made object _ => .made object
  | .appended h result => .appended h result
  | .finalized h result => .finalized h (result.map Prod.fst)
  | .sized size => .sized size
  | .parts name buffer => .parts name buffer

def returned (answer : Answer n) : Except Fault Returned := answer.1.map Outcome.returned

/-- All names that an operation is on: that of the object it works with, and that under which it
keeps a new one. -/
def Op.names : Op n → List String
  | @Op.acquire _ _ _ _ _ _ target => [target]
  | @Op.append _ _ _ _ _ name => [name]
  | @Op.appendNull _ _ _ _ name => [name]
  | .finalize name target => [name, target]
  | @Op.encode _ _ _ _ _ _ target => [target]
  | @Op.toCell _ _ _ _ _ _ _ target => [target]
  | .wrap _ _ name target => [name, target]
  | .clone name target => [name, target]
  | .intoPlain name target => [name, target]
  | .intoParts name => [name]
  | .ofParts _ _ target => [target]
  | .reserve _ _ target => [target]
  | .grow _ name => [name]
  | .resize _ name => [name]
  | .growArena _ _ => []
  | .shrinkArena _ _ => []
  | .drop name => [name]

/-- The arena that an operation asks for. A cell received from elsewhere is kept with the default
one. All other operations go to the arena of the object that they work with. -/
def Op.arena? : Op n → Option (Fin (n + 1))
  | @Op.acquire _ _ _ _ _ arena _ => arena
  | @Op.encode _ _ _ _ _ arena _ => some arena
  | @Op.toCell _ _ _ _ _ _ arena _ => some arena
  | .ofParts _ _ _ => some defaultArena
  | .reserve _ arena _ => some arena
  | .growArena _ arena => some arena
  | .shrinkArena _ arena => some arena
  | _ => none

/-- The same is returned, and there is a slice afterwards. -/
def Scope.Agree (σ : Scope n) (before : Session n) (x y : Answer n) : Prop :=
  returned x = returned y ∧ Slice σ before x.2 y.2

namespace Slice

variable {σ : Scope n} {before s t : Session n} {name target : String} {a : Fin (n + 1)}

/-! ## Making objects -/

theorem make (slice : Slice σ before s t) (given : σ.own target = true) (used : σ.uses a)
    {x y : Except CellError Object × Ledger} (agree : Ledger.Agree (σ.room a) (σ.exact a) x y) :
    σ.Agree before (s.make target a x) (t.make target a y) := by
  obtain ⟨result, l, m, rfl, rfl, alike⟩ := agree
  have settled := slice.settle used alike
  cases result with
  | error e => exact ⟨rfl, settled⟩
  | ok object => exact ⟨rfl, settled.keep given used object⟩

/-! ## Operations -/

section

variable {α : Type} [Footprint α]

theorem acquire (slice : Slice σ before s t) (given : σ.own target = true)
    {arena : Option (Fin (n + 1))} (used : ∀ a, arena = some a → σ.uses a) (codec : Codec α)
    (capacity : Nat) :
    σ.Agree before (s.acquire codec capacity arena target)
      (t.acquire codec capacity arena target) := by
  cases arena with
  | none => exact ⟨rfl, slice⟩
  | some a => exact slice.make given (used a rfl) ⟨_, _, _, rfl, rfl, slice.ledgers a⟩

theorem append (slice : Slice σ before s t) (given : σ.own name = true) (codec : Codec α)
    (batch : Batch α) :
    σ.Agree before (s.append codec batch name) (t.append codec batch name) := by
  unfold Session.append
  rw [slice.find? given]
  split
  · rename_i owners h a found
    have used := slice.uses_of_find? given found
    obtain ⟨result, h', l, m, appended, appended', after⟩ :=
      Handle.append_agree (σ.clear used) (slice.ledgers a) codec batch h
    simp only [appended, appended']
    exact ⟨rfl, (slice.settle used after).update given _⟩
  · exact ⟨rfl, slice⟩

theorem appendNull (slice : Slice σ before s t) (given : σ.own name = true) (codec : Codec α) :
    σ.Agree before (s.appendNull codec name) (t.appendNull codec name) := by
  unfold Session.appendNull
  rw [slice.find? given]
  split
  · exact ⟨rfl, slice.update given _⟩
  · exact ⟨rfl, slice⟩

theorem encode (slice : Slice σ before s t) (given : σ.own target = true) (used : σ.uses a)
    (codec : Codec α) (batch : Batch α) :
    σ.Agree before (s.encode codec batch a target) (t.encode codec batch a target) :=
  slice.make given used <|
    (Encoder.encode_agree (σ.clear used) (slice.ledgers a) codec batch).map _

theorem toCell (slice : Slice σ before s t) (given : σ.own target = true) (used : σ.uses a)
    (codec : Codec α) (batch : Batch α) (options : CellOptions) :
    σ.Agree before (s.toCell codec batch options a target)
      (t.toCell codec batch options a target) :=
  slice.make given used <|
    (Encoder.toCell_agree (σ.clear used) (slice.ledgers a) codec batch options).map _

end

theorem finalize (slice : Slice σ before s t) (given : σ.own name = true)
    (given' : σ.own target = true) :
    σ.Agree before (s.finalize name target) (t.finalize name target) := by
  unfold Session.finalize
  rw [slice.find? given]
  split
  · rename_i owners h a found
    have used := slice.uses_of_find? given found
    obtain ⟨result, h', l, m, finished, finished', after⟩ :=
      Handle.finalize_agree (slice.ledgers a) h
    simp only [finished, finished']
    have updated := (slice.settle used after).update given (.handle h')
    cases result with
    | error e => exact ⟨rfl, updated⟩
    | ok column => exact ⟨rfl, updated.keep given' used (.column column)⟩
  · exact ⟨rfl, slice⟩

theorem wrap (slice : Slice σ before s t) (given : σ.own name = true)
    (given' : σ.own target = true) (d : Descriptor) (options : CellOptions) :
    σ.Agree before (s.wrap d options name target) (t.wrap d options name target) := by
  unfold Session.wrap
  rw [slice.find? given]
  split
  · rename_i owners c a found
    have used := slice.uses_of_find? given found
    have wrapped := Cell.wrap_agree (σ.clear used) (slice.ledgers a) d c options
    exact slice.make given' used (wrapped.map _)
  · exact ⟨rfl, slice⟩

theorem clone (slice : Slice σ before s t) (given : σ.own name = true)
    (given' : σ.own target = true) :
    σ.Agree before (s.clone name target) (t.clone name target) := by
  unfold Session.clone
  rw [slice.find? given]
  split
  · exact ⟨rfl, slice.share given given'⟩
  · exact ⟨rfl, slice.share given given'⟩
  · exact ⟨rfl, slice⟩

theorem intoPlain (slice : Slice σ before s t) (given : σ.own name = true)
    (given' : σ.own target = true) :
    σ.Agree before (s.intoPlain name target) (t.intoPlain name target) := by
  unfold Session.intoPlain
  rw [slice.find? given]
  split
  · rename_i owners c a found
    have used := slice.uses_of_find? given found
    have released := slice.release given
    exact released.make given' used ⟨_, _, _, rfl, rfl, released.ledgers a⟩
  · exact ⟨rfl, slice⟩

theorem intoParts (slice : Slice σ before s t) (given : σ.own name = true) :
    σ.Agree before (s.intoParts name) (t.intoParts name) := by
  unfold Session.intoParts
  rw [slice.find? given]
  split
  · exact ⟨rfl, slice.release given⟩
  · exact ⟨rfl, slice⟩

theorem ofParts (slice : Slice σ before s t) (given : σ.own target = true)
    (used : σ.uses defaultArena) (name : String) (buffer : Bytes) :
    σ.Agree before (s.ofParts name buffer target) (t.ofParts name buffer target) :=
  slice.make given used ⟨_, _, _, rfl, rfl, slice.ledgers defaultArena⟩

theorem reserve (slice : Slice σ before s t) (given : σ.own target = true) (used : σ.uses a)
    (size : Nat) : σ.Agree before (s.reserve size a target) (t.reserve size a target) :=
  slice.make given used <|
    ((Reservation.acquire_agree (σ.clear used) (slice.ledgers a) size).map _).map _

/-- Of a change of size, all that matters is that it does the same on arenas that are alike. -/
theorem adjust (slice : Slice σ before s t) (given : σ.own name = true)
    {change : Reservation → Ledger → Except Refusal Reservation × Ledger}
    (agree : ∀ {room exact l m}, exact ∨ room = none → l.arena.Alike room exact m.arena →
      ∀ r, Ledger.Agree room exact (change r l) (change r m)) :
    σ.Agree before (s.adjust name change) (t.adjust name change) := by
  unfold Session.adjust
  rw [slice.find? given]
  split
  · rename_i owners r a found
    have used := slice.uses_of_find? given found
    obtain ⟨result, l, m, changed, changed', after⟩ := agree (σ.clear used) (slice.ledgers a) r
    have settled := slice.settle used after
    rw [changed, changed']
    cases result with
    | error refusal => exact ⟨rfl, settled⟩
    | ok r => exact ⟨rfl, settled.update given _⟩
  · exact ⟨rfl, slice⟩

theorem growArena (slice : Slice σ before s t) (used : σ.uses a) (bytes : Nat) :
    σ.Agree before (s.growArena bytes a) (t.growArena bytes a) := by
  unfold Session.growArena
  obtain ⟨result, l, m, charged, charged', after⟩ :=
    Ledger.charge_agree (σ.clear used) (slice.ledgers a) bytes
  have settled := slice.settle used after
  rw [charged, charged']
  cases result with
  | error refusal => exact ⟨rfl, settled⟩
  | ok _ => exact ⟨rfl, settled⟩

theorem drop (slice : Slice σ before s t) (given : σ.own name = true) :
    σ.Agree before (s.drop name) (t.drop name) := by
  unfold Session.drop
  rw [slice.find? given]
  split
  · exact ⟨rfl, slice.release given⟩
  · exact ⟨rfl, slice⟩

/-- One operation of the given owners, on the session and on their slice of it. -/
theorem run (slice : Slice σ before s t) {op : Op n}
    (given : ∀ name ∈ op.names, σ.own name = true) (used : ∀ a, op.arena? = some a → σ.uses a) :
    σ.Agree before (s.run op) (t.run op) := by
  cases op with
  | acquire codec capacity arena target =>
    exact slice.acquire (given target (.head _)) used codec capacity
  | append codec batch name => exact slice.append (given name (.head _)) codec batch
  | appendNull codec name => exact slice.appendNull (given name (.head _)) codec
  | finalize name target =>
    exact slice.finalize (given name (.head _)) (given target (.tail _ (.head _)))
  | encode codec batch a target =>
    exact slice.encode (given target (.head _)) (used a rfl) codec batch
  | toCell codec batch options a target =>
    exact slice.toCell (given target (.head _)) (used a rfl) codec batch options
  | wrap d options name target =>
    exact slice.wrap (given name (.head _)) (given target (.tail _ (.head _))) d options
  | clone name target =>
    exact slice.clone (given name (.head _)) (given target (.tail _ (.head _)))
  | intoPlain name target =>
    exact slice.intoPlain (given name (.head _)) (given target (.tail _ (.head _)))
  | intoParts name => exact slice.intoParts (given name (.head _))
  | ofParts name buffer target =>
    exact slice.ofParts (given target (.head _)) (used _ rfl) name buffer
  | reserve size a target =>
    exact slice.reserve (given target (.head _)) (used a rfl) size
  | grow bytes name =>
    exact slice.adjust (given name (.head _)) fun clear alike r =>
      Reservation.grow_agree clear alike r bytes
  | resize size name =>
    exact slice.adjust (given name (.head _)) fun clear alike r =>
      Reservation.resize_agree clear alike r size
  | growArena bytes a => exact slice.growArena (used a rfl) bytes
  | shrinkArena bytes a =>
    exact ⟨rfl, slice.settle (used a rfl) ((slice.arenas a).shrink bytes)⟩
  | drop name => exact slice.drop (given name (.head _))

end Slice

end TypedColumns.Session
