import TypedColumns.Holding

/-!
# What operations see of an arena

An operation asks an arena for room, and that is all it sees of the arena: whether it is refused,
and if so the two numbers of the refusal. A tracking arena refuses nothing. So an operation does the
same on any two tracking arenas, however much is allocated in them, and on any two arenas of the
same capacity with the same number of bytes allocated.

`Arena.Alike` relates two arenas of the same room, which have allocated the same if they are to be
exactly alike; there is one lemma for each operation on a ledger.
-/

namespace TypedColumns

universe u

/-- Two arenas of the given room; both have allocated the same if they are `exact`. -/
structure Arena.Alike (room : Option Nat) (exact : Prop) (a b : Arena) : Prop where
  left : a.capacity = room
  right : b.capacity = room
  allocated : exact → a.allocated = b.allocated

/-- The same result, and arenas that are alike after it. -/
def Ledger.Agree {β : Type u} (room : Option Nat) (exact : Prop) (x y : β × Ledger) : Prop :=
  ∃ r l m, x = (r, l) ∧ y = (r, m) ∧ l.arena.Alike room exact m.arena

namespace Arena.Alike

variable {room : Option Nat} {exact exact' : Prop} {a b : Arena}

theorem mono (alike : a.Alike room exact b) (weaker : exact' → exact) : a.Alike room exact' b :=
  ⟨alike.left, alike.right, fun h => alike.allocated (weaker h)⟩

theorem eq (alike : a.Alike room exact b) (h : exact) : a = b := by
  have capacity := alike.left.trans alike.right.symm
  have allocated := alike.allocated h
  cases a
  cases b
  cases capacity
  cases allocated
  rfl

/-- A request is granted or refused in both, unless they are bounded and not exactly alike. -/
theorem grow (alike : a.Alike room exact b) (clear : exact ∨ room = none) (n : Nat) :
    (∃ a' b', a.grow n = .ok a' ∧ b.grow n = .ok b' ∧ a'.Alike room exact b') ∨
      ∃ refusal, a.grow n = .error refusal ∧ b.grow n = .error refusal := by
  rcases clear with h | tracking
  · obtain rfl := alike.eq h
    cases grown : a.grow n with
    | ok a' =>
      have capacity := (grow_capacity grown).trans alike.left
      exact .inl ⟨a', a', rfl, rfl, capacity, capacity, fun _ => rfl⟩
    | error refusal => exact .inr ⟨refusal, rfl, rfl⟩
  · subst tracking
    refine .inl ⟨_, _, grow_tracking alike.left n, grow_tracking alike.right n, alike.left,
      alike.right, ?_⟩
    intro h
    rw [alike.allocated h]

theorem shrink (alike : a.Alike room exact b) (n : Nat) :
    (a.shrink n).Alike room exact (b.shrink n) := by
  refine ⟨alike.left, alike.right, ?_⟩
  intro h
  simp only [Arena.shrink, alike.allocated h]

end Arena.Alike

section

variable {room : Option Nat} {exact : Prop} {l m : Ledger}

theorem Ledger.Agree.map {β γ : Type u} {x y : β × Ledger} (agree : Agree room exact x y)
    (f : β → γ) : Agree room exact (Prod.map f id x) (Prod.map f id y) := by
  obtain ⟨result, l, m, rfl, rfl, after⟩ := agree
  exact ⟨f result, l, m, rfl, rfl, after⟩

/-! ## Reservations -/

theorem Ledger.charge_agree (clear : exact ∨ room = none)
    (alike : l.arena.Alike room exact m.arena) (n : Nat) :
    Agree room exact (l.charge n) (m.charge n) := by
  unfold charge
  rcases alike.grow clear n with ⟨a, b, grown, grown', after⟩ | ⟨refusal, refused, refused'⟩
  · rw [grown, grown']
    exact ⟨_, _, _, rfl, rfl, after⟩
  · rw [refused, refused']
    exact ⟨_, _, _, rfl, rfl, alike⟩

namespace Reservation

theorem grow_agree (clear : exact ∨ room = none) (alike : l.arena.Alike room exact m.arena)
    (r : Reservation) (n : Nat) : Ledger.Agree room exact (r.grow n l) (r.grow n m) := by
  unfold grow
  obtain ⟨result, l', m', charged, charged', after⟩ := Ledger.charge_agree clear alike n
  rw [charged, charged']
  cases result with
  | ok _ => exact ⟨_, _, _, rfl, rfl, after⟩
  | error refusal => exact ⟨_, _, _, rfl, rfl, after⟩

theorem resize_agree (clear : exact ∨ room = none) (alike : l.arena.Alike room exact m.arena)
    (r : Reservation) (size : Nat) :
    Ledger.Agree room exact (r.resize size l) (r.resize size m) := by
  unfold resize
  split
  · exact grow_agree clear alike r _
  · exact ⟨_, _, _, rfl, rfl, alike.shrink _⟩

theorem acquire_agree (clear : exact ∨ room = none) (alike : l.arena.Alike room exact m.arena)
    (size : Nat) : Ledger.Agree room exact (acquire size l) (acquire size m) :=
  resize_agree clear alike empty size

theorem release_alike (alike : l.arena.Alike room exact m.arena) (r : Reservation) :
    (r.release l).arena.Alike room exact (r.release m).arena := by
  unfold release
  split
  · exact alike.shrink r.size
  · exact alike

end Reservation

theorem Object.drop_alike (alike : l.arena.Alike room exact m.arena) (o : Object) :
    (o.drop l).arena.Alike room exact (o.drop m).arena := by
  unfold drop
  cases o.held? with
  | none => exact alike
  | some held => exact Reservation.release_alike alike held

/-! ## Handles, columns and cells -/

namespace Handle

variable {α : Type u} [Footprint α]

theorem append_agree (clear : exact ∨ room = none) (alike : l.arena.Alike room exact m.arena)
    (codec : Codec α) (batch : Batch α) (h : Handle) :
    ∃ result h' l' m', h.append codec batch l = (result, h', l') ∧
      h.append codec batch m = (result, h', m') ∧ l'.arena.Alike room exact m'.arena := by
  unfold append
  split
  · exact ⟨_, _, _, _, rfl, rfl, alike⟩
  · exact ⟨_, _, _, _, rfl, rfl, alike⟩
  · rename_i held state
    split
    · exact ⟨_, _, _, _, rfl, rfl, alike⟩
    · exact ⟨_, _, _, _, rfl, rfl, alike⟩
    · rename_i values nonempty read
      obtain ⟨result, l', m', grown, grown', after⟩ :=
        Reservation.grow_agree clear alike held (Footprint.totals values)
      rw [grown, grown']
      cases result with
      | error refusal => exact ⟨_, _, _, _, rfl, rfl, after⟩
      | ok held => exact ⟨_, _, _, _, rfl, rfl, after⟩

/-- Finalizing takes no room. -/
theorem finalize_agree (alike : l.arena.Alike room exact m.arena) (h : Handle) :
    ∃ result h' l' m', h.finalize l = (result, h', l') ∧ h.finalize m = (result, h', m') ∧
      l'.arena.Alike room exact m'.arena := by
  unfold finalize
  split
  · exact ⟨_, _, _, _, rfl, rfl, alike⟩
  · exact ⟨_, _, _, _, rfl, rfl, alike⟩
  · dsimp only
    split
    · exact ⟨_, _, _, _, rfl, rfl, alike⟩
    · exact ⟨_, _, _, _, rfl, rfl, alike⟩

end Handle

theorem Cell.wrap_agree (clear : exact ∨ room = none) (alike : l.arena.Alike room exact m.arena)
    (d : Descriptor) (c : HeldColumn) (options : CellOptions) :
    Ledger.Agree room exact (wrap d c options l) (wrap d c options m) := by
  unfold wrap
  split
  · exact ⟨_, _, _, rfl, rfl, alike⟩
  · dsimp only
    split
    · exact ⟨_, _, _, rfl, rfl, alike⟩
    · obtain ⟨result, l', m', acquired, acquired', after⟩ := Reservation.acquire_agree clear alike
        (Stream.write options.write d.field c.column).length
      rw [acquired, acquired']
      cases result with
      | error refusal => exact ⟨_, _, _, rfl, rfl, after⟩
      | ok held => exact ⟨_, _, _, rfl, rfl, after⟩

/-! ## Encoding in one go -/

namespace Encoder

variable {α : Type u} [Footprint α]

theorem fill_agree (clear : exact ∨ room = none) (alike : l.arena.Alike room exact m.arena)
    (codec : Codec α) (values : List α) (h : Handle) :
    ∃ result h' l' m', fill codec values h l = (result, h', l') ∧
      fill codec values h m = (result, h', m') ∧ l'.arena.Alike room exact m'.arena := by
  unfold fill
  split
  · exact ⟨_, _, _, _, rfl, rfl, alike⟩
  · exact Handle.append_agree clear alike codec (.ofList values) h

theorem encode_agree (clear : exact ∨ room = none) (alike : l.arena.Alike room exact m.arena)
    (codec : Codec α) (batch : Batch α) :
    Ledger.Agree room exact (encode codec batch l) (encode codec batch m) := by
  unfold encode
  cases batch.values with
  | error fault => exact ⟨_, _, _, rfl, rfl, alike⟩
  | ok values =>
    simp only [Handle.acquire]
    have acquired : (l.report (.acquired codec.name values.length)).arena.Alike room exact
        (m.report (.acquired codec.name values.length)).arena := alike
    obtain ⟨result, h, l', m', filled, filled', after⟩ :=
      fill_agree clear acquired codec values ⟨codec.descriptor, codec.newBuilder, .building .empty⟩
    rw [filled, filled']
    cases result with
    | error e => exact ⟨_, _, _, rfl, rfl, Object.drop_alike after (.handle h)⟩
    | ok _ =>
      obtain ⟨result, h', l'', m'', finished, finished', last⟩ := Handle.finalize_agree after h
      simp only [finished, finished']
      exact ⟨_, _, _, rfl, rfl, Object.drop_alike last (.handle h')⟩

theorem toCell_agree (clear : exact ∨ room = none) (alike : l.arena.Alike room exact m.arena)
    (codec : Codec α) (batch : Batch α) (options : CellOptions) :
    Ledger.Agree room exact (toCell codec batch options l) (toCell codec batch options m) := by
  unfold toCell
  obtain ⟨result, l', m', encoded, encoded', after⟩ := encode_agree clear alike codec batch
  rw [encoded, encoded']
  cases result with
  | error e => exact ⟨_, _, _, rfl, rfl, after⟩
  | ok c =>
    obtain ⟨result, l'', m'', wrapped, wrapped', last⟩ :=
      Cell.wrap_agree clear after codec.descriptor c options
    simp only [wrapped, wrapped']
    exact ⟨_, _, _, rfl, rfl, Reservation.release_alike last c.held⟩

end Encoder

end

end TypedColumns
