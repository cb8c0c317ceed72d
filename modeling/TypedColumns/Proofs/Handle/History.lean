import TypedColumns.Handle

/-!
# Histories of a handle

A history is a row of calls on one handle. Between two calls, other users of the same arena may have
taken or given back memory, so every call finds a ledger of its own: `Runs` leaves it open which.
What a call does to a handle is said once, in an equation for each kind of call on a building handle
and one for all calls on a handle that is closed; the laws of whole histories use only these.
-/

namespace TypedColumns

universe u

namespace Reservation

/-- An admitted request adds its size to the reservation, as far as the counter goes. -/
theorem grow_ok {r r' : Reservation} {n : Nat} {l l' : Ledger}
    (h : r.grow n l = (.ok r', l')) :
    r'.size = (r.size + n) % counterRange ∧
      ∃ arena, l.arena.grow n = .ok arena ∧ l' = { l with arena } := by
  unfold grow Ledger.charge at h
  cases grown : l.arena.grow n with
  | ok arena =>
    rw [grown] at h
    cases h
    exact ⟨rfl, arena, rfl, rfl⟩
  | error refusal =>
    rw [grown] at h
    cases h

/-- A refused request is reported and changes nothing else. -/
theorem grow_error {r : Reservation} {n : Nat} {l l' : Ledger} {refusal : Refusal}
    (h : r.grow n l = (.error refusal, l')) :
    l.arena.grow n = .error refusal ∧ l' = l.report (.refused refusal) := by
  unfold grow Ledger.charge at h
  cases grown : l.arena.grow n with
  | ok arena =>
    rw [grown] at h
    cases h
  | error refusal' =>
    rw [grown] at h
    cases h
    exact ⟨rfl, rfl⟩

/-- Whether a request is admitted is up to the arena alone. -/
theorem grow_of_arena (r : Reservation) {n : Nat} {l : Ledger} {arena : Arena}
    (h : l.arena.grow n = .ok arena) :
    r.grow n l = (.ok ⟨(r.size + n) % counterRange⟩, { l with arena }) := by
  simp only [grow, Ledger.charge, h]

theorem grow_of_refusal (r : Reservation) {n : Nat} {l : Ledger} {refusal : Refusal}
    (h : l.arena.grow n = .error refusal) :
    r.grow n l = (.error refusal, l.report (.refused refusal)) := by
  simp only [grow, Ledger.charge, h]

end Reservation

namespace Handle

/-- Why the handle refuses all further work, if it does. -/
def State.closed? : State → Option Closed
  | .building _ => none
  | .failed _ => some .failed
  | .finalized => some .finalized

@[simp] theorem closed?_building (held : Reservation) : (State.building held).closed? = none := rfl
@[simp] theorem closed?_failed (held : Reservation) :
    (State.failed held).closed? = some .failed := rfl
@[simp] theorem closed?_finalized : State.finalized.closed? = some .finalized := rfl

theorem closed?_eq_none {s : State} (h : s.closed? = none) : ∃ held, s = .building held := by
  cases s with
  | building held => exact ⟨held, rfl⟩
  | failed held => cases h
  | finalized => cases h

theorem reserved_building {h : Handle} {held : Reservation} (state : h.state = .building held) :
    h.reserved = held.size := by
  simp [reserved, state, State.held?]

/-- A call on a handle of a codec's values. -/
inductive Call (α : Type u)
  | append (batch : Batch α)
  | appendNull
  | finalize

/-- What a call gives: a column if it is a successful `finalize`, and nothing but its success
otherwise. -/
abbrev Answer : Type := Except CellError (Option HeldColumn)

variable {α : Type u} [Footprint α]

/-- A handle without rows that holds nothing. -/
def fresh (codec : Codec α) : Handle := ⟨codec.descriptor, codec.newBuilder, .building .empty⟩

/-- The words by which an error names the call. -/
def Call.action : Call α → String
  | .append _ => "append to"
  | .appendNull => "append to"
  | .finalize => "finalize"

/-- Runs one call. -/
def call (codec : Codec α) (c : Call α) (h : Handle) (l : Ledger) : Answer × Handle × Ledger :=
  match c with
  | .append batch =>
    let (result, h, l) := h.append codec batch l
    (result.map fun _ => none, h, l)
  | .appendNull =>
    let (result, h) := h.appendNull codec
    (result.map fun _ => none, h, l)
  | .finalize =>
    let (result, h, l) := h.finalize l
    (result.map some, h, l)

/-- `Runs codec h past h'` says that the calls of `past`, one after the other, gave the answers
beside them and led from `h` to `h'`, whatever each of them found in the arena. -/
inductive Runs (codec : Codec α) (h : Handle) : List (Call α × Answer) → Handle → Prop
  | start : Runs codec h [] h
  | call {past : List (Call α × Answer)} {h' : Handle} (run : Runs codec h past h') (c : Call α)
      (l : Ledger) :
      Runs codec h (past ++ [(c, (h'.call codec c l).1)]) (h'.call codec c l).2.1

/-- A history in which every call found a ledger that suits the handle it was made on. -/
inductive RunsWhere (suits : Handle → Ledger → Prop) (codec : Codec α) (h : Handle) :
    List (Call α × Answer) → Handle → Prop
  | start : RunsWhere suits codec h [] h
  | call {past : List (Call α × Answer)} {h' : Handle} (run : RunsWhere suits codec h past h')
      (c : Call α) (l : Ledger) (found : suits h' l) :
      RunsWhere suits codec h (past ++ [(c, (h'.call codec c l).1)]) (h'.call codec c l).2.1

theorem RunsWhere.runs {suits : Handle → Ledger → Prop} {codec : Codec α} {h h' : Handle}
    {past : List (Call α × Answer)} (run : RunsWhere suits codec h past h') :
    Runs codec h past h' := by
  induction run with
  | start => exact .start
  | call _ c l _ ih => exact ih.call c l

/-- The bytes charged for a call: those for the values of an accepted append. -/
def charge : Call α × Answer → Nat
  | (.append batch, .ok _) => Footprint.totals (batch.values.toOption.getD [])
  | _ => 0

@[simp] theorem charge_appendNull (answer : Answer) :
    charge ((.appendNull, answer) : Call α × Answer) = 0 := rfl

def charged (past : List (Call α × Answer)) : Nat := sumOf charge past

/-- The columns that were handed out. -/
def columns (past : List (Call α × Answer)) : List HeldColumn :=
  past.filterMap fun (_, answer) => answer.toOption.join

theorem charged_append (past : List (Call α × Answer)) (c : Call α) (answer : Answer) :
    charged (past ++ [(c, answer)]) = charged past + charge (c, answer) := by
  simp [charged]

omit [Footprint α] in
theorem columns_append (past : List (Call α × Answer)) (c : Call α) (answer : Answer) :
    columns (past ++ [(c, answer)]) = columns past ++ answer.toOption.join.toList := by
  unfold columns
  rw [List.filterMap_append]
  cases given : answer.toOption.join <;> simp [given]

/-! ## One call -/

section Building

variable (codec : Codec α) {h : Handle} {held : Reservation} (l : Ledger)

/-- A batch whose values cannot be read is refused, and no more happens. -/
theorem call_invalidBatch (state : h.state = .building held) {batch : Batch α} {fault : BatchFault}
    (values : batch.values = .error fault) :
    h.call codec (.append batch) l = (.error (.argument (.batch fault)), h, l) := by
  simp only [call, append, state, values, Except.map]

theorem call_emptyBatch (state : h.state = .building held) {batch : Batch α}
    (values : batch.values = .ok []) :
    h.call codec (.append batch) l = (.ok none, h, l) := by
  simp only [call, append, state, values, Except.map]

/-- Room comes before writing: if the arena refuses, the builder is as it was, and so is what the
handle holds. -/
theorem call_refusedBatch (state : h.state = .building held) {batch : Batch α} {values : List α}
    (read : batch.values = .ok values) (nonempty : values ≠ []) {refusal : Refusal}
    (refused : l.arena.grow (Footprint.totals values) = .error refusal) :
    h.call codec (.append batch) l =
      (.error (.allocation refusal), { h with state := .failed held },
        l.report (.refused refusal)) := by
  cases values with
  | nil => exact absurd rfl nonempty
  | cons a as => simp only [call, append, state, read, held.grow_of_refusal refused, Except.map]

/-- Once there is room, the codec writes, and its result decides. The room stays taken. -/
theorem call_admittedBatch (state : h.state = .building held) {batch : Batch α} {values : List α}
    (read : batch.values = .ok values) (nonempty : values ≠ []) {arena : Arena}
    (admitted : l.arena.grow (Footprint.totals values) = .ok arena) :
    h.call codec (.append batch) l =
      let held := ⟨(held.size + Footprint.totals values) % counterRange⟩
      match (codec.appendAll values).apply h.builder with
      | (.ok (), builder) =>
        (.ok none, { h with builder, state := .building held }, { l with arena })
      | (.error e, builder) =>
        (.error e, { h with builder, state := .failed held }, { l with arena }) := by
  cases values with
  | nil => exact absurd rfl nonempty
  | cons a as =>
    simp only [call, append, state, read, held.grow_of_arena admitted, write]
    rcases (codec.appendAll (a :: as)).apply h.builder with ⟨_ | _, _⟩ <;> rfl

theorem call_refusedNull (state : h.state = .building held)
    (refused : h.descriptor.acceptsNulls = false) :
    h.call codec .appendNull l = (.error (.argument (.notNullable h.descriptor.name)), h, l) := by
  simp only [call, appendNull, state, refused, Bool.false_eq_true, if_false, Except.map]

/-- No room is taken for a missing value. -/
theorem call_acceptedNull (state : h.state = .building held)
    (accepted : h.descriptor.acceptsNulls = true) :
    h.call codec .appendNull l =
      match codec.appendNull.apply h.builder with
      | (.ok (), builder) => (.ok none, { h with builder, state := .building held }, l)
      | (.error e, builder) => (.error e, { h with builder, state := .failed held }, l) := by
  simp only [call, appendNull, state, accepted, if_true, write]
  rcases codec.appendNull.apply h.builder with ⟨_ | _, _⟩ <;> rfl

/-- The reservation goes to the column, or stays with the handle that failed. -/
theorem call_finalize (state : h.state = .building held) :
    h.call codec .finalize l =
      match checkedColumn h.descriptor h.builder.finish.1 with
      | .ok column =>
        (.ok (some ⟨column, held⟩), { h with builder := h.builder.finish.2, state := .finalized },
          l.report (.finalized h.descriptor.name column.length))
      | .error e =>
        (.error e, { h with builder := h.builder.finish.2, state := .failed held }, l) := by
  simp only [call, finalize, state]
  cases checkedColumn h.descriptor h.builder.finish.1 <;> rfl

end Building

/-- A closed handle answers every call with an error that says why, and nothing changes. -/
theorem call_closed (codec : Codec α) {h : Handle} {why : Closed}
    (closed : h.state.closed? = some why) (c : Call α) (l : Ledger) :
    h.call codec c l = (.error (h.closedFault c.action why), h, l) := by
  cases state : h.state with
  | building held =>
    rw [state] at closed
    cases closed
  | failed held =>
    rw [state] at closed
    cases closed
    cases c <;> simp only [call, append, appendNull, finalize, state, Except.map, Call.action]
  | finalized =>
    rw [state] at closed
    cases closed
    cases c <;> simp only [call, append, appendNull, finalize, state, Except.map, Call.action]

/-- A batch that is accepted is empty, or the arena has room for its values. -/
theorem values_of_accepted {codec : Codec α} {h : Handle} {l : Ledger} {batch : Batch α}
    {column : Option HeldColumn} (accepted : (h.call codec (.append batch) l).1 = .ok column) :
    ∃ values held, batch.values = .ok values ∧ h.state = .building held ∧
      (values = [] ∨ ∃ arena, l.arena.grow (Footprint.totals values) = .ok arena) := by
  cases closed : h.state.closed? with
  | some why =>
    rw [call_closed codec closed] at accepted
    cases accepted
  | none =>
    obtain ⟨held, state⟩ := closed?_eq_none closed
    cases read : batch.values with
    | error fault =>
      rw [call_invalidBatch codec l state read] at accepted
      cases accepted
    | ok values =>
      refine ⟨values, held, rfl, state, ?_⟩
      by_cases nonempty : values = []
      · exact .inl nonempty
      · cases grown : l.arena.grow (Footprint.totals values) with
        | ok arena => exact .inr ⟨arena, rfl⟩
        | error refusal =>
          rw [call_refusedBatch codec l state read nonempty grown] at accepted
          cases accepted

/-- No call touches the descriptor. -/
@[simp] theorem descriptor_call (codec : Codec α) (c : Call α) (h : Handle) (l : Ledger) :
    (h.call codec c l).2.1.descriptor = h.descriptor := by
  cases closed : h.state.closed? with
  | some why => rw [call_closed codec closed]
  | none =>
    obtain ⟨held, state⟩ := closed?_eq_none closed
    cases c with
    | append batch =>
      cases read : batch.values with
      | error fault => rw [call_invalidBatch codec l state read]
      | ok values =>
        by_cases nonempty : values = []
        · rw [call_emptyBatch codec l state (nonempty ▸ read)]
        · cases grown : l.arena.grow (Footprint.totals values) with
          | error refusal => rw [call_refusedBatch codec l state read nonempty grown]
          | ok arena =>
            rw [call_admittedBatch codec l state read nonempty grown]
            dsimp only
            split <;> rfl
    | appendNull =>
      cases accepted : h.descriptor.acceptsNulls with
      | false => rw [call_refusedNull codec l state accepted]
      | true =>
        rw [call_acceptedNull codec l state accepted]
        split <;> rfl
    | finalize =>
      rw [call_finalize codec l state]
      split <;> rfl

end Handle

end TypedColumns
