import TypedColumns.Arena
import TypedColumns.Batch
import TypedColumns.Codec.Basic

/-!
# Handles

A handle accounts a builder to an arena. It is building until it is finalized or an operation
fails, and then refuses all further work. While it is building and after a failure it holds a
reservation; a successful `finalize` passes the reservation on with the finished column, so a handle
gives at most one column.

Room for the values of a batch is taken before any of them is written. A batch that cannot be read,
an empty batch, and a missing value that the type does not take change nothing at all; every other
failure ends the handle's life, and what was written stays in the builder.
-/

namespace TypedColumns

universe u

/-- A finished column with the reservation made while it was built. -/
structure HeldColumn where
  column : Column
  held : Reservation

inductive Handle.State
  | building (held : Reservation)
  | failed (held : Reservation)
  | finalized
  deriving DecidableEq, Repr

structure Handle where
  descriptor : Descriptor
  builder : Builder
  state : Handle.State

namespace Handle

namespace State

def text : State → String
  | .building _ => "Building"
  | .failed _ => "Failed"
  | .finalized => "Finalized"

/-- What the handle still holds in its arena. -/
def held? : State → Option Reservation
  | .building held => some held
  | .failed held => some held
  | .finalized => none

end State

/-- A handle for the values of a codec. There must be an arena to account to. -/
def acquire {α : Type u} [Footprint α] (codec : Codec α) (capacity : Nat) (arena : Option Ledger) :
    Except CellError (Handle × Ledger) :=
  match arena with
  | none => .error (.argument .noArena)
  | some l =>
    .ok (⟨codec.descriptor, codec.newBuilder, .building .empty⟩,
      l.report (.acquired codec.name capacity))

def length (h : Handle) : Nat := h.builder.length

def isEmpty (h : Handle) : Bool := h.builder.isEmpty

/-- The bytes the handle holds in its arena. -/
def reserved (h : Handle) : Nat := (h.state.held?.map (·.size)).getD 0

/-- The error of an operation on a handle that is no longer building. -/
def closedFault (h : Handle) (action : String) (closed : Closed) : CellError :=
  .argument (.handleClosed action h.descriptor.name closed)

/-- Writes to the builder of a building handle; a failure of the write is the handle's own. -/
def write (h : Handle) (held : Reservation) (w : Write) : Except CellError Unit × Handle :=
  match w.apply h.builder with
  | (.ok (), builder) => (.ok (), { h with builder, state := .building held })
  | (.error e, builder) => (.error e, { h with builder, state := .failed held })

/-- Adds the values of a batch. -/
def append {α : Type u} [Footprint α] (codec : Codec α) (batch : Batch α) (h : Handle)
    (l : Ledger) : Except CellError Unit × Handle × Ledger :=
  match h.state with
  | .finalized => (.error (h.closedFault "append to" .finalized), h, l)
  | .failed _ => (.error (h.closedFault "append to" .failed), h, l)
  | .building held =>
    match batch.values with
    | .error fault => (.error (.argument (.batch fault)), h, l)
    | .ok [] => (.ok (), h, l)
    | .ok values =>
      match held.grow (Footprint.totals values) l with
      | (.error refusal, l) => (.error (.allocation refusal), { h with state := .failed held }, l)
      | (.ok held, l) =>
        let (result, h) := h.write held (codec.appendAll values)
        (result, h, l)

/-- Adds one missing value. No room is taken for it. -/
def appendNull {α : Type u} [Footprint α] (codec : Codec α) (h : Handle) :
    Except CellError Unit × Handle :=
  match h.state with
  | .finalized => (.error (h.closedFault "append to" .finalized), h)
  | .failed _ => (.error (h.closedFault "append to" .failed), h)
  | .building held =>
    if h.descriptor.acceptsNulls then h.write held codec.appendNull
    else (.error (.argument (.notNullable h.descriptor.name)), h)

/-- The column of the builder, if it is one of the handle's type through and through. -/
def checkedColumn (d : Descriptor) (result : Except BuildFault Column) :
    Except CellError Column :=
  match result with
  | .error fault => .error (.finalization d.name (.build fault))
  | .ok c =>
    if c.dataType ≠ d.dataType then
      .error (.finalization d.name (.wrongType c.dataType d.dataType))
    else match c.typeFault? <|> c.offsetFault? with
      | some fault => .error (.finalization d.name (.build fault))
      | none => .ok c

/-- Gives the column of everything added, with the reservation. -/
def finalize (h : Handle) (l : Ledger) : Except CellError HeldColumn × Handle × Ledger :=
  match h.state with
  | .finalized => (.error (h.closedFault "finalize" .finalized), h, l)
  | .failed _ => (.error (h.closedFault "finalize" .failed), h, l)
  | .building held =>
    let (result, builder) := h.builder.finish
    match checkedColumn h.descriptor result with
    | .error e => (.error e, { h with builder, state := .failed held }, l)
    | .ok column =>
      (.ok ⟨column, held⟩, { h with builder, state := .finalized },
        l.report (.finalized h.descriptor.name column.length))

/-- Gives back what the handle still holds. -/
def drop (h : Handle) (l : Ledger) : Ledger :=
  match h.state.held? with
  | some held => held.release l
  | none => l

@[simp] theorem append_finalized {α : Type u} [Footprint α] (codec : Codec α) (batch : Batch α)
    {h : Handle} (l : Ledger) (closed : h.state = .finalized) :
    append codec batch h l = (.error (h.closedFault "append to" .finalized), h, l) := by
  simp [append, closed]

@[simp] theorem append_failed {α : Type u} [Footprint α] (codec : Codec α) (batch : Batch α)
    {h : Handle} (l : Ledger) {held : Reservation} (closed : h.state = .failed held) :
    append codec batch h l = (.error (h.closedFault "append to" .failed), h, l) := by
  simp [append, closed]

end Handle

namespace HeldColumn

def length (c : HeldColumn) : Nat := c.column.length

/-- The bytes the column holds in its arena. -/
def reserved (c : HeldColumn) : Nat := c.held.size

def drop (c : HeldColumn) (l : Ledger) : Ledger := c.held.release l

end HeldColumn

end TypedColumns
