import TypedColumns.Builder.Finish
import TypedColumns.Descriptor
import TypedColumns.Footprint

/-!
# Codecs

A codec ties a type of values to a descriptor and to the builder its values are written into. It is
a value: the rules of this library hold for every codec, also for one that breaks its own promises.

Writing is a `Write`, a change of a builder that may fail. What was written before a failure stays
written, so a write returns the builder in both cases.

A codec need only say how one value is appended. Missing values, optional values and runs of values
have a rule that a codec may replace: a run of values may be appended at once.
-/

namespace TypedColumns

universe u v

/-- A change of a builder that may fail, keeping what was written before. -/
abbrev Write : Type := ExceptT CellError (StateM Builder) Unit

namespace Write

/-- A change given as a function on builders. -/
def of (change : Builder → Except CellError Unit × Builder) : Write := change

/-- Applies a write to a builder. -/
def apply (w : Write) (b : Builder) : Except CellError Unit × Builder := w b

def fail (fault : ArgumentFault) : Write := .of fun b => (.error (.argument fault), b)

/-- A change that applies to some builders only; `name` is the type that asked for it. -/
def change (name : String) (f : Builder → Option Builder) : Write :=
  .of fun b => match f b with
    | some b => (.ok (), b)
    | none => (.error (.argument (.foreignBuilder name)), b)

/-- A change of an item builder. -/
def changeItem (name : String) (f : ItemBuilder → Option ItemBuilder) : Write :=
  change name (·.mapItem? f)

/-- Adds a missing value for the type of the given name. -/
def missing (name : String) : Write :=
  .of fun b => match b.appendNull with
    | (.ok (), b) => (.ok (), b)
    | (.error fault, b) => (.error (.argument (.missingRefused name fault)), b)

/-- Closes a row of a struct. -/
def endRow (name : String) (valid : Bool) : Write := change name (·.endRow? valid)

/-- The result of work on a child: a fault in reaching it, or what the work came to. -/
def joined (result : Except ArgumentFault (Except CellError Unit)) : Except CellError Unit :=
  match result with
  | .ok result => result
  | .error fault => .error (.argument fault)

/-- Writes to the child of a struct at `index`. -/
def toField (index : Nat) (kind : Builder.Kind) (w : Write) : Write :=
  .of fun b => let (result, b) := b.withField index kind w.apply; (joined result, b)

/-- Records a row of a union and writes to the child of the selected variant. -/
def toVariant (id : TypeId) (kind : Builder.Kind) (w : Write) : Write :=
  .of fun b => let (result, b) := b.withVariant id kind w.apply; (joined result, b)

end Write

/-- How the values of a type are written into a column. -/
structure Codec (α : Type u) [Footprint α] where
  descriptor : Descriptor
  /-- A builder without rows, of the kind that values go into. -/
  newBuilder : Builder
  append : α → Write
  appendNull : Write := .missing descriptor.name
  appendOption : Option α → Write := fun
    | some a => append a
    | none => appendNull
  appendAll : List α → Write := fun as => as.forM append

namespace Codec

variable {α : Type u} [Footprint α] {β : Type v} [Footprint β]

/-- The kind of builder that values go into. -/
def kind (c : Codec α) : Builder.Kind := c.newBuilder.kind

def name (c : Codec α) : String := c.descriptor.name

/-- Writes a value to the child of a struct at `index`. -/
def appendField (c : Codec α) (index : Nat) (a : α) : Write :=
  .toField index c.kind (c.append a)

/-- Writes an optional value to the child of a struct at `index`. -/
def appendFieldOption (c : Codec α) (index : Nat) (a : Option α) : Write :=
  .toField index c.kind (c.appendOption a)

/-- Writes a value as the variant that `id` selects. -/
def appendVariant (c : Codec α) (id : TypeId) (a : α) : Write :=
  .toVariant id c.kind (c.append a)

/-- A codec for values that hold one value of another codec's type: every value goes to that codec.
The outer type has a name of its own and the inner data type, and its field is not nullable. -/
def delegate (name : String) (inner : Codec β) (get : α → β) : Codec α where
  descriptor := ⟨name, false, inner.descriptor.dataType⟩
  newBuilder := inner.newBuilder
  append a := inner.append (get a)
  appendNull := inner.appendNull

end Codec

end TypedColumns
