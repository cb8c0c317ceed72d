import TypedColumns.Proofs.Builder.Selecting
import TypedColumns.Proofs.Codec.Lawful

/-!
# A value that fails ends a union

The codec of a value may fail when the unions above it have recorded the row already, at whatever
depth. A new builder has no slots to spare, so one of its unions is short of a slot from then on,
and whatever is appended and however often it is tried, no column is ever taken out of the builder:
a failed row is not absorbed, and does not move the values of other rows.
-/

namespace TypedColumns

open Builder (Work Broken Level)

namespace UnionCall

/-- The builder after the call, whatever the answer. -/
def run : UnionCall → Builder → Builder
  | .value id kind w, b => (b.withVariant id kind w.apply).2
  | .missing, b => b.appendNull.2

def Lawful : UnionCall → Prop
  | .value _ kind w => w.Lawful kind
  | .missing => True

variable {c : UnionCall} {b : Builder}

end UnionCall

/-- What may happen to a union builder in its lifetime. -/
inductive UnionStep
  | call (c : UnionCall)
  | finish

namespace UnionStep

def run : UnionStep → Builder → Builder
  | .call c, b => c.run b
  | .finish, b => b.finish.2

def Lawful : UnionStep → Prop
  | .call c => c.Lawful
  | .finish => True

end UnionStep

/-- Records of a number and a text, as a variant of a variant. -/
def nestedVariants : List Variant :=
  [⟨0, ⟨"inner", .union [⟨7, ⟨"row", .struct Codec.pickyFields, false⟩⟩], false⟩⟩]

def nestedRoot : Builder :=
  .union nestedVariants #[]
    [.union [⟨7, ⟨"row", .struct Codec.pickyFields, false⟩⟩] #[] [Codec.picky.newBuilder]]

/-- The call that writes such a record. -/
def nestedCall (n : Irregular.Int32) : UnionCall :=
  .value 0 .union (Codec.picky.appendVariant 7 ⟨n, .ofString "a"⟩)

end TypedColumns
