import TypedColumns.Error

/-!
# Events

Operations that reserve memory or hand over an array report what they did. An event is what a log
line says; `Event.level` and `Event.message` are its fixed parts.
-/

namespace TypedColumns

inductive Event
  | acquired (name : String) (capacity : Nat)
  | finalized (name : String) (rows : Nat)
  | refused (refusal : Refusal)
  | wrapped (name : String) (rows bytes : Nat)
  deriving DecidableEq, Repr

/-- Events of everyday work are traces; those that concern the arena's room or leave the process
are for debugging. -/
inductive Event.Level
  | trace | debug
  deriving DecidableEq, Repr

def Event.Level.text : Event.Level → String
  | .trace => "TRACE"
  | .debug => "DEBUG"

def Event.level : Event → Event.Level
  | .acquired _ _ | .finalized _ _ => .trace
  | .refused _ | .wrapped _ _ _ => .debug

def Event.message : Event → String
  | .acquired _ _ => "acquired array builder"
  | .finalized _ _ => "finalized array"
  | .refused _ => "arena refused reservation"
  | .wrapped _ _ _ => "wrapped cell"

end TypedColumns
