import TypedColumns.Builder.Text
import TypedColumns.Handle

/-!
# Printed handles

A handle prints the name of its type, how many rows it has, what it holds in its arena, and its
state.
-/

namespace TypedColumns

def Arena.debug (a : Arena) : String :=
  match a.capacity with
  | none => "TrackingArena(" ++ toString a.allocated ++ ")"
  | some capacity =>
    "BoundedArena \x7b capacity: " ++ toString capacity ++ ", allocated: " ++
      toString a.allocated ++ " \x7d"

def Reservation.debug (r : Reservation) (arena : Arena) : String :=
  "Reservation \x7b size: " ++ toString r.size ++ ", arena: " ++ arena.debug ++ " \x7d"

def Handle.debug (h : Handle) (arena : Arena) : String :=
  "ArrayBuilderHandle \x7b type: " ++ Text.Quoted.encode h.descriptor.name ++ ", len: " ++
    toString h.length ++ ", reservation: " ++
    optionText (·.debug arena) h.state.held? ++ ", state: " ++ h.state.text ++ " \x7d"

end TypedColumns
