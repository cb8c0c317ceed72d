import TypedColumns.DataType.Text
import TypedColumns.FlatTable.Reader
import TypedColumns.Stream.Tag

/-!
# Foreign types

Streams may declare columns of types whose values are not read: points and spans of time, decimal
numbers, maps, values that are kept in a dictionary or once for a whole run of rows, and bytes that
are laid out in other ways. Such a type is known by its name, which holds its settings.
-/

namespace TypedColumns.Stream

open FlatTable (Table)

/-- The units of time, from coarse to fine. -/
def timeUnits : List String := ["Second", "Millisecond", "Microsecond", "Nanosecond"]

def intervalUnits : List String := ["YearMonth", "DayTime", "MonthDayNano"]

/-- The word that a number selects. -/
def word? (words : List String) (n : Int) : Option String :=
  if n < 0 then none else words[n.toNat]?

/-- A name with what follows it in brackets. -/
def bracketed (name settings : String) : String := name ++ "(" ++ settings ++ ")"

/-- The name of a type whose values are kept in a dictionary. -/
def dictionaryName (keys : NumberType) (values : DataType) : String :=
  bracketed "Dictionary" (keys.text ++ ", " ++ values.debug)

/-- The name of a foreign type from its settings and the fields of its children. Dates and times of
day are named for their width, and a width that does not go with the unit has no name. -/
def foreignName? (tag : TypeTag) (t : Table) (children : Option (List Field)) : Option String :=
  match tag with
  | .binaryView => some "BinaryView"
  | .textView => some "Utf8View"
  | .fixedSizeBinary => do return bracketed "FixedSizeBinary" (toString (← t.int 0 4))
  | .decimal => do
    let width ← t.intOr 128 2 4
    if width ∉ [32, 64, 128, 256] then none
    return bracketed ("Decimal" ++ toString width)
      (toString (← t.int 0 4) ++ ", " ++ toString (← t.int 1 4))
  | .date => do word? ["Date32", "Date64"] (← t.intOr 1 0 2)
  | .time => do
    let unit ← t.intOr 1 0 2
    let width ← t.intOr 32 1 4
    if width = (if unit < 2 then 32 else 64) then
      return bracketed ("Time" ++ toString width) (← word? timeUnits unit)
    else none
  | .timestamp => do
    let unit ← word? timeUnits (← t.int 0 2)
    let zone ← match ← t.ref? 1 with
      | none => pure "None"
      | some pos => do
        return bracketed "Some" (Text.Quoted.encode (← FlatTable.string? t.buffer pos))
    return bracketed "Timestamp" (unit ++ ", " ++ zone)
  | .map => do
    let [entries] ← children | none
    return bracketed "Map" (entries.debug ++ ", " ++ boolText ((← t.word 0 1) != 0))
  | .runEndEncoded => do
    let [ends, values] ← children | none
    return bracketed "RunEndEncoded" (ends.debug ++ ", " ++ values.debug)
  | .interval => do return bracketed "Interval" (← word? intervalUnits (← t.int 0 2))
  | .duration => do return bracketed "Duration" (← word? timeUnits (← t.intOr 1 0 2))
  | _ => none

end TypedColumns.Stream
