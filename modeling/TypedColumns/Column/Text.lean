import TypedColumns.Column.Rows
import TypedColumns.DataType.Text
import TypedColumns.Decimal.Layout

/-!
# Printed columns

A column prints as the list of its rows. A missing value prints as `null` at every depth, a text
prints as it is, a struct prints its fields by name, and a row of a union prints the variant it
chose. Floats print with the fewest digits that read back; half floats print as floats of the next
width, without a power of ten, and round away from zero where two decimals are equally near.
-/

namespace TypedColumns

namespace NumberType

/-- Plain from a millionth up to ten trillions. -/
def singleLayout : Decimal.Layout := ⟨.even, some (-6, 13), true⟩

/-- Plain from a hundred-thousandth up to ten quadrillions. -/
def doubleLayout : Decimal.Layout := ⟨.even, some (-5, 16), true⟩

/-- Always plain, and whole numbers without a point. -/
def halfLayout : Decimal.Layout := ⟨.away, none, false⟩

/-- A number as its type prints it. -/
def valueText (t : NumberType) (bits : t.Bits) : String :=
  match t with
  | .int8 | .int16 | .int32 | .int64 => toString bits.toInt
  | .uint8 | .uint16 | .uint32 | .uint64 => toString bits.toNat
  | .float16 => halfLayout.write ((Decimal.FloatFormat.half.decode bits.toNat).widen .single)
  | .float32 => singleLayout.write (Decimal.FloatFormat.single.decode bits.toNat)
  | .float64 => doubleLayout.write (Decimal.FloatFormat.double.decode bits.toNat)

end NumberType

/-- Two digits to base sixteen for each byte. -/
def Bytes.hexText (bs : Bytes) : String :=
  String.join (bs.map fun b =>
    String.ofList [Nat.digitChar (b.toNat / 16), Nat.digitChar (b.toNat % 16)])

namespace Value

mutual

def display : Value → String
  | .missing => "null"
  | .boolean b => boolText b
  | .number t bits => t.valueText bits
  | .text s => s
  | .binary bs => bs.hexText
  | .list items => "[" ++ commaSeparated (texts items) ++ "]"
  | .struct fields => "\x7b" ++ commaSeparated (fieldTexts fields) ++ "\x7d"
  | .variant _ name value => "\x7b" ++ name ++ "=" ++ value.display ++ "\x7d"

def texts : List Value → List String
  | [] => []
  | v :: vs => v.display :: texts vs

def fieldTexts : List (String × Value) → List String
  | [] => []
  | (name, v) :: vs => (name ++ ": " ++ v.display) :: fieldTexts vs

end

end Value

/-- The rows of a column between brackets. -/
def Column.display (c : Column) : String := "[" ++ commaSeparated (Value.texts c.rows) ++ "]"

end TypedColumns
