import TypedColumns.Decimal.Shortest

/-!
# Layout of decimals

How a number is set out: which of two equally short decimals stands for it, which exponents are
written out with zeros and which with a power of ten, and whether a whole number shows a point. A
layout is data; `Layout.write` follows it.
-/

namespace TypedColumns.Decimal

structure Layout where
  tie : Tie
  /-- The exponents of the leading digit that are written without a power of ten, from the first
  to before the second; all are if there is none. -/
  positional : Option (Int × Int)
  /-- A whole number ends with a point and a zero. -/
  showPoint : Bool
  deriving DecidableEq, Repr

namespace Layout

/-- The digits of a number, as text. -/
def digitsText (n : Nat) : String := String.ofList (Nat.toDigits 10 n)

def zerosText (n : Nat) : String := String.ofList (List.replicate n '0')

/-- Splits a text of digits after the first `n`. -/
def splitDigits (n : Nat) (digits : String) : String × String :=
  (String.ofList (digits.toList.take n), String.ofList (digits.toList.drop n))

/-- A number written out with all its zeros. -/
def writePositional (layout : Layout) (d : Numeral) : String :=
  let digits := digitsText d.digits
  let whole := digits.length + d.exponent
  if 0 ≤ d.exponent then
    digits ++ zerosText d.exponent.toNat ++ (if layout.showPoint then ".0" else "")
  else if 0 < whole then
    let (front, back) := splitDigits whole.toNat digits
    front ++ "." ++ back
  else
    "0." ++ zerosText (-whole).toNat ++ digits

/-- A number written with one digit before the point and a power of ten. -/
def writeScientific (d : Numeral) : String :=
  let digits := digitsText d.digits
  let exponent := toString (digits.length + d.exponent - 1)
  match splitDigits 1 digits with
  | (front, "") => front ++ "e" ++ exponent
  | (front, back) => front ++ "." ++ back ++ "e" ++ exponent

/-- A positive number as the layout has it. -/
def writeDecimal (layout : Layout) (d : Numeral) : String :=
  let leading := (digitCount d.digits : Int) + d.exponent - 1
  match layout.positional with
  | none => layout.writePositional d
  | some (first, last) =>
    if first ≤ leading && leading < last then layout.writePositional d else writeScientific d

/-- A value as the layout has it. -/
def write (layout : Layout) (x : FloatValue) : String :=
  let sign (negative : Bool) : String := if negative then "-" else ""
  match x with
  | .notANumber => "NaN"
  | .infinity negative => sign negative ++ "inf"
  | .zero negative => sign negative ++ (if layout.showPoint then "0.0" else "0")
  | .finite negative x => sign negative ++ layout.writeDecimal (shortest layout.tie x)

end Layout

end TypedColumns.Decimal
