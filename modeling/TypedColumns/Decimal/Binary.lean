/-!
# Binary floating point

A bit pattern of a floating-point format is not a number, an infinity, or a number `m * 2 ^ q` with
a sign. The format gives the width of its two fields; everything else follows from the standard's
layout: sign, exponent, fraction, with an implicit leading digit unless the exponent field is zero.
-/

namespace TypedColumns.Decimal

/-- The widths of the exponent and of the fraction. -/
structure FloatFormat where
  exponentBits : Nat
  fractionBits : Nat
  deriving DecidableEq, Repr

namespace FloatFormat

def half : FloatFormat := ⟨5, 10⟩
def single : FloatFormat := ⟨8, 23⟩
def double : FloatFormat := ⟨11, 52⟩

def bias (f : FloatFormat) : Int := (1 <<< (f.exponentBits - 1) : Nat) - 1

end FloatFormat

/-- A positive number `m * 2 ^ q` among its neighbours of the same format. -/
structure Magnitude where
  m : Nat
  q : Int
  /-- The neighbour below is half as far away as the one above: so it is at the start of a new
  exponent. -/
  narrowBelow : Bool
  deriving DecidableEq, Repr

/-- What a bit pattern stands for. -/
inductive FloatValue
  | notANumber
  | infinity (negative : Bool)
  | zero (negative : Bool)
  | finite (negative : Bool) (magnitude : Magnitude)
  deriving DecidableEq, Repr

/-- Reads a bit pattern. -/
def FloatFormat.decode (f : FloatFormat) (bits : Nat) : FloatValue :=
  let fraction := bits % 1 <<< f.fractionBits
  let exponent := bits >>> f.fractionBits % 1 <<< f.exponentBits
  let negative := bits >>> (f.fractionBits + f.exponentBits) % 2 == 1
  if exponent = 1 <<< f.exponentBits - 1 then
    if fraction = 0 then .infinity negative else .notANumber
  else if exponent = 0 then
    if fraction = 0 then .zero negative
    else .finite negative ⟨fraction, 1 - f.bias - f.fractionBits, false⟩
  else
    .finite negative
      ⟨1 <<< f.fractionBits + fraction, exponent - f.bias - f.fractionBits,
        fraction == 0 && 1 < exponent⟩

/-- The same number among the neighbours of a wider format, in which it is not one of the smallest
numbers. -/
def Magnitude.widen (x : Magnitude) (f : FloatFormat) : Magnitude :=
  let shift := f.fractionBits - x.m.log2
  let m := x.m <<< shift
  ⟨m, x.q - shift, m == 1 <<< f.fractionBits⟩

/-- The same value in a wider format. -/
def FloatValue.widen (x : FloatValue) (f : FloatFormat) : FloatValue :=
  match x with
  | .finite negative magnitude => .finite negative (magnitude.widen f)
  | x => x

end TypedColumns.Decimal
