import TypedColumns.Decimal.Binary

/-!
# Shortest decimals

Every real number nearer to a floating-point number than to its neighbours reads back as that
number; a point half way between two of them reads back as the one with the even digits. Among the
decimals that read back, `shortest` takes one with the fewest digits, and of those the one nearest
to the number itself. Where two are equally near, a `Tie` says which one is taken.

All comparisons are exact: a decimal `d * 10 ^ k` is compared with `x * 2 ^ p` after both are
brought to integers.
-/

namespace TypedColumns.Decimal

/-- The number `digits * 10 ^ exponent`. -/
structure Numeral where
  digits : Nat
  exponent : Int
  deriving DecidableEq, Repr

/-- Which of two decimals at the same distance is taken: the one with the even last digit, or the
one farther from zero. -/
inductive Tie
  | even | away
  deriving DecidableEq, Repr

/-- Whether the decimal above `down` is taken when both are at the same distance. -/
def Tie.prefersUp (tie : Tie) (down : Nat) : Bool :=
  match tie with
  | .even => down % 2 == 1
  | .away => true

/-- The factors that bring `d * 10 ^ k` and `x * 2 ^ p` to integers of the same scale. -/
def scales (k p : Int) : Nat × Nat :=
  (Nat.pow 10 k.toNat <<< (-p).toNat, Nat.pow 10 (-k).toNat <<< p.toNat)

/-- How many decimal digits a number has. -/
def digitCount (n : Nat) : Nat := (Nat.toDigits 10 n).length

/-- The exponent `e` with `10 ^ e ≤ num / den < 10 ^ (e + 1)`, for a positive fraction. -/
def leadingExponent (num den : Nat) : Int :=
  if den ≤ num then digitCount (num / den) - 1
  else -digitCount ((den + num - 1) / num - 1)

/-- The decimal of `count` digits nearest to `x`, if one reads back as `x`. -/
def nearest? (tie : Tie) (x : Magnitude) (leading : Int) (count : Nat) : Option Numeral :=
  let p := x.q - 2
  let k := leading - count + 1
  let (decimal, binary) := scales k p
  let value := 4 * x.m * binary
  let low := (4 * x.m - (if x.narrowBelow then 1 else 2)) * binary
  let high := (4 * x.m + 2) * binary
  let inside (d : Nat) : Bool :=
    if x.m % 2 = 0 then low ≤ d * decimal && d * decimal ≤ high
    else low < d * decimal && d * decimal < high
  let down := value / decimal
  let up := down + 1
  let below := value - down * decimal
  let above := up * decimal - value
  let preferUp := above < below || (above == below && tie.prefersUp down)
  let (first, second) := if preferUp then (up, down) else (down, up)
  if inside first then some ⟨first, k⟩
  else if inside second then some ⟨second, k⟩
  else none

/-- Drops zeros at the end, at most `fuel` of them. -/
def Numeral.trim : Nat → Numeral → Numeral
  | 0, d => d
  | fuel + 1, ⟨digits, exponent⟩ =>
    if digits ≠ 0 ∧ digits % 10 = 0 then trim fuel ⟨digits / 10, exponent + 1⟩
    else ⟨digits, exponent⟩

/-- The most digits that any format needs. -/
def maxDigits : Nat := 17

/-- The shortest decimal that reads back as `x`. -/
def shortest (tie : Tie) (x : Magnitude) : Numeral :=
  let leading := leadingExponent (x.m <<< x.q.toNat) (1 <<< (-x.q).toNat)
  let first := (List.range maxDigits).findSome? fun i => nearest? tie x leading (i + 1)
  (first.getD ⟨0, 0⟩).trim (maxDigits + 1)

end TypedColumns.Decimal
