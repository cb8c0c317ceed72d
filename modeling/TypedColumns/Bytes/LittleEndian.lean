/-!
# Little-endian numbers

Every number in a stream is written with its least significant byte first, on a fixed number of
bytes. Reading back what was written gives the number modulo the range of that many bytes, so a
number in range is read back as it was (`toNat_ofNat`), and an integer as its two's complement
(`toInt_ofInt`).
-/

namespace TypedColumns

abbrev Bytes : Type := List UInt8

namespace Bytes

/-- The number on `width` bytes; what does not fit is dropped. -/
def ofNat : Nat → Nat → Bytes
  | 0, _ => []
  | width + 1, n => UInt8.ofNat n :: ofNat width (n / 256)

/-- The number that the bytes write. -/
def toNat : Bytes → Nat
  | [] => 0
  | b :: bs => b.toNat + 256 * toNat bs

/-- An integer on `width` bytes, in two's complement. -/
def ofInt (width : Nat) (i : Int) : Bytes :=
  ofNat width (i % Nat.pow 256 width).toNat

/-- The integer that the bytes write in two's complement. -/
def toInt (bs : Bytes) : Int :=
  if 2 * toNat bs < Nat.pow 256 bs.length then (toNat bs : Int)
  else (toNat bs : Int) - Nat.pow 256 bs.length

/-- As many zero bytes. -/
def zeros (n : Nat) : Bytes := List.replicate n 0

/-- The bytes of a range, if all of them are there. -/
def slice? (bs : Bytes) (start length : Nat) : Option Bytes :=
  if start + length ≤ bs.length then some ((bs.drop start).take length) else none

@[simp] theorem length_ofNat (width n : Nat) : (ofNat width n).length = width := by
  induction width generalizing n with
  | zero => rfl
  | succ width ih => simp [ofNat, ih]

@[simp] theorem length_ofInt (width : Nat) (i : Int) : (ofInt width i).length = width := by
  simp [ofInt]

@[simp] theorem length_zeros (n : Nat) : (zeros n).length = n := by
  simp [zeros]

theorem toNat_ofNat_mod (width n : Nat) : toNat (ofNat width n) = n % Nat.pow 256 width := by
  induction width generalizing n with
  | zero => simp [ofNat, toNat, Nat.mod_one]
  | succ width ih =>
    have head : (UInt8.ofNat n).toNat = n % 256 := by simp
    rw [ofNat, toNat, ih, head, Nat.pow_eq, Nat.pow_eq, Nat.pow_succ', Nat.mod_mul]

theorem toNat_ofNat {width n : Nat} (h : n < Nat.pow 256 width) : toNat (ofNat width n) = n := by
  rw [toNat_ofNat_mod, Nat.mod_eq_of_lt h]

theorem toNat_lt (bs : Bytes) : toNat bs < Nat.pow 256 bs.length := by
  induction bs with
  | nil => simp [toNat]
  | cons b bs ih =>
    have := b.toNat_lt
    rw [Nat.pow_eq] at ih
    rw [toNat, List.length_cons, Nat.pow_eq, Nat.pow_succ']
    omega

theorem toInt_ofInt {width : Nat} {i : Int} (low : -(Nat.pow 256 width : Int) ≤ 2 * i)
    (high : 2 * i < Nat.pow 256 width) : toInt (ofInt width i) = i := by
  have pos : 0 < Nat.pow 256 width := Nat.pow_pos (by decide)
  have range : (i % Nat.pow 256 width).toNat < Nat.pow 256 width := by
    have := Int.emod_lt_of_pos i (b := Nat.pow 256 width) (by omega)
    have := Int.emod_nonneg i (b := Nat.pow 256 width) (by omega)
    omega
  simp only [toInt, ofInt, toNat_ofNat range, length_ofNat]
  by_cases h : 0 ≤ i
  · rw [Int.emod_eq_of_lt h (by omega)]
    split <;> omega
  · have step : i % Nat.pow 256 width = i + Nat.pow 256 width := by
      rw [← Int.add_emod_right, Int.emod_eq_of_lt (by omega) (by omega)]
    rw [step]
    split <;> omega

theorem slice?_append (front bs rest : Bytes) :
    slice? (front ++ (bs ++ rest)) front.length bs.length = some bs := by
  simp [slice?]

end Bytes

end TypedColumns
