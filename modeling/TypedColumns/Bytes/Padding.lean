import TypedColumns.Bytes.LittleEndian

/-!
# Padding

A buffer that starts on a multiple of the alignment is filled up with zero bytes, so that what
follows starts on a multiple again.
-/

namespace TypedColumns.Bytes

/-- The number of bytes from `n` to the next multiple of `alignment`. -/
def paddingTo (alignment n : Nat) : Nat := (alignment - n % alignment) % alignment

/-- The bytes filled up to a multiple of `alignment`. -/
def padTo (alignment : Nat) (bs : Bytes) : Bytes := bs ++ zeros (paddingTo alignment bs.length)

theorem dvd_add_paddingTo {alignment : Nat} (h : 0 < alignment) (n : Nat) :
    alignment ∣ n + paddingTo alignment n := by
  have lt := Nat.mod_lt n h
  have split := Nat.div_add_mod n alignment
  by_cases zero : n % alignment = 0
  · rw [paddingTo, zero, Nat.sub_zero, Nat.mod_self, Nat.add_zero]
    exact Nat.dvd_of_mod_eq_zero zero
  · have : paddingTo alignment n = alignment - n % alignment := Nat.mod_eq_of_lt (by omega)
    exact ⟨n / alignment + 1, by rw [this, Nat.mul_add, Nat.mul_one]; omega⟩

@[simp] theorem length_padTo (alignment : Nat) (bs : Bytes) :
    (padTo alignment bs).length = bs.length + paddingTo alignment bs.length := by
  simp [padTo]

end TypedColumns.Bytes
