import TypedColumns.Bytes.LittleEndian

/-!
# Bitmaps

Truth values are packed eight to a byte, the first in the least significant bit; spare bits of the
last byte are zero. Reading the bits of a bitmap back gives the values that were packed
(`bits_pack`).
-/

namespace TypedColumns.Bytes.Bitmap

/-- The number whose binary digits are the given bits, least significant first. -/
def byteValue : List Bool → Nat
  | [] => 0
  | b :: bs => b.toNat + 2 * byteValue bs

/-- Packs bits into bytes. -/
def pack (bits : List Bool) : Bytes :=
  match bits with
  | [] => []
  | b :: bs => UInt8.ofNat (byteValue ((b :: bs).take 8)) :: pack ((b :: bs).drop 8)
termination_by bits.length
decreasing_by simp only [List.length_drop, List.length_cons]; omega

/-- The number of bytes that hold `n` bits. -/
def byteCount (n : Nat) : Nat := (n + 7) / 8

/-- A bitmap of `n` set bits fills its last byte too. -/
def full (n : Nat) : Bytes := List.replicate (byteCount n) 0xff

/-- The bits of one byte, least significant first. -/
def byteBits (b : UInt8) : List Bool := (List.range 8).map b.toNat.testBit

/-- The first `n` bits, if the bytes hold as many. -/
def bits? (n : Nat) (bs : Bytes) : Option (List Bool) :=
  if byteCount n ≤ bs.length then some ((bs.flatMap byteBits).take n) else none

theorem length_pack (bits : List Bool) : (pack bits).length = byteCount bits.length := by
  fun_induction pack bits with
  | case1 => rfl
  | case2 b bs ih =>
    simp only [List.length_cons, ih, List.length_drop, byteCount]
    omega

@[simp] theorem length_full (n : Nat) : (full n).length = byteCount n := by
  simp [full]

theorem byteValue_lt (bits : List Bool) : byteValue bits < 1 <<< bits.length := by
  induction bits with
  | nil => simp [byteValue]
  | cons b bs ih =>
    rw [Nat.shiftLeft_eq, Nat.one_mul] at ih
    rw [byteValue, List.length_cons, Nat.shiftLeft_eq, Nat.one_mul, Nat.pow_succ']
    cases b <;> simp <;> omega

theorem testBit_byteValue (bits : List Bool) (i : Nat) :
    (byteValue bits).testBit i = bits.getD i false := by
  induction bits generalizing i with
  | nil => simp [byteValue]
  | cons b bs ih =>
    cases i with
    | zero => cases b <;> simp [byteValue, Nat.testBit_zero]
    | succ i =>
      have half : (b.toNat + 2 * byteValue bs) / 2 = byteValue bs := by cases b <;> simp; omega
      rw [byteValue, Nat.testBit_succ, half, ih]
      simp

/-- A byte packed from up to eight bits holds them, followed by zeros. -/
theorem byteBits_byteValue {bits : List Bool} (h : bits.length ≤ 8) :
    byteBits (UInt8.ofNat (byteValue bits)) = bits ++ List.replicate (8 - bits.length) false := by
  have range : byteValue bits < 256 := by
    have short := byteValue_lt bits
    rw [Nat.shiftLeft_eq, Nat.one_mul] at short
    exact Nat.lt_of_lt_of_le short (Nat.pow_le_pow_right (by decide) h)
  have value : (UInt8.ofNat (byteValue bits)).toNat = byteValue bits := by
    simp [Nat.mod_eq_of_lt range]
  apply List.ext_getElem
  · simp [byteBits]; omega
  · intro i hi _
    simp only [byteBits, value, List.getElem_map, List.getElem_range, testBit_byteValue]
    by_cases hb : i < bits.length
    · simp [List.getElem_append_left hb, List.getD_eq_getElem?_getD, hb]
    · simp [List.getElem_append_right (Nat.le_of_not_lt hb), List.getD_eq_getElem?_getD, hb]

theorem take_flatMap_pack (bits : List Bool) (rest : Bytes) :
    ((pack bits ++ rest).flatMap byteBits).take bits.length = bits := by
  fun_induction pack bits with
  | case1 => simp
  | case2 b bs ih =>
    have split : (b :: bs).take 8 ++ (b :: bs).drop 8 = b :: bs := List.take_append_drop 8 _
    have short : ((b :: bs).take 8).length ≤ 8 := List.length_take_le 8 _
    rw [List.cons_append, List.flatMap_cons, byteBits_byteValue short]
    by_cases h : (b :: bs).length ≤ 8
    · have whole : (b :: bs).take 8 = b :: bs := List.take_of_length_le h
      rw [whole, List.append_assoc, List.take_append_of_le_length (Nat.le_refl _), List.take_length]
    · have eight : ((b :: bs).take 8).length = 8 := by
        rw [List.length_take]; omega
      have count : (b :: bs).length = ((b :: bs).take 8).length + ((b :: bs).drop 8).length := by
        rw [← List.length_append, split]
      rw [eight, Nat.sub_self, List.replicate_zero, List.append_nil, count,
        List.take_length_add_append, ih, split]

/-- What was packed is read back, whatever bytes follow. -/
theorem bits_pack (bits : List Bool) (rest : Bytes) :
    bits? bits.length (pack bits ++ rest) = some bits := by
  have enough : byteCount bits.length ≤ (pack bits ++ rest).length := by
    rw [List.length_append, length_pack]; omega
  rw [bits?, if_pos enough, take_flatMap_pack]

end TypedColumns.Bytes.Bitmap
