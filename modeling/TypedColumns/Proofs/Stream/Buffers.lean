import TypedColumns.Proofs.Column.Sound
import TypedColumns.Stream.Parts

/-!
# Buffers read back

Each kind of buffer of a column gives back what it was made of: numbers of one width, the marks of
the rows, offsets, and the texts and byte strings that offsets delimit.
-/

namespace TypedColumns

/-! ## Texts between characters -/

namespace Bytes

/-- A byte that may begin a character does not continue one. -/
theorem starts_of_isUTF8FirstByte {b : UInt8} (first : b.IsUTF8FirstByte) :
    b.toNat < 0x80 ∨ 0xc0 ≤ b.toNat := by
  have all : ∀ n : Fin 256, (UInt8.ofFin n).IsUTF8FirstByte → n.val < 0x80 ∨ 0xc0 ≤ n.val := by
    decide +kernel
  exact all b.toFin first

/-- No text begins in the middle of a character. -/
theorem starts_of_ofString {s : String} {b : UInt8} {bs : Bytes} (text : ofString s = b :: bs) :
    b.toNat < 0x80 ∨ 0xc0 ≤ b.toNat := by
  have size : 0 < s.toByteArray.size := by
    show 0 < (ofString s).length
    rw [text]
    exact Nat.succ_pos _
  have head : s.toByteArray[0] = b := by
    have first : (ofString s)[0]? = some b := by rw [text]; rfl
    exact (List.getElem?_eq_some_iff.1 first).2
  apply starts_of_isUTF8FirstByte
  rw [← head]
  exact s.isValidUTF8.isUTF8FirstByte_getElem_zero size

/-- In front of a text and behind the last one is no character to be in the middle of. -/
theorem isBoundary_append (front : Bytes) (texts : List String) :
    isBoundary (front ++ (texts.map ofString).flatten) front.length = true := by
  rw [isBoundary, List.getElem?_append_right (Nat.le_refl _), Nat.sub_self]
  induction texts with
  | nil => simp
  | cons s texts ih =>
    rw [List.map_cons, List.flatten_cons]
    cases text : ofString s with
    | nil => exact ih
    | cons b bs =>
      show (b.toNat < 0x80 || 0xc0 ≤ b.toNat) = true
      simpa using starts_of_ofString text

end Bytes

namespace Stream

/-! ## Numbers -/

/-- Words that fit their width are read back. -/
theorem words_ofNat {width : Nat} {ns : List Nat} (small : ∀ n ∈ ns, n < Nat.pow 256 width) :
    words width (ns.flatMap (Bytes.ofNat width)) ns.length = ns := by
  induction ns with
  | nil => rfl
  | cons n ns ih =>
    have own := Bytes.toNat_ofNat (small n List.mem_cons_self)
    have others := ih fun m mem => small m (List.mem_cons_of_mem n mem)
    have length : (Bytes.ofNat width n).length = width := Bytes.length_ofNat width n
    rw [List.flatMap_cons, List.length_cons, words, List.take_left' length, own,
      List.drop_left' length, others]

theorem length_flatMap_ofNat (width : Nat) (ns : List Nat) :
    (ns.flatMap (Bytes.ofNat width)).length = ns.length * width := by
  induction ns with
  | nil => simp
  | cons n ns ih =>
    rw [List.flatMap_cons, List.length_append, Bytes.length_ofNat, ih, List.length_cons,
      Nat.succ_mul, Nat.add_comm]

/-- The slots of present rows are those that hold something. -/
theorem slotsOf_getD {α : Type} (slots : List (Option α)) (usual : α) :
    slotsOf (slots.map Option.isSome) (slots.map (·.getD usual)) = slots := by
  rw [slotsOf, List.zipWith_map, List.zipWith_self]
  refine (List.map_congr_left fun slot _ => ?_).trans (List.map_id slots)
  cases slot with
  | none => rfl
  | some a => rfl

theorem readNumbers_numberBuffer {t : NumberType} (slots : List (Option t.Bits)) :
    readNumbers t slots.length (numberBuffer slots) = some (slots.map (·.getD 0)) := by
  -- A slot without a number is written as zero, so the buffer is that of the numbers alone.
  have buffer : numberBuffer slots =
      (slots.map fun slot => (slot.getD 0).toNat).flatMap (Bytes.ofNat t.bytes) := by
    rw [numberBuffer, List.flatMap_map]
    congr 1
    funext slot
    cases slot with
    | none => rfl
    | some n => rfl
  have small : ∀ n ∈ slots.map fun slot => (slot.getD 0).toNat, n < Nat.pow 256 t.bytes := by
    intro n mem
    obtain ⟨slot, -, rfl⟩ := List.mem_map.1 mem
    have bound := (slot.getD 0).isLt
    rw [Nat.pow_mul] at bound
    exact bound
  have read := words_ofNat small
  rw [List.length_map] at read
  rw [readNumbers, buffer, length_flatMap_ofNat, List.length_map, if_pos (Nat.le_refl _), read,
    List.map_map]
  congr 1
  apply List.map_congr_left
  intro slot _
  show BitVec.ofNat _ (slot.getD 0).toNat = slot.getD 0
  rw [BitVec.ofNat_toNat, BitVec.setWidth_eq]

/-! ## Marks -/

theorem flatMap_byteBits_full (count : Nat) :
    (List.replicate count 0xff).flatMap Bytes.Bitmap.byteBits =
      List.replicate (8 * count) true := by
  have byte : Bytes.Bitmap.byteBits 0xff = List.replicate 8 true := by decide
  induction count with
  | zero => rfl
  | succ count ih =>
    rw [List.replicate_succ, List.flatMap_cons, ih, byte, List.replicate_append_replicate]
    congr 1
    omega

/-- A bitmap of `count` set bits has no other bit in front of them. -/
theorem bits?_full (count : Nat) :
    Bytes.Bitmap.bits? count (Bytes.Bitmap.full count) = some (List.replicate count true) := by
  have enough : count ≤ 8 * Bytes.Bitmap.byteCount count := by
    unfold Bytes.Bitmap.byteCount
    omega
  rw [Bytes.Bitmap.bits?, Bytes.Bitmap.length_full, if_pos (Nat.le_refl _), Bytes.Bitmap.full,
    flatMap_byteBits_full, List.take_replicate, Nat.min_eq_left enough]

theorem bits?_validityBuffer (validity : List Bool) :
    Bytes.Bitmap.bits? validity.length (validityBuffer validity) = some validity := by
  rw [validityBuffer]
  split
  · next all =>
    have same : validity = List.replicate validity.length true :=
      List.eq_replicate_of_mem fun b mem => List.all_eq_true.1 all b mem
    rw [bits?_full, ← same]
  · have packed := Bytes.Bitmap.bits_pack validity []
    rwa [List.append_nil] at packed

theorem readBitmap_validityBuffer (validity : List Bool) :
    readBitmap ⟨validity.length, validity.count false⟩ (validityBuffer validity) =
      some validity := by
  simp only [readBitmap, bits?_validityBuffer, Option.bind_eq_bind, Option.bind_some, if_true,
    Option.pure_def]

/-- Without an absent row, all rows are marked as present. -/
theorem eq_replicate_of_count {validity : List Bool} (none : validity.count false = 0) :
    List.replicate validity.length true = validity := by
  refine (List.eq_replicate_of_mem fun b mem => ?_).symm
  cases b with
  | true => rfl
  | false => exact absurd mem (List.count_eq_zero.1 none)

theorem count_lt {validity : List Bool} (small : validity.length < Column.addressBound) :
    validity.count false < Column.addressBound :=
  Nat.lt_of_le_of_lt List.count_le_length small

theorem readValidity_validityBuffer {validity : List Bool}
    (small : validity.length < Column.addressBound) :
    readValidity ⟨validity.length, validity.count false⟩ (validityBuffer validity) =
      some validity := by
  have sign : ¬ 1 <<< 63 ≤ validity.count false := Nat.not_le_of_lt (count_lt small)
  rw [readValidity]
  split
  · next clear =>
    exact congrArg some (eq_replicate_of_count (clear.resolve_right sign))
  · exact readBitmap_validityBuffer validity

/-- The marks of a struct are read if there are any. -/
theorem readMarks_validityBuffer (validity : List Bool) :
    readMarks ⟨validity.length, validity.count false⟩ (validityBuffer validity) =
      some (if validity.count false = 0 then none else some validity) := by
  rw [readMarks]
  by_cases clear : validity.count false = 0
  · rw [if_pos clear, if_pos clear]
  · rw [if_neg clear, if_neg clear, readBitmap_validityBuffer]
    rfl

/-! ## Offsets -/

theorem bound_le_pow (width : OffsetWidth) : width.bound ≤ Nat.pow 256 width.bytes := by
  cases width <;> decide

/-- Offsets that climb are in order. -/
theorem ascending_of_climbs {limit start : Nat} {stops : List Nat}
    (climbs : Column.Climbs limit start stops) : ascending limit (start :: stops) = true := by
  induction stops generalizing start with
  | nil => exact decide_eq_true climbs
  | cons stop rest ih =>
    rw [ascending, Bool.and_eq_true]
    exact ⟨decide_eq_true climbs.1, ih climbs.2⟩

/-- Offsets are read back, also those of a column without rows, of which nothing is written. -/
theorem readOffsets_offsetBuffer {width : OffsetWidth} {limit : Nat} {stops : List Nat}
    (climbs : Column.Climbs limit 0 stops) (small : ∀ offset ∈ 0 :: stops, offset < width.bound) :
    readOffsets width stops.length limit (offsetBuffer width (0 :: stops)) =
      some (0 :: stops) := by
  cases stops with
  | nil => rfl
  | cons stop rest =>
    have several : ¬ (0 :: stop :: rest).length ≤ 1 := by
      rw [List.length_cons, List.length_cons]
      omega
    have rows : ¬ (stop :: rest).length = 0 := Nat.succ_ne_zero _
    have fits : ∀ offset ∈ 0 :: stop :: rest, offset < Nat.pow 256 width.bytes :=
      fun offset mem => Nat.lt_of_lt_of_le (small offset mem) (bound_le_pow width)
    have read := words_ofNat fits
    rw [List.length_cons] at read
    have full : ((0 :: stop :: rest).flatMap (Bytes.ofNat width.bytes)).length =
        ((stop :: rest).length + 1) * width.bytes := by
      rw [length_flatMap_ofNat, List.length_cons (a := 0)]
    rw [offsetBuffer, if_neg several, readOffsets, if_neg fun empty => rows empty.1,
      if_pos (Nat.le_of_eq full.symm)]
    simp only [read, ascending_of_climbs climbs, if_true]

/-! ## Runs of bytes -/

/-- Where runs of bytes end, if the first one starts at `start`. -/
def runStops (start : Nat) : List Bytes → List Nat
  | [] => []
  | bs :: rest => (start + bs.length) :: runStops (start + bs.length) rest

theorem runOffsets_eq (start : Nat) (runs : List Bytes) :
    runOffsets start runs = start :: runStops start runs := by
  induction runs generalizing start with
  | nil => rfl
  | cons bs rest ih => rw [runOffsets, runStops, ih]

@[simp] theorem length_runStops (start : Nat) (runs : List Bytes) :
    (runStops start runs).length = runs.length := by
  induction runs generalizing start with
  | nil => rfl
  | cons bs rest ih => rw [runStops, List.length_cons, List.length_cons, ih]

theorem climbs_runStops (start : Nat) (runs : List Bytes) :
    Column.Climbs (start + runs.flatten.length) start (runStops start runs) := by
  induction runs generalizing start with
  | nil => exact Nat.le_refl _
  | cons bs rest ih =>
    have next := ih (start + bs.length)
    rw [Nat.add_assoc, ← List.length_append, ← List.flatten_cons] at next
    exact ⟨Nat.le_add_right _ _, next⟩

theorem le_of_mem_climbs {limit start offset : Nat} {stops : List Nat}
    (climbs : Column.Climbs limit start stops) (mem : offset ∈ start :: stops) :
    offset ≤ limit := by
  induction stops generalizing start with
  | nil =>
    obtain rfl := List.mem_singleton.1 mem
    exact climbs
  | cons stop rest ih =>
    rcases List.mem_cons.1 mem with rfl | mem
    · exact Column.Climbs.start_le climbs
    · exact ih climbs.2 mem

/-- The runs that the offsets delimit are those that were put one behind the other. -/
theorem byteRuns_runOffsets (front : Bytes) (runs : List Bytes) :
    byteRuns (front ++ runs.flatten) (runOffsets front.length runs) = runs := by
  induction runs generalizing front with
  | nil => rfl
  | cons bs rest ih =>
    have next := ih (front ++ bs)
    rw [List.append_assoc, ← List.flatten_cons, List.length_append] at next
    rw [runOffsets_eq] at next
    rw [runOffsets_eq, runStops, byteRuns, next, List.drop_left, Nat.add_sub_cancel_left,
      List.flatten_cons, List.take_left]

theorem isBoundary_runOffsets (front : Bytes) (texts : List String) :
    ∀ offset ∈ runOffsets front.length (texts.map Bytes.ofString),
      Bytes.isBoundary (front ++ (texts.map Bytes.ofString).flatten) offset = true := by
  induction texts generalizing front with
  | nil =>
    intro offset mem
    obtain rfl := List.mem_singleton.1 mem
    exact Bytes.isBoundary_append front []
  | cons s texts ih =>
    intro offset mem
    rcases List.mem_cons.1 mem with rfl | mem
    · exact Bytes.isBoundary_append front (s :: texts)
    · have next := ih (front ++ Bytes.ofString s)
      rw [List.append_assoc, List.length_append] at next
      exact next offset mem

/-- Texts are read back from their bytes and offsets. -/
theorem readTexts_runOffsets (texts : List String) :
    readTexts (texts.map Bytes.ofString).flatten (runOffsets 0 (texts.map Bytes.ofString)) =
      some texts := by
  have boundaries := isBoundary_runOffsets [] texts
  have runs := byteRuns_runOffsets [] (texts.map Bytes.ofString)
  have between : (runOffsets 0 (texts.map Bytes.ofString)).all
      (Bytes.isBoundary (texts.map Bytes.ofString).flatten) = true :=
    List.all_eq_true.2 boundaries
  rw [readTexts, between, Bool.not_true, Bool.and_false, if_neg Bool.false_ne_true]
  rw [List.nil_append, List.length_nil] at runs
  rw [runs, List.mapM_map]
  have each : Bytes.toString? ∘ Bytes.ofString = some := funext Bytes.toString?_ofString
  show texts.mapM (Bytes.toString? ∘ Bytes.ofString) = some texts
  rw [each]
  simpa using List.mapM_pure (m := Option) (l := texts) (f := id)

end Stream

end TypedColumns
