import TypedColumns.Proofs.Stream.Messages

/-!
# Frames and bodies read back

A frame is read back with the body that its message speaks of, in either framing
(`next?_frame`).
The buffers of a body are where the places say (`slices_bodyOf`).
-/

namespace TypedColumns.Stream

/-! ## Frames -/

section Frames

variable {table rest : Bytes}

/-- A table as its frame has it, filled up to the alignment. -/
def padded (o : WriteOptions) (table : Bytes) : Bytes :=
  table ++ Bytes.zeros (Bytes.paddingTo o.alignment (table.length + ((frameMark o).length + 4)))

theorem length_padded_le (o : WriteOptions) (table : Bytes) :
    (padded o table).length ≤ table.length + 63 := by
  have padding := FlatTable.paddingTo_lt o.alignment_pos
    (table.length + ((frameMark o).length + 4))
  have most : o.alignment ≤ 64 := by
    have := o.alignment_mem
    simp only [List.mem_cons, List.not_mem_nil, or_false] at this
    omega
  rw [padded, List.length_append, Bytes.length_zeros]
  omega

theorem length_le_padded (o : WriteOptions) (table : Bytes) :
    table.length ≤ (padded o table).length := by
  rw [padded, List.length_append]
  exact Nat.le_add_right _ _

theorem frame_append (o : WriteOptions) (table rest : Bytes) :
    frame o table ++ rest =
      frameMark o ++ (Bytes.ofNat 4 (padded o table).length ++ (padded o table ++ rest)) := by
  have length : (padded o table).length =
      table.length + Bytes.paddingTo o.alignment (table.length + ((frameMark o).length + 4)) := by
    rw [padded, List.length_append, Bytes.length_zeros]
  rw [length, frame, padded]
  simp only [List.append_assoc]

theorem slice?_front (bs rest : Bytes) : Bytes.slice? (bs ++ rest) 0 bs.length = some bs :=
  Bytes.slice?_append [] bs rest

theorem slice?_length {n : Nat} : Bytes.slice? (Bytes.ofNat 4 n ++ rest) 0 4 =
    some (Bytes.ofNat 4 n) := by
  have front := slice?_front (Bytes.ofNat 4 n) rest
  rwa [Bytes.length_ofNat] at front

/-- No length has a sign, so none is taken for a mark. -/
theorem ofNat_ne_continuation {n : Nat} (small : n < 0x8000_0000) :
    Bytes.ofNat 4 n ≠ continuation := by
  intro same
  have value := congrArg Bytes.toNat same
  rw [Bytes.toNat_ofNat (FlatTable.lt_pow small)] at value
  have mark : Bytes.toNat continuation = 0xffff_ffff := by decide
  omega

/-- The length in front of a frame's table is read in both framings. -/
theorem frameLength?_mark (o : WriteOptions) {n : Nat} (small : n < 0x8000_0000) :
    frameLength? (frameMark o ++ (Bytes.ofNat 4 n ++ rest)) =
      some (if n = 0 then none else some (n, rest)) := by
  have value : Bytes.toInt (Bytes.ofNat 4 n) = (n : Int) := by
    have wide : Nat.pow 256 4 = 0x1_0000_0000 := by decide
    rw [Bytes.toInt, Bytes.toNat_ofNat (FlatTable.lt_pow small), Bytes.length_ofNat,
      if_pos (by omega)]
  have behind : (Bytes.ofNat 4 n ++ rest).drop 4 = rest := by
    have cut : (Bytes.ofNat 4 n ++ rest).drop (Bytes.ofNat 4 n).length = rest := List.drop_left
    rwa [Bytes.length_ofNat] at cut
  have told : (do
      let length := Bytes.toInt (← (Bytes.ofNat 4 n ++ rest).slice? 0 4)
      if length < 0 then none
      else if length = 0 then return none
      else return some (length.toNat, (Bytes.ofNat 4 n ++ rest).drop 4)) =
      some (if n = 0 then none else some (n, rest)) := by
    simp only [slice?_length, Option.bind_eq_bind, Option.bind_some, value, behind,
      Int.toNat_natCast]
    rw [if_neg (by omega)]
    by_cases zero : n = 0
    · rw [if_pos (by omega), if_pos zero]
      rfl
    · rw [if_neg (by omega), if_neg zero]
      rfl
  cases legacy : o.legacyFraming with
  | true =>
    have mark : frameMark o = [] := by rw [frameMark, if_pos legacy]
    rw [mark, List.nil_append, frameLength?, slice?_length]
    dsimp only
    rw [if_neg (ofNat_ne_continuation small)]
    exact told
  | false =>
    have mark : frameMark o = continuation := by
      rw [frameMark, if_neg (Bool.eq_false_iff.1 legacy)]
    have marked : Bytes.slice? (continuation ++ (Bytes.ofNat 4 n ++ rest)) 0 4 =
        some continuation := slice?_front continuation _
    rw [mark, frameLength?, marked]
    exact told

/-- What comes next is the message of the frame, with the body that it speaks of. -/
theorem next?_frame (o : WriteOptions) (pos : 0 < table.length)
    (small : (padded o table).length < 0x8000_0000) :
    next? (frame o table ++ rest) = do
      let m ← readMessage (padded o table)
      return .message m (← rest.slice? 0 m.bodyLength) (rest.drop m.bodyLength) := by
  have least := length_le_padded o table
  rw [next?, frame_append, frameLength?_mark o small, if_neg (by omega)]
  simp only [Option.bind_eq_bind, Option.bind_some, slice?_front, List.drop_left]

theorem next?_endFrame (o : WriteOptions) : next? (endFrame o) = some .finished := by
  have zero : frameLength? (frameMark o ++ (Bytes.ofNat 4 0 ++ [])) = some none :=
    frameLength?_mark o (by decide)
  rw [List.append_nil] at zero
  rw [next?, endFrame, zero]
  rfl

end Frames

/-! ## Bodies -/

/-- Each buffer is where its place says. -/
theorem slices_bodyOf (alignment : Nat) (front : Bytes) (buffers : List Bytes) :
    (bufferPlaces alignment front.length buffers).map (fun (start, length) =>
      (front ++ bodyOf alignment buffers).slice? start length) = buffers.map some := by
  induction buffers generalizing front with
  | nil => rfl
  | cons bs rest ih =>
    have others := ih (front ++ Bytes.padTo alignment bs)
    have whole : front ++ bodyOf alignment (bs :: rest) =
        front ++ Bytes.padTo alignment bs ++ bodyOf alignment rest := by
      rw [bodyOf, List.flatMap_cons, ← List.append_assoc]
      rfl
    have own : (front ++ bodyOf alignment (bs :: rest)).slice? front.length bs.length =
        some bs := by
      rw [whole, Bytes.padTo, List.append_assoc, List.append_assoc]
      exact Bytes.slice?_append front bs _
    rw [List.length_append] at others
    rw [bufferPlaces, List.map_cons, List.map_cons, ← others, ← whole]
    exact congrArg (· :: _) own

/-- Buffers are within the body. -/
theorem le_of_mem_bufferPlaces {alignment start : Nat} {buffers : List Bytes} {place : Nat × Nat}
    (mem : place ∈ bufferPlaces alignment start buffers) :
    place.1 + place.2 ≤ start + (bodyOf alignment buffers).length := by
  induction buffers generalizing start with
  | nil => cases mem
  | cons bs rest ih =>
    have whole : (bodyOf alignment (bs :: rest)).length =
        (Bytes.padTo alignment bs).length + (bodyOf alignment rest).length := by
      rw [bodyOf, List.flatMap_cons, List.length_append]
      rfl
    have own : bs.length ≤ (Bytes.padTo alignment bs).length := by
      rw [Bytes.length_padTo]
      exact Nat.le_add_right _ _
    rcases List.mem_cons.1 mem with rfl | mem
    · dsimp only
      omega
    · have := ih mem
      omega

theorem available_map_some {α : Type} (as : List α) : available (as.map some) = as := by
  induction as with
  | nil => rfl
  | cons a as ih => rw [List.map_cons, available, ih]

/-- The buffers of a body are taken from where their places say. -/
theorem available_bodyOf (alignment : Nat) (buffers : List Bytes) :
    available ((bufferPlaces alignment 0 buffers).map fun (start, length) =>
      (bodyOf alignment buffers).slice? start length) = buffers := by
  have slices := slices_bodyOf alignment [] buffers
  exact (congrArg available slices).trans (available_map_some buffers)

end TypedColumns.Stream
