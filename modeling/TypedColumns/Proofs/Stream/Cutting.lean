import TypedColumns.Proofs.Stream.RoundTrip

/-!
# Streams that are cut off

The reader cannot tell the end of a stream from a stream that ends early between two messages: less
than the four bytes of a length count as the end (`next?_of_short`). A message of which more than
that is left, but not all, is not read (`next?_cut_frame`, `next?_cut_body`).

So a stream that is cut off behind its schema has no columns, and one that is cut off in its end
mark has them all (`readFields_take`, `Batched.columns?_take`).
-/

namespace TypedColumns.Stream

open Column (addressBound)

/-! ## Messages that are cut off -/

section Messages

variable {table body bs : Bytes} {n : Nat}

theorem slice?_of_short (short : bs.length < n) : Bytes.slice? bs 0 n = none := by
  rw [Bytes.slice?, if_neg (by omega)]

/-- Where not even a length is left, the stream is finished. -/
theorem next?_of_short (short : bs.length < 4) : next? bs = some .finished := by
  rw [next?, frameLength?, slice?_of_short short]
  rfl

theorem length_take_lt {k : Nat} (cut : n < k) : (bs.take n).length < k :=
  Nat.lt_of_le_of_lt (List.length_take_le n bs) cut

/-- A continuation mark has a length behind it. -/
theorem frameLength?_cut (o : WriteOptions) (begun : 4 ≤ n) (cut : n < (frameMark o).length + 4) :
    frameLength? ((frameMark o ++ bs).take n) = none := by
  cases legacy : o.legacyFraming with
  | true =>
    rw [frameMark, if_pos legacy, List.length_nil] at cut
    omega
  | false =>
    have mark : frameMark o = continuation := by
      rw [frameMark, if_neg (Bool.eq_false_iff.1 legacy)]
    have size : continuation.length = 4 := rfl
    have marked : Bytes.slice? (continuation ++ bs.take (n - 4)) 0 4 = some continuation :=
      slice?_front continuation _
    have rest : (continuation ++ bs.take (n - 4)).drop 4 = bs.take (n - 4) :=
      List.drop_left' size
    have short : (bs.take (n - 4)).length < 4 := length_take_lt (by rw [mark, size] at cut; omega)
    rw [mark, List.take_append, List.take_of_length_le (by omega), size, frameLength?, marked]
    simp only [if_true, rest, slice?_of_short short]
    rfl

/-- A frame of which only a part is left is not read. -/
theorem next?_cut_frame (o : WriteOptions) (pos : 0 < table.length)
    (small : (padded o table).length < 0x8000_0000) (begun : 4 ≤ n)
    (cut : n < (frame o table).length) : next? ((frame o table).take n) = none := by
  have filled : (padded o table).length ≠ 0 :=
    Nat.ne_of_gt (Nat.lt_of_lt_of_le pos (length_le_padded o table))
  have whole := frame_append o table []
  rw [List.append_nil, List.append_nil] at whole
  rw [whole] at cut ⊢
  by_cases early : n < (frameMark o).length + 4
  · rw [next?, frameLength?_cut o begun early]
    rfl
  · have head : (frameMark o ++ (Bytes.ofNat 4 (padded o table).length ++ padded o table)).take n =
        frameMark o ++ (Bytes.ofNat 4 (padded o table).length ++
          (padded o table).take (n - (frameMark o).length - 4)) := by
      rw [List.take_append, List.take_of_length_le (by omega), List.take_append,
        List.take_of_length_le (by rw [Bytes.length_ofNat]; omega), Bytes.length_ofNat]
    rw [List.length_append, List.length_append, Bytes.length_ofNat] at cut
    rw [head, next?, frameLength?_mark o small, if_neg filled]
    simp only [Option.bind_eq_bind, Option.bind_some]
    rw [slice?_of_short (length_take_lt (by omega))]
    rfl

/-- A message whose body is not all there is not read. -/
theorem next?_cut_body (o : WriteOptions) (pos : 0 < table.length)
    (small : (padded o table).length < 0x8000_0000) {m : Message}
    (read : readMessage (padded o table) = some m) (length : m.bodyLength = body.length)
    (cut : n < body.length) : next? (frame o table ++ body.take n) = none := by
  rw [next?_frame o pos small, read]
  simp only [Option.bind_eq_bind, Option.bind_some]
  rw [slice?_of_short (length ▸ length_take_lt cut)]
  rfl

theorem next?_cut_endFrame (o : WriteOptions) (begun : 4 ≤ n) (cut : n < (endFrame o).length) :
    next? ((endFrame o).take n) = none := by
  rw [endFrame, List.length_append, Bytes.length_ofNat] at cut
  rw [next?, endFrame, frameLength?_cut o begun cut]
  rfl

end Messages

/-! ## Streams of a column -/

section Columns

variable {o : WriteOptions} {field : Field} {c : Column} {n : Nat}

/-- The length of the schema at the front of a stream. -/
def schemaLength (o : WriteOptions) (field : Field) : Nat := (frame o (schemaTable o field)).length

/-- The length of the batch with its body. -/
def batchLength (o : WriteOptions) (c : Column) : Nat :=
  (frame o (columnTable o c)).length + (columnBody o c).length

theorem batchLength_pos (o : WriteOptions) (c : Column) : 0 < batchLength o c := by
  rw [batchLength, frame, List.length_append, List.length_append, List.length_append,
    Bytes.length_ofNat]
  omega

theorem length_write (o : WriteOptions) (field : Field) (c : Column) :
    (write o field c).length =
      schemaLength o field + (batchLength o c + (endFrame o).length) := by
  rw [write_eq, afterSchema_eq, List.length_append, List.length_append, List.length_append,
    schemaLength, batchLength, Nat.add_assoc (frame o (columnTable o c)).length]

theorem schemaTable_pos (o : WriteOptions) (plain : field.Plain) :
    0 < (schemaTable o field).length := by
  obtain ⟨step, placed⟩ := writeSchema_spec plain
  obtain ⟨message, -⟩ := writeMessage_spec o.version .schema 0 step placed.le
  exact message.pos

/-- The fields of a stream are told by the whole schema, and by nothing less. -/
theorem readFields_take (plain : field.Plain) (fits : SchemaFits o field) :
    readFields ((write o field c).take n) =
      if schemaLength o field ≤ n ∧ field.Legible then
        some ([field], (afterSchema o c).take (n - schemaLength o field))
      else none := by
  rw [write_eq]
  by_cases whole : schemaLength o field ≤ n
  · rw [List.take_append, List.take_of_length_le whole, readFields_frame o plain fits]
    simp only [whole, true_and]
    rfl
  · have cut : n < (frame o (schemaTable o field)).length := Nat.lt_of_not_le whole
    rw [List.take_append_of_le_length (Nat.le_of_lt cut), if_neg fun both => whole both.1,
      readFields]
    by_cases begun : 4 ≤ n
    · rw [next?_cut_frame o (schemaTable_pos o plain) fits begun cut]
      rfl
    · rw [next?_of_short (length_take_lt (Nat.lt_of_not_le begun))]
      rfl

/-- A batch of which only a part is left is not read. -/
theorem Batched.next?_take {m : Message} (batched : Batched o field c m) (begun : 4 ≤ n)
    (cut : n < batchLength o c) : next? ((afterSchema o c).take n) = none := by
  rw [afterSchema_eq]
  by_cases inFrame : n < (frame o (columnTable o c)).length
  · rw [List.take_append_of_le_length (Nat.le_of_lt inFrame)]
    exact next?_cut_frame o batched.pos batched.fits begun inFrame
  · have inBody : n - (frame o (columnTable o c)).length < (columnBody o c).length := by
      rw [batchLength] at cut
      omega
    rw [List.take_append, List.take_of_length_le (Nat.le_of_not_lt inFrame),
      List.take_append_of_le_length (Nat.le_of_lt inBody)]
    exact next?_cut_body o batched.pos batched.fits batched.message batched.bodyLength inBody

/-- A whole batch is read, and what is left of the end mark decides whether the stream is. -/
theorem Batched.columns?_endFrame {m : Message} (batched : Batched o field c m) (k : Nat) :
    columns? field (frame o (columnTable o c) ++ (columnBody o c ++ (endFrame o).take k)) =
      if 4 ≤ k ∧ k < (endFrame o).length then none else some [c.compact] := by
  obtain ⟨fuel, columns⟩ := batched.columns_append ((endFrame o).take k)
  rw [columns, readBatches]
  by_cases begun : 4 ≤ k
  · by_cases cut : k < (endFrame o).length
    · rw [next?_cut_endFrame o begun cut, if_pos ⟨begun, cut⟩]
      rfl
    · rw [List.take_of_length_le (Nat.le_of_not_lt cut), next?_endFrame,
        if_neg fun both => cut both.2]
      rfl
  · rw [next?_of_short (length_take_lt (Nat.lt_of_not_le begun)), if_neg fun both => begun both.1]
    rfl

/-- What a stream that ends `n` bytes behind its schema still has of its column: nothing, which
counts as no batch, or a part, which is not read, or the column. -/
theorem Batched.columns?_take {m : Message} (batched : Batched o field c m) :
    columns? field ((afterSchema o c).take n) =
      if n < 4 then some []
      else if n < batchLength o c then none
      else if 4 ≤ n - batchLength o c ∧ n - batchLength o c < (endFrame o).length then none
      else some [c.compact] := by
  by_cases short : n < 4
  · rw [if_pos short, columns?, readBatches, next?_of_short (length_take_lt short)]
    rfl
  rw [if_neg short]
  by_cases cut : n < batchLength o c
  · rw [if_pos cut, columns?, readBatches, batched.next?_take (Nat.le_of_not_lt short) cut]
    rfl
  · have whole : (afterSchema o c).take n = frame o (columnTable o c) ++
        (columnBody o c ++ (endFrame o).take (n - batchLength o c)) := by
      rw [batchLength] at cut
      rw [afterSchema_eq, List.take_append, List.take_of_length_le (by omega), List.take_append,
        List.take_of_length_le (by omega), Nat.sub_sub]
      rfl
    rw [if_neg cut, whole]
    exact batched.columns?_endFrame _

end Columns

end TypedColumns.Stream
