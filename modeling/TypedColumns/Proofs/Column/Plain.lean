import TypedColumns.Proofs.Column.Sound

/-!
# Types of sound columns

A type is plain if the values of all its parts are read, and if the sizes of its lists are told by
four bytes. Every sound column in memory is of a plain type (`Sound.plain`).
-/

namespace TypedColumns

mutual

/-- No part of the type is one whose values are not read, and sizes are numbers of four bytes. -/
def DataType.Plain : DataType → Prop
  | .null | .boolean | .number _ | .text _ | .binary _ => True
  | .list _ item => item.Plain
  | .fixedSizeList item size => (0 ≤ size ∧ size < 0x8000_0000) ∧ item.Plain
  | .struct fields => Field.AllPlain fields
  | .union variants => Variant.AllPlain variants
  | .sparseUnion _ | .foreign _ => False

def Field.Plain : Field → Prop
  | ⟨_, type, _⟩ => type.Plain

def Field.AllPlain : List Field → Prop
  | [] => True
  | f :: fs => f.Plain ∧ Field.AllPlain fs

def Variant.AllPlain : List Variant → Prop
  | [] => True
  | ⟨_, f⟩ :: vs => f.Plain ∧ Variant.AllPlain vs

end

theorem Field.plain_iff (f : Field) : f.Plain ↔ f.type.Plain := by
  cases f
  rw [Field.Plain]

namespace Column

mutual

/-- A sound column in memory is of a plain type. -/
theorem Sound.plain : {c : Column} → c.Sound → c.InMemory → c.dataType.Plain
  | .list _ item _ _ items, sound, small => by
    rw [Sound] at sound
    rw [InMemory] at small
    rw [dataType, DataType.Plain, sound.1.1, Field.item, Field.Plain]
    exact sound.2.plain small.2
  | .fixedSizeList item size _ items, sound, small => by
    rw [Sound] at sound
    rw [InMemory] at small
    rw [dataType, DataType.Plain, sound.1.1, Field.item, Field.Plain]
    exact ⟨⟨sound.1.2.1, small.1.2⟩, sound.2.plain small.2⟩
  | .struct fields _ children, sound, small => by
    rw [Sound] at sound
    rw [InMemory] at small
    rw [dataType, DataType.Plain]
    exact plain_fields sound.2 small.2 sound.1.2.1 sound.1.2.2
  | .union variants _ _ children, sound, small => by
    rw [Sound] at sound
    rw [InMemory] at small
    rw [dataType, DataType.Plain]
    exact plain_variants sound.2 small.2 sound.1.1
  | .foreign _, sound, _ => sound.elim
  | .null _, _, _ | .boolean _, _, _ | .number _ _, _, _ | .text _ _, _, _ | .binary _ _, _, _ =>
    trivial

theorem plain_fields : {cs : List Column} → SoundAll cs → InMemoryAll cs → {fs : List Field} →
    {validity : List Bool} → cs.length = fs.length → fieldFault? validity fs cs = none →
    Field.AllPlain fs
  | _, _, _, [], _, _, _ => trivial
  | [], _, _, _ :: _, _, same, _ => nomatch same
  | _ :: _, sound, small, f :: _, _, same, clean => by
    obtain ⟨⟨type, -⟩, others⟩ := fieldFault?_cons.1 clean
    refine ⟨?_, plain_fields sound.2 small.2 (Nat.succ.inj same) others⟩
    rw [f.plain_iff, ← type]
    exact sound.1.plain small.1

theorem plain_variants : {cs : List Column} → SoundAll cs → InMemoryAll cs → {vs : List Variant} →
    cs.map dataType = vs.map (·.field.type) → Variant.AllPlain vs
  | _, _, _, [], _ => trivial
  | [], _, _, _ :: _, types => nomatch types
  | _ :: _, sound, small, ⟨_, f⟩ :: _, types => by
    obtain ⟨type, others⟩ := List.cons.inj types
    refine ⟨?_, plain_variants sound.2 small.2 others⟩
    rw [f.plain_iff, show f.type = _ from type.symm]
    exact sound.1.plain small.1

end

end Column

end TypedColumns
