import TypedColumns.Bytes.LittleEndian

/-!
# Texts as bytes

Texts are written in UTF-8. Reading gives a text only for bytes that are well formed, and gives
back the text that was written (`toString?_ofString`).
-/

namespace TypedColumns.Bytes

def ofString (s : String) : Bytes := s.toUTF8.data.toList

def toString? (bs : Bytes) : Option String := String.fromUTF8? ⟨bs.toArray⟩

/-- Whether a position is between two characters of a well-formed text. -/
def isBoundary (bs : Bytes) (i : Nat) : Bool :=
  match bs[i]? with
  | none => i == bs.length
  | some b => b.toNat < 0x80 || 0xc0 ≤ b.toNat

@[simp] theorem length_ofString (s : String) : (ofString s).length = s.utf8ByteSize := rfl

@[simp] theorem toString?_ofString (s : String) : toString? (ofString s) = some s :=
  dif_pos s.isValidUTF8

end TypedColumns.Bytes
