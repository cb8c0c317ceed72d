import TypedColumns.Cell

/-!
# Encoding in one go

`encode` takes a batch through a handle of its own and gives the finished column; `toCell` goes on
to make a cell of it, and gives the column back only then. Nothing stays behind in the arena when
they fail.
-/

namespace TypedColumns.Encoder

universe u

variable {α : Type u} [Footprint α]

/-- Fills a new handle. An empty run of values is not appended at all. -/
def fill (codec : Codec α) (values : List α) (h : Handle) (l : Ledger) :
    Except CellError Unit × Handle × Ledger :=
  if values.isEmpty then (.ok (), h, l) else h.append codec (.ofList values) l

/-- The column of the values of a batch. -/
def encode (codec : Codec α) (batch : Batch α) (l : Ledger) :
    Except CellError HeldColumn × Ledger :=
  match batch.values with
  | .error fault => (.error (.argument (.batch fault)), l)
  | .ok values =>
    match Handle.acquire codec values.length (some l) with
    | .error e => (.error e, l)
    | .ok (h, l) =>
      match fill codec values h l with
      | (.error e, h, l) => (.error e, h.drop l)
      | (.ok (), h, l) =>
        let (result, h, l) := h.finalize l
        (result, h.drop l)

/-- The cell of the values of a batch. -/
def toCell (codec : Codec α) (batch : Batch α) (options : CellOptions) (l : Ledger) :
    Except CellError Cell × Ledger :=
  match encode codec batch l with
  | (.error e, l) => (.error e, l)
  | (.ok a, l) =>
    let (result, l) := Cell.wrap codec.descriptor a options l
    (result, a.drop l)

end TypedColumns.Encoder
