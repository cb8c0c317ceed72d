import TypedColumns.Proofs.Codec.Discerning

/-!
# Ways of feeding rows

Rows reach a builder in many ways: value by value, as a run of values at once, as missing values, or
as optional values (`Feed`). If a codec keeps its rows, only the rows count and not the way
(`Feed.run_of_keeps`). Of a row in turn only that counts which shows in a column: the codecs of this
library write nothing else of it (`ShippedType.writesShown`), so two rows that show the same leave
the same builder, for instance an absent record given as a value and a missing row.
-/

namespace TypedColumns

universe u v

/-- One call that writes rows to a builder. -/
inductive Feed (α : Type u)
  | value (a : α)
  | values (as : List α)
  | missing
  | optional (row : Option α)

namespace Feed

variable {α : Type u}

/-- The rows that a call writes. -/
def rows : Feed α → List (Option α)
  | value a => [some a]
  | values as => as.map some
  | missing => [none]
  | optional row => [row]

variable [Footprint α] {c : Codec α} {build : List (Option α) → Builder} {value : Option α → Value}

def write (c : Codec α) : Feed α → Write
  | .value a => c.append a
  | values as => c.appendAll as
  | missing => c.appendNull
  | optional row => c.appendOption row

/-- The answers to calls, one after the other, and the builder that they leave. A call that fails is
followed by the next one all the same. -/
def run (c : Codec α) : List (Feed α) → Builder → List (Except CellError Unit) × Builder
  | [], b => ([], b)
  | f :: fs, b =>
    let (answer, b) := (f.write c).apply b
    let (answers, b) := run c fs b
    (answer :: answers, b)

theorem apply_write (keeps : c.Keeps build value) (f : Feed α) (rows : List (Option α)) :
    (f.write c).apply (build rows) = (.ok (), build (rows ++ f.rows)) := by
  cases f with
  | value a => exact keeps.append rows a
  | values as => exact keeps.appendAll rows as
  | missing => exact keeps.appendNull rows
  | optional row => exact keeps.appendOption rows row

/-- However rows are fed, no call fails, and the builder is that of the rows. -/
theorem run_of_keeps (keeps : c.Keeps build value) (fs : List (Feed α)) (before : List (Option α)) :
    run c fs (build before) = (fs.map fun _ => .ok (), build (before ++ fs.flatMap rows)) := by
  induction fs generalizing before with
  | nil => rw [List.flatMap_nil, List.append_nil, run, List.map_nil]
  | cons f fs ih =>
    rw [run, apply_write keeps, List.flatMap_cons, List.map_cons, ← List.append_assoc]
    simp only [ih]

end Feed

/-! ## Rows that show the same -/

namespace Codec

variable {α : Type u} [Footprint α] {β : Type v} [Footprint β]

/-- Of a row, the codec writes only what shows. -/
def WritesShown (c : Codec α) (shown : Option α → Option α) : Prop :=
  ∀ row b, ((c.appendOption (shown row)).apply b).2 = ((c.appendOption row).apply b).2

/-- Rows of which the same shows come to the same builder. -/
theorem Keeps.build_alike {c : Codec α} {build : List (Option α) → Builder}
    {value : Option α → Value} {shown : Option α → Option α} (keeps : c.Keeps build value)
    (writes : c.WritesShown shown) {rows rows' : List (Option α)}
    (alike : rows.map shown = rows'.map shown) : build rows = build rows' := by
  have fed (rows : List (Option α)) :
      build rows = (Feed.run c (rows.map .optional) c.newBuilder).2 := by
    have each : (rows.map Feed.optional).flatMap Feed.rows = rows := by
      induction rows with
      | nil => rfl
      | cons row rows ih => rw [List.map_cons, List.flatMap_cons, ih]; rfl
    rw [keeps.newBuilder, Feed.run_of_keeps keeps, each]
    rfl
  have plain (rows : List (Option α)) (b : Builder) :
      (Feed.run c ((rows.map shown).map .optional) b).2 =
        (Feed.run c (rows.map .optional) b).2 := by
    induction rows generalizing b with
    | nil => rfl
    | cons row rows ih =>
      simp only [List.map_cons, Feed.run, Feed.write, writes row b]
      exact ih _
  rw [fed rows, fed rows', ← plain rows, ← plain rows', alike]

theorem appendOption_delegate (name : String) (inner : Codec β) (get : α → β)
    (some : ∀ a, inner.appendOption (some a) = inner.append a)
    (none : inner.appendOption none = inner.appendNull) (row : Option α) :
    (delegate name inner get).appendOption row = inner.appendOption (row.map get) := by
  cases row with
  | none => exact none.symm
  | some a => exact (some (get a)).symm

/-- Values that are left to another codec are written as that one writes them. -/
theorem WritesShown.delegate {inner : Codec β} {shown : Option β → Option β}
    (writes : inner.WritesShown shown) (name : String) {get : α → β} {wrap : β → α}
    (unwraps : ∀ x, get (wrap x) = x)
    (some : ∀ a, inner.appendOption (some a) = inner.append a)
    (none : inner.appendOption none = inner.appendNull) :
    (delegate name inner get).WritesShown fun row => (shown (row.map get)).map wrap := by
  intro row b
  have same : ((shown (row.map get)).map wrap).map get = shown (row.map get) := by
    rw [Option.map_map, show get ∘ wrap = id from funext unwraps, Option.map_id, id]
  rw [appendOption_delegate name inner get some none,
    appendOption_delegate name inner get some none, same]
  exact writes (row.map get) b

theorem writesShown_id (c : Codec α) : c.WritesShown (Option.map id) := by
  intro row b
  rw [Option.map_id, id]

theorem writesShown_text : text.WritesShown (Option.map TextBuffer.trim) := by
  rintro (_ | t) b <;> rfl

theorem append_trim_texts (l : ListBuffer TextBuffer) : texts.append l.trim = texts.append l := by
  have items (b : ItemBuilder) :
      l.trim.items.foldlM (fun b value => b.mapItems? (·.appendText? value.content)) b =
        l.items.foldlM (fun b value => b.mapItems? (·.appendText? value.content)) b := by
    rw [ListBuffer.trim, ListBuffer.ofList, List.foldlM_map]
    rfl
  simp only [texts, items]

theorem writesShown_texts : texts.WritesShown (Option.map ListBuffer.trim) := by
  rintro (_ | l) b
  · rfl
  · show ((texts.append l.trim).apply b).2 = _
    rw [append_trim_texts]
    rfl

theorem append_trim_fuzzRecord (r : FuzzRecord) :
    fuzzRecord.append r.trim = fuzzRecord.append r := by
  have lists : texts.appendFieldOption 2 (r.manyStringsOptional.map ListBuffer.trim) =
      texts.appendFieldOption 2 r.manyStringsOptional := by
    cases r.manyStringsOptional with
    | none => rfl
    | some l =>
      show Write.toField 2 texts.kind (texts.append l.trim) = _
      rw [append_trim_texts]
      rfl
  simp only [fuzzRecord, FuzzRecord.trim, lists]
  rfl

theorem writesShown_fuzzRecord : fuzzRecord.WritesShown (Option.map FuzzRecord.trim) := by
  rintro (_ | r) b
  · rfl
  · show ((fuzzRecord.append r.trim).apply b).2 = _
    rw [append_trim_fuzzRecord]
    rfl

/-- The name only counts if the builder takes no missing row. -/
theorem builder_missing (name : String) (b : Builder) :
    ((Write.missing name).apply b).2 = b.appendNull.2 := by
  simp only [Write.missing, Write.of, Write.apply]
  rcases b.appendNull with ⟨_ | _, b⟩ <;> rfl

/-- An absent record is written as a missing row. -/
theorem writesShown_fuzzOptional : fuzzOptional.WritesShown fun row =>
    ((Component.FuzzOptional.record? row).map FuzzRecord.trim).map fun r => ⟨some r⟩ := by
  rintro (_ | ⟨_ | r⟩) b
  · rfl
  · exact (builder_missing _ b).trans (builder_missing _ b).symm
  · show ((fuzzRecord.append r.trim).apply b).2 = _
    rw [append_trim_fuzzRecord]
    rfl

end Codec

/-- The codecs of this library write nothing but what shows. -/
theorem ShippedType.writesShown (t : ShippedType) : t.codec.WritesShown t.shown := by
  cases t with
  | text => exact Codec.writesShown_text
  | texts => exact Codec.writesShown_texts
  | fuzzRecord => exact Codec.writesShown_fuzzRecord
  | fuzzOptional => exact Codec.writesShown_fuzzOptional
  | label =>
    exact Codec.writesShown_text.delegate _ (fun _ => rfl) (fun _ => rfl) rfl
  | labelComponent =>
    exact (Codec.writesShown_text.delegate _ (fun _ => rfl) (fun _ => rfl) rfl).delegate _
      (fun _ => rfl) (fun _ => rfl) rfl
  | radius | scalarScattering | transform3DComponent =>
    exact (Codec.writesShown_id _).delegate _ (fun _ => rfl) (fun _ => rfl) rfl
  | fuzzRequired =>
    exact Codec.writesShown_fuzzRecord.delegate _ (fun _ => rfl) (fun _ => rfl) rfl
  | _ => exact Codec.writesShown_id _

end TypedColumns
