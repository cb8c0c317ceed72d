import TypedColumns.Proofs.Handle.Columns
import TypedColumns.Proofs.Handle.Rows

/-!
# Columns that can be wrapped

A finished column is of the type that its codec declares, so `Cell.wrap` has only one thing to say
against it as an argument: a row is marked as absent though the type's field requires values. The
handle itself adds no such row. A codec may: it is free to write a missing row for a value, and a
codec that leaves its values to another one declares a field that requires values, whatever the
other one declares.

So columns can be wrapped (`Codec.Wrappable`) wherever values are not written as missing rows
(`Codec.Presents`), and a type that wraps `Component.FuzzOptional` is as good as its values.
-/

namespace TypedColumns

universe u v

/-! ## Rows marked as absent -/

def ItemBuilder.absent : ItemBuilder → Nat
  | .null _ => 0
  | .boolean slots => slots.toList.countP Option.isNone
  | .number _ slots => slots.toList.countP Option.isNone
  | .text _ slots => slots.toList.countP Option.isNone
  | .binary _ slots => slots.toList.countP Option.isNone
  | .list _ rows _ => (rows.toList.map (·.1)).count false
  | .fixedSizeList _ validity _ => validity.toList.count false

/-- The number of rows that the builder itself marks as absent. -/
def Builder.absent : Builder → Nat
  | .item items => items.absent
  | .struct _ validity _ => validity.toList.count false
  | .union _ _ _ => 0

theorem count_isSome {α : Type} (slots : List (Option α)) :
    (slots.map Option.isSome).count false = slots.countP Option.isNone := by
  rw [List.count_eq_countP, List.countP_map]
  apply List.countP_congr
  rintro (_ | a) - <;> simp

/-- Marks that may be left out are those of rows that are there. -/
theorem count_marks (validity : List Bool) (rows : Nat) :
    ((Column.marks? validity).getD (List.replicate rows true)).count false =
      validity.count false := by
  unfold Column.marks?
  split
  · rfl
  · next all =>
    rw [Option.getD_none, List.count_eq_zero.2, List.count_eq_zero.2]
    · exact fun mem => all (List.contains_iff_mem.2 mem)
    · exact fun mem => Bool.false_ne_true (List.eq_of_mem_replicate mem)

theorem ItemBuilder.nullCount_of_column? {b : ItemBuilder} {c : Column}
    (column : b.column? = some c) : c.nullCount = b.absent := by
  cases b with
  | list width rows items =>
    obtain ⟨_, _, rfl⟩ := Option.map_eq_some_iff.1 column
    rfl
  | fixedSizeList size validity items =>
    obtain ⟨_, _, made⟩ := Option.bind_eq_some_iff.1 column
    split at made
    · cases made
      change (listMarks size validity.toList).count false = validity.toList.count false
      rw [listMarks]
      split
      · exact count_marks validity.toList 0
      · rfl
    · cases made
  | null length =>
    cases column
    rfl
  | boolean slots =>
    cases column
    exact count_isSome slots.toList
  | number type slots =>
    cases column
    exact count_isSome slots.toList
  | text width slots =>
    cases column
    exact count_isSome slots.toList
  | binary width slots =>
    cases column
    exact count_isSome slots.toList

/-- A finished column marks the rows as absent that its builder did. -/
theorem Builder.nullCount_of_finish {b : Builder} {c : Column} (finished : b.finish.1 = .ok c) :
    c.nullCount = b.absent := by
  cases b with
  | item items =>
    have taken : items.finish.1 = .ok c := finished
    rw [ItemBuilder.finish] at taken
    split at taken
    · cases taken
    · cases taken
    · next column =>
      cases taken
      exact ItemBuilder.nullCount_of_column? column
  | struct fields validity children =>
    rw [finish] at finished
    split at finished
    · cases finished
    · split at finished
      · cases finished
      · next columns rest inner =>
        have made : Column.structOf fields (Column.marks? validity.toList) columns = .ok c :=
          finished
        cases columns with
        | nil => cases made
        | cons first others =>
          rw [Column.structOf] at made
          split at made
          · cases made
          · split at made
            · cases made
            · cases made
              exact count_marks validity.toList first.length
  | union variants rows children =>
    rw [finish] at finished
    split at finished
    · cases finished
    · split at finished
      · cases finished
      · obtain rfl := Column.unionOf_eq finished
        rfl

/-! ## What is said against a column -/

theorem Cell.wrap_of_columnFault? {d : Descriptor} {a : HeldColumn} {fault : ArgumentFault}
    (found : columnFault? d a.column = some fault) (options : CellOptions) (l : Ledger) :
    (wrap d a options l).1 = .error (.argument fault) := by
  simp only [wrap, found]

theorem Cell.columnFault?_of_wrap {d : Descriptor} {a : HeldColumn} {options : CellOptions}
    {l : Ledger} {e : CellError} (refused : (wrap d a options l).1 = .error e)
    (kind : e.kind = .invalidArgument) : ∃ fault, columnFault? d a.column = some fault := by
  cases found : columnFault? d a.column with
  | some fault => exact ⟨fault, rfl⟩
  | none =>
    simp only [wrap, found] at refused
    split at refused
    · cases refused
      cases kind
    · split at refused
      · cases refused
        cases kind
      · cases refused

/-- The one thing that can be said against a column of the right type. -/
theorem Cell.columnFault?_of_type {d : Descriptor} {c : Column} (type : c.dataType = d.dataType) :
    columnFault? d c =
      if d.nullable = false ∧ 0 < c.nullCount then some (.columnNulls d.name) else none := by
  rw [columnFault?, if_neg fun other => other type]
  cases d.nullable <;> simp

theorem Column.nullCount_of_isUnion {c : Column} (union : c.dataType.isUnion = true) :
    c.nullCount = 0 := by
  cases c with
  | union variants ids offsets children => rfl
  | foreign type => rfl
  | _ => cases union

/-- Rows that are missing are marked as absent, except in unions and where nothing else is held. -/
theorem Column.nullCount_eq_missing {c : Column} (other : c.dataType.isUnion = false)
    (valued : c.dataType ≠ .null) : c.nullCount = c.missing.count true := by
  have slots {α : Type} (as : List (Option α)) :
      (as.map Option.isSome).count false = (as.map Option.isNone).count true := by
    rw [count_isSome, List.count_eq_countP, List.countP_map]
    apply List.countP_congr
    rintro (_ | a) - <;> simp
  have marks (validity : List Bool) : validity.count false = (validity.map not).count true := by
    rw [List.count_eq_countP, List.count_eq_countP, List.countP_map]
    apply List.countP_congr
    rintro (_ | _) - <;> simp
  cases c with
  | null length => exact absurd rfl valued
  | boolean as => exact slots as
  | number type as => exact slots as
  | text width as => exact slots as
  | binary width as => exact slots as
  | list width item validity offsets items => exact marks validity
  | fixedSizeList item size validity items => exact marks validity
  | struct fields validity children => exact marks validity
  | union variants ids offsets children => cases other
  | foreign type => rfl

/-! ## The builder of a building handle -/

namespace Handle

variable {α : Type u} [Footprint α] {c : Codec α}

/-- What holds of a new builder and is kept by every write that succeeds holds of the builder as
long as the handle is building. -/
theorem building_of_runs {P : Builder → Prop} (new : P c.newBuilder)
    (write : ∀ as {b b'}, P b → (c.appendAll as).apply b = (.ok (), b') → P b')
    (null : c.descriptor.acceptsNulls = true → ∀ {b b'}, P b →
      c.appendNull.apply b = (.ok (), b') → P b')
    {past : List (Call α × Answer)} {h : Handle} (run : Runs c (fresh c) past h) :
    h.descriptor = c.descriptor ∧ (h.state.closed? = none → P h.builder) := by
  induction run with
  | start => exact ⟨rfl, fun _ => new⟩
  | @call past h run call l ih =>
    obtain ⟨descriptor, kept⟩ := ih
    refine ⟨by rw [descriptor_call, descriptor], ?_⟩
    intro building
    cases closed : h.state.closed? with
    | some why =>
      rw [call_closed c closed] at building
      rw [closed] at building
      cases building
    | none =>
      obtain ⟨held, state⟩ := closed?_eq_none closed
      have before := kept closed
      cases call with
      | append batch =>
        cases read : batch.values with
        | error fault =>
          rw [call_invalidBatch c l state read]
          exact before
        | ok values =>
          by_cases nonempty : values = []
          · subst nonempty
            rw [call_emptyBatch c l state read]
            exact before
          · cases grown : l.arena.grow (Footprint.totals values) with
            | error refusal =>
              rw [call_refusedBatch c l state read nonempty grown] at building
              cases building
            | ok arena =>
              rw [call_admittedBatch c l state read nonempty grown] at building ⊢
              rcases written : (c.appendAll values).apply h.builder with ⟨_ | _, b'⟩
              · rw [written] at building
                cases building
              · exact write values before written
      | appendNull =>
        cases accepts : h.descriptor.acceptsNulls with
        | false =>
          rw [call_refusedNull c l state accepts]
          exact before
        | true =>
          rw [call_acceptedNull c l state accepts] at building ⊢
          rcases written : c.appendNull.apply h.builder with ⟨_ | _, b'⟩
          · rw [written] at building
            cases building
          · exact null (descriptor ▸ accepts) before written
      | finalize =>
        rw [call_finalize c l state] at building
        split at building <;> cases building

end Handle

/-! ## Codecs -/

namespace Codec

variable {α : Type u} [Footprint α] {β : Type v} [Footprint β]

/-- No column that a history gives is an invalid argument as a column of the codec's type. -/
def Wrappable (c : Codec α) : Prop :=
  ∀ {capacity : Nat} {l₀ l₁ : Ledger} {h₀ h : Handle} {past : List (Handle.Call α × Handle.Answer)}
    {a : HeldColumn}, Handle.acquire c capacity (some l₀) = .ok (h₀, l₁) →
    Handle.Runs c h₀ past h → a ∈ Handle.columns past → ∀ (options : CellOptions) (l : Ledger) e,
      (Cell.wrap c.descriptor a options l).1 = .error e → e.kind ≠ .invalidArgument

/-- Only values, not missing rows, come of appending values. -/
structure Presents (c : Codec α) : Prop where
  newBuilder : c.newBuilder.absent = 0
  append : ∀ a {b b'}, b.absent = 0 → (c.append a).apply b = (.ok (), b') → b'.absent = 0
  appendAll : ∀ as {b b'}, b.absent = 0 → (c.appendAll as).apply b = (.ok (), b') → b'.absent = 0

/-- Nothing but absent rows of a type that takes none can be said against a column. -/
theorem wrappable_of_present {c : Codec α}
    (present : c.descriptor.acceptsNulls = false → ∀ {past h},
      Handle.Runs c (Handle.fresh c) past h → h.state.closed? = none → h.builder.absent = 0) :
    c.Wrappable := by
  intro capacity l₀ l₁ h₀ h past a acquired run mem options l e refused kind
  obtain ⟨rfl, -⟩ := Handle.acquire_eq acquired
  obtain ⟨earlier, h', l', before, finalized⟩ := Handle.column_of_runs run mem
  obtain ⟨state, finished, type⟩ := Handle.column_of_finalize finalized
  rw [((Handle.kept_acquire acquired).run before).descriptor] at type
  obtain ⟨fault, found⟩ := Cell.columnFault?_of_wrap refused kind
  rw [Cell.columnFault?_of_type type] at found
  split at found
  · next strict =>
    obtain ⟨required, some⟩ := strict
    cases union : c.descriptor.dataType.isUnion with
    | true =>
      have none := Column.nullCount_of_isUnion (type ▸ union)
      omega
    | false =>
      have strict : c.descriptor.acceptsNulls = false := by
        rw [Descriptor.acceptsNulls, required, union]
        rfl
      have none := Builder.nullCount_of_finish finished
      rw [present strict before (by rw [state]; rfl)] at none
      omega
  · cases found

theorem Presents.wrappable {c : Codec α} (presents : c.Presents) : c.Wrappable := by
  apply wrappable_of_present
  intro strict past h run
  refine (Handle.building_of_runs presents.newBuilder presents.appendAll ?_ run).2
  intro accepts
  rw [strict] at accepts
  cases accepts

/-- A codec that leaves its values to another one presents them if that one does. -/
theorem Presents.delegate {inner : Codec β} (presents : inner.Presents) (name : String)
    (get : α → β) : (delegate name inner get).Presents := by
  have append (a : α) {b b' : Builder} (before : b.absent = 0)
      (done : (inner.append (get a)).apply b = (.ok (), b')) : b'.absent = 0 :=
    presents.append (get a) before done
  refine ⟨presents.newBuilder, append, ?_⟩
  intro as
  induction as with
  | nil =>
    rintro b b' before done
    cases done
    exact before
  | cons a as ih =>
    rintro b b' before done
    obtain ⟨b₁, first, rest⟩ := Write.apply_bind_ok done
    exact ih (append a before first) rest

/-- A row is marked as absent just where it reads as missing, except in unions. -/
theorem Keeps.absent {c : Codec α} {build : List (Option α) → Builder} {value : Option α → Value}
    (keeps : c.Keeps build value) (other : c.descriptor.dataType.isUnion = false)
    (valued : c.descriptor.dataType ≠ .null) (rows : List (Option α)) :
    (build rows).absent = rows.countP fun row => (value row).isMissing := by
  obtain ⟨column, finished, holds⟩ := keeps.finishes rows
  rw [← Builder.nullCount_of_finish finished, Column.nullCount_eq_missing (holds.dataType ▸ other)
    (holds.dataType ▸ valued), holds.missing, List.count_eq_countP, List.countP_map,
    List.countP_map]
  apply List.countP_congr
  rintro row - <;> simp

/-- A value is written to a new handle, and the column is handed out. -/
theorem Keeps.column_of_value {c : Codec α} {build : List (Option α) → Builder}
    {value : Option α → Value} (keeps : c.Keeps build value) (a : α) :
    ∃ past h column held, Handle.Runs c (Handle.fresh c) past h ∧
      ⟨column, held⟩ ∈ Handle.columns past ∧
      column.Holds c.descriptor.dataType [value (some a)] := by
  have read : (Batch.ofList [a]).values = .ok [a] := Batch.values_ofList [a]
  have grown := Arena.grow_tracking (a := (Ledger.opened .tracking).arena) rfl
    (Footprint.totals [a])
  have written := keeps.appendAll [] [a]
  rw [← keeps.newBuilder] at written
  have after := Handle.call_admittedBatch c (.opened .tracking) (h := Handle.fresh c) rfl read
    (List.cons_ne_nil a []) grown
  have run : Handle.Runs c (Handle.fresh c) _ _ :=
    Handle.Runs.start.call (.append (.ofList [a])) (.opened .tracking)
  rw [after, Handle.fresh, written] at run
  obtain ⟨column, finished, holds⟩ := keeps.finishes ([] ++ [a].map some)
  obtain ⟨past, h, run, mem⟩ :=
    run.finalize rfl finished holds.dataType ⟨holds.types, holds.offsets⟩
  exact ⟨past, h, column, _, run, mem, holds⟩

/-- A codec that keeps its rows gives columns that can be wrapped just if its type takes missing
rows, or if no value reads as one. -/
theorem Faithful.wrappable_iff {c : Codec α} {value : Option α → Value}
    (faithful : c.Faithful value) (valued : c.descriptor.dataType ≠ .null) :
    c.Wrappable ↔ c.descriptor.acceptsNulls = true ∨ ∀ a, (value (some a)).isMissing = false := by
  obtain ⟨build, keeps⟩ := faithful
  have plain (strict : c.descriptor.acceptsNulls = false) :
      c.descriptor.nullable = false ∧ c.descriptor.dataType.isUnion = false :=
    Bool.or_eq_false_iff.1 strict
  constructor
  · intro wrappable
    cases strict : c.descriptor.acceptsNulls with
    | true => exact .inl rfl
    | false =>
      refine .inr fun a => ?_
      obtain ⟨past, h, column, held, run, mem, holds⟩ := keeps.column_of_value a
      cases missing : (value (some a)).isMissing with
      | false => rfl
      | true =>
        have count : column.nullCount = 1 := by
          rw [Column.nullCount_eq_missing (holds.dataType ▸ (plain strict).2)
            (holds.dataType ▸ valued), holds.missing, List.map_singleton, missing]
          rfl
        have found : Cell.columnFault? c.descriptor column = some (.columnNulls c.name) := by
          rw [Cell.columnFault?_of_type holds.dataType, count,
            if_pos ⟨(plain strict).1, Nat.one_pos⟩]
          rfl
        have acquired : Handle.acquire c 0 (some (.opened .tracking)) = .ok (Handle.fresh c, _) :=
          rfl
        exact absurd rfl (wrappable acquired run mem .standard (.opened .tracking) _
          (Cell.wrap_of_columnFault? found _ _))
  · rintro (accepts | present)
    · apply wrappable_of_present
      intro strict
      rw [accepts] at strict
      cases strict
    · apply wrappable_of_present
      intro strict past h run building
      have values : ∃ as : List α, h.builder = build (as.map some) := by
        refine (Handle.building_of_runs (P := fun b => ∃ as : List α, b = build (as.map some))
          ⟨[], keeps.newBuilder⟩ ?_ ?_ run).2 building
        · rintro as b b' ⟨before, rfl⟩ done
          rw [keeps.appendAll] at done
          cases done
          exact ⟨before ++ as, by rw [List.map_append]⟩
        · intro accepts
          rw [strict] at accepts
          cases accepts
      obtain ⟨as, builder⟩ := values
      rw [builder, keeps.absent (plain strict).2 valued, List.countP_map, List.countP_eq_zero]
      rintro a - missing
      rw [Function.comp_apply, present a] at missing
      cases missing

theorem fuzzOptional_present (record : Component.FuzzOptional) :
    (readFuzzRecord (Component.FuzzOptional.record? (some record))).isMissing = false ↔
      record.value.isSome = true := by
  rcases record with ⟨_ | r⟩
  · exact ⟨nofun, nofun⟩
  · exact ⟨fun _ => rfl, fun _ => rfl⟩

/-- A number is never written as a missing row. -/
theorem number_presents (type : NumberType) : (number type).Presents := by
  have item {f : ItemBuilder → Option ItemBuilder}
      (kept : ∀ {items items'}, items.absent = 0 → f items = some items' → items'.absent = 0)
      {b b' : Builder} (before : b.absent = 0)
      (done : (Write.changeItem (number type).name f).apply b = (.ok (), b')) : b'.absent = 0 := by
    cases b with
    | item items =>
      cases changed : f items with
      | none =>
        simp [Write.changeItem, Write.change, Write.of, Write.apply, Builder.mapItem?,
          changed] at done
      | some items' =>
        rw [Write.apply_changeItem changed] at done
        cases done
        exact kept before changed
    | struct fields validity children => cases done
    | union variants rows children => cases done
  refine ⟨rfl, fun a {b b'} => item ?_, fun as {b b'} => item ?_⟩
  · rintro items items' before changed
    cases items with
    | number t slots =>
      rw [ItemBuilder.appendNumber?] at changed
      split at changed
      · cases changed
        simpa [ItemBuilder.absent] using before
      · cases changed
    | _ => cases changed
  · rintro items items' before changed
    cases items with
    | number t slots =>
      rw [ItemBuilder.appendNumbers?] at changed
      split at changed
      · cases changed
        simpa [ItemBuilder.absent, List.countP_map] using before
      · cases changed
    | _ => cases changed

end Codec

/-- Of the types of the library, only one has values that read as missing. -/
theorem ShippedType.isMissing_read {t : ShippedType} (other : t ≠ .fuzzOptional) (a : t.Values) :
    (t.read (some a)).isMissing = false := by
  have shows : t.shown (some a) ≠ none := by
    cases t with
    | fuzzOptional => exact absurd rfl other
    | _ => exact Option.some_ne_none _
  cases missing : (t.read (some a)).isMissing with
  | false => rfl
  | true => exact absurd ((t.discerns.missing _).1 missing) shows

theorem ShippedType.dataType_ne_null (t : ShippedType) : t.codec.descriptor.dataType ≠ .null := by
  cases t <;> exact nofun

/-- The columns of every type of the library can be wrapped. -/
theorem ShippedType.wrappable (t : ShippedType) : t.codec.Wrappable := by
  refine (t.faithful.wrappable_iff t.dataType_ne_null).2 ?_
  by_cases optional : t = .fuzzOptional
  · exact .inl (optional ▸ rfl)
  · exact .inr (ShippedType.isMissing_read optional)

namespace Codec

/-- The columns of every type of the library can be wrapped, and so can those of every type that
leaves its values to a codec that presents them, or to a type of the library other than
`fuzzOptional`. If values are left to a codec that keeps its rows, all is well just if none of them
reads as missing there, or if the type is a union; so for `fuzzOptional` no record may be absent.
To leave values to a type that leaves them to another one is to leave them to that one at once, so
this is so at any depth. -/
theorem wrappable_of_delegate {α β : Type} [Footprint α] [Footprint β] (t : ShippedType)
    (inner : Codec β) (name : String) (get : α → β) :
    t.codec.Wrappable ∧
    (inner.Presents → (delegate name inner get).Presents ∧ (delegate name inner get).Wrappable) ∧
    (∀ value, inner.Faithful value → inner.descriptor.dataType ≠ .null →
      ((delegate name inner get).Wrappable ↔ inner.descriptor.dataType.isUnion = true ∨
        ∀ a, (value (some (get a))).isMissing = false)) ∧
    (t ≠ .fuzzOptional → ∀ get : α → t.Values, (delegate name t.codec get).Wrappable) ∧
    (∀ get : α → Component.FuzzOptional,
      (delegate name fuzzOptional get).Wrappable ↔ ∀ a, (get a).value.isSome = true) ∧
    ∀ {γ : Type} [Footprint γ] (outer : String) (f : γ → α),
      delegate outer (delegate name inner get) f = delegate outer inner (get ∘ f) := by
  refine ⟨?_, fun presents => ?_, fun value faithful valued => ?_, fun other get => ?_,
    fun get => ?_, fun _ _ => rfl⟩
  · refine (t.faithful.wrappable_iff t.dataType_ne_null).2 ?_
    by_cases optional : t = .fuzzOptional
    · exact .inl (optional ▸ rfl)
    · exact .inr (ShippedType.isMissing_read optional)
  · exact ⟨presents.delegate name get, (presents.delegate name get).wrappable⟩
  · exact (delegate_faithful name faithful).wrappable_iff valued
  · refine ((delegate_faithful name t.faithful).wrappable_iff t.dataType_ne_null).2 ?_
    exact .inr fun a => ShippedType.isMissing_read other (get a)
  · have faithful : (delegate name fuzzOptional get).Faithful _ :=
      delegate_faithful name fuzzOptional_faithful
    have valued : (delegate name fuzzOptional get).descriptor.dataType ≠ .null := nofun
    rw [faithful.wrappable_iff valued]
    constructor
    · rintro (accepts | present) a
      · cases accepts
      · exact (fuzzOptional_present (get a)).1 (present a)
    · exact fun present => .inr fun a => (fuzzOptional_present (get a)).2 (present a)

/-- Two types around a number. -/
theorem wrappable_meters : (number .float32).Presents ∧ meters.Wrappable := by
  have presents := number_presents .float32
  exact ⟨presents, ((wrappable_of_delegate .radius (number .float32) "test.Meters"
    fun m : Irregular.Meters => m.value.value).2.1 presents).2⟩

/-- An absent record is accepted as a value of a type that requires values, and the column that is
handed out is refused as one of that type. -/
theorem wrappedOptional_refused : ∃ past h a,
    Handle.Runs wrappedOptional (Handle.fresh wrappedOptional) past h ∧
      a ∈ Handle.columns past ∧ wrappedOptional.descriptor.nullable = false ∧
      a.column.rows = [.missing] ∧
      ∀ options l, (Cell.wrap wrappedOptional.descriptor a options l).1 =
        .error (.argument (.columnNulls "test.WrappedOptional")) := by
  obtain ⟨build, keeps⟩ : wrappedOptional.Faithful _ := delegate_faithful _ fuzzOptional_faithful
  obtain ⟨past, h, column, held, run, mem, holds⟩ := keeps.column_of_value ⟨⟨none⟩⟩
  have count : column.nullCount = 1 := by
    rw [Column.nullCount_eq_missing (holds.dataType ▸ rfl) (holds.dataType ▸ nofun), holds.missing]
    rfl
  have found : Cell.columnFault? wrappedOptional.descriptor column =
      some (.columnNulls "test.WrappedOptional") := by
    rw [Cell.columnFault?_of_type holds.dataType, count, if_pos ⟨rfl, Nat.one_pos⟩]
    rfl
  exact ⟨past, h, _, run, mem, rfl, holds.rows, Cell.wrap_of_columnFault? found⟩

end Codec

end TypedColumns
