import TypedColumns.Proofs.FlatTable.Looking
import TypedColumns.Proofs.Stream.Described

/-!
# Fields in a buffer

A field that stands in a finished draft is read back (`FieldAt.read`), if there is fuel for every
level of it, and looking through its table takes the cost of the field (`FieldAt.takes`). Both go by
recursion over the field, with the same facts about the slots of its table.
-/

namespace TypedColumns.Stream

open FlatTable (Entry TextAt VectorAt RefsAt TableAt Table Buffer Opened TextIn VectorIn RefsIn
  Numbered contentOf? slotCount slotBytes Check Cost Takes AllTake)

/-- The buffer begins with the bytes of a draft that its readers can be told of. -/
structure Begins (F : Bytes) (b : Buffer) : Prop where
  begins : F <+: b.toList
  whole : 4 ∣ F.length
  small : F.length < 0x8000_0000

/-! ## What the slots hold -/

/-- The slot is not wider than four bytes. -/
def NarrowEntry : Entry → Prop
  | .scalar v => v.length ∣ 4
  | .ref _ => True

def Narrow (entries : List (Nat × Entry)) : Prop := ∀ slot ∈ entries, NarrowEntry slot.2

theorem narrow_nil : Narrow [] := fun _ mem => absurd mem List.not_mem_nil

theorem narrow_cons {slot : Nat × Entry} {entries : List (Nat × Entry)} :
    Narrow (slot :: entries) ↔ NarrowEntry slot.2 ∧ Narrow entries :=
  List.forall_mem_cons

theorem narrow_append {entries entries' : List (Nat × Entry)} :
    Narrow (entries ++ entries') ↔ Narrow entries ∧ Narrow entries' :=
  List.forall_mem_append

theorem narrow_scalar {width : Nat} (narrow : width ∣ 4) (n : Nat) :
    NarrowEntry (.scalar (Bytes.ofNat width n)) := by
  rwa [NarrowEntry, Bytes.length_ofNat]

theorem narrow_unlessZero {width : Nat} (narrow : width ∣ 4) (slot n : Nat) :
    Narrow (Entry.unlessZero slot width n) := by
  rw [Entry.unlessZero]
  split
  · exact narrow_nil
  · exact narrow_cons.2 ⟨narrow_scalar narrow n, narrow_nil⟩

theorem narrow_numberEntries (t : NumberType) : Narrow (numberEntries t) := by
  rw [numberEntries]
  split
  · exact narrow_append.2 ⟨narrow_unlessZero (by decide) 1 _,
      narrow_cons.2 ⟨narrow_scalar (by decide) _, narrow_nil⟩⟩
  · exact narrow_unlessZero (by decide) 0 _

theorem narrow_unionEntries (ids : Nat) : Narrow (unionEntries ids) :=
  narrow_cons.2 ⟨narrow_scalar (by decide) 1, narrow_cons.2 ⟨trivial, narrow_nil⟩⟩

theorem narrow_fieldEntries (name : Nat) (type : TypeRefs) (nullable : Bool) :
    Narrow (fieldEntries name type nullable) := by
  have tag := narrow_scalar (by decide : 1 ∣ 4) type.tag.number
  rw [fieldEntries, narrow_append, narrow_append]
  refine ⟨⟨narrow_cons.2 ⟨trivial, narrow_cons.2 ⟨tag, narrow_nil⟩⟩, ?_⟩, ?_⟩
  · exact narrow_unlessZero (by decide) 1 _
  · exact narrow_cons.2 ⟨trivial, narrow_cons.2 ⟨trivial, narrow_nil⟩⟩

section FieldSlots

variable (name : Nat) (type : TypeRefs) (nullable : Bool)

theorem fieldEntries_name : contentOf? (fieldEntries name type nullable) 0 = some (.ref name) := by
  cases nullable <;> rfl

theorem fieldEntries_nullable :
    Numbered (fieldEntries name type nullable) 1 1 nullable.toNat := by
  cases nullable <;> rfl

theorem fieldEntries_tag : Numbered (fieldEntries name type nullable) 2 1 type.tag.number := by
  cases nullable <;> rfl

theorem fieldEntries_type :
    contentOf? (fieldEntries name type nullable) 3 = some (.ref type.type) := by
  cases nullable <;> rfl

theorem fieldEntries_dictionary : contentOf? (fieldEntries name type nullable) 4 = none := by
  cases nullable <;> rfl

theorem fieldEntries_children :
    contentOf? (fieldEntries name type nullable) 5 = some (.ref type.children) := by
  cases nullable <;> rfl

theorem fieldEntries_remarks : contentOf? (fieldEntries name type nullable) 6 = none := by
  cases nullable <;> rfl

theorem slotCount_fieldEntries : slotCount (fieldEntries name type nullable) = 6 := by
  cases nullable <;> rfl

end FieldSlots

theorem unionEntries_ids (ids : Nat) : contentOf? (unionEntries ids) 1 = some (.ref ids) := rfl

theorem TypeTag.number_bounds (tag : TypeTag) : tag.number ≠ 0 ∧ tag.number < 256 := by
  cases tag <;> decide

/-! ## Opening what stands in the draft -/

section Opening

variable {F : Bytes} {b : Buffer}

theorem TableAt.opened {r : Nat} {entries : List (Nat × Entry)} (placed : TableAt F r entries)
    (begins : Begins F b) (narrow : Narrow entries) :
    ∃ t : Table, t.buffer = b ∧ t.pos = F.length - r ∧ Opened F t entries :=
  placed.read begins.begins begins.whole begins.small fun i v mem =>
    Nat.dvd_trans (narrow (i, .scalar v) mem) begins.whole

/-- What the settings of a type are read from, and the places of the fields of its children. -/
theorem SettingsAt.opened {tr : TypeRefs} {tag : TypeTag} {settings : List (Nat × Entry)}
    {children : List Nat} (placed : SettingsAt F tr tag settings children)
    (begins : Begins F b) (narrow : Narrow settings) :
    (∃ s : Table, s.buffer = b ∧ s.pos = F.length - tr.type ∧ Opened F s settings) ∧
      RefsIn b (F.length - tr.children) (children.map (F.length - ·)) :=
  ⟨TableAt.opened placed.type begins narrow,
    placed.children.read begins.begins begins.whole begins.small⟩

end Opening

/-! ## Reading -/

section Reading

variable {F : Bytes} {b : Buffer}

theorem readIntType_numberEntries {s : Table} {t : NumberType} {signed : Bool}
    (opened : Opened F s (numberEntries t)) (kind : NumberClass.ofType t = .int signed) :
    readIntType s = some t := by
  have sign : Numbered (numberEntries t) 1 1 signed.toNat := by
    cases t <;> cases kind <;> rfl
  have bits : Numbered (numberEntries t) 0 4 (8 * t.bytes) := by
    cases t <;> cases kind <;> rfl
  have known : intType? (signed.toNat != 0) (8 * t.bytes) = some t := by
    cases t <;> cases kind <;> rfl
  have small : 8 * t.bytes < Nat.pow 256 4 := by cases t <;> decide
  have bit : signed.toNat < Nat.pow 256 1 := by cases signed <;> decide
  rw [readIntType, opened.word sign bit]
  simp only [Option.bind_eq_bind, Option.bind_some, opened.word bits small, known]

theorem readSettings_number {s : Table} {t : NumberType} (opened : Opened F s (numberEntries t))
    (children : Option (List Field)) :
    readSettings (numberTag t) s children = some (.number t) := by
  cases kind : NumberClass.ofType t with
  | int signed =>
    have tag : numberTag t = .int := by rw [numberTag, kind]
    rw [tag, readSettings, readIntType_numberEntries opened kind]
    rfl
  | float precision =>
    have tag : numberTag t = .float := by rw [numberTag, kind]
    have precise : Numbered (numberEntries t) 0 2 precision := by
      cases t <;> cases kind <;> rfl
    have known : floatType? precision = some t := by
      cases t <;> cases kind <;> rfl
    have small : precision < Nat.pow 256 2 := by
      cases t <;> cases kind <;> decide
    rw [tag, readSettings, opened.word precise small]
    simp only [Option.bind_eq_bind, Option.bind_some, known, Option.pure_def]

/-- The type ids of a union are read as they were written. -/
theorem readTypeIds_unionEntries {s : Table} {place : Nat} {ids : List TypeId}
    (begins : Begins F b) (buffer : s.buffer = b) (opened : Opened F s (unionEntries place))
    (vector : VectorAt F place ids.length (idBytes ids)) (count : Nat) :
    readTypeIds s count = some ids := by
  have length := length_idBytes ids
  have read : VectorIn b (F.length - place) ids.length (idBytes ids) :=
    vector.read begins.begins begins.whole begins.small (by omega)
  have each : ((List.range ids.length).map (F.length - place + 4 + 4 * ·)).mapM
      (FlatTable.int? 4 b) = some (ids.map (·.toInt)) := by
    refine FlatTable.mapM_items (fun id => Bytes.length_ofInt 4 _) ?_ read.items
    intro id _ pos range
    have low := id.le_toInt
    have high := id.toInt_lt
    have wide : (Nat.pow 256 4 : Int) = 0x1_0000_0000 := by decide
    rw [FlatTable.int?, range, Option.map_some, Bytes.toInt_ofInt (by omega) (by omega)]
  have same : (ids.map (·.toInt)).map Int8.ofInt = ids := by
    have inverse : Int8.ofInt ∘ (·.toInt) = id := funext Int8.ofInt_toInt
    rw [List.map_map, inverse, List.map_id]
  rw [readTypeIds, opened.ref? (unionEntries_ids place), buffer]
  simp only [Option.bind_eq_bind, Option.bind_some, read.vector? length, each, same,
    Option.pure_def]

/-- The fields of the tables at several positions. -/
def readAll (fuel : Nat) (b : Buffer) (targets : List Nat) : Option (List Field) := do
  (← targets.mapM (FlatTable.table? b)).mapM (readField fuel)

theorem readAll_cons {fuel target : Nat} {targets : List Nat} {t : Table} {f : Field}
    {fs : List Field} (there : FlatTable.table? b target = some t)
    (own : readField fuel t = some f) (others : readAll fuel b targets = some fs) :
    readAll fuel b (target :: targets) = some (f :: fs) := by
  obtain ⟨ts, tables, fields⟩ := Option.bind_eq_some_iff.1 others
  rw [readAll, List.mapM_cons, there, tables]
  show List.mapM (readField fuel) (t :: ts) = _
  rw [List.mapM_cons, own, fields]
  rfl

/-- A type is read from its tag, its settings and the fields of its children. -/
def ReadsType (fuel : Nat) (b : Buffer) (base : Nat) (type : DataType) (tr : TypeRefs) : Prop :=
  ∃ s, FlatTable.table? b (base - tr.type) = some s ∧
    readSettings tr.tag s ((FlatTable.tables? b (base - tr.children)).bind
      (·.mapM (readField fuel))) = some type

/-- A type without children. -/
theorem SettingsAt.reads {fuel : Nat} {type : DataType} {tr : TypeRefs} {tag : TypeTag}
    {settings : List (Nat × Entry)} {children : List Nat} {fields : List Field}
    (placed : SettingsAt F tr tag settings children) (begins : Begins F b)
    (narrow : Narrow settings)
    (below : readAll fuel b (children.map (F.length - ·)) = some fields)
    (reads : ∀ s : Table, s.buffer = b → Opened F s settings →
      readSettings tag s (some fields) = some type) : ReadsType fuel b F.length type tr := by
  obtain ⟨⟨s, buffer, pos, opened⟩, refs⟩ := SettingsAt.opened placed begins narrow
  have there := opened.table?
  rw [buffer, pos] at there
  refine ⟨s, there, ?_⟩
  rw [refs.tables?, placed.tag]
  show readSettings tag s (readAll fuel b _) = _
  rw [below]
  exact reads s buffer opened

theorem numbered_unlessZero (slot width n : Nat) :
    Numbered (Entry.unlessZero slot width n) slot width n := by
  rw [Numbered, Entry.unlessZero]
  split
  · rfl
  · rw [contentOf?, List.find?_cons, BEq.rfl]
    rfl

theorem zipWith_variants (vs : List Variant) :
    List.zipWith Variant.mk (vs.map (·.id)) (vs.map (·.field)) = vs := by
  induction vs with
  | nil => rfl
  | cons v vs ih =>
    cases v
    rw [List.map_cons, List.map_cons, List.zipWith_cons_cons, ih]

theorem readSettings_union {s : Table} {place : Nat} {variants : List Variant}
    (begins : Begins F b) (buffer : s.buffer = b) (opened : Opened F s (unionEntries place))
    (vector : VectorAt F place variants.length (idBytes (variants.map (·.id)))) :
    readSettings .union s (some (variants.map (·.field))) = some (.union variants) := by
  have mode : Numbered (unionEntries place) 0 2 1 := rfl
  rw [← List.length_map (·.id)] at vector
  rw [readSettings, Option.bind_eq_bind, Option.bind_some,
    readTypeIds_unionEntries begins buffer opened vector, Option.bind_eq_bind, Option.bind_some,
    opened.word mode (by decide), zipWith_variants]
  rfl

/-- The table of a field is read once all that it leads to is. -/
theorem readField_fieldEntries {fuel name : Nat} {tr : TypeRefs} {f : Field} {t : Table}
    (begins : Begins F b) (buffer : t.buffer = b)
    (opened : Opened F t (fieldEntries name tr f.nullable)) (named : TextAt F name f.name)
    (typed : ReadsType fuel b F.length f.type tr) : readField (fuel + 1) t = some f := by
  subst buffer
  obtain ⟨s, there, settings⟩ := typed
  have text := named.read begins.begins begins.whole begins.small
  have required := opened.required (fieldEntries_name name tr f.nullable)
  have bit : f.nullable.toNat < Nat.pow 256 1 := by cases f.nullable <;> decide
  have nullable := opened.word (fieldEntries_nullable name tr f.nullable) bit
  have tag := opened.word (fieldEntries_tag name tr f.nullable) (TypeTag.number_bounds _).2
  have child : t.child 3 = some s := by
    rw [Table.child, opened.required (fieldEntries_type name tr f.nullable)]
    exact there
  have children : childTables t = FlatTable.tables? t.buffer (F.length - tr.children) := by
    rw [childTables, opened.ref? (fieldEntries_children name tr f.nullable)]
    rfl
  have dictionary : ∀ values, readDictionary t values = some values := by
    intro values
    rw [readDictionary, opened.has_absent (fieldEntries_dictionary name tr f.nullable)]
    rfl
  have flag : (f.nullable.toNat != 0) = f.nullable := by cases f.nullable <;> rfl
  simp only [readField, Option.bind_eq_bind, required, text.string?, nullable, tag,
    TypeTag.ofNumber?_number, child, children, Option.bind_some, settings, dictionary, flag]
  cases f
  rfl

mutual

/-- A type that stands in a draft is read back. -/
theorem TypeAt.read (begins : Begins F b) : {type : DataType} → {tr : TypeRefs} → {fuel : Nat} →
    type.Plain → TypeAt F type tr → type.childrenCost.depth ≤ fuel →
    ReadsType fuel b F.length type tr
  | .null, _, _, _, placed, _ | .boolean, _, _, _, placed, _ | .text .narrow, _, _, _, placed, _
  | .text .wide, _, _, _, placed, _ | .binary .narrow, _, _, _, placed, _
  | .binary .wide, _, _, _, placed, _ =>
    SettingsAt.reads placed begins narrow_nil rfl fun _ _ _ => rfl
  | .number t, _, _, _, placed, _ =>
    SettingsAt.reads placed begins (narrow_numberEntries t) rfl fun _ _ opened =>
      readSettings_number opened _
  | .list width item, _, fuel, plain, ⟨_, settings, placed⟩, deep => by
    have below : item.cost.depth ≤ fuel := Nat.le_trans (Nat.le_max_right _ _) deep
    obtain ⟨t, there, own⟩ := FieldAt.read begins plain placed below
    refine SettingsAt.reads settings begins narrow_nil (readAll_cons there own rfl) ?_
    intro _ _ _
    cases width <;> rfl
  | .fixedSizeList item size, _, fuel, ⟨⟨least, most⟩, plain⟩, ⟨_, settings, placed⟩, deep => by
    have below : item.cost.depth ≤ fuel := Nat.le_trans (Nat.le_max_right _ _) deep
    obtain ⟨t, there, own⟩ := FieldAt.read begins plain placed below
    refine SettingsAt.reads settings begins (narrow_unlessZero (by decide) 0 _)
      (readAll_cons there own rfl) ?_
    intro s _ opened
    have wide : Nat.pow 256 4 = 0x1_0000_0000 := by decide
    have read := opened.int (numbered_unlessZero 0 4 size.toNat) (by omega)
    rw [Int.toNat_of_nonneg least] at read
    show ((s.int 0 4).bind fun size => some (DataType.fixedSizeList item size)) = _
    rw [read]
    rfl
  | .struct fields, _, fuel, plain, ⟨_, settings, placed⟩, deep =>
    SettingsAt.reads settings begins narrow_nil (FieldsAt.read begins plain placed deep)
      fun _ _ _ => rfl
  | .union variants, _, fuel, plain, ⟨place, _, settings, numbers, placed⟩, deep =>
    SettingsAt.reads settings begins (narrow_unionEntries place)
      (VariantsAt.read begins plain placed deep) fun _ buffer opened =>
        readSettings_union begins buffer opened numbers
  | .sparseUnion _, _, _, _, placed, _ | .foreign _, _, _, _, placed, _ => placed.elim

/-- A field that stands in a draft is read back. -/
theorem FieldAt.read (begins : Begins F b) : {f : Field} → {r : Nat} → {fuel : Nat} →
    f.Plain → FieldAt F f r → f.cost.depth ≤ fuel →
    ∃ t, FlatTable.table? b (F.length - r) = some t ∧ readField fuel t = some f
  | ⟨name, type, nullable⟩, r, 0, _, _, deep => absurd deep (Nat.not_succ_le_zero _)
  | ⟨name, type, nullable⟩, r, fuel + 1, plain, ⟨n, tr, named, typed, table⟩, deep => by
    have below : max 0 (max type.settingsCost.depth type.childrenCost.depth) ≤ fuel :=
      Nat.le_of_succ_le_succ deep
    have inner := TypeAt.read begins plain typed (by omega : type.childrenCost.depth ≤ fuel)
    obtain ⟨t, buffer, pos, opened⟩ := TableAt.opened table begins
      (narrow_fieldEntries n tr nullable)
    have there := opened.table?
    rw [buffer, pos] at there
    exact ⟨t, there, readField_fieldEntries begins buffer opened named inner⟩

theorem FieldsAt.read (begins : Begins F b) : {fs : List Field} → {rs : List Nat} →
    {fuel : Nat} → Field.AllPlain fs → FieldsAt F fs rs → (Field.costs fs).depth ≤ fuel →
    readAll fuel b (rs.map (F.length - ·)) = some fs
  | [], _, _, _, placed, _ => by
    obtain rfl := placed
    rfl
  | f :: fs, _, fuel, plain, ⟨r, rest, same, field, fields⟩, deep => by
    subst same
    have own : max (max 0 f.cost.depth) (Field.costs fs).depth ≤ fuel := deep
    obtain ⟨t, there, read⟩ := FieldAt.read begins plain.1 field (by omega : f.cost.depth ≤ fuel)
    exact readAll_cons there read (FieldsAt.read begins plain.2 fields (by omega))

theorem VariantsAt.read (begins : Begins F b) : {vs : List Variant} → {rs : List Nat} →
    {fuel : Nat} → Variant.AllPlain vs → VariantsAt F vs rs → (Variant.costs vs).depth ≤ fuel →
    readAll fuel b (rs.map (F.length - ·)) = some (vs.map (·.field))
  | [], _, _, _, placed, _ => by
    obtain rfl := placed
    rfl
  | ⟨_, f⟩ :: vs, _, fuel, plain, ⟨r, rest, same, field, variants⟩, deep => by
    subst same
    have own : max (max 0 f.cost.depth) (Variant.costs vs).depth ≤ fuel := deep
    obtain ⟨t, there, read⟩ := FieldAt.read begins plain.1 field (by omega : f.cost.depth ≤ fuel)
    exact readAll_cons there read (VariantsAt.read begins plain.2 variants (by omega))

end

end Reading

/-! ## Looking -/

section Looking

variable {F : Bytes} {b : Buffer}

/-- What looking at one table after the other takes, in the order of the slots. -/
theorem takes_nil {T : Type} {depth : Nat} {look : Nat × FlatTable.Content T → Check Unit} :
    Takes depth (([] : List (Nat × FlatTable.Content T)).forM look) () (.plain 0) :=
  Takes.pure ()

theorem takes_cons {T : Type} {depth : Nat} {look : Nat × FlatTable.Content T → Check Unit}
    {slot : Nat × FlatTable.Content T} {slots : List (Nat × FlatTable.Content T)}
    {cost cost' : Cost} (first : Takes depth (look slot) () cost)
    (others : Takes depth (slots.forM look) () cost') :
    Takes depth ((slot :: slots).forM look) () (cost + cost') :=
  first.bind others

/-- Looking at a type takes the cost of its settings and that of its children. -/
def TakesType (b : Buffer) (base : Nat) (type : DataType) (tr : TypeRefs) : Prop :=
  (∀ depth, Takes depth
    (Check.tableOf TableKind.shape b depth (.settings tr.tag) (base - tr.type)) ()
    type.settingsCost) ∧
  ∃ targets costs, RefsIn b (base - tr.children) targets ∧
    (∀ depth, AllTake depth (Check.tableOf TableKind.shape b depth .field) targets costs) ∧
    type.childrenCost = .plain (4 * targets.length) + .each costs

/-- Looking at the slots of settings takes what the settings of the type cost. -/
def TakesSettings (b : Buffer) (s : Table) (type : DataType) (tag : TypeTag)
    (settings : List (Nat × Entry)) : Prop :=
  ∃ cost, type.settingsCost = .table (slotCount settings) cost ∧ ∀ depth,
    Takes depth ((TableKind.settingsShape tag).forM fun (i, holds) =>
      Check.slotContent (Check.tableOf TableKind.shape b depth) s i holds) () cost

theorem SettingsAt.takes {type : DataType} {tr : TypeRefs} {tag : TypeTag}
    {settings : List (Nat × Entry)} {children : List Nat} (costs : List Cost)
    (placed : SettingsAt F tr tag settings children) (begins : Begins F b)
    (narrow : Narrow settings)
    (slots : ∀ s : Table, s.buffer = b → Opened F s settings →
      TakesSettings b s type tag settings)
    (below : ∀ depth, AllTake depth (Check.tableOf TableKind.shape b depth .field)
      (children.map (F.length - ·)) costs)
    (whole : type.childrenCost = .plain (4 * children.length) + .each costs) :
    TakesType b F.length type tr := by
  obtain ⟨⟨s, buffer, pos, opened⟩, refs⟩ := SettingsAt.opened placed begins narrow
  refine ⟨fun depth => ?_, _, costs, refs, below, ?_⟩
  · obtain ⟨cost, own, looks⟩ := slots s buffer opened
    rw [own, placed.tag, ← pos]
    exact FlatTable.takes_tableOf opened buffer looks
  · rw [whole, List.length_map]

/-- Settings without slots, of a type without children. -/
theorem SettingsAt.takes_flat {type : DataType} {tr : TypeRefs} {tag : TypeTag}
    (placed : SettingsAt F tr tag [] []) (begins : Begins F b)
    (shape : TableKind.settingsShape tag = []) (own : type.settingsCost = .table 0 (.plain 0))
    (below : type.childrenCost = .plain 0) : TakesType b F.length type tr := by
  refine SettingsAt.takes [] placed begins narrow_nil ?_ (fun _ => trivial) below
  intro s _ _
  refine ⟨_, own, fun depth => ?_⟩
  rw [shape]
  exact takes_nil

theorem takes_numberEntries {s : Table} {t : NumberType} (opened : Opened F s (numberEntries t)) :
    TakesSettings b s (.number t) (numberTag t) (numberEntries t) := by
  cases kind : NumberClass.ofType t with
  | int signed =>
    have tag : numberTag t = .int := by rw [numberTag, kind]
    have sign : Numbered (numberEntries t) 1 1 signed.toNat := by
      cases t <;> cases kind <;> rfl
    have bits : Numbered (numberEntries t) 0 4 (8 * t.bytes) := by
      cases t <;> cases kind <;> rfl
    rw [tag]
    refine ⟨_, ?_, fun _ => takes_cons (FlatTable.takes_number_slot opened bits)
      (takes_cons (FlatTable.takes_number_slot opened sign) takes_nil)⟩
    cases t <;> cases kind <;> rfl
  | float precision =>
    have tag : numberTag t = .float := by rw [numberTag, kind]
    have precise : Numbered (numberEntries t) 0 2 precision := by
      cases t <;> cases kind <;> rfl
    rw [tag]
    refine ⟨_, ?_, fun _ => takes_cons (FlatTable.takes_number_slot opened precise) takes_nil⟩
    cases t <;> cases kind <;> rfl

theorem takes_sizeEntries {s : Table} {item : Field} {size : Int} (least : 0 ≤ size)
    (opened : Opened F s (Entry.unlessZero 0 4 size.toNat)) :
    TakesSettings b s (.fixedSizeList item size) .fixedSizeList
      (Entry.unlessZero 0 4 size.toNat) := by
  refine ⟨_, ?_, fun _ => takes_cons (FlatTable.takes_number_slot opened
    (numbered_unlessZero 0 4 size.toNat)) takes_nil⟩
  rw [DataType.settingsCost]
  by_cases zero : size = 0
  · subst zero
    rfl
  · have count : slotCount [(0, Entry.scalar (Bytes.ofNat 4 size.toNat))] = 1 := rfl
    rw [if_neg zero, Entry.unlessZero, if_neg (by omega), if_neg (by omega), slotBytes, count]
    rfl

theorem takes_unionEntries {s : Table} {place : Nat} {variants : List Variant}
    (begins : Begins F b) (buffer : s.buffer = b) (opened : Opened F s (unionEntries place))
    (vector : VectorAt F place variants.length (idBytes (variants.map (·.id)))) :
    TakesSettings b s (.union variants) .union (unionEntries place) := by
  subst buffer
  have mode : Numbered (unionEntries place) 0 2 1 := rfl
  have length := length_idBytes (variants.map (·.id))
  rw [List.length_map] at length
  have read : VectorIn s.buffer (F.length - place) variants.length _ :=
    vector.read begins.begins begins.whole begins.small (by omega)
  have aligned := read.aligned
  have inside := FlatTable.size_le_of_range? read.items
  rw [length] at inside
  refine ⟨_, ?_, fun _ => takes_cons (FlatTable.takes_number_slot opened mode)
    (takes_cons (FlatTable.takes_vector_slot opened (unionEntries_ids place) aligned read.count
      (by omega) (by omega)) takes_nil)⟩
  show Cost.table 2 (.plain (14 + 4 * variants.length)) =
    Cost.table 2 (.plain (2 + 2) + (.plain (10 + variants.length * 4) + .plain 0))
  congr 1
  ext <;> simp
  omega

theorem costs_eq (fs : List Field) :
    Field.costs fs = .plain (4 * fs.length) + .each (fs.map Field.cost) := by
  induction fs with
  | nil => rfl
  | cons f fs ih =>
    rw [Field.costs, ih, List.map_cons, List.length_cons, Cost.each]
    ext <;> simp
    omega

theorem variantCosts_eq (vs : List Variant) :
    Variant.costs vs = .plain (4 * vs.length) + .each (vs.map (·.field.cost)) := by
  induction vs with
  | nil => rfl
  | cons v vs ih =>
    obtain ⟨_, f⟩ := v
    rw [Variant.costs, ih, List.map_cons, List.length_cons, Cost.each]
    ext <;> simp
    omega

/-- The cost of the one child of a list. -/
theorem cost_only (item : Field) :
    Cost.plain 8 + item.cost = .plain (4 * 1) + .each [item.cost] := by
  rw [Cost.each, Cost.each]
  ext <;> simp
  omega

theorem takes_fieldEntries {name : Nat} {tr : TypeRefs} {f : Field} {t : Table}
    (begins : Begins F b) (buffer : t.buffer = b)
    (opened : Opened F t (fieldEntries name tr f.nullable)) (named : TextAt F name f.name)
    (typed : TakesType b F.length f.type tr) (depth : Nat) :
    Takes depth (Check.tableOf TableKind.shape b depth .field t.pos) () f.cost := by
  subst buffer
  obtain ⟨settings, targets, costs, refs, below, whole⟩ := typed
  have text := named.read begins.begins begins.whole begins.small
  have known : TableKind.ofType tr.tag.number = some (.settings tr.tag) := by
    rw [TableKind.ofType, TypeTag.ofNumber?_number]
    rfl
  refine Takes.of_eq (FlatTable.takes_tableOf opened rfl fun depth =>
    takes_cons (FlatTable.takes_text_slot opened (fieldEntries_name name tr f.nullable) text)
    (takes_cons (FlatTable.takes_number_slot opened (fieldEntries_nullable name tr f.nullable))
    (takes_cons (FlatTable.takes_choice_slot opened (fieldEntries_type name tr f.nullable)
      (fieldEntries_tag name tr f.nullable) (TypeTag.number_bounds _).1
      (TypeTag.number_bounds _).2 known (settings depth))
    (takes_cons (FlatTable.takes_absent opened (fieldEntries_dictionary name tr f.nullable) nofun)
    (takes_cons (FlatTable.takes_tables_slot opened (fieldEntries_children name tr f.nullable)
      refs (below depth))
    (takes_cons (FlatTable.takes_absent opened (fieldEntries_remarks name tr f.nullable) nofun)
    takes_nil)))))) ?_
  have count := slotCount_fieldEntries name tr f.nullable
  have bit : (if f.nullable.toNat = 0 then 0 else 1) = f.nullable.toNat := by
    cases f.nullable <;> rfl
  have slots : slotBytes (fieldEntries name tr f.nullable) 1 = 2 ∧
      slotBytes (fieldEntries name tr f.nullable) 4 = 2 ∧
      slotBytes (fieldEntries name tr f.nullable) 6 = 0 := by
    rw [slotBytes, slotBytes, slotBytes, count]
    decide
  rw [count, bit, slots.1, slots.2.1, slots.2.2]
  obtain ⟨_, type, nullable⟩ := f
  dsimp only at whole ⊢
  rw [Field.cost, whole]
  congr 1
  ext
  · simp
  · simp
  · simp only [Cost.bytes_add, Cost.bytes_plain]
    omega

mutual

/-- Looking at a type that stands in a draft takes its cost. -/
theorem TypeAt.takes (begins : Begins F b) : {type : DataType} → {tr : TypeRefs} →
    type.Plain → TypeAt F type tr → TakesType b F.length type tr
  | .null, _, _, placed | .boolean, _, _, placed | .text .narrow, _, _, placed
  | .text .wide, _, _, placed | .binary .narrow, _, _, placed | .binary .wide, _, _, placed =>
    SettingsAt.takes_flat placed begins rfl rfl rfl
  | .number t, _, _, placed =>
    SettingsAt.takes [] placed begins (narrow_numberEntries t)
      (fun _ _ opened => takes_numberEntries opened) (fun _ => trivial) rfl
  | .list width item, _, plain, ⟨_, settings, placed⟩ => by
    refine SettingsAt.takes [item.cost] settings begins narrow_nil (fun s _ _ => ?_)
      (fun depth => ⟨FieldAt.takes begins plain placed depth, trivial⟩) (cost_only item)
    cases width <;> exact ⟨_, rfl, fun _ => takes_nil⟩
  | .fixedSizeList item size, _, ⟨⟨least, _⟩, plain⟩, ⟨_, settings, placed⟩ =>
    SettingsAt.takes [item.cost] settings begins (narrow_unlessZero (by decide) 0 _)
      (fun _ _ opened => takes_sizeEntries least opened)
      (fun depth => ⟨FieldAt.takes begins plain placed depth, trivial⟩) (cost_only item)
  | .struct fields, _, plain, ⟨_, settings, placed⟩ =>
    SettingsAt.takes _ settings begins narrow_nil (fun _ _ _ => ⟨_, rfl, fun _ => takes_nil⟩)
      (FieldsAt.takes begins plain placed) (placed.length ▸ costs_eq fields)
  | .union variants, _, plain, ⟨place, rs, settings, numbers, placed⟩ => by
    have length : rs.length = variants.length := by
      rw [(variantsAt_iff.1 placed).length, List.length_map]
    exact SettingsAt.takes _ settings begins (narrow_unionEntries place)
      (fun _ buffer opened => takes_unionEntries begins buffer opened numbers)
      (VariantsAt.takes begins plain placed) (length ▸ variantCosts_eq variants)
  | .sparseUnion _, _, _, placed | .foreign _, _, _, placed => placed.elim

/-- Looking at the table of a field that stands in a draft takes the cost of the field. -/
theorem FieldAt.takes (begins : Begins F b) : {f : Field} → {r : Nat} →
    f.Plain → FieldAt F f r → (depth : Nat) →
    Takes depth (Check.tableOf TableKind.shape b depth .field (F.length - r)) () f.cost
  | ⟨name, type, nullable⟩, r, plain, ⟨n, tr, named, typed, table⟩, depth => by
    obtain ⟨t, buffer, pos, opened⟩ := TableAt.opened table begins
      (narrow_fieldEntries n tr nullable)
    have inner : TakesType b F.length type tr := TypeAt.takes begins plain typed
    rw [← pos]
    exact takes_fieldEntries begins buffer opened named inner depth

theorem FieldsAt.takes (begins : Begins F b) : {fs : List Field} → {rs : List Nat} →
    Field.AllPlain fs → FieldsAt F fs rs → (depth : Nat) →
    AllTake depth (Check.tableOf TableKind.shape b depth .field) (rs.map (F.length - ·))
      (fs.map Field.cost)
  | [], _, _, placed, _ => by
    obtain rfl := placed
    trivial
  | _ :: _, _, plain, ⟨_, _, same, field, fields⟩, depth => by
    subst same
    exact ⟨FieldAt.takes begins plain.1 field depth, FieldsAt.takes begins plain.2 fields depth⟩

theorem VariantsAt.takes (begins : Begins F b) : {vs : List Variant} → {rs : List Nat} →
    Variant.AllPlain vs → VariantsAt F vs rs → (depth : Nat) →
    AllTake depth (Check.tableOf TableKind.shape b depth .field) (rs.map (F.length - ·))
      (vs.map (·.field.cost))
  | [], _, _, placed, _ => by
    obtain rfl := placed
    trivial
  | ⟨_, _⟩ :: _, _, plain, ⟨_, _, same, field, variants⟩, depth => by
    subst same
    exact ⟨FieldAt.takes begins plain.1 field depth,
      VariantsAt.takes begins plain.2 variants depth⟩

end

end Looking

end TypedColumns.Stream
