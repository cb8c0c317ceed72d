import TypedColumns.Proofs.Column.Plain
import TypedColumns.Proofs.FlatTable.Writing
import TypedColumns.Proofs.Stream.Limits

/-!
# Fields in a draft

`FieldAt` says that a field stands in a draft: its name, the table of its type's settings, the
fields of its children, and the table that refers to all of these. Writing a field of a plain type
puts it there (`writeField_spec`), and does not add more than twice the bytes that looking through
it takes.
-/

namespace TypedColumns.Stream

open FlatTable (Entry TextAt VectorAt RefsAt TableAt Draft Step Modest spans slotCount contentOf?
  Numbered)

/-! ## Slots of the tables -/

def numberTag (t : NumberType) : TypeTag :=
  match NumberClass.ofType t with
  | .int _ => .int
  | .float _ => .float

/-- The slots of the settings of a number type. -/
def numberEntries (t : NumberType) : List (Nat × Entry) :=
  match NumberClass.ofType t with
  | .int signed =>
    Entry.unlessZero 1 1 signed.toNat ++ [(0, .scalar (Bytes.ofNat 4 (8 * t.bytes)))]
  | .float precision => Entry.unlessZero 0 2 precision

def textTag : OffsetWidth → TypeTag
  | .narrow => .text
  | .wide => .wideText

def binaryTag : OffsetWidth → TypeTag
  | .narrow => .binary
  | .wide => .wideBinary

def listTag : OffsetWidth → TypeTag
  | .narrow => .list
  | .wide => .wideList

/-- The slots of the settings of a union, whose type ids are written at a place. -/
def unionEntries (ids : Nat) : List (Nat × Entry) :=
  [(0, .scalar (Bytes.ofNat 2 1)), (1, .ref ids)]

def idBytes (ids : List TypeId) : Bytes := ids.flatMap fun id => Bytes.ofInt 4 id.toInt

/-- The slots of a field whose name and type are written. -/
def fieldEntries (name : Nat) (type : TypeRefs) (nullable : Bool) : List (Nat × Entry) :=
  [(0, .ref name), (2, .scalar (Bytes.ofNat 1 type.tag.number))] ++
    Entry.unlessZero 1 1 nullable.toNat ++ [(5, .ref type.children), (3, .ref type.type)]

/-! ## What stands in a draft -/

/-- The table of a type's settings, and the vector of the fields of its children. -/
structure SettingsAt (bs : Bytes) (t : TypeRefs) (tag : TypeTag) (settings : List (Nat × Entry))
    (children : List Nat) : Prop where
  tag : t.tag = tag
  type : TableAt bs t.type settings
  children : RefsAt bs t.children children

mutual

/-- A type stands in a draft. -/
def TypeAt (bs : Bytes) : DataType → TypeRefs → Prop
  | .null, t => SettingsAt bs t .null [] []
  | .boolean, t => SettingsAt bs t .boolean [] []
  | .number n, t => SettingsAt bs t (numberTag n) (numberEntries n) []
  | .text width, t => SettingsAt bs t (textTag width) [] []
  | .binary width, t => SettingsAt bs t (binaryTag width) [] []
  | .list width item, t => ∃ r, SettingsAt bs t (listTag width) [] [r] ∧ FieldAt bs item r
  | .fixedSizeList item size, t =>
    ∃ r, SettingsAt bs t .fixedSizeList (Entry.unlessZero 0 4 size.toNat) [r] ∧ FieldAt bs item r
  | .struct fields, t => ∃ rs, SettingsAt bs t .struct [] rs ∧ FieldsAt bs fields rs
  | .union variants, t =>
    ∃ ids rs, SettingsAt bs t .union (unionEntries ids) rs ∧
      VectorAt bs ids variants.length (idBytes (variants.map (·.id))) ∧ VariantsAt bs variants rs
  | .sparseUnion _, _ | .foreign _, _ => False

/-- A field stands at a place in a draft. -/
def FieldAt (bs : Bytes) : Field → Nat → Prop
  | ⟨name, type, nullable⟩, r =>
    ∃ n t, TextAt bs n name ∧ TypeAt bs type t ∧ TableAt bs r (fieldEntries n t nullable)

def FieldsAt (bs : Bytes) : List Field → List Nat → Prop
  | [], rs => rs = []
  | f :: fs, rs => ∃ r rest, rs = r :: rest ∧ FieldAt bs f r ∧ FieldsAt bs fs rest

def VariantsAt (bs : Bytes) : List Variant → List Nat → Prop
  | [], rs => rs = []
  | ⟨_, f⟩ :: vs, rs => ∃ r rest, rs = r :: rest ∧ FieldAt bs f r ∧ VariantsAt bs vs rest

end

section Extend

variable {bs bs' : Bytes}

theorem SettingsAt.extend {t : TypeRefs} {tag : TypeTag} {settings : List (Nat × Entry)}
    {children : List Nat} (placed : SettingsAt bs t tag settings children)
    (suffix : bs <:+ bs') : SettingsAt bs' t tag settings children :=
  ⟨placed.tag, placed.type.extend suffix, placed.children.extend suffix⟩

mutual

theorem TypeAt.extend (suffix : bs <:+ bs') : {type : DataType} → {t : TypeRefs} →
    TypeAt bs type t → TypeAt bs' type t
  | .null, _, placed | .boolean, _, placed | .number _, _, placed | .text _, _, placed
  | .binary _, _, placed => SettingsAt.extend placed suffix
  | .list _ _, _, ⟨r, settings, item⟩ | .fixedSizeList _ _, _, ⟨r, settings, item⟩ =>
    ⟨r, settings.extend suffix, item.extend suffix⟩
  | .struct _, _, ⟨rs, settings, fields⟩ =>
    ⟨rs, settings.extend suffix, FieldsAt.extend suffix fields⟩
  | .union _, _, ⟨ids, rs, settings, numbers, variants⟩ =>
    ⟨ids, rs, settings.extend suffix, numbers.extend suffix, VariantsAt.extend suffix variants⟩

theorem FieldAt.extend (suffix : bs <:+ bs') : {f : Field} → {r : Nat} →
    FieldAt bs f r → FieldAt bs' f r
  | ⟨_, _, _⟩, _, ⟨n, t, name, type, table⟩ =>
    ⟨n, t, name.extend suffix, type.extend suffix, table.extend suffix⟩

theorem FieldsAt.extend (suffix : bs <:+ bs') : {fs : List Field} → {rs : List Nat} →
    FieldsAt bs fs rs → FieldsAt bs' fs rs
  | [], _, placed => placed
  | _ :: _, _, ⟨r, rest, same, field, fields⟩ =>
    ⟨r, rest, same, field.extend suffix, FieldsAt.extend suffix fields⟩

theorem VariantsAt.extend (suffix : bs <:+ bs') : {vs : List Variant} → {rs : List Nat} →
    VariantsAt bs vs rs → VariantsAt bs' vs rs
  | [], _, placed => placed
  | ⟨_, _⟩ :: _, _, ⟨r, rest, same, field, variants⟩ =>
    ⟨r, rest, same, field.extend suffix, VariantsAt.extend suffix variants⟩

end

/-- Every type has settings and children somewhere. -/
theorem TypeAt.settings {type : DataType} {t : TypeRefs} (placed : TypeAt bs type t) :
    ∃ tag settings children, SettingsAt bs t tag settings children := by
  cases type with
  | null | boolean | number _ | text _ | binary _ => exact ⟨_, _, _, placed⟩
  | list _ _ | fixedSizeList _ _ =>
    obtain ⟨r, settings, -⟩ := placed
    exact ⟨_, _, _, settings⟩
  | struct _ =>
    obtain ⟨rs, settings, -⟩ := placed
    exact ⟨_, _, _, settings⟩
  | union _ =>
    obtain ⟨ids, rs, settings, -⟩ := placed
    exact ⟨_, _, _, settings⟩
  | sparseUnion _ | foreign _ => exact placed.elim

theorem TypeAt.le {type : DataType} {t : TypeRefs} (placed : TypeAt bs type t) :
    t.type ≤ bs.length ∧ t.children ≤ bs.length := by
  obtain ⟨tag, settings, children, placed⟩ := placed.settings
  exact ⟨placed.type.le, placed.children.le⟩

theorem FieldAt.le {f : Field} {r : Nat} (placed : FieldAt bs f r) : r ≤ bs.length := by
  cases f
  obtain ⟨n, t, -, -, table⟩ := placed
  exact table.le

theorem FieldsAt.le {fs : List Field} {rs : List Nat} (placed : FieldsAt bs fs rs) :
    ∀ r ∈ rs, r ≤ bs.length := by
  induction fs generalizing rs with
  | nil =>
    obtain rfl := placed
    intro r mem
    cases mem
  | cons f fs ih =>
    obtain ⟨r, rest, rfl, field, fields⟩ := placed
    intro r' mem
    rcases List.mem_cons.1 mem with rfl | mem
    · exact field.le
    · exact ih fields r' mem

theorem FieldsAt.length {fs : List Field} {rs : List Nat} (placed : FieldsAt bs fs rs) :
    rs.length = fs.length := by
  induction fs generalizing rs with
  | nil =>
    obtain rfl := placed
    rfl
  | cons f fs ih =>
    obtain ⟨r, rest, rfl, -, fields⟩ := placed
    rw [List.length_cons, List.length_cons, ih fields]

/-- The fields of variants stand like any fields. -/
theorem variantsAt_iff {vs : List Variant} {rs : List Nat} :
    VariantsAt bs vs rs ↔ FieldsAt bs (vs.map (·.field)) rs := by
  induction vs generalizing rs with
  | nil => rfl
  | cons v vs ih =>
    cases v
    rw [VariantsAt, List.map_cons, FieldsAt]
    simp only [ih]

end Extend

/-! ## Writing -/

section Writing

variable {d : Draft}

/-- Room for the settings of a type and for the references to its children. -/
def settingsRoom (settings : List (Nat × Entry)) (children : Nat) : Nat :=
  spans settings + 11 + 2 * slotCount settings + (4 * children + 7)

theorem writeSettings_spec (tag : TypeTag) {settings : List (Nat × Entry)} {children : List Nat}
    (sound : d.Sound) (fits : ∀ slot ∈ settings, slot.2.Fits d.bytes.length)
    (modest : Modest settings) (behind : ∀ r ∈ children, r ≤ d.bytes.length) :
    Step d ((writeSettings tag settings children).run d).2
        (settingsRoom settings children.length) ∧
      SettingsAt ((writeSettings tag settings children).run d).2.bytes
        ((writeSettings tag settings children).run d).1 tag settings children := by
  obtain ⟨first, table, -⟩ := FlatTable.table_spec sound fits modest
  have grown := first.suffix.length_le
  obtain ⟨second, refs⟩ := FlatTable.refVector_spec first.sound fun r mem =>
    Nat.le_trans (behind r mem) grown
  exact ⟨first.trans second, rfl, table.extend second.suffix, refs⟩

/-- Settings without slots are always modest. -/
theorem modest_nil : Modest [] := by
  constructor <;> decide

theorem fits_nil {size : Nat} : ∀ slot ∈ ([] : List (Nat × Entry)), slot.2.Fits size :=
  fun _ mem => absurd mem List.not_mem_nil

theorem fits_unlessZero {size width : Nat} (wide : width ∣ 8) (slot n : Nat) :
    ∀ entry ∈ Entry.unlessZero slot width n, entry.2.Fits size := by
  intro entry mem
  rw [Entry.unlessZero] at mem
  split at mem
  · cases mem
  · obtain rfl := List.mem_singleton.1 mem
    show (Bytes.ofNat width n).length ∣ 8
    rwa [Bytes.length_ofNat]

theorem writeFlat_spec (tag : TypeTag) (sound : d.Sound) :
    Step d ((writeSettings tag [] []).run d).2 20 ∧
      SettingsAt ((writeSettings tag [] []).run d).2.bytes
        ((writeSettings tag [] []).run d).1 tag [] [] := by
  obtain ⟨step, settings⟩ := writeSettings_spec tag sound fits_nil modest_nil
    fun _ mem => absurd mem List.not_mem_nil
  exact ⟨step.weaken (by decide), settings⟩

theorem modest_numberEntries (t : NumberType) : Modest (numberEntries t) := by
  cases t <;> constructor <;> decide

theorem fits_numberEntries {size : Nat} (t : NumberType) :
    ∀ slot ∈ numberEntries t, slot.2.Fits size := by
  rw [numberEntries]
  split
  · rw [List.forall_mem_append]
    refine ⟨fits_unlessZero (by decide) 1 _, fun slot mem => ?_⟩
    obtain rfl := List.mem_singleton.1 mem
    show (Bytes.ofNat 4 (8 * t.bytes)).length ∣ 8
    rw [Bytes.length_ofNat]
    decide
  · exact fits_unlessZero (by decide) 0 _

theorem room_numberEntries (t : NumberType) :
    settingsRoom (numberEntries t) 0 ≤ 2 * (DataType.number t).settingsCost.bytes := by
  cases t <;> decide

/-- Numbers are the one kind of type whose children are written first. -/
theorem writeNumber_eq (t : NumberType) :
    writeNumber t = do
      let children ← FlatTable.refVector []
      let type ← FlatTable.table (numberEntries t)
      return ⟨numberTag t, type, children⟩ := by
  unfold writeNumber numberTag numberEntries
  cases NumberClass.ofType t <;> rfl

theorem writeNumber_spec (t : NumberType) (sound : d.Sound) :
    Step d ((writeNumber t).run d).2 (2 * (DataType.number t).settingsCost.bytes) ∧
      SettingsAt ((writeNumber t).run d).2.bytes ((writeNumber t).run d).1 (numberTag t)
        (numberEntries t) [] := by
  obtain ⟨first, refs⟩ := FlatTable.refVector_spec sound fun _ mem => absurd mem List.not_mem_nil
  obtain ⟨second, table, -⟩ := FlatTable.table_spec first.sound (fits_numberEntries t)
    (modest_numberEntries t)
  have room := room_numberEntries t
  rw [settingsRoom] at room
  rw [writeNumber_eq]
  refine ⟨(first.trans second).weaken ?_, rfl, table, refs.extend second.suffix⟩
  rw [List.length_nil]
  omega

theorem fits_fieldEntries {size name : Nat} {type : TypeRefs} (nullable : Bool)
    (named : name ≤ size) (typed : type.type ≤ size) (children : type.children ≤ size) :
    ∀ slot ∈ fieldEntries name type nullable, slot.2.Fits size := by
  have tag : (Bytes.ofNat 1 type.tag.number).length ∣ 8 := by
    rw [Bytes.length_ofNat]
    decide
  rw [fieldEntries, List.forall_mem_append, List.forall_mem_append]
  simp only [List.forall_mem_cons]
  exact ⟨⟨⟨named, tag, fits_nil⟩, fits_unlessZero (by decide) 1 _⟩, children, typed, fits_nil⟩

theorem modest_fieldEntries (name : Nat) (type : TypeRefs) (nullable : Bool) :
    Modest (fieldEntries name type nullable) := by
  cases nullable <;> constructor <;>
    simp [fieldEntries, Entry.unlessZero, spans, Entry.span, slotCount]

/-- Room for the table of a field. -/
theorem room_fieldEntries (name : Nat) (type : TypeRefs) (nullable : Bool) :
    spans (fieldEntries name type nullable) + 11 + 2 * slotCount (fieldEntries name type nullable) ≤
      48 := by
  cases nullable <;> simp [fieldEntries, Entry.unlessZero, spans, Entry.span, slotCount]

theorem bytes_cost (name : String) (type : DataType) (nullable : Bool) :
    (⟨name, type, nullable⟩ : Field).cost.bytes =
      55 + (Bytes.ofString name).length + nullable.toNat +
        (type.settingsCost.bytes + type.childrenCost.bytes) := by
  rw [Field.cost]
  simp only [FlatTable.Cost.table, FlatTable.Cost.bytes_add, FlatTable.Cost.bytes_plain]
  omega

theorem length_idBytes (ids : List TypeId) : (idBytes ids).length = 4 * ids.length := by
  have each : ∀ id : TypeId, (Bytes.ofInt 4 id.toInt).length = 4 :=
    fun id => Bytes.length_ofInt 4 _
  rw [idBytes, List.length_flatMap, List.map_congr_left fun id _ => each id, List.map_const',
    List.sum_replicate_nat, Nat.mul_comm]

theorem writeUnion_spec {ids : List TypeId} {children : List Nat} (sound : d.Sound)
    (same : children.length = ids.length) (behind : ∀ r ∈ children, r ≤ d.bytes.length) :
    Step d ((writeUnion ids children).run d).2 (8 * ids.length + 44) ∧
      ∃ place, SettingsAt ((writeUnion ids children).run d).2.bytes
          ((writeUnion ids children).run d).1 .union (unionEntries place) children ∧
        VectorAt ((writeUnion ids children).run d).2.bytes place ids.length (idBytes ids) := by
  obtain ⟨first, numbers⟩ := FlatTable.vector_spec sound (by decide : 4 ∣ 8) ids.length
    (idBytes ids)
  have fits : ∀ slot ∈ unionEntries ((FlatTable.vector 4 ids.length (idBytes ids)).run d).1,
      slot.2.Fits ((FlatTable.vector 4 ids.length (idBytes ids)).run d).2.bytes.length := by
    rw [unionEntries]
    simp only [List.forall_mem_cons]
    exact ⟨show (Bytes.ofNat 2 1).length ∣ 8 by decide, numbers.le, fits_nil⟩
  have modest : Modest (unionEntries ((FlatTable.vector 4 ids.length (idBytes ids)).run d).1) := by
    constructor <;> simp [unionEntries, spans, Entry.span, slotCount]
  have grown := first.suffix.length_le
  obtain ⟨second, settings⟩ := writeSettings_spec .union first.sound fits modest fun r mem =>
    Nat.le_trans (behind r mem) grown
  refine ⟨(first.trans second).weaken ?_, _, settings, numbers.extend second.suffix⟩
  rw [length_idBytes, settingsRoom, same]
  simp only [unionEntries, spans, Entry.span, slotCount, Bytes.length_ofNat, List.map_cons,
    List.map_nil, List.foldl_cons, List.foldl_nil]
  omega

theorem settingsRoom_nil (children : Nat) : settingsRoom [] children = 4 * children + 18 := by
  rw [settingsRoom]
  simp only [spans, slotCount, List.map_nil, List.foldl_nil]
  omega

/-- Each child costs the reference to it at least. -/
theorem length_costs (fs : List Field) : 8 * fs.length ≤ (Field.costs fs).bytes := by
  induction fs with
  | nil => exact Nat.le_refl 0
  | cons f fs ih =>
    show 8 * (fs.length + 1) ≤ 8 + f.cost.bytes + (Field.costs fs).bytes
    omega

theorem length_variantCosts (vs : List Variant) : 8 * vs.length ≤ (Variant.costs vs).bytes := by
  induction vs with
  | nil => exact Nat.le_refl 0
  | cons v vs ih =>
    obtain ⟨_, f⟩ := v
    show 8 * (vs.length + 1) ≤ 8 + f.cost.bytes + (Variant.costs vs).bytes
    omega

mutual

/-- Writing a plain type puts it into the draft. -/
theorem writeType_spec : (type : DataType) → type.Plain → {d : Draft} → d.Sound →
    Step d ((writeType type).run d).2 (2 * (type.settingsCost.bytes + type.childrenCost.bytes)) ∧
      TypeAt ((writeType type).run d).2.bytes type ((writeType type).run d).1
  | .null, _, _, sound | .boolean, _, _, sound | .text .narrow, _, _, sound
  | .text .wide, _, _, sound | .binary .narrow, _, _, sound | .binary .wide, _, _, sound =>
    writeFlat_spec _ sound
  | .number t, _, _, sound => writeNumber_spec t sound
  | .list width item, plain, d, sound => by
    obtain ⟨first, placed⟩ := writeField_spec item plain sound
    obtain ⟨second, settings⟩ := writeSettings_spec (listTag width) first.sound fits_nil
      modest_nil (List.forall_mem_singleton.2 placed.le)
    have written : (writeType (.list width item)).run d =
        (writeSettings (listTag width) [] [((writeField item).run d).1]).run
          ((writeField item).run d).2 := by
      cases width <;> rfl
    rw [written]
    refine ⟨(first.trans second).weaken ?_, _, settings, placed.extend second.suffix⟩
    show _ ≤ 2 * (10 + (8 + item.cost.bytes))
    have room : settingsRoom [] [((writeField item).run d).1].length = 22 := rfl
    rw [room]
    omega
  | .fixedSizeList item size, plain, d, sound => by
    obtain ⟨first, placed⟩ := writeField_spec item plain.2 sound
    have modest : Modest (Entry.unlessZero 0 4 size.toNat) := by
      rw [Entry.unlessZero]
      split <;> constructor <;> simp [spans, Entry.span, slotCount]
    obtain ⟨second, settings⟩ := writeSettings_spec .fixedSizeList first.sound
      (fits_unlessZero (by decide) 0 size.toNat) modest (List.forall_mem_singleton.2 placed.le)
    refine ⟨(first.trans second).weaken ?_, _, settings, placed.extend second.suffix⟩
    have room : settingsRoom (Entry.unlessZero 0 4 size.toNat)
        [((writeField item).run d).1].length ≤ 2 * (16 + (if size = 0 then 0 else 8)) := by
      rw [Entry.unlessZero, settingsRoom]
      by_cases zero : size = 0
      · rw [if_pos (by omega), if_pos zero]
        simp [spans, slotCount]
      · have := plain.1.1
        rw [if_neg (by omega), if_neg zero]
        simp [spans, Entry.span, slotCount]
    have cost : (DataType.fixedSizeList item size).settingsCost.bytes =
        10 + (if size = 0 then 0 else 8) := by
      rw [DataType.settingsCost]
      split <;> rfl
    rw [cost]
    show _ ≤ 2 * (_ + (8 + item.cost.bytes))
    omega
  | .struct fields, plain, d, sound => by
    obtain ⟨first, placed⟩ := writeFields_spec fields plain sound
    obtain ⟨second, settings⟩ := writeSettings_spec .struct first.sound fits_nil modest_nil
      placed.le
    refine ⟨(first.trans second).weaken ?_, _, settings, placed.extend second.suffix⟩
    have least := length_costs fields
    show _ ≤ 2 * (10 + (Field.costs fields).bytes)
    rw [settingsRoom_nil, placed.length]
    omega
  | .union variants, plain, d, sound => by
    obtain ⟨first, placed⟩ := writeVariants_spec variants plain sound
    have fields := variantsAt_iff.1 placed
    have same : ((writeVariants variants).run d).1.length = (variants.map (·.id)).length := by
      rw [fields.length, List.length_map, List.length_map]
    obtain ⟨second, ids, settings, numbers⟩ := writeUnion_spec first.sound same fields.le
    rw [List.length_map] at second numbers
    refine ⟨(first.trans second).weaken ?_, ids, _, settings, numbers,
      placed.extend second.suffix⟩
    have least := length_variantCosts variants
    show _ ≤ 2 * (14 + 4 * variants.length + 14 + (Variant.costs variants).bytes)
    omega
  | .sparseUnion _, plain, _, _ | .foreign _, plain, _, _ => plain.elim

/-- Writing a field of a plain type puts it into the draft. -/
theorem writeField_spec : (f : Field) → f.Plain → {d : Draft} → d.Sound →
    Step d ((writeField f).run d).2 (2 * f.cost.bytes - 50) ∧
      FieldAt ((writeField f).run d).2.bytes f ((writeField f).run d).1
  | ⟨name, type, nullable⟩, plain, d, sound => by
    obtain ⟨first, text⟩ := FlatTable.string_spec sound name
    obtain ⟨second, typed⟩ := writeType_spec type plain first.sound
    have named := Nat.le_trans text.le second.suffix.length_le
    obtain ⟨third, table, -⟩ := FlatTable.table_spec second.sound
      (fits_fieldEntries nullable named typed.le.1 typed.le.2)
      (modest_fieldEntries _ _ nullable)
    have room := room_fieldEntries ((FlatTable.string name).run d).1
      ((writeType type).run ((FlatTable.string name).run d).2).1 nullable
    refine ⟨((first.trans second).trans third).weaken ?_, _, _,
      (text.extend second.suffix).extend third.suffix, typed.extend third.suffix, table⟩
    rw [bytes_cost]
    omega

theorem writeFields_spec : (fs : List Field) → Field.AllPlain fs → {d : Draft} → d.Sound →
    Step d ((writeFields fs).run d).2 (2 * (Field.costs fs).bytes - 4 * fs.length) ∧
      FieldsAt ((writeFields fs).run d).2.bytes fs ((writeFields fs).run d).1
  | [], _, _, sound => ⟨Step.refl sound, rfl⟩
  | f :: fs, plain, d, sound => by
    obtain ⟨first, placed⟩ := writeField_spec f plain.1 sound
    obtain ⟨second, others⟩ := writeFields_spec fs plain.2 first.sound
    refine ⟨(first.trans second).weaken ?_, _, _, rfl, placed.extend second.suffix, others⟩
    have least := length_costs fs
    show _ ≤ 2 * (8 + f.cost.bytes + (Field.costs fs).bytes) - 4 * (fs.length + 1)
    omega

theorem writeVariants_spec : (vs : List Variant) → Variant.AllPlain vs → {d : Draft} → d.Sound →
    Step d ((writeVariants vs).run d).2 (2 * (Variant.costs vs).bytes - 4 * vs.length) ∧
      VariantsAt ((writeVariants vs).run d).2.bytes vs ((writeVariants vs).run d).1
  | [], _, _, sound => ⟨Step.refl sound, rfl⟩
  | ⟨_, f⟩ :: vs, plain, d, sound => by
    obtain ⟨first, placed⟩ := writeField_spec f plain.1 sound
    obtain ⟨second, others⟩ := writeVariants_spec vs plain.2 first.sound
    refine ⟨(first.trans second).weaken ?_, _, _, rfl, placed.extend second.suffix, others⟩
    have least := length_variantCosts vs
    show _ ≤ 2 * (8 + f.cost.bytes + (Variant.costs vs).bytes) - 4 * (vs.length + 1)
    omega

end

end Writing

end TypedColumns.Stream
