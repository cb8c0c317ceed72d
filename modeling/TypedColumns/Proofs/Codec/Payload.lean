import TypedColumns.Proofs.Builder.Payload
import TypedColumns.Proofs.Codec.Shipped

/-!
# What codecs write

How many bytes a codec of this library adds to the payload of a builder depends on the row alone
(`ShippedType.costs`): not on the rows before it, nor on whether values are written one by one or as
a run. What a value is charged is a matter of its layout in memory, and covers what is written for
it (`ShippedType.cost_le_total`). Rows of fixed shape cost the same whether their fields are there
or not; only texts and lists cost more if there is more in them.
-/

namespace TypedColumns

universe u

/-! ## Writes -/

/-- On every builder with this tree, the change applies and adds `n` bytes. -/
def ItemBuilder.Adds (f : ItemBuilder → Option ItemBuilder) (tree : ItemBuilder) (n : Nat) : Prop :=
  ∀ b, b.bare = tree → ∃ b', f b = some b' ∧ b'.bare = tree ∧ b'.payload = b.payload + n

/-- On every builder with this tree, the work succeeds and adds `n` bytes. -/
def Builder.Adds {ε : Type} (work : Builder → Except ε Unit × Builder) (tree : Builder) (n : Nat) :
    Prop :=
  ∀ b, b.bare = tree → ∃ b', work b = (.ok (), b') ∧ b'.bare = tree ∧ b'.payload = b.payload + n

def Write.Adds (w : Write) (tree : Builder) (n : Nat) : Prop := Builder.Adds w.apply tree n

/-- A missing row adds `n` bytes. -/
def Builder.AddsMissing (tree : Builder) (n : Nat) : Prop := Builder.Adds Builder.appendNull tree n

namespace ItemBuilder

section

variable {f g : ItemBuilder → Option ItemBuilder} {tree : ItemBuilder} {m n : Nat}

theorem Adds.bind (first : Adds f tree m) (second : Adds g tree n) :
    Adds (fun b => f b >>= g) tree (m + n) := by
  intro b same
  obtain ⟨b₁, changed₁, same₁, payload₁⟩ := first b same
  obtain ⟨b₂, changed₂, same₂, payload₂⟩ := second b₁ same₁
  refine ⟨b₂, Option.bind_eq_some_iff.2 ⟨b₁, changed₁, changed₂⟩, same₂, ?_⟩
  rw [payload₂, payload₁, Nat.add_assoc]

theorem Adds.foldlM {α : Type} {change : ItemBuilder → α → Option ItemBuilder} {cost : α → Nat}
    (each : ∀ a, Adds (change · a) tree (cost a)) (as : List α) :
    Adds (fun b => as.foldlM change b) tree (sumOf cost as) := by
  induction as with
  | nil => exact fun b same => ⟨b, rfl, same, rfl⟩
  | cons a as ih => exact (each a).bind ih

theorem Adds.mapItems_list (adds : Adds f tree n) (width : OffsetWidth) :
    Adds (·.mapItems? f) (.list width #[] tree) n := by
  intro b same
  cases b with
  | list other rows items =>
    obtain ⟨rfl, -, same⟩ := ItemBuilder.list.inj same
    obtain ⟨items', changed, same', payload'⟩ := adds items same
    refine ⟨.list other rows items', ?_, by rw [bare, same'], ?_⟩
    · exact Option.map_eq_some_iff.2 ⟨items', changed, rfl⟩
    · rw [payload, payload, payload', Nat.add_assoc]
  | _ => cases same

theorem Adds.mapItems_fixedSizeList (adds : Adds f tree n) (size : Nat) :
    Adds (·.mapItems? f) (.fixedSizeList size #[] tree) n := by
  intro b same
  cases b with
  | fixedSizeList other validity items =>
    obtain ⟨rfl, -, same⟩ := ItemBuilder.fixedSizeList.inj same
    obtain ⟨items', changed, same', payload'⟩ := adds items same
    exact ⟨.fixedSizeList other validity items',
      Option.map_eq_some_iff.2 ⟨items', changed, rfl⟩, by rw [bare, same'], payload'⟩
  | _ => cases same

end

theorem adds_endRow_list (valid : Bool) (width : OffsetWidth) (tree : ItemBuilder) :
    Adds (·.endRow? valid) (.list width #[] tree) width.bytes := by
  intro b same
  cases b with
  | list other rows items =>
    obtain ⟨rfl, -, same⟩ := ItemBuilder.list.inj same
    refine ⟨_, rfl, by rw [bare, same], ?_⟩
    rw [payload, payload, Array.size_push, Nat.succ_mul]
    omega
  | _ => cases same

theorem adds_endRow_fixedSizeList (valid : Bool) (size : Nat) (tree : ItemBuilder) :
    Adds (·.endRow? valid) (.fixedSizeList size #[] tree) 0 := by
  intro b same
  cases b with
  | fixedSizeList other validity items =>
    obtain ⟨rfl, -, same⟩ := ItemBuilder.fixedSizeList.inj same
    exact ⟨_, rfl, by rw [bare, same], rfl⟩
  | _ => cases same

theorem adds_numbers (type : NumberType) (values : List type.Bits) :
    Adds (·.appendNumbers? type values) (.number type #[]) (values.length * type.bytes) := by
  intro b same
  cases b with
  | number other slots =>
    obtain ⟨rfl, -⟩ := ItemBuilder.number.inj same
    refine ⟨_, dif_pos rfl, rfl, ?_⟩
    simp [payload, Nat.add_mul]
  | _ => cases same

theorem adds_number (type : NumberType) (value : type.Bits) :
    Adds (·.appendNumber? type value) (.number type #[]) type.bytes := by
  intro b same
  cases b with
  | number other slots =>
    obtain ⟨rfl, -⟩ := ItemBuilder.number.inj same
    refine ⟨_, dif_pos rfl, rfl, ?_⟩
    simp [payload, Nat.add_mul]
  | _ => cases same

theorem adds_booleans (values : List Bool) :
    Adds (·.appendBooleans? values) (.boolean #[]) values.length := by
  intro b same
  cases b with
  | boolean slots => exact ⟨_, rfl, rfl, by simp [payload]⟩
  | _ => cases same

theorem adds_boolean (value : Bool) : Adds (·.appendBoolean? value) (.boolean #[]) 1 := by
  intro b same
  cases b with
  | boolean slots => exact ⟨_, rfl, rfl, Array.size_push _⟩
  | _ => cases same

theorem adds_text (width : OffsetWidth) (value : String) :
    Adds (·.appendText? value) (.text width #[])
      (width.slotBytes String.utf8ByteSize (some value)) := by
  intro b same
  cases b with
  | text other slots =>
    cases same
    exact ⟨_, rfl, rfl, by simp [payload]⟩
  | _ => cases same

end ItemBuilder

namespace Builder

section

variable {ε : Type} {work : Builder → Except ε Unit × Builder} {tree : Builder} {n : Nat}

/-- A child changes in place, and with it the payload of all. -/
theorem Adds.child {trees children : List Builder} (adds : Adds work tree n)
    (same : bareAll children = trees) {index : Nat} (found : trees[index]? = some tree) :
    ∃ child child', children[index]? = some child ∧ child.kind = tree.kind ∧
      work child = (.ok (), child') ∧ bareAll (children.set index child') = trees ∧
      payloadAll (children.set index child') = payloadAll children + n := by
  rw [bareAll_eq_map] at same
  obtain ⟨child, here, alike⟩ : ∃ child, children[index]? = some child ∧ child.bare = tree := by
    rw [← same, List.getElem?_map] at found
    exact Option.map_eq_some_iff.1 found
  obtain ⟨child', done, alike', payload'⟩ := adds child alike
  refine ⟨child, child', here, by rw [← alike, kind_bare], done, ?_, ?_⟩
  · obtain ⟨inside, there⟩ := List.getElem?_eq_some_iff.1 found
    rw [bareAll_eq_map, List.map_set, same, alike', ← there]
    exact List.set_getElem_self inside
  · have sum := sumOf_set here child' (f := payload)
    rw [payloadAll_eq_sumOf, payloadAll_eq_sumOf]
    omega

theorem appendNullAt_of_getElem? {id : TypeId} {index : Nat} {children : List Builder}
    {child child' : Builder} (here : children[index]? = some child)
    (done : child.appendNull = (.ok (), child')) :
    appendNullAt id index children = (.ok child.length, children.set index child') := by
  induction children generalizing index with
  | nil => cases here
  | cons b bs ih =>
    cases index with
    | zero =>
      obtain rfl : b = child := Option.some.inj here
      rw [appendNullAt, done]
      rfl
    | succ index =>
      rw [appendNullAt, ih here]
      rfl

end

theorem addsMissing_item (items : ItemBuilder) :
    (Builder.item items).AddsMissing items.missingBytes := by
  intro b same
  cases b with
  | item slots =>
    obtain rfl : slots.bare = items := Builder.item.inj same
    refine ⟨.item (slots.appendNulls 1), rfl, by simp [bare], ?_⟩
    rw [payload, payload, ItemBuilder.payload_appendNulls, Nat.one_mul,
      ItemBuilder.missingBytes_bare]
  | _ => cases same

theorem addsMissing_all {items : List ItemBuilder} {children : List Builder}
    (same : bareAll children = items.map .item) :
    ∃ children', appendNullAll children = (.ok (), children') ∧
      bareAll children' = items.map .item ∧
      payloadAll children' = payloadAll children + sumOf ItemBuilder.missingBytes items := by
  induction children generalizing items with
  | nil =>
    cases items with
    | nil => exact ⟨[], rfl, rfl, rfl⟩
    | cons item items => cases same
  | cons b bs ih =>
    cases items with
    | nil => cases same
    | cons item items =>
      obtain ⟨first, rest⟩ := List.cons.inj same
      obtain ⟨b', done, alike, payload'⟩ := addsMissing_item item b first
      obtain ⟨bs', others, alikes, payloads⟩ := ih rest
      refine ⟨b' :: bs', by rw [appendNullAll, done, others], ?_, ?_⟩
      · rw [bareAll, alike, alikes, List.map_cons]
      · rw [payloadAll, payloadAll, sumOf_cons, payload', payloads]
        omega

/-- Every child of a struct takes a missing row. -/
theorem addsMissing_struct (fields : List Field) (items : List ItemBuilder) :
    (Builder.struct fields #[] (items.map .item)).AddsMissing
      (sumOf ItemBuilder.missingBytes items) := by
  intro b same
  cases b with
  | struct other validity children =>
    obtain ⟨rfl, -, same⟩ := Builder.struct.inj same
    obtain ⟨children', done, same', payload'⟩ := addsMissing_all same
    exact ⟨.struct other (validity.push false) children', by rw [appendNull, done],
      by rw [bare, same'], payload'⟩
  | _ => cases same

/-- A missing row of a union is one of the variant for them. -/
theorem addsMissing_union {variants : List Variant} {trees : List Builder} {tree : Builder}
    {n index : Nat} {id : TypeId} (marked : nullVariant? variants = some id)
    (declared : Column.variantIndex? variants id = some index)
    (found : trees[index]? = some tree) (adds : tree.AddsMissing n) :
    (Builder.union variants #[] trees).AddsMissing (5 + n) := by
  intro b same
  cases b with
  | union other rows children =>
    obtain ⟨rfl, -, same⟩ := Builder.union.inj same
    obtain ⟨child, child', here, -, done, same', payload'⟩ := Adds.child adds same found
    refine ⟨.union other (rows.push (id, child.length)) (children.set index child'), ?_,
      by rw [bare, same'], ?_⟩
    · rw [appendNull, marked]
      dsimp only
      rw [declared, Option.getD_some, appendNullAt_of_getElem? here done]
    · rw [payload, payload, payload', Array.size_push, OffsetWidth.bytes]
      omega
  | _ => cases same

end Builder

namespace Write

section

variable {w : Write} {tree : Builder} {m n : Nat}

theorem adds_changeItem {f : ItemBuilder → Option ItemBuilder} {items : ItemBuilder}
    (adds : ItemBuilder.Adds f items n) (name : String) :
    (changeItem name f).Adds (.item items) n := by
  intro b same
  cases b with
  | item slots =>
    obtain ⟨slots', changed, same', payload'⟩ := adds slots (Builder.item.inj same)
    exact ⟨.item slots', apply_changeItem changed, by rw [Builder.bare, same'], payload'⟩
  | _ => cases same

theorem adds_missing (adds : tree.AddsMissing n) (name : String) : (missing name).Adds tree n := by
  intro b same
  obtain ⟨b', added, same', payload'⟩ := adds b same
  exact ⟨b', apply_missing added, same', payload'⟩

theorem Adds.bind {next : Write} (first : w.Adds tree m) (second : next.Adds tree n) :
    Write.Adds (w >>= fun _ => next) tree (m + n) := by
  intro b same
  obtain ⟨b₁, done₁, same₁, payload₁⟩ := first b same
  obtain ⟨b₂, done₂, same₂, payload₂⟩ := second b₁ same₁
  refine ⟨b₂, (apply_bind done₁).trans done₂, same₂, ?_⟩
  rw [payload₂, payload₁, Nat.add_assoc]

theorem Adds.forM {α : Type} {write : α → Write} {cost : α → Nat}
    (each : ∀ a, (write a).Adds tree (cost a)) (as : List α) :
    Write.Adds (as.forM write) tree (sumOf cost as) := by
  induction as with
  | nil => exact fun b same => ⟨b, rfl, same, rfl⟩
  | cons a as ih => exact (each a).bind ih

theorem Adds.toField (adds : w.Adds tree n) (fields : List Field) {trees : List Builder}
    {index : Nat} (found : trees[index]? = some tree) :
    (Write.toField index tree.kind w).Adds (.struct fields #[] trees) n := by
  intro b same
  cases b with
  | struct other validity children =>
    obtain ⟨rfl, -, same⟩ := Builder.struct.inj same
    obtain ⟨child, child', here, kind, done, same', payload'⟩ := Builder.Adds.child adds same found
    exact ⟨.struct other validity (children.set index child'), apply_toField here kind done,
      by rw [Builder.bare, same'], payload'⟩
  | _ => cases same

/-- A row of a union takes an id and an offset. -/
theorem Adds.toVariant (adds : w.Adds tree n) {variants : List Variant} {trees : List Builder}
    {id : TypeId} {index : Nat} (declared : Column.variantIndex? variants id = some index)
    (found : trees[index]? = some tree) :
    (Write.toVariant id tree.kind w).Adds (.union variants #[] trees) (5 + n) := by
  intro b same
  cases b with
  | union other rows children =>
    obtain ⟨rfl, -, same⟩ := Builder.union.inj same
    obtain ⟨child, child', here, kind, done, same', payload'⟩ := Builder.Adds.child adds same found
    refine ⟨_, apply_toVariant declared here kind done, by rw [Builder.bare, same'], ?_⟩
    rw [Builder.payload, Builder.payload, payload', Array.size_push, OffsetWidth.bytes]
    omega
  | _ => cases same

theorem adds_endRow (name : String) (valid : Bool) (fields : List Field) (trees : List Builder) :
    (endRow name valid).Adds (.struct fields #[] trees) 0 := by
  intro b same
  cases b with
  | struct other validity children =>
    obtain ⟨rfl, -, same⟩ := Builder.struct.inj same
    exact ⟨_, apply_endRow _ _ _ _ _, by rw [Builder.bare, same], rfl⟩
  | _ => cases same

end

end Write

/-! ## Codecs -/

namespace Codec

/-- A row adds the bytes that `cost` says, in whatever way it is appended. -/
structure Costs {α : Type u} [Footprint α] (c : Codec α) (cost : Option α → Nat) : Prop where
  bare : c.newBuilder.bare = c.newBuilder
  append : ∀ a, (c.append a).Adds c.newBuilder (cost (some a))
  missing : c.newBuilder.AddsMissing (cost none)
  appendNull : c.appendNull.Adds c.newBuilder (cost none)
  appendOption : ∀ row, (c.appendOption row).Adds c.newBuilder (cost row)
  appendAll : ∀ as, (c.appendAll as).Adds c.newBuilder (sumOf (fun a => cost (some a)) as)

section

variable {α : Type u} [Footprint α] {c : Codec α} {cost : Option α → Nat}

theorem adds_appendOption (append : ∀ a, (c.append a).Adds c.newBuilder (cost (some a)))
    (null : c.appendNull.Adds c.newBuilder (cost none))
    (rule : c.appendOption = fun | some a => c.append a | none => c.appendNull)
    (row : Option α) : (c.appendOption row).Adds c.newBuilder (cost row) := by
  rw [rule]
  cases row with
  | none => exact null
  | some a => exact append a

/-- A codec that leaves missing values to the builder, and optional values to the rule. -/
theorem costs_of_rules {name : String} (bare : c.newBuilder.bare = c.newBuilder)
    (append : ∀ a, (c.append a).Adds c.newBuilder (cost (some a)))
    (missing : c.newBuilder.AddsMissing (cost none)) (nulls : c.appendNull = .missing name)
    (options : c.appendOption = fun | some a => c.append a | none => c.appendNull)
    (appendAll : ∀ as, (c.appendAll as).Adds c.newBuilder (sumOf (fun a => cost (some a)) as)) :
    c.Costs cost := by
  have null : c.appendNull.Adds c.newBuilder (cost none) := by
    rw [nulls]
    exact Write.adds_missing missing name
  exact ⟨bare, append, missing, null, adds_appendOption append null options, appendAll⟩

theorem Costs.appendField (costs : c.Costs cost) (a : α) (fields : List Field)
    {trees : List Builder} {index : Nat} (found : trees[index]? = some c.newBuilder) :
    (c.appendField index a).Adds (.struct fields #[] trees) (cost (some a)) :=
  (costs.append a).toField fields found

theorem Costs.appendFieldOption (costs : c.Costs cost) (row : Option α) (fields : List Field)
    {trees : List Builder} {index : Nat} (found : trees[index]? = some c.newBuilder) :
    (c.appendFieldOption index row).Adds (.struct fields #[] trees) (cost row) :=
  (costs.appendOption row).toField fields found

end

/-- A codec that leaves its values to another one writes what that one does. -/
theorem delegate_costs {α β : Type} [Footprint α] [Footprint β] (name : String) {inner : Codec β}
    {get : α → β} {cost : Option β → Nat} (costs : inner.Costs cost) :
    (delegate name inner get).Costs fun row => cost (row.map get) := by
  have append (a : α) : ((delegate name inner get).append a).Adds inner.newBuilder
      (cost ((some a).map get)) := costs.append (get a)
  exact ⟨costs.bare, append, costs.missing, costs.appendNull,
    adds_appendOption append costs.appendNull rfl, Write.Adds.forM append⟩

/-! ### Flat values -/

theorem number_costs (type : NumberType) : (number type).Costs fun _ => type.bytes := by
  refine costs_of_rules rfl (fun a => ?_) (Builder.addsMissing_item _) rfl rfl fun as => ?_
  · exact Write.adds_changeItem (ItemBuilder.adds_number type a) _
  · rw [sumOf_const]
    exact Write.adds_changeItem (ItemBuilder.adds_numbers type as) _

theorem boolean_costs : boolean.Costs fun _ => 1 := by
  refine costs_of_rules rfl (fun a => ?_) (Builder.addsMissing_item _) rfl rfl fun as => ?_
  · exact Write.adds_changeItem (ItemBuilder.adds_boolean a) _
  · rw [sumOf_const, Nat.mul_one]
    exact Write.adds_changeItem (ItemBuilder.adds_booleans as) _

def textBytes : Option TextBuffer → Nat :=
  OffsetWidth.narrow.slotBytes fun t => t.content.utf8ByteSize

theorem text_costs : text.Costs textBytes := by
  have append (a : TextBuffer) : (text.append a).Adds text.newBuilder (textBytes (some a)) :=
    Write.adds_changeItem (ItemBuilder.adds_text .narrow a.content) _
  exact costs_of_rules rfl append (Builder.addsMissing_item _) rfl rfl (Write.Adds.forM append)

def textsBytes : Option (ListBuffer TextBuffer) → Nat :=
  OffsetWidth.narrow.slotBytes fun l => sumOf (fun t => textBytes (some t)) l.items

theorem texts_costs : texts.Costs textsBytes := by
  have append (a : ListBuffer TextBuffer) :
      (texts.append a).Adds texts.newBuilder (textsBytes (some a)) := by
    have item (t : TextBuffer) :=
      (ItemBuilder.adds_text .narrow t.content).mapItems_list .narrow
    have row := (ItemBuilder.Adds.foldlM item a.items).bind
      (ItemBuilder.adds_endRow_list true .narrow (.text .narrow #[]))
    rw [Nat.add_comm] at row
    exact Write.adds_changeItem row _
  exact costs_of_rules rfl append (Builder.addsMissing_item _) rfl rfl (Write.Adds.forM append)

theorem scalars_costs (name : String) (n : Nat) : (scalars name n).Costs fun _ => n * 4 := by
  have append (a : Vector Scalar n) :
      ((scalars name n).append a).Adds (scalars name n).newBuilder (n * 4) := by
    have items := (ItemBuilder.adds_numbers .float32 a.toList).mapItems_fixedSizeList n
    have row := items.bind (ItemBuilder.adds_endRow_fixedSizeList true n (.number .float32 #[]))
    rw [Vector.length_toList] at row
    exact Write.adds_changeItem row _
  exact costs_of_rules rfl append (Builder.addsMissing_item _) rfl rfl (Write.Adds.forM append)

/-! ### Records and transforms -/

theorem translationAndMat3x3_costs : translationAndMat3x3.Costs fun _ => 49 := by
  have append (a : TranslationAndMat3x3) :
      (translationAndMat3x3.append a).Adds translationAndMat3x3.newBuilder 49 := by
    have translation : (vec3D.appendFieldOption 0 a.translation).Adds
      translationAndMat3x3.newBuilder 12 := (scalars_costs _ 3).appendFieldOption _ _ rfl
    have matrix : (mat3x3.appendFieldOption 1 a.matrix).Adds
      translationAndMat3x3.newBuilder 36 := (scalars_costs _ 9).appendFieldOption _ _ rfl
    have parent : (boolean.appendField 2 a.fromParent).Adds
      translationAndMat3x3.newBuilder 1 := boolean_costs.appendField _ _ rfl
    exact translation.bind (matrix.bind (parent.bind (Write.adds_endRow _ true _ _)))
  exact costs_of_rules rfl append (Builder.addsMissing_struct _ [_, _, _]) rfl rfl
    (Write.Adds.forM append)

theorem translationRotationScale3D_costs : translationRotationScale3D.Costs fun _ => 41 := by
  have append (a : TranslationRotationScale3D) :
      (translationRotationScale3D.append a).Adds translationRotationScale3D.newBuilder 41 := by
    have translation : (vec3D.appendFieldOption 0 a.translation).Adds
      translationRotationScale3D.newBuilder 12 := (scalars_costs _ 3).appendFieldOption _ _ rfl
    have rotation : (quaternion.appendFieldOption 1 a.rotation).Adds
      translationRotationScale3D.newBuilder 16 := (scalars_costs _ 4).appendFieldOption _ _ rfl
    have scale : (vec3D.appendFieldOption 2 a.scale).Adds
      translationRotationScale3D.newBuilder 12 := (scalars_costs _ 3).appendFieldOption _ _ rfl
    have parent : (boolean.appendField 3 a.fromParent).Adds
      translationRotationScale3D.newBuilder 1 := boolean_costs.appendField _ _ rfl
    exact translation.bind
      (rotation.bind (scale.bind (parent.bind (Write.adds_endRow _ true _ _))))
  exact costs_of_rules rfl append (Builder.addsMissing_struct _ [_, _, _, _]) rfl rfl
    (Write.Adds.forM append)

/-- Every row takes an id and an offset, and the fields of its variant. -/
def transform3DBytes : Option Transform3D → Nat
  | none => 5
  | some (.translationAndMat3x3 _) => 5 + 49
  | some (.translationRotationScale _) => 5 + 41

theorem transform3D_costs : transform3D.Costs transform3DBytes := by
  have append (a : Transform3D) :
      (transform3D.append a).Adds transform3D.newBuilder (transform3DBytes (some a)) := by
    cases a with
    | translationAndMat3x3 value =>
      exact (translationAndMat3x3_costs.append value).toVariant rfl rfl
    | translationRotationScale value =>
      exact (translationRotationScale3D_costs.append value).toVariant rfl rfl
  have declared : Column.variantIndex? transform3DVariants 0 = some 0 := rfl
  have missing : transform3D.newBuilder.AddsMissing 5 :=
    Builder.addsMissing_union nullVariant?_transform3D declared rfl
      (Builder.addsMissing_item (.null 0))
  exact costs_of_rules rfl append missing rfl rfl (Write.Adds.forM append)

/-- A missing record takes as much as one without texts. -/
def fuzzRecordBytes (row : Option FuzzRecord) : Nat :=
  4 + (textBytes (row.map (·.singleStringRequired)) +
    (textsBytes (row.bind (·.manyStringsOptional)) + 4))

theorem fuzzRecord_costs : fuzzRecord.Costs fuzzRecordBytes := by
  have append (a : FuzzRecord) :
      (fuzzRecord.append a).Adds fuzzRecord.newBuilder (fuzzRecordBytes (some a)) := by
    have float : ((number .float32).appendFieldOption 0 a.singleFloatOptional).Adds
      fuzzRecord.newBuilder 4 := (number_costs .float32).appendFieldOption _ _ rfl
    have string : (text.appendField 1 a.singleStringRequired).Adds
      fuzzRecord.newBuilder _ := text_costs.appendField _ _ rfl
    have strings : (texts.appendFieldOption 2 a.manyStringsOptional).Adds
      fuzzRecord.newBuilder _ := texts_costs.appendFieldOption _ _ rfl
    have scalar : ((number .float32).appendField 3 a.flattenedScalar).Adds
      fuzzRecord.newBuilder 4 := (number_costs .float32).appendField _ _ rfl
    exact float.bind (string.bind (strings.bind (scalar.bind (Write.adds_endRow _ true _ _))))
  exact costs_of_rules rfl append (Builder.addsMissing_struct _ [_, _, _, _]) rfl rfl
    (Write.Adds.forM append)

open Component.FuzzOptional (record?)

theorem fuzzOptional_costs : fuzzOptional.Costs fun row => fuzzRecordBytes (record? row) := by
  have append (a : Component.FuzzOptional) :
      (fuzzOptional.append a).Adds fuzzOptional.newBuilder (fuzzRecordBytes a.value) :=
    fuzzRecord_costs.appendOption a.value
  exact costs_of_rules rfl append fuzzRecord_costs.missing rfl rfl (Write.Adds.forM append)

end Codec

/-! ## All types -/

namespace Footprint

variable {α : Type u} [Footprint α]

/-- Values are charged for their places, and for what each of them owns elsewhere. -/
theorem totals_eq (as : List α) : totals as = as.length * size α + sumOf heap as := by
  induction as with
  | nil => simp [totals]
  | cons a as ih =>
    rw [totals] at ih
    rw [totals, sumOf_cons, sumOf_cons, ih, total, List.length_cons, Nat.succ_mul]
    omega

theorem le_total_of_size {n : Nat} (a : α) (fits : n ≤ size α) : n ≤ total a :=
  Nat.le_trans fits (Nat.le_add_right _ _)

/-- What covers each value covers all. -/
theorem sumOf_le_totals {f : α → Nat} (each : ∀ a, f a ≤ total a) (as : List α) :
    sumOf f as ≤ totals as := by
  induction as with
  | nil => exact Nat.le_refl 0
  | cons a as ih => exact Nat.add_le_add (each a) ih

end Footprint

namespace Codec

theorem textBytes_le_total (t : TextBuffer) : textBytes (some t) ≤ Footprint.total t := by
  have room := t.size_le_capacity
  change 4 + t.content.utf8ByteSize ≤ 24 + t.capacity
  omega

theorem textsBytes_le_total (l : ListBuffer TextBuffer) :
    textsBytes (some l) ≤ Footprint.total l := by
  have items := Footprint.sumOf_le_totals textBytes_le_total l.items
  have room := Nat.mul_le_mul_right 24 l.length_le_capacity
  rw [Footprint.totals_eq] at items
  change 4 + sumOf (fun t => textBytes (some t)) l.items ≤
    24 + (l.capacity * 24 + sumOf Footprint.heap l.items)
  change _ ≤ l.items.length * 24 + _ at items
  omega

theorem fuzzRecordBytes_le_total (a : FuzzRecord) :
    fuzzRecordBytes (some a) ≤ Footprint.total a := by
  have string := textBytes_le_total a.singleStringRequired
  have strings : textsBytes a.manyStringsOptional ≤
      24 + Footprint.heap a.manyStringsOptional := by
    cases a.manyStringsOptional with
    | none => exact Nat.le_add_right 4 20
    | some l => exact textsBytes_le_total l
  change 4 + (textBytes (some a.singleStringRequired) + (textsBytes a.manyStringsOptional + 4)) ≤
    64 + (Footprint.heap a.singleStringRequired + Footprint.heap a.manyStringsOptional)
  change _ ≤ 24 + _ at string
  omega

end Codec

namespace ShippedType

open Component.FuzzOptional (record?)

/-- The bytes that a row adds to the payload. -/
def cost : (t : ShippedType) → Option t.Values → Nat
  | number type => fun _ => type.bytes
  | boolean => fun _ => 1
  | text => Codec.textBytes
  | texts => Codec.textsBytes
  | vec3D => fun _ => 3 * 4
  | quaternion => fun _ => 4 * 4
  | mat3x3 => fun _ => 9 * 4
  | translationAndMat3x3 => fun _ => 49
  | translationRotationScale3D => fun _ => 41
  | transform3D => Codec.transform3DBytes
  | fuzzRecord => Codec.fuzzRecordBytes
  | label => fun row => Codec.textBytes (row.map Label.value)
  | labelComponent => fun row =>
    Codec.textBytes ((row.map Component.Label.value).map Label.value)
  | radius => fun _ => 4
  | scalarScattering => fun _ => 1
  | transform3DComponent => fun row =>
    Codec.transform3DBytes (row.map Component.Transform3D.value)
  | fuzzRequired => fun row => Codec.fuzzRecordBytes (row.map Component.FuzzRequired.value)
  | fuzzOptional => fun row => Codec.fuzzRecordBytes (record? row)

theorem costs (t : ShippedType) : t.codec.Costs t.cost := by
  cases t with
  | number type => exact Codec.number_costs type
  | boolean => exact Codec.boolean_costs
  | text => exact Codec.text_costs
  | texts => exact Codec.texts_costs
  | vec3D => exact Codec.scalars_costs _ 3
  | quaternion => exact Codec.scalars_costs _ 4
  | mat3x3 => exact Codec.scalars_costs _ 9
  | translationAndMat3x3 => exact Codec.translationAndMat3x3_costs
  | translationRotationScale3D => exact Codec.translationRotationScale3D_costs
  | transform3D => exact Codec.transform3D_costs
  | fuzzRecord => exact Codec.fuzzRecord_costs
  | label => exact Codec.delegate_costs _ Codec.text_costs
  | labelComponent => exact Codec.delegate_costs _ (Codec.delegate_costs _ Codec.text_costs)
  | radius => exact Codec.delegate_costs _ (Codec.number_costs .float32)
  | scalarScattering => exact Codec.delegate_costs _ Codec.boolean_costs
  | transform3DComponent => exact Codec.delegate_costs _ Codec.transform3D_costs
  | fuzzRequired => exact Codec.delegate_costs _ Codec.fuzzRecord_costs
  | fuzzOptional => exact Codec.fuzzOptional_costs

theorem transform3DBytes_le_size (a : Transform3D) :
    Codec.transform3DBytes (some a) ≤ Footprint.size Transform3D := by
  cases a <;> exact Nat.le_of_ble_eq_true rfl

/-- What a value is charged covers what is written for it. -/
theorem cost_le_total (t : ShippedType) (a : t.Values) : t.cost (some a) ≤ Footprint.total a := by
  cases t with
  | number type =>
    refine Footprint.le_total_of_size a ?_
    change type.bytes ≤ 8 * type.bytes / 8
    omega
  | text => exact Codec.textBytes_le_total a
  | texts => exact Codec.textsBytes_le_total a
  | transform3D => exact Footprint.le_total_of_size a (transform3DBytes_le_size a)
  | fuzzRecord => exact Codec.fuzzRecordBytes_le_total a
  | label => exact Codec.textBytes_le_total a.value
  | labelComponent => exact Codec.textBytes_le_total a.value.value
  | transform3DComponent => exact Footprint.le_total_of_size a (transform3DBytes_le_size a.value)
  | fuzzRequired => exact Codec.fuzzRecordBytes_le_total a.value
  | fuzzOptional =>
    obtain ⟨_ | record⟩ := a
    · exact Footprint.le_total_of_size _ (by decide)
    · exact Codec.fuzzRecordBytes_le_total record
  | _ => exact Footprint.le_total_of_size a (Nat.le_of_ble_eq_true rfl)

end ShippedType

end TypedColumns
