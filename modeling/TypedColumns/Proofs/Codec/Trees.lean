import TypedColumns.Proofs.Builder.Broken
import TypedColumns.Proofs.Builder.Payload
import TypedColumns.Proofs.Codec.Shipped

/-!
# Trees of builders

Whatever is written to a builder, it remains a builder of the same tree: with the same fields,
variants and sizes, and with a builder of the same kind in each place (`Builder.bare`). This holds
of missing rows and of finishing, also if they fail half way through the tree, and of all writes
that are put together from changes of this kind (`Write.KeepsTree`). The codecs of this library write
nothing else (`ShippedType.keepsTree`).
-/

namespace TypedColumns

universe u

namespace ItemBuilder

@[simp] theorem bare_reset (b : ItemBuilder) : b.reset.bare = b.bare := by
  induction b with
  | list width rows items ih => simp [reset, bare, ih]
  | fixedSizeList size validity items ih => simp [reset, bare, ih]
  | _ => rfl

@[simp] theorem bare_finish (b : ItemBuilder) : b.finish.2.bare = b.bare := by
  rw [finish]
  split
  · rfl
  · rfl
  · exact bare_reset b

/-- Where the change applies, it leaves the tree as it is. -/
def KeepsTree (f : ItemBuilder → Option ItemBuilder) : Prop :=
  ∀ b b', f b = some b' → b'.bare = b.bare

section

variable {f g : ItemBuilder → Option ItemBuilder}

theorem KeepsTree.bind (first : KeepsTree f) (second : KeepsTree g) :
    KeepsTree fun b => f b >>= g := by
  intro b b' changed
  obtain ⟨b₁, changed₁, changed₂⟩ := Option.bind_eq_some_iff.1 changed
  rw [second b₁ b' changed₂, first b b₁ changed₁]

theorem KeepsTree.foldlM {α : Type} {change : ItemBuilder → α → Option ItemBuilder}
    (each : ∀ a, KeepsTree (change · a)) (as : List α) :
    KeepsTree fun b => as.foldlM change b := by
  induction as with
  | nil =>
    intro b b' changed
    cases changed
    rfl
  | cons a as ih => exact (each a).bind ih

theorem KeepsTree.mapItems (keeps : KeepsTree f) : KeepsTree (·.mapItems? f) := by
  intro b b' changed
  cases b with
  | list width rows items =>
    obtain ⟨items', inner, rfl⟩ := Option.map_eq_some_iff.1 changed
    rw [bare, bare, keeps items items' inner]
  | fixedSizeList size validity items =>
    obtain ⟨items', inner, rfl⟩ := Option.map_eq_some_iff.1 changed
    rw [bare, bare, keeps items items' inner]
  | _ => cases changed

end

theorem keepsTree_endRow (valid : Bool) : KeepsTree (·.endRow? valid) := by
  intro b b' changed
  cases b <;> cases changed <;> rfl

theorem keepsTree_boolean (value : Bool) : KeepsTree (·.appendBoolean? value) := by
  intro b b' changed
  cases b <;> cases changed
  rfl

theorem keepsTree_booleans (values : List Bool) : KeepsTree (·.appendBooleans? values) := by
  intro b b' changed
  cases b <;> cases changed
  rfl

theorem keepsTree_number (type : NumberType) (value : type.Bits) :
    KeepsTree (·.appendNumber? type value) := by
  intro b b' changed
  cases b with
  | number other slots =>
    obtain ⟨_, same⟩ := Option.dite_none_right_eq_some.1 changed
    cases same
    rfl
  | _ => cases changed

theorem keepsTree_numbers (type : NumberType) (values : List type.Bits) :
    KeepsTree (·.appendNumbers? type values) := by
  intro b b' changed
  cases b with
  | number other slots =>
    obtain ⟨_, same⟩ := Option.dite_none_right_eq_some.1 changed
    cases same
    rfl
  | _ => cases changed

theorem keepsTree_text (value : String) : KeepsTree (·.appendText? value) := by
  intro b b' changed
  cases b <;> cases changed
  rfl

end ItemBuilder

namespace Builder

/-- Replacing a child by one of the same tree leaves the trees of all as they are. -/
theorem bareAll_set {children : List Builder} {child child' : Builder} {index : Nat}
    (found : children[index]? = some child) (same : child'.bare = child.bare) :
    bareAll (children.set index child') = bareAll children := by
  have here : (children.map bare)[index]? = some child'.bare := by
    rw [List.getElem?_map, found, same]
    rfl
  obtain ⟨inside, there⟩ := List.getElem?_eq_some_iff.1 here
  rw [bareAll_eq_map, bareAll_eq_map, List.map_set, ← there, List.set_getElem_self]

theorem bare_appendNullAll {children : List Builder}
    (each : ∀ b ∈ children, b.appendNull.2.bare = b.bare) :
    bareAll (appendNullAll children).2 = bareAll children := by
  induction children with
  | nil => rfl
  | cons b bs ih =>
    have own := each b List.mem_cons_self
    have others := ih fun c mem => each c (List.mem_cons_of_mem b mem)
    rw [appendNullAll]
    rcases first : b.appendNull with ⟨fault | _, b'⟩ <;> rw [first] at own
    · exact congrArg (· :: bareAll bs) own
    · rw [bareAll, own, others, bareAll]

theorem bare_appendNullAt {children : List Builder} (id : TypeId) (index : Nat)
    (each : ∀ b ∈ children, b.appendNull.2.bare = b.bare) :
    bareAll (appendNullAt id index children).2 = bareAll children := by
  induction children generalizing index with
  | nil => rfl
  | cons b bs ih =>
    cases index with
    | zero =>
      have own := each b List.mem_cons_self
      rw [appendNullAt]
      rcases first : b.appendNull with ⟨fault | _, b'⟩ <;> rw [first] at own <;>
        exact congrArg (· :: bareAll bs) own
    | succ index =>
      have others := ih index fun c mem => each c (List.mem_cons_of_mem b mem)
      exact congrArg (b.bare :: ·) others

@[simp] theorem bare_appendNull (b : Builder) : b.appendNull.2.bare = b.bare := by
  induction b using childInduction with
  | item items => exact congrArg Builder.item (ItemBuilder.bare_appendNulls 1 items)
  | struct fields validity children ih =>
    have all := bare_appendNullAll ih
    rw [appendNull]
    rcases added : appendNullAll children with ⟨fault | _, children'⟩ <;> rw [added] at all <;>
      exact congrArg (Builder.struct fields #[]) all
  | union variants rows children ih =>
    rw [appendNull]
    cases nullVariant? variants with
    | none => rfl
    | some id =>
      have all := bare_appendNullAt id ((Column.variantIndex? variants id).getD 0) ih
      dsimp only
      rcases added : appendNullAt id ((Column.variantIndex? variants id).getD 0) children with
        ⟨fault | _, children'⟩ <;> rw [added] at all <;>
        exact congrArg (Builder.union variants #[]) all

theorem bare_finishAll {children : List Builder}
    (each : ∀ b ∈ children, b.finish.2.bare = b.bare) :
    bareAll (finishAll children).2 = bareAll children := by
  induction children with
  | nil => rfl
  | cons b bs ih =>
    have own := each b List.mem_cons_self
    have others := ih fun c mem => each c (List.mem_cons_of_mem b mem)
    rw [finishAll]
    rcases first : b.finish with ⟨fault | column, b'⟩ <;> rw [first] at own
    · exact congrArg (· :: bareAll bs) own
    · rw [bareAll, own, others, bareAll]

@[simp] theorem bare_finish (b : Builder) : b.finish.2.bare = b.bare := by
  induction b using childInduction with
  | item items => exact congrArg Builder.item (ItemBuilder.bare_finish items)
  | struct fields validity children ih =>
    have all := bare_finishAll ih
    rw [finish]
    split
    · rfl
    · split <;> next finished => rw [finished] at all; exact congrArg (Builder.struct fields #[]) all
  | union variants rows children ih =>
    have all := bare_finishAll ih
    rw [finish]
    split
    · rfl
    · split <;> next finished => rw [finished] at all; exact congrArg (Builder.union variants #[]) all

end Builder

/-! ## Writes -/

/-- Whether it succeeds or not, the write leaves the tree as it is. -/
def Write.KeepsTree (w : Write) : Prop := ∀ b, (w.apply b).2.bare = b.bare

namespace Write

variable {w : Write}

theorem keepsTree_change {name : String} {f : Builder → Option Builder}
    (same : ∀ b b', f b = some b' → b'.bare = b.bare) : (change name f).KeepsTree := by
  intro b
  simp only [change, of, apply]
  cases changed : f b with
  | none => rfl
  | some b' => exact same b b' changed

theorem keepsTree_changeItem {name : String} {f : ItemBuilder → Option ItemBuilder}
    (keeps : ItemBuilder.KeepsTree f) : (changeItem name f).KeepsTree := by
  refine keepsTree_change fun b b' changed => ?_
  cases b with
  | item items =>
    obtain ⟨items', inner, rfl⟩ := Option.map_eq_some_iff.1 changed
    exact congrArg Builder.item (keeps items items' inner)
  | _ => cases changed

theorem keepsTree_endRow (name : String) (valid : Bool) : (endRow name valid).KeepsTree := by
  refine keepsTree_change fun b b' changed => ?_
  cases b <;> cases changed
  rfl

theorem keepsTree_missing (name : String) : (missing name).KeepsTree := by
  intro b
  have same := b.bare_appendNull
  simp only [missing, of, apply]
  rcases added : b.appendNull with ⟨fault | _, b'⟩ <;> rwa [added] at same

theorem KeepsTree.toField (keeps : w.KeepsTree) (index : Nat) (kind : Builder.Kind) :
    (Write.toField index kind w).KeepsTree := by
  intro b
  simp only [Write.toField, of, apply, Builder.withField]
  cases b with
  | struct fields validity children =>
    dsimp only
    split
    · rfl
    · next child found =>
      split
      · exact congrArg (Builder.struct fields #[]) (Builder.bareAll_set found (keeps child))
      · rfl
  | _ => rfl

theorem KeepsTree.toVariant (keeps : w.KeepsTree) (id : TypeId) (kind : Builder.Kind) :
    (Write.toVariant id kind w).KeepsTree := by
  intro b
  rcases Builder.withVariant_cases id kind w b with ⟨fault, refused⟩ |
    ⟨variants, rows, children, index, child, result, child', rfl, -, found, -, written, answered⟩
  · have left : ((Write.toVariant id kind w).apply b).2 = b := congrArg Prod.snd refused
    rw [left]
  · have same := keeps child
    rw [written] at same
    have left := congrArg (fun answer => answer.2.bare) answered
    exact left.trans (congrArg (Builder.union variants #[]) (Builder.bareAll_set found same))

theorem KeepsTree.bind {next : Unit → Write} (first : w.KeepsTree) (second : (next ()).KeepsTree) :
    Write.KeepsTree (w >>= next) := by
  intro b
  have own := first b
  change (ExceptT.bindCont next (w b).1 (w b).2).2.bare = _
  rcases done : w.apply b with ⟨e | _, b₁⟩ <;> rw [done] at own
  · rw [show w b = _ from done]
    exact own
  · rw [show w b = _ from done]
    exact (second b₁).trans own

theorem KeepsTree.forM {α : Type u} {write : α → Write} (each : ∀ a, (write a).KeepsTree)
    (as : List α) : Write.KeepsTree (as.forM write) := by
  induction as with
  | nil => exact fun b => rfl
  | cons a as ih => exact (each a).bind ih

end Write

/-! ## Codecs -/

namespace Codec

/-- However rows are appended, the tree of builders stays as it is. -/
structure KeepsTree {α : Type u} [Footprint α] (c : Codec α) : Prop where
  append : ∀ a, (c.append a).KeepsTree
  appendOption : ∀ row, (c.appendOption row).KeepsTree
  appendNull : c.appendNull.KeepsTree
  appendAll : ∀ as, (c.appendAll as).KeepsTree

section

variable {α : Type u} [Footprint α] {c : Codec α}

/-- A codec that leaves optional values and runs of values to the rules. -/
theorem keepsTree_of_rules (append : ∀ a, (c.append a).KeepsTree)
    (null : c.appendNull.KeepsTree)
    (options : c.appendOption = fun | some a => c.append a | none => c.appendNull)
    (appendAll : ∀ as, (c.appendAll as).KeepsTree) : c.KeepsTree := by
  refine ⟨append, fun row => ?_, null, appendAll⟩
  rw [options]
  cases row with
  | none => exact null
  | some a => exact append a

end

theorem delegate_keepsTree {α β : Type} [Footprint α] [Footprint β] (name : String)
    {inner : Codec β} {get : α → β} (keeps : inner.KeepsTree) :
    (delegate name inner get).KeepsTree :=
  keepsTree_of_rules (fun a => keeps.append (get a)) keeps.appendNull rfl
    (Write.KeepsTree.forM fun a => keeps.append (get a))

theorem number_keepsTree (type : NumberType) : (number type).KeepsTree :=
  keepsTree_of_rules (fun a => Write.keepsTree_changeItem (ItemBuilder.keepsTree_number type a))
    (Write.keepsTree_missing _) rfl
    fun as => Write.keepsTree_changeItem (ItemBuilder.keepsTree_numbers type as)

theorem boolean_keepsTree : boolean.KeepsTree :=
  keepsTree_of_rules (fun a => Write.keepsTree_changeItem (ItemBuilder.keepsTree_boolean a))
    (Write.keepsTree_missing _) rfl
    fun as => Write.keepsTree_changeItem (ItemBuilder.keepsTree_booleans as)

theorem text_keepsTree : text.KeepsTree := by
  have append (a : TextBuffer) : (text.append a).KeepsTree :=
    Write.keepsTree_changeItem (ItemBuilder.keepsTree_text a.content)
  exact keepsTree_of_rules append (Write.keepsTree_missing _) rfl (Write.KeepsTree.forM append)

theorem texts_keepsTree : texts.KeepsTree := by
  have append (a : ListBuffer TextBuffer) : (texts.append a).KeepsTree := by
    have item (t : TextBuffer) := (ItemBuilder.keepsTree_text t.content).mapItems
    exact Write.keepsTree_changeItem
      ((ItemBuilder.KeepsTree.foldlM item a.items).bind (ItemBuilder.keepsTree_endRow true))
  exact keepsTree_of_rules append (Write.keepsTree_missing _) rfl (Write.KeepsTree.forM append)

theorem scalars_keepsTree (name : String) (n : Nat) : (scalars name n).KeepsTree := by
  have append (a : Vector Scalar n) : ((scalars name n).append a).KeepsTree := by
    have items := (ItemBuilder.keepsTree_numbers .float32 a.toList).mapItems
    exact Write.keepsTree_changeItem (items.bind (ItemBuilder.keepsTree_endRow true))
  exact keepsTree_of_rules append (Write.keepsTree_missing _) rfl (Write.KeepsTree.forM append)

theorem translationAndMat3x3_keepsTree : translationAndMat3x3.KeepsTree := by
  have append (a : TranslationAndMat3x3) : (translationAndMat3x3.append a).KeepsTree :=
    (((scalars_keepsTree _ 3).appendOption a.translation).toField 0 _).bind <|
    (((scalars_keepsTree _ 9).appendOption a.matrix).toField 1 _).bind <|
    ((boolean_keepsTree.append a.fromParent).toField 2 _).bind <| Write.keepsTree_endRow _ true
  exact keepsTree_of_rules append (Write.keepsTree_missing _) rfl (Write.KeepsTree.forM append)

theorem translationRotationScale3D_keepsTree : translationRotationScale3D.KeepsTree := by
  have append (a : TranslationRotationScale3D) : (translationRotationScale3D.append a).KeepsTree :=
    (((scalars_keepsTree _ 3).appendOption a.translation).toField 0 _).bind <|
    (((scalars_keepsTree _ 4).appendOption a.rotation).toField 1 _).bind <|
    (((scalars_keepsTree _ 3).appendOption a.scale).toField 2 _).bind <|
    ((boolean_keepsTree.append a.fromParent).toField 3 _).bind <| Write.keepsTree_endRow _ true
  exact keepsTree_of_rules append (Write.keepsTree_missing _) rfl (Write.KeepsTree.forM append)

theorem transform3D_keepsTree : transform3D.KeepsTree := by
  have append (a : Transform3D) : (transform3D.append a).KeepsTree := by
    cases a with
    | translationAndMat3x3 value => exact (translationAndMat3x3_keepsTree.append value).toVariant _ _
    | translationRotationScale value =>
      exact (translationRotationScale3D_keepsTree.append value).toVariant _ _
  exact keepsTree_of_rules append (Write.keepsTree_missing _) rfl (Write.KeepsTree.forM append)

theorem fuzzRecord_keepsTree : fuzzRecord.KeepsTree := by
  have append (a : FuzzRecord) : (fuzzRecord.append a).KeepsTree :=
    (((number_keepsTree .float32).appendOption a.singleFloatOptional).toField 0 _).bind <|
    ((text_keepsTree.append a.singleStringRequired).toField 1 _).bind <|
    ((texts_keepsTree.appendOption a.manyStringsOptional).toField 2 _).bind <|
    (((number_keepsTree .float32).append a.flattenedScalar).toField 3 _).bind <|
    Write.keepsTree_endRow _ true
  exact keepsTree_of_rules append (Write.keepsTree_missing _) rfl (Write.KeepsTree.forM append)

theorem fuzzOptional_keepsTree : fuzzOptional.KeepsTree := by
  have append (a : Component.FuzzOptional) : (fuzzOptional.append a).KeepsTree :=
    fuzzRecord_keepsTree.appendOption a.value
  exact keepsTree_of_rules append (Write.keepsTree_missing _) rfl (Write.KeepsTree.forM append)

end Codec

/-- The codecs of this library leave the tree of builders as it is. -/
theorem ShippedType.keepsTree (t : ShippedType) : t.codec.KeepsTree := by
  cases t with
  | number type => exact Codec.number_keepsTree type
  | boolean => exact Codec.boolean_keepsTree
  | text => exact Codec.text_keepsTree
  | texts => exact Codec.texts_keepsTree
  | vec3D => exact Codec.scalars_keepsTree _ 3
  | quaternion => exact Codec.scalars_keepsTree _ 4
  | mat3x3 => exact Codec.scalars_keepsTree _ 9
  | translationAndMat3x3 => exact Codec.translationAndMat3x3_keepsTree
  | translationRotationScale3D => exact Codec.translationRotationScale3D_keepsTree
  | transform3D => exact Codec.transform3D_keepsTree
  | fuzzRecord => exact Codec.fuzzRecord_keepsTree
  | label => exact Codec.delegate_keepsTree _ Codec.text_keepsTree
  | labelComponent => exact Codec.delegate_keepsTree _ (Codec.delegate_keepsTree _ Codec.text_keepsTree)
  | radius => exact Codec.delegate_keepsTree _ (Codec.number_keepsTree .float32)
  | scalarScattering => exact Codec.delegate_keepsTree _ Codec.boolean_keepsTree
  | transform3DComponent => exact Codec.delegate_keepsTree _ Codec.transform3D_keepsTree
  | fuzzRequired => exact Codec.delegate_keepsTree _ Codec.fuzzRecord_keepsTree
  | fuzzOptional => exact Codec.fuzzOptional_keepsTree

end TypedColumns
