import TypedColumns.FlatTable.Writer

/-!
# Objects in a draft

An object is known by the distance of its first byte from the end, and a draft grows only in front.
So what is said here of the bytes of a draft, that an object stands at a distance from their end,
still holds of everything that the draft becomes (`At.extend` and the lemmas after it).

A table stands where its slots are told by a layout that may stand anywhere; what its slots hold
stands right behind the table.
-/

namespace TypedColumns.FlatTable

/-- The chunk begins at the distance `r` from the end. -/
def At (bs : Bytes) (r : Nat) (chunk : Bytes) : Prop :=
  ∃ front back, bs = front ++ (chunk ++ back) ∧ r = chunk.length + back.length

section At

variable {bs bs' : Bytes} {r : Nat} {chunk rest : Bytes}

/-- What was added last stands in front. -/
theorem at_front (chunk bs : Bytes) : At (chunk ++ bs) (chunk ++ bs).length chunk :=
  ⟨[], bs, rfl, List.length_append⟩

theorem at_front_of_length {width : Nat} {chunk : Bytes} (bs : Bytes)
    (length : chunk.length = width) : At (chunk ++ bs) (bs.length + width) chunk :=
  ⟨[], bs, rfl, by rw [length, Nat.add_comm]⟩

theorem At.le (placed : At bs r chunk) : r ≤ bs.length := by
  obtain ⟨front, back, rfl, rfl⟩ := placed
  rw [List.length_append, List.length_append]
  omega

theorem At.length_le (placed : At bs r chunk) : chunk.length ≤ r := by
  obtain ⟨front, back, rfl, rfl⟩ := placed
  exact Nat.le_add_right _ _

/-- What stands at a distance from the end stays there when bytes are added in front. -/
theorem At.extend (placed : At bs r chunk) (suffix : bs <:+ bs') : At bs' r chunk := by
  obtain ⟨front, back, rfl, rfl⟩ := placed
  obtain ⟨more, rfl⟩ := suffix
  exact ⟨more ++ front, back, (List.append_assoc _ _ _).symm, rfl⟩

theorem At.left (placed : At bs r (chunk ++ rest)) : At bs r chunk := by
  obtain ⟨front, back, rfl, rfl⟩ := placed
  refine ⟨front, rest ++ back, ?_, ?_⟩
  · rw [List.append_assoc]
  · rw [List.length_append, List.length_append, Nat.add_assoc]

theorem At.right (placed : At bs r (chunk ++ rest)) : At bs (r - chunk.length) rest := by
  obtain ⟨front, back, rfl, rfl⟩ := placed
  refine ⟨front ++ chunk, back, ?_, ?_⟩
  · rw [List.append_assoc, List.append_assoc]
  · rw [List.length_append]
    omega

/-- One of several chunks of the same length. -/
theorem At.nth {width count i : Nat} {chunk : Nat → Bytes} (length : ∀ i, (chunk i).length = width)
    (placed : At bs r ((List.range count).flatMap chunk)) (before : i < count) :
    At bs (r - width * i) (chunk i) := by
  -- The chunks in front of this one take `width` bytes each.
  have split : List.range count = List.range i ++ i :: (List.range count).drop (i + 1) := by
    have inside : i < (List.range count).length := by rwa [List.length_range]
    have cut := List.take_append_drop i (List.range count)
    rw [List.drop_eq_getElem_cons inside, List.getElem_range, List.take_range,
      Nat.min_eq_left (Nat.le_of_lt before)] at cut
    exact cut.symm
  have front : ((List.range i).flatMap chunk).length = width * i := by
    rw [List.length_flatMap, List.map_congr_left fun j _ => length j, List.map_const',
      List.sum_replicate_nat, List.length_range, Nat.mul_comm]
  rw [split, List.flatMap_append, List.flatMap_cons] at placed
  have tail := placed.right.left
  rwa [front] at tail

end At

/-! ## Texts, vectors and slots -/

/-- A text, with its length in front and a zero behind. -/
def TextAt (bs : Bytes) (r : Nat) (s : String) : Prop :=
  r % 4 = 0 ∧ At bs r (Bytes.ofNat 4 (Bytes.ofString s).length ++ (Bytes.ofString s ++ [0]))

/-- A vector of `count` items that are given as bytes. -/
def VectorAt (bs : Bytes) (r : Nat) (count : Nat) (items : Bytes) : Prop :=
  r % 4 = 0 ∧ At bs r (Bytes.ofNat 4 count ++ items)

/-- A vector of references to what stands behind it. -/
def RefsAt (bs : Bytes) (r : Nat) (refs : List Nat) : Prop :=
  ∃ base, r = base + 4 * refs.length + 4 ∧ (∀ target ∈ refs, target ≤ base) ∧
    VectorAt bs r refs.length (distances base refs)

/-- The content of a slot: a number on its own width, or the distance to what stands behind. -/
def EntryAt (bs : Bytes) (r : Nat) : Entry → Prop
  | .scalar v => r % v.length = 0 ∧ At bs r v
  | .ref target => r % 4 = 0 ∧ target ≤ r ∧ At bs r (Bytes.ofNat 4 (r - target))

/-- The contents of the slots stand at the places told, which are between `low` and `high`. -/
def SlotsAt (bs : Bytes) (low high : Nat) : List (Nat × Entry) → List (Nat × Nat) → Prop
  | [], [] => True
  | (i, entry) :: entries, (j, r) :: slots =>
    (j = i ∧ low ≤ r ∧ r ≤ high ∧ EntryAt bs r entry) ∧ SlotsAt bs low high entries slots
  | _, _ => False

/-- How many slots a table has, up to the last one in use. -/
def slotCount {α : Type} (slots : List (Nat × α)) : Nat := (slots.map (·.1 + 1)).foldl max 0

/-- A table: the distance to its layout in front, and the contents of its slots behind, as far as
two bytes tell. -/
def TableAt (bs : Bytes) (r : Nat) (entries : List (Nat × Entry)) : Prop :=
  ∃ (layout start : Nat) (slots : List (Nat × Nat)),
    (r % 4 = 0 ∧ layout % 2 = 0 ∧ 4 ≤ r ∧ 4 + 2 * slotCount entries ≤ 0xffff) ∧
    At bs r (Bytes.ofInt 4 ((layout : Int) - r)) ∧ At bs layout (layoutOf start r slots) ∧
    SlotsAt bs (r - 0xffff) (r - 4) entries slots

section Extend

variable {bs bs' : Bytes} {r : Nat}

theorem TextAt.extend {s : String} (placed : TextAt bs r s) (suffix : bs <:+ bs') :
    TextAt bs' r s :=
  ⟨placed.1, placed.2.extend suffix⟩

theorem VectorAt.extend {count : Nat} {items : Bytes} (placed : VectorAt bs r count items)
    (suffix : bs <:+ bs') : VectorAt bs' r count items :=
  ⟨placed.1, placed.2.extend suffix⟩

theorem RefsAt.extend {refs : List Nat} (placed : RefsAt bs r refs) (suffix : bs <:+ bs') :
    RefsAt bs' r refs := by
  obtain ⟨base, size, behind, items⟩ := placed
  exact ⟨base, size, behind, items.extend suffix⟩

theorem EntryAt.extend {entry : Entry} (placed : EntryAt bs r entry) (suffix : bs <:+ bs') :
    EntryAt bs' r entry := by
  cases entry with
  | scalar v => exact ⟨placed.1, placed.2.extend suffix⟩
  | ref target => exact ⟨placed.1, placed.2.1, placed.2.2.extend suffix⟩

theorem SlotsAt.extend {low high low' high' : Nat} {entries : List (Nat × Entry)}
    {slots : List (Nat × Nat)} (placed : SlotsAt bs low high entries slots)
    (suffix : bs <:+ bs') (lower : low' ≤ low) (higher : high ≤ high') :
    SlotsAt bs' low' high' entries slots := by
  induction entries generalizing slots with
  | nil =>
    cases slots with
    | nil => trivial
    | cons slot slots => cases placed
  | cons entry entries ih =>
    cases slots with
    | nil => cases placed
    | cons slot slots =>
      obtain ⟨⟨same, above, below, content⟩, others⟩ := placed
      exact ⟨⟨same, Nat.le_trans lower above, Nat.le_trans below higher, content.extend suffix⟩,
        ih others⟩

theorem TableAt.extend {entries : List (Nat × Entry)} (placed : TableAt bs r entries)
    (suffix : bs <:+ bs') : TableAt bs' r entries := by
  obtain ⟨layout, start, slots, aligned, own, laid, contents⟩ := placed
  exact ⟨layout, start, slots, aligned, own.extend suffix, laid.extend suffix,
    contents.extend suffix (Nat.le_refl _) (Nat.le_refl _)⟩

theorem TextAt.le {s : String} (placed : TextAt bs r s) : r ≤ bs.length := placed.2.le

theorem VectorAt.le {count : Nat} {items : Bytes} (placed : VectorAt bs r count items) :
    r ≤ bs.length :=
  placed.2.le

theorem RefsAt.le {refs : List Nat} (placed : RefsAt bs r refs) : r ≤ bs.length := by
  obtain ⟨base, size, behind, items⟩ := placed
  exact items.le

theorem TableAt.le {entries : List (Nat × Entry)} (placed : TableAt bs r entries) :
    r ≤ bs.length := by
  obtain ⟨layout, start, slots, aligned, own, laid, contents⟩ := placed
  exact own.le

end Extend

/-! ## Slots of a table -/

section Slots

variable {bs : Bytes} {low high : Nat} {entries : List (Nat × Entry)} {slots : List (Nat × Nat)}

theorem SlotsAt.numbers (placed : SlotsAt bs low high entries slots) :
    slots.map (·.1) = entries.map (·.1) := by
  induction entries generalizing slots with
  | nil =>
    cases slots with
    | nil => rfl
    | cons slot slots => cases placed
  | cons entry entries ih =>
    cases slots with
    | nil => cases placed
    | cons slot slots =>
      obtain ⟨⟨same, -⟩, others⟩ := placed
      rw [List.map_cons, List.map_cons, ih others, same]

theorem SlotsAt.slotCount (placed : SlotsAt bs low high entries slots) :
    slotCount slots = slotCount entries := by
  have same := congrArg (List.map (· + 1)) placed.numbers
  rw [List.map_map, List.map_map] at same
  rw [FlatTable.slotCount, FlatTable.slotCount]
  exact congrArg (List.foldl max 0) same

/-- Where the content of a slot is, if the slot holds any. -/
theorem SlotsAt.find (placed : SlotsAt bs low high entries slots) (i : Nat) :
    match entries.find? (·.1 == i) with
    | some (_, entry) => ∃ r, slots.find? (·.1 == i) = some (i, r) ∧ low ≤ r ∧ r ≤ high ∧
        EntryAt bs r entry
    | none => slots.find? (·.1 == i) = none := by
  induction entries generalizing slots with
  | nil =>
    cases slots with
    | nil => rfl
    | cons slot slots => cases placed
  | cons entry entries ih =>
    cases slots with
    | nil => cases placed
    | cons slot slots =>
      obtain ⟨j, entry⟩ := entry
      obtain ⟨j', r⟩ := slot
      obtain ⟨⟨rfl, above, below, content⟩, others⟩ := placed
      by_cases here : j' = i
      · subst here
        simp only [List.find?_cons, BEq.rfl]
        exact ⟨r, rfl, above, below, content⟩
      · have other : (j' == i) = false := beq_false_of_ne here
        simp only [List.find?_cons, other]
        exact ih others

/-- What a layout says of a slot: how far behind the table its content is, or zero. -/
def placeOf (table : Nat) (slots : List (Nat × Nat)) (i : Nat) : Nat :=
  match slots.find? (·.1 == i) with
  | some (_, r) => table - r
  | none => 0

theorem layoutOf_eq (start table : Nat) (slots : List (Nat × Nat)) :
    layoutOf start table slots =
      Bytes.ofNat 2 (4 + 2 * FlatTable.slotCount slots) ++ (Bytes.ofNat 2 (table - start) ++
        (List.range (FlatTable.slotCount slots)).flatMap fun i =>
          Bytes.ofNat 2 (placeOf table slots i)) := by
  have places : (fun i => Bytes.ofNat 2 (placeOf table slots i)) = fun i =>
      match slots.find? (·.1 == i) with
      | some (_, r) => Bytes.ofNat 2 (table - r)
      | none => Bytes.ofNat 2 0 := by
    funext i
    rw [placeOf]
    split <;> rfl
  rw [places, ← List.append_assoc]
  rfl

theorem length_layoutOf (start table : Nat) (slots : List (Nat × Nat)) :
    (layoutOf start table slots).length = 4 + 2 * FlatTable.slotCount slots := by
  have each : ∀ i, (Bytes.ofNat 2 (placeOf table slots i)).length = 2 :=
    fun i => Bytes.length_ofNat 2 _
  rw [layoutOf_eq, List.length_append, List.length_append, Bytes.length_ofNat, Bytes.length_ofNat,
    List.length_flatMap, List.map_congr_left fun i _ => each i, List.map_const',
    List.sum_replicate_nat, List.length_range]
  omega

/-- A layout tells its own length and the place of each slot. -/
theorem At.layout {layout start table : Nat} (placed : At bs layout (layoutOf start table slots)) :
    At bs layout (Bytes.ofNat 2 (4 + 2 * FlatTable.slotCount slots)) ∧
      ∀ i < FlatTable.slotCount slots,
        At bs (layout - 4 - 2 * i) (Bytes.ofNat 2 (placeOf table slots i)) := by
  rw [layoutOf_eq] at placed
  refine ⟨placed.left, fun i before => ?_⟩
  have places := placed.right.right
  rw [Bytes.length_ofNat, Bytes.length_ofNat, Nat.sub_sub] at places
  exact places.nth (fun i => Bytes.length_ofNat 2 _) before

end Slots

end TypedColumns.FlatTable
