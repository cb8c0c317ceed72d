import TypedColumns.FlatTable.Reader
import TypedColumns.Proofs.FlatTable.Placed

/-!
# Objects in a buffer

A finished draft is read from a buffer that begins with it; bytes may follow. What stands at a
distance `r` from the end of the draft is then at the position `F.length - r` of the buffer, where
`F` are the bytes of the draft.

`TextIn`, `VectorIn`, `RefsIn` and `Opened` say what a reader finds at a position. Reading and
checking an object are both told from them.
-/

namespace TypedColumns.FlatTable

section Positions

variable {F : Bytes} {b : Buffer} {r : Nat} {chunk : Bytes}

theorem length_le_size (begins : F <+: b.toList) : F.length ≤ b.size := by
  rw [← Array.length_toList]
  exact begins.length_le

theorem range?_of_at (begins : F <+: b.toList) (placed : At F r chunk) :
    range? b (F.length - r) chunk.length = some chunk := by
  obtain ⟨front, back, rfl, rfl⟩ := placed
  obtain ⟨rest, bytes⟩ := begins
  have pos : (front ++ (chunk ++ back)).length - (chunk.length + back.length) = front.length := by
    rw [List.length_append, List.length_append]
    omega
  have size : b.size = front.length + (chunk.length + back.length) + rest.length := by
    rw [← Array.length_toList, ← bytes, List.length_append, List.length_append, List.length_append]
  rw [range?, pos, if_pos (by omega), Array.toList_extract, ← bytes, List.extract_eq_take_drop,
    Nat.add_sub_cancel_left, List.append_assoc, List.drop_left, List.append_assoc, List.take_left]

theorem getElem?_of_at {byte : UInt8} (begins : F <+: b.toList) (placed : At F r [byte]) :
    b[F.length - r]? = some byte := by
  obtain ⟨front, back, rfl, rfl⟩ := placed
  obtain ⟨rest, bytes⟩ := begins
  have pos : (front ++ ([byte] ++ back)).length - ([byte].length + back.length) =
      front.length := by
    rw [List.length_append, List.length_append]
    omega
  rw [pos, ← Array.getElem?_toList, ← bytes, List.append_assoc,
    List.getElem?_append_right (Nat.le_refl _), Nat.sub_self]
  rfl

theorem range?_of_length {length : Nat} (begins : F <+: b.toList) (placed : At F r chunk)
    (same : chunk.length = length) : range? b (F.length - r) length = some chunk := by
  rw [← same]
  exact range?_of_at begins placed

theorem word?_of_at {width n : Nat} (begins : F <+: b.toList)
    (placed : At F r (Bytes.ofNat width n)) (small : n < Nat.pow 256 width) :
    word? width b (F.length - r) = some n := by
  rw [word?, range?_of_length begins placed (Bytes.length_ofNat width n), Option.map_some,
    Bytes.toNat_ofNat small]

theorem int?_of_at {width : Nat} {i : Int} (begins : F <+: b.toList)
    (placed : At F r (Bytes.ofInt width i)) (low : -(Nat.pow 256 width : Int) ≤ 2 * i)
    (high : 2 * i < Nat.pow 256 width) : int? width b (F.length - r) = some i := by
  rw [int?, range?_of_length begins placed (Bytes.length_ofInt width i), Option.map_some,
    Bytes.toInt_ofInt low high]

/-- Where a chunk behind another one is. -/
theorem pos_right {width : Nat} (placed : At F r chunk) (same : chunk.length = width) :
    F.length - (r - width) = F.length - r + width := by
  have := placed.le
  have := placed.length_le
  omega

theorem aligned_pos {width : Nat} (whole : width ∣ F.length) (aligned : r % width = 0) :
    (F.length - r) % width = 0 :=
  Nat.mod_eq_zero_of_dvd (Nat.dvd_sub whole (Nat.dvd_of_mod_eq_zero aligned))

theorem size_le_of_range? {pos length : Nat} (found : range? b pos length = some chunk) :
    pos + length ≤ b.size := by
  rw [range?] at found
  split at found
  · next inside => exact inside
  · cases found

theorem range?_eq_some_of_word? {width pos n : Nat} (found : word? width b pos = some n) :
    ∃ chunk, range? b pos width = some chunk := by
  obtain ⟨chunk, range, -⟩ := Option.map_eq_some_iff.1 found
  exact ⟨chunk, range⟩

end Positions

/-! ## Texts and vectors -/

/-- A text at a position. -/
structure TextIn (b : Buffer) (pos : Nat) (s : String) : Prop where
  aligned : pos % 4 = 0
  count : word? 4 b pos = some (Bytes.ofString s).length
  chars : range? b (pos + 4) (Bytes.ofString s).length = some (Bytes.ofString s)
  zero : b[pos + 4 + (Bytes.ofString s).length]? = some 0

/-- A vector of items that are given as bytes at a position. -/
structure VectorIn (b : Buffer) (pos count : Nat) (items : Bytes) : Prop where
  aligned : pos % 4 = 0
  count : word? 4 b pos = some count
  items : range? b (pos + 4) items.length = some items

/-- A vector of references at a position, and the positions that they lead to. -/
structure RefsIn (b : Buffer) (pos : Nat) (targets : List Nat) : Prop where
  aligned : pos % 4 = 0
  count : word? 4 b pos = some targets.length
  inside : pos + 4 + 4 * targets.length ≤ b.size
  follow : ∀ i < targets.length, follow? b (pos + 4 + 4 * i) = targets[i]?

/-- Four bytes are enough for every distance in a buffer. -/
theorem lt_pow {n : Nat} (small : n < 0x8000_0000) : n < Nat.pow 256 4 :=
  Nat.lt_trans small (by decide)

section Objects

variable {F : Bytes} {b : Buffer} {r : Nat}

theorem TextAt.read {s : String} (placed : TextAt F r s) (begins : F <+: b.toList)
    (whole : 4 ∣ F.length) (small : F.length < 0x8000_0000) : TextIn b (F.length - r) s := by
  obtain ⟨aligned, placed⟩ := placed
  have four := Bytes.length_ofNat 4 (Bytes.ofString s).length
  have length := placed.length_le
  have le := placed.le
  rw [List.length_append, List.length_append] at length
  have chars := placed.right
  rw [four] at chars
  have chars_pos := pos_right placed.left four
  have zero := chars.right
  have zero_pos := pos_right chars.left rfl
  refine ⟨aligned_pos whole aligned, ?_, ?_, ?_⟩
  · exact word?_of_at begins placed.left (lt_pow (by omega))
  · rw [← chars_pos]
    exact range?_of_at begins chars.left
  · rw [← chars_pos, ← zero_pos]
    exact getElem?_of_at begins zero

theorem VectorAt.read {count : Nat} {items : Bytes} (placed : VectorAt F r count items)
    (begins : F <+: b.toList) (whole : 4 ∣ F.length) (small : F.length < 0x8000_0000)
    (enough : count ≤ items.length) : VectorIn b (F.length - r) count items := by
  obtain ⟨aligned, placed⟩ := placed
  have four := Bytes.length_ofNat 4 count
  have inside := placed.length_le
  have le := placed.le
  rw [List.length_append] at inside
  have behind := placed.right
  rw [four] at behind
  refine ⟨aligned_pos whole aligned, word?_of_at begins placed.left (lt_pow (by omega)), ?_⟩
  rw [← pos_right placed.left four]
  exact range?_of_at begins behind

theorem follow?_of_at {target : Nat} (begins : F <+: b.toList) (small : F.length < 0x8000_0000)
    (behind : target ≤ r) (placed : At F r (Bytes.ofNat 4 (r - target))) :
    follow? b (F.length - r) = some (F.length - target) := by
  have le := placed.le
  have there : F.length - r + (r - target) = F.length - target := by omega
  rw [follow?, word?_of_at begins placed (lt_pow (by omega)), Option.map_some, there]

/-- Each distance in a vector of references stands where it is counted from. -/
theorem at_distances {base : Nat} {refs : List Nat}
    (placed : At F (base + 4 * refs.length) (distances base refs)) {i : Nat} {target : Nat}
    (here : refs[i]? = some target) :
    At F (base + 4 * (refs.length - i))
      (Bytes.ofNat 4 (base + 4 * (refs.length - i) - target)) := by
  induction refs generalizing i with
  | nil => cases here
  | cons first rest ih =>
    rw [distances] at placed
    cases i with
    | zero =>
      cases here
      exact placed.left
    | succ i =>
      have next := placed.right
      rw [Bytes.length_ofNat] at next
      have pos : base + 4 * (first :: rest).length - 4 = base + 4 * rest.length := by
        rw [List.length_cons]
        omega
      rw [pos] at next
      have left : (first :: rest).length - (i + 1) = rest.length - i := by
        rw [List.length_cons]
        omega
      rw [left]
      exact ih next here

theorem RefsAt.read {refs : List Nat} (placed : RefsAt F r refs) (begins : F <+: b.toList)
    (whole : 4 ∣ F.length) (small : F.length < 0x8000_0000) :
    RefsIn b (F.length - r) (refs.map (F.length - ·)) := by
  obtain ⟨base, rfl, behind, aligned, placed⟩ := placed
  have le := placed.le
  have four := Bytes.length_ofNat 4 refs.length
  have items := placed.right
  have items_pos := pos_right placed.left four
  rw [four, Nat.add_sub_cancel] at items
  rw [Nat.add_sub_cancel] at items_pos
  have size := length_le_size begins
  refine ⟨aligned_pos whole aligned, ?_, ?_, ?_⟩
  · rw [List.length_map]
    exact word?_of_at begins placed.left (lt_pow (by omega))
  · rw [List.length_map]
    omega
  · intro i before
    rw [List.length_map] at before
    have here : refs[i]? = some refs[i] := List.getElem?_eq_getElem before
    have item := at_distances items here
    have target : refs[i] ≤ base := behind _ (List.getElem_mem before)
    have pos : F.length - (base + 4 * refs.length + 4) + 4 + 4 * i =
        F.length - (base + 4 * (refs.length - i)) := by omega
    rw [pos, follow?_of_at begins small (by omega) item, List.getElem?_map, here]
    rfl

end Objects

/-! ## Tables -/

/-- The content of a slot at a position. -/
def ContentIn (F : Bytes) (b : Buffer) (pos : Nat) : Entry → Prop
  | .scalar v => pos % v.length = 0 ∧ range? b pos v.length = some v
  | .ref target => pos % 4 = 0 ∧ follow? b pos = some (F.length - target)

/-- What a slot of a table holds, if any. -/
def contentOf? (entries : List (Nat × Entry)) (i : Nat) : Option Entry :=
  (entries.find? (·.1 == i)).map (·.2)

/-- A table with the contents of its slots. -/
structure Opened (F : Bytes) (t : Table) (entries : List (Nat × Entry)) : Prop where
  aligned : t.pos % 4 = 0
  distance : int? 4 t.buffer t.pos = some ((t.pos : Int) - t.layout)
  even : t.layout % 2 = 0
  size : t.layoutSize = 4 + 2 * slotCount entries
  count : word? 2 t.buffer t.layout = some t.layoutSize
  whole : t.layout + t.layoutSize ≤ t.buffer.size
  slot : ∀ i < slotCount entries, ∃ place, word? 2 t.buffer (t.layout + 4 + 2 * i) = some place ∧
    match contentOf? entries i with
    | none => place = 0
    | some entry => place ≠ 0 ∧ ContentIn F t.buffer (t.pos + place) entry

section Tables

variable {F : Bytes} {b : Buffer} {r : Nat} {entries : List (Nat × Entry)}

theorem EntryAt.read {entry : Entry} (placed : EntryAt F r entry) (begins : F <+: b.toList)
    (whole : 4 ∣ F.length) (small : F.length < 0x8000_0000)
    (wide : ∀ v, entry = .scalar v → v.length ∣ F.length) :
    ContentIn F b (F.length - r) entry := by
  cases entry with
  | scalar v =>
    obtain ⟨aligned, placed⟩ := placed
    exact ⟨aligned_pos (wide v rfl) aligned, range?_of_at begins placed⟩
  | ref target =>
    obtain ⟨aligned, behind, placed⟩ := placed
    exact ⟨aligned_pos whole aligned, follow?_of_at begins small behind placed⟩

/-- What a layout says of a slot leads to its content. -/
theorem SlotsAt.read {slots : List (Nat × Nat)} (le : r ≤ F.length) (four : 4 ≤ r)
    (placed : SlotsAt F (r - 0xffff) (r - 4) entries slots)
    (begins : F <+: b.toList) (whole : 4 ∣ F.length) (small : F.length < 0x8000_0000)
    (wide : ∀ i v, (i, Entry.scalar v) ∈ entries → v.length ∣ F.length) (i : Nat) :
    placeOf r slots i ≤ 0xffff ∧
      match contentOf? entries i with
      | none => placeOf r slots i = 0
      | some entry => placeOf r slots i ≠ 0 ∧
          ContentIn F b (F.length - r + placeOf r slots i) entry := by
  have find := placed.find i
  rw [contentOf?, placeOf]
  cases found : entries.find? (·.1 == i) with
  | none =>
    rw [found] at find
    rw [find]
    exact ⟨Nat.zero_le _, rfl⟩
  | some slot =>
    obtain ⟨j, entry⟩ := slot
    rw [found] at find
    obtain ⟨place, there, above, below, content⟩ := find
    rw [there]
    have mem := List.mem_of_find?_eq_some found
    have read := content.read begins whole small fun v same => wide j v (same ▸ mem)
    have pos : F.length - r + (r - place) = F.length - place := by omega
    refine ⟨?_, ?_, ?_⟩
    · show r - place ≤ 0xffff
      omega
    · show r - place ≠ 0
      omega
    · show ContentIn F b (F.length - r + (r - place)) entry
      rw [pos]
      exact read

/-- A table that was written is read as it was. -/
theorem TableAt.read (placed : TableAt F r entries) (begins : F <+: b.toList)
    (whole : 4 ∣ F.length) (small : F.length < 0x8000_0000)
    (wide : ∀ i v, (i, Entry.scalar v) ∈ entries → v.length ∣ F.length) :
    ∃ t : Table, t.buffer = b ∧ t.pos = F.length - r ∧ Opened F t entries := by
  obtain ⟨layout, start, slots, ⟨aligned, even, four, few⟩, own, laid, contents⟩ := placed
  have le := own.le
  have layout_le := laid.le
  have length := laid.length_le
  rw [length_layoutOf, contents.slotCount] at length
  obtain ⟨count, places⟩ := laid.layout
  rw [contents.slotCount] at count places
  have size := length_le_size begins
  have two : 2 ∣ F.length := Nat.dvd_trans (by decide) whole
  refine ⟨⟨b, F.length - r, F.length - layout, 4 + 2 * slotCount entries⟩, rfl, rfl, ?_⟩
  refine ⟨aligned_pos whole aligned, ?_, aligned_pos two even, rfl, ?_, ?_, ?_⟩
  · have pow : (Nat.pow 256 4 : Int) = 0x1_0000_0000 := by decide
    have read := int?_of_at begins own (by omega) (by omega)
    rw [read]
    show some _ = some (((F.length - r : Nat) : Int) - (F.length - layout : Nat))
    congr 1
    omega
  · exact word?_of_at begins count (Nat.lt_of_le_of_lt few (by decide))
  · show F.length - layout + (4 + 2 * slotCount entries) ≤ b.size
    omega
  · intro i before
    obtain ⟨reach, content⟩ := contents.read le four begins whole small wide i
    have here := places i before
    have pos : F.length - (layout - 4 - 2 * i) = F.length - layout + 4 + 2 * i := by
      have := here.length_le
      rw [Bytes.length_ofNat] at this
      omega
    refine ⟨placeOf r slots i, ?_, content⟩
    rw [← pos]
    exact word?_of_at begins here (Nat.lt_of_le_of_lt reach (by decide))

end Tables

/-! ## What readers get -/

theorem mapM_congr {α β : Type} {f g : α → Option β} {as : List α}
    (same : ∀ a ∈ as, f a = g a) : as.mapM f = as.mapM g := by
  induction as with
  | nil => rfl
  | cons a as ih =>
    rw [List.mapM_cons, List.mapM_cons, same a List.mem_cons_self,
      ih fun a' mem => same a' (List.mem_cons_of_mem a mem)]

section Readers

variable {F : Bytes} {b : Buffer} {pos : Nat}

theorem TextIn.string? {s : String} (text : TextIn b pos s) : string? b pos = some s := by
  rw [FlatTable.string?, text.count]
  simp only [Option.bind_eq_bind, Option.bind_some, text.chars, Bytes.toString?_ofString]

theorem RefsIn.vector? {targets : List Nat} (refs : RefsIn b pos targets) :
    vector? 4 b pos = some ((List.range targets.length).map (pos + 4 + 4 * ·)) := by
  have inside : ¬ b.size < pos + 4 + 4 * targets.length := Nat.not_lt_of_le refs.inside
  rw [FlatTable.vector?, refs.count]
  simp only [Option.bind_eq_bind, Option.bind_some, if_neg inside, Option.pure_def]

/-- Following each reference gives its target. -/
theorem RefsIn.mapM {α : Type} {targets : List Nat} (refs : RefsIn b pos targets)
    (read : Nat → Option α) :
    ((List.range targets.length).map (pos + 4 + 4 * ·)).mapM (fun item => do
      read (← follow? b item)) = targets.mapM read := by
  have same : targets = (List.range targets.length).map fun i => targets.getD i 0 := by
    apply List.ext_getElem
    · simp
    · intro i here _
      simp [List.getD_eq_getElem?_getD, here]
  conv => rhs; rw [same]
  rw [List.mapM_map, List.mapM_map]
  apply mapM_congr
  intro i mem
  have before := List.mem_range.1 mem
  have follow := refs.follow i before
  rw [List.getElem?_eq_getElem before] at follow
  show (follow? b (pos + 4 + 4 * i) >>= read) = read (targets.getD i 0)
  rw [follow, List.getD_eq_getElem?_getD, List.getElem?_eq_getElem before]
  rfl

theorem RefsIn.tables? {targets : List Nat} (refs : RefsIn b pos targets) :
    tables? b pos = targets.mapM (table? b) := by
  rw [FlatTable.tables?, refs.vector?]
  exact refs.mapM (table? b)

theorem range?_append {chunk rest : Bytes}
    (found : range? b pos (chunk ++ rest).length = some (chunk ++ rest)) :
    range? b pos chunk.length = some chunk ∧
      range? b (pos + chunk.length) rest.length = some rest := by
  have inside := size_le_of_range? found
  rw [range?, if_pos inside] at found
  rw [List.length_append] at inside found
  have bytes := Option.some.inj found
  rw [Array.toList_extract, List.extract_eq_take_drop, Nat.add_sub_cancel_left] at bytes
  constructor
  · rw [range?, if_pos (by omega), Array.toList_extract, List.extract_eq_take_drop,
      Nat.add_sub_cancel_left]
    congr 1
    have front := congrArg (List.take chunk.length) bytes
    rwa [List.take_take, Nat.min_eq_left (Nat.le_add_right _ _), List.take_left] at front
  · rw [range?, if_pos (by omega), Array.toList_extract, List.extract_eq_take_drop,
      Nat.add_sub_cancel_left]
    congr 1
    have back := congrArg (List.drop chunk.length) bytes
    rwa [List.drop_take, Nat.add_sub_cancel_left, List.drop_drop, List.drop_left] at back

/-- Items of one size are read at the positions where they are counted. -/
theorem mapM_items {α β : Type} {size : Nat} {encode : α → Bytes} {read : Nat → Option β}
    {value : α → β} {as : List α} {start : Nat} (length : ∀ a, (encode a).length = size)
    (reads : ∀ a ∈ as, ∀ pos, range? b pos size = some (encode a) → read pos = some (value a))
    (items : range? b start (as.flatMap encode).length = some (as.flatMap encode)) :
    ((List.range as.length).map (start + size * ·)).mapM read = some (as.map value) := by
  induction as generalizing start with
  | nil => rfl
  | cons a as ih =>
    rw [List.flatMap_cons] at items
    obtain ⟨own, others⟩ := range?_append items
    rw [length] at own others
    have rest := ih (fun a' mem => reads a' (List.mem_cons_of_mem a mem)) others
    have shifted : ((List.range as.length).map Nat.succ).map (start + size * ·) =
        (List.range as.length).map (start + size + size * ·) := by
      rw [List.map_map]
      apply List.map_congr_left
      intro i _
      show start + size * (i + 1) = start + size + size * i
      rw [Nat.mul_succ, Nat.add_comm (size * i), Nat.add_assoc]
    rw [List.length_cons, List.range_succ_eq_map, List.map_cons, List.mapM_cons, Nat.mul_zero,
      Nat.add_zero, reads a List.mem_cons_self start own, shifted, rest]
    rfl

theorem VectorIn.vector? {count size : Nat} {items : Bytes} (vector : VectorIn b pos count items)
    (length : items.length = size * count) :
    vector? size b pos = some ((List.range count).map (pos + 4 + size * ·)) := by
  have inside := size_le_of_range? vector.items
  have room : ¬ b.size < pos + 4 + size * count := by omega
  rw [FlatTable.vector?, vector.count]
  simp only [Option.bind_eq_bind, Option.bind_some, if_neg room, Option.pure_def]

end Readers

section Slots

variable {F : Bytes} {t : Table} {entries : List (Nat × Entry)} {i : Nat}

theorem Opened.table? (opened : Opened F t entries) : table? t.buffer t.pos = some t := by
  have layout : ((t.pos : Int) - ((t.pos : Int) - t.layout)) = t.layout := by omega
  have sign : ¬ (t.layout : Int) < 0 := by omega
  rw [FlatTable.table?, opened.distance]
  simp only [Option.bind_eq_bind, Option.bind_some, layout, if_neg sign, Int.toNat_natCast,
    opened.count, Option.pure_def]

theorem le_foldl_max {ns : List Nat} {n start : Nat} (mem : n ∈ ns ∨ n ≤ start) :
    n ≤ ns.foldl max start := by
  induction ns generalizing start with
  | nil =>
    rcases mem with mem | le
    · cases mem
    · exact le
  | cons m ms ih =>
    rw [List.foldl_cons]
    apply ih
    rcases mem with mem | le
    · rcases List.mem_cons.1 mem with rfl | mem
      · exact Or.inr (Nat.le_max_right _ _)
      · exact Or.inl mem
    · exact Or.inr (Nat.le_trans le (Nat.le_max_left _ _))

/-- A slot in use is counted. -/
theorem lt_slotCount {entry : Entry} (held : contentOf? entries i = some entry) :
    i < slotCount entries := by
  obtain ⟨⟨j, _⟩, found, -⟩ := Option.map_eq_some_iff.1 held
  have same := List.find?_some found
  replace same := eq_of_beq same
  dsimp only at same
  rw [← same]
  exact le_foldl_max (Or.inl (List.mem_map.2 ⟨_, List.mem_of_find?_eq_some found, rfl⟩))

/-- A slot without content reads as left out. -/
theorem Opened.slot?_absent (opened : Opened F t entries) (absent : contentOf? entries i = none) :
    t.slot? i = some none := by
  rw [Table.slot?, opened.size]
  split
  · rfl
  · next inside =>
    obtain ⟨place, word, content⟩ := opened.slot i (by omega)
    rw [absent] at content
    dsimp only at content
    rw [word, content]
    rfl

/-- A slot with content leads to it. -/
theorem Opened.slot?_held {entry : Entry} (opened : Opened F t entries)
    (held : contentOf? entries i = some entry) :
    ∃ pos, t.slot? i = some (some pos) ∧ ContentIn F t.buffer pos entry := by
  have counted := lt_slotCount held
  obtain ⟨place, word, content⟩ := opened.slot i counted
  rw [held] at content
  obtain ⟨nonzero, content⟩ := content
  refine ⟨t.pos + place, ?_, content⟩
  rw [Table.slot?, opened.size, if_neg (by omega), word]
  split
  · next other => cases other
  · next other => exact absurd (Option.some.inj other) nonzero
  · next other => rw [Option.some.inj other]

/-- The slot holds a number of a width, which is left out if it is zero. -/
def Numbered (entries : List (Nat × Entry)) (i width n : Nat) : Prop :=
  contentOf? entries i = if n = 0 then none else some (.scalar (Bytes.ofNat width n))

theorem Opened.range_number {width n : Nat} (opened : Opened F t entries)
    (numbered : Numbered entries i width n) (nonzero : n ≠ 0) :
    ∃ pos, t.slot? i = some (some pos) ∧ pos % width = 0 ∧
      range? t.buffer pos width = some (Bytes.ofNat width n) := by
  rw [Numbered, if_neg nonzero] at numbered
  obtain ⟨pos, slot, aligned, range⟩ := opened.slot?_held numbered
  rw [Bytes.length_ofNat] at aligned range
  exact ⟨pos, slot, aligned, range⟩

theorem Opened.word {width n : Nat} (opened : Opened F t entries)
    (numbered : Numbered entries i width n) (small : n < Nat.pow 256 width) :
    t.word i width = some n := by
  by_cases zero : n = 0
  · rw [Numbered, if_pos zero] at numbered
    rw [Table.word, opened.slot?_absent numbered, zero]
    rfl
  · obtain ⟨pos, slot, -, range⟩ := opened.range_number numbered zero
    rw [Table.word, slot]
    show word? width t.buffer pos = some n
    rw [word?, range, Option.map_some, Bytes.toNat_ofNat small]

theorem Opened.int {width n : Nat} (opened : Opened F t entries)
    (numbered : Numbered entries i width n) (small : 2 * n < Nat.pow 256 width) :
    t.int i width = some (n : Int) := by
  by_cases zero : n = 0
  · rw [Numbered, if_pos zero] at numbered
    rw [Table.int, Table.intOr, opened.slot?_absent numbered, zero]
    rfl
  · obtain ⟨pos, slot, -, range⟩ := opened.range_number numbered zero
    have value : Bytes.toInt (Bytes.ofNat width n) = (n : Int) := by
      rw [Bytes.toInt, Bytes.toNat_ofNat (by omega), Bytes.length_ofNat, if_pos small]
    rw [Table.int, Table.intOr, slot]
    show int? width t.buffer pos = some (n : Int)
    rw [int?, range, Option.map_some, value]

theorem Opened.ref?_absent (opened : Opened F t entries) (absent : contentOf? entries i = none) :
    t.ref? i = some none := by
  rw [Table.ref?, opened.slot?_absent absent]
  rfl

theorem Opened.has_absent (opened : Opened F t entries) (absent : contentOf? entries i = none) :
    t.has i = false := by
  rw [Table.has, opened.slot?_absent absent]
  rfl

theorem Opened.ref? {target : Nat} (opened : Opened F t entries)
    (held : contentOf? entries i = some (.ref target)) :
    t.ref? i = some (some (F.length - target)) := by
  obtain ⟨pos, slot, -, follow⟩ := opened.slot?_held held
  rw [Table.ref?, slot]
  show some <$> follow? t.buffer pos = _
  rw [follow]
  rfl

theorem Opened.required {target : Nat} (opened : Opened F t entries)
    (held : contentOf? entries i = some (.ref target)) :
    t.required i = some (F.length - target) := by
  rw [Table.required, opened.ref? held]
  rfl

theorem Opened.child {target : Nat} {child : Table} {others : List (Nat × Entry)}
    (opened : Opened F t entries) (held : contentOf? entries i = some (.ref target))
    (there : Opened F child others) (pos : child.pos = F.length - target)
    (buffer : child.buffer = t.buffer) : t.child i = some child := by
  rw [Table.child, opened.required held]
  show FlatTable.table? t.buffer (F.length - target) = some child
  rw [← pos, ← buffer]
  exact there.table?

end Slots

end TypedColumns.FlatTable
