import TypedColumns.Proofs.FlatTable.Placed

/-!
# What writing adds to a draft

Each way of writing an object takes a draft one step further (`Step`): what was written stays at the
end, no more bytes are added than the step says, and the layouts that later tables may share are
where the draft says they are. There is one theorem for each kind of object; it tells the step and
that the object stands where its reference says.
-/

namespace TypedColumns.FlatTable

/-- The layouts of a draft are where it says, and alignments are the widths of numbers. -/
structure Draft.Sound (d : Draft) : Prop where
  alignment : d.alignment ∣ 8
  layouts : ∀ entry ∈ d.layouts, entry.2 % 2 = 0 ∧ At d.bytes entry.2 entry.1

theorem Draft.sound_empty : Draft.empty.Sound :=
  ⟨Nat.one_dvd 8, fun _ mem => nomatch mem⟩

/-- A sound draft after some writing on another one: `more` bytes are added at most. -/
structure Step (d d' : Draft) (more : Nat) : Prop where
  sound : d'.Sound
  suffix : d.bytes <:+ d'.bytes
  alignment : d.alignment ≤ d'.alignment
  size : d'.bytes.length ≤ d.bytes.length + more

namespace Step

variable {d d' d'' : Draft} {more more' : Nat}

theorem refl (sound : d.Sound) : Step d d 0 :=
  ⟨sound, List.suffix_refl _, Nat.le_refl _, Nat.le_refl _⟩

theorem trans (first : Step d d' more) (second : Step d' d'' more') :
    Step d d'' (more + more') where
  sound := second.sound
  suffix := first.suffix.trans second.suffix
  alignment := Nat.le_trans first.alignment second.alignment
  size := by
    have := first.size
    have := second.size
    omega

theorem weaken (step : Step d d' more) (le : more ≤ more') : Step d d' more' where
  sound := step.sound
  suffix := step.suffix
  alignment := step.alignment
  size := Nat.le_trans step.size (Nat.add_le_add_left le _)

end Step

/-! ## Bytes and padding -/

section Draft

variable {d : Draft}

theorem step_put (sound : d.Sound) (bs : Bytes) : Step d (d.put bs) bs.length where
  sound := ⟨sound.alignment, fun entry mem =>
    ⟨(sound.layouts entry mem).1, (sound.layouts entry mem).2.extend (d.suffix_put bs)⟩⟩
  suffix := d.suffix_put bs
  alignment := Nat.le_refl _
  size := by
    rw [Draft.put, List.length_append]
    exact Nat.le_of_eq (Nat.add_comm _ _)

theorem dvd_max {a b n : Nat} (left : a ∣ n) (right : b ∣ n) : max a b ∣ n := by
  rcases Nat.le_total a b with le | le
  · rwa [Nat.max_eq_right le]
  · rwa [Nat.max_eq_left le]

theorem paddingTo_lt {alignment : Nat} (pos : 0 < alignment) (n : Nat) :
    Bytes.paddingTo alignment n < alignment :=
  Nat.mod_lt _ pos

theorem step_align (sound : d.Sound) {alignment : Nat} (width : alignment ∣ 8) (length : Nat) :
    Step d (d.align alignment length) (alignment - 1) where
  sound := ⟨dvd_max sound.alignment width, fun entry mem =>
    ⟨(sound.layouts entry mem).1,
      (sound.layouts entry mem).2.extend (d.suffix_align alignment length)⟩⟩
  suffix := d.suffix_align alignment length
  alignment := Nat.le_max_left _ _
  size := by
    have pos : 0 < alignment := Nat.pos_of_dvd_of_pos width (by decide)
    have padding := paddingTo_lt pos (d.size + length)
    rw [Draft.align, List.length_append, Bytes.length_zeros]
    omega

/-- The bytes to come end up on the alignment. -/
theorem mod_align (d : Draft) {alignment : Nat} (pos : 0 < alignment) (length : Nat) :
    ((d.align alignment length).bytes.length + length) % alignment = 0 := by
  have aligned := Nat.mod_eq_zero_of_dvd (Bytes.dvd_add_paddingTo pos (d.size + length))
  rw [Draft.align, List.length_append, Bytes.length_zeros]
  rw [Nat.add_assoc, Nat.add_comm, Nat.add_comm d.bytes.length length,
    Nat.add_comm length d.bytes.length]
  exact aligned

end Draft

/-! ## Texts and vectors -/

section Objects

variable {d : Draft}

/-- A chunk with a number of four bytes in front. -/
def Draft.putCounted (d : Draft) (alignment count : Nat) (chunk : Bytes) : Draft :=
  ((d.align alignment chunk.length).put chunk).put (Bytes.ofNat 4 count)

theorem putCounted_spec (sound : d.Sound) {alignment : Nat} (width : alignment ∣ 8)
    (four : 4 ∣ alignment) (count : Nat) (chunk : Bytes) :
    Step d (d.putCounted alignment count chunk) (chunk.length + alignment + 3) ∧
      (d.putCounted alignment count chunk).bytes.length % 4 = 0 ∧
      At (d.putCounted alignment count chunk).bytes
        (d.putCounted alignment count chunk).bytes.length (Bytes.ofNat 4 count ++ chunk) := by
  have pos : 0 < alignment := Nat.pos_of_dvd_of_pos width (by decide)
  have first := step_align sound width chunk.length
  have second := step_put first.sound chunk
  have third := step_put second.sound (Bytes.ofNat 4 count)
  have bytes : (d.putCounted alignment count chunk).bytes =
      (Bytes.ofNat 4 count ++ chunk) ++ (d.align alignment chunk.length).bytes :=
    (List.append_assoc _ _ _).symm
  refine ⟨((first.trans second).trans third).weaken ?_, ?_, ?_⟩
  · rw [Bytes.length_ofNat]
    omega
  · have aligned := Nat.dvd_of_mod_eq_zero (mod_align d pos chunk.length)
    rw [bytes, List.length_append, List.length_append, Bytes.length_ofNat]
    have := Nat.dvd_trans four aligned
    omega
  · rw [bytes]
    exact at_front _ _

theorem string_spec (sound : d.Sound) (s : String) :
    Step d ((string s).run d).2 ((Bytes.ofString s).length + 8) ∧
      TextAt ((string s).run d).2.bytes ((string s).run d).1 s := by
  have same : ((string s).run d).2 =
      d.putCounted 4 (Bytes.ofString s).length (Bytes.ofString s ++ [0]) := by
    rw [Draft.putCounted, List.length_append, List.length_singleton]
    rfl
  obtain ⟨step, aligned, placed⟩ := putCounted_spec sound (by decide) (Nat.dvd_refl 4)
    (Bytes.ofString s).length (Bytes.ofString s ++ [0])
  rw [List.length_append, List.length_singleton] at step
  rw [← same] at step aligned placed
  exact ⟨step, aligned, placed⟩

theorem vector_spec (sound : d.Sound) {alignment : Nat} (width : alignment ∣ 8) (count : Nat)
    (items : Bytes) :
    Step d ((vector alignment count items).run d).2 (items.length + 11) ∧
      VectorAt ((vector alignment count items).run d).2.bytes
        ((vector alignment count items).run d).1 count items := by
  have wide : max alignment 4 ∣ 8 := dvd_max width (by decide)
  have four : 4 ∣ max alignment 4 := by
    have few : ∀ a : Fin 9, a.val ∣ 8 → 4 ∣ max a.val 4 := by decide
    exact few ⟨alignment, Nat.lt_succ_of_le (Nat.le_of_dvd (by decide) width)⟩ width
  obtain ⟨step, aligned, placed⟩ := putCounted_spec sound wide four count items
  have small := Nat.le_of_dvd (by decide) wide
  exact ⟨step.weaken (by omega), aligned, placed⟩

theorem length_distances (base : Nat) (refs : List Nat) :
    (distances base refs).length = 4 * refs.length := by
  induction refs with
  | nil => rfl
  | cons r rs ih =>
    rw [distances, List.length_append, Bytes.length_ofNat, ih, List.length_cons]
    omega

theorem refVector_spec (sound : d.Sound) {refs : List Nat}
    (behind : ∀ target ∈ refs, target ≤ d.bytes.length) :
    Step d ((refVector refs).run d).2 (4 * refs.length + 7) ∧
      RefsAt ((refVector refs).run d).2.bytes ((refVector refs).run d).1 refs := by
  have base := (step_align sound (by decide : 4 ∣ 8) (4 * refs.length)).suffix.length_le
  have length := length_distances (d.align 4 (4 * refs.length)).size refs
  have same : ((refVector refs).run d).2 = d.putCounted 4 refs.length
      (distances (d.align 4 (4 * refs.length)).size refs) := by
    rw [Draft.putCounted, length]
    rfl
  obtain ⟨step, aligned, placed⟩ := putCounted_spec sound (by decide) (Nat.dvd_refl 4)
    refs.length (distances (d.align 4 (4 * refs.length)).size refs)
  rw [length] at step
  have whole : (d.putCounted 4 refs.length
      (distances (d.align 4 (4 * refs.length)).size refs)).bytes.length =
      (d.align 4 (4 * refs.length)).size + 4 * refs.length + 4 := by
    rw [Draft.putCounted, length, Draft.put, Draft.put, List.length_append, List.length_append,
      Bytes.length_ofNat, length, Draft.size]
    omega
  rw [← same] at step aligned placed whole
  exact ⟨step, (d.align 4 (4 * refs.length)).size, whole,
    fun target mem => Nat.le_trans (behind target mem) base, aligned, placed⟩

end Objects

/-! ## Tables -/

section Tables

variable {d : Draft}

/-- The most bytes that the content of a slot takes, with the padding in front. -/
def Entry.span : Entry → Nat
  | .scalar v => 2 * v.length
  | .ref _ => 7

/-- The most bytes that the contents of the slots take. -/
def spans : List (Nat × Entry) → Nat
  | [] => 0
  | (_, entry) :: entries => entry.span + spans entries

/-- What a slot may hold when the draft has `size` bytes: a number as wide as numbers are, or a
reference to what is there already. -/
def Entry.Fits (size : Nat) : Entry → Prop
  | .scalar v => v.length ∣ 8
  | .ref target => target ≤ size

theorem putEntry_spec (sound : d.Sound) {entry : Entry} (fits : entry.Fits d.bytes.length) :
    Step d (putEntry d entry).2 entry.span ∧
      (putEntry d entry).1 = (putEntry d entry).2.bytes.length ∧
      EntryAt (putEntry d entry).2.bytes (putEntry d entry).1 entry ∧
      ∀ v, entry = .scalar v → v.length ≤ (putEntry d entry).2.alignment := by
  cases entry with
  | scalar v =>
    have pos : 0 < v.length := Nat.pos_of_dvd_of_pos fits (by decide)
    have first := step_align sound fits v.length
    have second := step_put first.sound v
    refine ⟨(first.trans second).weaken ?_, rfl, ⟨?_, at_front _ _⟩, ?_⟩
    · rw [Entry.span]
      omega
    · have aligned := mod_align d pos v.length
      rw [Nat.add_comm, ← List.length_append] at aligned
      exact aligned
    · rintro _ ⟨⟩
      exact Nat.le_max_right _ _
  | ref target =>
    have first := step_align sound (by decide : 4 ∣ 8) 4
    have second := step_put first.sound
      (Bytes.ofNat 4 ((d.align 4 4).size + 4 - target))
    have length : ((d.align 4 4).put (Bytes.ofNat 4 ((d.align 4 4).size + 4 - target))).bytes.length
        = (d.align 4 4).size + 4 := by
      rw [Draft.put, List.length_append, Bytes.length_ofNat, Draft.size, Nat.add_comm]
    refine ⟨(first.trans second).weaken (Nat.le_of_eq ?_), rfl, ⟨?_, ?_, ?_⟩, ?_⟩
    · rw [Bytes.length_ofNat, Entry.span]
    · show List.length _ % 4 = 0
      rw [length]
      exact mod_align d (by decide) 4
    · show target ≤ List.length _
      have := first.suffix.length_le
      rw [length]
      exact Nat.le_trans (Nat.le_trans fits this) (Nat.le_add_right _ _)
    · have placed := at_front (Bytes.ofNat 4 ((d.align 4 4).size + 4 - target))
        (d.align 4 4).bytes
      show At _ _ (Bytes.ofNat 4 (List.length _ - target))
      rw [length]
      exact placed
    · rintro _ ⟨⟩

theorem Entry.Fits.grow {entry : Entry} {size size' : Nat} (fits : entry.Fits size)
    (le : size ≤ size') : entry.Fits size' := by
  cases entry with
  | scalar v => exact fits
  | ref target => exact Nat.le_trans fits le

theorem putEntries_spec {entries : List (Nat × Entry)} (sound : d.Sound)
    (fits : ∀ slot ∈ entries, slot.2.Fits d.bytes.length) :
    Step d (putEntries d entries).2 (spans entries) ∧
      SlotsAt (putEntries d entries).2.bytes d.bytes.length
        (putEntries d entries).2.bytes.length entries (putEntries d entries).1 ∧
      ∀ i v, (i, Entry.scalar v) ∈ entries → v.length ≤ (putEntries d entries).2.alignment := by
  induction entries generalizing d with
  | nil => exact ⟨Step.refl sound, trivial, fun _ _ mem => nomatch mem⟩
  | cons slot entries ih =>
    obtain ⟨i, entry⟩ := slot
    have fit : entry.Fits d.bytes.length := fits _ List.mem_cons_self
    obtain ⟨own, here, placed, wide⟩ := putEntry_spec sound fit
    obtain ⟨others, places, widths⟩ := ih own.sound fun slot mem =>
      (fits slot (List.mem_cons_of_mem _ mem)).grow own.suffix.length_le
    refine ⟨own.trans others, ⟨⟨rfl, ?_, ?_, placed.extend others.suffix⟩, ?_⟩, ?_⟩
    · show d.bytes.length ≤ (putEntry d entry).1
      rw [here]
      exact own.suffix.length_le
    · show (putEntry d entry).1 ≤ _
      rw [here]
      exact others.suffix.length_le
    · exact places.extend (List.suffix_refl _) own.suffix.length_le (Nat.le_refl _)
    · intro j v mem
      rcases List.mem_cons.1 mem with same | mem
      · cases same
        exact Nat.le_trans (wide v rfl) others.alignment
      · exact widths j v mem

/-- Few enough slots for a table to reach all of them, and for a layout to tell its own length. -/
def Modest (entries : List (Nat × Entry)) : Prop :=
  spans entries + 7 ≤ 0xffff ∧ 4 + 2 * slotCount entries ≤ 0xffff

/-- The contents of the slots stand right behind the table. -/
theorem slots_behind {d d' : Draft} {entries : List (Nat × Entry)} {slots : List (Nat × Nat)}
    (step : Step d d' (spans entries)) (modest : Modest entries)
    (placed : SlotsAt d'.bytes d.bytes.length d'.bytes.length entries slots) :
    SlotsAt (d'.align 4 4).bytes ((d'.align 4 4).bytes.length + 4 - 0xffff)
      ((d'.align 4 4).bytes.length + 4 - 4) entries slots := by
  have padded := step_align step.sound (by decide : 4 ∣ 8) 4
  have most := padded.size
  have least := padded.suffix.length_le
  have size := step.size
  have reach := modest.1
  exact placed.extend padded.suffix (by omega) (by omega)

/-- A table with a layout that is there already. -/
theorem shared_spec {entries : List (Nat × Entry)} {slots : List (Nat × Nat)}
    {start layout : Nat} (sound : d.Sound) (modest : Modest entries)
    (aligned : (d.bytes.length + 4) % 4 = 0)
    (placed : SlotsAt d.bytes (d.bytes.length + 4 - 0xffff) (d.bytes.length + 4 - 4) entries slots)
    (laid : layout % 2 = 0 ∧ At d.bytes layout (layoutOf start (d.bytes.length + 4) slots)) :
    Step d (d.put (Bytes.ofInt 4 ((layout : Int) - (d.bytes.length + 4 : Nat)))) 4 ∧
      TableAt (d.put (Bytes.ofInt 4 ((layout : Int) - (d.bytes.length + 4 : Nat)))).bytes
        (d.bytes.length + 4) entries := by
  have step := step_put sound (Bytes.ofInt 4 ((layout : Int) - (d.bytes.length + 4 : Nat)))
  have front := at_front_of_length d.bytes
    (Bytes.length_ofInt 4 ((layout : Int) - (d.bytes.length + 4 : Nat)))
  rw [Bytes.length_ofInt] at step
  refine ⟨step, layout, start, slots, ⟨aligned, laid.1, Nat.le_add_left _ _, modest.2⟩, front,
    laid.2.extend step.suffix, ?_⟩
  exact placed.extend step.suffix (Nat.le_refl _) (Nat.le_refl _)

/-- A table with its layout right in front. -/
theorem unshared_spec {entries : List (Nat × Entry)} {slots : List (Nat × Nat)} {start : Nat}
    {layout : Bytes} (sound : d.Sound) (modest : Modest entries)
    (aligned : (d.bytes.length + 4) % 4 = 0)
    (placed : SlotsAt d.bytes (d.bytes.length + 4 - 0xffff) (d.bytes.length + 4 - 4) entries slots)
    (same : layout = layoutOf start (d.bytes.length + 4) slots) :
    let d' := (d.put (Bytes.ofInt 4 layout.length)).put layout
    let d' := { d' with layouts := (layout, d'.size) :: d'.layouts }
    Step d d' (8 + 2 * slotCount slots) ∧ TableAt d'.bytes (d.bytes.length + 4) entries := by
  have first := step_put sound (Bytes.ofInt 4 layout.length)
  have second := step_put first.sound layout
  have both := first.trans second
  have length : layout.length = 4 + 2 * slotCount slots := by rw [same, length_layoutOf]
  have top : (layout ++ (Bytes.ofInt 4 layout.length ++ d.bytes)).length =
      layout.length + (d.bytes.length + 4) := by
    rw [List.length_append, List.length_append, Bytes.length_ofInt]
    omega
  have even : (layout ++ (Bytes.ofInt 4 layout.length ++ d.bytes)).length % 2 = 0 := by
    rw [top, length]
    omega
  have front := at_front layout (Bytes.ofInt 4 layout.length ++ d.bytes)
  have four := Bytes.length_ofInt 4 (layout.length : Int)
  have own := (at_front_of_length d.bytes four).extend (List.suffix_append layout _)
  have distance : (layout.length : Int) =
      ((layout ++ (Bytes.ofInt 4 layout.length ++ d.bytes)).length : Int) -
        (d.bytes.length + 4 : Nat) := by
    rw [top]
    omega
  refine ⟨⟨⟨both.sound.alignment, ?_⟩, both.suffix, both.alignment, ?_⟩, ?_⟩
  · intro entry mem
    rcases List.mem_cons.1 mem with rfl | mem
    · exact ⟨even, front⟩
    · exact both.sound.layouts entry mem
  · have size := both.size
    show ((d.put (Bytes.ofInt 4 layout.length)).put layout).bytes.length ≤ _
    omega
  · refine ⟨_, start, slots, ⟨aligned, even, Nat.le_add_left _ _, modest.2⟩, ?_, ?_, ?_⟩
    · rw [← distance]
      exact own
    · rw [← same]
      exact front
    · exact placed.extend both.suffix (Nat.le_refl _) (Nat.le_refl _)

theorem table_spec {entries : List (Nat × Entry)} (sound : d.Sound)
    (fits : ∀ slot ∈ entries, slot.2.Fits d.bytes.length) (modest : Modest entries) :
    Step d ((table entries).run d).2 (spans entries + 11 + 2 * slotCount entries) ∧
      TableAt ((table entries).run d).2.bytes ((table entries).run d).1 entries ∧
      ∀ i v, (i, Entry.scalar v) ∈ entries → v.length ≤ ((table entries).run d).2.alignment := by
  obtain ⟨step, placed, widths⟩ := putEntries_spec sound fits
  have padded := step_align step.sound (by decide : 4 ∣ 8) 4
  have aligned := mod_align (putEntries d entries).2 (by decide : 0 < 4) 4
  have behind := slots_behind step modest placed
  have count := placed.slotCount
  have both := step.trans padded
  have wide : ∀ i v, (i, Entry.scalar v) ∈ entries →
      v.length ≤ ((putEntries d entries).2.align 4 4).alignment :=
    fun i v mem => Nat.le_trans (widths i v mem) padded.alignment
  generalize written : ((table entries).run d) = result
  simp only [table, StateT.run, modifyGet, MonadStateOf.modifyGet, StateT.modifyGet] at written
  split at written
  · next layout r found =>
    obtain ⟨even, laid⟩ := padded.sound.layouts _ (List.mem_of_find?_eq_some found)
    have same := List.find?_some found
    replace same := eq_of_beq same
    dsimp only at even laid same
    rw [same] at laid
    obtain ⟨last, table⟩ := shared_spec padded.sound modest aligned behind ⟨even, laid⟩
    subst written
    exact ⟨(both.trans last).weaken (by omega), table, wide⟩
  · obtain ⟨last, table⟩ := unshared_spec padded.sound modest aligned behind rfl
    subst written
    exact ⟨(both.trans last).weaken (by omega), table, wide⟩

end Tables

/-! ## The finished buffer -/

/-- The finished buffer is on every alignment in use, ends with the draft, and begins with the
distance to its root. -/
theorem finish_spec {d : Draft} (sound : d.Sound) {root : Nat} (inside : root ≤ d.bytes.length) :
    d.bytes <:+ finish root d ∧ (finish root d).length ≤ d.bytes.length + 11 ∧
      max d.alignment 4 ∣ (finish root d).length ∧ root ≤ (finish root d).length ∧
      At (finish root d) (finish root d).length
        (Bytes.ofNat 4 ((finish root d).length - root)) := by
  have wide : max d.alignment 4 ∣ 8 := dvd_max sound.alignment (by decide)
  have pos : 0 < max d.alignment 4 := Nat.pos_of_dvd_of_pos wide (by decide)
  have padded := step_align sound wide 4
  have length : (finish root d).length = (d.align (max d.alignment 4) 4).bytes.length + 4 := by
    rw [finish, Draft.put, List.length_append, Bytes.length_ofNat, Nat.add_comm]
  have most := Nat.le_of_dvd (by decide) wide
  have size := padded.size
  have least := padded.suffix.length_le
  refine ⟨padded.suffix.trans (List.suffix_append _ _), ?_, ?_, ?_, ?_⟩
  · rw [length]
    omega
  · rw [length]
    exact Nat.dvd_of_mod_eq_zero (mod_align d pos 4)
  · rw [length]
    omega
  · have front := at_front (Bytes.ofNat 4 ((finish root d).length - root))
      (d.align (max d.alignment 4) 4).bytes
    rw [length] at front ⊢
    exact front

/-- The finished buffer is on four bytes and on every number that the draft was on. -/
theorem dvd_finish {d : Draft} (sound : d.Sound) {root : Nat} (inside : root ≤ d.bytes.length)
    {width : Nat} (wide : width ∣ 8) (le : width ≤ max d.alignment 4) :
    width ∣ (finish root d).length := by
  obtain ⟨-, -, whole, -⟩ := finish_spec sound inside
  -- The divisors of eight divide each other.
  have few : ∀ a c : Fin 9, a.val ∣ 8 → c.val ∣ 8 → a.val ≤ max c.val 4 →
      a.val ∣ max c.val 4 := by decide
  have bounded : ∀ {n : Nat}, n ∣ 8 → n < 9 := fun other =>
    Nat.lt_succ_of_le (Nat.le_of_dvd (by decide) other)
  have divides := few ⟨width, bounded wide⟩ ⟨d.alignment, bounded sound.alignment⟩ wide
    sound.alignment le
  exact Nat.dvd_trans divides whole

end TypedColumns.FlatTable
