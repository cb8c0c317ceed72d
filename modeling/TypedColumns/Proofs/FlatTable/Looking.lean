import TypedColumns.FlatTable.Shape
import TypedColumns.Proofs.FlatTable.Reading

/-!
# What looking through a buffer takes

Looking through what was written finds nothing wrong with it; it fails only where a limit is
exceeded. `Takes` says so of a look together with what it takes of the limits, which is exact: the
look succeeds just if that much is left. Looks one after the other take what they take together, so
the cost of a table is told slot by slot.
-/

namespace TypedColumns.FlatTable

/-- What a look takes of the limits: the levels of tables that it goes down, and how many tables
and bytes it looks at. -/
@[ext] structure Cost where
  depth : Nat
  tables : Nat
  bytes : Nat
  deriving DecidableEq, Repr

namespace Cost

/-- Nothing but bytes. -/
def plain (bytes : Nat) : Cost := ⟨0, 0, bytes⟩

/-- One look after the other. -/
def add (c c' : Cost) : Cost := ⟨max c.depth c'.depth, c.tables + c'.tables, c.bytes + c'.bytes⟩

instance : Add Cost := ⟨add⟩

@[simp] theorem depth_plain (bytes : Nat) : (plain bytes).depth = 0 := rfl

@[simp] theorem tables_plain (bytes : Nat) : (plain bytes).tables = 0 := rfl

@[simp] theorem bytes_plain (bytes : Nat) : (plain bytes).bytes = bytes := rfl

@[simp] theorem depth_add (c c' : Cost) : (c + c').depth = max c.depth c'.depth := rfl

@[simp] theorem tables_add (c c' : Cost) : (c + c').tables = c.tables + c'.tables := rfl

@[simp] theorem bytes_add (c c' : Cost) : (c + c').bytes = c.bytes + c'.bytes := rfl

/-- The cost of a table of `slots` slots around the cost of what the slots lead to. -/
def table (slots : Nat) (inside : Cost) : Cost :=
  ⟨inside.depth + 1, inside.tables + 1, inside.bytes + (10 + 2 * slots)⟩

/-- The cost of the references in a vector and of what they lead to. -/
def each : List Cost → Cost
  | [] => plain 0
  | c :: cs => plain 4 + c + each cs

/-- The limits leave this much, if tables may be nested `depth` deep. -/
def Within (cost : Cost) (depth : Nat) (t : Tally) : Prop :=
  cost.depth ≤ depth ∧ t.tables + cost.tables ≤ maxTables ∧ t.bytes + cost.bytes ≤ maxBytes

instance (cost : Cost) (depth : Nat) (t : Tally) : Decidable (cost.Within depth t) :=
  inferInstanceAs (Decidable (_ ∧ _ ∧ _))

end Cost

/-- The look gives the value and takes exactly the cost, or fails if there is not as much left. -/
def Takes {α : Type} (depth : Nat) (look : Check α) (a : α) (cost : Cost) : Prop :=
  ∀ t : Tally, t.tables ≤ maxTables → t.bytes ≤ maxBytes →
    look t = if cost.Within depth t then
      some (a, ⟨t.tables + cost.tables, t.bytes + cost.bytes⟩) else none

namespace Takes

variable {α β : Type} {depth : Nat} {a : α} {b : β} {cost cost' : Cost}

theorem of_eq {look : Check α} (takes : Takes depth look a cost) (same : cost = cost') :
    Takes depth look a cost' :=
  same ▸ takes

theorem pure (a : α) : Takes depth (Pure.pure a : Check α) a (.plain 0) := by
  intro t tables bytes
  have within : (Cost.plain 0).Within depth t := ⟨Nat.zero_le _, tables, bytes⟩
  rw [if_pos within]
  rfl

theorem pure_of_eq {a' : α} (same : a' = a) :
    Takes depth (Pure.pure a' : Check α) a (.plain 0) :=
  same ▸ Takes.pure a'

/-- What looks one after the other take. -/
theorem bind {look : Check α} {next : α → Check β} (first : Takes depth look a cost)
    (second : Takes depth (next a) b cost') :
    Takes depth (look >>= next) b (cost + cost') := by
  intro t tables bytes
  show ((look t).bind fun pair => next pair.1 pair.2) = _
  rw [first t tables bytes]
  by_cases within : cost.Within depth t
  · rw [if_pos within, Option.bind_some, second _ within.2.1 within.2.2]
    have same : cost'.Within depth ⟨t.tables + cost.tables, t.bytes + cost.bytes⟩ ↔
        (cost + cost').Within depth t := by
      have := within.1
      simp only [Cost.Within, Cost.depth_add, Cost.tables_add, Cost.bytes_add]
      omega
    simp only [same, Cost.tables_add, Cost.bytes_add, Nat.add_assoc]
  · have beyond : ¬ (cost + cost').Within depth t := by
      simp only [Cost.Within, Cost.depth_add, Cost.tables_add, Cost.bytes_add] at within ⊢
      omega
    rw [if_neg within, if_neg beyond]
    rfl

theorem require {p : Prop} [Decidable p] (holds : p) :
    Takes depth (Check.require p) () (.plain 0) := by
  intro t tables bytes
  have within : (Cost.plain 0).Within depth t := ⟨Nat.zero_le _, tables, bytes⟩
  rw [if_pos within, Check.require, if_pos holds]
  rfl

theorem lift {o : Option α} (found : o = some a) :
    Takes depth (liftM o : Check α) a (.plain 0) := by
  subst found
  exact Takes.pure a

theorem countTable : Takes depth Check.countTable () ⟨0, 1, 0⟩ := by
  intro t tables bytes
  have same : (⟨0, 1, 0⟩ : Cost).Within depth t ↔ t.tables < maxTables := by
    simp only [Cost.Within]
    omega
  rw [Check.countTable]
  simp only [same, Nat.add_zero]

end Takes

section Looks

variable {depth : Nat} {b : Buffer} {pos size n : Nat}

theorem takes_range (inside : pos + size ≤ b.size) :
    Takes depth (Check.range b pos size) () (.plain size) := by
  intro t tables bytes
  have same : (Cost.plain size).Within depth t ↔
      pos + size ≤ b.size ∧ t.bytes + size ≤ maxBytes := by
    simp only [Cost.Within, Cost.depth_plain, Cost.tables_plain, Cost.bytes_plain]
    omega
  rw [Check.range]
  simp only [same, Cost.tables_plain, Cost.bytes_plain, Nat.add_zero]

theorem takes_number (aligned : pos % size = 0) (inside : pos + size ≤ b.size) :
    Takes depth (Check.number b size pos) () (.plain size) := by
  rw [Check.number]
  refine Takes.of_eq ((Takes.require aligned).bind (takes_range inside)) ?_
  ext <;> simp

theorem takes_word (aligned : pos % size = 0) (found : word? size b pos = some n) :
    Takes depth (Check.word b size pos) n (.plain size) := by
  obtain ⟨chunk, range⟩ := range?_eq_some_of_word? found
  rw [Check.word]
  refine Takes.of_eq ((takes_number aligned (size_le_of_range? range)).bind (Takes.lift found)) ?_
  ext <;> simp

theorem takes_follow {target : Nat} (aligned : pos % 4 = 0)
    (found : follow? b pos = some target) :
    Takes depth (Check.follow b pos) target (.plain 4) := by
  obtain ⟨distance, word, rfl⟩ := Option.map_eq_some_iff.1 found
  rw [Check.follow]
  refine Takes.of_eq ((takes_word aligned word).bind (Takes.pure (pos + distance))) ?_
  ext <;> simp

/-- What a vector takes: its count, and its items. -/
theorem takes_vector {count align : Nat} (aligned : pos % 4 = 0)
    (found : word? 4 b pos = some count) (behind : (pos + 4) % align = 0)
    (inside : pos + 4 + count * size ≤ b.size) :
    Takes depth (Check.vector b size align pos) (pos + 4, count) (.plain (4 + count * size)) := by
  rw [Check.vector]
  refine Takes.of_eq ((takes_word aligned found).bind ((Takes.require behind).bind
    ((takes_range inside).bind (Takes.pure (pos + 4, count))))) ?_
  ext <;> simp

theorem takes_text {s : String} (text : TextIn b pos s) :
    Takes depth (Check.text b pos) () (.plain (4 + (Bytes.ofString s).length)) := by
  have inside := size_le_of_range? text.chars
  have formed : ((range? b (pos + 4) (Bytes.ofString s).length).bind Bytes.toString?).isSome := by
    rw [text.chars, Option.bind_some, Bytes.toString?_ofString]
    rfl
  rw [Check.text]
  refine Takes.of_eq ((takes_vector text.aligned text.count (Nat.mod_one _) (by omega)).bind
    ((Takes.require formed).bind (Takes.require text.zero))) ?_
  ext <;> simp

/-- The layout of a table, which counts for the table. -/
theorem takes_layout {F : Bytes} {t : Table} {entries : List (Nat × Entry)}
    (opened : Opened F t entries) {layout : Int} (same : layout = t.layout) :
    Takes depth (do
      Check.require (0 ≤ layout ∧ layout < t.buffer.size)
      let size ← Check.word t.buffer 2 layout.toNat
      Check.require ((layout.toNat + size) % 2 = 0)
      Check.range t.buffer layout.toNat size
      Check.countTable
      return ⟨t.buffer, t.pos, layout.toNat, size⟩) t ⟨0, 1, 6 + 2 * slotCount entries⟩ := by
  subst same
  simp only [Int.toNat_natCast]
  have size := opened.size
  have whole := opened.whole
  have even := opened.even
  refine Takes.of_eq ((Takes.require ⟨by omega, by omega⟩).bind ((takes_word even opened.count).bind
    ((Takes.require (by omega)).bind ((takes_range whole).bind
    (Takes.countTable.bind (Takes.pure t)))))) ?_
  ext
  · simp
  · simp
  · simp only [Cost.bytes_add, Cost.bytes_plain, size]
    omega

/-- A table by itself: the distance to its layout, and the layout. -/
theorem takes_table {F : Bytes} {t : Table} {entries : List (Nat × Entry)}
    (opened : Opened F t entries) :
    Takes depth (Check.table t.buffer t.pos) t ⟨0, 1, 10 + 2 * slotCount entries⟩ := by
  obtain ⟨chunk, range, -⟩ := Option.map_eq_some_iff.1 opened.distance
  rw [Check.table]
  refine Takes.of_eq ((takes_number opened.aligned (size_le_of_range? range)).bind
    ((Takes.lift opened.distance).bind (takes_layout opened (by omega)))) ?_
  ext
  · simp
  · simp
  · simp only [Cost.bytes_add, Cost.bytes_plain]
    omega

end Looks

/-! ## Slots -/

/-- Looking for a slot takes the bytes that tell its place, if the layout goes so far. -/
def slotBytes (entries : List (Nat × Entry)) (i : Nat) : Nat :=
  if i < slotCount entries then 2 else 0

section Slots

variable {T : Type} {F : Bytes} {t : Table} {entries : List (Nat × Entry)} {i depth : Nat}
variable {tableAt : T → Nat → Check Unit}

theorem takes_slot_absent (opened : Opened F t entries) (absent : contentOf? entries i = none) :
    Takes depth (Check.slot t i) none (.plain (slotBytes entries i)) := by
  rw [Check.slot, slotBytes]
  by_cases counted : i < slotCount entries
  · obtain ⟨place, word, content⟩ := opened.slot i counted
    rw [absent] at content
    dsimp only at content
    subst content
    have even : (t.layout + 4 + 2 * i) % 2 = 0 := by
      have := opened.even
      omega
    have size := opened.size
    rw [if_pos (by omega), if_pos counted]
    refine Takes.of_eq ((takes_word even word).bind (Takes.pure none)) ?_
    ext <;> simp
  · have size := opened.size
    rw [if_neg (by omega), if_neg counted]
    exact Takes.pure none

theorem takes_slot_held {entry : Entry} (depth : Nat) (opened : Opened F t entries)
    (held : contentOf? entries i = some entry) :
    ∃ pos, ContentIn F t.buffer pos entry ∧ Takes depth (Check.slot t i) (some pos) (.plain 2) := by
  have counted := lt_slotCount held
  obtain ⟨place, word, content⟩ := opened.slot i counted
  rw [held] at content
  obtain ⟨nonzero, content⟩ := content
  have even : (t.layout + 4 + 2 * i) % 2 = 0 := by
    have := opened.even
    omega
  have size := opened.size
  refine ⟨t.pos + place, content, ?_⟩
  rw [Check.slot, if_pos (by omega)]
  refine Takes.of_eq ((takes_word even word).bind (Takes.pure_of_eq (if_neg nonzero))) ?_
  ext <;> simp

/-- A slot without content, unless another one tells what it has to hold. -/
theorem takes_absent (opened : Opened F t entries) (absent : contentOf? entries i = none)
    {holds : Content T} (plain : ∀ tag kind?, holds ≠ .choice tag kind?) :
    Takes depth (Check.slotContent tableAt t i holds) () (.plain (slotBytes entries i)) := by
  have slot : Takes depth _ _ _ := takes_slot_absent opened absent
  cases holds with
  | choice tag kind? => exact absurd rfl (plain tag kind?)
  | _ =>
    refine Takes.of_eq (slot.bind (Takes.pure ())) ?_
    ext <;> simp

/-- A slot with content, of which is told what looking at it takes. -/
theorem takes_held {entry : Entry} {holds : Content T} (cost : Cost) (opened : Opened F t entries)
    (held : contentOf? entries i = some entry)
    (content : ∀ pos, ContentIn F t.buffer pos entry →
      Takes depth (Check.content tableAt t pos holds) () cost) :
    Takes depth (Check.slotContent tableAt t i holds) () (.plain 2 + cost) := by
  obtain ⟨pos, found, slot⟩ := takes_slot_held depth opened held
  exact slot.bind (content pos found)

theorem takes_number_slot {size n : Nat} (opened : Opened F t entries)
    (numbered : Numbered entries i size n) :
    Takes depth (Check.slotContent tableAt t i (.number size)) ()
      (.plain (slotBytes entries i + if n = 0 then 0 else size)) := by
  rw [Numbered] at numbered
  by_cases zero : n = 0
  · rw [if_pos zero] at numbered ⊢
    exact takes_absent opened numbered (by rintro _ _ ⟨⟩)
  · rw [if_neg zero] at numbered ⊢
    have counted := lt_slotCount numbered
    refine Takes.of_eq (takes_held (.plain size) opened numbered fun pos content => ?_) ?_
    · obtain ⟨aligned, range⟩ := content
      rw [Bytes.length_ofNat] at aligned range
      exact takes_number aligned (size_le_of_range? range)
    · rw [slotBytes, if_pos counted]
      ext <;> simp

theorem takes_text_slot {target : Nat} {s : String} (opened : Opened F t entries)
    (held : contentOf? entries i = some (.ref target))
    (text : TextIn t.buffer (F.length - target) s) :
    Takes depth (Check.slotContent tableAt t i .text) ()
      (.plain (10 + (Bytes.ofString s).length)) := by
  refine Takes.of_eq
    (takes_held (.plain (8 + (Bytes.ofString s).length)) opened held fun pos content => ?_) ?_
  · rw [Check.content]
    refine Takes.of_eq ((takes_follow content.1 content.2).bind (takes_text text)) ?_
    ext <;> simp
    omega
  · ext <;> simp
    omega

theorem takes_vector_slot {target size align count : Nat} (opened : Opened F t entries)
    (held : contentOf? entries i = some (.ref target))
    (aligned : (F.length - target) % 4 = 0)
    (found : word? 4 t.buffer (F.length - target) = some count)
    (behind : (F.length - target + 4) % align = 0)
    (inside : F.length - target + 4 + count * size ≤ t.buffer.size) :
    Takes depth (Check.slotContent tableAt t i (.vector size align)) ()
      (.plain (10 + count * size)) := by
  refine Takes.of_eq
    (takes_held (.plain (8 + count * size)) opened held fun pos content => ?_) ?_
  · rw [Check.content]
    refine Takes.of_eq ((takes_follow content.1 content.2).bind
      ((takes_vector aligned found behind inside).bind (Takes.pure ()))) ?_
    ext <;> simp
    omega
  · ext <;> simp
    omega

/-- Each of the tables takes its cost. -/
def AllTake (depth : Nat) (tableAt : Nat → Check Unit) : List Nat → List Cost → Prop
  | [], [] => True
  | target :: targets, cost :: costs =>
    Takes depth (tableAt target) () cost ∧ AllTake depth tableAt targets costs
  | _, _ => False

/-- References one after the other, with the tables that they lead to. -/
theorem takes_each {b : Buffer} {tableAt : Nat → Check Unit} {targets : List Nat}
    {costs : List Cost} {start : Nat} (aligned : start % 4 = 0)
    (follow : ∀ i < targets.length, follow? b (start + 4 * i) = targets[i]?)
    (all : AllTake depth tableAt targets costs) :
    Takes depth ((List.range targets.length).forM fun i =>
      Check.follow b (start + 4 * i) >>= tableAt) () (.each costs) := by
  induction targets generalizing costs start with
  | nil =>
    cases costs with
    | nil => exact Takes.pure ()
    | cons cost costs => cases all
  | cons target targets ih =>
    cases costs with
    | nil => cases all
    | cons cost costs =>
      obtain ⟨own, others⟩ := all
      have first := follow 0 (Nat.succ_pos _)
      have later : ∀ i < targets.length, follow? b (start + 4 + 4 * i) = targets[i]? := by
        intro i before
        have next := follow (i + 1) (Nat.succ_lt_succ before)
        rw [show start + 4 * (i + 1) = start + 4 + 4 * i by omega] at next
        exact next
      have rest := ih (by omega) later others
      have shifted : (List.map Nat.succ (List.range targets.length)).forM
          (fun i => Check.follow b (start + 4 * i) >>= tableAt) =
          (List.range targets.length).forM
            (fun i => Check.follow b (start + 4 + 4 * i) >>= tableAt) := by
        rw [List.forM_eq_forM, List.forM_map]
        congr 1
        funext i
        show Check.follow b (start + 4 * i.succ) >>= tableAt = _
        rw [show start + 4 * i.succ = start + 4 + 4 * i by omega]
      rw [List.length_cons, List.range_succ_eq_map]
      show Takes depth (_ >>= fun _ => List.forM (List.map Nat.succ _) _) () _
      rw [shifted]
      exact ((takes_follow aligned first).bind own).bind rest

theorem takes_tables_slot {target : Nat} {targets : List Nat} {costs : List Cost} {kind : T}
    (opened : Opened F t entries) (held : contentOf? entries i = some (.ref target))
    (refs : RefsIn t.buffer (F.length - target) targets)
    (all : AllTake depth (tableAt kind) targets costs) :
    Takes depth (Check.slotContent tableAt t i (.tables kind)) ()
      (.plain (10 + 4 * targets.length) + .each costs) := by
  have aligned := refs.aligned
  have inside := refs.inside
  have behind : (F.length - target + 4) % 4 = 0 := by omega
  have room : F.length - target + 4 + targets.length * 4 ≤ t.buffer.size := by omega
  refine Takes.of_eq (takes_held (.plain (8 + 4 * targets.length) + .each costs) opened held
    fun pos content => ?_) ?_
  · rw [Check.content]
    refine Takes.of_eq ((takes_follow content.1 content.2).bind
      ((takes_vector aligned refs.count behind room).bind
        (takes_each behind refs.follow all))) ?_
    ext <;> simp
    omega
  · ext <;> simp
    omega

/-- A slot whose kind is told by the number in another slot. -/
theorem takes_choice_slot {target tag n : Nat} {kind? : Nat → Option T} {kind : T} {cost : Cost}
    (opened : Opened F t entries) (held : contentOf? entries i = some (.ref target))
    (numbered : Numbered entries tag 1 n) (nonzero : n ≠ 0) (small : n < 256)
    (known : kind? n = some kind) (table : Takes depth (tableAt kind (F.length - target)) () cost) :
    Takes depth (Check.slotContent tableAt t i (.choice tag kind?)) () (.plain 9 + cost) := by
  rw [Numbered, if_neg nonzero] at numbered
  refine Takes.of_eq (takes_held (.plain 7 + cost) opened held fun pos content => ?_) ?_
  · obtain ⟨place, told, slot⟩ := takes_slot_held depth opened numbered
    obtain ⟨-, range⟩ := told
    rw [Bytes.length_ofNat] at range
    have word : word? 1 t.buffer place = some n := by
      rw [word?, range, Option.map_some, Bytes.toNat_ofNat small]
    rw [Check.content]
    refine Takes.of_eq (slot.bind ((takes_word (Nat.mod_one _) word).bind
      (?_ : Takes depth _ () (.plain 4 + cost)))) ?_
    · rw [known]
      exact (takes_follow content.1 content.2).bind table
    · ext <;> simp
      omega
  · ext <;> simp
    omega

/-- A table takes its own cost and that of its slots, one level further up. -/
theorem takes_tableOf {shape : Shape T} {b : Buffer} {kind : T} {cost : Cost}
    (opened : Opened F t entries) (buffer : t.buffer = b)
    (slots : ∀ depth, Takes depth ((shape kind).forM fun (i, holds) =>
      Check.slotContent (Check.tableOf shape b depth) t i holds) () cost) :
    Takes depth (Check.tableOf shape b depth kind t.pos) () (.table (slotCount entries) cost) := by
  subst buffer
  cases depth with
  | zero =>
    intro tally _ _
    rw [if_neg fun within => Nat.not_succ_le_zero _ within.1]
    rfl
  | succ depth =>
    have both : Takes depth (Check.tableOf shape t.buffer (depth + 1) kind t.pos) () _ :=
      (takes_table opened).bind (slots depth)
    intro tally tables bytes
    rw [both tally tables bytes]
    have same : (Cost.table (slotCount entries) cost).Within (depth + 1) tally ↔
        ((⟨0, 1, 10 + 2 * slotCount entries⟩ : Cost) + cost).Within depth tally := by
      simp only [Cost.Within, Cost.table, Cost.depth_add, Cost.tables_add, Cost.bytes_add]
      omega
    have value : (⟨tally.tables + (1 + cost.tables),
        tally.bytes + (10 + 2 * slotCount entries + cost.bytes)⟩ : Tally) =
        ⟨tally.tables + (cost.tables + 1),
          tally.bytes + (cost.bytes + (10 + 2 * slotCount entries))⟩ := by
      rw [Nat.add_comm 1, Nat.add_comm (10 + 2 * slotCount entries)]
    by_cases within : (Cost.table (slotCount entries) cost).Within (depth + 1) tally
    · rw [if_pos within, if_pos (same.1 within)]
      exact congrArg (fun left => some ((), left)) value
    · rw [if_neg within, if_neg fun other => within (same.2 other)]

/-- A buffer has a shape just if the limits allow for its root. -/
theorem hasShape_eq {shape : Shape T} {b : Buffer} {kind : T} {pos : Nat} {cost : Cost}
    (root : follow? b 0 = some pos)
    (table : Takes maxDepth (Check.tableOf shape b maxDepth kind pos) () cost) :
    hasShape shape kind b = decide ((Cost.plain 4 + cost).Within maxDepth ⟨0, 0⟩) := by
  have whole : Takes maxDepth (Check.follow b 0 >>= Check.tableOf shape b maxDepth kind) () _ :=
    (takes_follow rfl root).bind table
  show (((Check.follow b 0 >>= Check.tableOf shape b maxDepth kind : Check Unit)
    ⟨0, 0⟩).isSome) = _
  rw [whole ⟨0, 0⟩ (Nat.zero_le _) (Nat.zero_le _)]
  split
  · next within =>
    rw [decide_eq_true within]
    rfl
  · next beyond =>
    rw [decide_eq_false beyond]
    rfl

end Slots

end TypedColumns.FlatTable
