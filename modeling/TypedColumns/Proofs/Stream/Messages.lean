import TypedColumns.Proofs.Stream.Fields
import TypedColumns.Stream.Message

/-!
# Messages read back

A message is a table around its header. What was written into the draft of the header stands in the
message's bytes (`writeMessage_spec`), and the message is read back just if the limits allow for
looking through it (`MessageAt.read`).
-/

namespace TypedColumns.Stream

open FlatTable (Entry Writer TableAt RefsAt VectorAt At Draft Step Modest Table Buffer Opened
  RefsIn Numbered contentOf? slotCount slotBytes spans Check Cost Takes AllTake)

/-! ## Writing -/

/-- The slots of a message around a header. -/
def messageEntries (version : Version) (tag : HeaderTag) (bodyLength header : Nat) :
    List (Nat × Entry) :=
  [(0, .scalar (Bytes.ofNat 2 version.number)), (1, .scalar (Bytes.ofNat 1 tag.number))] ++
    Entry.unlessZero 3 8 bodyLength ++ [(2, .ref header)]

/-- The bytes of a message: what was written for its header stands at their end. -/
structure MessageAt (F : Bytes) (version : Version) (tag : HeaderTag) (bodyLength header : Nat)
    (d : Draft) : Prop where
  suffix : d.bytes <:+ F
  whole : 4 ∣ F.length
  wide : ∀ width, width ∣ 8 → width ≤ d.alignment → width ∣ F.length
  root : ∃ r, r ≤ F.length ∧ At F F.length (Bytes.ofNat 4 (F.length - r)) ∧
    TableAt F r (messageEntries version tag bodyLength header)
  numbers : ∀ i v, (i, Entry.scalar v) ∈ messageEntries version tag bodyLength header →
    v.length ∣ F.length

section Writing

variable (version : Version) (tag : HeaderTag) (bodyLength header : Nat)

theorem fits_messageEntries {size : Nat} (inside : header ≤ size) :
    ∀ slot ∈ messageEntries version tag bodyLength header, slot.2.Fits size := by
  have two : (Bytes.ofNat 2 version.number).length ∣ 8 := by
    rw [Bytes.length_ofNat]
    decide
  have one : (Bytes.ofNat 1 tag.number).length ∣ 8 := by
    rw [Bytes.length_ofNat]
    decide
  rw [messageEntries, List.forall_mem_append, List.forall_mem_append]
  simp only [List.forall_mem_cons]
  exact ⟨⟨⟨two, one, fits_nil⟩, fits_unlessZero (Nat.dvd_refl 8) 3 _⟩, inside, fits_nil⟩

theorem room_messageEntries :
    spans (messageEntries version tag bodyLength header) ≤ 29 ∧
      slotCount (messageEntries version tag bodyLength header) =
        if bodyLength = 0 then 3 else 4 := by
  rw [messageEntries, Entry.unlessZero]
  split <;> simp [spans, Entry.span, slotCount]

theorem modest_messageEntries : Modest (messageEntries version tag bodyLength header) := by
  obtain ⟨room, count⟩ := room_messageEntries version tag bodyLength header
  have few : slotCount (messageEntries version tag bodyLength header) ≤ 4 := by
    rw [count]
    split <;> decide
  constructor <;> omega

theorem fits_dvd {entries : List (Nat × Entry)} {size i : Nat} {v : Bytes}
    (fits : ∀ slot ∈ entries, slot.2.Fits size) (mem : (i, Entry.scalar v) ∈ entries) :
    v.length ∣ 8 :=
  fits _ mem

end Writing

/-- A message is its table, written behind its header and finished. -/
theorem writeMessage_eq (version : Version) (tag : HeaderTag) (bodyLength : Nat)
    (header : Writer FlatTable.Ref) :
    writeMessage version tag bodyLength header =
      (let written := (FlatTable.table (messageEntries version tag bodyLength
        (header.run .empty).1)).run (header.run .empty).2
      FlatTable.finish written.1 written.2) := rfl

/-- Writing a message puts its table in front of the header. -/
theorem writeMessage_spec (version : Version) (tag : HeaderTag) (bodyLength : Nat)
    {header : Writer FlatTable.Ref} {more : Nat} (step : Step .empty (header.run .empty).2 more)
    (inside : (header.run .empty).1 ≤ (header.run .empty).2.bytes.length) :
    MessageAt (writeMessage version tag bodyLength header) version tag bodyLength
        (header.run .empty).1 (header.run .empty).2 ∧
      (writeMessage version tag bodyLength header).length ≤ more + 59 := by
  have fits := fits_messageEntries version tag bodyLength _ inside
  obtain ⟨last, table, widths⟩ := FlatTable.table_spec step.sound fits
    (modest_messageEntries version tag bodyLength _)
  obtain ⟨room, count⟩ := room_messageEntries version tag bodyLength (header.run .empty).1
  obtain ⟨suffix, size, whole, behind, front⟩ := FlatTable.finish_spec last.sound table.le
  have few : slotCount (messageEntries version tag bodyLength (header.run .empty).1) ≤ 4 := by
    rw [count]
    split <;> decide
  have most := (step.trans last).size
  rw [writeMessage_eq]
  dsimp only
  refine ⟨⟨last.suffix.trans suffix, ?_, ?_, ?_, ?_⟩, ?_⟩
  · exact FlatTable.dvd_finish last.sound table.le (by decide) (Nat.le_max_right _ _)
  · intro width wide le
    exact FlatTable.dvd_finish last.sound table.le wide
      (Nat.le_trans (Nat.le_trans le last.alignment) (Nat.le_max_left _ _))
  · exact ⟨_, behind, front, table.extend suffix⟩
  · intro i v mem
    exact FlatTable.dvd_finish last.sound table.le (fits_dvd fits mem)
      (Nat.le_trans (widths i v mem) (Nat.le_max_left _ _))
  · have empty : Draft.empty.bytes.length = 0 := rfl
    omega

/-! ## Reading -/

/-- What looking through a message takes, besides what its header does. -/
def messageCost (bodyLength : Nat) (header : Cost) : Cost :=
  .plain 4 + .table (if bodyLength = 0 then 3 else 4)
    (.plain (if bodyLength = 0 then 13 else 23) + header)

theorem readVersion_number (version : Version) : readVersion version.number = version := by
  cases version <;> rfl

section Reading

variable {F : Bytes} {version : Version} {tag : HeaderTag} {bodyLength header : Nat} {d : Draft}

theorem messageEntries_version :
    Numbered (messageEntries version tag bodyLength header) 0 2 version.number := by
  cases version <;> rfl

theorem messageEntries_tag :
    Numbered (messageEntries version tag bodyLength header) 1 1 tag.number := by
  cases tag <;> rfl

theorem messageEntries_header :
    contentOf? (messageEntries version tag bodyLength header) 2 = some (.ref header) := by
  rw [messageEntries, Entry.unlessZero]
  split <;> rfl

theorem messageEntries_bodyLength :
    Numbered (messageEntries version tag bodyLength header) 3 8 bodyLength := by
  rw [Numbered, messageEntries, Entry.unlessZero]
  split <;> rfl

theorem messageEntries_remarks :
    contentOf? (messageEntries version tag bodyLength header) 4 = none := by
  rw [messageEntries, Entry.unlessZero]
  split <;> rfl

/-- Looking at the table of a message around a header that takes a cost. -/
theorem takes_messageEntries {t : Table} {kind : TableKind} {cost : Cost}
    (opened : Opened F t (messageEntries version tag bodyLength header))
    (known : TableKind.ofHeader tag.number = some kind)
    (takes : ∀ depth, Takes depth (Check.tableOf TableKind.shape t.buffer depth kind
      (F.length - header)) () cost) (depth : Nat) :
    Takes depth (Check.tableOf TableKind.shape t.buffer depth .message t.pos) ()
      (.table (if bodyLength = 0 then 3 else 4)
        (.plain (if bodyLength = 0 then 13 else 23) + cost)) := by
  have count := (room_messageEntries version tag bodyLength header).2
  have bounds : tag.number ≠ 0 ∧ tag.number < 256 := by cases tag <;> decide
  have stated : version.number ≠ 0 := by cases version <;> decide
  refine Takes.of_eq (FlatTable.takes_tableOf opened rfl fun depth =>
    takes_cons (FlatTable.takes_number_slot opened messageEntries_version)
    (takes_cons (FlatTable.takes_choice_slot opened messageEntries_header messageEntries_tag
      bounds.1 bounds.2 known (takes depth))
    (takes_cons (FlatTable.takes_number_slot opened messageEntries_bodyLength)
    (takes_cons (FlatTable.takes_absent opened messageEntries_remarks nofun) takes_nil)))) ?_
  simp only [slotBytes, count, if_neg stated]
  congr 1
  by_cases zero : bodyLength = 0
  · simp only [if_pos zero]
    ext <;> simp
    omega
  · simp only [if_neg zero]
    ext <;> simp
    omega

/-- A message is read back just if the limits allow for looking through it. -/
theorem MessageAt.read {bs : Bytes} {t : Table} {kind : TableKind} {cost : Cost}
    {entries : List (Nat × Entry)} (message : MessageAt F version tag bodyLength header d)
    (begins : Begins F bs.toArray) (known : TableKind.ofHeader tag.number = some kind)
    (buffer : t.buffer = bs.toArray) (pos : t.pos = F.length - header)
    (opened : Opened F t entries) (small : bodyLength < Column.addressBound)
    (takes : ∀ depth, Takes depth (Check.tableOf TableKind.shape bs.toArray depth kind
      (F.length - header)) () cost) :
    readMessage bs = if (messageCost bodyLength cost).Within FlatTable.maxDepth ⟨0, 0⟩ then
      some ⟨version, tag, t, bodyLength⟩ else none := by
  obtain ⟨r, behind, front, table⟩ := message.root
  obtain ⟨top, there, place, outer⟩ := table.read begins.begins begins.whole begins.small
    message.numbers
  have root : FlatTable.follow? bs.toArray 0 = some top.pos := by
    have follow := FlatTable.follow?_of_at begins.begins begins.small behind front
    rwa [Nat.sub_self, ← place] at follow
  have looks := takes_messageEntries outer known (there ▸ takes)
  rw [there] at looks
  have shape := FlatTable.hasShape_eq root (looks FlatTable.maxDepth)
  have read : FlatTable.root? bs.toArray = some top := by
    rw [FlatTable.root?, root]
    show FlatTable.table? bs.toArray top.pos = some top
    rw [← there]
    exact outer.table?
  have stated := outer.int messageEntries_version (by cases version <;> decide)
  have tagged := outer.word messageEntries_tag (by cases tag <;> decide)
  have child := outer.child messageEntries_header opened pos (buffer.trans there.symm)
  have length := outer.word messageEntries_bodyLength (Nat.lt_trans small (by decide))
  have number : readVersion (version.number : Int) = version := readVersion_number version
  by_cases within : (messageCost bodyLength cost).Within FlatTable.maxDepth ⟨0, 0⟩
  · have shaped := shape.trans (decide_eq_true within)
    rw [readMessage, if_pos within]
    simp only [shaped, read, stated, tagged, child, length, number, HeaderTag.ofNumber?_number,
      Option.bind_eq_bind, Option.bind_some, Option.pure_def, Bool.not_true, if_false,
      Bool.false_eq_true]
  · have shapeless := shape.trans (decide_eq_false within)
    rw [readMessage, if_neg within]
    simp only [shapeless, Bool.not_false, if_true]
    rfl

end Reading

/-! ## The header of a schema -/

/-- The schema of one field stands in a draft. -/
def SchemaAt (bs : Bytes) (f : Field) (r : Nat) : Prop :=
  ∃ list item, FieldAt bs f item ∧ RefsAt bs list [item] ∧ TableAt bs r [(1, .ref list)]

theorem SchemaAt.extend {bs bs' : Bytes} {f : Field} {r : Nat} (placed : SchemaAt bs f r)
    (suffix : bs <:+ bs') : SchemaAt bs' f r := by
  obtain ⟨list, item, field, refs, table⟩ := placed
  exact ⟨list, item, field.extend suffix, refs.extend suffix, table.extend suffix⟩

theorem SchemaAt.le {bs : Bytes} {f : Field} {r : Nat} (placed : SchemaAt bs f r) :
    r ≤ bs.length := by
  obtain ⟨list, item, field, refs, table⟩ := placed
  exact table.le

theorem fits_schemaEntries {list size : Nat} (inside : list ≤ size) :
    ∀ slot ∈ [(1, Entry.ref list)], slot.2.Fits size :=
  List.forall_mem_singleton.2 (show (Entry.ref list).Fits size from inside)

theorem modest_schemaEntries (list : Nat) : Modest [(1, .ref list)] := by
  constructor <;> simp [spans, Entry.span, slotCount]

theorem writeSchema_spec {f : Field} (plain : f.Plain) :
    Step .empty ((writeSchema [f]).run .empty).2 (2 * f.cost.bytes - 17) ∧
      SchemaAt ((writeSchema [f]).run .empty).2.bytes f ((writeSchema [f]).run .empty).1 := by
  obtain ⟨first, field⟩ := writeField_spec f plain Draft.sound_empty
  obtain ⟨second, refs⟩ := FlatTable.refVector_spec first.sound
    (List.forall_mem_singleton.2 field.le)
  obtain ⟨third, table, -⟩ := FlatTable.table_spec second.sound (fits_schemaEntries refs.le)
    (modest_schemaEntries _)
  refine ⟨((first.trans second).trans third).weaken ?_, _, _,
    (field.extend second.suffix).extend third.suffix, refs.extend third.suffix, table⟩
  have room : 55 ≤ f.cost.bytes := by
    obtain ⟨name, type, nullable⟩ := f
    rw [bytes_cost]
    omega
  simp only [spans, Entry.span, slotCount, List.map_cons, List.map_nil, List.foldl_cons,
    List.foldl_nil, List.length_singleton]
  omega

section Schema

variable {F : Bytes} {b : Buffer} {f : Field} {r : Nat}

/-- The schema of a field is read back, and looking at it takes the cost of the field. -/
theorem SchemaAt.read (placed : SchemaAt F f r) (begins : Begins F b) (plain : f.Plain) :
    ∃ (t : Table) (entries : List (Nat × Entry)), t.buffer = b ∧ t.pos = F.length - r ∧
      Opened F t entries ∧ (f.cost.depth ≤ FlatTable.maxDepth → readSchema t = some [f]) ∧
      ∀ depth, Takes depth (Check.tableOf TableKind.shape b depth .schema (F.length - r)) ()
        (.table 2 (.plain 20 + f.cost)) := by
  obtain ⟨list, item, field, refs, table⟩ := placed
  have narrow : Narrow [(1, .ref list)] := narrow_cons.2 ⟨trivial, narrow_nil⟩
  obtain ⟨t, buffer, pos, opened⟩ := TableAt.opened table begins narrow
  subst buffer
  have list_in := refs.read begins.begins begins.whole begins.small
  have held : contentOf? [(1, .ref list)] 1 = some (.ref list) := rfl
  refine ⟨t, _, rfl, pos, opened, fun deep => ?_, fun depth => ?_⟩
  · obtain ⟨ft, there, own⟩ := FieldAt.read begins plain field deep
    have all := readAll_cons there own (rfl : readAll FlatTable.maxDepth t.buffer [] = some [])
    rw [readSchema, opened.required held]
    show (FlatTable.tables? t.buffer (F.length - list)).bind _ = _
    rw [list_in.tables?]
    exact all
  · have count : slotCount [(1, Entry.ref list)] = 2 := rfl
    have below : ∀ depth, AllTake depth (Check.tableOf TableKind.shape t.buffer depth .field)
        ([item].map (F.length - ·)) [f.cost] :=
      fun depth => ⟨FieldAt.takes begins plain field depth, trivial⟩
    rw [← pos]
    refine Takes.of_eq (FlatTable.takes_tableOf opened rfl fun depth =>
      takes_cons (FlatTable.takes_absent opened rfl nofun)
      (takes_cons (FlatTable.takes_tables_slot opened held list_in (below depth))
      (takes_cons (FlatTable.takes_absent opened rfl nofun)
      (takes_cons (FlatTable.takes_absent opened rfl nofun) takes_nil)))) ?_
    simp only [slotBytes, count, List.map_cons, List.map_nil, List.length_singleton, Cost.each]
    congr 1
    ext <;> simp
    omega

end Schema

/-! ## The header of a batch -/

/-- The slots of a batch whose vectors of nodes and buffers are written. -/
def batchEntries (rows nodes buffers : Nat) : List (Nat × Entry) :=
  Entry.unlessZero 0 8 rows ++ [(1, .ref nodes), (2, .ref buffers)]

/-- The header of a batch stands in a draft. -/
structure BatchAt (bs : Bytes) (rows : Nat) (nodes places : List (Nat × Nat)) (n p r : Nat) :
    Prop where
  nodes : VectorAt bs n nodes.length (pairBytes nodes)
  places : VectorAt bs p places.length (pairBytes places)
  table : TableAt bs r (batchEntries rows n p)

theorem BatchAt.extend {bs bs' : Bytes} {rows n p r : Nat} {nodes places : List (Nat × Nat)}
    (placed : BatchAt bs rows nodes places n p r) (suffix : bs <:+ bs') :
    BatchAt bs' rows nodes places n p r :=
  ⟨placed.nodes.extend suffix, placed.places.extend suffix, placed.table.extend suffix⟩

theorem length_pairBytes (pairs : List (Nat × Nat)) :
    (pairBytes pairs).length = 16 * pairs.length := by
  induction pairs with
  | nil => rfl
  | cons pair pairs ih =>
    rw [pairBytes, List.flatMap_cons, List.length_append, List.length_append,
      Bytes.length_ofNat, Bytes.length_ofNat, List.length_cons]
    rw [pairBytes] at ih
    omega

/-- The nodes of a batch as pairs of numbers. -/
def nodePairs (p : Parts) : List (Nat × Nat) := p.nodes.map fun n => (n.length, n.nullCount)

theorem length_bufferPlaces (alignment start : Nat) (buffers : List Bytes) :
    (bufferPlaces alignment start buffers).length = buffers.length := by
  induction buffers generalizing start with
  | nil => rfl
  | cons bs rest ih => rw [bufferPlaces, List.length_cons, List.length_cons, ih]

section Slots

variable (rows nodes buffers : Nat)

theorem fits_batchEntries {size : Nat} (first : nodes ≤ size) (second : buffers ≤ size) :
    ∀ slot ∈ batchEntries rows nodes buffers, slot.2.Fits size := by
  rw [batchEntries, List.forall_mem_append]
  simp only [List.forall_mem_cons]
  exact ⟨fits_unlessZero (Nat.dvd_refl 8) 0 _, first, second, fits_nil⟩

theorem room_batchEntries :
    spans (batchEntries rows nodes buffers) ≤ 30 ∧
      slotCount (batchEntries rows nodes buffers) = 3 := by
  rw [batchEntries, Entry.unlessZero]
  split <;> simp [spans, Entry.span, slotCount]

theorem modest_batchEntries : Modest (batchEntries rows nodes buffers) := by
  obtain ⟨room, count⟩ := room_batchEntries rows nodes buffers
  constructor <;> omega

theorem batchEntries_rows : Numbered (batchEntries rows nodes buffers) 0 8 rows := by
  rw [Numbered, batchEntries, Entry.unlessZero]
  split <;> rfl

theorem batchEntries_nodes :
    contentOf? (batchEntries rows nodes buffers) 1 = some (.ref nodes) := by
  rw [batchEntries, Entry.unlessZero]
  split <;> rfl

theorem batchEntries_buffers :
    contentOf? (batchEntries rows nodes buffers) 2 = some (.ref buffers) := by
  rw [batchEntries, Entry.unlessZero]
  split <;> rfl

theorem batchEntries_compression : contentOf? (batchEntries rows nodes buffers) 3 = none := by
  rw [batchEntries, Entry.unlessZero]
  split <;> rfl

theorem batchEntries_counts : contentOf? (batchEntries rows nodes buffers) 4 = none := by
  rw [batchEntries, Entry.unlessZero]
  split <;> rfl

end Slots

/-- Writing the header of a batch puts it into the draft. -/
theorem writeBatch_spec (alignment rows : Nat) (p : Parts) :
    Step .empty ((writeBatch alignment rows p).run .empty).2
        (16 * (p.nodes.length + p.buffers.length) + 69) ∧
      ∃ nodes buffers,
        BatchAt ((writeBatch alignment rows p).run .empty).2.bytes rows (nodePairs p)
          (bufferPlaces alignment 0 p.buffers) nodes buffers
          ((writeBatch alignment rows p).run .empty).1 ∧
        ∀ i v, (i, Entry.scalar v) ∈ batchEntries rows nodes buffers →
          v.length ∣ 8 ∧ v.length ≤ ((writeBatch alignment rows p).run .empty).2.alignment := by
  obtain ⟨first, places⟩ := FlatTable.vector_spec Draft.sound_empty (Nat.dvd_refl 8)
    p.buffers.length (pairBytes (bufferPlaces alignment 0 p.buffers))
  obtain ⟨second, nodes⟩ := FlatTable.vector_spec first.sound (Nat.dvd_refl 8) p.nodes.length
    (pairBytes (nodePairs p))
  have fits := fits_batchEntries rows _ _ nodes.le (places.extend second.suffix).le
  obtain ⟨third, table, widths⟩ := FlatTable.table_spec second.sound fits
    (modest_batchEntries rows _ _)
  have count := length_bufferPlaces alignment 0 p.buffers
  have number : (nodePairs p).length = p.nodes.length := List.length_map _
  refine ⟨((first.trans second).trans third).weaken ?_, _, _, ⟨?_, ?_, table⟩, fun i v mem =>
    ⟨fits_dvd fits mem, widths i v mem⟩⟩
  · obtain ⟨room, slots⟩ := room_batchEntries rows
      ((FlatTable.vector 8 p.nodes.length (pairBytes (nodePairs p))).run
        ((FlatTable.vector 8 p.buffers.length
          (pairBytes (bufferPlaces alignment 0 p.buffers))).run .empty).2).1
      ((FlatTable.vector 8 p.buffers.length
        (pairBytes (bufferPlaces alignment 0 p.buffers))).run .empty).1
    rw [length_pairBytes, length_pairBytes, count, number, slots]
    omega
  · rw [number]
    exact nodes.extend third.suffix
  · rw [count]
    exact (places.extend second.suffix).extend third.suffix

section Batch

variable {F : Bytes} {b : Buffer} {rows n p r : Nat} {nodes places : List (Nat × Nat)}

/-- Numbers of eight bytes. -/
def PairsBelow (bound : Nat) (pairs : List (Nat × Nat)) : Prop :=
  ∀ pair ∈ pairs, pair.1 < bound ∧ pair.2 < bound

theorem readPairs_eq {t : Table} {entries : List (Nat × Entry)} {slot target : Nat}
    {pairs : List (Nat × Nat)} (opened : Opened F t entries)
    (held : contentOf? entries slot = some (.ref target))
    (vector : FlatTable.VectorIn t.buffer (F.length - target) pairs.length (pairBytes pairs))
    (small : PairsBelow Column.addressBound pairs) : readPairs t slot = some pairs := by
  have bound : Column.addressBound < Nat.pow 256 8 := by decide
  have each : ((List.range pairs.length).map (F.length - target + 4 + 16 * ·)).mapM
      (fun pos => do
        return (← FlatTable.word? 8 t.buffer pos, ← FlatTable.word? 8 t.buffer (pos + 8))) =
      some (pairs.map id) := by
    refine FlatTable.mapM_items (fun pair => ?_) ?_ vector.items
    · rw [List.length_append, Bytes.length_ofNat, Bytes.length_ofNat]
    · intro pair mem pos range
      obtain ⟨low, high⟩ := small pair mem
      have length : (Bytes.ofNat 8 pair.1 ++ Bytes.ofNat 8 pair.2).length = 16 := by
        rw [List.length_append, Bytes.length_ofNat, Bytes.length_ofNat]
      obtain ⟨own, next⟩ := FlatTable.range?_append (length.symm ▸ range)
      rw [Bytes.length_ofNat] at own
      rw [Bytes.length_ofNat, Bytes.length_ofNat] at next
      rw [FlatTable.word?, FlatTable.word?, own, next, Option.map_some, Option.map_some,
        Bytes.toNat_ofNat (Nat.lt_trans low bound), Bytes.toNat_ofNat (Nat.lt_trans high bound)]
      rfl
  rw [List.map_id] at each
  rw [readPairs, opened.required held]
  simp only [Option.bind_eq_bind, Option.bind_some, vector.vector? (length_pairBytes pairs)]
  exact each

theorem VectorAt.pairs {pairs : List (Nat × Nat)}
    (placed : VectorAt F n pairs.length (pairBytes pairs)) (begins : Begins F b) :
    FlatTable.VectorIn b (F.length - n) pairs.length (pairBytes pairs) := by
  have length := length_pairBytes pairs
  exact placed.read begins.begins begins.whole begins.small (by omega)

/-- What looking at the header of a batch takes. -/
def batchCost (rows pairs : Nat) : Cost :=
  .table 3 (.plain ((if rows = 0 then 22 else 30) + 16 * pairs))

/-- The header of a batch is read back, and looking at it takes the numbers that it holds. -/
theorem BatchAt.read (placed : BatchAt F rows nodes places n p r) (begins : Begins F b)
    (widths : ∀ i v, (i, Entry.scalar v) ∈ batchEntries rows n p → v.length ∣ F.length)
    (few : rows < Column.addressBound) (small : PairsBelow Column.addressBound nodes)
    (inside : PairsBelow Column.addressBound places) :
    ∃ (t : Table), t.buffer = b ∧ t.pos = F.length - r ∧ Opened F t (batchEntries rows n p) ∧
      (∀ body : Bytes, readBatch t body = some (rows,
        ⟨nodes.map fun (length, nullCount) => ⟨length, nullCount⟩,
         available (places.map fun (start, length) => body.slice? start length)⟩)) ∧
      ∀ depth, Takes depth (Check.tableOf TableKind.shape b depth .batch (F.length - r)) ()
        (batchCost rows (nodes.length + places.length)) := by
  obtain ⟨t, buffer, pos, opened⟩ := placed.table.read begins.begins begins.whole begins.small
    widths
  subst buffer
  have own := VectorAt.pairs placed.nodes begins
  have others := VectorAt.pairs placed.places begins
  refine ⟨t, rfl, pos, opened, fun body => ?_, fun depth => ?_⟩
  · have number := opened.word (batchEntries_rows rows n p) (Nat.lt_trans few (by decide))
    have packed : readPacked t = some false := by
      rw [readPacked, opened.ref?_absent (batchEntries_compression rows n p)]
      rfl
    rw [readBatch, number, readPairs_eq opened (batchEntries_nodes rows n p) own small,
      readPairs_eq opened (batchEntries_buffers rows n p) others inside, packed]
    have plain : (places.map fun place => do
        let bs ← body.slice? place.1 place.2
        if false = true then unpack? bs else return bs) =
        places.map fun place => body.slice? place.1 place.2 := by
      apply List.map_congr_left
      intro place _
      cases body.slice? place.1 place.2 <;> rfl
    show some (rows, Parts.mk _ (available _)) = _
    rw [plain]
  · have count := (room_batchEntries rows n p).2
    have room : ∀ {target : Nat} {pairs : List (Nat × Nat)},
        FlatTable.VectorIn t.buffer (F.length - target) pairs.length (pairBytes pairs) →
        F.length - target + 4 + pairs.length * 16 ≤ t.buffer.size := by
      intro target pairs vector
      have fits := FlatTable.size_le_of_range? vector.items
      rw [length_pairBytes] at fits
      omega
    rw [← pos, batchCost]
    refine Takes.of_eq (FlatTable.takes_tableOf opened rfl fun depth =>
      takes_cons (FlatTable.takes_number_slot opened (batchEntries_rows rows n p))
      (takes_cons (FlatTable.takes_vector_slot opened (batchEntries_nodes rows n p) own.aligned
        own.count (Nat.mod_one _) (room own))
      (takes_cons (FlatTable.takes_vector_slot opened (batchEntries_buffers rows n p)
        others.aligned others.count (Nat.mod_one _) (room others))
      (takes_cons (FlatTable.takes_absent opened (batchEntries_compression rows n p) nofun)
      (takes_cons (FlatTable.takes_absent opened (batchEntries_counts rows n p) nofun)
      takes_nil))))) ?_
    simp only [slotBytes, count]
    congr 1
    by_cases zero : rows = 0
    · simp only [if_pos zero]
      ext <;> simp
      omega
    · simp only [if_neg zero]
      ext <;> simp
      omega

end Batch

end TypedColumns.Stream
