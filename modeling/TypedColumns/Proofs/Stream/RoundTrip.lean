import TypedColumns.Proofs.Column.Plain
import TypedColumns.Proofs.Stream.Columns
import TypedColumns.Proofs.Stream.Framing
import TypedColumns.Stream.Column

/-!
# Streams read back

The stream of a sound column declares the column's field just if the field is legible
(`readFields_write`), and then it holds the column in its compact form (`columns?_write`).
-/

namespace TypedColumns.Stream

open Column (Sound SoundAll InMemory InMemoryAll addressBound fieldFault? fieldFault?_cons)
open FlatTable (Cost Table Opened)

/-! ## How many parts there are -/

def Parts.count (p : Parts) : Nat := p.nodes.length + p.buffers.length

theorem Parts.count_append (p q : Parts) : (p ++ q).count = p.count + q.count := by
  show (p.nodes ++ q.nodes).length + (p.buffers ++ q.buffers).length = _
  rw [List.length_append, List.length_append, Parts.count, Parts.count]
  omega

theorem tables_settingsCost (type : DataType) : type.settingsCost.tables = 1 := by
  cases type with
  | number t => cases t <;> rfl
  | fixedSizeList item size =>
    rw [DataType.settingsCost]
    split <;> rfl
  | _ => rfl

theorem tables_cost (f : Field) : f.cost.tables = 2 + f.type.childrenCost.tables := by
  obtain ⟨name, type, nullable⟩ := f
  rw [Field.cost]
  simp only [Cost.table, Cost.tables_add, Cost.tables_plain, tables_settingsCost]
  omega

mutual

/-- A column has at most two parts for each of the tables that describe its type. -/
theorem count_parts (version : Version) : {c : Column} → c.Sound →
    (parts version c).count ≤ 2 * (2 + c.dataType.childrenCost.tables)
  | .null _, _ => (by decide : 1 ≤ 4)
  | .boolean _, _ | .number _ _, _ => (by decide : 3 ≤ 4)
  | .text _ _, _ | .binary _ _, _ => Nat.le_refl 4
  | .list width item validity offsets items, sound => by
    rw [Sound] at sound
    have inner := count_parts version sound.2
    rw [parts, Parts.count_append, Column.dataType, DataType.childrenCost, Cost.tables_add,
      tables_cost, sound.1.1]
    show 3 + _ ≤ 2 * (2 + (0 + (2 + items.dataType.childrenCost.tables)))
    omega
  | .fixedSizeList item size validity items, sound => by
    rw [Sound] at sound
    have inner := count_parts version sound.2
    rw [parts, Parts.count_append, Column.dataType, DataType.childrenCost, Cost.tables_add,
      tables_cost, sound.1.1]
    show 2 + _ ≤ 2 * (2 + (0 + (2 + items.dataType.childrenCost.tables)))
    omega
  | .struct fields validity children, sound => by
    rw [Sound] at sound
    have inner := count_fields version sound.2 sound.1.2.1 sound.1.2.2
    rw [parts, Parts.count_append, Column.dataType, DataType.childrenCost]
    show 2 + _ ≤ _
    omega
  | .union variants ids offsets children, sound => by
    rw [Sound] at sound
    have inner := count_variants version sound.2 sound.1.1
    rw [Column.dataType, DataType.childrenCost]
    cases version
    · rw [parts, Parts.count_append]
      show 4 + _ ≤ _
      omega
    · rw [parts, Parts.count_append]
      show 3 + _ ≤ _
      omega
  | .foreign _, sound => sound.elim

theorem count_fields (version : Version) : {cs : List Column} → SoundAll cs →
    {fs : List Field} → {validity : List Bool} → cs.length = fs.length →
    fieldFault? validity fs cs = none →
    (partsOfAll version cs).count ≤ 2 * (Field.costs fs).tables
  | [], _, _, _, _, _ => Nat.zero_le _
  | _ :: _, _, [], _, same, _ => nomatch same
  | _ :: _, sound, f :: fs, _, same, clean => by
    obtain ⟨⟨type, -⟩, others⟩ := fieldFault?_cons.1 clean
    have own := count_parts version sound.1
    have rest := count_fields version sound.2 (Nat.succ.inj same) others
    rw [type] at own
    rw [partsOfAll, Parts.count_append, Field.costs, Cost.tables_add, Cost.tables_add, tables_cost,
      Cost.tables_plain]
    omega

theorem count_variants (version : Version) : {cs : List Column} → SoundAll cs →
    {vs : List Variant} → cs.map Column.dataType = vs.map (·.field.type) →
    (partsOfAll version cs).count ≤ 2 * (Variant.costs vs).tables
  | [], _, _, _ => Nat.zero_le _
  | _ :: _, _, [], types => nomatch types
  | c :: _, sound, ⟨_, f⟩ :: vs, types => by
    obtain ⟨type, others⟩ := List.cons.inj types
    have own := count_parts version sound.1
    have rest := count_variants version sound.2 others
    rw [show c.dataType = f.type from type] at own
    rw [partsOfAll, Parts.count_append, Variant.costs, Cost.tables_add, Cost.tables_add,
      tables_cost, Cost.tables_plain]
    omega

end

/-! ## What the nodes say -/

theorem PairsBelow.append {bound : Nat} {pairs pairs' : List (Nat × Nat)}
    (first : PairsBelow bound pairs) (second : PairsBelow bound pairs') :
    PairsBelow bound (pairs ++ pairs') :=
  List.forall_mem_append.2 ⟨first, second⟩

theorem nodePairs_append (p q : Parts) : nodePairs (p ++ q) = nodePairs p ++ nodePairs q :=
  List.map_append

theorem below_validity {bound : Nat} {validity : List Bool} (small : validity.length < bound)
    (buffers : List Bytes) :
    PairsBelow bound (nodePairs ⟨[⟨validity.length, validity.count false⟩], buffers⟩) :=
  List.forall_mem_singleton.2 ⟨small, Nat.lt_of_le_of_lt List.count_le_length small⟩

theorem below_slots {bound : Nat} {α : Type} {slots : List (Option α)}
    (small : slots.length < bound) (buffers : List Bytes) :
    PairsBelow bound
      (nodePairs ⟨[⟨slots.length, (slots.map Option.isSome).count false⟩], buffers⟩) := by
  have length : (slots.map Option.isSome).length = slots.length := List.length_map _
  have marks := below_validity (length ▸ small) buffers
  rwa [length] at marks

mutual

/-- The nodes of a column in memory are numbers of eight bytes. -/
theorem below_parts (version : Version) : {c : Column} → c.InMemory →
    PairsBelow addressBound (nodePairs (parts version c))
  | .null _, small => List.forall_mem_singleton.2 ⟨small, small⟩
  | .boolean _, small | .number _ _, small => below_slots small _
  | .text _ slots, small => by
    rw [InMemory, ← List.length_map (Option.map Bytes.ofString)] at small
    exact below_slots small.1 _
  | .binary _ _, small => below_slots small.1 _
  | .list _ _ _ _ _, small | .fixedSizeList _ _ _ _, small => by
    rw [InMemory] at small
    rw [parts, nodePairs_append]
    exact (below_validity small.1.1 _).append (below_parts version small.2)
  | .struct _ _ _, small => by
    rw [InMemory] at small
    rw [parts, nodePairs_append]
    exact (below_validity small.1 _).append (below_partsOfAll version small.2)
  | .union _ ids _ _, small => by
    rw [InMemory] at small
    have own : ∀ buffers, PairsBelow addressBound (nodePairs ⟨[⟨ids.length, 0⟩], buffers⟩) :=
      fun _ => List.forall_mem_singleton.2
        ⟨small.1.1, Nat.lt_of_le_of_lt (Nat.zero_le _) small.1.1⟩
    cases version <;> rw [parts, nodePairs_append] <;>
      exact (own _).append (below_partsOfAll _ small.2)
  | .foreign _, _ => List.forall_mem_singleton.2 ⟨by decide, by decide⟩

theorem below_partsOfAll (version : Version) : {cs : List Column} → InMemoryAll cs →
    PairsBelow addressBound (nodePairs (partsOfAll version cs))
  | [], _ => fun _ mem => nomatch mem
  | _ :: _, small => by
    rw [partsOfAll, nodePairs_append]
    exact (below_parts version small.1).append (below_partsOfAll version small.2)

end

/-! ## The schema -/

/-- What follows the schema in a stream: the batch, its body, and the end mark. -/
def afterSchema (o : WriteOptions) (c : Column) : Bytes :=
  let p := parts o.version c.compact
  let body := bodyOf o.alignment p.buffers
  frame o (writeMessage o.version .batch body.length (writeBatch o.alignment c.length p)) ++
    (body ++ endFrame o)

/-- The table of the message with the schema of a stream. -/
def schemaTable (o : WriteOptions) (field : Field) : Bytes :=
  writeMessage o.version .schema 0 (writeSchema [field])

/-- The length of the schema's table can be told in front of it. -/
def SchemaFits (o : WriteOptions) (field : Field) : Prop :=
  (padded o (schemaTable o field)).length < 0x8000_0000

theorem write_eq (o : WriteOptions) (field : Field) (c : Column) :
    write o field c = frame o (schemaTable o field) ++ afterSchema o c := by
  rw [write, afterSchema, schemaTable]
  simp only [List.append_assoc]

theorem begins_padded {o : WriteOptions} {F : Bytes} (whole : 4 ∣ F.length)
    (small : F.length < 0x8000_0000) : Begins F (padded o F).toArray :=
  ⟨List.prefix_append _ _, whole, small⟩

/-- A buffer is not empty, as it begins with the distance to its root. -/
theorem MessageAt.pos {F : Bytes} {version : Version} {tag : HeaderTag} {bodyLength header : Nat}
    {d : FlatTable.Draft} (message : MessageAt F version tag bodyLength header d) :
    0 < F.length := by
  obtain ⟨r, -, front, -⟩ := message.root
  have := front.length_le
  rw [Bytes.length_ofNat] at this
  omega

/-- A field that does not take more bytes than a reader looks at has a schema that fits. -/
theorem schemaFits_of_cost (o : WriteOptions) {field : Field} (plain : field.Plain)
    (few : field.cost.bytes + 53 ≤ FlatTable.maxBytes) : SchemaFits o field := by
  obtain ⟨step, placed⟩ := writeSchema_spec plain
  obtain ⟨-, size⟩ := writeMessage_spec o.version .schema 0 step placed.le
  have most := length_padded_le o (schemaTable o field)
  have bytes : FlatTable.maxBytes = 0x4000_0000 := by decide
  rw [SchemaFits]
  rw [← schemaTable] at size
  omega

theorem schemaFits_of_legible (o : WriteOptions) {field : Field} (plain : field.Plain)
    (legible : field.Legible) : SchemaFits o field :=
  schemaFits_of_cost o plain (Nat.le_trans (Nat.add_le_add_left (by decide) _) legible.bounds.2.2)

theorem legible_iff (f : Field) :
    (messageCost 0 (.table 2 (.plain 20 + f.cost))).Within FlatTable.maxDepth ⟨0, 0⟩ ↔
      f.Legible := by
  show (_ ≤ _ ∧ 0 + f.schemaCost.tables ≤ _ ∧ 0 + f.schemaCost.bytes ≤ _) ↔ _
  rw [Nat.zero_add, Nat.zero_add]
  rfl

/-- The schema in front of a stream is read back if the field is legible, and not at all if it is
not. Whatever follows it is left for the batches. -/
theorem readFields_frame (o : WriteOptions) {field : Field} (plain : field.Plain)
    (fits : SchemaFits o field) (rest : Bytes) :
    readFields (frame o (schemaTable o field) ++ rest) =
      if field.Legible then some ([field], rest) else none := by
  obtain ⟨step, placed⟩ := writeSchema_spec plain
  obtain ⟨message, -⟩ := writeMessage_spec o.version .schema 0 step placed.le
  rw [← schemaTable] at message
  have begins : Begins (schemaTable o field) (padded o (schemaTable o field)).toArray :=
    begins_padded message.whole (Nat.lt_of_le_of_lt (length_le_padded o _) fits)
  obtain ⟨t, entries, buffer, pos, opened, reads, takes⟩ :=
    (placed.extend message.suffix).read begins plain
  have read := message.read begins rfl buffer pos opened (by decide) takes
  rw [readFields, next?_frame o message.pos fits, read]
  by_cases legible : field.Legible
  · rw [if_pos ((legible_iff field).2 legible), if_pos legible]
    show (do return (← readSchema t, _)) = some _
    rw [reads legible.bounds.1]
    rfl
  · rw [if_neg fun within => legible ((legible_iff field).1 within), if_neg legible]
    rfl

theorem readFields_write (o : WriteOptions) {field : Field} (c : Column) (plain : field.Plain)
    (fits : SchemaFits o field) :
    readFields (write o field c) =
      if field.Legible then some ([field], afterSchema o c) else none := by
  rw [write_eq]
  exact readFields_frame o plain fits (afterSchema o c)

/-! ## The batch -/

theorem length_lt {c : Column} (small : c.InMemory) : c.length < addressBound := by
  cases c with
  | text _ _ | binary _ _ | struct _ _ _ => exact small.1
  | list _ _ _ _ _ | fixedSizeList _ _ _ _ | union _ _ _ _ => exact small.1.1
  | foreign _ => exact (by decide : 0 < addressBound)
  | _ => exact small

theorem validity_compact {c : Column} (sound : c.Sound) : c.compact.validity = c.validity := by
  cases c with
  | foreign _ => cases sound
  | _ => simp [Column.compact, Column.compactFrom, Column.validity, Column.length]

theorem complete_compact {c : Column} (sound : c.Sound) (field : Field) :
    complete field c.compact = complete field c := by
  rw [complete, complete, Column.nullCount_eq, Column.nullCount_eq, validity_compact sound]

theorem nodes_of_nodePairs (p : Parts) :
    ((nodePairs p).map fun (length, nullCount) => Node.mk length nullCount) = p.nodes := by
  rw [nodePairs, List.map_map]
  exact List.map_id' p.nodes

/-- The header of the batch is within the limits if the field is legible. -/
theorem within_batch {field : Field} {bodyLength rows pairs : Nat} (legible : field.Legible)
    (few : pairs ≤ 2 * field.cost.tables) :
    (messageCost bodyLength (batchCost rows pairs)).Within FlatTable.maxDepth ⟨0, 0⟩ := by
  have tables := legible.bounds.2.1
  have limits : FlatTable.maxDepth = 64 ∧ FlatTable.maxTables = 1000000 ∧
      FlatTable.maxBytes = 0x4000_0000 := by decide
  have first : (if bodyLength = 0 then 3 else 4) ≤ 4 := by split <;> decide
  have second : (if bodyLength = 0 then 13 else 23) ≤ 23 := by split <;> decide
  have third : (if rows = 0 then 22 else 30) ≤ 30 := by split <;> decide
  rw [messageCost, batchCost]
  simp only [Cost.Within, Cost.table, Cost.depth_add, Cost.depth_plain, Cost.tables_add,
    Cost.tables_plain, Cost.bytes_add, Cost.bytes_plain]
  omega

/-- The table of the message with a batch of parts. -/
def batchTable (o : WriteOptions) (rows : Nat) (p : Parts) : Bytes :=
  writeMessage o.version .batch (bodyOf o.alignment p.buffers).length
    (writeBatch o.alignment rows p)

/-- The message of a batch is read back, and its header tells the parts. -/
theorem readMessage_batch (o : WriteOptions) {field : Field} {rows : Nat} {p : Parts}
    (legible : field.Legible) (few : p.count ≤ 2 * field.cost.tables) (short : rows < addressBound)
    (below : PairsBelow addressBound (nodePairs p))
    (room : (bodyOf o.alignment p.buffers).length < addressBound) :
    (0 < (batchTable o rows p).length ∧ (padded o (batchTable o rows p)).length < 0x8000_0000) ∧
      ∃ t : Table, readMessage (padded o (batchTable o rows p)) =
          some ⟨o.version, .batch, t, (bodyOf o.alignment p.buffers).length⟩ ∧
        readBatch t (bodyOf o.alignment p.buffers) = some (rows, p) := by
  have tables := legible.bounds.2.1
  have most : FlatTable.maxTables = 1000000 := rfl
  obtain ⟨step, n, b, placed, widths⟩ := writeBatch_spec o.alignment rows p
  obtain ⟨message, size⟩ := writeMessage_spec o.version .batch
    (bodyOf o.alignment p.buffers).length step placed.table.le
  rw [← batchTable] at message size
  rw [Parts.count] at few
  have padding := length_padded_le o (batchTable o rows p)
  have begins : Begins _ (padded o (batchTable o rows p)).toArray :=
    begins_padded message.whole (by omega)
  have inside : PairsBelow addressBound (bufferPlaces o.alignment 0 p.buffers) := by
    intro place mem
    have := le_of_mem_bufferPlaces mem
    omega
  obtain ⟨t, buffer, pos, opened, reads, takes⟩ := (placed.extend message.suffix).read begins
    (fun i v mem => message.wide _ (widths i v mem).1 (widths i v mem).2) short below inside
  have read := message.read begins rfl buffer pos opened room takes
  have number : (nodePairs p).length + (bufferPlaces o.alignment 0 p.buffers).length =
      p.nodes.length + p.buffers.length := by
    rw [nodePairs, List.length_map, length_bufferPlaces]
  rw [number, if_pos (within_batch legible few)] at read
  have told := reads (bodyOf o.alignment p.buffers)
  rw [nodes_of_nodePairs, available_bodyOf] at told
  exact ⟨⟨message.pos, by omega⟩, t, read, told⟩

/-- The table of the message with a column's batch. -/
def columnTable (o : WriteOptions) (c : Column) : Bytes :=
  batchTable o c.length (parts o.version c.compact)

/-- The body of a column's batch. -/
def columnBody (o : WriteOptions) (c : Column) : Bytes :=
  bodyOf o.alignment (parts o.version c.compact).buffers

theorem afterSchema_eq (o : WriteOptions) (c : Column) :
    afterSchema o c = frame o (columnTable o c) ++ (columnBody o c ++ endFrame o) :=
  rfl

/-- The message with a column's batch is read back, and its batch is the compact column. -/
structure Batched (o : WriteOptions) (field : Field) (c : Column) (m : Message) : Prop where
  pos : 0 < (columnTable o c).length
  fits : (padded o (columnTable o c)).length < 0x8000_0000
  message : readMessage (padded o (columnTable o c)) = some m
  bodyLength : m.bodyLength = (columnBody o c).length
  column : readBatchColumn field m (columnBody o c) = some c.compact

/-- The batch of a sound column is read back. -/
theorem batched_of_sound (o : WriteOptions) {field : Field} {c : Column} (sound : c.Sound)
    (small : c.InMemory) (type : c.dataType = field.type) (full : complete field c = true)
    (legible : field.Legible) (room : (write o field c).length < addressBound) :
    ∃ m, Batched o field c m := by
  have tight : c.compact.Sound := sound.compactFrom (Nat.le_refl _)
  have little : c.compact.InMemory := small.compactFrom sound
  have same : c.compact.dataType = field.type := by
    rw [Column.compact, Column.dataType_compactFrom, type]
  have count := count_parts o.version tight
  rw [same, ← tables_cost] at count
  have body : (bodyOf o.alignment (parts o.version c.compact).buffers).length < addressBound := by
    refine Nat.lt_of_le_of_lt ?_ room
    rw [write_eq, afterSchema, List.length_append, List.length_append, List.length_append]
    omega
  obtain ⟨⟨pos, fits⟩, t, read, told⟩ := readMessage_batch o legible count (length_lt small)
    (below_parts o.version little) body
  have whole : parts o.version c.compact ++ Parts.empty = parts o.version c.compact := by
    show Parts.mk (_ ++ []) (_ ++ []) = _
    rw [List.append_nil, List.append_nil]
  have column := readColumn_parts o.version tight little .empty
  rw [whole, same] at column
  have rows : c.compact.length = c.length := Column.length_compactFrom sound (Nat.le_refl _)
  refine ⟨_, pos, fits, read, rfl, ?_⟩
  rw [readBatchColumn]
  simp only [columnBody, told, Option.bind_eq_bind, Option.bind_some, readFieldColumn_eq, column,
    rows, complete_compact sound, full, decide_true, Bool.and_self, if_true, Option.pure_def]

/-- The columns of a stream are that of its batch and those of what follows. -/
theorem Batched.columns_append {o : WriteOptions} {field : Field} {c : Column} {m : Message}
    (batched : Batched o field c m) (rest : Bytes) :
    ∃ fuel, columns? field (frame o (columnTable o c) ++ (columnBody o c ++ rest)) =
      (readBatches field (fuel + 1) rest).map (c.compact :: ·) := by
  have next : next? (frame o (columnTable o c) ++ (columnBody o c ++ rest)) =
      some (.message m (columnBody o c) rest) := by
    rw [next?_frame o batched.pos batched.fits, batched.message]
    simp only [Option.bind_eq_bind, Option.bind_some, batched.bodyLength, slice?_front,
      List.drop_left, Option.pure_def]
  have fuel : (frame o (columnTable o c) ++ (columnBody o c ++ rest)).length ≠ 0 := by
    intro empty
    rw [List.eq_nil_of_length_eq_zero empty] at next
    have finished : next? [] = some .finished := rfl
    rw [finished] at next
    cases next
  obtain ⟨n, succ⟩ := Nat.exists_eq_succ_of_ne_zero fuel
  refine ⟨n, ?_⟩
  rw [columns?, succ, readBatches, next]
  simp only [Option.bind_eq_bind, Option.bind_some, batched.column, Option.pure_def,
    Option.map_eq_bind]
  rfl

/-- The columns of a whole stream. -/
theorem columns?_write (o : WriteOptions) {field : Field} {c : Column} (sound : c.Sound)
    (small : c.InMemory) (type : c.dataType = field.type) (full : complete field c = true)
    (legible : field.Legible) (room : (write o field c).length < addressBound) :
    columns? field (afterSchema o c) = some [c.compact] := by
  obtain ⟨m, batched⟩ := batched_of_sound o sound small type full legible room
  obtain ⟨fuel, columns⟩ := batched.columns_append (endFrame o)
  rw [afterSchema_eq, columns, readBatches, next?_endFrame]
  rfl

end TypedColumns.Stream
