import TypedColumns.Proofs.Codec.Trees

/-!
# Builders whose column was taken

Finishing takes the rows of all builders of a tree, whatever happened before, and what comes after
goes as on a new tree: the same answers, the same faults, the same columns. There is one exception.
A builder of nothing but missing values keeps its count (`Builder.reset_of_finish`), so a tree that
has such a builder is as good as new just if no row has been given to it
(`Builder.renewed_of_finish`). If one has, then the very next column tells: it has the old rows
among its own, or the counts are wrong from now on and there is no column at all.
-/

namespace TypedColumns

/-! ## The builders of a tree -/

/-- The builders of the tree, outermost first: the kind of each and the number of its rows. -/
def ItemBuilder.nodes : ItemBuilder → List (Builder.Kind × Nat)
  | .null length => [(.item .null, length)]
  | .boolean slots => [(.item .boolean, slots.size)]
  | .number type slots => [(.item (.number type), slots.size)]
  | .text width slots => [(.item (.text width), slots.size)]
  | .binary width slots => [(.item (.binary width), slots.size)]
  | .list width rows items => (.item (.list width items.kind), rows.size) :: items.nodes
  | .fixedSizeList _ validity items =>
    (.item (.fixedSizeList items.kind), validity.size) :: items.nodes

namespace Builder

mutual

def nodes : Builder → List (Kind × Nat)
  | .item items => items.nodes
  | .struct _ validity children => (.struct, validity.size) :: nodesAll children
  | .union _ rows children => (.union, rows.size) :: nodesAll children

def nodesAll : List Builder → List (Kind × Nat)
  | [] => []
  | b :: bs => b.nodes ++ nodesAll bs

end

/-- The rows that a builder of this kind keeps when its column is taken. -/
def kept (node : Kind × Nat) : Nat := if node.1 = .item .null then node.2 else 0

/-- The rows of all builders of nothing but missing values. -/
def markers (b : Builder) : Nat := sumOf kept b.nodes

theorem sumOf_nodesAll (bs : List Builder) : sumOf kept (nodesAll bs) = sumOf markers bs := by
  induction bs with
  | nil => rfl
  | cons b bs ih => rw [nodesAll, sumOf_append, ih, sumOf_cons, markers]

theorem markers_struct (fields : List Field) (validity : Array Bool) (children : List Builder) :
    (Builder.struct fields validity children).markers = sumOf markers children := by
  rw [markers, nodes, sumOf_cons, sumOf_nodesAll]
  exact Nat.zero_add _

theorem markers_union (variants : List Variant) (rows : Array (TypeId × Nat))
    (children : List Builder) :
    (Builder.union variants rows children).markers = sumOf markers children := by
  rw [markers, nodes, sumOf_cons, sumOf_nodesAll]
  exact Nat.zero_add _

/-- Markers are nowhere just if no builder has any that it keeps. -/
theorem markers_eq_zero_iff {b : Builder} : b.markers = 0 ↔ ∀ node ∈ b.nodes, kept node = 0 := by
  rw [markers]
  induction b.nodes with
  | nil => simp
  | cons node nodes ih => rw [sumOf_cons, Nat.add_eq_zero_iff, ih, List.forall_mem_cons]

end Builder

/-! ## What finishing leaves -/

namespace ItemBuilder

theorem reset_of_finish {b b' : ItemBuilder} {c : Column} (finished : b.finish = (.ok c, b')) :
    b' = b.reset := by
  rw [finish] at finished
  split at finished <;> cases finished
  rfl

theorem nodes_reset (b : ItemBuilder) :
    b.reset.nodes = b.nodes.map fun node => (node.1, Builder.kept node) := by
  induction b with
  | list width rows items ih => simp [reset, nodes, ih, Builder.kept]
  | fixedSizeList size validity items ih => simp [reset, nodes, ih, Builder.kept]
  | _ => simp [reset, nodes, Builder.kept]

theorem reset_eq_bare {b : ItemBuilder} (none : ∀ node ∈ b.nodes, Builder.kept node = 0) :
    b.reset = b.bare := by
  induction b with
  | null length => exact congrArg ItemBuilder.null (none _ List.mem_cons_self)
  | list width rows items ih =>
    rw [reset, bare, ih fun node mem => none node (List.mem_cons_of_mem _ mem)]
  | fixedSizeList size validity items ih =>
    rw [reset, bare, ih fun node mem => none node (List.mem_cons_of_mem _ mem)]
  | _ => rfl

theorem nodes_bare (b : ItemBuilder) : ∀ node ∈ b.bare.nodes, node.2 = 0 := by
  induction b with
  | list width rows items ih => exact List.forall_mem_cons.2 ⟨rfl, ih⟩
  | fixedSizeList size validity items ih => exact List.forall_mem_cons.2 ⟨rfl, ih⟩
  | _ => exact List.forall_mem_singleton.2 rfl

end ItemBuilder

namespace Builder

mutual

/-- The tree that is left when its column is taken. -/
def reset : Builder → Builder
  | .item items => .item items.reset
  | .struct fields _ children => .struct fields #[] (resetAll children)
  | .union variants _ children => .union variants #[] (resetAll children)

def resetAll : List Builder → List Builder
  | [] => []
  | b :: bs => b.reset :: resetAll bs

end

theorem resetAll_eq_map (bs : List Builder) : resetAll bs = bs.map reset := by
  induction bs with
  | nil => rfl
  | cons b bs ih => rw [resetAll, List.map_cons, ih]

theorem resetAll_of_finishAll {children children' : List Builder} {columns : List Column}
    (each : ∀ b ∈ children, ∀ c b', b.finish = (.ok c, b') → b' = b.reset)
    (finished : finishAll children = (.ok columns, children')) : children' = resetAll children := by
  induction children generalizing children' columns with
  | nil =>
    rw [finishAll] at finished
    cases finished
    rfl
  | cons b bs ih =>
    rw [finishAll] at finished
    rcases first : b.finish with ⟨_ | c, b'⟩ <;> rw [first] at finished
    · cases finished
    rcases others : finishAll bs with ⟨_ | cs, bs'⟩ <;> rw [others] at finished <;> cases finished
    rw [resetAll, each b List.mem_cons_self c b' first,
      ih (fun c mem => each c (List.mem_cons_of_mem b mem)) others]

/-- Whatever column is taken, what is left depends on the builder alone. -/
theorem reset_of_finish {b b' : Builder} {c : Column} (finished : b.finish = (.ok c, b')) :
    b' = b.reset := by
  induction b using childInduction generalizing b' c with
  | item items =>
    obtain ⟨done, rfl⟩ := Prod.mk.inj finished
    exact congrArg Builder.item (ItemBuilder.reset_of_finish (Prod.ext done rfl))
  | struct fields validity children ih =>
    rw [finish] at finished
    split at finished
    · cases finished
    split at finished
    · cases finished
    · next done =>
      obtain ⟨-, rfl⟩ := Prod.mk.inj finished
      rw [reset, resetAll_of_finishAll (fun b mem c b' => ih b mem) done]
  | union variants rows children ih =>
    rw [finish] at finished
    split at finished
    · cases finished
    split at finished
    · cases finished
    · next done =>
      obtain ⟨-, rfl⟩ := Prod.mk.inj finished
      rw [reset, resetAll_of_finishAll (fun b mem c b' => ih b mem) done]

/-- Nothing but markers is left. -/
theorem nodes_reset (b : Builder) : b.reset.nodes = b.nodes.map fun node => (node.1, kept node) := by
  have all {children : List Builder}
      (each : ∀ b ∈ children, b.reset.nodes = b.nodes.map fun node => (node.1, kept node)) :
      nodesAll (resetAll children) =
        (nodesAll children).map fun node => (node.1, kept node) := by
    induction children with
    | nil => rfl
    | cons b bs ih =>
      rw [resetAll, nodesAll, nodesAll, each b List.mem_cons_self,
        ih fun c mem => each c (List.mem_cons_of_mem b mem), List.map_append]
  induction b using childInduction with
  | item items => exact ItemBuilder.nodes_reset items
  | struct fields validity children ih => exact congrArg _ (all ih)
  | union variants rows children ih => exact congrArg _ (all ih)

theorem markers_reset (b : Builder) : b.reset.markers = b.markers := by
  have same (node : Kind × Nat) : kept (node.1, kept node) = kept node := by
    unfold kept
    split <;> simp_all
  rw [markers, nodes_reset, sumOf_map, markers]
  exact congrArg (sumOf · b.nodes) (funext same)

theorem reset_eq_bare {b : Builder} (none : b.markers = 0) : b.reset = b.bare := by
  have all {children : List Builder} (none : sumOf markers children = 0)
      (each : ∀ b ∈ children, b.markers = 0 → b.reset = b.bare) :
      resetAll children = bareAll children := by
    rw [resetAll_eq_map, bareAll_eq_map]
    refine List.map_congr_left fun b mem => each b mem ?_
    obtain ⟨i, inside, rfl⟩ := List.getElem_of_mem mem
    exact Nat.le_zero.1 (none ▸ le_sumOf (List.getElem?_eq_getElem inside))
  induction b using childInduction with
  | item items => exact congrArg Builder.item (ItemBuilder.reset_eq_bare (markers_eq_zero_iff.1 none))
  | struct fields validity children ih =>
    rw [markers_struct] at none
    rw [reset, bare, all none ih]
  | union variants rows children ih =>
    rw [markers_union] at none
    rw [reset, bare, all none ih]

theorem nodes_bare (b : Builder) : ∀ node ∈ b.bare.nodes, node.2 = 0 := by
  have all {children : List Builder} (each : ∀ b ∈ children, ∀ node ∈ b.bare.nodes, node.2 = 0) :
      ∀ node ∈ nodesAll (bareAll children), node.2 = 0 := by
    induction children with
    | nil => exact nofun
    | cons b bs ih =>
      rw [bareAll, nodesAll]
      exact List.forall_mem_append.2
        ⟨each b List.mem_cons_self, ih fun c mem => each c (List.mem_cons_of_mem b mem)⟩
  induction b using childInduction with
  | item items => exact ItemBuilder.nodes_bare items
  | struct fields validity children ih => exact List.forall_mem_cons.2 ⟨rfl, all ih⟩
  | union variants rows children ih => exact List.forall_mem_cons.2 ⟨rfl, all ih⟩

@[simp] theorem markers_bare (b : Builder) : b.bare.markers = 0 := by
  refine markers_eq_zero_iff.2 fun node mem => ?_
  rw [kept, nodes_bare b node mem, ite_self]

@[simp] theorem length_bare (b : Builder) : b.bare.length = 0 := by
  cases b with
  | item items => cases items <;> rfl
  | _ => rfl

end Builder

/-! ## Markers in columns -/

namespace Column

mutual

/-- The rows of all columns of nothing but missing values in the column. -/
def markers : Column → Nat
  | .null length => length
  | .boolean _ => 0
  | .number _ _ => 0
  | .text _ _ => 0
  | .binary _ _ => 0
  | .list _ _ _ _ items => items.markers
  | .fixedSizeList _ _ _ items => items.markers
  | .struct _ _ children => markersAll children
  | .union _ _ _ children => markersAll children
  | .foreign _ => 0

def markersAll : List Column → Nat
  | [] => 0
  | c :: cs => c.markers + markersAll cs

end

end Column

theorem ItemBuilder.markers_of_column? {b : ItemBuilder} {c : Column} (column : b.column? = some c) :
    c.markers = sumOf Builder.kept b.nodes := by
  induction b generalizing c with
  | list width rows items ih =>
    obtain ⟨child, inner, rfl⟩ := Option.map_eq_some_iff.1 column
    exact (ih inner).trans (Nat.zero_add _).symm
  | fixedSizeList size validity items ih =>
    obtain ⟨child, inner, made⟩ := Option.bind_eq_some_iff.1 column
    split at made <;> cases made
    exact (ih inner).trans (Nat.zero_add _).symm
  | _ =>
    cases column
    rfl

/-- Without rows there is a column as well, of the same type. -/
theorem ItemBuilder.column?_bare {b : ItemBuilder} {c : Column} (column : b.column? = some c) :
    ∃ c₀, b.bare.column? = some c₀ ∧ c₀.dataType = c.dataType ∧ c₀.length = 0 := by
  induction b generalizing c with
  | list width rows items ih =>
    obtain ⟨child, inner, rfl⟩ := Option.map_eq_some_iff.1 column
    obtain ⟨child₀, inner₀, same, -⟩ := ih inner
    refine ⟨_, Option.map_eq_some_iff.2 ⟨child₀, inner₀, rfl⟩, ?_, rfl⟩
    rw [Column.dataType, Column.dataType, same]
  | fixedSizeList size validity items ih =>
    obtain ⟨child, inner, made⟩ := Option.bind_eq_some_iff.1 column
    split at made <;> cases made
    obtain ⟨child₀, inner₀, same, none⟩ := ih inner
    have room : child₀.length = (#[] : Array Bool).size * size := by
      rw [none, Array.size_empty, Nat.zero_mul]
    refine ⟨_, Option.bind_eq_some_iff.2 ⟨child₀, inner₀, if_pos room⟩, ?_, ?_⟩
    · rw [Column.dataType, Column.dataType, same]
    · simp [Column.length, listMarks, Column.marks?]
  | _ =>
    cases column
    exact ⟨_, rfl, rfl, rfl⟩

theorem ItemBuilder.lengthFault?_bare (b : ItemBuilder) : b.bare.lengthFault? = none := by
  cases b with
  | fixedSizeList size validity items => cases items <;> simp [bare, lengthFault?, length]
  | _ => rfl

namespace Builder

variable {b : Builder} {c : Column}

theorem markers_of_finishAll {children : List Builder} {columns : List Column}
    (each : ∀ b ∈ children, ∀ c, b.finish.1 = .ok c → c.markers = b.markers)
    (finished : (finishAll children).1 = .ok columns) :
    Column.markersAll columns = sumOf markers children := by
  obtain ⟨count, made⟩ := finishAll_ok finished
  clear finished
  induction children generalizing columns with
  | nil =>
    obtain rfl := List.length_eq_zero_iff.1 count
    rfl
  | cons b bs ih =>
    cases columns with
    | nil => cases count
    | cons c cs =>
      obtain ⟨_, here, own⟩ := made 0 c rfl
      cases here
      rw [Column.markersAll, each b List.mem_cons_self c own, sumOf_cons]
      exact congrArg _ (ih (fun d mem => each d (List.mem_cons_of_mem b mem))
        (Nat.succ.inj count) fun i => made (i + 1))

/-- A column has the markers of the builder that it comes from. -/
theorem markers_of_finish (finished : b.finish.1 = .ok c) : c.markers = b.markers := by
  induction b using childInduction generalizing c with
  | item items => exact ItemBuilder.markers_of_column? (finish_item.1 finished).2
  | struct fields validity children ih =>
    obtain ⟨columns, inner, made⟩ := (finish_struct (counts_of_finish_struct finished)).1 finished
    obtain ⟨marks, rfl⟩ := Column.structOf_eq made
    rw [markers_struct]
    exact markers_of_finishAll (fun b mem c => ih b mem) inner
  | union variants rows children ih =>
    obtain ⟨columns, inner, made⟩ := (finish_union (counts_of_finish_union finished)).1 finished
    obtain rfl := Column.unionOf_eq made
    rw [markers_union]
    exact markers_of_finishAll (fun b mem c => ih b mem) inner

/-- What is left of the column of a builder without its rows. -/
def Emptied (c c₀ : Column) : Prop := c₀.dataType = c.dataType ∧ c₀.length = 0

theorem finishAll_bare {children : List Builder} {columns : List Column}
    (each : ∀ b ∈ children, ∀ c, b.finish.1 = .ok c → ∃ c₀, b.bare.finish.1 = .ok c₀ ∧ Emptied c c₀)
    (finished : (finishAll children).1 = .ok columns) :
    ∃ columns₀, (finishAll (bareAll children)).1 = .ok columns₀ ∧
      Alongside Emptied columns columns₀ := by
  rw [bareAll_eq_map]
  refine finishAll_related ⟨List.length_map bare, fun i child other found found' c done => ?_⟩
    finished
  rw [List.getElem?_map, found] at found'
  obtain rfl := Option.some.inj found'
  exact each child (List.mem_of_getElem? found) c done

/-- A struct of no rows asks for nothing but the types of its fields. -/
theorem structOf_bare {fields : List Field} {marks : Option (List Bool)}
    {columns columns₀ : List Column} (number : columns.length = fields.length)
    (made : Column.structOf fields marks columns = .ok c) (all : Alongside Emptied columns columns₀) :
    Column.structOf fields (Column.marks? []) columns₀ = .ok (.struct fields [] columns₀) := by
  cases columns with
  | nil => cases made
  | cons first rest =>
  have clean := (Column.fieldFault?_iff number).1 (Column.structOf_cons.1 made).2.1
  have lengths : ∀ c₀ ∈ columns₀, c₀.length = ([] : List Bool).length := by
    intro c₀ mem
    obtain ⟨c, -, emptied⟩ := all.of_mem mem
    exact emptied.2
  refine (Column.structOf_marks? (List.ne_nil_of_length_eq_add_one all.1) lengths).2 ⟨?_, rfl⟩
  refine (Column.fieldFault?_iff (all.1.trans number)).2 fun i f c₀ field column₀ => ?_
  obtain ⟨c, column, type, none⟩ := all.of_getElem? column₀
  exact ⟨type.trans (clean i f c field column).1, none, .inr rfl⟩

/-- A tree that can be finished can be finished without rows. -/
theorem finish_bare (finished : b.finish.1 = .ok c) :
    ∃ c₀, b.bare.finish.1 = .ok c₀ ∧ Emptied c c₀ := by
  induction b using childInduction generalizing c with
  | item items =>
    obtain ⟨c₀, column₀, same⟩ := ItemBuilder.column?_bare (finish_item.1 finished).2
    exact ⟨c₀, finish_item.2 ⟨items.lengthFault?_bare, column₀⟩, same⟩
  | struct fields validity children ih =>
    have counts := counts_of_finish_struct finished
    obtain ⟨columns, inner, made⟩ := (finish_struct counts).1 finished
    have number : columns.length = fields.length :=
      (finishAll_ok inner).1.trans (length_of_structFault? counts)
    obtain ⟨marks, rfl⟩ := Column.structOf_eq made
    obtain ⟨columns₀, inner₀, all⟩ := finishAll_bare (fun b mem c => ih b mem) inner
    have made₀ := structOf_bare number made all
    have counts₀ : structFault? fields #[] (bareAll children) = none := by
      rw [bareAll_eq_map]
      refine structFault?_eq_none ?_ fun child mem => ?_
      · rw [List.length_map, length_of_structFault? counts]
      · obtain ⟨b, -, rfl⟩ := List.mem_map.1 mem
        exact length_bare b
    exact ⟨_, (finish_struct counts₀).2 ⟨columns₀, inner₀, made₀⟩, rfl, rfl⟩
  | union variants rows children ih =>
    have counts := counts_of_finish_union finished
    obtain ⟨columns, inner, made⟩ := (finish_union counts).1 finished
    obtain rfl := Column.unionOf_eq made
    obtain ⟨columns₀, inner₀, -⟩ := finishAll_bare (fun b mem c => ih b mem) inner
    have counts₀ : unionFault? variants #[] (bareAll children) = none := by
      rw [bareAll_eq_map]
      refine unionFault?_eq_none ?_ fun i v child variant found => ?_
      · rw [List.length_map, length_of_unionFault? counts]
      · obtain ⟨b, -, rfl⟩ := List.mem_map.1 (List.mem_of_getElem? found)
        rw [length_bare]
        rfl
    exact ⟨_, (finish_union counts₀).2 ⟨columns₀, inner₀, rfl⟩, rfl, rfl⟩

end Builder

/-! ## Calls -/

/-- What a builder is asked for: to be written to, to take a missing row, or to give its column. -/
inductive BuilderCall
  | write (w : Write)
  | missing
  | finish

/-- What comes of a call. -/
inductive BuilderCall.Reply
  | written (result : Except CellError Unit)
  | missing (result : Except BuildFault Unit)
  | finished (result : Except BuildFault Column)

namespace BuilderCall

def run : BuilderCall → Builder → Reply × Builder
  | .write w, b => ((w.apply b).map .written id)
  | .missing, b => (b.appendNull.map .missing id)
  | .finish, b => (b.finish.map .finished id)

/-- The replies to calls that are made one after the other, and the builder at the end. -/
def runs : List BuilderCall → Builder → List Reply × Builder
  | [], b => ([], b)
  | call :: calls, b =>
    let (reply, b') := call.run b
    (runs calls b').map (reply :: ·) id

/-- A write leaves the tree of builders as it is. -/
def KeepsTree : BuilderCall → Prop
  | .write w => w.KeepsTree
  | .missing => True
  | .finish => True

theorem bare_run {call : BuilderCall} (keeps : call.KeepsTree) (b : Builder) :
    (call.run b).2.bare = b.bare := by
  cases call with
  | write w => exact keeps b
  | missing => exact b.bare_appendNull
  | finish => exact b.bare_finish

theorem bare_runs {calls : List BuilderCall} (keeps : ∀ call ∈ calls, call.KeepsTree)
    (b : Builder) : (runs calls b).2.bare = b.bare := by
  induction calls generalizing b with
  | nil => rfl
  | cons call calls ih =>
    have rest := ih (fun other mem => keeps other (List.mem_cons_of_mem call mem)) (call.run b).2
    exact rest.trans (bare_run (keeps call List.mem_cons_self) b)

end BuilderCall

/-! ## Trees that are as good as new -/

namespace Builder

/-- What is left of the builder when its column has been taken, compared with a new one. -/
structure Renewed (before after new : Builder) : Prop where
  /-- It is a builder of the same tree. -/
  tree : after.bare = new
  /-- Each builder in it is without rows, or one of missing values that has them all. -/
  nodes : after.nodes = before.nodes.map fun node => (node.1, kept node)
  /-- All are without rows just if there was no marker. -/
  empty : (∀ node ∈ after.nodes, node.2 = 0) ↔ before.markers = 0
  /-- Whatever follows goes as it would on the new builder, just if there was no marker. -/
  alike : (∀ later, (BuilderCall.runs later after).1 = (BuilderCall.runs later new).1) ↔
    before.markers = 0

/-- A tree with markers left tells from a new one when it is finished. -/
theorem finish_ne_bare {b : Builder} {c : Column} (finished : b.bare.finish.1 = .ok c)
    (some : b.markers ≠ 0) : b.finish.1 ≠ b.bare.finish.1 := by
  intro same
  have old := markers_of_finish (same.trans finished)
  have new := markers_of_finish finished
  rw [markers_bare] at new
  exact some (old.symm.trans new)

/-- Whatever was written to a tree, and however often it was finished before: when a column has been
taken, what is left is as good as a new tree, down to the last builder and for all that follows,
unless a builder of nothing but missing values was given rows. -/
theorem renewed_of_finish {b₀ b' : Builder} {history : List BuilderCall} {c : Column}
    (keeps : ∀ call ∈ history, call.KeepsTree)
    (finished : (BuilderCall.runs history b₀).2.finish = (.ok c, b')) :
    Renewed (BuilderCall.runs history b₀).2 b' b₀.bare := by
  have start := BuilderCall.bare_runs keeps b₀
  generalize (BuilderCall.runs history b₀).2 = b at finished start
  obtain rfl := reset_of_finish finished
  have tree : b.reset.bare = b.bare := by
    rw [← b.bare_finish, finished]
  rw [← start]
  refine ⟨tree, b.nodes_reset, ⟨fun empty => ?_, fun none => ?_⟩, fun alike => ?_, fun none => ?_⟩
  · rw [← markers_reset]
    refine markers_eq_zero_iff.2 fun node mem => ?_
    rw [kept, empty node mem, ite_self]
  · rw [reset_eq_bare none]
    exact b.nodes_bare
  · -- The next column tells.
    refine Decidable.byContradiction fun some => ?_
    obtain ⟨c₀, finished₀, -⟩ := finish_bare (congrArg Prod.fst finished)
    rw [← tree] at alike finished₀
    have reply := List.head_eq_of_cons_eq (alike [.finish])
    have differs := finish_ne_bare finished₀ (by rwa [markers_reset])
    exact differs (BuilderCall.Reply.finished.inj reply)
  · rw [reset_eq_bare none]
    exact fun later => rfl

/-- Transforms, one of them missing, leave the marker of the missing one. -/
theorem renewed_transforms : ∃ c b',
    (BuilderCall.runs [.write (Codec.transform3D.append (.translationAndMat3x3 default)), .missing]
      Codec.transform3D.newBuilder).2.finish = (.ok c, b') ∧
    Renewed (BuilderCall.runs
        [.write (Codec.transform3D.append (.translationAndMat3x3 default)), .missing]
        Codec.transform3D.newBuilder).2
      b' Codec.transform3D.newBuilder.bare := by
  obtain ⟨build, keeps⟩ := Codec.transform3D_faithful
  have run : (BuilderCall.runs
      [.write (Codec.transform3D.append (.translationAndMat3x3 default)), .missing]
      Codec.transform3D.newBuilder).2 = build [some (.translationAndMat3x3 default), none] := by
    have value := congrArg Prod.snd (keeps.append [] (.translationAndMat3x3 default))
    have missing := congrArg Prod.snd (keeps.missing [some (.translationAndMat3x3 default)])
    rw [← keeps.newBuilder] at value
    simp only [BuilderCall.runs, BuilderCall.run, Prod.map, id_eq, value]
    exact missing
  obtain ⟨c, finished, -⟩ := keeps.finishes [some (.translationAndMat3x3 default), none]
  rw [← run] at finished
  refine ⟨c, _, Prod.ext finished rfl, renewed_of_finish ?_ (Prod.ext finished rfl)⟩
  refine List.forall_mem_cons.2 ⟨?_, List.forall_mem_singleton.2 trivial⟩
  exact (ShippedType.keepsTree .transform3D).append _

/-- The builder of a single transform, which is missing. -/
def markedTransforms : Builder :=
  .union Codec.transform3DVariants #[(0, 0)]
    [.item (.null 1), Codec.translationAndMat3x3.newBuilder,
     Codec.translationRotationScale3D.newBuilder]

/-- After a missing transform, the second column cannot be taken. A new builder has one to give. -/
theorem finish_again_after_missing : ∃ c b',
    (BuilderCall.runs [.missing] Codec.transform3D.newBuilder).2.finish = (.ok c, b') ∧
      (.item .null, 1) ∈ b'.nodes ∧
      (BuilderCall.runs [.finish] b').1 =
        [.finished (.error (.variantLength "_null_markers" 0 1))] ∧
      ∃ c₀, (BuilderCall.runs [.finish] Codec.transform3D.newBuilder.bare).1 =
        [.finished (.ok c₀)] := by
  obtain ⟨build, keeps⟩ := Codec.transform3D_faithful
  have added : Codec.transform3D.newBuilder.appendNull = (.ok (), markedTransforms) := by
    rw [Codec.transform3D, appendNull, Codec.nullVariant?_transform3D]
    rfl
  have same : build [none] = markedTransforms := by
    have missing := keeps.missing []
    rw [← keeps.newBuilder, added] at missing
    exact (congrArg Prod.snd missing).symm
  obtain ⟨c, finished, -⟩ := keeps.finishes [none]
  rw [same] at finished
  have done : markedTransforms.finish = (.ok c, markedTransforms.reset) :=
    Prod.ext finished (reset_of_finish (Prod.ext finished rfl))
  obtain ⟨c₀, finished₀, -⟩ := finish_bare finished
  refine ⟨c, markedTransforms.reset, ?_, ?_, rfl, c₀, ?_⟩
  · simp only [BuilderCall.runs, BuilderCall.run, Prod.map, added]
    exact done
  · exact List.mem_cons_of_mem _ List.mem_cons_self
  · exact congrArg (fun result => [BuilderCall.Reply.finished result]) finished₀

end Builder

end TypedColumns
