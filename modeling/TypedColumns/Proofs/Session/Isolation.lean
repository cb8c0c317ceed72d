import TypedColumns.Codec.Flat
import TypedColumns.Proofs.Arena.Room
import TypedColumns.Proofs.Session.Interleaving

/-!
# What owners do to each other

Names belong to owners, each operation is on names of one owner, and the operations of all owners
are interleaved in any way. An owner's objects are those under its names: a handle with the columns
that it gave, their copies, and the cells that were made of them.

`Isolated` says how far the owners are apart. They influence each other only through the number of
bytes allocated in an arena that both use; through a tracking arena not even so. And as long as no
bounded arena is shared, the order in which the owners take their turns makes no difference in the
end.
-/

namespace TypedColumns

namespace Holding

variable {n : Nat}

theorem total_perm (a : Fin n) {hs ks : List (Holding n)} (perm : hs.Perm ks) :
    total a hs = total a ks := by
  induction perm with
  | nil => rfl
  | cons h _ ih => rw [total_cons, total_cons, ih]
  | swap h k hs =>
    simp only [total_cons]
    omega
  | trans _ _ first second => exact first.trans second

end Holding

namespace Session

open TypedColumns.Holding (others)

variable {n : Nat} {own : String → Bool} {s : Session n} {ops : List (Op n)}

/-- What a run shows of the given owners: what their operations return, what they have in the end,
and the arenas that only they use. -/
structure Shows (own : String → Bool) (ops : List (Op n)) (s : Session n)
    (returned : List (Op n × Except Fault Returned)) (last : Session n) : Prop where
  returns : (returns ops s).filter (·.1.isOf own) = returned
  holdings : Holding.part own (s.runAll ops).holdings = last.holdings
  arenas : ∀ a, ¬ Uses (others own) ops a → (s.runAll ops).arenas.get a = last.arenas.get a

theorem joint_start {arenas : Vector Arena n} (unused : ∀ a : Fin n, Unused (arenas.get a))
    (own : String → Bool) (mine theirs : Fin (n + 1) → Prop) :
    Joint own mine theirs (limits arenas) (start arenas) (start arenas) := by
  refine ⟨kept_start unused, rfl, ?_, ?_, ?_, fun a => ⟨rfl, rfl, fun _ => rfl⟩⟩
  · intro h mem
    cases mem
  · intro h mem
    cases mem
  · intro h mem
    cases mem

/-- A run that has come this far shows what the history of the given owners has come to. -/
theorem Joint.shows {room : Fin (n + 1) → Option Nat} {last : Session n}
    {returned : List (Op n × Except Fault Returned)}
    (same : (Session.returns ops s).filter (·.1.isOf own) = returned)
    (joint : Joint own (Uses own ops) (Uses (others own) ops) room (s.runAll ops) last) :
    Shows own ops s returned last :=
  ⟨same, joint.part.symm, fun a alone => (joint.arenas a).eq alone⟩

section

variable {arenas : Vector Arena n}

/-- The run of all, and the history of the given owners with what it found in the arenas to heed:
those that are shared and bounded, or more. -/
theorem joint_replay (heed : Fin (n + 1) → Bool) (unused : ∀ a : Fin n, Unused (arenas.get a))
    (owned : ∀ op ∈ ops, op.onBehalf = true)
    (divided : ∀ op ∈ ops, op.isOf own = true ∨ op.isOf (others own) = true)
    (clear : ∀ a, Uses own ops a → Uses (others own) ops a →
      heed a = true ∨ limits arenas a = none) :
    (returns ops (start arenas)).filter (·.1.isOf own) =
        replayed heed ((history ops (start arenas)).filter (·.1.isOf own)) (start arenas) ∧
      Joint own (Uses own ops) (Uses (others own) ops) (limits arenas)
        ((start arenas).runAll ops)
        (replay heed ((history ops (start arenas)).filter (·.1.isOf own)) (start arenas)) := by
  have joint := joint_start unused own (Uses own ops) (Uses (others own) ops)
  have enough : ∀ {a}, Uses own ops a →
      (¬ Uses (others own) ops a ∨ heed a = true) ∨ limits arenas a = none := by
    intro a mine
    by_cases theirs : Uses (others own) ops a
    · exact (clear a mine theirs).imp_left Or.inr
    · exact .inl (.inl theirs)
  exact joint.runAll enough owned divided (fun _ use => use) fun _ use => use

/-- If only tracking arenas are shared, there is nothing to heed. -/
theorem joint_alone (unused : ∀ a : Fin n, Unused (arenas.get a))
    (owned : ∀ op ∈ ops, op.onBehalf = true)
    (divided : ∀ op ∈ ops, op.isOf own = true ∨ op.isOf (others own) = true)
    (clear : ∀ a, Uses own ops a → Uses (others own) ops a → limits arenas a = none) :
    (returns ops (start arenas)).filter (·.1.isOf own) =
        returns (ops.filter (·.isOf own)) (start arenas) ∧
      Joint own (Uses own ops) (Uses (others own) ops) (limits arenas)
        ((start arenas).runAll ops) ((start arenas).runAll (ops.filter (·.isOf own))) := by
  have both := joint_replay (fun _ => false) unused owned divided
    fun a mine theirs => .inr (clear a mine theirs)
  rwa [replayed_none, replay_none, history_filter] at both

end

/-! ## Owners of names -/

section

variable {ι : Type} {owner : String → ι}

/-- All names are of one owner. -/
def Op.Single (owner : String → ι) (op : Op n) : Prop := ∃ i, ∀ name ∈ op.names, owner name = i

/-- The operation of one owner is of a group just if its owner is. -/
theorem Op.isOf_group {op : Op n} {i : ι} (same : ∀ name ∈ op.names, owner name = i)
    (any : op.names ≠ []) (group : ι → Bool) : op.isOf (group ∘ owner) = group i := by
  cases inside : group i with
  | true => exact List.all_eq_true.2 fun name mem => by simp [same name mem, inside]
  | false =>
    refine Holding.all_eq_false any (List.all_eq_true.2 fun name mem => ?_)
    simp [others, same name mem, inside]

theorem Op.Single.divided {op : Op n} (single : op.Single owner) (owned : op.onBehalf = true)
    (group : ι → Bool) :
    op.isOf (group ∘ owner) = true ∨ op.isOf (others (group ∘ owner)) = true := by
  obtain ⟨i, same⟩ := single
  have own := Op.isOf_group same (Op.names_ne_nil owned) group
  have other := Op.isOf_group same (Op.names_ne_nil owned) fun i => !group i
  cases inside : group i with
  | true => exact .inl (own.trans inside)
  | false => exact .inr (other.trans (by rw [inside, Bool.not_false]))

variable [DecidableEq ι]

/-- The names of one owner. -/
def isOwner (owner : String → ι) (i : ι) : String → Bool := (fun j => decide (j = i)) ∘ owner

/-- The names of those owners whose place is the given arena. -/
def isAt (owner : String → ι) (place : ι → Fin (n + 1)) (a : Fin (n + 1)) : String → Bool :=
  (fun i => decide (place i = a)) ∘ owner

/-- How far owners are apart. -/
structure Isolated (owner : String → ι) (arenas : Vector Arena n) (ops : List (Op n)) : Prop where
  /-- Of what others do, a group of owners gets to know only how much is allocated in the bounded
  arenas that they share. -/
  coupled : ∀ (group : ι → Bool) (heed : Fin (n + 1) → Bool),
    (∀ a, Uses (group ∘ owner) ops a → Uses (others (group ∘ owner)) ops a →
      heed a = true ∨ limits arenas a = none) →
    Shows (group ∘ owner) ops (start arenas)
      (replayed heed ((history ops (start arenas)).filter (·.1.isOf (group ∘ owner)))
        (start arenas))
      (replay heed ((history ops (start arenas)).filter (·.1.isOf (group ∘ owner)))
        (start arenas))
  /-- Where they share only tracking arenas, what others do makes no difference to them at all: each
  of their operations returns what it returns in their history alone. -/
  alone : ∀ group : ι → Bool,
    (∀ a, Uses (group ∘ owner) ops a → Uses (others (group ∘ owner)) ops a →
      limits arenas a = none) →
    Shows (group ∘ owner) ops (start arenas)
      (returns (ops.filter (·.isOf (group ∘ owner))) (start arenas))
      ((start arenas).runAll (ops.filter (·.isOf (group ∘ owner))))
  /-- So where each owner has one bounded arena at most, those at one arena are alone there, and
  what it has allocated is what they alone make of it. -/
  apart : ∀ place : ι → Fin (n + 1),
    (∀ i a, Uses (isOwner owner i) ops a → limits arenas a ≠ none → a = place i) →
    ∀ a, limits arenas a ≠ none →
      Shows (isAt owner place a) ops (start arenas)
        (returns (ops.filter (·.isOf (isAt owner place a))) (start arenas))
        ((start arenas).runAll (ops.filter (·.isOf (isAt owner place a)))) ∧
      ((start arenas).runAll ops).arenas.get a =
        ((start arenas).runAll (ops.filter (·.isOf (isAt owner place a)))).arenas.get a
  /-- At no time does an operation touch an object of another owner, nor an arena that its own owner
  does not use. -/
  untouched : ∀ (group : ι → Bool) (past : List (Op n)) (op : Op n), past ++ [op] <+: ops →
    op.isOf (group ∘ owner) = true →
    Holding.rest (group ∘ owner) (((start arenas).runAll past).run op).2.holdings =
        Holding.rest (group ∘ owner) ((start arenas).runAll past).holdings ∧
      ∀ a, ¬ Uses (group ∘ owner) ops a →
        (((start arenas).runAll past).run op).2.arenas.get a =
          ((start arenas).runAll past).arenas.get a
  /-- When only tracking arenas are shared, any order of the same operations that keeps each owner's
  own order ends with the same under every name, and with the same arenas. -/
  order : ∀ turns : List (Op n), turns.Perm ops →
    (∀ i, turns.filter (·.isOf (isOwner owner i)) = ops.filter (·.isOf (isOwner owner i))) →
    (∀ i a, Uses (isOwner owner i) ops a → Uses (others (isOwner owner i)) ops a →
      limits arenas a = none) →
    (∀ name, ((start arenas).runAll turns).find? name = ((start arenas).runAll ops).find? name) ∧
      ((start arenas).runAll turns).holdings.Perm ((start arenas).runAll ops).holdings ∧
      ∀ a, ((start arenas).runAll turns).arenas.get a = ((start arenas).runAll ops).arenas.get a

section

variable {arenas : Vector Arena n}

/-- Wherever a run stops, an operation works on what its owner has, and nothing else. -/
theorem untouched_of_prefix (unused : ∀ a : Fin n, Unused (arenas.get a))
    (owned : ∀ op ∈ ops, op.onBehalf = true)
    (divided : ∀ op ∈ ops, op.isOf own = true ∨ op.isOf (others own) = true)
    {past : List (Op n)} {op : Op n} (first : past ++ [op] <+: ops)
    (given : op.isOf own = true) :
    Holding.rest own (((start arenas).runAll past).run op).2.holdings =
        Holding.rest own ((start arenas).runAll past).holdings ∧
      ∀ a, ¬ Uses own ops a →
        (((start arenas).runAll past).run op).2.arenas.get a =
          ((start arenas).runAll past).arenas.get a := by
  have before : ∀ op' ∈ past, op' ∈ ops := fun op' mem => first.mem (List.mem_append_left _ mem)
  have uses : ∀ {group a}, Uses group past a → Uses group ops a :=
    fun ⟨op', mem, asked⟩ => ⟨op', before op' mem, asked⟩
  have clear : ∀ {a}, Uses own ops a →
      (¬ Uses (others own) ops a ∨ (fun _ => true) a = true) ∨ limits arenas a = none :=
    fun _ => .inl (.inr rfl)
  have joint := joint_start unused own (Uses own ops) (Uses (others own) ops)
  obtain ⟨-, joint⟩ := joint.runAll clear (fun op' mem => owned op' (before op' mem))
    (fun op' mem => divided op' (before op' mem)) (fun _ use => uses use) fun _ use => uses use
  have here : op ∈ ops := first.mem (List.mem_append_right _ List.mem_cons_self)
  obtain ⟨-, after⟩ := (joint.slice clear).run (List.all_eq_true.1 given)
    fun a asked => ⟨op, here, given, asked⟩
  exact ⟨after.rest, after.elsewhere⟩

/-- Every object is of the owner of any of its names. -/
theorem isOf_owner {h : Holding (n + 1)} (any : h.owners ≠ [])
    (apart : ∀ i, h.isOf (isOwner owner i) = true ∨ h.isOf (others (isOwner owner i)) = true) :
    ∃ i, h.isOf (isOwner owner i) = true := by
  obtain ⟨name, names, split⟩ := List.exists_cons_of_ne_nil any
  refine ⟨owner name, (apart (owner name)).resolve_right ?_⟩
  intro theirs
  have other := Holding.isOf_iff.1 theirs name (split ▸ List.mem_cons_self)
  simp [others, isOwner] at other

/-- Holdings are the same but for their order if each owner has the same ones. -/
theorem perm_of_parts {hs ks : List (Holding (n + 1))}
    (parts : ∀ i, Holding.part (isOwner owner i) hs = Holding.part (isOwner owner i) ks)
    (ofOwner : ∀ h ∈ hs, ∃ i, h.isOf (isOwner owner i) = true)
    (ofOwner' : ∀ h ∈ ks, ∃ i, h.isOf (isOwner owner i) = true) : hs.Perm ks := by
  classical
  rw [List.perm_iff_count]
  intro h
  by_cases mine : ∃ i, h.isOf (isOwner owner i) = true
  · obtain ⟨i, mine⟩ := mine
    have counted : ∀ ls : List (Holding (n + 1)),
        (Holding.part (isOwner owner i) ls).count h = ls.count h :=
      fun ls => List.count_filter mine
    rw [← counted hs, ← counted ks, parts i]
  · rw [List.count_eq_zero_of_not_mem fun mem => mine (ofOwner h mem),
      List.count_eq_zero_of_not_mem fun mem => mine (ofOwner' h mem)]

/-- What owners come to in the end, in any order in which they take their turns. -/
theorem same_of_turns (unused : ∀ a : Fin n, Unused (arenas.get a))
    (owned : ∀ op ∈ ops, op.onBehalf = true) (single : ∀ op ∈ ops, op.Single owner)
    (clear : ∀ i a, Uses (isOwner owner i) ops a → Uses (others (isOwner owner i)) ops a →
      limits arenas a = none) {turns : List (Op n)} (perm : turns.Perm ops)
    (histories : ∀ i,
      turns.filter (·.isOf (isOwner owner i)) = ops.filter (·.isOf (isOwner owner i))) :
    (∀ name, ((start arenas).runAll turns).find? name = ((start arenas).runAll ops).find? name) ∧
      ((start arenas).runAll turns).holdings.Perm ((start arenas).runAll ops).holdings ∧
      ∀ a, ((start arenas).runAll turns).arenas.get a =
        ((start arenas).runAll ops).arenas.get a := by
  have uses : ∀ {group a}, Uses group turns a → Uses group ops a :=
    fun ⟨op, mem, asked⟩ => ⟨op, perm.mem_iff.1 mem, asked⟩
  -- both runs, next to the one history of each owner
  have divided (i : ι) : ∀ op ∈ ops,
      op.isOf (isOwner owner i) = true ∨ op.isOf (others (isOwner owner i)) = true :=
    fun op mem => (single op mem).divided (owned op mem) _
  have joint i := (joint_alone unused owned (divided i) (clear i)).2
  have owned' : ∀ op ∈ turns, op.onBehalf = true := fun op mem => owned op (perm.mem_iff.1 mem)
  have joint' i := (joint_alone unused owned' (fun op mem => divided i op (perm.mem_iff.1 mem))
    (fun a mine theirs => clear i a (uses mine) (uses theirs))).2
  have parts : ∀ i, Holding.part (isOwner owner i) ((start arenas).runAll turns).holdings =
      Holding.part (isOwner owner i) ((start arenas).runAll ops).holdings := by
    intro i
    rw [← (joint i).part, ← (joint' i).part, histories i]
  have kept := (kept_start unused).runAll owned
  have kept' := (kept_start unused).runAll owned'
  have same : ((start arenas).runAll turns).holdings.Perm ((start arenas).runAll ops).holdings :=
    perm_of_parts parts
      (fun h mem => isOf_owner (kept'.owned.owners_ne_nil h mem) fun i => (joint' i).apart h mem)
      (fun h mem => isOf_owner (kept.owned.owners_ne_nil h mem) fun i => (joint i).apart h mem)
  refine ⟨?_, same, ?_⟩
  · intro name
    have given : isOwner owner (owner name) name = true := by simp [isOwner]
    rw [find?, find?, ← Holding.find?_part (joint (owner name)).apart given,
      ← Holding.find?_part (joint' (owner name)).apart given, parts]
  · intro a
    have acc := kept'.balanced a
    rw [heldIn, Holding.total_perm a same] at acc
    exact acc.unique (kept.balanced a)

/-- Of owners with one bounded arena each, those at one of them share it with nobody else. -/
theorem place_of_uses (owned : ∀ op ∈ ops, op.onBehalf = true)
    (single : ∀ op ∈ ops, op.Single owner) {place : ι → Fin (n + 1)} {bounded : Fin (n + 1) → Prop}
    (placed : ∀ i a, Uses (isOwner owner i) ops a → bounded a → a = place i) (group : ι → Bool)
    {a : Fin (n + 1)} (use : Uses (group ∘ owner) ops a) (limited : bounded a) :
    ∃ i, group i = true ∧ a = place i := by
  obtain ⟨op, mem, mine, asked⟩ := use
  obtain ⟨i, same⟩ := single op mem
  have any := Op.names_ne_nil (owned op mem)
  have own : op.isOf (isOwner owner i) = true := by
    rw [isOwner, Op.isOf_group same any]
    exact decide_eq_true rfl
  refine ⟨i, ?_, placed i a ⟨op, mem, own, asked⟩ limited⟩
  rwa [Op.isOf_group same any] at mine

theorem shows_of_place (unused : ∀ a : Fin n, Unused (arenas.get a))
    (owned : ∀ op ∈ ops, op.onBehalf = true) (single : ∀ op ∈ ops, op.Single owner)
    {place : ι → Fin (n + 1)}
    (placed : ∀ i a, Uses (isOwner owner i) ops a → limits arenas a ≠ none → a = place i)
    {a : Fin (n + 1)} (limited : limits arenas a ≠ none) :
    Shows (isAt owner place a) ops (start arenas)
        (returns (ops.filter (·.isOf (isAt owner place a))) (start arenas))
        ((start arenas).runAll (ops.filter (·.isOf (isAt owner place a)))) ∧
      ((start arenas).runAll ops).arenas.get a =
        ((start arenas).runAll (ops.filter (·.isOf (isAt owner place a)))).arenas.get a := by
  have here : ∀ b, limits arenas b ≠ none → Uses (isAt owner place a) ops b → b = a := by
    intro b bounded use
    obtain ⟨i, same, rfl⟩ := place_of_uses owned single placed _ use bounded
    exact of_decide_eq_true same
  have elsewhere : ∀ b, limits arenas b ≠ none → Uses (others (isAt owner place a)) ops b →
      b ≠ a := by
    intro b bounded use
    obtain ⟨i, other, rfl⟩ :=
      place_of_uses owned single placed (fun i => !decide (place i = a)) use bounded
    simpa using other
  have divided : ∀ op ∈ ops,
      op.isOf (isAt owner place a) = true ∨ op.isOf (others (isAt owner place a)) = true :=
    fun op mem => (single op mem).divided (owned op mem) _
  obtain ⟨same, joint⟩ := joint_alone unused owned divided
    fun b mine theirs => Classical.byContradiction fun bounded =>
      elsewhere b bounded theirs (here b bounded mine)
  have shown := joint.shows same
  exact ⟨shown, shown.arenas a fun use => elsewhere a limited use rfl⟩

/-- Owners whose operations are interleaved in any way, each with an arena of its own choice, are
apart as far as `Isolated` says. -/
theorem isolated_of_runAll (owner : String → ι) (arenas : Vector Arena n)
    (unused : ∀ a : Fin n, Unused (arenas.get a)) (ops : List (Op n))
    (owned : ∀ op ∈ ops, op.onBehalf = true) (single : ∀ op ∈ ops, op.Single owner) :
    Isolated owner arenas ops := by
  have divided (group : ι → Bool) : ∀ op ∈ ops,
      op.isOf (group ∘ owner) = true ∨ op.isOf (others (group ∘ owner)) = true :=
    fun op mem => (single op mem).divided (owned op mem) group
  refine
    { coupled := ?coupled
      alone := ?alone
      apart := ?apart
      untouched := ?untouched
      order := ?order }
  case coupled =>
    intro group heed clear
    obtain ⟨same, joint⟩ := joint_replay heed unused owned (divided group) clear
    exact joint.shows same
  case alone =>
    intro group clear
    obtain ⟨same, joint⟩ := joint_alone unused owned (divided group) clear
    exact joint.shows same
  case apart =>
    intro place placed a limited
    exact shows_of_place unused owned single placed limited
  case untouched =>
    intro group past op first given
    exact untouched_of_prefix unused owned (divided group) first given
  case order =>
    intro turns perm histories clear
    exact same_of_turns unused owned single clear perm histories

/-- Two handles by turns. The one's batch is too large for its arena; the other, at an arena of its
own, does what it does alone. -/
theorem isolated_neighbours :
    ∃ (arenas : Vector Arena 2) (ops : List (Op 2)),
      ops.length = 6 ∧ Isolated (· == "small") arenas ops ∧
      Shows (fun name => !(name == "small")) ops (start arenas)
        (returns (ops.filter (·.isOf fun name => !(name == "small"))) (start arenas))
        ((start arenas).runAll (ops.filter (·.isOf fun name => !(name == "small")))) ∧
      ((start arenas).runAll ops).counts 0 = 12 ∧ ((start arenas).runAll ops).counts 1 = 0 := by
  let codec := Codec.number .int32
  let batch := Batch.ofList [1#32, 2#32, 3#32]
  let arenas : Vector Arena 2 := #v[.bounded 16, .bounded 8]
  let ops : List (Op 2) :=
    [.acquire codec 3 (some 1) "small", .acquire codec 3 (some 0) "large",
      .append codec batch "small", .append codec batch "large", .drop "small",
      .finalize "large" "column"]
  have unused : ∀ a : Fin 2, Unused (arenas.get a) := by
    intro a
    match a with
    | 0 => exact ⟨rfl, fun c h => by cases h; decide⟩
    | 1 => exact ⟨rfl, fun c h => by cases h; decide⟩
  have isolated := isolated_of_runAll (· == "small") arenas unused ops
    (by simp [ops, Op.onBehalf]) (by simp [ops, Op.Single, Op.names])
  have alone := isolated.alone (fun small => !small) (by
    intro a mine theirs
    have here : 0 = a := by simpa [Uses, ops, Op.isOf, Op.names, Op.arena?] using mine
    have there : 1 = a := by simpa [Uses, ops, Op.isOf, Op.names, Op.arena?, others] using theirs
    cases here.trans there.symm)
  exact ⟨arenas, ops, rfl, isolated, alone, by decide +kernel, by decide +kernel⟩

end

end

end Session

end TypedColumns
