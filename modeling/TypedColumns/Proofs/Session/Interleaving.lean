import TypedColumns.Proofs.Session.Answers

/-!
# Interleaved histories

The operations of a run belong to several owners, and each owner's operations, in their order, are
its history. This module compares the whole run with the history of some of the owners alone.

All that the run of the others changes for them is what is allocated in an arena that both use. So
the history alone is replayed with a number to heed before each operation: what the arena had
allocated at that moment of the whole run. With these numbers each operation returns the same, and
the owners' objects are the same in the end. A tracking arena need not be heeded.
-/

namespace TypedColumns

namespace Holding

variable {n : Nat} {own : String → Bool} {hs : List (Holding n)}

@[simp] theorem others_others (own : String → Bool) : others (others own) = own :=
  funext fun name => Bool.not_not (own name)

/-- Names that are all of others are not all given, if there are any. -/
theorem all_eq_false {names : List String} (any : names ≠ [])
    (theirs : names.all (others own) = true) : names.all own = false := by
  obtain ⟨name, names, rfl⟩ := List.exists_cons_of_ne_nil any
  have first : own name = false := by
    simpa [others] using List.all_eq_true.1 theirs name List.mem_cons_self
  rw [List.all_cons, first, Bool.false_and]

/-- Unless it has no owner, an object is either of the given owners or of others. -/
theorem Apart.isOf_others (apart : Apart own hs) {h : Holding n} (mem : h ∈ hs)
    (any : h.owners ≠ []) : h.isOf (others own) = !h.isOf own := by
  rcases apart h mem with mine | theirs
  · have others : h.isOf (others own) = false := by
      apply all_eq_false any
      rw [others_others]
      exact mine
    rw [mine, others, Bool.not_true]
  · have none : h.isOf own = false := all_eq_false any theirs
    rw [theirs, none, Bool.not_false]

theorem Apart.swap (apart : Apart own hs) : Apart (others own) hs := by
  intro h mem
  rw [others_others]
  exact (apart h mem).symm

theorem Apart.part_others (apart : Apart own hs) (any : ∀ h ∈ hs, h.owners ≠ []) :
    part (others own) hs = rest own hs :=
  List.filter_congr fun h mem => apart.isOf_others mem (any h mem)

theorem Apart.rest_others (apart : Apart own hs) (any : ∀ h ∈ hs, h.owners ≠ []) :
    rest (others own) hs = part own hs := by
  have swapped := apart.swap.part_others any
  rw [others_others] at swapped
  exact swapped.symm

end Holding

namespace Session

variable {n : Nat}

open TypedColumns.Holding (others)

/-! ## Runs and histories -/

/-- Whether an operation is on names of the given owners only. -/
def Op.isOf (own : String → Bool) (op : Op n) : Bool := op.names.all own

/-- An operation on behalf of an owner is on some name. -/
theorem Op.names_ne_nil {op : Op n} (owned : op.onBehalf = true) : op.names ≠ [] := by
  cases op with
  | growArena bytes a => cases owned
  | shrinkArena bytes a => cases owned
  | _ => exact List.cons_ne_nil _ _

/-- The arenas that the given owners ask for. -/
def Uses (own : String → Bool) (ops : List (Op n)) (a : Fin (n + 1)) : Prop :=
  ∃ op ∈ ops, op.isOf own = true ∧ op.arena? = some a

/-- The operations of a run, each with what it returned. -/
def returns : List (Op n) → Session n → List (Op n × Except Fault Returned)
  | [], _ => []
  | op :: ops, s => (op, returned (s.run op)) :: returns ops (s.run op).2

/-- What the arenas have allocated. -/
def counts (s : Session n) (a : Fin (n + 1)) : Nat := (s.arenas.get a).allocated

/-- The operations of a run, each with what the arenas had allocated before it. -/
def history : List (Op n) → Session n → List (Op n × (Fin (n + 1) → Nat))
  | [], _ => []
  | op :: ops, s => (op, s.counts) :: history ops (s.run op).2

/-- The session, if the arenas to heed had allocated as much as given. -/
def heeding (heed : Fin (n + 1) → Bool) (counts : Fin (n + 1) → Nat) (s : Session n) : Session n :=
  { s with arenas := .ofFn fun a =>
      if heed a then { s.arenas.get a with allocated := counts a } else s.arenas.get a }

/-- Runs a history with what its operations found in the arenas to heed. -/
def replay (heed : Fin (n + 1) → Bool) (ops : List (Op n × (Fin (n + 1) → Nat)))
    (s : Session n) : Session n :=
  ops.foldl (fun s op => ((s.heeding heed op.2).run op.1).2) s

/-- What each operation of such a run returns. -/
def replayed (heed : Fin (n + 1) → Bool) :
    List (Op n × (Fin (n + 1) → Nat)) → Session n → List (Op n × Except Fault Returned)
  | [], _ => []
  | op :: ops, s =>
    (op.1, returned ((s.heeding heed op.2).run op.1)) ::
      replayed heed ops ((s.heeding heed op.2).run op.1).2

section

variable {heed : Fin (n + 1) → Bool} {counts : Fin (n + 1) → Nat} {s : Session n}

theorem arenas_heeding (a : Fin (n + 1)) :
    (s.heeding heed counts).arenas.get a =
      if heed a then { s.arenas.get a with allocated := counts a } else s.arenas.get a := by
  change (Vector.ofFn _)[a.val] = _
  rw [Vector.getElem_ofFn]

/-- Nothing to heed. -/
theorem heeding_none (counts : Fin (n + 1) → Nat) (s : Session n) :
    s.heeding (fun _ => false) counts = s := by
  have same : (s.heeding (fun _ => false) counts).arenas = s.arenas := by
    ext i h
    exact arenas_heeding ⟨i, h⟩
  calc s.heeding (fun _ => false) counts
    _ = { s with arenas := (s.heeding (fun _ => false) counts).arenas } := rfl
    _ = s := by rw [same]

theorem replay_none (ops : List (Op n × (Fin (n + 1) → Nat))) (s : Session n) :
    replay (fun _ => false) ops s = s.runAll (ops.map Prod.fst) := by
  induction ops generalizing s with
  | nil => rfl
  | cons op ops ih =>
    have tail := ih (s.run op.1).2
    simp only [replay, runAll, List.foldl_cons, List.map_cons, heeding_none] at tail ⊢
    exact tail

theorem replayed_none (ops : List (Op n × (Fin (n + 1) → Nat))) (s : Session n) :
    replayed (fun _ => false) ops s = returns (ops.map Prod.fst) s := by
  induction ops generalizing s with
  | nil => rfl
  | cons op ops ih => simp only [replayed, returns, List.map_cons, heeding_none, ih]

theorem history_map (ops : List (Op n)) (s : Session n) : (history ops s).map Prod.fst = ops := by
  induction ops generalizing s with
  | nil => rfl
  | cons op ops ih => simp only [history, List.map_cons, ih]

/-- The operations of the given owners in a history are theirs among all operations. -/
theorem history_filter (own : String → Bool) (ops : List (Op n)) (s : Session n) :
    ((history ops s).filter (·.1.isOf own)).map Prod.fst = ops.filter (·.isOf own) := by
  have mapped := List.filter_map (f := Prod.fst) (p := fun op : Op n => op.isOf own)
    (l := history ops s)
  rw [history_map] at mapped
  exact mapped.symm

end

/-! ## One operation after the other -/

/-- The whole run has come to `s`, and the history of the given owners, alone, to `t`. They ask for
the arenas that are `mine`, all others for those that are `theirs`. -/
structure Joint (own : String → Bool) (mine theirs : Fin (n + 1) → Prop)
    (room : Fin (n + 1) → Option Nat) (s t : Session n) : Prop where
  kept : s.Kept room
  part : t.holdings = Holding.part own s.holdings
  apart : Holding.Apart own s.holdings
  placed : ∀ h ∈ t.holdings, mine h.arena
  elsewhere : ∀ h ∈ Holding.rest own s.holdings, theirs h.arena
  arenas : ∀ a, (s.arenas.get a).Alike (room a) (¬ theirs a) (t.arenas.get a)

namespace Joint

variable {own : String → Bool} {mine theirs : Fin (n + 1) → Prop}
variable {room : Fin (n + 1) → Option Nat} {heed : Fin (n + 1) → Bool} {s t : Session n}
variable {op : Op n}

/-- With the numbers to heed, the history alone is at a slice of the session. -/
theorem slice (joint : Joint own mine theirs room s t)
    (clear : ∀ {a}, mine a → (¬ theirs a ∨ heed a = true) ∨ room a = none) :
    Slice ⟨own, mine, room, fun a => ¬ theirs a ∨ heed a = true, clear⟩ s s
      (t.heeding heed s.counts) := by
  refine ⟨joint.part, joint.apart, joint.placed, ?_, rfl, fun _ _ => rfl⟩
  intro a
  have alike := joint.arenas a
  rw [arenas_heeding]
  split
  · exact ⟨alike.left, alike.right, fun _ => rfl⟩
  · rename_i unheeded
    exact alike.mono fun exact => exact.resolve_right unheeded

/-- An operation of the given owners. -/
theorem own_step (joint : Joint own mine theirs room s t)
    (clear : ∀ {a}, mine a → (¬ theirs a ∨ heed a = true) ∨ room a = none)
    (owned : op.onBehalf = true) (given : op.isOf own = true)
    (used : ∀ a, op.arena? = some a → mine a) :
    returned (s.run op) = returned ((t.heeding heed s.counts).run op) ∧
      Joint own mine theirs room (s.run op).2 ((t.heeding heed s.counts).run op).2 := by
  obtain ⟨same, after⟩ := (joint.slice clear).run (List.all_eq_true.1 given) used
  refine ⟨same, joint.kept.run owned, after.part, after.apart, after.placed, ?_, ?_⟩
  · rw [after.rest]
    exact joint.elsewhere
  · exact fun a => (after.arenas a).mono Or.inl

/-- The objects of the others, as a session with the same arenas. -/
theorem slice_others (joint : Joint own mine theirs room s t) :
    Slice ⟨others own, theirs, room, fun _ => True, fun _ => .inl trivial⟩ s s
      { s with holdings := Holding.part (others own) s.holdings } := by
  refine ⟨rfl, joint.apart.swap, ?_, ?_, rfl, fun _ _ => rfl⟩
  · rw [joint.apart.part_others joint.kept.owned.owners_ne_nil]
    exact joint.elsewhere
  · exact fun a => ⟨(joint.arenas a).left, (joint.arenas a).left, fun _ => rfl⟩

/-- An operation of others does nothing to the given owners' objects, nor to an arena that only they
use. -/
theorem others_step (joint : Joint own mine theirs room s t) (owned : op.onBehalf = true)
    (given : op.isOf (others own) = true) (used : ∀ a, op.arena? = some a → theirs a) :
    Joint own mine theirs room (s.run op).2 t := by
  obtain ⟨-, after⟩ := joint.slice_others.run (List.all_eq_true.1 given) used
  have kept := joint.kept.run owned
  have apart : Holding.Apart own (s.run op).2.holdings := by
    have swapped := after.apart.swap
    rwa [Holding.others_others] at swapped
  have rest : Holding.part own (s.run op).2.holdings = Holding.part own s.holdings := by
    rw [← apart.rest_others kept.owned.owners_ne_nil,
      ← joint.apart.rest_others joint.kept.owned.owners_ne_nil]
    exact after.rest
  refine ⟨kept, joint.part.trans rest.symm, apart, joint.placed, ?_, ?_⟩
  · rw [← apart.part_others kept.owned.owners_ne_nil, ← after.part]
    exact after.placed
  · intro a
    refine ⟨(after.arenas a).left, (joint.arenas a).right, ?_⟩
    intro alone
    rw [after.elsewhere a alone]
    exact (joint.arenas a).allocated alone

/-- The whole run, and the given owners' history with what it found in the arenas to heed. -/
theorem runAll (joint : Joint own mine theirs room s t)
    (clear : ∀ {a}, mine a → (¬ theirs a ∨ heed a = true) ∨ room a = none) {ops : List (Op n)}
    (owned : ∀ op ∈ ops, op.onBehalf = true)
    (divided : ∀ op ∈ ops, op.isOf own = true ∨ op.isOf (others own) = true)
    (usedByOwn : ∀ a, Uses own ops a → mine a)
    (usedByOthers : ∀ a, Uses (others own) ops a → theirs a) :
    (returns ops s).filter (·.1.isOf own) =
        replayed heed ((history ops s).filter (·.1.isOf own)) t ∧
      Joint own mine theirs room (s.runAll ops)
        (replay heed ((history ops s).filter (·.1.isOf own)) t) := by
  induction ops generalizing s t with
  | nil => exact ⟨rfl, joint⟩
  | cons op ops ih =>
    have used : ∀ {group a}, Uses group ops a → Uses group (op :: ops) a :=
      fun ⟨op', mem, rest⟩ => ⟨op', List.mem_cons_of_mem op mem, rest⟩
    have tail {s t : Session n} (joint : Joint own mine theirs room s t) := ih joint
      (fun op' mem => owned op' (List.mem_cons_of_mem op mem))
      (fun op' mem => divided op' (List.mem_cons_of_mem op mem))
      (fun a use => usedByOwn a (used use)) (fun a use => usedByOthers a (used use))
    rcases divided op List.mem_cons_self with given | given
    · obtain ⟨same, next⟩ := joint.own_step clear (owned op List.mem_cons_self) given
        fun a asked => usedByOwn a ⟨op, List.mem_cons_self, given, asked⟩
      obtain ⟨returned, last⟩ := tail next
      simp only [returns, history, List.filter_cons, given, if_true, replayed, same, returned]
      exact ⟨trivial, last⟩
    · have next := joint.others_step (owned op List.mem_cons_self) given
        fun a asked => usedByOthers a ⟨op, List.mem_cons_self, given, asked⟩
      have other : op.isOf own = false :=
        Holding.all_eq_false (Op.names_ne_nil (owned op List.mem_cons_self)) given
      simp only [returns, history, List.filter_cons, other, Bool.false_eq_true, if_false]
      exact tail next

end Joint

end Session

end TypedColumns
