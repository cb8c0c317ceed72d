import TypedColumns.Proofs.Arena.Alike
import TypedColumns.Proofs.Session.Runs

/-!
# Slices of a session

The objects of some owners, with the arenas, make a session of their own: a slice. This module is
about what an operation is put together from (finding a name, taking a ledger back, keeping and
letting go of objects) when it is on names of these owners only. Done in the session and in a slice
of it, such a part of an operation finds the same, leaves a slice of what the session has become,
and leaves the objects of all others and the arenas that they alone use.

The arenas of the two need not be the same. Those that are `exact` have allocated the same; any
other that the owners use is tracking, so what is allocated in it makes no difference to them.
-/

namespace TypedColumns

/-! ## Holdings of some owners -/

namespace Holding

variable {n : Nat} {own : String → Bool} {name : String} {h : Holding n} {hs ks : List (Holding n)}

/-- Whether all owners are among the given ones. -/
def isOf (own : String → Bool) (h : Holding n) : Bool := h.owners.all own

/-- The holdings of the given owners. -/
def part (own : String → Bool) (hs : List (Holding n)) : List (Holding n) := hs.filter (isOf own)

/-- All other holdings. -/
def rest (own : String → Bool) (hs : List (Holding n)) : List (Holding n) :=
  hs.filter fun h => !h.isOf own

/-- All names but the given ones. -/
def others (own : String → Bool) (name : String) : Bool := !own name

/-- No object belongs both to one of the given owners and to another one. -/
def Apart (own : String → Bool) (hs : List (Holding n)) : Prop :=
  ∀ h ∈ hs, h.isOf own = true ∨ h.isOf (others own) = true

theorem isOf_iff : h.isOf own = true ↔ ∀ name ∈ h.owners, own name = true := List.all_eq_true

/-- What a given owner owns is of the given owners. -/
theorem Apart.isOf_of_owns (apart : Apart own hs) (given : own name = true) (mem : h ∈ hs)
    (owned : h.owns name = true) : h.isOf own = true := by
  rcases apart h mem with mine | theirs
  · exact mine
  · have other := isOf_iff.1 theirs name (owns_iff.1 owned)
    simp [others, given] at other

@[simp] theorem part_append : part own (hs ++ ks) = part own hs ++ part own ks :=
  List.filter_append hs ks

@[simp] theorem rest_append : rest own (hs ++ ks) = rest own hs ++ rest own ks :=
  List.filter_append hs ks

theorem part_cons (mine : h.isOf own = true) : part own (h :: hs) = h :: part own hs :=
  List.filter_cons_of_pos mine

theorem rest_cons (mine : h.isOf own = true) : rest own (h :: hs) = rest own hs :=
  List.filter_cons_of_neg (by simp [mine])

theorem find?_part_eq_none (absent : find? name hs = none) : find? name (part own hs) = none := by
  rw [find?, List.find?_eq_none] at absent ⊢
  exact fun h mem => absent h (List.mem_filter.1 mem).1

/-- A name is found in the first holding that it owns. -/
theorem find?_located (before : ∀ k ∈ hs, k.owns name = false) (owned : h.owns name = true) :
    find? name (hs ++ h :: ks) = some h := by
  rw [find?, List.find?_eq_some_iff_append]
  exact ⟨owned, hs, ks, rfl, fun k mem => by simp [before k mem]⟩

theorem alter_located (f : Holding n → Holding n) (before : ∀ k ∈ hs, k.owns name = false)
    (owned : h.owns name = true) : alter name f (hs ++ h :: ks) = hs ++ f h :: ks := by
  induction hs with
  | nil => simp only [List.nil_append, alter, owned, if_true]
  | cons k hs ih =>
    have tail := ih fun k' mem => before k' (List.mem_cons_of_mem k mem)
    simp only [List.cons_append, alter, before k List.mem_cons_self, Bool.false_eq_true, if_false,
      tail]

theorem alter_absent (f : Holding n → Holding n) (absent : find? name hs = none) :
    alter name f hs = hs := by
  induction hs with
  | nil => rfl
  | cons k hs ih =>
    cases owned : k.owns name with
    | true => simp [find?, owned] at absent
    | false =>
      have tail := ih (by simpa [find?, owned] using absent)
      simp only [alter, owned, Bool.false_eq_true, if_false, tail]

theorem leave_located (before : ∀ k ∈ hs, k.owns name = false) (owned : h.owns name = true) :
    leave name (hs ++ h :: ks) =
      if h.owners.erase name = [] then (some h, hs ++ ks)
      else (none, hs ++ { h with owners := h.owners.erase name } :: ks) := by
  induction hs with
  | nil =>
    simp only [List.nil_append, leave, owned, if_true]
    split
    · rename_i last
      rw [if_pos last]
    · rename_i left
      rw [if_neg left]
  | cons k hs ih =>
    have tail := ih fun k' mem => before k' (List.mem_cons_of_mem k mem)
    simp only [List.cons_append, leave, before k List.mem_cons_self, Bool.false_eq_true, if_false,
      tail]
    split
    · rfl
    · rfl

/-- Where a name is found. -/
theorem split_of_find? (found : find? name hs = some h) :
    ∃ xs ys, hs = xs ++ h :: ys ∧ (∀ k ∈ xs, k.owns name = false) ∧ h.owns name = true := by
  rw [find?, List.find?_eq_some_iff_append] at found
  obtain ⟨owned, xs, ys, same, before⟩ := found
  exact ⟨xs, ys, same, fun k mem => by simpa using before k mem, owned⟩

/-- A given owner's name is found, if anywhere, among the given owners' holdings. -/
theorem Apart.locate (apart : Apart own hs) (given : own name = true) :
    find? name hs = none ∨ ∃ xs h ys, hs = xs ++ h :: ys ∧ (∀ k ∈ xs, k.owns name = false) ∧
      h.owns name = true ∧ h.isOf own = true := by
  cases found : find? name hs with
  | none => exact .inl rfl
  | some h =>
    obtain ⟨xs, ys, rfl, before, owned⟩ := split_of_find? found
    have mine := apart.isOf_of_owns given (List.mem_append_right xs List.mem_cons_self) owned
    exact .inr ⟨xs, h, ys, rfl, before, owned, mine⟩

theorem not_owns_part (before : ∀ k ∈ hs, k.owns name = false) :
    ∀ k ∈ part own hs, k.owns name = false :=
  fun k mem => before k (List.mem_filter.1 mem).1

theorem find?_part (apart : Apart own hs) (given : own name = true) :
    find? name (part own hs) = find? name hs := by
  rcases apart.locate given with absent | ⟨xs, h, ys, rfl, before, owned, mine⟩
  · rw [absent, find?_part_eq_none absent]
  · rw [part_append, part_cons mine, find?_located before owned,
      find?_located (not_owns_part before) owned]

/-- The others are the same when a holding has been put in the place of another one. -/
theorem mem_of_replaced {xs ys : List (Holding n)} {k k' : Holding n} (mem : k' ∈ xs ++ k :: ys)
    (h : Holding n) : k' = k ∨ k' ∈ xs ++ h :: ys := by
  rcases List.mem_append.1 mem with before | mem
  · exact .inr (List.mem_append_left _ before)
  · rcases List.mem_cons.1 mem with same | after
    · exact .inl same
    · exact .inr (List.mem_append_right _ (List.mem_cons_of_mem _ after))

theorem mem_of_removed {xs ys : List (Holding n)} {k : Holding n} (mem : k ∈ xs ++ ys)
    (h : Holding n) : k ∈ xs ++ h :: ys :=
  ((List.sublist_cons_self h ys).append_left xs).mem mem

theorem Apart.replace {xs ys : List (Holding n)} (apart : Apart own (xs ++ h :: ys))
    {k : Holding n} (mine : k.isOf own = true) : Apart own (xs ++ k :: ys) := by
  intro k' mem
  rcases mem_of_replaced mem h with rfl | old
  · exact .inl mine
  · exact apart k' old

/-- Changing a given owner's holding changes that part, and nothing else. -/
theorem Apart.alter (apart : Apart own hs) (given : own name = true) {f : Holding n → Holding n}
    (keeps : ∀ h : Holding n, h.isOf own = true → (f h).isOf own = true) :
    part own (Holding.alter name f hs) = Holding.alter name f (part own hs) ∧
      rest own (Holding.alter name f hs) = rest own hs ∧ Apart own (Holding.alter name f hs) := by
  rcases apart.locate given with absent | ⟨xs, h, ys, rfl, before, owned, mine⟩
  · rw [alter_absent f absent, alter_absent f (find?_part_eq_none absent)]
    exact ⟨rfl, rfl, apart⟩
  · rw [alter_located f before owned, part_append, part_append, part_cons mine,
      part_cons (keeps h mine), alter_located f (not_owns_part before) owned, rest_append,
      rest_append, rest_cons mine, rest_cons (keeps h mine)]
    exact ⟨rfl, rfl, apart.replace (keeps h mine)⟩

/-- So does a given owner's leaving. -/
theorem Apart.leave (apart : Apart own hs) (given : own name = true) :
    Holding.leave name (part own hs) =
        ((Holding.leave name hs).1, part own (Holding.leave name hs).2) ∧
      rest own (Holding.leave name hs).2 = rest own hs ∧ Apart own (Holding.leave name hs).2 := by
  rcases apart.locate given with absent | ⟨xs, h, ys, rfl, before, owned, mine⟩
  · rw [leave_absent absent, leave_absent (find?_part_eq_none absent)]
    exact ⟨rfl, rfl, apart⟩
  · rw [part_append, part_cons mine, leave_located before owned,
      leave_located (not_owns_part before) owned]
    split
    · refine ⟨by rw [part_append], by rw [rest_append, rest_append, rest_cons mine], ?_⟩
      exact fun k mem => apart k (mem_of_removed mem h)
    · have fewer : ({ h with owners := h.owners.erase name } : Holding n).isOf own = true := by
        rw [isOf_iff] at mine ⊢
        exact fun other mem => mine other (List.mem_of_mem_erase mem)
      refine ⟨?_, ?_, apart.replace fewer⟩
      · rw [part_append, part_cons fewer]
      · rw [rest_append, rest_append, rest_cons mine, rest_cons fewer]

/-- What is handed out and what is left lies in the arenas where it was. -/
theorem arena_of_leave {p : Fin n → Prop} (all : ∀ h ∈ hs, p h.arena) (name : String) :
    (∀ h, (leave name hs).1 = some h → p h.arena) ∧ ∀ h ∈ (leave name hs).2, p h.arena := by
  cases found : find? name hs with
  | none =>
    rw [leave_absent found]
    refine ⟨?_, all⟩
    intro h gone
    cases gone
  | some h =>
    obtain ⟨xs, ys, rfl, before, owned⟩ := split_of_find? found
    rw [leave_located before owned]
    have here := all h (List.mem_append_right xs List.mem_cons_self)
    split
    · refine ⟨?_, fun k mem => all k (mem_of_removed mem h)⟩
      intro k gone
      cases gone
      exact here
    · refine ⟨?_, ?_⟩
      · intro k gone
        cases gone
      · intro k mem
        rcases mem_of_replaced mem h with rfl | old
        · exact here
        · exact all k old

end Holding

namespace Session

variable {n : Nat}

/-! ## Slices -/

/-- Some owners, and what is known of the arenas that they use. -/
structure Scope (n : Nat) where
  own : String → Bool
  uses : Fin (n + 1) → Prop
  room : Fin (n + 1) → Option Nat
  /-- The arenas that have allocated the same in a slice. -/
  exact : Fin (n + 1) → Prop
  /-- Any other arena that they use refuses nothing. -/
  clear : ∀ {a}, uses a → exact a ∨ room a = none

/-- The session `t` is a slice of `s`, which has become of `before` by the operations of the given
owners. -/
structure Slice (σ : Scope n) (before s t : Session n) : Prop where
  part : t.holdings = Holding.part σ.own s.holdings
  apart : Holding.Apart σ.own s.holdings
  placed : ∀ h ∈ t.holdings, σ.uses h.arena
  arenas : ∀ a, (s.arenas.get a).Alike (σ.room a) (σ.exact a) (t.arenas.get a)
  rest : Holding.rest σ.own s.holdings = Holding.rest σ.own before.holdings
  elsewhere : ∀ a, ¬ σ.uses a → s.arenas.get a = before.arenas.get a

namespace Slice

variable {σ : Scope n} {before s t : Session n} {name : String} {a : Fin (n + 1)}

theorem find? (slice : Slice σ before s t) (given : σ.own name = true) :
    t.find? name = s.find? name := by
  rw [Session.find?, slice.part]
  exact Holding.find?_part slice.apart given

theorem uses_of_find? (slice : Slice σ before s t) (given : σ.own name = true)
    {h : Holding (n + 1)} (found : s.find? name = some h) : σ.uses h.arena := by
  rw [← slice.find? given] at found
  exact slice.placed h (mem_of_find? found)

theorem ledgers (slice : Slice σ before s t) (a : Fin (n + 1)) :
    (s.ledger a).arena.Alike (σ.room a) (σ.exact a) (t.ledger a).arena := slice.arenas a

/-- Ledgers that are alike may be taken back to an arena of the owners. -/
theorem settle (slice : Slice σ before s t) (used : σ.uses a) {l m : Ledger}
    (alike : l.arena.Alike (σ.room a) (σ.exact a) m.arena) :
    Slice σ before (s.settle a l) (t.settle a m) := by
  refine ⟨slice.part, slice.apart, slice.placed, ?_, slice.rest, ?_⟩
  · intro b
    rw [arenas_settle, arenas_settle]
    split
    · rename_i here
      subst here
      exact alike
    · exact slice.arenas b
  · intro b unused
    have other : a ≠ b := fun same => unused (same ▸ used)
    rw [arenas_settle, if_neg other]
    exact slice.elsewhere b unused

/-- A change of a given owner's holding that leaves it in its arena. -/
theorem alter (slice : Slice σ before s t) (given : σ.own name = true)
    {f : Holding (n + 1) → Holding (n + 1)} (stays : ∀ h, (f h).arena = h.arena)
    (keeps : ∀ h : Holding (n + 1), h.isOf σ.own = true → (f h).isOf σ.own = true) :
    Slice σ before { s with holdings := Holding.alter name f s.holdings }
      { t with holdings := Holding.alter name f t.holdings } := by
  obtain ⟨part, rest, apart⟩ := slice.apart.alter given keeps
  refine ⟨?_, apart, ?_, slice.arenas, rest.trans slice.rest, slice.elsewhere⟩
  · simp only [slice.part, part]
  · intro h mem
    rcases Holding.mem_alter mem with same | ⟨k, old, rfl⟩
    · exact slice.placed h same
    · rw [stays]
      exact slice.placed k old

theorem update (slice : Slice σ before s t) (given : σ.own name = true) (object : Object) :
    Slice σ before (s.update name object) (t.update name object) :=
  slice.alter given (fun _ => rfl) fun _ mine => mine

/-- Letting go of a name hands out the same object, and that lies in an arena of the owners. -/
theorem release (slice : Slice σ before s t) (given : σ.own name = true) :
    Slice σ before (s.release name) (t.release name) := by
  obtain ⟨left, rest, apart⟩ := slice.apart.leave given
  obtain ⟨gone, placed⟩ := Holding.arena_of_leave slice.placed name
  rw [slice.part, left] at gone placed
  unfold Session.release
  rw [slice.part, left]
  generalize Holding.leave name s.holdings = after at *
  rcases after with ⟨_ | h, hs⟩
  · exact ⟨rfl, apart, placed, slice.arenas, rest.trans slice.rest, slice.elsewhere⟩
  · have used := gone h rfl
    have settled := slice.settle used (Object.drop_alike (slice.ledgers h.arena) h.object)
    exact ⟨rfl, apart, placed, settled.arenas, rest.trans slice.rest, settled.elsewhere⟩

theorem keep (slice : Slice σ before s t) (given : σ.own name = true) (used : σ.uses a)
    (object : Object) : Slice σ before (s.keep name object a) (t.keep name object a) := by
  have released := slice.release given
  have mine : (⟨[name], object, a⟩ : Holding (n + 1)).isOf σ.own = true := by
    simp [Holding.isOf, given]
  refine ⟨?_, ?_, ?_, released.arenas, ?_, released.elsewhere⟩
  · simp only [Session.keep, Holding.part_append, Holding.part_cons mine, ← released.part]
    rfl
  · intro h mem
    rcases List.mem_append.1 mem with old | new
    · exact released.apart h old
    · rw [List.mem_singleton.1 new]
      exact .inl mine
  · intro h mem
    rcases List.mem_append.1 mem with old | new
    · exact released.placed h old
    · rw [List.mem_singleton.1 new]
      exact used
  · simp only [Session.keep, Holding.rest_append, Holding.rest_cons mine]
    exact (List.append_nil _).trans released.rest

theorem share (slice : Slice σ before s t) (given : σ.own name = true) {other : String}
    (given' : σ.own other = true) : Slice σ before (s.share name other) (t.share name other) := by
  unfold Session.share
  split
  · exact slice
  · refine (slice.release given').alter given (fun _ => rfl) ?_
    intro h mine
    rw [Holding.isOf_iff] at mine ⊢
    intro owner mem
    rcases List.mem_cons.1 mem with rfl | mem
    · exact given'
    · exact mine owner mem

end Slice

end Session

end TypedColumns
