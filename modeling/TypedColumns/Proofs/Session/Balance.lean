import TypedColumns.Proofs.Arena.Accounts
import TypedColumns.Session

/-!
# The balance of a session

In every state that a session reaches, each arena accounts for just the bytes that the objects of
the session hold in it, and each object is kept once, however many names own it. So a name that is
let go gives back its object's bytes if it was the last owner, and nothing otherwise.

The invariant is `Session.Balanced`. While an operation is under way, an object may hold bytes that
no name owns yet, or no more; these stand beside the session's own in the statements as `aside`.
-/

namespace TypedColumns

/-! ## Owners -/

namespace Holding

variable {n : Nat}

/-- The names of all owners. -/
def names (hs : List (Holding n)) : List String := hs.flatMap (·.owners)

@[simp] theorem names_cons (h : Holding n) (hs : List (Holding n)) :
    names (h :: hs) = h.owners ++ names hs := rfl

@[simp] theorem names_append (hs ks : List (Holding n)) : names (hs ++ ks) = names hs ++ names ks :=
  List.flatMap_append

/-- Nobody owns an object twice or two objects, and no object is without owners. -/
structure Owned (hs : List (Holding n)) : Prop where
  nodup : (names hs).Nodup
  owners_ne_nil : ∀ h ∈ hs, h.owners ≠ []

theorem owns_iff {h : Holding n} {name : String} : h.owns name = true ↔ name ∈ h.owners :=
  List.contains_iff_mem

/-- Leaving strikes a name off the list of names. -/
theorem names_leave (name : String) (hs : List (Holding n)) :
    names (leave name hs).2 = (names hs).erase name := by
  induction hs with
  | nil => rfl
  | cons h hs ih =>
    by_cases owned : h.owns name
    · rw [names_cons, List.erase_append_left _ (owns_iff.1 owned)]
      simp only [leave, owned, if_true]
      split
      · rename_i last
        rw [last, List.nil_append]
      · rename_i owners left
        rw [names_cons]
    · rw [names_cons, List.erase_append_right _ (fun mem => owned (owns_iff.2 mem))]
      simp only [leave, owned, Bool.false_eq_true, if_false, names_cons, ih]

theorem owners_leave {name : String} {hs : List (Holding n)} (owned : ∀ h ∈ hs, h.owners ≠ []) :
    ∀ h ∈ (leave name hs).2, h.owners ≠ [] := by
  induction hs with
  | nil => simp [leave]
  | cons h hs ih =>
    have rest := ih fun k mem => owned k (List.mem_cons_of_mem h mem)
    by_cases found : h.owns name
    · simp only [leave, found, if_true]
      split
      · intro k mem
        exact owned k (List.mem_cons_of_mem h mem)
      · rename_i owners left
        intro k mem
        rcases List.mem_cons.1 mem with rfl | mem
        · exact left
        · exact owned k (List.mem_cons_of_mem h mem)
    · simp only [leave, found, Bool.false_eq_true, if_false]
      intro k mem
      rcases List.mem_cons.1 mem with rfl | mem
      · exact owned k List.mem_cons_self
      · exact rest k mem

theorem Owned.leave {hs : List (Holding n)} (owned : Owned hs) (name : String) :
    Owned (Holding.leave name hs).2 ∧ name ∉ names (Holding.leave name hs).2 := by
  refine ⟨⟨?_, owners_leave owned.owners_ne_nil⟩, ?_⟩
  · rw [names_leave]
    exact owned.nodup.erase name
  · rw [names_leave]
    exact owned.nodup.not_mem_erase

/-- The holding of the last owner is handed out when that one leaves, and kept otherwise. -/
theorem leave_eq {name : String} {hs : List (Holding n)} {h : Holding n}
    (found : find? name hs = some h) :
    (Holding.leave name hs).1 = if h.owners.erase name = [] then some h else none := by
  induction hs with
  | nil => simp [find?] at found
  | cons k ks ih =>
    by_cases owned : k.owns name
    · obtain rfl : k = h := by simpa [find?, owned] using found
      simp only [Holding.leave, owned, if_true]
      split
      · rename_i last
        rw [if_pos last]
      · rename_i owners left
        rw [if_neg left]
    · simp only [Holding.leave, owned, Bool.false_eq_true, if_false]
      exact ih (by simpa [find?, owned] using found)

/-- Another object in the same place has the same owners. -/
theorem names_alter_object (name : String) (object : Object) (hs : List (Holding n)) :
    names (alter name (fun h => { h with object }) hs) = names hs := by
  induction hs with
  | nil => rfl
  | cons h hs ih =>
    by_cases owned : h.owns name
    · simp only [alter, owned, if_true, names_cons]
    · simp only [alter, owned, Bool.false_eq_true, if_false, names_cons, ih]

theorem mem_alter {name : String} {f : Holding n → Holding n} {hs : List (Holding n)}
    {k : Holding n} (mem : k ∈ alter name f hs) : k ∈ hs ∨ ∃ h ∈ hs, k = f h := by
  induction hs with
  | nil => simp [alter] at mem
  | cons h hs ih =>
    by_cases owned : h.owns name
    · simp only [alter, owned, if_true] at mem
      rcases List.mem_cons.1 mem with rfl | mem
      · exact .inr ⟨h, List.mem_cons_self, rfl⟩
      · exact .inl (List.mem_cons_of_mem h mem)
    · simp only [alter, owned, Bool.false_eq_true, if_false] at mem
      rcases List.mem_cons.1 mem with rfl | mem
      · exact .inl List.mem_cons_self
      · rcases ih mem with same | ⟨k', old, rfl⟩
        · exact .inl (List.mem_cons_of_mem h same)
        · exact .inr ⟨k', List.mem_cons_of_mem h old, rfl⟩

theorem Owned.alter_object {hs : List (Holding n)} (owned : Owned hs) (name : String)
    (object : Object) : Owned (alter name (fun h => { h with object }) hs) := by
  refine ⟨by rw [names_alter_object]; exact owned.nodup, ?_⟩
  intro k mem
  rcases mem_alter mem with same | ⟨h, old, rfl⟩
  · exact owned.owners_ne_nil k same
  · exact owned.owners_ne_nil h old

/-- One more owner is one more name, or none if there is nothing to own. -/
theorem names_alter_owner (name other : String) (hs : List (Holding n)) :
    (names (alter name (fun h => { h with owners := other :: h.owners }) hs)).Perm
        (other :: names hs) ∨
      names (alter name (fun h => { h with owners := other :: h.owners }) hs) = names hs := by
  induction hs with
  | nil => exact .inr rfl
  | cons h hs ih =>
    by_cases owned : h.owns name
    · simp only [alter, owned, if_true, names_cons]
      exact .inl (List.Perm.refl _)
    · simp only [alter, owned, Bool.false_eq_true, if_false, names_cons]
      rcases ih with perm | same
      · exact .inl ((perm.append_left h.owners).trans List.perm_middle)
      · exact .inr (by rw [same])

theorem Owned.alter_owner {hs : List (Holding n)} (owned : Owned hs) {other : String}
    (new : other ∉ names hs) (name : String) :
    Owned (alter name (fun h => { h with owners := other :: h.owners }) hs) := by
  constructor
  · rcases names_alter_owner name other hs with perm | same
    · exact perm.nodup_iff.2 (List.nodup_cons.2 ⟨new, owned.nodup⟩)
    · rw [same]
      exact owned.nodup
  · intro k mem
    rcases mem_alter mem with same | ⟨h, -, rfl⟩
    · exact owned.owners_ne_nil k same
    · simp

theorem Owned.append {hs : List (Holding n)} (owned : Owned hs) {name : String}
    (new : name ∉ names hs) (object : Object) (arena : Fin n) :
    Owned (hs ++ [⟨[name], object, arena⟩]) := by
  constructor
  · rw [names_append]
    exact List.nodup_append.2 ⟨owned.nodup, by simp [names], by
      intro a mem b last
      rw [List.mem_singleton.1 (by simpa [names] using last : b ∈ [name])]
      rintro rfl
      exact new mem⟩
  · intro k mem
    rcases List.mem_append.1 mem with mem | mem
    · exact owned.owners_ne_nil k mem
    · rw [List.mem_singleton.1 mem]
      simp

end Holding

namespace Session

variable {n : Nat}

/-- The bytes an object holds in each arena when it is kept in one of them. -/
def holds (object : Object) (arena : Fin (n + 1)) (a : Fin (n + 1)) : Nat :=
  if arena = a then object.bytes else 0

theorem bytesIn_eq (owners : List String) (object : Object) (arena a : Fin (n + 1)) :
    Holding.bytesIn a ⟨owners, object, arena⟩ = holds object arena a := rfl

/-- Each arena, of the room it was given, accounts for what the session's objects hold in it and for
the bytes that stand `aside`. -/
def Balanced (room : Fin (n + 1) → Option Nat) (aside : Fin (n + 1) → Nat) (s : Session n) : Prop :=
  ∀ a : Fin (n + 1), (s.arenas.get a).Accounts (room a) (aside a + s.heldIn a)

/-- What every operation keeps. -/
structure Kept (room : Fin (n + 1) → Option Nat) (s : Session n) : Prop where
  balanced : s.Balanced room (fun _ => 0)
  owned : Holding.Owned s.holdings

@[simp] theorem heldIn_settle (s : Session n) (a b : Fin (n + 1)) (l : Ledger) :
    (s.settle a l).heldIn b = s.heldIn b := rfl

theorem arenas_settle (s : Session n) (a b : Fin (n + 1)) (l : Ledger) :
    (s.settle a l).arenas.get b = if a = b then l.arena else s.arenas.get b := by
  change (s.arenas.set a l.arena)[b] = if a = b then l.arena else s.arenas[b]
  simp only [Fin.getElem_fin, Vector.getElem_set, Fin.ext_iff]

section

variable {room : Fin (n + 1) → Option Nat} {aside : Fin (n + 1) → Nat} {s : Session n}

/-- A ledger that accounts for some bytes more is taken back with these standing aside. -/
theorem Balanced.settle (balanced : s.Balanced room aside) {a : Fin (n + 1)} {l : Ledger}
    {more : Fin (n + 1) → Nat} (elsewhere : ∀ b, a ≠ b → more b = aside b)
    (acc : l.arena.Accounts (room a) (more a + s.heldIn a)) :
    (s.settle a l).Balanced room more := by
  intro b
  rw [arenas_settle]
  split
  · rename_i same
    subst same
    exact acc
  · rename_i other
    rw [elsewhere b other]
    exact balanced b

/-- Bytes that an object in its place holds more or less are set against those that stand aside. -/
theorem Balanced.update (balanced : s.Balanced room aside) {name : String} {h : Holding (n + 1)}
    (found : s.find? name = some h) (object : Object) {more : Fin (n + 1) → Nat}
    (moved : ∀ a, more a + holds object h.arena a = aside a + h.bytesIn a) :
    (s.update name object).Balanced room more := by
  intro a
  have total := heldIn_update found object a
  have moved := moved a
  have same : more a + (s.update name object).heldIn a = aside a + s.heldIn a := by
    have placed : Holding.bytesIn a ({ h with object } : Holding (n + 1)) =
      holds object h.arena a := rfl
    rw [placed] at total
    omega
  rw [same]
  exact balanced a

/-- Letting go of a name gives back what nobody owns any more. -/
theorem Balanced.release (balanced : s.Balanced room aside) (name : String) :
    (s.release name).Balanced room aside := by
  intro a
  have total := Holding.total_leave a name s.holdings
  unfold Session.release
  rcases left : Holding.leave name s.holdings with ⟨_ | gone, holdings⟩
  · rw [left] at total
    have same : s.heldIn a = Holding.total a holdings := by simpa [heldIn] using total.symm
    have acc := balanced a
    rw [same] at acc
    exact acc
  · rw [left] at total
    simp only [Option.map_some, Option.getD_some] at total
    change Arena.Accounts ((s.settle gone.arena _).arenas.get a) (room a)
      (aside a + Holding.total a holdings)
    rw [arenas_settle]
    have acc := balanced a
    split
    · rename_i here
      subst here
      apply Object.drop_accounts
      rw [Holding.bytesIn, if_pos rfl] at total
      have all : aside gone.arena + Holding.total gone.arena holdings + gone.object.bytes =
          aside gone.arena + s.heldIn gone.arena := by
        rw [Nat.add_assoc, total]
        rfl
      rw [all]
      exact acc
    · rename_i elsewhere
      rw [Holding.bytesIn, if_neg elsewhere, Nat.add_zero] at total
      rw [total]
      exact acc

end

end Session

end TypedColumns
