import TypedColumns.Proofs.Handle.History

/-!
# Sharing a bounded arena

Any number of reservations may share one bounded arena. Each of their operations reaches the arena
at most once, so that however they interleave, what happens is a list of requests, one after the
other (`Pool.run`).

The counter of the arena and the sizes of the reservations are numbers of 64 bits, and neither
`Reservation.grow` nor `Ledger.refund` looks out for their range. `Pool.Served` says that nothing
ever wraps around all the same: the pool changes by plain addition and subtraction, and each of
these has room. What carries this is that the sizes of all reservations together are the bytes in
use, which the arena keeps within its capacity.
-/

namespace TypedColumns

/-- The ledger with another number of bytes in use. -/
def Ledger.holding (l : Ledger) (used : Nat) : Ledger :=
  { l with arena := { l.arena with allocated := used } }

section Bounded

variable {l : Ledger} {r : Reservation} {capacity n : Nat}

/-- Giving back what is in use is plain subtraction. -/
theorem Ledger.refund_eq (own : n ≤ l.arena.allocated) (range : l.arena.allocated < counterRange) :
    l.refund n = l.holding (l.arena.allocated - n) := by
  have plain := Arena.shrink_allocated own range
  rw [Arena.shrink] at plain
  rw [refund, Arena.shrink, holding]
  exact congrArg (fun used => { l with arena := { l.arena with allocated := used } }) plain

namespace Reservation

/-- A request that fits is plain addition, in the arena as well as in the reservation. -/
theorem grow_of_fits (bounded : l.arena.capacity = some capacity) (range : capacity < counterRange)
    (own : r.size ≤ l.arena.allocated) (fits : l.arena.allocated + n ≤ capacity) :
    r.grow n l = (.ok ⟨r.size + n⟩, l.holding (l.arena.allocated + n)) := by
  have admitted : l.arena.grow n = .ok { l.arena with allocated := l.arena.allocated + n } := by
    rw [Arena.grow_bounded bounded range, if_pos fits]
  have shown : r.size + n < counterRange := by omega
  rw [r.grow_of_arena admitted, Nat.mod_eq_of_lt shown]
  rfl

theorem grow_of_exceeds (bounded : l.arena.capacity = some capacity)
    (range : capacity < counterRange) (exceeds : capacity < l.arena.allocated + n) :
    r.grow n l = (.error ⟨n, l.arena.allocated, capacity⟩,
      l.report (.refused ⟨n, l.arena.allocated, capacity⟩)) := by
  apply r.grow_of_refusal
  rw [Arena.grow_bounded bounded range, if_neg (Nat.not_le_of_lt exceeds)]

end Reservation

end Bounded

/-- Reservations in one arena. -/
structure Pool where
  ledger : Ledger
  owners : List Reservation

namespace Pool

inductive Request
  /-- A reservation that holds nothing yet. -/
  | begin
  | acquire (size : Nat)
  | grow (owner bytes : Nat)
  | resize (owner size : Nat)
  | drop (owner : Nat)

/-- Changes the size of one reservation; a request of nobody changes nothing. -/
def adjust (p : Pool) (owner : Nat)
    (change : Reservation → Ledger → Except Refusal Reservation × Ledger) :
    Except CellError Unit × Pool :=
  match p.owners[owner]? with
  | none => (.ok (), p)
  | some r =>
    match change r p.ledger with
    | (.ok r, ledger) => (.ok (), ⟨ledger, p.owners.set owner r⟩)
    | (.error refusal, ledger) => (.error (.allocation refusal), ⟨ledger, p.owners⟩)

/-- Serves one request. -/
def step (p : Pool) : Request → Except CellError Unit × Pool
  | .begin => (.ok (), ⟨p.ledger, p.owners ++ [.empty]⟩)
  | .acquire size =>
    match Reservation.acquire size p.ledger with
    | (.ok r, ledger) => (.ok (), ⟨ledger, p.owners ++ [r]⟩)
    | (.error refusal, ledger) => (.error (.allocation refusal), ⟨ledger, p.owners⟩)
  | .grow owner bytes => p.adjust owner (·.grow bytes ·)
  | .resize owner size => p.adjust owner (·.resize size ·)
  | .drop owner =>
    match p.owners[owner]? with
    | none => (.ok (), p)
    | some r => (.ok (), ⟨r.release p.ledger, p.owners.eraseIdx owner⟩)

/-- Serves requests in order. -/
def run (requests : List Request) (p : Pool) : Pool :=
  requests.foldl (fun p request => (p.step request).2) p

/-- Nobody holds anything in a new arena. -/
def start (capacity : Nat) : Pool := ⟨.opened (.bounded capacity), []⟩

/-- The bytes in use in the arena. -/
def allocated (p : Pool) : Nat := p.ledger.arena.allocated

/-- The bytes that all reservations hold. -/
def held (p : Pool) : Nat := sumOf Reservation.size p.owners

/-- How many bytes a request asks for on top of what its owner holds. -/
def demand (p : Pool) : Request → Nat
  | .begin => 0
  | .acquire size => size
  | .grow owner bytes => if p.owners[owner]?.isSome then bytes else 0
  | .resize owner size =>
    match p.owners[owner]? with
    | none => 0
    | some r => size - r.size
  | .drop _ => 0

/-- A bounded arena accounts for the reservations. -/
structure Accounted (limit : Nat) (p : Pool) : Prop where
  capacity : p.ledger.arena.capacity = some limit
  range : limit < counterRange
  allocated : p.allocated = p.held
  within : p.allocated ≤ limit

/-- What the requests of a pool come to, in plain arithmetic. -/
structure Served (limit : Nat) (p : Pool) : Prop where
  allocated : p.allocated = p.held
  within : p.allocated ≤ limit
  /-- A request is admitted just if it fits on top of what is in use. -/
  admitted_iff : ∀ request, (p.step request).1 = .ok () ↔ p.allocated + p.demand request ≤ limit
  /-- A refusal says what was asked for and what is in use, and leaves both as they were. -/
  refused : ∀ request e, (p.step request).1 = .error e →
    (e = .allocation ⟨p.demand request, p.allocated, limit⟩ ∧ e.kind = .allocationFailed) ∧
      (p.step request).2.ledger.arena = p.ledger.arena ∧ (p.step request).2.owners = p.owners
  begin : p.step .begin = (.ok (), ⟨p.ledger, p.owners ++ [⟨0⟩]⟩)
  acquire : ∀ size, p.allocated + size ≤ limit → p.step (.acquire size) =
    (.ok (), ⟨p.ledger.holding (p.allocated + size), p.owners ++ [⟨size⟩]⟩)
  grow : ∀ owner (r : Reservation) bytes, p.owners[owner]? = some r → p.allocated + bytes ≤ limit →
    p.step (.grow owner bytes) =
      (.ok (), ⟨p.ledger.holding (p.allocated + bytes), p.owners.set owner ⟨r.size + bytes⟩⟩)
  enlarge : ∀ owner (r : Reservation) size, p.owners[owner]? = some r → r.size < size →
    p.allocated + (size - r.size) ≤ limit → p.step (.resize owner size) =
      (.ok (), ⟨p.ledger.holding (p.allocated + (size - r.size)), p.owners.set owner ⟨size⟩⟩)
  reduce : ∀ owner (r : Reservation) size, p.owners[owner]? = some r → size ≤ r.size →
    p.step (.resize owner size) =
      (.ok (), ⟨p.ledger.holding (p.allocated - (r.size - size)), p.owners.set owner ⟨size⟩⟩)
  drop : ∀ owner (r : Reservation), p.owners[owner]? = some r → p.step (.drop owner) =
    (.ok (), ⟨p.ledger.holding (p.allocated - r.size), p.owners.eraseIdx owner⟩)
  /-- No subtraction goes below zero: what a reservation gives back is in use. -/
  own : ∀ (owner : Nat) (r : Reservation), p.owners[owner]? = some r → r.size ≤ p.allocated
  /-- No addition goes beyond the counter, neither in the arena nor in a reservation. -/
  shown : ∀ (owner : Nat) (r : Reservation) bytes, p.owners[owner]? = some r →
    p.allocated + bytes ≤ limit → p.allocated + bytes < counterRange ∧ r.size + bytes < counterRange

namespace Accounted

variable {limit : Nat} {p : Pool} {owner : Nat} {r : Reservation}

theorem own (acc : p.Accounted limit) (here : p.owners[owner]? = some r) :
    r.size ≤ p.allocated := by
  rw [acc.allocated]
  exact le_sumOf here

/-! ### One request -/

theorem acquire (acc : p.Accounted limit) {size : Nat} (fits : p.allocated + size ≤ limit) :
    p.step (.acquire size) =
      (.ok (), ⟨p.ledger.holding (p.allocated + size), p.owners ++ [⟨size⟩]⟩) := by
  have acquired : Reservation.acquire size p.ledger =
      (.ok ⟨size⟩, p.ledger.holding (p.allocated + size)) := by
    rw [Reservation.acquire, Reservation.resize]
    split
    · have grown := Reservation.grow_of_fits (r := .empty) acc.capacity acc.range
        (Nat.zero_le _) fits
      rw [Reservation.empty, Nat.zero_add] at grown
      exact grown
    · next none =>
      obtain rfl : size = 0 := Nat.eq_zero_of_not_pos none
      have range : p.allocated < counterRange := Nat.lt_of_le_of_lt acc.within acc.range
      have refunded : p.ledger.refund 0 = p.ledger.holding (p.allocated + 0) :=
        Ledger.refund_eq (Nat.zero_le _) range
      exact congrArg (fun ledger => (Except.ok (Reservation.mk 0), ledger)) refunded
  simp only [step, acquired]

theorem acquire_refused (acc : p.Accounted limit) {size : Nat}
    (exceeds : limit < p.allocated + size) :
    p.step (.acquire size) = (.error (.allocation ⟨size, p.allocated, limit⟩),
      ⟨p.ledger.report (.refused ⟨size, p.allocated, limit⟩), p.owners⟩) := by
  have some : 0 < size := by
    have within := acc.within
    omega
  have refused := Reservation.grow_of_exceeds (r := .empty) acc.capacity acc.range exceeds
  have acquired : Reservation.acquire size p.ledger = Reservation.empty.grow size p.ledger :=
    if_pos some
  simp only [step, acquired, refused]
  rfl

theorem grow (acc : p.Accounted limit) {bytes : Nat} (here : p.owners[owner]? = some r)
    (fits : p.allocated + bytes ≤ limit) :
    p.step (.grow owner bytes) =
      (.ok (), ⟨p.ledger.holding (p.allocated + bytes), p.owners.set owner ⟨r.size + bytes⟩⟩) := by
  have grown := Reservation.grow_of_fits acc.capacity acc.range (acc.own here) fits
  simp only [step, adjust, here, grown]
  rfl

theorem grow_refused (acc : p.Accounted limit) {bytes : Nat} (here : p.owners[owner]? = some r)
    (exceeds : limit < p.allocated + bytes) :
    p.step (.grow owner bytes) = (.error (.allocation ⟨bytes, p.allocated, limit⟩),
      ⟨p.ledger.report (.refused ⟨bytes, p.allocated, limit⟩), p.owners⟩) := by
  have refused := Reservation.grow_of_exceeds (r := r) acc.capacity acc.range exceeds
  simp only [step, adjust, here, refused]
  rfl

/-- To enlarge a reservation is to let it grow by the difference. -/
theorem resize_eq_grow {size : Nat} (here : p.owners[owner]? = some r) (more : r.size < size) :
    p.step (.resize owner size) = p.step (.grow owner (size - r.size)) := by
  simp only [step, adjust, here, Reservation.resize, if_pos more]

theorem enlarge (acc : p.Accounted limit) {size : Nat} (here : p.owners[owner]? = some r)
    (more : r.size < size) (fits : p.allocated + (size - r.size) ≤ limit) :
    p.step (.resize owner size) =
      (.ok (), ⟨p.ledger.holding (p.allocated + (size - r.size)), p.owners.set owner ⟨size⟩⟩) := by
  have sum : r.size + (size - r.size) = size := Nat.add_sub_cancel' (Nat.le_of_lt more)
  rw [resize_eq_grow here more, acc.grow here fits, sum]

theorem reduce (acc : p.Accounted limit) {size : Nat} (here : p.owners[owner]? = some r)
    (less : size ≤ r.size) :
    p.step (.resize owner size) =
      (.ok (), ⟨p.ledger.holding (p.allocated - (r.size - size)),
        p.owners.set owner ⟨size⟩⟩) := by
  have own : r.size - size ≤ p.allocated := Nat.le_trans (Nat.sub_le _ _) (acc.own here)
  have range : p.allocated < counterRange := Nat.lt_of_le_of_lt acc.within acc.range
  have refunded := Ledger.refund_eq own range
  simp only [step, adjust, here, Reservation.resize, if_neg (Nat.not_lt_of_le less), refunded]
  rfl

theorem drop (acc : p.Accounted limit) (here : p.owners[owner]? = some r) :
    p.step (.drop owner) =
      (.ok (), ⟨p.ledger.holding (p.allocated - r.size), p.owners.eraseIdx owner⟩) := by
  have range : p.allocated < counterRange := Nat.lt_of_le_of_lt acc.within acc.range
  have released : r.release p.ledger = p.ledger.holding (p.allocated - r.size) := by
    rw [Reservation.release]
    split
    · exact Ledger.refund_eq (acc.own here) range
    · next none =>
      rw [Nat.eq_zero_of_not_pos none]
      rfl
  simp only [step, here, released]

/-! ### Any request -/

/-- What a request that fits leaves: some reservations, and the bytes they hold are in use. -/
theorem step_of_fits (acc : p.Accounted limit) {request : Request}
    (fits : p.allocated + p.demand request ≤ limit) :
    ∃ owners, p.step request = (.ok (), ⟨p.ledger.holding (sumOf Reservation.size owners), owners⟩)
      ∧ sumOf Reservation.size owners ≤ limit := by
  have total : p.allocated = sumOf Reservation.size p.owners := acc.allocated
  have within := acc.within
  -- A request of nobody leaves everything as it is.
  have nobody (unchanged : p.step request = (.ok (), p)) : ∃ owners, p.step request =
      (.ok (), ⟨p.ledger.holding (sumOf Reservation.size owners), owners⟩)
      ∧ sumOf Reservation.size owners ≤ limit := by
    refine ⟨p.owners, ?_, total ▸ within⟩
    rw [unchanged, ← total]
    rfl
  cases request with
  | begin =>
    have kept : sumOf Reservation.size (p.owners ++ [.empty]) = p.allocated := by
      simp [total, Reservation.empty]
    exact ⟨_, kept ▸ rfl, kept ▸ within⟩
  | acquire size =>
    have sum : sumOf Reservation.size (p.owners ++ [⟨size⟩]) = p.allocated + size := by
      simp [total]
    exact ⟨_, sum ▸ acc.acquire fits, sum ▸ fits⟩
  | grow owner bytes =>
    cases here : p.owners[owner]? with
    | none => exact nobody (by simp only [step, adjust, here])
    | some r =>
      simp only [demand, here, Option.isSome_some, if_true] at fits
      have sum : sumOf Reservation.size (p.owners.set owner ⟨r.size + bytes⟩) =
          p.allocated + bytes := by
        have changed : _ + r.size = _ + (r.size + bytes) :=
          sumOf_set (f := Reservation.size) here ⟨r.size + bytes⟩
        omega
      exact ⟨_, sum ▸ acc.grow here fits, sum ▸ fits⟩
  | resize owner size =>
    cases here : p.owners[owner]? with
    | none => exact nobody (by simp only [step, adjust, here])
    | some r =>
      simp only [demand, here] at fits
      have changed : _ + r.size = _ + size := sumOf_set (f := Reservation.size) here ⟨size⟩
      have own := acc.own here
      by_cases more : r.size < size
      · have sum : sumOf Reservation.size (p.owners.set owner ⟨size⟩) =
            p.allocated + (size - r.size) := by
          omega
        exact ⟨_, sum ▸ acc.enlarge here more fits, sum ▸ fits⟩
      · have sum : sumOf Reservation.size (p.owners.set owner ⟨size⟩) =
            p.allocated - (r.size - size) := by
          omega
        exact ⟨_, sum ▸ acc.reduce here (Nat.le_of_not_lt more),
          sum ▸ Nat.le_trans (Nat.sub_le _ _) within⟩
  | drop owner =>
    cases here : p.owners[owner]? with
    | none => exact nobody (by simp only [step, here])
    | some r =>
      have sum : sumOf Reservation.size (p.owners.eraseIdx owner) = p.allocated - r.size := by
        have removed := sumOf_eraseIdx (f := Reservation.size) here
        omega
      exact ⟨_, sum ▸ acc.drop here, sum ▸ Nat.le_trans (Nat.sub_le _ _) within⟩

/-- What a request that does not fit leaves: the arena and the reservations as they were. -/
theorem step_of_exceeds (acc : p.Accounted limit) {request : Request}
    (exceeds : limit < p.allocated + p.demand request) :
    p.step request = (.error (.allocation ⟨p.demand request, p.allocated, limit⟩),
      ⟨p.ledger.report (.refused ⟨p.demand request, p.allocated, limit⟩), p.owners⟩) := by
  have within := acc.within
  -- A request of nobody asks for nothing, which always fits.
  have spare (nothing : p.demand request = 0) : False := by omega
  cases request with
  | begin => exact (spare rfl).elim
  | acquire size => exact acc.acquire_refused exceeds
  | grow owner bytes =>
    cases here : p.owners[owner]? with
    | none => exact (spare (by simp [demand, here])).elim
    | some r =>
      simp only [demand, here, Option.isSome_some, if_true] at exceeds ⊢
      exact acc.grow_refused here exceeds
  | resize owner size =>
    cases here : p.owners[owner]? with
    | none => exact (spare (by simp [demand, here])).elim
    | some r =>
      simp only [demand, here] at exceeds ⊢
      have more : r.size < size := by omega
      rw [resize_eq_grow here more]
      exact acc.grow_refused here exceeds
  | drop owner => exact (spare rfl).elim

theorem step (acc : p.Accounted limit) (request : Request) :
    (p.step request).2.Accounted limit := by
  by_cases fits : p.allocated + p.demand request ≤ limit
  · obtain ⟨owners, served, within⟩ := acc.step_of_fits fits
    rw [served]
    exact ⟨acc.capacity, acc.range, rfl, within⟩
  · rw [acc.step_of_exceeds (Nat.lt_of_not_le fits)]
    exact ⟨acc.capacity, acc.range, acc.allocated, acc.within⟩

theorem run (acc : p.Accounted limit) (requests : List Request) :
    (Pool.run requests p).Accounted limit := by
  induction requests generalizing p with
  | nil => exact acc
  | cons request requests ih => exact ih (acc.step request)

theorem served (acc : p.Accounted limit) : p.Served limit := by
  have admitted {request : Request} (fits : p.allocated + p.demand request ≤ limit) :
      (p.step request).1 = .ok () := by
    obtain ⟨owners, served, -⟩ := acc.step_of_fits fits
    rw [served]
  refine ⟨acc.allocated, acc.within, fun request => ⟨fun ok => ?_, admitted⟩,
    fun request e refused => ?_, rfl, fun _ => acc.acquire, fun _ _ _ => acc.grow,
    fun _ _ _ => acc.enlarge, fun _ _ _ => acc.reduce, fun _ _ => acc.drop, fun _ _ => acc.own,
    fun owner r bytes here fits => ?_⟩
  · refine Nat.le_of_not_lt fun exceeds => ?_
    rw [acc.step_of_exceeds exceeds] at ok
    cases ok
  · by_cases fits : p.allocated + p.demand request ≤ limit
    · rw [admitted fits] at refused
      cases refused
    · rw [acc.step_of_exceeds (Nat.lt_of_not_le fits)] at refused ⊢
      cases refused
      exact ⟨⟨rfl, rfl⟩, rfl, rfl⟩
  · have own := acc.own here
    have range := acc.range
    omega

end Accounted

theorem accounted_start {limit : Nat} (range : limit < counterRange) :
    (start limit).Accounted limit :=
  ⟨rfl, range, rfl, Nat.zero_le _⟩

/-- However reservations share an arena, their requests are served in plain arithmetic. -/
theorem served_of_run {limit : Nat} (range : limit < counterRange) (requests : List Request) :
    (run requests (start limit)).Served limit :=
  ((accounted_start range).run requests).served

/-- Two reservations in an arena of 100 bytes; the requests for 41 and 50 bytes more are refused. -/
theorem served_hundred :
    (run [.acquire 60, .acquire 41, .grow 0 50, .grow 0 40, .begin, .resize 0 30]
      (start 100)).Served 100 ∧
    (run [.acquire 60, .acquire 41, .grow 0 50, .grow 0 40, .begin, .resize 0 30]
      (start 100)).owners = [⟨30⟩, ⟨0⟩] :=
  ⟨served_of_run (by decide) _, by decide⟩

end Pool

end TypedColumns
