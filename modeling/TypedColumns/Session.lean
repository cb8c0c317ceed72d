import TypedColumns.Holding

/-!
# Sessions

A session runs operations on objects that it keeps under names, in arenas of its own: the given
ones and after them a default one, which counts and never refuses. `Session.run` runs one operation.
It answers with what the operation gave, or with a fault, and the session goes on either way.

An operation that makes an object under a name first makes it and only then drops what the name
held. So the arena has room for both for a moment, and the answer shows the arena at that moment.
An operation that fails leaves the name alone.
-/

namespace TypedColumns

structure Session (n : Nat) where
  /-- The default arena comes last. -/
  arenas : Vector Arena (n + 1)
  holdings : List (Holding (n + 1))
  /-- All that has been reported so far. -/
  events : List Event

namespace Session

variable {n : Nat}

/-- Why an operation gave nothing. -/
inductive Fault
  /-- The name holds no object of the kind that the operation is for. -/
  | noObject (name : String)
  | cell (error : CellError)
  deriving DecidableEq

/-- What an operation gave. -/
inductive Outcome
  | done
  /-- A new object, and its arena before the object that had the name is dropped. -/
  | made (object : Object) (arena : Arena)
  | appended (handle : Handle) (result : Except CellError Unit)
  | finalized (handle : Handle) (result : Except CellError (HeldColumn × Arena))
  | sized (size : Nat)
  | parts (name : String) (buffer : Bytes)

/-- What operations answer. -/
abbrev Answer (n : Nat) : Type := Except Fault Outcome × Session n

/-- Nothing is held, neither in the given arenas nor in the default one. -/
def start (arenas : Vector Arena n) : Session n := ⟨arenas.push .tracking, [], []⟩

/-- The arena of those who name none. -/
def defaultArena : Fin (n + 1) := Fin.last n

def find? (s : Session n) (name : String) : Option (Holding (n + 1)) :=
  Holding.find? name s.holdings

/-- The bytes that all objects hold in an arena. -/
def heldIn (s : Session n) (a : Fin (n + 1)) : Nat := Holding.total a s.holdings

/-- An arena, with nothing reported on it yet. -/
def ledger (s : Session n) (a : Fin (n + 1)) : Ledger := .opened s.arenas[a]

/-- Takes an arena back with what has been reported on it. -/
def settle (s : Session n) (a : Fin (n + 1)) (l : Ledger) : Session n :=
  { s with arenas := s.arenas.set a l.arena, events := s.events ++ l.events }

/-- Puts another object in the place of the one that the name holds. -/
def update (s : Session n) (name : String) (object : Object) : Session n :=
  { s with holdings := Holding.alter name (fun h => { h with object }) s.holdings }

/-- Lets go of what the name holds. The last owner drops the object. -/
def release (s : Session n) (name : String) : Session n :=
  match Holding.leave name s.holdings with
  | (none, holdings) => { s with holdings }
  | (some gone, holdings) =>
    { s.settle gone.arena (gone.object.drop (s.ledger gone.arena)) with holdings }

/-- Keeps a new object under a name. -/
def keep (s : Session n) (name : String) (object : Object) (arena : Fin (n + 1)) : Session n :=
  let s := s.release name
  { s with holdings := s.holdings ++ [⟨[name], object, arena⟩] }

/-- Makes a name one more owner of what another name holds. -/
def share (s : Session n) (name other : String) : Session n :=
  if other = name then s
  else
    let s := s.release other
    { s with holdings :=
        Holding.alter name (fun h => { h with owners := other :: h.owners }) s.holdings }

/-- Putting another object in its place changes what one holding holds. -/
theorem heldIn_update {s : Session n} {name : String} {h : Holding (n + 1)}
    (found : s.find? name = some h) (object : Object) (a : Fin (n + 1)) :
    (s.update name object).heldIn a + h.bytesIn a =
      s.heldIn a + Holding.bytesIn a { h with object } :=
  Holding.total_alter a _ found

/-- A kept object adds what it holds to what is left after its name was let go. -/
theorem heldIn_keep (s : Session n) (name : String) (object : Object) (arena a : Fin (n + 1)) :
    (s.keep name object arena).heldIn a =
      (s.release name).heldIn a + Holding.bytesIn a ⟨[name], object, arena⟩ := by
  simp [keep, heldIn]

/-- Keeps a new object, or passes on why there is none. -/
def make (s : Session n) (name : String) (a : Fin (n + 1))
    (result : Except CellError Object × Ledger) : Answer n :=
  match result with
  | (.error e, l) => (.error (.cell e), s.settle a l)
  | (.ok object, l) => (.ok (.made object l.arena), (s.settle a l).keep name object a)

/-- The objects of a result. -/
def asObject {α : Type} (f : α → Object) :
    Except CellError α × Ledger → Except CellError Object × Ledger :=
  Prod.map (Except.map f) id

/-! ## Handles -/

section

variable {α : Type} [Footprint α]

def acquire (s : Session n) (codec : Codec α) (capacity : Nat) (arena : Option (Fin (n + 1)))
    (target : String) : Answer n :=
  match Handle.acquire codec capacity (arena.map s.ledger) with
  | .error e => (.error (.cell e), s)
  | .ok (h, l) => s.make target (arena.getD defaultArena) (.ok (.handle h), l)

def append (s : Session n) (codec : Codec α) (batch : Batch α) (name : String) : Answer n :=
  match s.find? name with
  | some ⟨_, .handle h, a⟩ =>
    let (result, h, l) := h.append codec batch (s.ledger a)
    (.ok (.appended h result), (s.settle a l).update name (.handle h))
  | _ => (.error (.noObject name), s)

def appendNull (s : Session n) (codec : Codec α) (name : String) : Answer n :=
  match s.find? name with
  | some ⟨_, .handle h, _⟩ =>
    let (result, h) := h.appendNull codec
    (.ok (.appended h result), s.update name (.handle h))
  | _ => (.error (.noObject name), s)

def encode (s : Session n) (codec : Codec α) (batch : Batch α) (a : Fin (n + 1)) (target : String) :
    Answer n :=
  s.make target a (asObject .column (Encoder.encode codec batch (s.ledger a)))

def toCell (s : Session n) (codec : Codec α) (batch : Batch α) (options : CellOptions)
    (a : Fin (n + 1)) (target : String) : Answer n :=
  s.make target a (asObject .cell (Encoder.toCell codec batch options (s.ledger a)))

end

def finalize (s : Session n) (name target : String) : Answer n :=
  match s.find? name with
  | some ⟨_, .handle h, a⟩ =>
    let (result, h, l) := h.finalize (s.ledger a)
    let s := (s.settle a l).update name (.handle h)
    match result with
    | .error e => (.ok (.finalized h (.error e)), s)
    | .ok column => (.ok (.finalized h (.ok (column, l.arena))), s.keep target (.column column) a)
  | _ => (.error (.noObject name), s)

/-! ## Columns and cells -/

/-- The cell is accounted for in the arena of the column. -/
def wrap (s : Session n) (d : Descriptor) (options : CellOptions) (name target : String) :
    Answer n :=
  match s.find? name with
  | some ⟨_, .column c, a⟩ => s.make target a (asObject .cell (Cell.wrap d c options (s.ledger a)))
  | _ => (.error (.noObject name), s)

/-- A copy of a column or a cell shares what that holds. -/
def clone (s : Session n) (name target : String) : Answer n :=
  match s.find? name with
  | some ⟨_, .column c, a⟩ => (.ok (.made (.column c) s.arenas[a]), s.share name target)
  | some ⟨_, .cell c, a⟩ => (.ok (.made (.cell c) s.arenas[a]), s.share name target)
  | _ => (.error (.noObject name), s)

/-- Takes the plain column out of a finished one, and gives up the share in what that holds. -/
def intoPlain (s : Session n) (name target : String) : Answer n :=
  match s.find? name with
  | some ⟨_, .column c, a⟩ =>
    let s := s.release name
    s.make target a (.ok (.plain c.column), s.ledger a)
  | _ => (.error (.noObject name), s)

/-- Takes a cell apart, and gives up the share in what that holds. -/
def intoParts (s : Session n) (name : String) : Answer n :=
  match s.find? name with
  | some ⟨_, .cell c, _⟩ => (.ok (.parts c.name c.buffer), s.release name)
  | _ => (.error (.noObject name), s)

def ofParts (s : Session n) (name : String) (buffer : Bytes) (target : String) : Answer n :=
  s.make target defaultArena (.ok (.cell (.ofParts name buffer)), s.ledger defaultArena)

/-! ## Reservations and arenas -/

/-- The outcome of a request for room. -/
def admitted {α : Type} : Except Refusal α × Ledger → Except CellError α × Ledger :=
  Prod.map (Except.mapError .allocation) id

def reserve (s : Session n) (size : Nat) (a : Fin (n + 1)) (target : String) : Answer n :=
  s.make target a (asObject .reservation (admitted (Reservation.acquire size (s.ledger a))))

/-- Changes the size of a reservation. -/
def adjust (s : Session n) (name : String)
    (change : Reservation → Ledger → Except Refusal Reservation × Ledger) : Answer n :=
  match s.find? name with
  | some ⟨_, .reservation r, a⟩ =>
    match admitted (change r (s.ledger a)) with
    | (.error e, l) => (.error (.cell e), s.settle a l)
    | (.ok r, l) => (.ok (.sized r.size), (s.settle a l).update name (.reservation r))
  | _ => (.error (.noObject name), s)

def grow (s : Session n) (bytes : Nat) (name : String) : Answer n :=
  s.adjust name (·.grow bytes ·)

def resize (s : Session n) (size : Nat) (name : String) : Answer n :=
  s.adjust name (·.resize size ·)

/-- Takes bytes of an arena for nobody. -/
def growArena (s : Session n) (bytes : Nat) (a : Fin (n + 1)) : Answer n :=
  match admitted ((s.ledger a).charge bytes) with
  | (.error e, l) => (.error (.cell e), s.settle a l)
  | (.ok (), l) => (.ok .done, s.settle a l)

/-- Gives bytes back to an arena for nobody. -/
def shrinkArena (s : Session n) (bytes : Nat) (a : Fin (n + 1)) : Answer n :=
  (.ok .done, s.settle a ((s.ledger a).refund bytes))

def drop (s : Session n) (name : String) : Answer n :=
  match s.find? name with
  | some _ => (.ok .done, s.release name)
  | none => (.error (.noObject name), s)

/-! ## Operations -/

inductive Op (n : Nat) : Type 1
  | acquire {α : Type} [Footprint α] (codec : Codec α) (capacity : Nat)
      (arena : Option (Fin (n + 1))) (target : String)
  | append {α : Type} [Footprint α] (codec : Codec α) (batch : Batch α) (name : String)
  | appendNull {α : Type} [Footprint α] (codec : Codec α) (name : String)
  | finalize (name target : String)
  | encode {α : Type} [Footprint α] (codec : Codec α) (batch : Batch α) (arena : Fin (n + 1))
      (target : String)
  | toCell {α : Type} [Footprint α] (codec : Codec α) (batch : Batch α) (options : CellOptions)
      (arena : Fin (n + 1)) (target : String)
  | wrap (descriptor : Descriptor) (options : CellOptions) (name target : String)
  | clone (name target : String)
  | intoPlain (name target : String)
  | intoParts (name : String)
  | ofParts (name : String) (buffer : Bytes) (target : String)
  | reserve (size : Nat) (arena : Fin (n + 1)) (target : String)
  | grow (bytes : Nat) (name : String)
  | resize (size : Nat) (name : String)
  | growArena (bytes : Nat) (arena : Fin (n + 1))
  | shrinkArena (bytes : Nat) (arena : Fin (n + 1))
  | drop (name : String)

def run (op : Op n) (s : Session n) : Answer n :=
  match op with
  | @Op.acquire _ _ _ codec capacity arena target => s.acquire codec capacity arena target
  | @Op.append _ _ _ codec batch name => s.append codec batch name
  | @Op.appendNull _ _ _ codec name => s.appendNull codec name
  | .finalize name target => s.finalize name target
  | @Op.encode _ _ _ codec batch arena target => s.encode codec batch arena target
  | @Op.toCell _ _ _ codec batch options arena target => s.toCell codec batch options arena target
  | .wrap descriptor options name target => s.wrap descriptor options name target
  | .clone name target => s.clone name target
  | .intoPlain name target => s.intoPlain name target
  | .intoParts name => s.intoParts name
  | .ofParts name buffer target => s.ofParts name buffer target
  | .reserve size arena target => s.reserve size arena target
  | .grow bytes name => s.grow bytes name
  | .resize size name => s.resize size name
  | .growArena bytes arena => s.growArena bytes arena
  | .shrinkArena bytes arena => s.shrinkArena bytes arena
  | .drop name => s.drop name

/-- Runs operations in order. -/
def runAll (ops : List (Op n)) (s : Session n) : Session n :=
  ops.foldl (fun s op => (s.run op).2) s

/-- All names, of all objects. -/
def names (s : Session n) : List String := s.holdings.flatMap (·.owners)

/-- Drops every object. -/
def close (s : Session n) : Session n := s.names.foldl release s

end Session

end TypedColumns
