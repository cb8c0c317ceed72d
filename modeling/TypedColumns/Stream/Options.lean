import TypedColumns.Error

/-!
# Stream settings

A stream is written in one of two versions of the format. The older one may use the framing from
before continuation marks. Every buffer starts on a multiple of the alignment.
-/

namespace TypedColumns.Stream

inductive Version
  | v4 | v5
  deriving DecidableEq, Repr

/-- The number by which a message states its version. -/
def Version.number : Version → Nat
  | .v4 => 3
  | .v5 => 4

structure WriteOptions where
  alignment : Nat
  /-- Leaves out the continuation marks. -/
  legacyFraming : Bool
  version : Version
  alignment_mem : alignment ∈ [8, 16, 32, 64]
  legacy_version : legacyFraming = true → version = .v4

namespace WriteOptions

def standard : WriteOptions := ⟨64, false, .v5, by decide, by decide⟩

/-- Settings that fit together. The alignment is looked at first. -/
def ofParts (alignment : Nat) (legacyFraming : Bool) (version : Version) :
    Except OptionsFault WriteOptions :=
  if h : alignment ∈ [8, 16, 32, 64] then
    if h' : legacyFraming = true → version = .v4 then
      .ok ⟨alignment, legacyFraming, version, h, h'⟩
    else .error .legacyFraming
  else .error .alignment

theorem alignment_pos (o : WriteOptions) : 0 < o.alignment := by
  have := o.alignment_mem
  simp only [List.mem_cons, List.not_mem_nil, or_false] at this
  omega

end WriteOptions

end TypedColumns.Stream
