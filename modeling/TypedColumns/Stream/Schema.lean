import TypedColumns.DataType.Basic
import TypedColumns.FlatTable.Shape
import TypedColumns.FlatTable.Writer
import TypedColumns.Stream.Foreign

/-!
# Schemas in a stream

A schema is a flat table with one table per field. A field's table names the field, tells its type
by a tag and a table with the type's settings, and lists the fields of its children.

The objects of a field are written in this order: the name, the fields of the children, what the
type refers to, and then the table of the type and the vector of the children; numbers have these
two the other way round.
-/

namespace TypedColumns.Stream

open FlatTable (Ref Entry Writer Table)

/-- How a number type is described: as an integer with a sign or not, or a float of a precision. -/
inductive NumberClass
  | int (signed : Bool)
  | float (precision : Nat)
  deriving DecidableEq, Repr

def NumberClass.ofType : NumberType → NumberClass
  | .int8 | .int16 | .int32 | .int64 => .int true
  | .uint8 | .uint16 | .uint32 | .uint64 => .int false
  | .float16 => .float 0
  | .float32 => .float 1
  | .float64 => .float 2

def numberTypes : List NumberType :=
  [.int8, .int16, .int32, .int64, .uint8, .uint16, .uint32, .uint64, .float16, .float32, .float64]

/-- The integer type of a width in bits. -/
def intType? (signed : Bool) (bits : Nat) : Option NumberType :=
  numberTypes.find? fun t => NumberClass.ofType t == .int signed && 8 * t.bytes == bits

def floatType? (precision : Nat) : Option NumberType :=
  numberTypes.find? fun t => NumberClass.ofType t == .float precision

/-! ## Writing -/

/-- The places of a written type: its tag, its table, and the vector of its children. -/
structure TypeRefs where
  tag : TypeTag
  type : Ref
  children : Ref

/-- A type whose settings are given, with the fields of its children already written. -/
def writeSettings (tag : TypeTag) (settings : List (Nat × Entry)) (children : List Ref) :
    Writer TypeRefs := do
  let type ← FlatTable.table settings
  let children ← FlatTable.refVector children
  return ⟨tag, type, children⟩

def writeNumber (t : NumberType) : Writer TypeRefs := do
  let children ← FlatTable.refVector []
  match NumberClass.ofType t with
  | .int signed =>
    let type ← FlatTable.table
      (Entry.unlessZero 1 1 signed.toNat ++ [(0, .scalar (Bytes.ofNat 4 (8 * t.bytes)))])
    return ⟨.int, type, children⟩
  | .float precision =>
    let type ← FlatTable.table (Entry.unlessZero 0 2 precision)
    return ⟨.float, type, children⟩

def writeUnion (ids : List TypeId) (children : List Ref) : Writer TypeRefs := do
  let ids ← FlatTable.vector 4 ids.length (ids.flatMap fun id => Bytes.ofInt 4 id.toInt)
  writeSettings .union [(0, .scalar (Bytes.ofNat 2 1)), (1, .ref ids)] children

/-- The table of a field whose name and type are written. -/
def writeFieldTable (name : Ref) (type : TypeRefs) (nullable : Bool) : Writer Ref :=
  FlatTable.table
    ([(0, .ref name), (2, .scalar (Bytes.ofNat 1 type.tag.number))] ++
      Entry.unlessZero 1 1 nullable.toNat ++ [(5, .ref type.children), (3, .ref type.type)])

mutual

/-- Writes a type. A type whose values are not read is written as the one that has none. -/
def writeType : DataType → Writer TypeRefs
  | .null => writeSettings .null [] []
  | .boolean => writeSettings .boolean [] []
  | .number t => writeNumber t
  | .text .narrow => writeSettings .text [] []
  | .text .wide => writeSettings .wideText [] []
  | .binary .narrow => writeSettings .binary [] []
  | .binary .wide => writeSettings .wideBinary [] []
  | .list width item => do
    let item ← writeField item
    writeSettings (match width with | .narrow => .list | .wide => .wideList) [] [item]
  | .fixedSizeList item size => do
    let item ← writeField item
    writeSettings .fixedSizeList (Entry.unlessZero 0 4 size.toNat) [item]
  | .struct fields => do
    let fields ← writeFields fields
    writeSettings .struct [] fields
  | .union variants => do
    let fields ← writeVariants variants
    writeUnion (variants.map (·.id)) fields
  | .sparseUnion _ | .foreign _ => writeSettings .null [] []

def writeField : Field → Writer Ref
  | ⟨name, type, nullable⟩ => do
    let name ← FlatTable.string name
    let type ← writeType type
    writeFieldTable name type nullable

def writeFields : List Field → Writer (List Ref)
  | [] => return []
  | f :: fs => do
    let r ← writeField f
    let rs ← writeFields fs
    return r :: rs

def writeVariants : List Variant → Writer (List Ref)
  | [] => return []
  | ⟨_, f⟩ :: vs => do
    let r ← writeField f
    let rs ← writeVariants vs
    return r :: rs

end

/-- The table of a schema. -/
def writeSchema (fields : List Field) : Writer Ref := do
  let fields ← writeFields fields
  let fields ← FlatTable.refVector fields
  FlatTable.table [(1, .ref fields)]

/-! ## Reading -/

/-- The type ids of a union of `count` variants. If none are given, variants are numbered in order,
as far as ids go. -/
def readTypeIds (t : Table) (count : Nat) : Option (List TypeId) := do
  match ← t.ref? 1 with
  | none => return (List.range (Int8.ofNat count).toInt.toNat).map Int8.ofNat
  | some pos =>
    let places ← FlatTable.vector? 4 t.buffer pos
    return (← places.mapM (FlatTable.int? 4 t.buffer)).map Int8.ofInt

/-- The one child of a list. -/
def onlyItem? : List Field → Option Field
  | [item] => some item
  | _ => none

/-- The integer type of a table of settings. -/
def readIntType (settings : Table) : Option NumberType := do
  let signed ← settings.word 1 1
  intType? (signed != 0) (← settings.word 0 4)

/-- The type of a tag, a table of settings, and the fields of the children. A type without children
does not mind what they are. -/
def readSettings (tag : TypeTag) (settings : Table) (children : Option (List Field)) :
    Option DataType :=
  match tag with
  | .null => some .null
  | .boolean => some .boolean
  | .int => do return .number (← readIntType settings)
  | .float => do return .number (← floatType? (← settings.word 0 2))
  | .text => some (.text .narrow)
  | .wideText => some (.text .wide)
  | .binary => some (.binary .narrow)
  | .wideBinary => some (.binary .wide)
  | .list => do return .list .narrow (← onlyItem? (← children))
  | .wideList => do return .list .wide (← onlyItem? (← children))
  | .fixedSizeList => do
    return .fixedSizeList (← onlyItem? (← children)) (← settings.int 0 4)
  | .struct => children.map .struct
  | .union => do
    let children ← children
    let ids ← readTypeIds settings children.length
    let variants := List.zipWith Variant.mk ids children
    match ← settings.word 0 2 with
    | 0 => return .sparseUnion variants
    | 1 => return .union variants
    | _ => none
  | _ => (foreignName? tag settings children).map .foreign

/-- The tables of a field's children; there need not be a vector of them. -/
def childTables (t : Table) : Option (List Table) := do
  match ← t.ref? 5 with
  | none => return []
  | some pos => FlatTable.tables? t.buffer pos

/-- The type of a field's values, which is foreign if they are kept in a dictionary. -/
def readDictionary (t : Table) (values : DataType) : Option DataType := do
  if !t.has 4 then return values
  let keys ← readIntType (← (← t.child 4).child 1)
  return .foreign (dictionaryName keys values)

/-- The field of a table. Every level of nesting takes one unit of fuel. -/
def readField : Nat → Table → Option Field
  | 0, _ => none
  | fuel + 1, t => do
    let name ← FlatTable.string? t.buffer (← t.required 0)
    let nullable ← t.word 1 1
    let tag ← TypeTag.ofNumber? (← t.word 2 1)
    let settings ← t.child 3
    let children := do (← childTables t).mapM (readField fuel)
    let type ← readDictionary t (← readSettings tag settings children)
    return ⟨name, type, nullable != 0⟩

/-- The fields of a schema's table, which are nested no deeper than its shape allows. -/
def readSchema (t : Table) : Option (List Field) := do
  (← FlatTable.tables? t.buffer (← t.required 1)).mapM (readField FlatTable.maxDepth)

end TypedColumns.Stream
