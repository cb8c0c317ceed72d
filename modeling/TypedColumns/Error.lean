import TypedColumns.DataType.Text

/-!
# Errors

An error is a cause. Each stage has its own type of causes: an arena's refusal, a batch that holds
less than it claims, faults of a builder's contents, of an argument, of a finished array, of a
stream that is written or read. `CellError` gathers them under the five kinds callers tell apart,
and leaves a place for errors that a codec raises in words of its own.

The wording of every cause stands here, in one `message` function per type; `CellError.display` puts
the heading of the kind before it.
-/

namespace TypedColumns

/-- What callers tell apart. -/
inductive ErrorKind
  | invalidArgument | allocationFailed | finalizationFailed | serializationFailed
  | deserializationFailed
  deriving DecidableEq, Repr

/-- The words that open every message of a kind. -/
def ErrorKind.heading : ErrorKind → String
  | .invalidArgument => "Invalid argument: "
  | .allocationFailed => "Allocation failed: "
  | .finalizationFailed => "Error finalizing array: "
  | .serializationFailed => "Error serializing cell: "
  | .deserializationFailed => "Error deserializing cell: "

/-- A request an arena turned down: how much was asked for and how much was in use. -/
structure Refusal where
  requested : Nat
  inUse : Nat
  capacity : Nat
  deriving DecidableEq, Repr

def Refusal.message (r : Refusal) : String :=
  "cannot reserve " ++ toString r.requested ++ " bytes: " ++ toString r.inUse ++ " of " ++
    toString r.capacity ++ " bytes in use"

/-- Why a batch has no values to give. -/
inductive BatchFault
  | absent (count : Nat)
  | short (length count : Nat)
  deriving DecidableEq, Repr

def BatchFault.message : BatchFault → String
  | .absent count =>
    "cannot serialize null pointer to arrow array (" ++ toString count ++ " values expected)"
  | .short length count =>
    "batch of " ++ toString length ++ " values claims to hold " ++ toString count

/-- What can be wrong with the contents of a builder, or with a column built from parts. -/
inductive BuildFault
  | noNullVariant
  | variantWithoutBuilder (id : TypeId)
  | structChildren (fields children : Nat)
  | fieldLength (name : String) (values rows : Nat)
  | unionChildren (variants children : Nat)
  | variantLength (name : String) (selected values : Nat)
  | listLength (lists size values : Nat)
  | structWithoutFields
  | structMarks (rows marks : Nat)
  | fieldRows (name : String) (rows values : Nat)
  | fieldType (name : String) (expected actual : DataType)
  | fieldNulls (name : String)
  | undeclaredTypeId
  | offsetOutOfRange
  | variantType (union expected actual : DataType)
  | columnNulls (name : String)
  /-- Row `slot` of a list column begins behind its end. -/
  | offsetOrder (slot start stop : Nat)
  /-- An offset of a list column leads beyond the items. -/
  | offsetBeyond (position offset items : Nat)
  /-- The child at a position of a nested column has a fault of its own. -/
  | child (parent : DataType) (index : Nat) (fault : BuildFault)
  /-- A list inside a list holds the wrong number of items. Nothing checks for this before the inner
  list is finished, so there is no error to report: the program stops. -/
  | unevenItems
  deriving DecidableEq

def BuildFault.message : BuildFault → String
  | .noNullVariant => "dense union has no null variant"
  | .variantWithoutBuilder id => "union variant " ++ toString id.toInt ++ " has no builder"
  | .structChildren fields children =>
    "struct with " ++ toString fields ++ " fields has " ++ toString children ++ " child builders"
  | .fieldLength name values rows =>
    "struct field '" ++ name ++ "' has " ++ toString values ++ " values, expected " ++ toString rows
  | .unionChildren variants children =>
    "union with " ++ toString variants ++ " variants has " ++ toString children ++
      " child builders"
  | .variantLength name selected values =>
    "union variant '" ++ name ++ "' was selected " ++ toString selected ++ " times but has " ++
      toString values ++ " values"
  | .listLength lists size values =>
    "fixed size list of " ++ toString lists ++ " entries of length " ++ toString size ++ " has " ++
      toString values ++ " child values"
  | .structWithoutFields =>
    "use StructArray::try_new_with_length or StructArray::new_empty_fields to create a struct " ++
      "array with no fields so that the length can be set correctly"
  | .structMarks rows marks =>
    "Incorrect number of nulls for StructArray, expected " ++ toString rows ++ " got " ++
      toString marks
  | .fieldRows name rows values =>
    "Incorrect array length for StructArray field " ++ Text.Quoted.encode name ++ ", expected " ++
      toString rows ++ " got " ++ toString values
  | .fieldType name expected actual =>
    "Incorrect datatype for StructArray field " ++ Text.Quoted.encode name ++ ", expected " ++
      expected.display ++ " got " ++ actual.display
  | .fieldNulls name =>
    "Found unmasked nulls for non-nullable StructArray field " ++ Text.Quoted.encode name
  | .undeclaredTypeId => "Type Ids values must match one of the field type ids"
  | .offsetOutOfRange => "Offsets must be non-negative and within the length of the Array"
  | .variantType union expected actual =>
    "Child type mismatch for " ++ union.display ++ ". Expected " ++ expected.display ++
      " but child data had " ++ actual.display
  | .columnNulls name =>
    "Column '" ++ name ++ "' is declared as non-nullable but contains null values"
  | .offsetOrder slot start stop =>
    "Offset invariant failure: non-monotonic offset at slot " ++ toString slot ++ ": " ++
      toString start ++ " > " ++ toString stop
  | .offsetBeyond position offset items =>
    "Offset invariant failure: offset at position " ++ toString position ++ " out of bounds: " ++
      toString offset ++ " > " ++ toString items
  | .child parent index fault =>
    parent.display ++ " child #" ++ toString index ++ " invalid: Invalid argument error: " ++
      fault.message
  | .unevenItems => "length of the child array must be the multiple of the value length"

/-- The message with the heading it has when no cell operation stands around it. -/
def BuildFault.display (fault : BuildFault) : String :=
  "Invalid argument error: " ++ fault.message

/-- Settings a stream cannot be written with. -/
inductive OptionsFault
  | alignment
  | legacyFraming
  deriving DecidableEq, Repr

def OptionsFault.message : OptionsFault → String
  | .alignment => "Alignment should be 8, 16, 32, or 64."
  | .legacyFraming => "Legacy IPC format only supported on metadata version 4"

def OptionsFault.display (fault : OptionsFault) : String :=
  "Invalid argument error: " ++ fault.message

/-- How a handle came to refuse further work. -/
inductive Closed
  | finalized | failed
  deriving DecidableEq, Repr

def Closed.message : Closed → String
  | .finalized => "already finalized"
  | .failed => "a previous operation failed"

/-- What is wrong with the arguments of an operation. -/
inductive ArgumentFault
  | noArena
  | batch (fault : BatchFault)
  | handleClosed (action typeName : String) (closed : Closed)
  | notNullable (typeName : String)
  | missingRefused (typeName : String) (fault : BuildFault)
  | noField (index : Nat)
  | fieldBuilder (name : String)
  | noVariant (id : TypeId)
  | variantBuilder (id : TypeId)
  /-- A codec was given a builder its values do not go into. -/
  | foreignBuilder (typeName : String)
  | wrongType (actual : DataType) (typeName : String) (expected : DataType)
  | columnNulls (name : String)
  deriving DecidableEq

def ArgumentFault.message : ArgumentFault → String
  | .noArena => "memory arena is null"
  | .batch fault => fault.message
  | .handleClosed action typeName closed =>
    "cannot " ++ action ++ " array builder for " ++ typeName ++ ": " ++ closed.message
  | .notNullable typeName => typeName ++ " is not nullable"
  | .missingRefused typeName fault =>
    typeName ++ " does not accept missing values: " ++ fault.display
  | .noField index => "struct has no field " ++ toString index
  | .fieldBuilder name => "builder of struct field '" ++ name ++ "' is not a *"
  | .noVariant id => "union has no variant " ++ toString id.toInt
  | .variantBuilder id => "builder of union variant " ++ toString id.toInt ++ " is not a *"
  | .foreignBuilder typeName => typeName ++ " cannot be appended to this builder"
  | .wrongType actual typeName expected =>
    "cannot wrap array of " ++ actual.display ++ " as " ++ typeName ++
      " (" ++ expected.display ++ ")"
  | .columnNulls name => (BuildFault.columnNulls name).display

/-- Why a finished builder gave no array. -/
inductive FinishFault
  | build (fault : BuildFault)
  | wrongType (actual expected : DataType)
  deriving DecidableEq

def FinishFault.message : FinishFault → String
  | .build fault => fault.display
  | .wrongType actual expected =>
    "builder produced " ++ actual.display ++ " instead of " ++ expected.display

/-- Why no cell was made of an array. -/
inductive WriteFault
  | tooLarge (bytes limit : Nat)
  | refused (refusal : Refusal)
  deriving DecidableEq, Repr

def WriteFault.message : WriteFault → String
  | .tooLarge bytes limit =>
    "buffer of " ++ toString bytes ++ " bytes exceeds the maximum of " ++ toString limit
  | .refused refusal => ErrorKind.allocationFailed.heading ++ refusal.message

/-- Why a cell holds no column of its name. -/
inductive ReadFault
  /-- The buffer is not a stream. -/
  | malformed
  | columnCount (found : Nat)
  | columnName (column cell : String)
  | batchCount (found : Nat)
  deriving DecidableEq, Repr

def ReadFault.message : ReadFault → String
  | .malformed => "not a readable stream"
  | .columnCount found => "expected a single column, found " ++ toString found
  | .columnName column cell => "column '" ++ column ++ "' does not match cell '" ++ cell ++ "'"
  | .batchCount found => "expected a single record batch, found " ++ toString found

/-- The error of any operation on builders, arrays and cells. -/
inductive CellError
  | argument (fault : ArgumentFault)
  | allocation (refusal : Refusal)
  | finalization (typeName : String) (fault : FinishFault)
  | serialization (typeName : String) (fault : WriteFault)
  | deserialization (fault : ReadFault)
  /-- Raised outside this library, by a codec, in words of its own. -/
  | reported (kind : ErrorKind) (message : String)
  deriving DecidableEq

namespace CellError

def kind : CellError → ErrorKind
  | .argument _ => .invalidArgument
  | .allocation _ => .allocationFailed
  | .finalization _ _ => .finalizationFailed
  | .serialization _ _ => .serializationFailed
  | .deserialization _ => .deserializationFailed
  | .reported kind _ => kind

/-- The words of the cause, without the heading. -/
def message : CellError → String
  | .argument fault => fault.message
  | .allocation refusal => refusal.message
  | .finalization typeName fault => typeName ++ ": " ++ fault.message
  | .serialization typeName fault => typeName ++ ": " ++ fault.message
  | .deserialization fault => fault.message
  | .reported _ message => message

/-- The whole error text. -/
def display (e : CellError) : String := e.kind.heading ++ e.message

/-- The text of the error when it is passed on through an operation on plain arrays. -/
def displayExternal (e : CellError) : String := "External error: " ++ e.display

def isInvalidArgument (e : CellError) : Bool := e.kind == .invalidArgument

end CellError

end TypedColumns
