import H2Go.Value.Impl

/-!
This module contains the encoder of parameter values.
-/

namespace H2Go

/--
Pack a date, `(year << 9) | (month << 5) | day`. The month takes four bits and the day five.
-/
def packDateValue (year month day : Int) : Int := year * 2 ^ 9 + month * 2 ^ 5 + day

def nanosOfDay (ts : GoTime) : Int :=
  ts.hour * 3600000000000 + ts.minute * 60000000000 + ts.second * 1000000000 + ts.nsec

/--
The Go type of an unsupported value, the `%T` verb.
-/
def Value.typeName : Value → GoString
  | .lob _ => ascii "*h2go.pendingLob"
  | .other typeName => typeName
  | _ => []

def paramValueType (paramType : Option TypeInfo) : Option ValueType :=
  paramType.map TypeInfo.valueType

namespace Tr

variable {σ : Type}

def writeUUIDValue (s : GoString) : Prog Err (Tr σ) Unit := do
  let (high, low) ← wrapErr "h2go: WriteValue: invalid UUID %q: %w" [.str s] (parseUUIDString s)
  wrapErr "h2go: WriteValue: failed to write UUID type: %w" [] (writeInt32 ValueType.uuid.code)
  wrapErr "h2go: WriteValue: failed to write UUID high: %w" [] (writeInt64 high)
  wrapErr "h2go: WriteValue: failed to write UUID low: %w" [] (writeInt64 low)

def stringValueType (paramType : Option TypeInfo) : ValueType :=
  match paramValueType paramType with
  | some .numeric => .numeric
  | some .decfloat => .decfloat
  | some .char => .char
  | some .varcharIgnoreCase => .varcharIgnoreCase
  | _ => .varchar

def writeStringValue (s : GoString) (paramType : Option TypeInfo) : Prog Err (Tr σ) Unit :=
  if paramValueType paramType = some .uuid then
    writeUUIDValue s
  else do
    wrapErr "h2go: WriteValue: failed to write string type: %w" []
      (writeInt32 (stringValueType paramType).code)
    wrapErr "h2go: WriteValue: failed to write string value: %w" [] (writeString s)

def writeTimeValue (ts : GoTime) (paramType : Option TypeInfo) : Prog Err (Tr σ) Unit :=
  let dateValue := packDateValue ts.year ts.month ts.day
  let nanos := nanosOfDay ts
  let offset := ts.offset
  match paramValueType paramType with
  | some .date => do
    wrapErr "h2go: WriteValue: failed to write DATE type: %w" [] (writeInt32 ValueType.date.code)
    wrapErr "h2go: WriteValue: failed to write DATE value: %w" [] (writeInt64 dateValue)
  | some .time => do
    wrapErr "h2go: WriteValue: failed to write TIME type: %w" [] (writeInt32 ValueType.time.code)
    wrapErr "h2go: WriteValue: failed to write TIME value: %w" [] (writeInt64 nanos)
  | some .timeTZ => do
    wrapErr "h2go: WriteValue: failed to write TIME_TZ type: %w" []
      (writeInt32 ValueType.timeTZ.code)
    wrapErr "h2go: WriteValue: failed to write TIME_TZ nanos: %w" [] (writeInt64 nanos)
    wrapErr "h2go: WriteValue: failed to write TIME_TZ offset: %w" [] (writeInt32 offset)
  | some .timestampTZ => do
    wrapErr "h2go: WriteValue: failed to write TIMESTAMP_TZ type: %w" []
      (writeInt32 ValueType.timestampTZ.code)
    wrapErr "h2go: WriteValue: failed to write TIMESTAMP_TZ date: %w" [] (writeInt64 dateValue)
    wrapErr "h2go: WriteValue: failed to write TIMESTAMP_TZ nanos: %w" [] (writeInt64 nanos)
    wrapErr "h2go: WriteValue: failed to write TIMESTAMP_TZ offset: %w" [] (writeInt32 offset)
  | _ => do
    wrapErr "h2go: WriteValue: failed to write TIMESTAMP type: %w" []
      (writeInt32 ValueType.timestamp.code)
    wrapErr "h2go: WriteValue: failed to write TIMESTAMP date: %w" [] (writeInt64 dateValue)
    wrapErr "h2go: WriteValue: failed to write TIMESTAMP nanos: %w" [] (writeInt64 nanos)

/--
The parameter types for which numbers are written as their text.
-/
def isDecimalParam (paramType : Option TypeInfo) : Bool :=
  paramValueType paramType = some .numeric ∨ paramValueType paramType = some .decfloat

def writeValue [GoStd] (v : Value) (paramType : Option TypeInfo) : Prog Err (Tr σ) Unit :=
  match v with
  | .nil => writeInt32 ValueType.null.code
  | .bool x => do
    wrapErr "h2go: WriteValue: failed to write BOOLEAN type: %w" []
      (writeInt32 ValueType.boolean.code)
    wrapErr "h2go: WriteValue: failed to write BOOLEAN value: %w" [] (writeBool x)
  | .int64 x =>
    if isDecimalParam paramType then
      writeStringValue (formatInt x.toInt) paramType
    else do
      wrapErr "h2go: WriteValue: failed to write BIGINT type: %w" []
        (writeInt32 ValueType.bigint.code)
      wrapErr "h2go: WriteValue: failed to write BIGINT value: %w" [] (writeInt64 x.toInt)
  | .float64 x =>
    if isDecimalParam paramType then
      writeStringValue (GoStd.formatFloat x) paramType
    else if paramValueType paramType = some .real then do
      wrapErr "h2go: WriteValue: failed to write REAL type: %w" [] (writeInt32 ValueType.real.code)
      wrapErr "h2go: WriteValue: failed to write REAL value: %w" []
        (writeFloat32 (GoStd.float32 x))
    else do
      wrapErr "h2go: WriteValue: failed to write DOUBLE type: %w" []
        (writeInt32 ValueType.double.code)
      wrapErr "h2go: WriteValue: failed to write DOUBLE value: %w" [] (writeFloat64 x)
  | .string x => writeStringValue x paramType
  | .bytes none => writeInt32 ValueType.null.code
  | .bytes (some x) => do
    let valueType := if paramValueType paramType = some .binary then ValueType.binary else .varbinary
    wrapErr "h2go: WriteValue: failed to write BINARY/VARBINARY type: %w" []
      (writeInt32 valueType.code)
    wrapErr "h2go: WriteValue: failed to write BINARY/VARBINARY value: %w" [] (writeBytes (some x))
  | .time x => writeTimeValue x paramType
  | .lob _ | .other _ =>
    Prog.throw (.wrapf "h2go: WriteValue: %w: unsupported driver.Value type %T" [.str v.typeName]
      .unsupportedType)

end Tr

end H2Go
