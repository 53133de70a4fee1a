import H2Go.TypeInfo.Lemmas
import H2Go.Text.Impl

/-!
This module contains the decoder of wire values.
-/

namespace H2Go

/--
A point in time as its civil fields in its own zone, `offset` is the zone's offset from UTC in
seconds.
-/
structure GoTime where
  year : Int
  month : Int
  day : Int
  hour : Int
  minute : Int
  second : Int
  nsec : Int
  offset : Int
  month_range : 1 ≤ month ∧ month ≤ 12
  day_range : 1 ≤ day ∧ day ≤ 31
  hour_range : 0 ≤ hour ∧ hour ≤ 23
  minute_range : 0 ≤ minute ∧ minute ≤ 59
  second_range : 0 ≤ second ∧ second ≤ 59
  nsec_range : 0 ≤ nsec ∧ nsec ≤ 999999999
  deriving DecidableEq, Repr

structure PendingLob where
  typeCode : ValueType
  lobID : Int
  hmac : Option (List UInt8)
  octetLength : Int
  precision : Int
  row : Nat
  col : Nat
  deriving DecidableEq, Repr

def PendingLob.totalBytes (p : PendingLob) : Int :=
  if p.typeCode = .blob then p.precision else p.octetLength

/--
Values of the `driver.Value` interface. `lob` is the placeholder of a deferred LOB, `other` a value
of a type the driver does not support.
-/
inductive Value where
  | nil
  | bool (b : Bool)
  | int64 (n : Int64)
  | float64 (bits : UInt64)
  | string (s : GoString)
  | bytes (b : Option (List UInt8))
  | time (t : GoTime)
  | lob (p : PendingLob)
  | other (typeName : GoString)
  deriving DecidableEq, Repr

/--
The functions of the standard library and the conversions of the language that the model does not
look into.
-/
class GoStd where
  /-- The conversion `float32(x)`. -/
  float32 : UInt64 → UInt32
  /-- The conversion `float64(x)` of a `float32`. -/
  float64 : UInt32 → UInt64
  /-- The function `strconv.FormatFloat` with the format `g` and precision `-1`. -/
  formatFloat : UInt64 → GoString
  /-- The `%v` verb for a `float64`. -/
  sprintFloat : UInt64 → GoString
  /-- The `%v` verb for a `time.Time`. -/
  sprintTime : GoTime → GoString
  /-- The function `time.Date` in the zone with the given offset. -/
  date : (year month day hour minute second nsec offset : Int) → GoTime

namespace StandIn

/--
Stand-ins to evaluate the model with.
-/
scoped instance : GoStd where
  float32 _ := 0
  float64 _ := 0
  formatFloat _ := ascii "0"
  sprintFloat _ := ascii "0"
  sprintTime _ := ascii "0"
  date _ _ _ _ _ _ _ _ :=
    { year := 0, month := 1, day := 1, hour := 0, minute := 0, second := 0, nsec := 0, offset := 0,
      month_range := by decide, day_range := by decide, hour_range := by decide,
      minute_range := by decide, second_range := by decide, nsec_range := by decide }

end StandIn

/--
The collector of the LOBs that are deferred while a batch of rows is parsed. `curRow` and `curCol`
are the position of the value that is being read.
-/
structure LobCollector where
  pending : List PendingLob
  reject : Bool
  curRow : Nat
  curCol : Nat
  deriving DecidableEq, Repr

def LobCollector.empty : LobCollector := { pending := [], reject := false, curRow := 0, curCol := 0 }

def nestedLOBs : LobCollector := { pending := [], reject := true, curRow := 0, curCol := 0 }

def joinWith (sep : GoString) (parts : List GoString) : GoString := List.intercalate sep parts

def sprintBytes (b : List UInt8) : GoString :=
  ascii "[" ++ joinWith (ascii " ") (b.map (fun x => formatInt x.toNat)) ++ ascii "]"

def sprint [GoStd] (v : Value) : GoString :=
  match v with
  | .nil => ascii "<nil>"
  | .bool b => if b then ascii "true" else ascii "false"
  | .int64 n => formatInt n.toInt
  | .float64 bits => GoStd.sprintFloat bits
  | .string s => s
  | .bytes b => sprintBytes (b.getD [])
  | .time t => GoStd.sprintTime t
  | .lob p =>
    ascii "&\x7b" ++ joinWith (ascii " ")
      [formatInt p.typeCode.code, formatInt p.lobID, sprintBytes (p.hmac.getD []),
        formatInt p.octetLength, formatInt p.precision, formatInt p.row, formatInt p.col]
      ++ ascii "\x7d"
  | .other typeName => typeName

section Time

variable [GoStd]

def unpackDateValue (dateValue : Int) : Int × Int × Int :=
  (dateValue / 2 ^ 9, dateValue / 2 ^ 5 % 2 ^ 4, dateValue % 2 ^ 5)

def dateValueToTime (dateValue : Int) : GoTime :=
  let (y, m, d) := unpackDateValue dateValue
  GoStd.date y m d 0 0 0 0 0

def splitNanos (nanos : Int) : Int × Int × Int × Int :=
  let hour := nanos.tdiv (60 * 60 * 1000000000)
  let nanos := nanos.tmod (60 * 60 * 1000000000)
  let minute := nanos.tdiv (60 * 1000000000)
  let nanos := nanos.tmod (60 * 1000000000)
  (hour, minute, nanos.tdiv 1000000000, nanos.tmod 1000000000)

def nanosOfDayToTimeTZ (nanos offsetSec : Int) : GoTime :=
  let (hour, minute, sec, nsec) := splitNanos nanos
  GoStd.date 0 1 1 hour minute sec nsec offsetSec

def nanosOfDayToTime (nanos : Int) : GoTime := nanosOfDayToTimeTZ nanos 0

def timestampToTimeTZ (dateValue nanos offsetSec : Int) : GoTime :=
  let (y, m, d) := unpackDateValue dateValue
  let (hour, minute, sec, nsec) := splitNanos nanos
  GoStd.date y m d hour minute sec nsec offsetSec

def timestampToTime (dateValue nanos : Int) : GoTime := timestampToTimeTZ dateValue nanos 0

end Time

namespace Tr

variable {σ : Type} [GoStd]

def readIntervalValue : Prog Err (Tr σ) Value := do
  let x ← wrapErr "h2go: readIntervalValue: failed to read ordinal: %w" [] readByte
  let negative := 128 ≤ x.toNat
  let qualifierOrdinal := if negative then (255 - x.toNat) % 128 else x.toNat
  let qualifier := intervalQualifier qualifierOrdinal
  let leading ← wrapErr "h2go: readIntervalValue: failed to read leading: %w" [] readInt64
  let leading := if negative then wrapInt64 (-leading) else leading
  if qualifier.hasRemaining then
    let remaining ← wrapErr "h2go: readIntervalValue: failed to read remaining: %w" [] readInt64
    pure (.string (formatInterval qualifier leading remaining))
  else
    pure (.string (formatInterval qualifier leading 0))

def stringValue (s : Option GoString) : Value :=
  match s with
  | none => .nil
  | some s => .string s

def readStringValue : Prog Err (Tr σ) Value := do
  let s ← wrapErr "h2go: readStringValue: %w" [] readString
  pure (stringValue s)

/--
DECFLOAT is sent as a string that has to be a number.
-/
def readDecfloatValue : Prog Err (Tr σ) Value := do
  let v ← readStringValue
  match v with
  | .string str =>
    match parseDecFloat str with
    | .error perr => Prog.throw (perr.wrap "h2go: ReadValue: invalid DECFLOAT: %w")
    | .ok _ => pure v
  | _ => pure v

def readScalarValue (typeCode : ValueType) : Prog Err (Tr σ) Value :=
  match typeCode with
  | .null => pure .nil
  | .boolean => do
    let v ← wrapErr "h2go: readBooleanValue: %w" [] readBool
    pure (.bool v)
  | .tinyint => do
    let b ← wrapErr "h2go: readTinyintValue: %w" [] readByte
    pure (.int64 (Int64.ofInt (int8 b)))
  | .smallint => do
    let v ← wrapErr "h2go: readSmallintValue: %w" [] readInt16
    pure (.int64 (Int64.ofInt v))
  | .integer => do
    let v ← wrapErr "h2go: readIntegerValue: %w" [] readInt32
    pure (.int64 (Int64.ofInt v))
  | .bigint => do
    let v ← wrapErr "h2go: readBigintValue: %w" [] readInt64
    pure (.int64 (Int64.ofInt v))
  | .real => do
    let v ← wrapErr "h2go: readRealValue: %w" [] readFloat32
    pure (.float64 (GoStd.float64 v))
  | .double => do
    let v ← wrapErr "h2go: readDoubleValue: %w" [] readFloat64
    pure (.float64 v)
  | .numeric => do
    let s ← wrapErr "h2go: readNumericValue: %w" [] readString
    pure (stringValue s)
  | .date => do
    let dateValue ← wrapErr "h2go: readDateValue: %w" [] readInt64
    pure (.time (dateValueToTime dateValue))
  | .time => do
    let nanos ← wrapErr "h2go: readTimeValue: %w" [] readInt64
    pure (.time (nanosOfDayToTime nanos))
  | .timeTZ => do
    let nanos ← wrapErr "h2go: readTimeTZValue: failed to read nanos: %w" [] readInt64
    let offsetSec ← wrapErr "h2go: readTimeTZValue: failed to read offset: %w" [] readInt32
    pure (.time (nanosOfDayToTimeTZ nanos offsetSec))
  | .timestamp => do
    let dateValue ← wrapErr "h2go: readTimestampValue: failed to read dateValue: %w" [] readInt64
    let nanos ← wrapErr "h2go: readTimestampValue: failed to read nanos: %w" [] readInt64
    pure (.time (timestampToTime dateValue nanos))
  | .timestampTZ => do
    let dateValue ← wrapErr "h2go: readTimestampTZValue: failed to read dateValue: %w" [] readInt64
    let nanos ← wrapErr "h2go: readTimestampTZValue: failed to read nanos: %w" [] readInt64
    let offsetSec ← wrapErr "h2go: readTimestampTZValue: failed to read offset: %w" [] readInt32
    pure (.time (timestampToTimeTZ dateValue nanos offsetSec))
  | .varchar | .char | .varcharIgnoreCase => readStringValue
  | .varbinary | .binary | .json | .geometry | .javaObject => do
    let b ← wrapErr "h2go: readBytesValue: %w" [] readBytes
    pure (.bytes b)
  | .uuid => do
    let high ← wrapErr "h2go: readUUIDValue: failed to read high: %w" [] readInt64
    let low ← wrapErr "h2go: readUUIDValue: failed to read low: %w" [] readInt64
    pure (.string (formatUUID high low))
  | .decfloat => readDecfloatValue
  | .enum => do
    let ordinal ← wrapErr "h2go: readEnumValue: %w" [] readInt32
    pure (.int64 (Int64.ofInt ordinal))
  | .interval => readIntervalValue
  | t => Prog.throw (.wrapf "h2go: ReadValue: %w: unknown type code %d" [.int t.code] .unsupportedType)

def readClobChar : Prog Err (Tr σ) Nat := do
  let x ← readByte
  if x.toNat < 0x80 then
    pure x.toNat
  else if 0xe0 ≤ x.toNat then
    let b1 ← readByte
    let b2 ← readByte
    pure (((x &&& 0x0f).toNat <<< 12) ||| ((b1 &&& 0x3f).toNat <<< 6) ||| (b2 &&& 0x3f).toNat)
  else
    let b1 ← readByte
    pure (((x &&& 0x1f).toNat <<< 6) ||| (b1 &&& 0x3f).toNat)

def readInlineClob (length : Int) : Prog Err (Tr σ) Value :=
  if length > maxInlineClobChars then
    Prog.throw (.errorf "h2go: readInlineClob: CLOB char length %d exceeds cap %d"
      [.int length, .int maxInlineClobChars])
  else do
    let sb ← Prog.iter length.toNat 0 [] (fun i sb => do
      let c ← wrapErr "h2go: readInlineClob: failed to read char %d of %d: %w" [.int i, .int length]
        readClobChar
      pure (sb ++ Utf8.encodeRune c))
    let magic ← wrapErr "h2go: readInlineClob: failed to read CLOB magic: %w" [] readInt32
    if magic ≠ lobMagic then
      Prog.throw (.errorf "h2go: readInlineClob: invalid CLOB magic %d" [.int magic])
    else
      pure (.string sb)

def readInlineBlob (length : Int) : Prog Err (Tr σ) Value :=
  if length > maxWireLength then
    Prog.throw (.errorf "h2go: readLOBValue: inline BLOB length %d exceeds wire cap %d"
      [.int length, .int maxWireLength])
  else do
    Prog.make length maxWireLength
    let data ← wrapErr "h2go: readLOBValue: failed to read BLOB data: %w" [] (readFull length.toNat)
    let magic ← wrapErr "h2go: readLOBValue: failed to read BLOB magic: %w" [] readInt32
    if magic ≠ lobMagic then
      Prog.throw (.errorf "h2go: readLOBValue: invalid BLOB magic %d" [.int magic])
    else
      pure (.bytes (some data))

def readLobLengths (typeCode : ValueType) : Prog Err (Tr σ) (Int × Int) :=
  if typeCode = .clob then do
    let octetLength ← wrapErr "h2go: readLOBValue: failed to read octetLength: %w" [] readInt64
    let precision ← wrapErr "h2go: readLOBValue: failed to read charLength: %w" [] readInt64
    pure (octetLength, precision)
  else do
    let precision ← wrapErr "h2go: readLOBValue: failed to read precision: %w" [] readInt64
    pure (0, precision)

/--
The fields of a fetch-on-demand LOB, the position of the cell is that of the collector.
-/
def readPendingLob (typeCode : ValueType) (lc : Option LobCollector)
    : Prog Err (Tr σ) PendingLob := do
  let _ ← wrapErr "h2go: readLOBValue: failed to read tableID: %w" [] readInt32
  let lobID ← wrapErr "h2go: readLOBValue: failed to read lobID: %w" [] readInt64
  let hmac ← wrapErr "h2go: readLOBValue: failed to read hmac: %w" [] readBytes
  let lengths ← readLobLengths typeCode
  pure {
    typeCode, lobID, hmac, octetLength := lengths.1, precision := lengths.2,
    row := (lc.map LobCollector.curRow).getD 0, col := (lc.map LobCollector.curCol).getD 0
  }

section Fetch

variable [Peer σ]

def sendLobRead (p : PendingLob) (offset : Int) : Prog Err (Tr σ) Unit := do
  wrapErr "h2go: fetchLob: write op: %w" [] (writeInt32 lobRead)
  wrapErr "h2go: fetchLob: write lobID: %w" [] (writeInt64 p.lobID)
  wrapErr "h2go: fetchLob: write hmac: %w" [] (writeBytes p.hmac)
  wrapErr "h2go: fetchLob: write offset: %w" [] (writeInt64 offset)
  wrapErr "h2go: fetchLob: write length: %w" [] (writeInt32 lobReadChunkSize)
  wrapErr "h2go: fetchLob: flush: %w" [] flush

omit [Peer σ] in
/--
The reply to `LOB_READ`, the empty chunk is the end of the LOB.
-/
def readLobChunk : Prog Err (Tr σ) (List UInt8) := do
  let status ← wrapErr "h2go: fetchLob: read status: %w" [] readInt32
  if status ≠ statusOK then
    Prog.throw (.errorf "h2go: fetchLob: unexpected status %d" [.int status])
  else do
    let actualLen ← wrapErr "h2go: fetchLob: read actual length: %w" [] readInt32
    if actualLen = 0 then
      pure []
    else if actualLen < 0 ∨ actualLen > lobReadChunkSize then
      Prog.throw (.errorf "h2go: fetchLob: chunk length %d outside expected range" [.int actualLen])
    else do
      Prog.make actualLen lobReadChunkSize
      wrapErr "h2go: fetchLob: read chunk: %w" [] (readFull actualLen.toNat)

def fetchLobLoop (p : PendingLob) (fuel : Nat) (buf : List UInt8) (offset : Int)
    : Prog Err (Tr σ) (List UInt8) :=
  match fuel with
  | 0 => Prog.stuck
  | fuel + 1 => do
    sendLobRead p offset
    let chunk ← readLobChunk
    if chunk = [] then pure buf else fetchLobLoop p fuel (buf ++ chunk) (offset + chunk.length)

/--
`buf.Grow(int(totalBytes))` when the length is known.
-/
def growBuffer (totalBytes : Int) : Prog Err (Tr σ) Unit :=
  if 0 < totalBytes then Prog.make totalBytes maxWireLength else pure ()

/--
Transfer a deferred LOB by repeated `LOB_READ` requests. Their number is bounded by what is unread
already, and by the fuel of the stream for what the peer adds to it.
-/
def fetchLob (p : PendingLob) : Prog Err (Tr σ) Value :=
  let totalBytes := p.totalBytes
  if totalBytes > maxWireLength then
    Prog.throw (.errorf "h2go: fetchLob: LOB length %d exceeds cap %d"
      [.int totalBytes, .int maxWireLength])
  else do
    growBuffer totalBytes
    let t ← Prog.get
    let buf ← fetchLobLoop p (t.inp.length + 1 + t.fuel) [] 0
    if p.typeCode = .clob then
      pure (.string buf)
    else
      -- the bytes of a buffer that was never grown are the nil slice
      pure (.bytes (if buf = [] ∧ totalBytes ≤ 0 then none else some buf))

/--
What becomes of a fetch-on-demand LOB: it is fetched, rejected or recorded in the collector.
-/
def deferLob (p : PendingLob) (lc : Option LobCollector)
    : Prog Err (Tr σ) (Value × Option LobCollector) :=
  match lc with
  | none => do
    let v ← fetchLob p
    pure (v, none)
  | some c =>
    if c.reject then
      Prog.throw (.wrapf₂ "h2go: ReadValue: %w: %w is not supported" .unsupportedType
        .nestedOnDemandLOB)
    else
      pure (.lob p, some { c with pending := c.pending ++ [p] })

def readLOBValue (typeCode : ValueType) (lc : Option LobCollector)
    : Prog Err (Tr σ) (Value × Option LobCollector) := do
  let length ← wrapErr "h2go: readLOBValue: failed to read length: %w" [] readInt64
  if length = -1 then
    let p ← readPendingLob typeCode lc
    deferLob p lc
  else if length < 0 then
    Prog.throw (.errorf "h2go: readLOBValue: invalid LOB length %d" [.int length])
  else if typeCode = .blob then do
    let v ← readInlineBlob length
    pure (v, lc)
  else if typeCode = .clob then do
    let v ← readInlineClob length
    pure (v, lc)
  else
    Prog.throw (.wrapf "h2go: readLOBValue: %w: type code %d" [.int typeCode.code] .unsupportedType)

/--
The number of elements of an `ARRAY`. A negative count is the complement of the count of the legacy
layout, which also sends a type name.
-/
def readArrayLength : Prog Err (Tr σ) Int := do
  let length ← wrapErr "h2go: readArrayValue: failed to read length: %w" [] readInt32
  if length < 0 then
    let length := -length - 1
    if length > maxWireCollectionElements then
      Prog.throw (.errorf "h2go: readArrayValue: element count %d exceeds cap %d"
        [.int length, .int maxWireCollectionElements])
    else do
      let _ ← wrapErr "h2go: readArrayValue: failed to skip legacy type name: %w" [] readString
      pure length
  else if length > maxWireCollectionElements then
    Prog.throw (.errorf "h2go: readArrayValue: element count %d exceeds cap %d"
      [.int length, .int maxWireCollectionElements])
  else
    pure length

def readArrayValue (nested : Option TypeInfo → Prog Err (Tr σ) Value) (colType : Option TypeInfo)
    : Prog Err (Tr σ) Value := do
  let length ← readArrayLength
  if length = 0 then
    pure (.string (ascii "[]"))
  else do
    let elemType := colType.bind TypeInfo.extTypeInfo
    Prog.make length maxWireCollectionElements
    let elems ← Prog.iter length.toNat 0 [] (fun i elems => do
      let elem ← wrapErr "h2go: readArrayValue: element %d: %w" [.int i] (nested elemType)
      pure (elems ++ [sprint elem]))
    pure (.string (ascii "[" ++ joinWith (ascii ",") elems ++ ascii "]"))

def readRowValue (nested : Option TypeInfo → Prog Err (Tr σ) Value) : Prog Err (Tr σ) Value := do
  let length ← wrapErr "h2go: readRowValue: failed to read length: %w" [] readInt32
  if length < 0 then
    Prog.throw (.errorf "h2go: readRowValue: invalid field count %d" [.int length])
  else if length > maxWireCollectionElements then
    Prog.throw (.errorf "h2go: readRowValue: field count %d exceeds cap %d"
      [.int length, .int maxWireCollectionElements])
  else do
    Prog.make length maxWireCollectionElements
    let fields ← Prog.iter length.toNat 0 [] (fun i fields => do
      let f ← wrapErr "h2go: readRowValue: field %d: %w" [.int i] (nested none)
      pure (fields ++ [sprint f]))
    pure (.string (ascii "(" ++ joinWith (ascii ",") fields ++ ascii ")"))

def readTypedValue (nested : Option TypeInfo → Prog Err (Tr σ) Value) (colType : Option TypeInfo)
    (lc : Option LobCollector) (typeCode : ValueType)
    : Prog Err (Tr σ) (Value × Option LobCollector) :=
  if typeCode = .blob ∨ typeCode = .clob then
    readLOBValue typeCode lc
  else if typeCode = .array then do
    let v ← readArrayValue nested colType
    pure (v, lc)
  else if typeCode = .row then do
    let v ← readRowValue nested
    pure (v, lc)
  else do
    let v ← readScalarValue typeCode
    pure (v, lc)

def readValueWith (nested : Option TypeInfo → Prog Err (Tr σ) Value) (colType : Option TypeInfo)
    (lc : Option LobCollector) : Prog Err (Tr σ) (Value × Option LobCollector) := do
  let typeCode ← wrapErr "h2go: ReadValue: failed to read type code: %w" [] readInt32
  readTypedValue nested colType lc (ValueType.ofCode typeCode)

/--
The values nested in a container, with a bound on the depth of the recursion.
-/
def readNestedValue (fuel : Nat) (colType : Option TypeInfo) : Prog Err (Tr σ) Value :=
  match fuel with
  | 0 => Prog.stuck
  | fuel + 1 => do
    let v ← readValueWith (readNestedValue fuel) colType (some nestedLOBs)
    pure v.1

/--
Decode a value. A fetch-on-demand LOB is recorded in the collector, without a collector it is fetched
immediately. A level of nesting takes at least four bytes, so the recursion is never deeper than the
unread input is long.
-/
def readValueInternal (colType : Option TypeInfo) (lc : Option LobCollector)
    : Prog Err (Tr σ) (Value × Option LobCollector) := fun t =>
  readValueWith (readNestedValue t.inp.length) colType lc t

def readValue (colType : Option TypeInfo) : Prog Err (Tr σ) Value := do
  let v ← readValueInternal colType none
  pure v.1

end Fetch

end Tr

end H2Go
