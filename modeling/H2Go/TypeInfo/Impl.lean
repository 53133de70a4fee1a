import H2Go.Transfer.Write

/-!
This module contains the readers of type information and of result column metadata.
-/

namespace H2Go

/--
Type metadata of a result column or a statement parameter, `-1` stands for an unknown precision or
scale. For `ARRAY` `extTypeInfo` is the element type.
-/
structure TypeInfo where
  valueType : ValueType
  precision : Int
  scale : Int
  nullable : Int
  extTypeInfo : Option TypeInfo

def columnNullableUnknown : Int := 0

def int8 (b : UInt8) : Int := if b.toNat < 128 then b.toNat else b.toNat - 256

namespace Tr

variable {σ : Type}

/--
Skip the extended type information of `ENUM`, `GEOMETRY` and `ROW`, `self` reads the type of a
field.
-/
def skipExtTypeInfo (self : Prog Err (Tr σ) TypeInfo) (valueType : ValueType)
    : Prog Err (Tr σ) Unit :=
  match valueType with
  | .enum => do
    let count ← wrapErr "h2go: skipExtTypeInfo: failed to read ENUM count: %w" [] readInt32
    Prog.iter count.toNat 0 () (fun _ _ => do
      let _ ← wrapErr "h2go: skipExtTypeInfo: failed to read ENUM value: %w" [] readString
      pure ())
  | .geometry => do
    let typ ← wrapErr "h2go: skipExtTypeInfo: failed to read GEOMETRY type: %w" [] readByte
    if typ = 1 then
      let _ ← wrapErr "h2go: skipExtTypeInfo: failed to read GEOMETRY type id: %w" [] readInt16
      pure ()
    else if typ = 2 then
      let _ ← wrapErr "h2go: skipExtTypeInfo: failed to read GEOMETRY SRID: %w" [] readInt32
      pure ()
    else if typ = 3 then
      let _ ← wrapErr "h2go: skipExtTypeInfo: failed to read GEOMETRY type id: %w" [] readInt16
      let _ ← wrapErr "h2go: skipExtTypeInfo: failed to read GEOMETRY SRID: %w" [] readInt32
      pure ()
    else
      pure ()
  | .row => do
    let count ← wrapErr "h2go: skipExtTypeInfo: failed to read ROW field count: %w" [] readInt32
    Prog.iter count.toNat 0 () (fun _ _ => do
      let _ ← wrapErr "h2go: skipExtTypeInfo: failed to read ROW field name: %w" [] readString
      let _ ← wrapErr "h2go: skipExtTypeInfo: failed to read ROW field type: %w" [] self
      pure ())
  | _ => pure ()

/--
The fields that follow the type code `ti` of the value type `info.valueType`, `self` reads the
element type of an `ARRAY`.
-/
def readTypeInfoFields (self : Prog Err (Tr σ) TypeInfo) (ti : Int) (info : TypeInfo)
    : Prog Err (Tr σ) TypeInfo :=
  match info.valueType with
  | .null | .boolean | .tinyint | .smallint | .integer | .bigint | .date | .uuid => pure info
  | .char | .varchar | .varcharIgnoreCase | .binary | .varbinary | .decfloat | .javaObject
  | .json => do
    let prec ← wrapErr "h2go: ReadTypeInfo: failed to read precision: %w" [] readInt32
    pure { info with precision := prec }
  | .blob | .clob => do
    let prec ← wrapErr "h2go: ReadTypeInfo: failed to read LOB precision: %w" [] readInt64
    pure { info with precision := prec }
  | .numeric => do
    let prec ← wrapErr "h2go: ReadTypeInfo: failed to read NUMERIC precision: %w" [] readInt32
    let scale ← wrapErr "h2go: ReadTypeInfo: failed to read NUMERIC scale: %w" [] readInt32
    let _ ← wrapErr "h2go: ReadTypeInfo: failed to read NUMERIC ext flag: %w" [] readBool
    pure { info with precision := prec, scale := scale }
  | .real | .double => do
    let precByte ← wrapErr "h2go: ReadTypeInfo: failed to read precision byte: %w" [] readByte
    pure (if precByte ≠ 0xFF then { info with precision := int8 precByte } else info)
  | .time | .timeTZ | .timestamp | .timestampTZ => do
    let scaleByte ← wrapErr "h2go: ReadTypeInfo: failed to read scale byte: %w" [] readByte
    pure (if scaleByte ≠ 0xFF then { info with scale := int8 scaleByte } else info)
  | .interval => do
    let precByte ← wrapErr "h2go: ReadTypeInfo: failed to read interval precision: %w" [] readByte
    let info := if precByte ≠ 0xFF then { info with precision := int8 precByte } else info
    if intervalHasFractionalSeconds ti then
      let scaleByte ← wrapErr "h2go: ReadTypeInfo: failed to read interval scale: %w" [] readByte
      pure (if scaleByte ≠ 0xFF then { info with scale := int8 scaleByte } else info)
    else
      pure info
  | .array => do
    let prec ← wrapErr "h2go: ReadTypeInfo: failed to read ARRAY precision: %w" [] readInt32
    let elemType ← wrapErr "h2go: ReadTypeInfo: failed to read ARRAY element type: %w" [] self
    pure { info with precision := prec, extTypeInfo := some elemType }
  | .row | .enum | .geometry => do
    skipExtTypeInfo self info.valueType
    pure info
  | .other _ => pure info

def readTypeInfoWith (self : Prog Err (Tr σ) TypeInfo) : Prog Err (Tr σ) TypeInfo := do
  let ti ← wrapErr "h2go: ReadTypeInfo: failed to read type id: %w" [] readInt32
  let valueType := (tiToValueType ti).getD .null
  readTypeInfoFields self ti
    { valueType, precision := -1, scale := -1, nullable := columnNullableUnknown,
      extTypeInfo := none }

/--
`ReadTypeInfo` with a bound on the depth of the recursion.
-/
def readTypeInfoFuel (fuel : Nat) : Prog Err (Tr σ) TypeInfo :=
  match fuel with
  | 0 => Prog.stuck
  | fuel + 1 => readTypeInfoWith (readTypeInfoFuel fuel)

/--
Read the type information of a column or parameter. A level of nesting takes at least four bytes, so
the recursion is never deeper than the unread input is long.
-/
def readTypeInfo : Prog Err (Tr σ) TypeInfo := fun t => readTypeInfoFuel (t.inp.length + 1) t

end Tr

structure ResultColumn where
  columnAlias : GoString
  schemaName : GoString
  tableName : GoString
  columnName : GoString
  typeInfo : TypeInfo
  identity : Bool
  nullable : Int

structure ResultMeta where
  columnCount : Int
  columns : List ResultColumn

namespace Tr

variable {σ : Type}

/--
Protocol versions before 20 send the display size.
-/
def skipDisplaySize (version : Int) (i : Nat) : Prog Err (Tr σ) Unit :=
  if version < tcpProtocolVersion20 then do
    let _ ← wrapErr "h2go: ReadResultMeta: column %d: failed to skip displaySize: %w" [.int i]
      readInt32
    pure ()
  else
    pure ()

def readResultColumn (version : Int) (i : Nat) : Prog Err (Tr σ) ResultColumn := do
  let columnAlias ← wrapErr "h2go: ReadResultMeta: column %d: failed to read alias: %w" [.int i] readString
  let schema ← wrapErr "h2go: ReadResultMeta: column %d: failed to read schema: %w" [.int i]
    readString
  let table ← wrapErr "h2go: ReadResultMeta: column %d: failed to read table: %w" [.int i] readString
  let name ← wrapErr "h2go: ReadResultMeta: column %d: failed to read column name: %w" [.int i]
    readString
  let typeInfo ← wrapErr "h2go: ReadResultMeta: column %d: failed to read type info: %w" [.int i]
    readTypeInfo
  skipDisplaySize version i
  let identity ← wrapErr "h2go: ReadResultMeta: column %d: failed to read identity: %w" [.int i]
    readBool
  let nullable ← wrapErr "h2go: ReadResultMeta: column %d: failed to read nullable: %w" [.int i]
    readInt32
  pure {
    columnAlias := columnAlias.getD [], schemaName := schema.getD [], tableName := table.getD [],
    columnName := name.getD [], typeInfo := { typeInfo with nullable := nullable }, identity, nullable
  }

def readResultMeta (columnCount version : Int) : Prog Err (Tr σ) ResultMeta :=
  if columnCount < 0 then
    Prog.throw (.errorf "h2go: ReadResultMeta: invalid column count %d" [.int columnCount])
  else if columnCount > maxWireCollectionElements then
    Prog.throw (.errorf "h2go: ReadResultMeta: column count %d exceeds cap %d"
      [.int columnCount, .int maxWireCollectionElements])
  else do
    Prog.make columnCount maxWireCollectionElements
    let columns ← Prog.iter columnCount.toNat 0 [] (fun i columns => do
      let col ← readResultColumn version i
      pure (columns ++ [col]))
    pure { columnCount, columns }

end Tr

end H2Go
