import H2Go.Session.Impl
import H2Go.Value.Impl

/-!
This module contains the generated keys: which keys an update asks for, the result set that answers
it, and the single numeric key that `LastInsertId` reports.
-/

namespace H2Go

open Digits

structure GeneratedKeysMode where
  mode : Int
  columns : List Int
  names : List GoString
  deriving DecidableEq, Repr

structure GeneratedKeysResult where
  columns : List GoString
  rows : List (List Value)
  deriving DecidableEq, Repr

def lastInsertIDUnavailableError (format : String) (args : List FmtArg) : Err :=
  .wrapf ("h2go: LastInsertId: " ++ format ++ ": %w") args .lastInsertIDUnavailable

def isLastInsertIDUnavailable (err : Err) : Bool := err.is .lastInsertIDUnavailable

/--
`strconv.ParseInt` in base 10 with 64 bits, `none` is a syntax or range error.
-/
def parseInt (s : GoString) : Option Int :=
  let (negative, digits) :=
    match s with
    | [] => (false, [])
    | b :: rest =>
      if b = minusByte then (true, rest) else if b = plusByte then (false, rest) else (false, b :: rest)
  if digits = [] ∨ ¬ digits.all isDecimal then
    none
  else
    let n : Int := if negative then -(textValue 10 digits : Int) else textValue 10 digits
    if -(2 ^ 63) ≤ n ∧ n < 2 ^ 63 then some n else none

/--
The value of a `float64` when it is an integer, by its sign, exponent and fraction bits.
-/
def floatInteger (bits : UInt64) : Option Int :=
  let exponent := bits.toNat / 2 ^ 52 % 2 ^ 11
  let fraction := bits.toNat % 2 ^ 52
  let sign : Int := if bits.toNat < 2 ^ 63 then 1 else -1
  let mantissa := if exponent = 0 then fraction else 2 ^ 52 + fraction
  let shift := (if exponent = 0 then 1 else exponent)
  if exponent = 2 ^ 11 - 1 then
    none
  else if 1075 ≤ shift then
    some (sign * (mantissa * 2 ^ (shift - 1075) : Nat))
  else if mantissa % 2 ^ (1075 - shift) = 0 then
    some (sign * (mantissa / 2 ^ (1075 - shift) : Nat))
  else
    none

section

variable [GoStd]

def textKeyToInt64 (x : GoString) : Except Err Int :=
  match parseInt (trimSpace x) with
  | some id => .ok id
  | none => .error (lastInsertIDUnavailableError "generated key %q is not numeric" [.str x])

def generatedKeyValueToInt64 (v : Value) : Except Err Int :=
  match v with
  | .int64 x => .ok x.toInt
  | .float64 x =>
    match floatInteger x with
    | none =>
      .error (lastInsertIDUnavailableError "generated key %v is not an integer"
        [.str (GoStd.sprintFloat x)])
    | some n =>
      -- the bound is `float64(math.MaxInt64)`, which is `2^63`
      if n < -(2 ^ 63) ∨ n > 2 ^ 63 then
        .error (lastInsertIDUnavailableError "generated key %v overflows int64"
          [.str (GoStd.sprintFloat x)])
      else
        .ok (wrapInt64 n)
  | .string x => textKeyToInt64 x
  | .bytes x => textKeyToInt64 (x.getD [])
  | .nil => .error (lastInsertIDUnavailableError "H2 returned a NULL generated key" [])
  | .bool _ =>
    .error (lastInsertIDUnavailableError "generated key type %T is not numeric" [.str (ascii "bool")])
  | .time _ =>
    .error (lastInsertIDUnavailableError "generated key type %T is not numeric"
      [.str (ascii "time.Time")])
  | .lob _ =>
    .error (lastInsertIDUnavailableError "generated key type %T is not numeric"
      [.str (ascii "*h2go.pendingLob")])
  | .other typeName =>
    .error (lastInsertIDUnavailableError "generated key type %T is not numeric" [.str typeName])

namespace GeneratedKeysResult

/--
The single numeric key of a result with one row and one column.
-/
def singleInt64 (gkr : GeneratedKeysResult) : Except Err Int :=
  if gkr.columns.length ≠ 1 then
    .error (lastInsertIDUnavailableError
      "H2 returned %d generated key column(s) across %d row(s)"
      [.int gkr.columns.length, .int gkr.rows.length])
  else
    match gkr.rows with
    | [[v]] => generatedKeyValueToInt64 v
    | [row] =>
      .error (lastInsertIDUnavailableError "H2 returned %d generated key value(s)"
        [.int row.length])
    | rows =>
      .error (lastInsertIDUnavailableError
        "H2 returned %d generated key column(s) across %d row(s)"
        [.int gkr.columns.length, .int rows.length])

end GeneratedKeysResult

end

abbrev Batch := List (List Value) × LobCollector

def getColumn {σ : Type} (m : Option ResultMeta) (j : Nat) : Prog Err σ (Option ResultColumn) :=
  match m with
  | none => Prog.panic .nilDeref
  | some m => pure m.columns[j]?

namespace Tr

variable {σ : Type} [GoStd] [Peer σ]

/--
Read the value of the column `j`. `missing` and `failed` are the texts of the caller's errors.
-/
def readColumn (missing failed : String) (m : Option ResultMeta) (lc : LobCollector) (j : Nat)
    : Prog Err (Tr σ) (Value × Option LobCollector) := do
  let col ← getColumn m j
  match col with
  | none => Prog.throw (.errorf missing [.int j])
  | some col =>
    wrapErr failed [.int j] (readValueInternal (some col.typeInfo) (some { lc with curCol := j }))

def readColumns (missing failed : String) (m : Option ResultMeta) (columnCount : Int)
    (lc : LobCollector) : Prog Err (Tr σ) (List Value × LobCollector) := do
  Prog.make columnCount maxWireCollectionElements
  Prog.iter columnCount.toNat 0 ([], lc) (fun j acc => do
    let r ← readColumn missing failed m acc.2 j
    pure (acc.1 ++ [r.1], r.2.getD acc.2))

def spliceLob {ρ : Type} (rows : List (List Value)) (p : PendingLob) (v : Value)
    : Prog Err ρ (List (List Value)) := do
  let row ← Prog.index rows p.row
  let row ← Prog.setIndex row p.col v
  Prog.setIndex rows p.row row

/--
Read a row of the generated keys, `none` is the marker for the end of the result.
-/
def readGeneratedKeyRow (m : ResultMeta) (lc : LobCollector)
    : Prog Err (Tr σ) (Option (List Value × LobCollector)) := do
  let rowFlag ← inFunc "readGeneratedKeyRow" "failed to read row flag" readByte
  if int8 rowFlag = 1 then do
    let r ← readColumns "h2go: readGeneratedKeyRow: missing metadata for column %d"
      "h2go: readGeneratedKeyRow: failed to read column %d: %w" (some m) m.columnCount lc
    pure (some r)
  else if int8 rowFlag = 0 then
    pure none
  else if int8 rowFlag = -1 then
    Prog.mapErr (wrapError "readGeneratedKeyRow") readH2Error
  else
    Prog.throw (.errorf "h2go: readGeneratedKeyRow: unexpected row flag %d" [.int rowFlag.toNat])

/--
Read at most `n` rows of the generated keys, `full` is what happens when none of them was the last.
-/
def readGeneratedKeyRows (full : Batch → Prog Err (Tr σ) Batch) (m : ResultMeta) (n : Nat)
    (acc : Batch) : Prog Err (Tr σ) Batch :=
  match n with
  | 0 => full acc
  | n + 1 => do
    let r ← readGeneratedKeyRow m { acc.2 with curRow := acc.1.length }
    match r with
    | none => pure acc
    | some r => readGeneratedKeyRows full m n (acc.1 ++ [r.1], r.2)

/--
Read the rows up to the marker, each of them takes at least one byte.
-/
def readGeneratedKeyRowsToEnd (m : ResultMeta) : Prog Err (Tr σ) Batch := fun t =>
  readGeneratedKeyRows (fun _ => Prog.stuck) m (t.inp.length + 1) ([], .empty) t

/--
The rows of the generated keys. A positive count is known, for a negative one the rows are read until
the marker.
-/
def readGeneratedKeyBatch (m : ResultMeta) (rowCount : Int)
    : Prog Err (Tr σ) Batch :=
  if 0 < rowCount then do
    Prog.make rowCount maxWireCollectionElements
    readGeneratedKeyRows pure m rowCount.toNat ([], .empty)
  else if rowCount < 0 then
    readGeneratedKeyRowsToEnd m
  else
    pure ([], .empty)

end Tr

namespace Session

variable {σ : Type}

/--
The mode of the configuration, the default is the automatic mode.
-/
def generatedKeysMode (s : Session σ) : Int :=
  match s.cfg with
  | none => generatedKeysAuto
  | some cfg =>
    if ¬ cfg.generatedKeysModeSet then
      generatedKeysAuto
    else if cfg.generatedKeysMode = generatedKeysNone ∨ cfg.generatedKeysMode = generatedKeysAuto
        ∨ cfg.generatedKeysMode = generatedKeysColumnNumbers
        ∨ cfg.generatedKeysMode = generatedKeysColumnNames then
      cfg.generatedKeysMode
    else
      generatedKeysAuto

def configuredGeneratedKeys (s : Session σ) : GeneratedKeysMode :=
  let mode := s.generatedKeysMode
  if mode = generatedKeysColumnNumbers then
    { mode, columns := (s.cfg.map Config.generatedKeysColumns).getD [], names := [] }
  else if mode = generatedKeysColumnNames then
    { mode, columns := [], names := (s.cfg.map Config.generatedKeysColumnNames).getD [] }
  else
    { mode, columns := [], names := [] }

/--
The request of the context wins over the one of the configuration, unless its mode is unknown.
-/
def resolveGeneratedKeys (ctx : Ctx) (s : Session σ) : GeneratedKeysMode :=
  match ctx.generatedKeys with
  | none => s.configuredGeneratedKeys
  | some req =>
    if req.mode = generatedKeysNone ∨ req.mode = generatedKeysAuto then
      { mode := req.mode, columns := [], names := [] }
    else if req.mode = generatedKeysColumnNumbers then
      { mode := req.mode, columns := req.columns, names := [] }
    else if req.mode = generatedKeysColumnNames then
      { mode := req.mode, columns := [], names := req.names }
    else
      s.configuredGeneratedKeys

variable [GoStd] [Peer σ]

def resolveGeneratedKeyLobs (pending : List PendingLob) (rows : List (List Value))
    : Prog Err (Session σ) (List (List Value)) :=
  match pending with
  | [] => pure rows
  | p :: pending => do
    let v ← orBreak
      (wrapErr "h2go: readGeneratedKeys: failed to resolve deferred LOB (row %d column %d): %w"
        [.int p.row, .int p.col] (Tr.fetchLob p))
    let rows ← Tr.spliceLob rows p v
    resolveGeneratedKeyLobs pending rows

def readGeneratedKeysRows (m : ResultMeta) (rowCount : Int)
    : Prog Err (Session σ) (GeneratedKeysResult × Except Err Int) := do
  let r ← orBreakUnlessAligned (Tr.readGeneratedKeyBatch m rowCount)
  let rows ← resolveGeneratedKeyLobs r.2.pending r.1
  let result : GeneratedKeysResult := { columns := m.columns.map ResultColumn.columnAlias, rows }
  pure (result, result.singleInt64)

def readGeneratedKeysBody (columnCount rowCount : Int)
    : Prog Err (Session σ) (GeneratedKeysResult × Except Err Int) := do
  let s ← Prog.get
  let m ← orBreak
    (inFunc "readGeneratedKeys" "failed to read metadata" (Tr.readResultMeta columnCount s.version))
  readGeneratedKeysRows m rowCount

/--
Read the generated keys that follow the reply to an update. The result is returned together with its
single numeric key or the reason why there is none.
-/
def readGeneratedKeys : Prog Err (Session σ) (GeneratedKeysResult × Except Err Int) :=
  ifOpen (.errorf "h2go: readGeneratedKeys: session closed" []) do
    let columnCount ← orBreak
      (inFunc "readGeneratedKeys" "failed to read column count" Tr.readInt32)
    let rowCount ← orBreak
      (inFunc "readGeneratedKeys" "failed to read row count" Tr.readRowCount)
    -- this check does not mark the session
    if rowCount > maxWireCollectionElements then
      Prog.throw (.errorf "h2go: readGeneratedKeys: row count %d exceeds cap %d"
        [.int rowCount, .int maxWireCollectionElements])
    else
      readGeneratedKeysBody columnCount rowCount

end Session

end H2Go
