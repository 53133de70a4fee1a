import H2Go.Lib.Utf8

/-!
This module contains the constants of the H2 TCP protocol: operation codes, status codes, the type
codes of value frames and of type information frames, and the wire caps.
-/

namespace H2Go

/--
A Go string, a sequence of bytes that need not be valid UTF-8.
-/
abbrev GoString := List UInt8

instance : LawfulBEq GoString := inferInstance

def ascii (s : String) : GoString := s.toList.map (fun c => UInt8.ofNat c.toNat)

def tcpProtocolVersion20 : Int := 20
def tcpProtocolVersion21 : Int := 21

def statusError : Int := 0
def statusOK : Int := 1
def statusClosed : Int := 2
def statusOKStateChanged : Int := 3

def sessionPrepare : Int := 0
def sessionClose : Int := 1
def commandExecuteQuery : Int := 2
def commandExecuteUpdate : Int := 3
def commandClose : Int := 4
def resultFetchRows : Int := 5
def resultClose : Int := 7
def commandCommit : Int := 8
def sessionSetAutocommit : Int := 15
def sessionHasPendingTransaction : Int := 16
def lobRead : Int := 17
def sessionPrepareReadParams2 : Int := 18

def generatedKeysNone : Int := 0
def generatedKeysAuto : Int := 1
def generatedKeysColumnNumbers : Int := 2
def generatedKeysColumnNames : Int := 3

/--
The cap on the length fields of string and byte payloads.
-/
def maxWireLength : Int := 512 * 2 ^ 20

/--
The cap on the element and row counts of collection-style values.
-/
def maxWireCollectionElements : Int := 2 ^ 20

/--
The maximum number of bytes requested per `LOB_READ` operation.
-/
def lobReadChunkSize : Int := 16 * 4096

def lobMagic : Int := 0x1234

def maxInlineClobChars : Int := maxWireLength

/--
The type codes of value frames. `other` stands for the codes that have no name in the protocol.
-/
inductive ValueType where
  | null
  | boolean
  | tinyint
  | smallint
  | integer
  | bigint
  | numeric
  | double
  | real
  | time
  | date
  | timestamp
  | varbinary
  | varchar
  | varcharIgnoreCase
  | blob
  | clob
  | array
  | javaObject
  | uuid
  | char
  | geometry
  | timestampTZ
  | enum
  | interval
  | row
  | json
  | timeTZ
  | binary
  | decfloat
  | other (code : Int)
  deriving DecidableEq, Repr

namespace ValueType

def code : ValueType → Int
  | null => 0
  | boolean => 1
  | tinyint => 2
  | smallint => 3
  | integer => 4
  | bigint => 5
  | numeric => 6
  | double => 7
  | real => 8
  | time => 9
  | date => 10
  | timestamp => 11
  | varbinary => 12
  | varchar => 13
  | varcharIgnoreCase => 14
  | blob => 15
  | clob => 16
  | array => 17
  | javaObject => 19
  | uuid => 20
  | char => 21
  | geometry => 22
  | timestampTZ => 24
  | enum => 25
  | interval => 26
  | row => 27
  | json => 28
  | timeTZ => 29
  | binary => 30
  | decfloat => 31
  | other n => n

def named : List ValueType :=
  [null, boolean, tinyint, smallint, integer, bigint, numeric, double, real, time, date, timestamp,
    varbinary, varchar, varcharIgnoreCase, blob, clob, array, javaObject, uuid, char, geometry,
    timestampTZ, enum, interval, row, json, timeTZ, binary, decfloat]

def ofCode (n : Int) : ValueType :=
  (named.find? (fun t => t.code = n)).getD (other n)

theorem ofCode_code {t : ValueType} (h : t ∈ named) : ofCode t.code = t := by
  revert t
  decide

theorem code_ofCode (n : Int) : (ofCode n).code = n := by
  unfold ofCode
  cases h : named.find? (fun t => t.code = n) with
  | none => rfl
  | some t => simpa using List.find?_some h

end ValueType

/--
The type codes of type information frames that `ReadTypeInfo` treats on their own.
-/
def tiIntervalSecond : Int := 31
def tiIntervalDaySecond : Int := 35
def tiIntervalHourSec : Int := 37
def tiIntervalMinSec : Int := 38

def tiTable : List (Int × ValueType) :=
  [(-1, .null), (0, .null), (1, .boolean), (2, .tinyint), (3, .smallint), (4, .integer),
    (5, .bigint), (6, .numeric), (7, .double), (8, .real), (9, .time), (10, .date),
    (11, .timestamp), (12, .varbinary), (13, .varchar), (14, .varcharIgnoreCase), (15, .blob),
    (16, .clob), (17, .array), (19, .javaObject), (20, .uuid), (21, .char), (22, .geometry),
    (24, .timestampTZ), (25, .enum), (26, .interval), (27, .interval), (28, .interval),
    (29, .interval), (30, .interval), (tiIntervalSecond, .interval), (32, .interval),
    (33, .interval), (34, .interval), (tiIntervalDaySecond, .interval), (36, .interval),
    (tiIntervalHourSec, .interval), (tiIntervalMinSec, .interval), (39, .row), (40, .json),
    (41, .timeTZ), (42, .binary), (43, .decfloat)]

def tiToValueType (ti : Int) : Option ValueType := tiTable.lookup ti

/--
The interval types whose type information has a scale byte.
-/
def intervalHasFractionalSeconds (ti : Int) : Bool :=
  ti = tiIntervalSecond ∨ ti = tiIntervalDaySecond ∨ ti = tiIntervalHourSec ∨ ti = tiIntervalMinSec

end H2Go
