import H2Go.Errors
import H2Go.Lib.Digits

/-!
This module contains the textual forms of the driver: integers, UUIDs, DECFLOAT numbers and
intervals.
-/

namespace H2Go

open Digits

def minusByte : UInt8 := 45
def plusByte : UInt8 := 43
def dotByte : UInt8 := 46
def colonByte : UInt8 := 58
def zeroByte : UInt8 := 48

def wrapInt64 (x : Int) : Int := (x + 2 ^ 63) % 2 ^ 64 - 2 ^ 63

/--
`strconv.FormatInt` in base 10, the `%d` verb.
-/
def formatInt (x : Int) : GoString :=
  if x < 0 then minusByte :: decimal x.natAbs else decimal x.natAbs

/--
The `%0nd` verb: zeros after the sign fill the text up to `width` bytes.
-/
def formatIntPadded (width : Nat) (x : Int) : GoString :=
  let digits := decimal x.natAbs
  if x < 0 then
    minusByte :: (List.replicate (width - 1 - digits.length) zeroByte ++ digits)
  else
    List.replicate (width - digits.length) zeroByte ++ digits

section UUID

def isSpace (r : Nat) : Bool :=
  (9 ≤ r && r ≤ 13) || r = 32 || r = 0x85 || r = 0xA0 || r = 0x1680 || (0x2000 ≤ r && r ≤ 0x200A)
    || r = 0x2028 || r = 0x2029 || r = 0x202F || r = 0x205F || r = 0x3000

def trimSpace (s : GoString) : GoString :=
  let widths := Utf8.runeWidths s
  let lead := ((widths.takeWhile (fun rw => isSpace rw.1)).map Prod.snd).sum
  let trail := ((widths.reverse.takeWhile (fun rw => isSpace rw.1)).map Prod.snd).sum
  (s.take (s.length - trail)).drop lead

def parseUint (s : GoString) : Except Err Nat :=
  if s = [] ∨ ¬ s.all (fun b => (digitValue b).isSome) then
    .error (.errorf "strconv.ParseUint: parsing %q: invalid syntax" [.str s])
  else if textValue 16 s ≥ 2 ^ 64 then
    .error (.errorf "strconv.ParseUint: parsing %q: value out of range" [.str s])
  else
    .ok (textValue 16 s)

def liftExcept {σ α : Type} (r : Except Err α) : Prog Err σ α :=
  match r with
  | .ok a => pure a
  | .error e => Prog.throw e

/--
The compact form of a UUID text, all hyphens are deleted from a text with hyphens at the four
canonical positions.
-/
def compactUUID {σ : Type} (uuid : GoString) : Prog Err σ GoString :=
  if uuid.length = 36 then
    if uuid[8]? ≠ some minusByte ∨ uuid[13]? ≠ some minusByte ∨ uuid[18]? ≠ some minusByte
        ∨ uuid[23]? ≠ some minusByte then
      Prog.throw (.errorf "expected canonical UUID hyphen positions" [])
    else
      pure (uuid.filter (fun b => b ≠ minusByte))
  else if uuid.length = 32 then
    pure uuid
  else
    Prog.throw (.errorf "expected 32 or 36 characters, got %d" [.int uuid.length])

def parseUUIDString {σ : Type} (s : GoString) : Prog Err σ (Int × Int) := do
  let uuid ← compactUUID (trimSpace s)
  let highText ← Prog.slice uuid 0 16
  let high ← wrapErr "invalid UUID high bits: %w" [] (liftExcept (parseUint highText))
  let lowText ← Prog.slice uuid 16 uuid.length
  let low ← wrapErr "invalid UUID low bits: %w" [] (liftExcept (parseUint lowText))
  pure (wrapInt64 high, wrapInt64 low)

def formatUUID (high low : Int) : GoString :=
  let h := (high % 2 ^ 64).toNat
  let l := (low % 2 ^ 64).toNat
  padded 16 8 (h / 2 ^ 32) ++ minusByte :: padded 16 4 (h / 2 ^ 16) ++ minusByte :: padded 16 4 h
    ++ minusByte :: padded 16 4 (l / 2 ^ 48) ++ minusByte :: padded 16 12 l

end UUID

section DecFloat

/--
An exact decimal floating-point value `unscaled * 10 ^ (-scale)` or one of the special values.
-/
inductive DecFloat where
  | finite (unscaled scale : Int)
  | posInf
  | negInf
  | nan
  deriving DecidableEq, Repr

def splitSign (s : GoString) : Bool × GoString :=
  match s with
  | b :: rest =>
    if b = minusByte then (true, rest) else if b = plusByte then (false, rest) else (false, s)
  | [] => (false, s)

def splitFraction (s : GoString) : GoString × GoString :=
  match s with
  | b :: rest => if b = dotByte then rest.span isDecimal else ([], s)
  | [] => ([], s)

def scanExponent (s rest : GoString) : Except Err (Int × GoString) :=
  match rest with
  | b :: rest' =>
    -- 'e' or 'E'
    if b = 101 ∨ b = 69 then
      let (expNeg, expText) := splitSign rest'
      let (expDigits, rest) := expText.span isDecimal
      if expDigits = [] then
        .error (.errorf "h2go: ParseDecFloat: exponent digits missing in %q" [.str s])
      else if expText.length > 10 then
        .error (.errorf "h2go: ParseDecFloat: exponent out of range in %q" [.str s])
      else
        let v : Int := textValue 10 expDigits
        .ok (if expNeg then -v else v, rest)
    else
      .ok (0, rest)
  | [] => .ok (0, rest)

def parseDecFloat (s : GoString) : Except Err DecFloat :=
  if s = ascii "Infinity" then
    .ok .posInf
  else if s = ascii "-Infinity" then
    .ok .negInf
  else if s = ascii "NaN" then
    .ok .nan
  else
    let (neg, rest) := splitSign s
    let (intDigits, rest) := rest.span isDecimal
    let (fracDigits, rest) := splitFraction rest
    let digits := intDigits ++ fracDigits
    if digits = [] then
      .error (.errorf "h2go: ParseDecFloat: no digits in %q" [.str s])
    else do
      let (exp, rest) ← scanExponent s rest
      match rest with
      | b :: _ =>
        .error (.errorf "h2go: ParseDecFloat: unexpected character %q in %q" [.str [b], .str s])
      | [] =>
        let scale := fracDigits.length - exp
        if scale > 2 ^ 31 - 1 ∨ scale < -2 ^ 31 then
          .error (.errorf "h2go: ParseDecFloat: scale %d out of range in %q" [.int scale, .str s])
        else
          let un : Int := textValue 10 digits
          .ok (.finite (if neg then -un else un) scale)

/--
The exact text of a number, and the spellings of the special values.
-/
def DecFloat.string (d : DecFloat) : GoString :=
  match d with
  | .posInf => ascii "Infinity"
  | .negInf => ascii "-Infinity"
  | .nan => ascii "NaN"
  | .finite unscaled scale =>
    let digits := decimal unscaled.natAbs
    let p : Int := digits.length
    let adjusted := p - 1 - scale
    let neg := if unscaled < 0 then [minusByte] else []
    if scale ≥ 0 ∧ adjusted ≥ -6 then
      if scale = 0 then
        neg ++ digits
      else if p > scale then
        neg ++ (digits.take (p - scale).toNat ++ dotByte :: digits.drop (p - scale).toNat)
      else
        neg ++ (ascii "0." ++ List.replicate (scale - p).toNat zeroByte ++ digits)
    else
      let fraction := if p > 1 then dotByte :: digits.drop 1 else []
      let exponent := if adjusted ≥ 0 then plusByte :: formatInt adjusted
        else minusByte :: formatInt (-adjusted)
      neg ++ (digits.take 1 ++ fraction ++ ascii "E" ++ exponent)

end DecFloat

section Interval

inductive IntervalQualifier where
  | year
  | month
  | day
  | hour
  | minute
  | second
  | yearToMonth
  | dayToHour
  | dayToMinute
  | dayToSecond
  | hourToMinute
  | hourToSecond
  | minuteToSecond
  | unknown
  deriving DecidableEq, Repr

namespace IntervalQualifier

def name : IntervalQualifier → GoString
  | year => ascii "YEAR"
  | month => ascii "MONTH"
  | day => ascii "DAY"
  | hour => ascii "HOUR"
  | minute => ascii "MINUTE"
  | second => ascii "SECOND"
  | yearToMonth => ascii "YEAR TO MONTH"
  | dayToHour => ascii "DAY TO HOUR"
  | dayToMinute => ascii "DAY TO MINUTE"
  | dayToSecond => ascii "DAY TO SECOND"
  | hourToMinute => ascii "HOUR TO MINUTE"
  | hourToSecond => ascii "HOUR TO SECOND"
  | minuteToSecond => ascii "MINUTE TO SECOND"
  | unknown => ascii "UNKNOWN"

def hasRemaining : IntervalQualifier → Bool
  | year | month | day | hour | minute | unknown => false
  | _ => true

end IntervalQualifier

def intervalQualifier (ordinal : Nat) : IntervalQualifier :=
  match ordinal with
  | 0 => .year
  | 1 => .month
  | 2 => .day
  | 3 => .hour
  | 4 => .minute
  | 5 => .second
  | 6 => .yearToMonth
  | 7 => .dayToHour
  | 8 => .dayToMinute
  | 9 => .dayToSecond
  | 10 => .hourToMinute
  | 11 => .hourToSecond
  | 12 => .minuteToSecond
  | _ => .unknown

def intervalNanosPerSecond : Int := 1000000000
def intervalNanosPerMinute : Int := 60 * intervalNanosPerSecond

/--
A fraction of a second with trailing zeros trimmed, empty when it is zero.
-/
def formatIntervalNanos (nanos : Int) : GoString :=
  if nanos ≤ 0 then
    []
  else
    dotByte :: ((formatIntPadded 9 nanos).reverse.dropWhile (· = zeroByte)).reverse

def intervalFields (qualifier : IntervalQualifier) (leading remaining : Int) : GoString :=
  match qualifier with
  | .second => formatInt leading ++ formatIntervalNanos remaining
  | .yearToMonth => formatInt leading ++ minusByte :: formatInt remaining
  | .dayToHour => formatInt leading ++ ascii " " ++ formatIntPadded 2 remaining
  | .dayToMinute =>
    formatInt leading ++ ascii " " ++ formatIntPadded 2 (remaining.tdiv 60) ++ colonByte ::
      formatIntPadded 2 (remaining.tmod 60)
  | .dayToSecond =>
    let minutes := remaining.tdiv intervalNanosPerMinute
    let nanos := remaining.tmod intervalNanosPerMinute
    formatInt leading ++ ascii " " ++ formatIntPadded 2 (minutes.tdiv 60) ++ colonByte ::
      formatIntPadded 2 (minutes.tmod 60) ++ colonByte ::
      formatIntPadded 2 (nanos.tdiv intervalNanosPerSecond) ++
      formatIntervalNanos (nanos.tmod intervalNanosPerSecond)
  | .hourToMinute => formatInt leading ++ colonByte :: formatIntPadded 2 remaining
  | .hourToSecond =>
    let minutes := remaining.tdiv intervalNanosPerMinute
    let secPart := remaining.tmod intervalNanosPerMinute
    formatInt leading ++ colonByte :: formatIntPadded 2 minutes ++ colonByte ::
      formatIntPadded 2 (secPart.tdiv intervalNanosPerSecond) ++
      formatIntervalNanos (secPart.tmod intervalNanosPerSecond)
  | .minuteToSecond =>
    formatInt leading ++ colonByte :: formatIntPadded 2 (remaining.tdiv intervalNanosPerSecond) ++
      formatIntervalNanos (remaining.tmod intervalNanosPerSecond)
  | _ => formatInt leading

def formatInterval (qualifier : IntervalQualifier) (leading remaining : Int) : GoString :=
  let neg := if leading < 0 then [minusByte] else []
  let leading := if leading < 0 then wrapInt64 (-leading) else leading
  ascii "INTERVAL '" ++ neg ++ intervalFields qualifier leading remaining ++ ascii "' " ++
    qualifier.name

end Interval

end H2Go
