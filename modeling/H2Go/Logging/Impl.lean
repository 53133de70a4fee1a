import H2Go.NetURL.Impl
import H2Go.Lib.Regex

/-!
This module contains the redaction of passwords in log messages.
-/

namespace H2Go

open Digits Regex

def redactedValue : GoString := ascii "[REDACTED]"

/--
One letter of a case-insensitive pattern. The long s, two bytes of UTF-8, is a case variant of `s`.
-/
def foldLetter (b : UInt8) : Re UInt8 :=
  if lower b = 115 then
    .alt (.one (fun x => lower x = 115)) (.seq (.one (fun x => x = 0xC5)) (.one (fun x => x = 0xBF)))
  else
    .one (fun x => lower x = lower b)

def foldText (s : GoString) : Re UInt8 :=
  match s with
  | [] => .empty
  | b :: s => .seq (foldLetter b) (foldText s)

def jdbcPasswordPattern : Pattern UInt8 where
  first b := b = semicolonByte
  head := foldText (ascii "PASSWORD=")
  gap := .star (fun b => b ≠ semicolonByte)
  tail := .empty

def userByte (b : UInt8) : Bool := b ≠ slashByte && b ≠ atByte && b ≠ colonByte

def urlUserInfoPattern : Pattern UInt8 where
  first b := lower b = 104
  head := .seq (foldText (ascii "2")) (.seq
    (.alt (foldText (ascii "+tcp")) (.alt (foldText (ascii ":tcp")) .empty)) (.seq
    (foldText (ascii "://")) (.seq (.one userByte) (.seq (.star userByte) (foldText (ascii ":"))))))
  gap := .star (fun b => b ≠ atByte && b ≠ slashByte)
  tail := .one (fun b => b = atByte)

def queryPasswordPattern : Pattern UInt8 where
  first b := b = questionByte || b = ampersandByte
  head := .seq (.alt (foldText (ascii "password")) (.alt (foldText (ascii "passwd"))
    (.alt (foldText (ascii "pass")) (foldText (ascii "pwd"))))) (foldText (ascii "="))
  gap := .star (fun b => b ≠ ampersandByte)
  tail := .empty

def redactSensitiveString (s : GoString) : GoString :=
  if s = [] then
    s
  else
    let s := jdbcPasswordPattern.replaceAll redactedValue s
    let s := urlUserInfoPattern.replaceAll redactedValue s
    queryPasswordPattern.replaceAll redactedValue s

theorem redactSensitiveString_eq (s : GoString)
    : redactSensitiveString s = queryPasswordPattern.replaceAll redactedValue
        (urlUserInfoPattern.replaceAll redactedValue
          (jdbcPasswordPattern.replaceAll redactedValue s)) := by
  unfold redactSensitiveString
  split
  . next h => rw [h]; rfl
  . rfl

example : redactSensitiveString (ascii "h2://sa:secret@h/db?pwd=x&a=b")
    = ascii "h2://sa:[REDACTED]@h/db?pwd=[REDACTED]&a=b" := by
  decide +kernel

example : redactSensitiveString (ascii "jdbc:h2:tcp://h/db;Password=x;MODE=y")
    = ascii "jdbc:h2:tcp://h/db;Password=[REDACTED];MODE=y" := by
  decide +kernel

end H2Go
