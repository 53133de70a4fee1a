import H2Go.Text.Lemmas
import Mathlib.Algebra.Field.Rat
import Mathlib.Tactic.FieldSimp
import Mathlib.Tactic.Ring

/-!
This module contains DECFLOAT numbers as they are written: the grammar of `java.math.BigDecimal`,
that `ParseDecFloat` reads exactly the number a text denotes, and the text that `String` prints.
-/

namespace H2Go

open Digits

inductive SignText where
  | none
  | plus
  | minus
  deriving DecidableEq, Repr

namespace SignText

def text : SignText → GoString
  | none => []
  | plus => [plusByte]
  | minus => [minusByte]

def isMinus : SignText → Bool
  | minus => true
  | _ => false

def apply (sign : SignText) (x : Int) : Int := if sign.isMinus then -x else x

end SignText

/--
The exponent of a number, `[eE] [+-]? digits+`.
-/
structure Exponent where
  letter : UInt8
  sign : SignText
  digits : GoString
  letter_eq : letter = 101 ∨ letter = 69
  digits_ne : digits ≠ []
  all_decimal : ∀ b ∈ digits, isDecimal b

namespace Exponent

def text (e : Exponent) : GoString := e.letter :: (e.sign.text ++ e.digits)

def value (e : Exponent) : Int := e.sign.apply (textValue 10 e.digits)

end Exponent

/--
A number as it is written, `[+-]? (digits+ [. digits*] | . digits+) ([eE] [+-]? digits+)?`.
-/
structure DecLiteral where
  sign : SignText
  intDigits : GoString
  fraction : Option GoString
  exponent : Option Exponent
  int_decimal : ∀ b ∈ intDigits, isDecimal b
  frac_decimal : ∀ b ∈ fraction.getD [], isDecimal b
  digits_ne : intDigits ++ fraction.getD [] ≠ []

namespace DecLiteral

def fractionText (fraction : Option GoString) : GoString :=
  match fraction with
  | none => []
  | some ds => dotByte :: ds

def exponentText (exponent : Option Exponent) : GoString :=
  match exponent with
  | none => []
  | some e => e.text

def text (l : DecLiteral) : GoString :=
  l.sign.text ++ (l.intDigits ++ (fractionText l.fraction ++ exponentText l.exponent))

def fracDigits (l : DecLiteral) : GoString := l.fraction.getD []

def exp (l : DecLiteral) : Int := (l.exponent.map Exponent.value).getD 0

def expLength (l : DecLiteral) : Nat := (l.exponent.map (fun e => e.digits.length)).getD 0

def unscaled (l : DecLiteral) : Int := l.sign.apply (textValue 10 (l.intDigits ++ l.fracDigits))

def scale (l : DecLiteral) : Int := l.fracDigits.length - l.exp

def Fits (l : DecLiteral) : Prop := -2 ^ 31 ≤ l.scale ∧ l.scale < 2 ^ 31

instance (l : DecLiteral) : Decidable l.Fits := inferInstanceAs (Decidable (_ ∧ _))

end DecLiteral

section Scan

theorem splitSign_text (sign : SignText) {rest : GoString}
    (h : ∀ b ∈ rest.head?, b ≠ minusByte ∧ b ≠ plusByte)
    : splitSign (sign.text ++ rest) = (sign.isMinus, rest) := by
  cases sign with
  | none =>
    cases rest with
    | nil => rfl
    | cons b rest =>
      obtain ⟨hminus, hplus⟩ := h b rfl
      simp [SignText.text, SignText.isMinus, splitSign, hminus, hplus]
  | plus => rfl
  | minus => rfl

theorem splitSign_cases (s : GoString)
    : ∃ sign : SignText, s = sign.text ++ (splitSign s).2 ∧ (splitSign s).1 = sign.isMinus := by
  unfold splitSign
  split
  . next b rest =>
    split
    . next h => exact ⟨.minus, by rw [h]; rfl, rfl⟩
    . split
      . next h => exact ⟨.plus, by rw [h]; rfl, rfl⟩
      . exact ⟨.none, rfl, rfl⟩
  . exact ⟨.none, rfl, rfl⟩

theorem span_append {ds rest : GoString} (hds : ∀ b ∈ ds, isDecimal b)
    (hrest : ∀ b ∈ rest.head?, ¬ isDecimal b)
    : (ds ++ rest).span isDecimal = (ds, rest) := by
  rw [List.span_eq_takeWhile_dropWhile, List.takeWhile_append_of_pos hds,
    List.dropWhile_append_of_pos hds]
  cases rest with
  | nil => simp
  | cons b rest => simp [hrest b rfl]

theorem span_cases (s : GoString)
    : s = (s.span isDecimal).1 ++ (s.span isDecimal).2 ∧ ∀ b ∈ (s.span isDecimal).1, isDecimal b := by
  rw [List.span_eq_takeWhile_dropWhile]
  exact ⟨List.takeWhile_append_dropWhile.symm, fun b hb => List.mem_takeWhile_imp hb⟩

theorem splitFraction_text {fraction : Option GoString} {rest : GoString}
    (hfraction : ∀ b ∈ fraction.getD [], isDecimal b)
    (hrest : ∀ b ∈ rest.head?, ¬ isDecimal b ∧ b ≠ dotByte)
    : splitFraction (DecLiteral.fractionText fraction ++ rest) = (fraction.getD [], rest) := by
  cases fraction with
  | none =>
    cases rest with
    | nil => rfl
    | cons b rest => simp [DecLiteral.fractionText, splitFraction, (hrest b rfl).2]
  | some ds =>
    have hspan := span_append hfraction (fun b hb => (hrest b hb).1)
    simpa [DecLiteral.fractionText, splitFraction] using hspan

theorem splitFraction_cases (s : GoString)
    : ∃ fraction : Option GoString, s = DecLiteral.fractionText fraction ++ (splitFraction s).2 ∧
        (splitFraction s).1 = fraction.getD [] ∧ ∀ b ∈ fraction.getD [], isDecimal b := by
  unfold splitFraction
  split
  . next b rest =>
    split
    . next h =>
      obtain ⟨hrest, hdigits⟩ := span_cases rest
      refine ⟨some (rest.span isDecimal).1, ?_, rfl, hdigits⟩
      rw [h]
      exact congrArg (dotByte :: ·) hrest
    . exact ⟨none, rfl, rfl, by simp⟩
  . exact ⟨none, rfl, rfl, by simp⟩

theorem head_digits {ds : GoString} (hds : ∀ b ∈ ds, isDecimal b)
    : ∀ b ∈ ds.head?, b ≠ minusByte ∧ b ≠ plusByte :=
  fun b hb => isDecimal_ne_sign (hds b (List.mem_of_mem_head? hb))

theorem scanExponent_text (s : GoString) (e : Exponent)
    : scanExponent s e.text = if 10 < e.digits.length then
          .error (.errorf "h2go: ParseDecFloat: exponent out of range in %q" [.str s])
        else
          .ok (e.value, []) := by
  unfold scanExponent Exponent.text
  dsimp only
  rw [if_pos e.letter_eq, splitSign_text e.sign (head_digits e.all_decimal)]
  dsimp only
  rw [span_of_all e.all_decimal]
  dsimp only
  rw [if_neg e.digits_ne]
  rfl

theorem scanExponent_cases {s rest : GoString} {exp : Int} (h : scanExponent s rest = .ok (exp, []))
    : (rest = [] ∧ exp = 0) ∨
        ∃ e : Exponent, rest = e.text ∧ exp = e.value ∧ e.digits.length ≤ 10 := by
  unfold scanExponent at h
  split at h
  . next b rest' =>
    split at h
    . next hletter =>
      obtain ⟨sign, hsign, hneg⟩ := splitSign_cases rest'
      generalize splitSign rest' = r at h hsign hneg
      obtain ⟨neg, expText⟩ := r
      obtain ⟨hspan, hdigits⟩ := span_cases expText
      dsimp only at h
      generalize expText.span isDecimal = r at h hspan hdigits
      obtain ⟨digits, rest⟩ := r
      dsimp only at h hsign hneg hspan hdigits
      split at h
      . cases h
      next hne =>
      split at h
      . cases h
      next hlen =>
      simp only [Except.ok.injEq, Prod.mk.injEq] at h
      obtain ⟨rfl, rfl⟩ := h
      rw [List.append_nil] at hspan
      subst hsign hneg hspan
      exact .inr ⟨⟨b, sign, expText, hletter, hne, hdigits⟩, rfl, rfl, Nat.le_of_not_lt hlen⟩
    . cases h
  . simp only [Except.ok.injEq, Prod.mk.injEq] at h
    exact .inl ⟨rfl, h.1.symm⟩

end Scan

namespace DecLiteral

theorem head_exponentText (exponent : Option Exponent)
    : ∀ b ∈ (exponentText exponent).head?, ¬ isDecimal b ∧ b ≠ dotByte := by
  cases exponent with
  | none => simp [exponentText]
  | some e =>
    intro b hb
    cases hb
    rcases e.letter_eq with h | h
    . rw [h]
      decide
    . rw [h]
      decide

theorem head_afterInt (l : DecLiteral)
    : ∀ b ∈ (fractionText l.fraction ++ exponentText l.exponent).head?, ¬ isDecimal b := by
  cases l.fraction with
  | none => exact fun b hb => (head_exponentText l.exponent b hb).1
  | some ds =>
    intro b hb
    cases hb
    decide

theorem head_afterSign (l : DecLiteral)
    : ∀ b ∈ (l.intDigits ++ (fractionText l.fraction ++ exponentText l.exponent)).head?,
        b ≠ minusByte ∧ b ≠ plusByte := by
  cases hint : l.intDigits with
  | cons d ds =>
    intro b hb
    cases hb
    exact isDecimal_ne_sign (l.int_decimal d (by rw [hint]; simp))
  | nil =>
    cases hfrac : l.fraction with
    | none => exact absurd (by rw [hint, hfrac]; rfl) l.digits_ne
    | some ds =>
      intro b hb
      cases hb
      decide

theorem mem_text {l : DecLiteral} {b : UInt8} (h : b ∈ l.text)
    : isDecimal b ∨ b ∈ [plusByte, minusByte, dotByte, 101, 69] := by
  have hsign : ∀ {sign : SignText}, b ∈ sign.text → b ∈ [plusByte, minusByte, dotByte, 101, 69] := by
    intro sign hb
    cases sign <;> simp_all [SignText.text]
  unfold text at h
  simp only [List.mem_append] at h
  rcases h with h | h | h | h
  . exact .inr (hsign h)
  . exact .inl (l.int_decimal b h)
  . cases hfrac : l.fraction with
    | none => simp [hfrac, fractionText] at h
    | some ds =>
      rw [hfrac] at h
      cases List.mem_cons.mp h with
      | inl h => exact .inr (by simp [h])
      | inr h => exact .inl (l.frac_decimal b (by rw [hfrac]; exact h))
  . cases hexp : l.exponent with
    | none => simp [hexp, exponentText] at h
    | some e =>
      rw [hexp] at h
      simp only [exponentText, Exponent.text, List.mem_cons, List.mem_append] at h
      rcases h with h | h | h
      . rcases e.letter_eq with he | he
        . exact .inr (by simp [h, he])
        . exact .inr (by simp [h, he])
      . exact .inr (hsign h)
      . exact .inl (e.all_decimal b h)

theorem text_ne_special (l : DecLiteral)
    : l.text ≠ ascii "Infinity" ∧ l.text ≠ ascii "-Infinity" ∧ l.text ≠ ascii "NaN" := by
  have hletter : (73 : UInt8) ∉ l.text ∧ (78 : UInt8) ∉ l.text := by
    refine ⟨fun h => ?_, fun h => ?_⟩
    . exact absurd (mem_text h) (by decide)
    . exact absurd (mem_text h) (by decide)
  refine ⟨fun h => hletter.1 ?_, fun h => hletter.1 ?_, fun h => hletter.2 ?_⟩
  all_goals
    rw [h]
    decide

theorem scanExponent_exponentText (l : DecLiteral) (s : GoString)
    : scanExponent s (exponentText l.exponent) = if 10 < l.expLength then
          .error (.errorf "h2go: ParseDecFloat: exponent out of range in %q" [.str s])
        else
          .ok (l.exp, []) := by
  unfold expLength exp
  cases l.exponent with
  | none => rfl
  | some e => exact scanExponent_text s e

theorem parseDecFloat_text (l : DecLiteral)
    : parseDecFloat l.text = if 10 < l.expLength then
          .error (.errorf "h2go: ParseDecFloat: exponent out of range in %q" [.str l.text])
        else if l.Fits then
          .ok (.finite l.unscaled l.scale)
        else
          .error (.errorf "h2go: ParseDecFloat: scale %d out of range in %q"
            [.int l.scale, .str l.text]) := by
  obtain ⟨hinf, hneg, hnan⟩ := l.text_ne_special
  unfold parseDecFloat
  rw [if_neg hinf, if_neg hneg, if_neg hnan]
  have hsign : splitSign l.text = _ := splitSign_text l.sign l.head_afterSign
  rw [hsign]
  dsimp only
  rw [span_append l.int_decimal l.head_afterInt]
  dsimp only
  rw [splitFraction_text l.frac_decimal (head_exponentText l.exponent)]
  dsimp only
  rw [if_neg l.digits_ne, l.scanExponent_exponentText]
  split
  . rfl
  . simp only [bind, Except.bind]
    have hrange : l.scale > 2 ^ 31 - 1 ∨ l.scale < -2 ^ 31 ↔ ¬ l.Fits := by
      unfold Fits
      omega
    show (if l.scale > 2 ^ 31 - 1 ∨ l.scale < -2 ^ 31 then _
      else Except.ok (DecFloat.finite l.unscaled l.scale)) = _
    by_cases hfits : l.Fits
    . rw [if_pos hfits, if_neg (fun h => hrange.mp h hfits)]
    . rw [if_neg hfits, if_pos (hrange.mpr hfits)]
      rfl

end DecLiteral

theorem literal_of_parseDecFloat {s : GoString} {d : DecFloat} (h : parseDecFloat s = .ok d)
    (hspecial : s ≠ ascii "Infinity" ∧ s ≠ ascii "-Infinity" ∧ s ≠ ascii "NaN")
    : ∃ l : DecLiteral, s = l.text := by
  unfold parseDecFloat at h
  rw [if_neg hspecial.1, if_neg hspecial.2.1, if_neg hspecial.2.2] at h
  obtain ⟨sign, hsign, -⟩ := splitSign_cases s
  generalize splitSign s = r at h hsign
  obtain ⟨neg, afterSign⟩ := r
  obtain ⟨hint, hintDigits⟩ := span_cases afterSign
  dsimp only at h hsign
  generalize afterSign.span isDecimal = r at h hint hintDigits
  obtain ⟨intDigits, afterInt⟩ := r
  obtain ⟨fraction, hfrac, hfracDigits, hdecimal⟩ := splitFraction_cases afterInt
  dsimp only at h hint hintDigits
  generalize splitFraction afterInt = r at h hfrac hfracDigits
  obtain ⟨fracDigits, afterFrac⟩ := r
  dsimp only at h hfrac hfracDigits
  subst hfracDigits
  split at h
  . cases h
  next hne =>
  cases hexp : scanExponent s afterFrac with
  | error e =>
    rw [hexp] at h
    cases h
  | ok r =>
    obtain ⟨exp, rest⟩ := r
    rw [hexp] at h
    cases rest with
    | cons b rest => cases h
    | nil =>
      rw [hsign, hint, hfrac]
      rcases scanExponent_cases hexp with ⟨rfl, -⟩ | ⟨e, rfl, -⟩
      . exact ⟨⟨sign, intDigits, fraction, none, hintDigits, hdecimal, hne⟩, rfl⟩
      . exact ⟨⟨sign, intDigits, fraction, some e, hintDigits, hdecimal, hne⟩, rfl⟩

def DecFloatText (s : GoString) : Prop :=
  s = ascii "Infinity" ∨ s = ascii "-Infinity" ∨ s = ascii "NaN" ∨
    ∃ l : DecLiteral, s = l.text ∧ l.Fits

def LongExponent (s : GoString) : Prop := ∃ l : DecLiteral, s = l.text ∧ l.Fits ∧ 10 < l.expLength

theorem parseDecFloat_eq_ok_iff {s : GoString}
    : (∃ d, parseDecFloat s = .ok d) ↔
        s = ascii "Infinity" ∨ s = ascii "-Infinity" ∨ s = ascii "NaN" ∨
          ∃ l : DecLiteral, s = l.text ∧ l.Fits ∧ l.expLength ≤ 10 := by
  constructor
  . rintro ⟨d, h⟩
    by_cases hspecial : s ≠ ascii "Infinity" ∧ s ≠ ascii "-Infinity" ∧ s ≠ ascii "NaN"
    . obtain ⟨l, rfl⟩ := literal_of_parseDecFloat h hspecial
      rw [l.parseDecFloat_text] at h
      split at h
      . cases h
      next hlen =>
      split at h
      . next hfits => exact .inr (.inr (.inr ⟨l, rfl, hfits, Nat.le_of_not_lt hlen⟩))
      . cases h
    . by_contra hnone
      simp only [not_or] at hnone
      exact hspecial ⟨hnone.1, hnone.2.1, hnone.2.2.1⟩
  . rintro (rfl | rfl | rfl | ⟨l, rfl, hfits, hlen⟩)
    . exact ⟨.posInf, rfl⟩
    . exact ⟨.negInf, rfl⟩
    . exact ⟨.nan, rfl⟩
    . refine ⟨.finite l.unscaled l.scale, ?_⟩
      rw [l.parseDecFloat_text, if_neg (Nat.not_lt.mpr hlen), if_pos hfits]

theorem not_accepted_of_longExponent {s : GoString} (h : LongExponent s)
    : ¬ ∃ d, parseDecFloat s = .ok d := by
  obtain ⟨l, rfl, -, hlen⟩ := h
  rintro ⟨d, hd⟩
  rw [l.parseDecFloat_text, if_pos hlen] at hd
  cases hd

/--
`ParseDecFloat` accepts exactly the texts of the grammar, except for those with a long exponent.
-/
theorem parseDecFloat_grammar_iff (s : GoString)
    : ((∃ d, parseDecFloat s = .ok d) ↔ DecFloatText s) ↔ ¬ LongExponent s := by
  constructor
  . intro hiff hlong
    refine not_accepted_of_longExponent hlong (hiff.mpr ?_)
    obtain ⟨l, hl, hfits, -⟩ := hlong
    exact .inr (.inr (.inr ⟨l, hl, hfits⟩))
  . intro hlong
    rw [parseDecFloat_eq_ok_iff]
    unfold DecFloatText
    have hshort : (∃ l : DecLiteral, s = l.text ∧ l.Fits ∧ l.expLength ≤ 10) ↔
        ∃ l : DecLiteral, s = l.text ∧ l.Fits := by
      constructor
      . rintro ⟨l, hl, hfits, -⟩
        exact ⟨l, hl, hfits⟩
      . rintro ⟨l, hl, hfits⟩
        exact ⟨l, hl, hfits, Nat.le_of_not_lt (fun hlen => hlong ⟨l, hl, hfits, hlen⟩)⟩
    rw [hshort]

def longZero : DecLiteral :=
  { sign := .none, intDigits := ascii "1", fraction := none
    exponent := some
      { letter := 69, sign := .none, digits := List.replicate 11 48, letter_eq := .inr rfl
        digits_ne := by decide, all_decimal := by decide +kernel }
    int_decimal := by decide +kernel, frac_decimal := by decide +kernel, digits_ne := by decide }

theorem longZero_rejected
    : DecFloatText (ascii "1E00000000000") ∧
        ¬ ∃ d, parseDecFloat (ascii "1E00000000000") = .ok d :=
  ⟨.inr (.inr (.inr ⟨longZero, by decide, by decide⟩)),
    not_accepted_of_longExponent ⟨longZero, by decide, by decide, by decide⟩⟩

section Value

def DecLiteral.value (l : DecLiteral) : ℚ :=
  l.sign.apply 1 * (textValue 10 l.intDigits + textValue 10 l.fracDigits / 10 ^ l.fracDigits.length)
    * 10 ^ l.exp

def DecFloat.value? (d : DecFloat) : Option ℚ :=
  match d with
  | .finite unscaled scale => some (unscaled * 10 ^ (-scale))
  | _ => none

theorem SignText.apply_eq (sign : SignText) (x : Int) : sign.apply x = sign.apply 1 * x := by
  unfold SignText.apply
  split <;> simp

theorem DecLiteral.value_eq (l : DecLiteral)
    : (DecFloat.finite l.unscaled l.scale).value? = some l.value := by
  have hpow : (10 : ℚ) ^ (-l.scale) = 10 ^ l.exp / 10 ^ l.fracDigits.length := by
    unfold DecLiteral.scale
    rw [neg_sub, zpow_sub₀ (by norm_num), zpow_natCast]
  have hdigits : ((textValue 10 (l.intDigits ++ l.fracDigits) : Nat) : ℚ)
      = textValue 10 l.intDigits * 10 ^ l.fracDigits.length + textValue 10 l.fracDigits := by
    rw [textValue_append]
    push_cast
    rfl
  unfold DecFloat.value? DecLiteral.value DecLiteral.unscaled
  dsimp only
  rw [SignText.apply_eq, hpow]
  push_cast
  rw [hdigits]
  congr 1
  field_simp

end Value

section Print

/--
The plain notation of `BigDecimal.toString`: the digits are filled up with zeros so that there is one
in front of the point.
-/
def plainText (digits : GoString) (scale : Nat) : GoString :=
  let ds := List.replicate (scale + 1 - digits.length) zeroByte ++ digits
  if scale = 0 then ds else ds.take (ds.length - scale) ++ dotByte :: ds.drop (ds.length - scale)

/--
The scientific notation of `BigDecimal.toString`: one digit, the others behind a point, and the
exponent with its sign.
-/
def scientificText (digits : GoString) (adjusted : Int) : GoString :=
  let mantissa := match digits with
    | d :: e :: ds => d :: dotByte :: e :: ds
    | ds => ds
  mantissa ++ 69 :: (if adjusted < 0 then minusByte else plusByte) :: decimal adjusted.natAbs

def adjustedExponent (unscaled scale : Int) : Int := (decimal unscaled.natAbs).length - 1 - scale

def bigDecimalText (unscaled scale : Int) : GoString :=
  (if unscaled < 0 then [minusByte] else []) ++
    if scale < 0 ∨ adjustedExponent unscaled scale < -6 then
      scientificText (decimal unscaled.natAbs) (adjustedExponent unscaled scale)
    else
      plainText (decimal unscaled.natAbs) scale.toNat

theorem plainText_of_lt {digits : GoString} {scale : Nat} (hpos : scale ≠ 0)
    (h : scale < digits.length)
    : plainText digits scale
        = digits.take (digits.length - scale) ++ dotByte :: digits.drop (digits.length - scale) := by
  unfold plainText
  rw [show scale + 1 - digits.length = 0 by omega]
  simp [hpos]

theorem plainText_of_le {digits : GoString} {scale : Nat} (hpos : scale ≠ 0)
    (h : digits.length ≤ scale)
    : plainText digits scale
        = zeroByte :: dotByte :: (List.replicate (scale - digits.length) zeroByte ++ digits) := by
  unfold plainText
  rw [show scale + 1 - digits.length = (scale - digits.length) + 1 by omega, List.replicate_succ]
  simp only [List.cons_append, List.length_cons, List.length_append, List.length_replicate, hpos,
    if_false]
  rw [show scale - digits.length + digits.length + 1 - scale = 1 by omega]
  rfl

theorem plainText_zero {digits : GoString} (h : digits ≠ []) : plainText digits 0 = digits := by
  unfold plainText
  have := List.length_pos_iff.mpr h
  rw [show 0 + 1 - digits.length = 0 by omega]
  rfl

theorem formatInt_of_nonneg {x : Int} (h : 0 ≤ x) : formatInt x = decimal x.natAbs := by
  unfold formatInt
  rw [if_neg (by omega)]

theorem string_scientific {digits : GoString} (h : digits ≠ []) (adjusted : Int)
    : digits.take 1 ++ (if (digits.length : Int) > 1 then dotByte :: digits.drop 1 else []) ++
          ascii "E" ++
          (if adjusted ≥ 0 then plusByte :: formatInt adjusted else minusByte :: formatInt (-adjusted))
        = scientificText digits adjusted := by
  have hexp : (if adjusted ≥ 0 then plusByte :: formatInt adjusted
      else minusByte :: formatInt (-adjusted))
        = (if adjusted < 0 then minusByte else plusByte) :: decimal adjusted.natAbs := by
    by_cases hneg : adjusted < 0
    . rw [if_neg (by omega), if_pos hneg, formatInt_of_nonneg (by omega), Int.natAbs_neg]
    . rw [if_pos (by omega), if_neg hneg, formatInt_of_nonneg (by omega)]
  rw [hexp]
  unfold scientificText
  match digits with
  | [] => exact absurd rfl h
  | [d] => rfl
  | d :: e :: ds =>
    rw [if_pos (by simp)]
    simp [ascii]

theorem string_finite (unscaled scale : Int)
    : (DecFloat.finite unscaled scale).string = bigDecimalText unscaled scale := by
  have hne := decimal_ne_nil unscaled.natAbs
  unfold DecFloat.string bigDecimalText adjustedExponent
  dsimp only
  by_cases hplain : scale ≥ 0 ∧ (decimal unscaled.natAbs).length - 1 - scale ≥ -6
  . have hsci : ¬ (scale < 0 ∨ (decimal unscaled.natAbs).length - 1 - scale < -6) := by omega
    rw [if_pos hplain, if_neg hsci]
    by_cases hzero : scale = 0
    . rw [if_pos hzero, hzero, Int.toNat_zero, plainText_zero hne]
    rw [if_neg hzero]
    by_cases hlt : ((decimal unscaled.natAbs).length : Int) > scale
    . rw [if_pos hlt, plainText_of_lt (by omega) (by omega)]
      rw [show ((decimal unscaled.natAbs).length - scale).toNat
        = (decimal unscaled.natAbs).length - scale.toNat by omega]
    . rw [if_neg hlt, plainText_of_le (by omega) (by omega)]
      rw [show (scale - (decimal unscaled.natAbs).length).toNat
        = scale.toNat - (decimal unscaled.natAbs).length by omega]
      rfl
  . have hsci : scale < 0 ∨ (decimal unscaled.natAbs).length - 1 - scale < -6 := by omega
    rw [if_neg hplain, if_pos hsci, string_scientific hne]

def signOf (x : Int) : SignText := if x < 0 then .minus else .none

theorem signOf_text (x : Int) : (signOf x).text = if x < 0 then [minusByte] else [] := by
  unfold signOf
  split <;> rfl

theorem signOf_apply (x : Int) : (signOf x).apply x.natAbs = x := by
  unfold signOf
  split
  . show -(x.natAbs : Int) = x
    omega
  . show (x.natAbs : Int) = x
    omega

theorem literal_plainText (sign : SignText) (n scale : Nat)
    : ∃ l : DecLiteral, l.text = sign.text ++ plainText (decimal n) scale ∧
        l.unscaled = sign.apply n ∧ l.scale = scale ∧ l.expLength = 0 := by
  have hne := decimal_ne_nil n
  have hdec : ∀ b ∈ decimal n, isDecimal b := fun b hb => isDecimal_of_mem_decimal hb
  by_cases hzero : scale = 0
  . refine ⟨⟨sign, decimal n, none, none, hdec, by simp, by simpa using hne⟩, ?_, ?_, ?_, rfl⟩
    . rw [hzero, plainText_zero hne]
      simp [DecLiteral.text, DecLiteral.fractionText, DecLiteral.exponentText]
    . simp [DecLiteral.unscaled, DecLiteral.fracDigits, textValue_decimal]
    . simp [DecLiteral.scale, DecLiteral.fracDigits, DecLiteral.exp, hzero]
  by_cases hlt : scale < (decimal n).length
  . refine ⟨⟨sign, (decimal n).take ((decimal n).length - scale),
      some ((decimal n).drop ((decimal n).length - scale)), none,
      fun b hb => hdec b (List.mem_of_mem_take hb), fun b hb => hdec b (List.mem_of_mem_drop hb), ?_⟩,
      ?_, ?_, ?_, rfl⟩
    . rw [Option.getD_some, List.take_append_drop]
      exact hne
    . rw [plainText_of_lt hzero hlt]
      simp [DecLiteral.text, DecLiteral.fractionText, DecLiteral.exponentText]
    . simp [DecLiteral.unscaled, DecLiteral.fracDigits, textValue_decimal]
    . simp [DecLiteral.scale, DecLiteral.fracDigits, DecLiteral.exp]
      omega
  . have hle : (decimal n).length ≤ scale := Nat.le_of_not_lt hlt
    refine ⟨⟨sign, [zeroByte], some (List.replicate (scale - (decimal n).length) zeroByte ++ decimal n),
      none, by decide +kernel, ?_, by simp⟩, ?_, ?_, ?_, rfl⟩
    . intro b hb
      rcases List.mem_append.mp hb with hb | hb
      . rw [List.eq_of_mem_replicate hb]
        decide
      . exact hdec b hb
    . rw [plainText_of_le hzero hle]
      simp [DecLiteral.text, DecLiteral.fractionText, DecLiteral.exponentText]
    . have hzeros : textValue 10 ([zeroByte] ++ (List.replicate (scale - (decimal n).length) zeroByte
          ++ decimal n)) = n := by
        rw [← List.append_assoc, textValue_append, ← List.replicate_one, List.replicate_append_replicate]
        rw [show zeroByte = 48 from rfl, textValue_replicate_zero, textValue_decimal]
        omega
      exact congrArg (fun m : Nat => sign.apply m) hzeros
    . simp [DecLiteral.scale, DecLiteral.fracDigits, DecLiteral.exp]
      omega

theorem literal_scientificText (sign : SignText) (n : Nat) (adjusted : Int)
    : ∃ l : DecLiteral, l.text = sign.text ++ scientificText (decimal n) adjusted ∧
        l.unscaled = sign.apply n ∧ l.scale = (decimal n).length - 1 - adjusted ∧
        l.expLength = (decimal adjusted.natAbs).length := by
  have hne := decimal_ne_nil n
  have hdec : ∀ b ∈ decimal n, isDecimal b := fun b hb => isDecimal_of_mem_decimal hb
  have hvalue := textValue_decimal n
  let e : Exponent :=
    { letter := 69, sign := if adjusted < 0 then .minus else .plus, digits := decimal adjusted.natAbs
      letter_eq := .inr rfl, digits_ne := decimal_ne_nil _
      all_decimal := fun b hb => isDecimal_of_mem_decimal hb }
  have hexp : e.value = adjusted := by
    unfold Exponent.value
    simp only [e]
    rw [textValue_decimal]
    split
    . show -(adjusted.natAbs : Int) = adjusted
      omega
    . show (adjusted.natAbs : Int) = adjusted
      omega
  have htext : e.text = 69 :: (if adjusted < 0 then minusByte else plusByte) :: decimal adjusted.natAbs := by
    unfold Exponent.text
    simp only [e]
    split <;> rfl
  generalize hdigits : decimal n = digits at hne hdec hvalue
  match digits with
  | [] => exact absurd rfl hne
  | [d] =>
    refine ⟨⟨sign, [d], none, some e, hdec, by simp, by simp⟩, ?_, ?_, ?_, rfl⟩
    . simp [DecLiteral.text, DecLiteral.fractionText, DecLiteral.exponentText, scientificText, htext]
    . simp [DecLiteral.unscaled, DecLiteral.fracDigits, hvalue]
    . simp [DecLiteral.scale, DecLiteral.fracDigits, DecLiteral.exp, hexp]
  | d :: d' :: ds =>
    refine ⟨⟨sign, [d], some (d' :: ds), some e, fun b hb => hdec b (by simp_all), fun b hb =>
      hdec b (by simp_all), by simp⟩, ?_, ?_, ?_, rfl⟩
    . simp [DecLiteral.text, DecLiteral.fractionText, DecLiteral.exponentText, scientificText, htext]
    . simp [DecLiteral.unscaled, DecLiteral.fracDigits, hvalue]
    . simp [DecLiteral.scale, DecLiteral.fracDigits, DecLiteral.exp, hexp]

def DecFloat.InRange (d : DecFloat) : Prop :=
  match d with
  | .finite unscaled scale =>
    -2 ^ 31 ≤ scale ∧ scale < 2 ^ 31 ∧ (decimal unscaled.natAbs).length < 2 ^ 31
  | _ => True

theorem literal_bigDecimalText {unscaled scale : Int}
    (h : (DecFloat.finite unscaled scale).InRange)
    : ∃ l : DecLiteral, l.text = bigDecimalText unscaled scale ∧ l.unscaled = unscaled ∧
        l.scale = scale ∧ l.expLength ≤ 10 := by
  obtain ⟨hlow, hhigh, hlen⟩ := h
  have hpos := List.length_pos_iff.mpr (decimal_ne_nil unscaled.natAbs)
  unfold bigDecimalText
  rw [← signOf_text]
  split
  . obtain ⟨l, htext, hunscaled, hscale, hexp⟩ := literal_scientificText (signOf unscaled)
      unscaled.natAbs (adjustedExponent unscaled scale)
    refine ⟨l, htext, hunscaled.trans (signOf_apply unscaled), ?_, ?_⟩
    . rw [hscale]
      unfold adjustedExponent
      omega
    . rw [hexp]
      apply length_decimal_le
      unfold adjustedExponent
      omega
  . next hplain =>
    obtain ⟨l, htext, hunscaled, hscale, hexp⟩ := literal_plainText (signOf unscaled)
      unscaled.natAbs scale.toNat
    refine ⟨l, htext, hunscaled.trans (signOf_apply unscaled), ?_, by omega⟩
    rw [hscale]
    omega

theorem parseDecFloat_string_of_inRange {d : DecFloat} (h : d.InRange)
    : parseDecFloat d.string = .ok d := by
  cases d with
  | posInf | negInf | nan => rfl
  | finite unscaled scale =>
    obtain ⟨l, htext, hunscaled, hscale, hexp⟩ := literal_bigDecimalText h
    have hfits : l.Fits := by
      unfold DecLiteral.Fits
      rw [hscale]
      exact ⟨h.1, h.2.1⟩
    rw [string_finite, ← htext, l.parseDecFloat_text, if_neg (by omega), if_pos hfits, hunscaled, hscale]

theorem mem_plainText {digits : GoString} {scale : Nat} {b : UInt8} (h : b ∈ plainText digits scale)
    : b = zeroByte ∨ b = dotByte ∨ b ∈ digits := by
  have hds : b ∈ List.replicate (scale + 1 - digits.length) zeroByte ++ digits →
      b = zeroByte ∨ b = dotByte ∨ b ∈ digits := by
    intro hb
    rcases List.mem_append.mp hb with hb | hb
    . exact .inl (List.eq_of_mem_replicate hb)
    . exact .inr (.inr hb)
  unfold plainText at h
  dsimp only at h
  split at h
  . exact hds h
  . rcases List.mem_append.mp h with h | h
    . exact hds (List.mem_of_mem_take h)
    . cases List.mem_cons.mp h with
      | inl h => exact .inr (.inl h)
      | inr h => exact hds (List.mem_of_mem_drop h)

theorem mem_bigDecimalText_iff (unscaled scale : Int)
    : (69 : UInt8) ∈ bigDecimalText unscaled scale ↔
        scale < 0 ∨ adjustedExponent unscaled scale < -6 := by
  unfold bigDecimalText
  by_cases h : scale < 0 ∨ adjustedExponent unscaled scale < -6
  . rw [if_pos h]
    refine iff_of_true (List.mem_append_right _ ?_) h
    unfold scientificText
    simp
  . rw [if_neg h]
    refine iff_of_false (fun hmem => ?_) h
    rcases List.mem_append.mp hmem with hmem | hmem
    . split at hmem
      . exact absurd hmem (by decide)
      . exact absurd hmem (by simp)
    . rcases mem_plainText hmem with hb | hb | hb
      . exact absurd hb (by decide)
      . exact absurd hb (by decide)
      . exact absurd (isDecimal_of_mem_decimal hb) (by decide)

/--
Numbers are read exactly as they are written, and what is printed by the rule of `BigDecimal` is read
back.
-/
theorem decFloat_exact
    : (∀ (s : GoString) (unscaled scale : Int), parseDecFloat s = .ok (.finite unscaled scale) →
        ∃ l : DecLiteral, s = l.text ∧ (DecFloat.finite unscaled scale).value? = some l.value ∧
          scale = l.fracDigits.length - l.exp) ∧
      (∀ unscaled scale : Int, (DecFloat.finite unscaled scale).InRange →
        (DecFloat.finite unscaled scale).string = bigDecimalText unscaled scale ∧
          ((69 : UInt8) ∈ (DecFloat.finite unscaled scale).string ↔
            scale < 0 ∨ adjustedExponent unscaled scale < -6)) ∧
      (∀ d : DecFloat, d.InRange → parseDecFloat d.string = .ok d) ∧
      ∀ d d' : DecFloat, d.InRange → parseDecFloat d.string = .ok d' → d'.string = d.string := by
  refine ⟨?_, ?_, fun d hd => parseDecFloat_string_of_inRange hd, ?_⟩
  . intro s unscaled scale h
    have hspecial : s ≠ ascii "Infinity" ∧ s ≠ ascii "-Infinity" ∧ s ≠ ascii "NaN" := by
      refine ⟨?_, ?_, ?_⟩
      all_goals
        rintro rfl
        cases h
    obtain ⟨l, rfl⟩ := literal_of_parseDecFloat h hspecial
    rw [l.parseDecFloat_text] at h
    split at h
    . cases h
    split at h
    . cases h
      exact ⟨l, rfl, l.value_eq, rfl⟩
    . cases h
  . intro unscaled scale _
    rw [string_finite]
    exact ⟨rfl, mem_bigDecimalText_iff unscaled scale⟩
  . intro d d' hd hd'
    rw [parseDecFloat_string_of_inRange hd] at hd'
    cases hd'
    rfl

theorem decFloat_exact_small
    : parseDecFloat (ascii "-12.50e-3") = .ok (.finite (-1250) 5) ∧
      (∃ l : DecLiteral, ascii "-12.50e-3" = l.text ∧
        (DecFloat.finite (-1250) 5).value? = some l.value ∧ 5 = l.fracDigits.length - l.exp) ∧
      (DecFloat.finite (-1250) 12).string = bigDecimalText (-1250) 12 ∧
      parseDecFloat (DecFloat.finite (-1250) 12).string = .ok (.finite (-1250) 12) := by
  have hparse : parseDecFloat (ascii "-12.50e-3") = .ok (.finite (-1250) 5) := by decide
  have hrange : (DecFloat.finite (-1250) 12).InRange := ⟨by decide, by decide, by decide⟩
  exact ⟨hparse, decFloat_exact.1 _ _ _ hparse, (decFloat_exact.2.1 _ _ hrange).1,
    decFloat_exact.2.2.1 _ hrange⟩

end Print

end H2Go
