import H2Go.Value.Frames

/-!
This module contains intervals: their wire format, their canonical text, and which of them the
decoder gives that text.
-/

namespace H2Go

open BigEndian Digits

namespace IntervalQualifier

def ordinal : IntervalQualifier → Nat
  | year => 0
  | month => 1
  | day => 2
  | hour => 3
  | minute => 4
  | second => 5
  | yearToMonth => 6
  | dayToHour => 7
  | dayToMinute => 8
  | dayToSecond => 9
  | hourToMinute => 10
  | hourToSecond => 11
  | minuteToSecond => 12
  | unknown => 13

/--
The fields after the leading one, each with its separator and its unit in terms of the remaining value.
-/
def subFields : IntervalQualifier → List (UInt8 × Nat)
  | dayToHour => [(32, 1)]
  | dayToMinute => [(32, 60), (colonByte, 1)]
  | dayToSecond => [(32, 3600 * 10 ^ 9), (colonByte, 60 * 10 ^ 9), (colonByte, 10 ^ 9)]
  | hourToMinute => [(colonByte, 1)]
  | hourToSecond => [(colonByte, 60 * 10 ^ 9), (colonByte, 10 ^ 9)]
  | minuteToSecond => [(colonByte, 10 ^ 9)]
  | _ => []

/--
The remaining value is less than one unit of the leading field.
-/
def remainingBound : IntervalQualifier → Nat
  | second => 10 ^ 9
  | yearToMonth => 12
  | dayToHour => 24
  | dayToMinute => 1440
  | dayToSecond => 86400 * 10 ^ 9
  | hourToMinute => 60
  | hourToSecond => 3600 * 10 ^ 9
  | minuteToSecond => 60 * 10 ^ 9
  | _ => 1

end IntervalQualifier

/--
An interval of one of the thirteen qualifiers. There is no negative zero.
-/
@[ext]
structure Interval where
  qualifier : IntervalQualifier
  negative : Bool
  leading : Nat
  remaining : Nat
  known : qualifier ≠ .unknown
  leading_lt : leading < 10 ^ 18
  remaining_lt : remaining < qualifier.remainingBound
  nonzero : negative → leading ≠ 0 ∨ remaining ≠ 0

def fractionText (nanos : Nat) : GoString :=
  if nanos = 0 then []
  else dotByte :: ((padded 10 9 nanos).reverse.dropWhile (· = zeroByte)).reverse

def subFieldsText (fields : List (UInt8 × Nat)) (remaining : Nat) : GoString :=
  match fields with
  | [] => fractionText remaining
  | (separator, unit) :: fields =>
    separator :: (padded 10 2 (remaining / unit) ++ subFieldsText fields (remaining % unit))

namespace Interval

/--
The ordinal, complemented when the interval is negative, the leading value and the remaining one.
-/
def frame (iv : Interval) : List UInt8 :=
  let ordinal := UInt8.ofNat iv.qualifier.ordinal
  (if iv.negative then ~~~ordinal else ordinal) :: (intBytes 8 iv.leading ++
    (if 5 ≤ iv.qualifier.ordinal then intBytes 8 iv.remaining else []))

def remainingText (qualifier : IntervalQualifier) (remaining : Nat) : GoString :=
  match qualifier with
  | .yearToMonth => minusByte :: decimal remaining
  | qualifier => subFieldsText qualifier.subFields remaining

def canonicalText (iv : Interval) : GoString :=
  ascii "INTERVAL '" ++ (if iv.negative then [minusByte] else []) ++
    (decimal iv.leading ++ remainingText iv.qualifier iv.remaining) ++ ascii "' " ++
    iv.qualifier.name

end Interval

section Text

theorem formatIntPadded_natCast {k n : Nat} (h : n < 10 ^ (k + 1))
    : formatIntPadded (k + 1) (n : Int) = padded 10 (k + 1) n := by
  unfold formatIntPadded
  rw [if_neg (by omega)]
  exact zeros_append_decimal h

theorem formatInt_natCast (n : Nat) : formatInt (n : Int) = decimal n := by
  unfold formatInt
  rw [if_neg (by omega)]
  rfl

theorem formatIntervalNanos_natCast {n : Nat} (h : n < 10 ^ 9)
    : formatIntervalNanos (n : Int) = fractionText n := by
  unfold formatIntervalNanos fractionText
  by_cases hn : n = 0
  . rw [if_pos (by omega), if_pos hn]
  . rw [if_neg (by omega), if_neg hn, formatIntPadded_natCast h]

theorem formatIntPadded_two {n : Nat} (h : n < 100) : formatIntPadded 2 (n : Int) = padded 10 2 n :=
  formatIntPadded_natCast (k := 1) h

theorem tdiv_minute (n : Nat)
    : (n : Int).tdiv intervalNanosPerMinute = ((n / (60 * 10 ^ 9) : Nat) : Int) := rfl

theorem tmod_minute (n : Nat)
    : (n : Int).tmod intervalNanosPerMinute = ((n % (60 * 10 ^ 9) : Nat) : Int) := rfl

theorem tdiv_second (n : Nat)
    : (n : Int).tdiv intervalNanosPerSecond = ((n / 10 ^ 9 : Nat) : Int) := rfl

theorem tmod_second (n : Nat)
    : (n : Int).tmod intervalNanosPerSecond = ((n % 10 ^ 9 : Nat) : Int) := rfl

theorem tdiv_sixty (n : Nat) : (n : Int).tdiv 60 = ((n / 60 : Nat) : Int) := rfl

theorem tmod_sixty (n : Nat) : (n : Int).tmod 60 = ((n % 60 : Nat) : Int) := rfl

/--
The fields of the code, which counts minutes and seconds separately, are the two-digit fields and the
fraction.
-/
theorem intervalFields_eq {qualifier : IntervalQualifier} {remaining : Nat} (leading : Nat)
    (h : remaining < qualifier.remainingBound)
    : intervalFields qualifier leading remaining
        = decimal leading ++ Interval.remainingText qualifier remaining := by
  have hspace : ascii " " = [32] := by decide
  cases qualifier with
  | year | month | day | hour | minute | unknown =>
    rw [Nat.lt_one_iff.mp h]
    simp only [intervalFields, formatInt_natCast, Interval.remainingText, subFieldsText,
      IntervalQualifier.subFields, fractionText, if_true, List.append_nil]
  | second =>
    simp only [intervalFields, formatInt_natCast, Interval.remainingText, subFieldsText,
      IntervalQualifier.subFields]
    rw [formatIntervalNanos_natCast h]
  | yearToMonth => simp only [intervalFields, formatInt_natCast, Interval.remainingText]
  | dayToHour =>
    simp only [IntervalQualifier.remainingBound] at h
    simp only [intervalFields, formatInt_natCast, Interval.remainingText, subFieldsText,
      IntervalQualifier.subFields, Nat.mod_one, Nat.div_one, fractionText, if_true, List.append_nil]
    rw [formatIntPadded_two (by omega), List.append_assoc, hspace, List.singleton_append]
  | dayToMinute =>
    simp only [IntervalQualifier.remainingBound] at h
    simp only [intervalFields, formatInt_natCast, Interval.remainingText, subFieldsText,
      IntervalQualifier.subFields, tdiv_sixty, tmod_sixty, Nat.mod_one, Nat.div_one, fractionText,
      if_true, List.append_nil, List.append_assoc]
    rw [formatIntPadded_two (by omega), formatIntPadded_two (by omega), hspace, List.singleton_append]
  | dayToSecond =>
    simp only [IntervalQualifier.remainingBound] at h
    simp only [intervalFields, formatInt_natCast, Interval.remainingText, subFieldsText,
      IntervalQualifier.subFields, tdiv_minute, tmod_minute, tdiv_second, tmod_second, tdiv_sixty,
      tmod_sixty, List.append_assoc]
    rw [formatIntPadded_two (by omega), formatIntPadded_two (by omega), formatIntPadded_two (by omega),
      formatIntervalNanos_natCast (by omega)]
    rw [show remaining / (60 * 10 ^ 9) / 60 = remaining / (3600 * 10 ^ 9) by omega,
      show remaining / (60 * 10 ^ 9) % 60 = remaining % (3600 * 10 ^ 9) / (60 * 10 ^ 9) by omega,
      show remaining % (3600 * 10 ^ 9) % (60 * 10 ^ 9) = remaining % (60 * 10 ^ 9) by omega]
    simp only [hspace, List.cons_append, List.nil_append]
  | hourToMinute =>
    simp only [IntervalQualifier.remainingBound] at h
    simp only [intervalFields, formatInt_natCast, Interval.remainingText, subFieldsText,
      IntervalQualifier.subFields, Nat.mod_one, Nat.div_one, fractionText, if_true, List.append_nil]
    rw [formatIntPadded_two (by omega)]
  | hourToSecond =>
    simp only [IntervalQualifier.remainingBound] at h
    simp only [intervalFields, formatInt_natCast, Interval.remainingText, subFieldsText,
      IntervalQualifier.subFields, tdiv_minute, tmod_minute, tdiv_second, tmod_second,
      List.append_assoc]
    rw [formatIntPadded_two (by omega), formatIntPadded_two (by omega),
      formatIntervalNanos_natCast (by omega)]
    simp only [List.cons_append]
  | minuteToSecond =>
    simp only [IntervalQualifier.remainingBound] at h
    simp only [intervalFields, formatInt_natCast, Interval.remainingText, subFieldsText,
      IntervalQualifier.subFields, tdiv_second, tmod_second, List.append_assoc]
    rw [formatIntPadded_two (by omega), formatIntervalNanos_natCast (by omega)]
    simp only [List.cons_append]

end Text

section Injective

theorem padded_inj {k m n : Nat} (hm : m < 10 ^ k) (hn : n < 10 ^ k) (h : padded 10 k m = padded 10 k n)
    : m = n := by
  have := congrArg (textValue 10) h
  rwa [textValue_padded, textValue_padded, Nat.mod_eq_of_lt hm, Nat.mod_eq_of_lt hn] at this

theorem trimmed_append_zeros (ds : GoString)
    : (ds.reverse.dropWhile (· = zeroByte)).reverse
        ++ List.replicate (ds.length - (ds.reverse.dropWhile (· = zeroByte)).length) zeroByte = ds := by
  have hsplit := List.takeWhile_append_dropWhile (p := (· = zeroByte)) (l := ds.reverse)
  have hzeros : ds.reverse.takeWhile (· = zeroByte)
      = List.replicate (ds.reverse.takeWhile (· = zeroByte)).length zeroByte := by
    apply List.eq_replicate_iff.mpr
    refine ⟨rfl, fun b hb => ?_⟩
    simpa using List.mem_takeWhile_imp hb
  have hlen := congrArg List.length hsplit
  rw [List.length_append, List.length_reverse] at hlen
  rw [show ds.length - (ds.reverse.dropWhile (· = zeroByte)).length
    = (ds.reverse.takeWhile (· = zeroByte)).length by omega, ← List.reverse_replicate, ← hzeros,
    ← List.reverse_append, hsplit, List.reverse_reverse]

theorem fractionText_inj {m n : Nat} (hm : m < 10 ^ 9) (hn : n < 10 ^ 9)
    (h : fractionText m = fractionText n)
    : m = n := by
  unfold fractionText at h
  split at h
  . split at h
    . omega
    . cases h
  . split at h
    . cases h
    . injection h with _ h
      have hleft := trimmed_append_zeros (padded 10 9 m)
      have hright := trimmed_append_zeros (padded 10 9 n)
      rw [length_padded] at hleft hright
      have hlen := congrArg List.length h
      rw [List.length_reverse, List.length_reverse] at hlen
      rw [h, hlen, hright] at hleft
      exact (padded_inj hn hm hleft).symm

def FieldsFit (fields : List (UInt8 × Nat)) (remaining : Nat) : Prop :=
  match fields with
  | [] => remaining < 10 ^ 9
  | (_, unit) :: fields => remaining / unit < 10 ^ 2 ∧ FieldsFit fields (remaining % unit)

theorem subFieldsText_inj {fields : List (UInt8 × Nat)} {m n : Nat} (hm : FieldsFit fields m)
    (hn : FieldsFit fields n) (h : subFieldsText fields m = subFieldsText fields n)
    : m = n := by
  induction fields generalizing m n with
  | nil => exact fractionText_inj hm hn h
  | cons field fields ih =>
    injection h with _ h
    have hparts := List.append_inj h (by rw [length_padded, length_padded])
    rw [← Nat.div_add_mod m field.2, ← Nat.div_add_mod n field.2, padded_inj hm.1 hn.1 hparts.1,
      ih hm.2 hn.2 hparts.2]

theorem fieldsFit_of_lt {qualifier : IntervalQualifier} {remaining : Nat}
    (h : remaining < qualifier.remainingBound)
    : FieldsFit qualifier.subFields remaining := by
  cases qualifier with
  | year | month | day | hour | minute | unknown | second | yearToMonth | dayToHour | dayToMinute
  | dayToSecond | hourToMinute | hourToSecond | minuteToSecond =>
    simp only [IntervalQualifier.remainingBound] at h
    simp only [IntervalQualifier.subFields, FieldsFit]
    omega

namespace Interval

theorem head_remainingText (qualifier : IntervalQualifier) (remaining : Nat)
    : ∀ b ∈ (remainingText qualifier remaining).head?, ¬ isDecimal b := by
  have hfraction : ∀ b ∈ (fractionText remaining).head?, ¬ isDecimal b := by
    unfold fractionText
    split
    . simp
    . intro b hb
      cases hb
      decide
  cases qualifier with
  | year | month | day | hour | minute | unknown | second => exact hfraction
  | yearToMonth | dayToHour | dayToMinute | dayToSecond | hourToMinute | hourToSecond
  | minuteToSecond =>
    intro b hb
    cases hb
    decide

theorem remainingText_inj {qualifier : IntervalQualifier} {m n : Nat}
    (hm : m < qualifier.remainingBound) (hn : n < qualifier.remainingBound)
    (h : remainingText qualifier m = remainingText qualifier n)
    : m = n := by
  by_cases hq : qualifier = .yearToMonth
  . subst hq
    injection h with _ h
    rw [← textValue_decimal m, h, textValue_decimal]
  . have htext : ∀ k, remainingText qualifier k = subFieldsText qualifier.subFields k := by
      intro k
      cases qualifier <;> first | rfl | exact absurd rfl hq
    rw [htext, htext] at h
    exact subFieldsText_inj (fieldsFit_of_lt hm) (fieldsFit_of_lt hn) h

theorem minus_cons_ne {n : Nat} {text rest : GoString} : minusByte :: text ≠ decimal n ++ rest := by
  intro h
  cases hd : decimal n with
  | nil => exact decimal_ne_nil n hd
  | cons b ds =>
    rw [hd] at h
    injection h with hb _
    have hdec := isDecimal_of_mem_decimal (n := n) (b := b) (by simp [hd])
    rw [← hb] at hdec
    exact absurd hdec (by decide)

theorem canonicalText_inj {iv iv' : Interval} (hq : iv.qualifier = iv'.qualifier)
    (h : iv.canonicalText = iv'.canonicalText)
    : iv = iv' := by
  unfold canonicalText at h
  rw [hq] at h
  have h := List.append_cancel_right (List.append_cancel_right h)
  rw [List.append_assoc, List.append_assoc] at h
  have h := List.append_cancel_left h
  have hfields : decimal iv.leading ++ remainingText iv'.qualifier iv.remaining
      = decimal iv'.leading ++ remainingText iv'.qualifier iv'.remaining →
      iv.leading = iv'.leading ∧ iv.remaining = iv'.remaining := by
    intro h
    have hparts := decimal_append_inj (head_remainingText _ _) (head_remainingText _ _) h
    exact ⟨hparts.1, remainingText_inj (hq ▸ iv.remaining_lt) iv'.remaining_lt hparts.2⟩
  have hneg : iv.negative = iv'.negative := by
    cases hn : iv.negative with
    | false =>
      cases hn' : iv'.negative with
      | false => rfl
      | true =>
        simp only [hn, hn', Bool.false_eq_true, if_true, if_false] at h
        exact absurd h.symm minus_cons_ne
    | true =>
      cases hn' : iv'.negative with
      | false =>
        simp only [hn, hn', Bool.false_eq_true, if_true, if_false] at h
        exact absurd h minus_cons_ne
      | true => rfl
  rw [hneg] at h
  have hparts := hfields (List.append_cancel_left h)
  exact Interval.ext hq hneg hparts.1 hparts.2

end Interval

end Injective

section Reader

variable {σ : Type}

namespace Interval

/--
The interval whose text the decoder returns, the sign of a leading zero is lost.
-/
def seen (iv : Interval) : Interval :=
  { iv with
    negative := iv.negative && decide (iv.leading ≠ 0)
    nonzero := fun h => .inl (of_decide_eq_true (Bool.and_eq_true_iff.mp h).2) }

theorem seen_eq_iff {iv : Interval} : iv.seen = iv ↔ ¬ (iv.negative ∧ iv.leading = 0) := by
  constructor
  . intro h
    have hneg : (iv.negative && decide (iv.leading ≠ 0)) = iv.negative := congrArg negative h
    rintro ⟨hn, hl⟩
    simp [hn, hl] at hneg
  . intro h
    apply Interval.ext
    . rfl
    . show (iv.negative && decide (iv.leading ≠ 0)) = iv.negative
      cases hn : iv.negative with
      | false => rfl
      | true => simpa [hn] using h
    . rfl
    . rfl

theorem seen_eq_seen_iff {iv iv' : Interval} (hq : iv'.qualifier = iv.qualifier)
    : iv'.seen = iv.seen ↔
        iv' = iv ∨ (iv'.leading = 0 ∧ iv.leading = 0 ∧ iv'.remaining = iv.remaining) := by
  constructor
  . intro h
    have hneg : (iv'.negative && decide (iv'.leading ≠ 0)) = (iv.negative && decide (iv.leading ≠ 0)) :=
      congrArg negative h
    have hleading : iv'.seen.leading = iv.seen.leading := congrArg leading h
    have hremaining : iv'.seen.remaining = iv.seen.remaining := congrArg remaining h
    change iv'.leading = iv.leading at hleading
    by_cases hzero : iv.leading = 0
    . exact .inr ⟨hleading.trans hzero, hzero, hremaining⟩
    . rw [hleading] at hneg
      simp only [ne_eq, hzero, not_false_eq_true, decide_true, Bool.and_true] at hneg
      exact .inl (Interval.ext hq hneg hleading hremaining)
  . rintro (rfl | ⟨h', h, hremaining⟩)
    . rfl
    . apply Interval.ext
      . exact hq
      . simp [seen, h', h]
      . exact h'.trans h.symm
      . exact hremaining

end Interval

namespace Tr

theorem intervalQualifier_ordinal (qualifier : IntervalQualifier)
    : intervalQualifier qualifier.ordinal = qualifier := by
  cases qualifier <;> rfl

theorem hasRemaining_iff {qualifier : IntervalQualifier} (h : qualifier ≠ .unknown)
    : qualifier.hasRemaining = decide (5 ≤ qualifier.ordinal) := by
  cases qualifier <;> first | rfl | exact absurd rfl h

theorem ordinalByte (qualifier : IntervalQualifier) (negative : Bool)
    : let ordinal := UInt8.ofNat qualifier.ordinal
      let x := if negative then ~~~ordinal else ordinal
      (128 ≤ x.toNat ↔ negative) ∧
        (if 128 ≤ x.toNat then (255 - x.toNat) % 128 else x.toNat) = qualifier.ordinal := by
  cases qualifier <;> cases negative <;> decide

theorem formatInterval_seen (iv : Interval)
    : formatInterval iv.qualifier (if iv.negative then wrapInt64 (-(iv.leading : Int)) else iv.leading)
        iv.remaining = iv.seen.canonicalText := by
  have hwrap : ∀ x : Int, -2 ^ 63 ≤ x → x < 2 ^ 63 → wrapInt64 x = x := by
    intro x h1 h2
    unfold wrapInt64
    omega
  have hlt := iv.leading_lt
  have hfields := intervalFields_eq iv.leading iv.remaining_lt
  unfold formatInterval Interval.canonicalText
  by_cases hneg : iv.negative ∧ iv.leading ≠ 0
  . have hseen : iv.seen.negative = true := by simp [Interval.seen, hneg.1, hneg.2]
    rw [if_pos hneg.1, hwrap _ (by omega) (by omega), if_pos (by omega), if_pos (by omega), Int.neg_neg,
      hwrap _ (by omega) (by omega)]
    dsimp only
    rw [hfields, hseen]
    rfl
  . have hseen : iv.seen.negative = false := by
      cases hn : iv.negative with
      | false => simp [Interval.seen, hn]
      | true => simpa [Interval.seen, hn] using hneg
    have hleading : (if iv.negative then wrapInt64 (-(iv.leading : Int)) else iv.leading)
        = (iv.leading : Int) := by
      split
      . next hn =>
        have hzero : iv.leading = 0 := by
          by_contra h
          exact hneg ⟨hn, h⟩
        rw [hzero]
        rfl
      . rfl
    rw [hleading, if_neg (by omega), if_neg (by omega)]
    dsimp only
    rw [hfields, hseen]
    rfl

/--
Every interval is read as the text of the interval without the sign of a leading zero.
-/
theorem frame_readIntervalValue (iv : Interval)
    : Frame (readIntervalValue : Prog Err (Tr σ) _) (.string iv.seen.canonicalText) iv.frame := by
  have hbyte := ordinalByte iv.qualifier iv.negative
  have hleading := iv.leading_lt
  have hremaining : iv.remaining < 2 ^ 63 := by
    refine Nat.lt_trans iv.remaining_lt ?_
    cases iv.qualifier <;> decide
  have htext := formatInterval_seen iv
  unfold readIntervalValue Interval.frame
  dsimp only at hbyte ⊢
  generalize (if iv.negative = true then ~~~UInt8.ofNat iv.qualifier.ordinal
    else UInt8.ofNat iv.qualifier.ordinal) = x at hbyte ⊢
  rw [← List.singleton_append]
  apply (frame_readByte x).mapErr.bind
  apply (frame_readInt64 (by omega) (by omega)).mapErr.bind
  rw [hbyte.2, intervalQualifier_ordinal, hasRemaining_iff iv.known]
  simp only [hbyte.1, decide_eq_true_eq]
  split
  . apply (frame_readInt64 (by omega) (by omega)).mapErr.bind_nil
    rw [htext]
    exact Frame.pure
  . next hshort =>
    have hzero : iv.remaining = 0 := by
      have hlt := iv.remaining_lt
      cases hq : iv.qualifier <;> rw [hq] at hlt hshort <;>
        first | exact Nat.lt_one_iff.mp hlt | exact absurd (by decide) hshort
    rw [hzero, Nat.cast_zero] at htext
    rw [htext]
    exact Frame.pure

theorem frame_readIntervalValue_iff [Inhabited σ] (iv : Interval) {text : GoString}
    : Frame (readIntervalValue : Prog Err (Tr σ) _) (.string text) iv.frame
        ↔ text = iv.seen.canonicalText := by
  constructor
  . intro h
    have happ : iv.frame ++ [] = iv.frame ++ [] := rfl
    have heq := (h.unique (frame_readIntervalValue iv) happ).1
    injection heq
  . rintro rfl
    exact frame_readIntervalValue iv

/--
The decoder returns the canonical text of an interval unless it loses its sign. Two intervals of one
qualifier have the same text when they differ in such a sign only.
-/
theorem interval_text_iff [Inhabited σ] (iv : Interval)
    : (Frame (readIntervalValue : Prog Err (Tr σ) _) (.string iv.canonicalText) iv.frame
        ↔ ¬ (iv.negative ∧ iv.leading = 0)) ∧
      ∀ iv' : Interval, iv'.qualifier = iv.qualifier →
        ((∃ text, Frame (readIntervalValue : Prog Err (Tr σ) _) (.string text) iv.frame ∧
            Frame (readIntervalValue : Prog Err (Tr σ) _) (.string text) iv'.frame)
          ↔ iv' = iv ∨
              (iv'.leading = 0 ∧ iv.leading = 0 ∧ iv'.remaining = iv.remaining)) := by
  constructor
  . rw [frame_readIntervalValue_iff, ← Interval.seen_eq_iff]
    constructor
    . intro h
      have hq : iv.qualifier = iv.seen.qualifier := rfl
      exact (Interval.canonicalText_inj hq h).symm
    . intro h
      rw [h]
  . intro iv' hq
    have hsame : (∃ text, Frame (readIntervalValue : Prog Err (Tr σ) _) (.string text) iv.frame ∧
        Frame (readIntervalValue : Prog Err (Tr σ) _) (.string text) iv'.frame)
        ↔ iv'.seen = iv.seen := by
      constructor
      . rintro ⟨text, h, h'⟩
        rw [frame_readIntervalValue_iff] at h h'
        exact Interval.canonicalText_inj hq (h'.symm.trans h)
      . intro h
        exact ⟨_, frame_readIntervalValue iv, h ▸ frame_readIntervalValue iv'⟩
    rw [hsame]
    exact Interval.seen_eq_seen_iff hq

def negativeHalf : Interval :=
  { qualifier := .second, negative := true, leading := 0, remaining := 5 * 10 ^ 8, known := by decide,
    leading_lt := by decide, remaining_lt := by decide, nonzero := by decide }

def positiveHalf : Interval :=
  { negativeHalf with negative := false, nonzero := by decide }

theorem interval_text_half
    : Frame (readIntervalValue : Prog Err (Tr Unit) _) (.string (ascii "INTERVAL '0.5' SECOND"))
        positiveHalf.frame ∧
      ∃ text, Frame (readIntervalValue : Prog Err (Tr Unit) _) (.string text) positiveHalf.frame ∧
        Frame (readIntervalValue : Prog Err (Tr Unit) _) (.string text) negativeHalf.frame := by
  have htext : positiveHalf.canonicalText = ascii "INTERVAL '0.5' SECOND" := by decide
  constructor
  . rw [← htext]
    exact (interval_text_iff positiveHalf).1.mpr (by decide)
  . exact ((interval_text_iff positiveHalf).2 negativeHalf rfl).mpr (.inr (by decide))

/--
Minus half a second is read as half a second.
-/
theorem negativeHalf_sign_lost
    : negativeHalf.canonicalText = ascii "INTERVAL '-0.5' SECOND" ∧
      ¬ Frame (readIntervalValue : Prog Err (Tr Unit) _) (.string negativeHalf.canonicalText)
        negativeHalf.frame ∧
      Frame (readIntervalValue : Prog Err (Tr Unit) _) (.string (ascii "INTERVAL '0.5' SECOND"))
        negativeHalf.frame := by
  rw [frame_readIntervalValue_iff, frame_readIntervalValue_iff]
  decide

end Tr

end Reader

end H2Go
