import H2Go.Text.Impl
import Mathlib.Data.List.TakeDrop
import Mathlib.Data.List.TakeWhile

/-!
This module contains the lemmas about the textual forms.
-/

namespace H2Go

open Digits

section DecFloat

theorem plain_of_scanExponent {s rest : GoString} {e : Err} (h : scanExponent s rest = .error e)
    : e.Plain := by
  unfold scanExponent at h
  split at h
  . split at h
    . dsimp only at h
      split at h
      . cases h
        exact ⟨rfl, rfl⟩
      . split at h
        . cases h
          exact ⟨rfl, rfl⟩
        . cases h
    . cases h
  . cases h

theorem plain_of_parseDecFloat {s : GoString} {e : Err} (h : parseDecFloat s = .error e)
    : e.Plain := by
  unfold parseDecFloat at h
  split at h
  . cases h
  split at h
  . cases h
  split at h
  . cases h
  dsimp only at h
  split at h
  . cases h
    exact ⟨rfl, rfl⟩
  generalize hexp : scanExponent s _ = r at h
  cases r with
  | error e' =>
    cases h
    exact plain_of_scanExponent hexp
  | ok r =>
    simp only [bind, Except.bind] at h
    split at h
    . cases h
      exact ⟨rfl, rfl⟩
    . split at h
      . cases h
        exact ⟨rfl, rfl⟩
      . cases h

theorem span_of_all {p : UInt8 → Bool} {s : GoString} (h : ∀ b ∈ s, p b) : s.span p = (s, []) := by
  rw [List.span_eq_takeWhile_dropWhile, List.takeWhile_eq_self_iff.mpr h,
    List.dropWhile_eq_nil_iff.mpr h]

theorem isDecimal_ne_sign {b : UInt8} (h : isDecimal b) : b ≠ minusByte ∧ b ≠ plusByte := by
  constructor
  . intro hb
    subst hb
    exact absurd h (by decide)
  . intro hb
    subst hb
    exact absurd h (by decide)

theorem splitSign_decimal (n : Nat) : splitSign (decimal n) = (false, decimal n) := by
  cases hs : decimal n with
  | nil => rfl
  | cons b s =>
    have hb : isDecimal b := isDecimal_of_mem_decimal (n := n) (by rw [hs]; simp)
    simp only [splitSign, isDecimal_ne_sign hb, if_false]

theorem parseDecFloat_formatInt (x : Int) : ∃ d, parseDecFloat (formatInt x) = .ok d := by
  have hsign : ∃ neg, splitSign (formatInt x) = (neg, decimal x.natAbs) := by
    unfold formatInt
    split
    . exact ⟨true, by simp [splitSign]⟩
    . exact ⟨false, splitSign_decimal _⟩
  obtain ⟨neg, hsign⟩ := hsign
  have hspan := span_of_all (fun b hb => isDecimal_of_mem_decimal (n := x.natAbs) hb)
  unfold parseDecFloat
  split
  . exact ⟨_, rfl⟩
  split
  . exact ⟨_, rfl⟩
  split
  . exact ⟨_, rfl⟩
  rw [hsign]
  dsimp only
  rw [hspan]
  dsimp only [splitFraction]
  cases hdigits : decimal x.natAbs with
  | nil => exact absurd hdigits (decimal_ne_nil _)
  | cons b ds => exact ⟨_, rfl⟩

end DecFloat

section Integer

theorem formatInt_ascii {x : Int} {b : UInt8} (h : b ∈ formatInt x) : b.toNat < 0x80 := by
  have hdec : ∀ b ∈ decimal x.natAbs, b.toNat < 0x80 := by
    intro b hb
    have := isDecimal_of_mem_decimal hb
    simp only [isDecimal, Bool.and_eq_true, decide_eq_true_eq] at this
    omega
  unfold formatInt at h
  split at h
  . cases List.mem_cons.mp h with
    | inl h =>
      subst h
      decide
    | inr h => exact hdec b h
  . exact hdec b h

theorem length_formatInt_le {x : Int} (h : x.natAbs < 10 ^ 20) : (formatInt x).length ≤ 21 := by
  have := length_decimal_le h
  unfold formatInt
  split
  . rw [List.length_cons]
    omega
  . omega

end Integer

section UUID

def hyphenate (ds : GoString) : GoString :=
  ds.take 8 ++ minusByte :: (ds.drop 8).take 4 ++ minusByte :: (ds.drop 12).take 4
    ++ minusByte :: (ds.drop 16).take 4 ++ minusByte :: ds.drop 20

def isHex (b : UInt8) : Bool := (digitValue b).isSome

def uuidDigits (s : GoString) : Option GoString :=
  let ds := s.filter (fun b => b ≠ minusByte)
  if ds.length = 32 ∧ ds.all isHex ∧ (s = ds ∨ s = hyphenate ds) then some ds else none

theorem isHex_range {b : UInt8} (h : isHex b)
    : (48 ≤ b.toNat ∧ b.toNat ≤ 57) ∨ (97 ≤ b.toNat ∧ b.toNat ≤ 102)
        ∨ (65 ≤ b.toNat ∧ b.toNat ≤ 70) := by
  unfold isHex digitValue at h
  split at h
  . next hb => exact .inl hb
  . split at h
    . next hb => exact .inr (.inl hb)
    . split at h
      . next hb => exact .inr (.inr hb)
      . simp at h

theorem trimSpace_eq_self {s : GoString} (hascii : ∀ b ∈ s, b.toNat < 0x80)
    (hspace : ∀ b ∈ s, ¬ isSpace b.toNat)
    : trimSpace s = s := by
  unfold trimSpace
  rw [Utf8.runeWidths_of_ascii hascii]
  have hnone : ∀ l : GoString, (∀ b ∈ l, ¬ isSpace b.toNat) →
      (l.map (fun b => (b.toNat, 1))).takeWhile (fun rw => isSpace rw.1) = [] := by
    intro l hl
    cases l with
    | nil => rfl
    | cons b l =>
      have := hl b (by simp)
      simp [this]
  dsimp only
  rw [hnone s hspace, ← List.map_reverse, hnone s.reverse (fun b hb => hspace b (by simpa using hb))]
  simp

theorem mem_hyphenate {ds : GoString} {b : UInt8} (h : b ∈ hyphenate ds) : b = minusByte ∨ b ∈ ds := by
  unfold hyphenate at h
  simp only [List.mem_append, List.mem_cons] at h
  have htake : ∀ {n m : Nat}, b ∈ (ds.drop n).take m → b ∈ ds := by
    intro n m h
    exact List.mem_of_mem_drop (List.mem_of_mem_take h)
  rcases h with (((h | rfl | h) | rfl | h) | rfl | h) | rfl | h
  . exact .inr (List.mem_of_mem_take h)
  . exact .inl rfl
  . exact .inr (htake h)
  . exact .inl rfl
  . exact .inr (htake h)
  . exact .inl rfl
  . exact .inr (htake h)
  . exact .inl rfl
  . exact .inr (List.mem_of_mem_drop h)

theorem isHex_ne_minus {b : UInt8} (h : isHex b) : b ≠ minusByte := by
  intro hb
  subst hb
  exact absurd h (by decide)

theorem trimSpace_hyphenate_or_self {s ds : GoString} (hhex : ∀ b ∈ ds, isHex b)
    (hs : s = ds ∨ s = hyphenate ds)
    : trimSpace s = s := by
  have hchar : ∀ b ∈ s, b = minusByte ∨ isHex b := by
    intro b hb
    rcases hs with rfl | rfl
    . exact .inr (hhex b hb)
    . exact (mem_hyphenate hb).imp id (hhex b)
  apply trimSpace_eq_self
  . intro b hb
    rcases hchar b hb with rfl | h
    . decide
    . have := isHex_range h
      omega
  . intro b hb
    rcases hchar b hb with rfl | h
    . decide
    . have := isHex_range h
      simp [isSpace]
      omega

theorem filter_hyphenate {ds : GoString} (hhex : ∀ b ∈ ds, isHex b)
    : (hyphenate ds).filter (fun b => b ≠ minusByte) = ds := by
  have hkeep : ∀ l : GoString, (∀ b ∈ l, b ∈ ds) → l.filter (fun b => b ≠ minusByte) = l := by
    intro l hl
    apply List.filter_eq_self.mpr
    intro b hb
    simpa using isHex_ne_minus (hhex b (hl b hb))
  have htake : ∀ n m : Nat, ∀ b ∈ (ds.drop n).take m, b ∈ ds := by
    intro n m b h
    exact List.mem_of_mem_drop (List.mem_of_mem_take h)
  have hskip : ∀ l : GoString, (minusByte :: l).filter (fun b => b ≠ minusByte)
      = l.filter (fun b => b ≠ minusByte) := by
    intro l
    simp
  unfold hyphenate
  simp only [List.filter_append, hskip]
  rw [hkeep _ (fun b h => List.mem_of_mem_take h), hkeep _ (htake 8 4), hkeep _ (htake 12 4),
    hkeep _ (htake 16 4), hkeep _ (fun b h => List.mem_of_mem_drop h)]
  -- glue the groups together again
  have hglue : ∀ n m : Nat, (ds.drop n).take m ++ ds.drop (n + m) = ds.drop n := by
    intro n m
    rw [← List.drop_drop]
    exact List.take_append_drop m _
  rw [List.append_assoc, hglue 16 4, List.append_assoc, hglue 12 4, List.append_assoc, hglue 8 4]
  exact List.take_append_drop 8 ds

theorem compactUUID_canonical {σ : Type} {s ds : GoString} (hlen : ds.length = 32)
    (hhex : ∀ b ∈ ds, isHex b) (hs : s = ds ∨ s = hyphenate ds)
    : (compactUUID s : Prog Err σ _) = pure ds := by
  unfold compactUUID
  rcases hs with rfl | rfl
  . rw [if_neg (by omega), if_pos hlen]
  . have hlen' : (hyphenate ds).length = 36 := by
      simp [hyphenate, hlen]
    have hpos : ∀ i ∈ [8, 13, 18, 23], (hyphenate ds)[i]? = some minusByte := by
      simp [hyphenate, List.getElem?_append, hlen]
    rw [if_pos hlen', if_neg, filter_hyphenate hhex]
    simp [hpos]

theorem hyphenate_groups {a b c d : GoString} (e : GoString) (ha : a.length = 8) (hb : b.length = 4)
    (hc : c.length = 4) (hd : d.length = 4)
    : hyphenate (a ++ (b ++ (c ++ (d ++ e))))
        = a ++ minusByte :: b ++ minusByte :: c ++ minusByte :: d ++ minusByte :: e := by
  have hdrop : ∀ (l : GoString) (n : Nat), l.length ≤ n → l.drop n = [] :=
    fun l n h => List.drop_of_length_le h
  simp [hyphenate, List.drop_append, ha, hb, hc, hd, hdrop]

theorem formatUUID_wrapInt64 {h l : Nat} (hh : h < 16 ^ 16) (hl : l < 16 ^ 16)
    : formatUUID (wrapInt64 h) (wrapInt64 l) = hyphenate (padded 16 16 h ++ padded 16 16 l) := by
  have hwrap : ∀ n : Nat, n < 16 ^ 16 → (wrapInt64 n % 2 ^ 64).toNat = n := by
    intro n hn
    unfold wrapInt64
    omega
  unfold formatUUID
  rw [hwrap h hh, hwrap l hl]
  dsimp only
  have hgroups : padded 16 16 h ++ padded 16 16 l
      = padded 16 8 (h / 2 ^ 32) ++ (padded 16 4 (h / 2 ^ 16) ++ (padded 16 4 h ++
          (padded 16 4 (l / 2 ^ 48) ++ padded 16 12 l))) := by
    rw [show 2 ^ 32 = 16 ^ 8 by decide, show 2 ^ 16 = 16 ^ 4 by decide,
      show 2 ^ 48 = 16 ^ 12 by decide, padded_add 16 8 8 h, padded_add 16 4 4 h,
      padded_add 16 4 12 l, List.append_assoc, List.append_assoc]
  rw [hgroups, hyphenate_groups _ (length_padded _ _ _) (length_padded _ _ _) (length_padded _ _ _)
    (length_padded _ _ _)]

theorem parseUint_hex {ds : GoString} (hlen : ds.length = 16) (hhex : ∀ b ∈ ds, isHex b)
    : parseUint ds = .ok (textValue 16 ds) := by
  have hlt := textValue_lt hhex
  have hne : ds ≠ [] := by
    intro h
    simp [h] at hlen
  have hall : ds.all (fun b => (digitValue b).isSome) := List.all_eq_true.mpr hhex
  unfold parseUint
  rw [if_neg (by simp [hne, hall]), if_neg]
  rw [hlen] at hlt
  omega

/--
The number that `parseUUIDString` reads from a canonical text is printed as the lower-case
hyphenated form of the text.
-/
theorem parseUUIDString_canonical {s ds : GoString} (hlen : ds.length = 32)
    (hhex : ∀ b ∈ ds, isHex b) (hs : s = ds ∨ s = hyphenate ds)
    : ∃ high low : Int, (∀ σ : Type, (parseUUIDString s : Prog Err σ _) = pure (high, low))
        ∧ -2 ^ 63 ≤ high ∧ high < 2 ^ 63 ∧ -2 ^ 63 ≤ low ∧ low < 2 ^ 63
        ∧ formatUUID high low = hyphenate (ds.map lower) := by
  have hhigh : ∀ b ∈ ds.take 16, isHex b := fun b hb => hhex b (List.mem_of_mem_take hb)
  have hlow : ∀ b ∈ ds.drop 16, isHex b := fun b hb => hhex b (List.mem_of_mem_drop hb)
  have hlenHigh : (ds.take 16).length = 16 := by simp [hlen]
  have hlenLow : (ds.drop 16).length = 16 := by simp [hlen]
  refine ⟨wrapInt64 (textValue 16 (ds.take 16)), wrapInt64 (textValue 16 (ds.drop 16)), ?_, ?_⟩
  . intro σ
    unfold parseUUIDString
    rw [trimSpace_hyphenate_or_self hhex hs, compactUUID_canonical hlen hhex hs, Prog.pure_bind]
    rw [Prog.slice_eq (by omega), Prog.pure_bind, List.drop_zero, parseUint_hex hlenHigh hhigh]
    rw [Prog.slice_eq (by omega), List.take_length]
    simp only [Prog.pure_bind, parseUint_hex hlenLow hlow]
    rfl
  . have hrange : ∀ x : Int, -2 ^ 63 ≤ wrapInt64 x ∧ wrapInt64 x < 2 ^ 63 := by
      intro x
      unfold wrapInt64
      omega
    refine ⟨(hrange _).1, (hrange _).2, (hrange _).1, (hrange _).2, ?_⟩
    have hhighLt := textValue_lt hhigh
    have hlowLt := textValue_lt hlow
    rw [hlenHigh] at hhighLt
    rw [hlenLow] at hlowLt
    have htextHigh := padded_textValue hhigh
    have htextLow := padded_textValue hlow
    rw [hlenHigh] at htextHigh
    rw [hlenLow] at htextLow
    rw [formatUUID_wrapInt64 hhighLt hlowLt, htextHigh, htextLow, ← List.map_append,
      List.take_append_drop]

end UUID

end H2Go
