import Mathlib.Algebra.Ring.Int.Defs
import Mathlib.Algebra.Ring.Nat
import Mathlib.Data.List.Basic

/-!
This module contains UTF-8 as Go's `unicode/utf8` has it: decoding is total, a byte that does not
start a well-formed sequence decodes to U+FFFD with width 1.
-/

namespace Utf8

def runeError : Nat := 0xFFFD

def Scalar (r : Nat) : Prop := r < 0xD800 ∨ (0xE000 ≤ r ∧ r ≤ 0x10FFFF)

instance (r : Nat) : Decidable (Scalar r) := inferInstanceAs (Decidable (_ ∨ _))

theorem scalar_runeError : Scalar runeError := by decide

/--
`utf8.AppendRune`, runes without an encoding are written as U+FFFD.
-/
def encodeRune (r : Nat) : List UInt8 :=
  if r < 0x80 then
    [UInt8.ofNat r]
  else if r < 0x800 then
    [UInt8.ofNat (0xC0 + r / 0x40), UInt8.ofNat (0x80 + r % 0x40)]
  else if ¬Scalar r then
    [0xEF, 0xBF, 0xBD]
  else if r < 0x10000 then
    [UInt8.ofNat (0xE0 + r / 0x1000), UInt8.ofNat (0x80 + r / 0x40 % 0x40),
      UInt8.ofNat (0x80 + r % 0x40)]
  else
    [UInt8.ofNat (0xF0 + r / 0x40000), UInt8.ofNat (0x80 + r / 0x1000 % 0x40),
      UInt8.ofNat (0x80 + r / 0x40 % 0x40), UInt8.ofNat (0x80 + r % 0x40)]

/--
Byte `b` lies between `lo` and `hi`, the bounds of a continuation byte depend on the first byte.
-/
def inRange (lo hi : Nat) (b : UInt8) : Bool := lo ≤ b.toNat && b.toNat ≤ hi

/--
`utf8.DecodeRune`, the first rune and its width in bytes.
-/
def decodeRune (s : List UInt8) : Nat × Nat :=
  match s with
  | [] => (runeError, 0)
  | b0 :: s =>
    let x := b0.toNat
    if x < 0x80 then
      (x, 1)
    else if 0xC2 ≤ x ∧ x ≤ 0xDF then
      match s with
      | b1 :: _ =>
        if inRange 0x80 0xBF b1 then
          ((x - 0xC0) * 0x40 + (b1.toNat - 0x80), 2)
        else
          (runeError, 1)
      | _ => (runeError, 1)
    else if 0xE0 ≤ x ∧ x ≤ 0xEF then
      let lo := if x = 0xE0 then 0xA0 else 0x80
      let hi := if x = 0xED then 0x9F else 0xBF
      match s with
      | b1 :: b2 :: _ =>
        if inRange lo hi b1 && inRange 0x80 0xBF b2 then
          ((x - 0xE0) * 0x1000 + (b1.toNat - 0x80) * 0x40 + (b2.toNat - 0x80), 3)
        else
          (runeError, 1)
      | _ => (runeError, 1)
    else if 0xF0 ≤ x ∧ x ≤ 0xF4 then
      let lo := if x = 0xF0 then 0x90 else 0x80
      let hi := if x = 0xF4 then 0x8F else 0xBF
      match s with
      | b1 :: b2 :: b3 :: _ =>
        if inRange lo hi b1 && inRange 0x80 0xBF b2 && inRange 0x80 0xBF b3 then
          ((x - 0xF0) * 0x40000 + (b1.toNat - 0x80) * 0x1000 + (b2.toNat - 0x80) * 0x40
            + (b3.toNat - 0x80), 4)
        else
          (runeError, 1)
      | _ => (runeError, 1)
    else
      (runeError, 1)

/--
The runes of `for _, r := range s`. `skip` counts the bytes of the current rune still ahead.
-/
def runes (s : List UInt8) : List Nat :=
  go s 0
where
  go (s : List UInt8) (skip : Nat) : List Nat :=
    match s, skip with
    | [], _ => []
    | _ :: s, skip + 1 => go s skip
    | b :: s, 0 =>
      let (r, width) := decodeRune (b :: s)
      r :: go s (width - 1)

def runeWidths (s : List UInt8) : List (Nat × Nat) :=
  go s 0
where
  go (s : List UInt8) (skip : Nat) : List (Nat × Nat) :=
    match s, skip with
    | [], _ => []
    | _ :: s, skip + 1 => go s skip
    | b :: s, 0 =>
      let (r, width) := decodeRune (b :: s)
      (r, width) :: go s (width - 1)

/--
`utf8.ValidString`: the string is the encoding of a sequence of scalar values.
-/
def Valid (s : List UInt8) : Prop := ∃ rs : List Nat, (∀ r ∈ rs, Scalar r) ∧ s = rs.flatMap encodeRune

theorem decodeRune_one {b0 : UInt8} (s : List UInt8) (h : b0.toNat < 0x80)
    : decodeRune (b0 :: s) = (b0.toNat, 1) := by
  simp [decodeRune, h]

theorem decodeRune_two {b0 b1 : UInt8} (s : List UInt8) (h : 0xC2 ≤ b0.toNat ∧ b0.toNat ≤ 0xDF)
    (h1 : inRange 0x80 0xBF b1)
    : decodeRune (b0 :: b1 :: s) = ((b0.toNat - 0xC0) * 0x40 + (b1.toNat - 0x80), 2) := by
  have c1 : ¬ b0.toNat < 0x80 := by omega
  simp only [decodeRune, c1, if_false, h, and_self, if_true, h1]

theorem decodeRune_three {b0 b1 b2 : UInt8} (s : List UInt8)
    (h : 0xE0 ≤ b0.toNat ∧ b0.toNat ≤ 0xEF)
    (h1 : inRange (if b0.toNat = 0xE0 then 0xA0 else 0x80) (if b0.toNat = 0xED then 0x9F else 0xBF) b1)
    (h2 : inRange 0x80 0xBF b2)
    : decodeRune (b0 :: b1 :: b2 :: s)
        = ((b0.toNat - 0xE0) * 0x1000 + (b1.toNat - 0x80) * 0x40 + (b2.toNat - 0x80), 3) := by
  have c1 : ¬ b0.toNat < 0x80 := by omega
  have c2 : ¬ (0xC2 ≤ b0.toNat ∧ b0.toNat ≤ 0xDF) := by omega
  simp only [decodeRune, c1, c2, if_false, h, and_self, if_true, h1, h2, Bool.and_self]

theorem decodeRune_four {b0 b1 b2 b3 : UInt8} (s : List UInt8)
    (h : 0xF0 ≤ b0.toNat ∧ b0.toNat ≤ 0xF4)
    (h1 : inRange (if b0.toNat = 0xF0 then 0x90 else 0x80) (if b0.toNat = 0xF4 then 0x8F else 0xBF) b1)
    (h2 : inRange 0x80 0xBF b2) (h3 : inRange 0x80 0xBF b3)
    : decodeRune (b0 :: b1 :: b2 :: b3 :: s)
        = ((b0.toNat - 0xF0) * 0x40000 + (b1.toNat - 0x80) * 0x1000 + (b2.toNat - 0x80) * 0x40
            + (b3.toNat - 0x80), 4) := by
  have c1 : ¬ b0.toNat < 0x80 := by omega
  have c2 : ¬ (0xC2 ≤ b0.toNat ∧ b0.toNat ≤ 0xDF) := by omega
  have c3 : ¬ (0xE0 ≤ b0.toNat ∧ b0.toNat ≤ 0xEF) := by omega
  simp only [decodeRune, c1, c2, c3, if_false, h, and_self, if_true, h1, h2, h3, Bool.and_self]

theorem inRange_ofNat {lo hi n : Nat} (hn : n < 256) (h : lo ≤ n ∧ n ≤ hi)
    : inRange lo hi (UInt8.ofNat n) := by
  simp only [inRange, UInt8.toNat_ofNat_of_lt' hn, Bool.and_eq_true, decide_eq_true_eq]
  exact h

theorem decodeRune_encodeRune {r : Nat} (h : Scalar r) (rest : List UInt8)
    : decodeRune (encodeRune r ++ rest) = (r, (encodeRune r).length) := by
  have hr : r < 0xD800 ∨ (0xE000 ≤ r ∧ r ≤ 0x10FFFF) := h
  have toNat {n : Nat} (hn : n < 256) : (UInt8.ofNat n).toNat = n := UInt8.toNat_ofNat_of_lt' hn
  unfold encodeRune
  split
  . next h1 =>
    rw [List.cons_append, decodeRune_one _ (by rw [toNat (by omega)]; omega), toNat (by omega)]
    rfl
  . split
    . next h1 h2 =>
      rw [List.cons_append, List.cons_append, decodeRune_two]
      . rw [toNat (by omega), toNat (by omega)]
        simp only [List.length_cons, List.length_nil, Prod.mk.injEq, and_true]
        omega
      . rw [toNat (by omega)]
        omega
      . exact inRange_ofNat (by omega) (by omega)
    . split
      . next h1 h2 h3 =>
        rw [List.cons_append, List.cons_append, List.cons_append, decodeRune_three]
        . rw [toNat (by omega), toNat (by omega), toNat (by omega)]
          simp only [List.length_cons, List.length_nil, Prod.mk.injEq, and_true]
          omega
        . rw [toNat (by omega)]
          omega
        . -- the second byte keeps out of the overlong and the surrogate range
          apply inRange_ofNat (by omega)
          rw [toNat (by omega)]
          constructor
          . split <;> omega
          . split <;> omega
        . exact inRange_ofNat (by omega) (by omega)
      . next h1 h2 h3 =>
        rw [List.cons_append, List.cons_append, List.cons_append, List.cons_append, decodeRune_four]
        . rw [toNat (by omega), toNat (by omega), toNat (by omega), toNat (by omega)]
          simp only [List.length_cons, List.length_nil, Prod.mk.injEq, and_true]
          omega
        . rw [toNat (by omega)]
          omega
        . apply inRange_ofNat (by omega)
          rw [toNat (by omega)]
          constructor
          . split <;> omega
          . split <;> omega
        . exact inRange_ofNat (by omega) (by omega)
        . exact inRange_ofNat (by omega) (by omega)

theorem runeWidths_of_ascii {s : List UInt8} (h : ∀ b ∈ s, b.toNat < 0x80)
    : runeWidths s = s.map (fun b => (b.toNat, 1)) := by
  unfold runeWidths
  induction s with
  | nil => rfl
  | cons b s ih =>
    simp only [runeWidths.go, decodeRune_one s (h b (by simp))]
    rw [ih (fun b hb => h b (by simp [hb]))]
    rfl

theorem valid_of_ascii {s : List UInt8} (h : ∀ b ∈ s, b.toNat < 0x80) : Valid s := by
  refine ⟨s.map UInt8.toNat, ?_, ?_⟩
  . intro r hr
    obtain ⟨b, hb, rfl⟩ := List.mem_map.mp hr
    have := h b hb
    exact .inl (by omega)
  . induction s with
    | nil => rfl
    | cons b s ih =>
      have hb : encodeRune b.toNat = [b] := by
        unfold encodeRune
        rw [if_pos (h b (by simp))]
        simp
      rw [List.map_cons, List.flatMap_cons, hb, ← ih (fun b hb => h b (by simp [hb]))]
      rfl

theorem encodeRune_ne_nil (r : Nat) : encodeRune r ≠ [] := by
  unfold encodeRune
  repeat' split
  all_goals simp

theorem runes.go_append (u s : List UInt8) : go (u ++ s) u.length = go s 0 := by
  induction u with
  | nil => rfl
  | cons b u ih => simpa [go] using ih

theorem runes_encodeRune_append {r : Nat} (h : Scalar r) (s : List UInt8)
    : runes (encodeRune r ++ s) = r :: runes s := by
  have hdec := decodeRune_encodeRune h s
  generalize hu : encodeRune r = u at hdec
  cases u with
  | nil => exact absurd hu (encodeRune_ne_nil r)
  | cons b u =>
    unfold runes
    rw [List.cons_append] at hdec ⊢
    simp only [runes.go, hdec, List.length_cons, Nat.add_sub_cancel]
    rw [runes.go_append]

theorem runes_flatMap_encodeRune {rs : List Nat} (h : ∀ r ∈ rs, Scalar r)
    : runes (rs.flatMap encodeRune) = rs := by
  induction rs with
  | nil => rfl
  | cons r rs ih =>
    rw [List.flatMap_cons, runes_encodeRune_append (h r (by simp))]
    rw [ih (fun r hr => h r (by simp [hr]))]

theorem flatMap_encodeRune_runes {s : List UInt8} (h : Valid s) : (runes s).flatMap encodeRune = s := by
  obtain ⟨rs, hrs, rfl⟩ := h
  rw [runes_flatMap_encodeRune hrs]

theorem ofNat_eq {n : Nat} {b : UInt8} (h : n = b.toNat) : UInt8.ofNat n = b := by
  subst h
  exact UInt8.ofNat_toNat

theorem inRange_iff {lo hi : Nat} {b : UInt8} : inRange lo hi b ↔ lo ≤ b.toNat ∧ b.toNat ≤ hi := by
  simp [inRange]

theorem encodeRune_three {b b1 b2 : UInt8} (hb : 0xE0 ≤ b.toNat ∧ b.toNat ≤ 0xEF)
    (h1 : inRange (if b.toNat = 0xE0 then 0xA0 else 0x80) (if b.toNat = 0xED then 0x9F else 0xBF) b1)
    (h2 : inRange 0x80 0xBF b2)
    : ∃ r, Scalar r ∧ encodeRune r = [b, b1, b2] := by
  rw [inRange_iff] at h1 h2
  have hr : ∃ r, r = (b.toNat - 0xE0) * 0x1000 + (b1.toNat - 0x80) * 0x40 + (b2.toNat - 0x80) :=
    ⟨_, rfl⟩
  obtain ⟨r, hr⟩ := hr
  have hscalar : Scalar r := by
    unfold Scalar
    split at h1 <;> split at h1 <;> omega
  have hlow : 0x800 ≤ r := by
    split at h1 <;> split at h1 <;> omega
  have hrange : 0x80 ≤ b1.toNat ∧ b1.toNat ≤ 0xBF := by
    split at h1 <;> split at h1 <;> omega
  refine ⟨r, hscalar, ?_⟩
  unfold encodeRune
  rw [if_neg (by omega), if_neg (by omega), if_neg (not_not_intro hscalar), if_pos (by omega),
    ofNat_eq (b := b) (by omega), ofNat_eq (b := b1) (by omega), ofNat_eq (b := b2) (by omega)]

theorem encodeRune_four {b b1 b2 b3 : UInt8} (hb : 0xF0 ≤ b.toNat ∧ b.toNat ≤ 0xF4)
    (h1 : inRange (if b.toNat = 0xF0 then 0x90 else 0x80) (if b.toNat = 0xF4 then 0x8F else 0xBF) b1)
    (h2 : inRange 0x80 0xBF b2) (h3 : inRange 0x80 0xBF b3)
    : ∃ r, Scalar r ∧ encodeRune r = [b, b1, b2, b3] := by
  rw [inRange_iff] at h1 h2 h3
  have hr : ∃ r, r = (b.toNat - 0xF0) * 0x40000 + (b1.toNat - 0x80) * 0x1000
      + (b2.toNat - 0x80) * 0x40 + (b3.toNat - 0x80) := ⟨_, rfl⟩
  obtain ⟨r, hr⟩ := hr
  have hlow : 0x10000 ≤ r := by
    split at h1 <;> split at h1 <;> omega
  have hrange : 0x80 ≤ b1.toNat ∧ b1.toNat ≤ 0xBF := by
    split at h1 <;> split at h1 <;> omega
  have hscalar : Scalar r := by
    unfold Scalar
    split at h1 <;> split at h1 <;> omega
  refine ⟨r, hscalar, ?_⟩
  unfold encodeRune
  rw [if_neg (by omega), if_neg (by omega), if_neg (not_not_intro hscalar), if_neg (by omega),
    ofNat_eq (b := b) (by omega), ofNat_eq (b := b1) (by omega), ofNat_eq (b := b2) (by omega),
    ofNat_eq (b := b3) (by omega)]

/--
A string that does not start with the encoding of a scalar value decodes to U+FFFD with width 1.
-/
theorem decodeRune_cases (b : UInt8) (s : List UInt8)
    : decodeRune (b :: s) = (runeError, 1) ∨ ∃ r s', Scalar r ∧ b :: s = encodeRune r ++ s' := by
  by_cases h1 : b.toNat < 0x80
  . refine .inr ⟨b.toNat, s, .inl (by omega), ?_⟩
    rw [encodeRune, if_pos h1, ofNat_eq rfl]
    rfl
  by_cases h2 : 0xC2 ≤ b.toNat ∧ b.toNat ≤ 0xDF
  . simp only [decodeRune, h1, h2, and_self, if_true, if_false]
    split
    . next b1 s =>
      split
      . next hb1 =>
        rw [inRange_iff] at hb1
        refine .inr ⟨(b.toNat - 0xC0) * 0x40 + (b1.toNat - 0x80), s, .inl (by omega), ?_⟩
        rw [encodeRune, if_neg (by omega), if_pos (by omega), ofNat_eq (b := b) (by omega),
          ofNat_eq (b := b1) (by omega)]
        rfl
      . exact .inl rfl
    . exact .inl rfl
  by_cases h3 : 0xE0 ≤ b.toNat ∧ b.toNat ≤ 0xEF
  . rcases s with _ | ⟨b1, _ | ⟨b2, s⟩⟩
    . simp [decodeRune, h1, h2, h3]
    . simp [decodeRune, h1, h2, h3]
    . by_cases hin : inRange (if b.toNat = 0xE0 then 0xA0 else 0x80)
          (if b.toNat = 0xED then 0x9F else 0xBF) b1 && inRange 0x80 0xBF b2
      . rw [Bool.and_eq_true] at hin
        obtain ⟨r, hr, henc⟩ := encodeRune_three h3 hin.1 hin.2
        refine .inr ⟨r, s, hr, ?_⟩
        rw [henc]
        rfl
      . simp only [decodeRune, h1, h2, h3, hin, and_self, if_true, if_false,
          Bool.false_eq_true, true_or]
  by_cases h4 : 0xF0 ≤ b.toNat ∧ b.toNat ≤ 0xF4
  . rcases s with _ | ⟨b1, _ | ⟨b2, _ | ⟨b3, s⟩⟩⟩
    . simp [decodeRune, h1, h2, h3, h4]
    . simp [decodeRune, h1, h2, h3, h4]
    . simp [decodeRune, h1, h2, h3, h4]
    . by_cases hin : inRange (if b.toNat = 0xF0 then 0x90 else 0x80)
          (if b.toNat = 0xF4 then 0x8F else 0xBF) b1 && inRange 0x80 0xBF b2 && inRange 0x80 0xBF b3
      . rw [Bool.and_eq_true, Bool.and_eq_true] at hin
        obtain ⟨r, hr, henc⟩ := encodeRune_four h4 hin.1.1 hin.1.2 hin.2
        refine .inr ⟨r, s, hr, ?_⟩
        rw [henc]
        rfl
      . simp only [decodeRune, h1, h2, h3, h4, hin, and_self, if_true, if_false,
          Bool.false_eq_true, true_or]
  . simp [decodeRune, h1, h2, h3, h4]

/--
`Repaired s t`: the string `t` is `s` with every undecodable byte, one at which no encoding of a
scalar value starts, replaced by the encoding of U+FFFD.
-/
inductive Repaired : List UInt8 → List UInt8 → Prop where
  | nil : Repaired [] []
  | keep {r : Nat} {s t : List UInt8} (hr : Scalar r) (h : Repaired s t)
    : Repaired (encodeRune r ++ s) (encodeRune r ++ t)
  | replace {b : UInt8} {s t : List UInt8}
      (hb : ∀ r s', Scalar r → b :: s ≠ encodeRune r ++ s') (h : Repaired s t)
    : Repaired (b :: s) (encodeRune runeError ++ t)

theorem runes_of_undecodable {b : UInt8} {s : List UInt8}
    (hb : ∀ r s', Scalar r → b :: s ≠ encodeRune r ++ s')
    : runes (b :: s) = runeError :: runes s := by
  rcases decodeRune_cases b s with h | ⟨r, s', hr, h⟩
  . unfold runes
    simp only [runes.go, h]
  . exact absurd h (hb r s' hr)

theorem Repaired.eq {s t : List UInt8} (h : Repaired s t) : t = (runes s).flatMap encodeRune := by
  induction h with
  | nil => rfl
  | keep hr h ih => rw [runes_encodeRune_append hr, List.flatMap_cons, ih]
  | replace hb h ih => rw [runes_of_undecodable hb, List.flatMap_cons, ih]

theorem exists_repaired (s : List UInt8) : ∃ t, Repaired s t := by
  induction hn : s.length using Nat.strongRecOn generalizing s with
  | ind n ih =>
    cases s with
    | nil => exact ⟨[], .nil⟩
    | cons b s =>
      by_cases hb : ∃ r s', Scalar r ∧ b :: s = encodeRune r ++ s'
      . obtain ⟨r, s', hr, hs⟩ := hb
        have hlen := congrArg List.length hs
        have hpos := List.length_pos_iff.mpr (encodeRune_ne_nil r)
        rw [List.length_append] at hlen
        obtain ⟨t, ht⟩ := ih s'.length (by omega) s' rfl
        rw [hs]
        exact ⟨_, .keep hr ht⟩
      . have hlen : s.length < n := by
          rw [← hn, List.length_cons]
          omega
        obtain ⟨t, ht⟩ := ih s.length hlen s rfl
        exact ⟨_, .replace (fun r s' hr hs => hb ⟨r, s', hr, hs⟩) ht⟩

theorem repaired_iff {s t : List UInt8} : Repaired s t ↔ t = (runes s).flatMap encodeRune := by
  refine ⟨Repaired.eq, fun ht => ?_⟩
  obtain ⟨t', h⟩ := exists_repaired s
  rw [ht, ← h.eq]
  exact h

theorem scalar_of_mem_runes {s : List UInt8} : ∀ r ∈ runes s, Scalar r := by
  obtain ⟨t, h⟩ := exists_repaired s
  induction h with
  | nil =>
    intro r hr
    cases hr
  | keep hr h ih =>
    rw [runes_encodeRune_append hr]
    exact List.forall_mem_cons.mpr ⟨hr, ih⟩
  | replace hb h ih =>
    rw [runes_of_undecodable hb]
    exact List.forall_mem_cons.mpr ⟨scalar_runeError, ih⟩

end Utf8
