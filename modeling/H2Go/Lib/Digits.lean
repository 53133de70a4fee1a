import Mathlib.Algebra.Ring.Int.Defs
import Mathlib.Algebra.Ring.Nat
import Mathlib.Data.List.Induction

/-!
This module contains numbers written as ASCII digits: texts of a fixed width in any base up to 16,
the shortest decimal text, and the number that a text denotes.
-/

namespace Digits

def digitByte (d : Nat) : UInt8 := if d < 10 then UInt8.ofNat (48 + d) else UInt8.ofNat (87 + d)

def isDecimal (b : UInt8) : Bool := 48 ≤ b.toNat && b.toNat ≤ 57

/--
The value of a hexadecimal digit of either case.
-/
def digitValue (b : UInt8) : Option Nat :=
  if 48 ≤ b.toNat ∧ b.toNat ≤ 57 then
    some (b.toNat - 48)
  else if 97 ≤ b.toNat ∧ b.toNat ≤ 102 then
    some (b.toNat - 87)
  else if 65 ≤ b.toNat ∧ b.toNat ≤ 70 then
    some (b.toNat - 55)
  else
    none

/--
The lower-case form of an ASCII letter, other bytes are unchanged.
-/
def lower (b : UInt8) : UInt8 := if 65 ≤ b.toNat ∧ b.toNat ≤ 90 then b + 32 else b

/--
The number a text denotes, bytes that are no digits count as zero.
-/
def textValue (base : Nat) (ds : List UInt8) : Nat :=
  ds.foldl (fun acc b => acc * base + (digitValue b).getD 0) 0

def padded (base k n : Nat) : List UInt8 :=
  match k with
  | 0 => []
  | k + 1 => padded base k (n / base) ++ [digitByte (n % base)]

def decimal (n : Nat) : List UInt8 :=
  go (n + 1) n
where
  go (fuel n : Nat) : List UInt8 :=
    match fuel with
    | 0 => []
    | fuel + 1 => if n < 10 then [digitByte n] else go fuel (n / 10) ++ [digitByte (n % 10)]

theorem digitByte_toNat {d : Nat} (h : d < 16)
    : (digitByte d).toNat = if d < 10 then 48 + d else 87 + d := by
  unfold digitByte
  split
  . exact UInt8.toNat_ofNat_of_lt' (by simp [UInt8.size]; omega)
  . exact UInt8.toNat_ofNat_of_lt' (by simp [UInt8.size]; omega)

theorem isDecimal_digitByte {d : Nat} (h : d < 10) : isDecimal (digitByte d) := by
  unfold isDecimal
  rw [digitByte_toNat (by omega), if_pos h]
  simp
  omega

theorem digitValue_lt {b : UInt8} {d : Nat} (h : digitValue b = some d) : d < 16 := by
  unfold digitValue at h
  split at h
  . simp only [Option.some.injEq] at h
    omega
  . split at h
    . simp only [Option.some.injEq] at h
      omega
    . split at h
      . simp only [Option.some.injEq] at h
        omega
      . simp at h

theorem digitByte_of_digitValue {b : UInt8} {d : Nat} (h : digitValue b = some d)
    : digitByte d = lower b := by
  have hd := digitValue_lt h
  apply UInt8.toNat_inj.mp
  rw [digitByte_toNat hd]
  unfold digitValue at h
  unfold lower
  split at h
  . simp only [Option.some.injEq] at h
    rw [if_pos (by omega), if_neg (by omega)]
    omega
  . split at h
    . simp only [Option.some.injEq] at h
      rw [if_neg (by omega), if_neg (by omega)]
      omega
    . split at h
      . simp only [Option.some.injEq] at h
        rw [if_neg (by omega), if_pos (by omega), UInt8.toNat_add]
        simp
        omega
      . simp at h

@[simp]
theorem length_padded (base k n : Nat) : (padded base k n).length = k := by
  induction k generalizing n with
  | zero => rfl
  | succ k ih => simp [padded, ih]

theorem padded_add (base k l n : Nat)
    : padded base (k + l) n = padded base k (n / base ^ l) ++ padded base l n := by
  induction l generalizing n with
  | zero => simp [padded]
  | succ l ih =>
    rw [← Nat.add_assoc, padded, ih, padded, Nat.div_div_eq_div_mul, List.append_assoc,
      Nat.pow_succ, Nat.mul_comm]

theorem textValue_append_singleton (base : Nat) (ds : List UInt8) (b : UInt8)
    : textValue base (ds ++ [b]) = textValue base ds * base + (digitValue b).getD 0 := by
  simp [textValue]

theorem textValue_append (base : Nat) (ds es : List UInt8)
    : textValue base (ds ++ es) = textValue base ds * base ^ es.length + textValue base es := by
  induction es using List.reverseRecOn with
  | nil => simp [textValue]
  | append_singleton es b ih =>
    rw [← List.append_assoc, textValue_append_singleton, ih, textValue_append_singleton,
      List.length_append, List.length_singleton, Nat.pow_succ, Nat.add_mul, Nat.mul_assoc,
      Nat.add_assoc]

theorem textValue_replicate_zero (base n : Nat) : textValue base (List.replicate n 48) = 0 := by
  induction n with
  | zero => rfl
  | succ n ih =>
    rw [List.replicate_succ', textValue_append_singleton, ih, Nat.zero_mul]
    rfl

/--
Writing what a text of hexadecimal digits denotes returns the text in lower case.
-/
theorem padded_textValue {ds : List UInt8} (h : ∀ b ∈ ds, (digitValue b).isSome)
    : padded 16 ds.length (textValue 16 ds) = ds.map lower := by
  induction ds using List.reverseRecOn with
  | nil => rfl
  | append_singleton ds b ih =>
    obtain ⟨d, hd⟩ := Option.isSome_iff_exists.mp (h b (by simp))
    have hlt := digitValue_lt hd
    rw [List.length_append, List.length_singleton, padded, textValue_append_singleton, hd]
    rw [Option.getD_some, show (textValue 16 ds * 16 + d) / 16 = textValue 16 ds by omega]
    rw [show (textValue 16 ds * 16 + d) % 16 = d by omega, digitByte_of_digitValue hd]
    rw [ih (fun b hb => h b (by simp [hb])), List.map_append]
    rfl

theorem textValue_lt {ds : List UInt8} (h : ∀ b ∈ ds, (digitValue b).isSome)
    : textValue 16 ds < 16 ^ ds.length := by
  induction ds using List.reverseRecOn with
  | nil => decide
  | append_singleton ds b ih =>
    obtain ⟨d, hd⟩ := Option.isSome_iff_exists.mp (h b (by simp))
    have hlt := digitValue_lt hd
    have := ih (fun b hb => h b (by simp [hb]))
    rw [textValue_append_singleton, List.length_append, List.length_singleton, Nat.pow_succ, hd,
      Option.getD_some]
    omega

theorem textValue_lt_of_isDecimal {ds : List UInt8} (h : ∀ b ∈ ds, isDecimal b)
    : textValue 10 ds < 10 ^ ds.length := by
  induction ds using List.reverseRecOn with
  | nil => decide
  | append_singleton ds b ih =>
    have := ih (fun b hb => h b (by simp [hb]))
    have hb := h b (by simp)
    simp only [isDecimal, Bool.and_eq_true, decide_eq_true_eq] at hb
    rw [textValue_append_singleton, List.length_append, List.length_singleton, Nat.pow_succ,
      show digitValue b = some (b.toNat - 48) from if_pos hb, Option.getD_some]
    omega

theorem decimal.go_spec {fuel n : Nat} (h : n < fuel)
    : go fuel n ≠ [] ∧ ∀ b ∈ go fuel n, isDecimal b := by
  induction fuel generalizing n with
  | zero => omega
  | succ fuel ih =>
    unfold go
    split
    . next hn =>
      constructor
      . simp
      . simpa using isDecimal_digitByte hn
    . constructor
      . simp
      . intro b hb
        rw [List.mem_append, List.mem_singleton] at hb
        cases hb with
        | inl hb => exact (ih (by omega)).2 b hb
        | inr hb => exact hb ▸ isDecimal_digitByte (by omega)

theorem digitValue_digitByte {d : Nat} (h : d < 10) : digitValue (digitByte d) = some d := by
  revert d
  decide

theorem textValue_decimal_go {fuel n : Nat} (h : n < fuel) : textValue 10 (decimal.go fuel n) = n := by
  induction fuel generalizing n with
  | zero => omega
  | succ fuel ih =>
    unfold decimal.go
    split
    . next hn =>
      rw [← List.nil_append [digitByte n], textValue_append_singleton, digitValue_digitByte hn]
      simp [textValue]
    . rw [textValue_append_singleton, ih (by omega), digitValue_digitByte (by omega), Option.getD_some]
      omega

theorem textValue_decimal (n : Nat) : textValue 10 (decimal n) = n :=
  textValue_decimal_go (Nat.lt_succ_self n)

theorem decimal_ne_nil (n : Nat) : decimal n ≠ [] := (decimal.go_spec (Nat.lt_succ_self n)).1

theorem isDecimal_of_mem_decimal {n : Nat} {b : UInt8} (h : b ∈ decimal n) : isDecimal b :=
  (decimal.go_spec (Nat.lt_succ_self n)).2 b h

theorem decimal.length_go_le {fuel n k : Nat} (h : n < 10 ^ (k + 1))
    : (go fuel n).length ≤ k + 1 := by
  induction fuel generalizing n k with
  | zero => simp [go]
  | succ fuel ih =>
    unfold go
    split
    . simp
    . next hn =>
      cases k with
      | zero => omega
      | succ k =>
        rw [Nat.pow_succ] at h
        have := ih (n := n / 10) (k := k) (by omega)
        rw [List.length_append, List.length_singleton]
        omega

theorem length_decimal_le {n k : Nat} (h : n < 10 ^ (k + 1)) : (decimal n).length ≤ k + 1 :=
  decimal.length_go_le h

theorem textValue_padded (k n : Nat) : textValue 10 (padded 10 k n) = n % 10 ^ k := by
  induction k generalizing n with
  | zero => exact (Nat.mod_one n).symm
  | succ k ih =>
    rw [padded, textValue_append_singleton, ih, digitValue_digitByte (Nat.mod_lt n (by decide)),
      Option.getD_some, Nat.pow_succ, Nat.mul_comm (10 ^ k) 10, Nat.mod_mul]
    omega

theorem padded_textValue_of_isDecimal {ds : List UInt8} (h : ∀ b ∈ ds, isDecimal b)
    : padded 10 ds.length (textValue 10 ds) = ds := by
  induction ds using List.reverseRecOn with
  | nil => rfl
  | append_singleton ds b ih =>
    have hb := h b (by simp)
    simp only [isDecimal, Bool.and_eq_true, decide_eq_true_eq] at hb
    have hvalue : digitValue b = some (b.toNat - 48) := if_pos hb
    have hbyte : digitByte (b.toNat - 48) = b := by
      apply UInt8.toNat_inj.mp
      rw [digitByte_toNat (by omega), if_pos (by omega)]
      omega
    rw [List.length_append, List.length_singleton, padded, textValue_append_singleton, hvalue,
      Option.getD_some, show (textValue 10 ds * 10 + (b.toNat - 48)) / 10 = textValue 10 ds by omega,
      show (textValue 10 ds * 10 + (b.toNat - 48)) % 10 = b.toNat - 48 by omega, hbyte,
      ih (fun b hb => h b (by simp [hb]))]

theorem zeros_append_decimal {k n : Nat} (h : n < 10 ^ (k + 1))
    : List.replicate (k + 1 - (decimal n).length) 48 ++ decimal n = padded 10 (k + 1) n := by
  have hdecimal : ∀ b ∈ List.replicate (k + 1 - (decimal n).length) 48 ++ decimal n, isDecimal b := by
    intro b hb
    rw [List.mem_append, List.mem_replicate] at hb
    cases hb with
    | inl hb => exact hb.2 ▸ by decide
    | inr hb => exact isDecimal_of_mem_decimal hb
  have hlen : (List.replicate (k + 1 - (decimal n).length) 48 ++ decimal n).length = k + 1 := by
    have := length_decimal_le h
    rw [List.length_append, List.length_replicate]
    omega
  have hwrite := padded_textValue_of_isDecimal hdecimal
  rw [hlen, textValue_append, textValue_replicate_zero, Nat.zero_mul, Nat.zero_add,
    textValue_decimal] at hwrite
  exact hwrite.symm

theorem decimal_append_inj {m n : Nat} {r r' : List UInt8} (hr : ∀ b ∈ r.head?, ¬ isDecimal b)
    (hr' : ∀ b ∈ r'.head?, ¬ isDecimal b) (h : decimal m ++ r = decimal n ++ r')
    : m = n ∧ r = r' := by
  have hspan : ∀ (n : Nat) {r : List UInt8}, (∀ b ∈ r.head?, ¬ isDecimal b) →
      (decimal n ++ r).takeWhile isDecimal = decimal n := by
    intro n r hr
    rw [List.takeWhile_append_of_pos (fun b hb => isDecimal_of_mem_decimal hb)]
    cases r with
    | nil => simp
    | cons b r => simp [hr b rfl]
  have hdecimal : decimal m = decimal n := by rw [← hspan m hr, h, hspan n hr']
  refine ⟨?_, ?_⟩
  . rw [← textValue_decimal m, hdecimal, textValue_decimal]
  . rw [hdecimal] at h
    exact List.append_cancel_left h

end Digits
