import Mathlib.Data.List.Basic
import Mathlib.Tactic.Ring

/-!
This module contains the big-endian representation of natural numbers and of signed integers in a
fixed number of bytes.
-/

namespace BigEndian

def beBytes (k : Nat) (n : Nat) : List UInt8 :=
  match k with
  | 0 => []
  | k + 1 => UInt8.ofNat (n / 256 ^ k) :: beBytes k n

def beNat (bs : List UInt8) : Nat :=
  match bs with
  | [] => 0
  | b :: bs => b.toNat * 256 ^ bs.length + beNat bs

@[simp]
theorem length_beBytes (k n : Nat) : (beBytes k n).length = k := by
  induction k with
  | zero => rfl
  | succ k ih => simp [beBytes, ih]

theorem beNat_lt (bs : List UInt8) : beNat bs < 256 ^ bs.length := by
  induction bs with
  | nil => simp [beNat]
  | cons b bs ih =>
    have hb : b.toNat ≤ 255 := by
      have := b.toNat_lt
      omega
    calc
      beNat (b :: bs) < b.toNat * 256 ^ bs.length + 256 ^ bs.length := by
        simp only [beNat]
        omega
      _ = (b.toNat + 1) * 256 ^ bs.length := by ring
      _ ≤ 256 * 256 ^ bs.length := Nat.mul_le_mul_right _ (by omega)
      _ = 256 ^ (b :: bs).length := by
        rw [List.length_cons]
        ring

theorem beNat_beBytes (k n : Nat) : beNat (beBytes k n) = n % 256 ^ k := by
  induction k with
  | zero => simp [beBytes, beNat, Nat.mod_one]
  | succ k ih =>
    have hmod : n % 256 ^ (k + 1) = n % 256 ^ k + 256 ^ k * (n / 256 ^ k % 256) := by
      rw [Nat.pow_succ, Nat.mod_mul]
    simp only [beBytes, beNat, length_beBytes, ih, UInt8.toNat_ofNat', hmod]
    ring

theorem beBytes_add_mul (k m n : Nat) : beBytes k (m * 256 ^ k + n) = beBytes k n := by
  induction k generalizing m with
  | zero => rfl
  | succ k ih =>
    simp only [beBytes]
    have hpos : 0 < 256 ^ k := Nat.pow_pos (by omega)
    have hshift : m * 256 ^ (k + 1) + n = m * 256 * 256 ^ k + n := by ring
    congr 1
    . rw [hshift, Nat.add_comm, Nat.add_mul_div_right _ _ hpos]
      apply UInt8.toNat_inj.mp
      simp
    . rw [hshift, ih]

theorem beBytes_beNat (bs : List UInt8) : beBytes bs.length (beNat bs) = bs := by
  induction bs with
  | nil => rfl
  | cons b bs ih =>
    simp only [List.length_cons, beBytes, beNat]
    have hpos : 0 < 256 ^ bs.length := Nat.pow_pos (by omega)
    congr 1
    . rw [Nat.add_comm, Nat.add_mul_div_right _ _ hpos, Nat.div_eq_of_lt (beNat_lt bs)]
      simp
    . rw [beBytes_add_mul, ih]

def beInt (bs : List UInt8) : Int :=
  if 2 * beNat bs < 256 ^ bs.length then beNat bs else beNat bs - 256 ^ bs.length

/--
The two's complement representation of `x` in `k` bytes, higher bits are cut off.
-/
def intBytes (k : Nat) (x : Int) : List UInt8 := beBytes k (x % 256 ^ k).toNat

@[simp]
theorem length_intBytes (k : Nat) (x : Int) : (intBytes k x).length = k := length_beBytes _ _

theorem cast_pow (k : Nat) : ((256 ^ k : Nat) : Int) = 256 ^ k := by simp

theorem intBytes_natCast (k n : Nat) : intBytes k n = beBytes k n := by
  have hmod : ((n : Int) % 256 ^ k).toNat = n % 256 ^ k := by
    rw [← cast_pow, ← Int.natCast_emod, Int.toNat_natCast]
  rw [intBytes, hmod]
  have hsplit := beBytes_add_mul k (n / 256 ^ k) (n % 256 ^ k)
  rw [Nat.div_add_mod'] at hsplit
  exact hsplit.symm

theorem beNat_intBytes (k : Nat) (x : Int) : (beNat (intBytes k x) : Int) = x % 256 ^ k := by
  have hpos : (0 : Int) < 256 ^ k := by
    rw [← cast_pow]
    exact_mod_cast Nat.pow_pos (by omega)
  have h1 := Int.emod_nonneg x (by omega : (256 ^ k : Int) ≠ 0)
  have h2 := Int.emod_lt_of_pos x hpos
  unfold intBytes
  rw [beNat_beBytes, Nat.mod_eq_of_lt]
  . omega
  . rw [← cast_pow] at h2
    rw [← cast_pow]
    omega

theorem beInt_intBytes {k : Nat} {x : Int} (h1 : -(256 ^ k : Int) ≤ 2 * x) (h2 : 2 * x < 256 ^ k)
    : beInt (intBytes k x) = x := by
  have hx := beNat_intBytes k x
  have hlt := beNat_lt (intBytes k x)
  have hcast := cast_pow k
  unfold beInt
  simp only [length_intBytes] at hlt ⊢
  have hxmod : x % (256 ^ k : Int) = if x < 0 then x + 256 ^ k else x := by
    split
    . rw [← Int.add_emod_right]
      exact Int.emod_eq_of_lt (by omega) (by omega)
    . exact Int.emod_eq_of_lt (by omega) (by omega)
  rw [hxmod] at hx
  generalize hb : beNat (intBytes k x) = b at *
  generalize hp : (256 ^ k : Nat) = p at *
  split at hx
  . split
    . omega
    . omega
  . split
    . omega
    . omega

theorem beInt_lower (bs : List UInt8) : -(256 ^ bs.length : Int) ≤ 2 * beInt bs := by
  have hlt := beNat_lt bs
  have hcast := cast_pow bs.length
  unfold beInt
  generalize (256 ^ bs.length : Nat) = p at *
  split <;> omega

theorem beInt_upper (bs : List UInt8) : 2 * beInt bs < 256 ^ bs.length := by
  have hlt := beNat_lt bs
  have hcast := cast_pow bs.length
  unfold beInt
  generalize (256 ^ bs.length : Nat) = p at *
  split <;> omega

theorem intBytes_beInt (bs : List UInt8) : intBytes bs.length (beInt bs) = bs := by
  have hlt := beNat_lt bs
  have hcast := cast_pow bs.length
  have hmod : (beInt bs % (256 ^ bs.length : Int)).toNat = beNat bs := by
    unfold beInt
    split
    . rw [Int.emod_eq_of_lt (by omega) (by omega)]
      omega
    . rw [Int.sub_emod_right, Int.emod_eq_of_lt (by omega) (by omega)]
      omega
  unfold intBytes
  rw [hmod, beBytes_beNat]

end BigEndian
