import H2Go.Transfer.Write

/-!
This module contains the length prefixes of strings and byte slices: when the signed 32-bit number on
the wire is the length of what follows it.
-/

namespace H2Go
namespace Tr

open BigEndian

variable {σ : Type}

def Takes (n : Nat) (t : Tr σ) : Prop := ∀ budget, t.writeBudget = some budget → n ≤ budget

/--
When `m` returns nil it has written a signed 32-bit number, and after it that many pieces of `size`
bytes.
-/
def PrefixTrue (size : Nat) (m : Prog Err (Tr σ) Unit) (t : Tr σ) : Prop :=
  ∀ t', m t = .ok () t' → ∃ header body, t'.written = t.written ++ (header ++ body) ∧
    header.length = 4 ∧ 0 ≤ beInt header ∧ (body.length : Int) = size * beInt header

theorem takes_iff (bs : List UInt8) (t : Tr σ) : t.Takes bs.length ↔ ∃ t', write bs t = .ok () t' := by
  unfold Takes
  cases hb : t.writeBudget with
  | none => simp [write_of_healthy hb]
  | some n =>
    by_cases hn : bs.length ≤ n
    . simp [write_of_le hb hn, hn]
    . simp [write_of_lt hb (Nat.lt_of_not_le hn), hn]

/--
The prefix `n` in four bytes is `n` exactly when `n` is not too large for a signed number.
-/
theorem beInt_beBytes_eq_iff (n : Nat) : beInt (beBytes 4 n) = n ↔ n < 2 ^ 31 := by
  have hlt := beNat_lt (beBytes 4 n)
  have hmod := beNat_beBytes 4 n
  unfold beInt
  rw [length_beBytes] at hlt ⊢
  split <;> omega

/--
A frame that starts with its length modulo `2 ^ 32` tells the truth exactly when the length is below
`2 ^ 31`, or when the frame cannot be written.
-/
theorem prefixTrue_iff {size n : Nat} (hsize : 0 < size) {m : Prog Err (Tr σ) Unit}
    {body : List UInt8} (hbody : body.length = size * n) (hm : Writes m () (beBytes 4 n ++ body))
    (t : Tr σ)
    : PrefixTrue size m t ↔ n < 2 ^ 31 ∨ ¬ t.Takes (4 + size * n) := by
  have hlength : (beBytes 4 n ++ body).length = 4 + size * n := by
    rw [List.length_append, length_beBytes, hbody]
  rw [← hlength, takes_iff, ← beInt_beBytes_eq_iff]
  constructor
  . intro htrue
    by_cases hwrite : ∃ t', write (beBytes 4 n ++ body) t = .ok () t'
    . left
      obtain ⟨t', ht'⟩ := hwrite
      obtain ⟨header, rest, hwritten, hheader, hnonneg, hrest⟩ := htrue t' (hm.ok ht')
      rw [hm.written_of_ok (hm.ok ht')] at hwritten
      have hparts := List.append_inj (List.append_cancel_left hwritten)
        (by rw [length_beBytes, hheader])
      rw [← hparts.1, ← hparts.2, hbody, Int.natCast_mul] at hrest
      exact (Int.eq_of_mul_eq_mul_left (by omega) hrest).symm
    . exact .inr hwrite
  . intro h t' ht'
    refine ⟨beBytes 4 n, body, hm.written_of_ok ht', length_beBytes _ _, ?_⟩
    rcases h with h | h
    . rw [h, hbody, Int.natCast_mul]
      exact ⟨Int.natCast_nonneg n, rfl⟩
    . exfalso
      rcases write_cases (beBytes 4 n ++ body) t with ⟨s, hs, -⟩ | ⟨e, s, hs⟩
      . exact h ⟨s, hs⟩
      . obtain ⟨e', he', -⟩ := hm.fail hs
        rw [he'] at ht'
        cases ht'

theorem writes_writeBytes_some (b : List UInt8)
    : Writes (writeBytes (some b) : Prog Err (Tr σ) _) () (beBytes 4 b.length ++ b) := by
  rw [← intBytes_natCast]
  exact writes_writeBytes (some b)

/--
The length that `writeString` and `writeBytes` write in front is the number of code units or bytes
after it exactly when there are fewer than `2 ^ 31`, or when the connection does not take them.
-/
theorem length_prefix_iff (s : GoString) (b : List UInt8) (t : Tr σ)
    : (PrefixTrue 2 (writeString s) t ↔
          (utf16Encode s).length < 2 ^ 31 ∨ ¬ t.Takes (4 + 2 * (utf16Encode s).length)) ∧
        (PrefixTrue 1 (writeBytes (some b)) t ↔ b.length < 2 ^ 31 ∨ ¬ t.Takes (4 + 1 * b.length)) :=
  ⟨prefixTrue_iff (by decide) (length_flatMap_unitBytes _) (writes_writeString s) t,
    prefixTrue_iff (by decide) (by rw [Nat.one_mul]) (writes_writeBytes_some b) t⟩

/--
A string of two gibibytes is framed with a negative length.
-/
theorem length_prefix_wraps
    : ¬ PrefixTrue 2 (writeString (List.replicate (2 ^ 31) 97)) (ofBytes []) := by
  have hascii : isASCII (List.replicate (2 ^ 31) 97) = true := by
    rw [isASCII, List.all_eq_true]
    intro c hc
    rw [List.eq_of_mem_replicate hc]
    decide
  have hunits : (utf16Encode (List.replicate (2 ^ 31) 97)).length = 2 ^ 31 := by
    rw [utf16Encode_of_isASCII hascii, List.length_map, List.length_replicate]
  intro htrue
  have h := (prefixTrue_iff (by decide) (length_flatMap_unitBytes _)
    (writes_writeString (List.replicate (2 ^ 31) 97)) (ofBytes [])).mp htrue
  rw [hunits] at h
  rcases h with h | h
  . exact absurd h (Nat.lt_irrefl _)
  . apply h
    intro budget hbudget
    cases hbudget

end Tr
end H2Go
