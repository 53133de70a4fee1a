import H2Go.Protocol
import Mathlib.Data.Nat.Bitwise

/-!
This module contains the UTF-16 codec of the transfer stream.
-/

namespace H2Go

open Utf8

def runeUnits (r : Nat) : List Nat :=
  if r < 0x10000 then
    [r]
  else
    let r := r - 0x10000
    [0xD800 ||| (r >>> 10), 0xDC00 ||| (r &&& 0x3FF)]

def utf16Encode (s : GoString) : List Nat := (runes s).flatMap runeUnits

/--
Decode code units, every unpaired surrogate becomes the replacement character.
-/
def utf16Decode (units : List Nat) : GoString :=
  match units with
  | [] => []
  | u :: units =>
    if 0xD800 ≤ u ∧ u ≤ 0xDBFF then
      match units with
      | [] => encodeRune runeError
      | lo :: rest =>
        if 0xDC00 ≤ lo ∧ lo ≤ 0xDFFF then
          encodeRune ((u - 0xD800) <<< 10 + (lo - 0xDC00) + 0x10000) ++ utf16Decode rest
        else
          encodeRune runeError ++ utf16Decode (lo :: rest)
    else if 0xDC00 ≤ u ∧ u ≤ 0xDFFF then
      encodeRune runeError ++ utf16Decode units
    else
      encodeRune u ++ utf16Decode units

def isASCII (s : GoString) : Bool := s.all (fun b => b.toNat < 0x80)

def unitBytes (u : Nat) : List UInt8 := [UInt8.ofNat (u >>> 8), UInt8.ofNat u]

def bytesUnits (raw : List UInt8) : List Nat :=
  match raw with
  | hi :: lo :: raw => (hi.toNat * 256 + lo.toNat) :: bytesUnits raw
  | _ => []

theorem runeUnits_of_lt {r : Nat} (h : r < 0x10000) : runeUnits r = [r] := by
  simp [runeUnits, h]

theorem runeUnits_of_ge {r : Nat} (h : 0x10000 ≤ r) (hr : r ≤ 0x10FFFF)
    : runeUnits r = [0xD800 + (r - 0x10000) / 0x400, 0xDC00 + (r - 0x10000) % 0x400] := by
  have hhi : 0xD800 ||| ((r - 0x10000) >>> 10) = 0xD800 + (r - 0x10000) >>> 10 := by
    have : (r - 0x10000) >>> 10 < 2 ^ 10 := by
      rw [Nat.shiftRight_eq_div_pow]
      omega
    exact (Nat.shiftLeft_add_eq_or_of_lt this 54).symm
  have hlo : 0xDC00 ||| ((r - 0x10000) &&& 0x3FF) = 0xDC00 + ((r - 0x10000) &&& 0x3FF) := by
    have : (r - 0x10000) &&& 0x3FF < 2 ^ 10 := Nat.and_lt_two_pow _ (by decide)
    exact (Nat.shiftLeft_add_eq_or_of_lt this 55).symm
  have hmask : (r - 0x10000) &&& 0x3FF = (r - 0x10000) % 0x400 := Nat.and_two_pow_sub_one_eq_mod _ 10
  simp only [runeUnits, Nat.not_lt.mpr h, if_false]
  rw [hhi, hlo, hmask, Nat.shiftRight_eq_div_pow]

theorem utf16Decode_runeUnits_append {r : Nat} (h : Scalar r) (units : List Nat)
    : utf16Decode (runeUnits r ++ units) = encodeRune r ++ utf16Decode units := by
  have hr : r < 0xD800 ∨ (0xE000 ≤ r ∧ r ≤ 0x10FFFF) := h
  by_cases hlt : r < 0x10000
  . have h1 : ¬ (0xD800 ≤ r ∧ r ≤ 0xDBFF) := by omega
    have h2 : ¬ (0xDC00 ≤ r ∧ r ≤ 0xDFFF) := by omega
    rw [runeUnits_of_lt hlt, List.singleton_append]
    cases units with
    | nil | cons => simp only [utf16Decode, h1, h2, if_false]
  . rw [runeUnits_of_ge (by omega) (by omega)]
    have h1 : 0xD800 ≤ 0xD800 + (r - 0x10000) / 0x400 ∧ 0xD800 + (r - 0x10000) / 0x400 ≤ 0xDBFF := by
      omega
    have h2 : 0xDC00 ≤ 0xDC00 + (r - 0x10000) % 0x400 ∧ 0xDC00 + (r - 0x10000) % 0x400 ≤ 0xDFFF := by
      omega
    simp only [List.cons_append, List.nil_append, utf16Decode, h1, h2, and_self, if_true]
    rw [Nat.add_sub_cancel_left, Nat.add_sub_cancel_left, Nat.shiftLeft_eq]
    rw [show (r - 0x10000) / 0x400 * 2 ^ 10 + (r - 0x10000) % 0x400 + 0x10000 = r by omega]

theorem utf16Decode_flatMap_runeUnits {rs : List Nat} (h : ∀ r ∈ rs, Scalar r)
    : utf16Decode (rs.flatMap runeUnits) = rs.flatMap encodeRune := by
  induction rs with
  | nil => rfl
  | cons r rs ih =>
    rw [List.flatMap_cons, utf16Decode_runeUnits_append (h r (by simp))]
    rw [ih (fun r hr => h r (by simp [hr])), List.flatMap_cons]

theorem utf16Decode_utf16Encode {s : GoString} (h : Valid s) : utf16Decode (utf16Encode s) = s := by
  obtain ⟨rs, hrs, rfl⟩ := h
  unfold utf16Encode
  rw [runes_flatMap_encodeRune hrs, utf16Decode_flatMap_runeUnits hrs]

def unitRunes (units : List Nat) : List Nat :=
  match units with
  | [] => []
  | u :: units =>
    if 0xD800 ≤ u ∧ u ≤ 0xDBFF then
      match units with
      | [] => [runeError]
      | lo :: rest =>
        if 0xDC00 ≤ lo ∧ lo ≤ 0xDFFF then
          ((u - 0xD800) <<< 10 + (lo - 0xDC00) + 0x10000) :: unitRunes rest
        else
          runeError :: unitRunes (lo :: rest)
    else if 0xDC00 ≤ u ∧ u ≤ 0xDFFF then
      runeError :: unitRunes units
    else
      u :: unitRunes units

theorem utf16Decode_eq_flatMap (us : List Nat) : utf16Decode us = (unitRunes us).flatMap encodeRune := by
  fun_induction utf16Decode us with
  | case1 => rfl
  | case2 u hhigh => simp [unitRunes, hhigh]
  | case3 u hhigh lo rest hlow ih => rw [unitRunes, if_pos hhigh, if_pos hlow, ih, List.flatMap_cons]
  | case4 u hhigh lo rest hlow ih => rw [unitRunes, if_pos hhigh, if_neg hlow, ih, List.flatMap_cons]
  | case5 u units hhigh hlow ih =>
    unfold unitRunes
    rw [if_neg hhigh, if_pos hlow, ih, List.flatMap_cons]
  | case6 u units hhigh hlow ih =>
    unfold unitRunes
    rw [if_neg hhigh, if_neg hlow, ih, List.flatMap_cons]

theorem scalar_of_mem_unitRunes {us : List Nat} (hus : ∀ u ∈ us, u < 0x10000)
    : ∀ r ∈ unitRunes us, Scalar r := by
  fun_induction unitRunes us with
  | case1 => simp
  | case2 u hhigh => simpa using scalar_runeError
  | case3 u hhigh lo rest hlow ih =>
    refine List.forall_mem_cons.mpr ⟨.inr ?_, ih (fun u hu => hus u (by simp [hu]))⟩
    rw [Nat.shiftLeft_eq]
    omega
  | case4 u hhigh lo rest hlow ih =>
    exact List.forall_mem_cons.mpr ⟨scalar_runeError, ih (fun u hu => hus u (by simp [hu]))⟩
  | case5 u units hhigh hlow ih =>
    exact List.forall_mem_cons.mpr ⟨scalar_runeError, ih (fun u hu => hus u (by simp [hu]))⟩
  | case6 u units hhigh hlow ih =>
    refine List.forall_mem_cons.mpr ⟨?_, ih (fun u hu => hus u (by simp [hu]))⟩
    have := hus u (by simp)
    unfold Scalar
    omega

theorem utf16Encode_utf16Decode {us : List Nat} (hus : ∀ u ∈ us, u < 0x10000)
    : utf16Encode (utf16Decode us) = (unitRunes us).flatMap runeUnits := by
  unfold utf16Encode
  rw [utf16Decode_eq_flatMap, runes_flatMap_encodeRune (scalar_of_mem_unitRunes hus)]

def IsHigh (u : Nat) : Prop := 0xD800 ≤ u ∧ u ≤ 0xDBFF

def IsLow (u : Nat) : Prop := 0xDC00 ≤ u ∧ u ≤ 0xDFFF

instance (u : Nat) : Decidable (IsHigh u) := inferInstanceAs (Decidable (_ ∧ _))

instance (u : Nat) : Decidable (IsLow u) := inferInstanceAs (Decidable (_ ∧ _))

/--
The unit `u` between `prev` and `next` is a surrogate without its counterpart.
-/
def UnpairedBetween (prev : Option Nat) (u : Nat) (next : Option Nat) : Prop :=
  (IsHigh u ∧ ∀ lo ∈ next, ¬ IsLow lo) ∨ (IsLow u ∧ ∀ hi ∈ prev, ¬ IsHigh hi)

instance (prev : Option Nat) (u : Nat) (next : Option Nat) : Decidable (UnpairedBetween prev u next) :=
  inferInstanceAs (Decidable (_ ∨ _))

/--
The unit at position `i` is an unpaired surrogate: a high one that no low one follows, or a low one
that follows no high one.
-/
def UnpairedAt (us : List Nat) (i : Nat) : Prop :=
  ∃ u, us[i]? = some u ∧ UnpairedBetween (if i = 0 then none else us[i - 1]?) u us[i + 1]?

def pairedUnits (prev : Option Nat) (us : List Nat) : List Nat :=
  match us with
  | [] => []
  | u :: us =>
    (if UnpairedBetween prev u us.head? then runeError else u) :: pairedUnits (some u) us

theorem runeUnits_pair {hi lo : Nat} (hhi : IsHigh hi) (hlo : IsLow lo)
    : runeUnits ((hi - 0xD800) <<< 10 + (lo - 0xDC00) + 0x10000) = [hi, lo] := by
  unfold IsHigh at hhi
  unfold IsLow at hlo
  rw [Nat.shiftLeft_eq, runeUnits_of_ge (by omega) (by omega)]
  simp only [List.cons.injEq, and_true]
  omega

/--
The decoder never stands between the units of a pair, so it looks at every unit with the same
neighbours `UnpairedBetween` is about.
-/
theorem flatMap_unitRunes {us : List Nat} (hus : ∀ u ∈ us, u < 0x10000) (prev : Option Nat)
    (hstart : ∀ hi ∈ prev, IsHigh hi → ∀ lo ∈ us.head?, ¬ IsLow lo)
    : (unitRunes us).flatMap runeUnits = pairedUnits prev us := by
  have hreplace : ∀ rs, (runeError :: rs).flatMap runeUnits = runeError :: rs.flatMap runeUnits :=
    fun rs => rfl
  have hafter : ∀ {u : Nat} {units : List Nat}, ¬ IsHigh u →
      ∀ hi ∈ some u, IsHigh hi → ∀ lo ∈ units.head?, ¬ IsLow lo := by
    intro u units hu hi hhi h
    cases hhi
    exact absurd h hu
  fun_induction unitRunes us generalizing prev with
  | case1 => rfl
  | case2 u hhigh =>
    have hun : UnpairedBetween prev u none := .inl ⟨hhigh, by simp⟩
    simp [pairedUnits, hun, runeUnits, runeError]
  | case3 u hhigh lo rest hlow ih =>
    have hlo : ¬ IsHigh lo := fun h => absurd (Nat.lt_of_le_of_lt h.2 (by decide)) (Nat.not_lt.mpr hlow.1)
    have hfirst : ¬ UnpairedBetween prev u (some lo) := by
      rintro (⟨-, h⟩ | ⟨h, -⟩)
      . exact h lo rfl hlow
      . exact absurd (Nat.le_trans h.1 hhigh.2) (by decide)
    have hsecond : ¬ UnpairedBetween (some u) lo rest.head? := by
      rintro (⟨h, -⟩ | ⟨-, h⟩)
      . exact hlo h
      . exact h u rfl hhigh
    rw [List.flatMap_cons, runeUnits_pair hhigh hlow,
      ih (fun u hu => hus u (by simp [hu])) _ (hafter hlo), pairedUnits, pairedUnits,
      List.head?_cons, if_neg hfirst, if_neg hsecond]
    rfl
  | case4 u hhigh lo rest hlow ih =>
    have hnext : ∀ lo' ∈ (lo :: rest).head?, ¬ IsLow lo' := by
      intro lo' h
      cases h
      exact hlow
    have hun : UnpairedBetween prev u (lo :: rest).head? := .inl ⟨hhigh, hnext⟩
    rw [hreplace, pairedUnits, if_pos hun,
      ih (fun u hu => hus u (by simp [hu])) _ (fun _ _ _ => hnext)]
  | case5 u units hhigh hlow ih =>
    have hun : UnpairedBetween prev u units.head? :=
      .inr ⟨hlow, fun hi hprev h => hstart hi hprev h u rfl hlow⟩
    rw [hreplace, pairedUnits, if_pos hun, ih (fun u hu => hus u (by simp [hu])) _ (hafter hhigh)]
  | case6 u units hhigh hlow ih =>
    have hun : ¬ UnpairedBetween prev u units.head? := by
      rintro (⟨h, -⟩ | ⟨h, -⟩)
      . exact hhigh h
      . exact hlow h
    rw [List.flatMap_cons, runeUnits_of_lt (hus u (by simp)), pairedUnits, if_neg hun,
      ih (fun u hu => hus u (by simp [hu])) _ (hafter hhigh)]
    rfl

theorem length_pairedUnits (prev : Option Nat) (us : List Nat)
    : (pairedUnits prev us).length = us.length := by
  induction us generalizing prev with
  | nil => rfl
  | cons u us ih => rw [pairedUnits, List.length_cons, ih, List.length_cons]

theorem getElem?_pairedUnits (prev : Option Nat) (us : List Nat) (i : Nat)
    : (pairedUnits prev us)[i]? = us[i]?.map (fun u =>
        if UnpairedBetween (if i = 0 then prev else us[i - 1]?) u us[i + 1]? then runeError else u) := by
  induction us generalizing prev i with
  | nil => rfl
  | cons u us ih =>
    rw [pairedUnits]
    cases i with
    | zero =>
      cases us with
      | nil | cons => rfl
    | succ i =>
      rw [List.getElem?_cons_succ, ih]
      cases i with
      | zero | succ => rfl

theorem length_utf16Encode_utf16Decode {us : List Nat} (hus : ∀ u ∈ us, u < 0x10000)
    : (utf16Encode (utf16Decode us)).length = us.length := by
  rw [utf16Encode_utf16Decode hus, flatMap_unitRunes hus none (by simp), length_pairedUnits]

theorem getElem?_utf16Encode_utf16Decode {us : List Nat} (hus : ∀ u ∈ us, u < 0x10000) (i : Nat)
    : (utf16Encode (utf16Decode us))[i]? = us[i]?.map (fun u =>
        if UnpairedBetween (if i = 0 then none else us[i - 1]?) u us[i + 1]? then runeError else u) := by
  rw [utf16Encode_utf16Decode hus, flatMap_unitRunes hus none (by simp), getElem?_pairedUnits]

theorem runes_of_isASCII {s : GoString} (h : isASCII s) : runes s = s.map UInt8.toNat := by
  unfold runes
  induction s with
  | nil => rfl
  | cons b s ih =>
    simp only [isASCII, List.all_cons, Bool.and_eq_true, decide_eq_true_eq] at h
    simp only [runes.go, decodeRune_one s h.1]
    rw [ih (by simpa [isASCII] using h.2)]
    rfl

theorem utf16Encode_of_isASCII {s : GoString} (h : isASCII s) : utf16Encode s = s.map UInt8.toNat := by
  unfold utf16Encode
  rw [runes_of_isASCII h, List.flatMap_map]
  have : ∀ b : UInt8, runeUnits b.toNat = [b.toNat] := by
    intro b
    have := b.toNat_lt
    exact runeUnits_of_lt (by omega)
  simp only [this]
  exact List.flatMap_pure_eq_map _ _

theorem unit_lt_of_mem_utf16Encode {s : GoString} (h : ∀ r ∈ runes s, r ≤ 0x10FFFF) {u : Nat}
    (hu : u ∈ utf16Encode s)
    : u < 0x10000 := by
  unfold utf16Encode at hu
  obtain ⟨r, hr, hu⟩ := List.mem_flatMap.mp hu
  by_cases hlt : r < 0x10000
  . rw [runeUnits_of_lt hlt] at hu
    simp only [List.mem_singleton] at hu
    omega
  . have := h r hr
    rw [runeUnits_of_ge (by omega) this] at hu
    simp only [List.mem_cons, List.not_mem_nil, or_false] at hu
    omega

theorem length_unitBytes (u : Nat) : (unitBytes u).length = 2 := rfl

theorem bytesUnits_unitBytes_append {u : Nat} (h : u < 0x10000) (raw : List UInt8)
    : bytesUnits (unitBytes u ++ raw) = u :: bytesUnits raw := by
  have hhi : (UInt8.ofNat (u >>> 8)).toNat = u / 256 := by
    rw [UInt8.toNat_ofNat', Nat.shiftRight_eq_div_pow]
    omega
  have hlo : (UInt8.ofNat u).toNat = u % 256 := by
    rw [UInt8.toNat_ofNat']
  simp only [unitBytes, List.cons_append, List.nil_append, bytesUnits, hhi, hlo, List.cons.injEq,
    and_true]
  omega

theorem bytesUnits_flatMap_unitBytes {us : List Nat} (h : ∀ u ∈ us, u < 0x10000)
    : bytesUnits (us.flatMap unitBytes) = us := by
  induction us with
  | nil => rfl
  | cons u us ih =>
    rw [List.flatMap_cons, bytesUnits_unitBytes_append (h u (by simp))]
    rw [ih (fun u hu => h u (by simp [hu]))]

theorem length_flatMap_unitBytes (us : List Nat) : (us.flatMap unitBytes).length = 2 * us.length := by
  induction us with
  | nil => rfl
  | cons u us ih =>
    rw [List.flatMap_cons, List.length_append, ih, length_unitBytes, List.length_cons]
    omega

end H2Go
