import H2Go.Transfer.Write

/-!
This module contains the string codec of the transfer stream at the level of its buffers, and what a
string is read back as.
-/

namespace H2Go
namespace Tr

open Utf8 BigEndian

variable {σ : Type}

section Buffers

/--
`binary.BigEndian.PutUint32`, the last index is checked first.
-/
def putUint32 (b : List UInt8) (v : Nat) : Prog Err (Tr σ) (List UInt8) := do
  let _ ← Prog.index b 3
  let b ← Prog.setIndex b 0 (UInt8.ofNat (v >>> 24))
  let b ← Prog.setIndex b 1 (UInt8.ofNat (v >>> 16))
  let b ← Prog.setIndex b 2 (UInt8.ofNat (v >>> 8))
  Prog.setIndex b 3 (UInt8.ofNat v)

/--
The buffer of the ASCII path of `writeString`, filled at computed offsets.
-/
def asciiBuffer (s : GoString) : Prog Err (Tr σ) (List UInt8) := do
  let data ← putUint32 (List.replicate (4 + 2 * s.length) 0) s.length
  Prog.iter s.length 0 data (fun i data => do
    let data ← Prog.setIndex data (4 + 2 * i) 0
    let b ← Prog.index s i
    Prog.setIndex data (5 + 2 * i) b)

def appendRune (data : List UInt8) (r : Nat) : List UInt8 :=
  if r < 0x10000 then
    data ++ [UInt8.ofNat (r >>> 8), UInt8.ofNat r]
  else
    let r := r - 0x10000
    let hi := 0xD800 ||| (r >>> 10)
    let lo := 0xDC00 ||| (r &&& 0x3FF)
    data ++ [UInt8.ofNat (hi >>> 8), UInt8.ofNat hi, UInt8.ofNat (lo >>> 8), UInt8.ofNat lo]

/--
The buffer of the general path of `writeString`. The count is put in front when it is known.
-/
def generalBuffer (s : GoString) : Prog Err (Tr σ) (List UInt8) :=
  let data := (runes s).foldl appendRune (List.replicate 4 0)
  putUint32 data ((data.length - 4) / 2)

def writeStringBuffer (s : GoString) : Prog Err (Tr σ) Unit := do
  let data ← if isASCII s then asciiBuffer s else generalBuffer s
  write data

theorem putUint32_eq {h : List UInt8} (hlen : h.length = 4) (data : List UInt8) (v : Nat)
    : (putUint32 (h ++ data) v : Prog Err (Tr σ) _) = pure (beBytes 4 v ++ data) := by
  rcases h with _ | ⟨a, _ | ⟨b, _ | ⟨c, _ | ⟨d, _ | _⟩⟩⟩⟩ <;> simp at hlen
  unfold putUint32
  rw [Prog.index_eq (x := d) rfl, Prog.pure_bind, Prog.setIndex_eq _ (by simp), Prog.pure_bind,
    Prog.setIndex_eq _ (by simp), Prog.pure_bind, Prog.setIndex_eq _ (by simp), Prog.pure_bind,
    Prog.setIndex_eq _ (by simp)]
  simp [beBytes, Nat.shiftRight_eq_div_pow]

/--
The buffer of the ASCII path before pass `i`: the pairs of bytes written so far and zeros.
-/
def asciiProgress (s : GoString) (i : Nat) : List UInt8 :=
  beBytes 4 s.length ++ (s.take i).flatMap (fun b => [0, b]) ++ List.replicate (2 * (s.length - i)) 0

theorem length_asciiPairs (s : GoString) : (s.flatMap (fun b => [0, b])).length = 2 * s.length := by
  induction s with
  | nil => rfl
  | cons b s ih =>
    rw [List.flatMap_cons, List.length_append, ih, List.length_cons, List.length_cons, List.length_cons,
      List.length_nil]
    omega

theorem length_asciiProgress {s : GoString} {i : Nat} (hi : i ≤ s.length)
    : (asciiProgress s i).length = 4 + 2 * s.length := by
  unfold asciiProgress
  rw [List.length_append, List.length_append, length_beBytes, length_asciiPairs,
    List.length_take_of_le hi, List.length_replicate]
  omega

theorem asciiProgress_step {s : GoString} {i : Nat} (hi : i < s.length)
    : ((asciiProgress s i).set (4 + 2 * i) 0).set (5 + 2 * i) s[i] = asciiProgress s (i + 1) := by
  have hdone : (beBytes 4 s.length ++ (s.take i).flatMap (fun b => [0, b])).length = 4 + 2 * i := by
    rw [List.length_append, length_beBytes, length_asciiPairs, List.length_take_of_le (by omega)]
  unfold asciiProgress
  rw [show 2 * (s.length - i) = 2 * (s.length - (i + 1)) + 1 + 1 by omega, List.replicate_succ,
    List.replicate_succ]
  rw [List.set_append_right _ _ (by omega), hdone, Nat.sub_self, List.set_cons_zero,
    List.set_append_right _ _ (by omega), hdone, show 5 + 2 * i - (4 + 2 * i) = 1 by omega,
    List.set_cons_succ, List.set_cons_zero, List.take_succ_eq_append_getElem hi, List.flatMap_append]
  simp

theorem asciiBuffer_eq (s : GoString)
    : (asciiBuffer s : Prog Err (Tr σ) _)
        = pure (beBytes 4 s.length ++ s.flatMap (fun b => [0, b])) := by
  unfold asciiBuffer
  rw [List.replicate_add, putUint32_eq (by simp), Prog.pure_bind]
  have hloop := Prog.iter_eq_pure (ε := Err) (σ := Tr σ) (asciiProgress s) (n := s.length)
    (f := fun i data => do
      let data ← Prog.setIndex data (4 + 2 * i) 0
      let b ← Prog.index s i
      Prog.setIndex data (5 + 2 * i) b) (by
        intro i hi
        have hlen := length_asciiProgress (Nat.le_of_lt hi)
        rw [Prog.setIndex_eq _ (by omega), Prog.pure_bind,
          Prog.index_eq (List.getElem?_eq_getElem hi), Prog.pure_bind,
          Prog.setIndex_eq _ (by rw [List.length_set]; omega), asciiProgress_step hi])
  simpa [asciiProgress] using hloop

theorem foldl_appendRune (rs : List Nat) (data : List UInt8)
    : rs.foldl appendRune data = data ++ (rs.flatMap runeUnits).flatMap unitBytes := by
  induction rs generalizing data with
  | nil => simp
  | cons r rs ih =>
    have hstep : appendRune data r = data ++ (runeUnits r).flatMap unitBytes := by
      unfold appendRune runeUnits
      split
      . rfl
      . rfl
    rw [List.foldl_cons, ih, hstep, List.flatMap_cons, List.flatMap_append, List.append_assoc]

theorem generalBuffer_eq (s : GoString)
    : (generalBuffer s : Prog Err (Tr σ) _) = pure (unitsFrame (utf16Encode s)) := by
  unfold generalBuffer
  dsimp only
  rw [foldl_appendRune, putUint32_eq (by simp)]
  unfold unitsFrame utf16Encode
  rw [List.length_append, length_flatMap_unitBytes, List.length_replicate, Nat.add_sub_cancel_left,
    Nat.mul_div_cancel_left _ (by omega)]

theorem writeStringBuffer_eq (s : GoString)
    : (writeStringBuffer s : Prog Err (Tr σ) _) = writeString s := by
  unfold writeStringBuffer
  split
  . next h =>
    rw [asciiBuffer_eq, Prog.pure_bind, writeString, if_pos h]
  . rw [generalBuffer_eq, Prog.pure_bind, writeString_eq]

end Buffers

theorem string_paths
    : (∀ s : GoString, (utf16Encode s).length < 2 ^ 31 →
        (writeStringBuffer s : Prog Err (Tr σ) _)
          = write (intBytes 4 (utf16Encode s).length ++ (utf16Encode s).flatMap unitBytes)) ∧
      (∀ us : List Nat, (∀ u ∈ us, u < 0x10000) → 0 < us.length → us.length ≤ 2 ^ 28 →
        Frame (readString : Prog Err (Tr σ) _) (some (utf16Decode us))
          (intBytes 4 us.length ++ us.flatMap unitBytes)) := by
  constructor
  . intro s _
    rw [writeStringBuffer_eq, writeString_eq, intBytes_natCast]
    rfl
  . intro us hus _ hlen
    rw [intBytes_natCast]
    exact frame_readString_units hus hlen

theorem string_paths_small
    : (writeStringBuffer [0x61, 0xFF] : Prog Err (Tr Silent) _) = write [0, 0, 0, 2, 0, 0x61, 0xFF, 0xFD] ∧
      Frame (readString : Prog Err (Tr Silent) _) (some [0xEF, 0xBF, 0xBD, 0x61])
        [0, 0, 0, 2, 0xD8, 0, 0, 0x61] :=
  ⟨string_paths.1 [0x61, 0xFF] (by decide),
    string_paths.2 [0xD800, 0x61] (by decide) (by decide) (by decide)⟩

section RoundTrip

theorem frame_readString_repaired {s s' : GoString} (hs : Repaired s s')
    (hlen : (utf16Encode s).length ≤ 2 ^ 28)
    : Frame (readString : Prog Err (Tr σ) _) (some s') (unitsFrame (utf16Encode s)) := by
  have hus : ∀ u ∈ utf16Encode s, u < 0x10000 := by
    intro u hu
    apply unit_lt_of_mem_utf16Encode _ hu
    intro r hr
    have := scalar_of_mem_runes r hr
    unfold Scalar at this
    omega
  have hdec : utf16Decode (utf16Encode s) = s' := by
    unfold utf16Encode
    rw [utf16Decode_flatMap_runeUnits scalar_of_mem_runes, hs.eq]
  have := frame_readString_units (σ := σ) hus hlen
  rwa [hdec] at this

theorem repaired_self {s : GoString} (h : Valid s) : Repaired s s :=
  repaired_iff.mpr (flatMap_encodeRune_runes h).symm

theorem not_unpairedAt_iff {us : List Nat} (hus : ∀ u ∈ us, u < 0x10000)
    : utf16Encode (utf16Decode us) = us ↔ ∀ i, ¬ UnpairedAt us i := by
  constructor
  . rintro heq i ⟨u, hu, hun⟩
    have hat := getElem?_utf16Encode_utf16Decode hus i
    rw [heq, hu, Option.map_some, if_pos hun] at hat
    injection hat with hat
    subst hat
    rcases hun with ⟨h, -⟩ | ⟨h, -⟩
    . exact absurd h (by decide)
    . exact absurd h (by decide)
  . intro h
    apply List.ext_getElem?
    intro i
    rw [getElem?_utf16Encode_utf16Decode hus i]
    cases hi : us[i]? with
    | none => rfl
    | some u => rw [Option.map_some, if_neg (fun hun => h i ⟨u, hi, hun⟩)]

/--
What a string and what a sequence of code units becomes on the way through the codec.
-/
theorem string_codec
    : (∀ s : GoString, (utf16Encode s).length ≤ 2 ^ 28 → ∃ bs,
        Writes (writeString s : Prog Err (Tr σ) _) () bs ∧
        (Valid s → Frame (readString : Prog Err (Tr σ) _) (some s) bs) ∧
        (∃ s', Repaired s s') ∧
        ∀ s', Repaired s s' → Frame (readString : Prog Err (Tr σ) _) (some s') bs) ∧
      (∀ us : List Nat, (∀ u ∈ us, u < 0x10000) →
        (utf16Encode (utf16Decode us) = us ↔ ∀ i, ¬ UnpairedAt us i) ∧
        (utf16Encode (utf16Decode us)).length = us.length ∧
        ∀ i, (UnpairedAt us i → (utf16Encode (utf16Decode us))[i]? = some runeError) ∧
          (¬ UnpairedAt us i → (utf16Encode (utf16Decode us))[i]? = us[i]?)) := by
  constructor
  . intro s hlen
    exact ⟨_, writes_writeString s, fun h => frame_readString_repaired (repaired_self h) hlen,
      exists_repaired s, fun s' h => frame_readString_repaired h hlen⟩
  . intro us hus
    have hat := getElem?_utf16Encode_utf16Decode hus
    refine ⟨not_unpairedAt_iff hus, length_utf16Encode_utf16Decode hus, fun i => ⟨?_, ?_⟩⟩
    . rintro ⟨u, hu, hun⟩
      rw [hat, hu, Option.map_some, if_pos hun]
    . intro h
      rw [hat]
      cases hi : us[i]? with
      | none => rfl
      | some u => rw [Option.map_some, if_neg (fun hun => h ⟨u, hi, hun⟩)]

theorem string_codec_small
    : (∃ bs, Writes (writeString [0xC3, 0xA9] : Prog Err (Tr Silent) _) () bs ∧
        Frame (readString : Prog Err (Tr Silent) _) (some [0xC3, 0xA9]) bs) ∧
      utf16Encode (utf16Decode [0xD800, 0x61]) ≠ [0xD800, 0x61] := by
  constructor
  . obtain ⟨bs, hwrites, hframe, -⟩ := string_codec.1 [0xC3, 0xA9] (by decide)
    exact ⟨bs, hwrites, hframe ⟨[0xE9], by decide, rfl⟩⟩
  . intro heq
    exact (string_codec (σ := Silent)).2 [0xD800, 0x61] (by decide) |>.1.mp heq 0
      ⟨0xD800, rfl, by decide⟩

end RoundTrip

end Tr
end H2Go
