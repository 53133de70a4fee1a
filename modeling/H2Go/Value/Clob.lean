import H2Go.Value.Lemmas

/-!
This module contains the comparison of the two decoders for UTF-16 text, that of inline CLOBs and
that of strings.
-/

namespace H2Go

open BigEndian Utf8

def clobUnit (u : Nat) : List UInt8 :=
  if u < 0x80 then
    [UInt8.ofNat u]
  else if u < 0x800 then
    [UInt8.ofNat (0xC0 + u / 0x40), UInt8.ofNat (0x80 + u % 0x40)]
  else
    [UInt8.ofNat (0xE0 + u / 0x1000), UInt8.ofNat (0x80 + u / 0x40 % 0x40),
      UInt8.ofNat (0x80 + u % 0x40)]

def inlineClobFrame (us : List Nat) : List UInt8 :=
  intBytes 8 us.length ++ (us.flatMap clobUnit ++ intBytes 4 lobMagic)

def hasSurrogatePair (us : List Nat) : Bool :=
  match us with
  | u :: lo :: us =>
    (0xD800 ≤ u && u ≤ 0xDBFF && 0xDC00 ≤ lo && lo ≤ 0xDFFF) || hasSurrogatePair (lo :: us)
  | _ => false

theorem encodeRune_of_surrogate {u : Nat} (h : 0xD800 ≤ u) (h' : u ≤ 0xDFFF)
    : encodeRune u = encodeRune runeError := by
  have hscalar : ¬ Scalar u := by
    unfold Scalar
    omega
  simp only [encodeRune, hscalar, not_false_eq_true, if_true]
  rw [if_neg (by omega), if_neg (by omega)]
  rfl

theorem length_encodeRune_of_surrogate {u : Nat} (h : 0xD800 ≤ u) (h' : u ≤ 0xDFFF)
    : (encodeRune u).length = 3 := by
  rw [encodeRune_of_surrogate h h']
  rfl

theorem length_encodeRune_le (r : Nat) : (encodeRune r).length ≤ 4 := by
  unfold encodeRune
  split
  . simp
  . split
    . simp
    . split
      . simp
      . split <;> simp

theorem hasSurrogatePair_cons {u : Nat} (us : List Nat) (h : ¬ (0xD800 ≤ u ∧ u ≤ 0xDBFF))
    : hasSurrogatePair (u :: us) = hasSurrogatePair us := by
  cases us with
  | nil => rfl
  | cons lo us =>
    have hu : (decide (0xD800 ≤ u) && decide (u ≤ 0xDBFF)) = false := by
      rw [← Bool.decide_and, decide_eq_false_iff_not]
      exact h
    rw [hasSurrogatePair, hu]
    simp

/--
What the two decoders make of the same code units. `flatMap encodeRune` writes every unit as a rune
of its own.
-/
def DecodedAlike (us : List Nat) : Prop :=
  if hasSurrogatePair us then (utf16Decode us).length < (us.flatMap encodeRune).length
  else utf16Decode us = us.flatMap encodeRune

theorem DecodedAlike.length_le {us : List Nat} (h : DecodedAlike us)
    : (utf16Decode us).length ≤ (us.flatMap encodeRune).length := by
  unfold DecodedAlike at h
  split at h
  . exact Nat.le_of_lt h
  . rw [h]

theorem DecodedAlike.cons {u : Nat} {us : List Nat} (h : DecodedAlike us)
    (hpair : hasSurrogatePair (u :: us) = hasSurrogatePair us)
    (hdecode : utf16Decode (u :: us) = encodeRune u ++ utf16Decode us)
    : DecodedAlike (u :: us) := by
  unfold DecodedAlike at h ⊢
  rw [hpair, hdecode, List.flatMap_cons]
  split at h
  . next hp =>
    rw [if_pos hp]
    simp only [List.length_append]
    omega
  . next hp =>
    rw [if_neg hp, h]

/--
Without a pair both decoders write the same, with one the strings have different lengths.
-/
theorem decodedAlike (us : List Nat) : DecodedAlike us := by
  induction us using utf16Decode.induct with
  | case1 => rfl
  | case2 u h =>
    have hdecode : utf16Decode [u] = encodeRune u ++ utf16Decode [] := by
      rw [encodeRune_of_surrogate h.1 (by omega)]
      simp [utf16Decode, h]
    have hempty : DecodedAlike [] := rfl
    exact DecodedAlike.cons hempty rfl hdecode
  | case3 u h lo rest hlo ih =>
    have hpair : hasSurrogatePair (u :: lo :: rest) = true := by
      simp [hasSurrogatePair, h, hlo]
    unfold DecodedAlike
    rw [if_pos hpair, utf16Decode, if_pos h, if_pos hlo]
    have hle := ih.length_le
    have := length_encodeRune_le ((u - 0xD800) <<< 10 + (lo - 0xDC00) + 0x10000)
    have := length_encodeRune_of_surrogate h.1 (by omega)
    have := length_encodeRune_of_surrogate (u := lo) (by omega) hlo.2
    simp only [List.flatMap_cons, List.length_append]
    omega
  | case4 u h lo rest hlo ih =>
    refine DecodedAlike.cons ih ?_ ?_
    . have hlo' : (decide (0xDC00 ≤ lo) && decide (lo ≤ 0xDFFF)) = false := by
        rw [← Bool.decide_and, decide_eq_false_iff_not]
        exact hlo
      rw [hasSurrogatePair, Bool.and_assoc _ (decide (0xDC00 ≤ lo)), hlo']
      simp
    . rw [encodeRune_of_surrogate h.1 (by omega)]
      simp [utf16Decode, h, hlo]
  | case5 u us h hlo ih =>
    refine DecodedAlike.cons ih (hasSurrogatePair_cons us h) ?_
    rw [encodeRune_of_surrogate (by omega) hlo.2]
    cases us with
    | nil | cons => simp only [utf16Decode, h, hlo, and_self, if_true, if_false]
  | case6 u us h hlo ih =>
    refine DecodedAlike.cons ih (hasSurrogatePair_cons us h) ?_
    cases us with
    | nil | cons => simp only [utf16Decode, h, hlo, if_false]

theorem utf16Decode_eq_flatMap_iff (us : List Nat)
    : utf16Decode us = us.flatMap encodeRune ↔ hasSurrogatePair us = false := by
  have h := decodedAlike us
  unfold DecodedAlike at h
  split at h
  . next hpair =>
    rw [hpair]
    refine ⟨fun heq => ?_, fun hne => by cases hne⟩
    rw [heq] at h
    exact absurd h (Nat.lt_irrefl _)
  . next hpair => exact ⟨fun _ => by simpa using hpair, fun _ => h⟩

theorem hasSurrogatePair_of_append (pre : List Nat) {us : List Nat} (h : hasSurrogatePair us = true)
    : hasSurrogatePair (pre ++ us) = true := by
  induction pre with
  | nil => exact h
  | cons u pre ih =>
    rw [List.cons_append]
    cases hus : pre ++ us with
    | nil =>
      rw [hus] at ih
      cases ih
    | cons lo rest =>
      rw [hus] at ih
      rw [hasSurrogatePair, ih, Bool.or_true]

theorem hasSurrogatePair_runeUnits_append {r : Nat} (h : 0x10000 ≤ r) (h' : r ≤ 0x10FFFF)
    (us : List Nat)
    : hasSurrogatePair (runeUnits r ++ us) = true := by
  rw [runeUnits_of_ge h h']
  simp only [List.cons_append, List.nil_append, hasSurrogatePair, Bool.or_eq_true, Bool.and_eq_true,
    decide_eq_true_eq]
  exact .inl (by omega)

theorem hasSurrogatePair_of_scalars {rs : List Nat} (h : ∀ r ∈ rs, Scalar r)
    : hasSurrogatePair rs = false := by
  induction rs with
  | nil => rfl
  | cons r rs ih =>
    have hr : Scalar r := h r List.mem_cons_self
    unfold Scalar at hr
    rw [hasSurrogatePair_cons rs (by omega)]
    exact ih (fun r hr => h r (List.mem_cons_of_mem _ hr))

/--
The code units of a string have a pair exactly when the string has a character outside the BMP.
-/
theorem hasSurrogatePair_utf16Encode {s : GoString} (hs : Valid s)
    : hasSurrogatePair (utf16Encode s) = false ↔ ∀ r ∈ runes s, r < 0x10000 := by
  obtain ⟨rs, hrs, rfl⟩ := hs
  unfold utf16Encode
  rw [runes_flatMap_encodeRune hrs]
  constructor
  . intro hpair r hr
    by_cases hlt : r < 0x10000
    . exact hlt
    . have hscalar := hrs r hr
      unfold Scalar at hscalar
      obtain ⟨pre, post, rfl⟩ := List.append_of_mem hr
      rw [List.flatMap_append, List.flatMap_cons, hasSurrogatePair_of_append _
        (hasSurrogatePair_runeUnits_append (by omega) (by omega) _)] at hpair
      cases hpair
  . intro hbmp
    have hunits : rs.flatMap runeUnits = rs := by
      clear hrs
      induction rs with
      | nil => rfl
      | cons r rs ih =>
        rw [List.flatMap_cons, runeUnits_of_lt (hbmp r List.mem_cons_self),
          ih (fun r hr => hbmp r (List.mem_cons_of_mem _ hr))]
        rfl
    rw [hunits]
    exact hasSurrogatePair_of_scalars hrs

theorem toNat_and_mask (b : UInt8) {k : Nat} (hk : k ≤ 8)
    : (b &&& UInt8.ofNat (2 ^ k - 1)).toNat = b.toNat % 2 ^ k := by
  have hpow : 2 ^ k ≤ 2 ^ 8 := Nat.pow_le_pow_right (by decide) hk
  have hpos : 0 < 2 ^ k := Nat.two_pow_pos k
  rw [UInt8.toNat_and, UInt8.toNat_ofNat', Nat.mod_eq_of_lt (by omega),
    Nat.and_two_pow_sub_one_eq_mod]

namespace Tr

variable {σ : Type}

theorem frame_readClobChar {u : Nat} (hu : u < 0x10000)
    : Frame (readClobChar : Prog Err (Tr σ) _) u (clobUnit u) := by
  have hlow : ∀ n, n < 256 → (UInt8.ofNat n).toNat = n := by
    intro n hn
    rw [UInt8.toNat_ofNat', Nat.mod_eq_of_lt hn]
  unfold readClobChar clobUnit
  split
  . next h =>
    apply (frame_readByte _).bind_nil
    rw [hlow u (by omega), if_pos h]
    exact Frame.pure
  . split
    . next h1 h2 =>
      apply Frame.bind (frame_readByte (UInt8.ofNat (0xC0 + u / 0x40)))
      rw [hlow _ (by omega), if_neg (by omega), if_neg (by omega)]
      apply (frame_readByte (UInt8.ofNat (0x80 + u % 0x40))).bind_nil
      have hunit : ((UInt8.ofNat (0xC0 + u / 0x40) &&& 0x1f).toNat <<< 6)
          ||| (UInt8.ofNat (0x80 + u % 0x40) &&& 0x3f).toNat = u := by
        rw [show (0x1f : UInt8) = UInt8.ofNat (2 ^ 5 - 1) from rfl,
          show (0x3f : UInt8) = UInt8.ofNat (2 ^ 6 - 1) from rfl, toNat_and_mask _ (by decide),
          toNat_and_mask _ (by decide), hlow _ (by omega), hlow _ (by omega),
          ← Nat.shiftLeft_add_eq_or_of_lt (by omega), Nat.shiftLeft_eq]
        omega
      rw [hunit]
      exact Frame.pure
    . next h1 h2 =>
      apply Frame.bind (frame_readByte (UInt8.ofNat (0xE0 + u / 0x1000)))
      rw [hlow _ (by omega), if_neg (by omega), if_pos (by omega)]
      apply Frame.bind (frame_readByte (UInt8.ofNat (0x80 + u / 0x40 % 0x40)))
      apply (frame_readByte (UInt8.ofNat (0x80 + u % 0x40))).bind_nil
      have hunit : ((UInt8.ofNat (0xE0 + u / 0x1000) &&& 0x0f).toNat <<< 12)
          ||| ((UInt8.ofNat (0x80 + u / 0x40 % 0x40) &&& 0x3f).toNat <<< 6)
          ||| (UInt8.ofNat (0x80 + u % 0x40) &&& 0x3f).toNat = u := by
        rw [show (0x0f : UInt8) = UInt8.ofNat (2 ^ 4 - 1) from rfl,
          show (0x3f : UInt8) = UInt8.ofNat (2 ^ 6 - 1) from rfl, toNat_and_mask _ (by decide),
          toNat_and_mask _ (by decide), toNat_and_mask _ (by decide), hlow _ (by omega),
          hlow _ (by omega), hlow _ (by omega), Nat.or_assoc,
          ← Nat.shiftLeft_add_eq_or_of_lt (b := (0x80 + u % 0x40) % 2 ^ 6) (by omega),
          ← Nat.shiftLeft_add_eq_or_of_lt (by rw [Nat.shiftLeft_eq]; omega), Nat.shiftLeft_eq,
          Nat.shiftLeft_eq]
        omega
      rw [hunit]
      exact Frame.pure

theorem frame_clobChars {us : List Nat} (hus : ∀ u ∈ us, u < 0x10000) (length : Int) (i : Nat)
    (sb : GoString)
    : Frame (Prog.iter us.length i sb (fun i sb => do
          let c ← wrapErr "h2go: readInlineClob: failed to read char %d of %d: %w"
            [.int i, .int length] readClobChar
          pure (sb ++ encodeRune c)) : Prog Err (Tr σ) _)
        (sb ++ us.flatMap encodeRune) (us.flatMap clobUnit) := by
  rw [List.flatMap_def, ← List.foldl_append_eq_append]
  apply Frame.iter (g := fun sb u => sb ++ encodeRune u)
  intro u hu i acc
  exact (frame_readClobChar (hus u hu)).mapErr.bind_nil Frame.pure

theorem frame_readInlineClob {us : List Nat} (hus : ∀ u ∈ us, u < 0x10000)
    (hlen : us.length ≤ 2 ^ 28)
    : Frame (readInlineClob us.length : Prog Err (Tr σ) _) (.string (us.flatMap encodeRune))
        (us.flatMap clobUnit ++ intBytes 4 lobMagic) := by
  unfold readInlineClob
  rw [if_neg (by unfold maxInlineClobChars maxWireLength; omega), Int.toNat_natCast]
  have hchars := frame_clobChars (σ := σ) hus us.length 0 []
  rw [List.nil_append] at hchars
  apply hchars.bind
  apply (frame_readInt32 (by decide) (by decide)).mapErr.bind_nil
  rw [if_neg (by simp)]
  exact Frame.pure

variable [Peer σ]

theorem frame_inlineClob {us : List Nat} (hus : ∀ u ∈ us, u < 0x10000) (hlen : us.length ≤ 2 ^ 28)
    (lc : Option LobCollector)
    : Frame (readLOBValue .clob lc : Prog Err (Tr σ) _) (.string (us.flatMap encodeRune), lc)
        (inlineClobFrame us) := by
  unfold readLOBValue inlineClobFrame
  apply (frame_readInt64 (by omega) (by omega)).mapErr.bind
  rw [if_neg (by omega), if_neg (by omega), if_neg (by decide), if_pos rfl]
  exact (frame_readInlineClob hus hlen).bind_nil Frame.pure

def ahead (b : List UInt8) (t : Tr σ) : Tr σ := { t with inp := b }

theorem readLOBValue_clob_run {us : List Nat} (hus : ∀ u ∈ us, u < 0x10000)
    (hlen : us.length ≤ 2 ^ 28) (lc : Option LobCollector) (t : Tr σ) (rest : List UInt8)
    : readLOBValue .clob lc (t.ahead (inlineClobFrame us ++ rest))
        = .ok (.string (us.flatMap encodeRune), lc)
          (Input.move (inlineClobFrame us) rest (t.ahead (inlineClobFrame us ++ rest))) :=
  (frame_inlineClob hus hlen lc).exact _ rest rfl

omit [Peer σ] in
theorem readString_units_run {us : List Nat} (hus : ∀ u ∈ us, u < 0x10000)
    (hlen : us.length ≤ 2 ^ 28) (t : Tr σ) (rest : List UInt8)
    : readString (t.ahead (unitsFrame us ++ rest))
        = .ok (some (utf16Decode us))
          (Input.move (unitsFrame us) rest (t.ahead (unitsFrame us ++ rest))) :=
  (frame_readString_units hus hlen).exact _ rest rfl

/--
The inline CLOB of the code units decodes to the same string as their `VARCHAR` exactly when no two
of the units are a surrogate pair: the decoder of CLOBs does not pair surrogates. So a CLOB decodes to
the string it was made of exactly when the string stays in the BMP.
-/
theorem inlineClob_eq_string_iff (t : Tr σ) (rest : List UInt8) (lc : Option LobCollector)
    (us : List Nat) (hus : ∀ u ∈ us, u < 0x10000) (hlen : us.length ≤ 2 ^ 28)
    : ((∃ s, readLOBValue .clob lc (t.ahead (inlineClobFrame us ++ rest))
            = .ok (.string s, lc)
              (Input.move (inlineClobFrame us) rest (t.ahead (inlineClobFrame us ++ rest))) ∧
          readString (t.ahead (unitsFrame us ++ rest))
            = .ok (some s) (Input.move (unitsFrame us) rest (t.ahead (unitsFrame us ++ rest)))) ↔
        hasSurrogatePair us = false) ∧
      ∀ s, Valid s → utf16Encode s = us →
        (readLOBValue .clob lc (t.ahead (inlineClobFrame us ++ rest))
            = .ok (.string s, lc)
              (Input.move (inlineClobFrame us) rest (t.ahead (inlineClobFrame us ++ rest))) ↔
          ∀ r ∈ runes s, r < 0x10000) := by
  rw [readLOBValue_clob_run hus hlen, readString_units_run hus hlen]
  refine ⟨?_, ?_⟩
  . rw [← utf16Decode_eq_flatMap_iff]
    constructor
    . rintro ⟨s, hclob, hstring⟩
      simp only [Out.ok.injEq, Prod.mk.injEq, Value.string.injEq, Option.some.injEq, and_true]
        at hclob hstring
      rw [hclob, hstring]
    . intro h
      exact ⟨us.flatMap encodeRune, rfl, by rw [h]⟩
  . rintro s hs rfl
    rw [← hasSurrogatePair_utf16Encode hs, ← utf16Decode_eq_flatMap_iff, utf16Decode_utf16Encode hs]
    simp only [Out.ok.injEq, Prod.mk.injEq, Value.string.injEq, and_true]
    exact eq_comm

theorem inlineClob_eq_string_iff_letter
    : (∃ s, readLOBValue .clob none ((ofBytes [] : Tr Silent).ahead (inlineClobFrame [0x41] ++ [7]))
        = .ok (.string s, none) (Input.move (inlineClobFrame [0x41]) [7]
            ((ofBytes []).ahead (inlineClobFrame [0x41] ++ [7]))) ∧
      readString ((ofBytes [] : Tr Silent).ahead (unitsFrame [0x41] ++ [7]))
        = .ok (some s) (Input.move (unitsFrame [0x41]) [7]
            ((ofBytes []).ahead (unitsFrame [0x41] ++ [7])))) :=
  (inlineClob_eq_string_iff (ofBytes []) [7] none [0x41] (by decide) (by decide)).1.mpr rfl

/-- U+1F600 as a CLOB and as a `VARCHAR`. -/
theorem inlineClob_surrogatePair
    : (∃ t', readLOBValue .clob none
          ((ofBytes [] : Tr Silent).ahead (inlineClobFrame [0xD83D, 0xDE00]))
        = .ok (.string [0xEF, 0xBF, 0xBD, 0xEF, 0xBF, 0xBD], none) t') ∧
      (∃ t', readString ((ofBytes [] : Tr Silent).ahead (unitsFrame [0xD83D, 0xDE00]))
        = .ok (some [0xF0, 0x9F, 0x98, 0x80]) t') ∧
      utf16Encode [0xF0, 0x9F, 0x98, 0x80] = [0xD83D, 0xDE00] := by
  have hus : ∀ u ∈ [0xD83D, 0xDE00], u < 0x10000 := by decide
  refine ⟨?_, ?_, by decide⟩
  . have h := readLOBValue_clob_run hus (by decide) none (ofBytes []) []
    rw [List.append_nil] at h
    exact ⟨_, h⟩
  . have h := readString_units_run hus (by decide) (ofBytes []) []
    rw [List.append_nil] at h
    exact ⟨_, h⟩

end Tr

end H2Go
