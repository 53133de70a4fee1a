import H2Go.DSN.Impl
import H2Go.NetURL.Lemmas
import H2Go.Text.Lemmas
import H2Go.Utf16

/-!
This module contains the lemmas about the segments of a JDBC DSN, the map of settings and the checks
of the parser.
-/

namespace H2Go

open Digits Strings Utf8 ExceptLemmas

section Segments

namespace splitSettingSegments

theorem go_escaped (segs : List GoString) (b : GoString) (d : UInt8) (s : GoString)
    : go segs b (backslashByte :: d :: s) = go segs (b ++ [d]) s := by
  rw [go, if_pos rfl]

theorem go_separator (segs : List GoString) (b s : GoString)
    : go segs b (semicolonByte :: s) = go (segs ++ [b]) [] s := by
  cases s with
  | nil => simp [go]
  | cons d s => rw [go, if_neg (by decide), if_pos rfl]

theorem go_plain (segs : List GoString) (b : GoString) {c : UInt8} (hb : c ≠ backslashByte)
    (hs : c ≠ semicolonByte) (s : GoString)
    : go segs b (c :: s) = go segs (b ++ [c]) s := by
  cases s with
  | nil => simp [go, hs]
  | cons d s => rw [go, if_neg hb, if_neg hs]

theorem go_append {a : GoString} (ha : ∀ c ∈ a, c ≠ backslashByte ∧ c ≠ semicolonByte)
    (segs : List GoString) (b s : GoString)
    : go segs b (a ++ s) = go segs (b ++ a) s := by
  induction a generalizing b with
  | nil => rw [List.nil_append, List.append_nil]
  | cons c a ih =>
    rw [List.cons_append, go_plain _ _ (ha c (by simp)).1 (ha c (by simp)).2,
      ih (fun c hc => ha c (by simp [hc])), List.append_assoc, List.singleton_append]

end splitSettingSegments

theorem splitSettingSegments_eq (s : GoString)
    : splitSettingSegments s = splitSettingSegments.go [] [] s := by
  unfold splitSettingSegments
  split
  . next h => rw [h, splitSettingSegments.go, List.nil_append]
  . rfl

/--
The number of iterations of the loop over `s`, an escaped byte takes one.
-/
def segmentSteps (s : GoString) : Nat :=
  match s with
  | [] => 0
  | [_] => 1
  | c :: d :: s => if c = backslashByte then segmentSteps s + 1 else segmentSteps (d :: s) + 1

theorem segmentSteps_escaped (d : UInt8) (s : GoString)
    : segmentSteps (backslashByte :: d :: s) = segmentSteps s + 1 := by
  rw [segmentSteps, if_pos rfl]

theorem segmentSteps_plain {c : UInt8} (h : c ≠ backslashByte) (s : GoString)
    : segmentSteps (c :: s) = segmentSteps s + 1 := by
  cases s with
  | nil => rfl
  | cons d s => rw [segmentSteps, if_neg h]

theorem segmentSteps_cons (c : UInt8) (s : GoString)
    : segmentSteps (c :: s) ≤ segmentSteps s + 1 ∧ segmentSteps s ≤ segmentSteps (c :: s) := by
  induction hn : s.length using Nat.strongRecOn generalizing c s with
  | _ n ih =>
    by_cases hc : c = backslashByte
    . subst hc
      match s with
      | [] => decide
      | d :: s =>
        -- the escape swallows `d`, which counts for at most one iteration itself
        have := ih s.length (by rw [← hn]; simp) d s rfl
        rw [segmentSteps_escaped]
        omega
    . rw [segmentSteps_plain hc]
      omega

def segmentsLength (segs : List GoString) : Nat := (segs.map (fun s => s.length + 1)).sum

@[simp]
theorem segmentsLength_nil : segmentsLength [] = 0 := rfl

@[simp]
theorem segmentsLength_cons (s : GoString) (segs : List GoString)
    : segmentsLength (s :: segs) = s.length + 1 + segmentsLength segs := by
  simp [segmentsLength]

@[simp]
theorem segmentsLength_append (segs segs' : List GoString)
    : segmentsLength (segs ++ segs') = segmentsLength segs + segmentsLength segs' := by
  simp [segmentsLength]

theorem segmentsLength_go (segs : List GoString) (b s : GoString)
    : segmentsLength (splitSettingSegments.go segs b s)
      = segmentsLength segs + b.length + 1 + segmentSteps s := by
  fun_induction splitSettingSegments.go segs b s with
  | case1 segs b =>
    simp only [segmentSteps, segmentsLength_append, segmentsLength_cons, segmentsLength_nil]
    omega
  | case2 segs b ih =>
    rw [ih, segmentSteps_plain (by decide), segmentsLength_append, segmentsLength_cons]
    simp only [segmentsLength_nil, List.length_nil]
    omega
  | case3 segs b c h ih =>
    rw [ih, segmentSteps, segmentSteps, List.length_append, List.length_singleton]
    omega
  | case4 segs b d s ih =>
    rw [ih, segmentSteps_escaped, List.length_append, List.length_singleton]
    omega
  | case5 segs b d s h ih =>
    rw [ih, segmentSteps_plain h, segmentsLength_append, segmentsLength_cons]
    simp only [segmentsLength_nil, List.length_nil]
    omega
  | case6 segs b c d s h h' ih =>
    rw [ih, segmentSteps_plain h, List.length_append, List.length_singleton]
    omega

theorem head_go (segs : List GoString) (b s : GoString)
    : ∃ tail, splitSettingSegments.go segs b s = segs ++ tail ∧ b.length ≤ (tail.headD []).length := by
  fun_induction splitSettingSegments.go segs b s with
  | case1 segs b => exact ⟨[b], rfl, Nat.le_refl _⟩
  | case2 segs b ih | case5 segs b d s h ih =>
    obtain ⟨tail, htail, -⟩ := ih
    exact ⟨b :: tail, by rw [htail, List.append_assoc, List.singleton_append], Nat.le_refl _⟩
  | case3 segs b c h ih | case4 segs b c s ih | case6 segs b c d s h h' ih =>
    obtain ⟨tail, htail, hlen⟩ := ih
    refine ⟨tail, htail, ?_⟩
    rw [List.length_append] at hlen
    omega

/--
The segments after the first one are at most as long as what is left of `s` after `a`.
-/
theorem segmentsLength_tail {a : GoString}
    (ha : ∀ c ∈ a, c ≠ backslashByte ∧ c ≠ semicolonByte) (s : GoString)
    : segmentsLength (splitSettingSegments (a ++ s)).tail ≤ segmentSteps s := by
  rw [splitSettingSegments_eq, splitSettingSegments.go_append ha, List.nil_append]
  have hlen := segmentsLength_go [] a s
  obtain ⟨tail, htail, hhead⟩ := head_go [] a s
  rw [htail, List.nil_append] at hlen ⊢
  cases tail with
  | nil => simp
  | cons seg tail =>
    simp only [List.headD_cons, segmentsLength_cons, segmentsLength_nil, List.tail_cons] at *
    omega

inductive WellEscaped : GoString → Prop where
  | nil : WellEscaped []
  | escaped {c : UInt8} {s : GoString} (hc : c = backslashByte ∨ c = semicolonByte)
      (hs : WellEscaped s) : WellEscaped (backslashByte :: c :: s)
  | plain {c : UInt8} {s : GoString} (hc : c ≠ backslashByte) (hs : WellEscaped s)
      : WellEscaped (c :: s)

namespace WellEscaped

theorem append {a b : GoString} (ha : WellEscaped a) (hb : WellEscaped b) : WellEscaped (a ++ b) := by
  induction ha with
  | nil => exact hb
  | escaped hc _ ih => exact .escaped hc ih
  | plain hc _ ih => exact .plain hc ih

theorem of_plain {a : GoString} (h : ∀ c ∈ a, c ≠ backslashByte) : WellEscaped a := by
  induction a with
  | nil => exact .nil
  | cons c a ih => exact .plain (h c (by simp)) (ih (fun c hc => h c (by simp [hc])))

theorem segmentSteps_append {a : GoString} (ha : WellEscaped a) (b : GoString)
    : segmentSteps (a ++ b) = segmentSteps a + segmentSteps b := by
  induction ha with
  | nil => simp [segmentSteps]
  | escaped _ _ ih =>
    simp only [List.cons_append, segmentSteps_escaped, ih]
    omega
  | plain hc _ ih =>
    simp only [List.cons_append, segmentSteps_plain hc, ih]
    omega

/--
Cutting the text off at a byte that is never escaped leaves it well escaped, and takes an iteration
away if there is such a byte.
-/
theorem cut {s : GoString} (hs : WellEscaped s) {c : UInt8}
    (hc : c ≠ backslashByte ∧ c ≠ semicolonByte)
    : WellEscaped (cut c s).1 ∧ segmentSteps (Strings.cut c s).1 ≤ segmentSteps s ∧
      (c ∈ s → segmentSteps (Strings.cut c s).1 < segmentSteps s) := by
  induction hs with
  | nil => exact ⟨.nil, by simp [Strings.cut], by simp⟩
  | @escaped d s hd hs ih =>
    have hne : d ≠ c := by
      rcases hd with rfl | rfl
      . exact hc.1.symm
      . exact hc.2.symm
    simp only [Strings.cut, hc.1.symm, hne, if_false, segmentSteps_escaped, List.mem_cons, hc.1,
      hne.symm, false_or]
    exact ⟨.escaped hd ih.1, by omega, fun hmem => by have := ih.2.2 hmem; omega⟩
  | @plain d s hd hs ih =>
    by_cases hdc : d = c
    . subst hdc
      simp only [Strings.cut_cons, segmentSteps_plain hd]
      exact ⟨.nil, by simp [segmentSteps], by simp [segmentSteps]⟩
    . simp only [Strings.cut, hdc, if_false, segmentSteps_plain hd, List.mem_cons, Ne.symm hdc,
        false_or]
      exact ⟨.plain hd ih.1, by omega, fun hmem => by have := ih.2.2 hmem; omega⟩

theorem tail {c : UInt8} {s : GoString} (h : WellEscaped (c :: s)) (hc : c ≠ backslashByte)
    : WellEscaped s := by
  cases h with
  | escaped => exact absurd rfl hc
  | plain _ hs => exact hs

/--
Percent-decoding does not add iterations and takes some away if there is anything to decode.
-/
theorem unescape {s : GoString} (hs : WellEscaped s) {p : GoString}
    (h : NetURL.unescape .path s = .ok p)
    : segmentSteps p ≤ segmentSteps s ∧ (percentByte ∈ s → segmentSteps p < segmentSteps s) := by
  induction hn : s.length using Nat.strongRecOn generalizing s p with
  | _ n ih =>
    subst hn
    cases hs with
    | nil =>
      cases h
      simp
    | @escaped c s hc hs =>
      -- an escaped byte is not a percent sign
      have hne : c ≠ percentByte := by
        rcases hc with rfl | rfl <;> decide
      obtain ⟨p', hp', rfl⟩ := NetURL.unescape_path_of_ne (by decide) h
      obtain ⟨q, hq, rfl⟩ := NetURL.unescape_path_of_ne hne hp'
      have hrec := ih s.length (by simp only [List.length_cons]; omega) hs hq rfl
      simp only [segmentSteps_escaped, List.mem_cons, hne.symm, false_or]
      refine ⟨by omega, fun hmem => ?_⟩
      have := hrec.2 (hmem.resolve_left (by decide))
      omega
    | @plain c s hc hs =>
      by_cases hpercent : c = percentByte
      . subst hpercent
        obtain ⟨d, e, s, q, rfl, hd, he, hq, rfl⟩ := NetURL.unescape_path_of_percent h
        have hrec := ih s.length (by simp only [List.length_cons]; omega) ((hs.tail hd).tail he) hq
          rfl
        have hcons := segmentSteps_cons (NetURL.unhex d e) q
        rw [segmentSteps_plain hc, segmentSteps_plain hd, segmentSteps_plain he]
        exact ⟨by omega, fun _ => by omega⟩
      . obtain ⟨q, hq, rfl⟩ := NetURL.unescape_path_of_ne hpercent h
        have hrec := ih s.length (by simp) hs hq rfl
        simp only [segmentSteps_plain hc, List.mem_cons, Ne.symm hpercent, false_or]
        refine ⟨by omega, fun hmem => ?_⟩
        have := hrec.2 hmem
        omega

end WellEscaped

end Segments

section Fold

variable [UnicodeTables]

def upperByte (b : UInt8) : UInt8 :=
  if 97 ≤ b.toNat ∧ b.toNat ≤ 122 then UInt8.ofNat (b.toNat - 32) else b

theorem encodeRune_upperRune {b : UInt8} (h : b.toNat < 0x80)
    : encodeRune (upperRune b.toNat) = [upperByte b] := by
  unfold upperRune upperByte
  rw [if_pos h]
  split
  . rw [encodeRune, if_pos (by omega)]
  . rw [encodeRune, if_pos h, UInt8.ofNat_toNat]

theorem toUpper_of_ascii {s : GoString} (h : isASCII s) : toUpper s = s.map upperByte := by
  unfold toUpper
  rw [runes_of_isASCII h, List.flatMap_map]
  induction s with
  | nil => rfl
  | cons b s ih =>
    simp only [isASCII, List.all_cons, Bool.and_eq_true, decide_eq_true_eq] at h
    rw [List.flatMap_cons, encodeRune_upperRune h.1, ih (by simpa [isASCII] using h.2), List.map_cons,
      List.singleton_append]

theorem foldRune_of_ascii {b : UInt8} (h : b.toNat < 0x80) : foldRune b.toNat = (lower b).toNat := by
  unfold foldRune lower
  rw [if_pos h]
  split
  . rw [UInt8.toNat_add]
    have : (32 : UInt8).toNat = 32 := rfl
    omega
  . rfl

theorem map_foldRune_of_ascii {s : GoString} (h : isASCII s)
    : (runes s).map foldRune = (s.map lower).map UInt8.toNat := by
  rw [runes_of_isASCII h, List.map_map, List.map_map]
  apply List.map_congr_left
  intro b hb
  have hlt : b.toNat < 0x80 := by
    rw [isASCII, List.all_eq_true] at h
    simpa using h b hb
  exact foldRune_of_ascii hlt

theorem equalFold_of_ascii {s t : GoString} (hs : isASCII s) (ht : isASCII t)
    : equalFold s t = true ↔ s.map lower = t.map lower := by
  unfold equalFold
  rw [map_foldRune_of_ascii hs, map_foldRune_of_ascii ht, decide_eq_true_iff]
  constructor
  . intro h
    exact List.map_injective_iff.mpr (fun _ _ hab => UInt8.toNat_inj.mp hab) h
  . intro h
    rw [h]

end Fold

section Settings

variable [UnicodeTables]

def knownSettings : List GoString := [ascii "USER", ascii "PASSWORD"] ++ forwardSettings

omit [UnicodeTables] in
theorem isASCII_known {key : GoString} (h : key ∈ knownSettings) : isASCII key := by
  revert key
  decide

theorem toUpper_known {key : GoString} (h : key ∈ knownSettings) : toUpper key = key := by
  rw [toUpper_of_ascii (isASCII_known h)]
  revert key
  decide

theorem equalFold_known {key key' : GoString} (h : key ∈ knownSettings) (h' : key' ∈ knownSettings)
    : equalFold key key' = true ↔ key = key' := by
  have hcases : ∀ key ∈ knownSettings, ∀ key' ∈ knownSettings,
      (key.map lower = key'.map lower ↔ key = key') := by
    decide
  rw [equalFold_of_ascii (isASCII_known h) (isASCII_known h')]
  exact hcases key h key' h'

def paramsLength (params : Params) : Nat := (params.map (fun kv => kv.1.length + kv.2.length + 2)).sum

omit [UnicodeTables] in
theorem paramsLength_append (params params' : Params)
    : paramsLength (params ++ params') = paramsLength params + paramsLength params' := by
  simp [paramsLength]

theorem setParam_eq_ok {params params' : Params} {key value : GoString}
    (h : setParam params key value = .ok params')
    : params' = params ∨ params' = params ++ [(key, value)] := by
  unfold setParam at h
  split at h
  . split at h
    . cases h
    . cases h
      exact .inl rfl
  . cases h
    exact .inr rfl

theorem setParam_of_fresh {params : Params} {key : GoString} (value : GoString)
    (h : ∀ kv ∈ params, equalFold kv.1 key = false)
    : setParam params key value = .ok (params ++ [(key, value)]) := by
  unfold setParam
  rw [List.find?_eq_none.mpr (fun kv hkv => by simp [h kv hkv])]

@[simp]
theorem ParsedDSN.params_setCredential (cfg : ParsedDSN) (key val : GoString)
    : (cfg.setCredential key val).params = cfg.params := by
  unfold ParsedDSN.setCredential
  split
  . rfl
  . split <;> rfl

theorem paramsLength_parseJDBC_go {cfg cfg' : ParsedDSN} {parts : List GoString}
    (h : parseJDBC.go cfg parts = .ok cfg')
    : paramsLength cfg'.params ≤ paramsLength cfg.params + segmentsLength parts := by
  induction parts generalizing cfg with
  | nil =>
    cases h
    simp
  | cons p parts ih =>
    unfold parseJDBC.go at h
    rw [segmentsLength_cons]
    split at h
    . have := ih h
      omega
    . split at h
      . cases h
      . next key val hcut =>
        rw [bind_eq_ok] at h
        obtain ⟨params, hset, h⟩ := h
        have hrec := ih h
        have hlen : p.length = key.length + val.length + 1 := by
          rw [eq_of_cut hcut]
          simp
          omega
        rw [ParsedDSN.params_setCredential] at hrec
        dsimp only at hrec
        rcases setParam_eq_ok hset with rfl | rfl
        . omega
        . rw [paramsLength_append] at hrec
          simp only [paramsLength, List.map_cons, List.map_nil, List.sum_cons, List.sum_nil] at hrec ⊢
          omega

end Settings

section Address

/--
The bytes that stand for themselves everywhere in a URL.
-/
def wordByte (b : UInt8) : Bool := NetURL.isAlnum b || b = 95 || b = dotByte || b = minusByte

theorem not_shouldEscapeHost_of_wordByte {b : UInt8} (h : wordByte b)
    : NetURL.shouldEscapeHost b = false := by
  have hcases : ∀ b, (b = 95 || b = dotByte || b = minusByte) = true →
      (ascii "!$&'()*+,;=:[]<>\"-_.~").contains b = true := by
    intro b hb
    simp only [Bool.or_eq_true, decide_eq_true_eq] at hb
    rcases hb with (rfl | rfl) | rfl <;> decide
  simp only [wordByte, Bool.or_assoc] at h
  rw [Bool.or_eq_true] at h
  unfold NetURL.shouldEscapeHost
  rcases h with h | h
  . rw [h]
    rfl
  . rw [hcases b (by rw [Bool.or_assoc]; exact h), Bool.or_true]
    rfl

theorem wordByte_ne {b c : UInt8} (h : wordByte b) (hc : wordByte c = false) : b ≠ c := by
  rintro rfl
  rw [h] at hc
  cases hc

theorem segment_of_word {db : GoString} (hdb : ∀ b ∈ db, wordByte b)
    : ∀ b ∈ slashByte :: db, b ≠ backslashByte ∧ b ≠ semicolonByte := by
  intro b hb
  rcases List.mem_cons.mp hb with rfl | hb
  . decide
  . exact ⟨wordByte_ne (hdb b hb) (by decide), wordByte_ne (hdb b hb) (by decide)⟩

theorem scheme_tcp : NetURL.Scheme (ascii "tcp") :=
  ⟨by decide +kernel, 116, [99, 112], by decide, by decide⟩

theorem scheme_h2 : NetURL.Scheme (ascii "h2") := ⟨by decide +kernel, 104, [50], by decide, by decide⟩

theorem literal_of_wordByte {b : UInt8} (h : wordByte b) (mode : NetURL.Encoding)
    : NetURL.literal mode b := by
  have h1 : b ≠ percentByte := wordByte_ne h (by decide)
  have h2 : b ≠ plusByte := wordByte_ne h (by decide)
  simp [NetURL.literal, h1, h2, not_shouldEscapeHost_of_wordByte h]

variable {host port : GoString} (hhost : ∀ b ∈ host, wordByte b) (hport : ∀ b ∈ port, wordByte b)

include hhost hport

theorem address_bytes {b : UInt8} (h : b ∈ host ++ colonByte :: port) : wordByte b ∨ b = colonByte := by
  rw [List.mem_append, List.mem_cons] at h
  rcases h with h | h | h
  . exact .inl (hhost b h)
  . exact .inr h
  . exact .inl (hport b h)

theorem literal_address {b : UInt8} (h : b ∈ host ++ colonByte :: port) : NetURL.literal .host b := by
  rcases address_bytes hhost hport h with h | rfl
  . exact literal_of_wordByte h _
  . decide

omit hport in
theorem not_isPrefixOf_address : (ascii "[").isPrefixOf (host ++ colonByte :: port) = false := by
  cases host with
  | nil => rfl
  | cons b host =>
    have : leftBracketByte ≠ b := (wordByte_ne (hhost b (by simp)) (by decide)).symm
    simp only [ascii, List.cons_append]
    simpa [List.isPrefixOf, leftBracketByte] using this

theorem parseAuthority_address {r : Option NetURL.Userinfo × GoString}
    : NetURL.parseAuthority (host ++ colonByte :: port) = .ok r ↔
      port.all isDecimal ∧ r = (none, host ++ colonByte :: port) := by
  have hat : atByte ∉ host ++ colonByte :: port := by
    intro h
    rcases address_bytes hhost hport h with h | h
    . exact absurd h (by decide)
    . exact absurd h (by decide)
  have hcolon : colonByte ∉ port := fun h => absurd (hport _ h) (by decide)
  unfold NetURL.parseAuthority NetURL.parseHost
  rw [cutLast_of_not_mem hat, not_isPrefixOf_address hhost, cutLast_append_cons _ hcolon]
  simp only [Bool.false_eq_true, if_false]
  rw [NetURL.unescape_of_literal (fun b hb => literal_address hhost hport hb)]
  have hvalid : NetURL.validOptionalPort (colonByte :: port) = port.all isDecimal := by
    simp [NetURL.validOptionalPort]
  rw [hvalid]
  split
  . next h => simp [bind, Except.bind, h]
  . next h =>
    simp only [Decidable.not_not] at h
    simp [bind, Except.bind, h, eq_comm]

theorem splitHostPort_address (hdigits : port.all isDecimal)
    : NetURL.splitHostPort (host ++ colonByte :: port) = (host, port) := by
  have hcolon : colonByte ∉ port := fun h => absurd (hport _ h) (by decide)
  unfold NetURL.splitHostPort
  rw [cutLast_append_cons _ hcolon]
  simp only [hdigits, if_true]
  rw [if_neg]
  rintro ⟨h, -⟩
  cases host with
  | nil => simp at h
  | cons b host =>
    cases h
    exact absurd (hhost leftBracketByte (by simp)) (by decide)

omit hhost hport in
theorem wordByte_lt {b : UInt8} (h : wordByte b) : 0x20 ≤ b.toNat ∧ b.toNat < 0x7F := by
  simp only [wordByte, NetURL.isAlnum, NetURL.isLetter, isDecimal, Bool.or_eq_true, Bool.and_eq_true,
    decide_eq_true_eq] at h
  rcases h with ((((h | h) | h) | rfl) | rfl) | rfl
  . omega
  . omega
  . omega
  all_goals decide

omit hhost hport in
theorem wordByte_range {b : UInt8} (h : wordByte b) : 0x20 ≤ b.toNat ∧ b.toNat ≠ 0x7F := by
  have := wordByte_lt h
  omega

/--
A URL with a host and a port is accepted if the port is a number and the escapes of the path and of
the fragment are well formed.
-/
theorem parse_address {scheme path : GoString} (hscheme : NetURL.Scheme scheme)
    (hctl : NetURL.Printable path) (hpath : NetURL.Rooted path) {u : NetURL.URL}
    : NetURL.parse (scheme ++ ascii "://" ++ (host ++ colonByte :: port) ++ path) = .ok u ↔
      port.all isDecimal ∧ ∃ p f,
        NetURL.unescape .path (cut questionByte (cut hashByte path).1).1 = .ok p ∧
        NetURL.unescape .fragment ((cut hashByte path).2.getD []) = .ok f ∧
        u = { user := none, host := host ++ colonByte :: port, path := p,
              rawQuery := (cut questionByte (cut hashByte path).1).2.getD [] } := by
  have hauth : ∀ {c : UInt8}, wordByte c = false → c ≠ colonByte → c ∉ host ++ colonByte :: port := by
    intro c hword hne hc
    rcases address_bytes hhost hport hc with h | h
    . rw [hword] at h
      cases h
    . exact hne h
  have hctl' : NetURL.Printable (host ++ colonByte :: port ++ (cut hashByte path).1) := by
    refine NetURL.printable_append.mpr ⟨fun b hb => ?_, fun b hb => hctl b (mem_of_mem_cut hb)⟩
    rcases address_bytes hhost hport hb with h | rfl
    . exact wordByte_range h
    . decide
  obtain ⟨htake, hdrop⟩ := NetURL.split_authority
    (fun b hb h => hauth (c := slashByte) (by decide) (by decide) (h ▸ hb))
    ((hpath.cut (show hashByte ≠ slashByte by decide)).cut (show questionByte ≠ slashByte by decide))
  rw [List.append_assoc, NetURL.parse_eq_ok hscheme, cut_append (hauth (by decide) (by decide)),
    cut_append (hauth (by decide) (by decide)), NetURL.printable_append,
    and_iff_right ⟨hscheme.printable, hctl'⟩, htake, hdrop]
  simp only [parseAuthority_address hhost hport]
  constructor
  . rintro ⟨user, h, p, f, ⟨hdigits, hr⟩, hp, hf, rfl⟩
    cases hr
    exact ⟨hdigits, p, f, hp, hf, rfl⟩
  . rintro ⟨hdigits, p, f, hp, hf, rfl⟩
    exact ⟨none, host ++ colonByte :: port, p, f, ⟨hdigits, rfl⟩, hp, hf, rfl⟩

end Address

end H2Go
