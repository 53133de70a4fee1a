import H2Go.Text.Lemmas

/-!
This module contains UUID texts: which of them `parseUUIDString` accepts, and what becomes of a text
with more hyphens than the four canonical ones.
-/

namespace H2Go

open Digits

variable {σ : Type}

def parseCompactUUID (uuid : GoString) : Prog Err σ (Int × Int) := do
  let highText ← Prog.slice uuid 0 16
  let high ← wrapErr "invalid UUID high bits: %w" [] (liftExcept (parseUint highText))
  let lowText ← Prog.slice uuid 16 uuid.length
  let low ← wrapErr "invalid UUID low bits: %w" [] (liftExcept (parseUint lowText))
  pure (wrapInt64 high, wrapInt64 low)

theorem parseUUIDString_eq (s : GoString)
    : (parseUUIDString s : Prog Err σ _) = compactUUID (trimSpace s) >>= parseCompactUUID := rfl

/--
A text of hyphens at the four canonical positions and others among its digits. Without the hyphens it
is too short to be cut in two, or the lower part is a shorter hexadecimal number.
-/
def ExtraHyphens (u : GoString) : Prop :=
  let ds := u.filter (fun b => b ≠ minusByte)
  u.length = 36 ∧ (∀ i ∈ [8, 13, 18, 23], u[i]? = some minusByte) ∧
    (ds.length < 16 ∨ 16 < ds.length ∧ ds.length < 32 ∧ ∀ b ∈ ds, isHex b)

instance (u : GoString) : Decidable (ExtraHyphens u) := inferInstanceAs (Decidable (_ ∧ _))

theorem parseUint_eq {ds : GoString} (hlen : ds.length ≤ 16)
    : parseUint ds = if ds ≠ [] ∧ ds.all isHex then .ok (textValue 16 ds)
        else .error (.errorf "strconv.ParseUint: parsing %q: invalid syntax" [.str ds]) := by
  unfold parseUint
  by_cases h : ds ≠ [] ∧ ds.all isHex
  . have hlt := textValue_lt (List.all_eq_true.mp h.2)
    have hle : 16 ^ ds.length ≤ 16 ^ 16 := Nat.pow_le_pow_right (by decide) hlen
    have hvalid : ¬ (ds = [] ∨ ¬ ds.all (fun b => (digitValue b).isSome)) :=
      not_or.mpr ⟨h.1, not_not_intro h.2⟩
    rw [if_pos h, if_neg hvalid, if_neg (by omega)]
  . rw [if_neg h, if_pos]
    by_contra hnot
    simp only [not_or, not_not] at hnot
    exact h hnot

/--
A compact text that can be cut in two is accepted when both parts are hexadecimal numbers.
-/
theorem parseCompactUUID_run {ds : GoString} (hlow : 16 ≤ ds.length) (hhigh : ds.length ≤ 32) (t : σ)
    : if 16 < ds.length ∧ ds.all isHex then
        parseCompactUUID ds t = .ok (wrapInt64 (textValue 16 (ds.take 16)),
          wrapInt64 (textValue 16 (ds.drop 16))) t
      else
        ∃ e, parseCompactUUID ds t = .fail e t := by
  have hne : ds.take 16 ≠ [] := List.ne_nil_of_length_pos (by rw [List.length_take]; omega)
  have hhex : ds.all isHex ↔ (ds.take 16).all isHex ∧ (ds.drop 16).all isHex := by
    conv => lhs; rw [← List.take_append_drop 16 ds]
    rw [List.all_append, Bool.and_eq_true]
  have hdrop : ds.drop 16 ≠ [] ↔ 16 < ds.length := by
    rw [ne_eq, List.drop_eq_nil_iff]
    omega
  unfold parseCompactUUID
  rw [Prog.slice_eq (by omega), Prog.pure_bind, List.drop_zero,
    parseUint_eq (by rw [List.length_take]; omega), Prog.slice_eq (by omega), List.take_length]
  simp only [Prog.pure_bind]
  rw [parseUint_eq (by rw [List.length_drop]; omega)]
  by_cases hhigh : (ds.take 16).all isHex
  . rw [if_pos (show ds.take 16 ≠ [] ∧ _ from ⟨hne, hhigh⟩)]
    by_cases hlow : ds.drop 16 ≠ [] ∧ (ds.drop 16).all isHex
    . rw [if_pos hlow, if_pos ⟨hdrop.mp hlow.1, hhex.mpr ⟨hhigh, hlow.2⟩⟩]
      rfl
    . rw [if_neg hlow, if_neg (fun h => hlow ⟨hdrop.mpr h.1, (hhex.mp h.2).2⟩)]
      exact ⟨_, rfl⟩
  . rw [if_neg (show ¬ (ds.take 16 ≠ [] ∧ _) from fun h => hhigh h.2),
      if_neg (fun h => hhigh (hhex.mp h.2).1)]
    exact ⟨_, rfl⟩

theorem parseCompactUUID_panics {ds : GoString} (h : ds.length < 16) (t : σ)
    : parseCompactUUID ds t = .panic .slice := by
  unfold parseCompactUUID Prog.slice
  rw [if_neg (by omega)]
  rfl

theorem exists_cut {u : GoString} {i : Nat} {x : UInt8} (h : u[i]? = some x)
    : ∃ a rest, u = a ++ x :: rest ∧ a.length = i := by
  obtain ⟨hi, rfl⟩ := List.getElem?_eq_some_iff.mp h
  refine ⟨u.take i, u.drop (i + 1), ?_, ?_⟩
  . rw [List.cons_getElem_drop_succ, List.take_append_drop]
  . rw [List.length_take]
    omega

theorem exists_groups {u : GoString} (hlen : u.length = 36)
    (hpos : ∀ i ∈ [8, 13, 18, 23], u[i]? = some minusByte)
    : ∃ a b c d e : GoString,
        u = a ++ minusByte :: (b ++ minusByte :: (c ++ minusByte :: (d ++ minusByte :: e))) ∧
        a.length = 8 ∧ b.length = 4 ∧ c.length = 4 ∧ d.length = 4 ∧ e.length = 12 := by
  have hnext : ∀ {a rest : GoString} {x : UInt8} {i : Nat}, a.length < i →
      (a ++ x :: rest)[i]? = some minusByte → rest[i - (a.length + 1)]? = some minusByte := by
    intro a rest x i hi h
    rw [List.getElem?_append_right (by omega), show i - a.length = (i - (a.length + 1)) + 1 by omega,
      List.getElem?_cons_succ] at h
    exact h
  have h8 := hpos 8 (by simp)
  have h13 := hpos 13 (by simp)
  have h18 := hpos 18 (by simp)
  have h23 := hpos 23 (by simp)
  obtain ⟨a, u1, rfl, ha⟩ := exists_cut h8
  obtain ⟨b, u2, rfl, hb⟩ := exists_cut (hnext (by omega) h13)
  have h18 := hnext (by omega) (hnext (by omega) h18)
  obtain ⟨c, u3, rfl, hc⟩ := exists_cut h18
  have h23 := hnext (by omega) (hnext (by omega) (hnext (by omega) h23))
  obtain ⟨d, e, rfl, hd⟩ := exists_cut h23
  simp only [List.length_append, List.length_cons] at hlen
  exact ⟨a, b, c, d, e, rfl, ha, by omega, by omega, by omega, by omega⟩

/--
What is left of a text with hyphens at the canonical positions has at most 32 characters, and when it
has 32 the text is their hyphenated form.
-/
theorem filter_of_hyphens {u : GoString} (hlen : u.length = 36)
    (hpos : ∀ i ∈ [8, 13, 18, 23], u[i]? = some minusByte)
    : (u.filter (fun b => b ≠ minusByte)).length ≤ 32 ∧
        ((u.filter (fun b => b ≠ minusByte)).length = 32 →
          u = hyphenate (u.filter (fun b => b ≠ minusByte))) := by
  obtain ⟨a, b, c, d, e, rfl, ha, hb, hc, hd, he⟩ := exists_groups hlen hpos
  have hskip : ∀ l : GoString, (minusByte :: l).filter (fun b => b ≠ minusByte)
      = l.filter (fun b => b ≠ minusByte) := fun l => by simp
  have hle : ∀ l : GoString, (l.filter (fun b => b ≠ minusByte)).length ≤ l.length :=
    fun l => List.length_filter_le _ _
  have hself : ∀ l : GoString, l.length ≤ (l.filter (fun b => b ≠ minusByte)).length →
      l.filter (fun b => b ≠ minusByte) = l := by
    intro l h
    exact List.filter_eq_self.mpr (List.length_filter_eq_length_iff.mp (Nat.le_antisymm (hle l) h))
  simp only [List.filter_append, hskip, List.length_append]
  have := hle a
  have := hle b
  have := hle c
  have := hle d
  have := hle e
  refine ⟨by omega, fun hds => ?_⟩
  rw [hself a (by omega), hself b (by omega), hself c (by omega), hself d (by omega),
    hself e (by omega), hyphenate_groups e ha hb hc hd]
  simp

def uuidNumber (high low : Int) : Nat := (high % 2 ^ 64).toNat * 2 ^ 64 + (low % 2 ^ 64).toNat

/--
`parseUUIDString` returns, it accepts exactly the canonical forms, and what it returns is the number
of the digits, whose text is the lower-case hyphenated form.
-/
def UUIDExact (s : GoString) : Prop :=
  match uuidDigits (trimSpace s) with
  | some ds => ∃ high low, (∀ (σ : Type) (t : σ), parseUUIDString s t = .ok (high, low) t) ∧
      uuidNumber high low = textValue 16 ds ∧ formatUUID high low = hyphenate (ds.map lower)
  | none => ∀ (σ : Type) (t : σ), ∃ e, parseUUIDString s t = .fail e t

theorem uuidDigits_eq_some_iff {u ds : GoString}
    : uuidDigits u = some ds ↔
        ds.length = 32 ∧ (∀ b ∈ ds, isHex b) ∧ (u = ds ∨ u = hyphenate ds) := by
  unfold uuidDigits
  dsimp only
  constructor
  . intro h
    split at h
    . next hds =>
      injection h with h
      rw [h, List.all_eq_true] at hds
      exact hds
    . cases h
  . rintro ⟨hlen, hhex, hu⟩
    have hfilter : u.filter (fun b => b ≠ minusByte) = ds := by
      rcases hu with rfl | rfl
      . exact List.filter_eq_self.mpr (fun b hb => by simpa using isHex_ne_minus (hhex b hb))
      . exact filter_hyphenate hhex
    rw [hfilter, if_pos ⟨hlen, List.all_eq_true.mpr hhex, hu⟩]

theorem uuidNumber_wrapInt64 {h l : Nat} (hh : h < 16 ^ 16) (hl : l < 16 ^ 16)
    : uuidNumber (wrapInt64 h) (wrapInt64 l) = h * 16 ^ 16 + l := by
  unfold uuidNumber wrapInt64
  omega

theorem parseCompactUUID_digits {ds : GoString} (hlen : ds.length = 32) (hhex : ∀ b ∈ ds, isHex b)
    : ∃ high low, (∀ (σ : Type) (t : σ), parseCompactUUID ds t = .ok (high, low) t) ∧
        uuidNumber high low = textValue 16 ds ∧ formatUUID high low = hyphenate (ds.map lower) := by
  obtain ⟨high, low, hparse, -, -, -, -, hformat⟩ := parseUUIDString_canonical hlen hhex (.inl rfl)
  have hrun : ∀ (σ : Type) (t : σ), parseCompactUUID ds t = .ok (high, low) t := by
    intro σ t
    have := congrFun (hparse σ) t
    rw [parseUUIDString_eq, trimSpace_hyphenate_or_self hhex (.inl rfl),
      compactUUID_canonical hlen hhex (.inl rfl), Prog.pure_bind] at this
    exact this
  refine ⟨high, low, hrun, ?_, hformat⟩
  have hhalves := parseCompactUUID_run (show 16 ≤ ds.length by omega) (by omega) ()
  rw [if_pos ⟨by omega, List.all_eq_true.mpr hhex⟩, hrun] at hhalves
  injection hhalves with hhalves
  injection hhalves with hhigh hlow
  have hlt : textValue 16 (ds.take 16) < _ :=
    textValue_lt (fun b hb => hhex b (List.mem_of_mem_take hb))
  have hlt' : textValue 16 (ds.drop 16) < _ :=
    textValue_lt (fun b hb => hhex b (List.mem_of_mem_drop hb))
  have hlenHigh : (ds.take 16).length = 16 := by simp [hlen]
  have hlenLow : (ds.drop 16).length = 16 := by simp [hlen]
  rw [hlenHigh] at hlt
  rw [hlenLow] at hlt'
  conv => rhs; rw [← List.take_append_drop 16 ds, textValue_append, hlenLow]
  rw [hhigh, hlow, uuidNumber_wrapInt64 hlt hlt']

theorem uuidExact_of_digits {s ds : GoString} (hds : uuidDigits (trimSpace s) = some ds)
    (hcompact : ∀ σ : Type, (compactUUID (trimSpace s) : Prog Err σ _) = pure ds)
    : UUIDExact s := by
  obtain ⟨hlen, hhex, -⟩ := uuidDigits_eq_some_iff.mp hds
  obtain ⟨high, low, hparse, hvalue⟩ := parseCompactUUID_digits hlen hhex
  unfold UUIDExact
  rw [hds]
  refine ⟨high, low, fun σ t => ?_, hvalue⟩
  rw [parseUUIDString_eq, hcompact, Prog.pure_bind, hparse]

theorem uuidExact_iff_fails {s : GoString} (hds : uuidDigits (trimSpace s) = none)
    : UUIDExact s ↔ ∀ (σ : Type) (t : σ), ∃ e, parseUUIDString s t = .fail e t := by
  unfold UUIDExact
  rw [hds]

theorem uuidExact_of_compact {s ds : GoString}
    (hcompact : ∀ σ : Type, (compactUUID (trimSpace s) : Prog Err σ _) = pure ds)
    (hdigits : ds.length = 32 → trimSpace s = ds ∨ trimSpace s = hyphenate ds)
    (hunique : ∀ es, uuidDigits (trimSpace s) = some es → es = ds) (hle : ds.length ≤ 32)
    : UUIDExact s ↔ ¬ (ds.length < 16 ∨ 16 < ds.length ∧ ds.length < 32 ∧ ∀ b ∈ ds, isHex b) := by
  have hrun : ∀ (σ : Type) (t : σ), parseUUIDString s t = parseCompactUUID ds t := by
    intro σ t
    rw [parseUUIDString_eq, hcompact, Prog.pure_bind]
  by_cases hcanonical : ds.length = 32 ∧ ∀ b ∈ ds, isHex b
  . have hds := uuidDigits_eq_some_iff.mpr ⟨hcanonical.1, hcanonical.2, hdigits hcanonical.1⟩
    exact iff_of_true (uuidExact_of_digits hds hcompact) (by omega)
  . have hnone : uuidDigits (trimSpace s) = none := by
      rw [Option.eq_none_iff_forall_ne_some]
      intro es hes
      obtain ⟨hlen, hhex, -⟩ := uuidDigits_eq_some_iff.mp hes
      rw [hunique es hes] at hlen hhex
      exact hcanonical ⟨hlen, hhex⟩
    rw [uuidExact_iff_fails hnone]
    by_cases hshort : ds.length < 16
    . refine iff_of_false (fun h => ?_) (fun h => h (.inl hshort))
      obtain ⟨e, he⟩ := h Unit ()
      rw [hrun, parseCompactUUID_panics hshort] at he
      cases he
    . have hcases := fun (σ : Type) (t : σ) => parseCompactUUID_run (by omega) hle t
      by_cases hhex : 16 < ds.length ∧ ds.all isHex
      . have hall := List.all_eq_true.mp hhex.2
        have hlt : ds.length < 32 := lt_of_le_of_ne hle (fun h => hcanonical ⟨h, hall⟩)
        refine iff_of_false (fun h => ?_) (fun h => h (.inr ⟨hhex.1, hlt, hall⟩))
        obtain ⟨e, he⟩ := h Unit ()
        have hok := hcases Unit ()
        rw [if_pos hhex] at hok
        rw [hrun, hok] at he
        cases he
      . refine iff_of_true (fun σ t => ?_) ?_
        . have hfail := hcases σ t
          rw [if_neg hhex] at hfail
          rw [hrun]
          exact hfail
        . rintro (h | ⟨h, -, hall⟩)
          . exact hshort h
          . exact hhex ⟨h, List.all_eq_true.mpr hall⟩

theorem uuidExact_of_refused {s : GoString} (hnone : uuidDigits (trimSpace s) = none)
    (hthrow : ∃ e, ∀ σ : Type, (compactUUID (trimSpace s) : Prog Err σ _) = Prog.throw e)
    : UUIDExact s := by
  obtain ⟨e, hthrow⟩ := hthrow
  rw [uuidExact_iff_fails hnone]
  intro σ t
  refine ⟨e, ?_⟩
  rw [parseUUIDString_eq, hthrow]
  rfl

theorem length_hyphenate {ds : GoString} (hlen : ds.length = 32) : (hyphenate ds).length = 36 := by
  simp [hyphenate, hlen]

theorem hyphenate_getElem? {ds : GoString} (hlen : ds.length = 32)
    : ∀ i ∈ [8, 13, 18, 23], (hyphenate ds)[i]? = some minusByte := by
  simp [hyphenate, List.getElem?_append, hlen]

theorem uuidDigits_eq_filter {u ds : GoString} (h : uuidDigits u = some ds)
    : ds = u.filter (fun b => b ≠ minusByte) := by
  unfold uuidDigits at h
  dsimp only at h
  split at h
  . injection h with h
    exact h.symm
  . cases h

theorem parseUUIDString_exact_iff (s : GoString) : UUIDExact s ↔ ¬ ExtraHyphens (trimSpace s) := by
  by_cases h36 : (trimSpace s).length = 36
  . by_cases hpos : ∀ i ∈ [8, 13, 18, 23], (trimSpace s)[i]? = some minusByte
    . have hcompact : ∀ σ : Type, (compactUUID (trimSpace s) : Prog Err σ _)
          = pure ((trimSpace s).filter (fun b => b ≠ minusByte)) := by
        intro σ
        unfold compactUUID
        rw [if_pos h36, if_neg]
        simp [hpos]
      rw [uuidExact_of_compact hcompact (fun hds => .inr ((filter_of_hyphens h36 hpos).2 hds))
        (fun es => uuidDigits_eq_filter) (filter_of_hyphens h36 hpos).1]
      exact not_congr ⟨fun h => ⟨h36, hpos, h⟩, fun h => h.2.2⟩
    . have hnone : uuidDigits (trimSpace s) = none := by
        rw [Option.eq_none_iff_forall_ne_some]
        intro ds hds
        obtain ⟨hlen, -, hu | hu⟩ := uuidDigits_eq_some_iff.mp hds
        . rw [hu] at h36
          omega
        . rw [hu] at hpos
          exact hpos (hyphenate_getElem? hlen)
      refine iff_of_true (uuidExact_of_refused hnone
        ⟨.errorf "expected canonical UUID hyphen positions" [], fun σ => ?_⟩) (fun h => hpos h.2.1)
      unfold compactUUID
      rw [if_pos h36, if_pos]
      simp at hpos
      grind
  . refine iff_of_true ?_ (fun h => h36 h.1)
    by_cases h32 : (trimSpace s).length = 32
    . have hcompact : ∀ σ : Type, (compactUUID (trimSpace s) : Prog Err σ _) = pure (trimSpace s) := by
        intro σ
        unfold compactUUID
        rw [if_neg h36, if_pos h32]
      rw [uuidExact_of_compact hcompact (fun _ => .inl rfl) ?_ (by omega)]
      . omega
      . intro ds hds
        obtain ⟨hlen, -, hu | hu⟩ := uuidDigits_eq_some_iff.mp hds
        . exact hu.symm
        . exact absurd (hu ▸ length_hyphenate hlen) h36
    . have hnone : uuidDigits (trimSpace s) = none := by
        rw [Option.eq_none_iff_forall_ne_some]
        intro ds hds
        obtain ⟨hlen, -, hu | hu⟩ := uuidDigits_eq_some_iff.mp hds
        . exact h32 (hu ▸ hlen)
        . exact h36 (hu ▸ length_hyphenate hlen)
      refine uuidExact_of_refused hnone
        ⟨.errorf "expected 32 or 36 characters, got %d" [.int (trimSpace s).length], fun σ => ?_⟩
      unfold compactUUID
      rw [if_neg h36, if_neg h32]

/--
Only four of the 36 positions are looked at before the hyphens are deleted.
-/
theorem hyphens_panic
    : (parseUUIDString (List.replicate 36 minusByte) : Prog Err Unit _) () = .panic .slice ∧
        ¬ UUIDExact (List.replicate 36 minusByte) := by
  have htrim : trimSpace (List.replicate 36 minusByte) = List.replicate 36 minusByte :=
    trimSpace_eq_self (by decide +kernel) (by decide +kernel)
  have hcompact : (compactUUID (List.replicate 36 minusByte) : Prog Err Unit _) = pure [] := rfl
  have hpanic : (parseUUIDString (List.replicate 36 minusByte) : Prog Err Unit _) ()
      = .panic .slice := by
    rw [parseUUIDString_eq, htrim, hcompact, Prog.pure_bind, parseCompactUUID_panics (by decide)]
  refine ⟨hpanic, fun h => ?_⟩
  have hnone : uuidDigits (trimSpace (List.replicate 36 minusByte)) = none := by
    rw [htrim]
    decide
  obtain ⟨e, he⟩ := (uuidExact_iff_fails hnone).mp h Unit ()
  rw [hpanic] at he
  cases he

end H2Go
