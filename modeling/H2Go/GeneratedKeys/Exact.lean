import H2Go.Conn.Impl
import H2Go.GeneratedKeys.Errors
import H2Go.Session.Aligned
import H2Go.Value.Decfloat
import Mathlib.Algebra.Order.Field.Power
import Mathlib.Tactic.Linarith
import Mathlib.Tactic.Positivity

/-!
This module contains the number that `LastInsertId` returns: it is the single generated key of the
update, exactly, unless the key is the float `2 ^ 63`. The update succeeds exactly when the server
sends its keys, in no more rows than the driver takes and together with their LOBs.
-/

namespace H2Go

open BigEndian Digits

namespace Float64

/--
The significand, it has a leading one unless the float is subnormal.
-/
def significand (bits : UInt64) : Nat :=
  if magnitude bits < 2 ^ 52 then magnitude bits else 2 ^ 52 + magnitude bits % 2 ^ 52

def exponent (bits : UInt64) : Int := (max 1 (magnitude bits / 2 ^ 52) : Nat) - 1075

def sign (bits : UInt64) : Int := if isNegative bits then -1 else 1

def rat (bits : UInt64) : Option ℚ :=
  if isFinite bits then some (sign bits * (significand bits * 2 ^ exponent bits)) else none

end Float64

/--
A natural number scaled down by a power of two is an integer exactly when the power divides it.
-/
theorem scaled_down_eq_iff (m k : Nat) (n : Int)
    : (m : ℚ) * 2 ^ (-(k : Int)) = n ↔ m % 2 ^ k = 0 ∧ ((m / 2 ^ k : Nat) : Int) = n := by
  have hpos : (0 : ℚ) < 2 ^ k := by positivity
  have hint : (0 : Int) < 2 ^ k := by positivity
  rw [zpow_neg, zpow_natCast, ← div_eq_mul_inv, div_eq_iff (ne_of_gt hpos), ← Nat.dvd_iff_mod_eq_zero]
  have hcast : (m : ℚ) = n * 2 ^ k ↔ (m : Int) = n * 2 ^ k := by
    constructor <;> intro h <;> exact_mod_cast h
  rw [hcast]
  constructor
  . intro h
    have hdvd : 2 ^ k ∣ m := by
      have : ((2 ^ k : Nat) : Int) ∣ (m : Int) := ⟨n, by rw [h, mul_comm]; push_cast; rfl⟩
      exact_mod_cast this
    refine ⟨hdvd, ?_⟩
    rw [Int.natCast_div, h]
    push_cast
    exact Int.mul_ediv_cancel _ (ne_of_gt hint)
  . rintro ⟨⟨q, rfl⟩, rfl⟩
    rw [Nat.mul_div_cancel_left q (Nat.two_pow_pos k)]
    push_cast
    ring

theorem scaled_up_eq_iff (m k : Nat) (n : Int)
    : (m : ℚ) * 2 ^ (k : Int) = n ↔ ((m * 2 ^ k : Nat) : Int) = n := by
  rw [zpow_natCast]
  constructor <;> intro h <;> exact_mod_cast h

namespace Float64

theorem sign_mul_eq_iff (bits : UInt64) (m n : Int) : sign bits * m = n ↔ m = sign bits * n := by
  unfold sign
  split <;> omega

theorem floatInteger_eq (bits : UInt64)
    : floatInteger bits = if isFinite bits then
        let shift := max 1 (magnitude bits / 2 ^ 52)
        if 1075 ≤ shift then
          some (sign bits * (significand bits * 2 ^ (shift - 1075) : Nat))
        else if significand bits % 2 ^ (1075 - shift) = 0 then
          some (sign bits * (significand bits / 2 ^ (1075 - shift) : Nat))
        else
          none
      else
        none := by
  have hlt := bits.toNat_lt
  have hexponent : magnitude bits / 2 ^ 52 = bits.toNat / 2 ^ 52 % 2 ^ 11 := by
    unfold magnitude
    omega
  have hfraction : magnitude bits % 2 ^ 52 = bits.toNat % 2 ^ 52 := by
    unfold magnitude
    omega
  have hsubnormal : magnitude bits < 2 ^ 52 ↔ bits.toNat / 2 ^ 52 % 2 ^ 11 = 0 := by omega
  have hsignificand : significand bits
      = if bits.toNat / 2 ^ 52 % 2 ^ 11 = 0 then bits.toNat % 2 ^ 52
        else 2 ^ 52 + bits.toNat % 2 ^ 52 := by
    unfold significand
    split <;> split <;> omega
  have hshift : max 1 (magnitude bits / 2 ^ 52)
      = if bits.toNat / 2 ^ 52 % 2 ^ 11 = 0 then 1 else bits.toNat / 2 ^ 52 % 2 ^ 11 := by
    rw [hexponent]
    split <;> omega
  have hfinite : isFinite bits = true ↔ ¬ bits.toNat / 2 ^ 52 % 2 ^ 11 = 2 ^ 11 - 1 := by
    unfold isFinite infinity
    rw [decide_eq_true_eq]
    omega
  have hsign : sign bits = if bits.toNat < 2 ^ 63 then 1 else -1 := by
    unfold sign isNegative
    split <;> split <;> simp_all
    omega
  unfold floatInteger
  simp only [hsignificand, hshift, hsign]
  by_cases h : bits.toNat / 2 ^ 52 % 2 ^ 11 = 2 ^ 11 - 1
  . rw [if_pos h, if_neg (fun hf => hfinite.mp hf h)]
  . rw [if_neg h, if_pos (hfinite.mpr h)]

end Float64

theorem floatInteger_eq_some_iff (bits : UInt64) (n : Int)
    : floatInteger bits = some n ↔ Float64.rat bits = some (n : ℚ) := by
  rw [Float64.floatInteger_eq, Float64.rat]
  split
  case isFalse => simp
  have hsign : ∀ q : ℚ, Float64.sign bits * q = n ↔ q = (Float64.sign bits * n : Int) := by
    intro q
    unfold Float64.sign
    split
    . push_cast
      constructor <;> intro h <;> linarith
    . simp
  rw [Option.some.injEq, hsign, Float64.exponent]
  dsimp only
  generalize max 1 (Float64.magnitude bits / 2 ^ 52) = shift
  split
  . next h =>
    rw [Option.some.injEq, Float64.sign_mul_eq_iff, ← scaled_up_eq_iff]
    rw [show ((shift - 1075 : Nat) : Int) = shift - 1075 by omega]
  . next h =>
    have hneg : ((shift : Int) - 1075) = -((1075 - shift : Nat) : Int) := by omega
    rw [hneg, scaled_down_eq_iff, ← Float64.sign_mul_eq_iff]
    split
    . next hmod => simp [hmod]
    . next hmod => simp [hmod]

/--
The text of an integer: decimal digits, behind at most one sign.
-/
def IntegerText (s : GoString) (n : Int) : Prop :=
  ∃ digits : GoString, digits ≠ [] ∧ digits.all isDecimal ∧
    ((s = digits ∧ n = textValue 10 digits) ∨ (s = plusByte :: digits ∧ n = textValue 10 digits) ∨
      (s = minusByte :: digits ∧ n = -(textValue 10 digits : Int)))

theorem integerText_minus (digits : GoString) (n : Int)
    : IntegerText (minusByte :: digits) n ↔
        digits ≠ [] ∧ digits.all isDecimal ∧ n = -(textValue 10 digits : Int) := by
  constructor
  . rintro ⟨ds, hne, hall, ⟨rfl, -⟩ | ⟨h, -⟩ | ⟨h, hn⟩⟩
    . simp [minusByte, isDecimal] at hall
    . cases h
    . cases h
      exact ⟨hne, hall, hn⟩
  . rintro ⟨hne, hall, hn⟩
    exact ⟨digits, hne, hall, .inr (.inr ⟨rfl, hn⟩)⟩

theorem integerText_plus (digits : GoString) (n : Int)
    : IntegerText (plusByte :: digits) n ↔
        digits ≠ [] ∧ digits.all isDecimal ∧ n = textValue 10 digits := by
  constructor
  . rintro ⟨ds, hne, hall, ⟨rfl, -⟩ | ⟨h, hn⟩ | ⟨h, -⟩⟩
    . simp [plusByte, isDecimal] at hall
    . cases h
      exact ⟨hne, hall, hn⟩
    . cases h
  . rintro ⟨hne, hall, hn⟩
    exact ⟨digits, hne, hall, .inr (.inl ⟨rfl, hn⟩)⟩

theorem integerText_unsigned {b : UInt8} (hminus : b ≠ minusByte) (hplus : b ≠ plusByte)
    (rest : GoString) (n : Int)
    : IntegerText (b :: rest) n ↔ (b :: rest).all isDecimal ∧ n = textValue 10 (b :: rest) := by
  constructor
  . rintro ⟨ds, -, hall, ⟨rfl, hn⟩ | ⟨h, -⟩ | ⟨h, -⟩⟩
    . exact ⟨hall, hn⟩
    . cases h
      exact absurd rfl hplus
    . cases h
      exact absurd rfl hminus
  . rintro ⟨hall, hn⟩
    exact ⟨b :: rest, List.cons_ne_nil _ _, hall, .inl ⟨rfl, hn⟩⟩

theorem parseInt_eq_some_iff (s : GoString) (n : Int)
    : parseInt s = some n ↔ IntegerText s n ∧ -(2 ^ 63) ≤ n ∧ n < 2 ^ 63 := by
  -- what is left when the sign has been read
  have hunsigned : ∀ (digits : GoString) (m : Int),
      (if digits = [] ∨ ¬ digits.all isDecimal then none
        else if -(2 ^ 63) ≤ m ∧ m < 2 ^ 63 then some m else none) = some n ↔
      (digits ≠ [] ∧ digits.all isDecimal ∧ n = m) ∧ -(2 ^ 63) ≤ n ∧ n < 2 ^ 63 := by
    intro digits m
    split
    . next h =>
      constructor
      . rintro ⟨⟩
      . rintro ⟨⟨hne, hall, -⟩, -⟩
        exact absurd h (by simp [hne, hall])
    . next h =>
      rw [not_or, not_not] at h
      split
      . next hrange =>
        rw [Option.some.injEq]
        constructor
        . rintro rfl
          exact ⟨⟨h.1, h.2, rfl⟩, hrange⟩
        . rintro ⟨⟨-, -, rfl⟩, -⟩
          rfl
      . next hrange =>
        constructor
        . rintro ⟨⟩
        . rintro ⟨⟨-, -, rfl⟩, hn⟩
          exact absurd hn hrange
  cases s with
  | nil =>
    constructor
    . rintro ⟨⟩
    . rintro ⟨⟨ds, hne, -, ⟨h, -⟩ | ⟨h, -⟩ | ⟨h, -⟩⟩, -⟩
      . exact absurd h.symm hne
      . cases h
      . cases h
  | cons b rest =>
    unfold parseInt
    by_cases hminus : b = minusByte
    . subst hminus
      rw [integerText_minus]
      exact hunsigned rest _
    . by_cases hplus : b = plusByte
      . subst hplus
        rw [integerText_plus]
        exact hunsigned rest _
      . rw [integerText_unsigned hminus hplus]
        simp only [hminus, hplus, if_false]
        exact (hunsigned (b :: rest) _).trans (by simp)

def KeyIs (v : Value) (n : Int) : Prop :=
  match v with
  | .int64 x => x.toInt = n
  | .float64 bits => Float64.rat bits = some (n : ℚ)
  | .string x => IntegerText (trimSpace x) n
  | .bytes x => IntegerText (trimSpace (x.getD [])) n
  | _ => False

/--
The result has one row with one column, and its key is the integer `n` of 64 bits.
-/
def SingleKey (gkr : GeneratedKeysResult) (n : Int) : Prop :=
  ∃ column v, gkr.columns = [column] ∧ gkr.rows = [[v]] ∧ KeyIs v n ∧ -(2 ^ 63) ≤ n ∧ n < 2 ^ 63

def ExactKey (gkr : GeneratedKeysResult) (r : Except Err Int) : Prop :=
  match r with
  | .ok n => SingleKey gkr n
  | .error err => isLastInsertIDUnavailable err = true ∧ ∀ n, ¬ SingleKey gkr n

def FloatOverflow (gkr : GeneratedKeysResult) : Prop :=
  gkr.columns.length = 1 ∧ ∃ bits, gkr.rows = [[.float64 bits]] ∧ Float64.rat bits = some (2 ^ 63)

theorem textKeyToInt64_eq_ok_iff (x : GoString) (n : Int)
    : textKeyToInt64 x = .ok n ↔ IntegerText (trimSpace x) n ∧ -(2 ^ 63) ≤ n ∧ n < 2 ^ 63 := by
  rw [← parseInt_eq_some_iff]
  unfold textKeyToInt64
  split
  . next id h => rw [h, Except.ok.injEq, Option.some.injEq]
  . next h => simp [h]

section

variable [GoStd]

theorem generatedKeyValueToInt64_eq_ok_iff {v : Value}
    (hv : ∀ bits, v = .float64 bits → Float64.rat bits ≠ some (2 ^ 63)) (n : Int)
    : generatedKeyValueToInt64 v = .ok n ↔ KeyIs v n ∧ -(2 ^ 63) ≤ n ∧ n < 2 ^ 63 := by
  cases v with
  | int64 x =>
    have hle := x.le_toInt
    have hlt := x.toInt_lt
    show Except.ok x.toInt = Except.ok n ↔ x.toInt = n ∧ _
    rw [Except.ok.injEq]
    exact ⟨fun h => ⟨h, by omega⟩, And.left⟩
  | float64 bits =>
    have hmax : floatInteger bits ≠ some (2 ^ 63) := by
      rw [Ne, floatInteger_eq_some_iff]
      exact_mod_cast hv bits rfl
    rw [KeyIs, ← floatInteger_eq_some_iff]
    unfold generatedKeyValueToInt64
    dsimp only
    split
    . next h => simp [h]
    . next m h =>
      rw [h, Option.some.injEq]
      rw [h, Ne, Option.some.injEq] at hmax
      split
      . next hrange =>
        refine iff_of_false (by simp) ?_
        rintro ⟨rfl, hn⟩
        omega
      . next hrange =>
        rw [Except.ok.injEq, wrapInt64]
        constructor
        . intro h
          omega
        . rintro ⟨rfl, hn⟩
          omega
  | string x => exact textKeyToInt64_eq_ok_iff x n
  | bytes x => exact textKeyToInt64_eq_ok_iff _ n
  | nil | bool | time | lob | other => simp [generatedKeyValueToInt64, KeyIs]

theorem singleInt64_eq_ok_iff {gkr : GeneratedKeysResult} (h : ¬ FloatOverflow gkr) (n : Int)
    : gkr.singleInt64 = .ok n ↔ SingleKey gkr n := by
  unfold GeneratedKeysResult.singleInt64
  split
  . next hlen =>
    refine iff_of_false (by simp) ?_
    rintro ⟨column, v, hcolumns, -⟩
    rw [hcolumns] at hlen
    exact hlen rfl
  . next hlen =>
    rw [ne_eq, not_not] at hlen
    obtain ⟨column, hcolumn⟩ := List.length_eq_one_iff.mp hlen
    split
    . next v hrows =>
      have hv : ∀ bits, v = .float64 bits → Float64.rat bits ≠ some (2 ^ 63) := by
        rintro bits rfl hrat
        exact h ⟨hlen, bits, hrows, hrat⟩
      rw [generatedKeyValueToInt64_eq_ok_iff hv]
      constructor
      . intro hkey
        exact ⟨column, v, hcolumn, hrows, hkey⟩
      . rintro ⟨_, v', -, hrows', hkey⟩
        rw [hrows] at hrows'
        cases hrows'
        exact hkey
    . next row hne hrows =>
      refine iff_of_false (by simp) ?_
      rintro ⟨_, v, -, hrows', -⟩
      rw [hrows] at hrows'
      cases hrows'
      exact hne v rfl
    . next hne hne' =>
      refine iff_of_false (by simp) ?_
      rintro ⟨_, v, -, hrows, -⟩
      exact hne v hrows

theorem singleInt64_of_floatOverflow {gkr : GeneratedKeysResult} (h : FloatOverflow gkr)
    : gkr.singleInt64 = .ok (-2 ^ 63) ∧ ¬ SingleKey gkr (-2 ^ 63) := by
  obtain ⟨hlen, bits, hrows, hrat⟩ := h
  have hinteger : floatInteger bits = some (2 ^ 63) := by
    rw [floatInteger_eq_some_iff]
    exact_mod_cast hrat
  constructor
  . unfold GeneratedKeysResult.singleInt64
    rw [if_neg (by simp [hlen]), hrows]
    simp only [generatedKeyValueToInt64, hinteger]
    rfl
  . rintro ⟨_, v, -, hrows', hkey, -⟩
    rw [hrows] at hrows'
    cases hrows'
    rw [KeyIs, hrat, Option.some.injEq] at hkey
    norm_num at hkey

theorem exactKey_iff (gkr : GeneratedKeysResult)
    : ExactKey gkr gkr.singleInt64 ↔ ¬ FloatOverflow gkr := by
  constructor
  . intro hexact hoverflow
    obtain ⟨hrun, hnot⟩ := singleInt64_of_floatOverflow hoverflow
    rw [hrun] at hexact
    exact hnot hexact
  . intro hno
    have hiff := singleInt64_eq_ok_iff hno
    unfold ExactKey
    split
    . next n hrun => exact (hiff n).mp hrun
    . next err hrun =>
      refine ⟨Session.isLastInsertIDUnavailable_of_singleInt64 hrun, ?_⟩
      intro n hkey
      rw [(hiff n).mpr hkey] at hrun
      cases hrun

theorem lastInsertId_updateResult (reply : Int × Bool) (gkr : GeneratedKeysResult)
    : Result.lastInsertId (some (.ofUpdate (Session.updateResult reply gkr))) = gkr.singleInt64 := by
  unfold Session.updateResult
  split
  . next id h => exact h.symm
  . next err h => exact h.symm

theorem rowsAffected_updateResult (reply : Int × Bool) (gkr : GeneratedKeysResult)
    : Result.rowsAffected (some (.ofUpdate (Session.updateResult reply gkr))) = reply.1 := by
  unfold Session.updateResult
  split <;> rfl

section

variable {σ : Type}

/--
The update succeeds with the count of its reply, and `LastInsertId` returns the single key of `gkr` or
reports that there is none.
-/
def UpdateExact (gkr : GeneratedKeysResult) (count : Int)
    (o : Out Err (Session σ) ResultWithUpdateCount) : Prop :=
  ∃ res s', o = .ok res s' ∧ Result.rowsAffected (some (.ofUpdate res)) = count ∧
    ExactKey gkr (Result.lastInsertId (some (.ofUpdate res)))

omit [GoStd] in
theorem updateExact_withContext_iff {gkr : GeneratedKeysResult} {count : Int} {ctx : Ctx}
    {m : Prog Err (Session σ) ResultWithUpdateCount} {s : Session σ}
    : UpdateExact gkr count (Session.withContext ctx m s) ↔ UpdateExact gkr count (m s) := by
  constructor
  . rintro ⟨res, s', hrun, hexact⟩
    obtain ⟨s1, hm, -⟩ := Session.of_withContext hrun
    exact ⟨res, s1, hm, hexact⟩
  . rintro ⟨res, s', hm, hexact⟩
    exact ⟨res, _, Session.withContext_of_ok hm, hexact⟩

variable [Peer σ]

theorem finishUpdate_of_none {keys : GeneratedKeysMode} (hmode : keys.mode = generatedKeysNone)
    (reply : Int × Bool) (s : Session σ)
    : UpdateExact ⟨[], []⟩ reply.1 (Session.finishUpdate keys reply s) := by
  obtain ⟨res, s', hfinish, hcount, hid, herr⟩ : ∃ res s', Session.finishUpdate keys reply s = .ok res s' ∧
      res.updateCount = reply.1 ∧ res.lastInsertIDSet = false ∧ res.lastInsertErr = none := by
    unfold Session.finishUpdate Session.readKeysForUpdate
    rw [if_pos hmode]
    exact ⟨_, _, rfl, rfl, rfl, rfl⟩
  refine ⟨res, s', hfinish, hcount, ?_⟩
  simp only [Result.lastInsertId, Result.ofUpdate, hid, herr]
  refine ⟨rfl, ?_⟩
  rintro n ⟨column, v, hcolumn, -⟩
  cases hcolumn

theorem finishUpdate_exact_iff {keys : GeneratedKeysMode} (hmode : keys.mode ≠ generatedKeysNone)
    (reply : Int × Bool) {s s' : Session σ} {gkr : GeneratedKeysResult} {key : Except Err Int}
    (hkeys : Session.readGeneratedKeys s = .ok (gkr, key) s')
    : UpdateExact gkr reply.1 (Session.finishUpdate keys reply s) ↔ ¬ FloatOverflow gkr := by
  have hfinish := Session.finishUpdate_of_ok hmode reply hkeys
  rw [← exactKey_iff]
  constructor
  . rintro ⟨res, s1, hrun, -, hexact⟩
    rw [hfinish] at hrun
    cases hrun
    rwa [lastInsertId_updateResult] at hexact
  . intro hexact
    refine ⟨_, _, hfinish, rowsAffected_updateResult reply gkr, ?_⟩
    rwa [lastInsertId_updateResult]

theorem keys_of_finishUpdate {keys : GeneratedKeysMode} (hmode : keys.mode ≠ generatedKeysNone)
    {reply : Int × Bool} {s s' : Session σ} {res : ResultWithUpdateCount}
    (hfinish : Session.finishUpdate keys reply s = .ok res s')
    : ∃ r s1, Session.readGeneratedKeys s = .ok r s1 := by
  cases hkeys : Session.readGeneratedKeys s with
  | ok r s1 => exact ⟨r, s1, rfl⟩
  | fail e s1 =>
    have hfail := Session.finishUpdate_of_fail hmode reply hkeys
    rw [Session.hard_readGeneratedKeys.of_run hkeys, if_neg Bool.false_ne_true, hfinish] at hfail
    cases hfail
  | panic | stuck =>
    have hpanic := Session.finishUpdate_of_panic hmode reply (s := s) (by rw [hkeys]; rfl)
    rw [hfinish] at hpanic
    cases hpanic

/--
An update that is carried out: without a request for generated keys it succeeds and there is no key.
Otherwise it succeeds exactly when the server sends the keys, and then `LastInsertId` is exact unless
the single key is the float `2 ^ 63`.
-/
theorem lastInsertId_exact_iff (ctx : Ctx) {cmd : PreparedCommand} {params : List Value}
    {s s1 : Session σ} (hcan : s.CanUpdate cmd params) {keys : GeneratedKeysMode}
    (hsend : Session.sendUpdate ctx cmd params s = .ok keys s1) {reply : Int × Bool}
    {head rest : List UInt8} (hinp : s1.tr.inp = head ++ rest)
    (hreply : Frame (Tr.readUpdateReply : Prog Err (Tr σ) _) reply head)
    : (keys.mode = generatedKeysNone → UpdateExact ⟨[], []⟩ reply.1
        (Session.executeUpdatePreparedWithParams ctx cmd params s)) ∧
      (keys.mode ≠ generatedKeysNone →
        (∀ gkr t', Tr.SendsKeys s1.version (Input.move head rest s1.tr) gkr t' →
          (UpdateExact gkr reply.1 (Session.executeUpdatePreparedWithParams ctx cmd params s) ↔
            ¬ FloatOverflow gkr)) ∧
        ∀ res s', Session.executeUpdatePreparedWithParams ctx cmd params s = .ok res s' →
          ∃ gkr t', Tr.SendsKeys s1.version (Input.move head rest s1.tr) gkr t') := by
  obtain ⟨t1, rfl⟩ := (Session.keeps_sendUpdate s ctx cmd params).of_ok ⟨s.tr, rfl⟩ hsend
  have hopen : (s.setTr (Input.move head rest t1)).trNil = false := hcan.1
  have hread := Session.io_of_ok (s := s.setTr t1) hcan.1 (hreply.exact t1 rest hinp)
  -- what the call does behind its reply
  have hrun : Session.executeUpdatePreparedWithParams ctx cmd params s = Session.withContext ctx
      (Session.finishUpdate keys reply) (s.setTr (Input.move head rest t1)) := by
    rw [Session.executeUpdate_eq ctx hcan]
    apply Session.withContext_congr
    rw [Prog.bind_of_ok hsend, Prog.bind_of_ok hread]
    rfl
  rw [hrun]
  refine ⟨fun hmode => ?_, fun hmode => ⟨fun gkr t' hsends => ?_, fun res s' hok => ?_⟩⟩
  . rw [updateExact_withContext_iff]
    exact finishUpdate_of_none hmode reply _
  . rw [updateExact_withContext_iff]
    exact finishUpdate_exact_iff hmode reply
      ((Session.readGeneratedKeys_ok_iff hopen).mpr ⟨gkr, t', hsends, rfl, rfl⟩)
  . obtain ⟨s2, hfinish, -⟩ := Session.of_withContext hok
    obtain ⟨r, s3, hkeys⟩ := keys_of_finishUpdate hmode hfinish
    obtain ⟨gkr, t', hsends, -⟩ := (Session.readGeneratedKeys_ok_iff hopen).mp hkeys
    exact ⟨gkr, t', hsends⟩

end

end

section

open StandIn

def keyRow (cell : List UInt8) : List UInt8 := intBytes 4 1 ++ intBytes 8 1 ++ keyMeta ++ [1] ++ cell

def oneUpdated : List UInt8 := [0, 0, 0, 1] ++ intBytes 8 1 ++ [1]

theorem lastInsertId_exact_seven
    : ∃ gkr, gkr.rows = [[.int64 7]] ∧
        UpdateExact gkr 1 (Session.executeUpdatePreparedWithParams .background (plainCommand false) []
          (repliedSession (oneUpdated ++ keyRow [0, 0, 0, 5, 0, 0, 0, 0, 0, 0, 0, 7]))) := by
  obtain ⟨t, hread, hend⟩ : ∃ t, (Tr.readUpdateReply : Prog Err (Tr Silent) _)
      (Tr.ofBytes oneUpdated) = .ok (1, true) t ∧ t.inp = [] := ⟨_, rfl, rfl⟩
  have heval : (Session.sendUpdate .background (plainCommand false) [] (repliedSession
        (oneUpdated ++ keyRow [0, 0, 0, 5, 0, 0, 0, 0, 0, 0, 0, 7]))).returns (fun keys s1 =>
      keys.mode ≠ generatedKeysNone ∧ s1.trNil = false ∧
        s1.tr.inp = oneUpdated ++ keyRow [0, 0, 0, 5, 0, 0, 0, 0, 0, 0, 0, 7] ∧
        (Session.readGeneratedKeys (s1.setTr (Input.move oneUpdated
          (keyRow [0, 0, 0, 5, 0, 0, 0, 0, 0, 0, 0, 7]) s1.tr))).returns (fun read _ =>
            read.1.rows = [[.int64 7]]) = true) = true := by
    decide +kernel
  obtain ⟨keys, s1, hsend, heval⟩ := Out.exists_of_returns heval
  obtain ⟨hmode, hopen, hinp, heval⟩ := of_decide_eq_true heval
  obtain ⟨r, s2, hkeys, heval⟩ := Out.exists_of_returns heval
  obtain ⟨gkr, t', hsends, rfl, -⟩ := (Session.readGeneratedKeys_ok_iff (by exact hopen)).mp hkeys
  have hrows : gkr.rows = [[.int64 7]] := of_decide_eq_true heval
  refine ⟨gkr, hrows, ?_⟩
  refine (((lastInsertId_exact_iff .background ⟨rfl, rfl, rfl⟩ hsend hinp
    (LawfulReader.frame_of_ok hread hend)).2 hmode).1 gkr t' hsends).mpr ?_
  rintro ⟨-, bits, hfloat, -⟩
  rw [hrows] at hfloat
  cases hfloat

/--
The key is the float `2 ^ 63`, and `LastInsertId` returns a negative number. With too many keys in a
well-formed frame the update fails.
-/
theorem lastInsertId_broken
    : (Float64.rat 0x43E0000000000000 = some (2 ^ 63) ∧
        (match Session.executeUpdatePreparedWithParams .background (plainCommand false) []
            (repliedSession (oneUpdated ++ keyRow [0, 0, 0, 7, 0x43, 0xE0, 0, 0, 0, 0, 0, 0])) with
          | .ok res _ => decide (res.generatedKeys.map GeneratedKeysResult.rows
                = some [[.float64 0x43E0000000000000]]) &&
              (match Result.lastInsertId (some (.ofUpdate res)) with
                | .ok n => n = -2 ^ 63
                | .error _ => false)
          | _ => false) = true) ∧
      (∃ m, Frame (Tr.readResultMeta 1 tcpProtocolVersion21 : Prog Err (Tr Silent) _) m keyMeta ∧
        ∀ cells ∈ overfullRows, RowSent Silent m cells) ∧
      ∃ e s', Session.executeUpdatePreparedWithParams .background (plainCommand false) []
        (repliedSession (updateReply ++ overfullKeys)) = .fail e s' := by
  have hinteger : floatInteger 0x43E0000000000000 = some (2 ^ 63 : Int) := by decide
  obtain ⟨e, s', hrun, -⟩ := executeUpdate_overfullKeys
  refine ⟨⟨?_, by decide +kernel⟩, keyMeta_frame, e, s', hrun⟩
  rw [floatInteger_eq_some_iff] at hinteger
  exact_mod_cast hinteger

end

end H2Go
