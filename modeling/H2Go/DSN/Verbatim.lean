import H2Go.DSN.Segments
import H2Go.Handshake.Impl
import Mathlib.Data.List.Nodup
import Mathlib.Algebra.BigOperators.Group.List.Basic
import Mathlib.Algebra.Order.BigOperators.Group.List

/-!
This module contains the settings of a JDBC DSN on their way from the text to the server.
-/

namespace H2Go

open Digits Strings Utf8 ExceptLemmas

section Parse

variable [UnicodeTables]

def jdbcBase (input : GoString) (u : NetURL.URL) : ParsedDSN :=
  { (ParsedDSN.empty input).setAddress u with
    database := trimPrefix (ascii "/") ((splitSettingSegments u.path).headD []) }

theorem parseDSN_jdbc {o : MapOrder} {rest : GoString} {cfg : ParsedDSN}
    : parseDSN o (ascii "jdbc:h2:tcp://" ++ rest) = .ok cfg ↔
      ∃ u cfg', NetURL.parse (ascii "tcp://" ++ rest) = .ok u ∧
        parseJDBC.go (jdbcBase (ascii "jdbc:h2:tcp://" ++ rest) u)
          (splitSettingSegments u.path).tail = .ok cfg' ∧
        validate o cfg' = .ok cfg := by
  have hinner : trimPrefix (ascii "jdbc:h2:") (ascii "jdbc:h2:tcp://" ++ rest) = ascii "tcp://" ++ rest :=
    rfl
  have hssl : (ascii "ssl:").isPrefixOf (ascii "tcp://" ++ rest) = false := rfl
  have htcp : (ascii "tcp:").isPrefixOf (ascii "tcp://" ++ rest) = true := rfl
  have hmem : (ascii "mem:").isPrefixOf (ascii "tcp://" ++ rest) = false := rfl
  have hfile : (ascii "file:").isPrefixOf (ascii "tcp://" ++ rest) = false := rfl
  have hjdbc : (ascii "jdbc:h2:").isPrefixOf (ascii "jdbc:h2:tcp://" ++ rest) = true := rfl
  unfold parseDSN
  rw [if_neg (by simp [ascii]), if_pos hjdbc]
  unfold parseJDBC
  rw [hinner]
  simp only [hmem, hfile, hssl, htcp, Bool.false_eq_true, or_self, if_false, not_true_eq_false,
    and_false, bind_eq_ok, mapError_eq_ok]
  constructor
  . rintro ⟨u, hu, cfg', hgo, hvalid⟩
    exact ⟨u, cfg', hu, hgo, hvalid⟩
  . rintro ⟨u, cfg', hu, hgo, hvalid⟩
    exact ⟨u, hu, cfg', hgo, hvalid⟩

end Parse

section Text

def settingText (kv : GoString × GoString) : GoString :=
  semicolonByte :: (kv.1 ++ equalsByte :: escapeSetting kv.2)

def jdbcDSN (host port db : GoString) (settings : Params) : GoString :=
  ascii "jdbc:h2:tcp://" ++ (host ++ colonByte :: port ++ (slashByte :: db ++ settings.flatMap settingText))

theorem wellEscaped_escapeSetting (v : GoString) : WellEscaped (escapeSetting v) := by
  induction v with
  | nil => exact .nil
  | cons c v ih =>
    unfold escapeSetting at ih ⊢
    rw [List.flatMap_cons]
    split
    . next hc => exact .escaped hc ih
    . next hc => exact .plain (fun h => hc (.inl h)) ih

theorem segmentSteps_escapeSetting (v : GoString) : segmentSteps (escapeSetting v) = v.length := by
  induction v with
  | nil => rfl
  | cons c v ih =>
    unfold escapeSetting at ih ⊢
    rw [List.flatMap_cons, List.length_cons, ← ih]
    split
    . exact segmentSteps_escaped _ _
    . next hc => exact segmentSteps_plain (fun h => hc (.inl h)) _

theorem mem_escapeSetting {v : GoString} {b : UInt8} (hb : b ≠ backslashByte)
    : b ∈ escapeSetting v ↔ b ∈ v := by
  unfold escapeSetting
  rw [List.mem_flatMap]
  constructor
  . rintro ⟨c, hc, h⟩
    split at h
    . simp only [List.mem_cons, hb, List.not_mem_nil, or_false, false_or] at h
      rw [h]
      exact hc
    . rw [List.mem_singleton] at h
      rw [h]
      exact hc
  . intro h
    refine ⟨b, h, ?_⟩
    split <;> simp

variable {settings : Params}
  (hkeys : ∀ kv ∈ settings, ∀ b ∈ kv.1, b ≠ backslashByte ∧ b ≠ semicolonByte)

include hkeys

theorem wellEscaped_settings : WellEscaped (settings.flatMap settingText) := by
  induction settings with
  | nil => exact .nil
  | cons kv settings ih =>
    rw [List.flatMap_cons]
    refine .append (.plain (by decide) (.append ?_ (.plain (by decide) (wellEscaped_escapeSetting _)))) ?_
    . exact .of_plain (fun b hb => (hkeys kv (by simp) b hb).1)
    . exact ih (fun kv hkv => hkeys kv (by simp [hkv]))

theorem segmentSteps_settings : segmentSteps (settings.flatMap settingText) = paramsLength settings := by
  induction settings with
  | nil => rfl
  | cons kv settings ih =>
    have hplain : ∀ {a : GoString}, (∀ b ∈ a, b ≠ backslashByte) → segmentSteps a = a.length := by
      intro a ha
      induction a with
      | nil => rfl
      | cons b a iha =>
        rw [segmentSteps_plain (ha b (by simp)), iha (fun b hb => ha b (by simp [hb])), List.length_cons]
    have hkey := fun b hb => (hkeys kv (by simp) b hb).1
    rw [List.flatMap_cons, settingText, List.cons_append, segmentSteps_plain (by decide),
      List.append_assoc, (WellEscaped.of_plain hkey).segmentSteps_append, List.cons_append,
      segmentSteps_plain (by decide), (wellEscaped_escapeSetting _).segmentSteps_append,
      segmentSteps_escapeSetting, ih (fun kv hkv => hkeys kv (by simp [hkv])), hplain hkey]
    simp only [paramsLength, List.map_cons, List.sum_cons]
    omega

theorem go_settings (segs : List GoString) (b : GoString)
    : splitSettingSegments.go segs b (settings.flatMap settingText)
      = segs ++ b :: settings.map (fun kv => kv.1 ++ equalsByte :: kv.2) := by
  induction settings generalizing segs b with
  | nil => simp [splitSettingSegments.go]
  | cons kv settings ih =>
    have hkey := fun b hb => hkeys kv (by simp) b hb
    rw [List.flatMap_cons, settingText, List.cons_append, splitSettingSegments.go_separator,
      List.append_assoc, splitSettingSegments.go_append hkey, List.cons_append,
      splitSettingSegments.go_plain _ _ (by decide) (by decide),
      splitSettingSegments.go_escapeSetting,
      ih (fun kv hkv => hkeys kv (by simp [hkv]))]
    simp

end Text

section Known

variable [UnicodeTables]

structure ParsedDSN.Extends (cfg cfg' : ParsedDSN) (settings : Params) : Prop where
  params : cfg'.params = cfg.params ++ settings
  host : cfg'.host = cfg.host
  port : cfg'.port = cfg.port
  user : ∀ v, (ascii "USER", v) ∈ settings → cfg'.user = v
  password : ∀ v, (ascii "PASSWORD", v) ∈ settings → cfg'.password = v
  other_user : ascii "USER" ∉ settings.map Prod.fst → cfg'.user = cfg.user
  other_password : ascii "PASSWORD" ∉ settings.map Prod.fst → cfg'.password = cfg.password

theorem extends_setCredential (cfg : ParsedDSN) {kv : GoString × GoString} (h : kv.1 ∈ knownSettings)
    : cfg.Extends ({ cfg with params := cfg.params ++ [kv] }.setCredential kv.1 kv.2) [kv] := by
  have huser := equalFold_known h (show ascii "USER" ∈ knownSettings by decide)
  have hpassword := equalFold_known h (show ascii "PASSWORD" ∈ knownSettings by decide)
  have hne : ascii "USER" ≠ ascii "PASSWORD" := by decide
  obtain ⟨key, val⟩ := kv
  unfold ParsedDSN.setCredential
  by_cases h1 : key = ascii "USER"
  . subst h1
    rw [if_pos (huser.mpr rfl)]
    exact ⟨rfl, rfl, rfl, by simp, by simp [hne.symm], by simp, by simp⟩
  . rw [if_neg (fun h => h1 (huser.mp h))]
    by_cases h2 : key = ascii "PASSWORD"
    . subst h2
      rw [if_pos (hpassword.mpr rfl)]
      exact ⟨rfl, rfl, rfl, by simp [hne], by simp, by simp, by simp⟩
    . rw [if_neg (fun h => h2 (hpassword.mp h))]
      exact ⟨rfl, rfl, rfl, by simp [Ne.symm h1], by simp [Ne.symm h2], by simp, by simp⟩

omit [UnicodeTables] in
theorem ParsedDSN.Extends.trans {cfg cfg' cfg'' : ParsedDSN} {kv : GoString × GoString}
    {settings : Params} (h : cfg.Extends cfg' [kv]) (h' : cfg'.Extends cfg'' settings)
    (hfresh : kv.1 ∉ settings.map Prod.fst)
    : cfg.Extends cfg'' (kv :: settings) where
  params := by rw [h'.params, h.params, List.append_assoc, List.singleton_append]
  host := by rw [h'.host, h.host]
  port := by rw [h'.port, h.port]
  user v hv := by
    rcases List.mem_cons.mp hv with rfl | hv
    . rw [h'.other_user hfresh, h.user v (by simp)]
    . exact h'.user v hv
  password v hv := by
    rcases List.mem_cons.mp hv with rfl | hv
    . rw [h'.other_password hfresh, h.password v (by simp)]
    . exact h'.password v hv
  other_user hne := by
    simp only [List.map_cons, List.mem_cons, not_or] at hne
    rw [h'.other_user hne.2, h.other_user (by simpa using hne.1)]
  other_password hne := by
    simp only [List.map_cons, List.mem_cons, not_or] at hne
    rw [h'.other_password hne.2, h.other_password (by simpa using hne.1)]

omit [UnicodeTables] in
theorem known_bytes {key : GoString} (h : key ∈ knownSettings)
    : ∀ b ∈ key, b ≠ backslashByte ∧ b ≠ semicolonByte ∧ b ≠ equalsByte ∧ b ≠ percentByte ∧
      b ≠ hashByte ∧ b ≠ questionByte ∧ 0x20 ≤ b.toNat ∧ b.toNat ≠ 0x7F := by
  revert key
  decide +kernel

theorem parseJDBC_go_known {settings : Params} (hkeys : ∀ kv ∈ settings, kv.1 ∈ knownSettings)
    (hnodup : (settings.map Prod.fst).Nodup) (cfg : ParsedDSN)
    (hold : ∀ kv ∈ cfg.params, kv.1 ∈ knownSettings ∧ kv.1 ∉ settings.map Prod.fst)
    : ∃ cfg', parseJDBC.go cfg (settings.map (fun kv => kv.1 ++ equalsByte :: kv.2)) = .ok cfg' ∧
      cfg.Extends cfg' settings := by
  induction settings generalizing cfg with
  | nil => exact ⟨cfg, rfl, by simp, rfl, rfl, by simp, by simp, by simp, by simp⟩
  | cons kv settings ih =>
    have hkey := hkeys kv (by simp)
    simp only [List.map_cons, List.nodup_cons] at hnodup
    have hset : setParam cfg.params kv.1 kv.2 = .ok (cfg.params ++ [kv]) := by
      apply setParam_of_fresh
      intro old hold'
      obtain ⟨hknown, hne⟩ := hold old hold'
      rw [Bool.eq_false_iff]
      intro heq
      simp [(equalFold_known hknown hkey).mp heq] at hne
    have hext := extends_setCredential cfg hkey
    obtain ⟨cfg', hgo, hext'⟩ := ih (fun kv hkv => hkeys kv (by simp [hkv])) hnodup.2
      ({ cfg with params := cfg.params ++ [kv] }.setCredential kv.1 kv.2) (by
        intro old hold'
        rw [hext.params, List.mem_append, List.mem_singleton] at hold'
        rcases hold' with hold' | rfl
        . refine ⟨(hold old hold').1, fun hmem => (hold old hold').2 ?_⟩
          simp only [List.map_cons, List.mem_cons, hmem, or_true]
        . exact ⟨hkey, hnodup.1⟩)
    refine ⟨cfg', ?_, hext.trans hext' hnodup.1⟩
    rw [List.map_cons, parseJDBC.go, if_neg (by simp),
      cut_append_cons (fun h => (known_bytes hkey _ h).2.2.1 rfl)]
    simp only [hset, bind, Except.bind, hgo]

theorem validateParams_go_known {params : Params} (h : ∀ kv ∈ params, kv.1 ∈ knownSettings)
    : validateParams.go false [] params = .ok (false, []) := by
  induction params with
  | nil => rfl
  | cons kv params ih =>
    obtain ⟨key, val⟩ := kv
    have hkey : key ∈ knownSettings := h (key, val) (by simp)
    have hne : key ≠ ascii "IGNORE_UNKNOWN_SETTINGS" ∧ key ≠ ascii "QUERY_TIMEOUT" := by
      constructor
      . rintro rfl
        exact absurd hkey (by decide)
      . rintro rfl
        exact absurd hkey (by decide)
    have hrec := ih (fun kv hkv => h kv (by simp [hkv]))
    rw [validateParams.go, toUpper_known hkey, if_neg hne.1]
    split
    . exact hrec
    . next hcred =>
      have hfwd : key ∈ forwardSettings := by
        simp only [knownSettings, List.mem_append, List.mem_cons, List.not_mem_nil, or_false] at hkey
        exact hkey.resolve_left hcred
      rw [if_neg hne.2, if_neg (fun h => h.1 hfwd), hrec]

omit [UnicodeTables] in
theorem atoi_decimal {n : Nat} (h : n < 2 ^ 63) : atoi (decimal n) = .ok n := by
  have hall : (decimal n).all isDecimal = true := by
    rw [List.all_eq_true]
    exact fun b hb => isDecimal_of_mem_decimal hb
  unfold atoi
  rw [splitSign_decimal]
  simp only [textValue_decimal]
  rw [if_neg (by simp [decimal_ne_nil, hall]), if_neg (by simp; omega)]
  rfl

theorem validate_known (o : MapOrder) {cfg : ParsedDSN} {port : Nat} (hhost : cfg.host ≠ [])
    (hport : cfg.port = decimal port) (hrange : 1 ≤ port ∧ port ≤ 65535)
    (h : ∀ kv ∈ cfg.params, kv.1 ∈ knownSettings)
    : validate o cfg = .ok cfg := by
  have hgo : validateParams.go false [] (o.range cfg.params) = .ok (false, []) :=
    validateParams_go_known (fun kv hkv => h kv ((o.perm cfg.params).mem_iff.mp hkv))
  unfold validate
  rw [if_neg hhost, hport, atoi_decimal (by omega)]
  simp only [bind, Except.bind, Except.mapError]
  rw [if_neg (by omega)]
  simp only [validateParams, hgo, bind, Except.bind, true_or, if_true]

theorem eq_of_validate {o : MapOrder} {cfg cfg' : ParsedDSN} (h : validate o cfg' = .ok cfg)
    : cfg = cfg' := by
  unfold validate at h
  split at h
  . cases h
  . rw [bind_eq_ok] at h
    obtain ⟨n, -, h⟩ := h
    split at h
    . cases h
    . rw [bind_eq_ok] at h
      obtain ⟨-, -, h⟩ := h
      cases h
      rfl

theorem mem_sessionPropertyMap (o : MapOrder) {params : Params} {kv : GoString × GoString}
    (h : kv ∈ params) (hknown : kv.1 ∈ knownSettings) (hfwd : kv.1 ∈ forwardSettings)
    : kv ∈ sessionPropertyMap o params := by
  have hne : kv.1 ≠ ascii "IGNORE_UNKNOWN_SETTINGS" := by
    intro h
    rw [h] at hfwd
    exact absurd hfwd (by decide)
  unfold sessionPropertyMap
  rw [List.mem_mergeSort, List.mem_filterMap]
  refine ⟨kv, (o.perm params).mem_iff.mpr h, ?_⟩
  simp only [toUpper_known hknown, hne, if_false, hfwd, if_true]

end Known

section Main

variable [UnicodeTables] [Sha256] {σ : Type}

def Params.get? (params : Params) (key : GoString) : Option GoString :=
  (params.find? (fun kv => kv.1 = key)).map Prod.snd

/--
The DSN is accepted, and the value of every setting is found in the configuration and sent to the
server as it was written.
-/
def SettingsArrive (σ : Type) (o o' : MapOrder) (input : GoString) (settings : Params) : Prop :=
  ∃ cfg, parseDSN o input = .ok cfg ∧ ∀ kv ∈ settings,
    Params.get? cfg.params kv.1 = some kv.2 ∧
    (kv.1 = ascii "USER" → cfg.user = kv.2) ∧
    (kv.1 = ascii "PASSWORD" → cfg.password = kv.2) ∧
    (kv.1 ∈ forwardSettings → ∃ props : Params, kv ∈ props ∧
      ∀ t t' : Tr σ, Tr.sendCredentials o' cfg t = .ok () t' →
        t'.written = t.written
          ++ (Tr.credentialsHeader cfg props ++ props.flatMap Tr.propertyFrame))

omit [UnicodeTables] [Sha256] in
theorem mem_of_get? {params : Params} {key v : GoString} (h : Params.get? params key = some v)
    : (key, v) ∈ params := by
  unfold Params.get? at h
  rw [Option.map_eq_some_iff] at h
  obtain ⟨kv, hfind, rfl⟩ := h
  have hkey := List.find?_some hfind
  simp only [decide_eq_true_eq] at hkey
  rw [← hkey]
  exact List.mem_of_find?_eq_some hfind

omit [UnicodeTables] [Sha256] in
theorem get?_of_mem {params : Params} (hnodup : (params.map Prod.fst).Nodup)
    {kv : GoString × GoString} (h : kv ∈ params)
    : Params.get? params kv.1 = some kv.2 := by
  unfold Params.get?
  induction params with
  | nil => simp at h
  | cons kv' params ih =>
    simp only [List.map_cons, List.nodup_cons] at hnodup
    rcases List.mem_cons.mp h with rfl | h
    . simp
    . have hne : kv'.1 ≠ kv.1 := by
        intro heq
        exact hnodup.1 (heq ▸ List.mem_map_of_mem h)
      rw [List.find?_cons_of_neg (by simpa using hne)]
      exact ih hnodup.2 h

variable {host db : GoString} {port : Nat} {settings : Params}
  (hhost : host ≠ [] ∧ ∀ b ∈ host, wordByte b) (hport : 1 ≤ port ∧ port ≤ 65535)
  (hdb : ∀ b ∈ db, wordByte b) (hkeys : ∀ kv ∈ settings, kv.1 ∈ knownSettings)
  (hnodup : (settings.map Prod.fst).Nodup)
  (hvals : ∀ kv ∈ settings, ∀ b ∈ kv.2, 0x20 ≤ b.toNat ∧ b.toNat ≤ 0x7E)

omit [UnicodeTables] [Sha256] in
include hkeys hvals in
theorem settings_printable {b : UInt8} (h : b ∈ settings.flatMap settingText)
    : 0x20 ≤ b.toNat ∧ b.toNat ≠ 0x7F := by
  rw [List.mem_flatMap] at h
  obtain ⟨kv, hkv, h⟩ := h
  simp only [settingText, List.mem_cons, List.mem_append] at h
  rcases h with rfl | h | rfl | h
  . decide
  . exact (known_bytes (hkeys kv hkv) b h).2.2.2.2.2.2
  . decide
  . by_cases hb : b = backslashByte
    . subst hb
      decide
    . have := hvals kv hkv b ((mem_escapeSetting hb).mp h)
      omega

omit [UnicodeTables] [Sha256] in
include hkeys in
/--
The text of the settings contains a byte that is no delimiter if one of the values does.
-/
theorem mem_settings_iff {c : UInt8} (hc : c = hashByte ∨ c = questionByte ∨ c = percentByte)
    : c ∈ settings.flatMap settingText ↔ ∃ kv ∈ settings, c ∈ kv.2 := by
  have hne : c ≠ backslashByte ∧ c ≠ semicolonByte ∧ c ≠ equalsByte := by
    rcases hc with rfl | rfl | rfl <;> decide
  rw [List.mem_flatMap]
  constructor
  . rintro ⟨kv, hkv, h⟩
    simp only [settingText, List.mem_cons, List.mem_append, hne, false_or] at h
    rcases h with h | h
    . have := known_bytes (hkeys kv hkv) c h
      tauto
    . exact ⟨kv, hkv, (mem_escapeSetting hne.1).mp h⟩
  . rintro ⟨kv, hkv, h⟩
    refine ⟨kv, hkv, ?_⟩
    simp only [settingText, List.mem_cons, List.mem_append]
    exact .inr (.inr (.inr ((mem_escapeSetting hne.1).mpr h)))

omit [UnicodeTables] [Sha256] in
include hhost hdb hkeys hvals in
theorem parse_jdbcDSN {u : NetURL.URL}
    : NetURL.parse (ascii "tcp://" ++ (host ++ colonByte :: decimal port
          ++ (slashByte :: db ++ settings.flatMap settingText))) = .ok u ↔
      ∃ p f,
        NetURL.unescape .path (cut questionByte (cut hashByte
          (slashByte :: db ++ settings.flatMap settingText)).1).1 = .ok p ∧
        NetURL.unescape .fragment ((cut hashByte
          (slashByte :: db ++ settings.flatMap settingText)).2.getD []) = .ok f ∧
        u = { user := none, host := host ++ colonByte :: decimal port, path := p,
              rawQuery := (cut questionByte (cut hashByte
                (slashByte :: db ++ settings.flatMap settingText)).1).2.getD [] } := by
  have hdigits : (decimal port).all isDecimal = true := by
    rw [List.all_eq_true]
    exact fun b hb => isDecimal_of_mem_decimal hb
  have hword : ∀ b ∈ decimal port, wordByte b := by
    intro b hb
    simp [wordByte, NetURL.isAlnum, isDecimal_of_mem_decimal hb]
  have hctl : NetURL.Printable (slashByte :: db ++ settings.flatMap settingText) := by
    intro b hb
    simp only [List.mem_append, List.mem_cons] at hb
    rcases hb with (rfl | hb) | hb
    . decide
    . exact wordByte_range (hdb b hb)
    . exact settings_printable hkeys hvals hb
  have htcp : ascii "tcp://" = ascii "tcp" ++ ascii "://" := by decide
  rw [htcp, ← List.append_assoc (ascii "tcp" ++ ascii "://"),
    parse_address hhost.2 hword scheme_tcp hctl (.inr ⟨_, rfl⟩), hdigits]
  simp only [true_and]

omit [UnicodeTables] [Sha256] in
include hkeys in
theorem known_plain : ∀ kv ∈ settings, ∀ b ∈ kv.1, b ≠ backslashByte ∧ b ≠ semicolonByte :=
  fun kv hkv b hb => ⟨(known_bytes (hkeys kv hkv) b hb).1, (known_bytes (hkeys kv hkv) b hb).2.1⟩

omit [UnicodeTables] [Sha256] in
include hdb in
theorem db_bytes {c : UInt8} (hc : wordByte c = false) (hslash : c ≠ slashByte) : c ∉ slashByte :: db := by
  rw [List.mem_cons, not_or]
  exact ⟨hslash, fun h => absurd (hdb c h) (by rw [hc]; decide)⟩

omit [UnicodeTables] [Sha256] in
include hnodup in
theorem paramsLength_le {params : Params} (h : ∀ kv ∈ settings, kv ∈ params)
    : paramsLength settings ≤ paramsLength params := by
  obtain ⟨l, hperm, hsub⟩ := List.subperm_of_subset (List.Nodup.of_map _ hnodup) h
  unfold paramsLength
  rw [← (hperm.map _).sum_eq]
  exact (hsub.map _).sum_le_sum (fun _ _ => Nat.zero_le _)

include hhost hdb hkeys hnodup hvals in
/--
The settings that arrive are no longer than what the splitter makes of the decoded text.
-/
theorem settings_fit {o o' : MapOrder}
    (h : SettingsArrive σ o o' (jdbcDSN host (decimal port) db settings) settings)
    : ∃ q, NetURL.unescape .path (cut questionByte (cut hashByte
        (settings.flatMap settingText)).1).1 = .ok q ∧ paramsLength settings ≤ segmentSteps q := by
  obtain ⟨cfg, hparse, harrive⟩ := h
  rw [jdbcDSN, parseDSN_jdbc] at hparse
  obtain ⟨u, cfg', hu, hgo, hvalid⟩ := hparse
  rw [parse_jdbcDSN hhost hdb hkeys hvals] at hu
  obtain ⟨p, f, hp, -, rfl⟩ := hu
  -- the slash and the database name stay ahead of whatever becomes of the settings
  have hhash : hashByte ∉ slashByte :: db := db_bytes hdb (by decide) (by decide)
  have hquestion : questionByte ∉ slashByte :: db := db_bytes hdb (by decide) (by decide)
  have hliteral : ∀ b ∈ slashByte :: db, NetURL.literal .path b := by
    intro b hb
    rcases List.mem_cons.mp hb with rfl | hb
    . decide
    . exact literal_of_wordByte (hdb b hb) _
  have hplain := segment_of_word hdb
  rw [cut_append hhash, cut_append hquestion, NetURL.unescape_append hliteral, map_eq_ok] at hp
  obtain ⟨q, hq, rfl⟩ := hp
  have htail := segmentsLength_tail hplain q
  have hread : paramsLength cfg'.params
      ≤ 0 + segmentsLength (splitSettingSegments (slashByte :: db ++ q)).tail :=
    paramsLength_parseJDBC_go hgo
  have hall : paramsLength settings ≤ paramsLength cfg'.params := by
    apply paramsLength_le hnodup
    intro kv hkv
    rw [← eq_of_validate hvalid]
    exact mem_of_get? (harrive kv hkv).1
  exact ⟨q, hq, by omega⟩

include hhost hdb hkeys hnodup hvals in
/--
Every iteration of the splitter is needed for the settings to come out whole, so the URL parser has
found nothing to cut off or to decode.
-/
theorem no_special_of_arrive {o o' : MapOrder}
    (h : SettingsArrive σ o o' (jdbcDSN host (decimal port) db settings) settings)
    : hashByte ∉ settings.flatMap settingText ∧ questionByte ∉ settings.flatMap settingText ∧
      percentByte ∉ settings.flatMap settingText := by
  obtain ⟨q, hq, hfit⟩ := settings_fit hhost hdb hkeys hnodup hvals h
  have hsteps := segmentSteps_settings (known_plain hkeys)
  have hwell := wellEscaped_settings (known_plain hkeys)
  have hcut := hwell.cut (show hashByte ≠ backslashByte ∧ hashByte ≠ semicolonByte by decide)
  have hcut' := hcut.1.cut (show questionByte ≠ backslashByte ∧ questionByte ≠ semicolonByte by decide)
  have hdecode := hcut'.1.unescape hq
  have h1 : hashByte ∉ settings.flatMap settingText := by
    intro hmem
    have := hcut.2.2 hmem
    omega
  simp only [cut_of_not_mem h1] at hcut' hdecode
  have h2 : questionByte ∉ settings.flatMap settingText := by
    intro hmem
    have := hcut'.2.2 hmem
    omega
  simp only [cut_of_not_mem h2] at hdecode
  have h3 : percentByte ∉ settings.flatMap settingText := by
    intro hmem
    have := hdecode.2 hmem
    omega
  exact ⟨h1, h2, h3⟩

omit [UnicodeTables] [Sha256] in
include hhost hdb hkeys hvals in
theorem parse_jdbcDSN_verbatim
    (h : hashByte ∉ settings.flatMap settingText ∧ questionByte ∉ settings.flatMap settingText ∧
      percentByte ∉ settings.flatMap settingText)
    : ∃ u, NetURL.parse (ascii "tcp://" ++ (host ++ colonByte :: decimal port
          ++ (slashByte :: db ++ settings.flatMap settingText))) = .ok u ∧
        u.host = host ++ colonByte :: decimal port ∧
        u.path = slashByte :: db ++ settings.flatMap settingText := by
  have hhash : hashByte ∉ slashByte :: db ++ settings.flatMap settingText := by
    rw [List.mem_append, not_or]
    exact ⟨db_bytes hdb (by decide) (by decide), h.1⟩
  have hquestion : questionByte ∉ slashByte :: db ++ settings.flatMap settingText := by
    rw [List.mem_append, not_or]
    exact ⟨db_bytes hdb (by decide) (by decide), h.2.1⟩
  have hliteral : ∀ b ∈ slashByte :: db ++ settings.flatMap settingText, NetURL.literal .path b := by
    intro b hb
    have hne : b ≠ percentByte := by
      rintro rfl
      rcases List.mem_append.mp hb with hb | hb
      . exact db_bytes hdb (by decide) (by decide) hb
      . exact h.2.2 hb
    simp [NetURL.literal, hne]
  refine ⟨_, (parse_jdbcDSN hhost hdb hkeys hvals).mpr ⟨_, [], ?_, ?_, rfl⟩, rfl, rfl⟩
  . rw [cut_of_not_mem hhash, cut_of_not_mem hquestion]
    exact NetURL.unescape_of_literal hliteral
  . rw [cut_of_not_mem hhash]
    rfl

omit [Sha256] in
include hhost hport hdb hkeys hnodup hvals in
theorem parseDSN_verbatim (o : MapOrder)
    (h : hashByte ∉ settings.flatMap settingText ∧ questionByte ∉ settings.flatMap settingText ∧
      percentByte ∉ settings.flatMap settingText)
    : ∃ cfg cfg' : ParsedDSN, parseDSN o (jdbcDSN host (decimal port) db settings) = .ok cfg' ∧
      cfg.params = [] ∧ cfg.Extends cfg' settings := by
  obtain ⟨u, hu, huhost, hupath⟩ := parse_jdbcDSN_verbatim hhost hdb hkeys hvals h
  have hplain := segment_of_word hdb
  have hsegs : splitSettingSegments u.path
      = (slashByte :: db) :: settings.map (fun kv => kv.1 ++ equalsByte :: kv.2) := by
    rw [hupath, splitSettingSegments_eq, splitSettingSegments.go_append hplain,
      go_settings (known_plain hkeys)]
    rfl
  have hword : ∀ b ∈ decimal port, wordByte b := by
    intro b hb
    simp [wordByte, NetURL.isAlnum, isDecimal_of_mem_decimal hb]
  have haddress : NetURL.splitHostPort u.host = (host, decimal port) := by
    rw [huhost]
    exact splitHostPort_address hhost.2 hword (by
      rw [List.all_eq_true]
      exact fun b hb => isDecimal_of_mem_decimal hb)
  generalize hbase : jdbcBase (jdbcDSN host (decimal port) db settings) u = base
  have hbase' : base.params = [] ∧ base.host = host ∧ base.port = decimal port := by
    simp [← hbase, jdbcBase, ParsedDSN.setAddress, NetURL.URL.hostname, NetURL.URL.port, haddress,
      decimal_ne_nil, ParsedDSN.empty]
  obtain ⟨cfg, hgo, hext⟩ := parseJDBC_go_known hkeys hnodup base (by simp [hbase'.1])
  refine ⟨base, cfg, ?_, hbase'.1, hext⟩
  rw [jdbcDSN] at hbase ⊢
  refine parseDSN_jdbc.mpr ⟨u, cfg, hu, ?_, ?_⟩
  . rw [hbase, hsegs]
    exact hgo
  . refine validate_known o ?_ (by rw [hext.port, hbase'.2.2]) hport ?_
    . rw [hext.host, hbase'.2.1]
      exact hhost.1
    . intro kv hkv
      rw [hext.params, hbase'.1, List.nil_append] at hkv
      exact hkeys kv hkv

include hhost hport hdb hkeys hnodup hvals in
theorem arrive_of_no_special (o o' : MapOrder)
    (h : hashByte ∉ settings.flatMap settingText ∧ questionByte ∉ settings.flatMap settingText ∧
      percentByte ∉ settings.flatMap settingText)
    : SettingsArrive σ o o' (jdbcDSN host (decimal port) db settings) settings := by
  obtain ⟨base, cfg, hparse, hbase, hext⟩ := parseDSN_verbatim hhost hport hdb hkeys hnodup hvals o h
  have hparams : cfg.params = settings := by
    rw [hext.params, hbase, List.nil_append]
  refine ⟨cfg, hparse, fun kv hkv => ⟨?_, ?_, ?_, ?_⟩⟩
  . rw [hparams]
    exact get?_of_mem hnodup hkv
  . intro hkey
    exact hext.user kv.2 (hkey ▸ hkv)
  . intro hkey
    exact hext.password kv.2 (hkey ▸ hkv)
  . intro hfwd
    refine ⟨sessionPropertyMap o' cfg.params, ?_, fun t t' hrun => ?_⟩
    . exact mem_sessionPropertyMap o' (hparams ▸ hkv) (hkeys kv hkv) hfwd
    . exact (Tr.writes_sendCredentials o' cfg).written_of_ok hrun

/--
Printable settings reach the server verbatim exactly when the URL parser has nothing to do with them:
no value contains a hash sign, a question mark or a percent sign.
-/
theorem jdbcSettings_verbatim_iff (o o' : MapOrder) (host db : GoString) (port : Nat)
    (settings : Params) (hhost : host ≠ [] ∧ ∀ b ∈ host, wordByte b)
    (hport : 1 ≤ port ∧ port ≤ 65535) (hdb : ∀ b ∈ db, wordByte b)
    (hkeys : ∀ kv ∈ settings, kv.1 ∈ knownSettings) (hnodup : (settings.map Prod.fst).Nodup)
    (hvals : ∀ kv ∈ settings, ∀ b ∈ kv.2, 0x20 ≤ b.toNat ∧ b.toNat ≤ 0x7E)
    : SettingsArrive σ o o' (jdbcDSN host (decimal port) db settings) settings ↔
      ∀ kv ∈ settings, ∀ b ∈ kv.2, b ≠ hashByte ∧ b ≠ questionByte ∧ b ≠ percentByte := by
  have hspecial : (hashByte ∉ settings.flatMap settingText ∧
      questionByte ∉ settings.flatMap settingText ∧ percentByte ∉ settings.flatMap settingText) ↔
      ∀ kv ∈ settings, ∀ b ∈ kv.2, b ≠ hashByte ∧ b ≠ questionByte ∧ b ≠ percentByte := by
    rw [mem_settings_iff hkeys (.inl rfl), mem_settings_iff hkeys (.inr (.inl rfl)),
      mem_settings_iff hkeys (.inr (.inr rfl))]
    constructor
    . rintro ⟨h1, h2, h3⟩ kv hkv b hb
      refine ⟨?_, ?_, ?_⟩
      . rintro rfl
        exact h1 ⟨kv, hkv, hb⟩
      . rintro rfl
        exact h2 ⟨kv, hkv, hb⟩
      . rintro rfl
        exact h3 ⟨kv, hkv, hb⟩
    . intro h
      refine ⟨?_, ?_, ?_⟩
      . rintro ⟨kv, hkv, hb⟩
        exact (h kv hkv _ hb).1 rfl
      . rintro ⟨kv, hkv, hb⟩
        exact (h kv hkv _ hb).2.1 rfl
      . rintro ⟨kv, hkv, hb⟩
        exact (h kv hkv _ hb).2.2 rfl
  rw [← hspecial]
  constructor
  . exact no_special_of_arrive hhost hdb hkeys hnodup hvals
  . exact arrive_of_no_special hhost hport hdb hkeys hnodup hvals o o'

end Main

namespace StandIn

/--
Stand-ins to evaluate the model with.
-/
scoped instance : UnicodeTables where
  upper r := r
  fold r := r

scoped instance : Sha256 where
  sum256 _ := []

end StandIn

section

open StandIn

theorem jdbcSettings_verbatim_escaped
    : SettingsArrive Silent .inserted .inserted
        (jdbcDSN (ascii "db.local") (decimal 9092) (ascii "h2-go")
          [(ascii "PASSWORD", ascii "a\\b;c"), (ascii "INIT", ascii "SET X=1;SET Y=2")])
        [(ascii "PASSWORD", ascii "a\\b;c"), (ascii "INIT", ascii "SET X=1;SET Y=2")] :=
  (jdbcSettings_verbatim_iff .inserted .inserted (ascii "db.local") (ascii "h2-go") 9092
    [(ascii "PASSWORD", ascii "a\\b;c"), (ascii "INIT", ascii "SET X=1;SET Y=2")] (by decide +kernel)
    (by decide) (by decide +kernel) (by decide) (by decide) (by decide +kernel)).mpr (by decide +kernel)

def passwordTakenFor (v w : GoString) : Bool :=
  match parseDSN .inserted
      (jdbcDSN (ascii "db.local") (decimal 9092) (ascii "h2-go") [(ascii "PASSWORD", v)]) with
  | .ok cfg => cfg.password = w ∧ Params.get? cfg.params (ascii "PASSWORD") = some w
  | .error _ => false

theorem jdbcPassword_cut
    : passwordTakenFor (ascii "a#b") (ascii "a") = true ∧
      passwordTakenFor (ascii "a?b") (ascii "a") = true ∧
      passwordTakenFor (ascii "%61") (ascii "a") = true := by
  decide +kernel

end

end H2Go
