import H2Go.DSN.Order

/-!
This module contains the comparison of the two forms of a DSN.
-/

namespace H2Go

open Digits Strings Utf8 ExceptLemmas

section Text

def plainSetting (kv : GoString × GoString) : GoString := kv.1 ++ equalsByte :: kv.2

def segmentText (settings : Params) : GoString :=
  settings.flatMap (fun kv => semicolonByte :: plainSetting kv)

def queryText (settings : Params) : GoString :=
  match settings with
  | [] => []
  | kv :: settings =>
    plainSetting kv ++ settings.flatMap (fun kv => ampersandByte :: plainSetting kv)

def location (host port db : GoString) : GoString := host ++ colonByte :: port ++ slashByte :: db

def jdbcForm (host port db : GoString) (settings : Params) : GoString :=
  ascii "jdbc:h2:tcp://" ++ (location host port db ++ segmentText settings)

def nativeForm (host port db : GoString) (settings : Params) : GoString :=
  ascii "h2://" ++ (location host port db ++ questionByte :: queryText settings)

def WordSettings (settings : Params) : Prop :=
  ∀ kv ∈ settings, (∀ b ∈ kv.1, wordByte b) ∧ ∀ b ∈ kv.2, wordByte b

theorem WordSettings.tail {kv : GoString × GoString} {settings : Params}
    (h : WordSettings (kv :: settings))
    : WordSettings settings :=
  fun kv hkv => h kv (by simp [hkv])

theorem mem_plainSetting {kv : GoString × GoString}
    (h : (∀ b ∈ kv.1, wordByte b) ∧ ∀ b ∈ kv.2, wordByte b) {b : UInt8} (hb : b ∈ plainSetting kv)
    : wordByte b ∨ b = equalsByte := by
  rw [plainSetting, List.mem_append, List.mem_cons] at hb
  rcases hb with hb | hb | hb
  . exact .inl (h.1 b hb)
  . exact .inr hb
  . exact .inl (h.2 b hb)

theorem mem_segmentText {settings : Params} (h : WordSettings settings) {b : UInt8}
    (hb : b ∈ segmentText settings)
    : wordByte b ∨ b = equalsByte ∨ b = semicolonByte := by
  rw [segmentText, List.mem_flatMap] at hb
  obtain ⟨kv, hkv, hb⟩ := hb
  rcases List.mem_cons.mp hb with rfl | hb
  . exact .inr (.inr rfl)
  . rcases mem_plainSetting (h kv hkv) hb with h | h
    . exact .inl h
    . exact .inr (.inl h)

theorem mem_queryText {settings : Params} (h : WordSettings settings) {b : UInt8}
    (hb : b ∈ queryText settings)
    : wordByte b ∨ b = equalsByte ∨ b = ampersandByte := by
  cases settings with
  | nil => simp [queryText] at hb
  | cons kv settings =>
    rw [queryText, List.mem_append, List.mem_flatMap] at hb
    rcases hb with hb | ⟨kv', hkv', hb⟩
    . rcases mem_plainSetting (h kv (by simp)) hb with h | h
      . exact .inl h
      . exact .inr (.inl h)
    . rcases List.mem_cons.mp hb with rfl | hb
      . exact .inr (.inr rfl)
      . rcases mem_plainSetting (h kv' (by simp [hkv'])) hb with h | h
        . exact .inl h
        . exact .inr (.inl h)

theorem plainSetting_bytes {kv : GoString × GoString}
    (h : (∀ b ∈ kv.1, wordByte b) ∧ ∀ b ∈ kv.2, wordByte b)
    : ∀ c ∈ plainSetting kv, c ≠ backslashByte ∧ c ≠ semicolonByte := by
  intro c hc
  rcases mem_plainSetting h hc with h | rfl
  . exact ⟨wordByte_ne h (by decide), wordByte_ne h (by decide)⟩
  . decide

theorem segmentText_cons (kv : GoString × GoString) (settings : Params)
    : segmentText (kv :: settings) = semicolonByte :: (plainSetting kv ++ segmentText settings) := rfl

theorem go_segmentText {settings : Params} (h : WordSettings settings) (segs : List GoString)
    (b : GoString)
    : splitSettingSegments.go segs b (segmentText settings) = segs ++ b :: settings.map plainSetting := by
  induction settings generalizing segs b with
  | nil => simp [segmentText, splitSettingSegments.go]
  | cons kv settings ih =>
    rw [segmentText_cons, splitSettingSegments.go_separator,
      splitSettingSegments.go_append (plainSetting_bytes (h kv (by simp))), ih h.tail]
    simp

theorem splitSettingSegments_segmentText {settings : Params} (h : WordSettings settings)
    {path : GoString} (hpath : consumed path path.length = false)
    : splitSettingSegments (path ++ segmentText settings)
      = splitSettingSegments path ++ settings.map plainSetting := by
  rw [splitSettingSegments_eq, splitSettingSegments_eq]
  cases settings with
  | nil => rw [segmentText, List.flatMap_nil, List.append_nil, List.map_nil, List.append_nil]
  | cons kv settings =>
    rw [segmentText_cons, splitSettingSegments.go_append_separator _ _ hpath,
      splitSettingSegments.go_append (plainSetting_bytes (h kv (by simp))), go_segmentText h.tail]
    rfl

theorem querySettings_append {a : GoString} (h : ampersandByte ∉ a) (rest : GoString)
    : NetURL.querySettings (a ++ ampersandByte :: rest) = a :: NetURL.querySettings rest := by
  induction a with
  | nil => rw [List.nil_append, NetURL.querySettings, if_pos rfl]
  | cons b a ih =>
    simp only [List.mem_cons, not_or] at h
    rw [List.cons_append, NetURL.querySettings, if_neg (Ne.symm h.1), ih h.2]

theorem querySettings_of_not_mem {a : GoString} (h : ampersandByte ∉ a)
    : NetURL.querySettings a = [a] := by
  induction a with
  | nil => rfl
  | cons b a ih =>
    simp only [List.mem_cons, not_or] at h
    rw [NetURL.querySettings, if_neg (Ne.symm h.1), ih h.2]

theorem querySettings_queryText {kv : GoString × GoString} {settings : Params}
    (h : WordSettings (kv :: settings))
    : NetURL.querySettings (queryText (kv :: settings)) = (kv :: settings).map plainSetting := by
  have hamp : ∀ {kv : GoString × GoString}, (∀ b ∈ kv.1, wordByte b) ∧ (∀ b ∈ kv.2, wordByte b) →
      ampersandByte ∉ plainSetting kv := by
    intro kv hkv hmem
    rcases mem_plainSetting hkv hmem with h | h
    . exact absurd h (by decide)
    . exact absurd h (by decide)
  induction settings generalizing kv with
  | nil =>
    have htext : queryText [kv] = plainSetting kv := by simp [queryText]
    rw [htext, querySettings_of_not_mem (hamp (h kv (by simp)))]
    rfl
  | cons kv' settings ih =>
    have htext : queryText (kv :: kv' :: settings)
        = plainSetting kv ++ ampersandByte :: queryText (kv' :: settings) := rfl
    rw [htext, querySettings_append (hamp (h kv (by simp))), ih h.tail]
    rfl

theorem addSetting_plainSetting {kv : GoString × GoString}
    (h : (∀ b ∈ kv.1, wordByte b) ∧ ∀ b ∈ kv.2, wordByte b) (q : NetURL.Values)
    : NetURL.addSetting q (plainSetting kv) = q.add kv.1 kv.2 := by
  have hsemi : semicolonByte ∉ plainSetting kv := by
    intro hmem
    rcases mem_plainSetting h hmem with h | h
    . exact absurd h (by decide)
    . exact absurd h (by decide)
  have hequals : equalsByte ∉ kv.1 := fun hmem => absurd (h.1 _ hmem) (by decide)
  unfold NetURL.addSetting
  have hne : plainSetting kv ≠ [] := by simp [plainSetting]
  rw [if_neg (not_or.mpr ⟨hsemi, hne⟩), plainSetting, cut_append_cons hequals]
  simp only [Option.getD_some]
  rw [NetURL.unescape_of_literal (fun b hb => literal_of_wordByte (h.1 b hb) _),
    NetURL.unescape_of_literal (fun b hb => literal_of_wordByte (h.2 b hb) _)]

theorem query_queryText {settings : Params} (h : WordSettings settings) {u : NetURL.URL}
    (hu : u.rawQuery = queryText settings)
    : u.query = queryOf settings := by
  unfold NetURL.URL.query queryOf
  rw [hu]
  cases settings with
  | nil => rfl
  | cons kv settings =>
    rw [querySettings_queryText h, List.foldl_map]
    apply List.foldl_ext
    intro q kv' hkv'
    exact addSetting_plainSetting (h kv' hkv') q

end Text

section Read

/--
The location is accepted and leads to `u`.
-/
def Located (host port db : GoString) (u : NetURL.URL) : Prop :=
  NetURL.parse (ascii "h2://" ++ location host port db) = .ok u ∧ ValidURL u

def jdbcReads (host port db : GoString) (settings : Params) (u : NetURL.URL) : Option Params :=
  readSettings
    (splitSettingSegments (u.extend (location host port db) (segmentText settings)).path).tail

def nativeReads (host port db : GoString) (settings : Params) (u : NetURL.URL) : NetURL.Values :=
  (u.extend (location host port db) (questionByte :: queryText settings)).query

theorem appendable_of_words {tail : GoString}
    (h : ∀ b ∈ tail, wordByte b ∨ b = equalsByte ∨ b = semicolonByte ∨ b = ampersandByte ∨ b = questionByte)
    (hhead : ∀ b ∈ tail.head?, digitValue b = none)
    : NetURL.Appendable tail where
  printable b hb := by
    rcases h b hb with h | rfl | rfl | rfl | rfl
    . exact wordByte_range h
    all_goals decide
  no_fragment hb := by
    rcases h _ hb with h | h
    . exact absurd h (by decide)
    . exact absurd h (by decide)
  no_escape hb := by
    rcases h _ hb with h | h
    . exact absurd h (by decide)
    . exact absurd h (by decide)
  no_digit := hhead

theorem slash_mem_location (host port db : GoString) : slashByte ∈ location host port db := by
  simp [location]

theorem validURL_extend {u : NetURL.URL} {text tail : GoString} : ValidURL (u.extend text tail) ↔ ValidURL u := by
  unfold NetURL.URL.extend
  split
  . exact Iff.rfl
  . split <;> exact Iff.rfl

theorem user_extend {u : NetURL.URL} {text tail : GoString} : (u.extend text tail).user = u.user := by
  unfold NetURL.URL.extend
  split
  . rfl
  . split <;> rfl

theorem Located.unique {host port db : GoString} {u u' : NetURL.URL} (h : Located host port db u)
    (h' : Located host port db u')
    : u' = u := by
  have heq := h'.1.symm.trans h.1
  cases heq
  rfl

section

variable {host port db : GoString} {settings : Params} (hsettings : WordSettings settings)

include hsettings

theorem appendable_segmentText : NetURL.Appendable (segmentText settings) := by
  refine appendable_of_words (fun b hb => ?_) ?_
  . rcases mem_segmentText hsettings hb with h | h | h
    . exact .inl h
    . exact .inr (.inl h)
    . exact .inr (.inr (.inl h))
  . cases settings with
    | nil => simp [segmentText]
    | cons kv settings =>
      intro b hb
      cases hb
      decide

theorem appendable_queryText : NetURL.Appendable (questionByte :: queryText settings) := by
  refine appendable_of_words (fun b hb => ?_) (by simp [digitValue, questionByte])
  rcases List.mem_cons.mp hb with h | hb
  . exact .inr (.inr (.inr (.inr h)))
  . rcases mem_queryText hsettings hb with h | h | h
    . exact .inl h
    . exact .inr (.inl h)
    . exact .inr (.inr (.inr (.inl h)))

theorem jdbcSettings_jdbcForm {j : Params}
    : JDBCSettings (jdbcForm host port db settings) j ↔
      ∃ u, Located host port db u ∧ jdbcReads host port db settings u = some j := by
  have hinner : trimPrefix (ascii "jdbc:h2:") (jdbcForm host port db settings)
      = ascii "tcp" ++ ascii "://" ++ (location host port db ++ segmentText settings) := rfl
  unfold JDBCSettings
  rw [hinner]
  simp only [NetURL.parse_append scheme_tcp scheme_h2 (slash_mem_location host port db)
    (appendable_segmentText hsettings)]
  constructor
  . rintro ⟨-, -, _, ⟨u, hu, rfl⟩, hvalid, hread⟩
    exact ⟨u, ⟨hu, validURL_extend.mp hvalid⟩, hread⟩
  . rintro ⟨u, ⟨hu, hvalid⟩, hread⟩
    exact ⟨rfl, .inl rfl, _, ⟨u, hu, rfl⟩, validURL_extend.mpr hvalid, hread⟩

theorem parse_nativeForm {v : NetURL.URL}
    : NetURL.parse (nativeForm host port db settings) = .ok v ↔
      ∃ u, NetURL.parse (ascii "h2://" ++ location host port db) = .ok u ∧
        v = u.extend (location host port db) (questionByte :: queryText settings) :=
  NetURL.parse_append scheme_h2 scheme_h2 (slash_mem_location host port db)
    (appendable_queryText hsettings)

theorem nativeQuery_nativeForm {q : NetURL.Values}
    : NativeQuery (nativeForm host port db settings) q ↔
      ∃ u, Located host port db u ∧ q = nativeReads host port db settings u := by
  unfold NativeQuery
  simp only [parse_nativeForm hsettings]
  constructor
  . rintro ⟨-, _, ⟨u, hu, rfl⟩, hvalid, hread⟩
    exact ⟨u, ⟨hu, validURL_extend.mp hvalid⟩, hread⟩
  . rintro ⟨u, ⟨hu, hvalid⟩, hread⟩
    exact ⟨rfl, _, ⟨u, hu, rfl⟩, validURL_extend.mpr hvalid, hread⟩

end

/--
A location without settings of its own, which leaves the text behind it alone: it has neither a query nor
a fragment, and its path is a single segment that does not end within an escape.
-/
structure PlainLocation (text : GoString) (u : NetURL.URL) : Prop where
  no_query : questionByte ∉ text
  no_fragment : hashByte ∉ text
  one_segment : separators u.path = 0
  complete : consumed u.path u.path.length = false

theorem readSettings_map_plainSetting {settings : Params} (h : WordSettings settings)
    : readSettings (settings.map plainSetting) = some settings := by
  induction settings with
  | nil => rfl
  | cons kv settings ih =>
    have hequals : equalsByte ∉ kv.1 := fun hmem => absurd ((h kv (by simp)).1 _ hmem) (by decide)
    rw [List.map_cons, readSettings, if_neg (by simp [plainSetting]), plainSetting,
      cut_append_cons hequals]
    simp [ih h.tail]

namespace PlainLocation

variable {host port db : GoString} {settings : Params} {u : NetURL.URL}
  (h : PlainLocation (location host port db) u) (hsettings : WordSettings settings)

include h hsettings

theorem jdbcReads : jdbcReads host port db settings u = some settings := by
  have hquestion : questionByte ∉ segmentText settings := by
    intro hmem
    rcases mem_segmentText hsettings hmem with h | h
    . exact absurd h (by decide)
    . exact absurd h (by decide)
  have hpath : (u.extend (location host port db) (segmentText settings)).path
      = u.path ++ segmentText settings := by
    rw [NetURL.URL.extend, if_neg h.no_fragment, if_neg h.no_query, cut_of_not_mem hquestion]
  obtain ⟨name, hname⟩ : ∃ name, splitSettingSegments u.path = [name] := by
    have hlen := (splitSettingSegments_spec.2 u.path).1
    rw [h.one_segment] at hlen
    exact List.length_eq_one_iff.mp hlen
  rw [H2Go.jdbcReads, hpath, splitSettingSegments_segmentText hsettings h.complete, hname]
  exact readSettings_map_plainSetting hsettings

theorem nativeReads : nativeReads host port db settings u = queryOf settings := by
  apply query_queryText hsettings
  rw [NetURL.URL.extend, if_neg h.no_fragment, if_neg h.no_query, cut_cons]
  rfl

end PlainLocation

theorem asciiKeys_of_words {settings : Params} (h : WordSettings settings) : ASCIIKeys settings := by
  intro kv hkv
  rw [isASCII, List.all_eq_true]
  intro b hb
  have := wordByte_lt ((h kv hkv).1 b hb)
  exact decide_eq_true (by omega)

end Read

section Credentials

variable [UnicodeTables]

/--
The settings say `w` for the credential, which is empty if they do not mention it.
-/
def Gives (settings : Params) (name w : GoString) : Prop :=
  (∀ kv ∈ settings, equalFold kv.1 name = true → kv.2 = w) ∧
    ((∀ kv ∈ settings, equalFold kv.1 name = false) → w = [])

theorem Gives.eq {settings : Params} {name w w' : GoString} (h : Gives settings name w)
    (h' : Gives settings name w')
    : w = w' := by
  by_cases hnone : ∀ kv ∈ settings, equalFold kv.1 name = false
  . rw [h.2 hnone, h'.2 hnone]
  . simp only [not_forall, Bool.not_eq_false] at hnone
    obtain ⟨kv, hkv, hname⟩ := hnone
    rw [← h.1 kv hkv hname, h'.1 kv hkv hname]

theorem setCredential_user (cfg : ParsedDSN) (key val : GoString)
    : (cfg.setCredential key val).user = if equalFold key (ascii "USER") then val else cfg.user := by
  unfold ParsedDSN.setCredential
  split
  . rfl
  . split <;> rfl

theorem setCredential_password (cfg : ParsedDSN) (key val : GoString)
    : (cfg.setCredential key val).password
      = if equalFold key (ascii "PASSWORD") then val else cfg.password := by
  unfold ParsedDSN.setCredential
  split
  . next huser =>
    rw [if_neg]
    intro hpassword
    have hlike := equalFold_trans (equalFold_symm huser) hpassword
    rw [equalFold_known (by decide) (by decide)] at hlike
    exact absurd hlike (by decide)
  . split <;> rfl

theorem setCredentials_cases {field : ParsedDSN → GoString} {name : GoString}
    (hstep : ∀ (cfg : ParsedDSN) (key val : GoString), field (cfg.setCredential key val)
      = if equalFold key name then val else field cfg) (cfg : ParsedDSN) (settings : Params)
    : ((∀ kv ∈ settings, equalFold kv.1 name = false) ∧
          field (setCredentials cfg settings) = field cfg) ∨
      ∃ kv ∈ settings, equalFold kv.1 name = true ∧ field (setCredentials cfg settings) = kv.2 := by
  induction settings generalizing cfg with
  | nil => exact .inl ⟨by simp, rfl⟩
  | cons kv settings ih =>
    have hkv := hstep cfg kv.1 kv.2
    rcases ih (cfg.setCredential kv.1 kv.2) with ⟨hnone, hfield⟩ | ⟨kv', hmem, hname, hfield⟩
    . cases hname : equalFold kv.1 name with
      | true =>
        rw [if_pos hname] at hkv
        exact .inr ⟨kv, by simp, hname, hfield.trans hkv⟩
      | false =>
        rw [if_neg (by simp [hname])] at hkv
        exact .inl ⟨List.forall_mem_cons.mpr ⟨hname, hnone⟩, hfield.trans hkv⟩
    . exact .inr ⟨kv', by simp [hmem], hname, hfield⟩

theorem gives_setCredentials {field : ParsedDSN → GoString} {name : GoString}
    (hstep : ∀ (cfg : ParsedDSN) (key val : GoString), field (cfg.setCredential key val)
      = if equalFold key name then val else field cfg) {cfg : ParsedDSN} (hempty : field cfg = [])
    {settings : Params} (hclash : Unclashed settings)
    : Gives settings name (field (setCredentials cfg settings)) := by
  rcases setCredentials_cases hstep cfg settings with ⟨hnone, hfield⟩ | ⟨kv, hmem, hname, hfield⟩
  . rw [hfield, hempty]
    exact ⟨fun kv hkv hname => by simp [hnone kv hkv] at hname, fun _ => rfl⟩
  . rw [hfield]
    refine ⟨fun kv' hkv' hname' => ?_, fun hnone => by simp [hnone kv hmem] at hname⟩
    exact hclash kv' hkv' kv hmem (equalFold_trans hname' (equalFold_symm hname))

theorem gives_of_jdbc {o : MapOrder} {input : GoString} {cfg : ParsedDSN} {settings : Params}
    (hcfg : parseDSN o input = .ok cfg) (h : JDBCSettings input settings)
    : Gives settings (ascii "USER") cfg.user ∧ Gives settings (ascii "PASSWORD") cfg.password := by
  obtain ⟨hscheme, -, u, hu, -, hread⟩ := h
  rw [parseDSN_eq_parseJDBC hscheme] at hcfg
  obtain ⟨-, u', cfg', base, hu', hbase, hgo, hvalid⟩ := parseJDBC_eq_ok_iff.mp hcfg
  rw [hu] at hu'
  cases hu'
  obtain ⟨settings', p, hread', hset, rfl⟩ := (parseJDBC_go_eq_ok_iff _ _ _).mp hgo
  rw [hread] at hread'
  cases hread'
  rw [show base.params = [] by rw [hbase]; rfl] at hset
  obtain ⟨hclash, -⟩ := setAll_nil_eq_ok_iff.mp hset
  obtain ⟨-, -, rfl⟩ := validate_eq_ok_iff.mp hvalid
  exact ⟨gives_setCredentials setCredential_user (by rw [hbase]; rfl) hclash,
    gives_setCredentials setCredential_password (by rw [hbase]; rfl) hclash⟩

def username (u : NetURL.URL) : GoString := (u.user.map (·.username)).getD []

def userPassword (u : NetURL.URL) : GoString := (u.user.bind (·.password)).getD []

theorem credentials_of_native {o : MapOrder} {input : GoString} {cfg : ParsedDSN} {u : NetURL.URL}
    (hcfg : parseDSN o input = .ok cfg) (hscheme : nativeScheme input) (hu : NetURL.parse input = .ok u)
    : cfg.user = username u ∧ cfg.password = userPassword u := by
  rw [parseDSN_eq_parseNative hscheme] at hcfg
  obtain ⟨u', p, hu', -, hvalid⟩ := parseNative_eq_ok_iff.mp hcfg
  rw [hu] at hu'
  cases hu'
  obtain ⟨-, -, rfl⟩ := validate_eq_ok_iff.mp hvalid
  unfold nativeBase ParsedDSN.setUserinfo username userPassword
  cases u.user <;> exact ⟨rfl, rfl⟩

end Credentials

section Outcome

variable [UnicodeTables]

/--
The settings are refused, whatever order maps are visited in.
-/
def Refused (settings spellings : Params) : Prop :=
  Unclashed settings → ∀ kept, Spelling spellings kept → ¬ ValidSettings (upperKeys kept)

/--
The settings are accepted, whatever order maps are visited in.
-/
def Accepted (settings spellings : Params) : Prop := Unclashed settings ∧ AllPass spellings

theorem Reads.refused_iff {input : GoString} {settings spellings : Params}
    (h : Reads input settings spellings)
    : Refused settings spellings ↔ ∀ o cfg, parseDSN o input ≠ .ok cfg := by
  constructor
  . intro hrefused o cfg hcfg
    obtain ⟨settings', spellings', h', hkept, hclash, hpasses⟩ := of_parseDSN hcfg
    obtain ⟨rfl, rfl⟩ := h.eq h'
    exact hrefused hclash _ hkept ((validSettings_iff_exists_perm _).mpr ⟨_, o.perm _, hpasses⟩)
  . intro hnone hclash kept hkept hvalid
    obtain ⟨o, cfg, hcfg⟩ := (h.accepted_iff hclash).mpr ⟨kept, hkept, hvalid⟩
    exact hnone o cfg hcfg

theorem Reads.forall_accepted_iff {input : GoString} {settings spellings : Params}
    (h : Reads input settings spellings)
    : Accepted settings spellings ↔ ∀ o, ∃ cfg, parseDSN o input = .ok cfg := by
  constructor
  . intro haccepted
    exact h.accepted haccepted.1 ((allPass_iff _).mp haccepted.2)
  . intro hall
    have hclash : Unclashed settings := by
      obtain ⟨cfg, hcfg⟩ := hall .inserted
      obtain ⟨settings', spellings', h', -, hclash, -⟩ := of_parseDSN hcfg
      obtain ⟨rfl, rfl⟩ := h.eq h'
      exact hclash
    refine ⟨hclash, (allPass_iff _).mpr fun kept hkept => (alwaysPasses_iff kept).mpr ?_⟩
    intro visited hperm
    obtain ⟨o, hpasses, -⟩ := h.exists_order hclash hkept hperm
    obtain ⟨cfg, hcfg⟩ := hall o
    exact hpasses cfg hcfg

theorem Reads.spelling {input : GoString} {settings spellings kept : Params}
    (h : Reads input settings spellings) (hkept : Spelling spellings kept)
    : Spelling settings kept := by
  cases h with
  | jdbc =>
    have hfirst := spelling_firstSpellings settings
    exact hfirst.perm (.refl _) (hkept.perm_of_unlike hfirst.unlike)
  | native => exact hkept

theorem SameCase.mono {settings spellings : Params} (h : SameCase settings)
    (hmem : ∀ x ∈ spellings, x ∈ settings)
    : SameCase spellings :=
  fun x hx y hy => h x (hmem x hx) y (hmem y hy)

theorem mem_upperKeys_of_spelling {settings kept : Params} (hcase : SameCase settings)
    (hclash : Unclashed settings) (hkept : Spelling settings kept) (x : GoString × GoString)
    : x ∈ upperKeys kept ↔ x ∈ upperKeys settings := by
  rw [mem_upperKeys, mem_upperKeys]
  constructor
  . rintro ⟨kv, hkv, rfl⟩
    exact ⟨kv, hkept.mem kv hkv, rfl⟩
  . rintro ⟨kv, hkv, rfl⟩
    obtain ⟨y, hy, hlike⟩ := hkept.covers kv hkv
    have hy' := hkept.mem y hy
    exact ⟨y, hy, by rw [(hcase y hy' kv hkv).mp hlike, hclash y hy' kv hkv hlike]⟩

theorem nodup_upperKeys_of_spelling {settings kept : Params} (hcase : SameCase settings)
    (hkept : Spelling settings kept)
    : (upperKeys kept).Nodup := by
  refine List.Nodup.map_on ?_ hkept.unlike.of_map
  intro x hx y hy heq
  exact hkept.unlike.eq_of_like hx hy
    ((hcase x (hkept.mem x hx) y (hkept.mem y hy)).mpr (Prod.mk.inj heq).1)

theorem validSettings_congr {s t : Params} (h : ∀ x, x ∈ s ↔ x ∈ t)
    : ValidSettings s ↔ ValidSettings t := by
  unfold ValidSettings
  simp only [h]

theorem Reads.accepted_iff_of_sameCase {input : GoString} {settings spellings : Params}
    (h : Reads input settings spellings) (hcase : SameCase settings) {o : MapOrder}
    : (∃ cfg, parseDSN o input = .ok cfg) ↔
      Unclashed settings ∧ ValidSettings (upperKeys settings) := by
  constructor
  . rintro ⟨cfg, hcfg⟩
    obtain ⟨settings', spellings', h', hkept, hclash, hpasses⟩ := of_parseDSN hcfg
    obtain ⟨rfl, rfl⟩ := h.eq h'
    refine ⟨hclash, (validSettings_congr ?_).mp
      ((validSettings_iff_exists_perm cfg.params).mpr ⟨_, o.perm _, hpasses⟩)⟩
    exact mem_upperKeys_of_spelling hcase hclash (h.spelling hkept)
  . rintro ⟨hclash, hvalid⟩
    have hkept := spelling_firstSpellings spellings
    have hvalid' := (validSettings_congr
      (mem_upperKeys_of_spelling hcase hclash (h.spelling hkept))).mpr hvalid
    have hpass := allPass_of_sameCase (hcase.mono h.mem) h.mem hclash hkept hvalid'
    exact h.forall_accepted_iff.mp ⟨hclash, hpass⟩ o

end Outcome

section Main

variable [UnicodeTables]

/--
Both forms are rejected, or both are accepted with the same credentials and the same settings up to
the case of their keys.
-/
@[irreducible]
def FormsAgree (o o' : MapOrder) (host port db : GoString) (settings : Params) : Prop :=
  match parseDSN o (jdbcForm host port db settings), parseDSN o' (nativeForm host port db settings) with
  | .ok cfg, .ok cfg' =>
    cfg.user = cfg'.user ∧ cfg.password = cfg'.password ∧
      (upperKeys cfg.params).Perm (upperKeys cfg'.params)
  | .error _, .error _ => True
  | _, _ => False

theorem formsAgree_iff {o o' : MapOrder} {host port db : GoString} {settings : Params}
    : FormsAgree o o' host port db settings ↔
      ((∃ cfg, parseDSN o (jdbcForm host port db settings) = .ok cfg) ↔
        ∃ cfg', parseDSN o' (nativeForm host port db settings) = .ok cfg') ∧
      ∀ cfg cfg', parseDSN o (jdbcForm host port db settings) = .ok cfg →
        parseDSN o' (nativeForm host port db settings) = .ok cfg' →
        cfg.user = cfg'.user ∧ cfg.password = cfg'.password ∧
          (upperKeys cfg.params).Perm (upperKeys cfg'.params) := by
  unfold FormsAgree
  cases parseDSN o (jdbcForm host port db settings) with
  | ok cfg =>
    cases parseDSN o' (nativeForm host port db settings) with
    | ok cfg' =>
      constructor
      . intro h
        refine ⟨⟨fun _ => ⟨_, rfl⟩, fun _ => ⟨_, rfl⟩⟩, ?_⟩
        rintro _ _ ⟨⟩ ⟨⟩
        exact h
      . intro h
        exact h.2 _ _ rfl rfl
    | error e => simp
  | error e =>
    cases parseDSN o' (nativeForm host port db settings) with
    | ok cfg' => simp
    | error e' => simp

/--
The settings that the two forms are read with are both refused. Or both are accepted, are the same in
every choice of spellings, and give the credentials of the location.
-/
inductive FormsMatch (u : NetURL.URL) (jdbc : Option Params) (native : Params) : Prop where
  | refused (hjdbc : ∀ settings, jdbc = some settings → Refused settings (firstSpellings settings))
      (hnative : Refused native native)
  | accepted {settings : Params} (hread : jdbc = some settings)
      (hjdbc : Accepted settings (firstSpellings settings)) (hnative : Accepted native native)
      (hsame : ∀ kept, Spelling native kept → (upperKeys (firstSpellings settings)).Perm (upperKeys kept))
      (huser : Gives settings (ascii "USER") (username u))
      (hpassword : Gives settings (ascii "PASSWORD") (userPassword u))

section

variable {o o' : MapOrder} {host port db : GoString} {settings : Params}
  (hsettings : WordSettings settings)

include hsettings

theorem reads_jdbcForm {u : NetURL.URL} {j : Params} (hu : Located host port db u)
    (hread : jdbcReads host port db settings u = some j)
    : Reads (jdbcForm host port db settings) j (firstSpellings j) :=
  .jdbc ((jdbcSettings_jdbcForm hsettings).mpr ⟨u, hu, hread⟩)

theorem reads_nativeForm {u : NetURL.URL} (hu : Located host port db u)
    : Reads (nativeForm host port db settings) (heads (nativeReads host port db settings u))
        (heads (nativeReads host port db settings u)) :=
  .native ((nativeQuery_nativeForm hsettings).mpr ⟨u, hu, rfl⟩)

theorem of_jdbcForm {cfg : ParsedDSN} (h : parseDSN o (jdbcForm host port db settings) = .ok cfg)
    : ∃ u j, Located host port db u ∧ jdbcReads host port db settings u = some j ∧
        cfg.params = firstSpellings j ∧
        Gives j (ascii "USER") cfg.user ∧ Gives j (ascii "PASSWORD") cfg.password := by
  obtain ⟨j, hj, -, hp, -⟩ := parseDSN_of_jdbc.mp ⟨rfl, cfg, h, rfl⟩
  obtain ⟨u, hu, hread⟩ := (jdbcSettings_jdbcForm hsettings).mp hj
  exact ⟨u, j, hu, hread, hp, gives_of_jdbc h hj⟩

theorem of_nativeForm {cfg : ParsedDSN} (h : parseDSN o (nativeForm host port db settings) = .ok cfg)
    : ∃ u, Located host port db u ∧
        Spelling (heads (nativeReads host port db settings u)) cfg.params ∧
        cfg.user = username u ∧ cfg.password = userPassword u := by
  obtain ⟨q, hq, -, hp, -⟩ := parseDSN_of_native.mp ⟨rfl, cfg, h, rfl⟩
  obtain ⟨u, hu, rfl⟩ := (nativeQuery_nativeForm hsettings).mp hq
  have hcredentials := credentials_of_native h rfl ((parse_nativeForm hsettings).mpr ⟨u, hu.1, rfl⟩)
  unfold username userPassword at hcredentials ⊢
  rw [user_extend] at hcredentials
  exact ⟨u, hu, hp ▸ Reads.spelling_range o, hcredentials⟩

theorem formsMatch_of_agree (h : ∀ o o', FormsAgree o o' host port db settings) {u : NetURL.URL}
    (hu : Located host port db u)
    : FormsMatch u (jdbcReads host port db settings u)
        (heads (nativeReads host port db settings u)) := by
  have hnative := reads_nativeForm hsettings hu
  by_cases hsome : ∃ o cfg, parseDSN o (jdbcForm host port db settings) = .ok cfg
  . -- then the native form is accepted in every order, and so is the JDBC form
    obtain ⟨o, cfg, hcfg⟩ := hsome
    obtain ⟨u', j, hu', hread, hp, huser, hpassword⟩ := of_jdbcForm hsettings hcfg
    cases hu.unique hu'
    have hall' : ∀ o', ∃ cfg', parseDSN o' (nativeForm host port db settings) = .ok cfg' :=
      fun o' => (formsAgree_iff.mp (h o o')).1.mp ⟨cfg, hcfg⟩
    have hall : ∀ o, ∃ cfg, parseDSN o (jdbcForm host port db settings) = .ok cfg :=
      fun o => (formsAgree_iff.mp (h o o)).1.mpr (hall' o)
    have haccepted := hnative.forall_accepted_iff.mpr hall'
    obtain ⟨cfg', hcfg'⟩ := hall' o
    obtain ⟨heq, heq', -⟩ := (formsAgree_iff.mp (h o o)).2 cfg cfg' hcfg hcfg'
    obtain ⟨u', hu', -, huser', hpassword'⟩ := of_nativeForm hsettings hcfg'
    cases hu.unique hu'
    rw [heq, huser'] at huser
    rw [heq', hpassword'] at hpassword
    refine .accepted hread ((reads_jdbcForm hsettings hu hread).forall_accepted_iff.mpr hall) haccepted
      ?_ huser hpassword
    intro kept hkept
    have hpasses := (alwaysPasses_iff kept).mp ((allPass_iff _).mp haccepted.2 kept hkept) kept (.refl _)
    obtain ⟨o', -, haccept⟩ := hnative.exists_order haccepted.1 hkept (.refl kept)
    obtain ⟨cfg', hcfg', hperm⟩ := haccept hpasses
    have hsame := ((formsAgree_iff.mp (h o o')).2 cfg cfg' hcfg hcfg').2.2
    rw [hp] at hsame
    exact hsame.trans (hperm.map _)
  . refine .refused (fun j hread => ?_) (hnative.refused_iff.mpr fun o' cfg' hcfg' => ?_)
    . exact (reads_jdbcForm hsettings hu hread).refused_iff.mpr fun o cfg hcfg => hsome ⟨o, cfg, hcfg⟩
    . obtain ⟨cfg, hcfg⟩ := (formsAgree_iff.mp (h o' o')).1.mpr ⟨cfg', hcfg'⟩
      exact hsome ⟨o', cfg, hcfg⟩

theorem agree_of_formsMatch
    (h : ∀ u, Located host port db u → FormsMatch u (jdbcReads host port db settings u)
      (heads (nativeReads host port db settings u))) (o o' : MapOrder)
    : FormsAgree o o' host port db settings := by
  rw [formsAgree_iff]
  constructor
  . constructor
    . rintro ⟨cfg, hcfg⟩
      obtain ⟨u, j, hu, hread, -⟩ := of_jdbcForm hsettings hcfg
      cases h u hu with
      | refused hjdbc =>
        exact absurd hcfg ((reads_jdbcForm hsettings hu hread).refused_iff.mp (hjdbc j hread) o cfg)
      | accepted _ _ hnative => exact (reads_nativeForm hsettings hu).forall_accepted_iff.mp hnative o'
    . rintro ⟨cfg', hcfg'⟩
      obtain ⟨u, hu, -⟩ := of_nativeForm hsettings hcfg'
      cases h u hu with
      | refused _ hnative =>
        exact absurd hcfg' ((reads_nativeForm hsettings hu).refused_iff.mp hnative o' cfg')
      | accepted hread hjdbc => exact (reads_jdbcForm hsettings hu hread).forall_accepted_iff.mp hjdbc o
  . intro cfg cfg' hcfg hcfg'
    obtain ⟨u, j, hu, hread, hp, huser, hpassword⟩ := of_jdbcForm hsettings hcfg
    obtain ⟨u', hu', hkept, huser', hpassword'⟩ := of_nativeForm hsettings hcfg'
    cases hu.unique hu'
    cases h u hu with
    | refused hjdbc =>
      exact absurd hcfg ((reads_jdbcForm hsettings hu hread).refused_iff.mp (hjdbc j hread) o cfg)
    | accepted hread' _ _ hsame hgives hgives' =>
      cases hread.symm.trans hread'
      rw [huser', hpassword', hp]
      exact ⟨huser.eq hgives, hpassword.eq hgives', hsame _ hkept⟩

omit hsettings in
theorem unclashed_firsts (h : Unclashed settings) : Unclashed (firsts settings) :=
  fun x hx y hy => h x (mem_of_mem_firsts hx) y (mem_of_mem_firsts hy)

omit hsettings in
theorem mem_upperKeys_firsts (h : Unclashed settings) (x : GoString × GoString)
    : x ∈ upperKeys (firsts settings) ↔ x ∈ upperKeys settings := by
  rw [mem_upperKeys, mem_upperKeys]
  constructor
  . rintro ⟨kv, hkv, rfl⟩
    exact ⟨kv, mem_of_mem_firsts hkv, rfl⟩
  . rintro ⟨kv, hkv, rfl⟩
    obtain ⟨v, hv⟩ := exists_mem_firsts hkv
    have hval : v = kv.2 := h (kv.1, v) (mem_of_mem_firsts hv) kv hkv (equalFold_refl _)
    exact ⟨(kv.1, v), hv, by rw [hval]⟩

/--
What is known of two forms that are both accepted.
-/
theorem PlainLocation.of_accepted {u : NetURL.URL} (hu : Located host port db u)
    (hplain : PlainLocation (location host port db) u) {cfg cfg' : ParsedDSN}
    (hcfg : parseDSN o (jdbcForm host port db settings) = .ok cfg)
    (hcfg' : parseDSN o' (nativeForm host port db settings) = .ok cfg')
    : cfg.params = firstSpellings settings ∧ Spelling (firsts settings) cfg'.params ∧
        Gives settings (ascii "USER") cfg.user ∧ Gives settings (ascii "PASSWORD") cfg.password ∧
        cfg'.user = username u ∧ cfg'.password = userPassword u := by
  obtain ⟨u1, j, hu1, hread, hp, huser, hpassword⟩ := of_jdbcForm hsettings hcfg
  obtain ⟨u2, hu2, hkept, huser', hpassword'⟩ := of_nativeForm hsettings hcfg'
  cases hu.unique hu1
  cases hu.unique hu2
  cases (hplain.jdbcReads hsettings).symm.trans hread
  rw [hplain.nativeReads hsettings, heads_queryOf] at hkept
  exact ⟨hp, hkept, huser, hpassword, huser', hpassword'⟩

omit hsettings in
theorem perm_firstSpellings (hcase : SameCase settings) (hclash : Unclashed settings) {kept : Params}
    (hkept : Spelling (firsts settings) kept)
    : (upperKeys (firstSpellings settings)).Perm (upperKeys kept) := by
  have hcase' : SameCase (firsts settings) := hcase.mono (fun _ => mem_of_mem_firsts)
  have hfirst := spelling_firstSpellings settings
  rw [List.perm_ext_iff_of_nodup (nodup_upperKeys_of_spelling hcase hfirst)
    (nodup_upperKeys_of_spelling hcase' hkept)]
  intro x
  rw [mem_upperKeys_of_spelling hcase hclash hfirst,
    mem_upperKeys_of_spelling hcase' (unclashed_firsts hclash) hkept, mem_upperKeys_firsts hclash]

theorem formsAgree_of_plain {u : NetURL.URL} (hu : Located host port db u)
    (hplain : PlainLocation (location host port db) u)
    : FormsAgree o o' host port db settings ↔
      (¬ Unclashed settings →
        ¬ (Unclashed (firsts settings) ∧ ValidSettings (upperKeys (firsts settings)))) ∧
      (Unclashed settings → ValidSettings (upperKeys settings) →
        Gives settings (ascii "USER") (username u) ∧
          Gives settings (ascii "PASSWORD") (userPassword u)) := by
  have hcase : SameCase settings := sameCase_of_ascii (asciiKeys_of_words hsettings)
  have hnative := reads_nativeForm hsettings hu
  rw [hplain.nativeReads hsettings, heads_queryOf] at hnative
  have hacc := (reads_jdbcForm hsettings hu (hplain.jdbcReads hsettings)).accepted_iff_of_sameCase hcase
    (o := o)
  have hacc' := hnative.accepted_iff_of_sameCase (hcase.mono (fun _ => mem_of_mem_firsts)) (o := o')
  rw [formsAgree_iff, hacc, hacc']
  constructor
  . rintro ⟨hiff, hsame⟩
    refine ⟨fun hclash h => hclash (hiff.mpr h).1, fun hclash hvalid => ?_⟩
    obtain ⟨cfg, hcfg⟩ := hacc.mpr ⟨hclash, hvalid⟩
    obtain ⟨cfg', hcfg'⟩ := hacc'.mpr (hiff.mp ⟨hclash, hvalid⟩)
    obtain ⟨-, -, huser, hpassword, huser', hpassword'⟩ := hplain.of_accepted hsettings hu hcfg hcfg'
    obtain ⟨heq, heq', -⟩ := hsame cfg cfg' hcfg hcfg'
    rw [← huser', ← hpassword', ← heq, ← heq']
    exact ⟨huser, hpassword⟩
  . rintro ⟨hconflict, hcredentials⟩
    refine ⟨⟨fun ⟨hclash, hvalid⟩ => ?_, fun h => ?_⟩, fun cfg cfg' hcfg hcfg' => ?_⟩
    . exact ⟨unclashed_firsts hclash, (validSettings_congr (mem_upperKeys_firsts hclash)).mpr hvalid⟩
    . by_cases hclash : Unclashed settings
      . exact ⟨hclash, (validSettings_congr (mem_upperKeys_firsts hclash)).mp h.2⟩
      . exact absurd h (hconflict hclash)
    . obtain ⟨hclash, hvalid⟩ := hacc.mp ⟨cfg, hcfg⟩
      obtain ⟨hp, hkept, huser, hpassword, huser', hpassword'⟩ := hplain.of_accepted hsettings hu hcfg hcfg'
      obtain ⟨hgives, hgives'⟩ := hcredentials hclash hvalid
      rw [huser', hpassword', hp]
      exact ⟨huser.eq hgives, hpassword.eq hgives', perm_firstSpellings hcase hclash hkept⟩

end

/--
The two forms agree exactly when the settings match that they are read with. Behind a plain location those
are the settings that were written, and the forms agree exactly when a conflict between two values of a
key still shows in the first values of the keys, and the credentials among the settings of an accepted
DSN are those of the location.
-/
theorem forms_agree_iff (host port db : GoString) (settings : Params) (hsettings : WordSettings settings)
    : ((∀ o o', FormsAgree o o' host port db settings) ↔
        ∀ u, Located host port db u → FormsMatch u (jdbcReads host port db settings u)
          (heads (nativeReads host port db settings u))) ∧
      ∀ u, Located host port db u → PlainLocation (location host port db) u → ∀ o o',
        (FormsAgree o o' host port db settings ↔
          (¬ Unclashed settings →
            ¬ (Unclashed (firsts settings) ∧ ValidSettings (upperKeys (firsts settings)))) ∧
          (Unclashed settings → ValidSettings (upperKeys settings) →
            Gives settings (ascii "USER") (username u) ∧
              Gives settings (ascii "PASSWORD") (userPassword u))) :=
  ⟨⟨fun h _ hu => formsMatch_of_agree hsettings h hu, agree_of_formsMatch hsettings⟩,
    fun _ hu hplain _ _ => formsAgree_of_plain hsettings hu hplain⟩

end Main

section

open StandIn

def loopbackURL : NetURL.URL :=
  { user := none, host := ascii "[::1]:9092", path := ascii "/path/to/db", rawQuery := [] }

theorem located_loopback : Located (ascii "[::1]") (ascii "9092") (ascii "path/to/db") loopbackURL :=
  ⟨by decide +kernel, by decide, 9092, by decide +kernel, by decide, by decide⟩

def modeSettings : Params :=
  [(ascii "mode", ascii "MySQL"), (ascii "MODE", ascii "MySQL"), (ascii "USER", [])]

theorem wordSettings_mode : WordSettings modeSettings := by
  unfold WordSettings
  decide +kernel

theorem forms_agree_mode
    : WordSettings modeSettings ∧
      FormsAgree .inserted .inserted (ascii "[::1]") (ascii "9092") (ascii "path/to/db") modeSettings := by
  refine ⟨wordSettings_mode, ((forms_agree_iff (ascii "[::1]") (ascii "9092") (ascii "path/to/db")
    modeSettings wordSettings_mode).2 loopbackURL located_loopback ?_ .inserted .inserted).mpr ?_⟩
  . exact ⟨by decide +kernel, by decide +kernel, by decide +kernel, by decide +kernel⟩
  . refine ⟨fun h => absurd ?_ h, fun _ _ => ?_⟩
    . unfold Unclashed
      decide +kernel
    . unfold Gives
      decide +kernel

/--
The native form ignores a password among its settings, and takes the first of two values of a key. A
semicolon in the database begins a setting in the JDBC form only.
-/
theorem forms_disagree
    : (∃ cfg cfg',
        parseDSN .inserted (jdbcForm (ascii "db.local") (ascii "9092") (ascii "h2-go")
          [(ascii "PASSWORD", ascii "x")]) = .ok cfg ∧ cfg.password = ascii "x" ∧
        parseDSN .inserted (nativeForm (ascii "db.local") (ascii "9092") (ascii "h2-go")
          [(ascii "PASSWORD", ascii "x")]) = .ok cfg' ∧ cfg'.password = []) ∧
      (∃ e cfg',
        parseDSN .inserted (jdbcForm (ascii "db.local") (ascii "9092") (ascii "h2-go")
          [(ascii "MODE", ascii "a"), (ascii "MODE", ascii "b")]) = .error e ∧
        parseDSN .inserted (nativeForm (ascii "db.local") (ascii "9092") (ascii "h2-go")
          [(ascii "MODE", ascii "a"), (ascii "MODE", ascii "b")]) = .ok cfg') ∧
      ∃ e cfg',
        parseDSN .inserted (jdbcForm (ascii "db.local") (ascii "9092") (ascii "a;b")
          [(ascii "MODE", ascii "a")]) = .error e ∧
        parseDSN .inserted (nativeForm (ascii "db.local") (ascii "9092") (ascii "a;b")
          [(ascii "MODE", ascii "a")]) = .ok cfg' := by
  have hjdbc := exists_of_accepts (show accepts (parseDSN .inserted (jdbcForm (ascii "db.local")
    (ascii "9092") (ascii "h2-go") [(ascii "PASSWORD", ascii "x")]))
    (fun cfg => cfg.password = ascii "x") = true by decide +kernel)
  have hnative := exists_of_accepts (show accepts (parseDSN .inserted (nativeForm (ascii "db.local")
    (ascii "9092") (ascii "h2-go") [(ascii "PASSWORD", ascii "x")]))
    (fun cfg => cfg.password = []) = true by decide +kernel)
  have hrefused : ∀ {db : GoString} {settings : Params},
      accepts (parseDSN .inserted (jdbcForm (ascii "db.local") (ascii "9092") db settings))
        (fun _ => true) = false →
      accepts (parseDSN .inserted (nativeForm (ascii "db.local") (ascii "9092") db settings))
        (fun _ => true) = true →
      ∃ e cfg', parseDSN .inserted (jdbcForm (ascii "db.local") (ascii "9092") db settings) = .error e ∧
        parseDSN .inserted (nativeForm (ascii "db.local") (ascii "9092") db settings) = .ok cfg' := by
    intro db settings hjdbc hnative
    obtain ⟨e, he⟩ := exists_of_not_accepts hjdbc
    obtain ⟨cfg', hcfg', -⟩ := exists_of_accepts hnative
    exact ⟨e, cfg', he, hcfg'⟩
  obtain ⟨cfg, hcfg, hval⟩ := hjdbc
  obtain ⟨cfg', hcfg', hval'⟩ := hnative
  exact ⟨⟨cfg, cfg', hcfg, of_decide_eq_true hval, hcfg', of_decide_eq_true hval'⟩,
    hrefused (by decide +kernel) (by decide +kernel), hrefused (by decide +kernel) (by decide +kernel)⟩

end

end H2Go
