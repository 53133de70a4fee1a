import H2Go.DSN.Forms
import H2Go.Logging.Userinfo

/-!
This module contains the verification of the redaction of passwords.
-/

namespace H2Go

open Digits Strings Regex

def redactJDBC (s : GoString) : GoString := jdbcPasswordPattern.replaceAll redactedValue s

def redactURL (s : GoString) : GoString := urlUserInfoPattern.replaceAll redactedValue s

def redactQuery (s : GoString) : GoString := queryPasswordPattern.replaceAll redactedValue s

theorem redactSensitiveString_stages (s : GoString)
    : redactSensitiveString s = redactQuery (redactURL (redactJDBC s)) :=
  redactSensitiveString_eq s

/--
The text around a password, that of the message around the DSN included. A password begins after the
colon of a userinfo or the `=` of a setting, and ends at an `@`, a `;`, a `?`, a `#`, an escape of
these or the end of the DSN.
-/
structure PasswordPlace where
  before : GoString
  after : GoString
  marked : Marked before
  bounded : Bounded after

/--
The passwords without a byte that starts or ends something in a URL or in a pattern.
-/
def PlainPassword (pw : GoString) : Prop := ∀ b ∈ pw, b ∉ ascii ";@/:?&"

theorem PlainPassword.userByte {pw : GoString} (h : PlainPassword pw) : ∀ b ∈ pw, userByte b := by
  intro b hb
  rw [userByte_iff]
  refine ⟨?_, ?_, ?_⟩ <;> rintro rfl <;> exact h _ hb (by decide)

theorem PlainPassword.valueByte {pw : GoString} (h : PlainPassword pw) : ∀ b ∈ pw, valueByte b :=
  fun b hb => valueByte_iff.mpr ⟨(userByte_iff.mp (h.userByte b hb)).2.1,
    (userByte_iff.mp (h.userByte b hb)).1⟩

theorem PlainPassword.not_mem {pw : GoString} (h : PlainPassword pw) {c : UInt8}
    (hc : c ∈ ascii ";@/:?&")
    : c ∉ pw :=
  fun hmem => h c hmem hc

theorem jdbc_free {s : GoString} (h : semicolonByte ∉ s) : jdbcPasswordPattern.Free s := by
  apply Pattern.free_of_first
  intro b hb
  exact decide_eq_false (fun heq => h (heq ▸ hb))

theorem query_free {s : GoString} (hquestion : questionByte ∉ s) (hampersand : ampersandByte ∉ s)
    : queryPasswordPattern.Free s := by
  apply Pattern.free_of_first
  intro b hb
  simp only [queryPasswordPattern, Bool.or_eq_false_iff, decide_eq_false_iff_not]
  exact ⟨fun heq => hquestion (heq ▸ hb), fun heq => hampersand (heq ▸ hb)⟩

theorem dropWhile_ne {c : UInt8} {v : GoString} (hv : c ∉ v) (w : GoString)
    : (v ++ w).dropWhile (fun b => decide (b ≠ c)) = w.dropWhile (fun b => decide (b ≠ c)) := by
  apply List.dropWhile_append_of_pos
  intro b hb
  exact decide_eq_true (fun h => hv (h ▸ hb))

theorem PlainPassword.free {pw : GoString} (h : PlainPassword pw) : jdbcPasswordPattern.Free pw :=
  jdbc_free (h.not_mem (by decide))

namespace PasswordPlace

def fill (p : PasswordPlace) (pw : GoString) : GoString := p.before ++ (pw ++ p.after)

/--
The password is in a userinfo for the pattern of URLs, which an `@` closes before any slash.
-/
def InUserinfo (p : PasswordPlace) : Prop :=
  urlUserInfoPattern.Open (redactJDBC p.before) ∧
    ∃ rest, (redactJDBC p.after).dropWhile valueByte = atByte :: rest

/--
Two passwords of which the same is left: the one pattern that has begun before the place drops all of
them up to the byte that ends its value.
-/
inductive Alike (p : PasswordPlace) (pw pw' : GoString) : Prop
  | setting (hopen : jdbcPasswordPattern.Open p.before)
      (hrest : (pw ++ p.after).dropWhile (fun b => b ≠ semicolonByte)
        = (pw' ++ p.after).dropWhile (fun b => b ≠ semicolonByte))
  | userinfo (rest : GoString) (hsetting : ¬ jdbcPasswordPattern.Open p.before)
      (hopen : urlUserInfoPattern.Open (redactJDBC p.before))
      (hfree : jdbcPasswordPattern.Free pw) (hfree' : jdbcPasswordPattern.Free pw')
      (hrest : (pw ++ redactJDBC p.after).dropWhile valueByte = atByte :: rest)
      (hrest' : (pw' ++ redactJDBC p.after).dropWhile valueByte = atByte :: rest)
  | query (hsetting : ¬ jdbcPasswordPattern.Open p.before) (huserinfo : ¬ p.InUserinfo)
      (hopen : queryPasswordPattern.Open (redactURL (redactJDBC p.before)))
      (hplain : PlainPassword pw) (hplain' : PlainPassword pw')

variable {p : PasswordPlace}

theorem redactJDBC_fill (hsetting : ¬ jdbcPasswordPattern.Open p.before) {pw : GoString}
    (hfree : jdbcPasswordPattern.Free pw)
    : redactJDBC (p.fill pw) = redactJDBC p.before ++ (pw ++ redactJDBC p.after) := by
  unfold redactJDBC fill
  rw [jdbc_keyValue.keyed.replaceAll_append_of_not_open hsetting
      (jdbc_keyValue.apart_of_marked p.marked _),
    jdbc_keyValue.keyed.replaceAll_append_of_free hfree (jdbc_keyValue.apart_of_bounded _ p.bounded)]

theorem bounded_redactJDBC (p : PasswordPlace) : Bounded (redactJDBC p.after) := by
  unfold redactJDBC Bounded
  rw [Pattern.head?_replaceAll]
  exact p.bounded

theorem redactURL_fill (hsetting : ¬ jdbcPasswordPattern.Open p.before) (huserinfo : ¬ p.InUserinfo)
    : ∃ out, Bounded out ∧ ∀ pw, PlainPassword pw →
      redactURL (redactJDBC (p.fill pw)) = redactURL (redactJDBC p.before) ++ (pw ++ out) := by
  obtain ⟨out, hhead, hout⟩ := url_kept redactedValue
    (jdbc_keyValue.marked_replaceAll redactedValue hsetting p.marked) p.bounded_redactJDBC huserinfo
  refine ⟨out, ?_, fun pw hpw => ?_⟩
  . unfold Bounded
    rw [hhead]
    exact p.bounded_redactJDBC
  . rw [redactJDBC_fill hsetting hpw.free]
    exact hout pw hpw.userByte

theorem Alike.redact_eq {pw pw' : GoString} (h : p.Alike pw pw')
    : redactSensitiveString (p.fill pw) = redactSensitiveString (p.fill pw') := by
  rw [redactSensitiveString_stages, redactSensitiveString_stages]
  cases h with
  | setting hopen hrest =>
    obtain ⟨out, hout⟩ := jdbc_keyValue.keyed.replaceAll_of_open redactedValue hopen
    unfold redactJDBC fill
    rw [hout, hout, hrest]
  | userinfo rest hsetting hopen hfree hfree' hrest hrest' =>
    obtain ⟨out, hout⟩ := url_of_open redactedValue hopen
    rw [redactJDBC_fill hsetting hfree, redactJDBC_fill hsetting hfree']
    unfold redactURL
    rw [hout _ rest hrest, hout _ rest hrest']
  | query hsetting huserinfo hopen hplain hplain' =>
    obtain ⟨out, -, hout⟩ := redactURL_fill hsetting huserinfo
    obtain ⟨out', hout'⟩ := query_keyValue.keyed.replaceAll_of_open redactedValue hopen
    rw [hout pw hplain, hout pw' hplain']
    unfold redactQuery
    rw [hout', hout', dropWhile_ne (hplain.not_mem (by decide)), dropWhile_ne (hplain'.not_mem (by decide))]

theorem redact_kept (hsetting : ¬ jdbcPasswordPattern.Open p.before) (huserinfo : ¬ p.InUserinfo)
    (hquery : ¬ queryPasswordPattern.Open (redactURL (redactJDBC p.before)))
    : ∃ front back, ∀ pw, PlainPassword pw →
      redactSensitiveString (p.fill pw) = front ++ (pw ++ back) := by
  obtain ⟨out, hbounded, hout⟩ := redactURL_fill hsetting huserinfo
  have hmarked : Marked (redactURL (redactJDBC p.before)) :=
    marked_url (jdbc_keyValue.marked_replaceAll redactedValue hsetting p.marked)
  refine ⟨redactQuery (redactURL (redactJDBC p.before)), redactQuery out, fun pw hpw => ?_⟩
  have hfree := query_free (hpw.not_mem (by decide)) (hpw.not_mem (by decide))
  rw [redactSensitiveString_stages, hout pw hpw]
  unfold redactQuery
  rw [query_keyValue.keyed.replaceAll_append_of_not_open hquery (query_keyValue.apart_of_marked hmarked _),
    query_keyValue.keyed.replaceAll_append_of_free hfree (query_keyValue.apart_of_bounded _ hbounded)]

theorem alike_of_setting (hopen : jdbcPasswordPattern.Open p.before) {pw pw' : GoString}
    (hpw : semicolonByte ∉ pw) (hpw' : semicolonByte ∉ pw')
    : p.Alike pw pw' :=
  .setting hopen (by rw [dropWhile_ne hpw, dropWhile_ne hpw'])

theorem alike_of_userinfo (hsetting : ¬ jdbcPasswordPattern.Open p.before) (huserinfo : p.InUserinfo)
    {pw pw' : GoString} (hfree : jdbcPasswordPattern.Free pw) (hfree' : jdbcPasswordPattern.Free pw')
    (hpw : ∀ b ∈ pw, valueByte b) (hpw' : ∀ b ∈ pw', valueByte b)
    : p.Alike pw pw' := by
  obtain ⟨hopen, rest, hrest⟩ := huserinfo
  exact .userinfo rest hsetting hopen hfree hfree' (by rw [List.dropWhile_append_of_pos hpw, hrest])
    (by rw [List.dropWhile_append_of_pos hpw', hrest])

theorem redact_eq_iff (p : PasswordPlace) {pw pw' : GoString} (hpw : PlainPassword pw)
    (hpw' : PlainPassword pw')
    : redactSensitiveString (p.fill pw) = redactSensitiveString (p.fill pw') ↔
      pw = pw' ∨ p.Alike pw pw' := by
  constructor
  . intro heq
    by_cases hsetting : jdbcPasswordPattern.Open p.before
    . exact .inr (alike_of_setting hsetting (hpw.not_mem (by decide)) (hpw'.not_mem (by decide)))
    . by_cases huserinfo : p.InUserinfo
      . exact .inr (alike_of_userinfo hsetting huserinfo hpw.free hpw'.free hpw.valueByte hpw'.valueByte)
      . by_cases hquery : queryPasswordPattern.Open (redactURL (redactJDBC p.before))
        . exact .inr (.query hsetting huserinfo hquery hpw hpw')
        . obtain ⟨front, back, hkept⟩ := redact_kept hsetting huserinfo hquery
          rw [hkept pw hpw, hkept pw' hpw'] at heq
          exact .inl (List.append_cancel_right (List.append_cancel_left heq))
  . rintro (rfl | halike)
    . rfl
    . exact halike.redact_eq

theorem redactSensitiveString_fill (p : PasswordPlace) (pw pw' : GoString)
    : (p.Alike pw pw' → redactSensitiveString (p.fill pw) = redactSensitiveString (p.fill pw')) ∧
      (PlainPassword pw → PlainPassword pw' →
        (redactSensitiveString (p.fill pw) = redactSensitiveString (p.fill pw') ↔
          pw = pw' ∨ p.Alike pw pw')) :=
  ⟨Alike.redact_eq, p.redact_eq_iff⟩

theorem marked_dial : Marked (ascii "dial h2://s;a:") ∧ Marked (ascii "jdbc:h2:tcp://h/db;Password=") :=
  ⟨⟨ascii ":", by decide⟩, ascii "=", by decide⟩

theorem bounded_dial : Bounded (ascii "@h/db: timeout") ∧ Bounded (ascii ";USER=sa") := by
  unfold Bounded
  decide +kernel

def dialPlace : PasswordPlace where
  before := ascii "dial h2://s;a:"
  after := ascii "@h/db: timeout"
  marked := marked_dial.1
  bounded := bounded_dial.1

def settingPlace : PasswordPlace where
  before := ascii "jdbc:h2:tcp://h/db;Password="
  after := ascii ";USER=sa"
  marked := marked_dial.2
  bounded := bounded_dial.2

theorem dialPlace_alike {pw pw' : GoString} (hpw : ∀ b ∈ pw, b ∉ ascii "=@/")
    (hpw' : ∀ b ∈ pw', b ∉ ascii "=@/")
    : dialPlace.Alike pw pw' := by
  have hfree : ∀ {v : GoString}, (∀ b ∈ v, b ∉ ascii "=@/") → jdbcPasswordPattern.Free v :=
    fun hv => jdbc_keyValue.free_of_not_mem (fun h => hv _ h (by decide))
  have hvalue : ∀ {v : GoString}, (∀ b ∈ v, b ∉ ascii "=@/") → ∀ b ∈ v, valueByte b := by
    intro v hv b hb
    rw [valueByte_iff]
    constructor <;> rintro rfl <;> exact hv _ hb (by decide)
  have hbefore : jdbcPasswordPattern.Free dialPlace.before :=
    jdbc_keyValue.free_of_not_mem (by decide)
  apply alike_of_userinfo hbefore.not_open _ (hfree hpw) (hfree hpw') (hvalue hpw) (hvalue hpw')
  refine ⟨?_, ascii "h/db: timeout", by decide⟩
  rw [redactJDBC, Pattern.replaceAll_of_free hbefore, url_open_iff]
  exact ⟨ascii "dial ", ascii "h2", ascii "s;a", [], by decide, by unfold KnownScheme; decide,
    by decide, by decide +kernel, by decide +kernel⟩

theorem settingPlace_open : jdbcPasswordPattern.Open settingPlace.before := by
  have hends : (ascii "Password=", []) ∈ jdbcPasswordPattern.head.ends (ascii "Password=") := by
    decide
  exact ⟨ascii "jdbc:h2:tcp://h/db", semicolonByte, ascii "Password=", [], by decide, by decide,
    (Re.mem_ends.mp hends).2, by simp [jdbcPasswordPattern, Re.Matches]⟩

theorem redactSensitiveString_fill_secret
    : redactSensitiveString (dialPlace.fill (ascii "a;b"))
        = redactSensitiveString (dialPlace.fill (ascii "secret")) ∧
      redactSensitiveString (settingPlace.fill (ascii "s@c/t"))
        = redactSensitiveString (settingPlace.fill (ascii "x")) ∧
      (redactSensitiveString (dialPlace.fill (ascii "secret"))
          = redactSensitiveString (dialPlace.fill (ascii "x")) ↔
        ascii "secret" = ascii "x" ∨ dialPlace.Alike (ascii "secret") (ascii "x")) :=
  ⟨(redactSensitiveString_fill _ _ _).1 (dialPlace_alike (by decide +kernel) (by decide +kernel)),
    (redactSensitiveString_fill _ _ _).1
      (alike_of_setting settingPlace_open (by decide +kernel) (by decide +kernel)),
    (redactSensitiveString_fill _ _ _).2 (by unfold PlainPassword; decide +kernel)
      (by unfold PlainPassword; decide +kernel)⟩

theorem marked_authority (scheme user : GoString) : Marked (authority scheme user) :=
  ⟨ascii ":", by decide, ⟨scheme ++ colonByte :: slashByte :: slashByte :: user, by
    simp [authority, ascii, colonByte]⟩⟩

theorem bounded_at (rest : GoString) : Bounded (atByte :: rest) := by
  intro b hb
  rw [List.head?_cons, Option.mem_some_iff] at hb
  rw [← hb]
  decide +kernel

def native (scheme user rest : GoString) : PasswordPlace where
  before := authority scheme user
  after := atByte :: rest
  marked := marked_authority scheme user
  bounded := bounded_at rest

theorem not_mem_authority {scheme user : GoString} {c : UInt8} (hscheme : c ∉ scheme) (huser : c ∉ user)
    (hc : c ≠ colonByte ∧ c ≠ slashByte)
    : c ∉ authority scheme user := by
  simp only [authority, List.mem_append, List.mem_cons, List.not_mem_nil, or_false, not_or]
  exact ⟨hscheme, hc.1, hc.2, hc.2, huser, hc.1⟩

/--
The scheme in front of a user has to be one that the pattern knows, as there is no other slash.
-/
theorem url_open_authority_iff {scheme user : GoString} (hscheme : slashByte ∉ scheme)
    (huser : ∀ b ∈ user, userByte b)
    : urlUserInfoPattern.Open (authority scheme user) ↔
      user ≠ [] ∧ ∃ known, KnownScheme known ∧ known <:+ scheme := by
  rw [url_open_iff]
  constructor
  . rintro ⟨a, known, user', v, htext, hknown, hne, huser', -⟩
    have hslash : slashByte ∉ scheme ++ [colonByte] := by
      simp only [List.mem_append, List.mem_singleton, not_or]
      exact ⟨hscheme, by decide⟩
    have htext : (scheme ++ [colonByte]) ++ slashByte :: slashByte :: (user ++ [colonByte])
        = (a ++ (known ++ [colonByte])) ++ slashByte :: slashByte :: (user' ++ colonByte :: v) := by
      simpa [authority] using htext
    by_cases hmem : slashByte ∈ a
    . -- there is no place for two more slashes
      obtain ⟨a₁, a₂, rfl, ha₁⟩ := List.eq_append_cons_of_mem hmem
      have hcount := congrArg (List.count slashByte) htext
      have hzero : ∀ {t : GoString}, slashByte ∉ t → t.count slashByte = 0 := List.count_eq_zero.mpr
      have huser : slashByte ∉ user ++ [colonByte] := by
        simp only [List.mem_append, List.mem_singleton, not_or]
        exact ⟨(not_mem_of_userByte huser).1, by decide⟩
      simp only [List.count_append, List.count_cons_self, hzero hslash, hzero huser] at hcount
      omega
    . have hslash' : slashByte ∉ a ++ (known ++ [colonByte]) := by
        rw [List.mem_append, not_or]
        exact ⟨hmem, hknown.not_mem_colon (.inl rfl)⟩
      obtain ⟨hend, htext⟩ := append_cons_inj hslash hslash' htext
      rw [← List.append_assoc] at hend
      refine ⟨?_, known, hknown, a, (List.append_cancel_right hend).symm⟩
      rintro rfl
      obtain ⟨y, user', rfl⟩ := List.exists_cons_of_ne_nil hne
      simp only [List.nil_append, List.cons_append, List.cons.injEq] at htext
      have := huser' y (by simp)
      rw [← htext.2.1] at this
      exact absurd this (by decide)
  . rintro ⟨hne, known, hknown, a, rfl⟩
    exact ⟨a, known, user, [], by simp [authority], hknown, hne, huser, by simp⟩

theorem knownSuffix_iff {scheme : GoString}
    (h : scheme ∈ [ascii "h2", ascii "h2+tcp", ascii "h2+ssl"])
    : (∃ known, KnownScheme known ∧ known <:+ scheme) ↔ scheme ≠ ascii "h2+ssl" := by
  have hknown : ∀ scheme ∈ [ascii "h2", ascii "h2+tcp", ascii "h2+ssl"], scheme ≠ ascii "h2+ssl" →
      scheme.map lower ∈ knownSchemes := by
    decide
  constructor
  . rintro ⟨known, hscheme, a, ha⟩ rfl
    have hsuf : known.map lower <:+ (ascii "h2+ssl").map lower :=
      ⟨a.map lower, by rw [← ha, List.map_append]⟩
    have hnone : ∀ t ∈ knownSchemes, ¬ t <:+ (ascii "h2+ssl").map lower := by decide
    exact hnone _ hscheme hsuf
  . intro hne
    exact ⟨scheme, hknown scheme h hne, List.suffix_refl scheme⟩

theorem not_mem_native {scheme user : GoString}
    (hscheme : scheme ∈ [ascii "h2", ascii "h2+tcp", ascii "h2+ssl"]) (huser : PlainPassword user)
    {c : UInt8} (hc : c ∈ ascii ";@?&")
    : c ∉ authority scheme user := by
  have hschemes : ∀ scheme ∈ [ascii "h2", ascii "h2+tcp", ascii "h2+ssl"], ∀ c ∈ ascii ";@?&",
      c ∉ scheme := by
    decide +kernel
  have hbytes : ∀ c ∈ ascii ";@?&", c ∈ ascii ";@/:?&" ∧ c ≠ colonByte ∧ c ≠ slashByte := by
    decide +kernel
  exact not_mem_authority (hschemes scheme hscheme c hc) (huser.not_mem (hbytes c hc).1) (hbytes c hc).2

/--
Native DSNs without unusual bytes in the user: the password is hidden unless the scheme is that of TLS
or there is no user.
-/
theorem native_redact_iff {scheme user pw pw' : GoString} (rest : GoString)
    (hscheme : scheme ∈ [ascii "h2", ascii "h2+tcp", ascii "h2+ssl"])
    (huser : PlainPassword user) (hpw : PlainPassword pw) (hpw' : PlainPassword pw') (hne : pw ≠ pw')
    : redactSensitiveString ((native scheme user rest).fill pw)
        = redactSensitiveString ((native scheme user rest).fill pw') ↔
      scheme ≠ ascii "h2+ssl" ∧ user ≠ [] := by
  have hfree := jdbc_free (not_mem_native hscheme huser (c := semicolonByte) (by decide))
  have hquery := query_free (not_mem_native hscheme huser (c := questionByte) (by decide))
    (not_mem_native hscheme huser (c := ampersandByte) (by decide))
  have hjdbc : redactJDBC (authority scheme user) = authority scheme user :=
    Pattern.replaceAll_of_free hfree
  have hurl : redactURL (authority scheme user) = authority scheme user :=
    url_of_not_mem (not_mem_native hscheme huser (by decide))
  have hopen : urlUserInfoPattern.Open (authority scheme user) ↔ scheme ≠ ascii "h2+ssl" ∧ user ≠ [] := by
    have hslash : ∀ scheme ∈ [ascii "h2", ascii "h2+tcp", ascii "h2+ssl"], slashByte ∉ scheme := by
      decide
    rw [url_open_authority_iff (hslash scheme hscheme) huser.userByte, knownSuffix_iff hscheme, and_comm]
  rw [redact_eq_iff _ hpw hpw', ← hopen]
  constructor
  . rintro (heq | halike)
    . exact absurd heq hne
    . cases halike with
      | setting hopen => exact absurd hopen hfree.not_open
      | userinfo rest _ hopen => exact hjdbc ▸ hopen
      | query _ _ hopen =>
        change queryPasswordPattern.Open (redactURL (redactJDBC (authority scheme user))) at hopen
        rw [hjdbc, hurl] at hopen
        exact absurd hopen hquery.not_open
  . intro hopen
    rw [← hjdbc] at hopen
    refine .inr (alike_of_userinfo hfree.not_open ⟨hopen, ?_⟩ hpw.free hpw'.free hpw.valueByte
      hpw'.valueByte)
    have hhead := Pattern.head?_replaceAll jdbcPasswordPattern redactedValue (atByte :: rest)
    obtain ⟨out, hout⟩ := List.head?_eq_some_iff.mp hhead
    refine ⟨out, ?_⟩
    change (jdbcPasswordPattern.replaceAll redactedValue (atByte :: rest)).dropWhile valueByte = _
    rw [hout, List.dropWhile_cons_of_neg (by decide)]

end PasswordPlace

section

open StandIn

/--
Both DSNs are accepted with different passwords and are told apart after the redaction.
-/
def Leaks (before after pw pw' : String) : Bool :=
  let dsn := ascii before ++ (ascii pw ++ ascii after)
  let dsn' := ascii before ++ (ascii pw' ++ ascii after)
  accepts (parseDSN .inserted dsn) (fun cfg =>
    accepts (parseDSN .inserted dsn') (fun cfg' => cfg.password ≠ cfg'.password)) &&
  redactSensitiveString dsn ≠ redactSensitiveString dsn'

theorem leaks
    : -- a scheme that the pattern does not know
      Leaks "h2+ssl://sa:" "@h/db" "x" "y" ∧
      -- no user
      Leaks "h2://:" "@h/db" "x" "y" ∧
      -- the userinfo ends at its last `@`
      Leaks "h2://sa:" "@h/db" "a@x" "a@y" ∧ Leaks "h2://s@a:" "@h/db" "x" "y" ∧
      -- a password with the text of a setting is cut by the first pattern
      Leaks "h2://sa:" "@h/db" "x;PASSWORD=" "y;PASSWORD=" ∧
      -- an escaped semicolon ends the value for the pattern
      Leaks "jdbc:h2:tcp://h/db;PASSWORD=" "" "a\\;x" "a\\;y" ∧
      -- the semicolon, the key and the `=` may be written with escapes
      Leaks "jdbc:h2:tcp://h/db%3BPASSWORD=" "" "x" "y" ∧ Leaks "jdbc:h2:tcp://h/db;%50ASSWORD=" "" "x" "y" ∧
      Leaks "jdbc:h2:tcp://h/db;PASSWORD%3D" "" "x" "y" ∧ Leaks "jdbc:h2:ssl://h/db;P\\ASSWORD=" "" "x" "y" := by
  decide +kernel

end

end H2Go
