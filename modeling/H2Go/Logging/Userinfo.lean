import Mathlib.Data.List.TakeWhile
import H2Go.Logging.Keys

/-!
This module contains the pattern of the redaction that looks for the userinfo of a URL: what it matches,
and what it makes of a text between two others.
-/

namespace H2Go

open Digits Strings Regex

def knownSchemes : List GoString := [ascii "h2", ascii "h2+tcp", ascii "h2:tcp"]

def KnownScheme (scheme : GoString) : Prop := scheme.map lower ∈ knownSchemes

/--
A URL up to the end of the user.
-/
def authority (scheme user : GoString) : GoString :=
  scheme ++ colonByte :: slashByte :: slashByte :: (user ++ [colonByte])

def valueByte (b : UInt8) : Bool := b ≠ atByte && b ≠ slashByte

theorem valueByte_iff {b : UInt8} : valueByte b = true ↔ b ≠ atByte ∧ b ≠ slashByte := by
  simp [valueByte]

theorem userByte_iff {b : UInt8} : userByte b = true ↔ b ≠ slashByte ∧ b ≠ atByte ∧ b ≠ colonByte := by
  simp [userByte, and_assoc]

/--
The part of a scheme after `h2`.
-/
def schemeTail : Re UInt8 := .alt (foldText (ascii "+tcp")) (.alt (foldText (ascii ":tcp")) .empty)

theorem knownScheme_of_tail {x : UInt8} {tail : GoString} (hx : lower x = 104)
    (htail : schemeTail.Matches tail)
    : KnownScheme (x :: 50 :: tail) := by
  rw [KnownScheme, List.map_cons, List.map_cons, hx]
  rcases htail with htail | htail | htail
  . rw [(foldText_iff (by decide)).mp htail]
    decide
  . rw [(foldText_iff (by decide)).mp htail]
    decide
  . rw [show tail = [] from htail]
    decide

theorem KnownScheme.exists_tail {scheme : GoString} (h : KnownScheme scheme)
    : ∃ x tail, scheme = x :: 50 :: tail ∧ lower x = 104 ∧ schemeTail.Matches tail := by
  obtain ⟨t, ht, hmap⟩ : ∃ t ∈ [[], ascii "+tcp", ascii ":tcp"], scheme.map lower = 104 :: 50 :: t := by
    simp only [KnownScheme, knownSchemes, List.mem_cons, List.not_mem_nil, or_false] at h
    rcases h with h | h | h
    . exact ⟨[], by simp, h⟩
    . exact ⟨ascii "+tcp", by simp, h⟩
    . exact ⟨ascii ":tcp", by simp, h⟩
  obtain ⟨x, _, rfl, hx, hmap⟩ := List.map_eq_cons_iff.mp hmap
  obtain ⟨two, tail, rfl, htwo, hmap⟩ := List.map_eq_cons_iff.mp hmap
  rw [eq_of_lower_eq (by decide) htwo]
  refine ⟨x, tail, rfl, hx, ?_⟩
  simp only [List.mem_cons, List.not_mem_nil, or_false] at ht
  rcases ht with rfl | rfl | rfl
  . exact .inr (.inr (List.map_eq_nil_iff.mp hmap))
  . exact .inl ((foldText_iff (by decide)).mpr hmap)
  . exact .inr (.inl ((foldText_iff (by decide)).mpr hmap))

theorem authority_of_url_head {x : UInt8} {h : GoString} (hx : urlUserInfoPattern.first x)
    (hh : urlUserInfoPattern.head.Matches h)
    : ∃ scheme user, x :: h = authority scheme user ∧ KnownScheme scheme ∧ user ≠ [] ∧
      ∀ b ∈ user, userByte b := by
  obtain ⟨two, _, rfl, htwo, tail, _, rfl, htail, sep, _, rfl, hsep, first, _, rfl, ⟨y, rfl, hy⟩, u,
    colon, rfl, hu, hcolon⟩ := hh
  rw [eq_of_foldText (by decide) htwo, eq_of_foldText (by decide) hsep,
    eq_of_foldText (by decide) hcolon]
  exact ⟨x :: 50 :: tail, y :: u, by simp [authority, ascii, colonByte, slashByte],
    knownScheme_of_tail (of_decide_eq_true hx) htail, by simp, List.forall_mem_cons.mpr ⟨hy, hu⟩⟩

theorem url_head_of_authority {x : UInt8} {h scheme user : GoString} (hauth : authority scheme user = x :: h)
    (hscheme : KnownScheme scheme) (hne : user ≠ []) (huser : ∀ b ∈ user, userByte b)
    : urlUserInfoPattern.first x ∧ urlUserInfoPattern.head.Matches h := by
  obtain ⟨y, user, rfl⟩ := List.exists_cons_of_ne_nil hne
  rw [List.forall_mem_cons] at huser
  obtain ⟨x', tail, rfl, hx, htail⟩ := hscheme.exists_tail
  rw [authority, List.cons_append, List.cons.injEq] at hauth
  have hh : h = ascii "2" ++ (tail ++ (ascii "://" ++ ([y] ++ (user ++ ascii ":")))) := by
    simpa [ascii, colonByte, slashByte] using hauth.2.symm
  rw [hh, ← hauth.1]
  exact ⟨decide_eq_true hx, _, _, rfl, foldText_self _, _, _, rfl, htail, _, _, rfl, foldText_self _, _, _,
    rfl, ⟨y, rfl, huser.1⟩, _, _, rfl, huser.2, foldText_self _⟩

theorem url_open_iff {s : GoString}
    : urlUserInfoPattern.Open s ↔ ∃ a scheme user v, s = a ++ (authority scheme user ++ v) ∧
      KnownScheme scheme ∧ user ≠ [] ∧ (∀ b ∈ user, userByte b) ∧ ∀ b ∈ v, valueByte b := by
  constructor
  . rintro ⟨a, x, h, v, rfl, hx, hh, hv⟩
    obtain ⟨scheme, user, hauth, hrest⟩ := authority_of_url_head hx hh
    exact ⟨a, scheme, user, v, by rw [← hauth]; rfl, hrest.1, hrest.2.1, hrest.2.2, hv⟩
  . rintro ⟨a, scheme, user, v, rfl, hscheme, hne, huser, hv⟩
    cases hauth : authority scheme user with
    | nil => simp [authority] at hauth
    | cons x h =>
      obtain ⟨hx, hh⟩ := url_head_of_authority hauth hscheme hne huser
      exact ⟨a, x, h, v, rfl, hx, hh, hv⟩

theorem url_mem_ways_iff {s : GoString} {f : Pattern.Found UInt8}
    : f ∈ urlUserInfoPattern.ways s ↔ ∃ scheme user g, s = authority scheme user ++ (g ++ atByte :: f.rest) ∧
      f.front = authority scheme user ∧ f.back = [atByte] ∧ KnownScheme scheme ∧ user ≠ [] ∧
      (∀ b ∈ user, userByte b) ∧ ∀ b ∈ g, valueByte b := by
  rw [Pattern.mem_ways]
  constructor
  . rintro ⟨x, h, g, hs, hfront, hx, hh, hg, c, hback, hc⟩
    obtain ⟨scheme, user, hauth, hrest⟩ := authority_of_url_head hx hh
    rw [of_decide_eq_true hc] at hback
    refine ⟨scheme, user, g, ?_, by rw [hfront, hauth], hback, hrest.1, hrest.2.1, hrest.2.2, hg⟩
    rw [hs, ← hauth, hback]
    simp
  . rintro ⟨scheme, user, g, hs, hfront, hback, hscheme, hne, huser, hg⟩
    cases hauth : authority scheme user with
    | nil => simp [authority] at hauth
    | cons x h =>
      obtain ⟨hx, hh⟩ := url_head_of_authority hauth hscheme hne huser
      refine ⟨x, h, g, by rw [hs, hauth, hback]; simp, by rw [hfront, hauth], hx, hh, hg, atByte, hback,
        rfl⟩

section Scheme

variable {scheme : GoString}

theorem KnownScheme.not_mem (h : KnownScheme scheme) {c : UInt8}
    (hc : ∀ t ∈ knownSchemes, lower c ∉ t)
    : c ∉ scheme :=
  fun hmem => hc _ h (List.mem_map_of_mem hmem)

theorem KnownScheme.not_mem_colon (h : KnownScheme scheme) {c : UInt8}
    (hc : c = slashByte ∨ c = atByte)
    : c ∉ scheme ++ [colonByte] := by
  simp only [List.mem_append, List.mem_singleton, not_or]
  rcases hc with rfl | rfl
  . exact ⟨h.not_mem (by decide), by decide⟩
  . exact ⟨h.not_mem (by decide), by decide⟩

theorem KnownScheme.ne_nil (h : KnownScheme scheme) : scheme ≠ [] := by
  rintro rfl
  exact absurd h (by unfold KnownScheme; decide)

theorem KnownScheme.eq_nil_of_append (h : KnownScheme scheme) {s : GoString}
    (hs : KnownScheme (s ++ scheme))
    : s = [] := by
  have hall : ∀ t ∈ knownSchemes, ∀ t' ∈ knownSchemes, t <:+ t' → t.length = t'.length := by
    decide
  unfold KnownScheme at hs
  rw [List.map_append] at hs
  have hlen := hall _ h _ hs (List.suffix_append _ _)
  simp only [List.length_append, List.length_map] at hlen
  exact List.length_eq_zero_iff.mp (by omega)

end Scheme

variable {scheme user : GoString} {repl : GoString}

theorem exists_of_append_cons {c : UInt8} {m w d r : GoString} (hm : c ∉ m) (h : m ++ w = d ++ c :: r)
    : ∃ b, d = m ++ b ∧ w = b ++ c :: r := by
  rcases List.append_eq_append_iff.mp h with ⟨b, hd, hw⟩ | ⟨b, hd, hr⟩
  . exact ⟨b, hd, hw⟩
  . cases b with
    | nil => exact ⟨[], by simpa using hd.symm, by simpa using hr.symm⟩
    | cons y b =>
      rw [List.cons_append, List.cons.injEq] at hr
      rw [hd, hr.1] at hm
      simp at hm

theorem not_mem_of_userByte {s : GoString} (h : ∀ b ∈ s, userByte b)
    : slashByte ∉ s ∧ atByte ∉ s ∧ colonByte ∉ s :=
  ⟨fun hmem => (userByte_iff.mp (h _ hmem)).1 rfl, fun hmem => (userByte_iff.mp (h _ hmem)).2.1 rfl,
    fun hmem => (userByte_iff.mp (h _ hmem)).2.2 rfl⟩

theorem not_mem_of_valueByte {s : GoString} (h : ∀ b ∈ s, valueByte b) : atByte ∉ s ∧ slashByte ∉ s :=
  ⟨fun hmem => (valueByte_iff.mp (h _ hmem)).1 rfl, fun hmem => (valueByte_iff.mp (h _ hmem)).2 rfl⟩

theorem url_find (hscheme : KnownScheme scheme) (hne : user ≠ []) (huser : ∀ b ∈ user, userByte b)
    {g : GoString} (hg : ∀ b ∈ g, valueByte b) (rest : GoString)
    : urlUserInfoPattern.find (authority scheme user ++ (g ++ atByte :: rest))
      = some { front := authority scheme user, back := [atByte], rest := rest } := by
  apply Pattern.find_of_unique
  . exact url_mem_ways_iff.mpr ⟨scheme, user, g, rfl, rfl, rfl, hscheme, hne, huser, hg⟩
  . intro f hf
    obtain ⟨scheme', user', g', htext, hfront, hback, hscheme', -, huser', hg'⟩ := url_mem_ways_iff.mp hf
    have htext : (scheme ++ [colonByte]) ++ slashByte :: slashByte :: (user ++ colonByte :: (g ++ atByte :: rest))
        = (scheme' ++ [colonByte]) ++
          slashByte :: slashByte :: (user' ++ colonByte :: (g' ++ atByte :: f.rest)) := by
      simpa [authority] using htext
    obtain ⟨hschemes, htext⟩ := append_cons_inj (hscheme.not_mem_colon (.inl rfl))
      (hscheme'.not_mem_colon (.inl rfl)) htext
    rw [List.cons.injEq] at htext
    obtain ⟨husers, htext⟩ := append_cons_inj (not_mem_of_userByte huser).2.2
      (not_mem_of_userByte huser').2.2 htext.2
    obtain ⟨-, hrest⟩ := append_cons_inj (not_mem_of_valueByte hg).1 (not_mem_of_valueByte hg').1 htext
    have hfront : f.front = authority scheme user := by
      rw [hfront, ← husers, ← List.append_cancel_right hschemes]
    rw [hrest, ← hback, ← hfront]

theorem url_match (repl : GoString) (hscheme : KnownScheme scheme) (hne : user ≠ [])
    (huser : ∀ b ∈ user, userByte b) {g : GoString} (hg : ∀ b ∈ g, valueByte b) (rest : GoString)
    : urlUserInfoPattern.replaceAll repl (authority scheme user ++ (g ++ atByte :: rest))
      = authority scheme user ++ (repl ++ atByte :: urlUserInfoPattern.replaceAll repl rest) := by
  rw [Pattern.replaceAll_of_find (url_find hscheme hne huser hg rest)]
  simp

/--
A match that ends in `@` and has no slash in its last part ends before a text with no `@` before its
first slash.
-/
theorem length_le_of_match {s m rest pre r : GoString} (hm : slashByte ∉ m) (hpre : atByte ∉ pre)
    (h : s ++ (pre ++ slashByte :: r) = (m ++ [atByte]) ++ rest)
    : (pre ++ slashByte :: r).length ≤ rest.length := by
  rcases List.append_eq_append_iff.mp h with ⟨w, hw, hrest⟩ | ⟨w, -, hrest⟩
  . rcases List.eq_nil_or_concat w with rfl | ⟨w, last, rfl⟩
    . rw [List.nil_append] at hrest
      rw [hrest]
    . rw [List.concat_eq_append] at hw hrest
      rw [← List.append_assoc] at hw
      obtain ⟨rfl, hlast⟩ := List.append_inj' hw rfl
      rw [← hlast] at hrest
      -- the part of the match in the text has no slash, so it ends before the first one
      obtain ⟨b, hb, -⟩ := exists_of_append_cons (m := w ++ [atByte]) (d := pre) (w := rest) (r := r)
        (c := slashByte) (by simpa using ⟨fun h => hm (by simp [h]), by decide⟩) (by simpa using hrest.symm)
      exact absurd (by rw [hb]; simp) hpre
  . simp only [hrest, List.length_append]
    omega

theorem url_append (repl : GoString) (hscheme : KnownScheme scheme) (s t : GoString)
    : urlUserInfoPattern.replaceAll repl (s ++ (scheme ++ colonByte :: slashByte :: slashByte :: t))
      = urlUserInfoPattern.replaceAll repl s ++
        urlUserInfoPattern.replaceAll repl (scheme ++ colonByte :: slashByte :: slashByte :: t) := by
  apply Pattern.replaceAll_append
  intro s' hne _ f hf
  obtain ⟨scheme', user, g, htext, -, -, hscheme', -, huser, hg⟩ := url_mem_ways_iff.mp hf
  have hslash : slashByte ∉ user ++ colonByte :: g := by
    simp only [List.mem_append, List.mem_cons, not_or]
    exact ⟨(not_mem_of_userByte huser).1, by decide, (not_mem_of_valueByte hg).2⟩
  have htext : s' ++ ((scheme ++ [colonByte]) ++ slashByte :: slashByte :: t)
      = (scheme' ++ [colonByte]) ++ slashByte :: slashByte :: (((user ++ colonByte :: g) ++ [atByte]) ++ f.rest) := by
    simpa [authority] using htext
  have hX : (scheme ++ colonByte :: slashByte :: slashByte :: t)
      = (scheme ++ [colonByte]) ++ slashByte :: slashByte :: t := by simp
  rw [hX]
  by_cases hmem : slashByte ∈ s'
  . -- the scheme of the match lies before a slash of `s'`
    obtain ⟨s₁, s₂, rfl, hs₁⟩ := List.eq_append_cons_of_mem hmem
    rw [List.append_assoc, List.cons_append] at htext
    obtain ⟨-, htext⟩ := append_cons_inj hs₁ (hscheme'.not_mem_colon (.inl rfl)) htext
    cases s₂ with
    | nil =>
      obtain ⟨x, scheme, rfl⟩ := List.exists_cons_of_ne_nil hscheme.ne_nil
      rw [List.nil_append, List.cons_append, List.cons_append, List.cons.injEq] at htext
      exact absurd (by simp [htext.1]) (hscheme.not_mem_colon (.inl rfl))
    | cons y s₂ =>
      rw [List.cons_append, List.cons.injEq] at htext
      exact length_le_of_match hslash (hscheme.not_mem_colon (.inr rfl)) htext.2
  . -- the two schemes end at the same place
    have hnot : slashByte ∉ s' ++ (scheme ++ [colonByte]) := by
      rw [List.mem_append, not_or]
      exact ⟨hmem, hscheme.not_mem_colon (.inl rfl)⟩
    rw [← List.append_assoc] at htext
    obtain ⟨hend, -⟩ := append_cons_inj hnot (hscheme'.not_mem_colon (.inl rfl)) htext
    rw [← List.append_assoc] at hend
    rw [← List.append_cancel_right hend] at hscheme'
    exact absurd (hscheme.eq_nil_of_append hscheme') hne

theorem url_of_not_mem {s : GoString} (h : atByte ∉ s) : urlUserInfoPattern.replaceAll repl s = s := by
  apply Pattern.replaceAll_of_ways
  rintro s' hsuf f hf
  obtain ⟨scheme, user, g, rfl, -⟩ := url_mem_ways_iff.mp hf
  exact h (hsuf.subset (by simp))

theorem url_of_open (repl : GoString) {s : GoString} (hopen : urlUserInfoPattern.Open s)
    : ∃ out, ∀ w rest, w.dropWhile valueByte = atByte :: rest →
      urlUserInfoPattern.replaceAll repl (s ++ w) = out ++ urlUserInfoPattern.replaceAll repl rest := by
  obtain ⟨a, scheme, user, v, rfl, hscheme, hne, huser, hv⟩ := url_open_iff.mp hopen
  refine ⟨urlUserInfoPattern.replaceAll repl a ++ (authority scheme user ++ (repl ++ [atByte])),
    fun w rest hw => ?_⟩
  have hvalue : ∀ b ∈ v ++ w.takeWhile valueByte, valueByte b := by
    intro b hb
    rcases List.mem_append.mp hb with hb | hb
    . exact hv b hb
    . exact List.mem_takeWhile_imp hb
  have hmatch := url_match repl hscheme hne huser hvalue rest
  have happend := url_append repl hscheme a (user ++ colonByte :: (v ++ w))
  have htext : a ++ (authority scheme user ++ v) ++ w
      = a ++ (scheme ++ colonByte :: slashByte :: slashByte :: (user ++ colonByte :: (v ++ w))) := by
    simp [authority]
  have htext' : scheme ++ colonByte :: slashByte :: slashByte :: (user ++ colonByte :: (v ++ w))
      = authority scheme user ++ ((v ++ w.takeWhile valueByte) ++ atByte :: rest) := by
    rw [List.append_assoc, ← hw, List.takeWhile_append_dropWhile]
    simp [authority]
  rw [htext, happend, htext', hmatch]
  simp

theorem KnownScheme.not_boundary (h : KnownScheme scheme) {b : UInt8}
    (hb : b ∈ scheme ++ [colonByte, slashByte, slashByte])
    : boundary b = false := by
  by_contra hbound
  simp only [boundary, Bool.not_eq_false, Bool.and_eq_true, decide_eq_true_eq] at hbound
  have hbytes : ∀ t ∈ knownSchemes, t ⊆ ascii "pasword=h2+tc:/" := by decide
  rcases List.mem_append.mp hb with hb | hb
  . exact hbound.2 (hbytes _ h (List.mem_map_of_mem hb))
  . have hsep : [colonByte, slashByte, slashByte].map lower ⊆ ascii "pasword=h2+tc:/" := by decide
    exact hbound.2 (hsep (List.mem_map_of_mem hb))

/--
The first `c` after `d` is not in `m`, so it is before it or after it.
-/
theorem split_around {c : UInt8} {t m w d r : GoString} (hm : c ∉ m) (h : t ++ (m ++ w) = d ++ c :: r)
    : (∃ v, t = d ++ c :: v ∧ r = v ++ (m ++ w)) ∨ ∃ u, d = t ++ (m ++ u) ∧ w = u ++ c :: r := by
  rcases List.append_eq_append_iff.mp h with ⟨d', hd, hrest⟩ | ⟨v, ht, hrest⟩
  . obtain ⟨u, rfl, hw⟩ := exists_of_append_cons hm hrest
    exact .inr ⟨u, hd, hw⟩
  . cases v with
    | nil =>
      obtain ⟨u, hu, hw⟩ := exists_of_append_cons (d := []) hm (by simpa using hrest.symm)
      exact .inr ⟨u, by rw [← hu, List.append_nil]; simpa using ht.symm, hw⟩
    | cons y v =>
      rw [List.cons_append, List.cons.injEq] at hrest
      rw [← hrest.1] at ht
      exact .inl ⟨v, ht, hrest.2⟩

/--
A scheme does not reach a text that begins with a byte of none.
-/
theorem KnownScheme.split (h : KnownScheme scheme) {s m w rest : GoString} (hm : slashByte ∉ m)
    (hw : Bounded w) (htext : s ++ (m ++ w) = scheme ++ colonByte :: slashByte :: slashByte :: rest)
    : ∃ t, s = scheme ++ colonByte :: slashByte :: slashByte :: t ∧ t ++ (m ++ w) = rest := by
  have htext : s ++ (m ++ w) = (scheme ++ [colonByte, slashByte]) ++ slashByte :: rest := by
    simpa using htext
  rcases split_around hm htext with ⟨t, hs, hrest⟩ | ⟨u, hu, rfl⟩
  . exact ⟨t, by simpa using hs, hrest.symm⟩
  . -- the first byte of `w` is one of the scheme or the slash after it
    obtain ⟨b, hb, hmem⟩ : ∃ b ∈ (u ++ slashByte :: rest).head?,
        b ∈ scheme ++ [colonByte, slashByte, slashByte] := by
      cases u with
      | nil => exact ⟨slashByte, rfl, by simp⟩
      | cons b u =>
        have hmem : b ∈ scheme ++ [colonByte, slashByte] := by
          rw [hu]
          simp
        exact ⟨b, rfl, by simpa using hmem⟩
    have := h.not_boundary hmem
    rw [hw b hb] at this
    exact absurd this (by decide)

/--
A match that begins in `s` and runs over `m` has its scheme in `s`. The text `m` is part of the user,
or of the password.
-/
theorem url_runs {s m w : GoString} {f : Pattern.Found UInt8} (hm : ∀ b ∈ m, userByte b)
    (hw : Bounded w) (hf : f ∈ urlUserInfoPattern.ways (s ++ (m ++ w)))
    (hlen : ¬ (m ++ w).length ≤ f.rest.length)
    : ∃ scheme t, KnownScheme scheme ∧ s = scheme ++ colonByte :: slashByte :: slashByte :: t ∧
      (((∀ b ∈ t, userByte b) ∧ ∃ u g, w = u ++ colonByte :: (g ++ atByte :: f.rest) ∧
          (∀ b ∈ u, userByte b) ∧ ∀ b ∈ g, valueByte b) ∨
        ∃ user v g, t = user ++ colonByte :: v ∧ w = g ++ atByte :: f.rest ∧ user ≠ [] ∧
          (∀ b ∈ user, userByte b) ∧ (∀ b ∈ v, valueByte b) ∧ ∀ b ∈ g, valueByte b) := by
  obtain ⟨hslash, hat, hcolon⟩ := not_mem_of_userByte hm
  obtain ⟨scheme, user, g, htext, -, -, hscheme, hne, huser, hg⟩ := url_mem_ways_iff.mp hf
  have htext : s ++ (m ++ w) = scheme ++ colonByte :: slashByte :: slashByte ::
      (user ++ colonByte :: (g ++ atByte :: f.rest)) := by
    simpa [authority] using htext
  obtain ⟨t, hs, htext⟩ := hscheme.split hslash hw htext
  refine ⟨scheme, t, hscheme, hs, ?_⟩
  rcases split_around hcolon htext with ⟨v, ht, hrest⟩ | ⟨u, rfl, hw'⟩
  . rcases split_around hat hrest.symm with ⟨v', -, hrest⟩ | ⟨g', rfl, hw'⟩
    . -- the match ends in `s`
      rw [hrest] at hlen
      simp at hlen
    . exact .inr ⟨user, v, g', ht, hw', hne, huser, fun b hb => hg b (by simp [hb]),
        fun b hb => hg b (by simp [hb])⟩
  . exact .inl ⟨fun b hb => huser b (by simp [hb]), u, g, hw', fun b hb => huser b (by simp [hb]), hg⟩

theorem url_userBytes {m w : GoString} (hm : ∀ b ∈ m, userByte b) (hw : Bounded w)
    : urlUserInfoPattern.replaceAll repl (m ++ w) = m ++ urlUserInfoPattern.replaceAll repl w := by
  rw [Pattern.replaceAll_append, url_of_not_mem (not_mem_of_userByte hm).2.1]
  intro s' _ hsuf f hf
  by_contra hlen
  obtain ⟨scheme, t, -, hs, -⟩ := url_runs (m := []) (by simp) hw hf hlen
  exact (not_mem_of_userByte hm).1 (hsuf.subset (by rw [hs]; simp))

/--
A text in the middle of a user is kept, the password of this user is not.
-/
theorem url_in_user (repl : GoString) {a t m u g rest : GoString} (hscheme : KnownScheme scheme)
    (hne : t ≠ []) (ht : ∀ b ∈ t, userByte b) (hm : ∀ b ∈ m, userByte b) (hu : ∀ b ∈ u, userByte b)
    (hg : ∀ b ∈ g, valueByte b)
    : urlUserInfoPattern.replaceAll repl (a ++ (scheme ++ colonByte :: slashByte :: slashByte :: t) ++
        (m ++ (u ++ colonByte :: (g ++ atByte :: rest))))
      = urlUserInfoPattern.replaceAll repl (a ++ (scheme ++ colonByte :: slashByte :: slashByte :: t)) ++
        (m ++ (u ++ colonByte :: (repl ++ atByte :: urlUserInfoPattern.replaceAll repl rest))) := by
  have huser : ∀ b ∈ t ++ (m ++ u), userByte b := by
    intro b hb
    simp only [List.mem_append] at hb
    rcases hb with hb | hb | hb
    . exact ht b hb
    . exact hm b hb
    . exact hu b hb
  have hfront : urlUserInfoPattern.replaceAll repl (scheme ++ colonByte :: slashByte :: slashByte :: t)
      = scheme ++ colonByte :: slashByte :: slashByte :: t := by
    apply url_of_not_mem
    simp only [List.mem_append, List.mem_cons, not_or]
    exact ⟨hscheme.not_mem (by decide), by decide, by decide, by decide, (not_mem_of_userByte ht).2.1⟩
  have hmatch := url_match repl hscheme (by simp [hne]) huser hg rest
  have happend := url_append repl hscheme a (t ++ (m ++ (u ++ colonByte :: (g ++ atByte :: rest))))
  simp only [authority, List.append_assoc, List.cons_append, List.nil_append] at hmatch happend ⊢
  rw [happend, url_append repl hscheme, hfront, hmatch]
  simp

theorem Marked.getLast?_ne {s : GoString} (h : Marked s) : s.getLast? ≠ some slashByte := by
  obtain ⟨mark, hmark, a, rfl⟩ := h
  have hlast : ∀ mark ∈ marks, mark ≠ [] ∧ mark.getLast? ≠ some slashByte := by decide
  rw [List.getLast?_append_of_ne_nil _ (hlast mark hmark).1]
  exact (hlast mark hmark).2

theorem url_kept (repl : GoString) {s w : GoString} (hs : Marked s) (hw : Bounded w)
    (hopen : ¬ (urlUserInfoPattern.Open s ∧ ∃ rest, w.dropWhile valueByte = atByte :: rest))
    : ∃ out, out.head? = w.head? ∧ ∀ m, (∀ b ∈ m, userByte b) →
      urlUserInfoPattern.replaceAll repl (s ++ (m ++ w))
        = urlUserInfoPattern.replaceAll repl s ++ (m ++ out) := by
  by_cases hruns : ∃ a scheme t u g rest,
      s = a ++ (scheme ++ colonByte :: slashByte :: slashByte :: t) ∧
      w = u ++ colonByte :: (g ++ atByte :: rest) ∧ KnownScheme scheme ∧ t ≠ [] ∧
      (∀ b ∈ t, userByte b) ∧ (∀ b ∈ u, userByte b) ∧ ∀ b ∈ g, valueByte b
  . obtain ⟨a, scheme, t, u, g, rest, rfl, rfl, hscheme, hne, ht, hu, hg⟩ := hruns
    refine ⟨u ++ colonByte :: (repl ++ atByte :: urlUserInfoPattern.replaceAll repl rest), ?_,
      fun m hm => url_in_user repl hscheme hne ht hm hu hg⟩
    cases u <;> rfl
  . refine ⟨urlUserInfoPattern.replaceAll repl w, Pattern.head?_replaceAll _ _ _, fun m hm => ?_⟩
    rw [← url_userBytes hm hw]
    apply Pattern.replaceAll_append
    rintro s' - ⟨a, rfl⟩ f hf
    by_contra hlen
    obtain ⟨scheme, t, hscheme, rfl, ⟨ht, u, g, rfl, hu, hg⟩ | ⟨user, v, g, rfl, rfl, hne, huser, hv, hg⟩⟩ :=
      url_runs hm hw hf hlen
    . refine hruns ⟨a, scheme, t, u, g, f.rest, rfl, rfl, hscheme, ?_, ht, hu, hg⟩
      -- a password does not begin right after the slashes
      rintro rfl
      exact hs.getLast?_ne (by simp [List.getLast?_append])
    . refine hopen ⟨url_open_iff.mpr ⟨a, scheme, user, v, by simp [authority], hscheme, hne, huser, hv⟩,
        f.rest, ?_⟩
      rw [List.dropWhile_append_of_pos hg, List.dropWhile_cons_of_neg (by decide)]

theorem marked_url {s : GoString} (hs : Marked s) : Marked (urlUserInfoPattern.replaceAll repl s) := by
  obtain ⟨mark, hmark, a, rfl⟩ := hs
  have hat : atByte ∉ mark := by
    have hall : ∀ mark ∈ marks, atByte ∉ mark := by decide
    exact hall mark hmark
  refine ⟨mark, hmark, urlUserInfoPattern.replaceAll repl a, ?_⟩
  rw [Pattern.replaceAll_append, url_of_not_mem hat]
  rintro s' - - f hf
  obtain ⟨scheme, user, g, htext, -⟩ := url_mem_ways_iff.mp hf
  -- a match ends in `@`
  rw [← List.append_assoc] at htext
  rcases List.append_eq_append_iff.mp htext with ⟨b, -, hb⟩ | ⟨b, -, hb⟩
  . exact absurd (by rw [hb]; simp) hat
  . cases b with
    | nil => exact absurd (by rw [← List.nil_append mark, ← hb]; simp) hat
    | cons y b =>
      rw [List.cons_append, List.cons.injEq] at hb
      simp [hb.2]

end H2Go
