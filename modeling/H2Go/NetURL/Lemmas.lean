import H2Go.NetURL.Impl
import Mathlib.Data.List.TakeWhile

/-!
This module contains what the URL parser does to texts that need no escapes.
-/

namespace H2Go

open Digits Strings

namespace ExceptLemmas

variable {ε ε' α β : Type}

theorem bind_eq_ok {x : Except ε α} {f : α → Except ε β} {b : β}
    : (x >>= f) = .ok b ↔ ∃ a, x = .ok a ∧ f a = .ok b := by
  cases x with
  | error e => simp [bind, Except.bind]
  | ok a => simp [bind, Except.bind]

theorem exists_eq_ok_and_iff {a : α} {p : α → Prop}
    : (∃ b, (Except.ok a : Except ε α) = .ok b ∧ p b) ↔ p a := by
  simp

theorem mapError_eq_ok {x : Except ε α} {f : ε → ε'} {a : α}
    : x.mapError f = .ok a ↔ x = .ok a := by
  cases x with
  | error e => simp [Except.mapError]
  | ok a => simp [Except.mapError]

theorem map_eq_ok {x : Except ε α} {f : α → β} {b : β} : x.map f = .ok b ↔ ∃ a, x = .ok a ∧ f a = b := by
  cases x with
  | error e => simp [Except.map]
  | ok a => simp [Except.map]

end ExceptLemmas

open ExceptLemmas

namespace NetURL

/--
A byte that stands for itself in the given part of a URL.
-/
def literal (mode : Encoding) (b : UInt8) : Bool :=
  b ≠ percentByte && (b ≠ plusByte || mode ≠ .queryComponent) &&
    ((mode ≠ .host && mode ≠ .zone) || !shouldEscapeHost b)

theorem unescape_cons {mode : Encoding} {b : UInt8} (h : literal mode b) (s : GoString)
    : unescape mode (b :: s) = (unescape mode s).map (b :: ·) := by
  simp only [literal, Bool.and_eq_true, Bool.or_eq_true, decide_eq_true_eq, Bool.not_eq_true'] at h
  rw [unescape.eq_def]
  dsimp only
  rw [if_neg h.1.1, if_neg (by tauto), if_neg]
  rintro ⟨hmode, -, hesc⟩
  rcases h.2 with h2 | h2
  . tauto
  . simp [hesc] at h2

theorem unescape_append {mode : Encoding} {a : GoString} (h : ∀ b ∈ a, literal mode b) (s : GoString)
    : unescape mode (a ++ s) = (unescape mode s).map (a ++ ·) := by
  induction a with
  | nil =>
    rw [List.nil_append]
    cases unescape mode s <;> rfl
  | cons b a ih =>
    rw [List.cons_append, unescape_cons (h b (by simp)), ih (fun b hb => h b (by simp [hb]))]
    cases unescape mode s <;> rfl

theorem unescape_of_literal {mode : Encoding} {a : GoString} (h : ∀ b ∈ a, literal mode b)
    : unescape mode a = .ok a := by
  have := unescape_append h []
  rw [List.append_nil] at this
  rw [this]
  simp [unescape, Except.map]

theorem unescape_path_of_ne {b : UInt8} (hb : b ≠ percentByte) {s p : GoString}
    (h : unescape .path (b :: s) = .ok p)
    : ∃ q, unescape .path s = .ok q ∧ p = b :: q := by
  have hlit : literal .path b := by simp [literal, hb]
  rw [unescape_cons hlit, map_eq_ok] at h
  obtain ⟨q, hq, rfl⟩ := h
  exact ⟨q, hq, rfl⟩

theorem unescape_percent {mode : Encoding} {s r : GoString}
    : unescape mode (percentByte :: s) = .ok r ↔
      ∃ h l s' q, s = h :: l :: s' ∧ tripletAllowed mode h l = true ∧ unescape mode s' = .ok q ∧
        r = unhex h l :: q := by
  rw [unescape.eq_def]
  dsimp only
  rw [if_pos rfl]
  constructor
  . intro h
    split at h
    . next d e s' =>
      split at h
      . next hallowed =>
        obtain ⟨q, hq, rfl⟩ := map_eq_ok.mp h
        exact ⟨d, e, s', q, rfl, hallowed, hq, rfl⟩
      . cases h
    . cases h
  . rintro ⟨d, e, s', q, rfl, hallowed, hq, rfl⟩
    simp only [hallowed, if_true, hq]
    rfl

theorem unescape_path_of_percent {s p : GoString} (h : unescape .path (percentByte :: s) = .ok p)
    : ∃ d e s' q, s = d :: e :: s' ∧ d ≠ backslashByte ∧ e ≠ backslashByte ∧
      unescape .path s' = .ok q ∧ p = unhex d e :: q := by
  obtain ⟨d, e, s', q, rfl, hallowed, hq, rfl⟩ := unescape_percent.mp h
  simp only [tripletAllowed, Bool.and_true, Bool.and_eq_true] at hallowed
  refine ⟨d, e, s', q, rfl, ?_, ?_, hq, rfl⟩
  . rintro rfl
    exact absurd hallowed.1 (by decide)
  . rintro rfl
    exact absurd hallowed.2 (by decide)

def schemeByte (c : UInt8) : Bool :=
  isLetter c || (isDecimal c || c = plusByte || c = minusByte || c = dotByte)

theorem getScheme_go {rawURL : GoString} (scheme : GoString) {a : GoString}
    (ha : ∀ c ∈ a, schemeByte c) (hscheme : scheme ≠ [] ∨ ∃ c a', a = c :: a' ∧ isLetter c)
    (rest : GoString)
    : getScheme.go rawURL scheme (a ++ colonByte :: rest) = .ok (scheme ++ a, rest) := by
  induction a generalizing scheme with
  | nil =>
    have hne : scheme ≠ [] := by
      rcases hscheme with h | ⟨c, a', h, -⟩
      . exact h
      . simp at h
    simp only [List.nil_append, getScheme.go, List.append_nil]
    rw [if_neg (by decide), if_neg (by decide), if_pos trivial, if_neg hne]
  | cons c a ih =>
    have hnext := ih (scheme ++ [c]) (fun c hc => ha c (by simp [hc])) (.inl (by simp))
    simp only [List.append_assoc, List.singleton_append] at hnext
    simp only [List.cons_append, getScheme.go]
    split
    . exact hnext
    . next hletter =>
      have hc : (isDecimal c || c = plusByte || c = minusByte || c = dotByte) = true := by
        have := ha c (by simp)
        rw [schemeByte, Bool.or_eq_true] at this
        exact this.resolve_left hletter
      rw [if_pos hc, if_neg]
      . exact hnext
      . rcases hscheme with h | ⟨c', a', h, hc'⟩
        . exact h
        . cases h
          exact absurd hc' hletter

/--
An absolute path, or none at all.
-/
def Rooted (path : GoString) : Prop := path = [] ∨ ∃ p, path = slashByte :: p

theorem Rooted.cut {path : GoString} (h : Rooted path) {c : UInt8} (hc : c ≠ slashByte)
    : Rooted (cut c path).1 := by
  rcases h with rfl | ⟨p, rfl⟩
  . exact .inl rfl
  . refine .inr ⟨(Strings.cut c p).1, ?_⟩
    simp only [Strings.cut, Ne.symm hc, if_false]

theorem split_authority {authority path : GoString} (hauth : ∀ b ∈ authority, b ≠ slashByte)
    (hpath : Rooted path)
    : (authority ++ path).takeWhile (· ≠ slashByte) = authority ∧
      (authority ++ path).dropWhile (· ≠ slashByte) = path := by
  have hall : ∀ b ∈ authority, decide (b ≠ slashByte) = true := fun b hb => decide_eq_true (hauth b hb)
  rcases hpath with rfl | ⟨p, rfl⟩
  . rw [List.append_nil]
    exact ⟨List.takeWhile_eq_self_iff.mpr hall, List.dropWhile_eq_nil_iff.mpr hall⟩
  . rw [List.takeWhile_append_of_pos hall, List.dropWhile_append_of_pos hall]
    simp

def Printable (s : GoString) : Prop := ∀ b ∈ s, 0x20 ≤ b.toNat ∧ b.toNat ≠ 0x7F

theorem printable_iff {s : GoString}
    : Printable s ↔ ¬ s.any (fun b => b.toNat < 0x20 || b.toNat = 0x7F) = true := by
  simp only [List.any_eq_true, Bool.or_eq_true, decide_eq_true_eq, not_exists, not_and, not_or]
  refine forall_congr' fun b => forall_congr' fun _ => ?_
  omega

theorem printable_append {s t : GoString} : Printable (s ++ t) ↔ Printable s ∧ Printable t := by
  simp only [Printable, List.mem_append]
  exact ⟨fun h => ⟨fun b hb => h b (.inl hb), fun b hb => h b (.inr hb)⟩,
    fun h b hb => hb.elim (h.1 b) (h.2 b)⟩

theorem ne_star (scheme rest : GoString) : scheme ++ ascii "://" ++ rest ≠ ascii "*" := by
  intro h
  have := congrArg List.length h
  simp only [ascii, List.length_append, List.length_map, String.length_toList] at this
  have : "://".length = 3 := rfl
  have : "*".length = 1 := rfl
  omega

def Scheme (scheme : GoString) : Prop :=
  (∀ c ∈ scheme, schemeByte c) ∧ ∃ c a, scheme = c :: a ∧ isLetter c

section

variable {scheme rest : GoString} (hscheme : Scheme scheme)

include hscheme

/--
A URL with a scheme and an authority is accepted if its parts are, the query is cut off first.
-/
theorem parseURL_eq_ok {url : URL}
    : parseURL (scheme ++ ascii "://" ++ rest) = .ok url ↔
      Printable (scheme ++ ascii "://" ++ rest) ∧ ∃ user host p,
        parseAuthority ((cut questionByte rest).1.takeWhile (· ≠ slashByte)) = .ok (user, host) ∧
        unescape .path ((cut questionByte rest).1.dropWhile (· ≠ slashByte)) = .ok p ∧
        url = { user, host, path := p, rawQuery := (cut questionByte rest).2.getD [] } := by
  have hget : getScheme (scheme ++ ascii "://" ++ rest) = .ok (scheme, ascii "//" ++ rest) := by
    have htext : scheme ++ ascii "://" ++ rest = scheme ++ colonByte :: (ascii "//" ++ rest) := by
      simp [ascii, colonByte]
    unfold getScheme
    rw [htext, getScheme_go [] hscheme.1 (.inr hscheme.2), List.nil_append]
  have hcut : cut questionByte (ascii "//" ++ rest)
      = (ascii "//" ++ (cut questionByte rest).1, (cut questionByte rest).2) :=
    cut_append (by decide) rest
  have hne : scheme ≠ [] := by
    obtain ⟨-, c, a, h, -⟩ := hscheme
    simp [h]
  have hroot : (ascii "/").isPrefixOf (ascii "//" ++ (cut questionByte rest).1) = true := rfl
  have hsplit : splitAuthority (ascii "//" ++ (cut questionByte rest).1)
      = ((cut questionByte rest).1.takeWhile (· ≠ slashByte),
          (cut questionByte rest).1.dropWhile (· ≠ slashByte)) := rfl
  rw [printable_iff]
  unfold parseURL
  by_cases hctl : (scheme ++ ascii "://" ++ rest).any (fun b => b.toNat < 0x20 || b.toNat = 0x7F) = true
  . rw [if_pos hctl]
    exact ⟨nofun, fun h => absurd hctl h.1⟩
  . rw [if_neg hctl, if_neg (ne_star scheme rest), hget]
    dsimp only [bind, Except.bind]
    rw [hcut]
    dsimp only
    rw [if_neg (fun h => h.1 hroot), if_neg (fun h => h.1 hroot), if_pos ⟨.inl hne, rfl⟩, hsplit]
    generalize List.takeWhile _ (cut questionByte rest).1 = authority
    generalize List.dropWhile _ (cut questionByte rest).1 = path
    constructor
    . intro h
      cases hauthority : parseAuthority authority with
      | error e => simp [hauthority] at h
      | ok v =>
        cases hp : unescape .path path with
        | error e => simp [hauthority, hp] at h
        | ok p =>
          simp only [hauthority, hp, Except.ok.injEq] at h
          exact ⟨hctl, v.1, v.2, p, rfl, rfl, h.symm⟩
    . rintro ⟨-, user, host, p, hauthority, hp, rfl⟩
      simp only [hauthority, hp]

theorem parse_eq_ok {url : URL}
    : parse (scheme ++ ascii "://" ++ rest) = .ok url ↔
      Printable (scheme ++ ascii "://" ++ (cut hashByte rest).1) ∧ ∃ user host p f,
        parseAuthority ((cut questionByte (cut hashByte rest).1).1.takeWhile (· ≠ slashByte))
          = .ok (user, host) ∧
        unescape .path ((cut questionByte (cut hashByte rest).1).1.dropWhile (· ≠ slashByte)) = .ok p ∧
        unescape .fragment ((cut hashByte rest).2.getD []) = .ok f ∧
        url = { user, host, path := p,
                rawQuery := (cut questionByte (cut hashByte rest).1).2.getD [] } := by
  have hhash : hashByte ∉ scheme ++ ascii "://" := by
    intro hmem
    rcases List.mem_append.mp hmem with h | h
    . exact absurd (hscheme.1 _ h) (by decide)
    . exact absurd h (by decide)
  have hcut : cut hashByte (scheme ++ ascii "://" ++ rest)
      = (scheme ++ ascii "://" ++ (cut hashByte rest).1, (cut hashByte rest).2) :=
    cut_append hhash rest
  unfold parse
  rw [hcut]
  simp only [bind_eq_ok, mapError_eq_ok, parseURL_eq_ok hscheme]
  constructor
  . rintro ⟨_, ⟨hctl, user, host, p, hauthority, hp, rfl⟩, f, hf, h⟩
    cases h
    exact ⟨hctl, user, host, p, f, hauthority, hp, hf, rfl⟩
  . rintro ⟨hctl, user, host, p, f, hauthority, hp, hf, rfl⟩
    exact ⟨_, ⟨hctl, user, host, p, hauthority, hp, rfl⟩, f, hf, rfl⟩

end

/--
Text that may be written behind a URL. It does not begin a fragment, and neither contains an escape nor
completes one.
-/
structure Appendable (tail : GoString) : Prop where
  printable : Printable tail
  no_fragment : hashByte ∉ tail
  no_escape : percentByte ∉ tail
  no_digit : ∀ b ∈ tail.head?, digitValue b = none

theorem unescape_append_iff {mode : Encoding} (hmode : mode = .path ∨ mode = .fragment)
    {tail : GoString} (htail : Appendable tail) (s : GoString) {r : GoString}
    : unescape mode (s ++ tail) = .ok r ↔ ∃ p, unescape mode s = .ok p ∧ r = p ++ tail := by
  have hliteral : ∀ {b : UInt8}, b ≠ percentByte → literal mode b := by
    intro b hb
    rcases hmode with rfl | rfl <;> simp [literal, hb]
  have hrefused : ∀ {h l : UInt8}, digitValue h = none ∨ digitValue l = none →
      ¬ tripletAllowed mode h l = true := by
    intro h l hdigit
    rcases hdigit with hdigit | hdigit <;> simp [tripletAllowed, hdigit]
  induction hn : s.length using Nat.strongRecOn generalizing s r with
  | _ n ih =>
    subst hn
    cases s with
    | nil =>
      rw [List.nil_append, unescape_of_literal (fun b hb => hliteral (fun h => htail.no_escape (h ▸ hb)))]
      simp [unescape, eq_comm]
    | cons b s =>
      by_cases hb : b = percentByte
      . subst hb
        simp only [List.cons_append, unescape_percent]
        constructor
        . rintro ⟨h, l, s', q, hs, hallowed, hq, rfl⟩
          -- the triplet is complete without the tail
          match s with
          | [] => exact absurd hallowed (hrefused (.inl (htail.no_digit h (by simp [show tail = _ from hs]))))
          | [_] =>
            rw [List.singleton_append] at hs
            injection hs with _ hs
            exact absurd hallowed (hrefused (.inr (htail.no_digit l (by simp [hs]))))
          | h :: l :: s =>
            cases hs
            obtain ⟨p, hp, rfl⟩ := (ih s.length (by simp; omega) s rfl).mp hq
            exact ⟨_, ⟨h, l, s, p, rfl, hallowed, hp, rfl⟩, rfl⟩
        . rintro ⟨_, ⟨h, l, s, q, rfl, hallowed, hq, rfl⟩, rfl⟩
          exact ⟨h, l, s ++ tail, q ++ tail, rfl, hallowed,
            (ih s.length (by simp; omega) s rfl).mpr ⟨q, hq, rfl⟩, rfl⟩
      . simp only [List.cons_append, unescape_cons (hliteral hb), map_eq_ok]
        constructor
        . rintro ⟨_, hq, rfl⟩
          obtain ⟨p, hp, rfl⟩ := (ih s.length (by simp) s rfl).mp hq
          exact ⟨_, ⟨p, hp, rfl⟩, rfl⟩
        . rintro ⟨_, ⟨p, hp, rfl⟩, rfl⟩
          exact ⟨p ++ tail, (ih s.length (by simp) s rfl).mpr ⟨p, hp, rfl⟩, rfl⟩

/--
The URL of `text` when `tail` is written behind the text. What is behind a number sign is not looked at,
and what is behind a question mark is part of the query.
-/
def URL.extend (u : URL) (text tail : GoString) : URL :=
  if hashByte ∈ text then
    u
  else if questionByte ∈ text then
    { u with rawQuery := u.rawQuery ++ tail }
  else
    { u with path := u.path ++ (cut questionByte tail).1, rawQuery := (cut questionByte tail).2.getD [] }

theorem Appendable.cut {tail : GoString} (h : Appendable tail) (c : UInt8)
    : Appendable (cut c tail).1 where
  printable b hb := h.printable b (mem_of_mem_cut hb)
  no_fragment hb := h.no_fragment (mem_of_mem_cut hb)
  no_escape hb := h.no_escape (mem_of_mem_cut hb)
  no_digit b hb := by
    cases tail with
    | nil => cases hb
    | cons d tail =>
      simp only [Strings.cut] at hb
      split at hb
      . cases hb
      . exact h.no_digit b hb

theorem Scheme.printable {scheme : GoString} (h : Scheme scheme) : Printable (scheme ++ ascii "://") := by
  refine printable_append.mpr ⟨fun c hc => ?_, printable_iff.mpr (by decide)⟩
  have := h.1 c hc
  simp only [schemeByte, isLetter, isDecimal, Bool.or_eq_true, Bool.and_eq_true,
    decide_eq_true_eq] at this
  rcases this with (h | h) | ((h | rfl) | rfl) | rfl
  . omega
  . omega
  . omega
  all_goals decide

theorem parse_append {scheme scheme' text tail : GoString} (hscheme : Scheme scheme)
    (hscheme' : Scheme scheme') (hslash : slashByte ∈ text) (htail : Appendable tail) {u : URL}
    : parse (scheme ++ ascii "://" ++ (text ++ tail)) = .ok u ↔
      ∃ u', parse (scheme' ++ ascii "://" ++ text) = .ok u' ∧ u = u'.extend text tail := by
  simp only [parse_eq_ok hscheme, parse_eq_ok hscheme', printable_append (t := (Strings.cut _ _).1),
    hscheme.printable, hscheme'.printable, true_and]
  unfold URL.extend
  by_cases hhash : hashByte ∈ text
  . -- the tail is part of the fragment
    obtain ⟨front, back, rfl, hfront⟩ := List.eq_append_cons_of_mem hhash
    simp only [if_pos hhash, List.append_assoc, List.cons_append, cut_append_cons hfront,
      Option.getD_some, unescape_append_iff (.inr rfl) htail]
    constructor
    . rintro ⟨hctl, user, host, p, _, hauthority, hp, ⟨f, hf, rfl⟩, rfl⟩
      exact ⟨_, ⟨hctl, user, host, p, f, hauthority, hp, hf, rfl⟩, rfl⟩
    . rintro ⟨_, ⟨hctl, user, host, p, f, hauthority, hp, hf, rfl⟩, rfl⟩
      exact ⟨hctl, user, host, p, _, hauthority, hp, ⟨f, hf, rfl⟩, rfl⟩
  . simp only [if_neg hhash, cut_append hhash, cut_of_not_mem hhash, cut_of_not_mem htail.no_fragment,
      printable_append, htail.printable, and_true, Option.getD_none]
    by_cases hquestion : questionByte ∈ text
    . -- the tail is part of the query
      obtain ⟨front, back, rfl, hfront⟩ := List.eq_append_cons_of_mem hquestion
      simp only [if_pos hquestion, List.append_assoc, List.cons_append, cut_append_cons hfront,
        Option.getD_some]
      constructor
      . rintro ⟨hctl, user, host, p, f, hauthority, hp, hf, rfl⟩
        exact ⟨_, ⟨hctl, user, host, p, f, hauthority, hp, hf, rfl⟩, rfl⟩
      . rintro ⟨_, ⟨hctl, user, host, p, f, hauthority, hp, hf, rfl⟩, rfl⟩
        exact ⟨hctl, user, host, p, f, hauthority, hp, hf, rfl⟩
    . -- the tail begins in the path
      obtain ⟨authority, path, htext, hauthority⟩ := List.eq_append_cons_of_mem hslash
      have hsplit : ∀ s, (text ++ s).takeWhile (· ≠ slashByte) = authority ∧
          (text ++ s).dropWhile (· ≠ slashByte) = slashByte :: path ++ s := by
        intro s
        rw [htext, List.append_assoc]
        exact split_authority (fun b hb h => hauthority (h ▸ hb)) (.inr ⟨path ++ s, rfl⟩)
      have hsplit' := hsplit []
      rw [List.append_nil, List.append_nil] at hsplit'
      simp only [if_neg hquestion, cut_append hquestion, cut_of_not_mem hquestion, hsplit, hsplit',
        unescape_append_iff (.inl rfl) (htail.cut questionByte)]
      constructor
      . rintro ⟨hctl, user, host, _, f, hauthority, ⟨p, hp, rfl⟩, hf, rfl⟩
        exact ⟨_, ⟨hctl, user, host, p, f, hauthority, hp, hf, rfl⟩, rfl⟩
      . rintro ⟨_, ⟨hctl, user, host, p, f, hauthority, hp, hf, rfl⟩, rfl⟩
        exact ⟨hctl, user, host, _, f, hauthority, ⟨p, hp, rfl⟩, hf, rfl⟩

end NetURL

end H2Go
