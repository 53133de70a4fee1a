import H2Go.Lib.Strings
import H2Go.Logging.Impl

/-!
This module contains the patterns of the redaction that look for a key: what they match, and what they
make of a text between two others.
-/

namespace H2Go

open Digits Strings Regex

section FoldText

theorem lower_of_toNat_lt {b : UInt8} (h : b.toNat < 65) : lower b = b := by
  unfold lower
  split
  . omega
  . rfl

theorem eq_of_lower_eq {a b : UInt8} (hb : b.toNat < 65) (h : lower a = b) : a = b := by
  unfold lower at h
  split at h
  . next ha =>
    rw [← h, UInt8.toNat_add] at hb
    have : (32 : UInt8).toNat = 32 := rfl
    omega
  . exact h

theorem foldLetter_avoids {b c : UInt8} (hc : c.toNat < 128) (h : lower c ≠ lower b)
    : (foldLetter b).Avoids c := by
  intro m hm hmem
  unfold foldLetter at hm
  split at hm
  . next hb =>
    rcases hm with ⟨x, rfl, hx⟩ | ⟨_, _, rfl, ⟨x, rfl, hx⟩, y, rfl, hy⟩
    . rw [List.mem_singleton] at hmem
      rw [hb, hmem] at h
      exact h (of_decide_eq_true hx)
    . -- the bytes of the long s are not ASCII
      simp only [decide_eq_true_eq] at hx hy
      simp only [List.singleton_append, List.mem_cons, List.not_mem_nil, or_false, hx, hy] at hmem
      rcases hmem with rfl | rfl
      . exact absurd hc (by decide)
      . exact absurd hc (by decide)
  . obtain ⟨x, rfl, hx⟩ := hm
    rw [List.mem_singleton] at hmem
    rw [hmem] at h
    exact h (of_decide_eq_true hx)

theorem foldText_avoids {s : GoString} {c : UInt8} (hc : c.toNat < 128)
    (h : ∀ b ∈ s, lower c ≠ lower b)
    : (foldText s).Avoids c := by
  induction s with
  | nil =>
    rintro m hm
    rw [show m = [] from hm]
    simp
  | cons b s ih =>
    rintro _ ⟨x, y, rfl, hx, hy⟩ hmem
    rcases List.mem_append.mp hmem with hmem | hmem
    . exact foldLetter_avoids hc (h b (by simp)) x hx hmem
    . exact ih (fun b' hb' => h b' (by simp [hb'])) y hy hmem

theorem foldText_self (s : GoString) : (foldText s).Matches s := by
  induction s with
  | nil => exact (rfl : ([] : GoString) = [])
  | cons b s ih =>
    refine ⟨[b], s, rfl, ?_, ih⟩
    unfold foldLetter
    split
    . next hb => exact .inl ⟨b, rfl, decide_eq_true hb⟩
    . exact ⟨b, rfl, decide_eq_true rfl⟩

theorem eq_of_foldText {s m : GoString} (hs : s.all (fun b => b.toNat < 65)) (hm : (foldText s).Matches m)
    : m = s := by
  induction s generalizing m with
  | nil => exact hm
  | cons b s ih =>
    obtain ⟨x, y, rfl, hx, hy⟩ := hm
    rw [List.all_cons, Bool.and_eq_true] at hs
    have hb : b.toNat < 65 := of_decide_eq_true hs.1
    rw [ih hs.2 hy]
    rw [foldLetter, lower_of_toNat_lt hb, if_neg (by rintro rfl; exact absurd hb (by decide))] at hx
    obtain ⟨x, rfl, hx⟩ := hx
    rw [eq_of_lower_eq hb (of_decide_eq_true hx)]
    rfl

/--
Without the letter `s`, which has the long s as a case variant, the bytes are compared one by one.
-/
theorem foldText_iff {s m : GoString} (hs : 115 ∉ s.map lower)
    : (foldText s).Matches m ↔ m.map lower = s.map lower := by
  induction s generalizing m with
  | nil => simp [foldText, Re.Matches]
  | cons b s ih =>
    rw [List.map_cons, List.mem_cons, not_or] at hs
    rw [foldText, foldLetter, if_neg (fun h => hs.1 h.symm)]
    simp only [Re.Matches, List.map_cons, List.map_eq_cons_iff, decide_eq_true_eq]
    constructor
    . rintro ⟨_, m, rfl, ⟨x, rfl, hx⟩, hm⟩
      exact ⟨x, m, rfl, hx, (ih hs.2).mp hm⟩
    . rintro ⟨x, m, rfl, hx, hm⟩
      exact ⟨[x], m, rfl, ⟨x, rfl, hx⟩, (ih hs.2).mpr hm⟩

end FoldText

theorem append_cons_inj {c : UInt8} {a a' b b' : GoString} (ha : c ∉ a) (ha' : c ∉ a')
    (h : a ++ c :: b = a' ++ c :: b')
    : a = a' ∧ b = b' := by
  have := congrArg (cut c) h
  rw [cut_append_cons ha, cut_append_cons ha', Prod.mk.injEq, Option.some.injEq] at this
  exact this

section KeyValue

/--
The texts after which a password begins: the end of the user and the end of a key, which may be
written with an escape.
-/
def marks : List GoString := [ascii ":", ascii "=", ascii "%3D", ascii "%3d"]

def Marked (s : GoString) : Prop := ∃ mark ∈ marks, mark <:+ s

/--
The bytes that are in no word of the patterns.
-/
def boundary (b : UInt8) : Bool := b.toNat < 128 && lower b ∉ ascii "pasword=h2+tc:/"

def Bounded (s : GoString) : Prop := ∀ b ∈ s.head?, boundary b

/--
A pattern of a key that ends in `=` and a value that runs up to the next `sep`.
-/
structure KeyValue (p : Pattern UInt8) (sep : UInt8) : Prop where
  gap : p.gap = .star (fun b => b ≠ sep)
  tail : p.tail = .empty
  word : ∀ h, p.head.Matches h →
    ∃ k, h = k ++ [equalsByte] ∧ ∀ c : UInt8, c.toNat < 128 → lower c ∉ ascii "pasword" → c ∉ k
  first : ∀ x, p.first x → x.toNat < 128 ∧ lower x ∉ ascii "pasword=:%3d"
  sep : sep.toNat < 128 ∧ lower sep ∉ ascii "pasword=:%3d"

theorem foldText_word {s k : GoString} (hs : s.map lower ⊆ ascii "pasword")
    (hk : (foldText s).Matches k) (c : UInt8) (hc : c.toNat < 128) (hword : lower c ∉ ascii "pasword")
    : c ∉ k :=
  foldText_avoids hc (fun _ hb heq => hword (heq ▸ hs (List.mem_map_of_mem hb))) k hk

theorem foldText_append {s t m : GoString} (hm : (foldText (s ++ t)).Matches m)
    : ∃ a b, m = a ++ b ∧ (foldText s).Matches a ∧ (foldText t).Matches b := by
  induction s generalizing m with
  | nil => exact ⟨[], m, rfl, rfl, hm⟩
  | cons x s ih =>
    obtain ⟨a, _, rfl, ha, hm⟩ := hm
    obtain ⟨b, c, rfl, hb, hc⟩ := ih hm
    exact ⟨a ++ b, c, by simp, ⟨a, b, rfl, ha, hb⟩, hc⟩

theorem jdbc_keyValue : KeyValue jdbcPasswordPattern semicolonByte where
  gap := rfl
  tail := rfl
  word h hh := by
    obtain ⟨k, e, rfl, hk, he⟩ := foldText_append (s := ascii "PASSWORD") (t := ascii "=") hh
    exact ⟨k, by rw [eq_of_foldText (by decide) he]; rfl, foldText_word (by decide) hk⟩
  first x hx := by
    rw [of_decide_eq_true hx]
    decide
  sep := by decide

theorem query_keyValue : KeyValue queryPasswordPattern ampersandByte where
  gap := rfl
  tail := rfl
  word h hh := by
    obtain ⟨k, e, rfl, hk, he⟩ := hh
    refine ⟨k, by rw [eq_of_foldText (by decide) he]; rfl, ?_⟩
    rcases hk with hk | hk | hk | hk
    . exact foldText_word (by decide) hk
    . exact foldText_word (by decide) hk
    . exact foldText_word (by decide) hk
    . exact foldText_word (by decide) hk
  first x hx := by
    simp only [queryPasswordPattern, Bool.or_eq_true, decide_eq_true_eq] at hx
    rcases hx with rfl | rfl
    . decide
    . decide
  sep := by decide

theorem mark_byte {mark : GoString} (hmark : mark ∈ marks)
    : mark.map lower ⊆ ascii "pasword=:%3d" ∧
      ∃ c rest, mark = c :: rest ∧ c.toNat < 128 ∧ lower c ∉ ascii "pasword" ∧
        (lower c ∈ ascii "pasword=" → c = equalsByte ∧ rest = []) := by
  simp only [marks, List.mem_cons, List.not_mem_nil, or_false] at hmark
  rcases hmark with rfl | rfl | rfl | rfl
  . exact ⟨by decide, _, _, rfl, by decide⟩
  . exact ⟨by decide, _, _, rfl, by decide⟩
  . exact ⟨by decide, _, _, rfl, by decide⟩
  . exact ⟨by decide, _, _, rfl, by decide⟩

namespace KeyValue

variable {p : Pattern UInt8} {sep : UInt8} {s w : GoString}

theorem not_mem_head (hp : KeyValue p sep) {h : GoString} (hh : p.head.Matches h) {c : UInt8}
    (hc : c.toNat < 128) (hword : lower c ∉ ascii "pasword=")
    : c ∉ h := by
  obtain ⟨k, rfl, hk⟩ := hp.word h hh
  have hsub : ascii "pasword" ⊆ ascii "pasword=" := by decide
  simp only [List.mem_append, List.mem_singleton, not_or]
  refine ⟨hk c hc (fun hmem => hword (hsub hmem)), ?_⟩
  rintro rfl
  exact hword (by decide)

theorem keyed (hp : KeyValue p sep) : p.Keyed (fun b => b ≠ sep) where
  gap := hp.gap
  tail := hp.tail
  key h hh y hy := by
    have hsub : ascii "pasword=" ⊆ ascii "pasword=:%3d" := by decide
    constructor
    . by_contra hfirst
      obtain ⟨hlt, hword⟩ := hp.first y (by simpa using hfirst)
      exact hp.not_mem_head hh hlt (fun hmem => hword (hsub hmem)) hy
    . apply decide_eq_true
      rintro rfl
      exact hp.not_mem_head hh hp.sep.1 (fun hmem => hp.sep.2 (hsub hmem)) hy
  unique h h' t t' hh hh' heq := by
    obtain ⟨k, rfl, hk⟩ := hp.word h hh
    obtain ⟨k', rfl, hk'⟩ := hp.word h' hh'
    rw [List.append_assoc, List.append_assoc] at heq
    obtain ⟨rfl, ht⟩ := append_cons_inj (hk _ (by decide) (by decide))
      (hk' _ (by decide) (by decide)) heq
    exact ⟨rfl, ht⟩

theorem free_of_not_mem (hp : KeyValue p sep) (h : equalsByte ∉ s) : p.Free s := by
  rintro a x m g rfl - hm
  obtain ⟨k, rfl, -⟩ := hp.word m hm
  simp at h

theorem apart_of_marked (hp : KeyValue p sep) (hs : Marked s) (w : GoString) : p.Apart s w := by
  intro x h h' hsuf hx hh _
  by_contra hne
  obtain ⟨mark, hmark, hmarks⟩ := hs
  obtain ⟨hbytes, c, rest, rfl, hlt, hletter, -⟩ := mark_byte hmark
  obtain ⟨k, hk, hword⟩ := hp.word _ hh
  have hfirst : ∀ y ∈ c :: rest, x ≠ y := by
    rintro y hy rfl
    exact (hp.first x hx).2 (hbytes (List.mem_map_of_mem hy))
  rcases List.suffix_or_suffix_of_suffix hmarks hsuf with hmem | hmem
  . have hc' : c ∈ h := by
      have := hmem.subset (List.mem_cons_self)
      rw [List.mem_cons] at this
      exact this.resolve_left (fun h => hfirst c (by simp) h.symm)
    -- what is before the end of a head is part of the word
    have hmem : c ∈ k := by
      obtain ⟨h'', last, rfl⟩ : ∃ h'' last, h' = h'' ++ [last] :=
        ⟨_, _, (List.dropLast_append_getLast hne).symm⟩
      rw [← List.append_assoc] at hk
      rw [← (List.append_inj_left' hk rfl)]
      simp [hc']
    exact hword c hlt hletter hmem
  . exact hfirst x (hmem.subset (by simp)) rfl

theorem apart_of_bounded (hp : KeyValue p sep) (s : GoString) (hw : Bounded w) : p.Apart s w := by
  rintro x h h' - - hh ⟨r, rfl⟩
  cases h' with
  | nil => rfl
  | cons c h' =>
    have hc := hw c (by simp)
    simp only [boundary, Bool.and_eq_true, decide_eq_true_eq] at hc
    have hsub : ascii "pasword=" ⊆ ascii "pasword=h2+tc:/" := by decide
    exact absurd (show c ∈ h ++ c :: h' by simp)
      (hp.not_mem_head hh hc.1 (fun hmem => hc.2 (hsub hmem)))

theorem marked_replaceAll (hp : KeyValue p sep) (repl : GoString) (hopen : ¬ p.Open s) (hs : Marked s)
    : Marked (p.replaceAll repl s) := by
  obtain ⟨mark, hmark, a, rfl⟩ := hs
  obtain ⟨hbytes, c, rest, rfl, hlt, -, hrest⟩ := mark_byte hmark
  have hsep : ∀ y ∈ c :: rest, y ≠ sep := by
    rintro y hy rfl
    exact hp.sep.2 (hbytes (List.mem_map_of_mem hy))
  have hopen' : ¬ p.Open a := by
    rintro ⟨b, x, h, g, rfl, hx, hh, hg⟩
    refine hopen ⟨b, x, h, g ++ c :: rest, by simp, hx, hh, hp.keyed.matches_gap.mpr ?_⟩
    intro y hy
    rcases List.mem_append.mp hy with hy | hy
    . exact hp.keyed.matches_gap.mp hg y hy
    . exact decide_eq_true (hsep y hy)
  have hapart : p.Apart a (c :: rest) := by
    rintro x h h' ⟨b, rfl⟩ hx hh hpre
    cases h' with
    | nil => rfl
    | cons c' h' =>
      obtain ⟨rfl, hh'⟩ := List.cons_prefix_cons.mp hpre
      by_cases hword : lower c' ∈ ascii "pasword="
      . -- the key ends here, so a value has begun
        obtain ⟨rfl, rfl⟩ := hrest hword
        rw [List.prefix_nil.mp hh'] at hh
        exact absurd ⟨b, x, h ++ [equalsByte], [], by simp, hx, hh, hp.keyed.matches_gap.mpr (by simp)⟩
          hopen
      . exact absurd (show c' ∈ h ++ c' :: h' by simp) (hp.not_mem_head hh hlt hword)
  have hfree : p.Free (c :: rest) := by
    apply Pattern.free_of_first
    intro y hy
    by_contra hfirst
    exact (hp.first y (by simpa using hfirst)).2 (hbytes (List.mem_map_of_mem hy))
  rw [hp.keyed.replaceAll_append_of_not_open hopen' hapart, Pattern.replaceAll_of_free hfree]
  exact ⟨_, hmark, _, rfl⟩

end KeyValue

end KeyValue

end H2Go
