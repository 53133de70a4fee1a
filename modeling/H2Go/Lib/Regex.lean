import Mathlib.Data.List.Basic

/-!
This module contains regular expressions with the semantics of backtracking matchers: of all ways to
match, the first one in the order of preference counts. Repetition is greedy and of single symbols.
-/

namespace Regex

variable {α : Type}

inductive Re (α : Type) where
  | empty
  | one (p : α → Bool)
  | star (p : α → Bool)
  | seq (r r' : Re α)
  | alt (r r' : Re α)

namespace Re

/--
The ways to match symbols of `p` repeatedly, the longest first.
-/
def starEnds (p : α → Bool) (s : List α) : List (List α × List α) :=
  match s with
  | [] => [([], [])]
  | x :: s =>
    if p x then (starEnds p s).map (fun e => (x :: e.1, e.2)) ++ [([], x :: s)] else [([], x :: s)]

/--
The ways to match the beginning of `s`, with what is matched and what is left, in the order of
preference.
-/
def ends (r : Re α) (s : List α) : List (List α × List α) :=
  match r with
  | empty => [([], s)]
  | one p =>
    match s with
    | [] => []
    | x :: s => if p x then [([x], s)] else []
  | star p => starEnds p s
  | seq r r' => (r.ends s).flatMap (fun e => (r'.ends e.2).map (fun e' => (e.1 ++ e'.1, e'.2)))
  | alt r r' => r.ends s ++ r'.ends s

def Matches (r : Re α) (m : List α) : Prop :=
  match r with
  | empty => m = []
  | one p => ∃ x, m = [x] ∧ p x
  | star p => ∀ x ∈ m, p x
  | seq r r' => ∃ a b, m = a ++ b ∧ r.Matches a ∧ r'.Matches b
  | alt r r' => r.Matches m ∨ r'.Matches m

theorem mem_starEnds {p : α → Bool} {s : List α} {e : List α × List α}
    : e ∈ starEnds p s ↔ s = e.1 ++ e.2 ∧ ∀ x ∈ e.1, p x := by
  induction s generalizing e with
  | nil =>
    simp only [starEnds, List.mem_singleton]
    constructor
    . rintro rfl
      simp
    . rintro ⟨h, -⟩
      have h := List.append_eq_nil_iff.mp h.symm
      exact Prod.ext h.1 h.2
  | cons x s ih =>
    obtain ⟨m, rest⟩ := e
    unfold starEnds
    split
    . next hx =>
      simp only [List.mem_append, List.mem_map, List.mem_singleton, Prod.mk.injEq]
      constructor
      . rintro (⟨e, he, rfl, rfl⟩ | ⟨rfl, rfl⟩)
        . obtain ⟨hs, hall⟩ := ih.mp he
          exact ⟨by rw [hs]; rfl, List.forall_mem_cons.mpr ⟨hx, hall⟩⟩
        . simp
      . rintro ⟨hs, hall⟩
        cases m with
        | nil => exact .inr ⟨rfl, hs.symm⟩
        | cons y m =>
          simp only [List.cons_append, List.cons.injEq] at hs
          refine .inl ⟨(m, rest), ih.mpr ⟨hs.2, fun z hz => hall z (by simp [hz])⟩, ?_, rfl⟩
          rw [hs.1]
    . next hx =>
      simp only [List.mem_singleton, Prod.mk.injEq]
      constructor
      . rintro ⟨rfl, rfl⟩
        simp
      . rintro ⟨hs, hall⟩
        cases m with
        | nil => exact ⟨rfl, hs.symm⟩
        | cons y m =>
          simp only [List.cons_append, List.cons.injEq] at hs
          exact absurd (hs.1 ▸ hall y (by simp)) hx

theorem head?_starEnds (p : α → Bool) (s : List α)
    : (starEnds p s).head? = some (s.takeWhile p, s.dropWhile p) := by
  induction s with
  | nil => rfl
  | cons x s ih =>
    unfold starEnds
    split
    . next hx =>
      rw [List.head?_append, List.head?_map, ih, List.takeWhile_cons_of_pos hx,
        List.dropWhile_cons_of_pos hx]
      rfl
    . next hx => rw [List.takeWhile_cons_of_neg hx, List.dropWhile_cons_of_neg hx]; rfl

theorem mem_ends {r : Re α} {s : List α} {e : List α × List α}
    : e ∈ r.ends s ↔ s = e.1 ++ e.2 ∧ r.Matches e.1 := by
  induction r generalizing s e with
  | empty =>
    simp only [ends, Matches, List.mem_singleton]
    constructor
    . rintro rfl
      simp
    . rintro ⟨hs, hm⟩
      rw [hm, List.nil_append] at hs
      exact Prod.ext hm hs.symm
  | one p =>
    obtain ⟨m, rest⟩ := e
    cases s with
    | nil =>
      simp only [ends, Matches, List.not_mem_nil, false_iff]
      rintro ⟨hs, x, rfl, -⟩
      simp at hs
    | cons x s =>
      simp only [ends, Matches]
      split
      . next hx =>
        simp only [List.mem_singleton, Prod.mk.injEq]
        constructor
        . rintro ⟨rfl, rfl⟩
          exact ⟨rfl, x, rfl, hx⟩
        . rintro ⟨hs, y, rfl, -⟩
          simp only [List.singleton_append, List.cons.injEq] at hs
          exact ⟨by rw [hs.1], hs.2.symm⟩
      . next hx =>
        simp only [List.not_mem_nil, false_iff]
        rintro ⟨hs, y, rfl, hy⟩
        simp only [List.singleton_append, List.cons.injEq] at hs
        rw [← hs.1] at hy
        exact hx hy
  | star p => exact mem_starEnds
  | seq r r' ih ih' =>
    simp only [ends, Matches, List.mem_flatMap, List.mem_map, ih, ih']
    constructor
    . rintro ⟨a, ⟨rfl, ha⟩, b, ⟨hb, hb'⟩, rfl⟩
      exact ⟨by rw [hb, List.append_assoc], a.1, b.1, rfl, ha, hb'⟩
    . rintro ⟨rfl, a, b, hm, ha, hb⟩
      exact ⟨(a, b ++ e.2), ⟨by rw [hm, List.append_assoc], ha⟩, (b, e.2), ⟨rfl, hb⟩, by rw [← hm]⟩
  | alt r r' ih ih' =>
    simp only [ends, Matches, List.mem_append, ih, ih', and_or_left]

theorem length_le_of_mem_ends {r : Re α} {s : List α} {e : List α × List α} (h : e ∈ r.ends s)
    : e.2.length ≤ s.length := by
  have hs := (mem_ends.mp h).1
  rw [hs, List.length_append]
  omega

theorem flatMap_eq_filter {β γ : Type} {l : List β} {f : β → List γ} {q : β → Bool}
    (h : ∀ x ∈ l, q x = false → f x = [])
    : l.flatMap f = (l.filter q).flatMap f := by
  induction l with
  | nil => rfl
  | cons x l ih =>
    have ih := ih (fun y hy => h y (by simp [hy]))
    rw [List.flatMap_cons, ih, List.filter_cons]
    split
    . rw [List.flatMap_cons]
    . next hx => rw [h x (by simp) (by simpa using hx), List.nil_append]

def stopsBefore (w : List α) (e : List α × List α) : Bool := w.length ≤ e.2.length

theorem starEnds_append (p : α → Bool) (s w : List α)
    : (starEnds p (s ++ w)).filter (stopsBefore w) = (starEnds p s).map (fun e => (e.1, e.2 ++ w)) := by
  induction s with
  | nil =>
    -- every way but the empty one runs into `w`
    cases w with
    | nil => simp [starEnds, stopsBefore]
    | cons y w =>
      rw [List.nil_append]
      unfold starEnds
      have hnone : ∀ e ∈ (starEnds p w).map (fun e => (y :: e.1, e.2)),
          stopsBefore (y :: w) e = false := by
        intro e he
        obtain ⟨e', he', rfl⟩ := List.mem_map.mp he
        have hs := (mem_starEnds.mp he').1
        have hlen := congrArg List.length hs
        simp only [stopsBefore, List.length_cons, List.length_append, decide_eq_false_iff_not] at hlen ⊢
        omega
      split
      . rw [List.filter_append, List.filter_eq_nil_iff.mpr (fun e he => by rw [hnone e he]; decide)]
        simp [stopsBefore]
      . simp [stopsBefore]
  | cons x s ih =>
    rw [List.cons_append]
    unfold starEnds
    split
    . rw [List.filter_append, List.filter_map, List.map_append, List.map_map]
      have hcomp : (stopsBefore w ∘ fun e : List α × List α => (x :: e.1, e.2)) = stopsBefore w := rfl
      rw [hcomp, ih, List.map_map]
      simp [stopsBefore, Function.comp_def]
      omega
    . simp [stopsBefore]
      omega

theorem ends_append (r : Re α) (s w : List α)
    : (r.ends (s ++ w)).filter (stopsBefore w) = (r.ends s).map (fun e => (e.1, e.2 ++ w)) := by
  induction r generalizing s with
  | empty => simp [ends, stopsBefore]
  | one p =>
    cases s with
    | nil =>
      cases w with
      | nil => rfl
      | cons y w =>
        simp only [List.nil_append, ends]
        split <;> simp [stopsBefore]
    | cons x s =>
      simp only [List.cons_append, ends]
      split <;> simp [stopsBefore]
  | star p => exact starEnds_append p s w
  | seq r r' ih ih' =>
    simp only [ends]
    rw [List.filter_flatMap, flatMap_eq_filter (q := stopsBefore w), ih, List.flatMap_map,
      List.map_flatMap]
    . congr 1
      funext e
      rw [List.filter_map, List.map_map]
      have hcomp : (stopsBefore w ∘ fun e' : List α × List α => (e.1 ++ e'.1, e'.2)) = stopsBefore w := rfl
      rw [hcomp, ih', List.map_map]
      rfl
    . intro e _ hstop
      rw [List.filter_eq_nil_iff]
      intro e'' he''
      obtain ⟨e', he', rfl⟩ := List.mem_map.mp he''
      have := length_le_of_mem_ends he'
      simp only [stopsBefore, decide_eq_false_iff_not, decide_eq_true_eq] at hstop ⊢
      omega
  | alt r r' ih ih' =>
    simp only [ends]
    rw [List.filter_append, ih, ih', List.map_append]

def Avoids (r : Re α) (c : α) : Prop := ∀ m, r.Matches m → c ∉ m

end Re

/--
A pattern starts with one symbol. Its head and its tail are kept in a replacement, the gap between
them is not.
-/
structure Pattern (α : Type) where
  first : α → Bool
  head : Re α
  gap : Re α
  tail : Re α

namespace Pattern

structure Found (α : Type) where
  front : List α
  back : List α
  rest : List α

def ways (p : Pattern α) (s : List α) : List (Found α) :=
  match s with
  | [] => []
  | x :: s =>
    if p.first x then
      (p.head.ends s).flatMap (fun h => (p.gap.ends h.2).flatMap (fun g =>
        (p.tail.ends g.2).map (fun t => { front := x :: h.1, back := t.1, rest := t.2 })))
    else
      []

def find (p : Pattern α) (s : List α) : Option (Found α) := (p.ways s).head?

theorem mem_ways {p : Pattern α} {s : List α} {f : Found α}
    : f ∈ p.ways s ↔ ∃ x h g, s = x :: (h ++ (g ++ (f.back ++ f.rest))) ∧ f.front = x :: h ∧
      p.first x ∧ p.head.Matches h ∧ p.gap.Matches g ∧ p.tail.Matches f.back := by
  cases s with
  | nil => simp [ways]
  | cons x s =>
    simp only [ways]
    split
    . next hx =>
      simp only [List.mem_flatMap, List.mem_map, Re.mem_ends]
      constructor
      . rintro ⟨h, ⟨rfl, hh⟩, g, ⟨hg, hg'⟩, t, ⟨ht, ht'⟩, rfl⟩
        exact ⟨x, h.1, g.1, by rw [hg, ht], rfl, hx, hh, hg', ht'⟩
      . rintro ⟨y, h, g, hs, hf, -, hh, hg, ht⟩
        simp only [List.cons.injEq] at hs
        refine ⟨(h, g ++ (f.back ++ f.rest)), ⟨hs.2, hh⟩, (g, f.back ++ f.rest), ⟨rfl, hg⟩,
          (f.back, f.rest), ⟨rfl, ht⟩, ?_⟩
        rw [hs.1, ← hf]
    . next hx =>
      simp only [List.not_mem_nil, false_iff]
      rintro ⟨y, h, g, hs, -, hy, -⟩
      simp only [List.cons.injEq] at hs
      rw [← hs.1] at hy
      exact hx hy

theorem length_lt_of_mem_ways {p : Pattern α} {s : List α} {f : Found α} (h : f ∈ p.ways s)
    : f.rest.length < s.length := by
  obtain ⟨x, a, b, hs, -⟩ := mem_ways.mp h
  rw [hs]
  simp only [List.length_cons, List.length_append]
  omega

theorem mem_of_find {p : Pattern α} {s : List α} {f : Found α} (h : p.find s = some f)
    : f ∈ p.ways s :=
  List.mem_of_mem_head? h

theorem find_of_unique {p : Pattern α} {s : List α} {f : Found α} (h : f ∈ p.ways s)
    (hunique : ∀ f' ∈ p.ways s, f' = f)
    : p.find s = some f := by
  unfold find
  cases hways : p.ways s with
  | nil =>
    rw [hways] at h
    simp at h
  | cons f' ways =>
    rw [hunique f' (by rw [hways]; simp)]
    rfl

theorem ways_append {p : Pattern α} {s : List α} (hs : s ≠ []) (w : List α)
    : (p.ways (s ++ w)).filter (fun f => w.length ≤ f.rest.length)
      = (p.ways s).map (fun f => { f with rest := f.rest ++ w }) := by
  cases s with
  | nil => exact absurd rfl hs
  | cons x s =>
    simp only [List.cons_append, ways]
    split
    . rw [List.filter_flatMap, Re.flatMap_eq_filter (q := Re.stopsBefore w), Re.ends_append,
        List.flatMap_map, List.map_flatMap]
      . congr 1
        funext h
        rw [List.filter_flatMap, Re.flatMap_eq_filter (q := Re.stopsBefore w), Re.ends_append,
          List.flatMap_map, List.map_flatMap]
        . congr 1
          funext g
          rw [List.filter_map, List.map_map]
          have hcomp : ((fun f : Found α => decide (w.length ≤ f.rest.length)) ∘
              fun t : List α × List α => ({ front := x :: h.1, back := t.1, rest := t.2 } : Found α))
              = Re.stopsBefore w := rfl
          rw [hcomp, Re.ends_append, List.map_map]
          rfl
        . intro g _ hstop
          rw [List.filter_eq_nil_iff]
          intro f hf
          obtain ⟨t, ht, rfl⟩ := List.mem_map.mp hf
          have := Re.length_le_of_mem_ends ht
          simp only [Re.stopsBefore, decide_eq_false_iff_not, decide_eq_true_eq] at hstop ⊢
          omega
      . intro h _ hstop
        rw [List.filter_eq_nil_iff]
        intro f hf
        obtain ⟨g, hg, hf⟩ := List.mem_flatMap.mp hf
        obtain ⟨t, ht, rfl⟩ := List.mem_map.mp hf
        have := Re.length_le_of_mem_ends ht
        have := Re.length_le_of_mem_ends hg
        simp only [Re.stopsBefore, decide_eq_false_iff_not, decide_eq_true_eq] at hstop ⊢
        omega
    . rfl

theorem find_append {p : Pattern α} {s w : List α} (hs : s ≠ [])
    (h : ∀ f ∈ p.ways (s ++ w), w.length ≤ f.rest.length)
    : p.find (s ++ w) = (p.find s).map (fun f => { f with rest := f.rest ++ w }) := by
  have hways := ways_append (p := p) hs w
  rw [List.filter_eq_self.mpr (fun f hf => decide_eq_true (h f hf))] at hways
  unfold find
  rw [hways, List.head?_map]

def replaceAll (p : Pattern α) (repl s : List α) : List α :=
  go s.length s
where
  go (fuel : Nat) (s : List α) : List α :=
    match fuel with
    | 0 => s
    | fuel + 1 =>
      match p.find s with
      | some f => f.front ++ (repl ++ (f.back ++ go fuel f.rest))
      | none =>
        match s with
        | [] => []
        | x :: s => x :: go fuel s

theorem replaceAll_go {p : Pattern α} {repl s : List α} {fuel fuel' : Nat} (h : s.length ≤ fuel)
    (h' : s.length ≤ fuel')
    : replaceAll.go p repl fuel s = replaceAll.go p repl fuel' s := by
  induction fuel generalizing fuel' s with
  | zero =>
    have hs : s = [] := List.length_eq_zero_iff.mp (by omega)
    subst hs
    cases fuel' <;> rfl
  | succ fuel ih =>
    cases s with
    | nil => cases fuel' <;> rfl
    | cons x s =>
      cases fuel' with
      | zero => simp at h'
      | succ fuel' =>
        simp only [List.length_cons] at h h'
        unfold replaceAll.go
        cases hfind : p.find (x :: s) with
        | none =>
          dsimp only
          rw [ih (by omega) (show s.length ≤ fuel' by omega)]
        | some f =>
          have hlen := length_lt_of_mem_ways (mem_of_find hfind)
          simp only [List.length_cons] at hlen
          dsimp only
          rw [ih (by omega) (show f.rest.length ≤ fuel' by omega)]

@[simp]
theorem replaceAll_nil (p : Pattern α) (repl : List α) : p.replaceAll repl [] = [] := rfl

theorem replaceAll_of_find {p : Pattern α} {repl s : List α} {f : Found α} (h : p.find s = some f)
    : p.replaceAll repl s = f.front ++ (repl ++ (f.back ++ p.replaceAll repl f.rest)) := by
  have hlen := length_lt_of_mem_ways (mem_of_find h)
  unfold replaceAll
  cases s with
  | nil => simp at hlen
  | cons x s =>
    simp only [List.length_cons] at hlen ⊢
    rw [replaceAll.go, h]
    dsimp only
    rw [replaceAll_go (show f.rest.length ≤ s.length by omega) (Nat.le_refl _)]

theorem replaceAll_of_not_find {p : Pattern α} {repl : List α} {x : α} {s : List α}
    (h : p.find (x :: s) = none)
    : p.replaceAll repl (x :: s) = x :: p.replaceAll repl s := by
  unfold replaceAll
  rw [List.length_cons, replaceAll.go, h]

/--
The replacement in `s ++ w` is done separately if no match that starts in `s` runs into `w`.
-/
theorem replaceAll_append {p : Pattern α} {repl s w : List α}
    (h : ∀ s', s' ≠ [] → s' <:+ s → ∀ f ∈ p.ways (s' ++ w), w.length ≤ f.rest.length)
    : p.replaceAll repl (s ++ w) = p.replaceAll repl s ++ p.replaceAll repl w := by
  induction hn : s.length using Nat.strongRecOn generalizing s with
  | _ n ih =>
    cases s with
    | nil => simp
    | cons x s =>
      have hfind := find_append (p := p) (s := x :: s) (w := w) (by simp)
        (h _ (by simp) (List.suffix_refl _))
      cases hs : p.find (x :: s) with
      | none =>
        rw [hs, Option.map_none] at hfind
        rw [List.cons_append] at hfind ⊢
        rw [replaceAll_of_not_find hfind, replaceAll_of_not_find hs,
          ih s.length (by rw [← hn]; simp) (fun s' hne hsuf => h s' hne (hsuf.trans (List.suffix_cons x s)))
            rfl]
        rfl
      | some f =>
        have hmem := mem_of_find hs
        have hlen := length_lt_of_mem_ways hmem
        obtain ⟨y, a, b, htext, -⟩ := mem_ways.mp hmem
        have hsuf : f.rest <:+ x :: s := by
          rw [htext]
          exact ⟨y :: (a ++ (b ++ f.back)), by simp⟩
        rw [hs, Option.map_some] at hfind
        rw [replaceAll_of_find hfind, replaceAll_of_find hs,
          ih f.rest.length (by omega) (fun s' hne hs' => h s' hne (hs'.trans hsuf)) rfl]
        simp

theorem head?_replaceAll (p : Pattern α) (repl s : List α) : (p.replaceAll repl s).head? = s.head? := by
  cases s with
  | nil => rfl
  | cons x s =>
    cases hfind : p.find (x :: s) with
    | none =>
      rw [replaceAll_of_not_find hfind]
      rfl
    | some f =>
      obtain ⟨y, h, g, hs, hfront, -⟩ := mem_ways.mp (mem_of_find hfind)
      rw [replaceAll_of_find hfind, hfront, hs]
      rfl

theorem exists_first_not {q : α → Bool} {s : List α} (h : ¬ ∀ x ∈ s, q x)
    : ∃ v z r, s = v ++ z :: r ∧ (∀ x ∈ v, q x) ∧ q z = false := by
  induction s with
  | nil => exact absurd (by simp) h
  | cons x s ih =>
    by_cases hx : q x
    . obtain ⟨v, z, r, rfl, hv, hz⟩ := ih (fun hall => h (List.forall_mem_cons.mpr ⟨hx, hall⟩))
      exact ⟨x :: v, z, r, rfl, List.forall_mem_cons.mpr ⟨hx, hv⟩, hz⟩
    . exact ⟨[], x, s, rfl, by simp, by simpa using hx⟩

/--
A match has begun in `s` and is still in its gap at the end of `s`.
-/
def Open (p : Pattern α) (s : List α) : Prop :=
  ∃ a x h g, s = a ++ x :: (h ++ g) ∧ p.first x ∧ p.head.Matches h ∧ p.gap.Matches g

/--
No match begins in `s` and has its head in it.
-/
def Free (p : Pattern α) (s : List α) : Prop :=
  ∀ a x h g, s = a ++ x :: (h ++ g) → p.first x → ¬ p.head.Matches h

theorem Free.not_open {p : Pattern α} {s : List α} (hfree : p.Free s) : ¬ p.Open s :=
  fun ⟨a, x, h, g, hs, hx, hh, _⟩ => hfree a x h g hs hx hh

theorem free_of_first {p : Pattern α} {s : List α} (h : ∀ x ∈ s, p.first x = false) : p.Free s := by
  rintro a x m g rfl hx -
  rw [h x (by simp)] at hx
  exact absurd hx (by decide)

theorem replaceAll_of_ways {p : Pattern α} {repl s : List α} (h : ∀ s', s' <:+ s → ∀ f, f ∉ p.ways s')
    : p.replaceAll repl s = s := by
  induction s with
  | nil => rfl
  | cons x s ih =>
    have hnone : p.find (x :: s) = none := by
      cases hfind : p.find (x :: s) with
      | none => rfl
      | some f => exact absurd (mem_of_find hfind) (h _ (List.suffix_refl _) f)
    rw [replaceAll_of_not_find hnone, ih (fun s' hs' => h s' (hs'.trans (List.suffix_cons x s)))]

theorem replaceAll_of_free {p : Pattern α} {repl s : List α} (hfree : p.Free s)
    : p.replaceAll repl s = s := by
  apply replaceAll_of_ways
  rintro s' ⟨a, rfl⟩ f hf
  obtain ⟨x, h, g, rfl, -, hx, hh, -⟩ := mem_ways.mp hf
  exact hfree a x h _ rfl hx hh

/--
No head of a match begins in `s` and ends in `w`.
-/
def Apart (p : Pattern α) (s w : List α) : Prop :=
  ∀ x h h', x :: h <:+ s → p.first x → p.head.Matches (h ++ h') → h' <+: w → h' = []

/--
A key that is followed by a value of symbols of `q`.
-/
structure Keyed (p : Pattern α) (q : α → Bool) : Prop where
  gap : p.gap = .star q
  tail : p.tail = .empty
  key : ∀ h, p.head.Matches h → ∀ y ∈ h, p.first y = false ∧ q y = true
  unique : ∀ h h' t t', p.head.Matches h → p.head.Matches h' → h ++ t = h' ++ t' → h = h' ∧ t = t'

namespace Keyed

variable {p : Pattern α} {q : α → Bool} {repl : List α}

theorem find_eq (hp : p.Keyed q) {x : α} {h : List α} (hx : p.first x) (hh : p.head.Matches h)
    (t : List α)
    : p.find (x :: (h ++ t)) = some { front := x :: h, back := [], rest := t.dropWhile q } := by
  have hends : (p.head.ends (h ++ t)).head? = some (h, t) := by
    cases hends : p.head.ends (h ++ t) with
    | nil =>
      have hmem : (h, t) ∈ p.head.ends (h ++ t) := Re.mem_ends.mpr ⟨rfl, hh⟩
      rw [hends] at hmem
      simp at hmem
    | cons e ends =>
      obtain ⟨hs, hm⟩ := Re.mem_ends.mp (show e ∈ p.head.ends (h ++ t) by simp [hends])
      obtain ⟨h1, h2⟩ := hp.unique _ _ _ _ hh hm hs
      rw [List.head?_cons, h1, h2]
  obtain ⟨ends, hends⟩ := List.head?_eq_some_iff.mp hends
  obtain ⟨gaps, hgaps⟩ := List.head?_eq_some_iff.mp (Re.head?_starEnds q t)
  simp only [find, ways, hx, if_true, hends, List.flatMap_cons, hp.gap, hp.tail, Re.ends, hgaps]
  rfl

theorem matches_gap (hp : p.Keyed q) {g : List α} : p.gap.Matches g ↔ ∀ y ∈ g, q y := by
  rw [hp.gap]
  rfl

/--
A match has begun at `x` and is open at the end. A symbol `z` that ends a value is not in it, so it
begins at `z` or later.
-/
theorem open_of_not (hp : p.Keyed q) {x z : α} {a h g front r : List α} (hx : p.first x)
    (hh : p.head.Matches h) (hg : p.gap.Matches g) (hz : q z = false)
    (htext : a ++ x :: (h ++ g) = front ++ z :: r)
    : p.Open (z :: r) := by
  rcases List.append_eq_append_iff.mp htext with ⟨c, -, hrest⟩ | ⟨c, -, hrest⟩
  . cases c with
    | nil => exact ⟨[], x, h, g, hrest.symm, hx, hh, hg⟩
    | cons x' c =>
      rw [List.cons_append, List.cons.injEq] at hrest
      have hmem : z ∈ h ++ g := by
        rw [hrest.2]
        simp
      rcases List.mem_append.mp hmem with hmem | hmem
      . exact absurd (hp.key h hh z hmem).2 (by simp [hz])
      . exact absurd (hp.matches_gap.mp hg z hmem) (by simp [hz])
  . exact ⟨c, x, h, g, hrest, hx, hh, hg⟩

/--
There is no match at `y` if there is no head before the next match: a head that ended after `x` would
have the start of another match in it.
-/
theorem find_eq_none (hp : p.Keyed q) {x y : α} {a rest : List α} (hx : p.first x)
    (hy : ∀ h t, p.first y → p.head.Matches h → a ++ x :: rest ≠ h ++ t) (w : List α)
    : p.find (y :: ((a ++ x :: rest) ++ w)) = none := by
  cases hfind : p.find (y :: ((a ++ x :: rest) ++ w)) with
  | none => rfl
  | some f =>
    obtain ⟨y', h, g, hs, -, hy', hh, -⟩ := mem_ways.mp (mem_of_find hfind)
    rw [List.cons.injEq] at hs
    obtain ⟨rfl, hs⟩ := hs
    rcases List.append_eq_append_iff.mp hs with ⟨c, hc, -⟩ | ⟨c, hc, -⟩
    . have := (hp.key h hh x (by rw [hc]; simp)).1
      rw [hx] at this
      exact absurd this (by decide)
    . exact absurd hc (hy h c hy' hh)

theorem replaceAll_of_open (hp : p.Keyed q) (repl : List α) {s : List α} (hopen : p.Open s)
    : ∃ out, ∀ w, p.replaceAll repl (s ++ w) = out ++ p.replaceAll repl (w.dropWhile q) := by
  induction hn : s.length using Nat.strongRecOn generalizing s with
  | _ n ih =>
    obtain ⟨a, x, h, g, rfl, hx, hh, hg⟩ := hopen
    -- the first match of `s` is the open one, or it is one with its head in `s`, or it begins later
    cases a with
    | nil =>
      refine ⟨x :: (h ++ repl), fun w => ?_⟩
      rw [List.nil_append, List.cons_append, List.append_assoc, replaceAll_of_find (hp.find_eq hx hh _),
        List.dropWhile_append_of_pos (hp.matches_gap.mp hg)]
      simp
    | cons y a =>
      by_cases hy : ∃ h' t, p.first y ∧ p.head.Matches h' ∧ a ++ x :: (h ++ g) = h' ++ t
      . obtain ⟨h', t, hy, hh', ht⟩ := hy
        by_cases hall : ∀ z ∈ t, q z
        . refine ⟨y :: (h' ++ repl), fun w => ?_⟩
          rw [List.cons_append, List.cons_append, ht, List.append_assoc,
            replaceAll_of_find (hp.find_eq hy hh' _), List.dropWhile_append_of_pos hall]
          simp
        . obtain ⟨v, z, r, rfl, hv, hz⟩ := exists_first_not hall
          have hlen : (z :: r).length < n := by
            rw [← hn, List.cons_append, ht]
            simp only [List.length_cons, List.length_append]
            omega
          have hopen := hp.open_of_not hx hh hg hz (ht.trans (List.append_assoc _ _ _).symm)
          obtain ⟨out, hout⟩ := ih _ hlen hopen rfl
          refine ⟨y :: (h' ++ (repl ++ out)), fun w => ?_⟩
          have hdrop : ((v ++ z :: r) ++ w).dropWhile q = (z :: r) ++ w := by
            rw [List.append_assoc, List.dropWhile_append_of_pos hv, List.cons_append,
              List.dropWhile_cons_of_neg (by simp [hz])]
          rw [List.cons_append, List.cons_append, ht, List.append_assoc,
            replaceAll_of_find (hp.find_eq hy hh' _), hdrop, hout]
          simp
      . obtain ⟨out, hout⟩ := ih (a ++ x :: (h ++ g)).length (by rw [← hn]; simp)
          ⟨a, x, h, g, rfl, hx, hh, hg⟩ rfl
        refine ⟨y :: out, fun w => ?_⟩
        have hnone := hp.find_eq_none hx (fun h' t hy' hh' ht => hy ⟨h', t, hy', hh', ht⟩) w
        rw [List.cons_append, List.cons_append, replaceAll_of_not_find hnone, hout]
        rfl

theorem replaceAll_append_of_not_open (hp : p.Keyed q) {s w : List α} (hopen : ¬ p.Open s)
    (hapart : p.Apart s w)
    : p.replaceAll repl (s ++ w) = p.replaceAll repl s ++ p.replaceAll repl w := by
  apply replaceAll_append
  intro s' hne hsuf f hf
  obtain ⟨x, h, g, hs, -, hx, hh, hg, hback⟩ := mem_ways.mp hf
  rw [hp.tail] at hback
  rw [show f.back = [] from hback, List.nil_append] at hs
  cases s' with
  | nil => exact absurd rfl hne
  | cons y s' =>
    rw [List.cons_append, List.cons.injEq] at hs
    obtain ⟨rfl, hs⟩ := hs
    rcases List.append_eq_append_iff.mp hs with ⟨h', rfl, hw⟩ | ⟨g', rfl, hw⟩
    . have hnil := hapart y s' h' hsuf hx hh ⟨g ++ f.rest, hw.symm⟩
      subst hnil
      -- the head ends with `s`
      obtain ⟨a, ha⟩ := hsuf
      rw [List.append_nil] at hh
      refine absurd ⟨a, y, s', [], ?_, hx, hh, ?_⟩ hopen
      . rw [List.append_nil, ha]
      . exact hp.matches_gap.mpr (by simp)
    . rcases List.append_eq_append_iff.mp hw with ⟨r, -, hrest⟩ | ⟨g'', rfl, -⟩
      . rw [hrest, List.length_append]
        omega
      . obtain ⟨a, ha⟩ := hsuf
        refine absurd ⟨a, y, h, g', ha.symm, hx, hh, ?_⟩ hopen
        exact hp.matches_gap.mpr (fun z hz => hp.matches_gap.mp hg z (by simp [hz]))

theorem replaceAll_append_of_free (hp : p.Keyed q) {s w : List α} (hfree : p.Free s)
    (hapart : p.Apart s w)
    : p.replaceAll repl (s ++ w) = s ++ p.replaceAll repl w := by
  rw [hp.replaceAll_append_of_not_open hfree.not_open hapart, replaceAll_of_free hfree]

end Keyed

end Pattern

end Regex
