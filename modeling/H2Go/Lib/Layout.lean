import Mathlib.Data.List.Basic

/-!
This module contains layouts: descriptions of texts that say where they end. A text with a layout is
never the beginning of another one, so a sequence of them can be taken apart in one way only.
-/

/--
A layout is the set of the texts it describes.
-/
abbrev Layout (τ : Type) := List τ → Prop

namespace Layout

variable {τ : Type}

/--
Two texts with the layout are equal when they are the beginnings of one stream.
-/
def Delimited (L : Layout τ) : Prop :=
  ∀ ⦃x y r r' : List τ⦄, L x → L y → x ++ r = y ++ r' → x = y

def exactly (n : Nat) : Layout τ := fun x => x.length = n

def never : Layout τ := fun _ => False

def seq (L : Layout τ) (M : List τ → Layout τ) : Layout τ := fun x => ∃ u v, x = u ++ v ∧ L u ∧ M u v

def times (L : Layout τ) (n : Nat) : Layout τ :=
  match n with
  | 0 => exactly 0
  | n + 1 => seq L (fun _ => times L n)

def Whole (L : Layout τ) (x : List τ) : Prop := ∃ n, times L n x

variable {L : Layout τ} {M : List τ → Layout τ}

theorem delimited_exactly (n : Nat) : Delimited (exactly n : Layout τ) := by
  intro x y r r' hx hy h
  exact List.append_inj_left h (Eq.trans hx (Eq.symm hy))

theorem delimited_never : Delimited (never : Layout τ) := fun _ _ _ _ hx => absurd hx id

theorem Delimited.ite {c : Prop} [Decidable c] {L' : Layout τ} (h : Delimited L) (h' : Delimited L')
    : Delimited (if c then L else L') := by
  split
  . exact h
  . exact h'

theorem Delimited.cancel (h : Delimited L) {x y r r' : List τ} (hx : L x) (hy : L y)
    (heq : x ++ r = y ++ r')
    : x = y ∧ r = r' := by
  cases h hx hy heq
  exact ⟨rfl, List.append_cancel_left heq⟩

theorem Delimited.seq (hL : Delimited L) (hM : ∀ u, Delimited (M u)) : Delimited (seq L M) := by
  rintro x y r r' ⟨u, v, rfl, hu, hv⟩ ⟨u', v', rfl, hu', hv'⟩ h
  rw [List.append_assoc, List.append_assoc] at h
  obtain ⟨rfl, hrest⟩ := hL.cancel hu hu' h
  rw [hM u hv hv' hrest]

theorem Delimited.times (hL : Delimited L) (n : Nat) : Delimited (times L n) := by
  induction n with
  | zero => exact delimited_exactly 0
  | succ n ih => exact hL.seq (fun _ => ih)

theorem seq_append {u v : List τ} (hu : L u) (hv : M u v) : seq L M (u ++ v) := ⟨u, v, rfl, hu, hv⟩

theorem seq_imp {M' : List τ → Layout τ} {x : List τ} (h : seq L M x) (hM : ∀ u v, M u v → M' u v)
    : seq L M' x := by
  obtain ⟨u, v, rfl, hu, hv⟩ := h
  exact seq_append hu (hM u v hv)

theorem seq_exactly_cancel {n : Nat} {u x y r : List τ} (hu : u.length = n)
    (h : seq (exactly n) M y) (heq : u ++ x = y ++ r)
    : ∃ y', x = y' ++ r ∧ M u y' := by
  obtain ⟨u', v, rfl, hu', hv⟩ := h
  rw [List.append_assoc] at heq
  obtain ⟨rfl, hx⟩ := (delimited_exactly n).cancel hu hu' heq
  exact ⟨v, hx, hv⟩

theorem times_imp {L' : Layout τ} (hL : ∀ x, L x → L' x) {n : Nat} {x : List τ} (h : times L n x)
    : times L' n x := by
  induction n generalizing x with
  | zero => exact h
  | succ n ih =>
    obtain ⟨u, v, rfl, hu, hv⟩ := h
    exact seq_append (hL u hu) (ih hv)

theorem times_zero : times L 0 [] := rfl

theorem times_append {n m : Nat} {x y : List τ} (hx : times L n x) (hy : times L m y)
    : times L (n + m) (x ++ y) := by
  induction n generalizing x with
  | zero =>
    rw [List.eq_nil_of_length_eq_zero hx, Nat.zero_add]
    exact hy
  | succ n ih =>
    obtain ⟨u, v, rfl, hu, hv⟩ := hx
    rw [List.append_assoc, Nat.add_right_comm]
    exact seq_append hu (ih hv)

theorem times_one {x : List τ} (h : L x) : times L 1 x :=
  ⟨x, [], (List.append_nil x).symm, h, rfl⟩

theorem Delimited.times_cancel (hL : Delimited L) {n m : Nat} {x y r r' : List τ}
    (hx : Layout.times L n x) (hy : Layout.times L (n + m) y) (h : x ++ r = y ++ r')
    : ∃ z, r = z ++ r' ∧ Layout.times L m z := by
  induction n generalizing x y with
  | zero =>
    rw [List.eq_nil_of_length_eq_zero hx, List.nil_append] at h
    rw [Nat.zero_add] at hy
    exact ⟨y, h, hy⟩
  | succ n ih =>
    rw [Nat.add_right_comm] at hy
    obtain ⟨u, v, rfl, hu, hv⟩ := hx
    obtain ⟨u', v', rfl, hu', hv'⟩ := hy
    rw [List.append_assoc, List.append_assoc] at h
    exact ih hv hv' (hL.cancel hu hu' h).2

/--
What is left of texts that are not empty when the first ones are a part of `x`: nothing, if `x` is
one text. A part of one text is none.
-/
theorem Delimited.times_of_part (hL : Delimited L) (hne : ¬ L []) {n : Nat} {x suf r y : List τ}
    (hx : L (x ++ suf)) (hy : Layout.times L (n + 1) y) (h : x = y ++ r)
    : suf = [] ∧ n = 0 ∧ r = [] := by
  obtain ⟨u, v, rfl, hu, hv⟩ := hy
  subst h
  rw [List.append_assoc, List.append_assoc] at hx
  have hu' := hL hu hx ((List.append_nil (u ++ (v ++ (r ++ suf)))).symm)
  have hrest : v ++ (r ++ suf) = [] := by
    have := congrArg List.length hu'
    rw [List.length_append] at this
    exact List.eq_nil_of_length_eq_zero (by omega)
  simp only [List.append_eq_nil_iff] at hrest
  refine ⟨hrest.2.2, ?_, hrest.2.1⟩
  cases n with
  | zero => rfl
  | succ n =>
    obtain ⟨u', v', hv', hu', -⟩ := hv
    rw [hrest.1] at hv'
    rw [(List.append_eq_nil_iff.mp hv'.symm).1] at hu'
    exact absurd hu' hne

theorem whole_nil : Whole L [] := ⟨0, rfl⟩

theorem Whole.append {x y : List τ} (hx : Whole L x) (hy : Whole L y) : Whole L (x ++ y) := by
  obtain ⟨n, hx⟩ := hx
  obtain ⟨m, hy⟩ := hy
  exact ⟨n + m, times_append hx hy⟩

theorem Whole.of_one {x : List τ} (h : L x) : Whole L x := ⟨1, times_one h⟩

theorem Delimited.whole_cancel (hL : Delimited L) {x y : List τ} (hx : Whole L x)
    (hxy : Whole L (x ++ y))
    : Whole L y := by
  obtain ⟨n, hx⟩ := hx
  obtain ⟨m, hxy⟩ := hxy
  induction n generalizing x m with
  | zero =>
    rw [List.eq_nil_of_length_eq_zero hx, List.nil_append] at hxy
    exact ⟨m, hxy⟩
  | succ n ih =>
    obtain ⟨u, v, rfl, hu, hv⟩ := hx
    cases m with
    | zero =>
      have hnil := List.eq_nil_of_length_eq_zero hxy
      rw [(List.append_eq_nil_iff.mp hnil).2]
      exact whole_nil
    | succ m =>
      obtain ⟨u', v', heq, hu', hv'⟩ := hxy
      rw [List.append_assoc] at heq
      obtain ⟨rfl, rfl⟩ := hL.cancel hu hu' heq
      exact ih hv m hv'

theorem Whole.cases {x : List τ} (h : Whole L x) (hx : x ≠ []) : ∃ u v, x = u ++ v ∧ L u ∧ Whole L v := by
  obtain ⟨n, h⟩ := h
  cases n with
  | zero => exact absurd (List.eq_nil_of_length_eq_zero h) hx
  | succ n =>
    obtain ⟨u, v, rfl, hu, hv⟩ := h
    exact ⟨u, v, rfl, hu, n, hv⟩

end Layout
