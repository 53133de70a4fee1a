import H2Go.Lib.Reader

/-!
This module contains the order that compares runs with different amounts of fuel: a run that used
up its fuel is below every other run, all other runs are only below themselves. A program that is
monotone in its fuel returns the same result with all amounts that are enough.
-/

namespace Out

variable {ε σ α : Type}

def Le (o o' : Out ε σ α) : Prop := o = .stuck ∨ o = o'

theorem Le.refl (o : Out ε σ α) : o.Le o := .inr rfl

theorem Le.trans {o o' o'' : Out ε σ α} (h : o.Le o') (h' : o'.Le o'') : o.Le o'' := by
  cases h with
  | inl h => exact .inl h
  | inr h => exact h ▸ h'

theorem Le.eq {o o' : Out ε σ α} (h : o.Le o') (hstuck : o ≠ .stuck) : o = o' := by
  cases h with
  | inl h => exact absurd h hstuck
  | inr h => exact h

end Out

namespace Prog

variable {ε ε' σ τ α β : Type}

/--
`m` agrees with `m'` wherever it does not use up its fuel.
-/
def Le (m m' : Prog ε σ α) : Prop := ∀ s, (m s).Le (m' s)

namespace Le

theorem refl (m : Prog ε σ α) : m.Le m := fun s => Out.Le.refl (m s)

theorem trans {m m' m'' : Prog ε σ α} (h : m.Le m') (h' : m'.Le m'') : m.Le m'' :=
  fun s => (h s).trans (h' s)

theorem stuck (m : Prog ε σ α) : (Prog.stuck : Prog ε σ α).Le m := fun _ => .inl rfl

theorem bind {m m' : Prog ε σ α} {f f' : α → Prog ε σ β} (hm : m.Le m') (hf : ∀ a, (f a).Le (f' a))
    : (m >>= f).Le (m' >>= f') := by
  intro s
  rw [bind_run, bind_run]
  cases hm s with
  | inl h => exact .inl (by rw [h]; rfl)
  | inr h =>
    rw [← h]
    cases m s with
    | ok a t => exact hf a t
    | fail | panic | stuck => exact Out.Le.refl _

theorem mapErr {g : ε → ε'} {m m' : Prog ε σ α} (h : m.Le m')
    : (Prog.mapErr g m).Le (Prog.mapErr g m') := by
  intro s
  rw [mapErr_run, mapErr_run]
  cases h s with
  | inl h => exact .inl (by rw [h]; rfl)
  | inr h => exact .inr (by rw [h])

theorem ite {c : Prop} [Decidable c] {m m' n n' : Prog ε σ α} (hm : m.Le m') (hn : n.Le n')
    : (if c then m else n).Le (if c then m' else n') := by
  split
  . exact hm
  . exact hn

theorem iter {f f' : Nat → β → Prog ε σ β} (n i0 : Nat) (acc : β) (h : ∀ i b, (f i b).Le (f' i b))
    : (Prog.iter n i0 acc f).Le (Prog.iter n i0 acc f') := by
  induction n generalizing i0 acc with
  | zero => exact refl _
  | succ n ih =>
    rw [iter_succ, iter_succ]
    exact bind (h i0 acc) (fun b => ih (i0 + 1) b)

end Le

theorem le_of_le_succ {m : Nat → Prog ε σ α} (h : ∀ n, (m n).Le (m (n + 1))) {n n' : Nat}
    (hle : n ≤ n')
    : (m n).Le (m n') := by
  induction hle with
  | refl => exact Le.refl _
  | step _ ih => exact ih.trans (h _)

/--
A family of programs that is monotone in its fuel agrees on all amounts of fuel that are enough.
-/
theorem eq_of_le_succ {m : Nat → Prog ε σ α} (h : ∀ n, (m n).Le (m (n + 1))) {n n' : Nat} {s : σ}
    (hn : m n s ≠ .stuck) (hn' : m n' s ≠ .stuck)
    : m n s = m n' s := by
  cases Nat.le_total n n' with
  | inl hle => exact (le_of_le_succ h hle s).eq hn
  | inr hle => exact ((le_of_le_succ h hle s).eq hn').symm

end Prog

/--
A reader that chooses its fuel by the state it starts in. It is lawful when the fuel is always
enough.
-/
theorem LawfulReader.of_fuel {τ ε σ α : Type} [Input τ σ] {m : Nat → Prog ε σ α}
    [∀ n, LawfulReader (m n)] (fuel : σ → Nat) (hle : ∀ n, (m n).Le (m (n + 1)))
    (henough : ∀ s, m (fuel s) s ≠ .stuck)
    : LawfulReader (fun s => m (fuel s) s) where
  ok_run {s s' a} h := by
    obtain ⟨used, rest, hinp, hmove, hframe⟩ := LawfulReader.ok_run h
    refine ⟨used, rest, hinp, hmove, ?_, ?_⟩
    . intro t rest ht
      have hrun := hframe.exact t rest ht
      rw [← hrun]
      exact Prog.eq_of_le_succ hle (henough t) (by rw [hrun]; simp)
    . intro t suf ht hsuf
      obtain ⟨e, hrun⟩ := hframe.short t suf ht hsuf
      refine ⟨e, ?_⟩
      rw [← hrun]
      exact Prog.eq_of_le_succ hle (henough t) (by rw [hrun]; simp)
  fail_run h := LawfulReader.fail_run h
