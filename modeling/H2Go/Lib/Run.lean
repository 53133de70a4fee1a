import H2Go.Lib.Triple

/-!
This module contains runs: a system takes one action after the other, and a step relation says which
states an action can lead to.
-/

namespace Out

variable {ε σ α : Type}

/--
The state a run leaves, there is none after a panic.
-/
def state? (o : Out ε σ α) : Option σ :=
  match o with
  | .ok _ s => some s
  | .fail _ s => some s
  | .panic _ => none
  | .stuck => none

end Out

theorem Out.holds_of_state {ε σ α : Type} {o : Out ε σ α} {Q : α → σ → Prop} {E : ε → σ → Prop}
    (h : o.state? = none)
    : o.Holds True Q E := by
  cases o with
  | ok | fail => cases h
  | panic | stuck => trivial

theorem Triple.of_state {ε σ α : Type} {P Q : σ → Prop} {m : Prog ε σ α}
    (h : Triple True P m (fun _ => Q) (fun _ => Q)) {s s' : σ} (hs : P s)
    (hstate : (m s).state? = some s')
    : Q s' := by
  have hm := h s hs
  cases hrun : m s with
  | ok | fail =>
    rw [hrun] at hm hstate
    cases hstate
    exact hm
  | panic | stuck =>
    rw [hrun] at hstate
    cases hstate

theorem Keeps.of_state {ε σ α : Type} {P : σ → Prop} {m : Prog ε σ α} (h : Keeps P m) {s s' : σ}
    (hs : P s) (hstate : (m s).state? = some s')
    : P s' :=
  Triple.of_state h hs hstate

namespace Run

variable {A S : Type} (step : A → S → S → Prop)

inductive Path : List A → S → S → Prop where
  | nil (s : S) : Path [] s s
  | cons {a : A} {as : List A} {s s' s'' : S} (hstep : step a s s') (hpath : Path as s' s'')
    : Path (a :: as) s s''

/--
`P` holds in every state the actions can pass through.
-/
def Always (P : S → Prop) (as : List A) (s : S) : Prop :=
  match as with
  | [] => P s
  | a :: as => P s ∧ ∀ s', step a s s' → Always P as s'

/--
Every action is taken in a state that meets its condition `C`.
-/
def Each (C : A → S → Prop) (as : List A) (s : S) : Prop :=
  match as with
  | [] => True
  | a :: as => C a s ∧ ∀ s', step a s s' → Each C as s'

variable {step} {P : S → Prop} {C : A → S → Prop}

theorem Path.append {as bs : List A} {s s' s'' : S} (h : Path step as s s')
    (h' : Path step bs s' s'')
    : Path step (as ++ bs) s s'' := by
  induction h with
  | nil => exact h'
  | cons hstep _ ih => exact .cons hstep (ih h')

theorem Path.single {a : A} {s s' : S} (h : step a s s') : Path step [a] s s' := .cons h (.nil s')

theorem Path.of_single {a : A} {s s' : S} (h : Path step [a] s s') : step a s s' := by
  cases h with
  | cons hstep hnil =>
    cases hnil
    exact hstep

theorem Always.here {as : List A} {s : S} (h : Always step P as s) : P s := by
  cases as with
  | nil => exact h
  | cons a as => exact h.1

theorem Path.split {as bs : List A} {s s'' : S} (h : Path step (as ++ bs) s s'')
    : ∃ s', Path step as s s' ∧ Path step bs s' s'' := by
  induction as generalizing s with
  | nil => exact ⟨s, .nil s, h⟩
  | cons a as ih =>
    cases h with
    | cons hstep hpath =>
      obtain ⟨s', has, hbs⟩ := ih hpath
      exact ⟨s', .cons hstep has, hbs⟩

theorem each_of_forall (as : List A) (h : ∀ a ∈ as, ∀ s, C a s) (s : S) : Each step C as s := by
  induction as generalizing s with
  | nil => exact True.intro
  | cons a as ih =>
    exact ⟨h a List.mem_cons_self s, fun s' _ => ih (fun b hb => h b (List.mem_cons_of_mem a hb)) s'⟩

/--
A simulation: another system can follow every step, for as many steps as the relation still allows.
-/
theorem Path.simulated {T : Type} {step' : A → T → T → Prop} {R : Nat → S → T → Prop}
    (h : ∀ k a s s' t, R (k + 1) s t → C a s → step a s s' → ∃ t', step' a t t' ∧ R k s' t')
    {as : List A} {s s' : S} (hpath : Path step as s s') (heach : Each step C as s) {k : Nat} {t : T}
    (hr : R (k + as.length) s t)
    : ∃ t', Path step' as t t' ∧ R k s' t' := by
  induction hpath generalizing t with
  | nil => exact ⟨t, .nil t, hr⟩
  | @cons a as s s1 s' hstep _ ih =>
    obtain ⟨t1, hstep', hr1⟩ := h (k + as.length) a s s1 t hr heach.1 hstep
    obtain ⟨t', hpath', hr'⟩ := ih (heach.2 s1 hstep) hr1
    exact ⟨t', .cons hstep' hpath', hr'⟩

/--
When the condition of an action says exactly that the action keeps the invariant, the invariant holds
along a run exactly when all conditions are met.
-/
theorem always_iff_each (h : ∀ a s, P s → (C a s ↔ ∀ s', step a s s' → P s')) (as : List A) {s : S}
    (hs : P s)
    : Always step P as s ↔ Each step C as s := by
  induction as generalizing s with
  | nil => simp [Always, Each, hs]
  | cons a as ih =>
    constructor
    . intro hall
      have hnext : ∀ s', step a s s' → P s' := fun s' hstep => (hall.2 s' hstep).here
      exact ⟨(h a s hs).mpr hnext, fun s' hstep => (ih (hnext s' hstep)).mp (hall.2 s' hstep)⟩
    . intro heach
      have hnext := (h a s hs).mp heach.1
      exact ⟨hs, fun s' hstep => (ih (hnext s' hstep)).mpr (heach.2 s' hstep)⟩

end Run
