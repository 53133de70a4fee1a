import H2Go.Lib.Prog

/-!
This module contains the rules of pre- and postconditions for `Prog`. A triple has one
postcondition for the runs that return a value and one for the runs that return an error. `D` is
what a panic or a run without fuel owes: with `D := False` a triple also says that neither happens,
with `D := True` it says nothing about such runs.
-/

namespace Out

variable {ε σ α : Type} {D : Prop}

def Holds (D : Prop) (Q : α → σ → Prop) (E : ε → σ → Prop) (o : Out ε σ α) : Prop :=
  match o with
  | .ok a s => Q a s
  | .fail e s => E e s
  | .panic _ => D
  | .stuck => D

@[simp]
theorem holds_ok {Q : α → σ → Prop} {E : ε → σ → Prop} {a : α} {s : σ}
    : (Out.ok a s).Holds D Q E ↔ Q a s := Iff.rfl

@[simp]
theorem holds_fail {Q : α → σ → Prop} {E : ε → σ → Prop} {e : ε} {s : σ}
    : (Out.fail e s).Holds D Q E ↔ E e s := Iff.rfl

@[simp]
theorem holds_panic {Q : α → σ → Prop} {E : ε → σ → Prop} {p : Panic}
    : (Out.panic p).Holds D Q E ↔ D := Iff.rfl

@[simp]
theorem holds_stuck {Q : α → σ → Prop} {E : ε → σ → Prop}
    : (Out.stuck).Holds D Q E ↔ D := Iff.rfl

theorem Holds.mono {o : Out ε σ α} {D' : Prop} {Q : α → σ → Prop} {E : ε → σ → Prop}
    (h : o.Holds D Q E) (hd : D → D')
    : o.Holds D' Q E := by
  cases o with
  | ok | fail => exact h
  | panic | stuck => exact hd h

theorem Holds.imp {o : Out ε σ α} {Q Q' : α → σ → Prop} {E E' : ε → σ → Prop}
    (h : o.Holds D Q E) (hq : ∀ a s, Q a s → Q' a s) (he : ∀ e s, E e s → E' e s)
    : o.Holds D Q' E' := by
  cases o with
  | ok a s => exact hq a s h
  | fail e s => exact he e s h
  | panic | stuck => exact h

theorem Holds.zoom {τ : Type} {m : Prog ε τ α} {get : σ → τ} {set : τ → σ → σ} {s : σ}
    {Q : α → τ → Prop} {E : ε → τ → Prop} {Q' : α → σ → Prop} {E' : ε → σ → Prop}
    (h : (m (get s)).Holds D Q E) (hq : ∀ a t, Q a t → Q' a (set t s))
    (he : ∀ e t, E e t → E' e (set t s))
    : (Prog.zoom get set m s).Holds D Q' E' := by
  rw [Prog.zoom_run]
  cases hrun : m (get s) with
  | ok a t =>
    rw [hrun] at h
    exact hq a t h
  | fail e t =>
    rw [hrun] at h
    exact he e t h
  | panic | stuck =>
    rw [hrun] at h
    exact h

theorem Holds.bind {β : Type} {m : Prog ε σ α} {f : α → Prog ε σ β} {s : σ} {R : α → σ → Prop}
    {Q : β → σ → Prop} {E : ε → σ → Prop} (h : (m s).Holds D R E)
    (hf : ∀ a t, R a t → (f a t).Holds D Q E)
    : ((m >>= f) s).Holds D Q E := by
  rw [Prog.bind_run]
  cases hrun : m s with
  | ok a t =>
    rw [hrun] at h
    exact hf a t h
  | fail | panic | stuck =>
    rw [hrun] at h
    exact h

end Out

def Out.Ends {ε σ α : Type} (o : Out ε σ α) : Prop := o.Holds False (fun _ _ => True) (fun _ _ => True)

/--
Every run of `m` from a state with `P` ends with `Q` or returns an error with `E`.
-/
def Triple {ε σ α : Type} (D : Prop) (P : σ → Prop) (m : Prog ε σ α) (Q : α → σ → Prop)
    (E : ε → σ → Prop) : Prop :=
  ∀ s, P s → (m s).Holds D Q E

namespace Triple

variable {ε ε' σ τ α β : Type} {D : Prop} {P P' : σ → Prop} {E : ε → σ → Prop}

theorem of_ok {m : Prog ε σ α} {Q : α → σ → Prop} (h : Triple D P m Q E) {s s' : σ} {a : α}
    (hs : P s) (hrun : m s = .ok a s')
    : Q a s' := by
  have := h s hs
  rwa [hrun] at this

theorem of_fail {m : Prog ε σ α} {Q : α → σ → Prop} (h : Triple D P m Q E) {s s' : σ} {e : ε}
    (hs : P s) (hrun : m s = .fail e s')
    : E e s' := by
  have := h s hs
  rwa [hrun] at this

theorem exists_fail {m : Prog ε σ α} (h : Triple False P m (fun _ _ => False) E) {s : σ} (hs : P s)
    : ∃ e s', m s = .fail e s' ∧ E e s' := by
  have h := h s hs
  cases hrun : m s with
  | fail e s' =>
    rw [hrun] at h
    exact ⟨e, s', rfl, h⟩
  | ok | panic | stuck =>
    rw [hrun] at h
    exact h.elim

theorem weaken {m : Prog ε σ α} {Q Q' : α → σ → Prop} {E' : ε → σ → Prop} (h : Triple D P m Q E)
    (hp : ∀ s, P' s → P s) (hq : ∀ a s, Q a s → Q' a s) (he : ∀ e s, E e s → E' e s)
    : Triple D P' m Q' E' := by
  intro s hs
  exact (h s (hp s hs)).imp hq he

theorem post {m : Prog ε σ α} {Q Q' : α → σ → Prop} (h : Triple D P m Q E)
    (hq : ∀ a s, Q a s → Q' a s)
    : Triple D P m Q' E :=
  h.weaken (fun _ hs => hs) hq (fun _ _ he => he)

theorem pre {m : Prog ε σ α} {Q : α → σ → Prop} (h : Triple D P m Q E) (hp : ∀ s, P' s → P s)
    : Triple D P' m Q E :=
  h.weaken hp (fun _ _ hq => hq) (fun _ _ he => he)

theorem of_succeeds {m : Prog ε σ α} {Q : α → σ → Prop} (h : Triple D P m Q (fun _ _ => False))
    : Triple D P m Q E :=
  h.weaken (fun _ hs => hs) (fun _ _ hq => hq) (fun _ _ he => he.elim)

theorem trivial {m : Prog ε σ α} : Triple True P m (fun _ _ => True) (fun _ _ => True) := by
  intro s _
  cases m s <;> exact True.intro

/--
A fact that follows from the precondition alone is available in the proof of the triple.
-/
theorem assume {m : Prog ε σ α} {Q : α → σ → Prop} {p : Prop} (hp : ∀ s, P s → p)
    (h : p → Triple D P m Q E)
    : Triple D P m Q E := by
  intro s hs
  exact h (hp s hs) s hs

theorem pure {Q : α → σ → Prop} {a : α} (h : ∀ s, P s → Q a s)
    : Triple D P (Pure.pure a) Q E := by
  intro s hs
  exact h s hs

theorem throw {Q : α → σ → Prop} {e : ε} (h : ∀ s, P s → E e s)
    : Triple D P (Prog.throw e) Q E := by
  intro s hs
  exact h s hs

theorem get_bind {f : σ → Prog ε σ β} {Q : β → σ → Prop}
    (h : ∀ s, P s → Triple D (fun t => t = s) (f s) Q E)
    : Triple D P (Prog.get >>= f) Q E := by
  intro s hs
  rw [Prog.bind_run, Prog.get_run, Out.andThen_ok]
  exact h s hs s rfl

theorem get_then {f : σ → Prog ε σ β} {Q : β → σ → Prop} (h : ∀ s, Triple D P (f s) Q E)
    : Triple D P (Prog.get >>= f) Q E := by
  intro s hs
  exact h s s hs

theorem modify {Q : Unit → σ → Prop} {f : σ → σ} (h : ∀ s, P s → Q () (f s))
    : Triple D P (Prog.modify f) Q E := by
  intro s hs
  exact h s hs

theorem bind {m : Prog ε σ α} {f : α → Prog ε σ β} {R : α → σ → Prop} {Q : β → σ → Prop}
    (hm : Triple D P m R E) (hf : ∀ a, Triple D (R a) (f a) Q E)
    : Triple D P (m >>= f) Q E := by
  intro s hs
  exact (hm s hs).bind hf

theorem mapErr {m : Prog ε' σ α} {g : ε' → ε} {Q : α → σ → Prop}
    (h : Triple D P m Q (fun e s => E (g e) s))
    : Triple D P (Prog.mapErr g m) Q E := by
  intro s hs
  have h := h s hs
  rw [Prog.mapErr_run]
  cases hrun : m s with
  | ok | fail | panic | stuck =>
    rw [hrun] at h
    exact h

theorem zoom {get : σ → τ} {set : τ → σ → σ} {m : Prog ε τ α} {P : τ → Prop} {Q : α → τ → Prop}
    {E : ε → τ → Prop} {P' : σ → Prop} {Q' : α → σ → Prop} {E' : ε → σ → Prop}
    (h : Triple D P m Q E) (hp : ∀ s, P' s → P (get s))
    (hq : ∀ s a t, P' s → Q a t → Q' a (set t s)) (he : ∀ s e t, P' s → E e t → E' e (set t s))
    : Triple D P' (Prog.zoom get set m) Q' E' := by
  intro s hs
  exact (h (get s) (hp s hs)).zoom (fun a t => hq s a t hs) (fun e t => he s e t hs)

theorem ite {c : Prop} [Decidable c] {m m' : Prog ε σ α} {Q : α → σ → Prop}
    (ht : c → Triple D P m Q E) (he : ¬c → Triple D P m' Q E)
    : Triple D P (if c then m else m') Q E := by
  split
  . next h => exact ht h
  . next h => exact he h

theorem attempt {m : Prog ε' σ α} {Q : α → σ → Prop} {E' : ε' → σ → Prop}
    (h : Triple D P m Q E')
    : Triple D P (Prog.attempt m) (fun r s => Except.casesOn r (fun e => E' e s) (fun a => Q a s))
        E := by
  intro s hs
  have h := h s hs
  unfold Prog.attempt
  cases hrun : m s with
  | ok | fail | panic | stuck =>
    rw [hrun] at h
    exact h

theorem tried {m : Prog ε' σ α} {Q : σ → Prop} (h : Triple D P m (fun _ => Q) (fun _ => Q))
    : Triple D P (Prog.attempt m) (fun _ => Q) E := by
  apply (attempt h).post
  intro r s hs
  cases r with
  | ok | error => exact hs

theorem onFail {m : Prog ε σ α} {c : ε → Prog ε σ Unit} {Q : α → σ → Prop} {F : ε → σ → Prop}
    (hm : Triple D P m Q F) (hc : ∀ e, Triple D (F e) (c e) (fun _ s => E e s) (fun _ s => E e s))
    : Triple D P (Prog.onFail m c) Q E := by
  unfold Prog.onFail
  apply bind (attempt hm)
  intro r
  cases r with
  | ok a => exact pure (fun _ hs => hs)
  | error e =>
    apply bind (attempt (hc e))
    intro r
    cases r with
    | ok | error => exact throw (fun _ hs => hs)

theorem iter (I : Nat → β → σ → Prop) {f : Nat → β → Prog ε σ β} (n i0 : Nat) (acc : β)
    (h : ∀ i b, i0 ≤ i → i < i0 + n → Triple D (I i b) (f i b) (fun b s => I (i + 1) b s) E)
    : Triple D (I i0 acc) (Prog.iter n i0 acc f) (fun b s => I (i0 + n) b s) E := by
  induction n generalizing i0 acc with
  | zero => exact pure (fun _ hs => hs)
  | succ n ih =>
    rw [Prog.iter_succ]
    apply bind (h i0 acc (by omega) (by omega))
    intro b
    have := ih (i0 + 1) b (fun i b h1 h2 => h i b (by omega) (by omega))
    rw [show i0 + (n + 1) = i0 + 1 + n by omega]
    exact this

end Triple

def Keeps {ε σ α : Type} (P : σ → Prop) (m : Prog ε σ α) : Prop :=
  Triple True P m (fun _ => P) (fun _ => P)

namespace Keeps

variable {ε ε' σ τ α β : Type} {P : σ → Prop} {m : Prog ε σ α}

theorem pure (a : α) : Keeps P (Pure.pure a : Prog ε σ α) := Triple.pure (fun _ hs => hs)

theorem throw (e : ε) : Keeps P (Prog.throw e : Prog ε σ α) := Triple.throw (fun _ hs => hs)

theorem get : Keeps P (Prog.get : Prog ε σ σ) := fun _ hs => hs

theorem modify {f : σ → σ} (h : ∀ s, P s → P (f s)) : Keeps P (Prog.modify f : Prog ε σ Unit) :=
  Triple.modify h

theorem bind {f : α → Prog ε σ β} (hm : Keeps P m) (hf : ∀ a, Keeps P (f a)) : Keeps P (m >>= f) :=
  Triple.bind hm hf

theorem mapErr {m : Prog ε' σ α} {g : ε' → ε} (h : Keeps P m) : Keeps P (Prog.mapErr g m) :=
  Triple.mapErr h

theorem attempt {m : Prog ε' σ α} (h : Keeps P m) : Keeps P (Prog.attempt m : Prog ε σ _) := by
  apply (Triple.attempt h).post
  intro r s hs
  cases r with
  | ok | error => exact hs

theorem onFail {c : ε → Prog ε σ Unit} (hm : Keeps P m) (hc : ∀ e, Keeps P (c e))
    : Keeps P (Prog.onFail m c) :=
  Triple.onFail hm hc

theorem ite {c : Prop} [Decidable c] {m' : Prog ε σ α} (h : Keeps P m) (h' : Keeps P m')
    : Keeps P (if c then m else m') :=
  Triple.ite (fun _ => h) (fun _ => h')

theorem and {Q : σ → Prop} (h : Keeps P m) (h' : Keeps Q m) : Keeps (fun s => P s ∧ Q s) m := by
  intro s hs
  have hp := h s hs.1
  have hq := h' s hs.2
  cases hrun : m s with
  | ok | fail =>
    rw [hrun] at hp hq
    exact ⟨hp, hq⟩
  | panic | stuck => exact True.intro

theorem zoom {get : σ → τ} {set : τ → σ → σ} {m : Prog ε τ α} (h : ∀ t s, P s → P (set t s))
    : Keeps P (Prog.zoom get set m) := by
  intro s hs
  rw [Prog.zoom_run]
  cases m (get s) with
  | ok a t => exact h t s hs
  | fail e t => exact h t s hs
  | panic | stuck => trivial

end Keeps

def Returns {ε σ α : Type} (m : Prog ε σ α) (R : α → Prop) : Prop :=
  Triple True (fun _ => True) m (fun a _ => R a) (fun _ _ => True)

namespace Returns

variable {ε σ α β : Type}

theorem pure {R : α → Prop} {a : α} (h : R a) : Returns (Pure.pure a : Prog ε σ α) R :=
  Triple.pure (fun _ _ => h)

theorem bind {m : Prog ε σ α} {f : α → Prog ε σ β} {R : β → Prop} (h : ∀ a, Returns (f a) R)
    : Returns (m >>= f) R :=
  Triple.bind Triple.trivial h

theorem throw {R : α → Prop} (e : ε) : Returns (Prog.throw e : Prog ε σ α) R :=
  Triple.throw (fun _ _ => True.intro)

theorem ite {c : Prop} [Decidable c] {m m' : Prog ε σ α} {R : α → Prop} (ht : c → Returns m R)
    (he : ¬c → Returns m' R)
    : Returns (if c then m else m') R :=
  Triple.ite ht he

theorem and_keeps {m : Prog ε σ α} {R : α → Prop} {P : σ → Prop} (h : Returns m R) (hm : Keeps P m)
    : Triple True P m (fun a s => R a ∧ P s) (fun _ => P) := by
  intro s hs
  have hr := h s True.intro
  have hk := hm s hs
  cases hrun : m s with
  | ok a s' =>
    rw [hrun] at hr hk
    exact ⟨hr, hk⟩
  | fail e s' =>
    rw [hrun] at hk
    exact hk
  | panic | stuck => exact True.intro

end Returns
