import H2Go.Lib.Proc

/-!
This module contains the rules of pre- and postconditions for a procedure that runs with no other
thread around. They say nothing about a run that panics.
-/

namespace Proc

variable {ε σ α β : Type} {P : σ → Prop} {E : ε → σ → Prop}

theorem holds_bindResult {p : Proc ε σ α} {f : Except (Stop ε) α → Proc ε σ β} {s : σ}
    {Q : β → σ → Prop}
    (h : (p.run s).Holds True (fun a t => ((f (.ok a)).run t).Holds True Q E)
      (fun e t => ((f (.error (.err e))).run t).Holds True Q E))
    (hpanic : ∀ why t, ((f (.error (.panic why))).run t).Holds True Q E)
    : ((p.bindResult f).run s).Holds True Q E := by
  induction p generalizing s with
  | ret r =>
    rcases r with (e | why) | a
    . exact h
    . exact hpanic why s
    . exact h
  | step m k ih =>
    simp only [bindResult, run] at h ⊢
    cases hstep : (m s).result s with
    | none => trivial
    | some rt =>
      obtain ⟨r, t⟩ := rt
      rw [hstep] at h
      exact ih r h

theorem triple_pure {Q : α → σ → Prop} {a : α} (h : ∀ s, P s → Q a s)
    : Triple True P (Pure.pure a : Proc ε σ α).run Q E := Triple.pure h

theorem triple_throw {Q : α → σ → Prop} {e : ε} (h : ∀ s, P s → E e s)
    : Triple True P (throw e : Proc ε σ α).run Q E := Triple.throw h

theorem triple_panic {Q : α → σ → Prop} (why : Panic)
    : Triple True P (ret (.error (.panic why)) : Proc ε σ α).run Q E := fun _ _ => True.intro

theorem triple_atomic {m : Prog ε σ α} {Q : α → σ → Prop} (h : Triple True P m Q E)
    : Triple True P (atomic m).run Q E := by
  intro s hs
  have hm := h s hs
  simp only [atomic, run]
  cases hrun : m s with
  | ok | fail =>
    rw [hrun] at hm
    exact hm
  | panic | stuck => trivial

theorem triple_bind {p : Proc ε σ α} {f : α → Proc ε σ β} {R : α → σ → Prop} {Q : β → σ → Prop}
    (hp : Triple True P p.run R E) (hf : ∀ a, Triple True (R a) (f a).run Q E)
    : Triple True P (p >>= f).run Q E := by
  intro s hs
  apply holds_bindResult
  . exact (hp s hs).imp (fun a t ht => hf a t ht) (fun _ _ he => he)
  . exact fun _ _ => True.intro

theorem triple_ofExcept {r : Except ε α} {Q : α → σ → Prop} (hok : ∀ a, r = .ok a → ∀ s, P s → Q a s)
    (herr : ∀ e, r = .error e → ∀ s, P s → E e s)
    : Triple True P (ofExcept r).run Q E := by
  cases r with
  | ok a => exact triple_pure (hok a rfl)
  | error e => exact triple_throw (herr e rfl)

theorem triple_attempt {p : Proc ε σ α} {Q : α → σ → Prop} {F : ε → σ → Prop}
    (h : Triple True P p.run Q F)
    : Triple True P p.attempt.run
        (fun r s => Except.casesOn r (fun e => F e s) (fun a => Q a s)) E := by
  intro s hs
  apply holds_bindResult
  . exact (h s hs).imp (fun _ _ hq => hq) (fun _ _ he => he)
  . exact fun _ _ => True.intro

theorem triple_tried {p : Proc ε σ α} {Q : σ → Prop} (h : Triple True P p.run (fun _ => Q) (fun _ => Q))
    : Triple True P p.attempt.run (fun _ => Q) E := by
  apply (triple_attempt h).post
  intro r s hs
  cases r with
  | ok | error => exact hs

theorem triple_deferred {p : Proc ε σ α} {q : Proc ε σ Unit} {Q R : α → σ → Prop}
    {F : ε → σ → Prop} (h : Triple True P p.run R F)
    (hq : ∀ a, Triple True (R a) q.run (fun _ => Q a) (fun _ _ => False))
    (he : ∀ e, Triple True (F e) q.run (fun _ => E e) (fun _ _ => False))
    (hends : Triple True (fun _ => True) q.run (fun _ _ => True) (fun _ _ => False))
    : Triple True P (p.deferred q).run Q E := by
  intro s hs
  apply holds_bindResult
  . refine (h s hs).imp (fun a t ht => ?_) (fun e t ht => ?_)
    . exact triple_bind ((hq a).of_succeeds)
        (fun _ => Triple.pure (fun _ h => h)) t ht
    . exact triple_bind ((he e).of_succeeds)
        (fun _ => Triple.throw (fun _ h => h)) t ht
  . intro why t
    exact triple_bind (hends.of_succeeds)
      (fun _ => triple_panic why) t True.intro

theorem triple_onStop {p : Proc ε σ α} {q : Proc ε σ Unit} {Q : α → σ → Prop} {F : ε → σ → Prop}
    (h : Triple True P p.run Q F)
    (he : ∀ e, Triple True (F e) q.run (fun _ => E e) (fun _ _ => False))
    (hends : Triple True (fun _ => True) q.run (fun _ _ => True) (fun _ _ => False))
    : Triple True P (p.onStop q).run Q E := by
  intro s hs
  apply holds_bindResult
  . refine (h s hs).imp (fun a t ht => ht) (fun e t ht => ?_)
    exact triple_bind ((he e).of_succeeds)
      (fun _ => Triple.throw (fun _ h => h)) t ht
  . intro why t
    exact triple_bind (hends.of_succeeds)
      (fun _ => triple_panic why) t True.intro

theorem triple_discard {p : Proc ε σ α} {Q : Unit → σ → Prop} (h : Triple True P p.run (fun _ => Q ()) E)
    : Triple True P p.discard.run Q E :=
  triple_bind h (fun _ => triple_pure (fun _ hs => hs))

end Proc
