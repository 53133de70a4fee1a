import H2Go.Lib.Proc

/-!
This module contains the properties of a shared state that no step of any thread destroys.
-/

namespace Proc

variable {ε σ α β : Type} {P : σ → Prop}

def Preserves (P : σ → Prop) (p : Proc ε σ α) : Prop :=
  match p with
  | .ret _ => True
  | .step m k => Keeps P m ∧ ∀ r, (k r).Preserves P

namespace Preserves

theorem pure (a : α) : (Pure.pure a : Proc ε σ α).Preserves P := True.intro

theorem throw (e : ε) : (Proc.throw e : Proc ε σ α).Preserves P := True.intro

theorem ofExcept (r : Except ε α) : (Proc.ofExcept r : Proc ε σ α).Preserves P := by
  cases r with
  | ok | error => exact True.intro

theorem atomic {m : Prog ε σ α} (h : Keeps P m) : (Proc.atomic m).Preserves P :=
  ⟨h, fun _ => True.intro⟩

theorem bindResult {p : Proc ε σ α} {f : Except (Stop ε) α → Proc ε σ β} (hp : p.Preserves P)
    (hf : ∀ r, (f r).Preserves P)
    : (p.bindResult f).Preserves P := by
  induction p with
  | ret r => exact hf r
  | step m k ih => exact ⟨hp.1, fun r => ih r (hp.2 r)⟩

theorem bind {p : Proc ε σ α} {f : α → Proc ε σ β} (hp : p.Preserves P) (hf : ∀ a, (f a).Preserves P)
    : (p >>= f).Preserves P := by
  apply bindResult hp
  intro r
  cases r with
  | ok a => exact hf a
  | error => exact True.intro

theorem attempt {p : Proc ε σ α} (hp : p.Preserves P) : p.attempt.Preserves P := by
  apply bindResult hp
  intro r
  rcases r with (_ | _) | _ <;> exact True.intro

theorem deferred {p : Proc ε σ α} {q : Proc ε σ Unit} (hp : p.Preserves P) (hq : q.Preserves P)
    : (p.deferred q).Preserves P :=
  bindResult hp (fun _ => bind hq (fun _ => True.intro))

theorem onStop {p : Proc ε σ α} {q : Proc ε σ Unit} (hp : p.Preserves P) (hq : q.Preserves P)
    : (p.onStop q).Preserves P := by
  apply bindResult hp
  intro r
  cases r with
  | ok => exact True.intro
  | error => exact bind hq (fun _ => True.intro)

theorem discard {p : Proc ε σ α} (hp : p.Preserves P) : p.discard.Preserves P :=
  bind hp (fun _ => True.intro)

theorem safe {L : Type} {P' : σ → Prop} {Inv : σ → (Nat → L) → Prop} {p : Proc ε σ α}
    (h : ∀ ls, p.Preserves (fun s => Inv s ls)) (i : Nat) (l : L)
    : Safe P' Inv i p l (fun _ l' => l' = l) := by
  induction p with
  | ret r => rfl
  | step m k ih =>
    intro s ls hinv hl r t hrun _
    refine ⟨l, ?_, ih r (fun ls => (h ls).2 r)⟩
    rw [← hl, Function.update_eq_self]
    exact (h ls).1.of_result hinv hrun

/--
Code whose steps follow a relation preserves what the relation does not take back.
-/
theorem of_rel {R : σ → σ → Prop} {p : Proc ε σ α} (hrefl : ∀ s, R s s)
    (hP : ∀ {s t}, R s t → P s → P t) (h : ∀ s, p.Preserves (R s))
    : p.Preserves P := by
  induction p with
  | ret r => exact True.intro
  | step m k ih =>
    refine ⟨?_, fun r => ih r (fun s => (h s).2 r)⟩
    intro s hs
    exact ((h s).1 s (hrefl s)).imp (fun _ _ hr => hP hr hs) (fun _ _ hr => hP hr hs)

end Preserves

/--
Every step leaves the view `v` of the shared state as it is, until one leads to a state with `G`.
-/
def StillUntil {ν : Type} (v : σ → ν) (G : σ → Prop) (p : Proc ε σ α) : Prop :=
  match p with
  | .ret _ => True
  | .step m k => ∀ s r t, (m s).result s = some (r, t) → G t ∨ v t = v s ∧ (k r).StillUntil v G

namespace StillUntil

variable {ν : Type} {v : σ → ν} {G : σ → Prop}

theorem pure (a : α) : (Pure.pure a : Proc ε σ α).StillUntil v G := True.intro

theorem throw (e : ε) : (Proc.throw e : Proc ε σ α).StillUntil v G := True.intro

theorem ofExcept_bind {r : Except ε α} {f : α → Proc ε σ β} (hf : ∀ a, (f a).StillUntil v G)
    : (Proc.ofExcept r >>= f).StillUntil v G := by
  cases r with
  | ok a => exact hf a
  | error => exact True.intro

theorem atomic {m : Prog ε σ α} (h : ∀ x, Keeps (fun s => v s = x) m)
    : (Proc.atomic m).StillUntil v G :=
  fun s _ _ hrun => .inr ⟨(h (v s)).of_result rfl hrun, True.intro⟩

theorem step_bind {m : Prog ε σ α} {f : α → Proc ε σ β} (h : ∀ x, Keeps (fun s => v s = x) m)
    (hf : ∀ a, (f a).StillUntil v G)
    : (Proc.atomic m >>= f).StillUntil v G := by
  intro s r t hrun
  refine .inr ⟨(h (v s)).of_result rfl hrun, ?_⟩
  cases r with
  | ok a => exact hf a
  | error => exact True.intro

/--
A step that gains `G` or leaves the view alone. Only what follows on a failure matters.
-/
theorem gain_step {m : Prog ε σ α} {k : Except (Stop ε) α → Proc ε σ β}
    (h : ∀ s, (m s).Holds True (fun _ t => G t) (fun _ t => v t = v s))
    (hk : ∀ e, (k (.error e)).StillUntil v G)
    : (Proc.step m k).StillUntil v G := by
  intro s r t hrun
  have hm := h s
  cases hout : m s with
  | ok =>
    rw [hout] at hm hrun
    cases hrun
    exact .inl hm
  | fail =>
    rw [hout] at hm hrun
    cases hrun
    exact .inr ⟨hm, hk _⟩
  | panic =>
    rw [hout] at hrun
    cases hrun
    exact .inr ⟨rfl, hk _⟩
  | stuck =>
    rw [hout] at hrun
    cases hrun

theorem gain_bind {m : Prog ε σ α} {f : α → Proc ε σ β}
    (h : ∀ s, (m s).Holds True (fun _ t => G t) (fun _ t => v t = v s))
    : (Proc.atomic m >>= f).StillUntil v G :=
  gain_step h (fun _ => True.intro)

theorem tryGain_bind {m : Prog ε σ α} {f : Except ε α → Proc ε σ β}
    (h : ∀ s, (m s).Holds True (fun _ t => G t) (fun _ t => v t = v s))
    (hf : ∀ e, (f (.error e)).StillUntil v G)
    : (Proc.attempt (.atomic m) >>= f).StillUntil v G := by
  apply gain_step h
  intro e
  cases e with
  | err e => exact hf e
  | panic => exact True.intro

theorem discard {p : Proc ε σ α} (hp : p.StillUntil v G) : p.discard.StillUntil v G := by
  induction p with
  | ret r => cases r <;> exact True.intro
  | step m k ih =>
    intro s r t hrun
    exact (hp s r t hrun).imp_right (fun h => ⟨h.1, ih r h.2⟩)

end StillUntil

/--
The result is an error or a panic that meets `E`.
-/
def Stopped (E : Stop ε → Prop) (r : Except (Stop ε) α) : Prop := ∃ e, r = .error e ∧ E e

def Panicked (e : Stop ε) : Prop := ∃ why, e = .panic why

theorem not_panicked_err (e : ε) : ¬ Panicked (.err e) := by
  rintro ⟨why, h⟩
  cases h

theorem ok_of_result {o : Out ε σ α} {s t : σ} {a : α} (h : o.result s = some (.ok a, t))
    : o = .ok a t := by
  cases o <;> cases h
  rfl

theorem fail_of_result {o : Out ε σ α} {s t : σ} {e : ε}
    (h : o.result s = some (.error (.err e), t))
    : o = .fail e t := by
  cases o <;> cases h
  rfl

/--
The result of a step on a part of the state is that of the part, unless the step panics.
-/
theorem part_of_result {ρ : Type} {o : Out ε ρ α} {set : ρ → σ} (x : ρ) {s t : σ}
    {r : Except (Stop ε) α} (h : (o.map id set).result s = some (r, t))
    : Stopped Panicked r ∨ ∃ y, o.result x = some (r, y) ∧ t = set y := by
  cases o with
  | ok | fail =>
    cases h
    exact .inr ⟨_, rfl, rfl⟩
  | panic =>
    cases h
    exact .inl ⟨_, rfl, _, rfl⟩
  | stuck => cases h

/--
The code ends with `R` if each of its steps leads from a state to one that `A` allows.
-/
def Ends (A : σ → σ → Prop) (R : Except (Stop ε) α → Prop) (p : Proc ε σ α) : Prop :=
  match p with
  | .ret r => R r
  | .step m k => ∀ s r t, A s t → (m s).result s = some (r, t) → (k r).Ends A R

namespace Ends

variable {A : σ → σ → Prop} {E : Stop ε → Prop}

theorem trivial {p : Proc ε σ α} : p.Ends A (fun _ => True) := by
  induction p with
  | ret r => exact True.intro
  | step m k ih => exact fun _ r _ _ _ => ih r

theorem atomic {m : Prog ε σ α} {R : Except (Stop ε) α → Prop}
    (h : ∀ s r t, A s t → (m s).result s = some (r, t) → R r)
    : (Proc.atomic m).Ends A R := h

theorem bindResult {p : Proc ε σ α} {f : Except (Stop ε) α → Proc ε σ β}
    {R : Except (Stop ε) α → Prop} {R' : Except (Stop ε) β → Prop} (hp : p.Ends A R)
    (hf : ∀ r, R r → (f r).Ends A R')
    : (p.bindResult f).Ends A R' := by
  induction p with
  | ret r => exact hf r hp
  | step m k ih => exact fun s r t hst hrun => ih r (hp s r t hst hrun)

theorem bind {p : Proc ε σ α} {f : α → Proc ε σ β} {R : Except (Stop ε) α → Prop}
    {R' : Except (Stop ε) β → Prop} (hp : p.Ends A R) (hf : ∀ a, R (.ok a) → (f a).Ends A R')
    (he : ∀ e, R (.error e) → R' (.error e))
    : (p >>= f).Ends A R' := by
  apply bindResult hp
  intro r hr
  cases r with
  | ok a => exact hf a hr
  | error e => exact he e hr

/--
Nothing runs after a part that stops.
-/
theorem stop_bind {p : Proc ε σ α} {f : α → Proc ε σ β} (hp : p.Ends A (Stopped E))
    : (p >>= f).Ends A (Stopped E) := by
  apply bind hp
  . rintro a ⟨e, h, -⟩
    cases h
  . rintro e ⟨e', h, he⟩
    cases h
    exact ⟨e, rfl, he⟩

theorem bind_stop {p : Proc ε σ α} {f : α → Proc ε σ β}
    (hf : ∀ a, (f a).Ends A (Stopped (fun _ => True)))
    : (p >>= f).Ends A (Stopped (fun _ => True)) :=
  bind trivial (fun a _ => hf a) (fun e _ => ⟨e, rfl, True.intro⟩)

theorem attempt {p : Proc ε σ α} (hE : ∀ e, ¬ E (.err e)) (hp : p.Ends A (Stopped E))
    : p.attempt.Ends A (Stopped E) := by
  apply bindResult hp
  rintro _ ⟨e, rfl, he⟩
  cases e with
  | err e => exact absurd he (hE e)
  | panic why => exact ⟨_, rfl, he⟩

theorem deferred {p : Proc ε σ α} {q : Proc ε σ Unit} (hp : p.Ends A (Stopped (fun _ => True)))
    : (p.deferred q).Ends A (Stopped (fun _ => True)) :=
  bindResult hp (fun _ hr => bind trivial (fun _ _ => hr) (fun e _ => ⟨e, rfl, True.intro⟩))

end Ends

end Proc

namespace Threads

variable {C ε σ : Type} {code : C → Nat → Proc ε σ Unit}

theorem act_inv {t t' : Threads C ε σ} {i : Nat} (h : t.next code (.act i) = some t')
    : ∃ c, ∃ (β : Type) (m : Prog ε σ β) (k : _) (r : _), t.procs i = some (c, .step m k) ∧
        (m t.state).result t.state = some (r, t'.state) ∧
        t'.procs = Function.update t.procs i (some (c, k r)) := by
  simp only [next] at h
  split at h
  . next c β m k hproc =>
    split at h
    . next r s hrun =>
      cases h
      exact ⟨c, β, m, k, r, hproc, hrun, rfl⟩
    . cases h
  . cases h

theorem call_inv {t t' : Threads C ε σ} {i : Nat} {c : C} (h : t.next code (.call i c) = some t')
    : t.procs i = none ∧ t'.state = t.state ∧
        t'.procs = Function.update t.procs i (some (c, code c i)) := by
  simp only [next] at h
  split at h
  . next hfree =>
    cases h
    exact ⟨hfree, rfl, rfl⟩
  . cases h

variable {Q P : σ → Prop} {s : σ} {t t' : Threads C ε σ}

/--
What a thread runs after a move: the same as before, a call from its start, or what is left of a call
after one step.
-/
theorem next_cases {mv : Move C} (h : t.next code mv = some t') {i : Nat} {c : C}
    {p : Proc ε σ Unit} (hproc : t'.procs i = some (c, p))
    : t.procs i = some (c, p) ∨ p = code c i ∨
        ∃ (β : Type) (m : Prog ε σ β) (k : _) (r : _), t.procs i = some (c, .step m k) ∧
          (m t.state).result t.state = some (r, t'.state) ∧ p = k r := by
  cases mv with
  | call j d =>
    obtain ⟨-, -, hprocs⟩ := call_inv h
    rw [hprocs, Function.update_apply] at hproc
    split at hproc
    . next hij =>
      cases hproc
      exact .inr (.inl (hij ▸ rfl))
    . exact .inl hproc
  | act j =>
    obtain ⟨d, β, m, k, r, hj, hrun, hprocs⟩ := act_inv h
    rw [hprocs, Function.update_apply] at hproc
    split at hproc
    . next hij =>
      cases hproc
      exact .inr (.inr ⟨β, m, k, r, hij ▸ hj, hrun, rfl⟩)
    . exact .inl hproc

def nextsWhile (code : C → Nat → Proc ε σ Unit) (P : σ → Prop) [DecidablePred P] (t : Threads C ε σ)
    (ms : List (Move C)) : Option (Threads C ε σ) :=
  match ms with
  | [] => some t
  | m :: ms => (t.next code m).bind (fun t => if P t.state then nextsWhile code P t ms else none)

theorem Reach.nextsWhile [DecidablePred P] {ms : List (Move C)} (h : Reach code P s t)
    (hnexts : t.nextsWhile code P ms = some t')
    : Reach code P s t' := by
  induction ms generalizing t with
  | nil =>
    cases hnexts
    exact h
  | cons m ms ih =>
    obtain ⟨t1, hnext, hrest⟩ := Option.bind_eq_some_iff.mp hnexts
    split at hrest
    . next hp => exact ih (.move h hnext hp) hrest
    . cases hrest

/--
When the code of every call preserves `P`, so does what is left of it in every thread.
-/
theorem Reach.preserves (hcode : ∀ c i, (code c i).Preserves P) (h : Reach code Q s t) {i : Nat}
    {c : C} {p : Proc ε σ Unit} (hproc : t.procs i = some (c, p))
    : p.Preserves P := by
  induction h generalizing i c p with
  | start => cases hproc
  | move _ hnext _ ih =>
    rcases next_cases hnext hproc with hsame | rfl | ⟨β, m, k, r, hj, -, rfl⟩
    . exact ih hsame
    . exact hcode c i
    . exact (ih hj).2 r

theorem Reach.preserved_next (hcode : ∀ c i, (code c i).Preserves P) (h : Reach code Q s t)
    {mv : Move C} (hnext : t.next code mv = some t') (hp : P t.state)
    : P t'.state := by
  cases mv with
  | call j d =>
    obtain ⟨-, hstate, -⟩ := call_inv hnext
    exact hstate ▸ hp
  | act j =>
    obtain ⟨d, β, m, k, r, hj, hrun, -⟩ := act_inv hnext
    exact (h.preserves hcode hj).1.of_result hp hrun

section Still

variable {ν : Type} {v : σ → ν} {G : Nat → σ → Prop} {S : C → Prop}

/--
A thread whose call leaves the view alone until it gains `G` still does so, or it has gained `G`. No
thread takes `G` away.
-/
theorem Reach.still (hG : ∀ j c i, (code c i).Preserves (G j))
    (hcode : ∀ c i, S c → (code c i).StillUntil v (G i)) (h : Reach code Q s t) {i : Nat} {c : C}
    {p : Proc ε σ Unit} (hproc : t.procs i = some (c, p)) (hc : S c)
    : G i t.state ∨ p.StillUntil v (G i) := by
  induction h generalizing i c p with
  | start => cases hproc
  | @move t t' mv hreach hnext _ ih =>
    have hgained : G i t.state → G i t'.state := hreach.preserved_next (hG i) hnext
    rcases next_cases hnext hproc with hsame | rfl | ⟨β, m, k, r, hj, hrun, rfl⟩
    . exact (ih hsame hc).imp_left hgained
    . exact .inr (hcode c i hc)
    . rcases ih hj hc with hg | hstill
      . exact .inl (hgained hg)
      . exact (hstill _ _ _ hrun).imp_right And.right

theorem Reach.still_act (hG : ∀ j c i, (code c i).Preserves (G j))
    (hcode : ∀ c i, S c → (code c i).StillUntil v (G i)) (h : Reach code Q s t) {i : Nat} {c : C}
    {p : Proc ε σ Unit} (hproc : t.procs i = some (c, p)) (hc : S c)
    (hnext : t.next code (.act i) = some t')
    : G i t'.state ∨ v t'.state = v t.state := by
  rcases h.still hG hcode hproc hc with hg | hstill
  . exact .inl (h.preserved_next (hG i) hnext hg)
  . obtain ⟨d, β, m, k, r, hj, hrun, -⟩ := act_inv hnext
    rw [hproc] at hj
    cases hj
    exact (hstill _ _ _ hrun).imp_right And.left

end Still

section Final

variable {R : Except (Stop ε) Unit → Prop} {c : C} {i : Nat} {p : Proc ε σ Unit}

/--
A call that ends with `R` unless it leads to `P` still does so, or `P` holds by now.
-/
theorem Reach.established (hP : ∀ c i, (code c i).Preserves P)
    (hcode : ∀ i, (code c i).Ends (fun _ t => ¬ P t) R) (h : Reach code Q s t)
    (hproc : t.procs i = some (c, p))
    : P t.state ∨ p.Ends (fun _ t => ¬ P t) R := by
  induction h generalizing p with
  | start => cases hproc
  | @move t t' mv hreach hnext _ ih =>
    have hkept : P t.state → P t'.state := hreach.preserved_next hP hnext
    rcases next_cases hnext hproc with hsame | rfl | ⟨β, m, k, r, hi, hrun, rfl⟩
    . exact (ih hsame).imp_left hkept
    . exact .inr (hcode i)
    . rcases ih hi with hp | hends
      . exact .inl (hkept hp)
      . exact Classical.or_iff_not_imp_left.mpr (fun hp => hends _ _ _ hp hrun)

/--
Once `P` holds, calls that begin later run in states with `P` only.
-/
theorem Reach.refused (hP : ∀ c i, (code c i).Preserves P)
    (hcode : ∀ i, (code c i).Ends (fun s _ => P s) R) (h : Reach code (fun _ => True) s t)
    (hp : P t.state) (hlater : ∀ p, t.procs i = some (c, p) → p.Ends (fun s _ => P s) R)
    {ms : List (Move C)} (hnexts : t.nexts code ms = some t') (hproc : t'.procs i = some (c, p))
    : p.Ends (fun s _ => P s) R := by
  induction ms generalizing t with
  | nil =>
    cases hnexts
    exact hlater p hproc
  | cons mv ms ih =>
    obtain ⟨t1, hnext, hrest⟩ := Option.bind_eq_some_iff.mp hnexts
    refine ih (.move h hnext True.intro) (h.preserved_next hP hnext hp) ?_ hrest
    intro p hproc
    rcases next_cases hnext hproc with hsame | rfl | ⟨β, m, k, r, hi, hrun, rfl⟩
    . exact hlater p hsame
    . exact hcode i
    . exact hlater _ hi _ _ _ hp hrun

end Final

end Threads
