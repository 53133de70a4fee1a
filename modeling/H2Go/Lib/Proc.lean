import H2Go.Lib.Run
import Mathlib.Logic.Function.Basic

/-!
This module contains procedures: the code of a thread that shares its state with others, cut into the
steps that the others cannot interrupt. Any number of threads run at the same time. Their code is
verified one by one, against an invariant that relates the shared state to a local state of every
thread.
-/

inductive Stop (ε : Type) where
  | err (e : ε)
  | panic (why : Panic)
  deriving DecidableEq, Repr

/--
The result of a finished run, with the state it leaves to the other threads. A panic leaves the state
as it was, a run that cannot go on has no result.
-/
def Out.result {ε σ α : Type} (o : Out ε σ α) (s : σ) : Option (Except (Stop ε) α × σ) :=
  match o with
  | .ok a t => some (.ok a, t)
  | .fail e t => some (.error (.err e), t)
  | .panic why => some (.error (.panic why), s)
  | .stuck => none

theorem Triple.of_result {ε σ α : Type} {P Q : σ → Prop} {m : Prog ε σ α}
    (h : Triple True P m (fun _ => Q) (fun _ => Q)) {s t : σ} {r : Except (Stop ε) α} (hs : P s)
    (hrun : (m s).result s = some (r, t))
    : Q t ∨ t = s := by
  have hm := h s hs
  cases hout : m s with
  | ok | fail =>
    rw [hout] at hm hrun
    cases hrun
    exact .inl hm
  | panic =>
    rw [hout] at hrun
    cases hrun
    exact .inr rfl
  | stuck =>
    rw [hout] at hrun
    cases hrun

theorem Keeps.of_result {ε σ α : Type} {P : σ → Prop} {m : Prog ε σ α} (h : Keeps P m) {s t : σ}
    {r : Except (Stop ε) α} (hs : P s) (hrun : (m s).result s = some (r, t))
    : P t := by
  rcases Triple.of_result h hs hrun with ht | rfl
  . exact ht
  . exact hs

/--
The code of a thread. It is over, or it goes on with the step `m` and then with what `k` makes of the
result.
-/
inductive Proc (ε σ α : Type) : Type 1 where
  | ret (r : Except (Stop ε) α)
  | step {β : Type} (m : Prog ε σ β) (k : Except (Stop ε) β → Proc ε σ α)

namespace Proc

variable {ε σ α β γ : Type}

def bindResult (p : Proc ε σ α) (f : Except (Stop ε) α → Proc ε σ β) : Proc ε σ β :=
  match p with
  | .ret r => f r
  | .step m k => .step m (fun r => (k r).bindResult f)

instance : Monad (Proc ε σ) where
  pure a := .ret (.ok a)
  bind p f := p.bindResult (fun r =>
    match r with
    | .ok a => f a
    | .error e => .ret (.error e))

def atomic (m : Prog ε σ α) : Proc ε σ α := .step m .ret

def throw (e : ε) : Proc ε σ α := .ret (.error (.err e))

def ofExcept (r : Except ε α) : Proc ε σ α :=
  match r with
  | .ok a => pure a
  | .error e => throw e

/--
Run `p` and return its error as a value. A panic goes through.
-/
def attempt (p : Proc ε σ α) : Proc ε σ (Except ε α) :=
  p.bindResult (fun r =>
    match r with
    | .ok a => .ret (.ok (.ok a))
    | .error (.err e) => .ret (.ok (.error e))
    | .error (.panic why) => .ret (.error (.panic why)))

/--
Run `q` when `p` is over, however it ends, the `defer` statement.
-/
def deferred (p : Proc ε σ α) (q : Proc ε σ Unit) : Proc ε σ α :=
  p.bindResult (fun r => q >>= fun _ => .ret r)

/--
Run `q` unless `p` returns a value.
-/
def onStop (p : Proc ε σ α) (q : Proc ε σ Unit) : Proc ε σ α :=
  p.bindResult (fun r =>
    match r with
    | .ok a => .ret (.ok a)
    | .error e => q >>= fun _ => .ret (.error e))

def discard (p : Proc ε σ α) : Proc ε σ Unit := p >>= fun _ => pure ()

/--
Run `p` with no other thread around.
-/
def run (p : Proc ε σ α) : Prog ε σ α :=
  match p with
  | .ret (.ok a) => pure a
  | .ret (.error (.err e)) => Prog.throw e
  | .ret (.error (.panic why)) => Prog.panic why
  | .step m k => fun s =>
    match (m s).result s with
    | some (r, t) => (k r).run t
    | none => .stuck

section Safe

variable {L : Type} (P : σ → Prop) (Inv : σ → (Nat → L) → Prop) (i : Nat)

/--
Every step that thread `i` takes from the local state `l` keeps the invariant, with a new local state
for the thread, as long as the shared state meets `P`. The thread ends with `Q`.
-/
def Safe (p : Proc ε σ α) (l : L) (Q : Except (Stop ε) α → L → Prop) : Prop :=
  match p with
  | .ret r => Q r l
  | .step m k => ∀ s ls, Inv s ls → ls i = l → ∀ r t, (m s).result s = some (r, t) → P t →
      ∃ l', Inv t (Function.update ls i l') ∧ (k r).Safe l' Q

/--
The step `m` keeps the invariant, and its result and the new local state of thread `i` meet `R`.
-/
def Moves (m : Prog ε σ α) (l : L) (R : Except (Stop ε) α → L → Prop) : Prop :=
  ∀ s ls, Inv s ls → ls i = l → ∀ r t, (m s).result s = some (r, t) → P t →
    ∃ l', Inv t (Function.update ls i l') ∧ R r l'

variable {P} {Inv} {i} {l : L}

theorem Safe.imp {p : Proc ε σ α} {Q Q' : Except (Stop ε) α → L → Prop} (h : Safe P Inv i p l Q)
    (hq : ∀ r l, Q r l → Q' r l)
    : Safe P Inv i p l Q' := by
  induction p generalizing l with
  | ret r => exact hq r l h
  | step m k ih =>
    intro s ls hinv hl r t hrun ht
    obtain ⟨l', hinv', hk⟩ := h s ls hinv hl r t hrun ht
    exact ⟨l', hinv', ih r hk⟩

theorem Safe.bindResult {p : Proc ε σ α} {f : Except (Stop ε) α → Proc ε σ β}
    {R : Except (Stop ε) α → L → Prop} {Q : Except (Stop ε) β → L → Prop} (h : Safe P Inv i p l R)
    (hf : ∀ r l, R r l → Safe P Inv i (f r) l Q)
    : Safe P Inv i (p.bindResult f) l Q := by
  induction p generalizing l with
  | ret r => exact hf r l h
  | step m k ih =>
    intro s ls hinv hl r t hrun ht
    obtain ⟨l', hinv', hk⟩ := h s ls hinv hl r t hrun ht
    exact ⟨l', hinv', ih r hk⟩

theorem Safe.atomic {m : Prog ε σ α} {Q : Except (Stop ε) α → L → Prop} (h : Moves P Inv i m l Q)
    : Safe P Inv i (Proc.atomic m) l Q := h

theorem Safe.pure {a : α} {Q : Except (Stop ε) α → L → Prop} (h : Q (.ok a) l)
    : Safe P Inv i (Pure.pure a) l Q := h

theorem Safe.throw {e : ε} {Q : Except (Stop ε) α → L → Prop} (h : Q (.error (.err e)) l)
    : Safe P Inv i (Proc.throw e) l Q := h

/--
The rule of sequence. `R` is what the local state is after a value, an error or panic of the first
part is one of the whole.
-/
theorem Safe.bind {p : Proc ε σ α} {f : α → Proc ε σ β} {R : Except (Stop ε) α → L → Prop}
    {Q : Except (Stop ε) β → L → Prop} (h : Safe P Inv i p l R)
    (hf : ∀ a l, R (.ok a) l → Safe P Inv i (f a) l Q)
    (he : ∀ e l, R (.error e) l → Q (.error e) l)
    : Safe P Inv i (p >>= f) l Q := by
  refine Safe.bindResult h ?_
  intro r l hr
  cases r with
  | ok a => exact hf a l hr
  | error e => exact he e l hr

theorem Safe.attempt {p : Proc ε σ α} {Q : Except (Stop ε) (Except ε α) → L → Prop}
    (h : Safe P Inv i p l (fun r l =>
      match r with
      | .ok a => Q (.ok (.ok a)) l
      | .error (.err e) => Q (.ok (.error e)) l
      | .error (.panic why) => Q (.error (.panic why)) l))
    : Safe P Inv i p.attempt l Q := by
  refine Safe.bindResult h ?_
  intro r l hr
  rcases r with (_ | _) | _ <;> exact hr

theorem Safe.deferred {p : Proc ε σ α} {q : Proc ε σ Unit} {R : Except (Stop ε) α → L → Prop}
    {Q : Except (Stop ε) α → L → Prop} (h : Safe P Inv i p l R)
    (hq : ∀ r l, R r l → Safe P Inv i q l (fun r' l' => (∃ u, r' = .ok u) ∧ Q r l'))
    : Safe P Inv i (p.deferred q) l Q := by
  refine Safe.bindResult h ?_
  intro r l hr
  refine Safe.bind (hq r l hr) (fun _ _ h => h.2) ?_
  intro e l h
  obtain ⟨⟨_, h⟩, -⟩ := h
  cases h

theorem Safe.onStop {p : Proc ε σ α} {q : Proc ε σ Unit} {R : Except (Stop ε) α → L → Prop}
    {Q : Except (Stop ε) α → L → Prop} (h : Safe P Inv i p l R)
    (hok : ∀ a l, R (.ok a) l → Q (.ok a) l)
    (hq : ∀ e l, R (.error e) l →
      Safe P Inv i q l (fun r' l' => (∃ u, r' = .ok u) ∧ Q (.error e) l'))
    : Safe P Inv i (p.onStop q) l Q := by
  refine Safe.bindResult h ?_
  intro r l hr
  cases r with
  | ok a => exact hok a l hr
  | error e =>
    refine Safe.bind (hq e l hr) (fun _ _ h => h.2) ?_
    intro e l h
    obtain ⟨⟨_, h⟩, -⟩ := h
    cases h

theorem Safe.discard {p : Proc ε σ α} {Q : Except (Stop ε) Unit → L → Prop}
    (h : Safe P Inv i p l (fun r l => Q (r.map (fun _ => ())) l))
    : Safe P Inv i p.discard l Q :=
  Safe.bind h (fun _ _ h => h) (fun _ _ h => h)

end Safe

end Proc

/--
Threads over a shared state. Every call of the interface `C` runs in a thread of its own, which is
kept for the record when the call has returned.
-/
structure Threads (C ε σ : Type) : Type 1 where
  state : σ
  procs : Nat → Option (C × Proc ε σ Unit)

namespace Threads

variable {C ε σ : Type}

def start (s : σ) : Threads C ε σ := { state := s, procs := fun _ => none }

def resume (t : Threads C ε σ) (i : Nat) (c : C) (s : σ) (p : Proc ε σ Unit) : Threads C ε σ :=
  { state := s, procs := Function.update t.procs i (some (c, p)) }

inductive Move (C : Type) where
  | call (i : Nat) (c : C)
  | act (i : Nat)

variable (code : C → Nat → Proc ε σ Unit)

def next (t : Threads C ε σ) (m : Move C) : Option (Threads C ε σ) :=
  match m with
  | .call i c =>
    match t.procs i with
    | none => some (t.resume i c t.state (code c i))
    | some _ => none
  | .act i =>
    match t.procs i with
    | some (c, .step m k) =>
      match (m t.state).result t.state with
      | some (r, s) => some (t.resume i c s (k r))
      | none => none
    | _ => none

def nexts (t : Threads C ε σ) (ms : List (Move C)) : Option (Threads C ε σ) :=
  match ms with
  | [] => some t
  | m :: ms => (t.next code m).bind (fun t => t.nexts ms)

/--
The threads that an interleaving of calls can lead to, with `P` in every state on the way.
-/
inductive Reach (P : σ → Prop) (s : σ) : Threads C ε σ → Prop where
  | start : Reach P s (start s)
  | move {t t' : Threads C ε σ} {m : Move C} (hreach : Reach P s t) (hnext : t.next code m = some t')
      (hp : P t'.state) : Reach P s t'

variable {code} {P : σ → Prop}

theorem Reach.nexts {s : σ} {t t' : Threads C ε σ} {ms : List (Move C)}
    (h : Reach code (fun _ => True) s t) (hnexts : t.nexts code ms = some t')
    : Reach code (fun _ => True) s t' := by
  induction ms generalizing t with
  | nil =>
    cases hnexts
    exact h
  | cons m ms ih =>
    obtain ⟨t1, hnext, hrest⟩ := Option.bind_eq_some_iff.mp hnexts
    exact ih (.move h hnext True.intro) hrest

/--
The invariant holds in every reachable state when it holds at the start and the code of every call is
safe.
-/
theorem Reach.safe {L : Type} (Inv : σ → (Nat → L) → Prop) {l₀ : L}
    {Q : C → Except (Stop ε) Unit → L → Prop} {s : σ} (hstart : Inv s (fun _ => l₀))
    (hcode : ∀ c i, Proc.Safe P Inv i (code c i) l₀ (Q c)) {t : Threads C ε σ}
    (h : Reach code P s t)
    : ∃ ls, Inv t.state ls ∧ ∀ i,
        match t.procs i with
        | none => ls i = l₀
        | some (c, p) => Proc.Safe P Inv i p (ls i) (Q c) := by
  induction h with
  | start => exact ⟨_, hstart, fun _ => rfl⟩
  | @move t t' m _ hnext hp ih =>
    obtain ⟨ls, hinv, hsafe⟩ := ih
    cases m with
    | call i c =>
      simp only [next] at hnext
      split at hnext
      . next hfree =>
        cases hnext
        refine ⟨ls, hinv, ?_⟩
        intro j
        by_cases hj : j = i
        . subst hj
          have hlocal := hsafe j
          rw [hfree] at hlocal
          simp only [resume, Function.update_self]
          rw [hlocal]
          exact hcode c j
        . simp only [resume, Function.update_of_ne hj]
          exact hsafe j
      . cases hnext
    | act i =>
      simp only [next] at hnext
      split at hnext
      . next c β step k hproc =>
        split at hnext
        . next r s hrun =>
          cases hnext
          have hlocal := hsafe i
          rw [hproc] at hlocal
          obtain ⟨l', hinv', hk⟩ := hlocal t.state ls hinv rfl r s hrun hp
          refine ⟨_, hinv', ?_⟩
          intro j
          by_cases hj : j = i
          . subst hj
            simp only [resume, Function.update_self]
            exact hk
          . simp only [resume, Function.update_of_ne hj]
            exact hsafe j
        . cases hnext
      . cases hnext

end Threads
