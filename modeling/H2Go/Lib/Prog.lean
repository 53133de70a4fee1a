import Mathlib.Data.List.Basic

/-!
This module contains the monad the development embeds imperative code in: a program reads and
updates a state, returns a value or an error, and can hit a run-time panic. Loops without a bound of
their own run on fuel, `Out.stuck` is what is left of a run whose fuel was used up.
-/

inductive Panic where
  | makeSize
  | index
  | slice
  | nilDeref
  deriving DecidableEq, Repr

/--
What a run of a program ends with. The state survives an error, it does not survive a panic.
-/
inductive Out (ε σ α : Type) where
  | ok (val : α) (s : σ)
  | fail (err : ε) (s : σ)
  | panic (why : Panic)
  | stuck
  deriving DecidableEq, Repr

def Prog (ε σ α : Type) : Type := σ → Out ε σ α

namespace Out

variable {ε ε' σ τ α β : Type}

def andThen (o : Out ε σ α) (f : α → Prog ε σ β) : Out ε σ β :=
  match o with
  | .ok a s => f a s
  | .fail e s => .fail e s
  | .panic p => .panic p
  | .stuck => .stuck

@[simp]
theorem andThen_ok (a : α) (s : σ) (f : α → Prog ε σ β) : (Out.ok a s).andThen f = f a s := rfl

@[simp]
theorem andThen_fail (e : ε) (s : σ) (f : α → Prog ε σ β)
    : (Out.fail e s : Out ε σ α).andThen f = .fail e s := rfl

@[simp]
theorem andThen_panic (p : Panic) (f : α → Prog ε σ β)
    : (Out.panic p : Out ε σ α).andThen f = .panic p := rfl

@[simp]
theorem andThen_stuck (f : α → Prog ε σ β) : (Out.stuck : Out ε σ α).andThen f = .stuck := rfl

def map (f : ε → ε') (g : σ → τ) (o : Out ε σ α) : Out ε' τ α :=
  match o with
  | .ok a s => .ok a (g s)
  | .fail e s => .fail (f e) (g s)
  | .panic p => .panic p
  | .stuck => .stuck

@[simp]
theorem map_ok (f : ε → ε') (g : σ → τ) (a : α) (s : σ) : (Out.ok a s).map f g = .ok a (g s) := rfl

@[simp]
theorem map_fail (f : ε → ε') (g : σ → τ) (e : ε) (s : σ)
    : (Out.fail e s : Out ε σ α).map f g = .fail (f e) (g s) := rfl

@[simp]
theorem map_panic (f : ε → ε') (g : σ → τ) (p : Panic)
    : (Out.panic p : Out ε σ α).map f g = .panic p := rfl

@[simp]
theorem map_stuck (f : ε → ε') (g : σ → τ) : (Out.stuck : Out ε σ α).map f g = .stuck := rfl

theorem map_eq_ok {f : ε → ε'} {g : σ → τ} {o : Out ε σ α} {a : α} {s : τ} (h : o.map f g = .ok a s)
    : ∃ s', o = .ok a s' ∧ g s' = s := by
  cases o with
  | ok b s' =>
    simp only [map_ok, Out.ok.injEq] at h
    exact ⟨s', by rw [h.1], h.2⟩
  | fail | panic | stuck => simp at h

theorem map_eq_fail {f : ε → ε'} {g : σ → τ} {o : Out ε σ α} {e : ε'} {s : τ}
    (h : o.map f g = .fail e s)
    : ∃ e' s', o = .fail e' s' ∧ f e' = e ∧ g s' = s := by
  cases o with
  | fail e' s' =>
    simp only [map_fail, Out.fail.injEq] at h
    exact ⟨e', s', rfl, h.1, h.2⟩
  | ok | panic | stuck => simp at h

/--
The run returns, with a value and a state that pass `p`. It can be evaluated on a concrete run.
-/
def returns (p : α → σ → Bool) (o : Out ε σ α) : Bool :=
  match o with
  | .ok a s => p a s
  | _ => false

theorem exists_of_returns {p : α → σ → Bool} {o : Out ε σ α} (h : o.returns p = true)
    : ∃ a s, o = .ok a s ∧ p a s = true := by
  cases o with
  | ok a s => exact ⟨a, s, rfl, h⟩
  | fail | panic | stuck => cases h

def fails (p : ε → σ → Bool) (o : Out ε σ α) : Bool :=
  match o with
  | .fail e s => p e s
  | _ => false

theorem exists_of_fails {p : ε → σ → Bool} {o : Out ε σ α} (h : o.fails p = true)
    : ∃ e s, o = .fail e s ∧ p e s = true := by
  cases o with
  | fail e s => exact ⟨e, s, rfl, h⟩
  | ok | panic | stuck => cases h

end Out

namespace Prog

variable {ε ε' σ τ α β γ : Type}

instance : Monad (Prog ε σ) where
  pure a := fun s => .ok a s
  bind m f := fun s => (m s).andThen f

@[simp]
theorem pure_run (a : α) (s : σ) : (pure a : Prog ε σ α) s = .ok a s := rfl

@[simp]
theorem bind_run (m : Prog ε σ α) (f : α → Prog ε σ β) (s : σ) : (m >>= f) s = (m s).andThen f := rfl

theorem pure_bind (a : α) (f : α → Prog ε σ β) : (pure a : Prog ε σ α) >>= f = f a := rfl

theorem bind_pure (m : Prog ε σ α) : m >>= pure = m := by
  funext s
  rw [bind_run]
  cases m s <;> rfl

theorem bind_assoc (m : Prog ε σ α) (f : α → Prog ε σ β) (g : β → Prog ε σ γ)
    : m >>= f >>= g = m >>= fun a => f a >>= g := by
  funext s
  simp only [bind_run]
  cases m s <;> rfl

theorem bind_of_ok {m : Prog ε σ α} {s t : σ} {a : α} (h : m s = .ok a t) (f : α → Prog ε σ β)
    : (m >>= f) s = f a t := by
  rw [bind_run, h, Out.andThen_ok]

theorem bind_of_fail {m : Prog ε σ α} {s t : σ} {e : ε} (h : m s = .fail e t) (f : α → Prog ε σ β)
    : (m >>= f) s = .fail e t := by
  rw [bind_run, h, Out.andThen_fail]

theorem bind_eq_ok {m : Prog ε σ α} {f : α → Prog ε σ β} {s s' : σ} {b : β}
    (h : (m >>= f) s = .ok b s')
    : ∃ a t, m s = .ok a t ∧ f a t = .ok b s' := by
  rw [bind_run] at h
  cases hm : m s with
  | ok a t => exact ⟨a, t, rfl, by simpa [hm] using h⟩
  | fail | panic | stuck => simp [hm] at h

theorem bind_eq_fail {m : Prog ε σ α} {f : α → Prog ε σ β} {s s' : σ} {e : ε}
    (h : (m >>= f) s = .fail e s')
    : m s = .fail e s' ∨ ∃ a t, m s = .ok a t ∧ f a t = .fail e s' := by
  rw [bind_run] at h
  cases hm : m s with
  | ok a t => exact .inr ⟨a, t, rfl, by simpa [hm] using h⟩
  | fail e' t => exact .inl (by simpa [hm] using h)
  | panic | stuck => simp [hm] at h

def throw (e : ε) : Prog ε σ α := fun s => .fail e s

@[simp]
theorem throw_run (e : ε) (s : σ) : (throw e : Prog ε σ α) s = .fail e s := rfl

theorem throw_bind (e : ε) (f : α → Prog ε σ β) : (throw e : Prog ε σ α) >>= f = throw e := rfl

def panic (p : Panic) : Prog ε σ α := fun _ => .panic p

@[simp]
theorem panic_run (p : Panic) (s : σ) : (panic p : Prog ε σ α) s = .panic p := rfl

def stuck : Prog ε σ α := fun _ => .stuck

@[simp]
theorem stuck_run (s : σ) : (stuck : Prog ε σ α) s = .stuck := rfl

def get : Prog ε σ σ := fun s => .ok s s

@[simp]
theorem get_run (s : σ) : (get : Prog ε σ σ) s = .ok s s := rfl

def modify (f : σ → σ) : Prog ε σ Unit := fun s => .ok () (f s)

@[simp]
theorem modify_run (f : σ → σ) (s : σ) : (modify f : Prog ε σ Unit) s = .ok () (f s) := rfl

/--
Run `m` and hand its error to `f`, the `fmt.Errorf("...: %w", err)` pattern.
-/
def mapErr (f : ε → ε') (m : Prog ε σ α) : Prog ε' σ α := fun s => (m s).map f id

@[simp]
theorem mapErr_run (f : ε → ε') (m : Prog ε σ α) (s : σ) : mapErr f m s = (m s).map f id := rfl

def zoom (get : σ → τ) (set : τ → σ → σ) (m : Prog ε τ α) : Prog ε σ α :=
  fun s => (m (get s)).map id (fun t => set t s)

@[simp]
theorem zoom_run (get : σ → τ) (set : τ → σ → σ) (m : Prog ε τ α) (s : σ)
    : zoom get set m s = (m (get s)).map id (fun t => set t s) := rfl

def attempt (m : Prog ε σ α) : Prog ε' σ (Except ε α) := fun s =>
  match m s with
  | .ok a t => .ok (.ok a) t
  | .fail e t => .ok (.error e) t
  | .panic p => .panic p
  | .stuck => .stuck

theorem attempt_of_ok {m : Prog ε σ α} {s t : σ} {a : α} (h : m s = .ok a t)
    : (attempt m : Prog ε' σ _) s = .ok (.ok a) t := by
  simp [attempt, h]

theorem attempt_of_fail {m : Prog ε σ α} {s t : σ} {e : ε} (h : m s = .fail e t)
    : (attempt m : Prog ε' σ _) s = .ok (.error e) t := by
  simp [attempt, h]

/--
Run `m`. When it returns an error run `h e` in the state `m` left, whatever `h e` returns, and then
return the error, the cleanup pattern `if err != nil { _ = h(); return err }`.
-/
def onFail (m : Prog ε σ α) (h : ε → Prog ε σ Unit) : Prog ε σ α := do
  match ← attempt m with
  | .ok a => pure a
  | .error e =>
    let _ ← attempt (h e)
    throw e

theorem onFail_run (m : Prog ε σ α) (h : ε → Prog ε σ Unit) (s : σ)
    : onFail m h s = match m s with
        | .ok a t => .ok a t
        | .fail e t => (attempt (h e) t).andThen (fun _ => throw e)
        | .panic p => .panic p
        | .stuck => .stuck := by
  unfold onFail
  rw [bind_run]
  unfold attempt
  cases m s <;> rfl

theorem onFail_of_ok {m : Prog ε σ α} {h : ε → Prog ε σ Unit} {s t : σ} {a : α} (hm : m s = .ok a t)
    : onFail m h s = .ok a t := by
  simp [onFail, attempt, hm]

theorem onFail_of_fail {m : Prog ε σ α} {h : ε → Prog ε σ Unit} {s t : σ} {e : ε}
    (hm : m s = .fail e t)
    : onFail m h s = (attempt (h e) >>= fun _ => throw e) t := by
  simp [onFail, attempt, hm]

/--
The loop `for i := i0; i < i0 + n; i++ { acc = f(i, acc) }`.
-/
def iter (n : Nat) (i0 : Nat) (acc : β) (f : Nat → β → Prog ε σ β) : Prog ε σ β :=
  match n with
  | 0 => pure acc
  | n + 1 => f i0 acc >>= fun acc => iter n (i0 + 1) acc f

@[simp]
theorem iter_zero (i0 : Nat) (acc : β) (f : Nat → β → Prog ε σ β) : iter 0 i0 acc f = pure acc := rfl

theorem iter_succ (n i0 : Nat) (acc : β) (f : Nat → β → Prog ε σ β)
    : iter (n + 1) i0 acc f = f i0 acc >>= fun acc => iter n (i0 + 1) acc f := rfl

/--
A loop whose passes only change the accumulator, `g i` is its value before pass `i`.
-/
theorem iter_eq_pure (g : Nat → β) {f : Nat → β → Prog ε σ β} {n : Nat}
    (h : ∀ i, i < n → f i (g i) = pure (g (i + 1)))
    : iter n 0 (g 0) f = pure (g n) := by
  suffices ∀ m i : Nat, i + m = n → iter m i (g i) f = pure (g n) from this n 0 (Nat.zero_add n)
  intro m
  induction m with
  | zero =>
    intro i hi
    rw [iter_zero, show i = n by omega]
  | succ m ih =>
    intro i hi
    rw [iter_succ, h i (by omega), pure_bind, ih (i + 1) (by omega)]

theorem iter_add (n k i0 : Nat) (acc : β) (f : Nat → β → Prog ε σ β)
    : iter (n + k) i0 acc f = iter n i0 acc f >>= fun acc => iter k (i0 + n) acc f := by
  induction n generalizing i0 acc with
  | zero => rw [Nat.zero_add, iter_zero, pure_bind, Nat.add_zero]
  | succ n ih =>
    rw [Nat.add_right_comm, iter_succ, iter_succ, bind_assoc]
    congr 1
    funext acc
    rw [ih, Nat.add_assoc, Nat.add_comm 1]

end Prog
