import H2Go.Lib.Slice

/-!
This module contains the rules for total correctness of programs that read: such a program comes to
an end without a panic, and what it leaves unread is never more than what it found.
-/

open Input

/--
On inputs of at most `N` tokens `m` ends without a panic. When it returns a value it has consumed at
least `k` tokens and the value has `R`, when it returns an error the error has `E`.
-/
def Progress {τ ε σ α : Type} [Input τ σ] (N : Nat) (m : Prog ε σ α) (k : Nat) (R : α → Prop)
    (E : ε → Prop) : Prop :=
  ∀ s, (inp s).length ≤ N →
    (m s).Holds False (fun a s' => (inp s').length + k ≤ (inp s).length ∧ R a)
      (fun e s' => (inp s').length ≤ (inp s).length ∧ E e)

namespace Progress

variable {τ ε ε' σ α β : Type} [Input τ σ] {N k k' : Nat} {R : α → Prop} {E : ε → Prop}

theorem weaken {m : Prog ε σ α} {R' : α → Prop} {E' : ε → Prop} (h : Progress N m k R E)
    (hk : k' ≤ k) (hr : ∀ a, R a → R' a) (he : ∀ e, E e → E' e)
    : Progress N m k' R' E' := by
  intro s hs
  apply (h s hs).imp
  . intro a s' ha
    exact ⟨by omega, hr a ha.2⟩
  . intro e s' h
    exact ⟨h.1, he e h.2⟩

theorem ne_stuck {m : Prog ε σ α} (h : Progress N m k R E) {s : σ} (hs : (inp s).length ≤ N)
    : m s ≠ .stuck := by
  intro hstuck
  have := h s hs
  rw [hstuck] at this
  exact this

theorem ends {m : Prog ε σ α} {s : σ} (h : Progress (inp s).length m k R E) : (m s).Ends :=
  (h s (Nat.le_refl _)).imp (fun _ _ _ => True.intro) (fun _ _ _ => True.intro)

theorem of_frame {m : Prog ε σ α} {a : α} {b : List τ} (hf : Frame m a b) (s : σ)
    (h : Progress b.length m k R E)
    : R a := by
  have hm := h (move [] b s) (by simp)
  rw [hf.exact (move [] b s) [] (by simp)] at hm
  exact hm.2

theorem drop {m : Prog ε σ α} (h : Progress N m k R E) : Progress N m 0 (fun _ => True) E :=
  h.weaken (Nat.zero_le k) (fun _ _ => True.intro) (fun _ he => he)

theorem anti {m : Prog ε σ α} {N' : Nat} (h : Progress N m k R E) (hN : N' ≤ N)
    : Progress N' m k R E := by
  intro s hs
  exact h s (Nat.le_trans hs hN)

theorem pure {a : α} (h : R a) : Progress N (Pure.pure a : Prog ε σ α) 0 R E := by
  intro s hs
  exact ⟨Nat.le_refl _, h⟩

theorem throw {e : ε} (h : E e) : Progress N (Prog.throw e : Prog ε σ α) k R E := by
  intro s hs
  exact ⟨Nat.le_refl _, h⟩

theorem bind {m : Prog ε σ α} {f : α → Prog ε σ β} {Q : β → Prop} (hm : Progress N m k R E)
    (hf : ∀ a, R a → k ≤ N → Progress (N - k) (f a) 0 Q E)
    : Progress N (m >>= f) k Q E := by
  intro s hs
  have h := hm s hs
  rw [Prog.bind_run]
  cases hrun : m s with
  | ok a t =>
    rw [hrun] at h
    have ⟨hlen, ha⟩ := h
    apply (hf a ha (by omega) t (by omega)).imp
    . intro b s' hb
      exact ⟨by omega, hb.2⟩
    . intro e s' he
      exact ⟨by omega, he.2⟩
  | fail | panic | stuck =>
    rw [hrun] at h
    exact h

theorem seq {m : Prog ε σ α} {f : α → Prog ε σ β} {Q : β → Prop} (hm : Progress N m k R E)
    (hf : ∀ a, R a → Progress N (f a) 0 Q E)
    : Progress N (m >>= f) 0 Q E := by
  apply (bind hm (fun a ha _ => (hf a ha).anti (Nat.sub_le N k))).weaken (Nat.zero_le k)
  . exact fun _ hq => hq
  . exact fun _ he => he

theorem mapErr {m : Prog ε' σ α} {g : ε' → ε} (h : Progress N m k R (fun e => E (g e)))
    : Progress N (Prog.mapErr g m) k R E := by
  intro s hs
  have h := h s hs
  rw [Prog.mapErr_run]
  cases hrun : m s with
  | ok | fail | panic | stuck =>
    rw [hrun] at h
    exact h

theorem ite {c : Prop} [Decidable c] {m m' : Prog ε σ α} (ht : c → Progress N m k R E)
    (he : ¬c → Progress N m' k R E)
    : Progress N (if c then m else m') k R E := by
  split
  . next h => exact ht h
  . next h => exact he h

theorem make {n cap : Int} (h : 0 ≤ n ∧ n ≤ cap)
    : Progress N (Prog.make n cap : Prog ε σ Unit) 0 (fun _ => True) E := by
  rw [Prog.make_eq h]
  exact pure True.intro

theorem index {xs : List α} {i : Nat} (h : i < xs.length)
    : Progress N (Prog.index xs i : Prog ε σ α) 0 (fun x => x ∈ xs) E := by
  rw [Prog.index_eq (List.getElem?_eq_getElem h)]
  exact pure (List.getElem_mem h)

theorem iter (I : Nat → β → Prop) {f : Nat → β → Prog ε σ β} (n i0 : Nat) (acc : β) (h0 : I i0 acc)
    (h : ∀ i b, i0 ≤ i → i < i0 + n → I i b → Progress N (f i b) 0 (I (i + 1)) E)
    : Progress N (Prog.iter n i0 acc f) 0 (I (i0 + n)) E := by
  induction n generalizing i0 acc with
  | zero => exact pure h0
  | succ n ih =>
    rw [Prog.iter_succ, show i0 + (n + 1) = i0 + 1 + n by omega]
    apply seq (h i0 acc (by omega) (by omega) h0)
    intro b hb
    exact ih (i0 + 1) b hb (fun i b h1 h2 => h i b (by omega) (by omega))

theorem take (n : Nat) {short : σ → ε} (h : ∀ s : σ, E (short s))
    : Progress N (Prog.take n short : Prog ε σ (List τ)) n (fun bs => bs.length = n) E := by
  intro s hs
  by_cases hn : n ≤ (inp s).length
  . rw [Prog.take_of_le hn]
    constructor
    . rw [inp_move, List.length_drop]
      omega
    . exact List.length_take_of_le hn
  . rw [Prog.take_of_lt (by omega)]
    exact ⟨by rw [inp_move]; exact Nat.zero_le _, h s⟩

end Progress

structure FailsWith {ε σ α : Type} (E : ε → σ → Prop) (m : Prog ε σ α) : Prop where
  of_run : ∀ {s s' : σ} {e : ε}, m s = .fail e s' → E e s'

namespace FailsWith

variable {ε ε' σ α β : Type} {E : ε → σ → Prop} {m : Prog ε σ α}

theorem of_progress {τ : Type} [Input τ σ] {k : Nat} {R : α → Prop} {E : ε → Prop}
    (h : ∀ N, Progress N m k R E)
    : FailsWith (fun e _ => E e) m := by
  refine ⟨fun {s s' e} hrun => ?_⟩
  have := h (inp s).length s (Nat.le_refl _)
  rw [hrun] at this
  exact this.2

theorem imp {E' : ε → σ → Prop} (h : FailsWith E m) (he : ∀ e s, E e s → E' e s)
    : FailsWith E' m := by
  refine ⟨fun {s s' e} hrun => ?_⟩
  exact he e s' (h.of_run hrun)

theorem pure (a : α) : FailsWith E (Pure.pure a : Prog ε σ α) := by
  refine ⟨fun {s s' e} hrun => ?_⟩
  simp at hrun

theorem throw {e : ε} (h : ∀ s, E e s) : FailsWith E (Prog.throw e : Prog ε σ α) := by
  refine ⟨fun {s s' e'} hrun => ?_⟩
  cases hrun
  exact h s

theorem panic (p : Panic) : FailsWith E (Prog.panic p : Prog ε σ α) := by
  refine ⟨fun {s s' e} hrun => ?_⟩
  simp at hrun

theorem bind {f : α → Prog ε σ β} (hm : FailsWith E m) (hf : ∀ a, FailsWith E (f a))
    : FailsWith E (m >>= f) := by
  refine ⟨fun {s s' e} hrun => ?_⟩
  rcases Prog.bind_eq_fail hrun with h | ⟨a, t, -, h⟩
  . exact hm.of_run h
  . exact (hf a).of_run h

theorem mapErr {m : Prog ε' σ α} {g : ε' → ε} (h : FailsWith (fun e s => E (g e) s) m)
    : FailsWith E (Prog.mapErr g m) := by
  refine ⟨fun {s s' e} hrun => ?_⟩
  obtain ⟨e', t, hfail, rfl, rfl⟩ := Out.map_eq_fail hrun
  exact h.of_run hfail

theorem ite {c : Prop} [Decidable c] {m' : Prog ε σ α} (ht : c → FailsWith E m)
    (he : ¬c → FailsWith E m')
    : FailsWith E (if c then m else m') := by
  split
  . next h => exact ht h
  . next h => exact he h

theorem make (n cap : Int) : FailsWith E (Prog.make n cap : Prog ε σ Unit) :=
  ite (fun _ => pure ()) (fun _ => panic _)

theorem iter {f : Nat → β → Prog ε σ β} (n i0 : Nat) (acc : β) (h : ∀ i b, FailsWith E (f i b))
    : FailsWith E (Prog.iter n i0 acc f) := by
  induction n generalizing i0 acc with
  | zero => exact pure acc
  | succ n ih => exact bind (h i0 acc) (fun b => ih (i0 + 1) b)

end FailsWith
