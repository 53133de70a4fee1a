import H2Go.Lib.Approx
import H2Go.Lib.Progress

/-!
This module contains the inputs on which a reader with a bound on its recursion uses up the bound:
where a sequence and a loop get stuck, in terms of the frames that are read before.
-/

namespace Prog

variable {ε ε' σ α β : Type}

theorem bind_eq_stuck_iff {m : Prog ε σ α} {f : α → Prog ε σ β} {s : σ}
    : (m >>= f) s = .stuck ↔ m s = .stuck ∨ ∃ a t, m s = .ok a t ∧ f a t = .stuck := by
  rw [bind_run]
  cases hm : m s with
  | ok a t => simp
  | fail | panic | stuck => simp

theorem mapErr_eq_stuck_iff {m : Prog ε σ α} {g : ε → ε'} {s : σ}
    : mapErr g m s = .stuck ↔ m s = .stuck := by
  rw [mapErr_run]
  cases m s <;> simp [Out.map]

theorem mapErr_id (m : Prog ε σ α) : mapErr id m = m := by
  funext s
  rw [mapErr_run]
  cases m s <;> rfl

theorem pure_ne_stuck (a : α) (s : σ) : (pure a : Prog ε σ α) s ≠ .stuck := by
  rw [pure_run]
  exact fun h => by cases h

theorem bind_pure_eq_stuck_iff {m : Prog ε σ α} {h : α → β} {s : σ}
    : (m >>= fun a => (pure (h a) : Prog ε σ β)) s = .stuck ↔ m s = .stuck := by
  rw [bind_eq_stuck_iff]
  constructor
  . rintro (hm | ⟨a, t, -, hpure⟩)
    . exact hm
    . exact absurd hpure (pure_ne_stuck _ _)
  . exact .inl

structure Passes (f : Nat → β → Prog ε σ β) (inner : Prog ε' σ α) : Prop where
  of_ok : ∀ {s t : σ} {a : α}, inner s = .ok a t → ∀ i acc, ∃ acc', f i acc s = .ok acc' t
  of_stuck : ∀ {s : σ}, inner s = .stuck → ∀ i acc, f i acc s = .stuck
  ok : ∀ {s t : σ} {i : Nat} {acc acc' : β}, f i acc s = .ok acc' t → ∃ a, inner s = .ok a t
  stuck : ∀ {s : σ} {i : Nat} {acc : β}, f i acc s = .stuck → inner s = .stuck

theorem Passes.mapErr_bind_pure (inner : Prog ε' σ α) (g : Nat → ε' → ε) (h : β → α → β)
    : Passes (fun i acc => mapErr (g i) inner >>= fun a => (pure (h acc a) : Prog ε σ β)) inner where
  of_ok {s t a} hrun i acc := by
    refine ⟨h acc a, ?_⟩
    rw [bind_run, mapErr_run, hrun]
    rfl
  of_stuck {s} hrun i acc := by
    rw [bind_run, mapErr_run, hrun]
    rfl
  ok {s t i acc acc'} hrun := by
    obtain ⟨a, t', hmap, hpure⟩ := bind_eq_ok hrun
    obtain ⟨t'', hm, ht'⟩ := Out.map_eq_ok hmap
    rw [pure_run] at hpure
    injection hpure with _ ht
    rw [← ht, ← ht']
    exact ⟨a, hm⟩
  stuck {s i acc} hrun := by
    exact mapErr_eq_stuck_iff.mp (bind_pure_eq_stuck_iff.mp hrun)

theorem Passes.bind_pure (inner : Prog ε σ α) (h : β → α → β)
    : Passes (fun _ acc => inner >>= fun a => (pure (h acc a) : Prog ε σ β)) inner := by
  have := mapErr_bind_pure inner (fun _ => id) h
  simp only [mapErr_id] at this
  exact this

end Prog

section Loop

variable {ε ε' τ σ α β : Type} [Input τ σ]

def ReadInFull (m : Nat → Prog ε σ α) (b : List τ) : Prop := ∃ fuel a, Frame (m fuel) a b

/--
A loop uses up the bound exactly when some element does, all the elements before it are complete.
-/
theorem Prog.iter_eq_stuck_iff {m : Nat → Prog ε' σ α} [∀ n, LawfulReader (m n)]
    (hle : ∀ n, (m n).Le (m (n + 1))) {fuel : Nat} {f : Nat → β → Prog ε σ β}
    (hpass : Passes f (m fuel)) (n i0 : Nat) (acc : β) (s : σ)
    : Prog.iter n i0 acc f s = .stuck ↔
        ∃ (elems : List (List τ)) (rest : List τ), elems.length < n ∧ (∀ b ∈ elems, ReadInFull m b) ∧
          Input.inp s = elems.flatten ++ rest ∧ m fuel (Input.move elems.flatten rest s) = .stuck := by
  constructor
  . induction n generalizing i0 acc s with
    | zero =>
      intro h
      exact absurd h (pure_ne_stuck _ _)
    | succ n ih =>
      intro h
      rw [iter_succ] at h
      rcases bind_eq_stuck_iff.mp h with hfirst | ⟨acc', t, hfirst, hrest⟩
      . refine ⟨[], Input.inp s, Nat.zero_lt_succ n, by simp, by simp, ?_⟩
        rw [List.flatten_nil, Input.move_nil]
        exact hpass.stuck hfirst
      . obtain ⟨a, hm⟩ := hpass.ok hfirst
        obtain ⟨used, rest, hinp, rfl, hframe⟩ := LawfulReader.ok_run hm
        obtain ⟨elems, rest', hlt, helems, hinp', hstuck⟩ := ih _ _ _ hrest
        rw [Input.inp_move] at hinp'
        refine ⟨used :: elems, rest', Nat.succ_lt_succ hlt, ?_, ?_, ?_⟩
        . exact List.forall_mem_cons.mpr ⟨⟨fuel, a, hframe⟩, helems⟩
        . rw [hinp, hinp', List.flatten_cons, List.append_assoc]
        . rw [Input.move_move] at hstuck
          exact hstuck
  . rintro ⟨elems, rest, hlt, helems, hinp, hstuck⟩
    induction elems generalizing n i0 acc s with
    | nil =>
      obtain ⟨n, rfl⟩ := Nat.exists_eq_succ_of_ne_zero (Nat.ne_of_gt hlt)
      rw [List.flatten_nil, List.nil_append] at hinp
      rw [List.flatten_nil, ← hinp, Input.move_nil] at hstuck
      rw [Nat.succ_eq_add_one, iter_succ]
      exact bind_eq_stuck_iff.mpr (.inl (hpass.of_stuck hstuck i0 acc))
    | cons b elems ih =>
      obtain ⟨n, rfl⟩ := Nat.exists_eq_succ_of_ne_zero (Nat.ne_of_gt (Nat.zero_lt_of_lt hlt))
      obtain ⟨fuel', a, hframe⟩ := helems b List.mem_cons_self
      rw [List.flatten_cons, List.append_assoc] at hinp
      have hrun := hframe.exact s (elems.flatten ++ rest) hinp
      rw [Nat.succ_eq_add_one, iter_succ]
      apply bind_eq_stuck_iff.mpr
      -- either the bound is used up here already, or the element is read as it is with more of it
      by_cases hfirst : m fuel s = .stuck
      . exact .inl (hpass.of_stuck hfirst i0 acc)
      . have hsame := eq_of_le_succ hle hfirst (by rw [hrun]; simp : m fuel' s ≠ .stuck)
        rw [hrun] at hsame
        obtain ⟨acc', hacc⟩ := hpass.of_ok hsame i0 acc
        refine .inr ⟨acc', _, hacc, ih n (i0 + 1) acc' _ (Nat.lt_of_succ_lt_succ hlt)
          (fun b hb => helems b (List.mem_cons_of_mem _ hb)) (Input.inp_move _ _ _) ?_⟩
        rw [Input.move_move]
        rwa [List.flatten_cons] at hstuck

theorem Prog.bind_reader_eq_stuck_iff {m : Prog ε σ α} [LawfulReader m] {f : α → Prog ε σ β}
    (hm : ∀ s, m s ≠ .stuck) {s : σ}
    : (m >>= f) s = .stuck ↔
        ∃ a used rest, Frame m a used ∧ Input.inp s = used ++ rest ∧
          f a (Input.move used rest s) = .stuck := by
  rw [bind_eq_stuck_iff]
  constructor
  . rintro (h | ⟨a, t, hrun, hstuck⟩)
    . exact absurd h (hm s)
    . obtain ⟨used, rest, hinp, rfl, hframe⟩ := LawfulReader.ok_run hrun
      exact ⟨a, used, rest, hframe, hinp, hstuck⟩
  . rintro ⟨a, used, rest, hframe, hinp, hstuck⟩
    exact .inr ⟨a, _, hframe.exact s rest hinp, hstuck⟩

end Loop
