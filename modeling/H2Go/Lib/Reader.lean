import H2Go.Lib.Prog

/-!
This module contains the theory of programs that only read: a `LawfulReader` consumes a part of
its input, leaves the rest of the state alone, and its result depends on nothing but the part it
consumed. The parts it consumes are its frames, they are self-delimiting.
-/

/--
States with a list of tokens still to be read. `move used rest s` is `s` after the tokens `used`
have been read with `rest` still to come.
-/
class Input (τ : outParam Type) (σ : Type) where
  inp : σ → List τ
  move : List τ → List τ → σ → σ
  inp_move : ∀ used rest s, inp (move used rest s) = rest
  move_move : ∀ used rest used' rest' s,
    move used' rest' (move used rest s) = move (used ++ used') rest' s
  move_nil : ∀ s, move [] (inp s) s = s

open Input

attribute [simp] Input.inp_move Input.move_move Input.move_nil

variable {ε ε' τ σ α β : Type} [Input τ σ]

/--
The tokens `used` are one complete reading of `m` with the result `a`: whatever follows them is left
unread, and a part of them alone makes `m` fail.
-/
structure Frame (m : Prog ε σ α) (a : α) (used : List τ) : Prop where
  exact : ∀ (s : σ) (rest : List τ), inp s = used ++ rest → m s = .ok a (move used rest s)
  short : ∀ (s : σ) (suf : List τ), used = inp s ++ suf → suf ≠ [] →
    ∃ e, m s = .fail e (move (inp s) [] s)

class LawfulReader {τ : outParam Type} {ε σ α : Type} [Input τ σ] (m : Prog ε σ α) : Prop where
  ok_run : ∀ {s s' : σ} {a : α}, m s = .ok a s' →
    ∃ used rest, inp s = used ++ rest ∧ s' = move used rest s ∧ Frame m a used
  fail_run : ∀ {s s' : σ} {e : ε}, m s = .fail e s' →
    ∃ used rest, inp s = used ++ rest ∧ s' = move used rest s

namespace Frame

variable {m : Prog ε σ α} {f : α → Prog ε σ β} {a a' : α} {b : β} {used used' rest rest' : List τ}

theorem unique [Inhabited σ] (h : Frame m a used) (h' : Frame m a' used')
    (heq : used ++ rest = used' ++ rest')
    : a = a' ∧ used = used' ∧ rest = rest' := by
  let s : σ := move [] (used ++ rest) default
  have h1 := h.exact s rest (by simp [s])
  have h2 := h'.exact s rest' (by simp [s, heq])
  rw [h1] at h2
  simp only [Out.ok.injEq] at h2
  have hrest : rest = rest' := by
    rw [← inp_move used rest s, h2.2, inp_move]
  subst hrest
  exact ⟨h2.1, List.append_cancel_right heq, rfl⟩

theorem not_of_fail {s s' : σ} {e : ε} (hrun : m s = .fail e s') (hinp : inp s = used ++ rest)
    : ¬ Frame m a used := by
  intro h
  rw [h.exact s rest hinp] at hrun
  cases hrun

theorem pure : Frame (Pure.pure a : Prog ε σ α) a [] where
  exact s rest h := by
    simp only [List.nil_append] at h
    subst h
    simp
  short s suf h hsuf := by
    have := List.append_eq_nil_iff.mp h.symm
    exact absurd this.2 hsuf

theorem bind (hm : Frame m a used) (hf : Frame (f a) b used')
    : Frame (m >>= f) b (used ++ used') where
  exact s rest h := by
    rw [Prog.bind_run]
    rw [hm.exact s (used' ++ rest) (by simpa using h)]
    rw [Out.andThen_ok]
    rw [hf.exact _ rest (by simp)]
    simp
  short s suf h hsuf := by
    rw [Prog.bind_run]
    rcases List.append_eq_append_iff.mp h with ⟨mid, hs, hmid⟩ | ⟨mid, hs, hmid⟩
    . -- the first program got all it needs
      rw [hm.exact s mid hs, Out.andThen_ok]
      obtain ⟨e, he⟩ := hf.short (move used mid s) suf (by simpa using hmid) hsuf
      refine ⟨e, ?_⟩
      rw [he]
      simp [← hs]
    . cases mid with
      | nil =>
        simp only [List.append_nil] at hs
        subst hs
        rw [hm.exact s [] (by simp), Out.andThen_ok]
        obtain ⟨e, he⟩ := hf.short (move (inp s) [] s) suf (by simpa using hmid.symm) hsuf
        exact ⟨e, by rw [he]; simp⟩
      | cons x mid =>
        obtain ⟨e, he⟩ := hm.short s (x :: mid) hs (by simp)
        exact ⟨e, by rw [he]; rfl⟩

theorem bind_nil (hm : Frame m a used) (hf : Frame (f a) b []) : Frame (m >>= f) b used := by
  simpa using hm.bind hf

theorem mapErr {g : ε → ε'} (h : Frame m a used) : Frame (Prog.mapErr g m) a used where
  exact s rest hs := by
    rw [Prog.mapErr_run, h.exact s rest hs]
    rfl
  short s suf hs hsuf := by
    obtain ⟨e, he⟩ := h.short s suf hs hsuf
    exact ⟨g e, by rw [Prog.mapErr_run, he]; rfl⟩

theorem of_mapErr {g : ε → ε'} (h : Frame (Prog.mapErr g m) a used) : Frame m a used where
  exact s rest hs := by
    obtain ⟨s', hm, hs'⟩ := Out.map_eq_ok (h.exact s rest hs)
    rw [hm, ← hs']
    rfl
  short s suf hs hsuf := by
    obtain ⟨e, he⟩ := h.short s suf hs hsuf
    obtain ⟨e', s', hm, -, hs'⟩ := Out.map_eq_fail he
    exact ⟨e', by rw [hm, ← hs']; rfl⟩

/--
The rule for a loop over the frames of the elements of `xs`, pass by pass the accumulator takes in
one element.
-/
theorem iter {γ : Type} {f : Nat → β → Prog ε σ β} {g : β → γ → β} {frame : γ → List τ} {xs : List γ}
    (h : ∀ x ∈ xs, ∀ i acc, Frame (f i acc) (g acc x) (frame x)) (i0 : Nat) (acc : β)
    : Frame (Prog.iter xs.length i0 acc f) (xs.foldl g acc) (xs.flatMap frame) := by
  induction xs generalizing i0 acc with
  | nil => exact Frame.pure
  | cons x xs ih =>
    exact (h x (by simp) i0 acc).bind (ih (fun x hx => h x (by simp [hx])) (i0 + 1) (g acc x))

end Frame

namespace LawfulReader

theorem frame_of_ok {m : Prog ε σ α} [LawfulReader m] {s s' : σ} {a : α} (h : m s = .ok a s')
    (hs : inp s' = [])
    : Frame m a (inp s) := by
  obtain ⟨used, rest, hinp, rfl, hframe⟩ := ok_run h
  rw [inp_move] at hs
  subst hs
  simpa [hinp] using hframe

theorem length_le_of_ok {m : Prog ε σ α} [LawfulReader m] {s s' : σ} {a : α} (h : m s = .ok a s')
    : (inp s').length ≤ (inp s).length := by
  obtain ⟨used, rest, hinp, rfl, -⟩ := ok_run h
  simp [hinp]

theorem length_le_of_fail {m : Prog ε σ α} [LawfulReader m] {s s' : σ} {e : ε}
    (h : m s = .fail e s')
    : (inp s').length ≤ (inp s).length := by
  obtain ⟨used, rest, hinp, rfl⟩ := fail_run h
  simp [hinp]

instance pure (a : α) : LawfulReader (Pure.pure a : Prog ε σ α) where
  ok_run {s s' b} h := by
    simp only [Prog.pure_run, Out.ok.injEq] at h
    obtain ⟨rfl, rfl⟩ := h
    exact ⟨[], inp s, by simp, by simp, Frame.pure⟩
  fail_run h := by simp at h

instance throw (e : ε) : LawfulReader (Prog.throw e : Prog ε σ α) where
  ok_run h := by simp at h
  fail_run {s s' e'} h := by
    simp only [Prog.throw_run, Out.fail.injEq] at h
    exact ⟨[], inp s, by simp, by simp [h.2]⟩

instance panic (p : Panic) : LawfulReader (Prog.panic p : Prog ε σ α) where
  ok_run h := by simp at h
  fail_run h := by simp at h

instance stuck : LawfulReader (Prog.stuck : Prog ε σ α) where
  ok_run h := by simp at h
  fail_run h := by simp at h

instance bind (m : Prog ε σ α) (f : α → Prog ε σ β) [LawfulReader m] [∀ a, LawfulReader (f a)]
    : LawfulReader (m >>= f) where
  ok_run {s s' b} h := by
    obtain ⟨a, t, hm, hf⟩ := Prog.bind_eq_ok h
    obtain ⟨used, rest, hinp, rfl, hmframe⟩ := ok_run hm
    obtain ⟨used', rest', hinp', rfl, hfframe⟩ := ok_run hf
    rw [inp_move] at hinp'
    refine ⟨used ++ used', rest', ?_, ?_, hmframe.bind hfframe⟩
    . simp [hinp, hinp']
    . simp
  fail_run {s s' e} h := by
    rcases Prog.bind_eq_fail h with hm | ⟨a, t, hm, hf⟩
    . exact fail_run hm
    . obtain ⟨used, rest, hinp, rfl, -⟩ := ok_run hm
      obtain ⟨used', rest', hinp', rfl⟩ := fail_run hf
      rw [inp_move] at hinp'
      exact ⟨used ++ used', rest', by simp [hinp, hinp'], by simp⟩

instance mapErr (g : ε → ε') (m : Prog ε σ α) [LawfulReader m]
    : LawfulReader (Prog.mapErr g m) where
  ok_run h := by
    obtain ⟨s', hm, hs'⟩ := Out.map_eq_ok h
    obtain ⟨used, rest, hinp, hmove, hframe⟩ := ok_run hm
    exact ⟨used, rest, hinp, hs' ▸ hmove, hframe.mapErr⟩
  fail_run h := by
    obtain ⟨e', s', hm, -, hs'⟩ := Out.map_eq_fail h
    obtain ⟨used, rest, hinp, hmove⟩ := fail_run hm
    exact ⟨used, rest, hinp, hs' ▸ hmove⟩

instance ite (c : Prop) [Decidable c] (m m' : Prog ε σ α) [LawfulReader m] [LawfulReader m']
    : LawfulReader (if c then m else m') := by
  split <;> infer_instance

instance iter (n i0 : Nat) (acc : β) (f : Nat → β → Prog ε σ β) [∀ i b, LawfulReader (f i b)]
    : LawfulReader (Prog.iter n i0 acc f) := by
  induction n generalizing i0 acc with
  | zero =>
    rw [Prog.iter_zero]
    infer_instance
  | succ n ih =>
    rw [Prog.iter_succ]
    infer_instance

end LawfulReader

namespace Prog

/--
Read the next `n` tokens. When fewer are left all of them are consumed and the error is `short`.
-/
def take (n : Nat) (short : σ → ε) : Prog ε σ (List τ) := fun s =>
  if n ≤ (inp s).length then
    .ok ((inp s).take n) (move ((inp s).take n) ((inp s).drop n) s)
  else
    .fail (short s) (move (inp s) [] s)

theorem take_of_le {n : Nat} {short : σ → ε} {s : σ} (h : n ≤ (inp s).length)
    : take n short s = .ok ((inp s).take n) (move ((inp s).take n) ((inp s).drop n) s) := by
  simp [take, h]

theorem take_of_lt {n : Nat} {short : σ → ε} {s : σ} (h : (inp s).length < n)
    : take n short s = .fail (short s) (move (inp s) [] s) := by
  simp [take, Nat.not_le.mpr h]

theorem frame_take (short : σ → ε) (used : List τ)
    : Frame (take used.length short) used used where
  exact s rest h := by
    rw [take_of_le (by simp [h])]
    simp [h]
  short s suf h hsuf := by
    have := List.length_pos_of_ne_nil hsuf
    refine ⟨short s, take_of_lt ?_⟩
    rw [h, List.length_append]
    omega

instance (n : Nat) (short : σ → ε) : LawfulReader (take n short : Prog ε σ (List τ)) where
  ok_run {s s' a} h := by
    unfold take at h
    split at h
    . next hn =>
      simp only [Out.ok.injEq] at h
      refine ⟨(inp s).take n, (inp s).drop n, by simp, h.2.symm, ?_⟩
      have := frame_take short ((inp s).take n)
      rw [List.length_take, Nat.min_eq_left hn] at this
      rw [← h.1]
      exact this
    . simp at h
  fail_run {s s' e} h := by
    unfold take at h
    split at h
    . simp at h
    . simp only [Out.fail.injEq] at h
      exact ⟨inp s, [], by simp, h.2.symm⟩

end Prog
