import H2Go.Lib.Reader
import H2Go.Lib.Triple

/-!
This module contains the slice operations of the embedded language with their run-time checks.
-/

namespace Prog

variable {ε σ α : Type}

/--
Allocate for `n` elements. A negative size panics, and so does a size above `cap`, the limit the
program promises to keep for this allocation.
-/
def make (n cap : Int) : Prog ε σ Unit :=
  if 0 ≤ n ∧ n ≤ cap then pure () else panic .makeSize

def index (xs : List α) (i : Nat) : Prog ε σ α :=
  match xs[i]? with
  | some x => pure x
  | none => panic .index

def setIndex (xs : List α) (i : Nat) (x : α) : Prog ε σ (List α) :=
  if i < xs.length then pure (xs.set i x) else panic .index

def slice (xs : List α) (lo hi : Nat) : Prog ε σ (List α) :=
  if lo ≤ hi ∧ hi ≤ xs.length then pure ((xs.take hi).drop lo) else panic .slice

theorem make_eq {n cap : Int} (h : 0 ≤ n ∧ n ≤ cap) : (make n cap : Prog ε σ Unit) = pure () := by
  simp [make, h]

theorem index_eq {xs : List α} {i : Nat} {x : α} (h : xs[i]? = some x)
    : (index xs i : Prog ε σ α) = pure x := by
  simp [index, h]

theorem setIndex_eq {xs : List α} {i : Nat} (x : α) (h : i < xs.length)
    : (setIndex xs i x : Prog ε σ (List α)) = pure (xs.set i x) := by
  simp [setIndex, h]

theorem slice_eq {xs : List α} {lo hi : Nat} (h : lo ≤ hi ∧ hi ≤ xs.length)
    : (slice xs lo hi : Prog ε σ (List α)) = pure ((xs.take hi).drop lo) := by
  simp [slice, h]

section

variable {τ : Type} [Input τ σ]

instance (n cap : Int) : LawfulReader (make n cap : Prog ε σ Unit) := by
  unfold make
  infer_instance

instance (xs : List α) (i : Nat) : LawfulReader (index xs i : Prog ε σ α) := by
  unfold index
  split <;> infer_instance

instance (xs : List α) (i : Nat) (x : α) : LawfulReader (setIndex xs i x : Prog ε σ (List α)) := by
  unfold setIndex
  infer_instance

instance (xs : List α) (lo hi : Nat) : LawfulReader (slice xs lo hi : Prog ε σ (List α)) := by
  unfold slice
  infer_instance

end

end Prog

namespace Triple

variable {ε σ α : Type} {D : Prop} {P : σ → Prop} {E : ε → σ → Prop}

theorem make {n cap : Int} (h : 0 ≤ n ∧ n ≤ cap)
    : Triple D P (Prog.make n cap) (fun _ s => P s) E := by
  rw [Prog.make_eq h]
  exact Triple.pure (fun _ hs => hs)

theorem index {xs : List α} {i : Nat} {Q : α → σ → Prop} (h : i < xs.length ∨ D)
    (hq : ∀ x s, xs[i]? = some x → P s → Q x s)
    : Triple D P (Prog.index xs i) Q E := by
  unfold Prog.index
  split
  . next x hx => exact Triple.pure (fun s hs => hq x s hx hs)
  . next hx =>
    intro s _
    rcases h with h | h
    . exact absurd h (Nat.not_lt.mpr (List.getElem?_eq_none_iff.mp hx))
    . exact h

theorem setIndex {xs : List α} {i : Nat} {x : α} {Q : List α → σ → Prop} (h : i < xs.length ∨ D)
    (hq : ∀ s, P s → Q (xs.set i x) s)
    : Triple D P (Prog.setIndex xs i x) Q E := by
  unfold Prog.setIndex
  split
  . exact Triple.pure hq
  . next hi =>
    intro s _
    rcases h with h | h
    . exact absurd h hi
    . exact h

end Triple
