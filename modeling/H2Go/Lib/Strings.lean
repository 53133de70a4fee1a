import Mathlib.Data.List.Basic

/-!
This module contains the functions that cut a string at a separator.
-/

namespace Strings

variable {α : Type} [DecidableEq α]

/--
Cut `s` around the first `c`. The second part is `none` if there is no `c` in `s`.
-/
def cut (c : α) (s : List α) : List α × Option (List α) :=
  match s with
  | [] => ([], none)
  | x :: s => if x = c then ([], some s) else (x :: (cut c s).1, (cut c s).2)

def cutLast (c : α) (s : List α) : Option (List α × List α) :=
  match s with
  | [] => none
  | x :: s =>
    match cutLast c s with
    | some (a, b) => some (x :: a, b)
    | none => if x = c then some ([], s) else none

theorem cut_append {c : α} {a : List α} (h : c ∉ a) (s : List α)
    : cut c (a ++ s) = (a ++ (cut c s).1, (cut c s).2) := by
  induction a with
  | nil => rfl
  | cons x a ih =>
    simp only [List.mem_cons, not_or] at h
    simp only [List.cons_append, cut, Ne.symm h.1, if_false, ih h.2]

theorem eq_of_cut {c : α} {s a b : List α} (h : cut c s = (a, some b)) : s = a ++ c :: b := by
  induction s generalizing a with
  | nil => simp [cut] at h
  | cons x s ih =>
    simp only [cut] at h
    split at h
    . next hx =>
      cases h
      rw [hx, List.nil_append]
    . simp only [Prod.mk.injEq] at h
      rw [← h.1, List.cons_append, ← ih (Prod.ext rfl h.2)]

theorem mem_of_mem_cut {c x : α} {s : List α} (h : x ∈ (cut c s).1) : x ∈ s := by
  induction s with
  | nil => simp [cut] at h
  | cons y s ih =>
    simp only [cut] at h
    split at h
    . simp at h
    . rcases List.mem_cons.mp h with rfl | h
      . simp
      . exact List.mem_cons_of_mem _ (ih h)

theorem cut_of_not_mem {c : α} {a : List α} (h : c ∉ a) : cut c a = (a, none) := by
  have := cut_append h []
  simpa only [List.append_nil, cut] using this

theorem cut_cons (c : α) (s : List α) : cut c (c :: s) = ([], some s) := by
  simp only [cut, if_true]

theorem cut_append_cons {c : α} {a : List α} (h : c ∉ a) (s : List α)
    : cut c (a ++ c :: s) = (a, some s) := by
  rw [cut_append h, cut_cons, List.append_nil]

theorem cutLast_of_not_mem {c : α} {b : List α} (h : c ∉ b) : cutLast c b = none := by
  induction b with
  | nil => rfl
  | cons x b ih =>
    simp only [List.mem_cons, not_or] at h
    simp only [cutLast, ih h.2, Ne.symm h.1, if_false]

theorem cutLast_append_cons {c : α} (a : List α) {b : List α} (h : c ∉ b)
    : cutLast c (a ++ c :: b) = some (a, b) := by
  induction a with
  | nil => simp only [List.nil_append, cutLast, cutLast_of_not_mem h, if_true]
  | cons x a ih => simp only [List.cons_append, cutLast, ih]

end Strings
