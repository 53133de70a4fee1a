import Mathlib.Data.List.Induction
import Mathlib.Data.List.Nodup

/-!
This module contains handles: names that one side of a protocol gives to the objects it asks the other
side to create. A sequence of requests is disciplined when a handle is created once, and used and
destroyed only between its creation and its destruction. The side that makes the requests proves that
with the list of the handles it has to itself.
-/

structure Access (H : Type) where
  uses : List H
  opens : List H
  closes : List H
  deriving DecidableEq

namespace Access

variable {H : Type}

def none : Access H := { uses := [], opens := [], closes := [] }

def opened (as : List (Access H)) : List H := as.flatMap Access.opens

def closed (as : List (Access H)) : List H := as.flatMap Access.closes

def Allowed (as : List (Access H)) (a : Access H) : Prop :=
  a.opens.Nodup ∧ a.closes.Nodup ∧ (∀ h ∈ a.opens, h ∉ opened as) ∧
    ∀ h ∈ a.uses ++ a.closes, h ∈ opened as ∧ h ∉ closed as

def Disciplined (as : List (Access H)) : Prop :=
  ∀ before a after, as = before ++ a :: after → Allowed before a

theorem opened_concat (as : List (Access H)) (a : Access H)
    : opened (as ++ [a]) = opened as ++ a.opens := by
  simp [opened]

theorem closed_concat (as : List (Access H)) (a : Access H)
    : closed (as ++ [a]) = closed as ++ a.closes := by
  simp [closed]

theorem disciplined_nil : Disciplined ([] : List (Access H)) := by
  intro before a after h
  simp at h

theorem Disciplined.concat {as : List (Access H)} {a : Access H} (h : Disciplined as)
    (ha : Allowed as a)
    : Disciplined (as ++ [a]) := by
  intro before b after heq
  rcases List.eq_nil_or_concat after with rfl | ⟨after, c, rfl⟩
  . obtain ⟨rfl, hb⟩ := List.append_inj' heq rfl
    cases hb
    exact ha
  . rw [List.concat_eq_append, ← List.cons_append, ← List.append_assoc] at heq
    exact h before b after (List.append_inj' heq rfl).1

theorem Disciplined.left {as : List (Access H)} {a : Access H} (h : Disciplined (as ++ [a]))
    : Disciplined as := by
  rintro before b after rfl
  exact h before b (after ++ [a]) (by simp)

theorem Disciplined.nodup {as : List (Access H)} (h : Disciplined as)
    : (opened as).Nodup ∧ (closed as).Nodup := by
  induction as using List.reverseRecOn with
  | nil => exact ⟨List.nodup_nil, List.nodup_nil⟩
  | append_singleton as a ih =>
    obtain ⟨hopened, hclosed⟩ := ih h.left
    obtain ⟨hopens, hcloses, hnew, hold⟩ := h as a [] rfl
    rw [opened_concat, closed_concat]
    constructor
    . exact hopened.append hopens (fun x hx hx' => hnew x hx' hx)
    . exact hclosed.append hcloses
        (fun x hx hx' => (hold x (List.mem_append_right _ hx')).2 hx)

theorem Disciplined.opened_of_closed {as : List (Access H)} (h : Disciplined as)
    : ∀ x ∈ closed as, x ∈ opened as := by
  induction as using List.reverseRecOn with
  | nil => exact fun x hx => by simp [closed] at hx
  | append_singleton as a ih =>
    obtain ⟨-, -, -, hold⟩ := h as a [] rfl
    intro x hx
    rw [closed_concat] at hx
    rw [opened_concat]
    apply List.mem_append_left
    rcases List.mem_append.mp hx with hx | hx
    . exact ih h.left x hx
    . exact (hold x (List.mem_append_right _ hx)).1

/--
After the requests `as` the handles `hs` exist, and nobody else will use or destroy them.
-/
structure Holds (as : List (Access H)) (hs : List H) : Prop where
  disciplined : Disciplined as
  nodup : hs.Nodup
  live : ∀ h ∈ hs, h ∈ opened as ∧ h ∉ closed as

namespace Holds

variable {as : List (Access H)} {hs hs' : List H} {h : H}

theorem nil : Holds ([] : List (Access H)) [] :=
  ⟨disciplined_nil, List.nodup_nil, by simp⟩

theorem perm (hold : Holds as hs) (hperm : hs.Perm hs') : Holds as hs' where
  disciplined := hold.disciplined
  nodup := hperm.nodup_iff.mp hold.nodup
  live x hx := hold.live x (hperm.mem_iff.mpr hx)

theorem sublist (hold : Holds as hs) (hsub : hs'.Sublist hs) : Holds as hs' where
  disciplined := hold.disciplined
  nodup := hold.nodup.sublist hsub
  live x hx := hold.live x (hsub.subset hx)

theorem tail (hold : Holds as (h :: hs)) : Holds as hs := hold.sublist (List.sublist_cons_self h hs)

theorem skip (hold : Holds as hs) : Holds (as ++ [Access.none]) hs where
  disciplined := hold.disciplined.concat (by simp [Allowed, Access.none])
  nodup := hold.nodup
  live x hx := by
    rw [opened_concat, closed_concat]
    simpa [Access.none] using hold.live x hx

theorem use (hold : Holds as hs) {uses : List H} (huses : ∀ x ∈ uses, x ∈ hs)
    : Holds (as ++ [{ uses, opens := [], closes := [] }]) hs where
  disciplined := hold.disciplined.concat ⟨List.nodup_nil, List.nodup_nil, by simp,
    fun x hx => hold.live x (huses x (by simpa using hx))⟩
  nodup := hold.nodup
  live x hx := by
    rw [opened_concat, closed_concat]
    simpa using hold.live x hx

theorem create (hold : Holds as hs) {uses : List H} (huses : ∀ x ∈ uses, x ∈ hs)
    (hnew : h ∉ opened as)
    : Holds (as ++ [{ uses, opens := [h], closes := [] }]) (h :: hs) where
  disciplined := hold.disciplined.concat ⟨List.nodup_singleton h, List.nodup_nil, by simpa using hnew,
    fun x hx => hold.live x (huses x (by simpa using hx))⟩
  nodup := List.nodup_cons.mpr ⟨fun hmem => hnew (hold.live h hmem).1, hold.nodup⟩
  live x hx := by
    rw [opened_concat, closed_concat]
    rcases List.mem_cons.mp hx with rfl | hx
    . simpa using fun hclosed => hnew (hold.disciplined.opened_of_closed x hclosed)
    . simpa using ⟨.inl (hold.live x hx).1, (hold.live x hx).2⟩

theorem destroy (hold : Holds as (h :: hs))
    : Holds (as ++ [{ uses := [], opens := [], closes := [h] }]) hs where
  disciplined := hold.disciplined.concat ⟨List.nodup_nil, List.nodup_singleton h, by simp,
    fun x hx => by
      obtain rfl : x = h := by simpa using hx
      exact hold.live x List.mem_cons_self⟩
  nodup := hold.tail.nodup
  live x hx := by
    have hne : x ≠ h := by
      rintro rfl
      exact (List.nodup_cons.mp hold.nodup).1 hx
    rw [opened_concat, closed_concat]
    simpa [hne] using hold.tail.live x hx

end Holds

end Access
