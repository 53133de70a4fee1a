import Mathlib.Data.List.Basic

/-!
This module contains the store of a session with transactions: the changes since the last commit, and
all that were committed. Changes are of type `T`, isolation levels of type `L`.
-/

structure Store (T L : Type) where
  autoCommit : Bool
  isolation : L
  work : List T
  committed : List T
deriving DecidableEq

namespace Store

variable {T L : Type}

def commit (d : Store T L) : Store T L := { d with work := [], committed := d.committed ++ d.work }

def rollback (d : Store T L) : Store T L := { d with work := [] }

def conclude (rolledBack : Bool) (d : Store T L) : Store T L := if rolledBack then d.rollback else d.commit

def switch (on : Bool) (d : Store T L) : Store T L := { d with autoCommit := on }

/--
Switching autocommit on commits what is there.
-/
def setAutoCommit (on : Bool) (d : Store T L) : Store T L :=
  if on then d.commit.switch true else d.switch false

def setIsolation (level : L) (d : Store T L) : Store T L := { d with isolation := level }

/--
A change is committed at once in autocommit mode.
-/
def change (x : T) (d : Store T L) : Store T L :=
  if d.autoCommit then { d with work := d.work ++ [x] : Store T L }.commit
  else { d with work := d.work ++ [x] }

def append (xs : List T) (d : Store T L) : Store T L := { d with work := d.work ++ xs }

def Settled (d : Store T L) : Prop := d.autoCommit = true → d.work = []

/--
All of the work was committed or none of it, and only if `p` some was.
-/
def Concluded (p : Prop) (d d' : Store T L) : Prop :=
  d'.committed = d.committed ∧ (d'.work = d.work ∨ d'.work = []) ∨
    p ∧ d'.committed = d.committed ++ d.work ∧ d'.work = []

@[simp]
theorem autoCommit_setAutoCommit (on : Bool) (d : Store T L) : (d.setAutoCommit on).autoCommit = on := by
  cases on <;> rfl

theorem setAutoCommit_of_work {d : Store T L} (h : d.work = []) (on : Bool)
    : d.setAutoCommit on = d.switch on := by
  cases on with
  | false => rfl
  | true => simp [setAutoCommit, commit, switch, h]

theorem switch_of_autoCommit {d : Store T L} {on : Bool} (h : d.autoCommit = on) : d.switch on = d := by
  rw [switch, ← h]

theorem rollback_of_work {d : Store T L} (h : d.work = []) : d.rollback = d := by
  rw [rollback, ← h]

theorem change_of_off {d : Store T L} (h : d.autoCommit = false) (x : T) : d.change x = d.append [x] := by
  simp [change, append, h]

theorem append_nil (d : Store T L) : d.append [] = d := by rw [append, List.append_nil]

theorem append_append (xs ys : List T) (d : Store T L) : (d.append xs).append ys = d.append (xs ++ ys) := by
  simp [append]

theorem work_conclude (rolledBack : Bool) (d : Store T L) : (d.conclude rolledBack).work = [] := by
  cases rolledBack <;> rfl

theorem settled_of_work {d : Store T L} (h : d.work = []) : d.Settled := fun _ => h

theorem settled_of_off {d : Store T L} (h : d.autoCommit = false) : d.Settled := by
  intro hon
  rw [h] at hon
  cases hon

theorem settled_setAutoCommit (on : Bool) (d : Store T L) : (d.setAutoCommit on).Settled := by
  cases on with
  | false => exact settled_of_off rfl
  | true => exact settled_of_work rfl

theorem settled_change (x : T) (d : Store T L) : (d.change x).Settled := by
  intro hon
  unfold change at hon ⊢
  split at hon
  . next h => simp [h, commit]
  . next h => exact absurd hon h

theorem Concluded.refl (p : Prop) (d : Store T L) : Concluded p d d := .inl ⟨rfl, .inl rfl⟩

theorem Concluded.trans {p q : Prop} {d d' d'' : Store T L} (h : Concluded p d d')
    (h' : Concluded q d' d'')
    : Concluded (p ∨ q) d d'' := by
  rcases h with ⟨hcommitted, hwork⟩ | ⟨hp, hcommitted, hwork⟩
  . rcases h' with ⟨hcommitted', hwork'⟩ | ⟨hq, hcommitted', hwork'⟩
    . refine .inl ⟨hcommitted'.trans hcommitted, ?_⟩
      rcases hwork' with hwork' | hwork'
      . rw [hwork']
        exact hwork
      . exact .inr hwork'
    . rw [hcommitted] at hcommitted'
      rcases hwork with hwork | hwork
      . exact .inr ⟨.inr hq, by rw [hcommitted', hwork], hwork'⟩
      . exact .inl ⟨by rw [hcommitted', hwork, List.append_nil], .inr hwork'⟩
  . -- there is nothing left that could be committed again
    refine .inr ⟨.inl hp, ?_⟩
    rcases h' with ⟨hcommitted', hwork'⟩ | ⟨-, hcommitted', hwork'⟩
    . refine ⟨hcommitted'.trans hcommitted, ?_⟩
      rcases hwork' with hwork' | hwork'
      . rw [hwork', hwork]
      . exact hwork'
    . exact ⟨by rw [hcommitted', hwork, List.append_nil, hcommitted], hwork'⟩

theorem concluded_rollback {p : Prop} {d d' : Store T L} (hcommitted : d'.committed = d.committed)
    (hwork : d'.work = [])
    : Concluded p d d' :=
  .inl ⟨hcommitted, .inr hwork⟩

end Store
