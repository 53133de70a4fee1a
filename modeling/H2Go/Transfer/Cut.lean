import H2Go.Transfer.Status
import H2Go.TypeInfo.Lemmas

/-!
This module contains replies that are cut short: a reader that finds too few bytes returns the fault of
the transport, and it would have read on. Every other error of a reader is about the bytes it has read.
-/

namespace H2Go

open BigEndian

variable {σ : Type} {α β : Type}

namespace Tr

/--
The bytes `b` are not enough for `m`: whatever byte follows them is read as well.
-/
def ReadsOn (m : Prog Err (Tr σ) α) (b : List UInt8) : Prop :=
  ∀ (t : Tr σ) (x : UInt8), t.inp = b ++ [x] →
    (m t).Holds True (fun _ t' => t'.inp = []) (fun _ t' => t'.inp = [])

def Spoils (m : Prog Err (Tr σ) α) (used : List UInt8) : Prop :=
  ∀ (t : Tr σ) (rest : List UInt8), t.inp = used ++ rest → ∃ e, m t = .fail e (Input.move used rest t)

/--
The error `e` of `m` on the stream `t` is not about the bytes it has read, but about those that did not
come.
-/
structure Starved (m : Prog Err (Tr σ) α) (t : Tr σ) (e : Err) : Prop where
  plain : e.Plain
  timeout : e.isTimeout = decide (t.readFault = .timeout)
  reads_on : ReadsOn m t.inp

/--
Readers whose errors are about the bytes they have read, unless they did not get enough of them.
-/
class CutReader (m : Prog Err (Tr σ) α) : Prop extends LawfulReader m where
  fail_cut : ∀ {t t' : Tr σ} {e : Err}, m t = .fail e t' →
    (e.isTimeout = false ∧ ∃ used rest, t.inp = used ++ rest ∧ Spoils m used) ∨ Starved m t e

namespace CutReader

/--
A reader returns a timeout exactly when the transport timed out on bytes that it still needed.
-/
theorem isTimeout_iff {m : Prog Err (Tr σ) α} [CutReader m] {t t' : Tr σ} {e : Err}
    (h : m t = .fail e t')
    : e.isTimeout = true ↔ t.readFault = .timeout ∧ ReadsOn m t.inp := by
  rcases fail_cut h with ⟨htime, used, rest, hinp, hspoils⟩ | hstarved
  . rw [htime]
    refine ⟨fun h => absurd h Bool.false_ne_true, ?_⟩
    -- a byte behind the ones that spoil it is not read
    rintro ⟨-, hon⟩
    obtain ⟨e', hrun⟩ := hspoils (Input.move [] (t.inp ++ [0]) t) (rest ++ [0])
      (by rw [hinp, List.append_assoc]; rfl)
    have hend := hon (Input.move [] (t.inp ++ [0]) t) 0 rfl
    rw [hrun] at hend
    exact absurd hend (by simp [Input.move])
  . rw [hstarved.timeout, decide_eq_true_eq]
    exact ⟨fun h => ⟨h, hstarved.reads_on⟩, fun h => h.1⟩

theorem of_noFail {m : Prog Err (Tr σ) α} [LawfulReader m] (h : ∀ t e t', m t ≠ .fail e t')
    : CutReader m where
  fail_cut hrun := absurd hrun (h _ _ _)

instance pure (a : α) : CutReader (Pure.pure a : Prog Err (Tr σ) α) :=
  of_noFail (by simp)

instance panic (p : Panic) : CutReader (Prog.panic p : Prog Err (Tr σ) α) :=
  of_noFail (by simp)

instance stuck : CutReader (Prog.stuck : Prog Err (Tr σ) α) :=
  of_noFail (by simp)

theorem throw {e : Err} (h : e.isTimeout = false) : CutReader (Prog.throw e : Prog Err (Tr σ) α) where
  fail_cut {t t' e'} hrun := by
    cases hrun
    refine .inl ⟨h, [], t.inp, rfl, ?_⟩
    intro t1 rest hinp
    refine ⟨e, ?_⟩
    rw [List.nil_append] at hinp
    rw [Prog.throw_run, ← hinp]
    exact congrArg _ (Input.move_nil t1).symm

instance throw_errorf (format : String) (args : List FmtArg)
    : CutReader (Prog.throw (.errorf format args) : Prog Err (Tr σ) α) := throw rfl

instance throw_h2 (h : H2Error) : CutReader (Prog.throw (.h2 h) : Prog Err (Tr σ) α) := throw rfl

instance throw_closed (format : String)
    : CutReader (Prog.throw (Err.closed.wrap format) : Prog Err (Tr σ) α) := throw rfl

theorem length_le {m : Prog Err (Tr σ) α} [LawfulReader m] {t : Tr σ} (h : t.inp = [])
    : (m t).Holds True (fun _ t' => t'.inp = []) (fun _ t' => t'.inp = []) := by
  cases hrun : m t with
  | ok a t' =>
    have hle := LawfulReader.length_le_of_ok hrun
    exact List.length_eq_zero_iff.mp (by simpa [Input.inp, h] using hle)
  | fail e t' =>
    have hle := LawfulReader.length_le_of_fail hrun
    exact List.length_eq_zero_iff.mp (by simpa [Input.inp, h] using hle)
  | panic | stuck => trivial

instance bind (m : Prog Err (Tr σ) α) (f : α → Prog Err (Tr σ) β) [CutReader m] [∀ a, CutReader (f a)]
    : CutReader (m >>= f) where
  fail_cut {t t' e} hrun := by
    rcases Prog.bind_eq_fail hrun with hm | ⟨a, t1, hm, hf⟩
    . rcases fail_cut hm with ⟨htime, used, rest, hinp, hspoils⟩ | hstarved
      . refine .inl ⟨htime, used, rest, hinp, ?_⟩
        intro t2 rest2 hinp2
        obtain ⟨e2, hrun2⟩ := hspoils t2 rest2 hinp2
        exact ⟨e2, Prog.bind_of_fail hrun2 f⟩
      . refine .inr ⟨hstarved.plain, hstarved.timeout, ?_⟩
        intro t2 x hinp2
        have hend := hstarved.reads_on t2 x hinp2
        rw [Prog.bind_run]
        cases hrun2 : m t2 with
        | ok a t3 =>
          rw [hrun2] at hend
          exact length_le hend
        | fail e t3 =>
          rw [hrun2] at hend
          exact hend
        | panic | stuck => trivial
    . obtain ⟨used, rest, hinp, rfl, hframe⟩ := LawfulReader.ok_run hm
      rcases fail_cut hf with ⟨htime, used', rest', hinp', hspoils⟩ | hstarved
      . refine .inl ⟨htime, used ++ used', rest', ?_, ?_⟩
        . rw [List.append_assoc, ← show rest = used' ++ rest' from hinp']
          exact hinp
        . intro t2 rest2 hinp2
          rw [List.append_assoc] at hinp2
          obtain ⟨e2, hrun2⟩ := hspoils (Input.move used (used' ++ rest2) t2) rest2 rfl
          refine ⟨e2, ?_⟩
          rw [Prog.bind_of_ok (hframe.exact t2 _ hinp2), hrun2, Input.move_move]
      . refine .inr ⟨hstarved.plain, hstarved.timeout, ?_⟩
        intro t2 x hinp2
        rw [show t.inp = used ++ rest from hinp, List.append_assoc] at hinp2
        rw [Prog.bind_of_ok (hframe.exact t2 _ hinp2)]
        exact hstarved.reads_on _ x rfl

theorem mapErr {g : Err → Err} (m : Prog Err (Tr σ) α) [CutReader m]
    (hcontent : ∀ e : Err, e.isTimeout = false → (g e).isTimeout = false)
    (hshort : ∀ e : Err, e.Plain → (g e).Plain ∧ (g e).isTimeout = e.isTimeout)
    : CutReader (Prog.mapErr g m) where
  fail_cut {t t' e} hrun := by
    obtain ⟨e', t1, hm, rfl, rfl⟩ := Out.map_eq_fail hrun
    rcases fail_cut hm with ⟨htime, used, rest, hinp, hspoils⟩ | hstarved
    . refine .inl ⟨hcontent e' htime, used, rest, hinp, ?_⟩
      intro t2 rest2 hinp2
      obtain ⟨e2, hrun2⟩ := hspoils t2 rest2 hinp2
      exact ⟨g e2, by rw [Prog.mapErr_run, hrun2]; rfl⟩
    . obtain ⟨hplain, htime⟩ := hshort e' hstarved.plain
      refine .inr ⟨hplain, htime.trans hstarved.timeout, ?_⟩
      intro t2 x hinp2
      have hend := hstarved.reads_on t2 x hinp2
      rw [Prog.mapErr_run]
      cases hrun2 : m t2 with
      | ok | fail | panic | stuck =>
        rw [hrun2] at hend
        exact hend

instance wrapErr (format : String) (args : List FmtArg) (m : Prog Err (Tr σ) α) [CutReader m]
    : CutReader (wrapErr format args m) :=
  mapErr m (fun _ h => h) (fun _ h => ⟨h, rfl⟩)

instance wrapError (op : String) (m : Prog Err (Tr σ) α) [CutReader m]
    : CutReader (Prog.mapErr (wrapError op) m) := by
  apply mapErr
  . intro e he
    unfold H2Go.wrapError
    split
    . rfl
    . exact he
  . intro e he
    unfold H2Go.wrapError
    rw [he.1]
    exact ⟨he, rfl⟩

instance ite (c : Prop) [Decidable c] (m m' : Prog Err (Tr σ) α) [CutReader m] [CutReader m']
    : CutReader (if c then m else m') := by
  split <;> infer_instance

instance iter (n i0 : Nat) (acc : β) (f : Nat → β → Prog Err (Tr σ) β) [∀ i b, CutReader (f i b)]
    : CutReader (Prog.iter n i0 acc f) := by
  induction n generalizing i0 acc with
  | zero =>
    rw [Prog.iter_zero]
    infer_instance
  | succ n ih =>
    rw [Prog.iter_succ]
    infer_instance

instance make (n cap : Int) : CutReader (Prog.make n cap : Prog Err (Tr σ) Unit) := by
  unfold Prog.make
  infer_instance

instance index (xs : List α) (i : Nat) : CutReader (Prog.index xs i : Prog Err (Tr σ) α) := by
  unfold Prog.index
  split <;> infer_instance

instance setIndex (xs : List α) (i : Nat) (x : α)
    : CutReader (Prog.setIndex xs i x : Prog Err (Tr σ) (List α)) := by
  unfold Prog.setIndex
  infer_instance

instance slice (xs : List α) (lo hi : Nat)
    : CutReader (Prog.slice xs lo hi : Prog Err (Tr σ) (List α)) := by
  unfold Prog.slice
  infer_instance

theorem of_fuel {m : Nat → Prog Err (Tr σ) α} [∀ n, CutReader (m n)] (fuel : Nat → Nat)
    (hle : ∀ n, (m n).Le (m (n + 1))) (henough : ∀ t : Tr σ, m (fuel t.inp.length) t ≠ .stuck)
    : CutReader (fun t : Tr σ => m (fuel t.inp.length) t) where
  toLawfulReader := LawfulReader.of_fuel (fun t : Tr σ => fuel t.inp.length) hle henough
  fail_cut {t t' e} hrun := by
    -- enough fuel for one byte more as well
    let N := max (fuel t.inp.length) (fuel (t.inp.length + 1))
    have hsame : ∀ t1 : Tr σ, fuel t1.inp.length ≤ N → m (fuel t1.inp.length) t1 = m N t1 :=
      fun t1 hN => (Prog.le_of_le_succ hle hN t1).eq (henough t1)
    have hrunN : m N t = .fail e t' := (hsame t (Nat.le_max_left _ _)).symm.trans hrun
    rcases fail_cut hrunN with ⟨htime, used, rest, hinp, hspoils⟩ | hstarved
    . refine .inl ⟨htime, used, rest, hinp, ?_⟩
      intro t2 rest2 hinp2
      obtain ⟨e2, hrun2⟩ := hspoils t2 rest2 hinp2
      refine ⟨e2, ?_⟩
      rw [← hrun2]
      exact Prog.eq_of_le_succ hle (henough t2) (by rw [hrun2]; simp)
    . refine .inr ⟨hstarved.plain, hstarved.timeout, ?_⟩
      intro t2 x hinp2
      have hN : fuel t2.inp.length ≤ N := by
        rw [hinp2, List.length_append]
        exact Nat.le_max_right _ _
      show (m (fuel t2.inp.length) t2).Holds _ _ _
      rw [hsame t2 hN]
      exact hstarved.reads_on t2 x hinp2

end CutReader

theorem starved_readFull {n : Nat} {t : Tr σ} (h : t.inp.length < n)
    : Starved (readFull n) t t.shortErr where
  plain := by
    unfold shortErr
    cases t.readFault with
    | eof => dsimp only; split <;> exact ⟨rfl, rfl⟩
    | timeout | reset => exact ⟨rfl, rfl⟩
  timeout := by
    unfold shortErr
    cases t.readFault with
    | eof => dsimp only; split <;> rfl
    | timeout | reset => rfl
  reads_on := by
    intro t1 x hinp
    unfold readFull
    rcases Nat.lt_or_ge t1.inp.length n with hlt | hge
    . rw [Prog.take_of_lt hlt]
      rfl
    . rw [Prog.take_of_le hge]
      show t1.inp.drop n = []
      rw [List.drop_eq_nil_iff, hinp, List.length_append, List.length_singleton]
      exact h

instance (n : Nat) : CutReader (readFull n : Prog Err (Tr σ) _) where
  fail_cut {t t' e} hrun := by
    rcases Nat.lt_or_ge t.inp.length n with hlt | hge
    . unfold readFull at hrun
      rw [Prog.take_of_lt hlt] at hrun
      cases hrun
      exact .inr (starved_readFull hlt)
    . unfold readFull at hrun
      rw [Prog.take_of_le hge] at hrun
      cases hrun

instance : CutReader (readByte : Prog Err (Tr σ) _) := by
  unfold readByte
  infer_instance

instance : CutReader (readBool : Prog Err (Tr σ) _) := by
  unfold readBool
  infer_instance

instance : CutReader (readInt16 : Prog Err (Tr σ) _) := by
  unfold readInt16
  infer_instance

instance : CutReader (readInt32 : Prog Err (Tr σ) _) := by
  unfold readInt32
  infer_instance

instance : CutReader (readInt64 : Prog Err (Tr σ) _) := by
  unfold readInt64
  infer_instance

instance : CutReader (readRowCount : Prog Err (Tr σ) _) := by
  unfold readRowCount
  infer_instance

instance (raw : List UInt8) (length : Nat) : CutReader (rawUnits raw length : Prog Err (Tr σ) _) := by
  unfold rawUnits
  infer_instance

instance (raw : List UInt8) : CutReader (compact raw : Prog Err (Tr σ) _) := by
  unfold compact
  infer_instance

set_option synthInstance.maxSize 1000 in
instance : CutReader (readString : Prog Err (Tr σ) _) := by
  unfold readString
  infer_instance

instance : CutReader (readH2ErrorFrame : Prog Err (Tr σ) _) := by
  unfold readH2ErrorFrame
  infer_instance

instance : CutReader (readH2Error : Prog Err (Tr σ) α) := by
  unfold readH2Error
  infer_instance

instance (status : Int) : CutReader (checkStatus status : Prog Err (Tr σ) _) := by
  unfold checkStatus
  infer_instance

instance : CutReader (readStatus : Prog Err (Tr σ) _) := by
  unfold readStatus
  infer_instance

section TypeInfo

variable (self : Prog Err (Tr σ) TypeInfo) [CutReader self]

instance (valueType : ValueType) : CutReader (skipExtTypeInfo self valueType) := by
  cases valueType
  all_goals
    unfold skipExtTypeInfo
    infer_instance

instance (ti : Int) (info : TypeInfo) : CutReader (readTypeInfoFields self ti info) := by
  obtain ⟨valueType, precision, scale, nullable, extTypeInfo⟩ := info
  cases valueType
  all_goals
    unfold readTypeInfoFields
    dsimp only
    infer_instance

instance : CutReader (readTypeInfoWith self) := by
  unfold readTypeInfoWith
  infer_instance

end TypeInfo

instance (fuel : Nat) : CutReader (readTypeInfoFuel fuel : Prog Err (Tr σ) _) := by
  induction fuel with
  | zero =>
    unfold readTypeInfoFuel
    infer_instance
  | succ fuel ih =>
    unfold readTypeInfoFuel
    infer_instance

instance : CutReader (readTypeInfo : Prog Err (Tr σ) _) := by
  apply CutReader.of_fuel (fun n => n + 1) readTypeInfoFuel_mono
  intro t
  exact (progress_readTypeInfoFuel (Nat.lt_succ_self _)).ne_stuck (Nat.le_refl _)

end Tr

end H2Go
