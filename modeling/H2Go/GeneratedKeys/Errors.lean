import H2Go.GeneratedKeys.Refusal
import H2Go.Rows.Robust
import H2Go.Value.Lob

/-!
This module contains the errors that generated keys are turned down with. None of them says that there
is no single key, so an update whose keys cannot be read fails.
-/

namespace H2Go

variable {σ : Type} {α : Type}

abbrev FailsHard {σ α : Type} (m : Prog Err σ α) : Prop :=
  FailsWith (fun e _ => isLastInsertIDUnavailable e = false) m

theorem FailsHard.of_plain {m : Prog Err σ α} (h : FailsPlain m) : FailsHard m :=
  h.imp (fun _ _ he => he.2)

namespace Tr

variable [Peer σ]

theorem plain_sendLobRead (p : PendingLob) (offset : Int)
    : FailsPlain (sendLobRead p offset : Prog Err (Tr σ) _) := by
  refine ⟨fun {t t' e} hrun => ?_⟩
  rcases (sends_sendLobRead p offset).cases (lobReadRequest_ne_nil _ _ _) t with
    ⟨budget, hok, -⟩ | ⟨e', t1, hfail, hplain, -⟩
  . rw [hrun] at hok
    cases hok
  . rw [hrun] at hfail
    cases hfail
    exact hplain

theorem plain_fetchLobLoop (p : PendingLob) (fuel : Nat) (buf : List UInt8) (offset : Int)
    : FailsPlain (fetchLobLoop p fuel buf offset : Prog Err (Tr σ) _) := by
  induction fuel generalizing buf offset with
  | zero => exact ⟨nofun⟩
  | succ fuel ih =>
    apply FailsWith.bind (plain_sendLobRead p offset)
    intro _
    apply FailsWith.bind (FailsWith.of_progress (fun _ => progress_readLobChunk))
    intro chunk
    exact FailsWith.ite (fun _ => FailsWith.pure _) (fun _ => ih _ _)

theorem plain_fetchLob (p : PendingLob) : FailsPlain (fetchLob p : Prog Err (Tr σ) _) := by
  apply FailsWith.ite (fun _ => FailsWith.throw (fun _ => Err.plain_errorf _ _))
  intro _
  apply FailsWith.bind
  . exact FailsWith.ite (fun _ => FailsWith.make _ _) (fun _ => FailsWith.pure _)
  intro _
  apply FailsWith.bind ⟨nofun⟩
  intro t
  apply FailsWith.bind (plain_fetchLobLoop p _ [] 0)
  intro buf
  exact FailsWith.ite (fun _ => FailsWith.pure _) (fun _ => FailsWith.pure _)

omit [Peer σ] in
theorem hard_readH2Error (fn : String)
    : FailsHard (Prog.mapErr (wrapError fn) readH2Error : Prog Err (Tr σ) α) := by
  apply FailsWith.mapErr
  refine ⟨fun {t t' e} hrun => ?_⟩
  rcases Prog.bind_eq_fail hrun with hfail | ⟨h, t1, -, hthrow⟩
  . have hplain : FailsPlain (readH2ErrorFrame : Prog Err (Tr σ) _) :=
      FailsWith.of_progress (fun _ => progress_readH2ErrorFrame)
    exact (Err.plain_wrapError fn (hplain.of_run hfail)).2
  . cases hthrow
    rfl

variable [GoStd]

theorem hard_readGeneratedKeyRow (m : ResultMeta) (lc : LobCollector)
    : FailsHard (readGeneratedKeyRow m lc : Prog Err (Tr σ) _) := by
  apply FailsWith.bind
  . exact FailsHard.of_plain (FailsWith.of_progress (fun _ => progress_wrapErr _ _ progress_readByte))
  intro rowFlag
  apply FailsWith.ite
  . intro _
    apply FailsWith.bind (FailsHard.of_plain (plain_readColumns _ _ _ _ _))
    exact fun _ => FailsWith.pure _
  intro _
  apply FailsWith.ite (fun _ => FailsWith.pure _)
  intro _
  apply FailsWith.ite (fun _ => hard_readH2Error _)
  exact fun _ => FailsWith.throw (fun _ => rfl)

theorem hard_readGeneratedKeyRows {full : Batch → Prog Err (Tr σ) Batch}
    (hfull : ∀ acc, FailsHard (full acc)) (m : ResultMeta) (n : Nat) (acc : Batch)
    : FailsHard (readGeneratedKeyRows full m n acc) := by
  induction n generalizing acc with
  | zero => exact hfull acc
  | succ n ih =>
    apply FailsWith.bind (hard_readGeneratedKeyRow m _)
    intro r
    cases r with
    | none => exact FailsWith.pure _
    | some r => exact ih _

theorem hard_readGeneratedKeyBatch (m : ResultMeta) (rowCount : Int)
    : FailsHard (readGeneratedKeyBatch m rowCount : Prog Err (Tr σ) _) := by
  apply FailsWith.ite
  . intro _
    apply FailsWith.bind (FailsWith.make _ _)
    exact fun _ => hard_readGeneratedKeyRows (fun _ => FailsWith.pure _) m _ _
  intro _
  apply FailsWith.ite
  . intro _
    refine ⟨fun {t t' e} hrun => ?_⟩
    have hstuck : ∀ acc : Batch, FailsHard ((fun _ => Prog.stuck : Batch → Prog Err (Tr σ) Batch) acc) :=
      fun _ => ⟨nofun⟩
    exact (hard_readGeneratedKeyRows hstuck m (t.inp.length + 1) _).of_run hrun
  . exact fun _ => FailsWith.pure _

end Tr

namespace Session

theorem hard_onFail_io {m : Prog Err (Tr σ) α} (h : FailsHard m) (f : Err → Prog Err (Session σ) Unit)
    : FailsHard (Prog.onFail (io m) f) := by
  refine ⟨fun {s s' e} hrun => ?_⟩
  rw [Prog.onFail_run] at hrun
  unfold io at hrun
  split at hrun
  . cases hrun
  . next e1 s1 hio =>
    split at hio
    . cases hio
    . obtain ⟨e', t, hfail, rfl, -⟩ := Out.map_eq_fail hio
      have he : e = e' := by
        unfold Prog.attempt at hrun
        split at hrun <;> cases hrun <;> rfl
      rw [he]
      exact h.of_run hfail
  . cases hrun
  . cases hrun

variable [GoStd] [Peer σ]

omit [GoStd] in
theorem hard_resolveGeneratedKeyLobs (pending : List PendingLob) (rows : List (List Value))
    : FailsHard (resolveGeneratedKeyLobs pending rows : Prog Err (Session σ) _) := by
  induction pending generalizing rows with
  | nil => exact FailsWith.pure _
  | cons p pending ih =>
    apply FailsWith.bind (hard_onFail_io (.of_plain (plain_wrapErr _ _ (Tr.plain_fetchLob p))) _)
    intro v
    apply FailsWith.bind
    . refine ⟨fun {s s' e} hrun => ?_⟩
      exact ((Cursor.triple_spliceLob rows p v).of_fail (P := fun _ => True)
        (E := fun _ _ => False) True.intro hrun).elim
    . exact fun rows => ih rows

theorem hard_readGeneratedKeys : FailsHard (readGeneratedKeys : Prog Err (Session σ) _) := by
  apply FailsWith.bind ⟨nofun⟩
  intro s
  apply FailsWith.ite (fun _ => FailsWith.throw (fun _ => rfl))
  intro _
  apply FailsWith.bind (hard_onFail_io (.of_plain (FailsWith.of_progress
    (fun _ => progress_wrapErr _ _ Tr.progress_readInt32))) _)
  intro columnCount
  apply FailsWith.bind (hard_onFail_io (.of_plain (FailsWith.of_progress
    (fun _ => progress_wrapErr _ _ Tr.progress_readInt64))) _)
  intro rowCount
  apply FailsWith.ite (fun _ => FailsWith.throw (fun _ => rfl))
  intro _
  apply FailsWith.bind ⟨nofun⟩
  intro s
  apply FailsWith.bind (hard_onFail_io (.of_plain (FailsWith.of_progress
    (fun _ => progress_wrapErr _ _ (Tr.progress_readResultMeta columnCount s.version)))) _)
  intro m
  apply FailsWith.bind (hard_onFail_io (Tr.hard_readGeneratedKeyBatch m rowCount) _)
  intro r
  apply FailsWith.bind (hard_resolveGeneratedKeyLobs _ _)
  exact fun _ => FailsWith.pure _

end Session

end H2Go
