import H2Go.Transfer.Lemmas

/-!
This module contains the status code that starts every reply and the error frame that follows it
when a request failed.
-/

namespace H2Go

open BigEndian

variable {σ : Type} {α : Type}

namespace Tr

def readH2ErrorFrame : Prog Err (Tr σ) H2Error := do
  let sqlState ← wrapErr "h2go: read error response (sqlState): %w" [] readString
  let message ← wrapErr "h2go: read error response (message): %w" [] readString
  let sql ← wrapErr "h2go: read error response (sql): %w" [] readString
  let code ← wrapErr "h2go: read error response (errorCode): %w" [] readInt32
  let stackTrace ← wrapErr "h2go: read error response (stackTrace): %w" [] readString
  pure {
    sqlState := sqlState.getD [], message := message.getD [], sql := sql.getD [], code,
    stackTrace := stackTrace.getD []
  }

def readH2Error : Prog Err (Tr σ) α := do
  let e ← readH2ErrorFrame
  Prog.throw (.h2 e)

theorem readH2Error_run (t : Tr σ)
    : (readH2Error : Prog Err (Tr σ) α) t = match readH2ErrorFrame t with
        | .ok e t' => .fail (.h2 e) t'
        | .fail e t' => .fail e t'
        | .panic p => .panic p
        | .stuck => .stuck := by
  unfold readH2Error
  rw [Prog.bind_run]
  cases readH2ErrorFrame t <;> rfl

def checkStatus (status : Int) : Prog Err (Tr σ) Unit :=
  if status = statusOK ∨ status = statusOKStateChanged then
    pure ()
  else if status = statusError then
    readH2Error
  else if status = statusClosed then
    Prog.throw (Err.closed.wrap "h2go: server closed the session: %w")
  else
    Prog.throw (.errorf "h2go: unexpected status code %d" [.int status])

def readStatus : Prog Err (Tr σ) Unit := do
  let status ← wrapErr "h2go: read status: %w" [] readInt32
  checkStatus status

instance : LawfulReader (readH2ErrorFrame : Prog Err (Tr σ) _) := by
  unfold readH2ErrorFrame
  infer_instance

instance : LawfulReader (readH2Error : Prog Err (Tr σ) α) := by
  unfold readH2Error
  infer_instance

instance (status : Int) : LawfulReader (checkStatus status : Prog Err (Tr σ) _) := by
  unfold checkStatus
  infer_instance

instance : LawfulReader (readStatus : Prog Err (Tr σ) _) := by
  unfold readStatus
  infer_instance

variable {N : Nat}

theorem progress_readH2ErrorFrame
    : Progress N (readH2ErrorFrame : Prog Err (Tr σ) _) 0 (fun _ => True) Err.Plain := by
  apply Progress.seq (progress_wrapErr _ _ progress_readString)
  intro _ _
  apply Progress.seq (progress_wrapErr _ _ progress_readString)
  intro _ _
  apply Progress.seq (progress_wrapErr _ _ progress_readString)
  intro _ _
  apply Progress.seq (progress_wrapErr _ _ progress_readInt32)
  intro _ _
  apply Progress.seq (progress_wrapErr _ _ progress_readString)
  intro _ _
  exact Progress.pure True.intro

theorem progress_readH2Error {R : α → Prop}
    : Progress N (readH2Error : Prog Err (Tr σ) α) 0 R (fun _ => True) := by
  apply Progress.seq (progress_readH2ErrorFrame.weaken (Nat.le_refl _) (fun _ h => h)
    (fun _ _ => True.intro))
  intro _ _
  exact Progress.throw True.intro

def EndsWith (t : Tr σ) (h : H2Error) : Prop :=
  ∃ pre frame, t.past = pre ++ frame ∧ Frame (readH2ErrorFrame : Prog Err (Tr σ) _) h frame

/--
When the error is one of the server's, its frame has been read to the end and nothing beyond.
-/
def AlignedErr (e : Err) (t : Tr σ) : Prop := ∀ h, e.asH2 = some h → t.EndsWith h

theorem alignedErr_of_plain {e : Err} (h : e.Plain) (t : Tr σ) : AlignedErr e t := by
  intro h2 hh2
  rw [h.1] at hh2
  simp at hh2

theorem aligned_of_plain {m : Prog Err (Tr σ) α} (h : FailsPlain m) : FailsWith AlignedErr m :=
  h.imp (fun _ t he => alignedErr_of_plain he t)

theorem aligned_mapErr {m : Prog Err (Tr σ) α} {g : Err → Err} (hg : ∀ e, (g e).asH2 = e.asH2)
    (h : FailsWith AlignedErr m)
    : FailsWith AlignedErr (Prog.mapErr g m) := by
  apply FailsWith.mapErr
  apply h.imp
  intro e t he h2 hh2
  exact he h2 (by rw [← hg, hh2])

theorem aligned_readH2Error : FailsWith AlignedErr (readH2Error : Prog Err (Tr σ) α) := by
  refine ⟨fun {t t' e} hrun => ?_⟩
  rcases Prog.bind_eq_fail hrun with hfail | ⟨h', s, hok, hthrow⟩
  . have hplain : FailsPlain (readH2ErrorFrame : Prog Err (Tr σ) _) :=
      FailsWith.of_progress (fun _ => progress_readH2ErrorFrame)
    exact alignedErr_of_plain (hplain.of_run hfail) t'
  . cases hthrow
    intro h hh
    cases hh
    obtain ⟨used, rest, hinp, rfl, hframe⟩ := LawfulReader.ok_run hok
    exact ⟨t.past, used, rfl, hframe⟩

theorem aligned_checkStatus (status : Int)
    : FailsWith AlignedErr (checkStatus status : Prog Err (Tr σ) _) := by
  apply FailsWith.ite (fun _ => FailsWith.pure _)
  intro _
  apply FailsWith.ite (fun _ => aligned_readH2Error)
  intro _
  apply FailsWith.ite
  . intro _
    exact aligned_of_plain (FailsWith.throw (fun _ => Err.Plain.wrap _ ⟨rfl, rfl⟩))
  . intro _
    exact aligned_of_plain (FailsWith.throw (fun _ => Err.plain_errorf _ _))

theorem aligned_readStatus : FailsWith AlignedErr (readStatus : Prog Err (Tr σ) _) := by
  apply FailsWith.bind
  . exact aligned_of_plain (FailsWith.of_progress (fun _ => progress_wrapErr _ _ progress_readInt32))
  . exact aligned_checkStatus

theorem frame_readStatus_ok : Frame (readStatus : Prog Err (Tr σ) _) () (intBytes 4 statusOK) := by
  unfold readStatus
  apply (frame_readInt32 (by decide) (by decide)).mapErr.bind_nil
  unfold checkStatus
  rw [if_pos (.inl rfl)]
  exact Frame.pure

end Tr

end H2Go
