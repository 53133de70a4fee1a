import H2Go.Transfer.Cut

/-!
This module contains replies that start with a status: the readers of such replies, and the three
ways one of them can end.
-/

namespace H2Go

open BigEndian

variable {σ : Type} {α β : Type}

namespace Tr

/--
The bytes `b` are the status of a failed request with the frame of the error `h`.
-/
def ErrorReply (σ : Type) (h : H2Error) (b : List UInt8) : Prop :=
  ∃ b', b = intBytes 4 statusError ++ b' ∧ Frame (readH2ErrorFrame : Prog Err (Tr σ) _) h b'

theorem readH2Error_of_frame {t : Tr σ} {h : H2Error} {b rest : List UInt8}
    (hframe : Frame (readH2ErrorFrame : Prog Err (Tr σ) _) h b) (hinp : t.inp = b ++ rest)
    : (readH2Error : Prog Err (Tr σ) α) t = .fail (.h2 h) (Input.move b rest t) := by
  rw [readH2Error_run, hframe.exact t rest hinp]

theorem frame_of_readH2Error {t t' : Tr σ} {e : Err} {h : H2Error}
    (hrun : (readH2Error : Prog Err (Tr σ) α) t = .fail e t') (he : e.asH2 = some h)
    : e = .h2 h ∧ ∃ b, Frame (readH2ErrorFrame : Prog Err (Tr σ) _) h b ∧ t.inp = b ++ t'.inp := by
  rw [readH2Error_run] at hrun
  split at hrun
  . next h' t1 hread =>
    cases hrun
    cases he
    obtain ⟨b, rest, hinp, rfl, hframe⟩ := LawfulReader.ok_run hread
    exact ⟨rfl, b, hframe, hinp⟩
  . next hread =>
    cases hrun
    have hplain : FailsPlain (readH2ErrorFrame : Prog Err (Tr σ) _) :=
      FailsWith.of_progress (fun _ => progress_readH2ErrorFrame)
    rw [(hplain.of_run hread).1] at he
    cases he
  . cases hrun
  . cases hrun

theorem progress_readStatus {N : Nat}
    : Progress N (readStatus : Prog Err (Tr σ) _) 0 (fun _ => True) (fun _ => True) := by
  apply Progress.seq ((progress_wrapErr _ _ progress_readInt32).weaken (Nat.le_refl _)
    (fun _ h => h) (fun _ _ => True.intro))
  intro status _
  apply Progress.ite (fun _ => Progress.pure True.intro)
  intro _
  apply Progress.ite (fun _ => progress_readH2Error)
  intro _
  exact Progress.ite (fun _ => Progress.throw True.intro) (fun _ => Progress.throw True.intro)

theorem readStatus_error {t : Tr σ} {h : H2Error} {b rest : List UInt8} (hreply : ErrorReply σ h b)
    (hinp : t.inp = b ++ rest)
    : readStatus t = .fail (.h2 h) (Input.move b rest t) := by
  obtain ⟨b', rfl, hframe⟩ := hreply
  have hstatus : Frame (wrapErr "h2go: read status: %w" [] readInt32 : Prog Err (Tr σ) _)
      statusError (intBytes 4 statusError) := (frame_readInt32 (by decide) (by decide)).mapErr
  rw [List.append_assoc] at hinp
  unfold readStatus
  rw [Prog.bind_of_ok (hstatus.exact t _ hinp)]
  unfold checkStatus
  rw [if_neg (by decide), if_pos rfl, readH2Error_of_frame hframe rfl, Input.move_move]

theorem errorReply_of_readStatus {t t' : Tr σ} {e : Err} {h : H2Error}
    (hrun : readStatus t = .fail e t') (he : e.asH2 = some h)
    : e = .h2 h ∧ ∃ b, ErrorReply σ h b ∧ t.inp = b ++ t'.inp := by
  unfold readStatus at hrun
  rcases Prog.bind_eq_fail hrun with hfail | ⟨status, t1, hstatus, hrun⟩
  . have hint : FailsPlain (wrapErr "h2go: read status: %w" [] readInt32 : Prog Err (Tr σ) _) :=
      FailsWith.of_progress (fun _ => progress_wrapErr _ _ progress_readInt32)
    exact absurd he ((hint.of_run hfail).asH2_ne h)
  obtain ⟨t2, hint, rfl⟩ := Out.map_eq_ok hstatus
  obtain ⟨hinp, -⟩ := inp_of_beInt hint
  unfold checkStatus at hrun
  split at hrun
  . cases hrun
  split at hrun
  . next hstatus =>
    obtain ⟨rfl, b, hframe, hinp'⟩ := frame_of_readH2Error hrun he
    refine ⟨rfl, _, ⟨b, rfl, hframe⟩, ?_⟩
    rw [hinp, hstatus, List.append_assoc]
    exact congrArg _ hinp'
  split at hrun
  . cases hrun
    exact absurd he (Err.Plain.asH2_ne (.wrap _ ⟨rfl, rfl⟩) h)
  . cases hrun
    exact absurd he ((Err.plain_errorf _ _).asH2_ne h)

end Tr

/--
A reader of replies. The only error of the server it returns is the one in place of the reply, and it
has read the frame of that error to its end.
-/
structure StatusReader (m : Prog Err (Tr σ) α) : Prop where
  cut : Tr.CutReader m
  ends : ∀ t, (m t).Ends
  error : ∀ {t : Tr σ} {h : H2Error} {b rest : List UInt8}, Tr.ErrorReply σ h b →
    t.inp = b ++ rest → m t = .fail (.h2 h) (Input.move b rest t)
  error_of : ∀ {t t' : Tr σ} {e : Err} {h : H2Error}, m t = .fail e t' → e.asH2 = some h →
    e = .h2 h ∧ ∃ b, Tr.ErrorReply σ h b ∧ t.inp = b ++ t'.inp

namespace StatusReader

theorem lawful {m : Prog Err (Tr σ) α} (hm : StatusReader m) : LawfulReader m := hm.cut.toLawfulReader

theorem readStatus (fn : String)
    : StatusReader (Prog.mapErr (wrapError fn) Tr.readStatus : Prog Err (Tr σ) Unit) where
  cut := inferInstance
  ends t := (Progress.mapErr (g := wrapError fn) (E := fun _ => True) Tr.progress_readStatus).ends
  error hreply hinp := by
    rw [Prog.mapErr_run, Tr.readStatus_error hreply hinp]
    rfl
  error_of hrun he := by
    obtain ⟨e', t1, hfail, rfl, rfl⟩ := Out.map_eq_fail hrun
    rw [asH2_wrapError] at he
    obtain ⟨rfl, hreply⟩ := Tr.errorReply_of_readStatus hfail he
    exact ⟨rfl, hreply⟩

theorem bind {m : Prog Err (Tr σ) α} (hm : StatusReader m) {f : α → Prog Err (Tr σ) β}
    [∀ a, Tr.CutReader (f a)]
    (hf : ∀ a N, Progress N (f a) 0 (fun _ => True) Err.Plain)
    : StatusReader (m >>= f) where
  cut := by
    have := hm.cut
    infer_instance
  ends t := by
    have hends := hm.ends t
    rw [Prog.bind_run]
    cases hrun : m t with
    | ok a t' => exact (hf a _).ends
    | fail e t' => trivial
    | panic | stuck =>
      rw [hrun] at hends
      exact hends
  error hreply hinp := Prog.bind_of_fail (hm.error hreply hinp) f
  error_of {t t' e h} hrun he := by
    rcases Prog.bind_eq_fail hrun with hfail | ⟨a, t1, -, hfail⟩
    . exact hm.error_of hfail he
    . have hplain : FailsPlain (f a) := FailsWith.of_progress (fun _ => hf a _)
      rw [(hplain.of_run hfail).1] at he
      cases he

theorem cases {m : Prog Err (Tr σ) α} (hm : StatusReader m) (t : Tr σ)
    : (∃ a b rest, t.inp = b ++ rest ∧ Frame m a b ∧ m t = .ok a (Input.move b rest t)) ∨
      (∃ h b rest, t.inp = b ++ rest ∧ Tr.ErrorReply σ h b ∧
        m t = .fail (.h2 h) (Input.move b rest t)) ∨
      (∃ e t', m t = .fail e t' ∧ e.asH2 = none) := by
  have := hm.lawful
  have hends := hm.ends t
  cases hrun : m t with
  | ok a t' =>
    obtain ⟨b, rest, hinp, rfl, hframe⟩ := LawfulReader.ok_run hrun
    exact .inl ⟨a, b, rest, hinp, hframe, rfl⟩
  | fail e t' =>
    cases he : e.asH2 with
    | none => exact .inr (.inr ⟨e, t', rfl, he⟩)
    | some h =>
      obtain ⟨rfl, b, hreply, hinp⟩ := hm.error_of hrun he
      refine .inr (.inl ⟨h, b, t'.inp, hinp, hreply, ?_⟩)
      rw [← hrun, hm.error hreply hinp]
  | panic | stuck =>
    rw [hrun] at hends
    exact hends.elim

end StatusReader

end H2Go
