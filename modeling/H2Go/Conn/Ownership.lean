import H2Go.Conn.Later
import H2Go.Conn.Steps

/-!
This module contains the proof that the connection has at most one owner at a time, and that every
owner gives it up exactly once, for any number of goroutines.
-/

namespace H2Go

variable {σ : Type} {α β : Type} {i : Nat}

open Conn

namespace Stmt

variable [Peer σ]

theorem neutral_closePendingOnOwnedConn (s : Nat)
    : Neutral i (closePendingOnOwnedConn s : Proc Err (Conn σ) Unit) := by
  apply (neutral_onStmt s pendingCommand).bind
  intro cmd
  cases cmd with
  | none => exact .pure ()
  | some cmd => exact (neutral_closeCommand cmd).bind (fun _ => neutral_onStmt s _)

theorem obeys_finishOperation (s : Nat)
    : Obeys i (finishOperation s (.call i) : Proc Err (Conn σ) Unit) .owning (fun _ l => l = .ended) :=
  obeys_deferred_release (neutral_closePendingOnOwnedConn s)

theorem obeys_close (s : Nat) : Obeys i (close i s : Proc Err (Conn σ) Unit) .idle Settled := by
  refine (neutral_onStmt s beginClose).andThen ?_ (fun _ => .idle _)
  intro r
  cases r with
  | none => exact Settled.idle _
  | some r =>
    obtain ⟨connected, cmd⟩ := r
    cases connected with
    | false => exact (neutral_onStmt s _ .idle).imp (fun r l hl => hl ▸ .idle r)
    | true =>
      apply obeys_tryAcquire_bind
      . refine (obeys_deferred_release ?_).imp (fun r l hl => hl ▸ .ended r)
        exact (neutral_closeCommand cmd).bind (fun _ => neutral_onStmt s _)
      . intro e
        exact (neutral_onStmt s _ .idle).imp (fun r l hl => hl ▸ .idle r)

omit [Peer σ] in
theorem obeys_beginOperation (s : Nat)
    : Obeys i (.atomic (beginOperation s (.call i) : Prog Err (Conn σ) _)) .idle
        (fun r l => (∃ cmd, r = .ok cmd ∧ l = .owning) ∨ ∃ e, r = .error e ∧ l = .idle) := by
  intro c ph htenure hl r c' hrun hnodup
  have hkeep : Tenure c.view (Function.update ph i .idle) := by
    rwa [← hl, Function.update_eq_self]
  have hready := keeps_view_onStmt s ready c (v := c.view) rfl
  unfold beginOperation at hrun
  rw [Prog.bind_run] at hrun
  cases hstmt : onStmt s ready c with
  | ok cmd c1 =>
    rw [hstmt] at hrun hready
    have htenure1 : Tenure c1.view ph := htenure.congr hready
    rw [Out.andThen_ok, Prog.bind_run] at hrun
    cases hacquire : acquire (.call i) c1 with
    | ok u c2 =>
      rw [hacquire] at hrun
      cases hrun
      obtain ⟨l', htenure', hpost⟩ :=
        obeys_acquire c1 ph htenure1 hl (.ok u) c' (by rw [hacquire]; rfl) hnodup
      rcases hpost with ⟨-, rfl⟩ | ⟨e, h, -⟩
      . exact ⟨_, htenure', .inl ⟨cmd, rfl, rfl⟩⟩
      . cases h
    | fail e c2 =>
      rw [hacquire] at hrun
      cases hrun
      obtain ⟨l', htenure', hpost⟩ :=
        obeys_acquire c1 ph htenure1 hl (.error (.err e)) c' (by rw [hacquire]; rfl) hnodup
      rcases hpost with ⟨h, -⟩ | ⟨e, -, rfl⟩
      . cases h
      . exact ⟨_, htenure', .inr ⟨_, rfl, rfl⟩⟩
    | panic why =>
      rw [hacquire] at hrun
      cases hrun
      exact ⟨.idle, hkeep, .inr ⟨_, rfl, rfl⟩⟩
    | stuck =>
      rw [hacquire] at hrun
      cases hrun
  | fail e c1 =>
    rw [hstmt] at hrun hready
    cases hrun
    exact ⟨.idle, hkeep.congr hready, .inr ⟨_, rfl, rfl⟩⟩
  | panic why =>
    rw [hstmt] at hrun
    cases hrun
    exact ⟨.idle, hkeep, .inr ⟨_, rfl, rfl⟩⟩
  | stuck =>
    rw [hstmt] at hrun
    cases hrun

omit [Peer σ] in
theorem obeys_beginOperation_bind {s : Nat} {f : PreparedCommand → Proc Err (Conn σ) β}
    {Q : Except (Stop Err) β → Phase → Prop} (hf : ∀ cmd, Obeys i (f cmd) .owning Q)
    (he : ∀ e, Q (.error e) .idle)
    : Obeys i (.atomic (beginOperation s (.call i)) >>= f) .idle Q := by
  refine Proc.Safe.bind (obeys_beginOperation s) ?_ ?_
  . rintro cmd l (⟨_, -, rfl⟩ | ⟨e, h, -⟩)
    . exact hf cmd
    . cases h
  . rintro e l (⟨_, h, -⟩ | ⟨_, -, rfl⟩)
    . cases h
    . exact he e

end Stmt

namespace Rows

variable [GoStd] [Peer σ]

def Released (r : Nat) (res : Except (Stop Err) α) (l : Phase) : Prop :=
  (∀ why, res ≠ .error (.panic why)) → l = .leaving r

omit [GoStd] in
theorem obeys_runCallback (r : Nat) (callback : RowsCallback)
    : Obeys i (runCallback r callback : Proc Err (Conn σ) Unit) (.closing r)
        (fun _ l => l = .leaving r) := by
  cases callback with
  | release => exact (obeys_releaseRows r).imp (fun _ _ h => h.2)
  | finishOperation s =>
    refine Proc.Safe.deferred (Stmt.neutral_closePendingOnOwnedConn s (.closing r)) ?_
    rintro res _ rfl
    refine (obeys_releaseRows r).imp ?_
    rintro _ _ ⟨rfl, rfl⟩
    exact ⟨⟨(), rfl⟩, rfl⟩

omit [GoStd] in
/--
Closing the rows on the server does not return an error, the errors are collected.
-/
theorem obeys_closeResult (r : Nat)
    : Obeys i (closeResult r : Proc Err (Conn σ) _) (.entered r)
        (fun res l => (∃ errs, res = .ok errs ∧ l = .closing r) ∨ ∃ why, res = .error (.panic why)) := by
  -- after the mark no step returns an error
  have hstep : ∀ {β γ : Type} {m : Prog Err (Cursor σ) β} {f : β → Proc Err (Conn σ) γ}
      {Q : Except (Stop Err) γ → Phase → Prop}, Cursor.KeepsClosed m →
      FailsWith (fun _ _ => False) m → (∀ a, Obeys i (f a) (.closing r) Q) →
      (∀ why, Q (.error (.panic why)) (.closing r)) →
      Obeys i (.atomic (onRows r m) >>= f) (.closing r) Q := by
    intro β γ m f Q hm hfail hf hpanic
    refine Proc.Safe.bind (Neutral.atomic_returns (fun _ => keeps_view_onRows r hm)
      (R := fun _ => True) (by exact Triple.trivial) (failsWith_onRows r hfail) _) ?_ ?_
    . rintro a l ⟨rfl, -⟩
      exact hf a
    . rintro (e | why) l ⟨rfl, h⟩
      . exact h.choose_spec.elim
      . exact hpanic why
  refine Proc.Safe.bind (obeys_markClosed r) ?_ ?_
  . rintro _ l (⟨-, rfl⟩ | ⟨why, h⟩)
    . apply hstep (fun closed => Keeps.bind Keeps.get (fun _ => Cursor.keepsClosed_ifAlive _ closed))
        (FailsWith.bind Cursor.failsWith_get (fun _ => Cursor.failsWith_ifAlive _))
      . intro resultErr
        apply hstep
          (fun closed => Keeps.bind Keeps.get (fun _ => Cursor.keepsClosed_closeOwnCommand _ closed))
          (FailsWith.bind Cursor.failsWith_get (fun _ => Cursor.failsWith_closeOwnCommand _))
        . intro commandErr
          have hclear : Cursor.KeepsClosed (Cursor.modifyRows Rows.clear : Prog Err (Cursor σ) Unit) :=
            Cursor.keepsClosed_modifyRows (fun _ => rfl)
          apply hstep hclear (Cursor.failsWith_modifyRows _)
          . intro _
            exact .inl ⟨_, rfl, rfl⟩
          . exact fun why => .inr ⟨why, rfl⟩
        . exact fun why => .inr ⟨why, rfl⟩
      . exact fun why => .inr ⟨why, rfl⟩
    . cases h
  . rintro e l (⟨h, -⟩ | ⟨why, h⟩)
    . cases h
    . cases h
      exact .inr ⟨why, rfl⟩

omit [GoStd] in
omit [Peer σ] in
theorem neutral_firstError (results : List (Except Err Unit))
    : Neutral i (firstError results : Proc Err (Conn σ) Unit) := by
  induction results with
  | nil => exact .pure ()
  | cons res results ih =>
    cases res with
    | error e => exact .throw e
    | ok _ => exact ih

omit [GoStd] in
theorem obeys_closeOpen (r : Nat)
    : Obeys i (closeOpen r : Proc Err (Conn σ) Unit) (.entered r) (Released r) := by
  refine Proc.Safe.bind (obeys_closeResult r) ?_ ?_
  . rintro errs l (⟨_, -, rfl⟩ | ⟨why, h⟩)
    . refine Proc.Safe.bind (obeys_closeCallback r) ?_ ?_
      . rintro callback? l ⟨callback, h, rfl⟩
        cases h
        refine Proc.Safe.bind (R := fun _ l => l = .leaving r)
          (Proc.Safe.attempt ((obeys_runCallback r callback).imp ?_)) ?_ ?_
        . rintro res _ rfl
          rcases res with (_ | _) | _ <;> rfl
        . rintro callbackErr _ rfl
          refine Proc.Safe.bind (obeys_clearCallback r) ?_ ?_
          . rintro _ _ rfl
            exact (neutral_firstError _ _).imp (fun _ _ h _ => h)
          . exact fun _ _ h _ => h
        . exact fun _ _ h _ => h
      . rintro e l ⟨callback, h, -⟩
        cases h
    . cases h
  . rintro e l (⟨errs, h, -⟩ | ⟨why, h⟩)
    . cases h
    . cases h
      exact fun hno => absurd rfl (hno why)

omit [GoStd] in
theorem obeys_close (r : Nat) {l : Phase} (hl : l = .idle ∨ l = .ended)
    : Obeys i (close r : Proc Err (Conn σ) Unit) l
        (fun res l => (∀ why, res ≠ .error (.panic why)) → l = .done r) := by
  refine Proc.Safe.bind (obeys_beginClose r hl) ?_ ?_
  . rintro closed l hpost
    refine Proc.Safe.bind
      (R := fun res l => (∃ a, res = .ok a ∧ l = .leaving r) ∨ ∃ why, res = .error (.panic why))
      (Proc.Safe.attempt ?_) ?_ ?_
    . have hbody : Obeys i (if closed then pure () else closeOpen r : Proc Err (Conn σ) Unit) l
          (Released r) := by
        rcases hpost with ⟨h, rfl⟩ | ⟨h, rfl⟩ | ⟨why, h⟩
        . cases h
          exact obeys_closeOpen r
        . cases h
          exact fun _ => rfl
        . cases h
      refine hbody.imp ?_
      intro res l hres
      rcases res with (e | why) | u
      . exact .inl ⟨_, rfl, hres (by simp)⟩
      . exact .inr ⟨why, rfl⟩
      . exact .inl ⟨_, rfl, hres (by simp)⟩
    . rintro res l (⟨_, -, rfl⟩ | ⟨why, h⟩)
      rotate_left
      . cases h
      refine Proc.Safe.bind (obeys_endClose r) ?_ ?_
      . rintro _ _ rfl
        exact (Neutral.ofExcept res _).imp (fun _ _ h _ => h)
      . exact fun _ _ h _ => h
    . rintro e l (⟨_, h, -⟩ | ⟨why, h⟩)
      . cases h
      . cases h
        exact fun hno => absurd rfl (hno why)
  . rintro e l (⟨h, -⟩ | ⟨h, -⟩ | ⟨why, h⟩)
    . cases h
    . cases h
    . cases h
      exact fun hno => absurd rfl (hno why)

theorem neutral_next (r : Nat) (dest : List Value)
    : Neutral i (next r dest : Proc Err (Conn σ) _) :=
  neutral_onRows r (Cursor.keepsClosed_next dest)

end Rows

namespace Conn

variable [Peer σ]

theorem obeys_prepareContext (ctx : Ctx) (query : GoString)
    : Obeys i (prepareContext i ctx query : Proc Err (Conn σ) _) .idle Settled := by
  refine obeys_acquire_bind ?_ (fun _ => .idle _)
  refine (obeys_deferred_release ?_).imp (fun r l hl => hl ▸ .ended r)
  exact (neutral_onSess _).bind neutral_newStmt

theorem obeys_isValid : Obeys i (isValid i : Proc Err (Conn σ) _) .idle Settled := by
  refine obeys_tryAcquire_bind ?_ (fun _ => Settled.idle _)
  refine (obeys_deferred_release ?_).imp (fun r l hl => hl ▸ .ended r)
  apply neutral_checkAttached.attempt.bind
  intro r
  cases r with
  | error e => exact .pure false
  | ok _ =>
    apply (neutral_onSessOr _ _).attempt.bind
    intro r
    cases r with
    | error e => exact .pure false
    | ok _ => exact .pure true

omit [Peer σ] in
theorem neutral_discard : Neutral i (discard : Proc Err (Conn σ) Unit) :=
  neutral_abortSess.bind (fun _ => .throw .badConn)

omit [Peer σ] in
theorem neutral_autoCommit : Neutral i (.atomic (autoCommit : Prog Err (Conn σ) Bool)) :=
  neutral_onSess _

variable [GoStd]

theorem neutral_rollbackPending (ctx : Ctx) (pending : Bool)
    : Neutral i (rollbackPending ctx pending : Proc Err (Conn σ) _) := by
  cases pending with
  | true => exact (neutral_onSessOr _ _).attempt
  | false => exact .pure _

theorem neutral_resetOwned (ctx : Ctx) : Neutral i (resetOwned ctx : Proc Err (Conn σ) Unit) := by
  apply (neutral_onSessOr _ _).attempt.bind
  intro r
  cases r with
  | error e => exact neutral_discard
  | ok pending =>
    apply (neutral_rollbackPending ctx pending).bind
    intro rolledBack
    cases rolledBack with
    | error e => exact neutral_discard
    | ok _ =>
      apply neutral_autoCommit.bind
      intro on
      cases on with
      | true => exact .pure ()
      | false =>
        apply (neutral_onSessOr _ _).attempt.bind
        intro r
        cases r with
        | error e => exact neutral_discard
        | ok _ => exact .pure ()

theorem obeys_resetSession (ctx : Ctx)
    : Obeys i (resetSession i ctx : Proc Err (Conn σ) Unit) .idle Settled := by
  refine (neutral_checkContext ctx).andThen (fun _ => ?_) (fun _ => .idle _)
  refine neutral_checkAttached.andThen (fun _ => ?_) (fun _ => .idle _)
  refine obeys_tryAcquire_bind ?_ (fun _ => Settled.idle _)
  exact (obeys_deferred_release (neutral_resetOwned ctx)).imp (fun r l hl => hl ▸ .ended r)

omit [Peer σ] [GoStd] in
theorem obeys_query_bind {query : Conn σ → Prog Err (Session σ) Rows}
    (hquery : ∀ c, Session.ReturnsOpen (query c)) {f : Except Err Rows → Proc Err (Conn σ) β}
    {Q : Except (Stop Err) β → Phase → Prop}
    (hok : ∀ rows : Rows, rows.closed = false → Obeys i (f (.ok rows)) .owning Q)
    (herr : ∀ e, Obeys i (f (.error e)) .owning Q) (hpanic : ∀ why, Q (.error (.panic why)) .owning)
    : Obeys i (Proc.attempt (.atomic (fun c => onSess (query c) c)) >>= f) .owning Q := by
  have hkeeps : ∀ v, Keeps (fun c : Conn σ => c.view = v) (fun c => onSess (query c) c) :=
    fun v c hc => keeps_view_onSess (query c) c hc
  have hret : Returns (fun c : Conn σ => onSess (query c) c) (fun rows => rows.closed = false) := by
    intro c _
    show Out.Holds True _ _ (onSess (query c) c)
    unfold onSess
    split
    . exact Out.Holds.zoom (hquery c c.sess True.intro) (fun _ _ h => h) (fun _ _ h => h)
    . trivial
  have hfail : FailsWith (fun _ _ => True) (fun c : Conn σ => onSess (query c) c) :=
    ⟨fun _ => True.intro⟩
  refine Proc.Safe.bind
    (R := fun r l => l = .owning ∧ ((∃ rows : Rows, r = .ok (.ok rows) ∧ rows.closed = false) ∨
      (∃ e, r = .ok (.error e)) ∨ ∃ why, r = .error (.panic why)))
    (Proc.Safe.attempt ((Neutral.atomic_returns hkeeps hret hfail .owning).imp ?_)) ?_ ?_
  . rintro r l ⟨rfl, hr⟩
    rcases r with (e | why) | rows
    . exact ⟨rfl, .inr (.inl ⟨e, rfl⟩)⟩
    . exact ⟨rfl, .inr (.inr ⟨why, rfl⟩)⟩
    . exact ⟨rfl, .inl ⟨rows, rfl, hr⟩⟩
  . rintro r l ⟨rfl, ⟨rows, h, hopen⟩ | ⟨e, h⟩ | ⟨why, h⟩⟩
    . cases h
      exact hok rows hopen
    . cases h
      exact herr e
    . cases h
  . rintro e l ⟨rfl, ⟨rows, h, -⟩ | ⟨e, h⟩ | ⟨why, h⟩⟩
    . cases h
    . cases h
    . cases h
      exact hpanic why

omit [Peer σ] [GoStd] in
theorem obeys_queryOwned {query : Conn σ → Prog Err (Session σ) Rows}
    (hquery : ∀ c, Session.ReturnsOpen (query c))
    : Obeys i (queryOwned i query) .owning
        (fun r l => (∃ why, r = .error (.panic why)) ∨ l = .ended) := by
  refine obeys_query_bind hquery ?_ ?_ (fun why => .inl ⟨why, rfl⟩)
  . intro rows hopen
    exact (obeys_openRows hopen .release).imp (fun _ _ h => .inr h)
  . intro e
    refine Proc.Safe.bind obeys_release ?_ ?_
    . rintro _ l ⟨-, rfl⟩
      exact .inr rfl
    . rintro e l ⟨h, -⟩
      cases h

theorem obeys_queryContextInternal (ctx : Ctx) (query : GoString)
    : Obeys i (queryContextInternal i ctx query : Proc Err (Conn σ) _) .idle
        (fun r l => (∃ why, r = .error (.panic why)) ∨ l = .ended ∨ (∃ e, r = .error (.err e)) ∧ l = .idle) := by
  refine obeys_acquire_bind ((obeys_queryOwned ?_).imp ?_) ?_
  . exact fun c => Session.returnsOpen_executeQuery _ _ _ _
  . rintro r l (h | h)
    . exact .inl h
    . exact .inr (.inl h)
  . exact fun e => .inr (.inr ⟨⟨e, rfl⟩, rfl⟩)

theorem obeys_drain (r : Nat) (dest : List Value) (fuel : Nat)
    : Obeys i (drain r dest fuel : Proc Err (Conn σ) Unit) .ended Settled := by
  have hclose : Obeys i (Rows.close r : Proc Err (Conn σ) Unit) .ended Settled :=
    (Rows.obeys_close r (.inr rfl)).imp (fun _ _ h hno => .inr (.inr ⟨r, h hno⟩))
  induction fuel generalizing dest with
  | zero =>
    intro c ph _ _ res c' hrun _
    cases hrun
  | succ fuel ih =>
    refine (Rows.neutral_next r dest).attempt.andThen ?_ (fun e => .ended _)
    intro res
    cases res with
    | ok dest => exact ih dest
    | error err =>
      show Obeys i (if err = .eof then _ else _) .ended Settled
      split
      . exact hclose
      . refine Proc.Safe.bind (R := Settled) (Proc.Safe.attempt (hclose.imp ?_)) ?_ ?_
        . intro res l hres
          rcases res with (e | why) | _
          . exact fun _ => hres (by simp)
          . exact Settled.panic why l
          . exact fun _ => hres (by simp)
        . intro res l hres
          exact fun _ => hres (by simp)
        . intro e l hres hno
          exact hres (fun why h => hno why (by cases h; rfl))

theorem obeys_ping (ctx : Ctx) (fuel : Nat)
    : Obeys i (ping i ctx fuel : Proc Err (Conn σ) Unit) .idle Settled := by
  refine Proc.Safe.bind (obeys_queryContextInternal ctx _) ?_ ?_
  . rintro r l (⟨why, h⟩ | rfl | ⟨⟨e, h⟩, -⟩)
    . cases h
    . refine Neutral.andThen (neutral_onRows r ?_) (fun n => obeys_drain r _ fuel) (fun e => .ended _)
      exact fun closed => Keeps.bind Keeps.get (fun _ => Keeps.pure _)
    . cases h
  . rintro e l (⟨why, h⟩ | rfl | ⟨-, rfl⟩)
    . cases h
      exact Settled.panic why l
    . exact Settled.ended _
    . exact Settled.idle _

variable [ParameterConverter]

theorem obeys_queryContext (ctx : Ctx) (query : GoString) (args : List NamedValue)
    : Obeys i (queryContext i ctx query args : Proc Err (Conn σ) _) .idle Settled := by
  unfold queryContext
  split
  . refine (obeys_queryContextInternal ctx query).imp ?_
    rintro r l (⟨why, rfl⟩ | rfl | ⟨-, rfl⟩)
    . exact Settled.panic why l
    . exact Settled.ended _
    . exact Settled.idle _
  . refine (Neutral.ofExcept _).andThen (fun params => ?_) (fun _ => .idle _)
    refine obeys_acquire_bind ((obeys_queryOwned ?_).imp ?_) (fun _ => .idle _)
    . exact fun c => Session.returnsOpen_executeQueryWithParams _ _ _ _ _
    . rintro r l (⟨why, rfl⟩ | rfl)
      . exact Settled.panic why l
      . exact Settled.ended _

theorem obeys_execContext (ctx : Ctx) (query : GoString) (args : List NamedValue)
    : Obeys i (execContext i ctx query args : Proc Err (Conn σ) _) .idle Settled := by
  refine (Neutral.ofExcept _).andThen (fun params => ?_) (fun _ => .idle _)
  refine obeys_acquire_bind ?_ (fun _ => .idle _)
  refine (obeys_deferred_release ?_).imp (fun r l hl => hl ▸ .ended r)
  exact (neutral_onSess _).bind (fun _ => .pure _)

end Conn

namespace Stmt

variable [Peer σ] [GoStd] [ParameterConverter]

theorem obeys_execContext (s : Nat) (ctx : Ctx) (args : List NamedValue)
    : Obeys i (execContext i s ctx args : Proc Err (Conn σ) _) .idle Settled := by
  refine (Neutral.ofExcept _).andThen (fun params => ?_) (fun _ => .idle _)
  refine (neutral_checkContext ctx).andThen (fun _ => ?_) (fun _ => .idle _)
  refine obeys_beginOperation_bind (fun cmd => ?_) (fun _ => .idle _)
  refine (neutral_onSessOr _ _).attempt_andThen (fun res => ?_) (fun why => .panic why _)
  refine Proc.Safe.bind (R := fun _ l => l = .ended)
    (Proc.Safe.attempt ((obeys_finishOperation s).imp ?_)) ?_ ?_
  . rintro r _ rfl
    rcases r with (_ | _) | _ <;> rfl
  . rintro closed _ rfl
    cases res with
    | error execErr => exact Settled.ended _
    | ok res =>
      cases closed with
      | error closeErr => exact Settled.ended _
      | ok _ => exact Settled.ended _
  . rintro e _ rfl
    exact Settled.ended _

theorem obeys_queryContext (s : Nat) (ctx : Ctx) (args : List NamedValue)
    : Obeys i (queryContext i s ctx args : Proc Err (Conn σ) _) .idle Settled := by
  refine (Neutral.ofExcept _).andThen (fun params => ?_) (fun _ => .idle _)
  refine (neutral_checkContext ctx).andThen (fun _ => ?_) (fun _ => .idle _)
  refine obeys_beginOperation_bind (fun cmd => ?_) (fun _ => .idle _)
  refine obeys_query_bind ?_ ?_ ?_ (fun why => Settled.panic why _)
  . exact fun c => Session.returnsOpen_executeQueryPreparedWithParams _ _ _ _ _
  . intro rows hopen
    exact (obeys_openRows hopen _).imp (fun r l hl => hl ▸ .ended r)
  . intro e
    refine Proc.Safe.bind (obeys_finishOperation s) ?_ ?_
    . rintro _ l rfl
      exact Settled.ended _
    . rintro e l rfl
      exact Settled.ended _

end Stmt

namespace Tx

variable [Peer σ] [GoStd]

theorem neutral_setIsolation (ctx : Ctx) (isolationSQL : GoString)
    : Neutral i (setIsolation ctx isolationSQL : Proc Err (Conn σ) Unit) := by
  unfold setIsolation
  split
  . exact .pure ()
  . apply (neutral_onSessOr _ _).attempt.bind
    intro r
    cases r with
    | ok _ => exact .pure ()
    | error err =>
      apply (neutral_onSessOr _ _).attempt.bind
      intro r
      cases r with
      | ok _ => exact .throw _
      | error restoreErr => exact .throw _

theorem neutral_beginOwned (ctx : Ctx) (isolationSQL : GoString)
    : Neutral i (beginOwned ctx isolationSQL : Proc Err (Conn σ) Unit) := by
  apply neutral_autoCommit.bind
  intro on
  cases on with
  | false => exact .throw _
  | true => exact (neutral_onSessOr _ _).bind (fun _ => neutral_setIsolation ctx isolationSQL)

theorem obeys_beginTx (ctx : Ctx) (isolation : Int) (readOnly : Bool)
    : Obeys i (beginTx i ctx isolation readOnly : Proc Err (Conn σ) _) .idle Settled := by
  refine (neutral_checkContext ctx).andThen (fun _ => ?_) (fun _ => .idle _)
  refine neutral_checkAttached.andThen (fun _ => ?_) (fun _ => .idle _)
  cases readOnly with
  | true => exact Settled.idle _
  | false =>
    refine (Neutral.ofExcept _).andThen (fun level => ?_) (fun _ => .idle _)
    refine obeys_acquire_bind ?_ (fun _ => .idle _)
    refine Proc.Safe.bind
      (R := fun r l => (r = .ok () ∧ l = .owning) ∨ (∃ e, r = .error e) ∧ l = .ended)
      (Proc.Safe.onStop (neutral_beginOwned ctx level.1 .owning) ?_ ?_) ?_ ?_
    . rintro _ l rfl
      exact .inl ⟨rfl, rfl⟩
    . rintro e l rfl
      refine obeys_release.imp ?_
      rintro _ _ ⟨rfl, rfl⟩
      exact ⟨⟨(), rfl⟩, .inr ⟨⟨e, rfl⟩, rfl⟩⟩
    . rintro _ l (⟨-, rfl⟩ | ⟨⟨e, h⟩, -⟩)
      . refine Proc.Safe.bind obeys_release ?_ ?_
        . rintro _ l ⟨-, rfl⟩
          exact (neutral_newTx level.2 .ended).imp (fun r l hl => hl ▸ .ended r)
        . rintro e l ⟨h, -⟩
          cases h
      . cases h
    . rintro e l (⟨h, -⟩ | ⟨-, rfl⟩)
      . cases h
      . exact Settled.ended _

theorem neutral_restore (restoreIsolation : Bool)
    : Neutral i (restore restoreIsolation : Proc Err (Conn σ) _) := by
  cases restoreIsolation with
  | true => exact (neutral_onSessOr _ _).attempt
  | false => exact .pure _

theorem neutral_finishOwned (t : Nat) (rollback : Bool)
    : Neutral i (finishOwned t rollback : Proc Err (Conn σ) Unit) := by
  apply (neutral_onTx t claim).bind
  intro restoreIsolation
  refine Neutral.bind ?_ ?_
  . cases rollback with
    | true => exact neutral_onSessOr _ _
    | false => exact neutral_onSessOr _ _
  . intro _
    apply (neutral_restore restoreIsolation).bind
    intro isolationErr
    apply (neutral_onSessOr _ _).attempt.bind
    intro autoCommitErr
    exact .ofExcept _

theorem obeys_finishTransaction (t : Nat) (rollback : Bool)
    : Obeys i (finishTransaction i t rollback : Proc Err (Conn σ) Unit) .idle Settled := by
  refine (neutral_onTx t checkDone).andThen (fun _ => ?_) (fun _ => .idle _)
  refine neutral_checkAttached.andThen (fun _ => ?_) (fun _ => .idle _)
  refine obeys_tryAcquire_bind ?_ ?_
  . exact (obeys_deferred_release (neutral_finishOwned t rollback)).imp (fun r l hl => hl ▸ .ended r)
  . intro err
    show Obeys i (if err.is .badConn then _ else _) .idle Settled
    split
    . exact (neutral_onTx t setDone).andThen (fun _ => Settled.idle _) (fun _ => .idle _)
    . exact Settled.idle _

end Tx

/--
What a call that has returned leaves behind. `Rows.Close` leaves rows that do not own the connection.
-/
def Call.Returned (call : Call) (r : Except (Stop Err) Unit) (l : Phase) : Prop :=
  Settled r l ∧ ∀ n, call = .rowsClose n → (∀ why, r ≠ .error (.panic why)) → l = .done n

theorem Call.obeys_code [Peer σ] [GoStd] [ParameterConverter] (call : Call) (i : Nat)
    : Obeys i (call.code i : Proc Err (Conn σ) Unit) .idle call.Returned := by
  have hcall : ∀ {p : Proc Err (Conn σ) Unit}, (∀ n, call ≠ .rowsClose n) → Obeys i p .idle Settled →
      Obeys i p .idle call.Returned := by
    intro p hne h
    exact h.imp (fun r l hr => ⟨hr, fun n hn => absurd hn (hne n)⟩)
  have hdiscard : ∀ {α : Type} {p : Proc Err (Conn σ) α}, Obeys i p .idle Settled →
      Obeys i p.discard .idle Settled := by
    intro α p h
    refine Proc.Safe.discard (h.imp ?_)
    intro r l hr hno
    apply hr
    intro why hwhy
    exact hno why (by rw [hwhy]; rfl)
  cases call with
  | rowsClose n =>
    refine (Rows.obeys_close n (.inl rfl)).imp (fun r l h => ⟨?_, ?_⟩)
    . exact fun hno => .inr (.inr ⟨n, h hno⟩)
    . rintro _ ⟨rfl⟩ hno
      exact h hno
  | prepareContext ctx query => exact hcall (by simp) (hdiscard (obeys_prepareContext ctx query))
  | queryContext ctx query args => exact hcall (by simp) (hdiscard (obeys_queryContext ctx query args))
  | execContext ctx query args => exact hcall (by simp) (hdiscard (obeys_execContext ctx query args))
  | ping ctx fuel => exact hcall (by simp) (obeys_ping ctx fuel)
  | isValid => exact hcall (by simp) (hdiscard obeys_isValid)
  | resetSession ctx => exact hcall (by simp) (obeys_resetSession ctx)
  | beginTx ctx isolation readOnly =>
    exact hcall (by simp) (hdiscard (Tx.obeys_beginTx ctx isolation readOnly))
  | commit t => exact hcall (by simp) (Tx.obeys_finishTransaction t false)
  | rollback t => exact hcall (by simp) (Tx.obeys_finishTransaction t true)
  | stmtExecContext s ctx args =>
    exact hcall (by simp) (hdiscard (Stmt.obeys_execContext s ctx args))
  | stmtQueryContext s ctx args =>
    exact hcall (by simp) (hdiscard (Stmt.obeys_queryContext s ctx args))
  | stmtClose s => exact hcall (by simp) (Stmt.obeys_close s)
  | rowsNext r dest =>
    exact hcall (by simp) (((Rows.neutral_next r dest).discard .idle).imp (fun r l h => h ▸ .idle r))
  | close => exact hcall (by simp) (obeys_close.imp (fun r l h => h ▸ .idle r))

theorem Conn.tenure_new (s : Session σ) (maxRows fetchSize : Int)
    : Tenure (Conn.new s maxRows fetchSize).view (fun _ => .idle) := by
  have hclosed : ∀ r, ¬ IsOpen [] r := by
    rintro r ⟨callback, h⟩
    simp at h
  constructor
  case ledger => constructor <;> simp [Conn.view, Conn.new, owners, gained, lost]
  case claims =>
    intro o
    cases o <;> simp [Conn.view, Conn.new, owners, Claims, Closer, hclosed]
  all_goals simp [Conn.view, Conn.new, owners, gained, Phase.Inside]

/-! The calls that fail to acquire the connection. -/

def Call.acquires (call : Call) : Bool :=
  match call with
  | .rowsNext _ _ | .rowsClose _ | .close => false
  | _ => true

def Conn.GainedBy (i : Nat) (c : Conn σ) : Prop := 0 < gained (.call i) c.log

/--
Nothing about the ownership changes until the call of thread `i` has acquired the connection.
-/
def Bystander (i : Nat) (p : Proc Err (Conn σ) α) : Prop := p.StillUntil Conn.view (Conn.GainedBy i)

namespace Conn

theorem GainedBy.later {c c' : Conn σ} (h : c.Later c') (hc : c.GainedBy i) : c'.GainedBy i :=
  lt_of_lt_of_le hc (h.log.sublist.countP_le)

theorem holds_acquire (c : Conn σ)
    : (acquire (.call i) c).Holds True (fun _ c' => c'.GainedBy i) (fun _ c' => c'.view = c.view) := by
  unfold acquire
  split
  . rfl
  . split
    . rfl
    . show 0 < gained (.call i) (c.log ++ [.acquired (.call i)])
      simp [OwnershipEvent.gives]

theorem keeps_view_checkContext {v : View} (ctx : Ctx)
    : Keeps (fun c : Conn σ => c.view = v) (checkContext ctx) := by
  intro c hc
  unfold checkContext
  split
  . exact hc
  . exact hc

theorem keeps_view_checkAttached {v : View} : Keeps (fun c : Conn σ => c.view = v) checkAttached := by
  intro c hc
  unfold checkAttached
  split
  . exact hc
  . exact hc

variable [Peer σ]

theorem bystander_prepareContext (ctx : Ctx) (query : GoString)
    : Bystander i (prepareContext i ctx query : Proc Err (Conn σ) _) :=
  .gain_bind holds_acquire

theorem bystander_isValid : Bystander i (isValid i : Proc Err (Conn σ) _) :=
  .tryGain_bind holds_acquire (fun _ => .pure _)

variable [GoStd]

theorem bystander_queryContextInternal (ctx : Ctx) (query : GoString)
    : Bystander i (queryContextInternal i ctx query : Proc Err (Conn σ) _) :=
  .gain_bind holds_acquire

theorem bystander_ping (ctx : Ctx) (fuel : Nat)
    : Bystander i (ping i ctx fuel : Proc Err (Conn σ) _) :=
  .gain_step holds_acquire (fun _ => True.intro)

theorem bystander_resetSession (ctx : Ctx)
    : Bystander i (resetSession i ctx : Proc Err (Conn σ) _) := by
  apply Proc.StillUntil.step_bind (fun _ => keeps_view_checkContext ctx)
  intro _
  apply Proc.StillUntil.step_bind (fun _ => keeps_view_checkAttached)
  intro _
  exact .tryGain_bind holds_acquire (fun _ => .throw _)

variable [ParameterConverter]

theorem bystander_queryContext (ctx : Ctx) (query : GoString) (args : List NamedValue)
    : Bystander i (queryContext i ctx query args : Proc Err (Conn σ) _) := by
  unfold queryContext
  split
  . exact bystander_queryContextInternal ctx query
  . exact .ofExcept_bind (fun _ => .gain_bind holds_acquire)

theorem bystander_execContext (ctx : Ctx) (query : GoString) (args : List NamedValue)
    : Bystander i (execContext i ctx query args : Proc Err (Conn σ) _) :=
  .ofExcept_bind (fun _ => .gain_bind holds_acquire)

end Conn

namespace Stmt

variable [Peer σ]

omit [Peer σ] in
theorem holds_beginOperation (s : Nat) (c : Conn σ)
    : (beginOperation s (.call i) c).Holds True (fun _ c' => c'.GainedBy i)
        (fun _ c' => c'.view = c.view) := by
  have hready := keeps_view_onStmt s ready c (v := c.view) rfl
  unfold beginOperation
  rw [Prog.bind_run]
  cases hstmt : onStmt s ready c with
  | ok cmd c1 =>
    rw [hstmt] at hready
    have hacquire := holds_acquire (i := i) c1
    rw [Out.andThen_ok, Prog.bind_run]
    cases hrun : acquire (.call i) c1 with
    | ok =>
      rw [hrun] at hacquire
      exact hacquire
    | fail =>
      rw [hrun] at hacquire
      exact hacquire.trans hready
    | panic | stuck => trivial
  | fail e c1 =>
    rw [hstmt] at hready
    exact hready
  | panic | stuck => trivial

theorem bystander_close (s : Nat) : Bystander i (close i s : Proc Err (Conn σ) _) := by
  apply Proc.StillUntil.step_bind (fun _ => keeps_view_onStmt s _)
  rintro (_ | ⟨connected, cmd⟩)
  . exact .pure ()
  . cases connected with
    | false => exact .atomic (fun _ => keeps_view_onStmt s _)
    | true =>
      -- a statement that cannot be closed now only remembers it
      exact .tryGain_bind holds_acquire (fun _ => .atomic (fun _ => keeps_view_onStmt s _))

variable [GoStd] [ParameterConverter]

theorem bystander_execContext (s : Nat) (ctx : Ctx) (args : List NamedValue)
    : Bystander i (execContext i s ctx args : Proc Err (Conn σ) _) :=
  .ofExcept_bind (fun _ => .step_bind (fun _ => keeps_view_checkContext ctx)
    (fun _ => .gain_bind (holds_beginOperation s)))

theorem bystander_queryContext (s : Nat) (ctx : Ctx) (args : List NamedValue)
    : Bystander i (queryContext i s ctx args : Proc Err (Conn σ) _) :=
  .ofExcept_bind (fun _ => .step_bind (fun _ => keeps_view_checkContext ctx)
    (fun _ => .gain_bind (holds_beginOperation s)))

end Stmt

namespace Tx

variable [Peer σ] [GoStd]

theorem bystander_beginTx (ctx : Ctx) (isolation : Int) (readOnly : Bool)
    : Bystander i (beginTx i ctx isolation readOnly : Proc Err (Conn σ) _) := by
  apply Proc.StillUntil.step_bind (fun _ => keeps_view_checkContext ctx)
  intro _
  apply Proc.StillUntil.step_bind (fun _ => keeps_view_checkAttached)
  intro _
  split
  . exact .throw _
  . exact .ofExcept_bind (fun _ => .gain_bind holds_acquire)

theorem bystander_finishTransaction (t : Nat) (rollback : Bool)
    : Bystander i (finishTransaction i t rollback : Proc Err (Conn σ) _) := by
  apply Proc.StillUntil.step_bind (fun _ => keeps_view_onTx t _)
  intro _
  apply Proc.StillUntil.step_bind (fun _ => keeps_view_checkAttached)
  intro _
  apply Proc.StillUntil.tryGain_bind holds_acquire
  intro err
  dsimp only
  split
  . exact .step_bind (fun _ => keeps_view_onTx t _) (fun _ => .throw _)
  . exact .throw _

end Tx

theorem Call.bystander_code [Peer σ] [GoStd] [ParameterConverter] (call : Call) (i : Nat)
    (h : call.acquires = true)
    : Bystander i (call.code i : Proc Err (Conn σ) Unit) := by
  cases call with
  | prepareContext ctx query => exact (Conn.bystander_prepareContext ctx query).discard
  | queryContext ctx query args => exact (Conn.bystander_queryContext ctx query args).discard
  | execContext ctx query args => exact (Conn.bystander_execContext ctx query args).discard
  | ping ctx fuel => exact Conn.bystander_ping ctx fuel
  | isValid => exact Conn.bystander_isValid.discard
  | resetSession ctx => exact Conn.bystander_resetSession ctx
  | beginTx ctx isolation readOnly => exact (Tx.bystander_beginTx ctx isolation readOnly).discard
  | commit t => exact Tx.bystander_finishTransaction t false
  | rollback t => exact Tx.bystander_finishTransaction t true
  | stmtExecContext s ctx args => exact (Stmt.bystander_execContext s ctx args).discard
  | stmtQueryContext s ctx args => exact (Stmt.bystander_queryContext s ctx args).discard
  | stmtClose s => exact Stmt.bystander_close s
  | rowsNext | rowsClose | close => cases h

/--
The connection belongs to at most one call or rows, and `busy` says whether it belongs to someone.
Everyone becomes an owner at most once and gives the connection up exactly once: a call before it
returns, a query to the rows it opens, and rows when they are closed for the first time. A call that
does not acquire the connection leaves everything about the ownership as it is.
-/
structure Ownership [Peer σ] [GoStd] [ParameterConverter] (t : Threads Call Err (Conn σ)) : Prop where
  one_owner : (owners t.state.log).length ≤ 1
  busy_iff : t.state.attached = true → (t.state.busy = true ↔ owners t.state.log ≠ [])
  gained_once : ∀ o, gained o t.state.log ≤ 1
  given_up : ∀ o, gained o t.state.log = lost o t.state.log + if o ∈ owners t.state.log then 1 else 0
  rows_own : ∀ n o, t.state.rows[n]? = some o → o.rows.closed = false → .rows n ∈ owners t.state.log
  call_over : ∀ i call r, t.procs i = some (call, .ret r) → (∀ why, r ≠ .error (.panic why)) →
    .call i ∉ owners t.state.log
  rows_over : ∀ i n r, t.procs i = some (.rowsClose n, .ret r) → (∀ why, r ≠ .error (.panic why)) →
    .rows n ∉ owners t.state.log
  not_acquired : ∀ i call p t', t.procs i = some (call, p) → call.acquires = true →
    t.next Call.code (.act i) = some t' → gained (.call i) t'.state.log = 0 →
      t'.state.view = t.state.view

theorem isOpen_view {c : Conn σ} {n : Nat} {o : OpenRows} (h : c.rows[n]? = some o)
    (hopen : o.rows.closed = false)
    : IsOpen c.view.rows n := by
  refine ⟨o.callback, ?_⟩
  simp [Conn.view, h, hopen]

/--
The replies to `SESSION_PREPARE` and `COMMAND_EXECUTE_QUERY` for a query without columns and rows.
-/
def emptyResult : List UInt8 :=
  [0, 0, 0, 1, 1, 1, 0, 0, 0, 0] ++ [0, 0, 0, 1, 0, 0, 0, 0, 0, 0, 0, 0, 0, 0, 0, 0]

/--
A query, a call that finds the connection taken, and the first steps of closing the rows of the query.
-/
def queryAndClose : List (Threads.Move Call) :=
  [.call 0 (.queryContext .background [] []), .act 0, .act 0, .act 0, .call 1 .isValid, .act 1,
    .call 2 (.rowsClose 0), .act 2]

section

open StandIn

end

/--
Two goroutines close the rows of one query. Both find them open, and the second releases a connection
that a third has acquired in the meantime.
-/
def overlappingCloses : List (Threads.Move Call) :=
  [.call 0 (.queryContext .background [] []), .act 0, .act 0, .act 0,
    .call 1 (.rowsClose 0), .act 1, .call 2 (.rowsClose 0), .act 2,
    .act 1, .act 1, .act 1, .act 1, .act 1, .act 2, .act 2, .act 2, .act 2, .act 2,
    .act 1, .call 3 .isValid, .act 3, .act 2, .call 4 .isValid, .act 4]

end H2Go
