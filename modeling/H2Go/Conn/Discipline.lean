import H2Go.Conn.Handles

/-!
This module contains the calls of the interface one after the other: whatever the server answers, every
command and result is created once, used only while it exists and closed at most once.
-/

namespace H2Go

variable {σ : Type} {α : Type}

namespace Conn

variable {n n' : Int} {hs : List Handle}

theorem tidy_mono {P : Conn (Recorder σ) → Prop} {m : Prog Err (Conn (Recorder σ)) α}
    (h : Triple True P m (fun _ => Tidy n hs) (fun _ => Tidy n hs)) (hn : n ≤ n')
    : Triple True P m (fun _ => Tidy n' hs) (fun _ => Tidy n' hs) :=
  h.weaken (fun _ hc => hc) (fun _ _ hc => hc.mono hn) (fun _ _ hc => hc.mono hn)

theorem tidy_step {m : Prog Err (Conn (Recorder σ)) α} (h : Keeps (Tidy n hs) m) (hn : n ≤ n')
    : Triple True (Tidy n hs) (Proc.atomic m).run (fun _ => Tidy n hs) (fun _ => Tidy n' hs) :=
  Proc.triple_atomic (h.weaken (fun _ hc => hc) (fun _ _ hc => hc) (fun _ _ hc => hc.mono hn))

theorem tidy_acquired {P : Conn (Recorder σ) → Prop} (o : Owner)
    (hp : ∀ c busy log, P c → P { c with busy, log }) {p : Proc Err (Conn (Recorder σ)) α}
    (htidy : ∀ c, P c → c.Tidy n []) (hn : n ≤ n')
    (h : Triple True P p.run (fun _ => Tidy n' []) (fun _ => Tidy n' []))
    : Triple True P (do
        .atomic (acquire o)
        p : Proc Err (Conn (Recorder σ)) α).run (fun _ => Tidy n' []) (fun _ => Tidy n' []) := by
  apply Proc.triple_bind (R := fun _ => P)
  . apply Proc.triple_atomic
    exact (keeps_acquire hp o).weaken (fun _ hc => hc) (fun _ _ hc => hc)
      (fun _ c hc => (htidy c hc).mono hn)
  . exact fun _ => h

variable [Peer σ]

theorem tidy_prepareContext (me : Nat) (ctx : Ctx) (query : GoString) (hn : n + 1 < 2 ^ 31)
    : Triple True (Tidy n []) (prepareContext (σ := Recorder σ) me ctx query).run
        (fun _ => Tidy (n + 1) []) (fun _ => Tidy (n + 1) []) := by
  apply tidy_acquired _ (fun _ _ _ hc => hc.congr rfl rfl) (fun _ hc => hc) (by omega)
  apply tidy_deferred
  apply Proc.triple_bind (R := fun cmd => Tidy (n + 1) [.command cmd.id])
  . exact Proc.triple_atomic
      (tidy_onSess (fun _ => Session.holding_prepareCommandReadParams ctx query hn))
  . exact fun cmd => Proc.triple_atomic (tidy_newStmt cmd).of_succeeds

theorem tidy_hasPendingTransaction (err : Err) (ctx : Ctx)
    : Keeps (Tidy n []) (onSessOr (σ := Recorder σ) err (Session.hasPendingTransaction ctx)) :=
  tidy_onSessOr err (fun _ => Session.holding_hasPendingTransaction ctx) (Int.le_refl n)

theorem tidy_isValid (me : Nat) : Keeps (Tidy n []) (isValid (σ := Recorder σ) me).run := by
  apply Proc.triple_bind (Proc.triple_tried (Proc.triple_atomic (tidy_acquire _)))
  intro r
  cases r with
  | error => exact Proc.triple_pure (fun _ hc => hc)
  | ok =>
    apply tidy_deferred
    apply Proc.triple_bind (Proc.triple_tried (Proc.triple_atomic tidy_checkAttached))
    intro r
    cases r with
    | error => exact Proc.triple_pure (fun _ hc => hc)
    | ok =>
      apply Proc.triple_bind
        (Proc.triple_tried (Proc.triple_atomic (tidy_hasPendingTransaction _ _)))
      intro r
      cases r with
      | error => exact Proc.triple_pure (fun _ hc => hc)
      | ok => exact Proc.triple_pure (fun _ hc => hc)

omit [Peer σ] in
theorem tidy_discard : Keeps (Tidy n []) (discard (σ := Recorder σ)).run :=
  Proc.triple_bind (Proc.triple_atomic tidy_abortSess) (fun _ => Proc.triple_throw (fun _ hc => hc))

omit [Peer σ] in
theorem tidy_autoCommit : Keeps (Tidy n []) (autoCommit (σ := Recorder σ)) :=
  tidy_onSess (fun _ _ hs => hs)

theorem tidy_setAutoCommit (ctx : Ctx) (on : Bool)
    : Keeps (Tidy n []) (setAutoCommit (σ := Recorder σ) ctx on) :=
  tidy_onSessOr _ (fun _ => Session.holding_setAutoCommit ctx on) (Int.le_refl n)

theorem tidy_commitCurrentTransaction (ctx : Ctx)
    : Keeps (Tidy n []) (commitCurrentTransaction (σ := Recorder σ) ctx) :=
  tidy_onSessOr _ (fun _ => Session.holding_commitCurrentTransaction ctx) (Int.le_refl n)

variable [GoStd]

theorem tidy_rollbackCurrentTransaction (ctx : Ctx) (hn : n + 1 < 2 ^ 31)
    : Triple True (Tidy n []) (rollbackCurrentTransaction (σ := Recorder σ) ctx)
        (fun _ => Tidy (n + 1) []) (fun _ => Tidy (n + 1) []) :=
  tidy_onSessOr _ (fun _ => Session.holding_rollbackCurrentTransaction ctx hn) (by omega)

theorem tidy_setTransactionIsolation (ctx : Ctx) (sqlLevel : GoString) (hn : n + 1 < 2 ^ 31)
    : Triple True (Tidy n []) (setTransactionIsolation (σ := Recorder σ) ctx sqlLevel)
        (fun _ => Tidy (n + 1) []) (fun _ => Tidy (n + 1) []) :=
  tidy_onSessOr _ (fun _ => Session.holding_setTransactionIsolation ctx sqlLevel hn) (by omega)

theorem tidy_rollbackPending (ctx : Ctx) (pending : Bool) (hn : n + 1 < 2 ^ 31)
    : Triple True (Tidy n []) (rollbackPending (σ := Recorder σ) ctx pending).run
        (fun _ => Tidy (n + 1) []) (fun _ => Tidy (n + 1) []) := by
  cases pending with
  | true =>
    exact Proc.triple_tried (Proc.triple_atomic (tidy_rollbackCurrentTransaction ctx hn))
  | false => exact Proc.triple_pure (fun _ hc => hc.mono (by omega))

theorem tidy_resetOwned (ctx : Ctx) (hn : n + 1 < 2 ^ 31)
    : Triple True (Tidy n []) (resetOwned (σ := Recorder σ) ctx).run
        (fun _ => Tidy (n + 1) []) (fun _ => Tidy (n + 1) []) := by
  apply Proc.triple_bind (Proc.triple_tried (Proc.triple_atomic (tidy_hasPendingTransaction _ ctx)))
  intro r
  cases r with
  | error => exact tidy_mono tidy_discard (by omega)
  | ok pending =>
    apply Proc.triple_bind (tidy_rollbackPending ctx pending hn)
    intro r
    cases r with
    | error => exact tidy_discard
    | ok =>
      apply Proc.triple_bind (Proc.triple_atomic tidy_autoCommit)
      intro on
      cases on with
      | true => exact Proc.triple_pure (fun _ hc => hc)
      | false =>
        apply Proc.triple_bind
          (Proc.triple_tried (Proc.triple_atomic (tidy_setAutoCommit ctx true)))
        intro r
        cases r with
        | error => exact tidy_discard
        | ok => exact Proc.triple_pure (fun _ hc => hc)

theorem tidy_resetSession (me : Nat) (ctx : Ctx) (hn : n + 1 < 2 ^ 31)
    : Triple True (Tidy n []) (resetSession (σ := Recorder σ) me ctx).run
        (fun _ => Tidy (n + 1) []) (fun _ => Tidy (n + 1) []) := by
  apply Proc.triple_bind (tidy_step (tidy_checkContext ctx) (by omega))
  intro _
  apply Proc.triple_bind (tidy_step tidy_checkAttached (by omega))
  intro _
  apply Proc.triple_bind (Proc.triple_tried (Proc.triple_atomic (tidy_acquire _)))
  intro r
  cases r with
  | error => exact Proc.triple_throw (fun _ hc => hc.mono (by omega))
  | ok => exact tidy_deferred _ (tidy_resetOwned ctx hn)

theorem tidy_close (hn : n + 1 < 2 ^ 31)
    : Triple True (Tidy n []) (close (σ := Recorder σ)) (fun _ => Tidy (n + 1) [])
        (fun _ => Tidy (n + 1) []) := by
  have hdetach : ∀ c : Conn (Recorder σ), c.Tidy (n + 1) [] → c.detach.Tidy (n + 1) [] :=
    fun _ hc => hc.congr rfl rfl
  apply Triple.get_then
  intro c
  apply Triple.ite
  . exact fun _ => Triple.pure (fun _ hc => hc.mono (by omega))
  . intro _
    apply Triple.ite
    . exact fun _ => Triple.modify (fun c hc => hdetach c (hc.mono (by omega)))
    . intro _
      apply Triple.bind (R := fun _ => Tidy (n + 1) [])
      . intro c hc
        unfold rollbackOpen
        split
        . exact hc.mono (by omega)
        . exact Triple.tried
            (tidy_onSess (fun _ => Session.holding_rollbackCurrentTransaction _ hn)) c hc
      . intro _
        apply Triple.bind (R := fun _ => Tidy (n + 1) [])
        . exact Triple.tried (tidy_onSess (fun _ => Session.holding_close))
        . intro r
          apply Triple.bind (R := fun _ => Tidy (n + 1) []) (Triple.modify hdetach)
          intro _
          cases r with
          | ok => exact Triple.pure (fun _ hc => hc)
          | error => exact Triple.throw (fun _ hc => hc)

omit [Peer σ] [GoStd] in
theorem tidy_queryOwned (me : Nat) {P : Conn (Recorder σ) → Prop}
    {query : Conn (Recorder σ) → Prog Err (Session (Recorder σ)) Rows}
    (h : ∀ c, P c → (query c c.sess).Holds True
      (fun rows => Session.Holding n (rows.handles ++ c.handles)) (fun _ => Session.Holding n c.handles))
    : Triple True P (queryOwned me query).run (fun _ => Tidy n []) (fun _ => Tidy n []) := by
  apply Proc.triple_bind
  . apply Proc.triple_attempt (Q := fun rows => Tidy n rows.handles) (F := fun _ => Tidy n [])
    apply Proc.triple_atomic
    exact fun c hc => holds_onSess (h c hc)
  . intro r
    cases r with
    | error =>
      apply Proc.triple_bind (Proc.triple_atomic (tidy_release _).of_succeeds)
      exact fun _ => Proc.triple_throw (fun _ hc => hc)
    | ok rows => exact Proc.triple_atomic (tidy_openRows _ rows _).of_succeeds

theorem tidy_queryContextInternal (me : Nat) (ctx : Ctx) (query : GoString) (hn : n + 2 < 2 ^ 31)
    : Triple True (Tidy n []) (queryContextInternal (σ := Recorder σ) me ctx query).run
        (fun _ => Tidy (n + 2) []) (fun _ => Tidy (n + 2) []) := by
  apply tidy_acquired _ (fun _ _ _ hc => hc.congr rfl rfl) (fun _ hc => hc) (by omega)
  apply tidy_queryOwned
  exact fun c hc => Session.holding_executeQuery ctx query _ _ hn c.sess hc

theorem tidy_drain (r : Nat) (dest : List Value) (fuel : Nat) (hn : n < 2 ^ 31)
    : Keeps (Tidy n []) (drain (σ := Recorder σ) r dest fuel).run := by
  induction fuel generalizing dest with
  | zero => exact Proc.triple_atomic (fun _ _ => True.intro)
  | succ fuel ih =>
    apply Proc.triple_bind (Proc.triple_tried (Rows.tidy_next r dest hn))
    intro res
    cases res with
    | ok dest => exact ih dest
    | error err =>
      dsimp only
      split
      . exact Rows.tidy_close r hn
      . apply Proc.triple_bind (Proc.triple_tried (Rows.tidy_close r hn))
        exact fun _ => Proc.triple_throw (fun _ hc => hc)

theorem tidy_ping (me : Nat) (ctx : Ctx) (fuel : Nat) (hn : n + 2 < 2 ^ 31)
    : Triple True (Tidy n []) (ping (σ := Recorder σ) me ctx fuel).run (fun _ => Tidy (n + 2) [])
        (fun _ => Tidy (n + 2) []) := by
  apply Proc.triple_bind (tidy_queryContextInternal me ctx _ hn)
  intro r
  apply Proc.triple_bind (R := fun _ => Tidy (n + 2) [])
  . apply Proc.triple_atomic
    intro c hc
    unfold Rows.columnsLen onRows
    split
    . next o ho => exact hc.setRows ho rfl
    . trivial
  . exact fun _ => tidy_drain r _ fuel (by omega)

variable [ParameterConverter]

/--
The arguments of the call can be encoded for the command that the server makes of the query.
-/
def Accepts (ctx : Ctx) (query : GoString) (args : List NamedValue) (c : Conn σ) : Prop :=
  ∀ params, convertNamedValues 0 args = .ok params → c.sess.Accepts ctx query params

theorem tidy_queryContext (me : Nat) (ctx : Ctx) (query : GoString) (args : List NamedValue)
    (hn : n + 2 < 2 ^ 31)
    : Triple True (fun c => c.Tidy n [] ∧ c.Accepts ctx query args)
        (queryContext (σ := Recorder σ) me ctx query args).run (fun _ => Tidy (n + 2) [])
        (fun _ => Tidy (n + 2) []) := by
  unfold queryContext
  split
  . exact (tidy_queryContextInternal me ctx query hn).pre (fun _ hc => hc.1)
  . apply Proc.triple_bind (R := fun params c => c.Tidy n [] ∧ c.sess.Accepts ctx query params)
    . apply Proc.triple_ofExcept
      . exact fun params hparams c hc => ⟨hc.1, hc.2 params hparams⟩
      . exact fun _ _ _ hc => hc.1.mono (by omega)
    . intro params
      apply tidy_acquired _ (fun _ _ _ hc => ⟨hc.1.congr rfl rfl, hc.2⟩) (fun _ hc => hc.1) (by omega)
      apply tidy_queryOwned
      exact fun c hc => Session.holding_executeQueryWithParams ctx query _ _ params hn c.sess hc

theorem tidy_execContext (me : Nat) (ctx : Ctx) (query : GoString) (args : List NamedValue)
    (hn : n + 1 < 2 ^ 31)
    : Triple True (fun c => c.Tidy n [] ∧ c.Accepts ctx query args)
        (execContext (σ := Recorder σ) me ctx query args).run (fun _ => Tidy (n + 1) [])
        (fun _ => Tidy (n + 1) []) := by
  apply Proc.triple_bind (R := fun params c => c.Tidy n [] ∧ c.sess.Accepts ctx query params)
  . apply Proc.triple_ofExcept
    . exact fun params hparams c hc => ⟨hc.1, hc.2 params hparams⟩
    . exact fun _ _ _ hc => hc.1.mono (by omega)
  . intro params
    apply tidy_acquired _ (fun _ _ _ hc => ⟨hc.1.congr rfl rfl, hc.2⟩) (fun _ hc => hc.1) (by omega)
    apply tidy_deferred
    apply Proc.triple_bind (R := fun _ => Tidy (n + 1) [])
    . apply Proc.triple_atomic
      rintro c ⟨hc, haccepts⟩
      apply holds_onSess
      split
      . exact Session.holding_executeUpdate ctx query hn c.sess hc
      . exact Session.holding_executeUpdateWithParams ctx query params hn c.sess ⟨hc, haccepts⟩
    . exact fun _ => Proc.triple_pure (fun _ hc => hc)

end Conn

namespace Tx

variable [Peer σ] [GoStd] {n n' : Int}

open Conn (Tidy)

theorem tidy_setIsolation (ctx : Ctx) (isolationSQL : GoString) (hn : n + 1 < 2 ^ 31)
    : Triple True (Tidy n []) (setIsolation (σ := Recorder σ) ctx isolationSQL).run
        (fun _ => Tidy (n + 1) []) (fun _ => Tidy (n + 1) []) := by
  unfold setIsolation
  split
  . exact Proc.triple_pure (fun _ hc => hc.mono (by omega))
  . apply Proc.triple_bind
      (Proc.triple_tried (Proc.triple_atomic (Conn.tidy_setTransactionIsolation ctx _ hn)))
    intro r
    cases r with
    | ok => exact Proc.triple_pure (fun _ hc => hc)
    | error =>
      apply Proc.triple_bind
        (Proc.triple_tried (Proc.triple_atomic (Conn.tidy_setAutoCommit _ true)))
      intro r
      cases r with
      | ok => exact Proc.triple_throw (fun _ hc => hc)
      | error => exact Proc.triple_throw (fun _ hc => hc)

theorem tidy_beginOwned (ctx : Ctx) (isolationSQL : GoString) (hn : n + 1 < 2 ^ 31)
    : Triple True (Tidy n []) (beginOwned (σ := Recorder σ) ctx isolationSQL).run
        (fun _ => Tidy (n + 1) []) (fun _ => Tidy (n + 1) []) := by
  apply Proc.triple_bind (Conn.tidy_step Conn.tidy_autoCommit (by omega))
  intro on
  cases on with
  | false => exact Proc.triple_throw (fun _ hc => hc.mono (by omega))
  | true =>
    apply Proc.triple_bind (Conn.tidy_step (Conn.tidy_setAutoCommit ctx false) (by omega))
    exact fun _ => tidy_setIsolation ctx isolationSQL hn

theorem tidy_beginTx (me : Nat) (ctx : Ctx) (isolation : Int) (readOnly : Bool) (hn : n + 1 < 2 ^ 31)
    : Triple True (Tidy n []) (beginTx (σ := Recorder σ) me ctx isolation readOnly).run
        (fun _ => Tidy (n + 1) []) (fun _ => Tidy (n + 1) []) := by
  apply Proc.triple_bind (Conn.tidy_step (Conn.tidy_checkContext ctx) (by omega))
  intro _
  apply Proc.triple_bind (Conn.tidy_step Conn.tidy_checkAttached (by omega))
  intro _
  split
  . exact Proc.triple_throw (fun _ hc => hc.mono (by omega))
  . apply Proc.triple_bind (R := fun _ => Tidy n [])
    . exact Proc.triple_ofExcept (fun _ _ _ hc => hc) (fun _ _ _ hc => hc.mono (by omega))
    . intro level
      apply Conn.tidy_acquired _ (fun _ _ _ hc => hc.congr rfl rfl) (fun _ hc => hc) (by omega)
      apply Proc.triple_bind (R := fun _ => Tidy (n + 1) [])
      . exact Proc.triple_onStop (tidy_beginOwned ctx _ hn)
          (fun _ => Proc.triple_atomic (Conn.tidy_release _))
          (Proc.triple_atomic (Triple.modify (fun _ _ => True.intro)))
      . intro _
        apply Proc.triple_bind (Proc.triple_atomic (Conn.tidy_release _).of_succeeds)
        exact fun _ => Proc.triple_atomic (Conn.tidy_newTx _)

theorem tidy_restore (restoreIsolation : Bool) (hn : n + 1 < 2 ^ 31)
    : Triple True (Tidy n []) (restore (σ := Recorder σ) restoreIsolation).run
        (fun _ => Tidy (n + 1) []) (fun _ => Tidy (n + 1) []) := by
  cases restoreIsolation with
  | true =>
    exact Proc.triple_tried (Proc.triple_atomic (Conn.tidy_setTransactionIsolation _ _ hn))
  | false => exact Proc.triple_pure (fun _ hc => hc.mono (by omega))

theorem tidy_finishOwned (t : Nat) (rollback : Bool) (hn : n + 2 < 2 ^ 31)
    : Triple True (Tidy n []) (finishOwned (σ := Recorder σ) t rollback).run
        (fun _ => Tidy (n + 2) []) (fun _ => Tidy (n + 2) []) := by
  apply Proc.triple_bind (Conn.tidy_step (Conn.tidy_onTx t _) (by omega))
  intro restoreIsolation
  apply Proc.triple_bind (R := fun _ => Tidy (n + 1) [])
  . apply Proc.triple_atomic
    apply Triple.weaken (P := Tidy n []) (Q := fun _ => Tidy (n + 1) []) (E := fun _ => Tidy (n + 1) [])
      _ (fun _ hc => hc) (fun _ _ hc => hc) (fun _ _ hc => hc.mono (by omega))
    cases rollback with
    | true => exact Conn.tidy_rollbackCurrentTransaction _ (by omega)
    | false => exact Conn.tidy_mono (Conn.tidy_commitCurrentTransaction _) (by omega)
  . intro _
    apply Proc.triple_bind (R := fun _ => Tidy (n + 2) [])
    . exact Conn.tidy_mono (tidy_restore restoreIsolation (by omega)) (by omega)
    . intro isolationErr
      apply Proc.triple_bind
        (Proc.triple_tried (Proc.triple_atomic (Conn.tidy_setAutoCommit _ true)))
      exact fun _ => Proc.triple_ofExcept (fun _ _ _ hc => hc) (fun _ _ _ hc => hc)

theorem tidy_finishTransaction (me t : Nat) (rollback : Bool) (hn : n + 2 < 2 ^ 31)
    : Triple True (Tidy n []) (finishTransaction (σ := Recorder σ) me t rollback).run
        (fun _ => Tidy (n + 2) []) (fun _ => Tidy (n + 2) []) := by
  apply Proc.triple_bind (Conn.tidy_step (Conn.tidy_onTx t _) (by omega))
  intro _
  apply Proc.triple_bind (Conn.tidy_step Conn.tidy_checkAttached (by omega))
  intro _
  apply Proc.triple_bind (Proc.triple_tried (Proc.triple_atomic (Conn.tidy_acquire _)))
  intro r
  cases r with
  | error err =>
    dsimp only
    split
    . apply Proc.triple_bind (Conn.tidy_step (Conn.tidy_onTx t _) (by omega))
      exact fun _ => Proc.triple_throw (fun _ hc => hc.mono (by omega))
    . exact Proc.triple_throw (fun _ hc => hc.mono (by omega))
  | ok => exact Conn.tidy_deferred _ (tidy_finishOwned t rollback hn)

end Tx

namespace Call

variable [Peer σ] [GoStd] [ParameterConverter] {n : Int}

open Conn (Tidy)

def Encodes (call : Call) (c : Conn σ) : Prop :=
  match call with
  | .queryContext ctx query args | .execContext ctx query args => c.Accepts ctx query args
  | .stmtExecContext s _ args | .stmtQueryContext s _ args => Stmt.Takes s args c
  | _ => True

/--
No call takes more than two ids, and after every call the connection knows its handles.
-/
theorem tidy_code (call : Call) (me : Nat) (hn : n + 2 < 2 ^ 31)
    : Triple True (fun c : Conn (Recorder σ) => c.Tidy n [] ∧ call.Encodes c) (call.code me).run
        (fun _ => Tidy (n + 2) []) (fun _ => Tidy (n + 2) []) := by
  have hone : n + 1 < 2 ^ 31 := by omega
  have hzero : n < 2 ^ 31 := by omega
  have hle : n + 1 ≤ n + 2 := by omega
  have hle' : n ≤ n + 2 := by omega
  cases call with
  | prepareContext ctx query =>
    exact Proc.triple_discard
      ((Conn.tidy_mono (Conn.tidy_prepareContext me ctx query hone) hle).pre (fun _ hc => hc.1))
  | queryContext ctx query args => exact Proc.triple_discard (Conn.tidy_queryContext me ctx query args hn)
  | execContext ctx query args =>
    exact Proc.triple_discard (Conn.tidy_mono (Conn.tidy_execContext me ctx query args hone) hle)
  | ping ctx fuel => exact (Conn.tidy_ping me ctx fuel hn).pre (fun _ hc => hc.1)
  | isValid =>
    exact Proc.triple_discard ((Conn.tidy_mono (Conn.tidy_isValid me) hle').pre (fun _ hc => hc.1))
  | resetSession ctx => exact (Conn.tidy_mono (Conn.tidy_resetSession me ctx hone) hle).pre (fun _ hc => hc.1)
  | beginTx ctx isolation readOnly =>
    exact Proc.triple_discard
      ((Conn.tidy_mono (Tx.tidy_beginTx me ctx isolation readOnly hone) hle).pre (fun _ hc => hc.1))
  | commit t => exact (Tx.tidy_finishTransaction me t false hn).pre (fun _ hc => hc.1)
  | rollback t => exact (Tx.tidy_finishTransaction me t true hn).pre (fun _ hc => hc.1)
  | stmtExecContext s ctx args =>
    exact Proc.triple_discard (Conn.tidy_mono (Stmt.tidy_execContext me s ctx args hzero) hle')
  | stmtQueryContext s ctx args =>
    exact Proc.triple_discard (Conn.tidy_mono (Stmt.tidy_queryContext me s ctx args hone) hle)
  | stmtClose s => exact (Conn.tidy_mono (Stmt.tidy_close me s hzero) hle').pre (fun _ hc => hc.1)
  | rowsNext r dest =>
    exact Proc.triple_discard ((Conn.tidy_mono (Rows.tidy_next r dest hzero) hle').pre (fun _ hc => hc.1))
  | rowsClose r => exact (Conn.tidy_mono (Rows.tidy_close r hzero) hle').pre (fun _ hc => hc.1)
  | close =>
    exact Proc.triple_atomic ((Conn.tidy_mono (Conn.tidy_close hone) hle).pre (fun _ hc => hc.1))

/--
The call is made while no other is running, and it returns.
-/
def step (call : Call) (c c' : Conn σ) : Prop := ∃ me, ((call.code me).run c).state? = some c'

def after (calls : List Call) (c : Conn σ) : Option (Conn σ) :=
  match calls with
  | [] => some c
  | call :: calls => ((call.code 0).run c).state?.bind (after calls)

theorem path_of_after {calls : List Call} {c c' : Conn σ} (h : after calls c = some c')
    : Run.Path step calls c c' := by
  induction calls generalizing c with
  | nil =>
    cases h
    exact .nil _
  | cons call calls ih =>
    obtain ⟨c1, hrun, hrest⟩ := Option.bind_eq_some_iff.mp h
    exact .cons ⟨0, hrun⟩ (ih hrest)

theorem tidy_run {calls : List Call} {c c' : Conn (Recorder σ)} (hc : c.Tidy n [])
    (hpath : Run.Path step calls c c') (hencodes : Run.Each step Encodes calls c)
    (hn : n + 2 * calls.length < 2 ^ 31)
    : c'.Tidy (n + 2 * calls.length) [] := by
  induction hpath generalizing n with
  | nil => exact hc.mono (by simp)
  | @cons call calls c c1 c' hstep _ ih =>
    obtain ⟨me, hrun⟩ := hstep
    rw [List.length_cons] at hn ⊢
    have hc1 := (tidy_code call me (by omega)).of_state ⟨hc, hencodes.1⟩ hrun
    exact (ih hc1 (hencodes.2 c1 ⟨me, hrun⟩) (by omega)).mono (by omega)

end Call

namespace Conn

structure Fresh (c : Conn (Recorder σ)) : Prop where
  objects : c.stmts = [] ∧ c.rows = []
  sent : c.sess.tr.peer.sent = []
  held : c.sess.tr.held = []
  healthy : c.sess.tr.writeBudget = none
  nextID : c.sess.nextID = 0

theorem Fresh.tidy {c : Conn (Recorder σ)} (h : c.Fresh) : c.Tidy 0 [] := by
  have hrequests : c.sess.tr.requests = [] := by simp [Tr.requests, h.sent]
  have hhandles : c.handles = [] := by simp [handles, h.objects.1, h.objects.2]
  unfold Tidy
  rw [hhandles]
  refine ⟨h.healthy, h.held, ?_, ?_, by simp, by rw [h.nextID]; decide⟩
  . rw [hrequests]
    exact Access.Holds.nil
  . rw [hrequests]
    simp [Access.opened]

section Runs

variable [Peer σ] [GoStd] [ParameterConverter]

end Runs

section

open StandIn BigEndian

/--
A server that accepts every update, of commands without parameters.
-/
inductive Agreeable where
  | mk

instance : Peer Agreeable where
  recv s request :=
    (s, if int32At 0 request = sessionPrepareReadParams2 then
        intBytes 4 statusOK ++ ([0, 0] ++ (intBytes 4 0 ++ intBytes 4 0))
      else if int32At 0 request = commandExecuteUpdate then
        intBytes 4 statusOK ++ (intBytes 8 1 ++ [1])
      else
        [])

def agreeableConn : Conn (Recorder Agreeable) :=
  new (.opened { Tr.ofBytes [] with peer := { peer := .mk, sent := [] } }
    { generatedKeysModeSet := true, generatedKeysMode := 0, generatedKeysColumns := [],
      generatedKeysColumnNames := [] } tcpProtocolVersion21 true) 0 0

theorem fresh_agreeableConn : agreeableConn.Fresh := ⟨⟨rfl, rfl⟩, rfl, rfl, rfl, rfl⟩

def statementCalls : List Call :=
  [.prepareContext .background (ascii "DELETE FROM t"), .stmtExecContext 0 .background []]

theorem takes_nil (s : Nat) (c : Conn σ) : Stmt.Takes s [] c := by
  rintro params stmt ⟨⟩ _ cmd _
  exact True.intro

end

end Conn

end H2Go
