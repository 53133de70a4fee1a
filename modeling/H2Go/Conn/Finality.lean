import H2Go.Conn.Ownership

/-!
This module contains the proof that what is over stays over: once a call has returned that ends rows, a
statement or a transaction, later calls do not succeed on it, whatever other goroutines do.
-/

namespace H2Go

variable {σ : Type} {α : Type}

namespace Conn

/-! When rows, a statement or a transaction are over, and that they stay so. -/

def RowsOver (r w : Nat) (c : Conn σ) : Prop := ∃ o, c.rows[r]? = some o ∧ o.rows.Spent w

def StmtOver (s : Nat) (c : Conn σ) : Prop := ∃ stmt, c.stmts[s]? = some stmt ∧ stmt.closed = true

def TxOver (t : Nat) (c : Conn σ) : Prop := ∃ tx, c.txs[t]? = some tx ∧ tx.done = true

theorem RowsOver.later {r w : Nat} {c c' : Conn σ} (h : c.Later c') (hover : c.RowsOver r w)
    : c'.RowsOver r w := by
  obtain ⟨o, ho, hspent⟩ := hover
  obtain ⟨o', ho', hkept⟩ := h.rows r o ho
  exact ⟨o', ho', hkept w hspent⟩

theorem StmtOver.later {s : Nat} {c c' : Conn σ} (h : c.Later c') (hover : c.StmtOver s)
    : c'.StmtOver s := by
  obtain ⟨stmt, hstmt, hclosed⟩ := hover
  obtain ⟨stmt', hstmt', hkept⟩ := h.stmts s stmt hstmt
  exact ⟨stmt', hstmt', hkept hclosed⟩

theorem TxOver.later {t : Nat} {c c' : Conn σ} (h : c.Later c') (hover : c.TxOver t)
    : c'.TxOver t := by
  obtain ⟨tx, htx, hdone⟩ := hover
  obtain ⟨tx', htx', hkept⟩ := h.txs t tx htx
  exact ⟨tx', htx', hkept hdone⟩

/-! What is there after a step on one object, unless the step panics. -/

open Proc (Stopped Panicked)

variable {c c' : Conn σ} {r : Except (Stop Err) α}

theorem onRows_result {n : Nat} {m : Prog Err (Cursor σ) α}
    (h : (onRows n m c).result c = some (r, c'))
    : Stopped Panicked r ∨ ∃ o cur o', c.rows[n]? = some o ∧
        (m { rows := o.rows, session := c.sess }).result { rows := o.rows, session := c.sess } =
          some (r, cur) ∧ c'.rows[n]? = some o' ∧ o'.rows = cur.rows := by
  unfold onRows at h
  split at h
  . next o ho =>
    refine (Proc.part_of_result { rows := o.rows, session := c.sess } h).imp_right ?_
    rintro ⟨cur, hrun, rfl⟩
    exact ⟨o, cur, _, ho, hrun, List.getElem?_set_self (List.getElem?_eq_some_iff.mp ho).1, rfl⟩
  . cases h
    exact .inl ⟨_, rfl, _, rfl⟩

theorem onStmt_result {s : Nat} {m : Prog Err Stmt α} (h : (onStmt s m c).result c = some (r, c'))
    : Stopped Panicked r ∨ ∃ stmt stmt', c.stmts[s]? = some stmt ∧
        (m stmt).result stmt = some (r, stmt') ∧ c'.stmts[s]? = some stmt' := by
  unfold onStmt at h
  split at h
  . next stmt hstmt =>
    refine (Proc.part_of_result stmt h).imp_right ?_
    rintro ⟨stmt', hrun, rfl⟩
    exact ⟨stmt, stmt', hstmt, hrun, List.getElem?_set_self (List.getElem?_eq_some_iff.mp hstmt).1⟩
  . cases h
    exact .inl ⟨_, rfl, _, rfl⟩

theorem onTx_result {t : Nat} {m : Prog Err Tx α} (h : (onTx t m c).result c = some (r, c'))
    : Stopped Panicked r ∨ ∃ tx tx', c.txs[t]? = some tx ∧ (m tx).result tx = some (r, tx') ∧
        c'.txs[t]? = some tx' := by
  unfold onTx at h
  split at h
  . next tx htx =>
    refine (Proc.part_of_result tx h).imp_right ?_
    rintro ⟨tx', hrun, rfl⟩
    exact ⟨tx, tx', htx, hrun, List.getElem?_set_self (List.getElem?_eq_some_iff.mp htx).1⟩
  . cases h
    exact .inl ⟨_, rfl, _, rfl⟩

end Conn

open Proc (Stopped Panicked)

/-! The calls that end rows, a statement or a transaction. -/

/--
The calls that are refused from now on, because `first` has returned `r`.
-/
inductive Call.Over : (first : Call) → (r : Except (Stop Err) Unit) → (second : Call) → Prop where
  | drained {n : Nat} {dest dest' : List Value} {e : Err} (hlen : dest'.length = dest.length)
      : Over (.rowsNext n dest) (.error (.err e)) (.rowsNext n dest')
  | rows {n : Nat} {r : Except (Stop Err) Unit} {dest : List Value} (hr : ¬ Stopped Panicked r)
      : Over (.rowsClose n) r (.rowsNext n dest)
  | exec {s : Nat} {r : Except (Stop Err) Unit} {ctx : Ctx} {args : List NamedValue}
      (hr : ¬ Stopped Panicked r) : Over (.stmtClose s) r (.stmtExecContext s ctx args)
  | query {s : Nat} {r : Except (Stop Err) Unit} {ctx : Ctx} {args : List NamedValue}
      (hr : ¬ Stopped Panicked r) : Over (.stmtClose s) r (.stmtQueryContext s ctx args)
  | committed {t : Nat} {second : Call} (h : second = .commit t ∨ second = .rollback t)
      : Over (.commit t) (.ok ()) second
  | rolledBack {t : Nat} {second : Call} (h : second = .commit t ∨ second = .rollback t)
      : Over (.rollback t) (.ok ()) second

namespace Rows

variable [GoStd] [Peer σ]

/--
`Next` returns an error only when the rows are spent.
-/
theorem ends_next (n : Nat) (dest : List Value)
    : (next n dest : Proc Err (Conn σ) (List Value)).Ends (fun _ c => ¬ c.RowsOver n dest.length)
        (fun r => ∀ e, r ≠ .error (.err e)) := by
  apply Proc.Ends.atomic
  rintro c r c' hopen hrun e rfl
  rcases Conn.onRows_result hrun with ⟨_, h, why, rfl⟩ | ⟨o, cur, o', -, hnext, ho', hrows⟩
  . cases h
  . exact hopen ⟨o', ho', hrows ▸ Cursor.spent_of_next_fail (Proc.fail_of_result hnext)⟩

theorem refuses_next {n : Nat} {dest : List Value}
    : (next n dest : Proc Err (Conn σ) (List Value)).Ends (fun c _ => c.RowsOver n dest.length)
        (Stopped (fun _ => True)) := by
  apply Proc.Ends.atomic
  rintro c r c' ⟨o, ho, hspent⟩ hrun
  rcases Conn.onRows_result hrun with ⟨e, rfl, -⟩ | ⟨o', cur, -, ho', hnext, -, -⟩
  . exact ⟨e, rfl, True.intro⟩
  . rw [ho] at ho'
    cases ho'
    cases r with
    | ok row => exact absurd (Proc.ok_of_result hnext) (Cursor.next_ne_ok_of_spent hspent row)
    | error e => exact ⟨e, rfl, True.intro⟩

omit [GoStd] in
theorem ends_closeOpen (n w : Nat)
    : (closeOpen n : Proc Err (Conn σ) Unit).Ends (fun _ c => ¬ c.RowsOver n w)
        (Stopped Panicked) := by
  apply Proc.Ends.stop_bind
  apply Proc.Ends.stop_bind
  apply Proc.Ends.atomic
  intro c r c' hopen hrun
  refine (Conn.onRows_result hrun).resolve_right ?_
  rintro ⟨o, cur, o', -, hmark, ho', hrows⟩
  cases hmark
  exact hopen ⟨o', ho', .inl (hrows ▸ rfl)⟩

omit [GoStd] in
theorem ends_close (n w : Nat)
    : (close n : Proc Err (Conn σ) Unit).Ends (fun _ c => ¬ c.RowsOver n w) (Stopped Panicked) := by
  apply Proc.Ends.bind (R := fun r => r = .ok false ∨ Stopped Panicked r)
  . apply Proc.Ends.atomic
    intro c r c' hopen hrun
    unfold Conn.beginClose at hrun
    split at hrun
    . next o ho =>
      cases hrun
      left
      congr 1
      exact Bool.eq_false_iff.mpr (fun hclosed => hopen ⟨o, ho, .inl hclosed⟩)
    . cases hrun
      exact .inr ⟨_, rfl, _, rfl⟩
  . rintro closed (h | ⟨_, h, -⟩)
    . cases h
      apply Proc.Ends.stop_bind
      exact .attempt Proc.not_panicked_err (ends_closeOpen n w)
    . cases h
  . rintro e (h | ⟨_, h, he⟩)
    . cases h
    . cases h
      exact ⟨e, rfl, he⟩

end Rows

namespace Stmt

variable [Peer σ]

theorem ends_close (me s : Nat)
    : (close me s : Proc Err (Conn σ) Unit).Ends (fun _ c => ¬ c.StmtOver s) (Stopped Panicked) := by
  apply Proc.Ends.stop_bind
  apply Proc.Ends.atomic
  intro c r c' hopen hrun
  refine (Conn.onStmt_result hrun).resolve_right ?_
  rintro ⟨stmt, stmt', -, hbegin, hstmt'⟩
  refine hopen ⟨stmt', hstmt', ?_⟩
  unfold beginClose at hbegin
  split at hbegin
  . cases hbegin
    rfl
  . split at hbegin <;> cases hbegin <;> rfl

theorem ready_of_closed {stmt : Stmt} (h : stmt.closed = true)
    : ready stmt = .fail (.errorf "h2go: statement is closed" []) stmt := by
  unfold ready
  split
  . rw [if_pos (.inl h)]
  . rfl

omit [Peer σ] in
theorem refuses_beginOperation (s : Nat) (o : Owner)
    : (Proc.atomic (beginOperation s o) : Proc Err (Conn σ) PreparedCommand).Ends
        (fun c _ => c.StmtOver s) (Stopped (fun _ => True)) := by
  apply Proc.Ends.atomic
  rintro c r c' ⟨stmt, hstmt, hclosed⟩ hrun
  simp only [beginOperation, Prog.bind_run, Conn.onStmt, hstmt, ready_of_closed hclosed] at hrun
  cases hrun
  exact ⟨_, rfl, True.intro⟩

variable [GoStd] [ParameterConverter]

theorem refuses_execContext (me s : Nat) (ctx : Ctx) (args : List NamedValue)
    : (execContext me s ctx args : Proc Err (Conn σ) Result).Ends (fun c _ => c.StmtOver s)
        (Stopped (fun _ => True)) :=
  .bind_stop (fun _ => .bind_stop (fun _ => .stop_bind (refuses_beginOperation s _)))

theorem refuses_queryContext (me s : Nat) (ctx : Ctx) (args : List NamedValue)
    : (queryContext me s ctx args : Proc Err (Conn σ) Nat).Ends (fun c _ => c.StmtOver s)
        (Stopped (fun _ => True)) :=
  .bind_stop (fun _ => .bind_stop (fun _ => .stop_bind (refuses_beginOperation s _)))

end Stmt

namespace Tx

variable [Peer σ] [GoStd]

theorem ends_finishOwned (t : Nat) (rollback : Bool)
    : (finishOwned t rollback : Proc Err (Conn σ) Unit).Ends (fun _ c => ¬ c.TxOver t)
        (Stopped (fun _ => True)) := by
  apply Proc.Ends.stop_bind
  apply Proc.Ends.atomic
  intro c r c' hopen hrun
  rcases Conn.onTx_result hrun with ⟨e, rfl, -⟩ | ⟨tx, tx', -, hclaim, htx'⟩
  . exact ⟨e, rfl, True.intro⟩
  . refine absurd ⟨tx', htx', ?_⟩ hopen
    unfold claim at hclaim
    split at hclaim
    . next hdone =>
      cases hclaim
      exact hdone
    . cases hclaim
      rfl

/--
Whoever finishes a transaction has claimed it.
-/
theorem ends_finishTransaction (me t : Nat) (rollback : Bool)
    : (finishTransaction me t rollback : Proc Err (Conn σ) Unit).Ends (fun _ c => ¬ c.TxOver t)
        (Stopped (fun _ => True)) := by
  refine .bind_stop (fun _ => .bind_stop (fun _ => .bind_stop ?_))
  intro r
  cases r with
  | error err =>
    dsimp only
    split
    . exact .bind_stop (fun _ => ⟨_, rfl, True.intro⟩)
    . exact ⟨_, rfl, True.intro⟩
  | ok => exact .deferred (ends_finishOwned t rollback)

theorem refuses_finishTransaction (me t : Nat) (rollback : Bool)
    : (finishTransaction me t rollback : Proc Err (Conn σ) Unit).Ends (fun c _ => c.TxOver t)
        (Stopped (fun _ => True)) := by
  apply Proc.Ends.stop_bind
  apply Proc.Ends.atomic
  rintro c r c' ⟨tx, htx, hdone⟩ hrun
  rcases Conn.onTx_result hrun with ⟨e, rfl, -⟩ | ⟨tx₁, tx', htx₁, hcheck, -⟩
  . exact ⟨e, rfl, True.intro⟩
  . rw [htx] at htx₁
    cases htx₁
    rw [checkDone, if_pos hdone] at hcheck
    cases hcheck
    exact ⟨_, rfl, True.intro⟩

end Tx

section

variable [Peer σ] [GoStd] [ParameterConverter]

/--
Whatever it is that is over, it stays so, `first` does not return `r` before it is over, and `second`
finds it so.
-/
theorem Call.Over.cause {first second : Call} {r : Except (Stop Err) Unit}
    (h : first.Over r second)
    : ∃ (P : Conn σ → Prop) (R : Except (Stop Err) Unit → Prop),
        (∀ {c c' : Conn σ}, c.Later c' → P c → P c') ∧
        (∀ i, (first.code i).Ends (fun _ c => ¬ P c) R) ∧ ¬ R r ∧
        ∀ i, (second.code i).Ends (fun c _ => P c) (Stopped (fun _ => True)) := by
  cases h with
  | @drained n dest dest' e hlen =>
    refine ⟨Conn.RowsOver n dest.length, fun r => ∀ e, r ≠ .error (.err e), Conn.RowsOver.later, ?_,
      fun hr => hr e rfl, fun _ => ?_⟩
    . intro i
      apply Proc.Ends.bind (Rows.ends_next n dest)
      . rintro _ - e h
        cases h
      . rintro _ hr e h
        cases h
        exact hr e rfl
    . exact .stop_bind (hlen ▸ Rows.refuses_next)
  | @rows n _ dest hr =>
    exact ⟨Conn.RowsOver n dest.length, _, Conn.RowsOver.later, fun _ => Rows.ends_close n _, hr,
      fun _ => .stop_bind Rows.refuses_next⟩
  | @exec s _ ctx args hr =>
    exact ⟨Conn.StmtOver s, _, Conn.StmtOver.later, fun i => Stmt.ends_close i s, hr,
      fun i => .stop_bind (Stmt.refuses_execContext i s ctx args)⟩
  | @query s _ ctx args hr =>
    exact ⟨Conn.StmtOver s, _, Conn.StmtOver.later, fun i => Stmt.ends_close i s, hr,
      fun i => .stop_bind (Stmt.refuses_queryContext i s ctx args)⟩
  | @committed t _ h =>
    refine ⟨Conn.TxOver t, _, Conn.TxOver.later, fun i => Tx.ends_finishTransaction i t false, ?_, ?_⟩
    . rintro ⟨e, h, -⟩
      cases h
    . rcases h with rfl | rfl <;> exact fun i => Tx.refuses_finishTransaction i t _
  | @rolledBack t _ h =>
    refine ⟨Conn.TxOver t, _, Conn.TxOver.later, fun i => Tx.ends_finishTransaction i t true, ?_, ?_⟩
    . rintro ⟨e, h, -⟩
      cases h
    . rcases h with rfl | rfl <;> exact fun i => Tx.refuses_finishTransaction i t _

/--
However the calls of any number of goroutines interleave: when one has returned that ended rows, a
statement or a transaction, no call on it that begins later succeeds.
-/
theorem Conn.refused_of_over {c : Conn σ} {t t' : Threads Call Err (Conn σ)}
    (h : Threads.Reach Call.code (fun _ => True) c t) {i j : Nat} {first second : Call}
    {r r' : Except (Stop Err) Unit} (hfirst : t.procs i = some (first, .ret r))
    (hover : first.Over r second) (hlater : t.procs j = none) {ms : List (Threads.Move Call)}
    (hrun : t.nexts Call.code ms = some t') (hsecond : t'.procs j = some (second, .ret r'))
    : r' ≠ .ok () := by
  obtain ⟨P, R, hstays, hends, hr, hrefuses⟩ := hover.cause (σ := σ)
  have hkept : ∀ (call : Call) i, (call.code i).Preserves P :=
    fun call i => .of_rel Conn.Later.refl hstays (fun _ => call.preserves_code i)
  have hp : P t.state := (h.established hkept hends hfirst).resolve_right hr
  have hnone : ∀ p, t.procs j = some (second, p) →
      p.Ends (fun c _ => P c) (Stopped (fun _ => True)) := by
    intro p hproc
    rw [hlater] at hproc
    cases hproc
  obtain ⟨e, rfl, -⟩ := h.refused hkept hrefuses hp hnone hrun hsecond
  intro hok
  cases hok

end

/--
The call of `Next` on the first rows has returned an error.
-/
def noNextRow (p : Call × Proc Err (Conn σ) Unit) : Bool :=
  match p with
  | (.rowsNext 0 [], .ret (.error (.err _))) => true
  | _ => false

theorem eq_of_noNextRow {t : Threads Call Err (Conn σ)} {i : Nat}
    (h : (t.procs i).any noNextRow = true)
    : ∃ e, t.procs i = some (.rowsNext 0 [], .ret (.error (.err e))) := by
  cases hproc : t.procs i with
  | none =>
    rw [hproc] at h
    cases h
  | some p =>
    rw [hproc, Option.any_some] at h
    unfold noNextRow at h
    split at h
    . exact ⟨_, rfl⟩
    . cases h

/--
A query and a call of `Next` that finds no row.
-/
def queryAndNext : List (Threads.Move Call) :=
  [.call 0 (.queryContext .background [] []), .act 0, .act 0, .act 0, .call 1 (.rowsNext 0 []), .act 1]

def nextAgain : List (Threads.Move Call) := [.call 2 (.rowsNext 0 []), .act 2]

open StandIn in
theorem Conn.refused_of_over_nextAgain
    : ∃ (t t' : Threads Call Err (Conn Silent)) (e : Err) (r' : Except (Stop Err) Unit),
        t.procs 1 = some (.rowsNext 0 [], .ret (.error (.err e))) ∧
        t.nexts Call.code nextAgain = some t' ∧ t'.procs 2 = some (.rowsNext 0 [], .ret r') ∧
        r' ≠ .ok () := by
  have hrun : (((Threads.start (Conn.new (Session.ofTr (Tr.ofBytes emptyResult)) 0 0)).nexts Call.code
      queryAndNext).bind (fun t => (t.nexts Call.code nextAgain).map (fun t' =>
        ((t.procs 1).any noNextRow, (t.procs 2).isNone, (t'.procs 2).any noNextRow)))) =
      some (true, true, true) := by
    decide +kernel
  obtain ⟨t, ht, hnext⟩ := Option.bind_eq_some_iff.mp hrun
  obtain ⟨t', ht', hall⟩ := Option.map_eq_some_iff.mp hnext
  simp only [Prod.mk.injEq] at hall
  obtain ⟨hfirst, hlater, hsecond⟩ := hall
  obtain ⟨e, hfirst⟩ := eq_of_noNextRow hfirst
  obtain ⟨_, hsecond⟩ := eq_of_noNextRow hsecond
  exact ⟨t, t', e, _, hfirst, ht', hsecond, Conn.refused_of_over (Threads.Reach.nexts .start ht) hfirst
    (.drained rfl) (Option.isNone_iff_eq_none.mp hlater) ht' hsecond⟩

end H2Go
