import H2Go.Conn.Account
import H2Go.Conn.Discipline
import H2Go.Session.Serving

/-!
This module contains the proof that the calls of the interface have the effects they are for, on a
server that keeps to its contract.
-/

namespace H2Go

variable {σ : Type} {α : Type}

def Stmt.known (s : Stmt) : List (Int × List UInt8) :=
  s.cmd.toList.map (fun cmd => (cmd.id, sqlText cmd.sql))

/--
The objects of a connection are what the account says. The statements have the command of their SQL.
-/
structure Account.Matches (view : σ → Desk) (version n : Int) (a : Account) (s : Session σ)
    (stmts : List Stmt) (txs : List Tx) : Prop where
  session : s.Mirrors view version n (stmts.flatMap Stmt.known) a.store []
  settled : a.store.Settled
  named : ∀ (i : Nat) stmt cmd, stmts[i]? = some stmt → stmt.cmd = some cmd →
    a.statements[i]? = some cmd.sql
  length : a.statements.length = stmts.length
  txs : a.txs = txs

namespace Conn

def Follows (view : σ → Desk) (version n : Int) (a : Account) (c : Conn σ) : Prop :=
  a.Matches view version n c.sess c.stmts c.txs

def Sim (view : σ → Desk) (version n : Int) (a : Account) (c : Conn σ) : Prop :=
  c.Follows view version n a ∧ (c.sess.trNil = false → c.sess.tr.inp = [])

variable {view : σ → Desk} {version n n' : Int} {a : Account}

theorem Follows.mono {c : Conn σ} (h : c.Follows view version n a) (hn : n ≤ n')
    : c.Follows view version n' a :=
  ⟨h.session.mono hn, h.settled, h.named, h.length, h.txs⟩

namespace Sim

variable {c : Conn σ}

theorem mono (h : c.Sim view version n a) (hn : n ≤ n') : c.Sim view version n' a :=
  ⟨h.1.mono hn, h.2⟩

theorem knowing (h : c.Sim view version n a)
    : c.sess.Knowing view version n (c.stmts.flatMap Stmt.known) a.store :=
  ⟨h.1.session, h.2⟩

theorem setSess (h : c.Sim view version n a) {s : Session σ} {d : SqlStore}
    (hs : s.Knowing view version n' (c.stmts.flatMap Stmt.known) d) (hd : d.Settled)
    : (c.setSess s).Sim view version n' (a.setStore d) :=
  ⟨⟨hs.toMirrors, hd, h.1.named, h.1.length, h.1.txs⟩, hs.aligned⟩

theorem keepStore (h : c.Sim view version n a) {s : Session σ}
    (hs : s.Knowing view version n' (c.stmts.flatMap Stmt.known) a.store)
    : (c.setSess s).Sim view version n' a :=
  h.setSess hs h.1.settled

end Sim

/-! The steps that concern neither the session nor the objects. -/

theorem keeps_checkContext {P : Conn σ → Prop} (ctx : Ctx) : Keeps P (checkContext ctx) := by
  intro c hc
  unfold checkContext
  split
  . exact hc
  . exact hc

theorem keeps_checkAttached {P : Conn σ → Prop} : Keeps P checkAttached := by
  intro c hc
  unfold checkAttached
  split
  . exact hc
  . exact hc

theorem sim_acquire (o : Owner) : Keeps (Sim view version n a) (acquire o) :=
  keeps_acquire (fun _ _ _ hc => hc) o

theorem released {P : Conn σ → Prop} {Q : α → Conn σ → Prop} {E : Err → Conn σ → Prop}
    {p : Proc Err (Conn σ) α} (o : Owner) (hq : ∀ x c busy log, Q x c → Q x { c with busy, log })
    (he : ∀ e c busy log, E e c → E e { c with busy, log }) (h : Triple True P p.run Q E)
    : Triple True P (p.deferred (.atomic (release o))).run Q E :=
  Proc.triple_deferred h (fun _ => Proc.triple_atomic (Triple.modify (fun _ hc => hq _ _ _ _ hc)))
    (fun _ => Proc.triple_atomic (Triple.modify (fun _ hc => he _ _ _ _ hc)))
    (Proc.triple_atomic (Triple.modify (fun _ _ => True.intro)))

/-! The steps that use the session. -/

theorem holds_onSessOr {c : Conn σ} {err : Err} {m : Prog Err (Session σ) α} {Q : α → Conn σ → Prop}
    {E : Err → Conn σ → Prop}
    (h : (m c.sess).Holds True (fun x s => Q x (c.setSess s)) (fun e s => E e (c.setSess s)))
    (herr : E err c)
    : (onSessOr err m c).Holds True Q E := by
  unfold onSessOr
  split
  . exact h.zoom (fun _ _ hq => hq) (fun _ _ he => he)
  . exact herr

theorem holds_attached {c : Conn σ} {m : Prog Err (Session σ) α} {Q : α → Conn σ → Prop}
    {E : Err → Conn σ → Prop}
    (h : (m c.sess).Holds True (fun x s => Q x (c.setSess s)) (fun e s => E e (c.setSess s)))
    : (onSess m c).Holds True Q E := by
  unfold onSess
  split
  . exact h.zoom (fun _ _ hq => hq) (fun _ _ he => he)
  . trivial

theorem sim_onSessOr (err : Err) {m : Prog Err (Session σ) α} {d : SqlStore} (hd : d.Settled)
    (h : ∀ known, Triple True (Session.Knowing view version n known a.store) m
      (fun _ => Session.Knowing view version n' known d)
      (fun _ => Session.Knowing view version n' known a.store)) (hn : n ≤ n')
    : Triple True (Sim view version n a) (onSessOr err m)
        (fun _ => Sim view version n' (a.setStore d)) (fun _ => Sim view version n' a) := by
  intro c hc
  apply holds_onSessOr _ (hc.mono hn)
  exact (h _ c.sess hc.knowing).imp (fun _ _ hs => hc.setSess hs hd) (fun _ _ hs => hc.keepStore hs)

section Calls

variable [Peer σ] [GoStd] {engine : Engine} (hserves : Serves engine version view)

include hserves

theorem sim_setAutoCommit (ctx : Ctx) (on : Bool)
    : Triple True (Sim view version n a) (setAutoCommit ctx on)
        (fun _ => Sim view version n (a.setStore (a.store.setAutoCommit on)))
        (fun _ => Sim view version n a) :=
  sim_onSessOr _ (Store.settled_setAutoCommit on a.store)
    (fun _ => Session.knowing_setAutoCommit hserves ctx on) (Int.le_refl n)

theorem sim_commitCurrentTransaction (ctx : Ctx)
    : Triple True (Sim view version n a) (commitCurrentTransaction ctx)
        (fun _ => Sim view version n (a.setStore a.store.commit)) (fun _ => Sim view version n a) :=
  sim_onSessOr _ (Store.settled_of_work rfl)
    (fun _ => Session.knowing_commitCurrentTransaction hserves ctx) (Int.le_refl n)

theorem sim_rollbackCurrentTransaction (ctx : Ctx) (hn : n + 1 < 2 ^ 31)
    : Triple True (Sim view version n a) (rollbackCurrentTransaction ctx)
        (fun _ => Sim view version (n + 1) (a.setStore a.store.rollback))
        (fun _ => Sim view version (n + 1) a) :=
  sim_onSessOr _ (Store.settled_of_work rfl)
    (fun _ => Session.knowing_rollbackCurrentTransaction hserves ctx hn) (by omega)

theorem sim_setTransactionIsolation (ctx : Ctx) {sqlLevel : GoString}
    (hlevel : sqlLevel ∈ isolationLevels) (hn : n + 1 < 2 ^ 31)
    : Triple True (Sim view version n a) (setTransactionIsolation ctx sqlLevel)
        (fun _ => Sim view version (n + 1) (a.setStore (a.store.setIsolation sqlLevel)))
        (fun _ => Sim view version (n + 1) a) := by
  apply Triple.assume (fun _ hc => hc.1.settled)
  intro hsettled
  exact sim_onSessOr _ (show (a.store.setIsolation sqlLevel).Settled from hsettled)
    (fun _ => Session.knowing_setTransactionIsolation hserves ctx hlevel hn) (by omega)

omit hserves [Peer σ] [GoStd] in
theorem sim_newStmt {cmd : PreparedCommand} {query : GoString} (hsql : cmd.sql = query)
    : Triple True
        (fun c => c.Sim view version n a ∧
          c.sess.Knowing view version n ((cmd.id, sqlText query) :: c.stmts.flatMap Stmt.known) a.store)
        (newStmt cmd) (fun _ => Sim view version n (a.prepare query)) (fun _ _ => False) := by
  rintro c ⟨hc, hs⟩
  subst hsql
  refine ⟨⟨hs.toMirrors.subset ?_, hc.1.settled, ?_, ?_, hc.1.txs⟩, hc.2⟩
  . simp [Stmt.known]
  . intro i stmt cmd' hstmt hcmd'
    rcases Nat.lt_trichotomy i c.stmts.length with hlt | rfl | hlt
    . rw [List.getElem?_append_left hlt] at hstmt
      have hnamed := hc.1.named i stmt cmd' hstmt hcmd'
      rw [Account.prepare, List.getElem?_append_left (by rw [hc.1.length]; exact hlt)]
      exact hnamed
    . simp only [List.getElem?_concat_length, Option.some.injEq] at hstmt
      subst hstmt
      cases hcmd'
      rw [Account.prepare, ← hc.1.length, List.getElem?_concat_length]
    . rw [List.getElem?_eq_none (by simp; omega)] at hstmt
      cases hstmt
  . simp [Account.prepare, hc.1.length]

theorem sim_prepareContext (me : Nat) (ctx : Ctx) (query : GoString) (hn : n + 1 < 2 ^ 31)
    : Triple True (Sim view version n a) (prepareContext me ctx query).run
        (fun _ => Sim view version (n + 1) (a.prepare query)) (fun _ => Sim view version (n + 1) a) := by
  apply Proc.triple_bind (R := fun _ => Sim view version n a)
  . exact Proc.triple_atomic ((sim_acquire _).weaken (fun _ hc => hc) (fun _ _ hc => hc)
      (fun _ _ hc => hc.mono (by omega)))
  . intro _
    apply released _ (fun _ _ _ _ hc => hc) (fun _ _ _ _ hc => hc)
    apply Proc.triple_bind (R := fun cmd c => cmd.sql = query ∧ c.Sim view version (n + 1) a ∧
      c.sess.Knowing view version (n + 1) ((cmd.id, sqlText query) :: c.stmts.flatMap Stmt.known) a.store)
    . apply Proc.triple_atomic
      intro c hc
      apply holds_attached
      refine (Session.knowing_prepareCommandReadParams hserves ctx query hn c.sess hc.knowing).imp ?_ ?_
      . exact fun cmd s hs => ⟨hs.1, hc.keepStore (hs.2.subset (List.subset_cons_self _ _)), hs.2⟩
      . exact fun _ s hs => hc.keepStore hs
    . intro cmd
      apply Proc.triple_atomic
      rintro c ⟨hsql, hc⟩
      exact (sim_newStmt hsql).of_succeeds c hc

theorem sim_isValid (me : Nat)
    : Keeps (Sim view version n a) (isValid me).run := by
  have hpending : Keeps (Sim view version n a) (onSessOr
      (.errorf "h2go: Session.hasPendingTransaction: session closed" [])
      (Session.hasPendingTransaction .background)) := by
    intro c hc
    apply holds_onSessOr _ hc
    exact (Session.knowing_hasPendingTransaction hserves _ c.sess hc.knowing).imp
      (fun _ _ hs => hc.keepStore hs.2) (fun _ _ hs => hc.keepStore hs)
  apply Proc.triple_bind (Proc.triple_tried (Proc.triple_atomic (sim_acquire _)))
  intro r
  cases r with
  | error => exact Proc.triple_pure (fun _ hc => hc)
  | ok =>
    apply released _ (fun _ _ _ _ hc => hc) (fun _ _ _ _ hc => hc)
    apply Proc.triple_bind (Proc.triple_tried (Proc.triple_atomic keeps_checkAttached))
    intro r
    cases r with
    | error => exact Proc.triple_pure (fun _ hc => hc)
    | ok =>
      apply Proc.triple_bind (Proc.triple_tried (Proc.triple_atomic hpending))
      intro r
      cases r with
      | error => exact Proc.triple_pure (fun _ hc => hc)
      | ok => exact Proc.triple_pure (fun _ hc => hc)

omit hserves [Peer σ] [GoStd] in
theorem sim_acquired (o : Owner) {p : Proc Err (Conn σ) α} {P : Conn σ → Prop}
    (hp : ∀ c busy log, P c → P { c with busy, log }) {Q : α → Conn σ → Prop}
    (hsim : ∀ c, P c → c.Sim view version n' a)
    (h : Triple True P p.run Q (fun _ => Sim view version n' a))
    : Triple True P (do
        .atomic (acquire o)
        p : Proc Err (Conn σ) α).run Q (fun _ => Sim view version n' a) := by
  apply Proc.triple_bind (R := fun _ => P)
  . apply Proc.triple_atomic
    exact (keeps_acquire hp o).weaken (fun _ hc => hc) (fun _ _ hc => hc) (fun _ c hc => hsim c hc)
  . exact fun _ => h

omit hserves [Peer σ] [GoStd] in
theorem length_of_convertNamedValues [ParameterConverter] {i : Nat} {args : List NamedValue}
    {params : List Value} (h : convertNamedValues i args = .ok params)
    : params.length = args.length := by
  induction args generalizing i params with
  | nil =>
    cases h
    rfl
  | cons arg args ih =>
    unfold convertNamedValues at h
    cases harg : normalizeNamedValue arg with
    | error => simp [harg, bind, Except.bind] at h
    | ok arg' =>
      rw [harg] at h
      simp only [bind, Except.bind] at h
      split at h
      . cases h
      . cases hargs : convertNamedValues (i + 1) args with
        | error => simp [hargs] at h
        | ok values =>
          rw [hargs] at h
          cases h
          simp [ih hargs]

theorem sim_execContext [ParameterConverter] (me : Nat) (ctx : Ctx) (query : GoString)
    {args : List NamedValue} (hlength : IsInt32 args.length) (hn : n + 1 < 2 ^ 31)
    : Triple True (fun c => c.Sim view version n a ∧ c.Accepts ctx query args)
        (execContext me ctx query args).run (fun _ => Sim view version (n + 1) (a.execute engine query))
        (fun _ => Sim view version (n + 1) a) := by
  apply Proc.triple_bind (R := fun params c => params.length = args.length ∧ c.Sim view version n a ∧
    c.sess.Accepts ctx query params)
  . apply Proc.triple_ofExcept
    . exact fun params hparams c hc => ⟨length_of_convertNamedValues hparams, hc.1, hc.2 params hparams⟩
    . exact fun _ _ _ hc => hc.1.mono (by omega)
  . intro params
    apply Triple.assume (fun _ hc => hc.1)
    intro hparams
    rw [← hparams] at hlength
    apply sim_acquired _ (fun _ _ _ hc => hc) (fun _ hc => hc.2.1.mono (by omega))
    apply released _ (fun _ _ _ _ hc => hc) (fun _ _ _ _ hc => hc)
    apply Proc.triple_bind (R := fun _ => Sim view version (n + 1) (a.execute engine query))
    . apply Proc.triple_atomic
      rintro c ⟨-, hc, haccepts⟩
      apply holds_attached
      have hsettled := engine.settled (sqlText query) hc.1.settled
      split
      . exact (Session.knowing_executeUpdate hserves ctx query hn c.sess hc.knowing).imp
          (fun _ _ hs => hc.setSess hs hsettled) (fun _ _ hs => hc.keepStore hs)
      . exact (Session.knowing_executeUpdateWithParams hserves ctx query hlength hn c.sess
          ⟨hc.knowing, haccepts⟩).imp (fun _ _ hs => hc.setSess hs hsettled)
          (fun _ _ hs => hc.keepStore hs)
    . exact fun _ => Proc.triple_pure (fun _ hc => hc)

omit hserves [GoStd] [Peer σ] in
theorem sim_discard
    : Triple True (Sim view version n a) (discard (σ := σ)).run (fun _ _ => False)
        (fun _ => Sim view version n a) := by
  apply Proc.triple_bind (R := fun _ => Sim view version n a)
  . apply Proc.triple_atomic
    intro c hc
    unfold abortSess
    split
    . exact hc.keepStore ((Session.Knowing.durable _ _ _ _ _).abort hc.knowing)
    . exact hc
  . exact fun _ => Proc.triple_throw (fun _ hc => hc)

omit hserves [GoStd] [Peer σ] in
theorem sim_autoCommit
    : Triple True (Sim view version n a) (autoCommit (σ := σ))
        (fun on c => on = a.store.autoCommit ∧ c.Sim view version n a) (fun _ _ => False) := by
  intro c hc
  apply holds_attached
  exact ⟨hc.1.session.autoCommit, hc⟩

theorem sim_rollbackPending (ctx : Ctx) {pending : Bool} (hpending : pending = true ↔ a.store.work ≠ [])
    (hn : n + 1 < 2 ^ 31)
    : Triple True (Sim view version n a) (rollbackPending ctx pending).run
        (fun r => Except.casesOn r (fun _ => Sim view version (n + 1) a)
          (fun _ => Sim view version (n + 1) (a.setStore a.store.rollback)))
        (fun _ _ => False) := by
  cases pending with
  | true =>
    exact (Proc.triple_attempt
      (Proc.triple_atomic (sim_rollbackCurrentTransaction hserves ctx hn))).post
      (fun r c hc => by cases r <;> exact hc)
  | false =>
    have hwork : a.store.work = [] := by simpa using hpending
    have hsame : a.setStore a.store.rollback = a := by
      rw [Store.rollback_of_work hwork]
      rfl
    apply Proc.triple_pure
    intro c hc
    show c.Sim view version (n + 1) (a.setStore a.store.rollback)
    rw [hsame]
    exact hc.mono (by omega)

theorem sim_resetOwned (ctx : Ctx) (hn : n + 1 < 2 ^ 31)
    : Triple True (Sim view version n a) (resetOwned ctx).run
        (fun _ => Sim view version (n + 1) (a.setStore (a.store.rollback.switch true)))
        (fun _ c => ∃ a', (a' = a ∨ a' = a.setStore a.store.rollback) ∧
          c.Sim view version (n + 1) a') := by
  have hdiscard : ∀ a' : Account, (a' = a ∨ a' = a.setStore a.store.rollback) →
      Triple True (Sim view version (n + 1) a') (discard (σ := σ)).run
        (fun _ => Sim view version (n + 1) (a.setStore (a.store.rollback.switch true)))
        (fun _ c => ∃ a', (a' = a ∨ a' = a.setStore a.store.rollback) ∧
          c.Sim view version (n + 1) a') :=
    fun a' ha' => sim_discard.weaken (fun _ hc => hc) (fun _ _ hc => hc.elim)
      (fun _ _ hc => ⟨a', ha', hc⟩)
  apply Proc.triple_bind
  . apply Proc.triple_attempt (F := fun _ => Sim view version (n + 1) a)
      (Q := fun pending c => (pending = true ↔ a.store.work ≠ []) ∧ c.Sim view version n a)
    apply Proc.triple_atomic
    intro c hc
    apply holds_onSessOr _ (hc.mono (by omega))
    exact (Session.knowing_hasPendingTransaction hserves _ c.sess hc.knowing).imp
      (fun _ _ hs => ⟨hs.1, hc.keepStore hs.2⟩) (fun _ _ hs => (hc.keepStore hs).mono (by omega))
  . intro r
    cases r with
    | error => exact hdiscard a (.inl rfl)
    | ok pending =>
      apply Triple.assume (fun _ hc => hc.1)
      intro hpending
      apply Triple.pre (P := Sim view version n a) _ (fun _ hc => hc.2)
      apply Proc.triple_bind (Triple.of_succeeds (sim_rollbackPending hserves ctx hpending hn))
      intro r
      cases r with
      | error => exact hdiscard a (.inl rfl)
      | ok =>
        apply Proc.triple_bind (Proc.triple_atomic sim_autoCommit.of_succeeds)
        intro on
        apply Triple.assume (fun _ hc => hc.1)
        intro hon
        apply Triple.pre (P := Sim view version (n + 1) (a.setStore a.store.rollback)) _
          (fun _ hc => hc.2)
        cases on with
        | true =>
          -- the mode is on already
          apply Proc.triple_pure
          intro c hc
          have hmode : a.store.rollback.autoCommit = true := hon.symm
          rw [Store.switch_of_autoCommit hmode]
          exact hc
        | false =>
          apply Proc.triple_bind
          . exact Proc.triple_attempt (Proc.triple_atomic (sim_setAutoCommit hserves ctx true))
          . intro r
            cases r with
            | error => exact hdiscard _ (.inr rfl)
            | ok =>
              apply Proc.triple_pure
              intro c hc
              rw [Store.setAutoCommit_of_work rfl] at hc
              exact hc

theorem sim_resetSession (me : Nat) (ctx : Ctx) (hn : n + 1 < 2 ^ 31)
    : Triple True (Sim view version n a) (resetSession me ctx).run
        (fun _ => Sim view version (n + 1) (a.setStore (a.store.rollback.switch true)))
        (fun _ c => ∃ a', (a' = a ∨ a' = a.setStore a.store.rollback) ∧
          c.Sim view version (n + 1) a') := by
  have hstep : ∀ {α : Type} {m : Prog Err (Conn σ) α}, Keeps (Sim view version n a) m →
      Triple True (Sim view version n a) (Proc.atomic m).run (fun _ => Sim view version n a)
        (fun _ c => ∃ a', (a' = a ∨ a' = a.setStore a.store.rollback) ∧
          c.Sim view version (n + 1) a') :=
    fun h => Proc.triple_atomic (h.weaken (fun _ hc => hc) (fun _ _ hc => hc)
      (fun _ _ hc => ⟨a, .inl rfl, hc.mono (by omega)⟩))
  apply Proc.triple_bind (hstep (keeps_checkContext ctx))
  intro _
  apply Proc.triple_bind (hstep keeps_checkAttached)
  intro _
  apply Proc.triple_bind (Proc.triple_tried (Proc.triple_atomic (sim_acquire _)))
  intro r
  cases r with
  | error => exact Proc.triple_throw (fun _ hc => ⟨a, .inl rfl, hc.mono (by omega)⟩)
  | ok =>
    exact released _ (fun _ _ _ _ hc => hc) (fun _ _ _ _ hc => hc) (sim_resetOwned hserves ctx hn)

theorem sim_closeSession
    : Triple True (Sim view version n a) (onSess Session.close)
        (fun _ c => ∃ a', (a' = a ∨ a' = a.setStore a.store.rollback) ∧ c.Sim view version n a')
        (fun _ _ => False) := by
  intro c hc
  apply holds_attached
  refine (Session.mirrors_close hserves c.sess hc.1.session).imp ?_ (fun _ _ hs => hs)
  rintro _ s ⟨hclosed, hs | hs⟩
  . exact ⟨a, .inl rfl, hc.keepStore ⟨hs, by simp [hclosed]⟩⟩
  . exact ⟨_, .inr rfl, hc.setSess ⟨hs, by simp [hclosed]⟩ (Store.settled_of_work rfl)⟩

theorem sim_rollbackOpen (hn : n + 1 < 2 ^ 31)
    : Triple True (Sim view version n a) rollbackOpen
        (fun _ c => ∃ a', (a' = a ∨ a' = a.setStore a.store.rollback) ∧ c.Sim view version (n + 1) a')
        (fun _ _ => False) := by
  intro c hc
  unfold rollbackOpen
  split
  . exact ⟨a, .inl rfl, hc.mono (by omega)⟩
  . refine Triple.tried (P := fun c' => c' = c) ?_ c rfl
    rintro _ rfl
    apply holds_attached
    exact (Session.knowing_rollbackCurrentTransaction hserves _ hn _ hc.knowing).imp
      (fun _ _ hs => ⟨_, .inr rfl, hc.setSess hs (Store.settled_of_work rfl)⟩)
      (fun _ _ hs => ⟨a, .inl rfl, hc.keepStore hs⟩)

theorem sim_close (hn : n + 1 < 2 ^ 31)
    : Triple True (Sim view version n a) close
        (fun _ c => ∃ a', (a' = a ∨ a' = a.setStore a.store.rollback) ∧ c.Sim view version (n + 1) a')
        (fun _ c => ∃ a', (a' = a ∨ a' = a.setStore a.store.rollback) ∧
          c.Sim view version (n + 1) a') := by
  apply Triple.get_then
  intro c
  apply Triple.ite
  . exact fun _ => Triple.pure (fun _ hc => ⟨a, .inl rfl, hc.mono (by omega)⟩)
  . intro _
    apply Triple.ite
    . exact fun _ => Triple.modify (fun _ hc => ⟨a, .inl rfl, Sim.mono hc (by omega)⟩)
    . intro _
      apply Triple.bind (sim_rollbackOpen hserves hn).of_succeeds
      intro _
      apply Triple.bind (R := fun _ c => ∃ a', (a' = a ∨ a' = a.setStore a.store.rollback) ∧
        c.Sim view version (n + 1) a')
      . apply Triple.tried
        rintro c ⟨a1, ha1, hc⟩
        refine (sim_closeSession hserves c hc).imp ?_ (fun _ _ hs => hs.elim)
        rintro _ c' ⟨a2, ha2, hc'⟩
        refine ⟨a2, ?_, hc'⟩
        rcases ha1 with rfl | rfl
        . exact ha2
        . rcases ha2 with rfl | rfl
          . exact .inr rfl
          . exact .inr rfl
      . intro r
        apply Triple.bind (R := fun _ c => ∃ a', (a' = a ∨ a' = a.setStore a.store.rollback) ∧
          c.Sim view version (n + 1) a')
        . exact Triple.modify (fun _ hc => hc)
        . intro _
          cases r with
          | ok => exact Triple.pure (fun _ hc => hc)
          | error => exact Triple.throw (fun _ hc => hc)

end Calls

end Conn

namespace Tx

variable [Peer σ] [GoStd] {engine : Engine} {view : σ → Desk} {version n : Int} {a : Account}
  (hserves : Serves engine version view)

open Conn (Sim)

omit [Peer σ] [GoStd] in
theorem level_of_txIsolationSQL {isolation : Int} {level : GoString} {restoreIsolation : Bool}
    (h : txIsolationSQL isolation = .ok (level, restoreIsolation))
    : level = [] ∨ level ∈ isolationLevels := by
  unfold txIsolationSQL at h
  split at h
  . cases h
    exact .inl rfl
  . right
    split at h
    . cases h
      decide
    . split at h
      . cases h
        decide
      . split at h
        . cases h
          decide
        . split at h
          . cases h
            decide
          . split at h <;> cases h

include hserves

/--
A transaction whose isolation level cannot be set is not begun. That autocommit is on again commits
nothing, since nothing has been executed yet.
-/
theorem sim_setIsolation (ctx : Ctx) {level : GoString} (hlevel : level = [] ∨ level ∈ isolationLevels)
    (hon : a.store.autoCommit = true) (hwork : a.store.work = []) (hn : n + 1 < 2 ^ 31)
    : Triple True (Sim view version n (a.setStore (a.store.switch false)))
        (setIsolation ctx level).run
        (fun _ => Sim view version (n + 1) (a.setStore (SqlStore.begun level a.store)))
        (fun _ c => ∃ a', (a' = a ∨ a' = a.setStore (a.store.switch false)) ∧
          c.Sim view version (n + 1) a') := by
  unfold setIsolation
  split
  . next hnil =>
    apply Proc.triple_pure
    intro c hc
    rw [SqlStore.begun, if_pos hnil]
    exact hc.mono (by omega)
  . next hne =>
    have hlevel' : level ∈ isolationLevels := hlevel.resolve_left hne
    have hbegun : SqlStore.begun level a.store
        = (a.store.switch false).setIsolation level := by
      rw [SqlStore.begun, if_neg hne]
      rfl
    have hagain : (a.store.switch false).setAutoCommit true = a.store := by
      have hwork' : (a.store.switch false).work = [] := hwork
      rw [Store.setAutoCommit_of_work hwork']
      exact Store.switch_of_autoCommit hon
    rw [hbegun]
    apply Proc.triple_bind
    . exact Proc.triple_attempt
        (Proc.triple_atomic (Conn.sim_setTransactionIsolation hserves ctx hlevel' hn))
    . intro r
      cases r with
      | ok => exact Proc.triple_pure (fun _ hc => hc)
      | error err =>
        apply Proc.triple_bind
        . exact Proc.triple_attempt
            (Proc.triple_atomic (Conn.sim_setAutoCommit hserves .background true))
        . intro r
          cases r with
          | ok =>
            apply Proc.triple_throw
            intro c hc
            refine ⟨a, .inl rfl, ?_⟩
            have hc' : c.Sim view version (n + 1)
                (a.setStore ((a.store.switch false).setAutoCommit true)) := hc
            rw [hagain] at hc'
            exact hc'
          | error => exact Proc.triple_throw (fun _ hc => ⟨_, .inr rfl, hc⟩)

theorem sim_beginOwned (ctx : Ctx) {level : GoString} (hlevel : level = [] ∨ level ∈ isolationLevels)
    (hn : n + 1 < 2 ^ 31)
    : Triple True (Sim view version n a) (beginOwned ctx level).run
        (fun _ c => a.store.autoCommit = true ∧
          c.Sim view version (n + 1) (a.setStore (SqlStore.begun level a.store)))
        (fun _ c => ∃ a', (a' = a ∨ a.store.autoCommit = true ∧
          a' = a.setStore (a.store.switch false)) ∧ c.Sim view version (n + 1) a') := by
  apply Triple.assume (fun _ hc => hc.1.settled)
  intro hsettled
  apply Proc.triple_bind (Proc.triple_atomic Conn.sim_autoCommit.of_succeeds)
  intro on
  apply Triple.assume (fun _ hc => hc.1)
  intro hon
  apply Triple.pre (P := Sim view version n a) _ (fun _ hc => hc.2)
  cases on with
  | false => exact Proc.triple_throw (fun _ hc => ⟨a, .inl rfl, hc.mono (by omega)⟩)
  | true =>
    apply Proc.triple_bind
    . apply Proc.triple_atomic
      exact (Conn.sim_setAutoCommit hserves ctx false).weaken (fun _ hc => hc) (fun _ _ hc => hc)
        (fun _ _ hc => ⟨a, .inl rfl, hc.mono (by omega)⟩)
    . intro _
      apply (sim_setIsolation hserves ctx hlevel hon.symm (hsettled hon.symm) hn).weaken
        (fun _ hc => hc)
      . exact fun _ _ hc => ⟨hon.symm, hc⟩
      . rintro _ c ⟨a', rfl | rfl, hc⟩
        . exact ⟨_, .inl rfl, hc⟩
        . exact ⟨_, .inr ⟨hon.symm, rfl⟩, hc⟩

theorem sim_beginTx (me : Nat) (ctx : Ctx) (isolation : Int) (readOnly : Bool) (hn : n + 1 < 2 ^ 31)
    : Triple True (Sim view version n a) (beginTx me ctx isolation readOnly).run
        (fun _ c => ∃ a', (Call.beginTx ctx isolation readOnly).Effect engine true a a' ∧
          c.Sim view version (n + 1) a')
        (fun _ c => ∃ a', (Call.beginTx ctx isolation readOnly).Effect engine false a a' ∧
          c.Sim view version (n + 1) a') := by
  have hnothing : ∀ c : Conn σ, c.Sim view version n a →
      ∃ a', (Call.beginTx ctx isolation readOnly).Effect engine false a a' ∧
        c.Sim view version (n + 1) a' :=
    fun c hc => ⟨a, .nothing (.inl rfl), hc.mono (by omega)⟩
  have hstep : ∀ {α : Type} {m : Prog Err (Conn σ) α}, Keeps (Sim view version n a) m →
      Triple True (Sim view version n a) (Proc.atomic m).run (fun _ => Sim view version n a)
        (fun _ c => ∃ a', (Call.beginTx ctx isolation readOnly).Effect engine false a a' ∧
          c.Sim view version (n + 1) a') :=
    fun h => Proc.triple_atomic (h.weaken (fun _ hc => hc) (fun _ _ hc => hc)
      (fun _ c hc => hnothing c hc))
  apply Proc.triple_bind (hstep (Conn.keeps_checkContext ctx))
  intro _
  apply Proc.triple_bind (hstep Conn.keeps_checkAttached)
  intro _
  split
  . exact Proc.triple_throw hnothing
  . apply Proc.triple_bind (R := fun level c => txIsolationSQL isolation = .ok level ∧
      c.Sim view version n a)
    . exact Proc.triple_ofExcept (fun _ hlevel _ hc => ⟨hlevel, hc⟩) (fun _ _ => hnothing)
    . rintro ⟨level, restoreIsolation⟩
      apply Triple.assume (fun _ hc => hc.1)
      intro hlevel
      apply Triple.pre (P := Sim view version n a) _ (fun _ hc => hc.2)
      apply Proc.triple_bind (hstep (Conn.sim_acquire _))
      intro _
      apply Proc.triple_bind (R := fun _ c => a.store.autoCommit = true ∧
        c.Sim view version (n + 1) (a.setStore (SqlStore.begun level a.store)))
      . apply Proc.triple_onStop
        . exact sim_beginOwned hserves ctx (level_of_txIsolationSQL hlevel) hn
        . intro e
          apply Proc.triple_atomic
          apply Triple.modify
          rintro c ⟨a', rfl | ⟨hon, rfl⟩, hc⟩
          . exact ⟨_, .nothing (.inl rfl), hc⟩
          . exact ⟨_, .stranded ctx isolation readOnly hon, hc⟩
        . exact Proc.triple_atomic (Triple.modify (fun _ _ => True.intro))
      . intro _
        apply Proc.triple_bind (R := fun _ c => a.store.autoCommit = true ∧
          c.Sim view version (n + 1) (a.setStore (SqlStore.begun level a.store)))
        . exact Proc.triple_atomic (Triple.modify (fun _ hc => hc))
        . intro _
          apply Proc.triple_atomic
          rintro c ⟨hon, hc⟩
          refine ⟨_, .begun ctx readOnly hon hlevel, ?_⟩
          exact ⟨⟨hc.1.session, hc.1.settled, hc.1.named, hc.1.length,
            congrArg (fun txs => txs ++ [{ restoreIsolation, done := false : Tx }]) hc.1.txs⟩, hc.2⟩

omit hserves [Peer σ] [GoStd] in
theorem sim_onTx {t : Nat} {m : Prog Err Tx α} {R : α → Tx → Tx → Prop}
    (h : ∀ tx, (m tx).Holds True (fun x tx' => R x tx tx') (fun _ tx' => tx' = tx))
    : Triple True (Sim view version n a) (Conn.onTx t m)
        (fun x c => ∃ tx tx', a.txs[t]? = some tx ∧ R x tx tx' ∧
          c.Sim view version n { a with txs := a.txs.set t tx' })
        (fun _ => Sim view version n a) := by
  intro c hc
  unfold Conn.onTx
  split
  . next tx htx =>
    have hm := h tx
    cases hrun : m tx with
    | ok x tx' =>
      rw [hrun] at hm
      refine ⟨tx, tx', by rw [hc.1.txs]; exact htx, hm, ?_, hc.2⟩
      exact ⟨hc.1.session, hc.1.settled, hc.1.named, hc.1.length,
        congrArg (fun txs => txs.set t tx') hc.1.txs⟩
    | fail e tx' =>
      rw [hrun] at hm
      have hset : c.txs.set t tx' = c.txs := by
        rw [show tx' = tx from hm]
        obtain ⟨hlt, rfl⟩ := List.getElem?_eq_some_iff.mp htx
        exact List.set_getElem_self hlt
      refine ⟨⟨hc.1.session, hc.1.settled, hc.1.named, hc.1.length, ?_⟩, hc.2⟩
      exact hc.1.txs.trans hset.symm
    | panic | stuck => trivial
  . trivial

omit hserves [Peer σ] [GoStd] in
theorem sim_claim (t : Nat)
    : Triple True (Sim view version n a) (Conn.onTx t claim)
        (fun restoreIsolation c => ∃ tx, a.txs[t]? = some tx ∧ tx.done = false ∧
          tx.restoreIsolation = restoreIsolation ∧ c.Sim view version n (a.finish t tx))
        (fun _ => Sim view version n a) := by
  apply (sim_onTx (R := fun restoreIsolation tx tx' => tx.done = false ∧
    tx.restoreIsolation = restoreIsolation ∧ tx' = { tx with done := true }) _).post
  . rintro _ c ⟨tx, _, htx, ⟨hdone, hrestore, rfl⟩, hc⟩
    exact ⟨tx, htx, hdone, hrestore, hc⟩
  . intro tx
    unfold claim
    split
    . rfl
    . next hdone => exact ⟨by simpa using hdone, rfl, rfl⟩

omit hserves [Peer σ] [GoStd] in
theorem sim_checkDone (t : Nat)
    : Triple True (Sim view version n a) (Conn.onTx t checkDone)
        (fun _ c => (∃ tx, a.txs[t]? = some tx ∧ tx.done = false) ∧ c.Sim view version n a)
        (fun _ => Sim view version n a) := by
  apply (sim_onTx (R := fun _ tx tx' => tx.done = false ∧ tx' = tx) _).post
  . rintro _ c ⟨tx, tx', htx, ⟨hdone, hsame⟩, hc⟩
    refine ⟨⟨tx, htx, hdone⟩, ?_⟩
    obtain ⟨hlt, rfl⟩ := List.getElem?_eq_some_iff.mp htx
    rw [hsame, List.set_getElem_self hlt] at hc
    exact hc
  . intro tx
    unfold checkDone
    split
    . rfl
    . next hdone => exact ⟨by simpa using hdone, rfl⟩

omit hserves [Peer σ] [GoStd] in
theorem sim_setDone {t : Nat} {tx : Tx} (htx : a.txs[t]? = some tx)
    : Triple True (Sim view version n a) (Conn.onTx t setDone)
        (fun _ => Sim view version n (a.finish t tx)) (fun _ => Sim view version n a) := by
  apply (sim_onTx (R := fun _ tx tx' => tx' = { tx with done := true }) _).post
  . rintro _ c ⟨tx', _, htx', rfl, hc⟩
    rw [htx] at htx'
    cases htx'
    exact hc
  . exact fun _ => rfl

theorem sim_restore (restoreIsolation : Bool) (hn : n + 1 < 2 ^ 31)
    : Triple True (Sim view version n a) (restore restoreIsolation).run
        (fun r => Except.casesOn r (fun _ => Sim view version (n + 1) a) (fun _ => Sim view version (n + 1)
          (a.setStore (if restoreIsolation then a.store.setIsolation defaultTxIsolationSQL else a.store))))
        (fun _ _ => False) := by
  cases restoreIsolation with
  | true =>
    have hlevel : defaultTxIsolationSQL ∈ isolationLevels := by decide
    exact (Proc.triple_attempt
      (Proc.triple_atomic (Conn.sim_setTransactionIsolation hserves .background hlevel hn))).post
      (fun r c hc => by cases r <;> exact hc)
  | false => exact Proc.triple_pure (fun _ hc => Sim.mono hc (by omega))

theorem sim_finished {t : Nat} {tx : Tx} (htx : a.txs[t]? = some tx) (hdone : tx.done = false)
    {d : SqlStore} (hwork : d.work = []) (hn : n + 1 < 2 ^ 31)
    : Triple True (Sim view version n ((a.finish t tx).setStore d))
        (do
          let isolationErr ← restore tx.restoreIsolation
          let autoCommitErr ← Proc.attempt (.atomic (Conn.setAutoCommit .background true))
          .ofExcept (joinErrors isolationErr autoCommitErr) : Proc Err (Conn σ) Unit).run
        (fun _ c => ∃ a', Account.Finishes t d true a a' ∧ c.Sim view version (n + 1) a')
        (fun _ c => ∃ a', Account.Finishes t d false a a' ∧ c.Sim view version (n + 1) a') := by
  have hmode : ∀ (d' : SqlStore), d'.work = [] →
      Triple True (Sim view version (n + 1) ((a.finish t tx).setStore d'))
        (Proc.attempt (.atomic (Conn.setAutoCommit .background true)) : Proc Err (Conn σ) _).run
        (fun r => Except.casesOn r (fun _ => Sim view version (n + 1) ((a.finish t tx).setStore d'))
          (fun _ => Sim view version (n + 1) ((a.finish t tx).setStore (d'.switch true))))
        (fun _ _ => False) := by
    intro d' hwork'
    have hset := Conn.sim_setAutoCommit (n := n + 1) (a := (a.finish t tx).setStore d') hserves
      .background true
    rw [show ((a.finish t tx).setStore d').store = d' from rfl, Store.setAutoCommit_of_work hwork'] at hset
    exact (Proc.triple_attempt (Proc.triple_atomic hset)).post (fun r c hc => by cases r <;> exact hc)
  let level := if tx.restoreIsolation then d.setIsolation defaultTxIsolationSQL else d
  have hlevel : level.work = d.work ∧ level.committed = d.committed := by
    dsimp only [level]
    split
    . exact ⟨rfl, rfl⟩
    . exact ⟨rfl, rfl⟩
  have hhalf : ∀ (d' : SqlStore) (c : Conn σ), d'.work = d.work ∧ d'.committed = d.committed →
      c.Sim view version (n + 1) ((a.finish t tx).setStore d') →
      ∃ a', Account.Finishes t d false a a' ∧ c.Sim view version (n + 1) a' :=
    fun d' c hd' hc => ⟨_, .half htx hdone hd'.1 hd'.2, hc⟩
  apply Proc.triple_bind (Triple.of_succeeds (sim_restore hserves tx.restoreIsolation hn))
  intro r1
  cases r1 with
  | error e =>
    apply Proc.triple_bind (Triple.of_succeeds (hmode d hwork))
    intro r2
    cases r2 with
    | error e' => exact Proc.triple_throw (fun c hc => hhalf d c ⟨rfl, rfl⟩ hc)
    | ok => exact Proc.triple_throw (fun c hc => hhalf (d.switch true) c ⟨rfl, rfl⟩ hc)
  | ok =>
    apply Proc.triple_bind (Triple.of_succeeds (hmode level (hlevel.1.trans hwork)))
    intro r2
    cases r2 with
    | error e' => exact Proc.triple_throw (fun c hc => hhalf level c hlevel hc)
    | ok => exact Proc.triple_pure (fun c hc => ⟨_, .complete htx hdone, hc⟩)

theorem sim_finishOwned (t : Nat) (rollback : Bool) (hn : n + 2 < 2 ^ 31)
    : Triple True (Sim view version n a) (finishOwned t rollback).run
        (fun _ c => ∃ a', Account.Finishes t (a.store.conclude rollback)
          true a a' ∧ c.Sim view version (n + 2) a')
        (fun _ c => ∃ a', (a' = a ∨
          Account.Finishes t (a.store.conclude rollback) false a a') ∧
            c.Sim view version (n + 2) a') := by
  apply Proc.triple_bind
  . apply Proc.triple_atomic
    exact (sim_claim t).weaken (fun _ hc => hc) (fun _ _ hc => hc)
      (fun _ _ hc => ⟨a, .inl rfl, hc.mono (by omega)⟩)
  . rintro restoreIsolation c ⟨tx, htx, hdone, rfl, hc⟩
    have hrefused : ∀ c : Conn σ, c.Sim view version (n + 1) (a.finish t tx) →
        ∃ a', (a' = a ∨ Account.Finishes t (a.store.conclude rollback) false a a') ∧
          c.Sim view version (n + 2) a' :=
      fun c hc => ⟨_, .inr (.refused htx hdone), hc.mono (by omega)⟩
    refine Proc.triple_bind (P := Sim view version n (a.finish t tx)) (R := fun _ =>
      Sim view version (n + 1) ((a.finish t tx).setStore (a.store.conclude rollback))) ?_ ?_ c hc
    . apply Proc.triple_atomic
      cases rollback with
      | true =>
        exact (Conn.sim_rollbackCurrentTransaction hserves _ (by omega)).weaken (fun _ hc => hc)
          (fun _ _ hc => hc) (fun _ c hc => hrefused c hc)
      | false =>
        exact (Conn.sim_commitCurrentTransaction hserves _).weaken (fun _ hc => hc)
          (fun _ _ hc => hc.mono (by omega)) (fun _ c hc => hrefused c (hc.mono (by omega)))
    . intro _
      apply (sim_finished hserves htx hdone (Store.work_conclude rollback _) (by omega)).weaken
        (fun _ hc => hc)
      . rintro _ c ⟨a', ha', hc⟩
        exact ⟨a', ha', hc.mono (by omega)⟩
      . rintro _ c ⟨a', ha', hc⟩
        exact ⟨a', .inr ha', hc.mono (by omega)⟩

theorem sim_finishTransaction (me t : Nat) (rollback : Bool) (hn : n + 2 < 2 ^ 31)
    : Triple True (Sim view version n a) (finishTransaction me t rollback).run
        (fun _ c => ∃ a', Account.Finishes t (a.store.conclude rollback) true a a' ∧
          c.Sim view version (n + 2) a')
        (fun _ c => ∃ a', (a' = a ∨ Account.Finishes t (a.store.conclude rollback) false a a') ∧
          c.Sim view version (n + 2) a') := by
  have hnothing : ∀ c : Conn σ, c.Sim view version n a →
      ∃ a', (a' = a ∨ Account.Finishes t (a.store.conclude rollback) false a a') ∧
        c.Sim view version (n + 2) a' :=
    fun c hc => ⟨a, .inl rfl, hc.mono (by omega)⟩
  have hstep : ∀ {α : Type} {m : Prog Err (Conn σ) α}, Keeps (Sim view version n a) m →
      Triple True (Sim view version n a) (Proc.atomic m).run (fun _ => Sim view version n a)
        (fun _ c => ∃ a', (a' = a ∨ Account.Finishes t (a.store.conclude rollback) false a a') ∧
          c.Sim view version (n + 2) a') :=
    fun h => Proc.triple_atomic (h.weaken (fun _ hc => hc) (fun _ _ hc => hc)
      (fun _ c hc => hnothing c hc))
  apply Proc.triple_bind (R := fun _ c => (∃ tx, a.txs[t]? = some tx ∧ tx.done = false) ∧
    c.Sim view version n a)
  . apply Proc.triple_atomic
    exact (sim_checkDone t).weaken (fun _ hc => hc) (fun _ _ hc => hc) (fun _ c hc => hnothing c hc)
  . intro _
    apply Triple.assume (fun _ hc => hc.1)
    rintro ⟨tx, htx, hdone⟩
    apply Triple.pre (P := Sim view version n a) _ (fun _ hc => hc.2)
    apply Proc.triple_bind (hstep Conn.keeps_checkAttached)
    intro _
    apply Proc.triple_bind (Proc.triple_tried (Proc.triple_atomic (Conn.sim_acquire _)))
    intro r
    cases r with
    | error err =>
      dsimp only
      split
      . apply Proc.triple_bind
          (R := fun _ => Sim view version n (a.finish t tx))
        . apply Proc.triple_atomic
          exact (sim_setDone htx).weaken (fun _ hc => hc) (fun _ _ hc => hc)
            (fun _ c hc => hnothing c hc)
        . exact fun _ => Proc.triple_throw
            (fun _ hc => ⟨_, .inr (.refused htx hdone), hc.mono (by omega)⟩)
      . exact Proc.triple_throw hnothing
    | ok =>
      exact Conn.released _ (fun _ _ _ _ hc => hc) (fun _ _ _ _ hc => hc)
        (sim_finishOwned hserves t rollback hn)

end Tx

end H2Go
