import H2Go.Conn.Simulation

/-!
This module contains the calls of statements and rows on a server that keeps to its contract, and from
all calls the proof that a connection refines the account of its server.
-/

namespace H2Go

variable {σ : Type} {α : Type}

namespace Conn

/--
A property of the connection that does not depend on its flags and on what the statements do with
their commands, except that they close them.
-/
structure Stable [Peer σ] (P : Conn σ → Prop) : Prop where
  flags : ∀ c busy log, P c → P { c with busy, log }
  stmt : ∀ c s stmt stmt', P c → c.stmts[s]? = some stmt → (stmt'.cmd = stmt.cmd ∨ stmt'.cmd = none) →
    P { c with stmts := c.stmts.set s stmt' }
  closeCommand : ∀ cmd, Triple True P (Stmt.closeCommand cmd) (fun _ => P) (fun _ _ => False)

theorem known_set_subset {stmts : List Stmt} {i : Nat} {stmt stmt' : Stmt} (h : stmts[i]? = some stmt)
    (hcmd : stmt'.cmd = stmt.cmd ∨ stmt'.cmd = none)
    : (stmts.set i stmt').flatMap Stmt.known ⊆ stmts.flatMap Stmt.known := by
  intro x hx
  obtain ⟨y, hy, hxy⟩ := List.mem_flatMap.mp hx
  rcases List.mem_or_eq_of_mem_set hy with hy | rfl
  . exact List.mem_flatMap.mpr ⟨y, hy, hxy⟩
  . rcases hcmd with hcmd | hcmd
    . refine List.mem_flatMap.mpr ⟨stmt, List.mem_of_getElem? h, ?_⟩
      rw [Stmt.known, ← hcmd]
      exact hxy
    . simp [Stmt.known, hcmd] at hxy

theorem Follows.setStmt {view : σ → Desk} {version n : Int} {a : Account} {c : Conn σ}
    (h : c.Follows view version n a) {s : Nat} {stmt stmt' : Stmt} (hstmt : c.stmts[s]? = some stmt)
    (hcmd : stmt'.cmd = stmt.cmd ∨ stmt'.cmd = none)
    : Follows view version n a { c with stmts := c.stmts.set s stmt' } := by
  refine ⟨h.session.subset (known_set_subset hstmt hcmd), h.settled, ?_, ?_, h.txs⟩
  . intro i y cmd hy hycmd
    rcases Decidable.em (i = s) with rfl | hne
    . rw [getElem?_set_of_some hstmt] at hy
      cases hy
      rcases hcmd with hcmd | hcmd
      . exact h.named i stmt cmd hstmt (hcmd.symm.trans hycmd)
      . rw [hcmd] at hycmd
        cases hycmd
    . rw [List.getElem?_set_ne (Ne.symm hne)] at hy
      exact h.named i y cmd hy hycmd
  . rw [List.length_set]
    exact h.length

theorem Follows.setSess {view : σ → Desk} {version n n' : Int} {a : Account} {c : Conn σ}
    (h : c.Follows view version n a) {s : Session σ}
    (hs : s.Mirrors view version n' (c.stmts.flatMap Stmt.known) a.store [])
    : (c.setSess s).Follows view version n' a :=
  ⟨hs, h.settled, h.named, h.length, h.txs⟩

theorem follows_openRows {view : σ → Desk} {version n : Int} {a : Account} (o : Owner) (rows : Rows)
    (callback : RowsCallback)
    : Keeps (Follows view version n a) (openRows o rows callback) :=
  fun _ hc => hc

variable [Peer σ] [GoStd] {engine : Engine} {view : σ → Desk} {version n : Int} {a : Account}
  (hserves : Serves engine version view)

include hserves

theorem stable_sim : Stable (Sim view version n a) where
  flags _ _ _ hc := hc
  stmt _ _ _ _ hc hstmt hcmd := ⟨hc.1.setStmt hstmt hcmd, hc.2⟩
  closeCommand cmd := by
    intro c hc
    unfold Stmt.closeCommand
    split
    . apply holds_attached
      exact (Session.knowing_closeCommand hserves cmd c.sess hc.knowing).imp
        (fun _ _ hs => hc.keepStore hs) (fun _ _ hs => hs)
    . exact hc

theorem stable_follows : Stable (Follows view version n a) where
  flags _ _ _ hc := hc
  stmt _ _ _ _ hc hstmt hcmd := hc.setStmt hstmt hcmd
  closeCommand cmd := by
    intro c hc
    unfold Stmt.closeCommand
    split
    . apply holds_attached
      exact (Session.mirrors_closeCommand hserves cmd c.sess hc.session).imp
        (fun _ _ hs => hc.setSess hs) (fun _ _ hs => hs)
    . exact hc

end Conn

namespace Stmt

section Steps

variable [Peer σ] {P : Conn σ → Prop} (hP : Conn.Stable P)

include hP

theorem stable_onStmt {s : Nat} {m : Prog Err Stmt α} {S : Stmt → Prop} {R : α → Stmt → Prop} {F : Prop}
    (h : ∀ stmt, S stmt → (m stmt).Holds True
      (fun x stmt' => (stmt'.cmd = stmt.cmd ∨ stmt'.cmd = none) ∧ R x stmt')
      (fun _ stmt' => F ∧ stmt'.cmd = stmt.cmd))
    : Triple True (fun c => P c ∧ ∀ stmt, c.stmts[s]? = some stmt → S stmt) (Conn.onStmt s m)
        (fun x c => P c ∧ ∃ stmt, c.stmts[s]? = some stmt ∧ R x stmt) (fun _ c => F ∧ P c) := by
  rintro c ⟨hc, hs⟩
  unfold Conn.onStmt
  split
  . next stmt hstmt =>
    have hm := h stmt (hs stmt hstmt)
    cases hrun : m stmt with
    | ok x stmt' =>
      rw [hrun] at hm
      exact ⟨hP.stmt c s stmt stmt' hc hstmt hm.1, stmt', Conn.getElem?_set_of_some hstmt stmt', hm.2⟩
    | fail e stmt' =>
      rw [hrun] at hm
      exact ⟨hm.1, hP.stmt c s stmt stmt' hc hstmt (.inl hm.2)⟩
    | panic | stuck => trivial
  . trivial

theorem stable_stmt {s : Nat} {m : Prog Err Stmt α}
    (h : ∀ stmt, (m stmt).Holds True (fun _ stmt' => stmt'.cmd = stmt.cmd ∨ stmt'.cmd = none)
      (fun _ _ => False))
    : Triple True P (Conn.onStmt s m) (fun _ => P) (fun _ _ => False) := by
  have hstep := stable_onStmt hP (s := s) (m := m) (S := fun _ => True) (R := fun _ _ => True) (F := False)
    (fun stmt _ => (h stmt).imp (fun _ _ hcmd => ⟨hcmd, True.intro⟩) (fun _ _ hf => hf.elim))
  exact hstep.weaken (fun _ hc => ⟨hc, fun _ _ => True.intro⟩) (fun _ _ hc => hc.1) (fun _ _ hc => hc.1)

theorem stable_markCommandClosed (s : Nat) (cmd : PreparedCommand)
    : Triple True P (Conn.onStmt s (markCommandClosed cmd)) (fun _ => P) (fun _ _ => False) := by
  apply stable_stmt hP
  intro stmt
  rw [markCommandClosed, Prog.modify_run]
  split
  . exact .inr rfl
  . exact .inl rfl

theorem stable_closeAndMark (s : Nat) (cmd : PreparedCommand)
    : Triple True P (do
        .atomic (closeCommand cmd)
        .atomic (Conn.onStmt s (markCommandClosed cmd)) : Proc Err (Conn σ) Unit).run
        (fun _ => P) (fun _ _ => False) :=
  Proc.triple_bind (Proc.triple_atomic (hP.closeCommand cmd))
    (fun _ => Proc.triple_atomic (stable_markCommandClosed hP s cmd))

theorem stable_closePendingOnOwnedConn (s : Nat)
    : Triple True P (closePendingOnOwnedConn s).run (fun _ => P) (fun _ _ => False) := by
  apply Proc.triple_bind (R := fun _ => P)
  . apply Proc.triple_atomic
    apply stable_stmt hP
    intro stmt
    unfold pendingCommand
    split
    . exact .inl rfl
    . exact .inl rfl
  . intro r
    cases r with
    | none => exact Proc.triple_pure (fun _ hc => hc)
    | some cmd => exact stable_closeAndMark hP s cmd

theorem stable_finishOperation (s : Nat) (o : Owner)
    : Triple True P (finishOperation s o).run (fun _ => P) (fun _ _ => False) :=
  Conn.released o (fun _ => hP.flags) (fun _ _ _ _ hc => hc) (stable_closePendingOnOwnedConn hP s)

theorem stable_close (me s : Nat) : Keeps P (close me s).run := by
  apply Proc.triple_bind (R := fun _ => P)
  . apply Proc.triple_atomic
    apply (stable_stmt hP _).of_succeeds
    intro stmt
    unfold beginClose
    split
    . exact .inl rfl
    . split
      . exact .inl rfl
      . exact .inl rfl
  . rintro (_ | ⟨connected, cmd⟩)
    . exact Proc.triple_pure (fun _ hc => hc)
    . dsimp only
      split
      . exact Proc.triple_atomic (stable_markCommandClosed hP s cmd).of_succeeds
      . apply Proc.triple_bind
          (Proc.triple_tried (Proc.triple_atomic (Conn.keeps_acquire hP.flags _)))
        intro r
        cases r with
        | error =>
          apply Proc.triple_atomic
          apply (stable_stmt hP _).of_succeeds
          intro stmt
          rw [deferClose, Prog.modify_run]
          split
          . exact .inl rfl
          . exact .inl rfl
        | ok =>
          apply Conn.released _ (fun _ => hP.flags) (fun _ => hP.flags)
          exact (stable_closeAndMark hP s cmd).of_succeeds

variable [GoStd]

theorem stable_beginOperation (s : Nat) (o : Owner) (params : List Value)
    : Triple True (fun c => P c ∧ ∀ stmt, c.stmts[s]? = some stmt → stmt.Encodes params)
        (beginOperation s o)
        (fun cmd c => Tr.AllFit cmd.params 0 params ∧ P c ∧ c.Has s cmd) (fun _ => P) := by
  apply Triple.bind
  . apply (stable_onStmt hP (F := True)
      (R := fun cmd stmt => Tr.AllFit cmd.params 0 params ∧ stmt.cmd = some cmd) _).weaken
      (fun _ hc => hc) (fun _ _ hc => hc) (fun _ _ hc => hc.2)
    intro stmt hfit
    unfold ready
    split
    . next cmd hcmd =>
      split
      . exact ⟨True.intro, rfl⟩
      . exact ⟨.inl rfl, hfit cmd hcmd, hcmd⟩
    . exact ⟨True.intro, rfl⟩
  . intro cmd
    apply Triple.bind (R := fun _ c => Tr.AllFit cmd.params 0 params ∧ P c ∧ c.Has s cmd)
    . rintro c ⟨hc, stmt, hstmt, hfit, hcmd⟩
      have hkeeps : Keeps (fun c : Conn σ => P c ∧ c.Has s cmd) (Conn.acquire o) :=
        (Conn.keeps_acquire hP.flags o).and (Conn.keeps_acquire (fun _ _ _ hc => hc) o)
      exact (hkeeps c ⟨hc, stmt, hstmt, hcmd⟩).imp (fun _ _ h => ⟨hfit, h⟩) (fun _ _ h => h.1)
    . exact fun _ => Triple.pure (fun _ hc => hc)

theorem stable_operation [ParameterConverter] (s : Nat) (o : Owner) (ctx : Ctx) (args : List NamedValue)
    {body : List Value → PreparedCommand → Proc Err (Conn σ) α} {Q : α → Conn σ → Prop}
    {E : Err → Conn σ → Prop} (he : ∀ e c, P c → E e c)
    (h : ∀ params cmd, params.length = args.length → Tr.AllFit cmd.params 0 params →
      Triple True (fun c => P c ∧ c.Has s cmd) (body params cmd).run Q E)
    : Triple True (fun c => P c ∧ Takes s args c)
        (do
          let params ← .ofExcept (convertNamedValues 0 args)
          .atomic (Conn.checkContext ctx)
          let cmd ← .atomic (beginOperation s o)
          body params cmd : Proc Err (Conn σ) α).run
        Q E := by
  apply Proc.triple_bind (R := fun params c => params.length = args.length ∧ P c ∧
    ∀ stmt, c.stmts[s]? = some stmt → stmt.Encodes params)
  . apply Proc.triple_ofExcept
    . rintro params hparams c ⟨hc, htakes⟩
      exact ⟨Conn.length_of_convertNamedValues hparams, hc, fun stmt => htakes params stmt hparams⟩
    . exact fun e _ c hc => he e c hc.1
  . intro params
    apply Triple.assume (fun _ hc => hc.1)
    intro hlength
    apply Proc.triple_bind (R := fun _ c => P c ∧
      ∀ stmt, c.stmts[s]? = some stmt → stmt.Encodes params)
    . apply Proc.triple_atomic
      exact (Conn.keeps_checkContext ctx).weaken (fun _ hc => hc.2) (fun _ _ hc => hc)
        (fun e c hc => he e c hc.1)
    . intro _
      apply Proc.triple_bind (R := fun cmd c => Tr.AllFit cmd.params 0 params ∧ P c ∧ c.Has s cmd)
      . apply Proc.triple_atomic
        exact (stable_beginOperation hP s o params).weaken (fun _ hc => hc) (fun _ _ hc => hc) he
      . rintro cmd c ⟨hfit, hc⟩
        exact h params cmd hlength hfit c hc

end Steps

section Calls

variable [Peer σ] [GoStd] [ParameterConverter] {engine : Engine} {view : σ → Desk} {version n : Int}
  {a : Account} (hserves : Serves engine version view)

include hserves

open Conn (Sim Follows)

theorem sim_execContext (me s : Nat) (ctx : Ctx) {args : List NamedValue} (hlength : IsInt32 args.length)
    (hn : n < 2 ^ 31)
    : Triple True (fun c => c.Sim view version n a ∧ Takes s args c) (execContext me s ctx args).run
        (fun _ c => ∃ sql, a.statements[s]? = some sql ∧ c.Sim view version n (a.execute engine sql))
        (fun _ => Sim view version n a) := by
  apply stable_operation (Conn.stable_sim hserves) s _ ctx args (fun _ _ hc => hc)
  intro params cmd hparams hfit
  rw [← hparams] at hlength
  apply Proc.triple_bind
  . apply Proc.triple_attempt
      (Q := fun _ c => a.statements[s]? = some cmd.sql ∧ c.Sim view version n (a.execute engine cmd.sql))
      (F := fun _ => Sim view version n a)
    apply Proc.triple_atomic
    rintro c ⟨hc, stmt, hstmt, hcmd⟩
    have hknown : (cmd.id, sqlText cmd.sql) ∈ c.stmts.flatMap known :=
      List.mem_flatMap.mpr ⟨stmt, List.mem_of_getElem? hstmt, by simp [known, hcmd]⟩
    apply Conn.holds_onSessOr _ hc
    exact (Session.knowing_executeUpdatePreparedWithParams hserves ctx hfit hlength hknown hn c.sess
      hc.knowing).imp
      (fun _ _ hs => ⟨hc.1.named s stmt cmd hstmt hcmd,
        hc.setSess hs (engine.settled (sqlText cmd.sql) hc.1.settled)⟩)
      (fun _ _ hs => hc.keepStore hs)
  . intro res
    cases res with
    | error =>
      apply Proc.triple_bind
        (Proc.triple_attempt (stable_finishOperation (Conn.stable_sim hserves) s _))
      exact fun closed => Proc.triple_throw (fun _ hc => by cases closed <;> first | exact hc | cases hc)
    | ok res =>
      apply Triple.assume (fun _ hc => hc.1)
      intro hsql
      apply Triple.pre (P := Sim view version n (a.execute engine cmd.sql)) _ (fun _ hc => hc.2)
      apply Proc.triple_bind
        (Proc.triple_attempt (stable_finishOperation (Conn.stable_sim hserves) s _))
      intro closed
      cases closed with
      | error => exact Proc.triple_throw (fun _ hc => hc.elim)
      | ok => exact Proc.triple_pure (fun _ hc => ⟨cmd.sql, hsql, hc⟩)

theorem follows_queryContext (me s : Nat) (ctx : Ctx) (args : List NamedValue) (hn : n + 1 < 2 ^ 31)
    : Triple True (fun c => c.Follows view version n a ∧ Takes s args c)
        (queryContext me s ctx args).run (fun _ => Follows view version (n + 1) a)
        (fun _ => Follows view version (n + 1) a) := by
  apply stable_operation (Conn.stable_follows hserves) s _ ctx args (fun _ _ hc => hc.mono (by omega))
  intro params cmd _ hfit
  apply Proc.triple_bind (R := fun _ => Follows view version (n + 1) a)
  . apply Proc.triple_tried
    apply Proc.triple_atomic
    rintro c ⟨hc, _⟩
    apply Conn.holds_attached
    exact (Session.mirrors_executeQueryPreparedWithParams hserves ctx _ _ hfit hn c.sess hc.session).imp
      (fun _ _ hs => hc.setSess hs) (fun _ _ hs => hc.setSess hs)
  . intro r
    cases r with
    | error =>
      exact Proc.triple_bind (stable_finishOperation (Conn.stable_follows hserves) s _).of_succeeds
        (fun _ => Proc.triple_throw (fun _ hc => hc))
    | ok rows => exact Proc.triple_atomic (Conn.follows_openRows _ rows _)

end Calls

end Stmt

namespace Rows

variable [Peer σ] [GoStd] {engine : Engine} {view : σ → Desk} {version n : Int} {a : Account}
  (hserves : Serves engine version view)

open Conn (Follows)

omit [Peer σ] [GoStd] in
theorem follows_onRows {r : Nat} {m : Prog Err (Cursor σ) α}
    (h : ∀ known, Keeps (fun cur : Cursor σ => cur.session.Mirrors view version n known a.store []) m)
    : Keeps (Follows view version n a) (Conn.onRows r m) := by
  intro c hc
  unfold Conn.onRows
  split
  . next o _ =>
    have hm := h _ { rows := o.rows, session := c.sess } hc.session
    cases hrun : m { rows := o.rows, session := c.sess } with
    | ok | fail =>
      rw [hrun] at hm
      exact ⟨hm, hc.settled, hc.named, hc.length, hc.txs⟩
    | panic | stuck => trivial
  . trivial

include hserves

theorem follows_next (r : Nat) (dest : List Value)
    : Keeps (Follows view version n a) (next r dest).run :=
  Proc.triple_atomic (follows_onRows (fun _ => Cursor.mirrors_next hserves dest))

theorem follows_closeResult (r : Nat) : Keeps (Follows view version n a) (closeResult r).run := by
  apply Proc.triple_bind (Proc.triple_atomic (follows_onRows (fun _ => Session.Quiet.modifyRows _)))
  intro _
  apply Proc.triple_bind (R := fun _ => Follows view version n a)
  . apply Proc.triple_atomic
    apply follows_onRows
    exact fun _ => Keeps.bind Keeps.get (fun c => Cursor.mirrors_sendResultClose hserves _)
  . intro resultErr
    apply Proc.triple_bind (R := fun _ => Follows view version n a)
    . apply Proc.triple_atomic
      apply follows_onRows
      exact fun _ => Keeps.bind Keeps.get (fun c => Cursor.mirrors_closeOwnCommand hserves _)
    . intro commandErr
      apply Proc.triple_bind (Proc.triple_atomic (follows_onRows (fun _ => Session.Quiet.modifyRows _)))
      exact fun _ => Proc.triple_pure (fun _ hc => hc)

omit hserves [Peer σ] [GoStd] in
theorem keeps_firstError {P : Conn σ → Prop} (results : List (Except Err Unit))
    : Keeps P (firstError results).run := by
  induction results with
  | nil => exact Proc.triple_pure (fun _ hc => hc)
  | cons r results ih =>
    cases r with
    | error => exact Proc.triple_throw (fun _ hc => hc)
    | ok => exact ih

theorem follows_closeOpen (r : Nat) : Keeps (Follows view version n a) (closeOpen r).run := by
  apply Proc.triple_bind (follows_closeResult hserves r)
  intro errs
  apply Proc.triple_bind (R := fun _ => Follows view version n a)
  . apply Proc.triple_atomic
    intro c hc
    unfold Conn.closeCallback
    split
    . exact hc
    . trivial
  . intro callback
    cases callback with
    | none => exact keeps_firstError errs
    | some callback =>
      apply Proc.triple_bind (R := fun _ => Follows view version n a)
      . apply Proc.triple_tried
        cases callback with
        | release => exact Proc.triple_atomic (Triple.modify (fun _ hc => hc))
        | finishOperation s =>
          exact (Stmt.stable_finishOperation (Conn.stable_follows hserves) s _).of_succeeds
      . intro callbackErr
        apply Proc.triple_bind (R := fun _ => Follows view version n a)
        . apply Proc.triple_atomic
          intro c hc
          unfold Conn.clearCallback
          split
          . exact hc
          . trivial
        . exact fun _ => keeps_firstError _

theorem follows_close (r : Nat) : Keeps (Follows view version n a) (close r).run := by
  apply Proc.triple_bind (R := fun _ => Follows view version n a)
  . apply Proc.triple_atomic
    intro c hc
    unfold Conn.beginClose
    split
    . exact hc
    . trivial
  . intro closed
    apply Proc.triple_bind (R := fun _ => Follows view version n a)
    . apply Proc.triple_tried
      split
      . exact Proc.triple_pure (fun _ hc => hc)
      . exact follows_closeOpen hserves r
    . intro res
      apply Proc.triple_bind (R := fun _ => Follows view version n a)
      . exact Proc.triple_atomic (Triple.modify (fun _ hc => hc))
      . exact fun _ => Proc.triple_ofExcept (fun _ _ _ hc => hc) (fun _ _ _ hc => hc)

end Rows

namespace Conn

variable [Peer σ] [GoStd] {engine : Engine} {view : σ → Desk} {version n n' : Int} {a : Account}
  (hserves : Serves engine version view)

omit [Peer σ] [GoStd] in
theorem follows_queryOwned (me : Nat) {P : Conn σ → Prop}
    {query : Conn σ → Prog Err (Session σ) Rows}
    (h : ∀ c, P c → c.Follows view version n a ∧ (query c c.sess).Holds True
      (fun _ => Session.Mirrors view version n' (c.stmts.flatMap Stmt.known) a.store [])
      (fun _ => Session.Mirrors view version n' (c.stmts.flatMap Stmt.known) a.store []))
    : Triple True P (queryOwned me query).run (fun _ => Follows view version n' a)
        (fun _ => Follows view version n' a) := by
  apply Proc.triple_bind (R := fun _ => Follows view version n' a)
  . apply Proc.triple_tried
    apply Proc.triple_atomic
    intro c hc
    have hquery := h c hc
    apply holds_attached
    exact hquery.2.imp (fun _ _ hs => hquery.1.setSess hs) (fun _ _ hs => hquery.1.setSess hs)
  . intro r
    cases r with
    | error =>
      apply Proc.triple_bind (R := fun _ => Follows view version n' a)
      . exact Proc.triple_atomic (Triple.modify (fun _ hc => hc))
      . exact fun _ => Proc.triple_throw (fun _ hc => hc)
    | ok rows => exact Proc.triple_atomic (follows_openRows _ rows _)

include hserves

theorem follows_queryContextInternal (me : Nat) (ctx : Ctx) (query : GoString) (hn : n + 2 < 2 ^ 31)
    : Triple True (Sim view version n a) (queryContextInternal me ctx query).run
        (fun _ => Follows view version (n + 2) a) (fun _ => Follows view version (n + 2) a) := by
  apply Proc.triple_bind (R := fun _ => Sim view version n a)
  . exact Proc.triple_atomic ((sim_acquire _).weaken (fun _ hc => hc) (fun _ _ hc => hc)
      (fun _ _ hc => hc.1.mono (by omega)))
  . intro _
    apply follows_queryOwned
    exact fun c hc => ⟨hc.1, Session.mirrors_executeQuery hserves ctx query _ _ hn c.sess hc.knowing⟩

theorem follows_drain (r : Nat) (dest : List Value) (fuel : Nat)
    : Keeps (Follows view version n a) (drain r dest fuel).run := by
  induction fuel generalizing dest with
  | zero => exact Proc.triple_atomic (fun _ _ => True.intro)
  | succ fuel ih =>
    apply Proc.triple_bind (Proc.triple_tried (Rows.follows_next hserves r dest))
    intro res
    cases res with
    | ok dest => exact ih dest
    | error err =>
      dsimp only
      split
      . exact Rows.follows_close hserves r
      . apply Proc.triple_bind (Proc.triple_tried (Rows.follows_close hserves r))
        exact fun _ => Proc.triple_throw (fun _ hc => hc)

theorem follows_ping (me : Nat) (ctx : Ctx) (fuel : Nat) (hn : n + 2 < 2 ^ 31)
    : Triple True (Sim view version n a) (ping me ctx fuel).run
        (fun _ => Follows view version (n + 2) a) (fun _ => Follows view version (n + 2) a) := by
  apply Proc.triple_bind (follows_queryContextInternal hserves me ctx _ hn)
  intro r
  apply Proc.triple_bind (R := fun _ => Follows view version (n + 2) a)
  . apply Proc.triple_atomic
    exact Rows.follows_onRows (fun _ => Keeps.bind Keeps.get (fun _ => Keeps.pure _))
  . exact fun _ => follows_drain hserves r _ fuel

theorem follows_queryContext [ParameterConverter] (me : Nat) (ctx : Ctx) (query : GoString)
    (args : List NamedValue) (hn : n + 2 < 2 ^ 31)
    : Triple True (fun c => c.Sim view version n a ∧ c.Accepts ctx query args)
        (queryContext me ctx query args).run (fun _ => Follows view version (n + 2) a)
        (fun _ => Follows view version (n + 2) a) := by
  unfold queryContext
  split
  . exact (follows_queryContextInternal hserves me ctx query hn).pre (fun _ hc => hc.1)
  . apply Proc.triple_bind (R := fun params c => c.Sim view version n a ∧ c.sess.Accepts ctx query params)
    . apply Proc.triple_ofExcept
      . exact fun params hparams c hc => ⟨hc.1, hc.2 params hparams⟩
      . exact fun _ _ _ hc => hc.1.1.mono (by omega)
    . intro params
      apply Proc.triple_bind (R := fun _ c => c.Sim view version n a ∧ c.sess.Accepts ctx query params)
      . apply Proc.triple_atomic
        exact (keeps_acquire (fun _ _ _ hc => hc) _).weaken (fun _ hc => hc) (fun _ _ hc => hc)
          (fun _ _ hc => hc.1.1.mono (by omega))
      . intro _
        apply follows_queryOwned
        exact fun c hc => ⟨hc.1.1, Session.mirrors_executeQueryWithParams hserves ctx query _ _ params hn
          c.sess ⟨hc.1.knowing, hc.2⟩⟩

end Conn

theorem isInt32_zero : IsInt32 (0 : Nat) := ⟨by decide, by decide⟩

namespace Call

def reads (call : Call) : Bool :=
  match call with
  | .queryContext .. | .ping .. | .stmtQueryContext .. | .rowsNext .. | .rowsClose .. => true
  | _ => false

def args (call : Call) : List NamedValue :=
  match call with
  | .queryContext _ _ args | .execContext _ _ args | .stmtExecContext _ _ args
  | .stmtQueryContext _ _ args => args
  | _ => []

variable [Peer σ] [GoStd] [ParameterConverter]

def outcome (l : Call × Bool) (c c' : Conn σ) : Prop :=
  ∃ me, if l.2 then ∃ x, (l.1.code me).run c = .ok x c' else ∃ e, (l.1.code me).run c = .fail e c'

/--
The arguments of the call can be encoded, and there is nothing left to read after a call that reads
rows.
-/
structure Orderly (l : Call × Bool) (c : Conn σ) : Prop where
  encodes : l.1.Encodes c
  count : IsInt32 l.1.args.length
  drained : l.1.reads = true → ∀ c', outcome l c c' → c'.sess.trNil = false → c'.sess.tr.inp = []

/--
Make the calls one after the other, as long as they return what the flags say.
-/
def play (ls : List (Call × Bool)) (c : Conn σ) : Option (Conn σ) :=
  match ls with
  | [] => some c
  | (call, ok) :: ls =>
    match (call.code 0).run c with
    | .ok _ c' => if ok then play ls c' else none
    | .fail _ c' => if ok then none else play ls c'
    | _ => none

theorem path_of_play {ls : List (Call × Bool)} {c c' : Conn σ} (h : play ls c = some c')
    : Run.Path outcome ls c c' := by
  induction ls generalizing c with
  | nil =>
    cases h
    exact .nil _
  | cons l ls ih =>
    obtain ⟨call, ok⟩ := l
    unfold play at h
    split at h
    . next x c1 hrun =>
      cases ok with
      | true => exact .cons ⟨0, x, hrun⟩ (ih h)
      | false => cases h
    . next e c1 hrun =>
      cases ok with
      | true => cases h
      | false => exact .cons ⟨0, e, hrun⟩ (ih h)
    . cases h

theorem orderly_of_plain {l : Call × Bool} (hargs : l.1.args = []) (hreads : l.1.reads = false) (c : Conn σ)
    : Orderly l c := by
  obtain ⟨call, ok⟩ := l
  refine ⟨?_, ?_, fun h => by rw [hreads] at h; cases h⟩
  . cases call with
    | queryContext | stmtQueryContext => cases hreads
    | execContext ctx query args =>
      cases hargs
      rintro params ⟨⟩ cmd s' _
      exact True.intro
    | stmtExecContext s ctx args =>
      cases hargs
      rintro params stmt ⟨⟩ _ cmd _
      exact True.intro
    | _ => exact True.intro
  . rw [hargs]
    exact isInt32_zero

theorem each_orderly {ls : List (Call × Bool)} (h : ∀ l ∈ ls, l.1.args.length = 0 ∧ l.1.reads = false)
    (c : Conn σ)
    : Run.Each outcome Orderly ls c := by
  apply Run.each_of_forall
  intro l hl
  exact orderly_of_plain (List.eq_nil_of_length_eq_zero (h l hl).1) (h l hl).2

variable {engine : Engine} {view : σ → Desk} {version n : Int} {a : Account}
  (hserves : Serves engine version view)

open Conn (Sim Follows)

include hserves

theorem sim_code (call : Call) (me : Nat) (hcount : IsInt32 call.args.length) (hn : n + 2 < 2 ^ 31)
    : Triple True (fun c : Conn σ => c.Sim view version n a ∧ call.Encodes c) (call.code me).run
        (fun _ c => ∃ a', call.Effect engine true a a' ∧ c.Follows view version (n + 2) a' ∧
          (call.reads = false → c.sess.trNil = false → c.sess.tr.inp = []))
        (fun _ c => ∃ a', call.Effect engine false a a' ∧ c.Follows view version (n + 2) a' ∧
          (call.reads = false → c.sess.trNil = false → c.sess.tr.inp = [])) := by
  have hsim : ∀ {ok : Bool} {k : Int} {a' : Account} {c : Conn σ}, call.Effect engine ok a a' →
      c.Sim view version k a' → k ≤ n + 2 →
      ∃ a', call.Effect engine ok a a' ∧ c.Follows view version (n + 2) a' ∧
        (call.reads = false → c.sess.trNil = false → c.sess.tr.inp = []) :=
    fun heffect hc hk => ⟨_, heffect, hc.1.mono hk, fun _ => hc.2⟩
  have hfollows : ∀ {ok : Bool} {c : Conn σ}, call.reads = true → call.isIdle = true →
      c.Follows view version (n + 2) a →
      ∃ a', call.Effect engine ok a a' ∧ c.Follows view version (n + 2) a' ∧
        (call.reads = false → c.sess.trNil = false → c.sess.tr.inp = []) :=
    fun hreads hidle hc => ⟨a, .nothing (.inr hidle), hc, fun hnot => by rw [hreads] at hnot; cases hnot⟩
  cases call with
  | prepareContext ctx query =>
    apply Proc.triple_discard
    exact (Conn.sim_prepareContext hserves me ctx query (by omega)).weaken (fun _ hc => hc.1)
      (fun _ _ hc => hsim (.prepared ctx query) hc (by omega))
      (fun _ _ hc => hsim (.nothing (.inl rfl)) hc (by omega))
  | queryContext ctx query args =>
    apply Proc.triple_discard
    exact (Conn.follows_queryContext hserves me ctx query args hn).weaken (fun _ hc => hc)
      (fun _ _ hc => hfollows rfl rfl hc) (fun _ _ hc => hfollows rfl rfl hc)
  | execContext ctx query args =>
    apply Proc.triple_discard
    exact (Conn.sim_execContext hserves me ctx query hcount (by omega)).weaken (fun _ hc => hc)
      (fun _ _ hc => hsim (.executed ctx query args) hc (by omega))
      (fun _ _ hc => hsim (.nothing (.inl rfl)) hc (by omega))
  | ping ctx fuel =>
    exact (Conn.follows_ping hserves me ctx fuel hn).weaken (fun _ hc => hc.1)
      (fun _ _ hc => hfollows rfl rfl hc) (fun _ _ hc => hfollows rfl rfl hc)
  | isValid =>
    apply Proc.triple_discard
    exact (Conn.sim_isValid hserves me).weaken (fun _ hc => hc.1)
      (fun _ _ hc => hsim (.nothing (.inr rfl)) hc (by omega))
      (fun _ _ hc => hsim (.nothing (.inl rfl)) hc (by omega))
  | resetSession ctx =>
    apply (Conn.sim_resetSession hserves me ctx (by omega)).weaken (fun _ hc => hc.1)
    . exact fun _ _ hc => hsim (.reset ctx) hc (by omega)
    . rintro _ c ⟨a', rfl | rfl, hc⟩
      . exact hsim (.nothing (.inl rfl)) hc (by omega)
      . exact hsim (.unreset ctx) hc (by omega)
  | beginTx ctx isolation readOnly =>
    apply Proc.triple_discard
    apply (Tx.sim_beginTx hserves me ctx isolation readOnly (by omega)).weaken (fun _ hc => hc.1)
    . rintro _ c ⟨a', heffect, hc⟩
      exact hsim heffect hc (by omega)
    . rintro _ c ⟨a', heffect, hc⟩
      exact hsim heffect hc (by omega)
  | commit t =>
    apply (Tx.sim_finishTransaction hserves me t false hn).weaken (fun _ hc => hc.1)
    . rintro _ c ⟨a', hfinishes, hc⟩
      exact hsim (.commit hfinishes) hc (by omega)
    . rintro _ c ⟨a', rfl | hfinishes, hc⟩
      . exact hsim (.nothing (.inl rfl)) hc (by omega)
      . exact hsim (.commit hfinishes) hc (by omega)
  | rollback t =>
    apply (Tx.sim_finishTransaction hserves me t true hn).weaken (fun _ hc => hc.1)
    . rintro _ c ⟨a', hfinishes, hc⟩
      exact hsim (.rollback hfinishes) hc (by omega)
    . rintro _ c ⟨a', rfl | hfinishes, hc⟩
      . exact hsim (.nothing (.inl rfl)) hc (by omega)
      . exact hsim (.rollback hfinishes) hc (by omega)
  | stmtExecContext s ctx args =>
    apply Proc.triple_discard
    apply (Stmt.sim_execContext hserves me s ctx hcount (by omega)).weaken (fun _ hc => hc)
    . rintro _ c ⟨sql, hsql, hc⟩
      exact hsim (.statement ctx args hsql) hc (by omega)
    . exact fun _ _ hc => hsim (.nothing (.inl rfl)) hc (by omega)
  | stmtQueryContext s ctx args =>
    apply Proc.triple_discard
    exact (Stmt.follows_queryContext hserves me s ctx args (by omega)).weaken
      (fun _ hc => ⟨hc.1.1, hc.2⟩) (fun _ _ hc => hfollows rfl rfl (hc.mono (by omega)))
      (fun _ _ hc => hfollows rfl rfl (hc.mono (by omega)))
  | stmtClose s =>
    exact (Stmt.stable_close (Conn.stable_sim hserves) me s).weaken (fun _ hc => hc.1)
      (fun _ _ hc => hsim (.nothing (.inr rfl)) hc (by omega))
      (fun _ _ hc => hsim (.nothing (.inl rfl)) hc (by omega))
  | rowsNext r dest =>
    apply Proc.triple_discard
    exact (Rows.follows_next hserves r dest).weaken (fun _ hc => hc.1.1)
      (fun _ _ hc => hfollows rfl rfl (hc.mono (by omega)))
      (fun _ _ hc => hfollows rfl rfl (hc.mono (by omega)))
  | rowsClose r =>
    exact (Rows.follows_close hserves r).weaken (fun _ hc => hc.1.1)
      (fun _ _ hc => hfollows rfl rfl (hc.mono (by omega)))
      (fun _ _ hc => hfollows rfl rfl (hc.mono (by omega)))
  | close =>
    apply Proc.triple_atomic
    apply (Conn.sim_close hserves (by omega)).weaken (fun _ hc => hc.1)
    . rintro _ c ⟨a', rfl | rfl, hc⟩
      . exact hsim (.nothing (.inr rfl)) hc (by omega)
      . exact hsim (.closed true) hc (by omega)
    . rintro _ c ⟨a', rfl | rfl, hc⟩
      . exact hsim (.nothing (.inl rfl)) hc (by omega)
      . exact hsim (.closed false) hc (by omega)

theorem sim_outcome {l : Call × Bool} {c c' : Conn σ} (hc : c.Sim view version n a)
    (horderly : Orderly l c) (h : outcome l c c') (hn : n + 2 < 2 ^ 31)
    : ∃ a', l.1.Effect engine l.2 a a' ∧ c'.Sim view version (n + 2) a' := by
  obtain ⟨call, ok⟩ := l
  obtain ⟨me, hrun⟩ := h
  have hcode := sim_code hserves call me horderly.count hn c ⟨hc, horderly.encodes⟩
  have hdrained := fun hreads => horderly.drained hreads c' ⟨me, hrun⟩
  obtain ⟨a', heffect, hc', hquiet⟩ : ∃ a', call.Effect engine ok a a' ∧
      c'.Follows view version (n + 2) a' ∧
      (call.reads = false → c'.sess.trNil = false → c'.sess.tr.inp = []) := by
    cases ok with
    | true =>
      obtain ⟨x, hrun⟩ := hrun
      rw [hrun] at hcode
      exact hcode
    | false =>
      obtain ⟨e, hrun⟩ := hrun
      rw [hrun] at hcode
      exact hcode
  refine ⟨a', heffect, hc', ?_⟩
  cases hreads : call.reads with
  | true => exact hdrained hreads
  | false => exact hquiet hreads

theorem sim_path {ls : List (Call × Bool)} {c c' : Conn σ} (hc : c.Sim view version n a)
    (hpath : Run.Path outcome ls c c') (horderly : Run.Each outcome Orderly ls c)
    (hn : n + 2 * ls.length < 2 ^ 31)
    : ∃ a', Run.Path (fun l => l.1.Effect engine l.2) ls a a' ∧
        c'.Sim view version (n + 2 * ls.length) a' := by
  let R := fun (k : Nat) (c : Conn σ) (a : Account) =>
    c.Sim view version (n + 2 * ls.length - 2 * k) a ∧ k ≤ ls.length
  have hstep : ∀ k l c c' a, R (k + 1) c a → Orderly l c → outcome l c c' →
      ∃ a', l.1.Effect engine l.2 a a' ∧ R k c' a' := by
    rintro k l c c' a ⟨hc, hk⟩ hl hstep
    obtain ⟨a', heffect, hc'⟩ := sim_outcome hserves hc hl hstep (by omega)
    exact ⟨a', heffect, hc'.mono (by omega), by omega⟩
  have hstart : R (0 + ls.length) c a := ⟨hc.mono (by omega), by omega⟩
  obtain ⟨a', hpath', hc', -⟩ := hpath.simulated hstep horderly hstart
  exact ⟨a', hpath', hc'.mono (by omega)⟩

end Call

end H2Go
