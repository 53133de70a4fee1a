import H2Go.Conn.Impl
import H2Go.Lib.Sequential
import H2Go.Session.Holding

/-!
This module contains the handles of a connection, and that every call of the interface keeps account of
them: what the statements and rows have is what can still be used and closed on the server.
-/

namespace H2Go

variable {σ : Type} {α β : Type}

theorem perm_flatMap_set {xs : List α} {i : Nat} {x : α} (h : xs[i]? = some x) (f : α → List β) (y : α)
    : (xs.flatMap f ++ f y).Perm (f x ++ (xs.set i y).flatMap f) := by
  induction xs generalizing i with
  | nil => simp at h
  | cons z xs ih =>
    cases i with
    | zero =>
      obtain rfl : z = x := by simpa using h
      simp only [List.flatMap_cons, List.set_cons_zero, List.append_assoc]
      exact (List.perm_append_comm).append_left (f z)
    | succ i =>
      simp only [List.flatMap_cons, List.set_cons_succ, List.append_assoc]
      have hperm := (ih (by simpa using h)).append_left (f z)
      refine hperm.trans ?_
      rw [← List.append_assoc, ← List.append_assoc]
      exact List.perm_append_comm.append_right _

def Stmt.handles (s : Stmt) : List Handle := s.cmd.toList.map (fun cmd => .command cmd.id)

namespace Conn

def handles (c : Conn σ) : List Handle :=
  c.stmts.flatMap Stmt.handles ++ c.rows.flatMap (fun o => o.rows.handles)

/--
The session holds the handles of the connection, and `hs` for the call that is running.
-/
def Tidy (n : Int) (hs : List Handle) (c : Conn (Recorder σ)) : Prop :=
  c.sess.Holding n (hs ++ c.handles)

namespace Tidy

variable {n : Int} {hs : List Handle} {c c' : Conn (Recorder σ)}

theorem congr (h : c.Tidy n hs) (hsess : c'.sess = c.sess) (hhandles : c'.handles = c.handles)
    : c'.Tidy n hs := by
  unfold Tidy
  rw [hsess, hhandles]
  exact h

theorem mono {n' : Int} (h : c.Tidy n hs) (hn : n ≤ n') : c.Tidy n' hs := Session.Buffering.mono h hn

end Tidy

theorem perm_handles_stmt {c : Conn σ} {s : Nat} {stmt : Stmt} (h : c.stmts[s]? = some stmt)
    (stmt' : Stmt)
    : (stmt'.handles ++ c.handles).Perm
        (stmt.handles ++ handles { c with stmts := c.stmts.set s stmt' }) := by
  have hperm := (perm_flatMap_set h Stmt.handles stmt').append_right
    (c.rows.flatMap (fun o => o.rows.handles))
  unfold handles
  rw [← List.append_assoc, ← List.append_assoc]
  exact (List.perm_append_comm.append_right _).trans hperm

theorem perm_handles_rows {c : Conn σ} {r : Nat} {o : OpenRows} (h : c.rows[r]? = some o)
    (o' : OpenRows)
    : (o'.rows.handles ++ c.handles).Perm
        (o.rows.handles ++ handles { c with rows := c.rows.set r o' }) := by
  have hperm := (perm_flatMap_set h (fun o => o.rows.handles) o').append_left
    (c.stmts.flatMap Stmt.handles)
  unfold handles
  refine (List.perm_append_comm_assoc _ _ _).trans ?_
  refine (List.perm_append_comm.append_left _).trans ?_
  exact hperm.trans (List.perm_append_comm_assoc _ _ _)

section Steps

variable {n n' : Int} {hs : List Handle}

/-! The steps that do not concern the handles. -/

theorem keeps_acquire {P : Conn σ → Prop} (h : ∀ c busy log, P c → P { c with busy, log })
    (o : Owner)
    : Keeps P (acquire o) := by
  intro c hc
  unfold acquire
  split
  . exact hc
  . split
    . exact hc
    . exact h c _ _ hc

theorem tidy_acquire (o : Owner) : Keeps (Tidy n hs) (acquire (σ := Recorder σ) o) :=
  keeps_acquire (fun _ _ _ hc => hc.congr rfl rfl) o

theorem tidy_release (o : Owner)
    : Triple True (Tidy n hs) (release (σ := Recorder σ) o) (fun _ => Tidy n hs)
        (fun _ _ => False) :=
  Triple.modify (fun _ hc => hc.congr rfl rfl)

theorem tidy_checkContext (ctx : Ctx) : Keeps (Tidy n hs) (checkContext (σ := Recorder σ) ctx) := by
  intro c hc
  unfold checkContext
  split
  . exact hc
  . exact hc

theorem tidy_checkAttached : Keeps (Tidy n hs) (checkAttached (σ := Recorder σ)) := by
  intro c hc
  unfold checkAttached
  split
  . exact hc
  . exact hc

theorem tidy_newTx (restoreIsolation : Bool)
    : Keeps (Tidy n hs) (newTx (σ := Recorder σ) restoreIsolation) :=
  fun _ hc => hc.congr rfl rfl

theorem tidy_onTx (t : Nat) (m : Prog Err Tx α) : Keeps (Tidy n hs) (onTx (σ := Recorder σ) t m) := by
  intro c hc
  unfold onTx
  split
  . next tx _ =>
    cases m tx with
    | ok => exact hc.congr rfl rfl
    | fail => exact hc.congr rfl rfl
    | panic | stuck => trivial
  . trivial

theorem tidy_endClose (r : Nat) : Keeps (Tidy n hs) (endClose (σ := Recorder σ) r) :=
  Keeps.modify (fun _ hc => hc.congr rfl rfl)

theorem tidy_closeCallback (r : Nat) : Keeps (Tidy n hs) (closeCallback (σ := Recorder σ) r) := by
  intro c hc
  unfold closeCallback
  split
  . exact hc
  . trivial

theorem tidy_abortSess : Keeps (Tidy n hs) (abortSess (σ := Recorder σ)) := by
  intro c hc
  unfold abortSess
  split
  . exact (Session.Buffering.durable _ _ _ _).abort hc
  . exact hc

theorem Tidy.setStmt {c : Conn (Recorder σ)} (hc : c.Tidy n hs) {s : Nat} {stmt stmt' : Stmt}
    (hstmt : c.stmts[s]? = some stmt) (hhandles : stmt'.handles = stmt.handles)
    : Tidy n hs { c with stmts := c.stmts.set s stmt' } := by
  have hperm := perm_handles_stmt hstmt stmt'
  rw [hhandles] at hperm
  exact Session.Buffering.perm hc (((List.perm_append_left_iff _).mp hperm).append_left hs)

theorem Tidy.setRows {c : Conn (Recorder σ)} (hc : c.Tidy n hs) {r : Nat} {o o' : OpenRows}
    (ho : c.rows[r]? = some o) (hhandles : o'.rows.handles = o.rows.handles)
    : Tidy n hs { c with rows := c.rows.set r o' } := by
  have hperm := perm_handles_rows ho o'
  rw [hhandles] at hperm
  exact Session.Buffering.perm hc (((List.perm_append_left_iff _).mp hperm).append_left hs)

theorem tidy_clearCallback (r : Nat) : Keeps (Tidy n hs) (clearCallback (σ := Recorder σ) r) := by
  intro c hc
  unfold clearCallback
  split
  . next o ho => exact hc.setRows ho rfl
  . trivial

/-! The steps that use the session. -/

theorem holds_onSess {c : Conn (Recorder σ)} {m : Prog Err (Session (Recorder σ)) α}
    {hs : α → List Handle} {hs' : List Handle}
    (h : (m c.sess).Holds True (fun a => Session.Holding n (hs a ++ c.handles))
      (fun _ => Session.Holding n (hs' ++ c.handles)))
    : (onSess m c).Holds True (fun a => Tidy n (hs a)) (fun _ => Tidy n hs') := by
  unfold onSess
  split
  . exact h.zoom (fun _ _ ht => ht) (fun _ _ ht => ht)
  . trivial

theorem tidy_onSess {m : Prog Err (Session (Recorder σ)) α} {hs : α → List Handle}
    (h : ∀ held, Triple True (Session.Holding n held) m (fun a => Session.Holding n' (hs a ++ held))
      (fun _ => Session.Holding n' held))
    : Triple True (Tidy n []) (onSess m) (fun a => Tidy n' (hs a)) (fun _ => Tidy n' []) :=
  fun c hc => holds_onSess (h c.handles c.sess hc)

theorem tidy_onSessOr (err : Err) {m : Prog Err (Session (Recorder σ)) α}
    (h : ∀ held, Triple True (Session.Holding n held) m (fun _ => Session.Holding n' held)
      (fun _ => Session.Holding n' held)) (hn : n ≤ n')
    : Triple True (Tidy n []) (onSessOr err m) (fun _ => Tidy n' []) (fun _ => Tidy n' []) := by
  intro c hc
  unfold onSessOr
  split
  . exact (h c.handles c.sess hc).zoom (fun _ _ ht => ht) (fun _ _ ht => ht)
  . exact hc.mono hn

theorem tidy_newStmt (cmd : PreparedCommand)
    : Triple True (Tidy n [.command cmd.id]) (newStmt (σ := Recorder σ) cmd) (fun _ => Tidy n [])
        (fun _ _ => False) := by
  intro c hc
  refine Session.Buffering.perm hc ?_
  simp only [handles, List.flatMap_append, List.nil_append, List.append_assoc]
  exact List.perm_append_comm_assoc _ _ _

theorem tidy_openRows (o : Owner) (rows : Rows) (callback : RowsCallback)
    : Triple True (Tidy n rows.handles) (openRows (σ := Recorder σ) o rows callback)
        (fun _ => Tidy n []) (fun _ _ => False) := by
  intro c hc
  refine Session.Buffering.perm hc ?_
  simp only [handles, List.flatMap_append, List.nil_append, List.flatMap_cons, List.flatMap_nil,
    List.append_nil]
  refine List.perm_append_comm.trans ?_
  rw [List.append_assoc]

end Steps

variable {n n' : Int} {hs : List Handle}

theorem tidy_deferred {P : Conn (Recorder σ) → Prop} {p : Proc Err (Conn (Recorder σ)) α} (o : Owner)
    (h : Triple True P p.run (fun _ => Tidy n hs) (fun _ => Tidy n hs))
    : Triple True P (p.deferred (.atomic (release o))).run (fun _ => Tidy n hs) (fun _ => Tidy n hs) :=
  Proc.triple_deferred h (fun _ => Proc.triple_atomic (tidy_release o))
    (fun _ => Proc.triple_atomic (tidy_release o))
    (Proc.triple_atomic (Triple.modify (fun _ _ => True.intro)))

def Has (s : Nat) (cmd : PreparedCommand) (c : Conn σ) : Prop :=
  ∃ stmt, c.stmts[s]? = some stmt ∧ stmt.cmd = some cmd

theorem mem_handles_of_has {s : Nat} {cmd : PreparedCommand} {c : Conn σ} (h : c.Has s cmd)
    : .command cmd.id ∈ c.handles := by
  obtain ⟨stmt, hstmt, hcmd⟩ := h
  apply List.mem_append_left
  rw [List.mem_flatMap]
  exact ⟨stmt, List.mem_of_getElem? hstmt, by simp [Stmt.handles, hcmd]⟩

theorem getElem?_set_of_some {xs : List α} {i : Nat} {x : α} (h : xs[i]? = some x) (y : α)
    : (xs.set i y)[i]? = some y := by
  obtain ⟨hlt, -⟩ := List.getElem?_eq_some_iff.mp h
  simp [hlt]

/--
A step of a statement that keeps its command. `P` is what is known about the statement before.
-/
theorem tidy_onStmt {s : Nat} {m : Prog Err Stmt α} {P : Stmt → Prop} {R : α → Stmt → Prop}
    (h : ∀ stmt, P stmt → (m stmt).Holds True
      (fun a stmt' => stmt'.handles = stmt.handles ∧ R a stmt')
      (fun _ stmt' => stmt'.handles = stmt.handles))
    : Triple True (fun c => c.Tidy n hs ∧ ∀ stmt, c.stmts[s]? = some stmt → P stmt)
        (onStmt (σ := Recorder σ) s m)
        (fun a c => c.Tidy n hs ∧ ∃ stmt, c.stmts[s]? = some stmt ∧ R a stmt)
        (fun _ => Tidy n hs) := by
  rintro c ⟨hc, hp⟩
  unfold onStmt
  split
  . next stmt hstmt =>
    have hm := h stmt (hp stmt hstmt)
    cases hrun : m stmt with
    | ok a stmt' =>
      rw [hrun] at hm
      exact ⟨hc.setStmt hstmt hm.1, stmt', getElem?_set_of_some hstmt stmt', hm.2⟩
    | fail e stmt' =>
      rw [hrun] at hm
      exact hc.setStmt hstmt hm
    | panic | stuck => trivial
  . trivial

/--
The command of `s` was closed on the server, and the statement does not know that yet.
-/
def Spent (n : Int) (s : Nat) (cmd : PreparedCommand) (c : Conn (Recorder σ)) : Prop :=
  ∃ stmt, c.stmts[s]? = some stmt ∧ stmt.cmd = some cmd ∧
    Tidy n [] { c with stmts := c.stmts.set s { stmt with cmd := none } }

theorem Tidy.give {c : Conn (Recorder σ)} (hc : c.Tidy n []) {s : Nat} {cmd : PreparedCommand}
    {stmt : Stmt} (hstmt : c.stmts[s]? = some stmt) (hcmd : stmt.cmd = some cmd)
    : c.sess.Holding n (.command cmd.id ::
        handles { c with stmts := c.stmts.set s { stmt with cmd := none } }) := by
  have hperm := perm_handles_stmt hstmt { stmt with cmd := none }
  have hhandles : stmt.handles = [.command cmd.id] := by simp [Stmt.handles, hcmd]
  rw [hhandles] at hperm
  exact Session.Buffering.perm hc hperm

theorem spent_of_has {s : Nat} {cmd : PreparedCommand} {c : Conn (Recorder σ)} (hc : c.Tidy n [])
    (h : c.Has s cmd)
    : c.Spent n s cmd := by
  obtain ⟨stmt, hstmt, hcmd⟩ := h
  exact ⟨stmt, hstmt, hcmd,
    Session.Buffering.sublist (hc.give hstmt hcmd) (List.sublist_cons_self _ _)⟩

end Conn

namespace Stmt

variable [Peer σ] {n n' : Int} {hs : List Handle}

open Conn (Tidy Has Spent)

theorem tidy_closeCommand {s : Nat} {cmd : PreparedCommand} (hn : n < 2 ^ 31)
    : Triple True (fun c : Conn (Recorder σ) => c.Tidy n [] ∧ c.Has s cmd) (closeCommand cmd)
        (fun _ => Spent n s cmd) (fun _ _ => False) := by
  rintro c ⟨hc, stmt, hstmt, hcmd⟩
  have hclose := Session.holding_closeCommand hn c.sess (hc.give hstmt hcmd)
  unfold closeCommand
  split
  . next hattached =>
    unfold Conn.onSess
    rw [if_pos hattached]
    exact hclose.zoom (fun _ _ ht => ⟨stmt, hstmt, hcmd, ht⟩) (fun _ _ ht => ht)
  . exact Conn.spent_of_has hc ⟨stmt, hstmt, hcmd⟩

omit [Peer σ] in
theorem tidy_markCommandClosed {s : Nat} {cmd : PreparedCommand}
    : Triple True (Spent n s cmd) (Conn.onStmt (σ := Recorder σ) s (markCommandClosed cmd))
        (fun _ => Tidy n []) (fun _ _ => False) := by
  rintro c ⟨stmt, hstmt, hcmd, hc⟩
  have hhas : stmt.hasCommand cmd = true := by simp [hasCommand, hcmd]
  unfold Conn.onStmt
  rw [hstmt]
  dsimp only
  rw [markCommandClosed, Prog.modify_run, if_pos hhas]
  have hset := hc.setStmt (Conn.getElem?_set_of_some hstmt _)
    (show handles { stmt with
        cmd := none, connected := false, closePending := false, closeSent := true } = _ from rfl)
  rw [List.set_set] at hset
  exact hset

theorem tidy_closePendingOnOwnedConn (s : Nat) (hn : n < 2 ^ 31)
    : Keeps (Tidy n []) (closePendingOnOwnedConn (σ := Recorder σ) s).run := by
  apply Proc.triple_bind
  . apply Proc.triple_atomic
    apply (Conn.tidy_onStmt (P := fun _ => True)
      (R := fun (r : Option PreparedCommand) stmt => ∀ cmd, r = some cmd → stmt.cmd = some cmd) _).pre
    . exact fun _ hc => ⟨hc, fun _ _ => True.intro⟩
    . intro stmt _
      unfold pendingCommand
      split
      . exact ⟨rfl, by simp⟩
      . exact ⟨rfl, fun _ h => h⟩
  . intro r
    cases r with
    | none => exact Proc.triple_pure (fun _ hc => hc.1)
    | some cmd =>
      apply Proc.triple_bind (R := fun _ => Spent n s cmd)
      . apply Proc.triple_atomic
        apply ((tidy_closeCommand hn).of_succeeds).pre
        rintro c ⟨hc, stmt, hstmt, hcmd⟩
        exact ⟨hc, stmt, hstmt, hcmd cmd rfl⟩
      . exact fun _ => Proc.triple_atomic tidy_markCommandClosed.of_succeeds

theorem tidy_finishOperation (s : Nat) (o : Owner) (hn : n < 2 ^ 31)
    : Keeps (Tidy n []) (finishOperation (σ := Recorder σ) s o).run :=
  Conn.tidy_deferred o (tidy_closePendingOnOwnedConn s hn)

theorem tidy_close (me s : Nat) (hn : n < 2 ^ 31)
    : Keeps (Tidy n []) (close (σ := Recorder σ) me s).run := by
  apply Proc.triple_bind
  . apply Proc.triple_atomic
    apply (Conn.tidy_onStmt (P := fun _ => True)
      (R := fun (r : Option (Bool × PreparedCommand)) stmt =>
        ∀ connected cmd, r = some (connected, cmd) → stmt.cmd = some cmd) _).pre
    . exact fun _ hc => ⟨hc, fun _ _ => True.intro⟩
    . intro stmt _
      unfold beginClose
      split
      . exact ⟨rfl, by simp⟩
      . next cmd hcmd =>
        split
        . exact ⟨rfl, by simp⟩
        . refine ⟨rfl, ?_⟩
          rintro _ _ ⟨⟩
          exact hcmd
  . rintro (_ | ⟨connected, cmd⟩)
    . exact Proc.triple_pure (fun _ hc => hc.1)
    . have hhas : ∀ c : Conn (Recorder σ), (c.Tidy n [] ∧ ∃ stmt, c.stmts[s]? = some stmt ∧
          ∀ connected' cmd', some (connected, cmd) = some (connected', cmd') → stmt.cmd = some cmd') →
          c.Tidy n [] ∧ c.Has s cmd := by
        rintro c ⟨hc, stmt, hstmt, hcmd⟩
        exact ⟨hc, stmt, hstmt, hcmd connected cmd rfl⟩
      apply Triple.pre _ hhas
      dsimp only
      split
      . apply Proc.triple_atomic
        exact tidy_markCommandClosed.of_succeeds.pre (fun _ hc => Conn.spent_of_has hc.1 hc.2)
      . apply Proc.triple_bind (R := fun _ c => c.Tidy n [] ∧ c.Has s cmd)
        . apply Proc.triple_tried
          exact Proc.triple_atomic
            ((Conn.tidy_acquire _).and (Conn.keeps_acquire (fun _ _ _ hc => hc) _))
        . intro r
          cases r with
          | error =>
            apply Proc.triple_atomic
            apply (Conn.tidy_onStmt (P := fun _ => True) (R := fun _ _ => True) _).weaken
            . exact fun _ hc => ⟨hc.1, fun _ _ => True.intro⟩
            . exact fun _ _ hc => hc.1
            . exact fun _ _ hc => hc
            . intro stmt _
              rw [deferClose, Prog.modify_run]
              split
              . exact ⟨rfl, True.intro⟩
              . exact ⟨rfl, True.intro⟩
          | ok =>
            apply Conn.tidy_deferred
            apply Proc.triple_bind (Proc.triple_atomic (tidy_closeCommand hn).of_succeeds)
            exact fun _ => Proc.triple_atomic tidy_markCommandClosed.of_succeeds

def Encodes [GoStd] (params : List Value) (stmt : Stmt) : Prop :=
  ∀ cmd, stmt.cmd = some cmd → Tr.AllFit cmd.params 0 params

omit [Peer σ] in
theorem tidy_beginOperation [GoStd] (s : Nat) (o : Owner) (params : List Value)
    : Triple True (fun c => c.Tidy n [] ∧ ∀ stmt, c.stmts[s]? = some stmt → stmt.Encodes params)
        (beginOperation (σ := Recorder σ) s o)
        (fun cmd c => Tr.AllFit cmd.params 0 params ∧ c.Tidy n [] ∧ c.Has s cmd)
        (fun _ => Tidy n []) := by
  apply Triple.bind
  . apply Conn.tidy_onStmt
      (R := fun cmd stmt => Tr.AllFit cmd.params 0 params ∧ stmt.cmd = some cmd)
    intro stmt hfit
    unfold ready
    split
    . next cmd hcmd =>
      split
      . rfl
      . exact ⟨rfl, hfit cmd hcmd, hcmd⟩
    . rfl
  . intro cmd
    apply Triple.bind (R := fun _ c => Tr.AllFit cmd.params 0 params ∧ c.Tidy n [] ∧ c.Has s cmd)
    . rintro c ⟨hc, stmt, hstmt, hfit, hcmd⟩
      have hkeeps : Keeps (fun c : Conn (Recorder σ) => c.Tidy n [] ∧ c.Has s cmd) (Conn.acquire o) :=
        (Conn.tidy_acquire o).and (Conn.keeps_acquire (fun _ _ _ hc => hc) o)
      exact (hkeeps c ⟨hc, stmt, hstmt, hcmd⟩).imp (fun _ _ h => ⟨hfit, h⟩) (fun _ _ h => h.1)
    . exact fun _ => Triple.pure (fun _ hc => hc)

variable [GoStd] [ParameterConverter]

/--
The arguments of the call can be encoded for the statement `s` of the connection.
-/
def Takes (s : Nat) (args : List NamedValue) (c : Conn σ) : Prop :=
  ∀ params stmt, convertNamedValues 0 args = .ok params → c.stmts[s]? = some stmt →
    stmt.Encodes params

omit [Peer σ] in
theorem tidy_operation (s : Nat) (o : Owner) (ctx : Ctx) (args : List NamedValue)
    {body : List Value → PreparedCommand → Proc Err (Conn (Recorder σ)) α} (hn : n ≤ n')
    (h : ∀ params cmd, Tr.AllFit cmd.params 0 params →
      Triple True (fun c => c.Tidy n [] ∧ c.Has s cmd) (body params cmd).run (fun _ => Tidy n' [])
        (fun _ => Tidy n' []))
    : Triple True (fun c => c.Tidy n [] ∧ Takes s args c)
        (do
          let params ← .ofExcept (convertNamedValues 0 args)
          .atomic (Conn.checkContext ctx)
          let cmd ← .atomic (beginOperation s o)
          body params cmd : Proc Err (Conn (Recorder σ)) α).run
        (fun _ => Tidy n' []) (fun _ => Tidy n' []) := by
  apply Proc.triple_bind (R := fun params c => c.Tidy n [] ∧
    ∀ stmt, c.stmts[s]? = some stmt → stmt.Encodes params)
  . apply Proc.triple_ofExcept
    . rintro params hparams c ⟨hc, htakes⟩
      exact ⟨hc, fun stmt => htakes params stmt hparams⟩
    . exact fun _ _ _ hc => hc.1.mono hn
  . intro params
    apply Proc.triple_bind (R := fun _ c => c.Tidy n [] ∧
      ∀ stmt, c.stmts[s]? = some stmt → stmt.Encodes params)
    . apply Proc.triple_atomic
      intro c hc
      unfold Conn.checkContext
      split
      . exact hc.1.mono hn
      . exact hc
    . intro _
      apply Proc.triple_bind (R := fun cmd c => Tr.AllFit cmd.params 0 params ∧ c.Tidy n [] ∧ c.Has s cmd)
      . apply Proc.triple_atomic
        exact (tidy_beginOperation s o params).weaken (fun _ hc => hc) (fun _ _ hc => hc)
          (fun _ _ hc => hc.mono hn)
      . rintro cmd c ⟨hfit, hc⟩
        exact h params cmd hfit c hc

theorem tidy_execContext (me s : Nat) (ctx : Ctx) (args : List NamedValue) (hn : n < 2 ^ 31)
    : Triple True (fun c => c.Tidy n [] ∧ Takes s args c)
        (execContext (σ := Recorder σ) me s ctx args).run (fun _ => Tidy n [])
        (fun _ => Tidy n []) := by
  apply tidy_operation s _ ctx args (Int.le_refl n)
  intro params cmd hfit
  apply Proc.triple_bind (R := fun _ => Tidy n [])
  . apply Proc.triple_tried
    apply Proc.triple_atomic
    rintro c ⟨hc, hhas⟩
    have hupdate := Session.holding_executeUpdatePreparedWithParams ctx hfit
      (Conn.mem_handles_of_has hhas) hn c.sess hc
    unfold Conn.onSessOr
    split
    . exact hupdate.zoom (fun _ _ ht => ht) (fun _ _ ht => ht)
    . exact hc
  . intro res
    apply Proc.triple_bind (Proc.triple_tried (tidy_finishOperation s _ hn))
    intro closed
    cases res with
    | error => exact Proc.triple_throw (fun _ hc => hc)
    | ok =>
      cases closed with
      | error => exact Proc.triple_throw (fun _ hc => hc)
      | ok => exact Proc.triple_pure (fun _ hc => hc)

theorem tidy_queryContext (me s : Nat) (ctx : Ctx) (args : List NamedValue) (hn : n + 1 < 2 ^ 31)
    : Triple True (fun c => c.Tidy n [] ∧ Takes s args c)
        (queryContext (σ := Recorder σ) me s ctx args).run (fun _ => Tidy (n + 1) [])
        (fun _ => Tidy (n + 1) []) := by
  apply tidy_operation s _ ctx args (by omega)
  intro params cmd hfit
  apply Proc.triple_bind
  . apply Proc.triple_attempt (Q := fun rows => Tidy (n + 1) rows.handles)
      (F := fun _ => Tidy (n + 1) [])
    apply Proc.triple_atomic
    rintro c ⟨hc, hhas⟩
    exact Conn.holds_onSess (Session.holding_executeQueryPreparedWithParams ctx _ _ hfit
      (Conn.mem_handles_of_has hhas) hn c.sess hc)
  . intro r
    cases r with
    | error =>
      exact Proc.triple_bind (tidy_finishOperation s _ hn)
        (fun _ => Proc.triple_throw (fun _ hc => hc))
    | ok rows => exact Proc.triple_atomic (Conn.tidy_openRows _ rows _).of_succeeds

end Stmt

namespace Rows

variable [Peer σ] [GoStd] {n : Int} {hs : List Handle}

open Conn (Tidy)

def Are (r : Nat) (rows : Rows) (c : Conn σ) : Prop := ∃ o, c.rows[r]? = some o ∧ o.rows = rows

omit [Peer σ] [GoStd] in
/--
A step of rows, with the handles that the call holds for itself before and after.
-/
theorem tidy_onRows {r : Nat} {rows rows' : Rows} {m : Prog Err (Cursor (Recorder σ)) α}
    {hs hs' : List Handle} (hrows : rows'.handles = rows.handles)
    (h : ∀ held, Triple True
      (fun cur : Cursor (Recorder σ) => cur.rows = rows ∧ cur.session.Holding n (hs ++ held)) m
      (fun _ cur => cur.rows = rows' ∧ cur.session.Holding n (hs' ++ held)) (fun _ _ => False))
    : Triple True (fun c => c.Tidy n hs ∧ Are r rows c) (Conn.onRows r m)
        (fun _ c => c.Tidy n hs' ∧ Are r rows' c) (fun _ _ => False) := by
  rintro c ⟨hc, o, ho, rfl⟩
  unfold Conn.onRows
  rw [ho]
  dsimp only
  have hm := h c.handles { rows := o.rows, session := c.sess } ⟨rfl, hc⟩
  cases hrun : m { rows := o.rows, session := c.sess } with
  | ok a cur =>
    rw [hrun] at hm
    have hc' : Tidy n hs' { c with sess := cur.session } := hm.2
    have hhandles : cur.rows.handles = o.rows.handles := by rw [hm.1, hrows]
    exact ⟨hc'.setRows ho hhandles, _, Conn.getElem?_set_of_some ho _, hm.1⟩
  | fail e cur =>
    rw [hrun] at hm
    exact hm.elim
  | panic | stuck => trivial

omit [Peer σ] [GoStd] in
theorem tidy_markClosed (r : Nat) (rows : Rows)
    : Triple True (fun c => c.Tidy n [] ∧ Are r rows c)
        (Conn.onRows (σ := Recorder σ) r (Cursor.modifyRows Rows.markClosed))
        (fun _ c => c.Tidy n rows.handles ∧ Are r rows.markClosed c) (fun _ _ => False) := by
  rintro c ⟨hc, o, ho, rfl⟩
  unfold Conn.onRows
  rw [ho]
  exact ⟨Session.Buffering.perm hc (Conn.perm_handles_rows ho { o with rows := o.rows.markClosed }),
    _, Conn.getElem?_set_of_some ho _, rfl⟩

omit [Peer σ] [GoStd] in
theorem tidy_ifAlive {rows : Rows} {m : Prog Err (Tr (Recorder σ)) Unit} {h : Handle}
    {held : List Handle}
    (hm : Triple True (Session.Holding n (h :: held)) (Session.io m) (fun _ => Session.Holding n held)
      (fun _ _ => False))
    : Triple True
        (fun cur : Cursor (Recorder σ) => cur.rows = rows ∧ cur.session.Holding n (h :: held))
        (Cursor.ifAlive m) (fun _ cur => cur.rows = rows ∧ cur.session.Holding n held)
        (fun _ _ => False) := by
  apply Triple.get_then
  intro cur
  apply Triple.ite
  . intro _
    apply Triple.tried
    exact Triple.zoom hm (fun _ hcur => hcur.2) (fun _ _ _ hcur ht => ⟨hcur.1, ht⟩)
      (fun _ _ _ _ ht => ht.elim)
  . intro _
    exact Triple.pure (fun _ hcur => ⟨hcur.1, hcur.2.sublist (List.sublist_cons_self _ _)⟩)

def ownCommand (r : Rows) : List Handle :=
  if r.ownsCommand ∧ r.commandID ≠ 0 then [.command r.commandID] else []

omit [GoStd] in
theorem handles_of_open {r : Rows} (h : r.closed = false)
    : r.handles = .result r.resultID :: r.ownCommand := by
  simp [handles, ownCommand, h]

theorem tidy_sendResultClose {rows : Rows} {held : List Handle} (hn : n < 2 ^ 31)
    : Triple True
        (fun cur : Cursor (Recorder σ) => cur.rows = rows ∧
          cur.session.Holding n (.result rows.resultID :: held))
        (do
          let c ← Prog.get
          Cursor.ifAlive (Cursor.sendResultClose c.rows.resultID))
        (fun _ cur => cur.rows = rows ∧ cur.session.Holding n held) (fun _ _ => False) := by
  apply Triple.get_bind
  rintro cur ⟨rfl, hcur⟩
  apply (tidy_ifAlive (Session.holding_sendResultClose _ hn)).pre
  rintro _ rfl
  exact ⟨rfl, hcur⟩

omit [GoStd] in
theorem tidy_closeOwnCommand {rows : Rows} {held : List Handle} (hn : n < 2 ^ 31)
    : Triple True
        (fun cur : Cursor (Recorder σ) => cur.rows = rows ∧
          cur.session.Holding n (rows.ownCommand ++ held))
        (do
          let c ← Prog.get
          Cursor.closeOwnCommand c.rows)
        (fun _ cur => cur.rows = rows ∧ cur.session.Holding n held) (fun _ _ => False) := by
  apply Triple.get_bind
  rintro cur ⟨rfl, hcur⟩
  apply Triple.ite
  . intro howns
    rw [ownCommand, if_pos howns] at hcur
    apply (tidy_ifAlive (Session.holding_sendCommandClose _ _ hn)).pre
    rintro _ rfl
    exact ⟨rfl, hcur⟩
  . intro hnot
    rw [ownCommand, if_neg hnot] at hcur
    apply Triple.pure
    rintro _ rfl
    exact ⟨rfl, hcur⟩

theorem tidy_closeResult (r : Nat) {rows : Rows} (hopen : rows.closed = false) (hn : n < 2 ^ 31)
    : Triple True (fun c => c.Tidy n [] ∧ Are r rows c) (closeResult (σ := Recorder σ) r).run
        (fun _ => Tidy n []) (fun _ _ => False) := by
  have hmark := tidy_markClosed (σ := σ) (n := n) r rows
  rw [handles_of_open hopen] at hmark
  apply Proc.triple_bind (Proc.triple_atomic hmark)
  intro _
  apply Proc.triple_bind (R := fun _ c => c.Tidy n rows.ownCommand ∧ Are r rows.markClosed c)
  . exact Proc.triple_atomic (tidy_onRows rfl (fun _ => tidy_sendResultClose hn))
  . intro resultErr
    apply Proc.triple_bind (R := fun _ c => c.Tidy n [] ∧ Are r rows.markClosed c)
    . exact Proc.triple_atomic (tidy_onRows rfl (fun _ => tidy_closeOwnCommand hn))
    . intro commandErr
      apply Proc.triple_bind (R := fun _ c => c.Tidy n [] ∧ Are r rows.markClosed.clear c)
      . apply Proc.triple_atomic
        apply tidy_onRows (show rows.markClosed.clear.handles = rows.markClosed.handles from rfl)
        intro held
        apply Triple.modify
        rintro cur ⟨hrows, hcur⟩
        exact ⟨by rw [hrows], hcur⟩
      . exact fun _ => Proc.triple_pure (fun _ hc => hc.1)

omit [Peer σ] [GoStd] in
theorem tidy_firstError (results : List (Except Err Unit))
    : Keeps (Tidy n hs) (firstError (σ := Conn (Recorder σ)) results).run := by
  induction results with
  | nil => exact Proc.triple_pure (fun _ hc => hc)
  | cons r results ih =>
    cases r with
    | error => exact Proc.triple_throw (fun _ hc => hc)
    | ok => exact ih

theorem tidy_closeOpen (r : Nat) {rows : Rows} (hopen : rows.closed = false) (hn : n < 2 ^ 31)
    : Triple True (fun c => c.Tidy n [] ∧ Are r rows c) (closeOpen (σ := Recorder σ) r).run
        (fun _ => Tidy n []) (fun _ => Tidy n []) := by
  apply Proc.triple_bind (tidy_closeResult r hopen hn).of_succeeds
  intro errs
  apply Proc.triple_bind (Proc.triple_atomic (Conn.tidy_closeCallback r))
  intro callback
  cases callback with
  | none => exact tidy_firstError errs
  | some callback =>
    apply Proc.triple_bind (R := fun _ => Tidy n [])
    . apply Proc.triple_tried
      cases callback with
      | release => exact Proc.triple_atomic (Conn.tidy_release _).of_succeeds
      | finishOperation s => exact Stmt.tidy_finishOperation s _ hn
    . intro callbackErr
      apply Proc.triple_bind (Proc.triple_atomic (Conn.tidy_clearCallback r))
      exact fun _ => tidy_firstError _

theorem tidy_close (r : Nat) (hn : n < 2 ^ 31)
    : Keeps (Tidy n []) (close (σ := Recorder σ) r).run := by
  apply Proc.triple_bind (R := fun closed c => c.Tidy n [] ∧ ∃ rows, rows.closed = closed ∧ Are r rows c)
  . apply Proc.triple_atomic
    intro c hc
    unfold Conn.beginClose
    split
    . next o ho => exact ⟨hc.congr rfl rfl, o.rows, rfl, o, ho, rfl⟩
    . trivial
  . intro closed
    apply Proc.triple_bind (R := fun _ => Tidy n [])
    . apply Proc.triple_tried
      cases closed with
      | true => exact Proc.triple_pure (fun _ hc => hc.1)
      | false =>
        rintro c ⟨hc, rows, hopen, hrows⟩
        exact tidy_closeOpen r hopen hn c ⟨hc, hrows⟩
    . intro res
      apply Proc.triple_bind (Proc.triple_atomic (Conn.tidy_endClose r))
      exact fun _ => Proc.triple_ofExcept (fun _ _ _ hc => hc) (fun _ _ _ hc => hc)

theorem tidy_next (r : Nat) (dest : List Value) (hn : n < 2 ^ 31)
    : Keeps (Tidy n []) (next (σ := Recorder σ) r dest).run := by
  apply Proc.triple_atomic
  intro c hc
  unfold Conn.onRows
  split
  . next o ho =>
    let cur : Cursor (Recorder σ) := { rows := o.rows, session := c.sess }
    have hresult : o.rows.closed = false → .result o.rows.resultID ∈ c.handles := by
      intro hopen
      apply List.mem_append_right
      rw [List.mem_flatMap]
      exact ⟨o, List.mem_of_getElem? ho, by simp [handles_of_open hopen]⟩
    have hsession := Cursor.holding_next dest hn cur ⟨hc, hresult⟩
    have hrows := Cursor.keeps_handles_next o.rows.handles dest cur rfl
    have hset : ∀ cur' : Cursor (Recorder σ), cur'.session.Holding n c.handles →
        cur'.rows.handles = o.rows.handles →
        Tidy n [] { c with sess := cur'.session, rows := c.rows.set r { o with rows := cur'.rows } } := by
      intro cur' hs hr
      have hc' : Tidy n [] { c with sess := cur'.session } := hs
      exact hc'.setRows ho hr
    cases hrun : Cursor.next dest cur with
    | ok | fail =>
      rw [hrun] at hsession hrows
      exact hset _ hsession hrows
    | panic | stuck => trivial
  . trivial

end Rows

end H2Go
