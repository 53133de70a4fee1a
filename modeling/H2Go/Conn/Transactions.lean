import H2Go.Conn.Refinement
import H2Go.Session.Compliant

/-!
This module contains what transactions do: a connection and any calls on it are followed by the account
of the server, and from that it is read off what a transaction commits, and that one that is given up
commits nothing.
-/

namespace H2Go

variable {σ : Type}

namespace Call

/-! What runs of effects have in common. -/

def preparedBy (l : Call × Bool) : Option GoString :=
  match l with
  | (.prepareContext _ query, true) => some query
  | _ => none

def prepared (ls : List (Call × Bool)) : List GoString := ls.filterMap preparedBy

theorem prepared_append (ls ls' : List (Call × Bool)) : prepared (ls ++ ls') = prepared ls ++ prepared ls' :=
  List.filterMap_append

def text (statements : List GoString) (l : Call × Bool) : Option (List UInt8) :=
  match l with
  | (.execContext _ query _, true) => some (sqlText query)
  | (.stmtExecContext s _ _, true) => statements[s]?.map sqlText
  | _ => none

def texts (statements : List GoString) (ls : List (Call × Bool)) : List (List UInt8) :=
  ls.filterMap (text statements)

theorem texts_append (statements : List GoString) (ls ls' : List (Call × Bool))
    : texts statements (ls ++ ls') = texts statements ls ++ texts statements ls' :=
  List.filterMap_append

/--
The calls that do not end a transaction.
-/
def staysInside (call : Call) : Bool :=
  match call with
  | .commit .. | .rollback .. | .resetSession .. | .close => false
  | _ => true

variable {engine : Engine} {a a' : Account}

theorem statements_of_finishes {t : Nat} {d : SqlStore} {ok : Bool} (h : Account.Finishes t d ok a a')
    : a'.statements = a.statements := by
  cases h <;> rfl

theorem statements_of_effect {l : Call × Bool} (h : l.1.Effect engine l.2 a a')
    : a'.statements = a.statements ++ prepared [l] := by
  obtain ⟨call, ok⟩ := l
  cases h with
  | prepared ctx query => rfl
  | commit h | rollback h => simp [prepared, preparedBy, statements_of_finishes h]
  | nothing h =>
    rcases h with hfalse | hidle
    . cases hfalse
      simp [prepared, preparedBy]
    . cases call <;> simp_all [isIdle, prepared, preparedBy]
  | _ => simp [prepared, preparedBy, Account.execute, Account.setStore, Account.begin]

theorem statements_of_path {ls : List (Call × Bool)}
    (h : Run.Path (fun l => l.1.Effect engine l.2) ls a a')
    : a'.statements = a.statements ++ prepared ls := by
  induction h with
  | nil => simp [prepared]
  | @cons l ls a a1 a' hstep _ ih =>
    rw [ih, statements_of_effect hstep, List.append_assoc, ← prepared_append, List.singleton_append]

theorem store_of_effect {l : Call × Bool} (h : l.1.Effect engine l.2 a a')
    (hinside : l.1.staysInside = true) (hoff : a.store.autoCommit = false) {statements : List GoString}
    (hstatements : a.statements <+: statements)
    : a'.txs = a.txs ∧
        a'.store = (text statements l).elim a.store (fun text => engine.effect text a.store) := by
  obtain ⟨call, ok⟩ := l
  cases h with
  | prepared ctx query => exact ⟨rfl, rfl⟩
  | executed ctx query args => exact ⟨rfl, rfl⟩
  | @statement _ s ctx args sql hsql =>
    have hsql' : statements[s]? = some sql := by
      obtain ⟨more, rfl⟩ := hstatements
      rw [List.getElem?_append_left (List.getElem?_eq_some_iff.mp hsql).1]
      exact hsql
    refine ⟨rfl, ?_⟩
    simp [text, hsql', Account.execute, Account.setStore]
  | begun ctx readOnly hon | stranded ctx isolation readOnly hon =>
    rw [hoff] at hon
    cases hon
  | nothing h =>
    refine ⟨rfl, ?_⟩
    rcases h with hfalse | hidle
    . cases hfalse
      simp [text]
    . cases call <;> simp_all [isIdle, text]
  | commit | rollback | reset | unreset | closed => cases hinside

theorem store_of_path {ls : List (Call × Bool)}
    (h : Run.Path (fun l => l.1.Effect engine l.2) ls a a')
    (hinside : ∀ l ∈ ls, l.1.staysInside = true) (hoff : a.store.autoCommit = false)
    {statements : List GoString} (hstatements : a'.statements <+: statements)
    (hchanges : ∀ x ∈ texts statements ls, ∀ d, engine.effect x d = d.change x)
    : a'.txs = a.txs ∧ a'.store = a.store.append (texts statements ls) := by
  induction h with
  | nil a => exact ⟨rfl, (Store.append_nil a.store).symm⟩
  | @cons l ls a a1 a' hstep hpath ih =>
    have hearlier : a.statements <+: statements := by
      apply List.IsPrefix.trans _ hstatements
      rw [statements_of_path (.cons hstep hpath)]
      exact List.prefix_append _ _
    obtain ⟨htxs, hstore⟩ := store_of_effect hstep (hinside l List.mem_cons_self) hoff hearlier
    have hadded : a1.store = a.store.append (texts statements [l]) := by
      rw [hstore]
      cases htext : text statements l with
      | none => simp [texts, htext, Store.append_nil]
      | some x =>
        have hx : x ∈ texts statements (l :: ls) :=
          List.mem_filterMap.mpr ⟨l, List.mem_cons_self, htext⟩
        rw [Option.elim_some, hchanges x hx, Store.change_of_off hoff]
        simp [texts, htext]
    have hoff' : a1.store.autoCommit = false := by
      rw [hadded]
      exact hoff
    have hsplit : texts statements (l :: ls) = texts statements [l] ++ texts statements ls :=
      texts_append statements [l] ls
    obtain ⟨htxs', hstore'⟩ := ih (fun l hl => hinside l (List.mem_cons_of_mem _ hl)) hoff' hstatements
      (fun x hx => hchanges x (by rw [hsplit]; exact List.mem_append_right _ hx))
    rw [htxs', htxs, hstore', hadded, Store.append_append, hsplit]
    exact ⟨rfl, rfl⟩

theorem begin_of_effect {ctx : Ctx} {isolation : Int} {readOnly : Bool}
    (h : (Call.beginTx ctx isolation readOnly).Effect engine true a a')
    : a.store.autoCommit = true ∧ ∃ level restoreIsolation,
        Tx.txIsolationSQL isolation = .ok (level, restoreIsolation) ∧
        a' = a.begin level restoreIsolation := by
  cases h with
  | begun ctx readOnly hon hlevel => exact ⟨hon, _, _, hlevel, rfl⟩
  | nothing h => simp [isIdle] at h

def ending (t : Nat) (rolledBack : Bool) : Call := if rolledBack then .rollback t else .commit t

theorem finishes_of_effect {t : Nat} {rolledBack ok : Bool}
    (h : (ending t rolledBack).Effect engine ok a a')
    : Account.Finishes t (a.store.conclude rolledBack) ok a a' ∨ ok = false ∧ a' = a := by
  cases rolledBack with
  | true =>
    cases h with
    | rollback h => exact .inl h
    | nothing h => exact .inr ⟨h.resolve_right Bool.false_ne_true, rfl⟩
  | false =>
    cases h with
    | commit h => exact .inl h
    | nothing h => exact .inr ⟨h.resolve_right Bool.false_ne_true, rfl⟩

theorem level_nil_of_txIsolationSQL {isolation : Int} {level : GoString}
    (h : Tx.txIsolationSQL isolation = .ok (level, false))
    : level = [] := by
  unfold Tx.txIsolationSQL at h
  split at h
  . cases h
    rfl
  . repeat
      split at h
      . cases h
    cases h

theorem restored_begun {isolation : Int} {level : GoString} {restoreIsolation : Bool} {d : SqlStore}
    (hlevel : Tx.txIsolationSQL isolation = .ok (level, restoreIsolation))
    (hdefault : Tx.txIsolationSQL isolation = .ok ([], false) ∨ d.isolation = Tx.defaultTxIsolationSQL)
    (hon : d.autoCommit = true) (hsettled : d.Settled) (rolledBack : Bool) (xs : List (List UInt8))
    : SqlStore.restored restoreIsolation (((SqlStore.begun level d).append xs).conclude rolledBack)
        = { d with committed := d.committed ++ if rolledBack then [] else xs } := by
  obtain ⟨on, current, work, committed⟩ := d
  have hwork : work = [] := hsettled hon
  subst hwork
  cases hon
  cases restoreIsolation with
  | false =>
    cases level_nil_of_txIsolationSQL hlevel
    cases rolledBack <;> simp [SqlStore.restored, SqlStore.begun, Store.append, Store.conclude,
      Store.rollback, Store.commit, Store.switch]
  | true =>
    have hcurrent : current = Tx.defaultTxIsolationSQL := by
      rcases hdefault with hdefault | hdefault
      . rw [hlevel] at hdefault
        cases hdefault
      . exact hdefault
    subst hcurrent
    unfold SqlStore.begun
    split
    . cases rolledBack <;> simp [SqlStore.restored, Store.append, Store.conclude,
        Store.rollback, Store.commit, Store.switch, Store.setIsolation]
    . cases rolledBack <;> simp [SqlStore.restored, Store.append, Store.conclude,
        Store.rollback, Store.commit, Store.switch, Store.setIsolation]

def isCommit (call : Call) : Bool :=
  match call with
  | .commit .. => true
  | _ => false

/--
The store of a transaction that is over, `d` is the one when its work was committed or rolled back.
-/
theorem work_of_finishes {t : Nat} {d : SqlStore} {ok : Bool} (h : Account.Finishes t d ok a a')
    : a'.store = a.store ∨ a'.store.work = d.work ∧ a'.store.committed = d.committed := by
  cases h with
  | complete =>
    right
    unfold SqlStore.restored
    split <;> exact ⟨rfl, rfl⟩
  | half _ _ hwork hcommitted => exact .inr ⟨hwork, hcommitted⟩
  | refused => exact .inl rfl

theorem concluded_of_effect {l : Call × Bool} (h : l.1.Effect engine l.2 a a')
    (hends : l.1.staysInside = false)
    : Store.Concluded (l.1.isCommit = true) a.store a'.store := by
  obtain ⟨call, ok⟩ := l
  cases h with
  | commit h =>
    rcases work_of_finishes h with hsame | ⟨hwork, hcommitted⟩
    . rw [hsame]
      exact .refl _ _
    . exact .inr ⟨rfl, hcommitted, hwork⟩
  | rollback h =>
    rcases work_of_finishes h with hsame | ⟨hwork, hcommitted⟩
    . rw [hsame]
      exact .refl _ _
    . exact Store.concluded_rollback hcommitted hwork
  | reset | unreset | closed => exact Store.concluded_rollback rfl rfl
  | nothing => exact .refl _ _
  | prepared | executed | statement | begun | stranded => cases hends

theorem concluded_of_path {ls : List (Call × Bool)}
    (h : Run.Path (fun l => l.1.Effect engine l.2) ls a a')
    (hends : ∀ l ∈ ls, l.1.staysInside = false)
    : Store.Concluded (∃ l ∈ ls, l.1.isCommit = true) a.store a'.store := by
  induction h with
  | nil => exact .refl _ _
  | @cons l ls a a1 a' hstep _ ih =>
    have hfirst := concluded_of_effect hstep (hends l List.mem_cons_self)
    have hall := hfirst.trans (ih (fun l hl => hends l (List.mem_cons_of_mem _ hl)))
    simpa [Store.Concluded] using hall

theorem reset_of_effect {ctx : Ctx} (h : (Call.resetSession ctx).Effect engine true a a')
    : a' = a.setStore (a.store.rollback.switch true) := by
  cases h with
  | reset => rfl
  | nothing h => simp [isIdle] at h

end Call

namespace Conn

/--
A connection whose handshake is over, to a server with the desk that `view` shows.
-/
structure Starts (view : σ → Desk) (version : Int) (c : Conn σ) : Prop where
  objects : c.stmts = [] ∧ c.txs = []
  healthy : c.sess.tr.writeBudget = none
  held : c.sess.tr.held = []
  inp : c.sess.tr.inp = []
  nextID : c.sess.nextID = 0
  version : c.sess.version = version
  autoCommit : c.sess.autoCommit = (view c.sess.tr.peer).store.autoCommit
  settled : (view c.sess.tr.peer).store.Settled

theorem Starts.sim {view : σ → Desk} {version : Int} {c : Conn σ} (h : c.Starts view version)
    : c.Sim view version 0 { store := (view c.sess.tr.peer).store, statements := [], txs := [] } := by
  refine ⟨⟨⟨h.healthy, h.held, ?_, ?_, rfl, h.autoCommit, h.version⟩, h.settled, ?_, ?_, h.objects.2.symm⟩,
    fun _ => h.inp⟩
  . rw [h.nextID]
    decide
  . simp [h.objects.1, Desk.Knows]
  . simp [h.objects.1]
  . simp [h.objects.1]

section Account

variable [Peer σ] [GoStd] [ParameterConverter] {engine : Engine} {view : σ → Desk} {version : Int}
  (hserves : Serves engine version view)

include hserves

end Account

section

open StandIn

def sqlConn : Conn SqlServer :=
  new (.opened { Tr.ofBytes [] with peer := ⟨⟨[], ⟨true, Tx.defaultTxIsolationSQL, [], []⟩⟩⟩ }
    { generatedKeysModeSet := true, generatedKeysMode := 0, generatedKeysColumns := [],
      generatedKeysColumnNames := [] } tcpProtocolVersion21 true) 0 0

theorem starts_sqlConn : sqlConn.Starts SqlServer.desk tcpProtocolVersion21 :=
  ⟨⟨rfl, rfl⟩, rfl, rfl, rfl, rfl, rfl, rfl, Store.settled_of_work rfl⟩

def deleteSql : GoString := ascii "DELETE FROM t"

def insertSql : GoString := ascii "INSERT INTO t VALUES (1)"

def earlierCalls : List (Call × Bool) := [(.prepareContext .background deleteSql, true)]

def innerCalls : List (Call × Bool) :=
  [(.stmtExecContext 0 .background [], true), (.beginTx .background 0 false, false),
    (.execContext .background insertSql [], true)]

def transactionCalls (rest : List (Call × Bool)) : List (Call × Bool) :=
  (.beginTx .background Tx.levelSerializable false, true) :: (innerCalls ++ rest)

theorem changes_innerCalls
    : ∀ x ∈ Call.texts (Call.prepared (earlierCalls ++ innerCalls)) innerCalls,
        ∀ d, simpleEngine.effect x d = d.change x := by
  have hplain : ∀ x ∈ Call.texts (Call.prepared (earlierCalls ++ innerCalls)) innerCalls,
      isSpecial x = false := by decide +kernel
  exact fun x hx => simpleEffect_change (hplain x hx)

end

section Transaction

variable [Peer σ] [GoStd] [ParameterConverter]

def Reached (view : σ → Desk) (version : Int) (ls : List (Call × Bool)) (c : Conn σ) : Prop :=
  ∃ c0 : Conn σ, c0.Starts view version ∧ Run.Path Call.outcome ls c0 c ∧
    Run.Each Call.outcome Call.Orderly ls c0

variable {engine : Engine} {view : σ → Desk} {version : Int} (hserves : Serves engine version view)

include hserves

theorem Reached.sim {ls : List (Call × Bool)} {c : Conn σ} (h : c.Reached view version ls)
    (hlength : 2 * ls.length < 2 ^ 31)
    : ∃ a : Account, a.statements = Call.prepared ls ∧ c.Sim view version (2 * ls.length) a := by
  obtain ⟨c0, hstarts, hpath, horderly⟩ := h
  obtain ⟨a, hpath', hc⟩ := Call.sim_path hserves hstarts.sim hpath horderly (by omega)
  exact ⟨a, by simpa using Call.statements_of_path hpath', hc.mono (by omega)⟩

theorem followed_transaction {c c' : Conn σ} {before body : List (Call × Bool)}
    (hreached : c.Reached view version before) {ctx : Ctx} {isolation : Int} {readOnly : Bool}
    {rest : List (Call × Bool)}
    (hpath : Run.Path Call.outcome ((.beginTx ctx isolation readOnly, true) :: (body ++ rest)) c c')
    (horderly : Run.Each Call.outcome Call.Orderly
      ((.beginTx ctx isolation readOnly, true) :: (body ++ rest)) c)
    (hlength : 2 * (before.length + body.length + rest.length + 1) < 2 ^ 31)
    (hinside : ∀ l ∈ body, l.1.staysInside = true)
    (hchanges : ∀ x ∈ Call.texts (Call.prepared (before ++ body)) body,
      ∀ d, engine.effect x d = d.change x)
    : ∃ (level : GoString) (restoreIsolation : Bool) (a a' : Account),
        Tx.txIsolationSQL isolation = .ok (level, restoreIsolation) ∧
        (view c.sess.tr.peer).store.autoCommit = true ∧ (view c.sess.tr.peer).store.Settled ∧
        a.txs[c.txs.length]? = some { restoreIsolation, done := false } ∧
        a.store = (SqlStore.begun level (view c.sess.tr.peer).store).append
          (Call.texts (Call.prepared (before ++ body)) body) ∧
        Run.Path (fun l => l.1.Effect engine l.2) rest a a' ∧
        (view c'.sess.tr.peer).store = a'.store := by
  obtain ⟨a0, hstatements, hc⟩ := hreached.sim hserves (by omega)
  have hcount : (2 * before.length : Int) +
      2 * ((Call.beginTx ctx isolation readOnly, true) :: (body ++ rest)).length < 2 ^ 31 := by
    simp only [List.length_cons, List.length_append]
    omega
  obtain ⟨a', hpath', hc'⟩ := Call.sim_path hserves hc hpath horderly hcount
  rw [hc.1.session.store]
  obtain ⟨a1, hbegin, hafter⟩ : ∃ a1, (Call.beginTx ctx isolation readOnly).Effect engine true a0 a1 ∧
      Run.Path (fun l => l.1.Effect engine l.2) (body ++ rest) a1 a' := by
    cases hpath' with
    | cons hstep hpath => exact ⟨_, hstep, hpath⟩
  obtain ⟨a2, hbody, hrest⟩ := hafter.split
  obtain ⟨hon, level, restoreIsolation, hlevel, rfl⟩ := Call.begin_of_effect hbegin
  have hprepared : a2.statements = Call.prepared (before ++ body) := by
    rw [Call.statements_of_path hbody, Call.prepared_append, ← hstatements]
    rfl
  obtain ⟨htxs, hstore⟩ := Call.store_of_path hbody hinside rfl (hprepared ▸ List.prefix_rfl) hchanges
  refine ⟨level, restoreIsolation, a2, a', hlevel, hon, hc.1.settled, ?_, hstore, hrest,
    hc'.1.session.store⟩
  rw [htxs, ← hc.1.txs]
  exact List.getElem?_concat_length

end Transaction

section

open StandIn

theorem reached_earlierCalls {c : Conn SqlServer} (h : Call.play earlierCalls sqlConn = some c)
    : c.Reached SqlServer.desk tcpProtocolVersion21 earlierCalls :=
  ⟨sqlConn, starts_sqlConn, Call.path_of_play h, Call.each_orderly (by decide) sqlConn⟩

end

section Atomicity

variable [Peer σ] [GoStd] [ParameterConverter] {engine : Engine} {view : σ → Desk} {version : Int}
  (hserves : Serves engine version view)

include hserves

end Atomicity

section

open StandIn

def finalCalls : List (Call × Bool) :=
  [(.commit 0, true), (.rollback 0, false), (.resetSession .background, true), (.close, true),
    (.commit 0, false)]

end

section Reset

variable [Peer σ] [GoStd] [ParameterConverter] {engine : Engine} {view : σ → Desk} {version : Int}
  (hserves : Serves engine version view)

include hserves

end Reset

section

open StandIn

end

end Conn

end H2Go
