import H2Go.Conn.Impl
import H2Go.Lib.Run
import H2Go.Session.Contract

/-!
This module contains what the calls of the interface are for: their effect on the store of the server,
without a session, a stream or anything that can go wrong on them.
-/

namespace H2Go

/--
The store of the server, with the SQL of the statements and the transactions that were created.
-/
structure Account where
  store : SqlStore
  statements : List GoString
  txs : List Tx

/--
The store after a transaction: in autocommit mode again, and with the default isolation level if the
transaction had another one.
-/
def SqlStore.restored (restoreIsolation : Bool) (d : SqlStore) : SqlStore :=
  (if restoreIsolation then d.setIsolation Tx.defaultTxIsolationSQL else d).switch true

/--
The store of a new transaction, the level `[]` does not have to be set.
-/
def SqlStore.begun (level : GoString) (d : SqlStore) : SqlStore :=
  (if level = [] then d else d.setIsolation level).switch false

namespace Account

def setStore (store : SqlStore) (a : Account) : Account := { a with store }

def prepare (query : GoString) (a : Account) : Account := { a with statements := a.statements ++ [query] }

def execute (engine : Engine) (sql : GoString) (a : Account) : Account :=
  a.setStore (engine.effect (sqlText sql) a.store)

def begin (level : GoString) (restoreIsolation : Bool) (a : Account) : Account :=
  { a with
    store := SqlStore.begun level a.store
    txs := a.txs ++ [{ restoreIsolation, done := false }] }

def finish (t : Nat) (tx : Tx) (a : Account) : Account :=
  { a with txs := a.txs.set t { tx with done := true } }

/--
The end of a transaction, `d` is the store when all work has been committed or rolled back. The call
can fail after that.
-/
inductive Finishes (t : Nat) (d : SqlStore) : Bool → Account → Account → Prop where
  | complete {a : Account} {tx : Tx} (htx : a.txs[t]? = some tx) (hdone : tx.done = false)
    : Finishes t d true a ((a.finish t tx).setStore (SqlStore.restored tx.restoreIsolation d))
  | half {a : Account} {tx : Tx} (htx : a.txs[t]? = some tx) (hdone : tx.done = false) {d' : SqlStore}
    (hwork : d'.work = d.work) (hcommitted : d'.committed = d.committed)
    : Finishes t d false a ((a.finish t tx).setStore d')
  | refused {a : Account} {tx : Tx} (htx : a.txs[t]? = some tx) (hdone : tx.done = false)
    : Finishes t d false a (a.finish t tx)

end Account

/--
The calls that can return without having done anything.
-/
def Call.isIdle (call : Call) : Bool :=
  match call with
  | .queryContext .. | .ping .. | .isValid | .stmtQueryContext .. | .stmtClose .. | .rowsNext ..
  | .rowsClose .. | .close => true
  | _ => false

/--
What a call can do, and whether it then returns without an error.
-/
inductive Call.Effect (engine : Engine) : Call → Bool → Account → Account → Prop where
  | prepared {a : Account} (ctx : Ctx) (query : GoString)
    : Effect engine (.prepareContext ctx query) true a (a.prepare query)
  | executed {a : Account} (ctx : Ctx) (query : GoString) (args : List NamedValue)
    : Effect engine (.execContext ctx query args) true a (a.execute engine query)
  | statement {a : Account} {s : Nat} (ctx : Ctx) (args : List NamedValue) {sql : GoString}
    (hsql : a.statements[s]? = some sql)
    : Effect engine (.stmtExecContext s ctx args) true a (a.execute engine sql)
  | begun {a : Account} (ctx : Ctx) {isolation : Int} (readOnly : Bool) {level : GoString}
    {restoreIsolation : Bool} (hon : a.store.autoCommit = true)
    (hlevel : Tx.txIsolationSQL isolation = .ok (level, restoreIsolation))
    : Effect engine (.beginTx ctx isolation readOnly) true a (a.begin level restoreIsolation)
  | stranded {a : Account} (ctx : Ctx) (isolation : Int) (readOnly : Bool)
    (hon : a.store.autoCommit = true)
    : Effect engine (.beginTx ctx isolation readOnly) false a
        (a.setStore (a.store.switch false))
  | commit {a a' : Account} {t : Nat} {ok : Bool} (h : Account.Finishes t a.store.commit ok a a')
    : Effect engine (.commit t) ok a a'
  | rollback {a a' : Account} {t : Nat} {ok : Bool} (h : Account.Finishes t a.store.rollback ok a a')
    : Effect engine (.rollback t) ok a a'
  | reset {a : Account} (ctx : Ctx)
    : Effect engine (.resetSession ctx) true a (a.setStore (a.store.rollback.switch true))
  | unreset {a : Account} (ctx : Ctx)
    : Effect engine (.resetSession ctx) false a (a.setStore a.store.rollback)
  | closed {a : Account} (ok : Bool) : Effect engine .close ok a (a.setStore a.store.rollback)
  | nothing {a : Account} {call : Call} {ok : Bool} (h : ok = false ∨ call.isIdle = true)
    : Effect engine call ok a a

end H2Go
