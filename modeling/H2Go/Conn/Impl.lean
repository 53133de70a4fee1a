import H2Go.Rows.Impl
import H2Go.Lib.Proc

/-!
This module contains the connection with the statements, transactions and rows that were created on
it. Everything here can be called by several goroutines at once, so the functions are procedures: a
critical section is one step, and so is a call of the session.
-/

namespace H2Go

/--
Who uses the connection: the call that runs in goroutine `id`, or open rows.
-/
inductive Owner where
  | call (id : Nat)
  | rows (r : Nat)
  deriving DecidableEq, Repr

inductive OwnershipEvent where
  | acquired (o : Owner)
  | passed (o o' : Owner)
  | released (o : Owner)
  deriving DecidableEq, Repr

/--
A prepared statement. `connected` is `s.conn != nil`.
-/
structure Stmt where
  connected : Bool
  cmd : Option PreparedCommand
  closed : Bool
  closePending : Bool
  closeSent : Bool

structure Tx where
  restoreIsolation : Bool
  done : Bool

inductive RowsCallback where
  | release
  | finishOperation (s : Nat)

structure OpenRows where
  rows : Rows
  callback : Option RowsCallback

/--
A connection, with all objects that were created on it. `attached` is `c.sess != nil`, the session is
kept for the record when the pointer is cleared. `maxRows` and `fetchSize` are the values in
`c.sess.cfg`. `log` and `closing` only record: how the connection changed hands, and the rows whose
`Close` is running.
-/
structure Conn (σ : Type) where
  sess : Session σ
  attached : Bool
  busy : Bool
  maxRows : Int
  fetchSize : Int
  stmts : List Stmt
  txs : List Tx
  rows : List OpenRows
  log : List OwnershipEvent
  closing : List Nat

structure NamedValue where
  name : GoString
  ordinal : Int
  value : Value

class ParameterConverter where
  convertValue : Value → Except Err Value

namespace StandIn

/--
Stand-in to evaluate the model with.
-/
scoped instance : ParameterConverter where
  convertValue v := .ok v

end StandIn

section Arguments

variable [ParameterConverter]

def normalizeNamedValue (nv : NamedValue) : Except Err NamedValue :=
  if nv.name ≠ [] then
    .error (.errorf "h2go: named parameters are not supported; use positional ? placeholders" [])
  else if nv.ordinal < 1 then
    .error (.errorf "h2go: invalid parameter ordinal %d" [.int nv.ordinal])
  else
    match ParameterConverter.convertValue nv.value with
    | .error err =>
      .error (.wrapf "h2go: parameter %d conversion failed: %w" [.int nv.ordinal] err)
    | .ok v =>
      match v with
      | .lob _ | .other _ =>
        .error (.errorf "h2go: parameter %d has unsupported type %T" [.int nv.ordinal, .str v.typeName])
      | _ => .ok { nv with value := v }

def convertNamedValues (i : Nat) (args : List NamedValue) : Except Err (List Value) :=
  match args with
  | [] => .ok []
  | arg :: args => do
    let arg ← normalizeNamedValue arg
    if arg.ordinal ≠ i + 1 then
      .error (.errorf "h2go: invalid parameter ordinal %d at index %d" [.int arg.ordinal, .int i])
    else do
      let values ← convertNamedValues (i + 1) args
      .ok (arg.value :: values)

end Arguments

structure Result where
  affected : Int
  lastInsertID : Int
  lastInsertIDSet : Bool
  lastInsertErr : Option Err
  generatedKeys : Option GeneratedKeysResult

def Result.ofUpdate (res : ResultWithUpdateCount) : Result :=
  { affected := res.updateCount, lastInsertID := res.lastInsertID,
    lastInsertIDSet := res.lastInsertIDSet, lastInsertErr := res.lastInsertErr,
    generatedKeys := res.generatedKeys }

def Result.lastInsertId (r : Option Result) : Except Err Int :=
  match r with
  | none => .error (.wrapf "h2go: LastInsertId: %w" [] .lastInsertIDUnavailable)
  | some r =>
    if ¬ r.lastInsertIDSet then
      match r.lastInsertErr with
      | some err => .error err
      | none => .error (.wrapf "h2go: LastInsertId: %w" [] .lastInsertIDUnavailable)
    else
      .ok r.lastInsertID

def Result.rowsAffected (r : Option Result) : Int :=
  match r with
  | none => 0
  | some r => r.affected

namespace Conn

variable {σ : Type} {α : Type}

def new (s : Session σ) (maxRows fetchSize : Int) : Conn σ :=
  { sess := s, attached := true, busy := false, maxRows, fetchSize, stmts := [], txs := [], rows := [],
    log := [], closing := [] }

def setSess (s : Session σ) (c : Conn σ) : Conn σ := { c with sess := s }

/--
Call a method of the session that does not expect a nil pointer.
-/
def onSess (m : Prog Err (Session σ) α) : Prog Err (Conn σ) α := fun c =>
  if c.attached then Prog.zoom sess setSess m c else .panic .nilDeref

/--
Call a method of the session that returns `err` for a nil pointer.
-/
def onSessOr (err : Err) (m : Prog Err (Session σ) α) : Prog Err (Conn σ) α := fun c =>
  if c.attached then Prog.zoom sess setSess m c else .fail err c

def onStmt (s : Nat) (m : Prog Err Stmt α) : Prog Err (Conn σ) α := fun c =>
  match c.stmts[s]? with
  | some stmt => (m stmt).map id (fun stmt => { c with stmts := c.stmts.set s stmt })
  | none => .panic .nilDeref

def onTx (t : Nat) (m : Prog Err Tx α) : Prog Err (Conn σ) α := fun c =>
  match c.txs[t]? with
  | some tx => (m tx).map id (fun tx => { c with txs := c.txs.set t tx })
  | none => .panic .nilDeref

/--
Use the rows `r` and the session they belong to. It is their own pointer to the session, clearing the
one of the connection does not change it.
-/
def onRows (r : Nat) (m : Prog Err (Cursor σ) α) : Prog Err (Conn σ) α := fun c =>
  match c.rows[r]? with
  | some o =>
    (m { rows := o.rows, session := c.sess }).map id (fun cur =>
      { c with sess := cur.session, rows := c.rows.set r { o with rows := cur.rows } })
  | none => .panic .nilDeref

def acquire (o : Owner) : Prog Err (Conn σ) Unit := fun c =>
  if ¬ c.attached ∨ c.sess.dead then
    .fail .badConn c
  else if c.busy then
    .fail (.errorf "h2go: connection already in use (concurrent operations not supported)" []) c
  else
    .ok () { c with busy := true, log := c.log ++ [.acquired o] }

def release (o : Owner) : Prog Err (Conn σ) Unit :=
  Prog.modify (fun c => { c with busy := false, log := c.log ++ [.released o] })

/--
The check `if err := ctx.Err(); err != nil { return err }`.
-/
def checkContext (ctx : Ctx) : Prog Err (Conn σ) Unit := fun c =>
  match ctx.err c.sess.clock with
  | some err => .fail err c
  | none => .ok () c

/--
The check `if c.sess == nil { return driver.ErrBadConn }`.
-/
def checkAttached : Prog Err (Conn σ) Unit := fun c =>
  if c.attached then .ok () c else .fail .badConn c

def defaultFetchSize : Int := 100

def effectiveMaxRows (c : Conn σ) : Int :=
  if ¬ c.attached ∨ c.sess.cfg.isNone ∨ c.maxRows < 0 then 0 else c.maxRows

def effectiveFetchSize (c : Conn σ) : Int :=
  if ¬ c.attached ∨ c.sess.cfg.isNone ∨ c.fetchSize ≤ 0 then defaultFetchSize else c.fetchSize

def newStmt (cmd : PreparedCommand) : Prog Err (Conn σ) Nat := fun c =>
  .ok c.stmts.length
    { c with stmts := c.stmts ++
        [{ connected := true, cmd := some cmd, closed := false, closePending := false,
           closeSent := false }] }

def newTx (restoreIsolation : Bool) : Prog Err (Conn σ) Nat := fun c =>
  .ok c.txs.length { c with txs := c.txs ++ [{ restoreIsolation, done := false }] }

/--
Set the callback of new rows. The connection now belongs to them.
-/
def openRows (o : Owner) (rows : Rows) (callback : RowsCallback) : Prog Err (Conn σ) Nat := fun c =>
  .ok c.rows.length
    { c with
      rows := c.rows ++ [{ rows, callback := some callback }]
      log := c.log ++ [.passed o (.rows c.rows.length)] }

/--
The test `r.closed`, with which `Rows.Close` starts.
-/
def beginClose (r : Nat) : Prog Err (Conn σ) Bool := fun c =>
  match c.rows[r]? with
  | some o => .ok o.rows.closed { c with closing := r :: c.closing }
  | none => .panic .nilDeref

def endClose (r : Nat) : Prog Err (Conn σ) Unit :=
  Prog.modify (fun c => { c with closing := c.closing.erase r })

def closeCallback (r : Nat) : Prog Err (Conn σ) (Option RowsCallback) := fun c =>
  match c.rows[r]? with
  | some o => .ok o.callback c
  | none => .panic .nilDeref

def clearCallback (r : Nat) : Prog Err (Conn σ) Unit := fun c =>
  match c.rows[r]? with
  | some o => .ok () { c with rows := c.rows.set r { o with callback := none } }
  | none => .panic .nilDeref

end Conn

def firstError {σ : Type} (results : List (Except Err Unit)) : Proc Err σ Unit :=
  match results with
  | [] => pure ()
  | .error err :: _ => Proc.throw err
  | .ok _ :: results => firstError results

namespace Stmt

/--
The first critical section of `Close`. It returns nothing when there is nothing left to do, otherwise
whether the statement has a connection and the command to close.
-/
def beginClose : Prog Err Stmt (Option (Bool × PreparedCommand)) := fun s =>
  match s.cmd with
  | none => .ok none { s with closed := true }
  | some cmd =>
    if s.closeSent then
      .ok none { s with closed := true }
    else
      .ok (some (s.connected, cmd)) { s with closed := true }

def deferClose : Prog Err Stmt Unit :=
  Prog.modify (fun s => if s.closeSent then s else { s with closePending := true })

def hasCommand (cmd : PreparedCommand) (s : Stmt) : Bool := s.cmd.any (fun c => c.id = cmd.id)

def markCommandClosed (cmd : PreparedCommand) : Prog Err Stmt Unit :=
  Prog.modify (fun s =>
    if s.hasCommand cmd then
      { s with cmd := none, connected := false, closePending := false, closeSent := true }
    else
      s)

def ready : Prog Err Stmt PreparedCommand := fun s =>
  match s.cmd with
  | some cmd =>
    if s.closed ∨ ¬ s.connected ∨ s.closeSent then
      .fail (.errorf "h2go: statement is closed" []) s
    else
      .ok cmd s
  | none => .fail (.errorf "h2go: statement is closed" []) s

def pendingCommand : Prog Err Stmt (Option PreparedCommand) := fun s =>
  if ¬ s.closed ∨ ¬ s.closePending ∨ s.closeSent then .ok none s else .ok s.cmd s

variable {σ : Type} [Peer σ]

/--
The call `cmd.Close(c.sess)`, without a session it does nothing.
-/
def closeCommand (cmd : PreparedCommand) : Prog Err (Conn σ) Unit := fun c =>
  if c.attached then Conn.onSess (Session.closeCommand cmd) c else .ok () c

def closePendingOnOwnedConn (s : Nat) : Proc Err (Conn σ) Unit := do
  match ← .atomic (Conn.onStmt s pendingCommand) with
  | none => pure ()
  | some cmd => do
    .atomic (closeCommand cmd)
    .atomic (Conn.onStmt s (markCommandClosed cmd))

/--
Close the command if that was deferred, and release the connection that `o` owns.
-/
def finishOperation (s : Nat) (o : Owner) : Proc Err (Conn σ) Unit :=
  .deferred (closePendingOnOwnedConn s) (.atomic (Conn.release o))

/--
Check that the statement is open and acquire the connection, in one critical section.
-/
def beginOperation (s : Nat) (o : Owner) : Prog Err (Conn σ) PreparedCommand := do
  let cmd ← Conn.onStmt s ready
  Conn.acquire o
  pure cmd

def close (me s : Nat) : Proc Err (Conn σ) Unit := do
  match ← .atomic (Conn.onStmt s beginClose) with
  | none => pure ()
  | some (connected, cmd) =>
    if ¬ connected then
      .atomic (Conn.onStmt s (markCommandClosed cmd))
    else
      match ← Proc.attempt (.atomic (Conn.acquire (.call me))) with
      | .error _ => .atomic (Conn.onStmt s deferClose)
      | .ok _ =>
        .deferred
          (do
            .atomic (closeCommand cmd)
            .atomic (Conn.onStmt s (markCommandClosed cmd)))
          (.atomic (Conn.release (.call me)))

end Stmt

namespace Rows

variable {σ : Type} [GoStd] [Peer σ]

def runCallback (r : Nat) (callback : RowsCallback) : Proc Err (Conn σ) Unit :=
  match callback with
  | .release => .atomic (Conn.release (.rows r))
  | .finishOperation s => Stmt.finishOperation s (.rows r)

/--
Close the rows on the server, the first part of `Close`. The errors are returned by the second part.
-/
def closeResult (r : Nat) : Proc Err (Conn σ) (List (Except Err Unit)) := do
  .atomic (Conn.onRows r (Cursor.modifyRows Rows.markClosed))
  let resultErr ← .atomic (Conn.onRows r (do
    let c ← Prog.get
    Cursor.ifAlive (Cursor.sendResultClose c.rows.resultID)))
  let commandErr ← .atomic (Conn.onRows r (do
    let c ← Prog.get
    Cursor.closeOwnCommand c.rows))
  .atomic (Conn.onRows r (Cursor.modifyRows Rows.clear))
  pure [resultErr, commandErr]

def closeOpen (r : Nat) : Proc Err (Conn σ) Unit := do
  let errs ← closeResult r
  match ← .atomic (Conn.closeCallback r) with
  | none => firstError errs
  | some callback => do
    let callbackErr ← .attempt (runCallback r callback)
    .atomic (Conn.clearCallback r)
    firstError (errs ++ [callbackErr])

def close (r : Nat) : Proc Err (Conn σ) Unit := do
  let closed ← .atomic (Conn.beginClose r)
  let res ← Proc.attempt (if closed then pure () else closeOpen r)
  .atomic (Conn.endClose r)
  .ofExcept res

def next (r : Nat) (dest : List Value) : Proc Err (Conn σ) (List Value) :=
  .atomic (Conn.onRows r (Cursor.next dest))

/--
The length of `Columns()`, closed rows have no columns.
-/
def columnsLen (r : Nat) : Prog Err (Conn σ) Nat :=
  Conn.onRows r (do
    let c ← Prog.get
    pure (c.rows.columns.elim 0 (fun m => m.columns.length)))

end Rows

namespace Conn

variable {σ : Type} [Peer σ]

def prepareContext (me : Nat) (ctx : Ctx) (query : GoString) : Proc Err (Conn σ) Nat := do
  .atomic (acquire (.call me))
  .deferred
    (do
      let cmd ← .atomic (onSess (Session.prepareCommandReadParams ctx query))
      .atomic (newStmt cmd))
    (.atomic (release (.call me)))

def isValid (me : Nat) : Proc Err (Conn σ) Bool := do
  match ← Proc.attempt (.atomic (acquire (.call me))) with
  | .error _ => pure false
  | .ok _ =>
    .deferred
      (do
        match ← Proc.attempt (.atomic checkAttached) with
        | .error _ => pure false
        | .ok _ =>
          match ← Proc.attempt (.atomic (onSessOr
              (.errorf "h2go: Session.hasPendingTransaction: session closed" [])
              (Session.hasPendingTransaction .background))) with
          | .error _ => pure false
          | .ok _ => pure true)
      (.atomic (release (.call me)))

def abortSess : Prog Err (Conn σ) Unit := fun c =>
  if c.attached then .ok () { c with sess := c.sess.abort } else .ok () c

def discard : Proc Err (Conn σ) Unit := do
  .atomic abortSess
  .throw .badConn

def autoCommit : Prog Err (Conn σ) Bool :=
  onSess (do
    let s ← Prog.get
    pure s.autoCommit)

variable [GoStd]

def rollbackCurrentTransaction (ctx : Ctx) : Prog Err (Conn σ) Unit :=
  onSessOr (.errorf "h2go: Session.rollbackCurrentTransaction: session closed" [])
    (Session.rollbackCurrentTransaction ctx)

def setAutoCommit (ctx : Ctx) (on : Bool) : Prog Err (Conn σ) Unit :=
  onSessOr (.errorf "h2go: Session.setAutoCommit: session closed" []) (Session.setAutoCommit ctx on)

def setTransactionIsolation (ctx : Ctx) (sqlLevel : GoString) : Prog Err (Conn σ) Unit :=
  onSessOr (.errorf "h2go: Session.setTransactionIsolation: session closed" [])
    (Session.setTransactionIsolation ctx sqlLevel)

def commitCurrentTransaction (ctx : Ctx) : Prog Err (Conn σ) Unit :=
  onSessOr (.errorf "h2go: Session.commitCurrentTransaction: session closed" [])
    (Session.commitCurrentTransaction ctx)

def rollbackPending (ctx : Ctx) (pending : Bool) : Proc Err (Conn σ) (Except Err Unit) :=
  if pending then .attempt (.atomic (rollbackCurrentTransaction ctx)) else pure (.ok ())

def resetOwned (ctx : Ctx) : Proc Err (Conn σ) Unit := do
  match ← Proc.attempt (.atomic (onSessOr
      (.errorf "h2go: Session.hasPendingTransaction: session closed" [])
      (Session.hasPendingTransaction ctx))) with
  | .error _ => discard
  | .ok pending =>
    match ← rollbackPending ctx pending with
    | .error _ => discard
    | .ok _ =>
      let on ← .atomic autoCommit
      if on then
        pure ()
      else
        match ← Proc.attempt (.atomic (setAutoCommit ctx true)) with
        | .error _ => discard
        | .ok _ => pure ()

def resetSession (me : Nat) (ctx : Ctx) : Proc Err (Conn σ) Unit := do
  .atomic (checkContext ctx)
  .atomic checkAttached
  match ← Proc.attempt (.atomic (acquire (.call me))) with
  | .error _ => .throw .badConn
  | .ok _ => .deferred (resetOwned ctx) (.atomic (release (.call me)))

/--
Roll back a transaction that is open, errors are ignored.
-/
def rollbackOpen : Prog Err (Conn σ) (Except Err Unit) := fun c =>
  if c.sess.autoCommit then
    .ok (.ok ()) c
  else
    Prog.attempt (onSess (Session.rollbackCurrentTransaction .background)) c

def detach (c : Conn σ) : Conn σ := { c with attached := false, busy := false }

/--
Close the connection, in one critical section. Open rows or a running call keep the session.
-/
def close : Prog Err (Conn σ) Unit := do
  let c ← Prog.get
  if ¬ c.attached then
    pure ()
  else if c.busy then
    Prog.modify detach
  else do
    let _ ← rollbackOpen
    let r ← Prog.attempt (onSess Session.close)
    Prog.modify detach
    match r with
    | .ok _ => pure ()
    | .error err => Prog.throw err

/--
Run a query and hand the connection over to its rows. When it fails the connection is released.
-/
def queryOwned (me : Nat) (query : Conn σ → Prog Err (Session σ) Rows) : Proc Err (Conn σ) Nat := do
  match ← Proc.attempt (.atomic (fun c => onSess (query c) c)) with
  | .error err => do
    .atomic (release (.call me))
    .throw err
  | .ok rows => .atomic (openRows (.call me) rows .release)

def queryContextInternal (me : Nat) (ctx : Ctx) (query : GoString) : Proc Err (Conn σ) Nat := do
  .atomic (acquire (.call me))
  queryOwned me (fun c => Session.executeQuery ctx query c.effectiveMaxRows c.effectiveFetchSize)

def drain (r : Nat) (dest : List Value) (fuel : Nat) : Proc Err (Conn σ) Unit :=
  match fuel with
  | 0 => .atomic Prog.stuck
  | fuel + 1 => do
    match ← Proc.attempt (Rows.next r dest) with
    | .ok dest => drain r dest fuel
    | .error err =>
      if err = .eof then
        Rows.close r
      else do
        let _ ← .attempt (Rows.close r)
        .throw err

def ping (me : Nat) (ctx : Ctx) (fuel : Nat) : Proc Err (Conn σ) Unit := do
  let r ← queryContextInternal me ctx (ascii "SELECT 1")
  let columns ← .atomic (Rows.columnsLen r)
  drain r (List.replicate columns .nil) fuel

variable [ParameterConverter]

def queryContext (me : Nat) (ctx : Ctx) (query : GoString) (args : List NamedValue)
    : Proc Err (Conn σ) Nat :=
  if args.length = 0 then
    queryContextInternal me ctx query
  else do
    let params ← .ofExcept (convertNamedValues 0 args)
    .atomic (acquire (.call me))
    queryOwned me (fun c =>
      Session.executeQueryWithParams ctx query c.effectiveMaxRows c.effectiveFetchSize params)

def execContext (me : Nat) (ctx : Ctx) (query : GoString) (args : List NamedValue)
    : Proc Err (Conn σ) Result := do
  let params ← .ofExcept (convertNamedValues 0 args)
  .atomic (acquire (.call me))
  .deferred
    (do
      let res ← .atomic (onSess
        (if params.length = 0 then Session.executeUpdate ctx query
          else Session.executeUpdateWithParams ctx query params))
      pure (Result.ofUpdate res))
    (.atomic (release (.call me)))

end Conn

namespace Stmt

variable {σ : Type} [Peer σ] [GoStd] [ParameterConverter]

def execContext (me s : Nat) (ctx : Ctx) (args : List NamedValue) : Proc Err (Conn σ) Result := do
  let params ← .ofExcept (convertNamedValues 0 args)
  .atomic (Conn.checkContext ctx)
  let cmd ← .atomic (beginOperation s (.call me))
  let res ← .attempt (.atomic (Conn.onSessOr
    (.errorf "h2go: %s: %v"
      [.str (ascii "ExecuteUpdatePreparedWithParams"), .str (ascii "session closed")])
    (Session.executeUpdatePreparedWithParams ctx cmd params)))
  let closed ← .attempt (finishOperation s (.call me))
  match res with
  | .error execErr => .throw execErr
  | .ok res =>
    match closed with
    | .error closeErr => .throw closeErr
    | .ok _ => pure (Result.ofUpdate res)

def queryContext (me s : Nat) (ctx : Ctx) (args : List NamedValue) : Proc Err (Conn σ) Nat := do
  let params ← .ofExcept (convertNamedValues 0 args)
  .atomic (Conn.checkContext ctx)
  let cmd ← .atomic (beginOperation s (.call me))
  match ← Proc.attempt (.atomic (fun c => Conn.onSess
      (Session.executeQueryPreparedWithParams ctx cmd c.effectiveMaxRows c.effectiveFetchSize params)
      c)) with
  | .error err => do
    finishOperation s (.call me)
    .throw err
  | .ok rows => .atomic (Conn.openRows (.call me) rows (.finishOperation s))

end Stmt

namespace Tx

def checkDone : Prog Err Tx Unit := fun t => if t.done then .fail .txDone t else .ok () t

def setDone : Prog Err Tx Unit := Prog.modify (fun t => { t with done := true })

/--
The critical section that decides which call finishes the transaction.
-/
def claim : Prog Err Tx Bool := fun t =>
  if t.done then .fail .txDone t else .ok t.restoreIsolation { t with done := true }

def levelDefault : Int := 0
def levelReadUncommitted : Int := 1
def levelReadCommitted : Int := 2
def levelWriteCommitted : Int := 3
def levelRepeatableRead : Int := 4
def levelSnapshot : Int := 5
def levelSerializable : Int := 6
def levelLinearizable : Int := 7

def defaultTxIsolationSQL : GoString := ascii "READ COMMITTED"

/--
The name of an isolation level, the empty string when it does not have to be set, and whether it has
to be restored after the transaction.
-/
def txIsolationSQL (level : Int) : Except Err (GoString × Bool) :=
  if level = levelDefault ∨ level = levelReadCommitted then .ok ([], false)
  else if level = levelReadUncommitted then .ok (ascii "READ UNCOMMITTED", true)
  else if level = levelRepeatableRead then .ok (ascii "REPEATABLE READ", true)
  else if level = levelSnapshot then .ok (ascii "SNAPSHOT", true)
  else if level = levelSerializable then .ok (ascii "SERIALIZABLE", true)
  else if level = levelWriteCommitted ∨ level = levelLinearizable then
    .error (.errorf "h2go: BeginTx: isolation level %v is not supported by H2" [.int level])
  else
    .error (.errorf "h2go: BeginTx: unknown isolation level %v" [.int level])

def joinErrors (first second : Except Err Unit) : Except Err Unit :=
  match first, second with
  | .ok _, .ok _ => .ok ()
  | .error err, .ok _ => .error (.wrapf "%w" [] err)
  | .ok _, .error err => .error (.wrapf "%w" [] err)
  | .error err₁, .error err₂ => .error (.join err₁ err₂)

variable {σ : Type} [Peer σ] [GoStd]

/--
Set the isolation level of a new transaction. When that fails autocommit is switched on again.
-/
def setIsolation (ctx : Ctx) (isolationSQL : GoString) : Proc Err (Conn σ) Unit :=
  if isolationSQL = [] then
    pure ()
  else do
    match ← Proc.attempt (.atomic (Conn.setTransactionIsolation ctx isolationSQL)) with
    | .ok _ => pure ()
    | .error err =>
      match ← Proc.attempt (.atomic (Conn.setAutoCommit .background true)) with
      | .ok _ => .throw err
      | .error restoreErr => .throw (.join err restoreErr)

def beginOwned (ctx : Ctx) (isolationSQL : GoString) : Proc Err (Conn σ) Unit := do
  let on ← .atomic Conn.autoCommit
  if ¬ on then
    .throw (.errorf "h2go: BeginTx: transaction already active" [])
  else do
    .atomic (Conn.setAutoCommit ctx false)
    setIsolation ctx isolationSQL

def beginTx (me : Nat) (ctx : Ctx) (isolation : Int) (readOnly : Bool) : Proc Err (Conn σ) Nat := do
  .atomic (Conn.checkContext ctx)
  .atomic Conn.checkAttached
  if readOnly then
    .throw (.errorf "h2go: BeginTx: read-only transactions are not supported" [])
  else do
    let level ← .ofExcept (txIsolationSQL isolation)
    .atomic (Conn.acquire (.call me))
    .onStop (beginOwned ctx level.1) (.atomic (Conn.release (.call me)))
    .atomic (Conn.release (.call me))
    .atomic (Conn.newTx level.2)

def restore (restoreIsolation : Bool) : Proc Err (Conn σ) (Except Err Unit) :=
  if restoreIsolation then
    .attempt (.atomic (Conn.setTransactionIsolation .background defaultTxIsolationSQL))
  else
    pure (.ok ())

def finishOwned (t : Nat) (rollback : Bool) : Proc Err (Conn σ) Unit := do
  let restoreIsolation ← .atomic (Conn.onTx t claim)
  .atomic (if rollback then Conn.rollbackCurrentTransaction .background
    else Conn.commitCurrentTransaction .background)
  let isolationErr ← restore restoreIsolation
  let autoCommitErr ← Proc.attempt (.atomic (Conn.setAutoCommit .background true))
  .ofExcept (joinErrors isolationErr autoCommitErr)

def finishTransaction (me t : Nat) (rollback : Bool) : Proc Err (Conn σ) Unit := do
  .atomic (Conn.onTx t checkDone)
  .atomic Conn.checkAttached
  match ← Proc.attempt (.atomic (Conn.acquire (.call me))) with
  | .error err =>
    -- a transaction whose connection is gone is over
    if err.is .badConn then do
      .atomic (Conn.onTx t setDone)
      .throw err
    else
      .throw err
  | .ok _ => .deferred (finishOwned t rollback) (.atomic (Conn.release (.call me)))

def commit (me t : Nat) : Proc Err (Conn σ) Unit := finishTransaction me t false

def rollback (me t : Nat) : Proc Err (Conn σ) Unit := finishTransaction me t true

end Tx

/--
The calls of the interface. The fuel of `ping` bounds the rows it drains.
-/
inductive Call where
  | prepareContext (ctx : Ctx) (query : GoString)
  | queryContext (ctx : Ctx) (query : GoString) (args : List NamedValue)
  | execContext (ctx : Ctx) (query : GoString) (args : List NamedValue)
  | ping (ctx : Ctx) (fuel : Nat)
  | isValid
  | resetSession (ctx : Ctx)
  | beginTx (ctx : Ctx) (isolation : Int) (readOnly : Bool)
  | commit (t : Nat)
  | rollback (t : Nat)
  | stmtExecContext (s : Nat) (ctx : Ctx) (args : List NamedValue)
  | stmtQueryContext (s : Nat) (ctx : Ctx) (args : List NamedValue)
  | stmtClose (s : Nat)
  | rowsNext (r : Nat) (dest : List Value)
  | rowsClose (r : Nat)
  | close

def Call.code {σ : Type} [Peer σ] [GoStd] [ParameterConverter] (call : Call) (me : Nat)
    : Proc Err (Conn σ) Unit :=
  match call with
  | .prepareContext ctx query => (Conn.prepareContext me ctx query).discard
  | .queryContext ctx query args => (Conn.queryContext me ctx query args).discard
  | .execContext ctx query args => (Conn.execContext me ctx query args).discard
  | .ping ctx fuel => Conn.ping me ctx fuel
  | .isValid => (Conn.isValid me).discard
  | .resetSession ctx => Conn.resetSession me ctx
  | .beginTx ctx isolation readOnly => (Tx.beginTx me ctx isolation readOnly).discard
  | .commit t => Tx.commit me t
  | .rollback t => Tx.rollback me t
  | .stmtExecContext s ctx args => (Stmt.execContext me s ctx args).discard
  | .stmtQueryContext s ctx args => (Stmt.queryContext me s ctx args).discard
  | .stmtClose s => Stmt.close me s
  | .rowsNext r dest => (Rows.next r dest).discard
  | .rowsClose r => Rows.close r
  | .close => .atomic Conn.close

end H2Go
