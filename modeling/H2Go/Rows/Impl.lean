import H2Go.Session.Update

/-!
This module contains the result set: how its rows are fetched batch by batch, handed out one by one,
and how it is closed.
-/

namespace H2Go

/--
What happens after the rows have been closed: the connection is released, and a statement whose close
was deferred sends its `COMMAND_CLOSE` first.
-/
inductive CloseCallback where
  | release
  | finishOperation (closePending : Option PreparedCommand)

/--
A result set. `columns` is the pointer to the metadata, it is cleared by closing the rows.
-/
structure Rows where
  resultID : Int
  columnCount : Int
  columns : Option ResultMeta
  rowCount : Int
  currentRow : List Value
  rowOffset : Int
  bufferedRows : List (List Value)
  fetchSize : Int
  noMoreRows : Bool
  closed : Bool
  ownsCommand : Bool
  commandID : Int
  err : Option Err
  closeCallback : Option CloseCallback

namespace Rows

def initial (resultID columnCount fetchSize : Int) (ownsCommand : Bool) (commandID rowCount : Int)
    (columns : ResultMeta) : Rows :=
  { resultID, columnCount, columns := some columns, rowCount, currentRow := [], rowOffset := 0,
    bufferedRows := [], fetchSize, noMoreRows := false, closed := false, ownsCommand, commandID,
    err := none, closeCallback := none }

def setBuffer (bufferedRows : List (List Value)) (r : Rows) : Rows := { r with bufferedRows }

def append (row : List Value) (r : Rows) : Rows := r.setBuffer (r.bufferedRows ++ [row])

def advance (currentRow : List Value) (r : Rows) : Rows :=
  { r with currentRow, bufferedRows := r.bufferedRows.drop 1, rowOffset := r.rowOffset + 1 }

def endOfResult (r : Rows) : Rows := { r with noMoreRows := true }

def markClosed (r : Rows) : Rows := { r with closed := true }

def clear (r : Rows) : Rows := { r with bufferedRows := [], currentRow := [], columns := none }

def clearCallback (r : Rows) : Rows := { r with closeCallback := none }

end Rows

structure Cursor (σ : Type) where
  rows : Rows
  session : Session σ

namespace Cursor

variable {σ : Type} {α : Type}

def onSession (m : Prog Err (Session σ) α) : Prog Err (Cursor σ) α :=
  Prog.zoom Cursor.session (fun s c => { c with session := s }) m

def onTr (m : Prog Err (Tr σ) α) : Prog Err (Cursor σ) α := onSession (Session.io m)

def modifyRows (f : Rows → Rows) : Prog Err (Cursor σ) Unit :=
  Prog.modify (fun c => { c with rows := f c.rows })

variable [GoStd] [Peer σ]

def fetchRowsLoop (fetch : Nat) (lc : LobCollector) : Prog Err (Cursor σ) LobCollector :=
  match fetch with
  | 0 => pure lc
  | fetch + 1 => do
    let rowFlag ← onSession
      (Session.orBreak (inFunc "fetchRows" "failed to read row flag" Tr.readByte))
    if int8 rowFlag = 1 then do
      let c ← Prog.get
      let r ← onSession
        (Session.orBreak (Tr.readColumns "h2go: fetchRows: column %d metadata not found"
          "h2go: fetchRows: failed to read column %d: %w" c.rows.columns c.rows.columnCount
          { lc with curRow := c.rows.bufferedRows.length }))
      modifyRows (Rows.append r.1)
      fetchRowsLoop fetch r.2
    else if int8 rowFlag = 0 then do
      modifyRows Rows.endOfResult
      pure lc
    else if int8 rowFlag = -1 then
      onSession (Session.orBreakUnlessAligned Tr.readH2Error)
    else do
      onSession Session.markStreamBroken
      Prog.throw (.errorf "h2go: fetchRows: unexpected row flag %d" [.int rowFlag.toNat])

def resolveLobs (pending : List PendingLob) : Prog Err (Cursor σ) Unit :=
  match pending with
  | [] => pure ()
  | p :: pending => do
    let v ← onSession (Session.orBreak
      (wrapErr "h2go: fetchRows: failed to resolve deferred LOB (row %d column %d): %w"
        [.int p.row, .int p.col] (Tr.fetchLob p)))
    let c ← Prog.get
    let bufferedRows ← Tr.spliceLob c.rows.bufferedRows p v
    modifyRows (Rows.setBuffer bufferedRows)
    resolveLobs pending

/--
Read up to `fetch` rows from the stream. LOBs are fetched after the batch has been parsed.
-/
def fetchRows (fetch : Int) : Prog Err (Cursor σ) Unit := do
  let lc ← fetchRowsLoop fetch.toNat .empty
  resolveLobs lc.pending

def sendFetchRows (resultID fetch : Int) : Prog Err (Tr σ) Unit := do
  inFunc "Rows.fetchMoreRows" "failed to write op" (Tr.writeInt32 resultFetchRows)
  inFunc "Rows.fetchMoreRows" "failed to write result id" (Tr.writeInt32 resultID)
  inFunc "Rows.fetchMoreRows" "failed to write fetch size" (Tr.writeInt32 fetch)
  inFunc "Rows.fetchMoreRows" "flush failed" Tr.flush

def requestRows (resultID fetch : Int) : Prog Err (Tr σ) Unit := do
  sendFetchRows resultID fetch
  Prog.mapErr (wrapError "Rows.fetchMoreRows") Tr.readStatus

def fetchMoreRows (fetch : Int) : Prog Err (Cursor σ) Unit := do
  let c ← Prog.get
  if c.session.trNil then
    Prog.throw .badConn
  else
    Prog.onFail
      (do
        onTr (requestRows c.rows.resultID fetch)
        fetchRows fetch)
      (fun err => onSession (Session.markUnlessAlignedH2Error err))

/--
Hand out the first of the buffered rows, `copy(dest, currentRow)`.
-/
def takeRow (dest : List Value) : Prog Err (Cursor σ) (List Value) := do
  let c ← Prog.get
  let currentRow ← Prog.index c.rows.bufferedRows 0
  modifyRows (Rows.advance currentRow)
  pure (currentRow.take dest.length ++ dest.drop currentRow.length)

/--
Hand out the first row of a batch that was just fetched, it can be empty.
-/
def takeFetched (dest : List Value) : Prog Err (Cursor σ) (List Value) := do
  let c ← Prog.get
  if c.rows.bufferedRows.length = 0 then Prog.throw .eof else takeRow dest

/--
The number of rows the next request asks for, `none` when there are no more.
-/
def nextFetch (r : Rows) : Option Int :=
  if r.rowCount ≥ 0 ∧ r.rowOffset ≥ r.rowCount then
    none
  else if r.noMoreRows then
    none
  else if r.rowCount ≥ 0 then
    let remaining := r.rowCount - r.rowOffset
    if remaining ≤ 0 then
      none
    else
      some (if r.fetchSize > remaining then remaining else r.fetchSize)
  else
    some r.fetchSize

/--
Fetch the next batch, an error sticks.
-/
def fetchNextBatch (fetch : Int) : Prog Err (Cursor σ) Unit :=
  Prog.onFail (fetchMoreRows fetch) (fun err => modifyRows (fun rows => { rows with err := some err }))

def next (dest : List Value) : Prog Err (Cursor σ) (List Value) := do
  let c ← Prog.get
  if c.rows.closed then
    Prog.throw .eof
  else
    match c.rows.err with
    | some err => Prog.throw err
    | none =>
      if (dest.length : Int) ≠ c.rows.columnCount then
        Prog.throw (.errorf "h2go: Rows.Next: dest length %d does not match column count %d"
          [.int dest.length, .int c.rows.columnCount])
      else if c.rows.bufferedRows.length = 0 then
        match nextFetch c.rows with
        | none => Prog.throw .eof
        | some fetch => do
          fetchNextBatch fetch
          takeFetched dest
      else
        takeRow dest

def prefetchInitialRows : Prog Err (Cursor σ) Unit := do
  let c ← Prog.get
  let fetch := if c.rows.rowCount ≥ 0 ∧ c.rows.fetchSize > c.rows.rowCount then c.rows.rowCount
    else c.rows.fetchSize
  if fetch > 0 then
    wrapErr "h2go: prefetchInitialRows: %w" [] (fetchRows fetch)
  else
    pure ()

def sendResultClose (resultID : Int) : Prog Err (Tr σ) Unit := do
  inFunc "Rows.sendResultClose" "failed to write op" (Tr.writeInt32 resultClose)
  inFunc "Rows.sendResultClose" "failed to write result id" (Tr.writeInt32 resultID)
  inFunc "Rows.sendResultClose" "flush failed" Tr.flush

/--
Run `m` when the session can still be written to, and return its error as a value.
-/
def ifAlive (m : Prog Err (Tr σ) Unit) : Prog Err (Cursor σ) (Except Err Unit) := do
  let c ← Prog.get
  if ¬ c.session.trNil ∧ ¬ c.session.dead then Prog.attempt (onTr m) else pure (.ok ())

def runCloseCallback (cb : Option CloseCallback) : Prog Err (Cursor σ) Unit :=
  match cb with
  | some (.finishOperation (some cmd)) => onSession (Session.closeCommand cmd)
  | _ => pure ()

def firstError (results : List (Except Err Unit)) : Prog Err (Cursor σ) Unit :=
  match results with
  | [] => pure ()
  | .error err :: _ => Prog.throw err
  | .ok _ :: results => firstError results

def closeOwnCommand (r : Rows) : Prog Err (Cursor σ) (Except Err Unit) :=
  if r.ownsCommand ∧ r.commandID ≠ 0 then
    ifAlive (Tr.sendCommandClose "Rows.sendCommandClose" r.commandID)
  else
    pure (.ok ())

def close : Prog Err (Cursor σ) Unit := do
  let c ← Prog.get
  if c.rows.closed then
    pure ()
  else do
    modifyRows Rows.markClosed
    let resultErr ← ifAlive (sendResultClose c.rows.resultID)
    let commandErr ← closeOwnCommand c.rows
    modifyRows Rows.clear
    let callbackErr ← Prog.attempt (runCloseCallback c.rows.closeCallback)
    modifyRows Rows.clearCallback
    firstError [resultErr, commandErr, callbackErr]

def startRows (r : Rows) (m : Prog Err (Cursor σ) Unit) : Prog Err (Session σ) Rows := fun s =>
  match m { rows := r, session := s } with
  | .ok _ c => .ok c.rows c.session
  | .fail e c => .fail e c.session
  | .panic p => .panic p
  | .stuck => .stuck

end Cursor

namespace Session

variable {σ : Type} [GoStd] [Peer σ]

def newRows (resultID columnCount fetchSize : Int) (ownsCommand : Bool) (commandID : Int)
    : Prog Err (Session σ) Rows :=
  ifOpen (.errorf "h2go: NewRows: nil session or closed transport" []) do
    let rowCount ← orBreak (inFunc "NewRows" "failed to read row count" Tr.readRowCount)
    let columns ← orBreak
      (inFunc "NewRows" "failed to read column metadata"
        (Tr.readResultMeta columnCount tcpProtocolVersion21))
    Cursor.startRows
      (Rows.initial resultID columnCount fetchSize ownsCommand commandID rowCount columns)
      Cursor.prefetchInitialRows

def writeQueryHeader (cmdID resultID maxRows fetchSize : Int) (paramCount : Nat)
    : Prog Err (Tr σ) Unit := do
  inFunc "executeQueryWire" "failed to write op" (Tr.writeInt32 commandExecuteQuery)
  inFunc "executeQueryWire" "failed to write command id" (Tr.writeInt32 cmdID)
  inFunc "executeQueryWire" "failed to write result id" (Tr.writeInt32 resultID)
  inFunc "executeQueryWire" "failed to write maxRows" (Tr.writeInt64 maxRows)
  inFunc "executeQueryWire" "failed to write fetchSize" (Tr.writeInt32 fetchSize)
  inFunc "executeQueryWire" "failed to write paramCount" (Tr.writeInt32 paramCount)

/--
The header part of the reply to `COMMAND_EXECUTE_QUERY`: the status and the column count.
-/
def readQueryHeader : Prog Err (Tr σ) Int := do
  Prog.mapErr (wrapError "executeQueryWire") Tr.readStatus
  inFunc "executeQueryWire" "failed to read column count" Tr.readInt32

/--
Close the command of an ad-hoc query that failed, best effort.
-/
def closeOwned (ownsCommand : Bool) (cmd : PreparedCommand) (_err : Err)
    : Prog Err (Session σ) Unit :=
  if ownsCommand then closeCommand cmd else pure ()

def executeQueryWire (ctx : Ctx) (cmd : PreparedCommand) (maxRows fetchSize : Int)
    (params : List Value) (ownsCommand : Bool) : Prog Err (Session σ) Rows := do
  let resultID ← nextCommandID
  withContext ctx (Prog.onFail
    (do
      io (writeQueryHeader cmd.id resultID maxRows fetchSize params.length)
      io (Tr.writeParams "h2go: executeQueryWire: encode param %d: %w" cmd.params 0 params)
      io (inFunc "executeQueryWire" "flush failed" Tr.flush)
      let columnCount ← io readQueryHeader
      newRows resultID columnCount fetchSize ownsCommand (if ownsCommand then cmd.id else 0))
    (closeOwned ownsCommand cmd))

/--
Close the command of an ad-hoc query that cannot be executed, and return the error `err`.
-/
def refuseQuery (cmd : PreparedCommand) (err : Err) : Prog Err (Session σ) Rows := do
  let _ ← Prog.attempt (closeCommand cmd)
  Prog.throw err

def executeQuery (ctx : Ctx) (sql : GoString) (maxRows fetchSize : Int) : Prog Err (Session σ) Rows :=
  ifOpen (.errorf "h2go: ExecuteQuery: session closed" []) do
    let cmd ← Prog.mapErr (wrapError "ExecuteQuery: prepare") (prepareCommand ctx sql)
    if ¬ cmd.isQuery then
      refuseQuery cmd (.errorf "h2go: ExecuteQuery: command is not a query: %s" [.str sql])
    else
      executeQueryWire ctx cmd maxRows fetchSize [] true

def executeQueryWithParams (ctx : Ctx) (sql : GoString) (maxRows fetchSize : Int)
    (params : List Value) : Prog Err (Session σ) Rows :=
  ifOpen (.errorf "h2go: ExecuteQueryWithParams: session closed" []) do
    let cmd ← Prog.mapErr (wrapError "ExecuteQueryWithParams: prepare")
      (prepareCommandReadParams ctx sql)
    if ¬ cmd.isQuery then
      refuseQuery cmd (.errorf "h2go: ExecuteQueryWithParams: command is not a query: %s" [.str sql])
    else if cmd.paramCount ≠ params.length then
      refuseQuery cmd (.errorf "h2go: ExecuteQueryWithParams: expected %d params, got %d"
        [.int cmd.paramCount, .int params.length])
    else
      executeQueryWire ctx cmd maxRows fetchSize params true

/--
Execute a prepared query. The rows do not own the command.
-/
def executeQueryPreparedWithParams (ctx : Ctx) (cmd : PreparedCommand) (maxRows fetchSize : Int)
    (params : List Value) : Prog Err (Session σ) Rows :=
  ifOpen (.errorf "h2go: ExecuteQueryPreparedWithParams: session closed" []) <|
    if ¬ cmd.isQuery then
      Prog.throw (.errorf "h2go: ExecuteQueryPreparedWithParams: command is not a query: %s"
        [.str cmd.sql])
    else if cmd.paramCount ≠ params.length then
      Prog.throw (.errorf "h2go: ExecuteQueryPreparedWithParams: expected %d params, got %d"
        [.int cmd.paramCount, .int params.length])
    else
      executeQueryWire ctx cmd maxRows fetchSize params false

end Session

end H2Go
