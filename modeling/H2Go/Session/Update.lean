import H2Go.GeneratedKeys.Impl
import H2Go.Value.Write

/-!
This module contains the execution of updates.
-/

namespace H2Go

structure ResultWithUpdateCount where
  updateCount : Int
  autoCommit : Bool
  lastInsertID : Int
  lastInsertIDSet : Bool
  lastInsertErr : Option Err
  generatedKeys : Option GeneratedKeysResult

namespace Tr

variable {σ : Type}

/--
Write the parameter values from position `i` on. `format` is the text of the caller's error,
positions without metadata have no type.
-/
def writeParams [GoStd] (format : String) (metas : List ParameterMeta) (i : Nat)
    (params : List Value) : Prog Err (Tr σ) Unit :=
  match params with
  | [] => pure ()
  | p :: params => do
    wrapErr format [.int (i + 1)] (writeValue p (metas[i]?.map ParameterMeta.typeInfo))
    writeParams format metas (i + 1) params

def writeUpdateHeader (cmdID : Int) (paramCount : Nat) : Prog Err (Tr σ) Unit :=
  Prog.mapErr (wrapError "ExecuteUpdatePreparedWithParams") do
    writeInt32 commandExecuteUpdate
    writeInt32 cmdID
    writeInt32 paramCount

def writeColumnNumbers (cols : List Int) : Prog Err (Tr σ) Unit :=
  match cols with
  | [] => pure ()
  | col :: cols => do
    Prog.mapErr (wrapError "ExecuteUpdatePreparedWithParams: write column index") (writeInt32 col)
    writeColumnNumbers cols

def writeColumnNames (names : List GoString) : Prog Err (Tr σ) Unit :=
  match names with
  | [] => pure ()
  | name :: names => do
    Prog.mapErr (wrapError "ExecuteUpdatePreparedWithParams: write column name") (writeString name)
    writeColumnNames names

def writeGeneratedKeysMode (keys : GeneratedKeysMode) : Prog Err (Tr σ) Unit := do
  Prog.mapErr (wrapError "ExecuteUpdatePreparedWithParams") (writeInt32 keys.mode)
  if keys.mode = generatedKeysColumnNumbers then do
    Prog.mapErr (wrapError "ExecuteUpdatePreparedWithParams: write column count")
      (writeInt32 keys.columns.length)
    writeColumnNumbers keys.columns
  else if keys.mode = generatedKeysColumnNames then do
    Prog.mapErr (wrapError "ExecuteUpdatePreparedWithParams: write name count")
      (writeInt32 keys.names.length)
    writeColumnNames keys.names
  else
    pure ()

/--
The reply to `COMMAND_EXECUTE_UPDATE` up to the generated keys: the update count and the autocommit
flag.
-/
def readUpdateReply : Prog Err (Tr σ) (Int × Bool) := do
  Prog.mapErr (wrapError "ExecuteUpdatePreparedWithParams") readStatus
  let updateCount ← Prog.mapErr (wrapError "ExecuteUpdatePreparedWithParams") readRowCount
  let autoCommit ← Prog.mapErr (wrapError "ExecuteUpdatePreparedWithParams") readBool
  pure (updateCount, autoCommit)

end Tr

namespace Session

variable {σ : Type} [GoStd] [Peer σ]

/--
Read the generated keys if they were asked for. That there is no single numeric key is not an error
of the update.
-/
def readKeysForUpdate (mode : Int)
    : Prog Err (Session σ) (Option GeneratedKeysResult × Int × Bool × Option Err) :=
  if mode = generatedKeysNone then
    pure (none, 0, false, none)
  else do
    let r ← Prog.attempt readGeneratedKeys
    match r with
    | .ok (result, .ok id) => pure (some result, id, true, none)
    | .ok (result, .error err) =>
      if isLastInsertIDUnavailable err then
        pure (some result, 0, false, some err)
      else
        Prog.throw err
    | .error err =>
      if isLastInsertIDUnavailable err then
        pure (none, 0, false, some err)
      else
        Prog.throw err

def executeUpdatePreparedWithParams (ctx : Ctx) (cmd : PreparedCommand) (params : List Value)
    : Prog Err (Session σ) ResultWithUpdateCount :=
  ifOpen (.errorf "h2go: %s: %v"
      [.str (ascii "ExecuteUpdatePreparedWithParams"), .str (ascii "session closed")]) <|
    if cmd.isQuery then
      Prog.throw (.errorf "h2go: %s: %v"
        [.str (ascii "ExecuteUpdatePreparedWithParams"),
          .str (ascii "command is a query, not an update")])
    else withContext ctx <|
      if cmd.paramCount ≠ params.length then
        Prog.throw (.errorf "h2go: ExecuteUpdatePreparedWithParams: expected %d params, got %d"
          [.int cmd.paramCount, .int params.length])
      else do
        io (Tr.writeUpdateHeader cmd.id params.length)
        io (Tr.writeParams "h2go: ExecuteUpdatePreparedWithParams: encode param %d: %w" cmd.params 0
          params)
        let s ← Prog.get
        let keys := s.resolveGeneratedKeys ctx
        io (Tr.writeGeneratedKeysMode keys)
        io (Prog.mapErr (wrapError "ExecuteUpdatePreparedWithParams") Tr.flush)
        let reply ← io Tr.readUpdateReply
        let r ← readKeysForUpdate keys.mode
        Prog.modify (fun s => { s with autoCommit := reply.2 })
        pure {
          updateCount := reply.1, autoCommit := reply.2, lastInsertID := r.2.1,
          lastInsertIDSet := r.2.2.1, lastInsertErr := r.2.2.2, generatedKeys := r.1
        }

/--
Execute a command that was prepared for this one execution, and close it whatever comes out.
-/
def executeAndClose (ctx : Ctx) (cmd : PreparedCommand) (params : List Value)
    : Prog Err (Session σ) ResultWithUpdateCount := do
  let r ← Prog.attempt (executeUpdatePreparedWithParams ctx cmd params)
  let _ ← Prog.attempt (closeCommand cmd)
  match r with
  | .ok res => pure res
  | .error err => Prog.throw err

def executeUpdate (ctx : Ctx) (sql : GoString) : Prog Err (Session σ) ResultWithUpdateCount := do
  let cmd ← prepareCommand ctx sql
  executeAndClose ctx cmd []

def executeUpdateWithParams (ctx : Ctx) (sql : GoString) (params : List Value)
    : Prog Err (Session σ) ResultWithUpdateCount := do
  let cmd ← prepareCommandReadParams ctx sql
  executeAndClose ctx cmd params

def rollbackCurrentTransaction (ctx : Ctx) : Prog Err (Session σ) Unit :=
  ifOpen (.errorf "h2go: Session.rollbackCurrentTransaction: session closed" [])
    (withContext ctx do
      checkContext ctx
      let _ ← Prog.mapErr (wrapError "Session.rollbackCurrentTransaction")
        (executeUpdate ctx (ascii "ROLLBACK"))
      pure ())

def setTransactionIsolation (ctx : Ctx) (sqlLevel : GoString) : Prog Err (Session σ) Unit :=
  ifOpen (.errorf "h2go: Session.setTransactionIsolation: session closed" [])
    (withContext ctx do
      checkContext ctx
      let _ ← Prog.mapErr (wrapError "Session.setTransactionIsolation")
        (executeUpdate ctx
          (ascii "SET SESSION CHARACTERISTICS AS TRANSACTION ISOLATION LEVEL " ++ sqlLevel))
      pure ())

end Session

end H2Go
