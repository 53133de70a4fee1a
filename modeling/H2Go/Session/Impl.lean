import H2Go.Transfer.Status
import H2Go.TypeInfo.Impl

/-!
This module contains the session: an authenticated connection with its transfer stream, the rules
for discarding it, and the requests that do not execute a command.
-/

namespace H2Go

/--
A request for generated keys that is attached to the context of a single statement.
-/
structure GeneratedKeysRequest where
  mode : Int
  columns : List Int
  names : List GoString

structure Config where
  generatedKeysModeSet : Bool
  generatedKeysMode : Int
  generatedKeysColumns : List Int
  generatedKeysColumnNames : List GoString

/--
A context as the operations see it. `err n` is what `ctx.Err()` returns at time `n`,
`deadlinePassed n` says that the context has a deadline and that it has passed by then. A context
that has fired stays so.
-/
structure Ctx where
  err : Nat → Option Err
  deadlinePassed : Nat → Bool
  generatedKeys : Option GeneratedKeysRequest
  err_stable : ∀ {n m : Nat} {e : Err}, n ≤ m → err n = some e → err m = some e

def Ctx.background : Ctx :=
  { err := fun _ => none, deadlinePassed := fun _ => false, generatedKeys := none
    err_stable := fun _ h => h }

/--
A session. `trNil` is `s.tr == nil`, the stream is kept for the record when the pointer is cleared.
Closing and aborting clear the pointer, mark the session dead and close the transport in one go.
`clock` is the time the contexts are asked at, it advances with every operation.
-/
structure Session (σ : Type) where
  tr : Tr σ
  trNil : Bool
  cfg : Option Config
  version : Int
  autoCommit : Bool
  dead : Bool
  nextID : Int
  transportClosed : Bool
  clock : Nat
  dead_eq : dead = trNil
  closed_of_trNil : trNil = true → transportClosed = true

structure ParameterMeta where
  index : Nat
  typeInfo : TypeInfo

structure PreparedCommand where
  id : Int
  sql : GoString
  isQuery : Bool
  readOnly : Bool
  cmdType : Int
  paramCount : Int
  params : List ParameterMeta

def cmdUnknown : Int := 0

/--
Two's complement wrap-around to 32 bits.
-/
def wrapInt32 (x : Int) : Int := (x + 2 ^ 31) % 2 ^ 32 - 2 ^ 31

/--
The pattern `if err != nil { return fmt.Errorf("h2go: fn: what: %w", err) }`.
-/
abbrev inFunc {σ α : Type} (fn what : String) (m : Prog Err σ α) : Prog Err σ α :=
  wrapErr ("h2go: " ++ fn ++ ": " ++ what ++ ": %w") [] m

namespace Session

variable {σ : Type} {α : Type}

def ofTr (t : Tr σ) : Session σ :=
  { tr := t, trNil := false, cfg := none, version := tcpProtocolVersion21, autoCommit := true,
    dead := false, nextID := 0, transportClosed := false, clock := 0, dead_eq := rfl
    closed_of_trNil := by simp }

def setTr (s : Session σ) (t : Tr σ) : Session σ := { s with tr := t }

/--
Use the transfer stream, a nil pointer panics.
-/
def io (m : Prog Err (Tr σ) α) : Prog Err (Session σ) α := fun s =>
  if s.trNil then .panic .nilDeref else (m s.tr).map id s.setTr

/--
Close the transport without the protocol's handshake and mark the session dead.
-/
def abort (s : Session σ) : Session σ :=
  { s with
    trNil := true, dead := true, transportClosed := true, dead_eq := rfl
    closed_of_trNil := fun _ => rfl }

def markStreamBroken : Prog Err (Session σ) Unit := Prog.modify abort

/--
A fully parsed error of the server leaves the stream aligned, everything else does not.
-/
def markUnlessAlignedH2Error (err : Err) : Prog Err (Session σ) Unit :=
  if err.asH2.isNone then markStreamBroken else pure ()

/--
The pattern `if err != nil { s.markStreamBroken(); return err }`.
-/
def orBreak (m : Prog Err (Tr σ) α) : Prog Err (Session σ) α :=
  Prog.onFail (io m) (fun _ => markStreamBroken)

/--
The pattern `if err != nil { s.markUnlessAlignedH2Error(err); return err }`.
-/
def orBreakUnlessAligned (m : Prog Err (Tr σ) α) : Prog Err (Session σ) α :=
  Prog.onFail (io m) markUnlessAlignedH2Error

def statementWasCanceled (err : Err) : Bool :=
  err.asH2.any (fun h => h.code = errorCodeStatementWasCanceled)

/--
Return the error `err` of an operation, or the error of a context that has fired in the meantime.
-/
def finalizeContext (ctx : Ctx) (err : Err) : Prog Err (Session σ) α := do
  let s ← Prog.get
  match ctx.err s.clock with
  | some ctxErr =>
    if statementWasCanceled err then
      Prog.throw ctxErr
    else do
      markStreamBroken
      Prog.throw ctxErr
  | none =>
    if ctx.deadlinePassed s.clock ∧ err.isTimeout then do
      markStreamBroken
      Prog.throw .deadlineExceeded
    else
      Prog.throw err

def tick : Prog Err (Session σ) Unit := Prog.modify (fun s => { s with clock := s.clock + 1 })

/--
Run an operation under a context, the deferred call of `finalizeContext`.
-/
def withContext (ctx : Ctx) (m : Prog Err (Session σ) α) : Prog Err (Session σ) α := do
  let r ← Prog.attempt m
  tick
  match r with
  | .ok a => pure a
  | .error err => finalizeContext ctx err

def checkContext (ctx : Ctx) : Prog Err (Session σ) Unit := do
  let s ← Prog.get
  match ctx.err s.clock with
  | some err => Prog.throw err
  | none => pure ()

def ifOpen (err : Err) (m : Prog Err (Session σ) α) : Prog Err (Session σ) α := do
  let s ← Prog.get
  if s.trNil then Prog.throw err else m

def nextCommandID : Prog Err (Session σ) Int := do
  Prog.modify (fun s => { s with nextID := wrapInt32 (s.nextID + 1) })
  let s ← Prog.get
  pure s.nextID

end Session

namespace Tr

variable {σ : Type}

def readPrepared (cmdID : Int) (sql : GoString) : Prog Err (Tr σ) PreparedCommand := do
  Prog.mapErr (wrapError "PrepareCommand") readStatus
  let isQuery ← inFunc "PrepareCommand" "failed to read isQuery" readBool
  let readOnly ← inFunc "PrepareCommand" "failed to read readOnly" readBool
  let paramCount ← inFunc "PrepareCommand" "failed to read paramCount" readInt32
  pure { id := cmdID, sql, isQuery, readOnly, cmdType := cmdUnknown, paramCount, params := [] }

def readParameterMeta (i : Nat) : Prog Err (Tr σ) ParameterMeta := do
  let typeInfo ← wrapErr "h2go: PrepareCommandReadParams: failed to read param %d type: %w" [.int i]
    readTypeInfo
  let nullable ← wrapErr "h2go: PrepareCommandReadParams: failed to read param %d nullable: %w"
    [.int i] readInt32
  pure { index := i, typeInfo := { typeInfo with nullable := nullable } }

def readParameters (paramCount : Int) : Prog Err (Tr σ) (List ParameterMeta) :=
  if paramCount < 0 then
    Prog.throw (.errorf "h2go: PrepareCommandReadParams: invalid param count %d" [.int paramCount])
  else if paramCount > maxWireCollectionElements then
    Prog.throw (.errorf "h2go: PrepareCommandReadParams: param count %d exceeds cap %d"
      [.int paramCount, .int maxWireCollectionElements])
  else do
    Prog.make paramCount maxWireCollectionElements
    Prog.iter paramCount.toNat 0 [] (fun i params => do
      let param ← readParameterMeta i
      pure (params ++ [param]))

def readPreparedParams (cmdID : Int) (sql : GoString) : Prog Err (Tr σ) PreparedCommand := do
  Prog.mapErr (wrapError "PrepareCommandReadParams") readStatus
  let isQuery ← inFunc "PrepareCommandReadParams" "failed to read isQuery" readBool
  let readOnly ← inFunc "PrepareCommandReadParams" "failed to read readOnly" readBool
  let cmdType ← inFunc "PrepareCommandReadParams" "failed to read cmdType" readInt32
  let paramCount ← inFunc "PrepareCommandReadParams" "failed to read paramCount" readInt32
  let params ← readParameters paramCount
  pure { id := cmdID, sql, isQuery, readOnly, cmdType, paramCount, params }

def readPending : Prog Err (Tr σ) Bool := do
  Prog.mapErr (wrapError "Session.hasPendingTransaction") readStatus
  let pendingRaw ← inFunc "Session.hasPendingTransaction" "failed to read pending flag" readInt32
  pure (pendingRaw != 0)

variable [Peer σ]

def sendPrepare (fn : String) (op cmdID : Int) (sql : GoString) : Prog Err (Tr σ) Unit := do
  inFunc fn "failed to write op" (writeInt32 op)
  inFunc fn "failed to write command id" (writeInt32 cmdID)
  inFunc fn "failed to write SQL" (writeString sql)
  inFunc fn "flush failed" flush

def sendAutoCommit (autoCommit : Bool) : Prog Err (Tr σ) Unit := do
  inFunc "Session.setAutoCommit" "failed to write op" (writeInt32 sessionSetAutocommit)
  inFunc "Session.setAutoCommit" "failed to write autocommit" (writeBool autoCommit)
  inFunc "Session.setAutoCommit" "flush failed" flush

def sendOp (fn : String) (op : Int) : Prog Err (Tr σ) Unit := do
  inFunc fn "failed to write op" (writeInt32 op)
  inFunc fn "flush failed" flush

def sendCommandClose (fn : String) (cmdID : Int) : Prog Err (Tr σ) Unit := do
  inFunc fn "failed to write op" (writeInt32 commandClose)
  inFunc fn "failed to write command id" (writeInt32 cmdID)
  inFunc fn "flush failed" flush

end Tr

namespace Session

variable {σ : Type} [Peer σ]

def prepareCommand (ctx : Ctx) (sql : GoString) : Prog Err (Session σ) PreparedCommand :=
  ifOpen (.errorf "h2go: PrepareCommand: session closed" []) (withContext ctx do
    let cmdID ← nextCommandID
    io (Tr.sendPrepare "PrepareCommand" sessionPrepare cmdID sql)
    io (Tr.readPrepared cmdID sql))

def prepareCommandReadParams (ctx : Ctx) (sql : GoString)
    : Prog Err (Session σ) PreparedCommand :=
  ifOpen (.errorf "h2go: PrepareCommandReadParams: session closed" []) (withContext ctx do
    let cmdID ← nextCommandID
    io (Tr.sendPrepare "PrepareCommandReadParams" sessionPrepareReadParams2 cmdID sql)
    io (Tr.readPreparedParams cmdID sql))

/--
Release a command on the server, there is no reply.
-/
def closeCommand (cmd : PreparedCommand) : Prog Err (Session σ) Unit := do
  let s ← Prog.get
  if s.trNil then pure () else io (Tr.sendCommandClose "PreparedCommand.Close" cmd.id)

def hasPendingTransaction (ctx : Ctx) : Prog Err (Session σ) Bool :=
  ifOpen (.errorf "h2go: Session.hasPendingTransaction: session closed" []) (withContext ctx do
    checkContext ctx
    io (Tr.sendOp "Session.hasPendingTransaction" sessionHasPendingTransaction)
    io Tr.readPending)

def setAutoCommit (ctx : Ctx) (autoCommit : Bool) : Prog Err (Session σ) Unit :=
  ifOpen (.errorf "h2go: Session.setAutoCommit: session closed" []) (withContext ctx do
    checkContext ctx
    io (Tr.sendAutoCommit autoCommit)
    io (Prog.mapErr (wrapError "Session.setAutoCommit") Tr.readStatus)
    Prog.modify (fun s => { s with autoCommit := autoCommit }))

def commitCurrentTransaction (ctx : Ctx) : Prog Err (Session σ) Unit :=
  ifOpen (.errorf "h2go: Session.commitCurrentTransaction: session closed" []) (withContext ctx do
    checkContext ctx
    io (Tr.sendOp "Session.commitCurrentTransaction" commandCommit)
    io (Prog.mapErr (wrapError "Session.commitCurrentTransaction") Tr.readStatus))

/--
Notify the server and close the connection. Nothing that fails on the way stops it.
-/
def close : Prog Err (Session σ) Unit := do
  let s ← Prog.get
  if s.trNil then
    pure ()
  else do
    let _ ← Prog.attempt (io (Tr.writeInt32 sessionClose))
    let _ ← Prog.attempt (io Tr.flush)
    let _ ← Prog.attempt (io Tr.readInt32)
    let r ← Prog.attempt (io Tr.flush)
    Prog.modify abort
    match r with
    | .ok _ => pure ()
    | .error err => Prog.throw err

end Session

end H2Go
