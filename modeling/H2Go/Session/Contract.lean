import H2Go.Lib.Store
import H2Go.Session.Holding

/-!
This module contains the contract of a server: which requests change the store of its session. Every
request is either carried out and answered as the protocol says, or refused with an error and without
an effect.
-/

namespace H2Go

open BigEndian

def sqlText (sql : GoString) : List UInt8 :=
  beBytes 4 (utf16Encode sql).length ++ (utf16Encode sql).flatMap unitBytes

def rollbackText : List UInt8 := sqlText (ascii "ROLLBACK")

def isolationText (level : GoString) : List UInt8 :=
  sqlText (ascii "SET SESSION CHARACTERISTICS AS TRANSACTION ISOLATION LEVEL " ++ level)

def isolationLevels : List GoString :=
  [ascii "READ UNCOMMITTED", ascii "READ COMMITTED", ascii "REPEATABLE READ", ascii "SNAPSHOT",
    ascii "SERIALIZABLE"]

/--
The store of the server, a change is the text of the statement that made it.
-/
abbrev SqlStore : Type := Store (List UInt8) GoString

/--
What the statements do to the store. Nothing is known about them but for those that the driver
executes for itself.
-/
structure Engine where
  effect : List UInt8 → SqlStore → SqlStore
  rollback : ∀ d, effect rollbackText d = d.rollback
  isolation : ∀ level ∈ isolationLevels, ∀ d, effect (isolationText level) d = d.setIsolation level
  settled : ∀ text {d}, d.Settled → (effect text d).Settled

/--
A session as the server sees it: the commands that were prepared, and the store.
-/
structure Desk where
  commands : List (Int × List UInt8)
  store : SqlStore

namespace Desk

def prepare (id : Int) (text : List UInt8) (v : Desk) : Desk :=
  { v with commands := (id, text) :: v.commands }

def setStore (store : SqlStore) (v : Desk) : Desk := { v with store }

end Desk

def prepareRequest (op id : Int) (sql : GoString) : List UInt8 :=
  intBytes 4 op ++ (intBytes 4 id ++ (sqlText sql ++ []))

def updateRequest [GoStd] (id : Int) (metas : List ParameterMeta) (params : List Value)
    (keys : GeneratedKeysMode) : List UInt8 :=
  updateHeader id params.length ++ (Tr.paramBytes metas 0 params ++ keysRequest keys)

variable {σ : Type} {α : Type}

/--
The reply is what `m` reads, and then the desk has changed as `R` says, or the request was refused.
-/
def Replies (m : Prog Err (Tr σ) α) (R : α → Desk → Desk → Prop) (v v' : Desk) (reply : List UInt8)
    : Prop :=
  (∃ a, Frame m a reply ∧ R a v v') ∨ ∃ h, Tr.ErrorReply σ h reply ∧ v' = v

def Answers [Peer σ] (view : σ → Desk) (m : Prog Err (Tr σ) α) (R : α → Desk → Desk → Prop)
    (request : List UInt8) : Prop :=
  ∀ p p' reply, Peer.recv p request = (p', reply) → Replies m R (view p) (view p') reply

theorem Answers.returns [Peer σ] {view : σ → Desk} {m : Prog Err (Tr σ) α}
    {R : α → Desk → Desk → Prop} {request : List UInt8} (h : Answers view m R request) {T : α → Prop}
    (hm : Returns m T)
    : Answers view m (fun a v v' => T a ∧ R a v v') request := by
  intro p p' reply hrecv
  rcases h p p' reply hrecv with ⟨a, hframe, hr⟩ | hrefused
  . have hrun := hframe.exact { Tr.ofBytes reply with peer := p } [] (List.append_nil _).symm
    exact .inl ⟨a, hframe, hm.of_ok True.intro hrun, hr⟩
  . exact .inr hrefused

/--
The bytes that follow the update count and the autocommit flag. The keys have no LOBs that are fetched
on demand.
-/
def KeysReply (σ : Type) [GoStd] [Peer σ] (version mode : Int) (reply : List UInt8) : Prop :=
  if mode = generatedKeysNone then
    reply = []
  else
    ∃ columns rows, Tr.KeysAccepted σ version columns rows reply ∧
      placeholders (batchValues 0 rows) = []

def Updated (σ : Type) [GoStd] [Peer σ] (engine : Engine) (version id mode : Int) (v v' : Desk)
    (reply : List UInt8) : Prop :=
  (∃ count head tail text, reply = head ++ tail ∧
      Frame (Tr.readUpdateReply : Prog Err (Tr σ) _) (count, v'.store.autoCommit) head ∧
      KeysReply σ version mode tail ∧ v.commands.lookup id = some text ∧
      v' = v.setStore (engine.effect text v.store)) ∨
    ∃ h, Tr.ErrorReply σ h reply ∧ v' = v

def IsInt32 (x : Int) : Prop := -2 ^ 31 ≤ x ∧ x < 2 ^ 31

def KeysMode (mode : Int) : Prop := 0 ≤ mode ∧ mode ≤ 3

instance (mode : Int) : Decidable (KeysMode mode) := inferInstanceAs (Decidable (_ ∧ _))

/--
The server keeps to the contract. `view` is what is to be known of its state. Queries do not change it,
whatever they are answered with.
-/
structure Serves [GoStd] [Peer σ] (engine : Engine) (version : Int) (view : σ → Desk) : Prop where
  prepare : ∀ id sql, IsInt32 id → Answers view (Tr.readPrepared id sql)
    (fun _ v v' => v' = v.prepare id (sqlText sql)) (prepareRequest sessionPrepare id sql)
  prepareReadParams : ∀ id sql, IsInt32 id → Answers view (Tr.readPreparedParams id sql)
    (fun _ v v' => v' = v.prepare id (sqlText sql)) (prepareRequest sessionPrepareReadParams2 id sql)
  closeCommand : ∀ id p p' reply, Peer.recv p (commandCloseRequest id) = (p', reply) →
    reply = [] ∧ view p' = view p
  query : ∀ id resultID maxRows fetchSize metas params, Tr.AllFit metas 0 params → ∀ p p' reply,
    Peer.recv p (queryHeader id resultID maxRows fetchSize params.length ++ Tr.paramBytes metas 0 params)
      = (p', reply) → view p' = view p
  fetchRows : ∀ id count p p' reply, Peer.recv p (fetchRowsRequest id count) = (p', reply) →
    view p' = view p
  closeResult : ∀ id p p' reply, Peer.recv p (resultCloseRequest id) = (p', reply) → view p' = view p
  readLob : ∀ id hmac offset p p' reply, Peer.recv p (lobReadRequest id hmac offset) = (p', reply) →
    view p' = view p
  update : ∀ id metas params keys, IsInt32 id → Tr.AllFit metas 0 params → IsInt32 params.length →
    KeysMode keys.mode → ∀ p p' reply,
      Peer.recv p (updateRequest id metas params keys) = (p', reply) →
        Updated σ engine version id keys.mode (view p) (view p') reply
  setAutoCommit : ∀ on, Answers view (Prog.mapErr (wrapError "Session.setAutoCommit") Tr.readStatus)
    (fun _ v v' => v' = v.setStore (v.store.setAutoCommit on))
    (intBytes 4 sessionSetAutocommit ++ ([if on then 1 else 0] ++ []))
  commit : Answers view (Prog.mapErr (wrapError "Session.commitCurrentTransaction") Tr.readStatus)
    (fun _ v v' => v' = v.setStore v.store.commit) (intBytes 4 commandCommit ++ [])
  hasPending : Answers view Tr.readPending
    (fun pending v v' => v' = v ∧ (pending = true ↔ v.store.work ≠ []))
    (intBytes 4 sessionHasPendingTransaction ++ [])
  close : ∀ p p' reply, Peer.recv p (intBytes 4 sessionClose) = (p', reply) →
    view p' = (view p).setStore (view p).store.rollback

end H2Go
