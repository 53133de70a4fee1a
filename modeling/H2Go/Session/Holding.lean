import H2Go.Session.Requests
import H2Go.Session.Ids

/-!
This module contains what every call of the session does to the handles of its caller. The transport
takes all bytes, and the counter of the ids does not wrap around.
-/

namespace H2Go

open BigEndian

variable {σ : Type} {α : Type}

def keysRequest (keys : GeneratedKeysMode) : List UInt8 :=
  intBytes 4 keys.mode ++
    if keys.mode = generatedKeysColumnNumbers then
      intBytes 4 keys.columns.length ++ keys.columns.flatMap (fun col => intBytes 4 col)
    else if keys.mode = generatedKeysColumnNames then
      intBytes 4 keys.names.length ++ keys.names.flatMap (fun name => Tr.unitsFrame (utf16Encode name))
    else
      []

theorem Tr.writes_writeGeneratedKeysMode (keys : GeneratedKeysMode)
    : Writes (writeGeneratedKeysMode keys : Prog Err (Tr σ) _) () (keysRequest keys) := by
  have hplain : ∀ (fn : String) (e : Err), e.Plain → (wrapError fn e).Plain :=
    fun fn _ => Err.plain_wrapError fn
  have hnumbers : ∀ cols : List Int, Writes (writeColumnNumbers cols : Prog Err (Tr σ) _) ()
      (cols.flatMap (fun col => intBytes 4 col)) := by
    intro cols
    induction cols with
    | nil => exact Writes.pure ()
    | cons col cols ih => exact (Writes.mapErr (hplain _) (writes_writeInt32 col)).bind ih
  have hnames : ∀ names : List GoString, Writes (writeColumnNames names : Prog Err (Tr σ) _) ()
      (names.flatMap (fun name => Tr.unitsFrame (utf16Encode name))) := by
    intro names
    induction names with
    | nil => exact Writes.pure ()
    | cons name names ih => exact (Writes.mapErr (hplain _) (writes_writeString name)).bind ih
  have hmode := Writes.mapErr (hplain "ExecuteUpdatePreparedWithParams")
    (writes_writeInt32 (σ := σ) keys.mode)
  unfold writeGeneratedKeysMode keysRequest
  split
  . exact hmode.bind ((Writes.mapErr (hplain _) (writes_writeInt32 _)).bind (hnumbers keys.columns))
  . split
    . exact hmode.bind ((Writes.mapErr (hplain _) (writes_writeInt32 _)).bind (hnames keys.names))
    . exact hmode.bind (Writes.pure ())

theorem Tr.sends_sendOp [Peer σ] (fn : String) (op : Int)
    : Sends (sendOp fn op : Prog Err (Tr σ) _) (intBytes 4 op ++ []) := by
  apply Sends.bind (writes_wrapErr _ _ (writes_writeInt32 _))
  exact Sends.flush _

theorem Tr.sends_sendAutoCommit [Peer σ] (autoCommit : Bool)
    : Sends (sendAutoCommit autoCommit : Prog Err (Tr σ) _)
        (intBytes 4 sessionSetAutocommit ++ ([if autoCommit then 1 else 0] ++ [])) := by
  apply Sends.bind (writes_wrapErr _ _ (writes_writeInt32 _))
  apply Sends.bind (writes_wrapErr _ _ (writes_writeBool _))
  exact Sends.flush _

theorem Cursor.sends_sendResultClose [GoStd] [Peer σ] (resultID : Int)
    : Tr.Sends (sendResultClose resultID : Prog Err (Tr σ) _) (resultCloseRequest resultID) := by
  apply Tr.Sends.bind (Tr.writes_wrapErr _ _ (Tr.writes_writeInt32 _))
  apply Tr.Sends.bind (Tr.writes_wrapErr _ _ (Tr.writes_writeInt32 _))
  exact Tr.Sends.flush _

namespace Session

theorem triple_ifOpen {err : Err} {m : Prog Err (Session σ) α} {P : Session σ → Prop}
    {Q : α → Session σ → Prop} {E : Err → Session σ → Prop} (herr : ∀ s, P s → E err s)
    (hm : Triple True P m Q E)
    : Triple True P (ifOpen err m) Q E := by
  intro s hs
  cases hnil : s.trNil with
  | true =>
    rw [ifOpen_of_trNil hnil]
    exact herr s hs
  | false =>
    rw [ifOpen_of_open hnil]
    exact hm s hs

variable [Peer σ] {n : Int} {hs : List Handle}

/--
A new command. When that fails the server may have it or not, it is not used anyway.
-/
theorem holding_prepare (ctx : Ctx) (err : Err) {op : Int}
    (hop : op = sessionPrepare ∨ op = sessionPrepareReadParams2)
    {send : Int → Prog Err (Tr (Recorder σ)) Unit}
    {read : Int → Prog Err (Tr (Recorder σ)) PreparedCommand} {rest : List UInt8}
    (hsend : ∀ cmdID, Tr.Sends (send cmdID) (intBytes 4 op ++ (intBytes 4 cmdID ++ rest)))
    (hread : ∀ cmdID, StatusReader (read cmdID))
    (hid : ∀ cmdID, Returns (read cmdID) (fun cmd => cmd.id = cmdID)) (hn : n + 1 < 2 ^ 31)
    : Triple True (Holding n hs)
        (ifOpen err (withContext ctx do
          let cmdID ← nextCommandID
          io (send cmdID)
          io (read cmdID)))
        (fun cmd => Holding (n + 1) (.command cmd.id :: hs)) (fun _ => Holding (n + 1) hs) := by
  apply triple_ifOpen (fun _ hs => hs.mono (by omega))
  apply Durable.triple_withContext (Buffering.durable _ _ _ _).setClock (Buffering.durable _ _ _ _)
  apply Triple.bind (triple_nextCommandID hn).of_succeeds
  intro cmdID
  apply Triple.bind (R := fun _ => Holding (n + 1) (.command cmdID :: hs))
  . have hne : [] ++ (intBytes 4 op ++ (intBytes 4 cmdID ++ rest)) ≠ [] :=
      List.ne_nil_of_length_pos (by simp)
    apply Triple.of_succeeds (triple_send (hsend cmdID) hne _)
    intro s hs
    rw [List.nil_append, access_prepare hop, hs.wrap_reserved hn (List.mem_singleton_self cmdID)]
    exact ⟨hs.create (by simp) (by simp [Handle.id]), by simp [Handle.id]⟩
  . intro _
    have := (hread cmdID).lawful
    apply ((returns_io (hid cmdID)).and_keeps ((calm_holding _ _).io _)).weaken (fun _ hs => hs)
    . rintro cmd s ⟨rfl, hs⟩
      exact hs
    . exact fun _ _ hs => hs.sublist (List.sublist_cons_self _ _)

theorem holding_prepareCommand (ctx : Ctx) (sql : GoString) (hn : n + 1 < 2 ^ 31)
    : Triple True (Holding n hs) (prepareCommand (σ := Recorder σ) ctx sql)
        (fun cmd => Holding (n + 1) (.command cmd.id :: hs)) (fun _ => Holding (n + 1) hs) :=
  holding_prepare ctx _ (.inl rfl) (fun cmdID => Tr.sends_sendPrepare _ _ cmdID sql)
    (fun cmdID => StatusReader.readPrepared cmdID sql) (fun cmdID => Tr.returns_readPrepared cmdID sql)
    hn

theorem holding_prepareCommandReadParams (ctx : Ctx) (sql : GoString) (hn : n + 1 < 2 ^ 31)
    : Triple True (Holding n hs) (prepareCommandReadParams (σ := Recorder σ) ctx sql)
        (fun cmd => Holding (n + 1) (.command cmd.id :: hs)) (fun _ => Holding (n + 1) hs) :=
  holding_prepare ctx _ (.inr rfl) (fun cmdID => Tr.sends_sendPrepare _ _ cmdID sql)
    (fun cmdID => StatusReader.readPreparedParams cmdID sql)
    (fun cmdID => Tr.returns_readPreparedParams cmdID sql) hn

omit [Peer σ] in
theorem holding_mono {n' : Int} {hs' : α → List Handle} {P : Session (Recorder σ) → Prop}
    {m : Prog Err (Session (Recorder σ)) α}
    (h : Triple True P m (fun a => Holding n (hs' a)) (fun _ => Holding n hs)) (hn : n ≤ n')
    : Triple True P m (fun a => Holding n' (hs' a)) (fun _ => Holding n' hs) :=
  h.weaken (fun _ hs => hs) (fun _ _ hs => hs.mono hn) (fun _ _ hs => hs.mono hn)

def Accepts [GoStd] (ctx : Ctx) (sql : GoString) (params : List Value) (s : Session σ) : Prop :=
  ∀ cmd s', prepareCommandReadParams ctx sql s = .ok cmd s' → Tr.AllFit cmd.params 0 params

theorem holding_prepareAccepted [GoStd] (ctx : Ctx) (sql : GoString) (params : List Value)
    (hn : n + 1 < 2 ^ 31)
    : Triple True (fun s => s.Holding n hs ∧ s.Accepts ctx sql params)
        (prepareCommandReadParams (σ := Recorder σ) ctx sql)
        (fun cmd s => Tr.AllFit cmd.params 0 params ∧ s.Holding (n + 1) (.command cmd.id :: hs))
        (fun _ => Holding (n + 1) hs) := by
  rintro s ⟨hs, haccepts⟩
  have hprepare := holding_prepareCommandReadParams ctx sql hn s hs
  cases hrun : prepareCommandReadParams ctx sql s with
  | ok cmd s' =>
    rw [hrun] at hprepare
    exact ⟨haccepts cmd s' hrun, hprepare⟩
  | fail =>
    rw [hrun] at hprepare
    exact hprepare
  | panic | stuck => trivial

theorem holding_destroy {m : Prog Err (Tr (Recorder σ)) Unit} {bs : List UInt8} (hm : Tr.Sends m bs)
    (hbs : bs ≠ []) (h : Handle) (hn : n < 2 ^ 31)
    (haccess : wrapInt32 h.id = h.id → access bs = { uses := [], opens := [], closes := [h] })
    : Triple True (Holding n (h :: hs)) (io m) (fun _ => Holding n hs) (fun _ _ => False) := by
  have hne : [] ++ bs ≠ [] := hbs
  apply triple_send hm hne
  intro s hs
  rw [List.nil_append, haccess (hs.wrap_id hn List.mem_cons_self)]
  exact ⟨hs.holds.destroy, by simp⟩

theorem holding_sendCommandClose (fn : String) (cmdID : Int) (hn : n < 2 ^ 31)
    : Triple True (Holding n (.command cmdID :: hs))
        (io (Tr.sendCommandClose (σ := Recorder σ) fn cmdID)) (fun _ => Holding n hs)
        (fun _ _ => False) := by
  have hne : commandCloseRequest cmdID ≠ [] :=
    List.ne_nil_of_length_pos (by simp [commandCloseRequest])
  apply holding_destroy (Tr.sends_sendCommandClose fn cmdID) hne _ hn
  intro hwrap
  rw [access_commandClose, show wrapInt32 cmdID = cmdID from hwrap]

theorem holding_sendResultClose [GoStd] (resultID : Int) (hn : n < 2 ^ 31)
    : Triple True (Holding n (.result resultID :: hs))
        (io (Cursor.sendResultClose (σ := Recorder σ) resultID)) (fun _ => Holding n hs)
        (fun _ _ => False) := by
  have hne : resultCloseRequest resultID ≠ [] :=
    List.ne_nil_of_length_pos (by simp [resultCloseRequest])
  apply holding_destroy (Cursor.sends_sendResultClose resultID) hne _ hn
  intro hwrap
  rw [access_resultClose, show wrapInt32 resultID = resultID from hwrap]

theorem holding_closeCommand {cmd : PreparedCommand} (hn : n < 2 ^ 31)
    : Triple True (Holding n (.command cmd.id :: hs)) (closeCommand (σ := Recorder σ) cmd)
        (fun _ => Holding n hs) (fun _ _ => False) := by
  apply Triple.get_then
  intro s
  apply Triple.ite
  . exact fun _ => Triple.pure (fun _ hs => hs.sublist (List.sublist_cons_self _ _))
  . exact fun _ => holding_sendCommandClose _ _ hn

/--
The best effort to close a command, whatever comes of it the command is not used any more.
-/
theorem holding_tryClose {cmd : PreparedCommand} (hn : n < 2 ^ 31)
    : Triple True (Holding n (.command cmd.id :: hs))
        (Prog.attempt (closeCommand (σ := Recorder σ) cmd) : Prog Err (Session (Recorder σ)) _)
        (fun _ => Holding n hs) (fun _ _ => False) :=
  Triple.tried (holding_closeCommand hn).of_succeeds

theorem holding_request (ctx : Ctx) (err : Err) {send : Prog Err (Tr (Recorder σ)) Unit}
    {reply : Prog Err (Session (Recorder σ)) α} {bs : List UInt8} (hsend : Tr.Sends send bs)
    (hbs : bs ≠ []) (hquiet : access bs = .none) (hreply : Keeps (Holding n hs) reply)
    : Keeps (Holding n hs) (ifOpen err (withContext ctx do
        checkContext ctx
        io send
        reply)) := by
  apply Quiet.ifOpen
  apply (Buffering.durable _ _ _ _).withContext
  apply Keeps.bind (Quiet.checkContext ctx)
  intro _
  exact Triple.bind (triple_sendQuiet hsend hbs hquiet).of_succeeds (fun _ => hreply)

theorem holding_hasPendingTransaction (ctx : Ctx)
    : Keeps (Holding n hs) (hasPendingTransaction (σ := Recorder σ) ctx) := by
  have := (StatusReader.readPending (σ := Recorder σ)).lawful
  apply holding_request ctx _ (Tr.sends_sendOp _ _) (List.ne_nil_of_length_pos (by simp))
  . exact access_none (.inr (.inr (.inr (.inl rfl)))) _
  . exact (calm_holding n hs).io _

theorem holding_commitCurrentTransaction (ctx : Ctx)
    : Keeps (Holding n hs) (commitCurrentTransaction (σ := Recorder σ) ctx) := by
  apply holding_request ctx _ (Tr.sends_sendOp _ _) (List.ne_nil_of_length_pos (by simp))
  . exact access_none (.inr (.inl rfl)) _
  . exact (calm_holding n hs).io _

theorem holding_setAutoCommit (ctx : Ctx) (autoCommit : Bool)
    : Keeps (Holding n hs) (setAutoCommit (σ := Recorder σ) ctx autoCommit) := by
  apply holding_request ctx _ (Tr.sends_sendAutoCommit _) (List.ne_nil_of_length_pos (by simp))
  . exact access_none (.inr (.inr (.inl rfl))) _
  . exact Keeps.bind ((calm_holding n hs).io _)
      (fun _ => Keeps.modify (fun _ hs => hs.setAutoCommit _))

variable [GoStd]

theorem holding_executeUpdatePreparedWithParams (ctx : Ctx) {cmd : PreparedCommand}
    {params : List Value} (hfit : Tr.AllFit cmd.params 0 params) (hcmd : .command cmd.id ∈ hs)
    (hn : n < 2 ^ 31)
    : Keeps (Holding n hs) (executeUpdatePreparedWithParams (σ := Recorder σ) ctx cmd params) := by
  have hcalm := calm_holding (σ := σ) n hs
  apply Quiet.ifOpen
  apply Keeps.ite (Keeps.throw _)
  apply hcalm.withContext
  apply Keeps.ite (Keeps.throw _)
  apply Triple.bind (triple_write (writes_writeUpdateHeader _ _)).of_succeeds
  intro _
  apply Triple.bind (triple_write (Tr.writes_writeParams _ hfit)).of_succeeds
  intro _
  apply Triple.get_then
  intro s
  apply Triple.bind (triple_write (Tr.writes_writeGeneratedKeysMode _)).of_succeeds
  intro _
  apply Triple.bind (R := fun _ => Holding n hs)
  . have hflush := (Tr.Sends.bare_flush (σ := Recorder σ)).mapErr
      (fun _ => Err.plain_wrapError "ExecuteUpdatePreparedWithParams")
    apply Triple.of_succeeds (triple_send hflush _ _)
    . exact List.ne_nil_of_length_pos (by simp [updateHeader])
    . intro s hs
      have hid : wrapInt32 cmd.id = cmd.id := hs.wrap_id hn hcmd
      simp only [updateHeader, List.append_assoc, List.nil_append, access_update, hid]
      exact ⟨hs.holds.use (by simpa using hcmd), by simp⟩
  . intro _
    apply Keeps.bind (hcalm.io _)
    intro reply
    apply Keeps.bind (hcalm.readKeysForUpdate _)
    intro r
    exact Keeps.bind (Keeps.modify (fun _ hs => hs.setAutoCommit _)) (fun _ => Keeps.pure _)

theorem holding_executeAndClose (ctx : Ctx) {cmd : PreparedCommand} {params : List Value}
    (hfit : Tr.AllFit cmd.params 0 params) (hn : n < 2 ^ 31)
    : Triple True (Holding n (.command cmd.id :: hs)) (executeAndClose (σ := Recorder σ) ctx cmd params)
        (fun _ => Holding n hs) (fun _ => Holding n hs) := by
  apply Triple.bind
    (Triple.tried (holding_executeUpdatePreparedWithParams ctx hfit List.mem_cons_self hn))
  intro r
  apply Triple.bind (holding_tryClose hn).of_succeeds
  intro _
  cases r with
  | ok => exact Keeps.pure _
  | error => exact Keeps.throw _

theorem holding_executeUpdate (ctx : Ctx) (sql : GoString) (hn : n + 1 < 2 ^ 31)
    : Triple True (Holding n hs) (executeUpdate (σ := Recorder σ) ctx sql)
        (fun _ => Holding (n + 1) hs) (fun _ => Holding (n + 1) hs) :=
  Triple.bind (holding_prepareCommand ctx sql hn)
    (fun _ => holding_executeAndClose ctx True.intro hn)

theorem holding_executeUpdateWithParams (ctx : Ctx) (sql : GoString) (params : List Value)
    (hn : n + 1 < 2 ^ 31)
    : Triple True (fun s => s.Holding n hs ∧ s.Accepts ctx sql params)
        (executeUpdateWithParams (σ := Recorder σ) ctx sql params)
        (fun _ => Holding (n + 1) hs) (fun _ => Holding (n + 1) hs) := by
  apply Triple.bind (holding_prepareAccepted ctx sql params hn)
  rintro cmd s ⟨hfit, hs⟩
  exact holding_executeAndClose ctx hfit hn s hs

theorem holding_internalUpdate (ctx : Ctx) (err : Err) (fn : String) (sql : GoString)
    (hn : n + 1 < 2 ^ 31)
    : Triple True (Holding n hs)
        (ifOpen err (withContext ctx (do
          checkContext ctx
          let _ ← Prog.mapErr (wrapError fn) (executeUpdate (σ := Recorder σ) ctx sql)
          pure ())))
        (fun _ => Holding (n + 1) hs) (fun _ => Holding (n + 1) hs) := by
  apply triple_ifOpen (fun _ hs => hs.mono (by omega))
  apply Durable.triple_withContext (Buffering.durable _ _ _ _).setClock (Buffering.durable _ _ _ _)
  apply Triple.bind (R := fun _ => Holding n hs)
  . exact (Quiet.checkContext ctx).weaken (fun _ hs => hs) (fun _ _ hs => hs)
      (fun _ _ hs => hs.mono (by omega))
  . intro _
    exact Triple.bind (Triple.mapErr (holding_executeUpdate ctx sql hn)) (fun _ => Keeps.pure _)

theorem holding_rollbackCurrentTransaction (ctx : Ctx) (hn : n + 1 < 2 ^ 31)
    : Triple True (Holding n hs) (rollbackCurrentTransaction (σ := Recorder σ) ctx)
        (fun _ => Holding (n + 1) hs) (fun _ => Holding (n + 1) hs) :=
  holding_internalUpdate ctx _ _ _ hn

theorem holding_setTransactionIsolation (ctx : Ctx) (sqlLevel : GoString) (hn : n + 1 < 2 ^ 31)
    : Triple True (Holding n hs) (setTransactionIsolation (σ := Recorder σ) ctx sqlLevel)
        (fun _ => Holding (n + 1) hs) (fun _ => Holding (n + 1) hs) :=
  holding_internalUpdate ctx _ _ _ hn

omit [GoStd] in
theorem holding_flush : Keeps (Holding n hs) (io Tr.flush : Prog Err (Session (Recorder σ)) Unit) := by
  intro s hs
  cases hnil : s.trNil with
  | true => simp [io, hnil]
  | false =>
    have hrun : Tr.flush s.tr = .ok () s.tr := by
      unfold Tr.flush
      rw [hs.healthy, if_pos hs.held]
    rw [io_of_ok hnil hrun]
    exact hs

omit [GoStd] in
theorem holding_close : Keeps (Holding n hs) (close (σ := Recorder σ)) := by
  have hcalm := calm_holding (σ := σ) n hs
  apply Keeps.bind Keeps.get
  intro s
  apply Keeps.ite (Keeps.pure _)
  apply Triple.bind
    (Triple.tried (triple_write (Tr.writes_writeInt32 sessionClose)).of_succeeds)
  intro _
  apply Triple.bind (R := fun _ => Holding n hs)
  . apply Triple.tried
    apply Triple.of_succeeds (triple_send Tr.Sends.bare_flush _ _)
    . exact List.ne_nil_of_length_pos (by simp)
    . intro s hs
      rw [List.nil_append, access_none (.inl rfl)]
      exact ⟨hs.holds.skip, by simp [Access.none]⟩
  . intro _
    apply Keeps.bind (Keeps.attempt (hcalm.io _))
    intro _
    apply Keeps.bind (Keeps.attempt holding_flush)
    intro r
    apply Keeps.bind hcalm.markStreamBroken
    intro _
    cases r with
    | ok => exact Keeps.pure _
    | error => exact Keeps.throw _

end Session

namespace Rows

def handles (r : Rows) : List Handle :=
  if r.closed then []
  else .result r.resultID ::
    if r.ownsCommand ∧ r.commandID ≠ 0 then [.command r.commandID] else []

end Rows

namespace Session

variable [Peer σ] [GoStd] {n : Int} {hs hs' : List Handle}

theorem handles_newRows (resultID columnCount fetchSize : Int) (ownsCommand : Bool) (commandID : Int)
    : Returns (newRows resultID columnCount fetchSize ownsCommand commandID : Prog Err (Session σ) _)
        (fun rows => rows.handles = .result resultID ::
          if ownsCommand ∧ commandID ≠ 0 then [.command commandID] else []) := by
  intro s _
  cases hrun : newRows resultID columnCount fetchSize ownsCommand commandID s with
  | ok rows s' =>
    obtain ⟨-, rowCount, _, columns, _, -, -, hprefetch⟩ := prefetch_of_newRows_ok hrun
    obtain ⟨_, _, hrows⟩ := Cursor.triple_prefetchInitialRows.of_ok (Rows.Like.refl _) hprefetch
    rw [Out.holds_ok, show rows = _ from hrows]
    rfl
  | fail | panic | stuck => trivial

/--
A query uses its command and creates a result. `hs'` is left when it fails and the command is closed.
-/
theorem holding_executeQueryWire (ctx : Ctx) {cmd : PreparedCommand} (maxRows fetchSize : Int)
    {params : List Value} {ownsCommand : Bool} (hfit : Tr.AllFit cmd.params 0 params)
    (hcmd : .command cmd.id ∈ hs) (hn : n + 1 < 2 ^ 31)
    (hclose : ∀ e, Triple True (Holding (n + 1) hs) (closeOwned (σ := Recorder σ) ownsCommand cmd e)
      (fun _ => Holding (n + 1) hs') (fun _ => Holding (n + 1) hs'))
    : Triple True (Holding n hs)
        (executeQueryWire (σ := Recorder σ) ctx cmd maxRows fetchSize params ownsCommand)
        (fun rows s => ∃ resultID, (rows.handles = .result resultID ::
            if ownsCommand then [.command cmd.id] else []) ∧
          s.Holding (n + 1) (.result resultID :: hs))
        (fun _ => Holding (n + 1) hs') := by
  have hcalm := fun hs => calm_holding (σ := σ) (n + 1) hs
  apply Triple.bind (triple_nextCommandID hn).of_succeeds
  intro resultID
  apply Durable.triple_withContext _ (Buffering.durable _ _ _ _)
  . apply Triple.onFail (F := fun _ => Holding (n + 1) hs) _ hclose
    apply Triple.bind (triple_write (writes_writeQueryHeader _ _ _ _ _)).of_succeeds
    intro _
    apply Triple.bind (triple_write (Tr.writes_writeParams _ hfit)).of_succeeds
    intro _
    apply Triple.bind (R := fun _ => Holding (n + 1) (.result resultID :: hs))
    . apply Triple.of_succeeds (triple_send (Tr.Sends.flush _) _ _)
      . exact List.ne_nil_of_length_pos (by simp [queryHeader])
      . intro s hs
        have hid : wrapInt32 cmd.id = cmd.id := hs.wrap_id hn hcmd
        have hresult : wrapInt32 resultID = resultID :=
          hs.wrap_reserved hn (List.mem_singleton_self resultID)
        simp only [queryHeader, List.append_assoc, List.nil_append, access_query, hid, hresult]
        exact ⟨hs.create (by simpa using hcmd) (by simp [Handle.id]), by simp [Handle.id]⟩
    . intro _
      have := (StatusReader.readQueryHeader (σ := Recorder σ)).lawful
      apply Triple.bind (R := fun _ => Holding (n + 1) (.result resultID :: hs))
      . exact ((hcalm _).io _).weaken (fun _ hs => hs) (fun _ _ hs => hs)
          (fun _ _ hs => hs.sublist (List.sublist_cons_self _ _))
      . intro columnCount
        apply ((handles_newRows _ _ _ _ _).and_keeps ((hcalm _).newRows _ _ _ _ _)).weaken
          (fun _ hs => hs)
        . rintro rows s ⟨hrows, hs⟩
          have hpos := hs.opened _ (hs.holds.live _ (List.mem_cons_of_mem _ hcmd)).1
          refine ⟨resultID, ?_, hs⟩
          rw [hrows]
          cases ownsCommand with
          | false => simp
          | true => simp [show cmd.id ≠ 0 by simp only [Handle.id] at hpos; omega]
        . exact fun _ _ hs => hs.sublist (List.sublist_cons_self _ _)
  . rintro rows s clock ⟨resultID, hrows, hs⟩
    exact ⟨resultID, hrows, (Buffering.durable _ _ _ _).setClock clock hs⟩

theorem holding_ownedQuery (ctx : Ctx) {cmd : PreparedCommand} (maxRows fetchSize : Int)
    {params : List Value} (hfit : Tr.AllFit cmd.params 0 params) (hn : n + 1 < 2 ^ 31)
    : Triple True (Holding n (.command cmd.id :: hs))
        (executeQueryWire (σ := Recorder σ) ctx cmd maxRows fetchSize params true)
        (fun rows => Holding (n + 1) (rows.handles ++ hs)) (fun _ => Holding (n + 1) hs) := by
  have hclose : ∀ e, Triple True (Holding (n + 1) (.command cmd.id :: hs))
      (closeOwned (σ := Recorder σ) true cmd e) (fun _ => Holding (n + 1) hs)
      (fun _ => Holding (n + 1) hs) := fun _ => (holding_closeCommand hn).of_succeeds
  apply (holding_executeQueryWire ctx maxRows fetchSize hfit List.mem_cons_self hn hclose).post
  rintro rows s ⟨resultID, hrows, hs⟩
  rw [hrows]
  exact hs

omit [GoStd] in
theorem holding_refuseQuery {cmd : PreparedCommand} (err : Err) (hn : n < 2 ^ 31)
    : Triple True (Holding n (.command cmd.id :: hs)) (refuseQuery (σ := Recorder σ) cmd err)
        (fun rows => Holding n (rows.handles ++ hs)) (fun _ => Holding n hs) :=
  Triple.bind (holding_tryClose hn).of_succeeds (fun _ => Triple.throw (fun _ hs => hs))

theorem holding_executeQuery (ctx : Ctx) (sql : GoString) (maxRows fetchSize : Int)
    (hn : n + 2 < 2 ^ 31)
    : Triple True (Holding n hs) (executeQuery (σ := Recorder σ) ctx sql maxRows fetchSize)
        (fun rows => Holding (n + 2) (rows.handles ++ hs)) (fun _ => Holding (n + 2) hs) := by
  apply triple_ifOpen (fun _ hs => hs.mono (by omega))
  apply Triple.bind (R := fun cmd => Holding (n + 1) (.command cmd.id :: hs))
  . apply Triple.mapErr
    exact (holding_prepareCommand ctx sql (by omega)).weaken (fun _ hs => hs) (fun _ _ hs => hs)
      (fun _ _ hs => hs.mono (by omega))
  . intro cmd
    have hfit : Tr.AllFit cmd.params 0 [] := True.intro
    apply Triple.ite
    . rintro -
      exact holding_mono (holding_refuseQuery _ (by omega)) (by omega)
    . rintro -
      exact holding_mono (holding_ownedQuery ctx maxRows fetchSize hfit (by omega)) (by omega)

theorem holding_executeQueryWithParams (ctx : Ctx) (sql : GoString) (maxRows fetchSize : Int)
    (params : List Value) (hn : n + 2 < 2 ^ 31)
    : Triple True (fun s => s.Holding n hs ∧ s.Accepts ctx sql params)
        (executeQueryWithParams (σ := Recorder σ) ctx sql maxRows fetchSize params)
        (fun rows => Holding (n + 2) (rows.handles ++ hs)) (fun _ => Holding (n + 2) hs) := by
  apply triple_ifOpen (fun _ hs => hs.1.mono (by omega))
  apply Triple.bind (R := fun cmd s => Tr.AllFit cmd.params 0 params ∧
    s.Holding (n + 1) (.command cmd.id :: hs))
  . apply Triple.mapErr
    exact (holding_prepareAccepted ctx sql params (by omega)).weaken (fun _ hs => hs)
      (fun _ _ hs => hs) (fun _ _ hs => hs.mono (by omega))
  . intro cmd
    apply Triple.assume (fun _ hs => hs.1)
    intro hfit
    apply Triple.pre (P := Holding (n + 1) (.command cmd.id :: hs)) _ (fun _ hs => hs.2)
    have hrefuse : ∀ err, Triple True (Holding (n + 1) (.command cmd.id :: hs))
        (refuseQuery (σ := Recorder σ) cmd err) (fun rows => Holding (n + 2) (rows.handles ++ hs))
        (fun _ => Holding (n + 2) hs) :=
      fun err => holding_mono (holding_refuseQuery err (by omega)) (by omega)
    apply Triple.ite (fun _ => hrefuse _)
    intro _
    apply Triple.ite (fun _ => hrefuse _)
    intro _
    exact holding_mono (holding_ownedQuery ctx maxRows fetchSize hfit (by omega)) (by omega)

theorem holding_executeQueryPreparedWithParams (ctx : Ctx) {cmd : PreparedCommand}
    (maxRows fetchSize : Int) {params : List Value} (hfit : Tr.AllFit cmd.params 0 params)
    (hcmd : .command cmd.id ∈ hs) (hn : n + 1 < 2 ^ 31)
    : Triple True (Holding n hs)
        (executeQueryPreparedWithParams (σ := Recorder σ) ctx cmd maxRows fetchSize params)
        (fun rows => Holding (n + 1) (rows.handles ++ hs)) (fun _ => Holding (n + 1) hs) := by
  have hrefuse : ∀ err, Triple True (Holding n hs)
      (Prog.throw err : Prog Err (Session (Recorder σ)) Rows)
      (fun rows => Holding (n + 1) (rows.handles ++ hs)) (fun _ => Holding (n + 1) hs) :=
    fun _ => Triple.throw (fun _ hs => hs.mono (by omega))
  apply triple_ifOpen (fun _ hs => hs.mono (by omega))
  apply Triple.ite (fun _ => hrefuse _)
  intro _
  apply Triple.ite (fun _ => hrefuse _)
  intro _
  have hclose : ∀ e, Keeps (Holding (n + 1) hs) (closeOwned (σ := Recorder σ) false cmd e) :=
    fun _ => Keeps.pure _
  apply (holding_executeQueryWire ctx maxRows fetchSize hfit hcmd hn hclose).post
  rintro rows s ⟨resultID, hrows, hs⟩
  rw [hrows]
  exact hs

end Session

namespace Cursor

variable [Peer σ] [GoStd] {n : Int} {hs : List Handle}

omit [Peer σ] [GoStd] in
theorem keeps_handles_takeRow (hr : List Handle) (dest : List Value)
    : Keeps (fun c : Cursor σ => c.rows.handles = hr) (takeRow dest) := by
  apply Keeps.bind Keeps.get
  intro c
  apply Keeps.bind
  . intro c' hc'
    unfold Prog.index
    cases c.rows.bufferedRows[0]? with
    | some row => exact hc'
    | none => trivial
  . intro row
    exact Keeps.bind (Keeps.modify (fun _ h => h)) (fun _ => Keeps.pure _)

theorem keeps_handles_next (hr : List Handle) (dest : List Value)
    : Keeps (fun c : Cursor σ => c.rows.handles = hr) (next dest) := by
  have hfetch : ∀ fetch, Keeps (fun c : Cursor σ => c.rows.handles = hr) (fetchNextBatch fetch) := by
    intro fetch c hc
    apply (triple_fetchNextBatch (r := c.rows) fetch c (Rows.Like.refl _)).imp
    . rintro _ c' ⟨_, _, hrows⟩
      rw [hrows]
      exact hc
    . rintro _ c' ⟨_, ⟨_, _, rfl⟩, hrows, -⟩
      rw [hrows]
      exact hc
  apply Keeps.bind Keeps.get
  intro c
  apply Keeps.ite (Keeps.throw _)
  split
  . exact Keeps.throw _
  . apply Keeps.ite (Keeps.throw _)
    apply Keeps.ite _ (keeps_handles_takeRow hr dest)
    split
    . exact Keeps.throw _
    . apply Keeps.bind (hfetch _)
      intro _
      exact Keeps.bind Keeps.get (fun _ => Keeps.ite (Keeps.throw _) (keeps_handles_takeRow hr dest))

theorem holding_fetchMoreRows (resultID fetch : Int) (hresult : .result resultID ∈ hs)
    (hn : n < 2 ^ 31)
    : Triple True (fun c : Cursor (Recorder σ) => c.rows.resultID = resultID ∧ c.session.Holding n hs)
        (fetchMoreRows fetch) (fun _ c => c.session.Holding n hs)
        (fun _ c => c.session.Holding n hs) := by
  have hcalm := Session.calm_holding (σ := σ) n hs
  have hsend : Keeps (Session.Holding n hs)
      (Session.io (requestRows (σ := Recorder σ) resultID fetch)) := by
    unfold requestRows
    rw [← Session.io_bind]
    apply Triple.bind (R := fun _ => Session.Holding n hs)
    . apply Triple.of_succeeds (Session.triple_send (sends_sendFetchRows _ _) _ _)
      . exact List.ne_nil_of_length_pos (by simp [fetchRowsRequest])
      . intro s hs
        have hid : wrapInt32 resultID = resultID := hs.wrap_id hn hresult
        rw [List.nil_append, access_fetchRows, hid]
        exact ⟨hs.holds.use (by simpa using hresult), by simp⟩
    . exact fun _ => hcalm.io _
  apply Triple.get_bind
  rintro c ⟨rfl, hc⟩
  apply Triple.pre (P := fun c => c.session.Holding n hs) _ (by rintro _ rfl; exact hc)
  apply Keeps.ite (Keeps.throw _)
  apply Keeps.onFail _ (fun _ => Session.Quiet.onSession (hcalm.markUnlessAlignedH2Error _))
  exact Keeps.bind (Session.Quiet.onSession hsend) (fun _ => hcalm.fetchRows fetch)

theorem holding_next (dest : List Value) (hn : n < 2 ^ 31)
    : Triple True (fun c : Cursor (Recorder σ) => c.session.Holding n hs ∧
          (c.rows.closed = false → .result c.rows.resultID ∈ hs))
        (next dest) (fun _ c => c.session.Holding n hs) (fun _ c => c.session.Holding n hs) := by
  apply Triple.get_bind
  rintro c ⟨hc, hresult⟩
  have hthrow : ∀ e, Triple True (fun c' => c' = c)
      (Prog.throw e : Prog Err (Cursor (Recorder σ)) (List Value))
      (fun _ c => c.session.Holding n hs) (fun _ c => c.session.Holding n hs) :=
    fun _ => Triple.throw (by rintro _ rfl; exact hc)
  have htake : Keeps (fun c : Cursor (Recorder σ) => c.session.Holding n hs) (takeRow dest) :=
    Session.Quiet.takeRow dest
  apply Triple.ite (fun _ => hthrow _)
  intro hopen
  split
  . exact hthrow _
  . apply Triple.ite (fun _ => hthrow _)
    intro _
    apply Triple.ite
    . intro _
      split
      . exact hthrow _
      . next fetch _ =>
        have hfetch := holding_fetchMoreRows (σ := σ) c.rows.resultID fetch
          (hresult (by simpa using hopen)) hn
        apply Triple.bind (R := fun _ c => c.session.Holding n hs)
        . apply (Triple.onFail hfetch (fun _ => Session.Quiet.modifyRows _)).pre
          rintro _ rfl
          exact ⟨rfl, hc⟩
        . intro _
          exact Keeps.bind Keeps.get (fun _ => Keeps.ite (Keeps.throw _) htake)
    . intro _
      apply htake.pre
      rintro _ rfl
      exact hc

end Cursor

end H2Go
