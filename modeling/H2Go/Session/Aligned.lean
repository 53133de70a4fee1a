import H2Go.Session.Reply
import H2Go.Session.Open

/-!
This module contains the calls of the session outside row reading, and when each of them leaves the
reply to it read to the end.
-/

namespace H2Go

open BigEndian

variable {σ : Type} {α β ρ : Type}

def commandCloseRequest (cmdID : Int) : List UInt8 := intBytes 4 commandClose ++ (intBytes 4 cmdID ++ [])

/--
The server does not answer `COMMAND_CLOSE`.
-/
def ClosesQuietly (σ : Type) [Peer σ] (cmdID : Int) : Prop :=
  ∀ p : σ, (Peer.recv p (commandCloseRequest cmdID)).2 = []

namespace Tr

variable [Peer σ]

theorem sends_sendCommandClose (fn : String) (cmdID : Int)
    : Sends (sendCommandClose fn cmdID : Prog Err (Tr σ) _) (commandCloseRequest cmdID) := by
  apply Sends.bind (writes_wrapErr _ _ (writes_writeInt32 _))
  apply Sends.bind (writes_wrapErr _ _ (writes_writeInt32 _))
  exact Sends.flush _

theorem Sends.keeps_inp {m : Prog Err (Tr σ) Unit} {bs : List UInt8} (h : Sends m bs)
    (hquiet : ∀ p : σ, (Peer.recv p bs).2 = []) {t : Tr σ} (hheld : t.held = [])
    : (m t).Holds False (fun _ t' => t'.inp = t.inp) (fun _ t' => t'.inp = t.inp) := by
  have hsend : ((Tr.write bs >>= fun _ => Tr.flush) t).Holds False (fun _ t' => t'.inp = t.inp)
      (fun _ t' => t'.inp = t.inp) := by
    apply Out.Holds.bind (R := fun _ t' => t'.held = bs ∧ t'.inp = t.inp)
    . unfold Tr.write
      cases t.writeBudget with
      | none => exact ⟨by simp [accept, hheld], rfl⟩
      | some n =>
        dsimp only
        split
        . exact ⟨by simp [accept, hheld], rfl⟩
        . rfl
    . rintro _ t' ⟨hbs, hinp⟩
      have hdeliver : t'.deliver.inp = t.inp := by simp [deliver, hbs, hquiet, hinp]
      unfold Tr.flush
      split
      . split
        . exact hinp
        . exact hdeliver
      . exact hinp
      . split
        . exact hinp
        . exact hdeliver
  cases hrun : (Tr.write bs >>= fun _ => Tr.flush) t with
  | ok a t' =>
    rw [hrun] at hsend
    rw [h.ok hrun]
    exact hsend
  | fail e t' =>
    rw [hrun] at hsend
    obtain ⟨e', he, -⟩ := h.fail hrun
    rw [he]
    exact hsend
  | panic | stuck =>
    rw [hrun] at hsend
    exact absurd hsend id

end Tr

/--
Once the request of a call has been sent, the call ends aligned exactly when the reply to it meets
`C`.
-/
def Answered (ctx : Ctx) (s : Session σ) (request : Prog Err (Session σ) ρ)
    (call : Prog Err (Session σ) α) (C : ρ → Session σ → Prop) : Prop :=
  ∀ x s1, request s = .ok x s1 → (C x s1 ↔ ReplyAligned ctx (call s))

/--
The reply is complete, or the context ends the session.
-/
def WholeReply (ctx : Ctx) (m : Prog Err (Tr σ) α) (s : Session σ) : Prop :=
  ReplyComplete m s.tr.inp ∨ ctx.Ends (s.clock + 1) m s.tr

namespace Session

theorem keeps_open_io (m : Prog Err (Tr σ) α)
    : Keeps (fun s : Session σ => s.trNil = false) (io m) := by
  intro s hs
  rw [io_run hs]
  cases m s.tr with
  | ok a t => exact hs
  | fail e t => exact hs
  | panic | stuck => trivial

theorem keeps_open_nextCommandID
    : Keeps (fun s : Session σ => s.trNil = false) (nextCommandID : Prog Err (Session σ) Int) := by
  intro s hs
  exact hs

theorem keeps_open_checkContext (ctx : Ctx)
    : Keeps (fun s : Session σ => s.trNil = false) (checkContext ctx : Prog Err (Session σ) Unit) := by
  apply Keeps.bind Keeps.get
  intro s
  cases ctx.err s.clock with
  | none => exact Keeps.pure _
  | some e => exact Keeps.throw _

variable [Peer σ]

def requestPrepare (fn : String) (op : Int) (sql : GoString) : Prog Err (Session σ) Int := do
  let cmdID ← nextCommandID
  io (Tr.sendPrepare fn op cmdID sql)
  pure cmdID

/--
The requests that are not sent when the context has fired.
-/
def requestUnlessDone (ctx : Ctx) (send : Prog Err (Tr σ) Unit) : Prog Err (Session σ) Unit := do
  checkContext ctx
  io send

omit [Peer σ] in
theorem answered_of_reader {ctx : Ctx} {s : Session σ} (hopen : s.trNil = false)
    {request : Prog Err (Session σ) ρ} {m : ρ → Prog Err (Tr σ) α}
    {f : α → Prog Err (Session σ) β}
    (hrequest : Keeps (fun s : Session σ => s.trNil = false) request) (hm : ∀ x, StatusReader (m x))
    (hf : ∀ a s, ∃ b s', f a s = .ok b s' ∧ s'.tr = s.tr ∧ s'.dead = s.dead)
    {call : Prog Err (Session σ) β}
    (hcall : call s = withContext ctx (request >>= fun x => io (m x) >>= f) s)
    : Answered ctx s request call (fun x => WholeReply ctx (m x)) := by
  intro x s1 hrun
  have hs1 : s1.trNil = false := hrequest.of_ok hopen hrun
  rw [hcall]
  exact reply_exact (hm x) hf (Prog.bind_of_ok hrun _) hs1 ctx

theorem answered_prepareCommand (ctx : Ctx) {s : Session σ} (hopen : s.trNil = false)
    (sql : GoString)
    : Answered ctx s (requestPrepare "PrepareCommand" sessionPrepare sql) (prepareCommand ctx sql)
        (fun cmdID => WholeReply ctx (Tr.readPrepared cmdID sql)) := by
  apply answered_of_reader (f := pure) hopen _ (fun cmdID => StatusReader.readPrepared cmdID sql)
  . exact fun a s => ⟨a, s, rfl, rfl, rfl⟩
  . unfold prepareCommand requestPrepare
    rw [ifOpen_of_open hopen]
    simp only [Prog.bind_assoc, Prog.pure_bind, Prog.bind_pure]
  . apply keeps_open_nextCommandID.bind
    intro cmdID
    exact (keeps_open_io _).bind (fun _ => Keeps.pure _)

theorem answered_prepareCommandReadParams (ctx : Ctx) {s : Session σ} (hopen : s.trNil = false)
    (sql : GoString)
    : Answered ctx s (requestPrepare "PrepareCommandReadParams" sessionPrepareReadParams2 sql)
        (prepareCommandReadParams ctx sql)
        (fun cmdID => WholeReply ctx (Tr.readPreparedParams cmdID sql)) := by
  apply answered_of_reader (f := pure) hopen _ (fun cmdID => StatusReader.readPreparedParams cmdID sql)
  . exact fun a s => ⟨a, s, rfl, rfl, rfl⟩
  . unfold prepareCommandReadParams requestPrepare
    rw [ifOpen_of_open hopen]
    simp only [Prog.bind_assoc, Prog.pure_bind, Prog.bind_pure]
  . apply keeps_open_nextCommandID.bind
    intro cmdID
    exact (keeps_open_io _).bind (fun _ => Keeps.pure _)

omit [Peer σ] in
theorem keeps_open_requestUnlessDone (ctx : Ctx) (send : Prog Err (Tr σ) Unit)
    : Keeps (fun s : Session σ => s.trNil = false) (requestUnlessDone ctx send) :=
  (keeps_open_checkContext ctx).bind (fun _ => keeps_open_io send)

theorem answered_hasPendingTransaction (ctx : Ctx) {s : Session σ} (hopen : s.trNil = false)
    : Answered ctx s
        (requestUnlessDone ctx (Tr.sendOp "Session.hasPendingTransaction" sessionHasPendingTransaction))
        (hasPendingTransaction ctx) (fun _ => WholeReply ctx Tr.readPending) := by
  apply answered_of_reader (f := pure) hopen (keeps_open_requestUnlessDone ctx _)
    (fun _ => StatusReader.readPending)
  . exact fun a s => ⟨a, s, rfl, rfl, rfl⟩
  . unfold hasPendingTransaction requestUnlessDone
    rw [ifOpen_of_open hopen]
    simp only [Prog.bind_assoc, Prog.bind_pure]

theorem answered_setAutoCommit (ctx : Ctx) {s : Session σ} (hopen : s.trNil = false)
    (autoCommit : Bool)
    : Answered ctx s (requestUnlessDone ctx (Tr.sendAutoCommit autoCommit))
        (setAutoCommit ctx autoCommit)
        (fun _ => WholeReply ctx (Prog.mapErr (wrapError "Session.setAutoCommit") Tr.readStatus)) := by
  apply answered_of_reader hopen (keeps_open_requestUnlessDone ctx _)
    (fun _ => StatusReader.readStatus "Session.setAutoCommit")
    (f := fun _ => Prog.modify (fun s => { s with autoCommit := autoCommit }))
  . exact fun a s => ⟨(), { s with autoCommit := autoCommit }, rfl, rfl, rfl⟩
  . unfold setAutoCommit requestUnlessDone
    rw [ifOpen_of_open hopen]
    simp only [Prog.bind_assoc]

theorem answered_commitCurrentTransaction (ctx : Ctx) {s : Session σ} (hopen : s.trNil = false)
    : Answered ctx s
        (requestUnlessDone ctx (Tr.sendOp "Session.commitCurrentTransaction" commandCommit))
        (commitCurrentTransaction ctx)
        (fun _ => WholeReply ctx
          (Prog.mapErr (wrapError "Session.commitCurrentTransaction") Tr.readStatus)) := by
  apply answered_of_reader (f := pure) hopen (keeps_open_requestUnlessDone ctx _)
    (fun _ => StatusReader.readStatus "Session.commitCurrentTransaction")
  . exact fun a s => ⟨a, s, rfl, rfl, rfl⟩
  . unfold commitCurrentTransaction requestUnlessDone
    rw [ifOpen_of_open hopen]
    simp only [Prog.bind_assoc, Prog.bind_pure]

variable [GoStd]

theorem answered_executeUpdatePreparedWithParams (ctx : Ctx) {s : Session σ}
    {cmd : PreparedCommand} {params : List Value} (hcan : s.CanUpdate cmd params)
    : Answered ctx s (sendUpdate ctx cmd params) (executeUpdatePreparedWithParams ctx cmd params)
        (fun keys => UpdateAligned ctx keys.mode) := by
  intro keys s1 hrun
  obtain ⟨t, rfl⟩ := (keeps_sendUpdate s ctx cmd params).of_ok ⟨s.tr, rfl⟩ hrun
  rw [executeUpdate_eq ctx hcan]
  exact update_exact (Prog.bind_of_ok hrun _) (by exact hcan.1) ctx

def requestQuery (cmd : PreparedCommand) (maxRows fetchSize : Int) (params : List Value)
    : Prog Err (Session σ) Int := do
  let resultID ← nextCommandID
  io (writeQueryHeader cmd.id resultID maxRows fetchSize params.length)
  io (Tr.writeParams "h2go: executeQueryWire: encode param %d: %w" cmd.params 0 params)
  io (inFunc "executeQueryWire" "flush failed" Tr.flush)
  pure resultID

def HeaderAccepted (s : Session σ) : Prop :=
  ∃ columnCount used rest, s.tr.inp = used ++ rest ∧
    Frame (readQueryHeader : Prog Err (Tr σ) _) columnCount used

omit [Peer σ] [GoStd] in
theorem withContext_congr {ctx : Ctx} {m m' : Prog Err (Session σ) α} {s s' : Session σ}
    (h : m s = m' s')
    : withContext ctx m s = withContext ctx m' s' := by
  unfold withContext
  rw [Prog.bind_run, Prog.bind_run, Prog.attempt, Prog.attempt, h]

omit [GoStd] in
theorem closeOwned_run {ownsCommand : Bool} {cmd : PreparedCommand}
    (hquiet : ownsCommand = true → ClosesQuietly σ cmd.id) {s : Session σ} (hopen : s.trNil = false)
    (hheld : s.tr.held = []) (e : Err)
    : ∃ r t, (Prog.attempt (closeOwned ownsCommand cmd e) : Prog Err (Session σ) _) s
        = .ok r (s.setTr t) ∧ t.inp = s.tr.inp := by
  unfold closeOwned
  cases ownsCommand with
  | false => exact ⟨.ok (), s.tr, rfl, rfl⟩
  | true =>
    have hsend := (Tr.sends_sendCommandClose "PreparedCommand.Close" cmd.id).keeps_inp
      (hquiet rfl) hheld
    have hclose : closeCommand cmd s = io (Tr.sendCommandClose "PreparedCommand.Close" cmd.id) s := by
      simp [closeCommand, hopen]
    cases hrun : Tr.sendCommandClose "PreparedCommand.Close" cmd.id s.tr with
    | ok a t =>
      rw [hrun] at hsend
      exact ⟨.ok a, t, Prog.attempt_of_ok (hclose.trans (io_of_ok hopen hrun)), hsend⟩
    | fail e t =>
      rw [hrun] at hsend
      exact ⟨.error e, t, Prog.attempt_of_fail (hclose.trans (io_of_fail hopen hrun)), hsend⟩
    | panic | stuck =>
      rw [hrun] at hsend
      exact absurd hsend id

omit [GoStd] in
theorem held_of_flush {t t' : Tr σ} (h : (Tr.flush : Prog Err (Tr σ) _) t = .ok () t') : t'.held = [] := by
  unfold Tr.flush at h
  split at h
  . cases h
    split
    . next hheld => exact hheld
    . rfl
  . cases h
  . cases h
    split
    . next hheld => exact hheld
    . rfl

theorem requestQuery_run {cmd : PreparedCommand} {maxRows fetchSize : Int} {params : List Value}
    {s s1 : Session σ} {resultID : Int} (hopen : s.trNil = false)
    (h : requestQuery cmd maxRows fetchSize params s = .ok resultID s1)
    : s1.trNil = false ∧ s1.tr.held = [] ∧ ∀ (ctx : Ctx) (ownsCommand : Bool),
        executeQueryWire ctx cmd maxRows fetchSize params ownsCommand s
          = withContext ctx (Prog.onFail
              (io readQueryHeader >>= fun columnCount => newRows resultID columnCount fetchSize
                ownsCommand (if ownsCommand then cmd.id else 0))
              (closeOwned ownsCommand cmd)) s1 := by
  obtain ⟨id, s2, hid, h⟩ := Prog.bind_eq_ok h
  have hs2 : s2.trNil = false := keeps_open_nextCommandID.of_ok hopen hid
  obtain ⟨_, s3, hheader, h⟩ := Prog.bind_eq_ok h
  have hs3 : s3.trNil = false := (keeps_open_io _).of_ok hs2 hheader
  obtain ⟨_, s4, hparams, h⟩ := Prog.bind_eq_ok h
  have hs4 : s4.trNil = false := (keeps_open_io _).of_ok hs3 hparams
  obtain ⟨_, s5, hflush, h⟩ := Prog.bind_eq_ok h
  have hs5 : s5.trNil = false := (keeps_open_io _).of_ok hs4 hflush
  cases h
  refine ⟨hs5, ?_, ?_⟩
  . rw [io_run hs4] at hflush
    obtain ⟨t, hwrapped, rfl⟩ := Out.map_eq_ok hflush
    obtain ⟨t', hok, rfl⟩ := Out.map_eq_ok hwrapped
    exact held_of_flush hok
  . intro ctx ownsCommand
    unfold executeQueryWire
    rw [Prog.bind_of_ok hid]
    apply withContext_congr
    rw [Prog.onFail_run, Prog.onFail_run, Prog.bind_of_ok hheader, Prog.bind_of_ok hparams,
      Prog.bind_of_ok hflush]

omit [GoStd] in
theorem header_exact {ctx : Ctx} {cmd : PreparedCommand} {ownsCommand : Bool}
    (hquiet : ownsCommand = true → ClosesQuietly σ cmd.id) {s : Session σ} (hopen : s.trNil = false)
    (hheld : s.tr.held = []) (hreject : ¬ HeaderAccepted s) (f : Int → Prog Err (Session σ) α)
    : WholeReply ctx readQueryHeader s ↔
        ReplyAligned ctx (withContext ctx
          (Prog.onFail (io readQueryHeader >>= f) (closeOwned ownsCommand cmd)) s) := by
  have halive : s.dead = false := s.dead_eq.trans hopen
  have hm := StatusReader.readQueryHeader (σ := σ)
  have hfail : ∀ {e t}, (readQueryHeader : Prog Err (Tr σ) _) s.tr = .fail e t → t.held = [] →
      ∃ t', Prog.onFail (io readQueryHeader >>= f) (closeOwned ownsCommand cmd) s
        = .fail e (s.setTr t') ∧ t'.inp = t.inp := by
    intro e t hrun hheld
    obtain ⟨r, t', hclose, hinp⟩ := closeOwned_run hquiet (s := s.setTr t) hopen hheld e
    refine ⟨t', ?_, hinp⟩
    rw [Prog.onFail_of_fail (Prog.bind_of_fail (io_of_fail hopen hrun) f), Prog.bind_of_ok hclose]
    rfl
  rcases hm.cases s.tr with ⟨a, b, rest, hinp, hframe, -⟩ | ⟨h, b, rest, hinp, hreply, hrun⟩ |
    ⟨e, t', hrun, he⟩
  . exact absurd ⟨a, b, rest, hinp, hframe⟩ hreject
  . obtain ⟨t2, hp, hinp'⟩ := hfail hrun hheld
    unfold WholeReply
    rw [hm.complete_of_error hinp hreply, aligned_of_h2 hp rfl rfl halive, setTr_tr, hinp']
    rfl
  . have hlawful := hm.lawful
    obtain ⟨used, rest, -, rfl⟩ := LawfulReader.fail_run hrun
    obtain ⟨t2, hp, -⟩ := hfail hrun hheld
    unfold WholeReply
    rw [hm.complete_of_plain hrun he, aligned_of_plain hp he halive]
    rfl

theorem answered_executeQueryWire (ctx : Ctx) {s : Session σ} (hopen : s.trNil = false)
    (cmd : PreparedCommand) (maxRows fetchSize : Int) (params : List Value) {ownsCommand : Bool}
    (hquiet : ownsCommand = true → ClosesQuietly σ cmd.id) {resultID : Int} {s1 : Session σ}
    (hrequest : requestQuery cmd maxRows fetchSize params s = .ok resultID s1)
    (hreject : ¬ HeaderAccepted s1)
    : WholeReply ctx readQueryHeader s1 ↔
        ReplyAligned ctx (executeQueryWire ctx cmd maxRows fetchSize params ownsCommand s) := by
  obtain ⟨hs1, hheld, hcall⟩ := requestQuery_run hopen hrequest
  rw [hcall ctx ownsCommand]
  exact header_exact hquiet hs1 hheld hreject _

theorem executeQueryWire_of_header (ctx : Ctx) {s : Session σ} (hopen : s.trNil = false)
    (cmd : PreparedCommand) (maxRows fetchSize : Int) (params : List Value) (ownsCommand : Bool)
    {resultID : Int} {s1 : Session σ}
    (hrequest : requestQuery cmd maxRows fetchSize params s = .ok resultID s1) {columnCount : Int}
    {used rest : List UInt8} (hinp : s1.tr.inp = used ++ rest)
    (hframe : Frame (readQueryHeader : Prog Err (Tr σ) _) columnCount used)
    : executeQueryWire ctx cmd maxRows fetchSize params ownsCommand s
        = withContext ctx (Prog.onFail
            (newRows resultID columnCount fetchSize ownsCommand (if ownsCommand then cmd.id else 0))
            (closeOwned ownsCommand cmd)) (s1.setTr (Input.move used rest s1.tr)) := by
  obtain ⟨hs1, -, hcall⟩ := requestQuery_run hopen hrequest
  rw [hcall ctx ownsCommand]
  apply withContext_congr
  rw [Prog.onFail_run, Prog.onFail_run,
    Prog.bind_of_ok (io_of_ok hs1 (hframe.exact s1.tr rest hinp))]

/--
Once the request of a query has been sent, an accepted header is read to its last byte and the rows
are read from the byte behind it on, and any other reply is judged as a whole.
-/
def QueryAnswered (ctx : Ctx) (s : Session σ) (cmd : PreparedCommand) (maxRows fetchSize : Int)
    (params : List Value) (ownsCommand : Bool) : Prop :=
  ∀ resultID s1, requestQuery cmd maxRows fetchSize params s = .ok resultID s1 →
    (∀ columnCount used rest, s1.tr.inp = used ++ rest →
      Frame (readQueryHeader : Prog Err (Tr σ) _) columnCount used →
      executeQueryWire ctx cmd maxRows fetchSize params ownsCommand s
        = withContext ctx (Prog.onFail
            (newRows resultID columnCount fetchSize ownsCommand (if ownsCommand then cmd.id else 0))
            (closeOwned ownsCommand cmd)) (s1.setTr (Input.move used rest s1.tr))) ∧
    (¬ HeaderAccepted s1 →
      (WholeReply ctx readQueryHeader s1 ↔
        ReplyAligned ctx (executeQueryWire ctx cmd maxRows fetchSize params ownsCommand s)))

/--
For each call outside row reading, when it has given up the session or read the reply to its last
byte.
-/
structure RepliesAligned (ctx : Ctx) (s : Session σ) : Prop where
  prepare : ∀ sql, Answered ctx s (requestPrepare "PrepareCommand" sessionPrepare sql)
    (prepareCommand ctx sql) (fun cmdID => WholeReply ctx (Tr.readPrepared cmdID sql))
  prepareParams : ∀ sql, Answered ctx s
    (requestPrepare "PrepareCommandReadParams" sessionPrepareReadParams2 sql)
    (prepareCommandReadParams ctx sql)
    (fun cmdID => WholeReply ctx (Tr.readPreparedParams cmdID sql))
  pending : Answered ctx s
    (requestUnlessDone ctx (Tr.sendOp "Session.hasPendingTransaction" sessionHasPendingTransaction))
    (hasPendingTransaction ctx) (fun _ => WholeReply ctx Tr.readPending)
  autoCommit : ∀ on, Answered ctx s (requestUnlessDone ctx (Tr.sendAutoCommit on))
    (setAutoCommit ctx on)
    (fun _ => WholeReply ctx (Prog.mapErr (wrapError "Session.setAutoCommit") Tr.readStatus))
  commit : Answered ctx s
    (requestUnlessDone ctx (Tr.sendOp "Session.commitCurrentTransaction" commandCommit))
    (commitCurrentTransaction ctx)
    (fun _ => WholeReply ctx
      (Prog.mapErr (wrapError "Session.commitCurrentTransaction") Tr.readStatus))
  update : ∀ cmd params, s.CanUpdate cmd params → Answered ctx s (sendUpdate ctx cmd params)
    (executeUpdatePreparedWithParams ctx cmd params) (fun keys => UpdateAligned ctx keys.mode)
  query : ∀ cmd maxRows fetchSize params ownsCommand,
    (ownsCommand = true → ClosesQuietly σ cmd.id) →
    QueryAnswered ctx s cmd maxRows fetchSize params ownsCommand

theorem replies_aligned_iff (ctx : Ctx) (s : Session σ) (hopen : s.trNil = false)
    : RepliesAligned ctx s where
  prepare := answered_prepareCommand ctx hopen
  prepareParams := answered_prepareCommandReadParams ctx hopen
  pending := answered_hasPendingTransaction ctx hopen
  autoCommit := answered_setAutoCommit ctx hopen
  commit := answered_commitCurrentTransaction ctx hopen
  update := fun _ _ => answered_executeUpdatePreparedWithParams ctx
  query := by
    intro cmd maxRows fetchSize params ownsCommand hquiet resultID s1 hrequest
    constructor
    . intro columnCount used rest hinp hframe
      exact executeQueryWire_of_header ctx hopen cmd maxRows fetchSize params ownsCommand hrequest
        hinp hframe
    . exact answered_executeQueryWire ctx hopen cmd maxRows fetchSize params hquiet hrequest

end Session

section

open StandIn

def errorReply : List UInt8 :=
  intBytes 4 statusError ++
    (List.replicate 12 255 ++ [0, 0, 0, 42] ++ List.replicate 4 255)

theorem errorReply_frame : ∃ h, Tr.ErrorReply Silent h errorReply := by
  obtain ⟨h, t, hrun, hend⟩ : ∃ h t, (Tr.readH2ErrorFrame : Prog Err (Tr Silent) _)
      (Tr.ofBytes (List.replicate 12 255 ++ [0, 0, 0, 42] ++ List.replicate 4 255)) = .ok h t ∧
        t.inp = [] := ⟨_, _, rfl, rfl⟩
  exact ⟨h, _, rfl, LawfulReader.frame_of_ok hrun hend⟩

def repliedSession (reply : List UInt8) : Session Silent :=
  Session.opened (Tr.ofBytes reply)
    { generatedKeysModeSet := false, generatedKeysMode := 0, generatedKeysColumns := [],
      generatedKeysColumnNames := [] } tcpProtocolVersion21 true

def plainCommand (isQuery : Bool) : PreparedCommand :=
  { id := 1, sql := [], isQuery, readOnly := false, cmdType := cmdUnknown, paramCount := 0
    params := [] }

theorem closesQuietly_silent (cmdID : Int) : ClosesQuietly Silent cmdID := fun _ => rfl

theorem replies_aligned_error
    : ReplyAligned .background (Session.prepareCommand .background [] (repliedSession errorReply)) ∧
      ReplyAligned .background
        (Session.executeUpdatePreparedWithParams .background (plainCommand false) []
          (repliedSession errorReply)) ∧
      ReplyAligned .background
        (Session.executeQueryWire .background (plainCommand false) 0 10 [] true
          (repliedSession errorReply)) := by
  obtain ⟨h, hreply⟩ := errorReply_frame
  have haligned := Session.replies_aligned_iff .background (repliedSession errorReply) rfl
  refine ⟨?_, ?_, ?_⟩
  . exact (haligned.prepare [] _ _ rfl).mp (.inl (.inr ⟨h, hreply⟩))
  . exact (haligned.update (plainCommand false) [] ⟨rfl, rfl, rfl⟩ _ _ rfl).mp (.inl ⟨h, hreply⟩)
  . have hquery := haligned.query (plainCommand false) 0 10 [] true
      (fun _ => closesQuietly_silent 1) _ _ rfl
    refine (hquery.2 ?_).mp (.inl (.inr ⟨h, hreply⟩))
    rintro ⟨columnCount, used, rest, hinp, hframe⟩
    exact Frame.not_of_fail (StatusReader.readQueryHeader.error (t := Tr.ofBytes errorReply) hreply
      (List.append_nil _).symm) hinp hframe

/--
A generated keys frame with one more row than the driver takes, each with a BIGINT.
-/
def overfullRows : List (List Cell) :=
  List.replicate (2 ^ 20 + 1) [⟨[0, 0, 0, 5, 0, 0, 0, 0, 0, 0, 0, 7], .int64 7⟩]

def keyMeta : List UInt8 := List.replicate 16 255 ++ [0, 0, 0, 5] ++ [0] ++ [0, 0, 0, 0]

def overfullKeys : List UInt8 :=
  intBytes 4 1 ++ intBytes 8 (2 ^ 20 + 1) ++ (keyMeta ++ batchBytes overfullRows false)

def updateReply : List UInt8 := [0, 0, 0, 1, 0, 0, 0, 0, 0, 16, 0, 1, 1]

theorem keyCell_run (colType : Option TypeInfo)
    : ∃ lc t', Tr.readValueInternal colType (some .empty)
        (Tr.ofBytes [0, 0, 0, 5, 0, 0, 0, 0, 0, 0, 0, 7]) = .ok (.int64 7, lc) t' ∧ t'.inp = [] :=
  ⟨_, _, rfl, rfl⟩

theorem keyMeta_frame
    : ∃ m, Frame (Tr.readResultMeta 1 tcpProtocolVersion21 : Prog Err (Tr Silent) _) m keyMeta ∧
        ∀ cells ∈ overfullRows, RowSent Silent m cells := by
  obtain ⟨m, t, hrun, hend⟩ : ∃ m t, (Tr.readResultMeta 1 tcpProtocolVersion21 :
      Prog Err (Tr Silent) _) (Tr.ofBytes keyMeta) = .ok m t ∧ t.inp = [] := ⟨_, _, rfl, rfl⟩
  have hframe := LawfulReader.frame_of_ok hrun hend
  obtain ⟨-, hm⟩ := Progress.of_frame hframe (Tr.ofBytes keyMeta) (Tr.progress_readResultMeta 1 _)
  have hlen := hm.length_eq
  obtain ⟨col, hcol⟩ := List.length_eq_one_iff.mp (show m.columns.length = 1 by omega)
  refine ⟨m, hframe, ?_⟩
  intro cells hcells
  rw [List.eq_of_mem_replicate hcells, RowSent, hcol]
  obtain ⟨lc, t', hcell, hend⟩ := keyCell_run (some col.typeInfo)
  exact .cons ⟨lc, LawfulReader.frame_of_ok hcell hend⟩ .nil

theorem executeUpdate_overfullKeys
    : ∃ e s', Session.executeUpdatePreparedWithParams .background (plainCommand false) []
          (repliedSession (updateReply ++ overfullKeys)) = .fail e s' ∧ s'.dead = false ∧
        s'.tr.inp = keyMeta ++ batchBytes overfullRows false := by
  obtain ⟨t, hread, hend⟩ : ∃ t, (Tr.readUpdateReply : Prog Err (Tr Silent) _)
      (Tr.ofBytes updateReply) = .ok (2 ^ 20 + 1, true) t ∧ t.inp = [] := ⟨_, rfl, rfl⟩
  obtain ⟨keys, s1, hsend, hopen, hmode, hinp⟩ : ∃ keys s1,
      Session.sendUpdate .background (plainCommand false) []
        (repliedSession (updateReply ++ overfullKeys)) = .ok keys s1 ∧ s1.trNil = false ∧
        keys.mode ≠ generatedKeysNone ∧ s1.tr.inp = updateReply ++ overfullKeys := by
    refine ⟨_, _, rfl, rfl, ?_, List.append_nil _⟩
    decide
  have hrefused : Tr.KeysRefused Silent s1.version none (intBytes 4 1 ++ intBytes 8 (2 ^ 20 + 1)) :=
    .overCap (Tr.frame_readInt32 (by decide) (by decide)) (Tr.frame_readInt64 (by decide) (by decide))
      (by decide)
  have hcan : (repliedSession (updateReply ++ overfullKeys)).CanUpdate (plainCommand false) [] :=
    ⟨rfl, rfl, rfl⟩
  obtain ⟨e, hrun⟩ := Session.executeUpdate_refused hcan hsend hopen hmode hinp
    (LawfulReader.frame_of_ok hread hend) hrefused rfl
  exact ⟨e, _, hrun, s1.dead_eq.trans hopen, rfl⟩

/--
The update is answered with a well-formed reply that has too many rows of generated keys. The call
fails behind their number and leaves the rows unread on a session that is alive.
-/
theorem overfullKeys_unread
    : (∃ m, Frame (Tr.readResultMeta 1 tcpProtocolVersion21 : Prog Err (Tr Silent) _) m keyMeta ∧
        ∀ cells ∈ overfullRows, RowSent Silent m cells) ∧
      ¬ ReplyAligned .background
        (Session.executeUpdatePreparedWithParams .background (plainCommand false) []
          (repliedSession (updateReply ++ overfullKeys))) := by
  refine ⟨keyMeta_frame, ?_⟩
  obtain ⟨e, s', hrun, halive, hinp⟩ := executeUpdate_overfullKeys
  rw [hrun]
  rintro (hdead | ⟨hunread, -⟩)
  . rw [halive] at hdead
    cases hdead
  . rw [hinp] at hunread
    exact absurd (List.append_eq_nil_iff.mp hunread).1 (by decide)

end

end H2Go
