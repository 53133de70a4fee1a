import H2Go.GeneratedKeys.Refusal
import H2Go.Lib.Run

/-!
This module contains the calls of the session as an exchange: the request, the reply, and what the
deferred `finalizeContext` makes of a failure.
-/

namespace H2Go

variable {σ : Type} {α : Type}

/--
Whether `finalizeContext` leaves a session alive when the operation was refused with `r`.
-/
def Ctx.spares (ctx : Ctx) (now : Nat) (r : Option H2Error) : Bool :=
  (ctx.err now).isNone || r.any (fun h => h.code = errorCodeStatementWasCanceled)

namespace Session

theorem withContext_of_ok {ctx : Ctx} {m : Prog Err (Session σ) α} {s s' : Session σ} {a : α}
    (h : m s = .ok a s')
    : withContext ctx m s = .ok a { s' with clock := s'.clock + 1 } := by
  unfold withContext
  rw [Prog.bind_run, Prog.attempt_of_ok h]
  rfl

theorem withContext_of_fail {ctx : Ctx} {m : Prog Err (Session σ) α} {s s' : Session σ} {e : Err}
    (h : m s = .fail e s')
    : withContext ctx m s = finalizeContext ctx e { s' with clock := s'.clock + 1 } := by
  unfold withContext
  rw [Prog.bind_run, Prog.attempt_of_fail h]
  rfl

theorem withContext_of_panic {ctx : Ctx} {m : Prog Err (Session σ) α} {s : Session σ}
    (h : (m s).state? = none)
    : (withContext ctx m s).state? = none := by
  unfold withContext
  rw [Prog.bind_run]
  cases hm : m s with
  | ok | fail =>
    rw [hm] at h
    cases h
  | panic | stuck =>
    unfold Prog.attempt
    rw [hm]
    rfl

theorem finalizeContext_state {β : Type} (ctx : Ctx) (e : Err) (s : Session σ)
    : ((finalizeContext ctx e : Prog Err (Session σ) α) s).state?
        = ((finalizeContext ctx e : Prog Err (Session σ) β) s).state? := by
  unfold finalizeContext
  rw [Prog.bind_run, Prog.bind_run, Prog.get_run, Out.andThen_ok, Out.andThen_ok]
  cases ctx.err s.clock with
  | some ctxErr =>
    dsimp only
    split <;> rfl
  | none =>
    dsimp only
    split <;> rfl

theorem of_withContext {ctx : Ctx} {m : Prog Err (Session σ) α} {s s' : Session σ} {a : α}
    (h : withContext ctx m s = .ok a s')
    : ∃ s1, m s = .ok a s1 ∧ s' = { s1 with clock := s1.clock + 1 } := by
  cases hm : m s with
  | ok b s1 =>
    rw [withContext_of_ok hm] at h
    cases h
    exact ⟨s1, rfl, rfl⟩
  | fail e s1 =>
    rw [withContext_of_fail hm] at h
    exact ((returns_finalizeContext (R := fun _ => False) ctx e).of_ok True.intro h).elim
  | panic | stuck =>
    have hnone : (withContext ctx m s).state? = none := withContext_of_panic (by rw [hm]; rfl)
    rw [h] at hnone
    cases hnone

theorem finalizeContext_of_refusal (ctx : Ctx) {r : Option H2Error} {e : Err} (h : Refusal r e)
    (s : Session σ)
    : ∃ e', (finalizeContext ctx e : Prog Err (Session σ) α) s
        = .fail e' (if ctx.spares s.clock r then s else s.abort) := by
  obtain ⟨rfl, htimeout, -⟩ := h
  unfold finalizeContext Ctx.spares
  rw [Prog.bind_run, Prog.get_run, Out.andThen_ok]
  cases hctx : ctx.err s.clock with
  | none =>
    refine ⟨e, ?_⟩
    simp [htimeout]
  | some ctxErr =>
    refine ⟨ctxErr, ?_⟩
    simp only [Option.isNone_some, Bool.false_or]
    unfold statementWasCanceled markStreamBroken
    split
    . rfl
    . rfl

variable [GoStd] [Peer σ]

omit [Peer σ] in
theorem isLastInsertIDUnavailable_of_singleInt64 {gkr : GeneratedKeysResult} {e : Err}
    (h : gkr.singleInt64 = .error e)
    : isLastInsertIDUnavailable e = true := by
  have htext : ∀ {x : GoString}, textKeyToInt64 x = .error e → isLastInsertIDUnavailable e = true := by
    intro x h
    unfold textKeyToInt64 at h
    split at h
    . cases h
    . cases h
      rfl
  have hvalue : ∀ {v : Value}, generatedKeyValueToInt64 v = .error e →
      isLastInsertIDUnavailable e = true := by
    intro v h
    unfold generatedKeyValueToInt64 at h
    split at h
    . cases h
    . split at h
      . cases h
        rfl
      . split at h
        . cases h
          rfl
        . cases h
    . exact htext h
    . exact htext h
    all_goals
      cases h
      rfl
  unfold GeneratedKeysResult.singleInt64 at h
  split at h
  . cases h
    rfl
  . split at h
    . exact hvalue h
    . cases h
      rfl
    . cases h
      rfl

theorem returns_readGeneratedKeys
    : Returns (readGeneratedKeys : Prog Err (Session σ) _) (fun r => r.2 = r.1.singleInt64) := by
  apply Returns.bind
  intro s
  apply Returns.ite (fun _ => Returns.throw _)
  intro _
  apply Returns.bind
  intro columnCount
  apply Returns.bind
  intro rowCount
  apply Returns.ite (fun _ => Returns.throw _)
  intro _
  apply Returns.bind
  intro s
  apply Returns.bind
  intro m
  apply Returns.bind
  intro r
  apply Returns.bind
  intro rows
  exact Returns.pure rfl

theorem readKeysForUpdate_refused {mode : Int} (hmode : mode ≠ generatedKeysNone) {s : Session σ}
    (hopen : s.trNil = false) {r : Option H2Error} {b rest : List UInt8}
    (h : Tr.KeysRefused σ s.version r b) (hinp : s.tr.inp = b ++ rest)
    : ∃ e, Refusal r e ∧ readKeysForUpdate mode s = .fail e (s.setTr (Input.move b rest s.tr)) := by
  obtain ⟨e, hrefusal, hrun⟩ := readGeneratedKeys_refused hopen h hinp
  refine ⟨e, hrefusal, ?_⟩
  unfold readKeysForUpdate
  rw [if_neg hmode, Prog.bind_run, Prog.attempt_of_fail hrun, Out.andThen_ok]
  dsimp only
  rw [hrefusal.2.2]
  rfl

theorem refused_of_readKeysForUpdate {mode : Int} {s s' : Session σ} (hopen : s.trNil = false)
    {e : Err} (hrun : readKeysForUpdate mode s = .fail e s') (halive : s'.dead = false)
    : mode ≠ generatedKeysNone ∧
        ∃ r b, Refusal r e ∧ Tr.KeysRefused σ s.version r b ∧ s.tr.inp = b ++ s'.tr.inp := by
  unfold readKeysForUpdate at hrun
  split at hrun
  . cases hrun
  . next hmode =>
    refine ⟨hmode, ?_⟩
    rw [Prog.bind_run] at hrun
    cases hkeys : readGeneratedKeys s with
    | ok r s1 =>
      rw [Prog.attempt_of_ok hkeys, Out.andThen_ok] at hrun
      have hid : r.2 = r.1.singleInt64 := returns_readGeneratedKeys.of_ok True.intro hkeys
      obtain ⟨result, id⟩ := r
      cases id with
      | ok id => cases hrun
      | error e' =>
        -- a result without a single key is no failure of the update
        dsimp only at hrun
        rw [isLastInsertIDUnavailable_of_singleInt64 hid.symm] at hrun
        cases hrun
    | fail e' s1 =>
      rw [Prog.attempt_of_fail hkeys, Out.andThen_ok] at hrun
      dsimp only at hrun
      split at hrun
      . cases hrun
      . cases hrun
        exact refused_of_readGeneratedKeys hopen hkeys halive
    | panic | stuck => simp [Prog.attempt, hkeys] at hrun

/--
The request of an update, it returns which generated keys were asked for.
-/
def sendUpdate (ctx : Ctx) (cmd : PreparedCommand) (params : List Value)
    : Prog Err (Session σ) GeneratedKeysMode := do
  io (Tr.writeUpdateHeader cmd.id params.length)
  io (Tr.writeParams "h2go: ExecuteUpdatePreparedWithParams: encode param %d: %w" cmd.params 0
    params)
  let s ← Prog.get
  let keys := s.resolveGeneratedKeys ctx
  io (Tr.writeGeneratedKeysMode keys)
  io (Prog.mapErr (wrapError "ExecuteUpdatePreparedWithParams") Tr.flush)
  pure keys

omit [GoStd] [Peer σ] in
instance : LawfulReader (Tr.readUpdateReply : Prog Err (Tr σ) _) := by
  unfold Tr.readUpdateReply
  infer_instance

omit [GoStd] [Peer σ] in
theorem keeps_io (s : Session σ) (m : Prog Err (Tr σ) α)
    : Keeps (fun s' => ∃ t, s' = s.setTr t) (io m) := by
  rintro _ ⟨t, rfl⟩
  cases hnil : s.trNil with
  | true => simp [io, hnil]
  | false =>
    rw [io_run (by exact hnil)]
    cases m (s.setTr t).tr with
    | ok a t' => exact ⟨t', rfl⟩
    | fail e t' => exact ⟨t', rfl⟩
    | panic | stuck => trivial

theorem keeps_sendUpdate (s : Session σ) (ctx : Ctx) (cmd : PreparedCommand) (params : List Value)
    : Keeps (fun s' => ∃ t, s' = s.setTr t) (sendUpdate ctx cmd params) := by
  apply Keeps.bind (keeps_io s _)
  intro _
  apply Keeps.bind (keeps_io s _)
  intro _
  apply Keeps.bind Keeps.get
  intro _
  apply Keeps.bind (keeps_io s _)
  intro _
  exact Keeps.bind (keeps_io s _) (fun _ => Keeps.pure _)

def finishUpdate (keys : GeneratedKeysMode) (reply : Int × Bool)
    : Prog Err (Session σ) ResultWithUpdateCount := do
  let r ← readKeysForUpdate keys.mode
  Prog.modify (fun s => { s with autoCommit := reply.2 })
  pure {
    updateCount := reply.1, autoCommit := reply.2, lastInsertID := r.2.1,
    lastInsertIDSet := r.2.2.1, lastInsertErr := r.2.2.2, generatedKeys := r.1
  }

def updateResult (reply : Int × Bool) (gkr : GeneratedKeysResult) : ResultWithUpdateCount :=
  match gkr.singleInt64 with
  | .ok id =>
    { updateCount := reply.1, autoCommit := reply.2, lastInsertID := id, lastInsertIDSet := true,
      lastInsertErr := none, generatedKeys := some gkr }
  | .error err =>
    { updateCount := reply.1, autoCommit := reply.2, lastInsertID := 0, lastInsertIDSet := false,
      lastInsertErr := some err, generatedKeys := some gkr }

theorem finishUpdate_of_ok {keys : GeneratedKeysMode} (hmode : keys.mode ≠ generatedKeysNone)
    (reply : Int × Bool) {s s' : Session σ} {r : GeneratedKeysResult × Except Err Int}
    (hkeys : readGeneratedKeys s = .ok r s')
    : finishUpdate keys reply s = .ok (updateResult reply r.1) { s' with autoCommit := reply.2 } := by
  have hid : r.2 = r.1.singleInt64 := returns_readGeneratedKeys.of_ok True.intro hkeys
  obtain ⟨result, id⟩ := r
  unfold finishUpdate readKeysForUpdate updateResult
  rw [if_neg hmode, Prog.bind_assoc, Prog.bind_of_ok (Prog.attempt_of_ok hkeys), ← hid]
  cases id with
  | ok id => rfl
  | error e =>
    dsimp only
    rw [isLastInsertIDUnavailable_of_singleInt64 hid.symm]
    rfl

theorem finishUpdate_of_fail {keys : GeneratedKeysMode} (hmode : keys.mode ≠ generatedKeysNone)
    (reply : Int × Bool) {s s' : Session σ} {e : Err} (hkeys : readGeneratedKeys s = .fail e s')
    : if isLastInsertIDUnavailable e then
        ∃ a, finishUpdate keys reply s = .ok a { s' with autoCommit := reply.2 }
      else
        finishUpdate keys reply s = .fail e s' := by
  unfold finishUpdate readKeysForUpdate
  rw [if_neg hmode, Prog.bind_assoc, Prog.bind_of_ok (Prog.attempt_of_fail hkeys)]
  dsimp only
  split
  . exact ⟨_, rfl⟩
  . rfl

theorem finishUpdate_of_panic {keys : GeneratedKeysMode} (hmode : keys.mode ≠ generatedKeysNone)
    (reply : Int × Bool) {s : Session σ} (hkeys : (readGeneratedKeys s).state? = none)
    : (finishUpdate keys reply s).state? = none := by
  unfold finishUpdate readKeysForUpdate
  rw [if_neg hmode, Prog.bind_assoc, Prog.bind_run]
  cases hrun : readGeneratedKeys s with
  | ok | fail =>
    rw [hrun] at hkeys
    cases hkeys
  | panic | stuck =>
    unfold Prog.attempt
    rw [hrun]
    rfl

/--
The update is not turned down before anything is written.
-/
def CanUpdate (s : Session σ) (cmd : PreparedCommand) (params : List Value) : Prop :=
  s.trNil = false ∧ cmd.isQuery = false ∧ cmd.paramCount = params.length

instance (s : Session σ) (cmd : PreparedCommand) (params : List Value)
    : Decidable (s.CanUpdate cmd params) :=
  inferInstanceAs (Decidable (_ ∧ _))

theorem executeUpdate_eq (ctx : Ctx) {cmd : PreparedCommand} {params : List Value} {s : Session σ}
    (h : s.CanUpdate cmd params)
    : executeUpdatePreparedWithParams ctx cmd params s
        = withContext ctx (sendUpdate ctx cmd params >>= fun keys =>
            io Tr.readUpdateReply >>= fun reply => finishUpdate keys reply) s := by
  obtain ⟨hopen, hquery, hcount⟩ := h
  unfold executeUpdatePreparedWithParams
  rw [ifOpen_of_open hopen, if_neg (by simp [hquery]), if_neg (by simp [hcount])]
  unfold sendUpdate finishUpdate
  simp only [Prog.bind_assoc, Prog.pure_bind]

theorem executeUpdate_refused {ctx : Ctx} {cmd : PreparedCommand} {params : List Value}
    {s s1 : Session σ} (hcan : s.CanUpdate cmd params) {keys : GeneratedKeysMode}
    (hsend : sendUpdate ctx cmd params s = .ok keys s1) (hopen : s1.trNil = false)
    (hmode : keys.mode ≠ generatedKeysNone) {updateCount : Int} {autoCommit : Bool}
    {reply refused rest : List UInt8} (hinp : s1.tr.inp = reply ++ (refused ++ rest))
    (hreply : Frame (Tr.readUpdateReply : Prog Err (Tr σ) _) (updateCount, autoCommit) reply)
    {r : Option H2Error} (hrefused : Tr.KeysRefused σ s1.version r refused)
    (hspares : ctx.spares (s1.clock + 1) r = true)
    : ∃ e, executeUpdatePreparedWithParams ctx cmd params s = .fail e { s1 with
        tr := Input.move (reply ++ refused) rest s1.tr, clock := s1.clock + 1 } := by
  have hread := io_of_ok hopen (hreply.exact s1.tr (refused ++ rest) hinp)
  obtain ⟨e, hrefusal, hkeys⟩ := readKeysForUpdate_refused hmode
    (s := s1.setTr (Input.move reply (refused ++ rest) s1.tr)) hopen hrefused rfl
  have hbody : (sendUpdate ctx cmd params >>= fun keys => io Tr.readUpdateReply >>= fun reply =>
      finishUpdate keys reply) s
        = .fail e (s1.setTr (Input.move (reply ++ refused) rest s1.tr)) := by
    rw [Prog.bind_run, hsend, Out.andThen_ok, Prog.bind_run, hread, Out.andThen_ok]
    unfold finishUpdate
    rw [Prog.bind_run, hkeys, Out.andThen_fail, setTr_setTr, setTr_tr, Input.move_move]
  obtain ⟨e', hfinal⟩ := finalizeContext_of_refusal ctx hrefusal
    { s1.setTr (Input.move (reply ++ refused) rest s1.tr) with clock := s1.clock + 1 }
  refine ⟨e', ?_⟩
  rw [executeUpdate_eq ctx hcan, withContext_of_fail hbody]
  rw [if_pos (by exact hspares)] at hfinal
  exact hfinal

omit [GoStd] [Peer σ] in
theorem steady_autoCommit (b : Bool)
    : Steady (fun s : Session σ => s.dead = false → s.autoCommit = b) where
  setTr _ h := h
  abort _ h := by cases h
  setClock _ h := h
  setNextID _ h := h

omit [GoStd] [Peer σ] in
theorem steady_dead : Steady (fun s : Session σ => s.dead = true) where
  setTr _ h := h
  abort _ := rfl
  setClock _ h := h
  setNextID _ h := h

omit [GoStd] in
def requestAutoCommit (ctx : Ctx) (autoCommit : Bool) : Prog Err (Session σ) Unit := do
  checkContext ctx
  io (Tr.sendAutoCommit autoCommit)
  io (Prog.mapErr (wrapError "Session.setAutoCommit") Tr.readStatus)

omit [GoStd] in
theorem setAutoCommit_eq (ctx : Ctx) (autoCommit : Bool) {s : Session σ} (h : s.trNil = false)
    : setAutoCommit ctx autoCommit s
        = withContext ctx (requestAutoCommit ctx autoCommit >>= fun _ =>
            Prog.modify (fun s => { s with autoCommit := autoCommit })) s := by
  unfold setAutoCommit
  rw [ifOpen_of_open h]
  unfold requestAutoCommit
  simp only [Prog.bind_assoc]

end Session

end H2Go
