import H2Go.Session.Exchange
import H2Go.Session.Open

/-!
This module contains the autocommit flag of the session next to what the server has told about it.
The flag follows every reply but one: an update that is told a new state and then fails on its
generated keys in a way the session survives.
-/

namespace H2Go

variable {σ : Type} {α : Type}

/--
The calls on a session and on the rows it has returned. `finish` is the deferred `finalizeContext` of
a call that is made of others, and `tick` the time that passes when such a call succeeds.
-/
inductive Operation where
  | prepareCommand (ctx : Ctx) (sql : GoString)
  | prepareCommandReadParams (ctx : Ctx) (sql : GoString)
  | closeCommand (cmd : PreparedCommand)
  | hasPendingTransaction (ctx : Ctx)
  | setAutoCommit (ctx : Ctx) (autoCommit : Bool)
  | commitCurrentTransaction (ctx : Ctx)
  | executeUpdate (ctx : Ctx) (cmd : PreparedCommand) (params : List Value)
  | executeQuery (ctx : Ctx) (cmd : PreparedCommand) (maxRows fetchSize : Int) (params : List Value)
    (ownsCommand : Bool)
  | next (rows : Rows) (dest : List Value)
  | closeRows (rows : Rows)
  | finish (ctx : Ctx) (err : Err)
  | tick
  | abort
  | close

namespace Operation

variable [GoStd] [Peer σ]

def after (op : Operation) (s : Session σ) : Option (Session σ) :=
  match op with
  | .prepareCommand ctx sql => (Session.prepareCommand ctx sql s).state?
  | .prepareCommandReadParams ctx sql => (Session.prepareCommandReadParams ctx sql s).state?
  | .closeCommand cmd => (Session.closeCommand cmd s).state?
  | .hasPendingTransaction ctx => (Session.hasPendingTransaction ctx s).state?
  | .setAutoCommit ctx autoCommit => (Session.setAutoCommit ctx autoCommit s).state?
  | .commitCurrentTransaction ctx => (Session.commitCurrentTransaction ctx s).state?
  | .executeUpdate ctx cmd params => (Session.executeUpdatePreparedWithParams ctx cmd params s).state?
  | .executeQuery ctx cmd maxRows fetchSize params ownsCommand =>
    (Session.executeQueryWire ctx cmd maxRows fetchSize params ownsCommand s).state?
  | .next rows dest => (Cursor.next dest ⟨rows, s⟩).state?.map Cursor.session
  | .closeRows rows => (Cursor.close ⟨rows, s⟩).state?.map Cursor.session
  | .finish ctx err => (Session.withContext ctx (Prog.throw err : Prog Err (Session σ) Unit) s).state?
  | .tick => (Session.tick s).state?
  | .abort => some s.abort
  | .close => (Session.close s).state?

/--
What the server tells about its autocommit state during the call: the flag in the reply to an update,
and the acknowledgement of `SESSION_SET_AUTOCOMMIT`.
-/
def told (op : Operation) (s : Session σ) : Option Bool :=
  match op with
  | .setAutoCommit ctx autoCommit =>
    if s.trNil then
      none
    else
      match Session.requestAutoCommit ctx autoCommit s with
      | .ok _ _ => some autoCommit
      | _ => none
  | .executeUpdate ctx cmd params =>
    if s.CanUpdate cmd params then
      match (Session.sendUpdate ctx cmd params >>= fun _ => Session.io Tr.readUpdateReply) s with
      | .ok reply _ => some reply.2
      | _ => none
    else
      none
  | _ => none

/--
The update gets the new autocommit state and generated keys that are refused, and the session stays
alive.
-/
def Loses (op : Operation) (s : Session σ) : Prop :=
  match op with
  | .executeUpdate ctx cmd params =>
    s.CanUpdate cmd params ∧ ∃ keys s1 updateCount autoCommit reply r refused rest,
      Session.sendUpdate ctx cmd params s = .ok keys s1 ∧
      s1.tr.inp = reply ++ (refused ++ rest) ∧
      Frame (Tr.readUpdateReply : Prog Err (Tr σ) _) (updateCount, autoCommit) reply ∧
      keys.mode ≠ generatedKeysNone ∧ Tr.KeysRefused σ s1.version r refused ∧
      ctx.spares (s1.clock + 1) r = true ∧ autoCommit ≠ s.autoCommit
  | _ => False

end Operation

/--
A session, and the last autocommit state that the server has told.
-/
structure Mirror (σ : Type) where
  session : Session σ
  told : Bool

namespace Mirror

def Faithful (m : Mirror σ) : Prop := m.session.dead = false → m.session.autoCommit = m.told

def opened (t : Tr σ) (cfg : Config) (version : Int) (autoCommit : Bool) : Mirror σ :=
  { session := Session.opened t cfg version autoCommit, told := autoCommit }

variable [GoStd] [Peer σ]

def step (op : Operation) (m m' : Mirror σ) : Prop :=
  op.after m.session = some m'.session ∧ m'.told = (op.told m.session).getD m.told

omit [GoStd] [Peer σ] in
theorem faithful_of_keeps {p : Prog Err (Session σ) α} {m m' : Mirror σ} (hm : m.Faithful)
    (h : Keeps (fun s : Session σ => s.dead = false → s.autoCommit = m.told) p)
    (hstep : (p m.session).state? = some m'.session ∧ m'.told = m.told)
    : m'.Faithful := by
  unfold Faithful
  rw [hstep.2]
  exact h.of_state hm hstep.1

omit [GoStd] [Peer σ] in
theorem faithful_of_keeps_rows {p : Prog Err (Cursor σ) α} {m m' : Mirror σ} (hm : m.Faithful)
    (h : Keeps (fun c : Cursor σ => c.session.dead = false → c.session.autoCommit = m.told) p)
    {rows : Rows}
    (hstep : (p ⟨rows, m.session⟩).state?.map Cursor.session = some m'.session ∧ m'.told = m.told)
    : m'.Faithful := by
  obtain ⟨c, hc, hsession⟩ := Option.map_eq_some_iff.mp hstep.1
  unfold Faithful
  rw [hstep.2, ← hsession]
  exact h.of_state (by exact hm) hc

omit [GoStd] [Peer σ] in
theorem faithful_of_fail {p : Prog Err (Session σ) α} {ctx : Ctx} {m m' : Mirror σ} {e : Err}
    {s1 : Session σ} (hm : s1.dead = false → s1.autoCommit = m.told) (hrun : p m.session = .fail e s1)
    (hafter : (Session.withContext ctx p m.session).state? = some m'.session)
    (htold : m'.told = m.told)
    : m'.Faithful := by
  have hsteady := Session.steady_autoCommit (σ := σ) m.told
  rw [Session.withContext_of_fail hrun] at hafter
  unfold Faithful
  rw [htold]
  exact (hsteady.finalizeContext ctx e).of_state (by exact hm) hafter

theorem faithful_setAutoCommit {ctx : Ctx} {autoCommit : Bool} {m m' : Mirror σ} (hm : m.Faithful)
    (hstep : step (.setAutoCommit ctx autoCommit) m m')
    : m'.Faithful := by
  have hsteady := Session.steady_autoCommit (σ := σ) m.told
  obtain ⟨hafter, htold⟩ := hstep
  unfold Operation.after at hafter
  unfold Operation.told at htold
  dsimp only at hafter htold
  cases hnil : m.session.trNil with
  | true =>
    rw [hnil, if_pos rfl] at htold
    rw [Session.setAutoCommit, Session.ifOpen_of_trNil hnil] at hafter
    exact faithful_of_keeps hm (Keeps.throw (α := Unit) .badConn) ⟨hafter, htold⟩
  | false =>
    rw [hnil, if_neg Bool.false_ne_true] at htold
    rw [Session.setAutoCommit_eq ctx autoCommit hnil] at hafter
    have hkeeps : Keeps (fun s : Session σ => s.dead = false → s.autoCommit = m.told)
        (Session.requestAutoCommit ctx autoCommit) :=
      Keeps.bind (Session.Quiet.checkContext ctx)
        (fun _ => Keeps.bind (hsteady.io _) (fun _ => hsteady.io _))
    cases hrun : Session.requestAutoCommit ctx autoCommit m.session with
    | ok _ s1 =>
      rw [hrun] at htold
      rw [Session.withContext_of_ok (by rw [Prog.bind_run, hrun]; rfl)] at hafter
      unfold Faithful
      rw [htold, ← Option.some.inj hafter]
      exact fun _ => rfl
    | fail e s1 =>
      rw [hrun] at htold
      exact faithful_of_fail (hkeeps.of_fail hm hrun) (by rw [Prog.bind_run, hrun]; rfl) hafter htold
    | panic | stuck =>
      rw [Session.withContext_of_panic (by rw [Prog.bind_run, hrun]; rfl)] at hafter
      cases hafter

theorem faithful_of_turned_down {ctx : Ctx} {cmd : PreparedCommand} {params : List Value}
    {m m' : Mirror σ} (hm : m.Faithful) (hcan : ¬ m.session.CanUpdate cmd params)
    (hafter : (Session.executeUpdatePreparedWithParams ctx cmd params m.session).state?
      = some m'.session) (htold : m'.told = m.told)
    : m'.Faithful := by
  have hsteady := Session.steady_autoCommit (σ := σ) m.told
  unfold Session.executeUpdatePreparedWithParams at hafter
  cases hnil : m.session.trNil with
  | true =>
    rw [Session.ifOpen_of_trNil hnil] at hafter
    exact faithful_of_keeps hm (Keeps.throw (α := Unit) .badConn) ⟨hafter, htold⟩
  | false =>
    rw [Session.ifOpen_of_open hnil] at hafter
    split at hafter
    . exact faithful_of_keeps hm (Keeps.throw (α := Unit) .badConn) ⟨hafter, htold⟩
    . next hquery =>
      have hcount : cmd.paramCount ≠ params.length := by
        intro hcount
        exact hcan ⟨hnil, by simpa using hquery, hcount⟩
      rw [if_pos hcount] at hafter
      exact faithful_of_keeps hm (hsteady.withContext ctx (Keeps.throw _)) ⟨hafter, htold⟩

/--
The part of an update after the flag has been read: it is stored, or the session ends, or the flag
was known before.
-/
theorem faithful_of_reply {ctx : Ctx} {cmd : PreparedCommand} {params : List Value}
    {m m' : Mirror σ} (hm : m.Faithful)
    (hkept : ¬ (Operation.executeUpdate ctx cmd params).Loses m.session)
    (hcan : m.session.CanUpdate cmd params) {keys : GeneratedKeysMode} {t t2 : Tr σ}
    (hsend : Session.sendUpdate ctx cmd params m.session = .ok keys (m.session.setTr t))
    {reply : Int × Bool} (hread : Tr.readUpdateReply t = .ok reply t2)
    (hafter : (Session.withContext ctx (Session.sendUpdate ctx cmd params >>= fun keys =>
      Session.io Tr.readUpdateReply >>= fun reply => Session.finishUpdate keys reply)
        m.session).state? = some m'.session) (htold : m'.told = reply.2)
    : m'.Faithful := by
  have hsteady := Session.steady_autoCommit (σ := σ) m.told
  have hopen : (m.session.setTr t).trNil = false := hcan.1
  have hnext := (Prog.bind_of_ok hsend (fun keys => Session.io Tr.readUpdateReply >>= fun reply =>
    Session.finishUpdate keys reply)).trans (Prog.bind_of_ok (Session.io_of_ok hopen hread) _)
  rw [Session.setTr_setTr] at hnext
  obtain ⟨head, rest, hinp, rfl, hframe⟩ := LawfulReader.ok_run hread
  cases hkeys : Session.readKeysForUpdate keys.mode (m.session.setTr (Input.move head rest t)) with
  | panic | stuck =>
    rw [Session.withContext_of_panic (by rw [hnext, Session.finishUpdate, Prog.bind_run, hkeys]; rfl)]
      at hafter
    cases hafter
  | ok k s3 =>
    have hbody := hnext.trans (Prog.bind_of_ok hkeys _)
    rw [Session.withContext_of_ok hbody] at hafter
    unfold Faithful
    rw [htold, ← Option.some.inj hafter]
    exact fun _ => rfl
  | fail e s3 =>
    have hbody := hnext.trans (Prog.bind_of_fail hkeys _)
    have hs3 := (hsteady.readKeysForUpdate keys.mode).of_fail (by exact hm) hkeys
    rw [Session.withContext_of_fail hbody] at hafter
    cases hdead : s3.dead with
    | true =>
      have hdead' := (Session.steady_dead.finalizeContext ctx e).of_state (by exact hdead) hafter
      intro halive
      rw [hdead'] at halive
      cases halive
    | false =>
      obtain ⟨hmode, r, refused, hrefusal, hrefused, hinp'⟩ :=
        Session.refused_of_readKeysForUpdate (by exact hopen) hkeys hdead
      obtain ⟨e', hfinal⟩ := Session.finalizeContext_of_refusal ctx hrefusal
        { s3 with clock := s3.clock + 1 }
      obtain ⟨e2, -, hrun⟩ := Session.readKeysForUpdate_refused hmode (by exact hopen) hrefused hinp'
      have hclock : s3.clock = m.session.clock := by
        rw [hkeys] at hrun
        rw [(Out.fail.inj hrun).2]
        rfl
      rw [hfinal] at hafter
      cases hspares : ctx.spares (s3.clock + 1) r with
      | false =>
        rw [if_neg (by simp [hspares])] at hafter
        rw [Faithful, ← Option.some.inj hafter]
        rintro ⟨⟩
      | true =>
        rw [if_pos (by exact hspares)] at hafter
        rw [hclock] at hspares
        have hflag : reply.2 = m.session.autoCommit := by
          by_contra hne
          exact hkept ⟨hcan, keys, m.session.setTr t, reply.1, reply.2, head, r, refused, s3.tr.inp,
            hsend, by rw [← hinp']; exact hinp, hframe, hmode, hrefused, hspares, hne⟩
        rw [Faithful, ← Option.some.inj hafter, htold, hflag, hm (m.session.dead_eq.trans hcan.1)]
        exact hs3

theorem faithful_executeUpdate {ctx : Ctx} {cmd : PreparedCommand} {params : List Value}
    {m m' : Mirror σ} (hm : m.Faithful)
    (hkept : ¬ (Operation.executeUpdate ctx cmd params).Loses m.session)
    (hstep : step (.executeUpdate ctx cmd params) m m')
    : m'.Faithful := by
  have hsteady := Session.steady_autoCommit (σ := σ) m.told
  obtain ⟨hafter, htold⟩ := hstep
  unfold Operation.after at hafter
  unfold Operation.told at htold
  dsimp only at hafter htold
  by_cases hcan : m.session.CanUpdate cmd params
  case neg =>
    rw [if_neg hcan] at htold
    exact faithful_of_turned_down hm hcan hafter htold
  rw [if_pos hcan, Prog.bind_run] at htold
  rw [Session.executeUpdate_eq ctx hcan] at hafter
  cases hsend : Session.sendUpdate ctx cmd params m.session with
  | panic | stuck =>
    rw [Session.withContext_of_panic (by rw [Prog.bind_run, hsend]; rfl)] at hafter
    cases hafter
  | fail e s1 =>
    obtain ⟨t, rfl⟩ := (Session.keeps_sendUpdate m.session ctx cmd params).of_fail ⟨_, rfl⟩ hsend
    rw [hsend] at htold
    exact faithful_of_fail (by exact hm) (Prog.bind_of_fail hsend _) hafter htold
  | ok keys s1 =>
    obtain ⟨t, rfl⟩ := (Session.keeps_sendUpdate m.session ctx cmd params).of_ok ⟨_, rfl⟩ hsend
    rw [hsend, Out.andThen_ok] at htold
    have hnext := Prog.bind_of_ok hsend (fun keys => Session.io Tr.readUpdateReply >>= fun reply =>
      Session.finishUpdate keys reply)
    cases hread : Session.io Tr.readUpdateReply (m.session.setTr t) with
    | panic | stuck =>
      rw [Session.withContext_of_panic (by rw [hnext, Prog.bind_run, hread]; rfl)] at hafter
      cases hafter
    | fail e s2 =>
      obtain ⟨t2, rfl⟩ := (Session.keeps_io m.session _).of_fail ⟨t, rfl⟩ hread
      rw [hread] at htold
      exact faithful_of_fail (by exact hm) (hnext.trans (Prog.bind_of_fail hread _)) hafter htold
    | ok reply s2 =>
      rw [hread] at htold
      rw [Session.io_run (by exact hcan.1)] at hread
      obtain ⟨t2, hread, -⟩ := Out.map_eq_ok hread
      exact faithful_of_reply hm hkept hcan hsend hread hafter htold

theorem step_iff_executeUpdate (ctx : Ctx) (cmd : PreparedCommand) (params : List Value)
    {m : Mirror σ} (hm : m.Faithful)
    : ¬ (Operation.executeUpdate ctx cmd params).Loses m.session ↔
        ∀ m', step (.executeUpdate ctx cmd params) m m' → m'.Faithful := by
  refine ⟨fun hkept m' hstep => faithful_executeUpdate hm hkept hstep, ?_⟩
  rintro hall ⟨hcan, keys, s1, updateCount, autoCommit, reply, r, refused, rest, hsend, hinp, hreply,
    hmode, hrefused, hspares, hne⟩
  obtain ⟨t, rfl⟩ := (Session.keeps_sendUpdate m.session ctx cmd params).of_ok ⟨_, rfl⟩ hsend
  obtain ⟨e, hrun⟩ := Session.executeUpdate_refused hcan hsend hcan.1 hmode hinp hreply hrefused
    hspares
  have hread := Session.io_of_ok (s := m.session.setTr t) hcan.1
    (hreply.exact t (refused ++ rest) hinp)
  have hfaithful := hall ⟨_, autoCommit⟩ ⟨by rw [Operation.after, hrun]; rfl, by
    rw [Operation.told, if_pos hcan, Prog.bind_run, hsend, Out.andThen_ok, hread]
    rfl⟩
  refine hne (hfaithful ?_).symm
  exact m.session.dead_eq.trans hcan.1

theorem step_iff (op : Operation) (m : Mirror σ) (hm : m.Faithful)
    : ¬ op.Loses m.session ↔ ∀ m', step op m m' → m'.Faithful := by
  have hsteady := Session.steady_autoCommit (σ := σ) m.told
  cases op with
  | executeUpdate ctx cmd params => exact step_iff_executeUpdate ctx cmd params hm
  | setAutoCommit ctx b => exact iff_of_true id (fun _ => faithful_setAutoCommit hm)
  | prepareCommand ctx sql =>
    exact iff_of_true id (fun _ => faithful_of_keeps hm (hsteady.prepareCommand ctx sql))
  | prepareCommandReadParams ctx sql =>
    exact iff_of_true id (fun _ => faithful_of_keeps hm (hsteady.prepareCommandReadParams ctx sql))
  | closeCommand cmd =>
    exact iff_of_true id (fun _ => faithful_of_keeps hm (hsteady.closeCommand cmd))
  | hasPendingTransaction ctx =>
    exact iff_of_true id (fun _ => faithful_of_keeps hm (hsteady.hasPendingTransaction ctx))
  | commitCurrentTransaction ctx =>
    exact iff_of_true id (fun _ => faithful_of_keeps hm (hsteady.commitCurrentTransaction ctx))
  | executeQuery ctx cmd maxRows fetchSize params ownsCommand =>
    exact iff_of_true id (fun _ => faithful_of_keeps hm (hsteady.executeQueryWire ctx cmd _ _ _ _))
  | next rows dest =>
    exact iff_of_true id (fun _ => faithful_of_keeps_rows hm (hsteady.next dest))
  | closeRows rows => exact iff_of_true id (fun _ => faithful_of_keeps_rows hm hsteady.closeRows)
  | finish ctx err =>
    exact iff_of_true id (fun _ => faithful_of_keeps hm
      (hsteady.withContext ctx (Keeps.throw (α := Unit) err)))
  | tick => exact iff_of_true id (fun _ => faithful_of_keeps hm hsteady.tick)
  | abort => exact iff_of_true id (fun _ => faithful_of_keeps hm hsteady.markStreamBroken)
  | close => exact iff_of_true id (fun _ => faithful_of_keeps hm hsteady.close)

theorem autoCommit_mirrored_iff (t : Tr σ) (cfg : Config) (version : Int) (autoCommit : Bool)
    (ops : List Operation)
    : Run.Always step Faithful ops (opened t cfg version autoCommit) ↔
        Run.Each step (fun op m => ¬ op.Loses m.session) ops (opened t cfg version autoCommit) :=
  Run.always_iff_each step_iff ops (fun _ => rfl)

/-! The calls that are made of others are runs of them. -/

def Reaches (m : Mirror σ) (s' : Session σ) : Prop :=
  ∃ ops m', Run.Path step ops m m' ∧ m'.session = s'

theorem Reaches.trans {m : Mirror σ} {s' s'' : Session σ} (h : m.Reaches s')
    (h' : ∀ m' : Mirror σ, m'.session = s' → m'.Reaches s'')
    : m.Reaches s'' := by
  obtain ⟨ops, m', hpath, hsession⟩ := h
  obtain ⟨ops', m'', hpath', hsession'⟩ := h' m' hsession
  exact ⟨ops ++ ops', m'', hpath.append hpath', hsession'⟩

def IsRun (p : Prog Err (Session σ) α) : Prop :=
  ∀ (m : Mirror σ) (s' : Session σ), (p m.session).state? = some s' → m.Reaches s'

namespace IsRun

variable {β : Type}

theorem of_state {p : Prog Err (Session σ) α} (h : ∀ s, (p s).state? = some s) : IsRun p := by
  intro m s' hs'
  rw [h] at hs'
  exact ⟨[], m, .nil m, Option.some.inj hs'⟩

theorem of_after {p : Prog Err (Session σ) α} (op : Operation) (h : ∀ s, op.after s = (p s).state?)
    : IsRun p := by
  intro m s' hs'
  exact ⟨[op], ⟨s', _⟩, .single ⟨(h m.session).trans hs', rfl⟩, rfl⟩

theorem bind {p : Prog Err (Session σ) α} {f : α → Prog Err (Session σ) β} (hp : IsRun p)
    (hf : ∀ a, IsRun (f a))
    : IsRun (p >>= f) := by
  intro m s' hs'
  rw [Prog.bind_run] at hs'
  cases hrun : p m.session with
  | ok a s1 =>
    rw [hrun, Out.andThen_ok] at hs'
    refine (hp m s1 (by rw [hrun]; rfl)).trans ?_
    rintro m' rfl
    exact hf a m' s' hs'
  | fail e s1 =>
    rw [hrun, Out.andThen_fail] at hs'
    exact hp m s' (by rw [hrun]; exact hs')
  | panic | stuck =>
    rw [hrun] at hs'
    cases hs'

theorem mapErr {p : Prog Err (Session σ) α} (g : Err → Err) (hp : IsRun p)
    : IsRun (Prog.mapErr g p) := by
  intro m s' hs'
  apply hp m s'
  rw [Prog.mapErr_run] at hs'
  cases hrun : p m.session with
  | ok | fail | panic | stuck =>
    rw [hrun] at hs'
    exact hs'

theorem attempt {p : Prog Err (Session σ) α} (hp : IsRun p)
    : IsRun (Prog.attempt p : Prog Err (Session σ) _) := by
  intro m s' hs'
  apply hp m s'
  unfold Prog.attempt at hs'
  cases hrun : p m.session with
  | ok | fail | panic | stuck =>
    rw [hrun] at hs'
    exact hs'

theorem ite {c : Prop} [Decidable c] {p q : Prog Err (Session σ) α} (hp : IsRun p) (hq : IsRun q)
    : IsRun (if c then p else q) := by
  split
  . exact hp
  . exact hq

theorem withContext (ctx : Ctx) {p : Prog Err (Session σ) α} (hp : IsRun p)
    : IsRun (Session.withContext ctx p) := by
  apply bind hp.attempt
  intro r
  cases r with
  | ok a => exact of_after .tick (fun _ => rfl)
  | error e =>
    apply of_after (.finish ctx e)
    intro s
    exact Session.finalizeContext_state ctx e { s with clock := s.clock + 1 }

theorem ifOpen (e : Err) {p : Prog Err (Session σ) α} (hp : IsRun p) : IsRun (Session.ifOpen e p) :=
  bind (of_state (fun _ => rfl)) (fun _ => ite (of_state (fun _ => rfl)) hp)

theorem checkContext (ctx : Ctx) : IsRun (Session.checkContext ctx : Prog Err (Session σ) _) := by
  apply bind (of_state (fun _ => rfl))
  intro s
  split
  . exact of_state (fun _ => rfl)
  . exact of_state (fun _ => rfl)

theorem executeAndClose (ctx : Ctx) (cmd : PreparedCommand) (params : List Value)
    : IsRun (Session.executeAndClose ctx cmd params : Prog Err (Session σ) _) := by
  apply bind (attempt (of_after (.executeUpdate ctx cmd params) (fun _ => rfl)))
  intro r
  apply bind (attempt (of_after (.closeCommand cmd) (fun _ => rfl)))
  intro _
  cases r with
  | ok res => exact of_state (fun _ => rfl)
  | error e => exact of_state (fun _ => rfl)

theorem executeUpdate (ctx : Ctx) (sql : GoString)
    : IsRun (Session.executeUpdate ctx sql : Prog Err (Session σ) _) :=
  bind (of_after (.prepareCommand ctx sql) (fun _ => rfl)) (fun cmd => executeAndClose ctx cmd [])

theorem executeUpdateWithParams (ctx : Ctx) (sql : GoString) (params : List Value)
    : IsRun (Session.executeUpdateWithParams ctx sql params : Prog Err (Session σ) _) :=
  bind (of_after (.prepareCommandReadParams ctx sql) (fun _ => rfl))
    (fun cmd => executeAndClose ctx cmd params)

theorem rollbackCurrentTransaction (ctx : Ctx)
    : IsRun (Session.rollbackCurrentTransaction ctx : Prog Err (Session σ) _) := by
  apply ifOpen
  apply withContext
  apply bind (checkContext ctx)
  intro _
  exact bind (mapErr _ (executeUpdate ctx _)) (fun _ => of_state (fun _ => rfl))

theorem setTransactionIsolation (ctx : Ctx) (sqlLevel : GoString)
    : IsRun (Session.setTransactionIsolation ctx sqlLevel : Prog Err (Session σ) _) := by
  apply ifOpen
  apply withContext
  apply bind (checkContext ctx)
  intro _
  exact bind (mapErr _ (executeUpdate ctx _)) (fun _ => of_state (fun _ => rfl))

end IsRun

end Mirror

section

open StandIn

/--
The reply to an update that turns autocommit off, its generated keys have an error in place of their
only row.
-/
def staleReply : List UInt8 :=
  [0, 0, 0, 1, 0, 0, 0, 0, 0, 0, 0, 0, 0] ++ [0, 0, 0, 0, 0, 0, 0, 0, 0, 0, 0, 1] ++
    [255, 255, 255, 255, 255, 255, 255, 255, 255, 255, 255, 255, 255, 0, 0, 0, 50, 255, 255, 255, 255]

def staleUpdate : Operation :=
  .executeUpdate .background
    { id := 1, sql := [], isQuery := false, readOnly := false, cmdType := cmdUnknown, paramCount := 0,
      params := [] } []

def staleSession : Mirror Silent :=
  Mirror.opened (Tr.ofBytes staleReply)
    { generatedKeysModeSet := false, generatedKeysMode := 0, generatedKeysColumns := [],
      generatedKeysColumnNames := [] } tcpProtocolVersion21 true

theorem staleUpdate_run
    : (staleUpdate.after staleSession.session).map (fun s => (s.dead, s.autoCommit))
        = some (false, true) ∧ staleUpdate.told staleSession.session = some false := by
  decide +kernel

/--
The server has said that autocommit is off, and the session is alive with the flag on.
-/
theorem autoCommit_stale : ¬ Run.Always Mirror.step Mirror.Faithful [staleUpdate] staleSession := by
  obtain ⟨hafter, htold⟩ := staleUpdate_run
  obtain ⟨s, hs, hflags⟩ := Option.map_eq_some_iff.mp hafter
  simp only [Prod.mk.injEq] at hflags
  intro hall
  have hfaithful : Mirror.Faithful ⟨s, false⟩ := hall.2 ⟨s, false⟩ ⟨hs, by rw [htold]; rfl⟩
  have := hfaithful hflags.1
  rw [hflags.2] at this
  cases this

end

end H2Go
