import H2Go.Rows.Splice
import H2Go.Session.Exchange
import H2Go.Value.Chunks

/-!
This module contains the end of a reply: which replies a call reads to their last byte or gives the
session up for, and which it leaves half read on a session that stays alive.
-/

namespace H2Go

open BigEndian

variable {σ : Type} {α β : Type}

/--
A call that returns has given up the session, or it has read the reply to its last byte and returns
its value or the error of the server in it. For a statement that was canceled that error is replaced
by the one of the context.
-/
def ReplyAligned (ctx : Ctx) (o : Out Err (Session σ) α) : Prop :=
  o.Holds True (fun _ s => s.dead = true ∨ s.tr.inp = [])
    (fun e s => s.dead = true ∨ s.tr.inp = [] ∧ (e.asH2.isSome = true ∨ ctx.err s.clock = some e))

/--
The reply is exactly what `m` reads, or exactly an error of the server.
-/
def ReplyComplete (m : Prog Err (Tr σ) α) (reply : List UInt8) : Prop :=
  (∃ a, Frame m a reply) ∨ ∃ h, Tr.ErrorReply σ h reply

/--
The context ends the session. It has fired, and the reply makes the call fail with another error than
that the statement was canceled. Or it has not fired although its deadline has passed, and the
transport times out on a reply that is cut short.
-/
def Ctx.Ends (ctx : Ctx) (now : Nat) (m : Prog Err (Tr σ) α) (t : Tr σ) : Prop :=
  ctx.err now ≠ none ∧ (∀ a b rest, t.inp = b ++ rest → ¬ Frame m a b) ∧
      (∀ h b rest, t.inp = b ++ rest → Tr.ErrorReply σ h b → h.code ≠ errorCodeStatementWasCanceled) ∨
    ctx.deadlinePassed now = true ∧ t.readFault = .timeout ∧ Tr.ReadsOn m t.inp

namespace Session

theorem aligned_of_dead {ctx : Ctx} {p : Prog Err (Session σ) α} {s s' : Session σ} {e : Err}
    (hrun : p s = .fail e s') (hdead : s'.dead = true)
    : ReplyAligned ctx (withContext ctx p s) := by
  rw [withContext_of_fail hrun]
  have h := steady_dead.finalizeContext (α := α) ctx e { s' with clock := s'.clock + 1 } hdead
  unfold ReplyAligned
  exact h.imp (fun _ _ h => .inl h) (fun _ _ h => .inl h)

theorem aligned_of_h2 {ctx : Ctx} {p : Prog Err (Session σ) α} {s s' : Session σ} {e : Err}
    {h : H2Error} (hrun : p s = .fail e s') (he : e.asH2 = some h) (htime : e.isTimeout = false)
    (halive : s'.dead = false)
    : ReplyAligned ctx (withContext ctx p s) ↔
        s'.tr.inp = [] ∨ ctx.err (s'.clock + 1) ≠ none ∧ h.code ≠ errorCodeStatementWasCanceled := by
  rw [withContext_of_fail hrun]
  unfold ReplyAligned finalizeContext statementWasCanceled markStreamBroken
  rw [Prog.bind_run, Prog.get_run, Out.andThen_ok]
  cases hctx : ctx.err (s'.clock + 1) with
  | none => simp [halive, he, htime]
  | some ctxErr =>
    by_cases hcode : h.code = errorCodeStatementWasCanceled
    . simp [he, hcode, halive, hctx]
    . simp [he, hcode, abort]

theorem aligned_of_plain {ctx : Ctx} {p : Prog Err (Session σ) α} {s s' : Session σ} {e : Err}
    (hrun : p s = .fail e s') (he : e.asH2 = none) (halive : s'.dead = false)
    : ReplyAligned ctx (withContext ctx p s) ↔
        ctx.err (s'.clock + 1) ≠ none ∨
          ctx.deadlinePassed (s'.clock + 1) = true ∧ e.isTimeout = true := by
  rw [withContext_of_fail hrun]
  unfold ReplyAligned finalizeContext statementWasCanceled markStreamBroken
  rw [Prog.bind_run, Prog.get_run, Out.andThen_ok]
  cases hctx : ctx.err (s'.clock + 1) with
  | none =>
    by_cases hlate : ctx.deadlinePassed (s'.clock + 1) = true ∧ e.isTimeout = true
    . simp [hlate, abort]
    . simp [hlate, halive, he, hctx]
  | some ctxErr => simp [he, abort]

theorem aligned_of_ok {ctx : Ctx} {p : Prog Err (Session σ) α} {s s' : Session σ} {a : α}
    (hrun : p s = .ok a s') (halive : s'.dead = false)
    : ReplyAligned ctx (withContext ctx p s) ↔ s'.tr.inp = [] := by
  rw [withContext_of_ok hrun]
  simp [ReplyAligned, halive]

end Session

namespace StatusReader

variable {m : Prog Err (Tr σ) α}

theorem not_readsOn_of_frame {t : Tr σ} {a : α} {b rest : List UInt8} (hinp : t.inp = b ++ rest)
    (hframe : Frame m a b)
    : ¬ Tr.ReadsOn m t.inp := by
  intro hon
  have hend := hon (Input.move [] (t.inp ++ [0]) t) 0 rfl
  rw [hframe.exact _ (rest ++ [0]) (by simp [Input.move, Input.inp, hinp])] at hend
  exact absurd hend (by simp [Input.move])

theorem not_readsOn_of_error (hm : StatusReader m) {t : Tr σ} {h : H2Error} {b rest : List UInt8}
    (hinp : t.inp = b ++ rest) (hreply : Tr.ErrorReply σ h b)
    : ¬ Tr.ReadsOn m t.inp := by
  intro hon
  have hend := hon (Input.move [] (t.inp ++ [0]) t) 0 rfl
  have hnext : (Input.move [] (t.inp ++ [0]) t).inp = b ++ (rest ++ [0]) := by simp [Input.move, hinp]
  rw [hm.error hreply hnext] at hend
  exact absurd hend (by simp [Input.move])

theorem complete_of_ok (hm : StatusReader m) {t : Tr σ} {a : α} {b rest : List UInt8}
    (hinp : t.inp = b ++ rest) (hframe : Frame m a b) {ctx : Ctx} {now : Nat}
    : ReplyComplete m t.inp ∨ ctx.Ends now m t ↔ rest = [] := by
  have hrun := hframe.exact t rest hinp
  constructor
  . rintro ((⟨a', hframe'⟩ | ⟨h, hreply⟩) | ⟨-, hnone, -⟩ | ⟨-, -, hon⟩)
    . have hrun' := hframe'.exact t [] (List.append_nil _).symm
      rw [hrun] at hrun'
      have hinp := congrArg (fun o : Out Err (Tr σ) α => o.state?.map Tr.inp) hrun'
      simpa [Out.state?, Input.move] using hinp
    . have hrun' := hm.error hreply (List.append_nil _).symm
      rw [hrun] at hrun'
      cases hrun'
    . exact absurd hframe (hnone a b rest hinp)
    . exact absurd hon (not_readsOn_of_frame hinp hframe)
  . rintro rfl
    rw [List.append_nil] at hinp
    exact .inl (.inl ⟨a, by rw [hinp]; exact hframe⟩)

theorem complete_of_error (hm : StatusReader m) {t : Tr σ} {h : H2Error} {b rest : List UInt8}
    (hinp : t.inp = b ++ rest) (hreply : Tr.ErrorReply σ h b) {ctx : Ctx} {now : Nat}
    : ReplyComplete m t.inp ∨ ctx.Ends now m t ↔
        rest = [] ∨ ctx.err now ≠ none ∧ h.code ≠ errorCodeStatementWasCanceled := by
  have hrun := hm.error hreply hinp
  constructor
  . rintro ((⟨a', hframe'⟩ | ⟨h', hreply'⟩) | ⟨hctx, -, hcode⟩ | ⟨-, -, hon⟩)
    . exact absurd hframe' (Frame.not_of_fail hrun (List.append_nil _).symm)
    . have hrun' := hm.error hreply' (List.append_nil _).symm
      rw [hrun] at hrun'
      have hinp := congrArg (fun o : Out Err (Tr σ) α => o.state?.map Tr.inp) hrun'
      exact .inl (by simpa [Out.state?, Input.move] using hinp)
    . exact .inr ⟨hctx, hcode h b rest hinp hreply⟩
    . exact absurd hon (hm.not_readsOn_of_error hinp hreply)
  . rintro (rfl | ⟨hctx, hcode⟩)
    . rw [List.append_nil] at hinp
      exact .inl (.inr ⟨h, by rw [hinp]; exact hreply⟩)
    . refine .inr (.inl ⟨hctx, ?_, ?_⟩)
      . exact fun a b' rest' hinp' => Frame.not_of_fail hrun hinp'
      . intro h' b' rest' hinp' hreply'
        rw [hm.error hreply' hinp', Out.fail.injEq, Err.h2.injEq] at hrun
        rw [hrun.1]
        exact hcode

theorem complete_of_plain (hm : StatusReader m) {t t' : Tr σ} {e : Err} (hrun : m t = .fail e t')
    (he : e.asH2 = none) {ctx : Ctx} {now : Nat}
    : ReplyComplete m t.inp ∨ ctx.Ends now m t ↔
        ctx.err now ≠ none ∨ ctx.deadlinePassed now = true ∧ e.isTimeout = true := by
  have := hm.cut
  have hframe : ∀ a b rest, t.inp = b ++ rest → ¬ Frame m a b :=
    fun a b rest hinp => Frame.not_of_fail hrun hinp
  have herror : ∀ h b rest, t.inp = b ++ rest → ¬ Tr.ErrorReply σ h b := by
    intro h b rest hinp hreply
    rw [hm.error hreply hinp] at hrun
    cases hrun
    cases he
  constructor
  . rintro ((⟨a, hframe'⟩ | ⟨h, hreply⟩) | ⟨hctx, -⟩ | ⟨hlate, hshort⟩)
    . exact absurd hframe' (hframe a _ [] (List.append_nil _).symm)
    . exact absurd hreply (herror h _ [] (List.append_nil _).symm)
    . exact .inl hctx
    . exact .inr ⟨hlate, (Tr.CutReader.isTimeout_iff hrun).mpr hshort⟩
  . rintro (hctx | ⟨hlate, htime⟩)
    . exact .inr (.inl ⟨hctx, hframe, fun h b rest hinp hreply => absurd hreply (herror h b rest hinp)⟩)
    . exact .inr (.inr ⟨hlate, (Tr.CutReader.isTimeout_iff hrun).mp htime⟩)

end StatusReader

namespace StatusReader

theorem readPrepared (cmdID : Int) (sql : GoString)
    : StatusReader (Tr.readPrepared cmdID sql : Prog Err (Tr σ) _) := by
  apply (StatusReader.readStatus "PrepareCommand").bind
  intro _ N
  apply Progress.seq (progress_wrapErr _ _ Tr.progress_readBool)
  intro _ _
  apply Progress.seq (progress_wrapErr _ _ Tr.progress_readBool)
  intro _ _
  apply Progress.seq (progress_wrapErr _ _ Tr.progress_readInt32)
  intro _ _
  exact Progress.pure True.intro

instance (i : Nat) : Tr.CutReader (Tr.readParameterMeta i : Prog Err (Tr σ) _) := by
  unfold Tr.readParameterMeta
  infer_instance

instance (paramCount : Int) : Tr.CutReader (Tr.readParameters paramCount : Prog Err (Tr σ) _) := by
  unfold Tr.readParameters
  infer_instance

theorem progress_readParameters {N : Nat} (paramCount : Int)
    : Progress N (Tr.readParameters paramCount : Prog Err (Tr σ) _) 0 (fun _ => True) Err.Plain := by
  apply Progress.ite (fun _ => Progress.throw (Err.plain_errorf _ _))
  intro hneg
  apply Progress.ite (fun _ => Progress.throw (Err.plain_errorf _ _))
  intro hcap
  apply Progress.seq (Progress.make ⟨by omega, by omega⟩)
  intro _ _
  apply Progress.iter (fun _ _ => True) _ _ _ True.intro
  intro i params _ _ _
  apply Progress.seq (R := fun _ => True)
  . apply Progress.seq (progress_wrapErr _ _ Tr.progress_readTypeInfo)
    intro _ _
    apply Progress.seq (progress_wrapErr _ _ Tr.progress_readInt32)
    intro _ _
    exact Progress.pure True.intro
  . intro _ _
    exact Progress.pure True.intro

theorem readPreparedParams (cmdID : Int) (sql : GoString)
    : StatusReader (Tr.readPreparedParams cmdID sql : Prog Err (Tr σ) _) := by
  apply (StatusReader.readStatus "PrepareCommandReadParams").bind
  intro _ N
  apply Progress.seq (progress_wrapErr _ _ Tr.progress_readBool)
  intro _ _
  apply Progress.seq (progress_wrapErr _ _ Tr.progress_readBool)
  intro _ _
  apply Progress.seq (progress_wrapErr _ _ Tr.progress_readInt32)
  intro _ _
  apply Progress.seq (progress_wrapErr _ _ Tr.progress_readInt32)
  intro paramCount _
  apply Progress.seq (progress_readParameters paramCount)
  intro _ _
  exact Progress.pure True.intro

theorem readPending : StatusReader (Tr.readPending : Prog Err (Tr σ) _) := by
  apply (StatusReader.readStatus "Session.hasPendingTransaction").bind
  intro _ N
  apply Progress.seq (progress_wrapErr _ _ Tr.progress_readInt32)
  intro _ _
  exact Progress.pure True.intro

theorem readUpdateReply : StatusReader (Tr.readUpdateReply : Prog Err (Tr σ) _) := by
  apply (StatusReader.readStatus "ExecuteUpdatePreparedWithParams").bind
  intro _ N
  apply Progress.seq (progress_wrapError _ (by exact Tr.progress_readInt64))
  intro _ _
  apply Progress.seq (progress_wrapError _ Tr.progress_readBool)
  intro _ _
  exact Progress.pure True.intro

theorem readQueryHeader : StatusReader (Session.readQueryHeader : Prog Err (Tr σ) _) := by
  apply (StatusReader.readStatus "executeQueryWire").bind
  intro _ N
  exact (progress_wrapErr _ _ Tr.progress_readInt32).weaken (Nat.zero_le _) (fun _ _ => True.intro)
    (fun _ h => h)

end StatusReader

namespace Session

theorem reply_exact {m : Prog Err (Tr σ) α} (hm : StatusReader m)
    {f : α → Prog Err (Session σ) β}
    (hf : ∀ a s, ∃ b s', f a s = .ok b s' ∧ s'.tr = s.tr ∧ s'.dead = s.dead)
    {p : Prog Err (Session σ) β} {s s1 : Session σ} (hp : p s = (io m >>= f) s1)
    (hopen : s1.trNil = false) (ctx : Ctx)
    : ReplyComplete m s1.tr.inp ∨ ctx.Ends (s1.clock + 1) m s1.tr ↔
        ReplyAligned ctx (withContext ctx p s) := by
  have halive : s1.dead = false := s1.dead_eq.trans hopen
  rcases hm.cases s1.tr with ⟨a, b, rest, hinp, hframe, hrun⟩ | ⟨h, b, rest, hinp, hreply, hrun⟩ |
    ⟨e, t', hrun, he⟩
  . obtain ⟨c, s2, hfin, htr, hdead⟩ := hf a (s1.setTr (Input.move b rest s1.tr))
    rw [Prog.bind_of_ok (io_of_ok hopen hrun), hfin] at hp
    rw [hm.complete_of_ok hinp hframe, aligned_of_ok hp (by rw [hdead]; exact halive), htr]
    rfl
  . rw [Prog.bind_of_fail (io_of_fail hopen hrun)] at hp
    rw [hm.complete_of_error hinp hreply, aligned_of_h2 hp rfl rfl halive]
    rfl
  . rw [Prog.bind_of_fail (io_of_fail hopen hrun)] at hp
    rw [hm.complete_of_plain hrun he, aligned_of_plain hp he halive]
    rfl

end Session

section

variable [GoStd] [Peer σ]

def fillIn (pending : List PendingLob) (contents : List (List UInt8)) (rows : List (List Value))
    : List (List Value) :=
  match pending, contents with
  | p :: pending, content :: contents =>
    fillIn pending contents (rows.set p.row ((rows[p.row]?.getD []).set p.col (p.value content)))
  | _, _ => rows

omit [GoStd] [Peer σ] in
theorem fillIn_cons {p : PendingLob} (pending : List PendingLob) (content : List UInt8)
    (contents : List (List UInt8)) {rows : List (List Value)} {row : List Value}
    (h : rows[p.row]? = some row)
    : fillIn (p :: pending) (content :: contents) rows
        = fillIn pending contents (rows.set p.row (row.set p.col (p.value content))) := by
  rw [fillIn, h, Option.getD_some]

/--
The bytes of a generated keys frame with the columns `columns` and the rows `rows`, of which there are
no more than the driver takes.
-/
inductive Tr.KeysAccepted (σ : Type) [GoStd] [Peer σ] (version : Int)
    : List GoString → List (List Cell) → List UInt8 → Prop where
  | mk {columnCount rowCount : Int} {m : ResultMeta} {rows : List (List Cell)} {ended : Bool}
    {b1 b2 b3 : List UInt8}
    (hcolumns : Frame (readInt32 : Prog Err (Tr σ) _) columnCount b1)
    (hrows : Frame (readRowCount : Prog Err (Tr σ) _) rowCount b2)
    (hcap : rowCount ≤ maxWireCollectionElements)
    (hmeta : Frame (readResultMeta columnCount version : Prog Err (Tr σ) _) m b3)
    (hsent : ∀ cells ∈ rows, RowSent σ m cells) (hcomplete : KeysComplete rowCount rows ended)
    : KeysAccepted σ version (m.columns.map ResultColumn.columnAlias) rows
        (b1 ++ (b2 ++ (b3 ++ batchBytes rows ended)))

/--
The server sends the generated keys `gkr` next: their frame, and then the LOBs that are deferred in it
in answer to the requests for them. `t'` is the stream behind its last reply.
-/
inductive Tr.SendsKeys (version : Int) (t : Tr σ) : GeneratedKeysResult → Tr σ → Prop where
  | mk {columns : List GoString} {rows : List (List Cell)} {used rest : List UInt8}
    {contents : List (List UInt8)} {t' : Tr σ} (hinp : t.inp = used ++ rest)
    (haccepted : KeysAccepted σ version columns rows used)
    (hlobs : DeliversAll (placeholders (batchValues 0 rows)) (Input.move used rest t) contents t')
    : SendsKeys version t
        { columns, rows := fillIn (placeholders (batchValues 0 rows)) contents (batchValues 0 rows) } t'

namespace Session

/--
What follows the autocommit flag in the reply to an update: nothing when no generated keys were asked
for, an error in place of a row at the very end, or keys with nothing behind them. What is not a
generated keys frame at all ends the session.
-/
def KeysAligned (ctx : Ctx) (mode : Int) (s : Session σ) : Prop :=
  if mode = generatedKeysNone then
    s.tr.inp = []
  else
    (∀ r used rest, s.tr.inp = used ++ rest → Tr.KeysRefused σ s.version r used →
      r.isSome = true ∧ rest = [] ∨
        ctx.err (s.clock + 1) ≠ none ∧ ∀ h, r = some h → h.code ≠ errorCodeStatementWasCanceled) ∧
    ∀ gkr t', Tr.SendsKeys s.version s.tr gkr t' → t'.inp = []

omit [GoStd] [Peer σ] in
theorem orBreak_ok_iff {s : Session σ} (hopen : s.trNil = false) {m : Prog Err (Tr σ) α} {a : α}
    {s' : Session σ}
    : orBreak m s = .ok a s' ↔ ∃ t, m s.tr = .ok a t ∧ s' = s.setTr t := by
  rw [orBreak_run hopen]
  cases m s.tr with
  | ok a' t => simp [eq_comm]
  | fail | panic | stuck => simp

omit [GoStd] [Peer σ] in
theorem wrapErr_ok_iff {format : String} {args : List FmtArg} {m : Prog Err (Tr σ) α} {a : α}
    {t t' : Tr σ}
    : wrapErr format args m t = .ok a t' ↔ m t = .ok a t' := by
  rw [wrapErr, Prog.mapErr_run]
  cases m t <;> simp

omit [GoStd] in
theorem resolveGeneratedKeyLobs_ok_iff {pending : List PendingLob} {rows : List (List Value)}
    (hpending : ∀ p ∈ pending, Addresses rows p) {s : Session σ} (hopen : s.trNil = false)
    (rows' : List (List Value)) (s' : Session σ)
    : resolveGeneratedKeyLobs pending rows s = .ok rows' s' ↔
        ∃ contents t', Tr.DeliversAll pending s.tr contents t' ∧ rows' = fillIn pending contents rows ∧
          s' = s.setTr t' := by
  induction pending generalizing rows s with
  | nil =>
    constructor
    . intro h
      cases h
      exact ⟨[], _, .nil _, rfl, rfl⟩
    . rintro ⟨_, _, h, rfl, rfl⟩
      cases h
      rfl
  | cons p pending ih =>
    obtain ⟨row, hrow, hcol⟩ := hpending p List.mem_cons_self
    have hrest : ∀ v, ∀ q ∈ pending, Addresses (rows.set p.row (row.set p.col v)) q :=
      fun v q hq => (hpending q (List.mem_cons_of_mem p hq)).set hrow v
    unfold resolveGeneratedKeyLobs
    constructor
    . intro h
      obtain ⟨v, s1, hbreak, h⟩ := Prog.bind_eq_ok h
      obtain ⟨t, hfetch, rfl⟩ := (orBreak_ok_iff hopen).mp hbreak
      obtain ⟨hlength, content, hdelivers, rfl⟩ :=
        (Tr.fetchLob_ok_iff p v s.tr t).mp (wrapErr_ok_iff.mp hfetch)
      rw [Prog.bind_of_ok (Tr.spliceLob_run hrow hcol _ _)] at h
      obtain ⟨contents, t', hall, rfl, rfl⟩ := (ih (hrest _) (by exact hopen)).mp h
      exact ⟨content :: contents, t', .cons hlength hdelivers hall,
        (fillIn_cons pending content contents hrow).symm, rfl⟩
    . rintro ⟨_, t', hall, rfl, rfl⟩
      cases hall with
      | @cons _ _ _ t1 _ content contents hlength hdelivers hall =>
        have hfetch := (Tr.fetchLob_ok_iff p _ s.tr t1).mpr ⟨hlength, content, hdelivers, rfl⟩
        rw [Prog.bind_of_ok ((orBreak_ok_iff hopen).mpr ⟨t1, wrapErr_ok_iff.mpr hfetch, rfl⟩),
          Prog.bind_of_ok (Tr.spliceLob_run hrow hcol _ _)]
        exact (ih (hrest _) (by exact hopen)).mpr ⟨contents, t', hall,
          fillIn_cons pending content contents hrow, rfl⟩

theorem readGeneratedKeys_accepted {s : Session σ} (hopen : s.trNil = false)
    {columns : List GoString} {rows : List (List Cell)} {used rest : List UInt8}
    (h : Tr.KeysAccepted σ s.version columns rows used) (hinp : s.tr.inp = used ++ rest)
    : (∀ p ∈ placeholders (batchValues 0 rows), Addresses (batchValues 0 rows) p) ∧
      readGeneratedKeys s
        = (resolveGeneratedKeyLobs (placeholders (batchValues 0 rows)) (batchValues 0 rows) >>=
            fun rows => pure (⟨columns, rows⟩, GeneratedKeysResult.singleInt64 ⟨columns, rows⟩))
            (s.setTr (Input.move used rest s.tr)) := by
  cases h with
  | @mk columnCount rowCount m _ ended b1 b2 b3 hcolumns hrows hcap hmeta hsent hcomplete =>
    obtain ⟨rfl, hm⟩ := Progress.of_frame hmeta s.tr
      (Tr.progress_readResultMeta columnCount s.version)
    simp only [List.append_assoc] at hinp
    obtain ⟨lc, hbatch, hgrown⟩ := Tr.readGeneratedKeyBatch_run hm hcap hsent hcomplete
      (t := Input.move (b1 ++ (b2 ++ b3)) (batchBytes rows ended ++ rest) s.tr) rfl
    have hpending : lc.pending = placeholders (batchValues 0 rows) := hgrown.pending_eq
    refine ⟨fun p hp => (hgrown.of_mem_pending (hpending ▸ hp)).2,
      (readGeneratedKeys_of_frames hopen hcolumns hrows hcap hmeta hinp).trans ?_⟩
    unfold readGeneratedKeysRows
    rw [Prog.bind_run, orBreakUnlessAligned_run (by exact hopen), setTr_tr, hbatch, Out.andThen_ok]
    dsimp only
    rw [hpending, setTr_setTr, Input.move_move]
    simp only [List.append_assoc]

theorem accepted_of_readGeneratedKeys {s s' : Session σ} (hopen : s.trNil = false)
    {r : GeneratedKeysResult × Except Err Int} (hrun : readGeneratedKeys s = .ok r s')
    : ∃ columns rows used rest, s.tr.inp = used ++ rest ∧
        Tr.KeysAccepted σ s.version columns rows used := by
  rcases readGeneratedKeys_cases hopen with ⟨e', s1, hrun', -⟩ | ⟨columnCount, rowCount, b1,
    b2, rest, hinp, hcolumns, hrows, hcap | ⟨hcap, m, b3, rest', rfl, rfl, hm, hmeta⟩⟩
  . rw [hrun] at hrun'
    cases hrun'
  . rw [readGeneratedKeys_overCap hopen hcolumns hrows hcap hinp] at hrun
    cases hrun
  . rw [readGeneratedKeys_of_frames hopen hcolumns hrows hcap hmeta hinp] at hrun
    obtain ⟨b, s1, hbatch, -⟩ := Prog.bind_eq_ok hrun
    rw [orBreakUnlessAligned_run (by exact hopen)] at hbatch
    split at hbatch
    . next t hread =>
      obtain ⟨rows, ended, hsent, hcomplete, hinp', -⟩ :=
        Tr.batch_of_readGeneratedKeyBatch hm hcap hread
      refine ⟨_, rows, _, t.inp, ?_, .mk hcolumns hrows hcap hmeta hsent hcomplete⟩
      rw [hinp, show rest' = _ from hinp']
      simp only [List.append_assoc]
    all_goals cases hbatch

theorem readGeneratedKeys_ok_iff {s s' : Session σ} (hopen : s.trNil = false)
    {r : GeneratedKeysResult × Except Err Int}
    : readGeneratedKeys s = .ok r s' ↔ ∃ gkr t', Tr.SendsKeys s.version s.tr gkr t' ∧
        r = (gkr, gkr.singleInt64) ∧ s' = s.setTr t' := by
  constructor
  . intro hkeys
    obtain ⟨columns, rows, used, rest, hinp, haccepted⟩ := accepted_of_readGeneratedKeys hopen hkeys
    obtain ⟨haddr, hrun⟩ := readGeneratedKeys_accepted hopen haccepted hinp
    obtain ⟨rows', s1, hresolve, hpure⟩ := Prog.bind_eq_ok (hrun.symm.trans hkeys)
    obtain ⟨contents, t', hlobs, rfl, rfl⟩ :=
      (resolveGeneratedKeyLobs_ok_iff haddr (by exact hopen) _ _).mp hresolve
    cases hpure
    exact ⟨_, t', .mk hinp haccepted hlobs, rfl, rfl⟩
  . rintro ⟨gkr, t', ⟨hinp, haccepted, hlobs⟩, rfl, rfl⟩
    obtain ⟨haddr, hrun⟩ := readGeneratedKeys_accepted hopen haccepted hinp
    have hresolve := (resolveGeneratedKeyLobs_ok_iff haddr
      (s := s.setTr _) (by exact hopen) _ _).mpr ⟨_, t', hlobs, rfl, rfl⟩
    exact hrun.trans (Prog.bind_of_ok hresolve _)

theorem keysAligned_of_ok {s s' : Session σ} (hopen : s.trNil = false)
    {r : GeneratedKeysResult × Except Err Int} (hkeys : readGeneratedKeys s = .ok r s') (ctx : Ctx)
    {mode : Int} (hmode : mode ≠ generatedKeysNone)
    : KeysAligned ctx mode s ↔ s'.tr.inp = [] := by
  unfold KeysAligned
  rw [if_neg hmode]
  obtain ⟨gkr, t', hsends, -, rfl⟩ := (readGeneratedKeys_ok_iff hopen).mp hkeys
  constructor
  . intro haligned
    exact haligned.2 gkr t' hsends
  . intro hdone
    constructor
    . intro r used rest hinp hrefused
      obtain ⟨e, -, hfail⟩ := readGeneratedKeys_refused hopen hrefused hinp
      rw [hkeys] at hfail
      cases hfail
    . intro gkr' t'' hsends'
      have hok := (readGeneratedKeys_ok_iff hopen).mpr ⟨gkr', t'', hsends', rfl, rfl⟩
      rw [hkeys, Out.ok.injEq] at hok
      have htr : t' = t'' := congrArg Session.tr hok.2
      rw [← htr]
      exact hdone

theorem keysAligned_of_broken {s : Session σ} (hopen : s.trNil = false)
    (hok : ∀ r s', readGeneratedKeys s ≠ .ok r s')
    (hfail : ∀ e s', readGeneratedKeys s = .fail e s' → s'.dead = true) (ctx : Ctx)
    {mode : Int} (hmode : mode ≠ generatedKeysNone)
    : KeysAligned ctx mode s := by
  unfold KeysAligned
  rw [if_neg hmode]
  constructor
  . intro r used rest hinp hrefused
    obtain ⟨e, -, hrun⟩ := readGeneratedKeys_refused hopen hrefused hinp
    have hdead := hfail e _ hrun
    rw [show (s.setTr (Input.move used rest s.tr)).dead = false from s.dead_eq.trans hopen] at hdead
    cases hdead
  . intro gkr t' hsends
    exact absurd ((readGeneratedKeys_ok_iff hopen).mpr ⟨gkr, t', hsends, rfl, rfl⟩) (hok _ _)

theorem keysAligned_of_refused {s : Session σ} (hopen : s.trNil = false) {r : Option H2Error}
    {used rest : List UInt8} (hrefused : Tr.KeysRefused σ s.version r used)
    (hinp : s.tr.inp = used ++ rest) (ctx : Ctx) {mode : Int} (hmode : mode ≠ generatedKeysNone)
    : KeysAligned ctx mode s ↔
        r.isSome = true ∧ rest = [] ∨
          ctx.err (s.clock + 1) ≠ none ∧ ∀ h, r = some h → h.code ≠ errorCodeStatementWasCanceled := by
  obtain ⟨e, hrefusal, hrun⟩ := readGeneratedKeys_refused hopen hrefused hinp
  unfold KeysAligned
  rw [if_neg hmode]
  constructor
  . intro haligned
    exact haligned.1 r used rest hinp hrefused
  . intro hend
    constructor
    . intro r' used' rest' hinp' hrefused'
      obtain ⟨e', hrefusal', hrun'⟩ := readGeneratedKeys_refused hopen hrefused' hinp'
      rw [hrun, Out.fail.injEq] at hrun'
      obtain ⟨rfl, hstate⟩ := hrun'
      have hr : r' = r := by rw [← hrefusal.1, ← hrefusal'.1]
      have hrest : rest = rest' := congrArg (fun s : Session σ => s.tr.inp) hstate
      rw [hr, ← hrest]
      exact hend
    . intro gkr t' hsends
      have hok := (readGeneratedKeys_ok_iff hopen).mpr ⟨gkr, t', hsends, rfl, rfl⟩
      rw [hrun] at hok
      cases hok

/--
Generated keys that are refused on an aligned stream, `e` is the error of the update then.
-/
theorem keys_exact_of_refused {ctx : Ctx} {mode : Int} {e : Err} {s s1 s2 : Session σ} {α : Type}
    {p : Prog Err (Session σ) α} (hopen : s1.trNil = false) (hmode : mode ≠ generatedKeysNone)
    (hkeys : readGeneratedKeys s1 = .fail e s2) (hdead : s2.dead = false)
    (hp : isLastInsertIDUnavailable e = false → p s = .fail e s2)
    : KeysAligned ctx mode s1 ↔ ReplyAligned ctx (withContext ctx p s) := by
  obtain ⟨r, used, hrefusal, hrefused, hinp⟩ := refused_of_readGeneratedKeys hopen hkeys hdead
  obtain ⟨e', -, hrun⟩ := readGeneratedKeys_refused hopen hrefused hinp
  rw [hkeys, Out.fail.injEq] at hrun
  have hclock : s2.clock = s1.clock := by
    rw [hrun.2]
    rfl
  have hfail := hp hrefusal.2.2
  rw [keysAligned_of_refused hopen hrefused hinp ctx hmode, ← hclock]
  cases r with
  | some h =>
    rw [aligned_of_h2 hfail hrefusal.1 hrefusal.2.1 hdead]
    simp
  | none =>
    rw [aligned_of_plain hfail hrefusal.1 hdead, hrefusal.2.1]
    simp

theorem keys_exact {keys : GeneratedKeysMode} {reply : Int × Bool} {s s1 : Session σ}
    {p : Prog Err (Session σ) ResultWithUpdateCount} (hp : p s = finishUpdate keys reply s1)
    (hopen : s1.trNil = false) (ctx : Ctx)
    : KeysAligned ctx keys.mode s1 ↔ ReplyAligned ctx (withContext ctx p s) := by
  have halive : s1.dead = false := s1.dead_eq.trans hopen
  by_cases hmode : keys.mode = generatedKeysNone
  . obtain ⟨a, hrun⟩ : ∃ a, p s = .ok a { s1 with autoCommit := reply.2 } := by
      rw [hp, finishUpdate, readKeysForUpdate, if_pos hmode, Prog.pure_bind]
      exact ⟨_, rfl⟩
    unfold KeysAligned
    rw [if_pos hmode]
    exact (aligned_of_ok hrun halive).symm
  cases hkeys : readGeneratedKeys s1 with
  | panic | stuck =>
    have hnone : (withContext ctx p s).state? = none := withContext_of_panic
      (by rw [hp]; exact finishUpdate_of_panic hmode reply (by rw [hkeys]; rfl))
    have hbroken := keysAligned_of_broken hopen (by simp [hkeys]) (by simp [hkeys]) ctx hmode
    exact iff_of_true hbroken (Out.holds_of_state hnone)
  | ok r s2 =>
    have hfinish := finishUpdate_of_ok hmode reply hkeys
    have hs2 : s2.dead = false := by
      obtain ⟨gkr, t', -, -, rfl⟩ := (readGeneratedKeys_ok_iff hopen).mp hkeys
      exact halive
    rw [← hp] at hfinish
    exact (keysAligned_of_ok hopen hkeys ctx hmode).trans (aligned_of_ok hfinish hs2).symm
  | fail e s2 =>
    have hfinish := finishUpdate_of_fail hmode reply hkeys
    rw [← hp] at hfinish
    cases hdead : s2.dead with
    | true =>
      have hbroken := keysAligned_of_broken hopen (by simp [hkeys])
        (by simp only [hkeys, Out.fail.injEq]; rintro _ _ ⟨-, rfl⟩; exact hdead) ctx hmode
      refine iff_of_true hbroken ?_
      split at hfinish
      . obtain ⟨a, hrun⟩ := hfinish
        rw [withContext_of_ok hrun]
        exact .inl hdead
      . exact aligned_of_dead hfinish hdead
    | false =>
      apply keys_exact_of_refused hopen hmode hkeys hdead
      intro havailable
      rwa [havailable, if_neg Bool.false_ne_true] at hfinish

/--
The reply to an update is an error of the server, or it ends with its generated keys.
-/
def UpdateAligned (ctx : Ctx) (mode : Int) (s : Session σ) : Prop :=
  (∃ h, Tr.ErrorReply σ h s.tr.inp) ∨
    ctx.Ends (s.clock + 1) (Tr.readUpdateReply : Prog Err (Tr σ) _) s.tr ∨
    ∃ reply head rest, s.tr.inp = head ++ rest ∧
      Frame (Tr.readUpdateReply : Prog Err (Tr σ) _) reply head ∧
      KeysAligned ctx mode (s.setTr (Input.move head rest s.tr))

theorem updateAligned_of_not_frame {ctx : Ctx} {mode : Int} {s : Session σ}
    (h : ∀ reply head rest, s.tr.inp = head ++ rest →
      ¬ Frame (Tr.readUpdateReply : Prog Err (Tr σ) _) reply head)
    : UpdateAligned ctx mode s ↔
        ReplyComplete (Tr.readUpdateReply : Prog Err (Tr σ) _) s.tr.inp ∨
          ctx.Ends (s.clock + 1) (Tr.readUpdateReply : Prog Err (Tr σ) _) s.tr := by
  constructor
  . rintro (hreply | hends | ⟨reply, head, rest, hinp, hframe, -⟩)
    . exact .inl (.inr hreply)
    . exact .inr hends
    . exact absurd hframe (h reply head rest hinp)
  . rintro ((⟨reply, hframe⟩ | hreply) | hends)
    . exact absurd hframe (h reply _ [] (List.append_nil _).symm)
    . exact .inl hreply
    . exact .inr (.inl hends)

theorem update_exact {keys : GeneratedKeysMode} {s s1 : Session σ}
    {p : Prog Err (Session σ) ResultWithUpdateCount}
    (hp : p s = (io Tr.readUpdateReply >>= fun reply => finishUpdate keys reply) s1)
    (hopen : s1.trNil = false) (ctx : Ctx)
    : UpdateAligned ctx keys.mode s1 ↔ ReplyAligned ctx (withContext ctx p s) := by
  have halive : s1.dead = false := s1.dead_eq.trans hopen
  have hm := StatusReader.readUpdateReply (σ := σ)
  rcases hm.cases s1.tr with ⟨reply, head, rest, hinp, hframe, hrun⟩ |
    ⟨h, b, rest, hinp, hreply, hrun⟩ | ⟨e, t', hrun, he⟩
  . rw [Prog.bind_of_ok (io_of_ok hopen hrun)] at hp
    rw [← keys_exact hp (by exact hopen) ctx]
    constructor
    . rintro (⟨h, hreply⟩ | hends | ⟨reply', head', rest', hinp', hframe', haligned⟩)
      . rw [hm.error hreply (List.append_nil _).symm] at hrun
        cases hrun
      . rcases hends with ⟨-, hnone, -⟩ | ⟨-, -, hon⟩
        . exact absurd hframe (hnone reply head rest hinp)
        . exact absurd hon (StatusReader.not_readsOn_of_frame hinp hframe)
      . rw [hframe'.exact s1.tr rest' hinp', Out.ok.injEq] at hrun
        rw [← hrun.2]
        exact haligned
    . intro haligned
      exact .inr (.inr ⟨reply, head, rest, hinp, hframe, haligned⟩)
  . rw [Prog.bind_of_fail (io_of_fail hopen hrun)] at hp
    rw [updateAligned_of_not_frame, hm.complete_of_error hinp hreply, aligned_of_h2 hp rfl rfl halive]
    . rfl
    . exact fun reply head rest' hinp' => Frame.not_of_fail hrun hinp'
  . rw [Prog.bind_of_fail (io_of_fail hopen hrun)] at hp
    rw [updateAligned_of_not_frame, hm.complete_of_plain hrun he, aligned_of_plain hp he halive]
    . rfl
    . exact fun reply head rest' hinp' => Frame.not_of_fail hrun hinp'

end Session

end

end H2Go
