import H2Go.Conn.Handles
import H2Go.Lib.Preserve
import H2Go.Rows.FetchSize

/-!
This module contains what no step of any goroutine takes back: the record of the owners grows, closed
statements stay closed, finished transactions stay finished and rows at their end stay there.
-/

def Grows {α : Type} (R : α → α → Prop) (xs ys : List α) : Prop :=
  ∀ (i : Nat) (x : α), xs[i]? = some x → ∃ y, ys[i]? = some y ∧ R x y

namespace Grows

variable {α : Type} {R : α → α → Prop} {xs ys : List α}

theorem refl (h : ∀ x, R x x) (xs : List α) : Grows R xs xs := fun _ x hx => ⟨x, hx, h x⟩

theorem append (h : Grows R xs ys) (zs : List α) : Grows R xs (ys ++ zs) := by
  intro i x hx
  obtain ⟨y, hy, hr⟩ := h i x hx
  exact ⟨y, by rw [List.getElem?_append_left (List.getElem?_eq_some_iff.mp hy).1, hy], hr⟩

theorem set (h : Grows R xs ys) {i : Nat} {y y' : α} (hy : ys[i]? = some y)
    (hr : ∀ x, R x y → R x y')
    : Grows R xs (ys.set i y') := by
  intro j x hx
  obtain ⟨z, hz, hrz⟩ := h j x hx
  rcases Decidable.em (i = j) with rfl | hne
  . rw [hy] at hz
    cases hz
    exact ⟨y', by rw [List.getElem?_set_self (List.getElem?_eq_some_iff.mp hy).1], hr x hrz⟩
  . exact ⟨z, by rw [List.getElem?_set_ne hne, hz], hrz⟩

end Grows

namespace H2Go

variable {σ : Type} {α : Type}

namespace Rows

/--
There is no row left to hand out or to fetch for a destination of length `w`.
-/
def Spent (w : Nat) (r : Rows) : Prop :=
  r.closed = true ∨ r.err.isSome = true ∨ (w : Int) ≠ r.columnCount ∨
    r.bufferedRows = [] ∧ (Cursor.nextFetch r = none ∨ r.fetchSize ≤ 0)

/--
The batch that was asked for is not empty, or it was the last one.
-/
def Filled (r : Rows) : Prop := r.noMoreRows = true ∨ r.bufferedRows ≠ []

theorem nextFetch_of_noMoreRows {r : Rows} (h : r.noMoreRows = true) : Cursor.nextFetch r = none := by
  unfold Cursor.nextFetch
  rw [if_pos h, ite_self]

theorem fetchSize_of_nextFetch {r : Rows} {fetch : Int} (h : Cursor.nextFetch r = some fetch)
    (hfetch : fetch ≤ 0)
    : r.fetchSize ≤ 0 := by
  unfold Cursor.nextFetch at h
  grind

theorem nextFetch_le_fetchSize {r : Rows} {fetch : Int} (h : Cursor.nextFetch r = some fetch)
    : fetch ≤ r.fetchSize := by
  unfold Cursor.nextFetch at h
  grind

end Rows

theorem Session.orBreakUnlessAligned_readH2Error_ne_ok {s s' : Session σ} {a : α}
    : orBreakUnlessAligned Tr.readH2Error s ≠ .ok a s' := by
  cases hnil : s.trNil with
  | true => simp [orBreakUnlessAligned, Prog.onFail_run, io, hnil]
  | false =>
    rw [orBreakUnlessAligned_run hnil, Tr.readH2Error_run]
    cases Tr.readH2ErrorFrame s.tr <;> simp

namespace Cursor

theorem keeps_filled_onSession (m : Prog Err (Session σ) α)
    : Keeps (fun cur : Cursor σ => cur.rows.Filled) (onSession m) :=
  Keeps.zoom (fun _ _ hcur => hcur)

theorem filled_append (row : List Value) {P : Cursor σ → Prop}
    : Triple True P (modifyRows (Rows.append row)) (fun _ cur => cur.rows.Filled) (fun _ _ => True) :=
  Triple.modify (fun _ _ => .inr (by simp [Rows.append, Rows.setBuffer]))

theorem filled_endOfResult {P : Cursor σ → Prop}
    : Triple True P (modifyRows Rows.endOfResult) (fun _ cur => cur.rows.Filled) (fun _ _ => True) :=
  Triple.modify (fun _ _ => .inl rfl)

section Batch

variable [GoStd] [Peer σ]

theorem filled_fetchRowsLoop (fetch : Nat) (lc : LobCollector)
    : Triple True (fun cur : Cursor σ => cur.rows.Filled ∨ 0 < fetch) (fetchRowsLoop fetch lc)
        (fun _ cur => cur.rows.Filled) (fun _ _ => True) := by
  induction fetch generalizing lc with
  | zero => exact Triple.pure (fun _ h => h.resolve_right (Nat.lt_irrefl 0))
  | succ fetch ih =>
    apply Triple.bind Triple.trivial
    intro rowFlag
    apply Triple.ite
    . intro _
      apply Triple.bind Triple.trivial
      intro cur
      apply Triple.bind Triple.trivial
      intro r
      exact Triple.bind (filled_append r.1) (fun _ => (ih r.2).pre (fun _ h => .inl h))
    . intro _
      apply Triple.ite
      . exact fun _ => Triple.bind filled_endOfResult (fun _ => Triple.pure (fun _ h => h))
      . intro _
        apply Triple.ite
        . intro _ cur _
          -- an error frame in place of a row is no success
          rw [onSession_run]
          cases hrun : Session.orBreakUnlessAligned Tr.readH2Error cur.session with
          | ok => exact absurd hrun Session.orBreakUnlessAligned_readH2Error_ne_ok
          | fail | panic | stuck => trivial
        . exact fun _ => Triple.bind Triple.trivial (fun _ => Triple.throw (fun _ _ => True.intro))

omit [GoStd] in
theorem filled_resolveLobs (pending : List PendingLob)
    : Triple True (fun cur : Cursor σ => cur.rows.Filled) (resolveLobs pending)
        (fun _ cur => cur.rows.Filled) (fun _ _ => True) := by
  induction pending with
  | nil => exact Triple.pure (fun _ h => h)
  | cons p pending ih =>
    apply Triple.bind ((keeps_filled_onSession _).weaken (fun _ h => h) (fun _ _ h => h)
      (fun _ _ _ => True.intro))
    intro v
    apply Triple.get_bind
    intro cur hcur
    apply Triple.bind (triple_spliceLob cur.rows.bufferedRows p v)
    intro buf
    refine Triple.bind (Triple.modify ?_) (fun _ => ih)
    rintro _ ⟨hlen, rfl⟩
    refine hcur.imp_right (fun hne hbuf => hne ?_)
    rw [← List.length_eq_zero_iff, ← hlen, show buf = [] from hbuf]
    rfl

theorem empty_fetchNextBatch {fetch : Int} (h : fetch ≤ 0)
    : Triple True (fun cur : Cursor σ => cur.rows.bufferedRows = []) (fetchNextBatch fetch)
        (fun _ cur => cur.rows.bufferedRows = []) (fun _ _ => True) := by
  refine Triple.onFail (F := fun _ _ => True) ?_ (fun _ => Triple.trivial)
  apply Triple.get_bind
  intro cur hcur
  apply Triple.ite
  . exact fun _ => Triple.throw (fun _ _ => True.intro)
  . intro _
    refine Triple.onFail (F := fun _ _ => True) ?_ (fun _ => Triple.trivial)
    have hrequest : Keeps (fun cur : Cursor σ => cur.rows.bufferedRows = [])
        (onTr (requestRows cur.rows.resultID fetch)) := Keeps.zoom (fun _ _ h => h)
    apply Triple.bind (R := fun _ cur => cur.rows.bufferedRows = [])
    . exact hrequest.weaken (fun _ h => h ▸ hcur) (fun _ _ h => h) (fun _ _ _ => True.intro)
    . intro _ cur hcur
      rw [fetchRows_of_nonpos h]
      exact hcur

/--
A batch that was asked for at least one row is empty only at the end of the result.
-/
theorem filled_fetchNextBatch {fetch : Int} (h : 0 < fetch)
    : Triple True (fun _ : Cursor σ => True) (fetchNextBatch fetch) (fun _ cur => cur.rows.Filled)
        (fun _ _ => True) := by
  refine Triple.onFail (F := fun _ _ => True) ?_ (fun _ => Triple.trivial)
  apply Triple.get_bind
  intro cur _
  apply Triple.ite
  . exact fun _ => Triple.throw (fun _ _ => True.intro)
  . intro _
    refine Triple.onFail (F := fun _ _ => True) ?_ (fun _ => Triple.trivial)
    apply Triple.bind Triple.trivial
    intro _
    apply Triple.bind ((filled_fetchRowsLoop fetch.toNat .empty).pre (fun _ _ => .inr (by omega)))
    exact fun lc => filled_resolveLobs lc.pending

end Batch

section Spent

variable [GoStd] [Peer σ] {cur cur' : Cursor σ} {dest : List Value}

theorem next_ne_ok_of_spent (h : cur.rows.Spent dest.length) (row : List Value)
    : next dest cur ≠ .ok row cur' := by
  intro hok
  obtain ⟨hopen, herr, hdest, -⟩ := takeRow_of_next_ok hok
  rcases h with hclosed | hfailed | hwidth | ⟨hempty, hend⟩
  . rw [hopen] at hclosed
    cases hclosed
  . rw [herr] at hfailed
    cases hfailed
  . exact hwidth hdest
  . cases hfetch : nextFetch cur.rows with
    | none =>
      rw [next_of_done hopen herr hdest hempty hfetch] at hok
      cases hok
    | some fetch =>
      -- a request for no rows brings none
      have hnone : fetch ≤ 0 := by
        rcases hend with hend | hend
        . rw [hfetch] at hend
          cases hend
        . exact le_trans (Rows.nextFetch_le_fetchSize hfetch) hend
      rw [next_of_fetch hopen herr hdest hempty hfetch] at hok
      cases hbatch : fetchNextBatch fetch cur with
      | ok _ cur1 =>
        have hsame : cur1.rows.bufferedRows = [] :=
          (empty_fetchNextBatch hnone).of_ok hempty hbatch
        rw [hbatch, Out.andThen_ok, takeFetched_of_nil hsame] at hok
        cases hok
      | fail | panic | stuck =>
        rw [hbatch] at hok
        cases hok

theorem spent_of_next_fail {e : Err} (h : next dest cur = .fail e cur')
    : cur'.rows.Spent dest.length := by
  cases nextErr_of_fail h with
  | closed hclosed => exact .inl hclosed
  | sticky _ herr => exact .inr (.inl (by rw [herr]; rfl))
  | mismatch _ hwidth => exact .inr (.inr (.inl hwidth))
  | done _ _ _ hbuf hfetch => exact .inr (.inr (.inr ⟨hbuf, .inl hfetch⟩))
  | failed _ _ hfail =>
    obtain ⟨r', -, hrows, -⟩ := (triple_fetchNextBatch _).of_fail (Rows.Like.refl _) hfail
    exact .inr (.inl (by rw [hrows]; rfl))
  | @empty _ fetch _ _ _ hfetch hok hempty =>
    refine .inr (.inr (.inr ⟨hempty, ?_⟩))
    rcases Decidable.em (0 < fetch) with hpos | hnone
    . have hfilled := (filled_fetchNextBatch hpos).of_ok True.intro hok
      exact .inl (Rows.nextFetch_of_noMoreRows (hfilled.resolve_right (fun hne => hne hempty)))
    . obtain ⟨_, _, hlike⟩ := (triple_fetchNextBatch fetch).of_ok (Rows.Like.refl _) hok
      have hsize : cur'.rows.fetchSize = cur.rows.fetchSize := by rw [hlike]
      exact .inr (hsize ▸ Rows.fetchSize_of_nextFetch hfetch (not_lt.mp hnone))

theorem keeps_spent_next (w : Nat) (dest : List Value)
    : Keeps (fun cur : Cursor σ => cur.rows.Spent w) (next dest) := by
  intro cur hcur
  cases hrun : next dest cur with
  | ok row cur' =>
    rcases Decidable.em (w = dest.length) with rfl | hne
    . exact absurd hrun (next_ne_ok_of_spent hcur row)
    . -- rows are handed out for another length, the number of columns
      obtain ⟨-, -, hdest, htake | ⟨fetch, cur1, -, hbatch, htake⟩⟩ := takeRow_of_next_ok hrun
      . obtain ⟨_, _, -, -, rfl⟩ := advance_of_takeRow_ok htake
        exact .inr (.inr (.inl (fun hw => hne (by exact_mod_cast hw.trans hdest.symm))))
      . obtain ⟨_, _, hlike⟩ := (triple_fetchNextBatch fetch).of_ok (Rows.Like.refl _) hbatch
        obtain ⟨_, _, -, -, rfl⟩ := advance_of_takeRow_ok htake
        refine .inr (.inr (.inl (fun hw => hne ?_)))
        have hcount : cur1.rows.columnCount = cur.rows.columnCount := by rw [hlike]
        exact_mod_cast hw.trans (hcount.trans hdest.symm)
  | fail e cur' =>
    cases nextErr_of_fail hrun with
    | closed | sticky | mismatch | done => exact hcur
    | failed _ _ hfail =>
      obtain ⟨r', -, hrows, -⟩ := (triple_fetchNextBatch _).of_fail (Rows.Like.refl _) hfail
      exact .inr (.inl (by rw [hrows]; rfl))
    | @empty _ fetch hopen herr _ hfetch hok hempty =>
      obtain ⟨_, _, hlike⟩ := (triple_fetchNextBatch fetch).of_ok (Rows.Like.refl _) hok
      rcases hcur with hclosed | hfailed | hwidth | ⟨-, hend⟩
      . rw [hopen] at hclosed
        cases hclosed
      . rw [herr] at hfailed
        cases hfailed
      . exact .inr (.inr (.inl (by rw [hlike]; exact hwidth)))
      . rcases hend with hend | hend
        . rw [hfetch] at hend
          cases hend
        . exact .inr (.inr (.inr ⟨hempty, .inr (by rw [hlike]; exact hend)⟩))
  | panic | stuck => trivial

end Spent

theorem keeps_spent_modifyRows {w : Nat} {f : Rows → Rows} (h : ∀ r : Rows, r.Spent w → (f r).Spent w)
    : Keeps (fun cur : Cursor σ => cur.rows.Spent w) (modifyRows f) :=
  Triple.modify (fun cur hcur => h cur.rows hcur)

theorem keeps_spent_ifAlive (w : Nat) (m : Prog Err (Tr σ) Unit)
    : Keeps (fun cur : Cursor σ => cur.rows.Spent w) (ifAlive m) :=
  Keeps.bind Keeps.get (fun _ =>
    Keeps.ite (Keeps.attempt (Keeps.zoom (fun _ _ hcur => hcur))) (Keeps.pure _))

end Cursor

/--
What holds of a connection at any later time: nobody is struck from the record, and statements,
transactions and rows that are over stay so.
-/
structure Conn.Later (c c' : Conn σ) : Prop where
  log : c.log <+: c'.log
  stmts : Grows (fun stmt stmt' : Stmt => stmt.closed = true → stmt'.closed = true) c.stmts c'.stmts
  txs : Grows (fun tx tx' : Tx => tx.done = true → tx'.done = true) c.txs c'.txs
  rows : Grows (fun o o' : OpenRows => ∀ w, o.rows.Spent w → o'.rows.Spent w) c.rows c'.rows

namespace Conn

variable {c₀ : Conn σ}

theorem Later.refl (c : Conn σ) : c.Later c where
  log := List.prefix_rfl
  stmts := Grows.refl (fun _ h => h) _
  txs := Grows.refl (fun _ h => h) _
  rows := Grows.refl (fun _ _ h => h) _

theorem Later.congr {c c' : Conn σ} (h : c₀.Later c) (hlog : c.log <+: c'.log)
    (hstmts : c'.stmts = c.stmts) (htxs : c'.txs = c.txs) (hrows : c'.rows = c.rows)
    : c₀.Later c' :=
  ⟨h.log.trans hlog, hstmts ▸ h.stmts, htxs ▸ h.txs, hrows ▸ h.rows⟩

theorem Later.setSess {c : Conn σ} (h : c₀.Later c) (s : Session σ) : c₀.Later (c.setSess s) :=
  h.congr List.prefix_rfl rfl rfl rfl

theorem later_onSess (m : Prog Err (Session σ) α) : Keeps c₀.Later (onSess m) := by
  intro c hc
  unfold onSess
  split
  . exact Keeps.zoom (fun s _ hc => Later.setSess hc s) c hc
  . trivial

theorem later_onSessOr (err : Err) (m : Prog Err (Session σ) α) : Keeps c₀.Later (onSessOr err m) := by
  intro c hc
  unfold onSessOr
  split
  . exact Keeps.zoom (fun s _ hc => Later.setSess hc s) c hc
  . exact hc

theorem later_acquire (o : Owner) : Keeps c₀.Later (acquire o) := by
  intro c hc
  unfold acquire
  split
  . exact hc
  . split
    . exact hc
    . exact hc.congr (List.prefix_append _ _) rfl rfl rfl

theorem later_release (o : Owner) : Keeps c₀.Later (release o) :=
  Triple.modify (fun _ hc => hc.congr (List.prefix_append _ _) rfl rfl rfl)

theorem later_checkContext (ctx : Ctx) : Keeps c₀.Later (checkContext ctx) := by
  intro c hc
  unfold checkContext
  split
  . exact hc
  . exact hc

theorem later_checkAttached : Keeps c₀.Later checkAttached := by
  intro c hc
  unfold checkAttached
  split
  . exact hc
  . exact hc

theorem later_abortSess : Keeps c₀.Later abortSess := by
  intro c hc
  unfold abortSess
  split
  . exact hc.congr List.prefix_rfl rfl rfl rfl
  . exact hc

theorem later_onStmt (s : Nat) {m : Prog Err Stmt α} (hm : Keeps (fun stmt => stmt.closed = true) m)
    : Keeps c₀.Later (onStmt s m) := by
  intro c hc
  unfold onStmt
  split
  . next stmt hstmt =>
    have hset : ∀ stmt', (stmt.closed = true → stmt'.closed = true) →
        c₀.Later { c with stmts := c.stmts.set s stmt' } :=
      fun _ h => ⟨hc.log, hc.stmts.set hstmt (fun _ h' hx => h (h' hx)), hc.txs, hc.rows⟩
    cases hrun : m stmt with
    | ok | fail =>
      apply hset
      intro hclosed
      have hkept := hm stmt hclosed
      rw [hrun] at hkept
      exact hkept
    | panic | stuck => trivial
  . trivial

theorem later_onTx (t : Nat) {m : Prog Err Tx α} (hm : Keeps (fun tx => tx.done = true) m)
    : Keeps c₀.Later (onTx t m) := by
  intro c hc
  unfold onTx
  split
  . next tx htx =>
    have hset : ∀ tx', (tx.done = true → tx'.done = true) →
        c₀.Later { c with txs := c.txs.set t tx' } :=
      fun _ h => ⟨hc.log, hc.stmts, hc.txs.set htx (fun _ h' hx => h (h' hx)), hc.rows⟩
    cases hrun : m tx with
    | ok | fail =>
      apply hset
      intro hdone
      have hkept := hm tx hdone
      rw [hrun] at hkept
      exact hkept
    | panic | stuck => trivial
  . trivial

theorem later_onRows (r : Nat) {m : Prog Err (Cursor σ) α}
    (hm : ∀ w, Keeps (fun cur : Cursor σ => cur.rows.Spent w) m)
    : Keeps c₀.Later (onRows r m) := by
  intro c hc
  unfold onRows
  split
  . next o ho =>
    have hset : ∀ (s' : Session σ) (rows' : Rows), (∀ w, o.rows.Spent w → rows'.Spent w) →
        c₀.Later { c with sess := s', rows := c.rows.set r { o with rows := rows' } } :=
      fun _ _ h => ⟨hc.log, hc.stmts, hc.txs, hc.rows.set ho (fun _ h' w hx => h w (h' w hx))⟩
    cases hrun : m { rows := o.rows, session := c.sess } with
    | ok _ cur | fail _ cur =>
      apply hset cur.session cur.rows
      intro w hspent
      have hkept := hm w { rows := o.rows, session := c.sess } hspent
      rw [hrun] at hkept
      exact hkept
    | panic | stuck => trivial
  . trivial

theorem later_openRows (o : Owner) (rows : Rows) (callback : RowsCallback)
    : Keeps c₀.Later (openRows o rows callback) :=
  fun _ hc => ⟨hc.log.trans (List.prefix_append _ _), hc.stmts, hc.txs, hc.rows.append _⟩

theorem later_clearCallback (r : Nat) : Keeps c₀.Later (clearCallback r) := by
  intro c hc
  unfold clearCallback
  split
  . next o ho => exact ⟨hc.log, hc.stmts, hc.txs, hc.rows.set ho (fun _ h => h)⟩
  . trivial

end Conn

/-! The calls. -/

namespace Stmt

variable [Peer σ] {c₀ : Conn σ}

omit [Peer σ] in
theorem later_markCommandClosed (s : Nat) (cmd : PreparedCommand)
    : Keeps (Conn.Later c₀) (Conn.onStmt s (markCommandClosed cmd)) := by
  apply Conn.later_onStmt
  apply Triple.modify
  intro stmt hclosed
  split
  . exact hclosed
  . exact hclosed

theorem later_closeCommand (cmd : PreparedCommand)
    : Keeps (Conn.Later c₀) (closeCommand cmd) := by
  intro c hc
  unfold closeCommand
  split
  . exact Conn.later_onSess _ c hc
  . exact hc

theorem preserves_closePendingOnOwnedConn (s : Nat)
    : (closePendingOnOwnedConn s).Preserves (Conn.Later c₀) := by
  apply Proc.Preserves.bind
  . apply Proc.Preserves.atomic
    apply Conn.later_onStmt
    intro stmt hclosed
    unfold pendingCommand
    split
    . exact hclosed
    . exact hclosed
  . intro r
    cases r with
    | none => exact .pure ()
    | some cmd =>
      exact .bind (.atomic (later_closeCommand cmd)) (fun _ => .atomic (later_markCommandClosed s cmd))

theorem preserves_finishOperation (s : Nat) (o : Owner)
    : (finishOperation s o).Preserves (Conn.Later c₀) :=
  .deferred (preserves_closePendingOnOwnedConn s) (.atomic (Conn.later_release o))

theorem keeps_closed_ready : Keeps (fun stmt : Stmt => stmt.closed = true) ready := by
  intro stmt hclosed
  unfold ready
  split
  . split
    . exact hclosed
    . exact hclosed
  . exact hclosed

omit [Peer σ] in
theorem later_beginOperation (s : Nat) (o : Owner)
    : Keeps (Conn.Later c₀) (beginOperation s o) :=
  Keeps.bind (Conn.later_onStmt s keeps_closed_ready)
    (fun _ => Keeps.bind (Conn.later_acquire o) (fun _ => Keeps.pure _))

theorem preserves_close (me s : Nat) : (close me s).Preserves (Conn.Later c₀) := by
  apply Proc.Preserves.bind
  . apply Proc.Preserves.atomic
    apply Conn.later_onStmt
    intro stmt _
    unfold beginClose
    split
    . rfl
    . split
      . rfl
      . rfl
  . rintro (_ | ⟨connected, cmd⟩)
    . exact .pure ()
    . dsimp only
      split
      . exact .atomic (later_markCommandClosed s cmd)
      . apply Proc.Preserves.bind (.attempt (.atomic (Conn.later_acquire _)))
        intro r
        cases r with
        | error =>
          apply Proc.Preserves.atomic
          apply Conn.later_onStmt
          apply Triple.modify
          intro stmt hclosed
          split
          . exact hclosed
          . exact hclosed
        | ok =>
          exact .deferred (.bind (.atomic (later_closeCommand cmd))
            (fun _ => .atomic (later_markCommandClosed s cmd))) (.atomic (Conn.later_release _))

end Stmt

namespace Rows

variable [Peer σ] [GoStd] {c₀ : Conn σ}

omit [GoStd] in
theorem preserves_closeResult (r : Nat) : (closeResult r).Preserves (Conn.Later c₀) := by
  have hclear : ∀ w (r : Rows), r.Spent w → r.clear.Spent w := by
    rintro w r (hclosed | hfailed | hwidth | ⟨-, hend⟩)
    . exact .inl hclosed
    . exact .inr (.inl hfailed)
    . exact .inr (.inr (.inl hwidth))
    . exact .inr (.inr (.inr ⟨rfl, hend⟩))
  apply Proc.Preserves.bind
  . exact .atomic (Conn.later_onRows r (fun _ => Cursor.keeps_spent_modifyRows (fun _ _ => .inl rfl)))
  . intro _
    apply Proc.Preserves.bind
    . apply Proc.Preserves.atomic
      exact Conn.later_onRows r (fun w => Keeps.bind Keeps.get (fun _ => Cursor.keeps_spent_ifAlive w _))
    . intro resultErr
      apply Proc.Preserves.bind
      . apply Proc.Preserves.atomic
        apply Conn.later_onRows
        intro w
        exact Keeps.bind Keeps.get (fun _ => Keeps.ite (Cursor.keeps_spent_ifAlive w _) (Keeps.pure _))
      . intro commandErr
        exact .bind (.atomic (Conn.later_onRows r (fun w => Cursor.keeps_spent_modifyRows (hclear w))))
          (fun _ => .pure _)

omit [Peer σ] [GoStd] in
theorem preserves_firstError {P : Conn σ → Prop} (results : List (Except Err Unit))
    : (firstError results).Preserves P := by
  induction results with
  | nil => exact .pure ()
  | cons r results ih =>
    cases r with
    | error => exact .throw _
    | ok => exact ih

omit [GoStd] in
theorem preserves_closeOpen (r : Nat) : (closeOpen r).Preserves (Conn.Later c₀) := by
  apply Proc.Preserves.bind (preserves_closeResult r)
  intro errs
  apply Proc.Preserves.bind
  . apply Proc.Preserves.atomic
    intro c hc
    unfold Conn.closeCallback
    split
    . exact hc
    . trivial
  . intro callback
    cases callback with
    | none => exact preserves_firstError errs
    | some callback =>
      apply Proc.Preserves.bind
      . apply Proc.Preserves.attempt
        cases callback with
        | release => exact .atomic (Conn.later_release _)
        | finishOperation s => exact Stmt.preserves_finishOperation s _
      . intro callbackErr
        exact .bind (.atomic (Conn.later_clearCallback r)) (fun _ => preserves_firstError _)

omit [GoStd] in
theorem preserves_close (r : Nat) : (close r).Preserves (Conn.Later c₀) := by
  apply Proc.Preserves.bind
  . apply Proc.Preserves.atomic
    intro c hc
    unfold Conn.beginClose
    split
    . exact hc.congr List.prefix_rfl rfl rfl rfl
    . trivial
  . intro closed
    apply Proc.Preserves.bind
    . apply Proc.Preserves.attempt
      split
      . exact .pure ()
      . exact preserves_closeOpen r
    . intro res
      exact .bind (.atomic (Triple.modify (fun _ hc => hc.congr List.prefix_rfl rfl rfl rfl)))
        (fun _ => .ofExcept res)

theorem preserves_next (r : Nat) (dest : List Value)
    : (next r dest).Preserves (Conn.Later c₀) :=
  .atomic (Conn.later_onRows r (fun w => Cursor.keeps_spent_next w dest))

end Rows

namespace Conn

variable [Peer σ] {c₀ : Conn σ}

theorem preserves_prepareContext (me : Nat) (ctx : Ctx) (query : GoString)
    : (prepareContext me ctx query).Preserves (Conn.Later c₀) := by
  apply Proc.Preserves.bind (.atomic (later_acquire _))
  intro _
  apply Proc.Preserves.deferred _ (.atomic (later_release _))
  apply Proc.Preserves.bind (.atomic (later_onSess _))
  exact fun cmd => .atomic (fun _ hc => ⟨hc.log, hc.stmts.append _, hc.txs, hc.rows⟩)

theorem preserves_isValid (me : Nat) : (isValid me).Preserves (Conn.Later c₀) := by
  apply Proc.Preserves.bind (.attempt (.atomic (later_acquire _)))
  intro r
  cases r with
  | error => exact .pure _
  | ok =>
    apply Proc.Preserves.deferred _ (.atomic (later_release _))
    apply Proc.Preserves.bind (.attempt (.atomic later_checkAttached))
    intro r
    cases r with
    | error => exact .pure _
    | ok =>
      apply Proc.Preserves.bind (.attempt (.atomic (later_onSessOr _ _)))
      intro r
      cases r with
      | error => exact .pure _
      | ok => exact .pure _

omit [Peer σ] in
theorem preserves_discard : (discard (σ := σ)).Preserves (Conn.Later c₀) :=
  .bind (.atomic later_abortSess) (fun _ => .throw _)

variable [GoStd]

theorem preserves_resetOwned (ctx : Ctx) : (resetOwned ctx).Preserves (Conn.Later c₀) := by
  apply Proc.Preserves.bind (.attempt (.atomic (later_onSessOr _ _)))
  intro r
  cases r with
  | error => exact preserves_discard
  | ok pending =>
    apply Proc.Preserves.bind
    . unfold rollbackPending
      split
      . exact .attempt (.atomic (later_onSessOr _ _))
      . exact .pure _
    . intro r
      cases r with
      | error => exact preserves_discard
      | ok =>
        apply Proc.Preserves.bind (.atomic (later_onSess _))
        intro on
        cases on with
        | true => exact .pure _
        | false =>
          apply Proc.Preserves.bind (.attempt (.atomic (later_onSessOr _ _)))
          intro r
          cases r with
          | error => exact preserves_discard
          | ok => exact .pure _

theorem preserves_resetSession (me : Nat) (ctx : Ctx)
    : (resetSession me ctx).Preserves (Conn.Later c₀) := by
  apply Proc.Preserves.bind (.atomic (later_checkContext ctx))
  intro _
  apply Proc.Preserves.bind (.atomic later_checkAttached)
  intro _
  apply Proc.Preserves.bind (.attempt (.atomic (later_acquire _)))
  intro r
  cases r with
  | error => exact .throw _
  | ok => exact .deferred (preserves_resetOwned ctx) (.atomic (later_release _))

theorem later_close : Keeps (Conn.Later c₀) close := by
  have hdetach : ∀ c : Conn σ, c₀.Later c → c₀.Later c.detach :=
    fun _ hc => hc.congr List.prefix_rfl rfl rfl rfl
  apply Keeps.bind Keeps.get
  intro c
  apply Keeps.ite (Keeps.pure _)
  apply Keeps.ite (Triple.modify hdetach)
  apply Keeps.bind
  . intro c hc
    unfold rollbackOpen
    split
    . exact hc
    . exact Keeps.attempt (later_onSess _) c hc
  . intro _
    apply Keeps.bind (Keeps.attempt (later_onSess _))
    intro r
    apply Keeps.bind (Triple.modify hdetach)
    intro _
    cases r with
    | ok => exact Keeps.pure _
    | error => exact Keeps.throw _

omit [Peer σ] [GoStd] in
theorem preserves_queryOwned (me : Nat) (query : Conn σ → Prog Err (Session σ) Rows)
    : (queryOwned me query).Preserves (Conn.Later c₀) := by
  apply Proc.Preserves.bind
  . exact .attempt (.atomic (fun c hc => later_onSess (query c) c hc))
  . intro r
    cases r with
    | error => exact .bind (.atomic (later_release _)) (fun _ => .throw _)
    | ok rows => exact .atomic (later_openRows _ rows _)

theorem preserves_queryContextInternal (me : Nat) (ctx : Ctx) (query : GoString)
    : (queryContextInternal me ctx query).Preserves (Conn.Later c₀) :=
  .bind (.atomic (later_acquire _)) (fun _ => preserves_queryOwned me _)

theorem preserves_drain (r : Nat) (dest : List Value) (fuel : Nat)
    : (drain r dest fuel).Preserves (Conn.Later c₀) := by
  induction fuel generalizing dest with
  | zero => exact .atomic (fun _ _ => True.intro)
  | succ fuel ih =>
    apply Proc.Preserves.bind (.attempt (Rows.preserves_next r dest))
    intro res
    cases res with
    | ok dest => exact ih dest
    | error err =>
      dsimp only
      split
      . exact Rows.preserves_close r
      . exact .bind (.attempt (Rows.preserves_close r)) (fun _ => .throw _)

theorem preserves_ping (me : Nat) (ctx : Ctx) (fuel : Nat)
    : (ping me ctx fuel).Preserves (Conn.Later c₀) := by
  apply Proc.Preserves.bind (preserves_queryContextInternal me ctx _)
  intro r
  apply Proc.Preserves.bind
  . exact .atomic (later_onRows r (fun _ => Keeps.bind Keeps.get (fun _ => Keeps.pure _)))
  . exact fun _ => preserves_drain r _ fuel

variable [ParameterConverter]

theorem preserves_queryContext (me : Nat) (ctx : Ctx) (query : GoString) (args : List NamedValue)
    : (queryContext me ctx query args).Preserves (Conn.Later c₀) := by
  unfold queryContext
  split
  . exact preserves_queryContextInternal me ctx query
  . apply Proc.Preserves.bind (.ofExcept _)
    exact fun params => .bind (.atomic (later_acquire _)) (fun _ => preserves_queryOwned me _)

theorem preserves_execContext (me : Nat) (ctx : Ctx) (query : GoString) (args : List NamedValue)
    : (execContext me ctx query args).Preserves (Conn.Later c₀) := by
  apply Proc.Preserves.bind (.ofExcept _)
  intro params
  apply Proc.Preserves.bind (.atomic (later_acquire _))
  intro _
  exact .deferred (.bind (.atomic (later_onSess _)) (fun _ => .pure _)) (.atomic (later_release _))

end Conn

namespace Stmt

variable [Peer σ] [GoStd] [ParameterConverter] {c₀ : Conn σ}

theorem preserves_execContext (me s : Nat) (ctx : Ctx) (args : List NamedValue)
    : (execContext me s ctx args).Preserves (Conn.Later c₀) := by
  apply Proc.Preserves.bind (.ofExcept _)
  intro params
  apply Proc.Preserves.bind (.atomic (Conn.later_checkContext ctx))
  intro _
  apply Proc.Preserves.bind (.atomic (later_beginOperation s _))
  intro cmd
  apply Proc.Preserves.bind (.attempt (.atomic (Conn.later_onSessOr _ _)))
  intro res
  apply Proc.Preserves.bind (.attempt (preserves_finishOperation s _))
  intro closed
  cases res with
  | error => exact .throw _
  | ok =>
    cases closed with
    | error => exact .throw _
    | ok => exact .pure _

theorem preserves_queryContext (me s : Nat) (ctx : Ctx) (args : List NamedValue)
    : (queryContext me s ctx args).Preserves (Conn.Later c₀) := by
  apply Proc.Preserves.bind (.ofExcept _)
  intro params
  apply Proc.Preserves.bind (.atomic (Conn.later_checkContext ctx))
  intro _
  apply Proc.Preserves.bind (.atomic (later_beginOperation s _))
  intro cmd
  apply Proc.Preserves.bind
  . exact .attempt (.atomic (fun c hc => Conn.later_onSess _ c hc))
  . intro r
    cases r with
    | error => exact .bind (preserves_finishOperation s _) (fun _ => .throw _)
    | ok rows => exact .atomic (Conn.later_openRows _ rows _)

end Stmt

namespace Tx

variable [Peer σ] [GoStd] {c₀ : Conn σ}

theorem preserves_setIsolation (ctx : Ctx) (isolationSQL : GoString)
    : (setIsolation ctx isolationSQL).Preserves (Conn.Later c₀) := by
  unfold setIsolation
  split
  . exact .pure _
  . apply Proc.Preserves.bind (.attempt (.atomic (Conn.later_onSessOr _ _)))
    intro r
    cases r with
    | ok => exact .pure _
    | error =>
      apply Proc.Preserves.bind (.attempt (.atomic (Conn.later_onSessOr _ _)))
      intro r
      cases r with
      | ok => exact .throw _
      | error => exact .throw _

theorem preserves_beginTx (me : Nat) (ctx : Ctx) (isolation : Int) (readOnly : Bool)
    : (beginTx me ctx isolation readOnly).Preserves (Conn.Later c₀) := by
  apply Proc.Preserves.bind (.atomic (Conn.later_checkContext ctx))
  intro _
  apply Proc.Preserves.bind (.atomic Conn.later_checkAttached)
  intro _
  split
  . exact .throw _
  . apply Proc.Preserves.bind (.ofExcept _)
    intro level
    apply Proc.Preserves.bind (.atomic (Conn.later_acquire _))
    intro _
    apply Proc.Preserves.bind
    . apply Proc.Preserves.onStop _ (.atomic (Conn.later_release _))
      apply Proc.Preserves.bind (.atomic (Conn.later_onSess _))
      intro on
      cases on with
      | false => exact .throw _
      | true =>
        exact .bind (.atomic (Conn.later_onSessOr _ _)) (fun _ => preserves_setIsolation ctx _)
    . intro _
      apply Proc.Preserves.bind (.atomic (Conn.later_release _))
      exact fun _ => .atomic (fun _ hc => ⟨hc.log, hc.stmts, hc.txs.append _, hc.rows⟩)

theorem preserves_finished (rollback restoreIsolation : Bool)
    : (do
        .atomic (if rollback then Conn.rollbackCurrentTransaction .background
          else Conn.commitCurrentTransaction .background)
        let isolationErr ← restore restoreIsolation
        let autoCommitErr ← Proc.attempt (.atomic (Conn.setAutoCommit .background true))
        .ofExcept (joinErrors isolationErr autoCommitErr)
        : Proc Err (Conn σ) Unit).Preserves (Conn.Later c₀) := by
  apply Proc.Preserves.bind
  . apply Proc.Preserves.atomic
    split
    . exact Conn.later_onSessOr _ _
    . exact Conn.later_onSessOr _ _
  . intro _
    apply Proc.Preserves.bind
    . unfold restore
      split
      . exact .attempt (.atomic (Conn.later_onSessOr _ _))
      . exact .pure _
    . intro isolationErr
      exact .bind (.attempt (.atomic (Conn.later_onSessOr _ _))) (fun _ => .ofExcept _)

omit [GoStd] in
theorem keeps_done_claim : Keeps (fun tx : Tx => tx.done = true) claim := by
  intro tx hdone
  rw [claim, if_pos hdone]
  exact hdone

omit [GoStd] in
theorem keeps_done_checkDone : Keeps (fun tx : Tx => tx.done = true) checkDone := by
  intro tx hdone
  rw [checkDone, if_pos hdone]
  exact hdone

theorem preserves_finishTransaction (me t : Nat) (rollback : Bool)
    : (finishTransaction me t rollback).Preserves (Conn.Later c₀) := by
  apply Proc.Preserves.bind (.atomic (Conn.later_onTx t keeps_done_checkDone))
  intro _
  apply Proc.Preserves.bind (.atomic Conn.later_checkAttached)
  intro _
  apply Proc.Preserves.bind (.attempt (.atomic (Conn.later_acquire _)))
  intro r
  cases r with
  | error err =>
    dsimp only
    split
    . exact .bind (.atomic (Conn.later_onTx t (Triple.modify (fun _ _ => rfl)))) (fun _ => .throw _)
    . exact .throw _
  | ok =>
    apply Proc.Preserves.deferred _ (.atomic (Conn.later_release _))
    exact .bind (.atomic (Conn.later_onTx t keeps_done_claim))
      (fun restoreIsolation => preserves_finished rollback restoreIsolation)

end Tx

theorem Call.preserves_code [Peer σ] [GoStd] [ParameterConverter] {c₀ : Conn σ} (call : Call)
    (me : Nat)
    : (call.code me).Preserves (Conn.Later c₀) := by
  cases call with
  | prepareContext ctx query => exact (Conn.preserves_prepareContext me ctx query).discard
  | queryContext ctx query args => exact (Conn.preserves_queryContext me ctx query args).discard
  | execContext ctx query args => exact (Conn.preserves_execContext me ctx query args).discard
  | ping ctx fuel => exact Conn.preserves_ping me ctx fuel
  | isValid => exact (Conn.preserves_isValid me).discard
  | resetSession ctx => exact Conn.preserves_resetSession me ctx
  | beginTx ctx isolation readOnly => exact (Tx.preserves_beginTx me ctx isolation readOnly).discard
  | commit t => exact Tx.preserves_finishTransaction me t false
  | rollback t => exact Tx.preserves_finishTransaction me t true
  | stmtExecContext s ctx args => exact (Stmt.preserves_execContext me s ctx args).discard
  | stmtQueryContext s ctx args => exact (Stmt.preserves_queryContext me s ctx args).discard
  | stmtClose s => exact Stmt.preserves_close me s
  | rowsNext r dest => exact (Rows.preserves_next r dest).discard
  | rowsClose r => exact Rows.preserves_close r
  | close => exact .atomic Conn.later_close

end H2Go
