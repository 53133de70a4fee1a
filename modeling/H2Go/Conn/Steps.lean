import H2Go.Conn.Tenure
import H2Go.Rows.Discard

/-!
This module contains what the steps of the calls do to the ownership of the connection: most of them
leave it alone, and the others follow the rules.
-/

namespace H2Go

section View

variable {σ : Type} {α : Type} {v : View}

namespace Conn

theorem keeps_view_zoom (m : Prog Err (Session σ) α)
    : Keeps (fun c : Conn σ => c.view = v) (Prog.zoom sess setSess m) :=
  Keeps.zoom (fun _ _ h => h)

theorem keeps_view_onSess (m : Prog Err (Session σ) α)
    : Keeps (fun c : Conn σ => c.view = v) (onSess m) := by
  intro c hc
  unfold onSess
  split
  . exact keeps_view_zoom m c hc
  . trivial

theorem keeps_view_onSessOr (err : Err) (m : Prog Err (Session σ) α)
    : Keeps (fun c : Conn σ => c.view = v) (onSessOr err m) := by
  intro c hc
  unfold onSessOr
  split
  . exact keeps_view_zoom m c hc
  . exact hc

theorem keeps_view_onStmt (s : Nat) (m : Prog Err Stmt α)
    : Keeps (fun c : Conn σ => c.view = v) (onStmt s m) := by
  intro c hc
  unfold onStmt
  split
  . next stmt _ => cases m stmt <;> first | exact hc | trivial
  . trivial

theorem keeps_view_onTx (t : Nat) (m : Prog Err Tx α)
    : Keeps (fun c : Conn σ => c.view = v) (onTx t m) := by
  intro c hc
  unfold onTx
  split
  . next tx _ => cases m tx <;> first | exact hc | trivial
  . trivial

theorem view_setRows {c : Conn σ} {r : Nat} {o : OpenRows} (h : c.rows[r]? = some o) (s : Session σ)
    {rows : Rows} (hclosed : rows.closed = o.rows.closed)
    : ({ c with sess := s, rows := c.rows.set r { o with rows := rows } } : Conn σ).view = c.view := by
  simp only [view, View.mk.injEq, true_and]
  rw [List.map_set]
  apply List.ext_getElem?
  intro j
  rw [List.getElem?_set]
  grind

theorem keeps_view_onRows (r : Nat) {m : Prog Err (Cursor σ) α}
    (h : ∀ closed, Keeps (fun cur : Cursor σ => cur.rows.closed = closed) m)
    : Keeps (fun c : Conn σ => c.view = v) (onRows r m) := by
  intro c hc
  unfold onRows
  split
  . next o ho =>
    have hm := h _ { rows := o.rows, session := c.sess } rfl
    cases hrun : m { rows := o.rows, session := c.sess } with
    | ok a cur =>
      rw [hrun] at hm
      exact (view_setRows ho cur.session hm).trans hc
    | fail e cur =>
      rw [hrun] at hm
      exact (view_setRows ho cur.session hm).trans hc
    | panic | stuck => trivial
  . trivial

theorem failsWith_onRows (r : Nat) {m : Prog Err (Cursor σ) α} (h : FailsWith (fun _ _ => False) m)
    : FailsWith (fun _ _ => False) (onRows r m) := by
  refine ⟨fun {c c' e} hrun => ?_⟩
  unfold onRows at hrun
  split at hrun
  . obtain ⟨e', cur, hfail, -, -⟩ := Out.map_eq_fail hrun
    exact h.of_run hfail
  . cases hrun

end Conn

namespace Cursor

abbrev KeepsClosed (m : Prog Err (Cursor σ) α) : Prop :=
  ∀ closed, Keeps (fun c : Cursor σ => c.rows.closed = closed) m

theorem keepsClosed_onSession (m : Prog Err (Session σ) α) : KeepsClosed (onSession m) :=
  fun _ => Keeps.zoom (fun _ _ h => h)

theorem keepsClosed_modifyRows {f : Rows → Rows} (h : ∀ r, (f r).closed = r.closed)
    : KeepsClosed (modifyRows f : Prog Err (Cursor σ) Unit) :=
  fun closed => keeps_modifyRows (fun r => r.closed = closed) f (fun r hr => (h r).trans hr)

theorem keepsClosed_ifAlive (m : Prog Err (Tr σ) Unit) : KeepsClosed (ifAlive m) :=
  fun closed => keeps_ifAlive (fun r => r.closed = closed) m

theorem failsWith_get : FailsWith (fun _ _ => False) (Prog.get : Prog Err (Cursor σ) _) :=
  ⟨fun h => by cases h⟩

theorem failsWith_modifyRows (f : Rows → Rows)
    : FailsWith (fun _ _ => False) (modifyRows f : Prog Err (Cursor σ) Unit) :=
  ⟨fun h => by cases h⟩

theorem failsWith_ifAlive (m : Prog Err (Tr σ) Unit)
    : FailsWith (fun _ _ => False) (ifAlive m) := by
  apply FailsWith.bind failsWith_get
  intro c
  apply FailsWith.ite
  . intro _
    refine ⟨fun {s s' e} h => ?_⟩
    unfold Prog.attempt at h
    split at h <;> cases h
  . exact fun _ => FailsWith.pure _

theorem keepsClosed_takeRow (dest : List Value)
    : KeepsClosed (takeRow dest : Prog Err (Cursor σ) _) := by
  intro closed
  apply Keeps.bind Keeps.get
  intro c
  apply Keeps.bind
  . intro c' hc'
    unfold Prog.index
    cases c.rows.bufferedRows[0]? with
    | some row => exact hc'
    | none => trivial
  . intro row
    exact Keeps.bind (keepsClosed_modifyRows (fun _ => rfl) closed) (fun _ => Keeps.pure _)

section

variable [Peer σ]

theorem keepsClosed_closeOwnCommand (r : Rows)
    : KeepsClosed (closeOwnCommand r : Prog Err (Cursor σ) _) :=
  fun closed => Keeps.ite (keepsClosed_ifAlive _ closed) (Keeps.pure _)

theorem failsWith_closeOwnCommand (r : Rows)
    : FailsWith (fun _ _ => False) (closeOwnCommand r : Prog Err (Cursor σ) _) :=
  FailsWith.ite (fun _ => failsWith_ifAlive _) (fun _ => FailsWith.pure _)

end

variable [GoStd] [Peer σ]

theorem keepsClosed_fetchRowsLoop (fetch : Nat) (lc : LobCollector)
    : KeepsClosed (fetchRowsLoop fetch lc : Prog Err (Cursor σ) _) := by
  intro closed
  induction fetch generalizing lc with
  | zero => exact Keeps.pure _
  | succ fetch ih =>
    apply Keeps.bind (keepsClosed_onSession _ closed)
    intro flag
    apply Keeps.ite
    . apply Keeps.bind Keeps.get
      intro c
      apply Keeps.bind (keepsClosed_onSession _ closed)
      intro r
      exact Keeps.bind (keepsClosed_modifyRows (fun _ => rfl) closed) (fun _ => ih r.2)
    . apply Keeps.ite
      . exact Keeps.bind (keepsClosed_modifyRows (fun _ => rfl) closed) (fun _ => Keeps.pure _)
      . apply Keeps.ite (keepsClosed_onSession _ closed)
        exact Keeps.bind (keepsClosed_onSession _ closed) (fun _ => Keeps.throw _)

omit [GoStd] in
theorem keepsClosed_resolveLobs (pending : List PendingLob)
    : KeepsClosed (resolveLobs pending : Prog Err (Cursor σ) _) := by
  intro closed
  induction pending with
  | nil => exact Keeps.pure _
  | cons p pending ih =>
    apply Keeps.bind (keepsClosed_onSession _ closed)
    intro value
    apply Keeps.bind Keeps.get
    intro c
    apply Keeps.bind ((triple_spliceLob _ p value).post (fun _ _ h => h.2))
    intro rows
    exact Keeps.bind (keepsClosed_modifyRows (fun _ => rfl) closed) (fun _ => ih)

theorem keepsClosed_fetchRows (fetch : Int)
    : KeepsClosed (fetchRows fetch : Prog Err (Cursor σ) _) :=
  fun closed => Keeps.bind (keepsClosed_fetchRowsLoop _ _ closed)
    (fun lc => keepsClosed_resolveLobs lc.pending closed)

theorem keepsClosed_fetchNextBatch (fetch : Int)
    : KeepsClosed (fetchNextBatch fetch : Prog Err (Cursor σ) _) := by
  intro closed
  refine Keeps.onFail ?_ (fun err => keepsClosed_modifyRows (fun rows => rfl) closed)
  apply Keeps.bind Keeps.get
  intro c
  apply Keeps.ite (Keeps.throw _)
  apply Keeps.onFail _ (fun _ => keepsClosed_onSession _ closed)
  exact Keeps.bind (keepsClosed_onSession _ closed) (fun _ => keepsClosed_fetchRows fetch closed)

theorem keepsClosed_next (dest : List Value)
    : KeepsClosed (next dest : Prog Err (Cursor σ) _) := by
  intro closed
  apply Keeps.bind Keeps.get
  intro c
  apply Keeps.ite (Keeps.throw _)
  split
  . exact Keeps.throw _
  . apply Keeps.ite (Keeps.throw _)
    apply Keeps.ite
    . split
      . exact Keeps.throw _
      . next fetch _ =>
        apply Keeps.bind (keepsClosed_fetchNextBatch fetch closed)
        intro _
        apply Keeps.bind Keeps.get
        intro c
        exact Keeps.ite (Keeps.throw _) (keepsClosed_takeRow dest closed)
    . exact keepsClosed_takeRow dest closed

end Cursor

namespace Session

variable [GoStd] [Peer σ]

abbrev ReturnsOpen (m : Prog Err (Session σ) Rows) : Prop := Returns m (fun r => r.closed = false)

theorem returnsOpen_newRows (resultID columnCount fetchSize : Int) (ownsCommand : Bool)
    (commandID : Int)
    : ReturnsOpen (newRows resultID columnCount fetchSize ownsCommand commandID : Prog Err (Session σ) _) := by
  apply Returns.bind
  intro s
  apply Returns.ite (fun _ => Returns.throw _)
  intro _
  apply Returns.bind
  intro rowCount
  apply Returns.bind
  intro columns s _
  unfold Cursor.startRows
  have hkeeps : Cursor.KeepsClosed (Cursor.prefetchInitialRows : Prog Err (Cursor σ) _) := by
    intro closed
    apply Keeps.bind Keeps.get
    intro c
    exact Keeps.ite (Keeps.mapErr (Cursor.keepsClosed_fetchRows _ closed)) (Keeps.pure _)
  have h := hkeeps false
    { rows := Rows.initial resultID columnCount fetchSize ownsCommand commandID rowCount columns,
      session := s } rfl
  split
  . next hrun =>
    rw [hrun] at h
    exact h
  all_goals trivial

omit [GoStd] [Peer σ] in
theorem returnsOpen_withContext {ctx : Ctx} {m : Prog Err (Session σ) Rows} (h : ReturnsOpen m)
    : ReturnsOpen (withContext ctx m) := by
  apply Triple.bind (Triple.attempt h)
  intro r
  cases r with
  | ok rows =>
    apply Triple.bind (R := fun _ _ => rows.closed = false) (Triple.modify (fun _ hs => hs))
    intro _
    exact Triple.pure (fun _ hs => hs)
  | error err =>
    apply Returns.bind
    intro _
    exact returns_finalizeContext ctx err

theorem returnsOpen_executeQueryWire (ctx : Ctx) (cmd : PreparedCommand) (maxRows fetchSize : Int)
    (params : List Value) (ownsCommand : Bool)
    : ReturnsOpen (executeQueryWire ctx cmd maxRows fetchSize params ownsCommand
        : Prog Err (Session σ) _) := by
  apply Returns.bind
  intro resultID
  apply returnsOpen_withContext
  apply Triple.onFail (F := fun _ _ => True)
  . apply Returns.bind
    intro _
    apply Returns.bind
    intro _
    apply Returns.bind
    intro _
    apply Returns.bind
    intro columnCount
    exact returnsOpen_newRows _ _ _ _ _
  . exact fun _ => Triple.trivial

omit [GoStd] in
theorem returnsOpen_refuseQuery (cmd : PreparedCommand) (err : Err)
    : ReturnsOpen (refuseQuery cmd err : Prog Err (Session σ) _) :=
  Returns.bind (fun _ => Returns.throw _)

theorem returnsOpen_executeQuery (ctx : Ctx) (sql : GoString) (maxRows fetchSize : Int)
    : ReturnsOpen (executeQuery ctx sql maxRows fetchSize : Prog Err (Session σ) _) := by
  apply Returns.bind
  intro s
  apply Returns.ite (fun _ => Returns.throw _)
  intro _
  apply Returns.bind
  intro cmd
  exact Returns.ite (fun _ => returnsOpen_refuseQuery _ _)
    (fun _ => returnsOpen_executeQueryWire _ _ _ _ _ _)

theorem returnsOpen_executeQueryWithParams (ctx : Ctx) (sql : GoString) (maxRows fetchSize : Int)
    (params : List Value)
    : ReturnsOpen (executeQueryWithParams ctx sql maxRows fetchSize params
        : Prog Err (Session σ) _) := by
  apply Returns.bind
  intro s
  apply Returns.ite (fun _ => Returns.throw _)
  intro _
  apply Returns.bind
  intro cmd
  apply Returns.ite (fun _ => returnsOpen_refuseQuery _ _)
  intro _
  exact Returns.ite (fun _ => returnsOpen_refuseQuery _ _)
    (fun _ => returnsOpen_executeQueryWire _ _ _ _ _ _)

theorem returnsOpen_executeQueryPreparedWithParams (ctx : Ctx) (cmd : PreparedCommand)
    (maxRows fetchSize : Int) (params : List Value)
    : ReturnsOpen (executeQueryPreparedWithParams ctx cmd maxRows fetchSize params
        : Prog Err (Session σ) _) := by
  apply Returns.bind
  intro s
  apply Returns.ite (fun _ => Returns.throw _)
  intro _
  apply Returns.ite (fun _ => Returns.throw _)
  intro _
  exact Returns.ite (fun _ => Returns.throw _) (fun _ => returnsOpen_executeQueryWire _ _ _ _ _ _)

end Session

end View

section Obeys

variable {σ : Type} {α β : Type} {i : Nat}

/--
The code `p` of goroutine `i` keeps the tenure, as long as no two calls of `Rows.Close` on the same
rows overlap.
-/
abbrev Obeys (i : Nat) (p : Proc Err (Conn σ) α) (l : Phase)
    (Q : Except (Stop Err) α → Phase → Prop) : Prop :=
  Proc.Safe (fun c => c.closing.Nodup) (fun c ph => Tenure c.view ph) i p l Q

/--
The code `p` does not change who owns the connection.
-/
def Neutral (i : Nat) (p : Proc Err (Conn σ) α) : Prop := ∀ l, Obeys i p l (fun _ l' => l' = l)

namespace Neutral

theorem atomic {m : Prog Err (Conn σ) α} (h : ∀ v, Keeps (fun c : Conn σ => c.view = v) m)
    : Neutral i (.atomic m) := by
  intro l c ph htenure hl r c' hrun _
  have hview : c'.view = c.view := Keeps.of_result (h c.view) rfl hrun
  refine ⟨l, ?_, rfl⟩
  rw [← hl, Function.update_eq_self]
  exact htenure.congr hview

/--
A step that does not change who owns the connection, with what is known about its results.
-/
theorem atomic_returns {m : Prog Err (Conn σ) α} {R : α → Prop} {E : Err → Conn σ → Prop}
    (h : ∀ v, Keeps (fun c : Conn σ => c.view = v) m) (hret : Returns m R) (hfail : FailsWith E m)
    (l : Phase)
    : Obeys i (.atomic m) l (fun r l' => l' = l ∧
        match r with
        | .ok a => R a
        | .error (.err e) => ∃ c, E e c
        | .error (.panic _) => True) := by
  intro c ph htenure hl r c' hrun hnodup
  obtain ⟨l', htenure', rfl⟩ := atomic h l c ph htenure hl r c' hrun hnodup
  refine ⟨l', htenure', rfl, ?_⟩
  cases hout : m c with
  | ok a c1 =>
    rw [hout] at hrun
    cases hrun
    exact hret.of_ok True.intro hout
  | fail e c1 =>
    rw [hout] at hrun
    cases hrun
    exact ⟨_, hfail.of_run hout⟩
  | panic why =>
    rw [hout] at hrun
    cases hrun
    trivial
  | stuck =>
    rw [hout] at hrun
    cases hrun

theorem pure (a : α) : Neutral i (Pure.pure a : Proc Err (Conn σ) α) := fun _ => rfl

theorem throw (e : Err) : Neutral i (.throw e : Proc Err (Conn σ) α) := fun _ => rfl

theorem ofExcept (r : Except Err α) : Neutral i (.ofExcept r : Proc Err (Conn σ) α) := by
  cases r with
  | ok a => exact pure a
  | error e => exact throw e

theorem andThen {p : Proc Err (Conn σ) α} {f : α → Proc Err (Conn σ) β} {l : Phase}
    {Q : Except (Stop Err) β → Phase → Prop} (hp : Neutral i p) (hf : ∀ a, Obeys i (f a) l Q)
    (he : ∀ e, Q (.error e) l)
    : Obeys i (p >>= f) l Q := by
  refine Proc.Safe.bind (hp l) ?_ ?_
  . rintro a _ rfl
    exact hf a
  . rintro e _ rfl
    exact he e

theorem bind {p : Proc Err (Conn σ) α} {f : α → Proc Err (Conn σ) β} (hp : Neutral i p)
    (hf : ∀ a, Neutral i (f a))
    : Neutral i (p >>= f) :=
  fun l => hp.andThen (fun a => hf a l) (fun _ => rfl)

theorem attempt {p : Proc Err (Conn σ) α} (hp : Neutral i p) : Neutral i p.attempt := by
  intro l
  refine Proc.Safe.attempt ((hp l).imp ?_)
  rintro r _ rfl
  rcases r with (_ | _) | _ <;> rfl

theorem discard {p : Proc Err (Conn σ) α} (hp : Neutral i p) : Neutral i p.discard :=
  hp.bind (fun _ => pure ())

theorem attempt_andThen {p : Proc Err (Conn σ) α} {f : Except Err α → Proc Err (Conn σ) β} {l : Phase}
    {Q : Except (Stop Err) β → Phase → Prop} (hp : Neutral i p) (hf : ∀ r, Obeys i (f r) l Q)
    (he : ∀ why, Q (.error (.panic why)) l)
    : Obeys i (p.attempt >>= f) l Q := by
  refine Proc.Safe.bind
    (R := fun r l' => l' = l ∧ ((∃ a, r = .ok a) ∨ ∃ why, r = .error (.panic why)))
    (Proc.Safe.attempt ((hp l).imp ?_)) ?_ ?_
  . rintro r _ rfl
    rcases r with (e | why) | a
    . exact ⟨rfl, .inl ⟨_, rfl⟩⟩
    . exact ⟨rfl, .inr ⟨why, rfl⟩⟩
    . exact ⟨rfl, .inl ⟨_, rfl⟩⟩
  . rintro r _ ⟨rfl, -⟩
    exact hf r
  . rintro e _ ⟨rfl, ⟨_, h⟩ | ⟨why, h⟩⟩
    . cases h
    . cases h
      exact he why

end Neutral

namespace Conn

theorem neutral_onSess (m : Prog Err (Session σ) α) : Neutral i (.atomic (onSess m)) :=
  .atomic (fun _ => keeps_view_onSess m)

theorem neutral_onSessOr (err : Err) (m : Prog Err (Session σ) α)
    : Neutral i (.atomic (onSessOr err m)) :=
  .atomic (fun _ => keeps_view_onSessOr err m)

theorem neutral_onStmt (s : Nat) (m : Prog Err Stmt α)
    : Neutral i (.atomic (onStmt s m : Prog Err (Conn σ) α)) :=
  .atomic (fun _ => keeps_view_onStmt s m)

theorem neutral_onTx (t : Nat) (m : Prog Err Tx α)
    : Neutral i (.atomic (onTx t m : Prog Err (Conn σ) α)) :=
  .atomic (fun _ => keeps_view_onTx t m)

theorem neutral_onRows (r : Nat) {m : Prog Err (Cursor σ) α} (h : Cursor.KeepsClosed m)
    : Neutral i (.atomic (onRows r m)) :=
  .atomic (fun _ => keeps_view_onRows r h)

theorem neutral_checkContext (ctx : Ctx)
    : Neutral i (.atomic (checkContext ctx : Prog Err (Conn σ) Unit)) := by
  apply Neutral.atomic
  intro v c hc
  unfold checkContext
  split <;> exact hc

theorem neutral_checkAttached : Neutral i (.atomic (checkAttached : Prog Err (Conn σ) Unit)) := by
  apply Neutral.atomic
  intro v c hc
  unfold checkAttached
  split <;> exact hc

theorem neutral_newStmt (cmd : PreparedCommand)
    : Neutral i (.atomic (newStmt cmd : Prog Err (Conn σ) Nat)) :=
  .atomic (fun _ _ hc => hc)

theorem neutral_newTx (restoreIsolation : Bool)
    : Neutral i (.atomic (newTx restoreIsolation : Prog Err (Conn σ) Nat)) :=
  .atomic (fun _ _ hc => hc)

theorem neutral_abortSess : Neutral i (.atomic (abortSess : Prog Err (Conn σ) Unit)) := by
  apply Neutral.atomic
  intro v c hc
  unfold abortSess
  split <;> exact hc

theorem neutral_closeCommand [Peer σ] (cmd : PreparedCommand)
    : Neutral i (.atomic (Stmt.closeCommand cmd : Prog Err (Conn σ) Unit)) := by
  apply Neutral.atomic
  intro v c hc
  unfold Stmt.closeCommand
  split
  . exact keeps_view_onSess _ c hc
  . exact hc

theorem obeys_acquire
    : Obeys i (.atomic (acquire (.call i) : Prog Err (Conn σ) Unit)) .idle
        (fun r l => (r = .ok () ∧ l = .owning) ∨ ∃ e, r = .error (.err e) ∧ l = .idle) := by
  intro c ph htenure hl r c' hrun _
  unfold acquire at hrun
  split at hrun
  . cases hrun
    exact ⟨.idle, by rwa [← hl, Function.update_eq_self], .inr ⟨_, rfl, rfl⟩⟩
  . next hattached =>
    split at hrun
    . cases hrun
      exact ⟨.idle, by rwa [← hl, Function.update_eq_self], .inr ⟨_, rfl, rfl⟩⟩
    . next hbusy =>
      cases hrun
      refine ⟨.owning, ?_, .inl ⟨rfl, rfl⟩⟩
      have hattached : c.attached = true := by
        rw [not_or, not_not] at hattached
        exact hattached.1
      exact htenure.acquire hl hattached (Bool.eq_false_of_not_eq_true hbusy)

theorem obeys_acquire_bind {f : Unit → Proc Err (Conn σ) β} {Q : Except (Stop Err) β → Phase → Prop}
    (hf : Obeys i (f ()) .owning Q) (he : ∀ e, Q (.error (.err e)) .idle)
    : Obeys i (.atomic (acquire (.call i)) >>= f) .idle Q := by
  refine Proc.Safe.bind obeys_acquire ?_ ?_
  . rintro a l (⟨-, rfl⟩ | ⟨e, h, -⟩)
    . exact hf
    . cases h
  . rintro e l (⟨h, -⟩ | ⟨e, h, rfl⟩)
    . cases h
    . cases h
      exact he e

theorem obeys_tryAcquire_bind {f : Except Err Unit → Proc Err (Conn σ) β}
    {Q : Except (Stop Err) β → Phase → Prop} (hok : Obeys i (f (.ok ())) .owning Q)
    (herr : ∀ e, Obeys i (f (.error e)) .idle Q)
    : Obeys i (Proc.attempt (.atomic (acquire (.call i))) >>= f) .idle Q := by
  refine Proc.Safe.bind
    (R := fun r l => (r = .ok (.ok ()) ∧ l = .owning) ∨ ∃ e, r = .ok (.error e) ∧ l = .idle) ?_ ?_ ?_
  . refine Proc.Safe.attempt (obeys_acquire.imp ?_)
    rintro r l (⟨rfl, rfl⟩ | ⟨e, rfl, rfl⟩)
    . exact .inl ⟨rfl, rfl⟩
    . exact .inr ⟨e, rfl, rfl⟩
  . rintro r l (⟨h, rfl⟩ | ⟨e, h, rfl⟩)
    . cases h
      exact hok
    . cases h
      exact herr e
  . rintro e l (⟨h, -⟩ | ⟨e, h, -⟩) <;> cases h

theorem obeys_release
    : Obeys i (.atomic (release (.call i) : Prog Err (Conn σ) Unit)) .owning
        (fun r l => r = .ok () ∧ l = .ended) := by
  intro c ph htenure hl r c' hrun _
  cases hrun
  exact ⟨.ended, htenure.release hl, rfl, rfl⟩

theorem obeys_releaseRows (r : Nat)
    : Obeys i (.atomic (release (.rows r) : Prog Err (Conn σ) Unit)) (.closing r)
        (fun res l => res = .ok () ∧ l = .leaving r) := by
  intro c ph htenure hl res c' hrun _
  cases hrun
  exact ⟨.leaving r, htenure.releaseRows hl, rfl, rfl⟩

/--
A call that releases the connection in a deferred function has given it up when it returns.
-/
theorem obeys_deferred_release {p : Proc Err (Conn σ) α} (hp : Neutral i p)
    : Obeys i (.deferred p (.atomic (release (.call i)))) .owning (fun _ l => l = .ended) := by
  refine Proc.Safe.deferred (hp .owning) ?_
  rintro r _ rfl
  refine obeys_release.imp ?_
  rintro _ _ ⟨rfl, rfl⟩
  exact ⟨⟨(), rfl⟩, rfl⟩

def Settled (r : Except (Stop Err) α) (l : Phase) : Prop :=
  (∀ why, r ≠ .error (.panic why)) → l = .idle ∨ l = .ended ∨ ∃ r, l = .done r

theorem Settled.ended (r : Except (Stop Err) α) : Settled r .ended := fun _ => .inr (.inl rfl)

theorem Settled.idle (r : Except (Stop Err) α) : Settled r .idle := fun _ => .inl rfl

theorem Settled.panic (why : Panic) (l : Phase)
    : Settled (.error (.panic why) : Except (Stop Err) α) l :=
  fun hno => absurd rfl (hno why)

theorem obeys_openRows {rows : Rows} (hopen : rows.closed = false) (callback : RowsCallback)
    : Obeys i (.atomic (openRows (.call i) rows callback : Prog Err (Conn σ) Nat)) .owning
        (fun _ l => l = .ended) := by
  intro c ph htenure hl r c' hrun _
  cases hrun
  refine ⟨.ended, ?_, rfl⟩
  have hview : ({ c with
      rows := c.rows ++ [{ rows := rows, callback := some callback }]
      log := c.log ++ [.passed (.call i) (.rows c.rows.length)] } : Conn σ).view
        = { c.view with
            log := c.view.log ++ [.passed (.call i) (.rows c.view.rows.length)]
            rows := c.view.rows ++ [(false, some callback)] } := by
    simp [view, hopen]
  exact (htenure.openRows hl callback).congr hview

theorem triple_view_close [GoStd] [Peer σ] (v : View)
    : Triple True (fun c : Conn σ => c.view = v) close
        (fun _ c => c.view = v ∨ c.view = { v with attached := false, busy := false })
        (fun _ c => c.view = v ∨ c.view = { v with attached := false, busy := false }) := by
  have hdetach : ∀ c : Conn σ, c.view = v →
      c.detach.view = { v with attached := false, busy := false } := by
    rintro c rfl
    rfl
  have hrollback : Keeps (fun c : Conn σ => c.view = v) rollbackOpen := by
    intro c hc
    unfold rollbackOpen
    split
    . exact hc
    . exact Keeps.attempt (keeps_view_onSess _) c hc
  apply Triple.get_bind
  intro c hc
  apply Triple.ite
  . intro _
    exact Triple.pure (fun c' h => .inl (h ▸ hc))
  . intro _
    apply Triple.ite
    . intro _
      exact Triple.modify (fun c' h => .inr (hdetach c' (h ▸ hc)))
    . intro _
      apply Triple.bind (R := fun _ c => c.view = v)
      . exact (hrollback.weaken (fun c' h => h ▸ hc) (fun _ _ h => h) (fun _ _ h => .inl h))
      . intro _
        apply Triple.bind (R := fun _ c => c.view = v)
        . exact (Keeps.attempt (keeps_view_onSess _)).weaken (fun _ h => h) (fun _ _ h => h)
            (fun _ _ h => .inl h)
        . intro r
          apply Triple.bind
            (R := fun _ c => c.view = { v with attached := false, busy := false })
            (Triple.modify hdetach)
          intro _
          cases r with
          | ok _ => exact Triple.pure (fun _ h => .inr h)
          | error err => exact Triple.throw (fun _ h => .inr h)

theorem obeys_close [GoStd] [Peer σ]
    : Obeys i (.atomic (close : Prog Err (Conn σ) Unit)) .idle (fun _ l => l = .idle) := by
  intro c ph htenure hl r c' hrun _
  refine ⟨.idle, ?_, rfl⟩
  rw [← hl, Function.update_eq_self]
  rcases (triple_view_close c.view).of_result rfl hrun with (hview | hview) | rfl
  . exact htenure.congr hview
  . exact htenure.detach.congr hview
  . exact htenure

theorem obeys_beginClose (r : Nat) {l : Phase} (hl : l = .idle ∨ l = .ended)
    : Obeys i (.atomic (beginClose r : Prog Err (Conn σ) Bool)) l
        (fun res l => (res = .ok false ∧ l = .entered r) ∨ (res = .ok true ∧ l = .leaving r) ∨
          ∃ why, res = .error (.panic why)) := by
  intro c ph htenure hi res c' hrun hnodup
  unfold beginClose at hrun
  split at hrun
  . next o ho =>
    cases hrun
    have hr : c.view.rows[r]? = some (o.rows.closed, o.callback) := by simp [view, ho]
    refine ⟨_, htenure.beginClose (hi ▸ hl) hnodup hr, ?_⟩
    cases o.rows.closed with
    | true => exact .inr (.inl ⟨rfl, rfl⟩)
    | false => exact .inl ⟨rfl, rfl⟩
  . cases hrun
    refine ⟨l, ?_, .inr (.inr ⟨_, rfl⟩)⟩
    rwa [← hi, Function.update_eq_self]

theorem obeys_markClosed (r : Nat)
    : Obeys i (.atomic (onRows r (Cursor.modifyRows Rows.markClosed) : Prog Err (Conn σ) Unit))
        (.entered r)
        (fun res l => (res = .ok () ∧ l = .closing r) ∨ ∃ why, res = .error (.panic why)) := by
  intro c ph htenure hi res c' hrun _
  unfold onRows at hrun
  split at hrun
  . next o ho =>
    cases hrun
    have hr : c.view.rows[r]? = some (o.rows.closed, o.callback) := by simp [view, ho]
    refine ⟨_, (htenure.markClosed hi hr).congr ?_, .inl ⟨rfl, rfl⟩⟩
    simp [view, List.map_set, Rows.markClosed]
  . cases hrun
    refine ⟨.entered r, ?_, .inr ⟨_, rfl⟩⟩
    rwa [← hi, Function.update_eq_self]

theorem obeys_closeCallback (r : Nat)
    : Obeys i (.atomic (closeCallback r : Prog Err (Conn σ) _)) (.closing r)
        (fun res l => ∃ callback, res = .ok (some callback) ∧ l = .closing r) := by
  intro c ph htenure hi res c' hrun _
  have hmem : .rows r ∈ owners c.view.log := by simp [htenure.owners_of_closing hi]
  obtain ⟨closed, callback, hr⟩ := htenure.callback r hmem
  rw [view, List.getElem?_map, Option.map_eq_some_iff] at hr
  obtain ⟨o, ho, heq⟩ := hr
  simp only [Prod.mk.injEq] at heq
  unfold closeCallback at hrun
  rw [ho] at hrun
  cases hrun
  refine ⟨.closing r, ?_, callback, by rw [heq.2], rfl⟩
  rwa [← hi, Function.update_eq_self]

theorem obeys_clearCallback (r : Nat)
    : Obeys i (.atomic (clearCallback r : Prog Err (Conn σ) Unit)) (.leaving r)
        (fun _ l => l = .leaving r) := by
  intro c ph htenure hi res c' hrun _
  refine ⟨.leaving r, ?_, rfl⟩
  rw [← hi, Function.update_eq_self]
  unfold clearCallback at hrun
  split at hrun
  . next o ho =>
    cases hrun
    have hr : c.view.rows[r]? = some (o.rows.closed, o.callback) := by simp [view, ho]
    refine (htenure.clearCallback hi hr).congr ?_
    simp [view, List.map_set]
  . cases hrun
    exact htenure

theorem obeys_endClose (r : Nat)
    : Obeys i (.atomic (endClose r : Prog Err (Conn σ) Unit)) (.leaving r)
        (fun _ l => l = .done r) := by
  intro c ph htenure hi res c' hrun _
  cases hrun
  exact ⟨.done r, htenure.endClose hi, rfl⟩

end Conn

end Obeys

end H2Go
