import H2Go.Rows.Impl
import H2Go.Session.Lemmas
import H2Go.Value.Lemmas

/-!
This module contains the reading of a batch as one program on the transfer stream, and the proof that
`fetchRows` does to the stream what this program does.
-/

namespace H2Go

variable {σ : Type} {α : Type}

namespace Cursor

theorem onSession_run (m : Prog Err (Session σ) α) (c : Cursor σ)
    : onSession m c = (m c.session).map id (fun s => { c with session := s }) := rfl

theorem startRows_of_ok {r : Rows} {m : Prog Err (Cursor σ) Unit} {s s' : Session σ} {r' : Rows}
    (h : startRows r m s = .ok r' s')
    : m { rows := r, session := s } = .ok () { rows := r', session := s' } := by
  unfold startRows at h
  split at h
  . next hrun =>
    cases h
    exact hrun
  all_goals cases h

theorem startRows_of_fail {r : Rows} {m : Prog Err (Cursor σ) Unit} {s s' : Session σ} {e : Err}
    (h : startRows r m s = .fail e s')
    : ∃ r', m { rows := r, session := s } = .fail e { rows := r', session := s' } := by
  unfold startRows at h
  split at h
  . cases h
  . next c hrun =>
    cases h
    exact ⟨c.rows, hrun⟩
  all_goals cases h

section Close

theorem keeps_modifyRows (P : Rows → Prop) (f : Rows → Rows) (h : ∀ r, P r → P (f r))
    : Keeps (fun c : Cursor σ => P c.rows) (modifyRows f) :=
  Keeps.modify (fun c hc => h c.rows hc)

theorem keeps_ifAlive (P : Rows → Prop) (m : Prog Err (Tr σ) Unit)
    : Keeps (fun c : Cursor σ => P c.rows) (ifAlive m) := by
  apply Keeps.bind Keeps.get
  intro c
  apply Keeps.ite
  . exact Keeps.attempt (Keeps.zoom (fun _ _ h => h))
  . exact Keeps.pure _

theorem keeps_firstError {P : Cursor σ → Prop} (results : List (Except Err Unit))
    : Keeps P (firstError results) := by
  induction results with
  | nil => exact Keeps.pure _
  | cons r results ih =>
    cases r with
    | error e => exact Keeps.throw _
    | ok _ => exact ih

theorem ifAlive_of_dead {c : Cursor σ} (h : c.session.dead = true) (m : Prog Err (Tr σ) Unit)
    : ifAlive m c = .ok (.ok ()) c := by
  simp [ifAlive, h]

variable [Peer σ]

theorem keeps_runCloseCallback (P : Rows → Prop) (cb : Option CloseCallback)
    : Keeps (fun c : Cursor σ => P c.rows) (runCloseCallback cb) := by
  unfold runCloseCallback
  split
  . exact Keeps.zoom (fun _ _ h => h)
  . exact Keeps.pure _

theorem triple_close
    : Triple True (fun _ : Cursor σ => True) close (fun _ c => c.rows.closed = true)
        (fun _ c => c.rows.closed = true) := by
  apply Triple.get_bind
  intro c _
  apply Triple.ite
  . intro hclosed
    apply Triple.pure
    rintro _ rfl
    exact hclosed
  . intro _
    apply Triple.bind (R := fun _ c => c.rows.closed = true)
    . exact Triple.modify (fun _ _ => rfl)
    . intro _
      apply Keeps.bind (keeps_ifAlive (fun r => r.closed = true) _)
      intro _
      apply Keeps.bind (Keeps.ite (keeps_ifAlive (fun r => r.closed = true) _) (Keeps.pure _))
      intro _
      apply Keeps.bind (keeps_modifyRows (fun r => r.closed = true) Rows.clear (fun _ h => h))
      intro _
      apply Keeps.bind (Keeps.attempt (keeps_runCloseCallback (fun r => r.closed = true) _))
      intro _
      apply Keeps.bind (keeps_modifyRows (fun r => r.closed = true) Rows.clearCallback (fun _ h => h))
      intro _
      exact keeps_firstError _

theorem close_of_closed {c : Cursor σ} (h : c.rows.closed = true) : close c = .ok () c := by
  simp [close, h]

theorem closeOwnCommand_of_dead {c : Cursor σ} (h : c.session.dead = true) (r : Rows)
    : closeOwnCommand r c = .ok (.ok ()) c := by
  unfold closeOwnCommand
  split
  . exact ifAlive_of_dead h _
  . rfl

theorem runCloseCallback_of_dead {c : Cursor σ} (h : c.session.dead = true)
    (cb : Option CloseCallback)
    : runCloseCallback cb c = .ok () c := by
  unfold runCloseCallback
  split
  . simp [onSession_run, Session.closeCommand, Session.trNil_of_dead h]
  . rfl

theorem close_of_dead {c : Cursor σ} (h : c.session.dead = true)
    : ∃ c', close c = .ok () c' ∧ c'.session = c.session := by
  cases hclosed : c.rows.closed with
  | true => exact ⟨c, close_of_closed hclosed, rfl⟩
  | false =>
    refine ⟨{ c with rows := c.rows.markClosed.clear.clearCallback }, ?_, rfl⟩
    have hmark : ({ c with rows := c.rows.markClosed } : Cursor σ).session.dead = true := h
    have hclear : ({ c with rows := c.rows.markClosed.clear } : Cursor σ).session.dead = true := h
    simp only [close, Prog.bind_run, Prog.get_run, Out.andThen_ok, hclosed, modifyRows,
      Prog.modify_run, Bool.false_eq_true, if_false, ifAlive_of_dead hmark,
      closeOwnCommand_of_dead hmark, Prog.attempt_of_ok (runCloseCallback_of_dead hclear _)]
    rfl

end Close

end Cursor

section

variable [GoStd] [Peer σ]

namespace Tr

/--
Read up to `fetch` rows, and whether the marker for the end of the result was among them.
-/
def readRows (m : Option ResultMeta) (columnCount : Int) (fetch : Nat) (acc : Batch)
    : Prog Err (Tr σ) (Batch × Bool) :=
  match fetch with
  | 0 => pure (acc, false)
  | fetch + 1 => do
    let rowFlag ← inFunc "fetchRows" "failed to read row flag" readByte
    if int8 rowFlag = 1 then do
      let r ← readColumns "h2go: fetchRows: column %d metadata not found"
        "h2go: fetchRows: failed to read column %d: %w" m columnCount
        { acc.2 with curRow := acc.1.length }
      readRows m columnCount fetch (acc.1 ++ [r.1], r.2)
    else if int8 rowFlag = 0 then
      pure (acc, true)
    else if int8 rowFlag = -1 then
      readH2Error
    else
      Prog.throw (.errorf "h2go: fetchRows: unexpected row flag %d" [.int rowFlag.toNat])

theorem plain_readColumn (missing failed : String) (m : Option ResultMeta) (lc : LobCollector)
    (j : Nat)
    : FailsPlain (readColumn missing failed m lc j : Prog Err (Tr σ) _) := by
  apply FailsWith.bind
  . cases m with
    | none => exact FailsWith.panic _
    | some m => exact FailsWith.pure _
  . intro col
    cases col with
    | none => exact FailsWith.throw (fun _ => Err.plain_errorf _ _)
    | some col =>
      exact FailsWith.of_progress (fun _ => progress_wrapErr _ _ (progress_readValueInternal _ _))

theorem plain_readColumns (missing failed : String) (m : Option ResultMeta) (columnCount : Int)
    (lc : LobCollector)
    : FailsPlain (readColumns missing failed m columnCount lc : Prog Err (Tr σ) _) := by
  refine FailsWith.bind (FailsWith.make _ _) (fun _ => FailsWith.iter _ _ _ ?_)
  intro j acc
  exact FailsWith.bind (plain_readColumn missing failed m acc.2 j) (fun _ => FailsWith.pure _)

end Tr

namespace Cursor

/--
The cursor when the rows `buf` are buffered and the stream is `t`, `ended` says that the marker for
the end of the result was read.
-/
def afterBatch (c : Cursor σ) (buf : List (List Value)) (ended : Bool) (t : Tr σ) : Cursor σ :=
  { rows := { c.rows.setBuffer buf with noMoreRows := c.rows.noMoreRows || ended }
    session := c.session.setTr t }

/--
What `fetchRows` makes of the run `o` of the reader: the rows end up in the buffer, and the session
survives an error only when it is one of the server's.
-/
def Follows (c : Cursor σ) (o : Out Err (Tr σ) (Batch × Bool)) (o' : Out Err (Cursor σ) LobCollector)
    : Prop :=
  match o with
  | .ok (acc, ended) t => o' = .ok acc.2 (c.afterBatch acc.1 ended t)
  | .fail e t =>
    ∃ buf, o' = .fail e {
      rows := c.rows.setBuffer buf, session := (c.session.setTr t).afterErr e }
  | .panic p => o' = .panic p
  | .stuck => o' = .stuck

theorem fetchRowsLoop_follows (fetch : Nat) (lc : LobCollector) {c : Cursor σ}
    (h : c.session.trNil = false)
    : c.Follows (Tr.readRows c.rows.columns c.rows.columnCount fetch (c.rows.bufferedRows, lc)
        c.session.tr) (fetchRowsLoop fetch lc c) := by
  induction fetch generalizing lc c with
  | zero => simp [Tr.readRows, fetchRowsLoop, Follows, afterBatch, Rows.setBuffer]
  | succ fetch ih =>
    unfold Tr.readRows fetchRowsLoop
    rw [Prog.bind_run, Prog.bind_run, onSession_run, Session.orBreak_run h]
    cases hflag : (inFunc "fetchRows" "failed to read row flag" Tr.readByte : Prog Err (Tr σ) _)
      c.session.tr with
    | ok rowFlag t =>
      dsimp only [Out.map_ok, Out.andThen_ok]
      by_cases hrow : int8 rowFlag = 1
      . rw [if_pos hrow, if_pos hrow, Prog.bind_run, Prog.bind_run, Prog.get_run, Out.andThen_ok,
          Prog.bind_run, onSession_run, Session.orBreak_run (by exact h), Session.setTr_tr]
        dsimp only
        cases hcols : (Tr.readColumns "h2go: fetchRows: column %d metadata not found"
          "h2go: fetchRows: failed to read column %d: %w" c.rows.columns c.rows.columnCount
          { lc with curRow := c.rows.bufferedRows.length } : Prog Err (Tr σ) _) t with
        | ok r t' =>
          exact ih r.2 (c := { rows := c.rows.append r.1, session := c.session.setTr t' }) h
        | fail e t' =>
          have hplain := (Tr.plain_readColumns _ _ _ _ _).of_run hcols
          exact ⟨c.rows.bufferedRows, by rw [Session.afterErr_of_plain hplain.1]; rfl⟩
        | panic | stuck => simp [Follows]
      . rw [if_neg hrow, if_neg hrow]
        by_cases hend : int8 rowFlag = 0
        . rw [if_pos hend, if_pos hend]
          simp [Follows, afterBatch, modifyRows, Rows.endOfResult, Rows.setBuffer]
        . rw [if_neg hend, if_neg hend]
          by_cases herr : int8 rowFlag = -1
          . rw [if_pos herr, if_pos herr, onSession_run, Session.orBreakUnlessAligned_run (by exact h),
              Session.setTr_tr]
            rw [Tr.readH2Error_run, Tr.readH2Error_run]
            cases Tr.readH2ErrorFrame t with
            | ok e t' => exact ⟨c.rows.bufferedRows, rfl⟩
            | fail e t' => exact ⟨c.rows.bufferedRows, rfl⟩
            | panic | stuck => rfl
          . rw [if_neg herr, if_neg herr]
            exact ⟨c.rows.bufferedRows, rfl⟩
    | fail e t =>
      have hplain : e.Plain :=
        (FailsWith.of_progress (fun _ => progress_wrapErr _ _ Tr.progress_readByte)).of_run hflag
      exact ⟨c.rows.bufferedRows, by rw [Session.afterErr_of_plain hplain.1]; rfl⟩
    | panic | stuck => simp [Follows]

section Next

variable {c : Cursor σ} {dest : List Value}

theorem next_of_closed (h : c.rows.closed = true) : next dest c = .fail .eof c := by
  simp [next, h]

theorem next_of_err {e : Err} (hopen : c.rows.closed = false) (h : c.rows.err = some e)
    : next dest c = .fail e c := by
  simp [next, hopen, h]

theorem next_of_mismatch (hopen : c.rows.closed = false) (herr : c.rows.err = none)
    (h : (dest.length : Int) ≠ c.rows.columnCount)
    : ∃ e, next dest c = .fail e c := by
  simp [next, hopen, herr, h]

omit [GoStd] [Peer σ] in
theorem takeRow_of_cons {row : List Value} {rest : List (List Value)}
    (h : c.rows.bufferedRows = row :: rest)
    : takeRow dest c = .ok (row.take dest.length ++ dest.drop row.length)
        { c with rows := c.rows.advance row } := by
  simp [takeRow, Prog.index, h, modifyRows]

theorem next_of_buffered (hopen : c.rows.closed = false) (herr : c.rows.err = none)
    (hdest : (dest.length : Int) = c.rows.columnCount) (h : c.rows.bufferedRows ≠ [])
    : next dest c = takeRow dest c := by
  simp [next, hopen, herr, hdest, h]

theorem next_of_done (hopen : c.rows.closed = false) (herr : c.rows.err = none)
    (hdest : (dest.length : Int) = c.rows.columnCount) (hbuf : c.rows.bufferedRows = [])
    (h : nextFetch c.rows = none)
    : next dest c = .fail .eof c := by
  simp [next, hopen, herr, hdest, hbuf, h]

theorem next_of_fetch {fetch : Int} (hopen : c.rows.closed = false) (herr : c.rows.err = none)
    (hdest : (dest.length : Int) = c.rows.columnCount) (hbuf : c.rows.bufferedRows = [])
    (h : nextFetch c.rows = some fetch)
    : next dest c = (fetchNextBatch fetch c).andThen (fun _ => takeFetched dest) := by
  simp [next, hopen, herr, hdest, hbuf, h]

omit [GoStd] [Peer σ] in
theorem takeFetched_of_nil (h : c.rows.bufferedRows = []) : takeFetched dest c = .fail .eof c := by
  simp [takeFetched, h]

omit [GoStd] [Peer σ] in
theorem takeFetched_of_ne_nil (h : c.rows.bufferedRows ≠ []) : takeFetched dest c = takeRow dest c := by
  simp [takeFetched, h]

inductive NextErr (dest : List Value) (c : Cursor σ) : Err → Cursor σ → Prop where
  | closed (h : c.rows.closed = true) : NextErr dest c .eof c
  | sticky {e : Err} (hopen : c.rows.closed = false) (h : c.rows.err = some e) : NextErr dest c e c
  | mismatch {e : Err} (herr : c.rows.err = none) (h : (dest.length : Int) ≠ c.rows.columnCount)
    : NextErr dest c e c
  | done (hopen : c.rows.closed = false) (herr : c.rows.err = none)
    (hdest : (dest.length : Int) = c.rows.columnCount) (hbuf : c.rows.bufferedRows = [])
    (h : nextFetch c.rows = none) : NextErr dest c .eof c
  | failed {e : Err} {c' : Cursor σ} {fetch : Int} (hopen : c.rows.closed = false)
    (herr : c.rows.err = none) (h : fetchNextBatch fetch c = .fail e c') : NextErr dest c e c'
  | empty {c' : Cursor σ} {fetch : Int} (hopen : c.rows.closed = false) (herr : c.rows.err = none)
    (hbuf : c.rows.bufferedRows = []) (hfetch : nextFetch c.rows = some fetch)
    (h : fetchNextBatch fetch c = .ok () c') (hempty : c'.rows.bufferedRows = [])
    : NextErr dest c .eof c'

omit [GoStd] [Peer σ] in
theorem takeRow_ne_fail {e : Err} {c' : Cursor σ} : takeRow dest c ≠ .fail e c' := by
  intro h
  cases hbuf : c.rows.bufferedRows with
  | nil => simp [takeRow, Prog.index, hbuf] at h
  | cons row rest =>
    rw [takeRow_of_cons hbuf] at h
    cases h

theorem nextErr_of_fail {e : Err} {c' : Cursor σ} (h : next dest c = .fail e c')
    : NextErr dest c e c' := by
  cases hopen : c.rows.closed with
  | true =>
    rw [next_of_closed hopen] at h
    cases h
    exact .closed hopen
  | false =>
    cases herr : c.rows.err with
    | some err =>
      rw [next_of_err hopen herr] at h
      cases h
      exact .sticky hopen herr
    | none =>
      by_cases hdest : (dest.length : Int) = c.rows.columnCount
      . by_cases hbuf : c.rows.bufferedRows = []
        . cases hfetch : nextFetch c.rows with
          | none =>
            rw [next_of_done hopen herr hdest hbuf hfetch] at h
            cases h
            exact .done hopen herr hdest hbuf hfetch
          | some fetch =>
            rw [next_of_fetch hopen herr hdest hbuf hfetch] at h
            cases hrun : fetchNextBatch fetch c with
            | ok a c1 =>
              rw [hrun, Out.andThen_ok] at h
              by_cases hempty : c1.rows.bufferedRows = []
              . rw [takeFetched_of_nil hempty] at h
                cases h
                exact .empty hopen herr hbuf hfetch hrun hempty
              . rw [takeFetched_of_ne_nil hempty] at h
                exact absurd h takeRow_ne_fail
            | fail e1 c1 =>
              rw [hrun] at h
              cases h
              exact .failed hopen herr hrun
            | panic | stuck =>
              rw [hrun] at h
              cases h
        . rw [next_of_buffered hopen herr hdest hbuf] at h
          exact absurd h takeRow_ne_fail
      . obtain ⟨e', he'⟩ := next_of_mismatch hopen herr hdest
        rw [he'] at h
        cases h
        exact .mismatch herr hdest

/--
When `next` hands out a row, it comes from the buffer or from a batch that was fetched for it.
-/
theorem takeRow_of_next_ok {row : List Value} {c' : Cursor σ} (h : next dest c = .ok row c')
    : c.rows.closed = false ∧ c.rows.err = none ∧ (dest.length : Int) = c.rows.columnCount ∧
        (takeRow dest c = .ok row c' ∨ ∃ fetch c1, c.rows.bufferedRows = [] ∧
          fetchNextBatch fetch c = .ok () c1 ∧ takeRow dest c1 = .ok row c') := by
  cases hopen : c.rows.closed with
  | true =>
    rw [next_of_closed hopen] at h
    cases h
  | false =>
    cases herr : c.rows.err with
    | some err =>
      rw [next_of_err hopen herr] at h
      cases h
    | none =>
      by_cases hdest : (dest.length : Int) = c.rows.columnCount
      . refine ⟨rfl, rfl, hdest, ?_⟩
        by_cases hbuf : c.rows.bufferedRows = []
        . cases hfetch : nextFetch c.rows with
          | none =>
            rw [next_of_done hopen herr hdest hbuf hfetch] at h
            cases h
          | some fetch =>
            rw [next_of_fetch hopen herr hdest hbuf hfetch] at h
            cases hrun : fetchNextBatch fetch c with
            | ok a c1 =>
              rw [hrun, Out.andThen_ok] at h
              by_cases hempty : c1.rows.bufferedRows = []
              . rw [takeFetched_of_nil hempty] at h
                cases h
              . rw [takeFetched_of_ne_nil hempty] at h
                exact .inr ⟨fetch, c1, hbuf, hrun, h⟩
            | fail | panic | stuck =>
              rw [hrun] at h
              cases h
        . rw [next_of_buffered hopen herr hdest hbuf] at h
          exact .inl h
      . obtain ⟨e, he⟩ := next_of_mismatch hopen herr hdest
        rw [he] at h
        cases h

omit [GoStd] [Peer σ] in
theorem advance_of_takeRow_ok {row : List Value} {c' : Cursor σ} (h : takeRow dest c = .ok row c')
    : ∃ first rest, c.rows.bufferedRows = first :: rest
        ∧ row = first.take dest.length ++ dest.drop first.length
        ∧ c' = { c with rows := c.rows.advance first } := by
  cases hbuf : c.rows.bufferedRows with
  | nil => simp [takeRow, Prog.index, hbuf] at h
  | cons first rest =>
    rw [takeRow_of_cons hbuf] at h
    cases h
    exact ⟨first, rest, rfl, rfl, rfl⟩

end Next

end Cursor

namespace Session

theorem prefetch_of_newRows_ok {resultID columnCount fetchSize : Int} {ownsCommand : Bool}
    {commandID : Int} {s s' : Session σ} {r : Rows}
    (h : newRows resultID columnCount fetchSize ownsCommand commandID s = .ok r s')
    : s.trNil = false ∧ ∃ rowCount s1 columns s2,
        orBreak (inFunc "NewRows" "failed to read row count" Tr.readRowCount) s = .ok rowCount s1 ∧
        orBreak (inFunc "NewRows" "failed to read column metadata"
          (Tr.readResultMeta columnCount tcpProtocolVersion21)) s1 = .ok columns s2 ∧
        Cursor.prefetchInitialRows {
          rows := Rows.initial resultID columnCount fetchSize ownsCommand commandID rowCount columns
          session := s2 } = .ok () { rows := r, session := s' } := by
  unfold newRows at h
  cases hnil : s.trNil with
  | true =>
    rw [ifOpen_of_trNil hnil] at h
    cases h
  | false =>
    rw [ifOpen_of_open hnil] at h
    obtain ⟨rowCount, s1, hcount, h⟩ := Prog.bind_eq_ok h
    obtain ⟨columns, s2, hmeta, h⟩ := Prog.bind_eq_ok h
    exact ⟨rfl, rowCount, s1, columns, s2, hcount, hmeta, Cursor.startRows_of_ok h⟩

end Session

end

end H2Go
