import H2Go.Rows.Delivery
import H2Go.Conn.Impl
import H2Go.Session.Open

/-!
This module contains the size of a batch: how many rows a request asks for, and how many the client
goes on to read. The size is an int for the client and an int32 on the wire.
-/

namespace H2Go

open BigEndian

variable {σ : Type}

def queryHeader (cmdID resultID maxRows fetchSize : Int) (paramCount : Nat) : List UInt8 :=
  intBytes 4 commandExecuteQuery ++ (intBytes 4 cmdID ++ (intBytes 4 resultID ++
    (intBytes 8 maxRows ++ (intBytes 4 fetchSize ++ intBytes 4 paramCount))))

theorem writes_writeQueryHeader (cmdID resultID maxRows fetchSize : Int) (paramCount : Nat)
    : Tr.Writes (Session.writeQueryHeader cmdID resultID maxRows fetchSize paramCount
        : Prog Err (Tr σ) _) () (queryHeader cmdID resultID maxRows fetchSize paramCount) := by
  apply Tr.Writes.bind (Tr.writes_wrapErr _ _ (Tr.writes_writeInt32 _))
  apply Tr.Writes.bind (Tr.writes_wrapErr _ _ (Tr.writes_writeInt32 _))
  apply Tr.Writes.bind (Tr.writes_wrapErr _ _ (Tr.writes_writeInt32 _))
  apply Tr.Writes.bind (Tr.writes_wrapErr _ _ (Tr.writes_writeInt64 _))
  apply Tr.Writes.bind (Tr.writes_wrapErr _ _ (Tr.writes_writeInt32 _))
  exact Tr.writes_wrapErr _ _ (Tr.writes_writeInt32 _)

def int32At (i : Nat) (request : List UInt8) : Int := beInt ((request.drop i).take 4)

theorem beInt_intBytes_wrap (x : Int) : beInt (intBytes 4 x) = wrapInt32 x := by
  have hmod := beNat_intBytes 4 x
  have hlt := beNat_lt (intBytes 4 x)
  unfold beInt wrapInt32
  rw [length_intBytes] at hlt ⊢
  split <;> omega

theorem int32At_queryHeader (cmdID resultID maxRows fetchSize : Int) (paramCount : Nat)
    : int32At 20 (queryHeader cmdID resultID maxRows fetchSize paramCount) = wrapInt32 fetchSize := by
  have hsplit : queryHeader cmdID resultID maxRows fetchSize paramCount
      = (intBytes 4 commandExecuteQuery ++ intBytes 4 cmdID ++ intBytes 4 resultID ++ intBytes 8 maxRows)
        ++ (intBytes 4 fetchSize ++ intBytes 4 paramCount) := by
    simp [queryHeader]
  rw [int32At, hsplit, List.drop_left' (by simp), List.take_left' (by simp), beInt_intBytes_wrap]

theorem int32At_fetchRowsRequest (resultID count : Int)
    : int32At 8 (fetchRowsRequest resultID count) = wrapInt32 count := by
  have hsplit : fetchRowsRequest resultID count
      = (intBytes 4 resultFetchRows ++ intBytes 4 resultID) ++ (intBytes 4 count ++ []) := by
    simp [fetchRowsRequest]
  rw [int32At, hsplit, List.drop_left' (by simp), List.take_left' (by simp), beInt_intBytes_wrap]

/--
The number of row flags that `fetchRows fetch` reads, unless the end or an error comes first.
-/
def rowFlags (fetch : Int) : Nat := fetch.toNat

/--
The number of rows that a server sends when it is asked for `asked` of them, and has `left` of them
as far as it knows.
-/
def rowsServed (left asked : Int) : Nat := (initialCount left asked).toNat

def Rows.left (r : Rows) : Int := if r.rowCount ≥ 0 then r.rowCount - r.rowOffset else -1

theorem Conn.effectiveFetchSize_pos (c : Conn σ) : 0 < c.effectiveFetchSize := by
  unfold effectiveFetchSize defaultFetchSize
  split
  . decide
  . next h =>
    simp only [not_or, not_le] at h
    exact h.2.2

section

variable [GoStd] [Peer σ]

theorem Cursor.fetchRows_of_nonpos {fetch : Int} (h : fetch ≤ 0) (c : Cursor σ)
    : fetchRows fetch c = .ok () c := by
  unfold fetchRows
  rw [Int.toNat_of_nonpos h]
  rfl

def Rows.prefetch (r : Rows) : Int :=
  if r.rowCount ≥ 0 ∧ r.fetchSize > r.rowCount then r.rowCount else r.fetchSize

theorem Cursor.prefetchInitialRows_eq (c : Cursor σ)
    : prefetchInitialRows c
        = wrapErr "h2go: prefetchInitialRows: %w" [] (fetchRows c.rows.prefetch) c := by
  unfold prefetchInitialRows
  rw [Prog.bind_run, Prog.get_run, Out.andThen_ok]
  by_cases h : c.rows.prefetch > 0
  . exact congrFun (if_pos h) c
  . have hnone : wrapErr "h2go: prefetchInitialRows: %w" [] (fetchRows c.rows.prefetch) c
        = .ok () c := by
      rw [wrapErr, Prog.mapErr_run, fetchRows_of_nonpos (Int.not_lt.mp h)]
      rfl
    rw [hnone]
    exact congrFun (if_neg h) c

/--
What `fetchRows` takes from the stream is a batch that ends after as many rows as it reads flags, or
earlier with the marker for the end.
-/
theorem Cursor.batch_of_fetchRows {c c' : Cursor σ} {m : ResultMeta}
    (hopen : c.session.trNil = false) (hcolumns : c.rows.columns = some m)
    (hm : m.Fits c.rows.columnCount) {fetch : Int} (h : fetchRows fetch c = .ok () c')
    : ∃ rows ended rest, (∀ cells ∈ rows, RowSent σ m cells) ∧
        Complete (rowFlags fetch) rows ended ∧ c.session.tr.inp = batchBytes rows ended ++ rest := by
  obtain ⟨lc, c1, hloop, -⟩ := Prog.bind_eq_ok h
  have hfollows := fetchRowsLoop_follows fetch.toNat .empty hopen
  rw [hcolumns] at hfollows
  cases hrun : Tr.readRows (some m) c.rows.columnCount fetch.toNat (c.rows.bufferedRows, .empty)
      c.session.tr with
  | ok res t =>
    obtain ⟨rows, hsent, hcomplete, hinp, -⟩ := Tr.batch_of_readRows hm fetch.toNat rfl hrun
    exact ⟨rows, res.2, t.inp, hsent, hcomplete, hinp⟩
  | fail e t =>
    rw [hrun] at hfollows
    obtain ⟨buf, hfail⟩ := hfollows
    rw [hfail] at hloop
    cases hloop
  | panic | stuck =>
    rw [hrun] at hfollows
    rw [show fetchRowsLoop fetch.toNat .empty c = _ from hfollows] at hloop
    cases hloop

def Cursor.ScanOf (fetchSize : Int) (c : Cursor σ) : Prop :=
  ∃ resultID columnCount ownsCommand commandID s r s',
    Session.newRows resultID columnCount fetchSize ownsCommand commandID s = .ok r s'
      ∧ Steps { rows := r, session := s' } c

namespace Cursor

theorem fetchSize_step {c c' : Cursor σ} {n : Int} (h : Step c c')
    (hc : c.rows.closed = false → c.rows.fetchSize = n)
    : c'.rows.closed = false → c'.rows.fetchSize = n := by
  cases h with
  | next h =>
    obtain ⟨hopen, -, -, htake | ⟨fetch, c1, -, hfetch, htake⟩⟩ := takeRow_of_next_ok h
    . obtain ⟨_, _, -, -, rfl⟩ := advance_of_takeRow_ok htake
      exact hc
    . obtain ⟨_, _, hrows⟩ := (triple_fetchNextBatch fetch).of_ok (Rows.Like.refl _) hfetch
      obtain ⟨_, _, -, -, rfl⟩ := advance_of_takeRow_ok htake
      intro _
      show c1.rows.fetchSize = n
      rw [hrows]
      exact hc hopen
  | nextErr h =>
    cases nextErr_of_fail h with
    | closed | sticky | mismatch | done => exact hc
    | failed hopen herr h =>
      obtain ⟨_, ⟨_, _, rfl⟩, hrows, -⟩ := (triple_fetchNextBatch _).of_fail (Rows.Like.refl _) h
      intro _
      rw [hrows]
      exact hc hopen
    | empty hopen _ _ _ h _ =>
      obtain ⟨_, _, hrows⟩ := (triple_fetchNextBatch _).of_ok (Rows.Like.refl _) h
      intro _
      rw [hrows]
      exact hc hopen
  | close h =>
    intro hopen
    rw [triple_close.of_ok True.intro h] at hopen
    cases hopen
  | closeErr h =>
    intro hopen
    rw [triple_close.of_fail True.intro h] at hopen
    cases hopen

theorem fetchSize_of_scanOf {c : Cursor σ} {n : Int} (h : c.ScanOf n)
    : c.rows.closed = false → c.rows.fetchSize = n := by
  obtain ⟨_, _, _, _, s, r, s', hnew, hsteps⟩ := h
  induction hsteps with
  | refl =>
    obtain ⟨-, _, _, _, _, -, -, hprefetch⟩ := Session.prefetch_of_newRows_ok hnew
    obtain ⟨_, _, hrows⟩ := triple_prefetchInitialRows.of_ok (Rows.Like.refl _) hprefetch
    intro _
    rw [show r = _ from hrows]
    rfl
  | tail _ hstep ih => exact fetchSize_step hstep ih

end Cursor

omit [GoStd] [Peer σ] in
/--
The client reads as many rows of the first batch as the server was asked for exactly when the size
fits into an int32, or when the result is no larger than what the int32 has become.
-/
theorem first_batch_iff {r : Rows} (hsize : 0 < r.fetchSize)
    : rowsServed r.rowCount (wrapInt32 r.fetchSize) = rowFlags r.prefetch ↔
        r.fetchSize < 2 ^ 31 ∨ (0 ≤ r.rowCount ∧ r.rowCount ≤ max 0 (wrapInt32 r.fetchSize)) := by
  unfold rowsServed rowFlags initialCount Rows.prefetch wrapInt32
  split <;> split <;> omega

omit [GoStd] [Peer σ] in
theorem next_batch_iff {r : Rows} (hsize : 0 < r.fetchSize) {fetch : Int}
    (h : Cursor.nextFetch r = some fetch)
    : rowsServed r.left (wrapInt32 fetch) = rowFlags fetch ↔
        r.fetchSize < 2 ^ 31 ∨ (0 ≤ r.rowCount ∧ r.rowCount - r.rowOffset < 2 ^ 31) := by
  unfold rowsServed rowFlags initialCount Rows.left wrapInt32
  unfold Cursor.nextFetch at h
  grind

/--
For any batch size and any row count the server is asked for as many rows as the client reads exactly
when their number fits into an int32, and with the first batch also when the result is no larger than
what the int32 has become.
-/
theorem batch_size_agrees_iff (conn : Conn σ)
    : (∀ (cmdID resultID maxRows columnCount commandID rowCount : Int) (ownsCommand : Bool)
          (paramCount : Nat) (columns : ResultMeta) (s : Session σ),
        let header := queryHeader cmdID resultID maxRows conn.effectiveFetchSize paramCount
        let rows := Rows.initial resultID columnCount conn.effectiveFetchSize ownsCommand commandID
          rowCount columns
        Tr.Writes (Session.writeQueryHeader cmdID resultID maxRows conn.effectiveFetchSize paramCount
          : Prog Err (Tr σ) _) () header ∧
        Cursor.prefetchInitialRows ⟨rows, s⟩
          = wrapErr "h2go: prefetchInitialRows: %w" [] (Cursor.fetchRows rows.prefetch) ⟨rows, s⟩ ∧
        (rowsServed rowCount (int32At 20 header) = rowFlags rows.prefetch ↔
          conn.effectiveFetchSize < 2 ^ 31 ∨
            (0 ≤ rowCount ∧ rowCount ≤ max 0 (wrapInt32 conn.effectiveFetchSize)))) ∧
      (∀ (c : Cursor σ) (fetch : Int), c.ScanOf conn.effectiveFetchSize → c.rows.closed = false →
        Cursor.nextFetch c.rows = some fetch →
        let request := fetchRowsRequest c.rows.resultID fetch
        Tr.Sends (Cursor.sendFetchRows c.rows.resultID fetch : Prog Err (Tr σ) _) request ∧
        (rowsServed c.rows.left (int32At 8 request) = rowFlags fetch ↔
          conn.effectiveFetchSize < 2 ^ 31 ∨
            (0 ≤ c.rows.rowCount ∧ c.rows.rowCount - c.rows.rowOffset < 2 ^ 31))) := by
  have hsize := conn.effectiveFetchSize_pos
  constructor
  . intro cmdID resultID maxRows columnCount commandID rowCount ownsCommand paramCount columns s header
      rows
    refine ⟨writes_writeQueryHeader _ _ _ _ _, Cursor.prefetchInitialRows_eq _, ?_⟩
    rw [int32At_queryHeader]
    exact first_batch_iff (r := rows) hsize
  . intro c fetch hscan hopen hfetch request
    rw [int32At_fetchRowsRequest, ← Cursor.fetchSize_of_scanOf hscan hopen]
    rw [← Cursor.fetchSize_of_scanOf hscan hopen] at hsize
    exact ⟨Cursor.sends_sendFetchRows _ _, next_batch_iff hsize hfetch⟩

end

section

open StandIn

/--
A result of two rows with one boolean each, of which the server has sent `sent`.
-/
def twoBooleans (sent : Nat) : Session Silent :=
  Session.opened (Tr.ofBytes (intBytes 8 2 ++ List.replicate 16 255 ++ intBytes 4 1 ++ [0, 0, 0, 0, 0] ++
      (List.replicate sent ([1] ++ intBytes 4 1 ++ [1])).flatten))
    { generatedKeysModeSet := false, generatedKeysMode := 0, generatedKeysColumns := [],
      generatedKeysColumnNames := [] } tcpProtocolVersion21 true

theorem batch_size_agrees_two
    : ∃ (c : Cursor Silent), c.ScanOf (Conn.new (twoBooleans 1) 0 1).effectiveFetchSize ∧
        Cursor.nextFetch c.rows = some 1 ∧
        rowsServed c.rows.left (int32At 8 (fetchRowsRequest c.rows.resultID 1)) = rowFlags 1 := by
  have hrun : (Session.newRows 5 1 1 false 0 (twoBooleans 1)).returns (fun r _ =>
      decide (r.closed = false ∧ Cursor.nextFetch r = some 1)) = true := by decide +kernel
  obtain ⟨r, s, hnew, hrun⟩ := Out.exists_of_returns hrun
  obtain ⟨hopen, hfetch⟩ := of_decide_eq_true hrun
  have hscan : Cursor.ScanOf (Conn.new (twoBooleans 1) 0 1).effectiveFetchSize ⟨r, s⟩ :=
    ⟨5, 1, false, 0, twoBooleans 1, r, s, hnew, Relation.ReflTransGen.refl⟩
  exact ⟨_, hscan, hfetch, ((batch_size_agrees_iff (Conn.new (twoBooleans 1) 0 1)).2 ⟨r, s⟩ 1 hscan
    hopen hfetch).2.mpr (.inl (by decide))⟩

/--
With a size of `2 ^ 32 + 1` a server that has two rows is asked for one, and the client waits for the
second one.
-/
theorem batch_size_disagrees
    : rowsServed 2 (int32At 20 (queryHeader 1 5 0
          (Conn.new (twoBooleans 1) 0 (2 ^ 32 + 1)).effectiveFetchSize 0)) = 1 ∧
        (match Session.newRows 5 1 (Conn.new (twoBooleans 1) 0 (2 ^ 32 + 1)).effectiveFetchSize true 1
            (twoBooleans 1) with
          | .fail e s => decide (e.is .eof) && s.dead
          | _ => false) = true := by
  decide +kernel

end

end H2Go
