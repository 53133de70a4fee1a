import H2Go.Rows.Deferred

/-!
This module contains the delivery of a result: against a server that sends its rows batch by batch
the calls of `next` hand out every row once and in order, and client and server agree on the position
between any two calls.
-/

namespace H2Go

open BigEndian

def fetchRowsRequest (resultID count : Int) : List UInt8 :=
  intBytes 4 resultFetchRows ++ (intBytes 4 resultID ++ (intBytes 4 count ++ []))

/--
What a server with the rows `todo` left sends as the next `count` of them. The marker for the end is
sent only when the rows run out before `count` of them are sent.
-/
def sendRows (count : Nat) (todo : List (List Cell)) : List UInt8 :=
  match count, todo with
  | 0, _ => []
  | _ + 1, [] => [0]
  | count + 1, cells :: todo => rowBytes cells ++ sendRows count todo

theorem sendRows_eq (count : Nat) (todo : List (List Cell))
    : sendRows count todo = batchBytes (todo.take count) (decide (todo.length < count)) := by
  induction count generalizing todo with
  | zero => simp [sendRows, batchBytes]
  | succ count ih =>
    cases todo with
    | nil => simp [sendRows, batchBytes]
    | cons cells todo =>
      unfold sendRows
      rw [ih]
      simp [batchBytes]

theorem complete_take (count : Nat) (todo : List (List Cell))
    : Complete count (todo.take count) (decide (todo.length < count)) := by
  unfold Complete
  by_cases h : todo.length < count
  . simp [h]
  . rw [if_neg (by simpa using h), List.length_take]
    omega

/--
In the states `P todo` the peer has the rows `todo` of the result `resultID` left. It also serves the
LOBs of the rows.
-/
structure RowServer {σ : Type} [Peer σ] (content : Int → Option (List UInt8) → List UInt8)
    (resultID : Int) (P : List (List Cell) → σ → Prop) : Prop where
  lobs : ∀ todo, LobServer content (P todo)
  fetch : ∀ (s : σ) (todo : List (List Cell)) (count : Nat), P todo s → 0 < count → count < 2 ^ 31 →
    ∃ s', P (todo.drop count) s' ∧
      Peer.recv s (fetchRowsRequest resultID count) = (s', intBytes 4 statusOK ++ sendRows count todo)

/--
The number of rows the server sends along with the metadata.
-/
def initialCount (rowCount fetchSize : Int) : Int :=
  if rowCount ≥ 0 then min rowCount fetchSize else fetchSize

/--
A LOB in the cell can be transferred: it is not announced to be too long, and the fuel of the stream
is enough for its content.
-/
def Cell.Transferable (content : Int → Option (List UInt8) → List UInt8) (fuel : Nat) (cell : Cell)
    : Prop :=
  ∀ p, cell.value = .lob p →
    p.totalBytes ≤ maxWireLength ∧ (content p.lobID p.hmac).length ≤ fuel

theorem transferable_of_mem_placeholders {content : Int → Option (List UInt8) → List UInt8}
    {fuel : Nat} {rows : List (List Cell)}
    (h : ∀ cells ∈ rows, ∀ cell ∈ cells, cell.Transferable content fuel) (base : Nat)
    : ∀ p ∈ placeholders (batchValues base rows),
        p.totalBytes ≤ maxWireLength ∧ (content p.lobID p.hmac).length ≤ fuel := by
  intro p hp
  obtain ⟨v, hv, hlob⟩ := List.mem_filterMap.mp hp
  obtain ⟨row, hrow, hv⟩ := List.mem_flatten.mp hv
  obtain ⟨i, hi, rfl⟩ := List.mem_mapIdx.mp hrow
  obtain ⟨j, hj, rfl⟩ := List.mem_mapIdx.mp hv
  have hcell := h _ (List.getElem_mem hi) _ (List.getElem_mem hj)
  cases hvalue : rows[i][j].value with
  | lob q =>
    rw [hvalue] at hlob
    cases hlob
    exact hcell q hvalue
  | nil | bool | int64 | float64 | string | bytes | time | other =>
    rw [hvalue] at hlob
    cases hlob

variable {σ : Type} {content : Int → Option (List UInt8) → List UInt8}

section

variable [Peer σ]

theorem Cursor.sends_sendFetchRows (resultID fetch : Int)
    : Tr.Sends (sendFetchRows resultID fetch : Prog Err (Tr σ) _) (fetchRowsRequest resultID fetch) := by
  apply Tr.Sends.bind (Tr.writes_wrapErr _ _ (Tr.writes_writeInt32 _))
  apply Tr.Sends.bind (Tr.writes_wrapErr _ _ (Tr.writes_writeInt32 _))
  apply Tr.Sends.bind (Tr.writes_wrapErr _ _ (Tr.writes_writeInt32 _))
  exact Tr.Sends.flush _

variable {resultID : Int} {P : List (List Cell) → σ → Prop}

theorem Cursor.requestRows_served (hserver : RowServer content resultID P)
    {todo : List (List Cell)} {t : Tr σ} (ht : t.Idle (P todo)) (hhealthy : t.writeBudget = none)
    {count : Nat} (hpos : 0 < count) (hlt : count < 2 ^ 31)
    : ∃ t', requestRows resultID count t = .ok () t' ∧ t.Kept t' ∧ t'.inp = sendRows count todo ∧
        t'.held = [] ∧ P (todo.drop count) t'.peer := by
  obtain ⟨s', hs', hrecv⟩ := hserver.fetch t.peer todo count ht.peer hpos hlt
  rcases Tr.exchange (sends_sendFetchRows resultID count) (by simp [fetchRowsRequest, intBytes, beBytes])
    ht hrecv with ⟨t1, hsend, hkept, -, -, hinp, hheld, rfl⟩ | ⟨_, _, _, _, hfault⟩
  . have hstatus : Frame (Prog.mapErr (wrapError "Rows.fetchMoreRows") Tr.readStatus
        : Prog Err (Tr σ) _) () (intBytes 4 statusOK) := Tr.frame_readStatus_ok.mapErr
    refine ⟨_, ?_, hkept.move (intBytes 4 statusOK) (sendRows count todo), rfl, hheld, hs'⟩
    unfold requestRows
    rw [Prog.bind_run, hsend, Out.andThen_ok, hstatus.exact t1 _ hinp]
  . exact absurd hhealthy hfault

variable [GoStd]

theorem Cursor.fetchRows_transferred {P : σ → Prop} (hserver : LobServer content P) {c : Cursor σ}
    {m : ResultMeta} (hopen : c.session.trNil = false) (hcolumns : c.rows.columns = some m)
    (hm : m.Fits c.rows.columnCount) {rows : List (List Cell)}
    (hsent : ∀ cells ∈ rows, RowSent σ m cells)
    (hlobs : ∀ cells ∈ rows, ∀ cell ∈ cells, cell.Transferable content c.session.tr.fuel)
    {fetch : Int} {ended : Bool} (hcomplete : Complete fetch.toNat rows ended)
    (hinp : c.session.tr.inp = batchBytes rows ended) (hheld : c.session.tr.held = [])
    (hpeer : P c.session.tr.peer) (hhealthy : c.session.tr.writeBudget = none)
    : ∃ t', fetchRows fetch c
          = .ok () (c.afterBatch (c.rows.bufferedRows ++ resolvedRows content rows) ended t') ∧
        t'.Idle P ∧ c.session.tr.Kept t' := by
  have h := fetchRows_served hserver hopen hcolumns hm hsent hcomplete hinp hheld hpeer
  have htransfer := transferable_of_mem_placeholders hlobs c.rows.bufferedRows.length
  cases hrun : fetchRows fetch c with
  | ok _ c' =>
    rw [hrun] at h
    obtain ⟨t', rfl, hresolved⟩ := h
    exact ⟨t', rfl, hresolved.idle, hresolved.kept⟩
  | fail e c' =>
    rw [hrun] at h
    rcases h with hfault | ⟨p, hp, hlong⟩
    . exact absurd hhealthy hfault
    . exact absurd hlong (Int.not_lt.mpr (htransfer p hp).1)
  | panic | stuck =>
    rw [hrun] at h
    obtain ⟨p, hp, hfuel⟩ := h
    exact absurd hfuel (Nat.not_lt.mpr (htransfer p hp).2)

namespace Cursor

theorem fetchNextBatch_served (hserver : RowServer content resultID P) {c : Cursor σ}
    (hid : c.rows.resultID = resultID) {m : ResultMeta} (hopen : c.session.trNil = false)
    (hcolumns : c.rows.columns = some m) (hm : m.Fits c.rows.columnCount)
    {todo : List (List Cell)} (hsent : ∀ cells ∈ todo, RowSent σ m cells)
    (hlobs : ∀ cells ∈ todo, ∀ cell ∈ cells, cell.Transferable content c.session.tr.fuel)
    (ht : c.session.tr.Idle (P todo)) (hhealthy : c.session.tr.writeBudget = none) {count : Nat}
    (hpos : 0 < count) (hlt : count < 2 ^ 31)
    : ∃ t', fetchNextBatch count c
          = .ok () (c.afterBatch (c.rows.bufferedRows ++ resolvedRows content (todo.take count))
              (decide (todo.length < count)) t') ∧
        t'.Idle (P (todo.drop count)) ∧ c.session.tr.Kept t' := by
  subst hid
  obtain ⟨t1, hrequest, hkept, hinp, hheld, hpeer⟩ :=
    requestRows_served hserver ht hhealthy hpos hlt
  rw [sendRows_eq] at hinp
  have hlobs' : ∀ cells ∈ todo.take count, ∀ cell ∈ cells, cell.Transferable content t1.fuel := by
    rw [hkept.fuel_eq]
    exact fun cells h => hlobs cells (List.mem_of_mem_take h)
  obtain ⟨t', hfetch, hidle, hkept'⟩ := fetchRows_transferred (hserver.lobs (todo.drop count))
    (c := { c with session := c.session.setTr t1 }) hopen hcolumns hm
    (fun cells h => hsent cells (List.mem_of_mem_take h)) hlobs'
    (show Complete (count : Int).toNat _ _ from complete_take count todo) hinp hheld hpeer
    (hkept.healthy hhealthy)
  refine ⟨t', ?_, hidle, hkept.trans hkept'⟩
  have hmore : fetchMoreRows count c = .ok () (c.afterBatch
      (c.rows.bufferedRows ++ resolvedRows content (todo.take count))
      (decide (todo.length < count)) t') := by
    unfold fetchMoreRows
    rw [Prog.bind_run, Prog.get_run, Out.andThen_ok, if_neg (by simp [hopen])]
    apply Prog.onFail_of_ok
    rw [Prog.bind_run, onTr, onSession_run, Session.io_of_ok hopen hrequest, Out.map_ok,
      Out.andThen_ok]
    exact hfetch
  exact Prog.onFail_of_ok hmore

/--
The rows `buf` are buffered and the rows `todo` are still with the server.
-/
structure Delivering (content : Int → Option (List UInt8) → List UInt8)
    (P : List (List Cell) → σ → Prop) (m : ResultMeta) (buf todo : List (List Cell)) (c : Cursor σ)
    : Prop where
  isOpen : c.rows.closed = false
  noErr : c.rows.err = none
  trOpen : c.session.trNil = false
  columns_eq : c.rows.columns = some m
  fits : m.Fits c.rows.columnCount
  server : RowServer content c.rows.resultID P
  size : 0 < c.rows.fetchSize ∧ c.rows.fetchSize < 2 ^ 31
  buffered : c.rows.bufferedRows = resolvedRows content buf
  sent : ∀ cells ∈ buf ++ todo, RowSent σ m cells
  lobs : ∀ cells ∈ todo, ∀ cell ∈ cells, cell.Transferable content c.session.tr.fuel
  count : c.rows.rowCount = -1 ∨
    (0 ≤ c.rows.rowOffset ∧ c.rows.rowCount = c.rows.rowOffset + buf.length + todo.length)
  ended : c.rows.noMoreRows = true → todo = []
  idle : c.session.tr.Idle (P todo)
  healthy : c.session.tr.writeBudget = none

/--
A request is sent only when it is needed, and the batch it fetches is not empty unless the size of
the result is not known.
-/
theorem Delivering.nextFetch_cases {m : ResultMeta} {todo : List (List Cell)} {c : Cursor σ}
    (h : c.Delivering content P m [] todo)
    : (todo = [] ∧ nextFetch c.rows = none) ∨
        ∃ count : Nat, nextFetch c.rows = some count ∧ 0 < count ∧ count < 2 ^ 31 ∧
          (todo = [] → c.rows.rowCount = -1) := by
  have hsize := h.size
  have hcount := h.count
  simp only [List.length_nil] at hcount
  unfold nextFetch
  by_cases hdone : c.rows.rowCount ≥ 0 ∧ c.rows.rowOffset ≥ c.rows.rowCount
  . rw [if_pos hdone]
    exact .inl ⟨List.length_eq_zero_iff.mp (by omega), rfl⟩
  . rw [if_neg hdone]
    cases hmore : c.rows.noMoreRows with
    | true => exact .inl ⟨h.ended hmore, rfl⟩
    | false =>
      refine .inr ?_
      rw [if_neg (by simp)]
      by_cases hknown : c.rows.rowCount ≥ 0
      . have htodo : c.rows.rowCount - c.rows.rowOffset = todo.length := by omega
        have hne : 0 < todo.length := by omega
        rw [if_pos hknown, htodo]
        dsimp only
        rw [if_neg (by omega)]
        refine ⟨min c.rows.fetchSize.toNat todo.length, ?_, by omega, by omega, ?_⟩
        . congr 1
          split <;> omega
        . intro hnil
          rw [hnil] at hne
          exact absurd hne (Nat.lt_irrefl 0)
      . rw [if_neg hknown]
        exact ⟨c.rows.fetchSize.toNat, by congr 1; omega, by omega, by omega, fun _ => by omega⟩

theorem Delivering.take {m : ResultMeta} {cells : List Cell} {buf todo : List (List Cell)}
    {c : Cursor σ} (h : c.Delivering content P m (cells :: buf) todo) {dest : List Value}
    (hdest : (dest.length : Int) = c.rows.columnCount)
    : ∃ c', takeRow dest c = .ok (cells.map (fun cell => cell.value.resolve content)) c' ∧
        c'.Delivering content P m buf todo ∧ c'.rows.columnCount = c.rows.columnCount := by
  have hbuf : c.rows.bufferedRows
      = cells.map (fun cell => cell.value.resolve content) :: resolvedRows content buf := h.buffered
  have hlen : cells.length = dest.length := by
    have := (h.sent cells (by simp)).length_eq
    have := h.fits.length_eq
    omega
  have hcount := h.count
  have htake : takeRow dest c = _ := takeRow_of_cons hbuf
  rw [List.take_of_length_le (by simp [hlen]), List.drop_eq_nil_of_le (by simp [hlen]),
    List.append_nil] at htake
  refine ⟨_, htake, ?_, rfl⟩
  exact {
    h with
    buffered := by
      show c.rows.bufferedRows.drop 1 = _
      rw [hbuf]
      rfl
    sent := fun cells hcells => h.sent cells (List.mem_cons_of_mem _ hcells)
    count := by
      show c.rows.rowCount = -1 ∨
        (0 ≤ c.rows.rowOffset + 1 ∧ c.rows.rowCount = c.rows.rowOffset + 1 + _ + _)
      simp only [List.length_cons] at hcount
      omega }

theorem Delivering.fetched {m : ResultMeta} {todo : List (List Cell)} {c : Cursor σ}
    (h : c.Delivering content P m [] todo) {count : Nat} (hpos : 0 < count) (hlt : count < 2 ^ 31)
    : ∃ c', fetchNextBatch count c = .ok () c' ∧
        c'.Delivering content P m (todo.take count) (todo.drop count) ∧
        c'.rows.columnCount = c.rows.columnCount ∧ (todo = [] → c'.rows.noMoreRows = true) := by
  have hcount := h.count
  have hsent : ∀ cells ∈ todo, RowSent σ m cells := h.sent
  obtain ⟨t', hfetch, hidle, hkept⟩ := fetchNextBatch_served h.server rfl h.trOpen h.columns_eq h.fits
    hsent h.lobs h.idle h.healthy hpos hlt
  refine ⟨_, hfetch, ?_, rfl, ?_⟩
  . exact {
      isOpen := h.isOpen
      noErr := h.noErr
      trOpen := h.trOpen
      columns_eq := h.columns_eq
      fits := h.fits
      server := h.server
      size := h.size
      buffered := by
        show c.rows.bufferedRows ++ _ = _
        rw [h.buffered]
        rfl
      sent := by rwa [List.take_append_drop]
      lobs := by
        show ∀ cells ∈ _, ∀ cell ∈ cells, Cell.Transferable content t'.fuel cell
        rw [hkept.fuel_eq]
        exact fun cells hcells => h.lobs cells (List.mem_of_mem_drop hcells)
      count := by
        show c.rows.rowCount = -1 ∨
          (0 ≤ c.rows.rowOffset ∧ c.rows.rowCount = c.rows.rowOffset + _ + _)
        simp only [List.length_nil] at hcount
        rw [List.length_take, List.length_drop]
        omega
      ended := by
        show (c.rows.noMoreRows || decide (todo.length < count)) = true → _
        intro hended
        rcases (Bool.or_eq_true _ _).mp hended with hmore | hshort
        . rw [h.ended hmore, List.drop_nil]
        . exact List.drop_eq_nil_of_le (Nat.le_of_lt (of_decide_eq_true hshort))
      idle := hidle
      healthy := hkept.healthy h.healthy }
  . rintro rfl
    show (c.rows.noMoreRows || decide (0 < count)) = true
    simp [hpos]

/--
The calls of `next` hand out the rows one after the other and then `io.EOF` forever. Between the calls
everything the server has sent has been read, and all that was written has been sent and answered.
-/
def Delivers (P : List (List Cell) → σ → Prop) (rows : List (List Value)) (c : Cursor σ) : Prop :=
  (∃ todo, c.session.tr.Idle (P todo)) ∧
    ∀ dest : List Value, (dest.length : Int) = c.rows.columnCount →
      match rows with
      | [] => ∃ c', next dest c = .fail .eof c' ∧ (∃ todo, c'.session.tr.Idle (P todo)) ∧
          ∀ dest' : List Value, (dest'.length : Int) = c.rows.columnCount →
            next dest' c' = .fail .eof c'
      | row :: rows => ∃ c', next dest c = .ok row c' ∧ c'.rows.columnCount = c.rows.columnCount ∧
          Delivers P rows c'

omit [Peer σ] [GoStd] in
theorem nextFetch_of_noMoreRows {r : Rows} (h : r.noMoreRows = true) : nextFetch r = none := by
  simp [nextFetch, h]

theorem Delivering.finished {m : ResultMeta} {c : Cursor σ} (h : c.Delivering content P m [] [])
    : c.Delivers P [] := by
  refine ⟨⟨[], h.idle⟩, ?_⟩
  intro dest hdest
  rcases h.nextFetch_cases with ⟨-, hdone⟩ | ⟨count, hfetch, hpos, hlt, -⟩
  . refine ⟨c, next_of_done h.isOpen h.noErr hdest h.buffered hdone, ⟨[], h.idle⟩, ?_⟩
    intro dest' hdest'
    exact next_of_done h.isOpen h.noErr hdest' h.buffered hdone
  . -- the size is not known, so the server is asked once more and sends the marker
    obtain ⟨c', hrun, h', hcolumns, hmore⟩ := h.fetched hpos hlt
    rw [List.take_nil, List.drop_nil] at h'
    refine ⟨c', ?_, ⟨[], h'.idle⟩, ?_⟩
    . rw [next_of_fetch h.isOpen h.noErr hdest h.buffered hfetch, hrun, Out.andThen_ok,
        takeFetched_of_nil h'.buffered]
    . intro dest' hdest'
      exact next_of_done h'.isOpen h'.noErr (by rw [hcolumns]; exact hdest') h'.buffered
        (nextFetch_of_noMoreRows (hmore rfl))

theorem Delivering.step {m : ResultMeta} {cells : List Cell} {rows buf todo : List (List Cell)}
    {c : Cursor σ} (h : c.Delivering content P m buf todo) (hrows : buf ++ todo = cells :: rows)
    {dest : List Value} (hdest : (dest.length : Int) = c.rows.columnCount)
    : ∃ c' buf' todo',
        next dest c = .ok (cells.map (fun cell => cell.value.resolve content)) c' ∧
        c'.rows.columnCount = c.rows.columnCount ∧ c'.Delivering content P m buf' todo' ∧
        buf' ++ todo' = rows := by
  cases buf with
  | cons cells' buf =>
    cases hrows
    obtain ⟨c', htake, h', hcolumns⟩ := h.take hdest
    refine ⟨c', buf, todo, ?_, hcolumns, h', rfl⟩
    rw [next_of_buffered h.isOpen h.noErr hdest (by simp [h.buffered, resolvedRows]), htake]
  | nil =>
    cases hrows
    rcases h.nextFetch_cases with ⟨hnil, -⟩ | ⟨count, hfetch, hpos, hlt, -⟩
    . cases hnil
    . obtain ⟨c1, hrun, h1, hcolumns1, -⟩ := h.fetched hpos hlt
      obtain ⟨count, rfl⟩ := Nat.exists_eq_succ_of_ne_zero (Nat.ne_of_gt hpos)
      rw [Nat.succ_eq_add_one, List.take_succ_cons, List.drop_succ_cons] at h1
      obtain ⟨c', htake, h', hcolumns⟩ := h1.take (by rw [hcolumns1]; exact hdest)
      refine ⟨c', rows.take count, rows.drop count, ?_, hcolumns.trans hcolumns1, h',
        List.take_append_drop count rows⟩
      rw [next_of_fetch h.isOpen h.noErr hdest h.buffered hfetch, hrun, Out.andThen_ok,
        takeFetched_of_ne_nil (by simp [h1.buffered, resolvedRows]), htake]

theorem Delivering.delivers {m : ResultMeta} {rows buf todo : List (List Cell)} {c : Cursor σ}
    (h : c.Delivering content P m buf todo) (hrows : buf ++ todo = rows)
    : c.Delivers P (resolvedRows content rows) := by
  -- by induction on the rows that have not been handed out, wherever they are
  induction rows generalizing buf todo c with
  | nil =>
    obtain ⟨rfl, rfl⟩ := List.append_eq_nil_iff.mp hrows
    exact h.finished
  | cons cells rows ih =>
    refine ⟨⟨todo, h.idle⟩, ?_⟩
    intro dest hdest
    obtain ⟨c', buf', todo', hnext, hcolumns, h', hrows'⟩ := h.step hrows hdest
    exact ⟨c', hnext, hcolumns, ih h' hrows'⟩

end Cursor

/--
What the server sends when the size of a result is announced as `rowCount`: the size, the metadata
and the first batch.
-/
def resultBytes (rowCount fetchSize : Int) (metaBytes : List UInt8) (rows : List (List Cell))
    : List UInt8 :=
  intBytes 8 rowCount ++ (metaBytes ++ sendRows (initialCount rowCount fetchSize).toNat rows)

omit [GoStd] in
theorem initialCount_eq (rowCount : Int) {fetchSize : Int} (hsize : 0 < fetchSize)
    : (if rowCount ≥ 0 ∧ fetchSize > rowCount then rowCount else fetchSize)
        = initialCount rowCount fetchSize ∧
      0 ≤ initialCount rowCount fetchSize := by
  unfold initialCount
  split <;> split <;> omega

omit [Peer σ] [GoStd] in
theorem Cursor.afterBatch_self (c : Cursor σ)
    : c.afterBatch c.rows.bufferedRows false c.session.tr = c := by
  simp [afterBatch, Rows.setBuffer]

theorem Cursor.prefetchInitialRows_served (hserver : RowServer content resultID P) {c : Cursor σ}
    {m : ResultMeta} (hopen : c.session.trNil = false) (hcolumns : c.rows.columns = some m)
    (hm : m.Fits c.rows.columnCount) (hsize : 0 < c.rows.fetchSize) {rows : List (List Cell)}
    (hsent : ∀ cells ∈ rows, RowSent σ m cells)
    (hlobs : ∀ cells ∈ rows, ∀ cell ∈ cells, cell.Transferable content c.session.tr.fuel)
    (hinp : c.session.tr.inp = sendRows (initialCount c.rows.rowCount c.rows.fetchSize).toNat rows)
    (hheld : c.session.tr.held = [])
    (hpeer : P (rows.drop (initialCount c.rows.rowCount c.rows.fetchSize).toNat) c.session.tr.peer)
    (hhealthy : c.session.tr.writeBudget = none) (hbuf : c.rows.bufferedRows = [])
    : ∃ t', prefetchInitialRows c = .ok ()
          (c.afterBatch (resolvedRows content
              (rows.take (initialCount c.rows.rowCount c.rows.fetchSize).toNat))
            (decide (rows.length < (initialCount c.rows.rowCount c.rows.fetchSize).toNat)) t') ∧
        t'.Idle (P (rows.drop (initialCount c.rows.rowCount c.rows.fetchSize).toNat)) ∧
        c.session.tr.Kept t' := by
  have ⟨hcount, hnonneg⟩ := initialCount_eq c.rows.rowCount hsize
  unfold prefetchInitialRows
  rw [Prog.bind_run, Prog.get_run, Out.andThen_ok, hcount]
  generalize initialCount c.rows.rowCount c.rows.fetchSize = count at hinp hpeer hnonneg ⊢
  by_cases hpos : count > 0
  . rw [if_pos hpos]
    rw [sendRows_eq] at hinp
    obtain ⟨t', hfetch, hidle, hkept⟩ := fetchRows_transferred (hserver.lobs (rows.drop count.toNat))
      hopen hcolumns hm (fun cells h => hsent cells (List.mem_of_mem_take h))
      (fun cells h => hlobs cells (List.mem_of_mem_take h)) (complete_take count.toNat rows) hinp hheld
      hpeer hhealthy
    rw [hbuf, List.nil_append] at hfetch
    refine ⟨t', ?_, hidle, hkept⟩
    unfold wrapErr
    rw [Prog.mapErr_run, hfetch]
    rfl
  . obtain rfl : count = 0 := by omega
    refine ⟨c.session.tr, ?_, ⟨hinp, hheld, hpeer⟩, ⟨rfl, id⟩⟩
    have hself := afterBatch_self c
    rw [hbuf] at hself
    rw [if_neg hpos]
    exact congrArg (Out.ok ()) hself.symm

theorem Session.newRows_delivering (hserver : RowServer content resultID P) {s : Session σ}
    (hopen : s.trNil = false) {columnCount fetchSize rowCount : Int} (ownsCommand : Bool)
    (commandID : Int) (hsize : 0 < fetchSize) (hsize' : fetchSize < 2 ^ 31) {m : ResultMeta}
    {metaBytes : List UInt8}
    (hmeta : Frame (Tr.readResultMeta columnCount tcpProtocolVersion21 : Prog Err (Tr σ) _) m metaBytes)
    {rows : List (List Cell)}
    (hcount : rowCount = -1 ∨ (rowCount = rows.length ∧ (rows.length : Int) < 2 ^ 63))
    (hsent : ∀ cells ∈ rows, RowSent σ m cells)
    (hlobs : ∀ cells ∈ rows, ∀ cell ∈ cells, cell.Transferable content s.tr.fuel)
    (hinp : s.tr.inp = resultBytes rowCount fetchSize metaBytes rows) (hheld : s.tr.held = [])
    (hpeer : P (rows.drop (initialCount rowCount fetchSize).toNat) s.tr.peer)
    (hhealthy : s.tr.writeBudget = none)
    : ∃ r s', newRows resultID columnCount fetchSize ownsCommand commandID s = .ok r s' ∧
        r.columnCount = columnCount ∧
        Cursor.Delivering content P m (rows.take (initialCount rowCount fetchSize).toNat)
          (rows.drop (initialCount rowCount fetchSize).toNat) { rows := r, session := s' } := by
  obtain ⟨-, hm⟩ := Progress.of_frame hmeta s.tr (Tr.progress_readResultMeta columnCount _)
  have hrowCount : Frame (inFunc "NewRows" "failed to read row count" Tr.readRowCount
      : Prog Err (Tr σ) _) rowCount (intBytes 8 rowCount) :=
    (Tr.frame_readInt64 (by omega) (by omega)).mapErr
  have hmeta' : Frame (inFunc "NewRows" "failed to read column metadata"
      (Tr.readResultMeta columnCount tcpProtocolVersion21) : Prog Err (Tr σ) _) m metaBytes :=
    hmeta.mapErr
  obtain ⟨t', hprefetch, hidle, hkept⟩ := Cursor.prefetchInitialRows_served hserver (c := {
      rows := Rows.initial resultID columnCount fetchSize ownsCommand commandID rowCount m
      session := s.setTr (Input.move metaBytes
        (sendRows (initialCount rowCount fetchSize).toNat rows) (Input.move (intBytes 8 rowCount)
          (metaBytes ++ sendRows (initialCount rowCount fetchSize).toNat rows) s.tr)) })
    hopen rfl hm hsize hsent hlobs rfl hheld hpeer hhealthy rfl
  have hstart : newRows resultID columnCount fetchSize ownsCommand commandID s
      = Cursor.startRows (Rows.initial resultID columnCount fetchSize ownsCommand commandID rowCount m)
        Cursor.prefetchInitialRows (s.setTr (Input.move metaBytes
          (sendRows (initialCount rowCount fetchSize).toNat rows) (Input.move (intBytes 8 rowCount)
            (metaBytes ++ sendRows (initialCount rowCount fetchSize).toNat rows) s.tr))) := by
    unfold newRows
    rw [ifOpen_of_open hopen, Prog.bind_run, orBreak_of_frame hrowCount hopen _ hinp, Out.andThen_ok,
      Prog.bind_run, orBreak_of_frame hmeta' (by exact hopen) _ rfl, Out.andThen_ok]
    rfl
  unfold Cursor.startRows at hstart
  rw [hprefetch] at hstart
  refine ⟨_, _, hstart, rfl, ?_⟩
  exact {
    isOpen := rfl
    noErr := rfl
    trOpen := hopen
    columns_eq := rfl
    fits := hm
    server := hserver
    size := ⟨hsize, hsize'⟩
    buffered := rfl
    sent := by rwa [List.take_append_drop]
    lobs := by
      show ∀ cells ∈ _, ∀ cell ∈ cells, Cell.Transferable content t'.fuel cell
      rw [hkept.fuel_eq]
      exact fun cells hcells => hlobs cells (List.mem_of_mem_drop hcells)
    count := by
      show rowCount = -1 ∨ (0 ≤ (0 : Int) ∧ rowCount = 0 + _ + _)
      rw [List.length_take, List.length_drop]
      omega
    ended := by
      show (false || decide (rows.length < (initialCount rowCount fetchSize).toNat)) = true → _
      intro hended
      exact List.drop_eq_nil_of_le (Nat.le_of_lt (of_decide_eq_true hended))
    idle := hidle
    healthy := hkept.healthy hhealthy }

/--
Against a server that has the rows of a result, announced with their number or as a lazy result, the
calls of `next` hand out exactly these rows in their order and then `io.EOF` forever. Between any two
calls the client has read all that was sent, and no request is without its answer.
-/
theorem rows_delivered (hserver : RowServer content resultID P) (s : Session σ)
    (hopen : s.trNil = false) (columnCount fetchSize rowCount : Int) (ownsCommand : Bool)
    (commandID : Int) (hsize : 1 ≤ fetchSize) (hsize' : fetchSize < 2 ^ 31) (m : ResultMeta)
    (metaBytes : List UInt8)
    (hmeta : Frame (Tr.readResultMeta columnCount tcpProtocolVersion21 : Prog Err (Tr σ) _) m metaBytes)
    (rows : List (List Cell))
    (hcount : rowCount = -1 ∨ (rowCount = rows.length ∧ (rows.length : Int) < 2 ^ 63))
    (hsent : ∀ cells ∈ rows, RowSent σ m cells)
    (hlobs : ∀ cells ∈ rows, ∀ cell ∈ cells, cell.Transferable content s.tr.fuel)
    (hinp : s.tr.inp = resultBytes rowCount fetchSize metaBytes rows) (hheld : s.tr.held = [])
    (hpeer : P (rows.drop (initialCount rowCount fetchSize).toNat) s.tr.peer)
    (hhealthy : s.tr.writeBudget = none)
    : ∃ r s', Session.newRows resultID columnCount fetchSize ownsCommand commandID s = .ok r s' ∧
        r.columnCount = columnCount ∧
        Cursor.Delivers P (resolvedRows content rows) { rows := r, session := s' } := by
  obtain ⟨r, s', hnew, hcolumns, hdelivering⟩ := Session.newRows_delivering hserver hopen ownsCommand
    commandID (by omega) hsize' hmeta hcount hsent hlobs hinp hheld hpeer hhealthy
  exact ⟨r, s', hnew, hcolumns, hdelivering.delivers (List.take_append_drop _ rows)⟩

end

section

open StandIn

structure RowStore where
  todo : List (List Cell)
  lobs : ChunkServer

def RowStore.recv (s : RowStore) (b : List UInt8) : RowStore × List UInt8 :=
  if beInt (b.take 4) = resultFetchRows then
    ({ s with todo := s.todo.drop (beInt ((b.drop 8).take 4)).toNat },
      intBytes 4 statusOK ++ sendRows (beInt ((b.drop 8).take 4)).toNat s.todo)
  else
    (s, chunkReply s.lobs.content s.lobs.size b)

instance : Peer RowStore where
  recv := RowStore.recv

def RowStore.Holds (todo : List (List Cell)) (s : RowStore) : Prop :=
  s.todo = todo ∧ s.lobs = sevenServer

theorem rowServer_rowStore (resultID : Int)
    : RowServer (fun _ _ => [7]) resultID RowStore.Holds where
  lobs todo := {
    length_lt := fun _ _ => by decide
    serve := by
      intro p _
      apply servesLob_of_chunks (by decide) Nat.zero_lt_one (by decide)
      rintro s offset ⟨-, hlobs⟩
      have hop : beInt ((lobReadRequest p.lobID p.hmac offset).take 4) ≠ resultFetchRows := by
        rw [lobReadRequest, List.take_left' (by simp)]
        decide
      show RowStore.recv s _ = _
      unfold RowStore.recv
      rw [if_neg hop, hlobs]
      rfl }
  fetch := by
    rintro s _ count ⟨rfl, hlobs⟩ hpos hlt
    have hop : beInt ((fetchRowsRequest resultID count).take 4) = resultFetchRows := by
      rw [fetchRowsRequest, List.take_left' (by simp)]
      decide
    have hcount : beInt (((fetchRowsRequest resultID count).drop 8).take 4) = count := by
      rw [fetchRowsRequest, ← List.append_assoc, List.drop_left' (by simp), List.take_left' (by simp)]
      exact beInt_intBytes (by omega) (by omega)
    refine ⟨{ s with todo := s.todo.drop count }, ⟨rfl, hlobs⟩, ?_⟩
    show RowStore.recv s _ = _
    unfold RowStore.recv
    rw [if_pos hop, hcount, Int.toNat_natCast]

def blobMeta : List UInt8 :=
  List.replicate 16 255 ++ [0, 0, 0, 15] ++ List.replicate 8 0 ++ [0] ++ [0, 0, 0, 0]

theorem blobMeta_frame
    : ∃ m, Frame (Tr.readResultMeta 1 tcpProtocolVersion21 : Prog Err (Tr RowStore) _) m blobMeta := by
  have h : (Tr.readResultMeta 1 tcpProtocolVersion21
      { Tr.ofBytes blobMeta with peer := RowStore.mk [] sevenServer }).returns (fun _ t => decide (t.inp = []))
      = true := by decide +kernel
  obtain ⟨m, t, hrun, h⟩ := Out.exists_of_returns h
  exact ⟨m, LawfulReader.frame_of_ok hrun (of_decide_eq_true h)⟩

def blobRows : List (List Cell) := List.replicate 3 [⟨blobCell, .lob blobLob⟩]

theorem rows_delivered_blob
    : ∃ r s', Session.newRows 5 1 2 false 0 (Session.ofTr {
          Tr.ofBytes (resultBytes 3 2 blobMeta blobRows) with peer := RowStore.mk (blobRows.drop 2) sevenServer })
          = .ok r s' ∧
        Cursor.Delivers RowStore.Holds
          (List.replicate 3 [.bytes (some [7])]) { rows := r, session := s' } := by
  obtain ⟨m, hmeta⟩ := blobMeta_frame
  obtain ⟨-, hm⟩ := Progress.of_frame hmeta { Tr.ofBytes blobMeta with peer := RowStore.mk [] sevenServer }
    (Tr.progress_readResultMeta 1 _)
  have hsent : ∀ cells ∈ blobRows, RowSent RowStore m cells := by
    intro cells hcells
    rw [List.eq_of_mem_replicate hcells]
    exact rowSent_blobCell (RowStore.mk [] sevenServer) hm
  have hlobs : ∀ fuel, 1 ≤ fuel → ∀ cells ∈ blobRows, ∀ cell ∈ cells,
      cell.Transferable (fun _ _ => [7]) fuel := by
    intro fuel hfuel cells hcells cell hcell p hp
    rw [List.eq_of_mem_replicate hcells] at hcell
    rw [List.mem_singleton.mp hcell] at hp
    cases hp
    exact ⟨by decide, hfuel⟩
  obtain ⟨r, s', hnew, -, hdelivers⟩ := rows_delivered (rowServer_rowStore 5) (Session.ofTr {
      Tr.ofBytes (resultBytes 3 2 blobMeta blobRows) with peer := RowStore.mk (blobRows.drop 2) sevenServer })
    rfl 1 2 3 false 0 (by decide) (by decide) m blobMeta hmeta blobRows (.inr ⟨rfl, by decide⟩) hsent
    (hlobs _ (by decide)) rfl rfl ⟨rfl, rfl⟩ rfl
  exact ⟨r, s', hnew, hdelivers⟩

end

end H2Go
