import H2Go.GeneratedKeys.Wire
import H2Go.Value.Lob
import H2Go.Rows.Robust

/-!
This module contains the splicing of deferred LOBs: every placeholder of a batch is replaced by the
content of its own LOB, and all requests for that are sent after the batch has been read.
-/

namespace H2Go

open BigEndian

def Value.resolveWith (f : PendingLob → Value) (v : Value) : Value :=
  match v with
  | .lob p => f p
  | v => v

def Value.resolve (content : Int → Option (List UInt8) → List UInt8) (v : Value) : Value :=
  v.resolveWith (fun p => p.value (content p.lobID p.hmac))

theorem Value.resolveWith_of_lob? (f : PendingLob → Value) {v : Value} (h : v.lob? = none)
    : v.resolveWith f = v := by
  cases v with
  | lob p => cases h
  | nil | bool | int64 | float64 | string | bytes | time | other => rfl

@[simp]
theorem Value.resolve_at (content : Int → Option (List UInt8) → List UInt8) (v : Value) (i j : Nat)
    : (v.at i j).resolve content = v.resolve content := by
  cases v <;> rfl

def spliceAll (f : PendingLob → Value) (pending : List PendingLob) (rows : List (List Value))
    : List (List Value) :=
  pending.foldl (fun rows p => rows.set p.row ((rows[p.row]?.getD []).set p.col (f p))) rows

theorem spliceAll_cons (f : PendingLob → Value) {p : PendingLob} (pending : List PendingLob)
    {rows : List (List Value)} (row : List Value) (h : rows[p.row]? = some row)
    : spliceAll f (p :: pending) rows
        = spliceAll f pending (rows.set p.row (row.set p.col (f p))) := by
  simp [spliceAll, h]

theorem spliceAll_row (f : PendingLob → Value) (above below : List (List Value))
    (done rest : List Value)
    (h : ∀ k q, rest[k]? = some (.lob q) → q.row = above.length ∧ q.col = done.length + k)
    : spliceAll f (rest.filterMap Value.lob?) (above ++ (done ++ rest) :: below)
        = above ++ (done ++ rest.map (Value.resolveWith f)) :: below := by
  -- `done` is the part of the row that has its content already
  induction rest generalizing done with
  | nil => simp [spliceAll]
  | cons v rest ih =>
    have hrest : ∀ w : Value, ∀ k q, rest[k]? = some (.lob q) →
        q.row = above.length ∧ q.col = (done ++ [w]).length + k := by
      intro w k q hk
      obtain ⟨hrow, hcol⟩ := h (k + 1) q (by simpa using hk)
      exact ⟨hrow, by simp only [List.length_append, List.length_singleton]; omega⟩
    cases hv : v.lob? with
    | none =>
      have := ih (done ++ [v]) (hrest v)
      simpa [hv, Value.resolveWith_of_lob? f hv] using this
    | some p =>
      obtain rfl := Value.eq_of_lob? hv
      obtain ⟨hrow, hcol⟩ := h 0 p rfl
      rw [List.filterMap_cons_some hv,
        spliceAll_cons f _ (done ++ .lob p :: rest) (by simp [hrow])]
      have := ih (done ++ [f p]) (hrest (f p))
      simpa [hrow, hcol, Value.resolveWith] using this

theorem spliceAll_rows (f : PendingLob → Value) (old new : List (List Value))
    (h : ∀ i row, new[i]? = some row → Positioned (old.length + i) row)
    : spliceAll f (new.flatten.filterMap Value.lob?) (old ++ new)
        = old ++ new.map (List.map (Value.resolveWith f)) := by
  induction new generalizing old with
  | nil => simp [spliceAll]
  | cons row new ih =>
    have hrow := spliceAll_row f old new [] row (fun k q hk => by
      obtain ⟨hrow, hcol, -⟩ := h 0 row rfl k q hk
      exact ⟨by simpa using hrow, by simpa using hcol⟩)
    have hrest := ih (old ++ [row.map (Value.resolveWith f)]) (fun i r hi => by
      have := h (i + 1) r (by simpa using hi)
      simpa [Nat.add_assoc, Nat.add_comm 1] using this)
    rw [List.flatten_cons, List.filterMap_append]
    unfold spliceAll at hrow hrest ⊢
    rw [List.foldl_append]
    simp only [List.nil_append] at hrow
    rw [hrow]
    simpa using hrest

theorem Batch.Grown.spliceAll_eq {old new : List (List Value)} {width : Nat} {b : Batch}
    (h : Batch.Grown old width new b) (content : Int → Option (List UInt8) → List UInt8)
    : spliceAll (fun p => p.value (content p.lobID p.hmac)) b.2.pending b.1
        = old ++ new.map (List.map (Value.resolve content)) := by
  rw [h.rows_eq, h.pending_eq]
  exact spliceAll_rows _ old new h.position

/--
The bytes are requests for the LOBs one after the other, each of them from its start on.
-/
inductive LobReads : List PendingLob → List UInt8 → Prop where
  | nil : LobReads [] []
  | cons (p : PendingLob) (offsets : List Nat) {pending : List PendingLob} {reads : List UInt8}
    (h : LobReads pending reads) : LobReads (p :: pending) (lobReads p (0 :: offsets) ++ reads)

section

variable {σ : Type} [Peer σ] {content : Int → Option (List UInt8) → List UInt8} {P : σ → Prop}

structure Resolved (P : σ → Prop) (pending : List PendingLob) (t t' : Tr σ) : Prop where
  idle : t'.Idle P
  kept : t.Kept t'
  reads : ∃ reads, LobReads pending reads ∧ t'.written = t.written ++ reads

omit [Peer σ] in
theorem Resolved.nil {t : Tr σ} (h : t.Idle P) : Resolved P [] t t :=
  ⟨h, ⟨rfl, id⟩, [], .nil, by simp⟩

omit [Peer σ] in
theorem Resolved.cons {p : PendingLob} {pending : List PendingLob} {t t1 t' : Tr σ}
    {offsets : List Nat} (hkept : t.Kept t1)
    (hwritten : t1.written = t.written ++ lobReads p (0 :: offsets)) (h : Resolved P pending t1 t')
    : Resolved P (p :: pending) t t' := by
  obtain ⟨reads, hreads, hwritten'⟩ := h.reads
  exact ⟨h.idle, hkept.trans h.kept, _, hreads.cons p offsets, by rw [hwritten', hwritten]; simp⟩

omit [Peer σ] in
theorem Resolved.of_move {pending : List PendingLob} {used rest : List UInt8} {t t' : Tr σ}
    (h : Resolved P pending (Input.move used rest t) t')
    : Resolved P pending t t' :=
  ⟨h.idle, ⟨h.kept.fuel_eq, h.kept.healthy⟩, h.reads⟩

/--
Why LOBs cannot be resolved although the server serves them: a write fails, or the server has
announced a LOB that is too long.
-/
def Unresolvable (pending : List PendingLob) (t : Tr σ) : Prop :=
  t.writeBudget ≠ none ∨ ∃ p ∈ pending, maxWireLength < p.totalBytes

def OutOfFuel (content : Int → Option (List UInt8) → List UInt8) (pending : List PendingLob)
    (t : Tr σ) : Prop :=
  ∃ p ∈ pending, t.fuel < (content p.lobID p.hmac).length

omit [Peer σ] in
theorem Unresolvable.cons {p : PendingLob} {pending : List PendingLob} {t t' : Tr σ}
    (h : Unresolvable pending t') (hkept : t.Kept t')
    : Unresolvable (p :: pending) t := by
  rcases h with h | ⟨q, hq, h⟩
  . exact .inl (fun hb => h (hkept.healthy hb))
  . exact .inr ⟨q, List.mem_cons_of_mem p hq, h⟩

omit [Peer σ] in
theorem OutOfFuel.cons {p : PendingLob} {pending : List PendingLob} {t t' : Tr σ}
    (h : OutOfFuel content pending t') (hkept : t.Kept t')
    : OutOfFuel content (p :: pending) t := by
  obtain ⟨q, hq, h⟩ := h
  exact ⟨q, List.mem_cons_of_mem p hq, by rwa [← hkept.fuel_eq]⟩

structure Session.Fetched (P : σ → Prop) (p : PendingLob) (s s' : Session σ) : Prop where
  isOpen : s'.trNil = false
  session_eq : s' = s.setTr s'.tr
  idle : s'.tr.Idle P
  kept : s.tr.Kept s'.tr
  reads : ∃ offsets, s'.tr.written = s.tr.written ++ lobReads p (0 :: offsets)

theorem Session.orBreak_fetchLob (hserver : LobServer content P) {p : PendingLob} (hp : p.OnWire)
    {s : Session σ} (hopen : s.trNil = false) (ht : s.tr.Idle P) (format : String)
    (args : List FmtArg)
    : (orBreak (wrapErr format args (Tr.fetchLob p)) s).Holds
        (s.tr.fuel < (content p.lobID p.hmac).length)
        (fun v s' => v = p.value (content p.lobID p.hmac) ∧ Fetched P p s s')
        (fun _ _ => s.tr.writeBudget ≠ none ∨ maxWireLength < p.totalBytes) := by
  have hfetch := Tr.fetchLob_served hserver hp ht
  rw [orBreak_run hopen]
  unfold wrapErr
  rw [Prog.mapErr_run]
  cases hrun : Tr.fetchLob p s.tr with
  | ok v t =>
    rw [hrun] at hfetch
    obtain ⟨hv, hidle, hkept, hreads⟩ := hfetch
    exact ⟨hv, hopen, rfl, hidle, hkept, hreads⟩
  | fail | panic | stuck =>
    rw [hrun] at hfetch
    exact hfetch

theorem Session.resolveGeneratedKeyLobs_served (hserver : LobServer content P)
    {pending : List PendingLob} {rows : List (List Value)}
    (hpending : ∀ p ∈ pending, p.OnWire ∧ Addresses rows p) {s : Session σ} (hopen : s.trNil = false)
    (ht : s.tr.Idle P)
    : (resolveGeneratedKeyLobs pending rows s).Holds (OutOfFuel content pending s.tr)
        (fun rows' s' =>
          rows' = spliceAll (fun p => p.value (content p.lobID p.hmac)) pending rows ∧
          s' = s.setTr s'.tr ∧ Resolved P pending s.tr s'.tr)
        (fun _ _ => Unresolvable pending s.tr) := by
  induction pending generalizing rows s with
  | nil => exact ⟨rfl, rfl, Resolved.nil ht⟩
  | cons p pending ih =>
    obtain ⟨hp, row, hrow, hcol⟩ := hpending p List.mem_cons_self
    have hfetch := orBreak_fetchLob hserver hp hopen ht
      "h2go: readGeneratedKeys: failed to resolve deferred LOB (row %d column %d): %w"
      [.int p.row, .int p.col]
    unfold resolveGeneratedKeyLobs
    refine ((hfetch.mono (fun h => ⟨p, List.mem_cons_self, h⟩)).imp (fun _ _ h => h)
      (fun _ _ h => h.imp_right (fun h => ⟨p, List.mem_cons_self, h⟩))).bind ?_
    rintro v s1 ⟨rfl, hfetched⟩
    obtain ⟨offsets, hwritten⟩ := hfetched.reads
    rw [Prog.bind_run, Tr.spliceLob_run hrow hcol, Out.andThen_ok]
    have hpending' : ∀ q ∈ pending, q.OnWire ∧
        Addresses (rows.set p.row (row.set p.col (p.value (content p.lobID p.hmac)))) q := by
      intro q hq
      have ⟨hwire, haddr⟩ := hpending q (List.mem_cons_of_mem p hq)
      exact ⟨hwire, haddr.set hrow _⟩
    have hrest := ih hpending' hfetched.isOpen hfetched.idle
    refine (hrest.mono (fun h => h.cons hfetched.kept)).imp ?_ (fun _ _ h => h.cons hfetched.kept)
    rintro rows' s' ⟨rfl, hs', hresolved⟩
    exact ⟨(spliceAll_cons _ pending row hrow).symm, by rw [hs', hfetched.session_eq]; rfl,
      hresolved.cons hfetched.kept hwritten⟩

theorem Cursor.resolveLobs_served (hserver : LobServer content P) {pending : List PendingLob}
    {c : Cursor σ} (hpending : ∀ p ∈ pending, p.OnWire ∧ Addresses c.rows.bufferedRows p)
    (hopen : c.session.trNil = false) (ht : c.session.tr.Idle P)
    : (resolveLobs pending c).Holds (OutOfFuel content pending c.session.tr)
        (fun _ c' =>
          c'.rows = c.rows.setBuffer
            (spliceAll (fun p => p.value (content p.lobID p.hmac)) pending c.rows.bufferedRows) ∧
          c'.session = c.session.setTr c'.session.tr ∧
          Resolved P pending c.session.tr c'.session.tr)
        (fun _ _ => Unresolvable pending c.session.tr) := by
  induction pending generalizing c with
  | nil => exact ⟨rfl, rfl, Resolved.nil ht⟩
  | cons p pending ih =>
    obtain ⟨hp, row, hrow, hcol⟩ := hpending p List.mem_cons_self
    have hfetch := Session.orBreak_fetchLob hserver hp hopen ht
      "h2go: fetchRows: failed to resolve deferred LOB (row %d column %d): %w"
      [.int p.row, .int p.col]
    unfold resolveLobs
    apply Out.Holds.bind (R := fun v c1 => c1.rows = c.rows ∧ v = p.value (content p.lobID p.hmac) ∧
      Session.Fetched P p c.session c1.session)
    . exact Out.Holds.zoom (hfetch.mono (fun h => ⟨p, List.mem_cons_self, h⟩)) (fun _ _ h => ⟨rfl, h⟩)
        (fun _ _ h => h.imp_right (fun h => ⟨p, List.mem_cons_self, h⟩))
    . rintro v c1 ⟨hrows, rfl, hfetched⟩
      obtain ⟨offsets, hwritten⟩ := hfetched.reads
      rw [Prog.bind_run, Prog.get_run, Out.andThen_ok, Prog.bind_run, hrows,
        Tr.spliceLob_run hrow hcol, Out.andThen_ok]
      have hpending' : ∀ q ∈ pending, q.OnWire ∧ Addresses
          (c.rows.bufferedRows.set p.row (row.set p.col (p.value (content p.lobID p.hmac)))) q := by
        intro q hq
        obtain ⟨hwire, haddr⟩ := hpending q (List.mem_cons_of_mem p hq)
        exact ⟨hwire, haddr.set hrow _⟩
      have hrest := ih (c := {
          rows := c.rows.setBuffer
            (c.rows.bufferedRows.set p.row (row.set p.col (p.value (content p.lobID p.hmac))))
          session := c1.session }) hpending' hfetched.isOpen hfetched.idle
      rw [Prog.bind_run, modifyRows, Prog.modify_run, Out.andThen_ok, hrows]
      refine (hrest.mono (fun h => h.cons hfetched.kept)).imp ?_ (fun _ _ h => h.cons hfetched.kept)
      rintro _ c' ⟨hrows', hs', hresolved⟩
      refine ⟨?_, by rw [hs', hfetched.session_eq]; rfl, hresolved.cons hfetched.kept hwritten⟩
      rw [hrows', spliceAll_cons _ pending row hrow]
      rfl

def placeholders (rows : List (List Value)) : List PendingLob := rows.flatten.filterMap Value.lob?

def resolvedRows (content : Int → Option (List UInt8) → List UInt8) (rows : List (List Cell))
    : List (List Value) :=
  rows.map (List.map (fun cell => cell.value.resolve content))

theorem map_resolve_rowValues (content : Int → Option (List UInt8) → List UInt8) (i : Nat)
    (cells : List Cell)
    : (rowValues i cells).map (Value.resolve content)
        = cells.map (fun cell => cell.value.resolve content) := by
  apply List.ext_getElem?
  intro j
  simp [rowValues, Function.comp_def]

theorem map_resolve_batchValues (content : Int → Option (List UInt8) → List UInt8) (base : Nat)
    (rows : List (List Cell))
    : (batchValues base rows).map (List.map (Value.resolve content)) = resolvedRows content rows := by
  apply List.ext_getElem?
  intro i
  simp [batchValues, resolvedRows, Function.comp_def, map_resolve_rowValues]

variable [GoStd]

theorem Cursor.fetchRows_served (hserver : LobServer content P) {c : Cursor σ} {m : ResultMeta}
    (hopen : c.session.trNil = false) (hcolumns : c.rows.columns = some m)
    (hm : m.Fits c.rows.columnCount) {rows : List (List Cell)}
    (hsent : ∀ cells ∈ rows, RowSent σ m cells) {fetch : Int} {ended : Bool}
    (hcomplete : Complete fetch.toNat rows ended) (hinp : c.session.tr.inp = batchBytes rows ended)
    (hheld : c.session.tr.held = []) (hpeer : P c.session.tr.peer)
    : (fetchRows fetch c).Holds
        (OutOfFuel content (placeholders (batchValues c.rows.bufferedRows.length rows)) c.session.tr)
        (fun _ c' => ∃ t',
          c' = c.afterBatch (c.rows.bufferedRows ++ resolvedRows content rows) ended t' ∧
          Resolved P (placeholders (batchValues c.rows.bufferedRows.length rows)) c.session.tr t')
        (fun _ _ => Unresolvable (placeholders (batchValues c.rows.bufferedRows.length rows))
          c.session.tr) := by
  obtain ⟨lc, hframe, hgrown⟩ := Tr.frame_readRows c.session.tr hm hsent hcomplete
    (Batch.Grown.nil c.rows.bufferedRows c.rows.columnCount.toNat)
  have hrun := hframe.exact c.session.tr [] (by rw [List.append_nil]; exact hinp)
  have hfollows := fetchRowsLoop_follows fetch.toNat .empty hopen
  rw [hcolumns] at hfollows
  rw [hrun] at hfollows
  have hpending : lc.pending = placeholders (batchValues c.rows.bufferedRows.length rows) :=
    hgrown.pending_eq
  have hspliced := hgrown.spliceAll_eq content
  rw [List.nil_append, map_resolve_batchValues] at hspliced
  unfold fetchRows
  rw [Prog.bind_run, show fetchRowsLoop fetch.toNat .empty c = _ from hfollows, Out.andThen_ok,
    ← hpending]
  have hresolve := resolveLobs_served hserver
    (c := c.afterBatch (c.rows.bufferedRows ++ batchValues c.rows.bufferedRows.length rows) ended
      (Input.move (batchBytes rows ended) [] c.session.tr))
    (fun p hp => hgrown.of_mem_pending hp) hopen ⟨rfl, hheld, hpeer⟩
  refine hresolve.imp ?_ (fun _ _ h => h)
  rintro _ c' ⟨hrows, hs, hresolved⟩
  refine ⟨c'.session.tr, ?_, hresolved.of_move⟩
  show (⟨c'.rows, c'.session⟩ : Cursor σ) = _
  rw [hrows, hs, ← hspliced]
  rfl

def keysHeader (columnCount rowCount : Int) (metaBytes : List UInt8) : List UInt8 :=
  intBytes 4 columnCount ++ (intBytes 8 rowCount ++ metaBytes)

/--
The header of the generated keys as it is read, the rest depends on the rows only.
-/
theorem Session.readGeneratedKeys_of_header {s : Session σ} (hopen : s.trNil = false)
    {columnCount rowCount : Int} (hcolumns : -2 ^ 31 ≤ columnCount) (hcolumns' : columnCount < 2 ^ 31)
    (hrows : -2 ^ 63 ≤ rowCount) (hcap : rowCount ≤ maxWireCollectionElements) {m : ResultMeta}
    {metaBytes : List UInt8}
    (hmeta : Frame (Tr.readResultMeta columnCount s.version : Prog Err (Tr σ) _) m metaBytes)
    {rest : List UInt8} (hinp : s.tr.inp = keysHeader columnCount rowCount metaBytes ++ rest)
    : readGeneratedKeys s = readGeneratedKeysRows m rowCount
        (s.setTr (Input.move (keysHeader columnCount rowCount metaBytes) rest s.tr)) := by
  unfold maxWireCollectionElements at hcap
  have hcount : Frame (inFunc "readGeneratedKeys" "failed to read column count" Tr.readInt32
      : Prog Err (Tr σ) _) columnCount (intBytes 4 columnCount) :=
    (Tr.frame_readInt32 hcolumns hcolumns').mapErr
  have hrowCount : Frame (inFunc "readGeneratedKeys" "failed to read row count" Tr.readRowCount
      : Prog Err (Tr σ) _) rowCount (intBytes 8 rowCount) :=
    (Tr.frame_readInt64 hrows (by omega)).mapErr
  have hmeta' : Frame (inFunc "readGeneratedKeys" "failed to read metadata"
      (Tr.readResultMeta columnCount s.version) : Prog Err (Tr σ) _) m metaBytes := hmeta.mapErr
  unfold readGeneratedKeys readGeneratedKeysBody
  rw [ifOpen_of_open hopen, Prog.bind_run,
    orBreak_of_frame hcount hopen (intBytes 8 rowCount ++ (metaBytes ++ rest))
      (by rw [hinp, keysHeader]; simp), Out.andThen_ok, Prog.bind_run,
    orBreak_of_frame hrowCount (by exact hopen) (metaBytes ++ rest) rfl,
    Out.andThen_ok, if_neg (by unfold maxWireCollectionElements; omega), Prog.bind_run,
    Prog.get_run, Out.andThen_ok, Prog.bind_run,
    orBreak_of_frame (by exact hmeta') (by exact hopen) rest rfl, Out.andThen_ok]
  simp only [setTr_setTr, setTr_tr, Input.move_move, keysHeader, List.append_assoc]

theorem Session.readGeneratedKeys_served (hserver : LobServer content P) {s : Session σ}
    (hopen : s.trNil = false) {columnCount rowCount : Int} (hcolumns : -2 ^ 31 ≤ columnCount)
    (hcolumns' : columnCount < 2 ^ 31) (hrows : -2 ^ 63 ≤ rowCount)
    (hcap : rowCount ≤ maxWireCollectionElements) {m : ResultMeta} {metaBytes : List UInt8}
    (hmeta : Frame (Tr.readResultMeta columnCount s.version : Prog Err (Tr σ) _) m metaBytes)
    {rows : List (List Cell)} (hsent : ∀ cells ∈ rows, RowSent σ m cells) {ended : Bool}
    (hcomplete : Tr.KeysComplete rowCount rows ended)
    (hinp : s.tr.inp = keysHeader columnCount rowCount metaBytes ++ batchBytes rows ended)
    (hheld : s.tr.held = []) (hpeer : P s.tr.peer)
    : (readGeneratedKeys s).Holds (OutOfFuel content (placeholders (batchValues 0 rows)) s.tr)
        (fun r s' => r.1.rows = resolvedRows content rows ∧ ∃ t', s' = s.setTr t' ∧
          Resolved P (placeholders (batchValues 0 rows)) s.tr t')
        (fun _ _ => Unresolvable (placeholders (batchValues 0 rows)) s.tr) := by
  obtain ⟨rfl, hm⟩ := Progress.of_frame hmeta s.tr (Tr.progress_readResultMeta columnCount s.version)
  obtain ⟨lc, hrun, hgrown⟩ := Tr.readGeneratedKeyBatch_run (t := Input.move
      (keysHeader m.columnCount rowCount metaBytes) (batchBytes rows ended) s.tr)
    hm hcap hsent hcomplete (List.append_nil _).symm
  have hspliced := hgrown.spliceAll_eq content
  rw [List.nil_append, map_resolve_batchValues] at hspliced
  have hpending : lc.pending = placeholders (batchValues 0 rows) := hgrown.pending_eq
  rw [readGeneratedKeys_of_header hopen hcolumns hcolumns' hrows hcap hmeta hinp]
  unfold readGeneratedKeysRows
  rw [Prog.bind_run, orBreakUnlessAligned_run (by exact hopen), setTr_tr, hrun, ← hpending]
  have hresolve := resolveGeneratedKeyLobs_served hserver (fun p hp => hgrown.of_mem_pending hp)
    (s := s.setTr (Input.move (batchBytes rows ended) [] (Input.move
      (keysHeader m.columnCount rowCount metaBytes) (batchBytes rows ended) s.tr)))
    hopen ⟨rfl, hheld, hpeer⟩
  rw [Out.andThen_ok]
  refine (hresolve.imp (fun _ _ h => h) (fun _ _ h => h)).bind ?_
  rintro rows' s' ⟨rfl, hs', hresolved⟩
  exact ⟨hspliced, s'.tr, by rw [hs']; rfl, hresolved.of_move.of_move⟩

end

end H2Go
