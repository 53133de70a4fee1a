import H2Go.Rows.Nested

/-!
This module contains the order of reading and writing when LOBs are deferred: no request is written
while a batch is read, whatever the peer sends and wherever the reading ends.
-/

namespace H2Go

open BigEndian

variable {σ : Type} {α : Type}

/--
Nothing was written between `t` and `t'` before `n` more bytes had been read.
-/
def Tr.WrittenAfter (t t' : Tr σ) (n : Nat) : Prop :=
  ∃ w, t'.writes = t.writes ++ w ∧ ∀ x ∈ w, t.past.length + n ≤ x.1

theorem Tr.writtenAfter_of_later {t t' : Tr σ} {used rest : List UInt8}
    (h : Later (Input.move used rest t) t')
    : t.WrittenAfter t' used.length := by
  obtain ⟨-, w, hw, hpos⟩ := h
  refine ⟨w, hw, ?_⟩
  intro x hx
  have := hpos x hx
  simpa [Input.move] using this

theorem Session.keeps_orBreak {P : Tr σ → Prop} {m : Prog Err (Tr σ) α} (h : Keeps P m)
    : Keeps (fun s : Session σ => P s.tr) (orBreak m) := by
  intro s hs
  cases hnil : s.trNil with
  | true =>
    unfold orBreak
    rw [Prog.onFail_run]
    simp [io, hnil]
  | false =>
    have hm := h s.tr hs
    rw [orBreak_run hnil]
    cases hrun : m s.tr with
    | ok | fail =>
      rw [hrun] at hm
      exact hm
    | panic | stuck => trivial

section

variable [Peer σ]

theorem Cursor.keeps_resolveLobs (t0 : Tr σ) (pending : List PendingLob)
    : Keeps (fun c : Cursor σ => Tr.Later t0 c.session.tr) (resolveLobs pending) := by
  induction pending with
  | nil => exact Keeps.pure _
  | cons p pending ih =>
    apply Keeps.bind
    . exact Triple.zoom (Session.keeps_orBreak (Keeps.mapErr (Tr.keeps_later_fetchLob t0 p)))
        (fun _ h => h) (fun _ _ _ _ h => h) (fun _ _ _ _ h => h)
    . intro v
      apply Keeps.bind Keeps.get
      intro c
      apply Keeps.bind
      . exact (triple_spliceLob _ p v).post (fun _ _ h => h.2)
      . intro buf
        exact Keeps.bind (Keeps.modify (fun _ h => h)) (fun _ => ih)

theorem Session.keeps_resolveGeneratedKeyLobs (t0 : Tr σ) (pending : List PendingLob)
    (rows : List (List Value))
    : Keeps (fun s : Session σ => Tr.Later t0 s.tr) (resolveGeneratedKeyLobs pending rows) := by
  induction pending generalizing rows with
  | nil => exact Keeps.pure _
  | cons p pending ih =>
    apply Keeps.bind (keeps_orBreak (Keeps.mapErr (Tr.keeps_later_fetchLob t0 p)))
    intro v
    apply Keeps.bind
    . exact (Cursor.triple_spliceLob rows p v).post (fun _ _ h => h.2)
    . intro rows
      exact ih rows

variable [GoStd]

namespace Tr

instance (m : Option ResultMeta) (j : Nat)
    : LawfulReader (getColumn m j : Prog Err (Tr σ) (Option ResultColumn)) := by
  unfold getColumn
  cases m <;> infer_instance

instance (missing failed : String) (m : Option ResultMeta) (lc : LobCollector) (j : Nat)
    : LawfulReader (readColumn missing failed m lc j : Prog Err (Tr σ) _) := by
  unfold readColumn
  have hread : ∀ col : Option ResultColumn, LawfulReader (match col with
      | none => Prog.throw (.errorf missing [.int j])
      | some col => wrapErr failed [.int j]
        (readValueInternal (some col.typeInfo) (some { lc with curCol := j }))
      : Prog Err (Tr σ) (Value × Option LobCollector)) := by
    intro col
    cases col <;> infer_instance
  infer_instance

instance (missing failed : String) (m : Option ResultMeta) (columnCount : Int) (lc : LobCollector)
    : LawfulReader (readColumns missing failed m columnCount lc : Prog Err (Tr σ) _) := by
  unfold readColumns
  infer_instance

instance (m : Option ResultMeta) (columnCount : Int) (fetch : Nat) (acc : Batch)
    : LawfulReader (readRows m columnCount fetch acc : Prog Err (Tr σ) _) := by
  induction fetch generalizing acc with
  | zero =>
    unfold readRows
    infer_instance
  | succ fetch ih =>
    unfold readRows
    infer_instance

end Tr

/--
Wherever fetching rows ends, what it has written was written behind a complete batch.
-/
def Cursor.Ordered (m : ResultMeta) (fetch : Int) (c c' : Cursor σ) : Prop :=
  c'.session.tr.writes = c.session.tr.writes ∨
    ∃ rows ended rest, (∀ cells ∈ rows, RowSent σ m cells) ∧ Complete fetch.toNat rows ended ∧
      c.session.tr.inp = batchBytes rows ended ++ rest ∧
      c.session.tr.WrittenAfter c'.session.tr (batchBytes rows ended).length

theorem Cursor.ordered_fetchRows {c : Cursor σ} (hopen : c.session.trNil = false) {m : ResultMeta}
    (hcolumns : c.rows.columns = some m) (hm : m.Fits c.rows.columnCount) (fetch : Int)
    : (fetchRows fetch c).Holds True (fun _ => Ordered m fetch c) (fun _ => Ordered m fetch c) := by
  have hfollows := fetchRowsLoop_follows fetch.toNat .empty hopen
  rw [hcolumns] at hfollows
  unfold fetchRows
  rw [Prog.bind_run]
  cases hrun : Tr.readRows (some m) c.rows.columnCount fetch.toNat (c.rows.bufferedRows, .empty)
      c.session.tr with
  | ok res t =>
    rw [hrun] at hfollows
    obtain ⟨rows, hsent, hcomplete, hinp, hmove⟩ := Tr.batch_of_readRows hm fetch.toNat rfl hrun
    rw [show fetchRowsLoop fetch.toNat .empty c = _ from hfollows, Out.andThen_ok]
    have hlater : ∀ c' : Cursor σ, Tr.Later t c'.session.tr → Ordered m fetch c c' := by
      intro c' h
      rw [hmove] at h
      exact .inr ⟨rows, res.2, t.inp, hsent, hcomplete, hinp, Tr.writtenAfter_of_later h⟩
    exact (keeps_resolveLobs t res.1.2.pending _ (Tr.Later.refl t)).imp (fun _ c' => hlater c')
      (fun _ c' => hlater c')
  | fail e t =>
    rw [hrun] at hfollows
    obtain ⟨used, rest, -, rfl⟩ := LawfulReader.fail_run hrun
    obtain ⟨buf, hfail⟩ := hfollows
    rw [hfail]
    exact .inl (by rw [Session.afterErr_tr]; rfl)
  | panic | stuck =>
    rw [hrun] at hfollows
    rw [show fetchRowsLoop fetch.toNat .empty c = _ from hfollows]
    trivial

instance (m : ResultMeta) (lc : LobCollector)
    : LawfulReader (Tr.readGeneratedKeyRow m lc : Prog Err (Tr σ) _) := by
  unfold Tr.readGeneratedKeyRow
  infer_instance

instance (full : Batch → Prog Err (Tr σ) Batch) [∀ acc, LawfulReader (full acc)] (m : ResultMeta)
    (n : Nat) (acc : Batch)
    : LawfulReader (Tr.readGeneratedKeyRows full m n acc) := by
  induction n generalizing acc with
  | zero =>
    unfold Tr.readGeneratedKeyRows
    infer_instance
  | succ n ih =>
    unfold Tr.readGeneratedKeyRows
    have hnext : ∀ o : Option (List Value × LobCollector), LawfulReader (match o with
        | none => pure acc
        | some r => Tr.readGeneratedKeyRows full m n (acc.1 ++ [r.1], r.2) : Prog Err (Tr σ) Batch) := by
      intro o
      cases o <;> infer_instance
    infer_instance

theorem Tr.writes_of_readGeneratedKeyBatch {m : ResultMeta} {rowCount : Int} {t t' : Tr σ} {e : Err}
    (h : readGeneratedKeyBatch m rowCount t = .fail e t')
    : t'.writes = t.writes := by
  have hrows : ∀ n (full : Batch → Prog Err (Tr σ) Batch) [∀ acc, LawfulReader (full acc)] acc t,
      readGeneratedKeyRows full m n acc t = .fail e t' → t'.writes = t.writes := by
    intro n full _ acc t hrun
    obtain ⟨used, rest, -, rfl⟩ := LawfulReader.fail_run hrun
    rfl
  unfold readGeneratedKeyBatch at h
  by_cases hpos : 0 < rowCount
  . rw [if_pos hpos] at h
    rcases Prog.bind_eq_fail h with hmake | ⟨_, t1, hmake, hrun⟩
    . obtain ⟨used, rest, -, rfl⟩ := LawfulReader.fail_run hmake
      rfl
    . obtain ⟨used, rest, -, rfl, -⟩ := LawfulReader.ok_run hmake
      exact hrows _ pure _ (Input.move used rest t) hrun
  . rw [if_neg hpos] at h
    by_cases hneg : rowCount < 0
    . rw [if_pos hneg] at h
      exact hrows _ (fun _ => Prog.stuck) _ _ h
    . rw [if_neg hneg] at h
      cases h

/--
Wherever reading generated keys ends, what it has written was written behind a complete batch.
-/
def Session.KeysOrdered (s s' : Session σ) : Prop :=
  s'.tr.writes = s.tr.writes ∨
    ∃ columnCount rowCount m metaBytes rows ended rest,
      Frame (Tr.readResultMeta columnCount s.version : Prog Err (Tr σ) _) m metaBytes ∧
      (∀ cells ∈ rows, RowSent σ m cells) ∧ Tr.KeysComplete rowCount rows ended ∧
      s.tr.inp = keysHeader columnCount rowCount metaBytes ++ batchBytes rows ended ++ rest ∧
      s.tr.WrittenAfter s'.tr
        (keysHeader columnCount rowCount metaBytes ++ batchBytes rows ended).length

theorem Session.ordered_readGeneratedKeys {s : Session σ} (hopen : s.trNil = false)
    : (readGeneratedKeys s).Holds True (fun _ => KeysOrdered s) (fun _ => KeysOrdered s) := by
  unfold readGeneratedKeys
  rw [ifOpen_of_open hopen]
  refine ((orBreak_reader hopen).imp (fun _ _ h => h) (fun _ _ h => .inl h)).bind ?_
  rintro columnCount _ ⟨_, hrun1, rfl⟩
  obtain ⟨t1, hcount, rfl⟩ := Out.map_eq_ok hrun1
  obtain ⟨hinp1, hmove1⟩ := Tr.inp_of_beInt hcount
  have hwrites1 : t1.writes = s.tr.writes := by rw [hmove1]; rfl
  refine ((orBreak_reader (by exact hopen)).imp (fun _ _ h => h)
    (fun _ _ h => .inl (h.trans hwrites1))).bind ?_
  rintro rowCount _ ⟨_, hrun2, rfl⟩
  obtain ⟨t2, hcount2, rfl⟩ := Out.map_eq_ok hrun2
  have ⟨hinp2, hmove2⟩ : t1.inp = intBytes 8 rowCount ++ t2.inp ∧
      t2 = Input.move (intBytes 8 rowCount) t2.inp t1 := Tr.inp_of_beInt hcount2
  have hwrites2 : t2.writes = s.tr.writes := by rw [hmove2]; exact hwrites1
  split
  . exact .inl hwrites2
  . next hcap =>
    unfold readGeneratedKeysBody
    rw [Prog.bind_run, Prog.get_run, Out.andThen_ok]
    refine ((orBreak_reader (by exact hopen)).imp (fun _ _ h => h)
      (fun _ _ h => .inl (h.trans hwrites2))).bind ?_
    rintro m _ ⟨_, hrun3, rfl⟩
    obtain ⟨t3, hmeta, rfl⟩ := Out.map_eq_ok hrun3
    obtain ⟨metaBytes, rest3, hinp3, hmove3, hframe⟩ : ∃ used rest, t2.inp = used ++ rest ∧
        t3 = Input.move used rest t2 ∧ Frame (Tr.readResultMeta columnCount s.version) m used :=
      LawfulReader.ok_run hmeta
    obtain ⟨rfl, hm⟩ := Progress.of_frame hframe t2 (Tr.progress_readResultMeta _ _)
    have hwrites3 : t3.writes = s.tr.writes := by rw [hmove3]; exact hwrites2
    refine ((orBreakUnlessAligned_reader (by exact hopen) Tr.writes_of_readGeneratedKeyBatch).imp
      (fun _ _ h => h) (fun _ _ h => .inl (h.trans hwrites3))).bind ?_
    rintro b _ ⟨t4, hbatch, rfl⟩
    have ⟨rows, ended, hsent, hcomplete, hinp4, hmove4⟩ := Tr.batch_of_readGeneratedKeyBatch
      (t := t3) hm (by omega) hbatch
    have hrest3 : t3.inp = rest3 := by rw [hmove3]; rfl
    have hmove : t4 = Input.move (keysHeader m.columnCount rowCount metaBytes ++ batchBytes rows ended)
        t4.inp s.tr := by
      rw [keysHeader, List.append_assoc, List.append_assoc, ← Input.move_move _ t1.inp, ← hmove1,
        ← Input.move_move _ t2.inp, ← hmove2, ← Input.move_move _ rest3, ← hmove3]
      exact hmove4
    have hlater : ∀ s' : Session σ, Tr.Later t4 s'.tr → KeysOrdered s s' := by
      intro s' h
      rw [hmove] at h
      refine .inr ⟨m.columnCount, rowCount, m, metaBytes, rows, ended, t4.inp, hframe, hsent,
        hcomplete, ?_, Tr.writtenAfter_of_later h⟩
      rw [hinp1, hinp2, hinp3, ← hrest3, hinp4, keysHeader]
      simp only [List.append_assoc]
    refine ((keeps_resolveGeneratedKeyLobs t4 _ _ _ (Tr.Later.refl t4)).imp (fun _ _ h => h)
      (fun _ s' => hlater s')).bind ?_
    intro rows' s' h
    exact hlater s' h

end

section

variable {σ : Type} [GoStd] [Peer σ]

/--
The batch that is fetched next is delivered with the contents of its LOBs, unless one of them is
announced to be too long or a write fails.
-/
def Cursor.ResolvesBatch (c : Cursor σ) (m : ResultMeta) (fetch : Int) : Prop :=
  ∀ (content : Int → Option (List UInt8) → List UInt8) (P : σ → Prop) (rows : List (List Cell))
    (ended : Bool), LobServer content P → (∀ cells ∈ rows, RowSent σ m cells) →
    Complete fetch.toNat rows ended → c.session.tr.inp = batchBytes rows ended →
    c.session.tr.held = [] → P c.session.tr.peer →
    (Cursor.fetchRows fetch c).Holds
      (OutOfFuel content (placeholders (batchValues c.rows.bufferedRows.length rows)) c.session.tr)
      (fun _ c' => c'.rows.bufferedRows = c.rows.bufferedRows ++ resolvedRows content rows ∧
        Resolved P (placeholders (batchValues c.rows.bufferedRows.length rows)) c.session.tr
          c'.session.tr)
      (fun _ _ => Unresolvable (placeholders (batchValues c.rows.bufferedRows.length rows))
        c.session.tr)

/--
A row with a LOB in a container is an error that closes the session. Nothing is requested before.
-/
def Cursor.RejectsNested (c : Cursor σ) (m : ResultMeta) (fetch : Int) : Prop :=
  ∀ (rows : List (List Cell)) (b : List UInt8), (∀ cells ∈ rows, RowSent σ m cells) →
    rows.length < fetch → NestedRow σ m b → c.session.tr.inp = rows.flatMap rowBytes ++ 1 :: b →
    ∃ e c', Cursor.fetchRows fetch c = .fail e c' ∧ e.is .nestedOnDemandLOB = true ∧
      c'.session.dead = true ∧ c'.session.tr.writes = c.session.tr.writes

/--
The generated keys `rows` behind `header` are read with the contents of their LOBs.
-/
def Session.ResolvesKeys (s : Session σ) (header : List UInt8) (rowCount : Int)
    (rows : List (List Cell)) : Prop :=
  ∀ (content : Int → Option (List UInt8) → List UInt8) (P : σ → Prop) (ended : Bool),
    LobServer content P → Tr.KeysComplete rowCount rows ended →
    s.tr.inp = header ++ batchBytes rows ended → s.tr.held = [] → P s.tr.peer →
    (Session.readGeneratedKeys s).Holds
      (OutOfFuel content (placeholders (batchValues 0 rows)) s.tr)
      (fun r s' => r.1.rows = resolvedRows content rows ∧
        Resolved P (placeholders (batchValues 0 rows)) s.tr s'.tr)
      (fun _ _ => Unresolvable (placeholders (batchValues 0 rows)) s.tr)

def Session.RejectsNestedKeys (s : Session σ) (m : ResultMeta) (header : List UInt8) (rowCount : Int)
    (rows : List (List Cell)) : Prop :=
  ∀ b : List UInt8, rowCount < 0 ∨ rows.length < rowCount → NestedRow σ m b →
    s.tr.inp = header ++ (rows.flatMap rowBytes ++ 1 :: b) →
    ∃ e s', Session.readGeneratedKeys s = .fail e s' ∧ e.is .nestedOnDemandLOB = true ∧
      s'.dead = true ∧ s'.tr.writes = s.tr.writes

/--
A LOB on the top level is recorded, one in a container is an error.
-/
def Tr.RecordsLobs (t : Tr σ) (colType : Option TypeInfo) : Prop :=
  (∀ (c : LobCollector) r t', Tr.readValueInternal colType (some c) t = .ok r t' → c.Step r) ∧
    ∀ lc : Option LobCollector, HoldsLob σ true colType t.inp →
      Rejected t (Tr.readValueInternal colType lc t)

/--
The LOBs of a batch are resolved when the whole batch has been read. Then every placeholder is
replaced by the content the server has stored for it, with requests in the order of the wire. LOBs in
containers are never resolved nor recorded.
-/
theorem deferredLobs
    : (∀ (c : Cursor σ) (fetch : Int), c.Reachable → c.rows.closed = false →
        c.session.trNil = false →
        ∃ m, c.rows.columns = some m ∧ m.Fits c.rows.columnCount ∧
          (Cursor.fetchRows fetch c).Holds True (fun _ => c.Ordered m fetch)
            (fun _ => c.Ordered m fetch) ∧
          c.ResolvesBatch m fetch ∧ c.RejectsNested m fetch) ∧
      (∀ s : Session σ, s.trNil = false →
        (Session.readGeneratedKeys s).Holds True (fun _ => s.KeysOrdered) (fun _ => s.KeysOrdered) ∧
        ∀ (columnCount rowCount : Int) (m : ResultMeta) (metaBytes : List UInt8)
          (rows : List (List Cell)), -2 ^ 31 ≤ columnCount → columnCount < 2 ^ 31 →
          -2 ^ 63 ≤ rowCount → rowCount ≤ maxWireCollectionElements →
          Frame (Tr.readResultMeta columnCount s.version : Prog Err (Tr σ) _) m metaBytes →
          (∀ cells ∈ rows, RowSent σ m cells) →
          s.ResolvesKeys (keysHeader columnCount rowCount metaBytes) rowCount rows ∧
            s.RejectsNestedKeys m (keysHeader columnCount rowCount metaBytes) rowCount rows) ∧
      ∀ (t : Tr σ) (colType : Option TypeInfo), t.RecordsLobs colType := by
  refine ⟨?_, ?_, ?_⟩
  . intro c fetch hreach hclosed hopen
    obtain ⟨m, hcolumns, hm⟩ := Cursor.typed_of_reachable hreach hclosed
    refine ⟨m, hcolumns, hm, Cursor.ordered_fetchRows hopen hcolumns hm fetch, ?_, ?_⟩
    . intro content P rows ended hserver hsent hcomplete hinp hheld hpeer
      refine (Cursor.fetchRows_served hserver hopen hcolumns hm hsent hcomplete hinp hheld
        hpeer).imp ?_ (fun _ _ h => h)
      rintro _ _ ⟨t', rfl, hresolved⟩
      exact ⟨rfl, hresolved⟩
    . intro rows b hsent hlt hb hinp
      exact Cursor.fetchRows_rejected hopen hcolumns hm hsent hlt hb hinp
  . intro s hopen
    refine ⟨Session.ordered_readGeneratedKeys hopen, ?_⟩
    intro columnCount rowCount m metaBytes rows hcol hcol' hrow hcap hmeta hsent
    refine ⟨?_, ?_⟩
    . intro content P ended hserver hcomplete hinp hheld hpeer
      refine (Session.readGeneratedKeys_served hserver hopen hcol hcol' hrow hcap hmeta hsent
        hcomplete hinp hheld hpeer).imp ?_ (fun _ _ h => h)
      rintro r _ ⟨hrows, t', rfl, hresolved⟩
      exact ⟨hrows, hresolved⟩
    . intro b hlt hb hinp
      exact Session.readGeneratedKeys_rejected hopen hcol hcol' hrow hcap hmeta hsent hlt hb hinp
  . intro t colType
    refine ⟨?_, ?_⟩
    . intro c r t' h
      obtain ⟨_, _, _, _, hframe⟩ := LawfulReader.ok_run h
      exact Tr.step_of_frame t hframe
    . intro lc h
      exact Tr.readValueInternal_rejected h rfl lc

end

section

open StandIn

def sevenServer : ChunkServer := ⟨[7], 1⟩

theorem lobServer_sevenServer : LobServer (fun _ _ => [7]) (fun s : ChunkServer => s = sevenServer) where
  length_lt _ _ := by decide
  serve p _ := servesLob_chunkServer p (by decide) (by decide) (by decide)

def blobCell : List UInt8 :=
  [0, 0, 0, 15] ++ List.replicate 8 255 ++ [0, 0, 0, 0] ++ [0, 0, 0, 0, 0, 0, 0, 9]
    ++ List.replicate 4 255 ++ [0, 0, 0, 0, 0, 0, 0, 1]

def blobResult : Session ChunkServer :=
  Session.ofTr { Tr.ofBytes (List.replicate 8 255 ++ List.replicate 16 255 ++ [0, 0, 0, 15]
    ++ List.replicate 8 0 ++ [0] ++ [0, 0, 0, 0] ++ [1] ++ blobCell) with peer := sevenServer }

def blobLob : PendingLob :=
  { typeCode := .blob, lobID := 9, hmac := none, octetLength := 0, precision := 1, row := 0, col := 0 }

theorem blobCell_run {σ : Type} [Peer σ] (peer : σ) (colType : Option TypeInfo)
    : ∃ lc t', Tr.readValueInternal colType (some .empty)
        { Tr.ofBytes blobCell with peer := peer } = .ok (.lob blobLob, lc) t' ∧ t'.inp = [] :=
  ⟨_, _, rfl, rfl⟩

theorem rowSent_blobCell {σ : Type} [Peer σ] (peer : σ) {m : ResultMeta} (hm : m.Fits 1)
    : RowSent σ m [⟨blobCell, .lob blobLob⟩] := by
  have hlen := hm.length_eq
  obtain ⟨col, hcol⟩ := List.length_eq_one_iff.mp (show m.columns.length = 1 by omega)
  obtain ⟨lc, t', hrun, hend⟩ := blobCell_run peer (some col.typeInfo)
  rw [RowSent, hcol]
  exact .cons ⟨lc, LawfulReader.frame_of_ok hrun hend⟩ .nil

def BlobRows (c : Cursor ChunkServer) : Prop :=
  c.rows.closed = false ∧ c.session.trNil = false ∧ c.rows.columnCount = 1 ∧
    c.rows.bufferedRows = [] ∧ c.session.tr.inp = 1 :: blobCell ∧ c.session.tr.held = [] ∧
    c.session.tr.writeBudget = none ∧ 0 < c.session.tr.fuel ∧ c.session.tr.peer = sevenServer

instance (c : Cursor ChunkServer) : Decidable (BlobRows c) :=
  inferInstanceAs (Decidable (_ ∧ _))

theorem blobResult_run
    : ∃ r s, Session.newRows 1 1 0 false 0 blobResult = .ok r s ∧
        BlobRows { rows := r, session := s } := by
  have h : (Session.newRows 1 1 0 false 0 blobResult).returns (fun r s =>
      decide (BlobRows { rows := r, session := s })) = true := by decide +kernel
  obtain ⟨r, s, hrun, h⟩ := Out.exists_of_returns h
  exact ⟨r, s, hrun, of_decide_eq_true h⟩

theorem deferredLobs_blob
    : ∃ c c' : Cursor ChunkServer, c.Reachable ∧ BlobRows c ∧ Cursor.fetchRows 1 c = .ok () c' ∧
        c'.rows.bufferedRows = [[.bytes (some [7])]] := by
  obtain ⟨r, s, hnew, hrows⟩ := blobResult_run
  obtain ⟨hclosed, hopen, hcount, hbuf, hinp, hheld, hhealthy, hfuel, hpeer⟩ := hrows
  have hreach : Cursor.Reachable (⟨r, s⟩ : Cursor ChunkServer) :=
    ⟨1, 1, 0, false, 0, blobResult, r, s, hnew, .refl⟩
  obtain ⟨m, -, hm, -, hserved, -⟩ := deferredLobs.1 ⟨r, s⟩ 1 hreach hclosed hopen
  have hsent : RowSent ChunkServer m [⟨blobCell, .lob blobLob⟩] :=
    rowSent_blobCell sevenServer (by rw [← hcount]; exact hm)
  have h := hserved (fun _ _ => [7]) (fun s => s = sevenServer) [[⟨blobCell, .lob blobLob⟩]] false
    lobServer_sevenServer (by simpa using hsent) rfl (by simpa [batchBytes, rowBytes] using hinp) hheld
    hpeer
  have hlobs : placeholders (batchValues r.bufferedRows.length [[⟨blobCell, .lob blobLob⟩]])
      = [blobLob] := by rw [hbuf]; rfl
  dsimp only at h
  rw [hlobs] at h
  cases hrun : Cursor.fetchRows 1 (⟨r, s⟩ : Cursor ChunkServer) with
  | ok _ c' =>
    rw [hrun] at h
    refine ⟨⟨r, s⟩, c', hreach, ⟨hclosed, hopen, hcount, hbuf, hinp, hheld, hhealthy, hfuel, hpeer⟩,
      hrun, ?_⟩
    rw [h.1, hbuf]
    rfl
  | fail e c' =>
    rw [hrun] at h
    rcases h with h | ⟨p, hp, h⟩
    . exact absurd hhealthy h
    . rw [List.mem_singleton.mp hp] at h
      exact absurd h (by decide)
  | panic | stuck =>
    rw [hrun] at h
    obtain ⟨p, -, h⟩ := h
    exact absurd h (Nat.not_lt.mpr hfuel)

end

end H2Go
