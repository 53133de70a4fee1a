import H2Go.Rows.Splice
import H2Go.Value.Nested

/-!
This module contains the rejection of batches: a nested LOB in any column of any row makes the reading
of the batch fail, and the session is given up without a request.
-/

namespace H2Go

def NestedRow (σ : Type) [GoStd] [Peer σ] (m : ResultMeta) (b : List UInt8) : Prop :=
  ∃ (cells : List Cell) (col : ResultColumn) (rest : List UInt8),
    List.Forall₂ (Cell.Sent σ) cells (m.columns.take cells.length) ∧
    m.columns[cells.length]? = some col ∧ HoldsLob σ true (some col.typeInfo) rest ∧
    b = cells.flatMap Cell.bytes ++ rest

variable {σ : Type} [GoStd] [Peer σ]

namespace Tr

theorem readColumns_rejected (missing failed : String) {m : ResultMeta} {columnCount : Int}
    (hm : m.Fits columnCount) (lc : LobCollector) (hlc : lc.reject = false) {t : Tr σ}
    (h : NestedRow σ m t.inp)
    : Rejected t (readColumns missing failed (some m) columnCount lc t) := by
  obtain ⟨cells, col, rest, hsent, hcol, hlob, hinp⟩ := h
  have hlen := hm.length_eq
  have hlt := (List.getElem?_eq_some_iff.mp hcol).1
  obtain ⟨lc', hframe⟩ := frame_readColumns_aux t missing failed hlc hsent (j := 0) (m := m)
    (fun k col h => by
      rw [List.getElem?_take] at h
      split at h
      . rwa [Nat.zero_add]
      . cases h) (RowPart.nil lc)
  unfold readColumns
  rw [Prog.make_eq ⟨by omega, hm.le_cap⟩, Prog.pure_bind,
    show columnCount.toNat = cells.length + (columnCount.toNat - cells.length - 1 + 1) by omega,
    Prog.iter_add]
  apply Rejected.of_frame hframe hinp
  rw [Prog.iter_succ, Nat.zero_add, readColumn_eq missing failed hcol]
  exact (((readValueInternal_rejected hlob rfl _).mapErr _ _).bind _).bind _

theorem readRows_rejected {m : ResultMeta} {columnCount : Int} (hm : m.Fits columnCount)
    {rows : List (List Cell)} (hsent : ∀ cells ∈ rows, RowSent σ m cells) {fetch : Nat}
    (hlt : rows.length < fetch) {old new : List (List Value)} {acc : Batch}
    (hacc : acc.Grown old columnCount.toNat new) {b : List UInt8} (hb : NestedRow σ m b) {t : Tr σ}
    (hinp : t.inp = rows.flatMap rowBytes ++ 1 :: b)
    : Rejected t (readRows (some m) columnCount fetch acc t) := by
  obtain ⟨fetch, rfl⟩ := Nat.exists_eq_succ_of_ne_zero (Nat.ne_of_gt (Nat.zero_lt_of_lt hlt))
  induction rows generalizing fetch new acc t with
  | nil =>
    unfold readRows
    apply Rejected.of_frame (frame_rowFlag 1) hinp
    rw [if_pos (by decide)]
    exact (readColumns_rejected _ _ hm _ (by exact hacc.reject_eq) hb).bind _
  | cons cells rows ih =>
    obtain ⟨lc, hrow, hpart⟩ := frame_readColumns t "h2go: fetchRows: column %d metadata not found"
      "h2go: fetchRows: failed to read column %d: %w" hm { acc.2 with curRow := acc.1.length }
      hacc.reject_eq (hsent cells List.mem_cons_self)
    have hlt' := Nat.lt_of_succ_lt_succ hlt
    obtain ⟨fetch, rfl⟩ := Nat.exists_eq_succ_of_ne_zero (Nat.ne_of_gt (Nat.zero_lt_of_lt hlt'))
    unfold readRows
    have hinp' : t.inp = [1] ++ (cells.flatMap Cell.bytes ++ (rows.flatMap rowBytes ++ 1 :: b)) := by
      rw [hinp]
      simp [rowBytes]
    apply Rejected.of_frame (frame_rowFlag 1) hinp'
    rw [if_pos (by decide)]
    apply Rejected.of_frame hrow rfl
    exact ih (fun cells h => hsent cells (List.mem_cons_of_mem _ h)) (hacc.snoc hpart) rfl fetch hlt'

theorem readGeneratedKeyRows_rejected {m : ResultMeta} (hm : m.Fits m.columnCount)
    {rows : List (List Cell)} (hsent : ∀ cells ∈ rows, RowSent σ m cells)
    (full : Batch → Prog Err (Tr σ) Batch) {n : Nat} (hlt : rows.length < n)
    {old new : List (List Value)} {acc : Batch} (hacc : acc.Grown old m.columnCount.toNat new)
    {b : List UInt8} (hb : NestedRow σ m b) {t : Tr σ}
    (hinp : t.inp = rows.flatMap rowBytes ++ 1 :: b)
    : Rejected t (readGeneratedKeyRows full m n acc t) := by
  obtain ⟨n, rfl⟩ := Nat.exists_eq_succ_of_ne_zero (Nat.ne_of_gt (Nat.zero_lt_of_lt hlt))
  induction rows generalizing n new acc t with
  | nil =>
    unfold readGeneratedKeyRows
    apply Rejected.bind
    unfold readGeneratedKeyRow
    apply Rejected.of_frame (frame_readByte 1).mapErr hinp
    rw [if_pos (by decide)]
    exact (readColumns_rejected _ _ hm _ (by exact hacc.reject_eq) hb).bind _
  | cons cells rows ih =>
    obtain ⟨lc, hrow, hpart⟩ := frame_readColumns t
      "h2go: readGeneratedKeyRow: missing metadata for column %d"
      "h2go: readGeneratedKeyRow: failed to read column %d: %w" hm
      { acc.2 with curRow := acc.1.length } hacc.reject_eq (hsent cells List.mem_cons_self)
    have hlt' := Nat.lt_of_succ_lt_succ hlt
    obtain ⟨n, rfl⟩ := Nat.exists_eq_succ_of_ne_zero (Nat.ne_of_gt (Nat.zero_lt_of_lt hlt'))
    unfold readGeneratedKeyRows
    have hinp' : t.inp = ([1] ++ cells.flatMap Cell.bytes) ++ (rows.flatMap rowBytes ++ 1 :: b) := by
      rw [hinp]
      simp [rowBytes]
    apply Rejected.of_frame (frame_readGeneratedKeyRow_row hrow) hinp'
    exact ih (fun cells h => hsent cells (List.mem_cons_of_mem _ h)) (hacc.snoc hpart) rfl n hlt'

theorem readGeneratedKeyBatch_rejected {m : ResultMeta} (hm : m.Fits m.columnCount) {rowCount : Int}
    (hcap : rowCount ≤ maxWireCollectionElements) {rows : List (List Cell)}
    (hsent : ∀ cells ∈ rows, RowSent σ m cells) (hlt : rowCount < 0 ∨ rows.length < rowCount)
    {b : List UInt8} (hb : NestedRow σ m b) {t : Tr σ}
    (hinp : t.inp = rows.flatMap rowBytes ++ 1 :: b)
    : Rejected t (readGeneratedKeyBatch m rowCount t) := by
  have hnil := Batch.Grown.nil [] m.columnCount.toNat
  unfold readGeneratedKeyBatch
  by_cases hpos : 0 < rowCount
  . rw [if_pos hpos, Prog.make_eq ⟨by omega, hcap⟩, Prog.pure_bind]
    exact readGeneratedKeyRows_rejected hm hsent pure (by omega) hnil hb hinp
  . rw [if_neg hpos, if_pos (by omega)]
    have := length_le_batchBytes rows false
    apply readGeneratedKeyRows_rejected hm hsent (fun _ => Prog.stuck) _ hnil hb hinp
    rw [hinp, List.length_append]
    simp only [batchBytes, Bool.false_eq_true, if_false, List.append_nil] at this
    omega

end Tr

/--
A batch with a nested LOB in one of its rows is an error, for which nothing was written.
-/
theorem Cursor.fetchRows_rejected {c : Cursor σ} (hopen : c.session.trNil = false) {m : ResultMeta}
    (hcolumns : c.rows.columns = some m) (hm : m.Fits c.rows.columnCount) {rows : List (List Cell)}
    (hsent : ∀ cells ∈ rows, RowSent σ m cells) {fetch : Int} (hlt : rows.length < fetch)
    {b : List UInt8} (hb : NestedRow σ m b)
    (hinp : c.session.tr.inp = rows.flatMap rowBytes ++ 1 :: b)
    : ∃ e c', fetchRows fetch c = .fail e c' ∧ e.is .nestedOnDemandLOB = true ∧
        c'.session.dead = true ∧ c'.session.tr.writes = c.session.tr.writes := by
  have hfollows := fetchRowsLoop_follows fetch.toNat .empty hopen
  obtain ⟨e, used, rest, hrun, he, hplain⟩ := Tr.readRows_rejected hm hsent
    (show rows.length < fetch.toNat by omega) (Batch.Grown.nil c.rows.bufferedRows c.rows.columnCount.toNat) hb hinp
  rw [hcolumns, hrun] at hfollows
  obtain ⟨buf, hfail⟩ := hfollows
  unfold fetchRows
  rw [Prog.bind_run, hfail]
  refine ⟨e, _, rfl, he, ?_, ?_⟩
  . rw [Session.afterErr_of_plain hplain.1]
    rfl
  . rw [Session.afterErr_tr]
    rfl

theorem Session.readGeneratedKeys_rejected {s : Session σ} (hopen : s.trNil = false)
    {columnCount rowCount : Int} (hcolumns : -2 ^ 31 ≤ columnCount) (hcolumns' : columnCount < 2 ^ 31)
    (hrows : -2 ^ 63 ≤ rowCount) (hcap : rowCount ≤ maxWireCollectionElements) {m : ResultMeta}
    {metaBytes : List UInt8}
    (hmeta : Frame (Tr.readResultMeta columnCount s.version : Prog Err (Tr σ) _) m metaBytes)
    {rows : List (List Cell)} (hsent : ∀ cells ∈ rows, RowSent σ m cells)
    (hlt : rowCount < 0 ∨ rows.length < rowCount) {b : List UInt8} (hb : NestedRow σ m b)
    (hinp : s.tr.inp
      = keysHeader columnCount rowCount metaBytes ++ (rows.flatMap rowBytes ++ 1 :: b))
    : ∃ e s', readGeneratedKeys s = .fail e s' ∧ e.is .nestedOnDemandLOB = true ∧
        s'.dead = true ∧ s'.tr.writes = s.tr.writes := by
  obtain ⟨rfl, hm⟩ := Progress.of_frame hmeta s.tr (Tr.progress_readResultMeta columnCount s.version)
  rw [readGeneratedKeys_of_header hopen hcolumns hcolumns' hrows hcap hmeta hinp]
  unfold readGeneratedKeysRows
  rw [Prog.bind_run, orBreakUnlessAligned_run (by exact hopen), setTr_tr]
  obtain ⟨e, used, rest, hrun, he, hplain⟩ := Tr.readGeneratedKeyBatch_rejected hm hcap hsent hlt hb
    (t := Input.move (keysHeader m.columnCount rowCount metaBytes)
      (rows.flatMap rowBytes ++ 1 :: b) s.tr) rfl
  rw [hrun]
  refine ⟨e, _, rfl, he, ?_, ?_⟩
  . rw [afterErr_of_plain hplain.1]
    rfl
  . rw [afterErr_tr]
    rfl

end H2Go
