import H2Go.GeneratedKeys.Lemmas
import H2Go.Rows.Wire

/-!
This module contains the rows of generated keys on the wire, they are sent as the rows of any other
result.
-/

namespace H2Go

namespace Tr

variable {σ : Type} [GoStd] [Peer σ]

theorem frame_readGeneratedKeyRow_end (m : ResultMeta) (lc : LobCollector)
    : Frame (readGeneratedKeyRow m lc : Prog Err (Tr σ) _) none [0] := by
  unfold readGeneratedKeyRow
  apply (frame_readByte 0).mapErr.bind_nil
  exact Frame.pure

theorem frame_readGeneratedKeyRow_row {m : ResultMeta} {lc : LobCollector}
    {r : List Value × LobCollector} {b : List UInt8}
    (h : Frame (readColumns "h2go: readGeneratedKeyRow: missing metadata for column %d"
      "h2go: readGeneratedKeyRow: failed to read column %d: %w" (some m) m.columnCount lc
      : Prog Err (Tr σ) _) r b)
    : Frame (readGeneratedKeyRow m lc : Prog Err (Tr σ) _) (some r) ([1] ++ b) := by
  unfold readGeneratedKeyRow
  apply (frame_readByte 1).mapErr.bind
  exact h.bind_nil Frame.pure

theorem frame_readGeneratedKeyRows (t : Tr σ) {m : ResultMeta} (hm : m.Fits m.columnCount)
    {rows : List (List Cell)} (hsent : ∀ cells ∈ rows, RowSent σ m cells) {ended : Bool} {n : Nat}
    (hcomplete : Complete n rows ended) (full : Batch → Prog Err (Tr σ) Batch)
    (hfull : ended = false → full = pure) {old new : List (List Value)} {acc : Batch}
    (hacc : acc.Grown old m.columnCount.toNat new)
    : ∃ lc, Frame (readGeneratedKeyRows full m n acc)
          (acc.1 ++ batchValues acc.1.length rows, lc) (batchBytes rows ended) ∧
        Batch.Grown old m.columnCount.toNat (new ++ batchValues acc.1.length rows)
          (acc.1 ++ batchValues acc.1.length rows, lc) := by
  induction rows generalizing n new acc with
  | nil =>
    refine ⟨acc.2, ?_, by simpa [batchValues] using hacc⟩
    simp only [batchValues, List.mapIdx_nil, List.append_nil]
    cases ended with
    | false =>
      obtain rfl : 0 = n := hcomplete
      unfold readGeneratedKeyRows
      rw [hfull rfl]
      exact Frame.pure
    | true =>
      cases n with
      | zero => exact absurd hcomplete (Nat.lt_irrefl 0)
      | succ n =>
        unfold readGeneratedKeyRows
        exact (frame_readGeneratedKeyRow_end m _).bind_nil Frame.pure
  | cons cells rows ih =>
    obtain ⟨n, rfl⟩ := hcomplete.exists_eq_succ
    obtain ⟨lc1, hrow, hpart⟩ := frame_readColumns t
      "h2go: readGeneratedKeyRow: missing metadata for column %d"
      "h2go: readGeneratedKeyRow: failed to read column %d: %w" hm
      { acc.2 with curRow := acc.1.length } hacc.reject_eq (hsent cells List.mem_cons_self)
    obtain ⟨lc, hrest, hgrown⟩ := ih (fun cells h => hsent cells (List.mem_cons_of_mem _ h))
      hcomplete.of_cons (hacc.snoc hpart)
    have hlen : (acc.1 ++ [rowValues acc.1.length cells]).length = acc.1.length + 1 := by simp
    refine ⟨lc, ?_, ?_⟩
    . rw [batchValues_cons, batchBytes_cons, ← List.append_assoc]
      unfold readGeneratedKeyRows
      apply (frame_readGeneratedKeyRow_row hrow).bind
      simpa [hlen] using hrest
    . rw [batchValues_cons]
      simpa [hlen] using hgrown

/--
The rows of a generated keys frame that announces `rowCount` rows. A negative count announces a
result whose size is not known.
-/
def KeysComplete (rowCount : Int) (rows : List (List Cell)) (ended : Bool) : Prop :=
  if rowCount < 0 then ended = true else Complete rowCount.toNat rows ended

theorem readGeneratedKeyBatch_run {t : Tr σ} {m : ResultMeta} (hm : m.Fits m.columnCount)
    {rowCount : Int} (hcap : rowCount ≤ maxWireCollectionElements) {rows : List (List Cell)}
    (hsent : ∀ cells ∈ rows, RowSent σ m cells) {ended : Bool}
    (hcomplete : KeysComplete rowCount rows ended) {rest : List UInt8}
    (hinp : t.inp = batchBytes rows ended ++ rest)
    : ∃ lc, readGeneratedKeyBatch m rowCount t
          = .ok (batchValues 0 rows, lc) (Input.move (batchBytes rows ended) rest t) ∧
        Batch.Grown [] m.columnCount.toNat (batchValues 0 rows) (batchValues 0 rows, lc) := by
  have hnil := Batch.Grown.nil [] m.columnCount.toNat
  unfold KeysComplete at hcomplete
  unfold readGeneratedKeyBatch
  by_cases hneg : rowCount < 0
  . rw [if_pos hneg] at hcomplete
    subst hcomplete
    rw [if_neg (by omega), if_pos hneg]
    have hlt : Complete (t.inp.length + 1) rows true := by
      have := length_le_batchBytes rows true
      rw [hinp, List.length_append]
      exact Nat.lt_succ_of_le (by omega)
    obtain ⟨lc, hframe, hgrown⟩ := frame_readGeneratedKeyRows t hm hsent hlt (fun _ => Prog.stuck)
      (by simp) hnil
    exact ⟨lc, hframe.exact t rest hinp, hgrown⟩
  . rw [if_neg hneg] at hcomplete
    obtain ⟨lc, hframe, hgrown⟩ := frame_readGeneratedKeyRows t hm hsent hcomplete pure
      (fun _ => rfl) hnil
    refine ⟨lc, ?_, hgrown⟩
    have hrun := hframe.exact t rest hinp
    by_cases hpos : 0 < rowCount
    . rw [if_pos hpos, Prog.make_eq ⟨by omega, hcap⟩, Prog.pure_bind]
      exact hrun
    . rw [if_neg hpos, if_neg hneg]
      rw [show rowCount.toNat = 0 by omega] at hrun
      exact hrun

theorem sent_of_readGeneratedKeyRow {m : ResultMeta} (hm : m.Fits m.columnCount) (lc : LobCollector)
    (hlc : lc.reject = false) {o : Option (List Value × LobCollector)} {t t' : Tr σ}
    (h : readGeneratedKeyRow m lc t = .ok o t')
    : (o = none ∧ t.inp = 0 :: t'.inp ∧ t' = Input.move [0] t'.inp t) ∨
        ∃ r cells, o = some r ∧ r.2.reject = false ∧ RowSent σ m cells ∧
          t.inp = [1] ++ cells.flatMap Cell.bytes ++ t'.inp ∧
          t' = Input.move ([1] ++ cells.flatMap Cell.bytes) t'.inp t := by
  unfold readGeneratedKeyRow at h
  obtain ⟨rowFlag, t1, hflag, h⟩ := Prog.bind_eq_ok h
  obtain ⟨w, hbyte, rfl⟩ := Out.map_eq_ok hflag
  obtain ⟨hinp, hmove⟩ := inp_of_readByte hbyte
  split at h
  . next hrow =>
    obtain ⟨r, t2, hcols, h⟩ := Prog.bind_eq_ok h
    obtain ⟨hreject, cells, hsent, hinp1, hmove1⟩ := sent_of_readColumns _ _ hm lc hlc hcols
    cases h
    rw [int8_eq_one hrow] at hinp hmove
    refine .inr ⟨r, cells, rfl, hreject, hsent, ?_, ?_⟩
    . rw [hinp]
      exact congrArg (1 :: ·) hinp1
    . rw [← Input.move_move [1] w.inp, ← hmove]
      exact hmove1
  . split at h
    . next hend =>
      cases h
      rw [int8_eq_zero hend] at hinp hmove
      exact .inl ⟨rfl, hinp, hmove⟩
    . split at h
      . obtain ⟨_, hrun, _⟩ := Out.map_eq_ok h
        obtain ⟨_, _, _, hthrow⟩ := Prog.bind_eq_ok hrun
        cases hthrow
      . cases h

theorem batch_of_readGeneratedKeyRows {m : ResultMeta} (hm : m.Fits m.columnCount)
    (full : Batch → Prog Err (Tr σ) Batch)
    (hfull : ∀ {acc b : Batch} {t t' : Tr σ}, full acc t = .ok b t' → full = pure) (n : Nat)
    {acc b : Batch} (hacc : acc.2.reject = false) {t t' : Tr σ}
    (h : readGeneratedKeyRows full m n acc t = .ok b t')
    : ∃ rows ended, (∀ cells ∈ rows, RowSent σ m cells) ∧ Complete n rows ended ∧
        (ended = false → full = pure) ∧ t.inp = batchBytes rows ended ++ t'.inp ∧
        t' = Input.move (batchBytes rows ended) t'.inp t := by
  induction n generalizing acc t with
  | zero =>
    have hpure := hfull h
    unfold readGeneratedKeyRows at h
    rw [hpure] at h
    cases h
    exact ⟨[], false, by simp, rfl, fun _ => hpure, by simp [batchBytes],
      by simp [batchBytes, Input.move]⟩
  | succ n ih =>
    unfold readGeneratedKeyRows at h
    obtain ⟨o, t1, hrow, h⟩ := Prog.bind_eq_ok h
    rcases sent_of_readGeneratedKeyRow hm { acc.2 with curRow := acc.1.length } hacc hrow with
      ⟨rfl, hinp, hmove⟩ | ⟨r, cells, rfl, hreject, hsent, hinp, hmove⟩
    . cases h
      exact ⟨[], true, by simp, Nat.succ_pos n, by simp, hinp, hmove⟩
    . obtain ⟨rows, ended, hrows, hcomplete, hpure, hinp1, hmove1⟩ := ih hreject h
      refine ⟨cells :: rows, ended, List.forall_mem_cons.mpr ⟨hsent, hrows⟩, hcomplete.cons cells,
        hpure, ?_, ?_⟩
      . rw [hinp, batchBytes_cons, ← List.append_assoc, List.append_assoc _ _ t'.inp, ← hinp1]
      . rw [batchBytes_cons, ← List.append_assoc,
          ← Input.move_move ([1] ++ cells.flatMap Cell.bytes) t1.inp, ← hmove]
        exact hmove1

theorem batch_of_readGeneratedKeyBatch {m : ResultMeta} (hm : m.Fits m.columnCount) {rowCount : Int}
    (hcap : rowCount ≤ maxWireCollectionElements) {b : Batch} {t t' : Tr σ}
    (h : readGeneratedKeyBatch m rowCount t = .ok b t')
    : ∃ rows ended, (∀ cells ∈ rows, RowSent σ m cells) ∧ KeysComplete rowCount rows ended ∧
        t.inp = batchBytes rows ended ++ t'.inp ∧
        t' = Input.move (batchBytes rows ended) t'.inp t := by
  unfold readGeneratedKeyBatch at h
  unfold KeysComplete
  by_cases hpos : 0 < rowCount
  . rw [if_pos hpos, Prog.make_eq ⟨by omega, hcap⟩, Prog.pure_bind] at h
    obtain ⟨rows, ended, hrows, hcomplete, -, hrest⟩ :=
      batch_of_readGeneratedKeyRows hm pure (fun _ => rfl) _ rfl h
    exact ⟨rows, ended, hrows, by rwa [if_neg (by omega)], hrest⟩
  . rw [if_neg hpos] at h
    by_cases hneg : rowCount < 0
    . rw [if_pos hneg] at h
      obtain ⟨rows, ended, hrows, -, hpure, hrest⟩ :=
        batch_of_readGeneratedKeyRows hm (fun _ => Prog.stuck) (fun h => by cases h) _ rfl h
      refine ⟨rows, ended, hrows, ?_, hrest⟩
      rw [if_pos hneg]
      cases ended with
      | true => rfl
      | false => cases congrFun (congrFun (hpure rfl) b) t
    . rw [if_neg hneg] at h
      cases h
      exact ⟨[], false, by simp, by rw [if_neg hneg]; simp [Complete]; omega, by simp [batchBytes],
        by simp [batchBytes, Input.move]⟩

end Tr

end H2Go
