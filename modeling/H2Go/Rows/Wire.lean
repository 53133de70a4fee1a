import H2Go.Rows.Batch
import H2Go.Value.Frames
import Mathlib.Data.List.Forall2

/-!
This module contains rows on the wire: the bytes of a batch, and that reading them gives the rows
they were made of.
-/

namespace H2Go

structure Cell where
  bytes : List UInt8
  value : Value

def rowBytes (cells : List Cell) : List UInt8 := 1 :: cells.flatMap Cell.bytes

/--
A batch on the wire. When the rows run out the flag of the end follows them.
-/
def batchBytes (rows : List (List Cell)) (ended : Bool) : List UInt8 :=
  rows.flatMap rowBytes ++ if ended then [0] else []

/--
The rows are what a request for `limit` rows gets: all of them, or fewer when they have run out.
-/
def Complete (limit : Nat) (rows : List (List Cell)) (ended : Bool) : Prop :=
  if ended then rows.length < limit else rows.length = limit

def rowValues (i : Nat) (cells : List Cell) : List Value :=
  cells.mapIdx (fun j cell => cell.value.at i j)

def batchValues (base : Nat) (rows : List (List Cell)) : List (List Value) :=
  rows.mapIdx (fun i cells => rowValues (base + i) cells)

theorem batchValues_cons (base : Nat) (cells : List Cell) (rows : List (List Cell))
    : batchValues base (cells :: rows) = rowValues base cells :: batchValues (base + 1) rows := by
  simp [batchValues, List.mapIdx_cons, Nat.add_assoc, Nat.add_comm 1]

theorem batchBytes_cons (cells : List Cell) (rows : List (List Cell)) (ended : Bool)
    : batchBytes (cells :: rows) ended
        = [1] ++ (cells.flatMap Cell.bytes ++ batchBytes rows ended) := by
  simp [batchBytes, rowBytes]

theorem length_le_batchBytes (rows : List (List Cell)) (ended : Bool)
    : rows.length ≤ (batchBytes rows ended).length := by
  induction rows with
  | nil => exact Nat.zero_le _
  | cons cells rows ih =>
    rw [batchBytes_cons]
    simp only [List.length_cons, List.length_append, List.length_nil]
    omega

theorem Complete.cons {limit : Nat} {rows : List (List Cell)} {ended : Bool}
    (h : Complete limit rows ended) (cells : List Cell)
    : Complete (limit + 1) (cells :: rows) ended := by
  unfold Complete at h ⊢
  cases ended with
  | false => exact congrArg Nat.succ h
  | true => exact Nat.succ_lt_succ h

theorem int8_eq_one {b : UInt8} (h : int8 b = 1) : b = 1 := by
  apply UInt8.toNat_inj.mp
  unfold int8 at h
  split at h
  . simpa using h
  . have := b.toNat_lt
    omega

theorem int8_eq_zero {b : UInt8} (h : int8 b = 0) : b = 0 := by
  apply UInt8.toNat_inj.mp
  unfold int8 at h
  split at h
  . simpa using h
  . have := b.toNat_lt
    omega

theorem Complete.exists_eq_succ {limit : Nat} {cells : List Cell} {rows : List (List Cell)}
    {ended : Bool} (h : Complete limit (cells :: rows) ended)
    : ∃ n, limit = n + 1 := by
  cases limit with
  | zero => cases ended <;> simp [Complete] at h
  | succ n => exact ⟨n, rfl⟩

theorem Complete.of_cons {limit : Nat} {cells : List Cell} {rows : List (List Cell)} {ended : Bool}
    (h : Complete (limit + 1) (cells :: rows) ended)
    : Complete limit rows ended := by
  unfold Complete at h ⊢
  cases ended with
  | false => exact Nat.succ.inj h
  | true => exact Nat.lt_of_succ_lt_succ h

/--
The cell is sent for the column `col`: its bytes are a frame of its value.
-/
def Cell.Sent (σ : Type) [GoStd] [Peer σ] (cell : Cell) (col : ResultColumn) : Prop :=
  ∃ lc, Frame (Tr.readValueInternal (some col.typeInfo) (some .empty) : Prog Err (Tr σ) _)
    (cell.value, lc) cell.bytes

abbrev RowSent (σ : Type) [GoStd] [Peer σ] (m : ResultMeta) (cells : List Cell) : Prop :=
  List.Forall₂ (Cell.Sent σ) cells m.columns

section

variable {σ : Type} [GoStd] [Peer σ]

namespace Tr

theorem step_of_frame (t : Tr σ) {colType : Option TypeInfo} {c : LobCollector}
    {r : Value × Option LobCollector} {b : List UInt8}
    (h : Frame (readValueInternal colType (some c) : Prog Err (Tr σ) _) r b)
    : c.Step r :=
  Progress.of_frame h t (progress_readValueInternal colType c)

theorem frame_cell (t : Tr σ) {cell : Cell} {col : ResultColumn} (h : cell.Sent σ col)
    {c : LobCollector} (hc : c.reject = false)
    : Frame (readValueInternal (some col.typeInfo) (some c) : Prog Err (Tr σ) _) (c.place cell.value)
        cell.bytes := by
  obtain ⟨lc, hframe⟩ := h
  exact frame_place c hc.symm hframe (step_of_frame t hframe)

theorem frame_readColumns_aux (t : Tr σ) (missing failed : String) {m : ResultMeta}
    {lc : LobCollector} (hlc : lc.reject = false) {cells : List Cell} {cols : List ResultColumn}
    (hsent : List.Forall₂ (Cell.Sent σ) cells cols) {j : Nat}
    (hcols : ∀ k col, cols[k]? = some col → m.columns[j + k]? = some col)
    {acc : List Value × LobCollector} (hacc : RowPart lc j acc)
    : ∃ lc', Frame (Prog.iter cells.length j acc (fun j acc => do
          let r ← readColumn (σ := σ) missing failed (some m) acc.2 j
          pure (acc.1 ++ [r.1], r.2.getD acc.2)))
        (acc.1 ++ cells.mapIdx (fun k cell => cell.value.at lc.curRow (j + k)), lc')
        (cells.flatMap Cell.bytes) := by
  induction hsent generalizing j acc with
  | nil => exact ⟨acc.2, by simpa using Frame.pure⟩
  | @cons cell col cells cols hcell _ ih =>
    have hcol : m.columns[j]? = some col := hcols 0 col rfl
    have hreject : ({ acc.2 with curCol := j } : LobCollector).reject = false :=
      hacc.reject_eq.trans hlc
    have hframe := frame_cell t hcell hreject
    have hstep := step_of_frame t hframe
    obtain ⟨lc', hrest⟩ := ih (j := j + 1)
      (fun k col h => by rw [Nat.add_assoc, Nat.add_comm 1]; exact hcols (k + 1) col h)
      (hacc.snoc hstep)
    refine ⟨lc', ?_⟩
    rw [List.length_cons, Prog.iter_succ, List.flatMap_cons]
    apply Frame.bind (a := (acc.1 ++ [(({ acc.2 with curCol := j } : LobCollector).place cell.value).1],
      (({ acc.2 with curCol := j } : LobCollector).place cell.value).2.getD acc.2))
    . rw [readColumn_eq missing failed hcol]
      exact hframe.mapErr.bind_nil Frame.pure
    . rw [LobCollector.place_fst] at hrest ⊢
      simpa [hacc.curRow_eq, Nat.add_assoc, Nat.add_comm 1] using hrest

theorem frame_readColumns (t : Tr σ) (missing failed : String) {m : ResultMeta} {columnCount : Int}
    (hm : m.Fits columnCount) (lc : LobCollector) (hlc : lc.reject = false) {cells : List Cell}
    (hsent : RowSent σ m cells)
    : ∃ lc', Frame (readColumns missing failed (some m) columnCount lc : Prog Err (Tr σ) _)
          (rowValues lc.curRow cells, lc') (cells.flatMap Cell.bytes) ∧
        RowPart lc columnCount.toNat (rowValues lc.curRow cells, lc') := by
  have hlen := hm.length_eq
  have hcells := hsent.length_eq
  obtain ⟨lc', hframe⟩ := frame_readColumns_aux t missing failed hlc hsent (j := 0)
    (fun k col h => by rwa [Nat.zero_add]) (RowPart.nil lc)
  have hread : Frame (readColumns missing failed (some m) columnCount lc : Prog Err (Tr σ) _)
      (rowValues lc.curRow cells, lc') (cells.flatMap Cell.bytes) := by
    unfold readColumns
    rw [Prog.make_eq ⟨by omega, hm.le_cap⟩, Prog.pure_bind,
      show columnCount.toNat = cells.length by omega]
    simpa [rowValues] using hframe
  exact ⟨lc', hread, Progress.of_frame hread t (progress_readColumns missing failed hm lc)⟩

omit [GoStd] [Peer σ] in
theorem frame_rowFlag (b : UInt8)
    : Frame (inFunc "fetchRows" "failed to read row flag" readByte : Prog Err (Tr σ) _) b [b] :=
  (frame_readByte b).mapErr

theorem frame_readRows_end (m : Option ResultMeta) (columnCount : Int) (fetch : Nat) (acc : Batch)
    : Frame (readRows m columnCount (fetch + 1) acc : Prog Err (Tr σ) _) (acc, true) [0] := by
  unfold readRows
  apply (frame_rowFlag 0).bind_nil
  exact Frame.pure

theorem frame_readRows_row {m : Option ResultMeta} {columnCount : Int} {fetch : Nat} {acc : Batch}
    {r : List Value × LobCollector} {res : Batch × Bool} {b b' : List UInt8}
    (hrow : Frame (readColumns "h2go: fetchRows: column %d metadata not found"
      "h2go: fetchRows: failed to read column %d: %w" m columnCount
      { acc.2 with curRow := acc.1.length } : Prog Err (Tr σ) _) r b)
    (hrest : Frame (readRows m columnCount fetch (acc.1 ++ [r.1], r.2) : Prog Err (Tr σ) _) res b')
    : Frame (readRows m columnCount (fetch + 1) acc : Prog Err (Tr σ) _) res ([1] ++ (b ++ b')) := by
  unfold readRows
  apply (frame_rowFlag 1).bind
  exact hrow.bind hrest

theorem frame_readRows (t : Tr σ) {m : ResultMeta} {columnCount : Int} (hm : m.Fits columnCount)
    {rows : List (List Cell)} (hsent : ∀ cells ∈ rows, RowSent σ m cells) {ended : Bool}
    {fetch : Nat} (hcomplete : Complete fetch rows ended) {old new : List (List Value)} {acc : Batch}
    (hacc : acc.Grown old columnCount.toNat new)
    : ∃ lc, Frame (readRows (some m) columnCount fetch acc : Prog Err (Tr σ) _)
          ((acc.1 ++ batchValues acc.1.length rows, lc), ended) (batchBytes rows ended) ∧
        Batch.Grown old columnCount.toNat (new ++ batchValues acc.1.length rows)
          (acc.1 ++ batchValues acc.1.length rows, lc) := by
  induction rows generalizing fetch new acc with
  | nil =>
    refine ⟨acc.2, ?_, by simpa [batchValues] using hacc⟩
    simp only [batchValues, List.mapIdx_nil, List.append_nil]
    cases ended with
    | false =>
      obtain rfl : 0 = fetch := hcomplete
      exact Frame.pure
    | true =>
      cases fetch with
      | zero => exact absurd hcomplete (Nat.lt_irrefl 0)
      | succ fetch => exact frame_readRows_end (some m) columnCount fetch acc
  | cons cells rows ih =>
    obtain ⟨fetch, rfl⟩ := hcomplete.exists_eq_succ
    obtain ⟨lc1, hrow, hpart⟩ := frame_readColumns t "h2go: fetchRows: column %d metadata not found"
      "h2go: fetchRows: failed to read column %d: %w" hm { acc.2 with curRow := acc.1.length }
      hacc.reject_eq (hsent cells List.mem_cons_self)
    obtain ⟨lc, hrest, hgrown⟩ := ih (fun cells h => hsent cells (List.mem_cons_of_mem _ h))
      hcomplete.of_cons (hacc.snoc hpart)
    have hlen : (acc.1 ++ [rowValues acc.1.length cells]).length = acc.1.length + 1 := by simp
    refine ⟨lc, ?_, ?_⟩
    . rw [batchValues_cons, batchBytes_cons]
      apply frame_readRows_row hrow
      simpa [hlen] using hrest
    . rw [batchValues_cons]
      simpa [hlen] using hgrown

section Inversion

omit [GoStd] [Peer σ] in
theorem inp_of_readByte {t t' : Tr σ} {b : UInt8} (h : readByte t = .ok b t')
    : t.inp = b :: t'.inp ∧ t' = Input.move [b] t'.inp t := by
  cases hinp : t.inp with
  | nil =>
    obtain ⟨e, he⟩ := (frame_readByte (σ := σ) 0).short t [0] (by simp [Input.inp, hinp]) (by simp)
    rw [he] at h
    cases h
  | cons x rest =>
    rw [(frame_readByte x).exact t rest hinp] at h
    cases h
    exact ⟨rfl, rfl⟩

theorem sent_of_readColumns_aux (missing failed : String) {m : ResultMeta} (cols : List ResultColumn)
    {j : Nat} (hcols : m.columns.drop j = cols) {acc r : List Value × LobCollector}
    (hacc : acc.2.reject = false) {t t' : Tr σ}
    (h : Prog.iter cols.length j acc (fun j acc => do
          let r ← readColumn (σ := σ) missing failed (some m) acc.2 j
          pure (acc.1 ++ [r.1], r.2.getD acc.2)) t = .ok r t')
    : ∃ cells, List.Forall₂ (Cell.Sent σ) cells cols ∧ t.inp = cells.flatMap Cell.bytes ++ t'.inp ∧
        t' = Input.move (cells.flatMap Cell.bytes) t'.inp t := by
  induction cols generalizing j acc t with
  | nil =>
    cases h
    exact ⟨[], .nil, by simp, by simp [Input.move]⟩
  | cons col cols ih =>
    have hcol : m.columns[j]? = some col := by
      rw [← List.head?_drop, hcols, List.head?_cons]
    rw [List.length_cons, Prog.iter_succ] at h
    obtain ⟨acc1, t1, hstep, hrest⟩ := Prog.bind_eq_ok h
    obtain ⟨v, t2, hread, hpure⟩ := Prog.bind_eq_ok hstep
    cases hpure
    rw [readColumn_eq missing failed hcol] at hread
    obtain ⟨_, hrun, rfl⟩ := Out.map_eq_ok hread
    obtain ⟨used, rest, hinp, rfl, hframe⟩ := LawfulReader.ok_run hrun
    have hv := step_of_frame t hframe
    have hreject : (v.2.getD acc.2).reject = false := by
      rcases hv with ⟨-, hlc⟩ | ⟨p, -, -, -, -, -, hlc⟩
      . rw [hlc]
        exact hacc
      . rw [hlc]
        exact hacc
    have hcell : Cell.Sent σ ⟨used, (LobCollector.empty.place v.1).1⟩ col :=
      ⟨_, frame_place .empty (by exact hacc) hframe hv⟩
    obtain ⟨cells, hsent, hinp', hmove⟩ := ih (j := j + 1)
      (by rw [← List.tail_drop, hcols, List.tail_cons]) hreject hrest
    refine ⟨_ :: cells, .cons hcell hsent, ?_, ?_⟩
    . rw [List.flatMap_cons, List.append_assoc, ← hinp']
      exact hinp
    . rw [List.flatMap_cons, ← Input.move_move used rest]
      exact hmove

theorem sent_of_readColumns (missing failed : String) {m : ResultMeta} {columnCount : Int}
    (hm : m.Fits columnCount) (lc : LobCollector) (hlc : lc.reject = false)
    {r : List Value × LobCollector} {t t' : Tr σ}
    (h : readColumns missing failed (some m) columnCount lc t = .ok r t')
    : r.2.reject = false ∧ ∃ cells, RowSent σ m cells ∧ t.inp = cells.flatMap Cell.bytes ++ t'.inp ∧
        t' = Input.move (cells.flatMap Cell.bytes) t'.inp t := by
  have hlen := hm.length_eq
  have hpart := progress_readColumns missing failed hm lc t (Nat.le_refl _)
  rw [h] at hpart
  refine ⟨hpart.2.reject_eq.trans hlc, ?_⟩
  unfold readColumns at h
  rw [Prog.make_eq ⟨by omega, hm.le_cap⟩, Prog.pure_bind,
    show columnCount.toNat = m.columns.length by omega] at h
  exact sent_of_readColumns_aux missing failed m.columns (j := 0) List.drop_zero (by exact hlc) h

theorem batch_of_readRows {m : ResultMeta} {columnCount : Int} (hm : m.Fits columnCount)
    (fetch : Nat) {acc : Batch} (hacc : acc.2.reject = false) {res : Batch × Bool} {t t' : Tr σ}
    (h : readRows (some m) columnCount fetch acc t = .ok res t')
    : ∃ rows, (∀ cells ∈ rows, RowSent σ m cells) ∧ Complete fetch rows res.2 ∧
        t.inp = batchBytes rows res.2 ++ t'.inp ∧
        t' = Input.move (batchBytes rows res.2) t'.inp t := by
  induction fetch generalizing acc t with
  | zero =>
    cases h
    exact ⟨[], by simp, rfl, by simp [batchBytes], by simp [batchBytes, Input.move]⟩
  | succ fetch ih =>
    unfold readRows at h
    obtain ⟨rowFlag, t1, hflag, h⟩ := Prog.bind_eq_ok h
    obtain ⟨w, hbyte, rfl⟩ := Out.map_eq_ok hflag
    obtain ⟨hinp, hmove⟩ := inp_of_readByte hbyte
    split at h
    . next hrow =>
      obtain ⟨r, t2, hcols, h⟩ := Prog.bind_eq_ok h
      obtain ⟨hreject, cells, hsent, hinp1, hmove1⟩ := sent_of_readColumns _ _ hm
        { acc.2 with curRow := acc.1.length } hacc hcols
      obtain ⟨rows, hrows, hcomplete, hinp2, hmove2⟩ := ih hreject h
      rw [int8_eq_one hrow] at hinp hmove
      refine ⟨cells :: rows, List.forall_mem_cons.mpr ⟨hsent, hrows⟩, hcomplete.cons cells, ?_, ?_⟩
      . rw [hinp, batchBytes_cons, List.append_assoc, List.append_assoc, ← hinp2]
        exact congrArg (1 :: ·) hinp1
      . rw [batchBytes_cons, ← Input.move_move [1] w.inp, ← hmove,
          ← Input.move_move (cells.flatMap Cell.bytes) t2.inp]
        rw [show Input.move (cells.flatMap Cell.bytes) t2.inp w = t2 from hmove1.symm]
        exact hmove2
    . split at h
      . next hend =>
        cases h
        rw [int8_eq_zero hend] at hinp hmove
        exact ⟨[], by simp, Nat.succ_pos fetch, hinp, hmove⟩
      . split at h
        . obtain ⟨_, _, _, hthrow⟩ := Prog.bind_eq_ok h
          cases hthrow
        . cases h

end Inversion

end Tr

end

end H2Go
