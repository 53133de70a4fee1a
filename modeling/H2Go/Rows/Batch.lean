import H2Go.Rows.Lemmas

/-!
This module contains what a parsed batch looks like: which rows it adds, and that the deferred LOBs
are the placeholders in these rows, each recorded with its own position.
-/

namespace H2Go

def Value.lob? (v : Value) : Option PendingLob :=
  match v with
  | .lob p => some p
  | _ => none

theorem Value.lob?_of_isPlain {v : Value} (h : v.IsPlain) : v.lob? = none := by
  cases v with
  | lob p => exact absurd h id
  | nil | bool | int64 | float64 | string | bytes | time | other => rfl

theorem Value.eq_of_lob? {v : Value} {p : PendingLob} (h : v.lob? = some p) : v = .lob p := by
  cases v with
  | lob q =>
    cases h
    rfl
  | nil | bool | int64 | float64 | string | bytes | time | other => cases h

/--
The placeholders among the values `row` are LOBs of the wire, each with its own position in the row
`i`.
-/
def Positioned (i : Nat) (row : List Value) : Prop :=
  ∀ (j : Nat) (q : PendingLob), row[j]? = some (.lob q) → q.row = i ∧ q.col = j ∧ q.OnWire

theorem Positioned.snoc {i : Nat} {row : List Value} (h : Positioned i row) {v : Value}
    (hv : ∀ q, v = .lob q → q.row = i ∧ q.col = row.length ∧ q.OnWire)
    : Positioned i (row ++ [v]) := by
  intro j q hj
  rcases Nat.lt_trichotomy j row.length with hlt | rfl | hgt
  . rw [List.getElem?_append_left hlt] at hj
    exact h j q hj
  . rw [List.getElem?_concat_length] at hj
    cases hj
    exact hv q rfl
  . rw [List.getElem?_eq_none (by simp; omega)] at hj
    cases hj

/--
The first `n` values of a row read with the collector `lc`, and the collector after them.
-/
structure RowPart (lc : LobCollector) (n : Nat) (r : List Value × LobCollector) : Prop where
  length_eq : r.1.length = n
  pending_eq : r.2.pending = lc.pending ++ r.1.filterMap Value.lob?
  curRow_eq : r.2.curRow = lc.curRow
  reject_eq : r.2.reject = lc.reject
  position : Positioned lc.curRow r.1

theorem RowPart.nil (lc : LobCollector) : RowPart lc 0 ([], lc) where
  length_eq := rfl
  pending_eq := by simp
  curRow_eq := rfl
  reject_eq := rfl
  position := by simp [Positioned]

theorem RowPart.snoc {lc : LobCollector} {n : Nat} {acc : List Value × LobCollector}
    (h : RowPart lc n acc) {r : Value × Option LobCollector}
    (hr : LobCollector.Step { acc.2 with curCol := n } r)
    : RowPart lc (n + 1) (acc.1 ++ [r.1], r.2.getD acc.2) := by
  have hlen := h.length_eq
  obtain ⟨v, lc'⟩ := r
  rcases hr with ⟨hplain, rfl⟩ | ⟨p, rfl, -, hrow, hcol, hwire, rfl⟩
  . have hlob := Value.lob?_of_isPlain hplain
    refine ⟨by simp [hlen], ?_, h.curRow_eq, h.reject_eq, h.position.snoc ?_⟩
    . simp [h.pending_eq, hlob]
    . rintro q rfl
      cases hlob
  . refine ⟨by simp [hlen], ?_, h.curRow_eq, h.reject_eq, h.position.snoc ?_⟩
    . simp [h.pending_eq, Value.lob?]
    . rintro q hq
      cases hq
      exact ⟨hrow.trans h.curRow_eq, hcol.trans hlen.symm, hwire⟩

/--
The batch `b` has grown out of the rows `old` by the rows `new`, and the pending LOBs are the
placeholders in them in wire order, each with its position in the buffer.
-/
structure Batch.Grown (old : List (List Value)) (width : Nat) (new : List (List Value)) (b : Batch)
    : Prop where
  rows_eq : b.1 = old ++ new
  width_eq : ∀ row ∈ new, row.length = width
  pending_eq : b.2.pending = new.flatten.filterMap Value.lob?
  reject_eq : b.2.reject = false
  position : ∀ i row, new[i]? = some row → Positioned (old.length + i) row

namespace Batch.Grown

theorem nil (old : List (List Value)) (width : Nat) : Batch.Grown old width [] (old, .empty) where
  rows_eq := by simp
  width_eq := by simp
  pending_eq := rfl
  reject_eq := rfl
  position := by simp

theorem snoc {old new : List (List Value)} {width : Nat} {b : Batch}
    (h : Batch.Grown old width new b) {r : List Value × LobCollector}
    (hr : RowPart { b.2 with curRow := b.1.length } width r)
    : Batch.Grown old width (new ++ [r.1]) (b.1 ++ [r.1], r.2) where
  rows_eq := by simp [h.rows_eq]
  width_eq := by
    intro row hrow
    rcases List.mem_append.mp hrow with hrow | hrow
    . exact h.width_eq row hrow
    . rw [List.mem_singleton.mp hrow]
      exact hr.length_eq
  pending_eq := by simp [hr.pending_eq, h.pending_eq]
  reject_eq := hr.reject_eq.trans h.reject_eq
  position := by
    intro i row hi
    rcases Nat.lt_trichotomy i new.length with hlt | rfl | hgt
    . rw [List.getElem?_append_left hlt] at hi
      exact h.position i row hi
    . rw [List.getElem?_concat_length] at hi
      cases hi
      have hpos := hr.position
      rwa [show b.1.length = old.length + new.length by simp [h.rows_eq]] at hpos
    . rw [List.getElem?_eq_none (by simp; omega)] at hi
      cases hi

end Batch.Grown

def Addresses (rows : List (List Value)) (p : PendingLob) : Prop :=
  ∃ row, rows[p.row]? = some row ∧ p.col < row.length

theorem Addresses.set {rows : List (List Value)} {p : PendingLob} (h : Addresses rows p) {i j : Nat}
    {row : List Value} (hi : rows[i]? = some row) (v : Value)
    : Addresses (rows.set i (row.set j v)) p := by
  obtain ⟨row', hrow, hcol⟩ := h
  by_cases hp : p.row = i
  . subst hp
    rw [hi] at hrow
    cases hrow
    have hlt := (List.getElem?_eq_some_iff.mp hi).1
    exact ⟨_, List.getElem?_set_self hlt, by rwa [List.length_set]⟩
  . exact ⟨row', by rwa [List.getElem?_set_ne (Ne.symm hp)], hcol⟩

theorem Batch.Grown.of_mem_pending {old new : List (List Value)} {width : Nat} {b : Batch}
    (h : Batch.Grown old width new b) {p : PendingLob} (hp : p ∈ b.2.pending)
    : p.OnWire ∧ Addresses b.1 p := by
  rw [h.pending_eq] at hp
  obtain ⟨v, hv, hlob⟩ := List.mem_filterMap.mp hp
  obtain ⟨row, hrow, hcell⟩ := List.mem_flatten.mp hv
  obtain rfl : v = .lob p := Value.eq_of_lob? hlob
  obtain ⟨i, hi⟩ := List.mem_iff_getElem?.mp hrow
  obtain ⟨j, hj⟩ := List.mem_iff_getElem?.mp hcell
  obtain ⟨hrowEq, hcolEq, hwire⟩ := h.position i row hi j p hj
  refine ⟨hwire, row, ?_, ?_⟩
  . rw [hrowEq, h.rows_eq, List.getElem?_append_right (Nat.le_add_right _ _), Nat.add_sub_cancel_left]
    exact hi
  . rw [hcolEq]
    exact (List.getElem?_eq_some_iff.mp hj).1

namespace Tr

theorem spliceLob_run {ρ : Type} {rows : List (List Value)} {p : PendingLob} {row : List Value}
    (h : rows[p.row]? = some row) (hcol : p.col < row.length) (v : Value) (s : ρ)
    : spliceLob rows p v s = .ok (rows.set p.row (row.set p.col v)) s := by
  have hlt := (List.getElem?_eq_some_iff.mp h).1
  unfold spliceLob
  rw [Prog.index_eq h, Prog.pure_bind]
  simp [Prog.setIndex, hcol, hlt]

variable {σ : Type} [GoStd] [Peer σ] {N : Nat}

theorem readColumn_eq (missing failed : String) {m : ResultMeta} {col : ResultColumn} {j : Nat}
    (h : m.columns[j]? = some col) (lc : LobCollector)
    : (readColumn missing failed (some m) lc j : Prog Err (Tr σ) _)
        = wrapErr failed [.int j]
            (readValueInternal (some col.typeInfo) (some { lc with curCol := j })) := by
  unfold readColumn getColumn
  dsimp only
  rw [h, Prog.pure_bind]

theorem progress_readColumn (missing failed : String) {m : ResultMeta} {columnCount : Int}
    (hm : m.Fits columnCount) (lc : LobCollector) {j : Nat} (hj : j < columnCount.toNat)
    : Progress N (readColumn missing failed (some m) lc j : Prog Err (Tr σ) _) 0
        (LobCollector.Step { lc with curCol := j }) Err.Plain := by
  have hlen := hm.length_eq
  obtain ⟨col, hcol⟩ : ∃ col, m.columns[j]? = some col :=
    ⟨_, List.getElem?_eq_getElem (show j < m.columns.length by omega)⟩
  rw [readColumn_eq missing failed hcol]
  exact (progress_wrapErr _ _ (progress_readValueInternal _ _)).weaken (Nat.zero_le _)
    (fun _ h => h) (fun _ h => h)

theorem progress_readColumns (missing failed : String) {m : ResultMeta} {columnCount : Int}
    (hm : m.Fits columnCount) (lc : LobCollector)
    : Progress N (readColumns missing failed (some m) columnCount lc : Prog Err (Tr σ) _) 0
        (RowPart lc columnCount.toNat) Err.Plain := by
  have hlen := hm.length_eq
  apply Progress.seq (Progress.make ⟨by omega, hm.le_cap⟩)
  intro _ _
  have hloop := Progress.iter (N := N) (E := Err.Plain) (RowPart lc)
    (f := fun j acc => do
      let r ← readColumn (σ := σ) missing failed (some m) acc.2 j
      pure (acc.1 ++ [r.1], r.2.getD acc.2)) columnCount.toNat 0 ([], lc) (RowPart.nil lc) ?_
  . rwa [Nat.zero_add] at hloop
  . intro j acc _ hj hacc
    apply Progress.seq (progress_readColumn missing failed hm acc.2 (by omega))
    intro r hr
    exact Progress.pure (hacc.snoc hr)

theorem progress_readRows {m : ResultMeta} {columnCount : Int} (hm : m.Fits columnCount)
    {old new : List (List Value)} {acc : Batch} (hacc : acc.Grown old columnCount.toNat new)
    (fetch : Nat)
    : Progress N (readRows (some m) columnCount fetch acc : Prog Err (Tr σ) _) 0
        (fun r => ∃ new', r.1.Grown old columnCount.toNat (new ++ new')) (fun _ => True) := by
  induction fetch generalizing new acc with
  | zero => exact Progress.pure ⟨[], by simpa using hacc⟩
  | succ fetch ih =>
    apply Progress.seq ((progress_wrapErr _ _ progress_readByte).weaken (Nat.zero_le _)
      (fun _ h => h) (fun _ _ => True.intro))
    intro rowFlag _
    apply Progress.ite
    . intro _
      apply Progress.seq ((progress_readColumns _ _ hm _).weaken (Nat.le_refl _)
        (fun _ h => h) (fun _ _ => True.intro))
      intro r hr
      apply (ih (hacc.snoc hr)).weaken (Nat.le_refl _) _ (fun _ h => h)
      rintro res ⟨new', hres⟩
      exact ⟨r.1 :: new', by simpa using hres⟩
    . intro _
      apply Progress.ite (fun _ => Progress.pure ⟨[], by simpa using hacc⟩)
      intro _
      apply Progress.ite (fun _ => progress_readH2Error)
      intro _
      exact Progress.throw True.intro

end Tr

end H2Go
