import H2Go.Rows.Splice

/-!
This module contains the Go types of the values that the rows hand out.
-/

namespace H2Go

open BigEndian

inductive GoType where
  | any
  | bool
  | int64
  | float64
  | string
  | bytes
  | time
  deriving DecidableEq, Repr

def TypeInfo.scanType (ti : TypeInfo) : GoType :=
  match ti.valueType with
  | .boolean => .bool
  | .tinyint | .smallint | .integer | .bigint => .int64
  | .real | .double => .float64
  | .time | .timeTZ | .date | .timestamp | .timestampTZ => .time
  | .varchar | .varcharIgnoreCase | .char | .numeric | .decfloat | .uuid => .string
  | .binary | .varbinary | .blob | .json | .geometry | .javaObject => .bytes
  | .enum => .int64
  | .interval | .array | .row => .string
  | _ => .any

def Rows.columnTypeScanType (r : Rows) (index : Nat) : GoType :=
  match r.columns with
  | none => .any
  | some m =>
    match m.columns[index]? with
    | none => .any
    | some col => col.typeInfo.scanType

def Value.goType (v : Value) : Option GoType :=
  match v with
  | .bool _ => some .bool
  | .int64 _ => some .int64
  | .float64 _ => some .float64
  | .string _ => some .string
  | .bytes _ => some .bytes
  | .time _ => some .time
  | .nil | .lob _ | .other _ => none

/--
The values that `database/sql` takes from a driver.
-/
def Value.IsDriverValue (v : Value) : Prop := v = .nil ∨ v.goType.isSome

def ValueType.decodedType (t : ValueType) : Option GoType :=
  match t with
  | .boolean => some .bool
  | .tinyint | .smallint | .integer | .bigint | .enum => some .int64
  | .real | .double => some .float64
  | .date | .time | .timeTZ | .timestamp | .timestampTZ => some .time
  | .numeric | .varchar | .char | .varcharIgnoreCase | .uuid | .decfloat | .interval | .array | .row
  | .clob => some .string
  | .varbinary | .binary | .json | .geometry | .javaObject | .blob => some .bytes
  | .null | .other _ => none

def ValueType.Decodes (t : ValueType) (v : Value) : Prop :=
  v = .nil ∨ (v.goType = t.decodedType ∧ v.goType.isSome) ∨
    ∃ p, v = .lob p ∧ p.typeCode = t ∧ (t = .blob ∨ t = .clob)

theorem TypeInfo.scanType_eq (ti : TypeInfo) {g : GoType} (h : ti.valueType.decodedType = some g)
    : g = ti.scanType ∨ ti.scanType = .any := by
  unfold scanType
  revert h
  cases ti.valueType with
  | clob => exact fun _ => .inr rfl
  | null | other => exact fun h => by cases h
  | _ =>
    intro h
    cases h
    exact .inl rfl

namespace Tr

variable {σ : Type}

section Decoders

variable [GoStd]

omit [GoStd] in
theorem decodes_stringValue {t : ValueType} (h : t.decodedType = some .string) (s : Option GoString)
    : t.Decodes (stringValue s) := by
  cases s with
  | none => exact .inl rfl
  | some s => exact .inr (.inl ⟨h.symm, rfl⟩)

omit [GoStd] in
theorem returns_readStringValue {t : ValueType} (h : t.decodedType = some .string)
    : Returns (readStringValue : Prog Err (Tr σ) _) t.Decodes :=
  Returns.bind (fun s => Returns.pure (decodes_stringValue h s))

omit [GoStd] in
theorem returns_readDecfloatValue
    : Returns (readDecfloatValue : Prog Err (Tr σ) _) ValueType.decfloat.Decodes := by
  apply Triple.bind (returns_readStringValue (t := .decfloat) rfl)
  intro v
  apply Triple.assume (fun _ h => h)
  intro hv
  cases v with
  | string str =>
    dsimp only
    split
    . exact Triple.throw (fun _ _ => True.intro)
    . exact Triple.pure (fun _ _ => hv)
  | _ => exact Triple.pure (fun _ _ => hv)

omit [GoStd] in
theorem returns_readIntervalValue
    : Returns (readIntervalValue : Prog Err (Tr σ) _) ValueType.interval.Decodes := by
  apply Returns.bind
  intro x
  apply Returns.bind
  intro leading
  apply Returns.ite
  . intro _
    exact Returns.bind (fun _ => Returns.pure (.inr (.inl ⟨rfl, rfl⟩)))
  . intro _
    exact Returns.pure (.inr (.inl ⟨rfl, rfl⟩))

theorem returns_readScalarValue (t : ValueType)
    : Returns (readScalarValue t : Prog Err (Tr σ) _) t.Decodes := by
  cases t with
  | null => exact Returns.pure (.inl rfl)
  | boolean | tinyint | smallint | integer | bigint | real | double | date | time | varbinary | binary
  | json | geometry | javaObject | enum =>
    exact Returns.bind (fun _ => Returns.pure (.inr (.inl ⟨rfl, rfl⟩)))
  | timeTZ | timestamp | uuid =>
    exact Returns.bind (fun _ => Returns.bind (fun _ => Returns.pure (.inr (.inl ⟨rfl, rfl⟩))))
  | timestampTZ =>
    exact Returns.bind (fun _ => Returns.bind (fun _ => Returns.bind (fun _ =>
      Returns.pure (.inr (.inl ⟨rfl, rfl⟩)))))
  | numeric => exact Returns.bind (fun s => Returns.pure (decodes_stringValue rfl s))
  | varchar | char | varcharIgnoreCase => exact returns_readStringValue rfl
  | decfloat => exact returns_readDecfloatValue
  | interval => exact returns_readIntervalValue
  | blob | clob | array | row | other => exact Returns.throw _

variable [Peer σ]

omit [Peer σ] in
theorem returns_readArrayValue (nested : Option TypeInfo → Prog Err (Tr σ) Value)
    (colType : Option TypeInfo)
    : Returns (readArrayValue nested colType) ValueType.array.Decodes := by
  apply Returns.bind
  intro length
  apply Returns.ite
  . intro _
    exact Returns.pure (.inr (.inl ⟨rfl, rfl⟩))
  . intro _
    exact Returns.bind (fun _ => Returns.bind (fun _ => Returns.pure (.inr (.inl ⟨rfl, rfl⟩))))

omit [Peer σ] in
theorem returns_readRowValue (nested : Option TypeInfo → Prog Err (Tr σ) Value)
    : Returns (readRowValue nested) ValueType.row.Decodes := by
  apply Returns.bind
  intro length
  apply Returns.ite (fun _ => Returns.throw _)
  intro _
  apply Returns.ite (fun _ => Returns.throw _)
  intro _
  exact Returns.bind (fun _ => Returns.bind (fun _ => Returns.pure (.inr (.inl ⟨rfl, rfl⟩))))

omit [GoStd] [Peer σ] in
theorem returns_readInlineClob (length : Int)
    : Returns (readInlineClob length : Prog Err (Tr σ) _) ValueType.clob.Decodes := by
  apply Returns.ite (fun _ => Returns.throw _)
  intro _
  apply Returns.bind
  intro sb
  apply Returns.bind
  intro magic
  apply Returns.ite (fun _ => Returns.throw _)
  intro _
  exact Returns.pure (.inr (.inl ⟨rfl, rfl⟩))

omit [GoStd] [Peer σ] in
theorem returns_readInlineBlob (length : Int)
    : Returns (readInlineBlob length : Prog Err (Tr σ) _) ValueType.blob.Decodes := by
  apply Returns.ite (fun _ => Returns.throw _)
  intro _
  apply Returns.bind
  intro _
  apply Returns.bind
  intro data
  apply Returns.bind
  intro magic
  apply Returns.ite (fun _ => Returns.throw _)
  intro _
  exact Returns.pure (.inr (.inl ⟨rfl, rfl⟩))

omit [GoStd] [Peer σ] in
theorem returns_readPendingLob (t : ValueType) (lc : Option LobCollector)
    : Returns (readPendingLob t lc : Prog Err (Tr σ) _) (fun p => p.typeCode = t) := by
  apply Returns.bind
  intro _
  apply Returns.bind
  intro lobID
  apply Returns.bind
  intro hmac
  apply Returns.bind
  intro lengths
  exact Returns.pure rfl

omit [GoStd] in
theorem returns_readLOBValue {t : ValueType} (ht : t = .blob ∨ t = .clob) (c : LobCollector)
    : Returns (readLOBValue t (some c) : Prog Err (Tr σ) _) (fun r => t.Decodes r.1) := by
  apply Returns.bind
  intro length
  apply Returns.ite
  . intro _
    apply Triple.bind (returns_readPendingLob t (some c))
    intro p
    apply Triple.assume (fun _ h => h)
    intro hp
    apply Triple.ite (fun _ => Triple.throw (fun _ _ => True.intro))
    intro _
    exact Triple.pure (fun _ _ => .inr (.inr ⟨p, rfl, hp, ht⟩))
  . intro _
    apply Returns.ite (fun _ => Returns.throw _)
    intro _
    apply Returns.ite
    . intro hblob
      apply Triple.bind (returns_readInlineBlob length)
      intro v
      rw [hblob]
      exact Triple.pure (fun _ h => h)
    . intro _
      apply Returns.ite
      . intro hclob
        apply Triple.bind (returns_readInlineClob length)
        intro v
        rw [hclob]
        exact Triple.pure (fun _ h => h)
      . intro _
        exact Returns.throw _

theorem returns_readTypedValue (nested : Option TypeInfo → Prog Err (Tr σ) Value)
    (colType : Option TypeInfo) (c : LobCollector) (t : ValueType)
    : Returns (readTypedValue nested colType (some c) t) (fun r => t.Decodes r.1) := by
  apply Returns.ite (fun ht => returns_readLOBValue ht c)
  intro _
  apply Returns.ite
  . intro harray
    apply Triple.bind (returns_readArrayValue nested colType)
    intro v
    rw [harray]
    exact Triple.pure (fun _ h => h)
  . intro _
    apply Returns.ite
    . intro hrow
      apply Triple.bind (returns_readRowValue nested)
      intro v
      rw [hrow]
      exact Triple.pure (fun _ h => h)
    . intro _
      apply Triple.bind (returns_readScalarValue t)
      intro v
      exact Triple.pure (fun _ h => h)

end Decoders

end Tr

def wireType (bytes : List UInt8) : ValueType := ValueType.ofCode (beInt (bytes.take 4))

section

variable {σ : Type} [GoStd] [Peer σ]

theorem Cell.decodes_of_sent (t : Tr σ) {cell : Cell} {col : ResultColumn} (h : cell.Sent σ col)
    : (wireType cell.bytes).Decodes cell.value := by
  obtain ⟨lc, hframe⟩ := h
  have hrun := hframe.exact (Input.move [] cell.bytes t) [] (by simp)
  obtain ⟨code, t1, hcode, hrun⟩ := Prog.bind_eq_ok hrun
  obtain ⟨t2, hint, rfl⟩ := Out.map_eq_ok hcode
  have hdecodes := (Tr.returns_readTypedValue _ _ _ _).of_ok True.intro hrun
  obtain ⟨bs, t3, hread, hpure⟩ := Prog.bind_eq_ok hint
  cases hpure
  by_cases hlen : 4 ≤ (Input.move [] cell.bytes t).inp.length
  . rw [show Tr.readFull 4 _ = _ from Prog.take_of_le hlen] at hread
    cases hread
    exact hdecodes
  . rw [show Tr.readFull 4 _ = _ from Prog.take_of_lt (Nat.lt_of_not_le hlen)] at hread
    cases hread

/--
The value `v` is what the cell holds when its LOB has been fetched.
-/
def Cell.Delivers (cell : Cell) (v : Value) : Prop :=
  match cell.value with
  | .lob p => ∃ content, v = p.value content
  | w => v = w

omit [GoStd] [Peer σ] in
theorem Cell.goType_of_delivers {cell : Cell} {t : ValueType} {v : Value} (ht : t.Decodes cell.value)
    (h : cell.Delivers v)
    : v = .nil ∨ (v.goType = t.decodedType ∧ v.goType.isSome) := by
  unfold Delivers at h
  rcases ht with hnil | htype | ⟨p, hp, htype, hlob⟩
  . rw [hnil] at h
    exact .inl h
  . cases hv : cell.value with
    | lob p =>
      rw [hv] at htype
      cases htype.2
    | _ =>
      rw [hv] at h htype
      rw [h]
      exact .inr htype
  . rw [hp] at h
    obtain ⟨content, rfl⟩ := h
    unfold PendingLob.value
    rcases hlob with rfl | rfl
    . rw [htype, if_neg (by decide)]
      exact .inr ⟨rfl, rfl⟩
    . rw [htype, if_pos rfl]
      exact .inr ⟨rfl, rfl⟩

def cellAt (rows : List (List Value)) (i j : Nat) : Option Value := rows[i]?.bind (·[j]?)

structure Filled (pending : List PendingLob) (rows rows' : List (List Value)) : Prop where
  shape : rows'.map List.length = rows.map List.length
  kept : ∀ i j, (∀ p ∈ pending, ¬ (p.row = i ∧ p.col = j)) → cellAt rows' i j = cellAt rows i j
  filled : ∀ q ∈ pending, ∃ p ∈ pending, p.row = q.row ∧ p.col = q.col ∧
    ∃ content, cellAt rows' q.row q.col = some (p.value content)

omit [GoStd] [Peer σ] in
theorem Filled.nil (rows : List (List Value)) : Filled [] rows rows :=
  ⟨rfl, fun _ _ _ => rfl, by simp⟩

omit [GoStd] [Peer σ] in
theorem cellAt_set {rows : List (List Value)} {i j : Nat} {row : List Value}
    (hrow : rows[i]? = some row) (hcol : j < row.length) (v : Value) (i' j' : Nat)
    : cellAt (rows.set i (row.set j v)) i' j'
      = if i = i' ∧ j = j' then some v else cellAt rows i' j' := by
  have hlt := (List.getElem?_eq_some_iff.mp hrow).1
  unfold cellAt
  by_cases hi : i = i'
  . subst hi
    rw [List.getElem?_set_self hlt, hrow]
    by_cases hj : j = j'
    . subst hj
      simp [hcol]
    . simp [hj]
  . simp [hi]

omit [GoStd] [Peer σ] in
theorem Filled.cons {p : PendingLob} {pending : List PendingLob} {rows rows' : List (List Value)}
    {row : List Value} {content : List UInt8} (hrow : rows[p.row]? = some row)
    (hcol : p.col < row.length)
    (h : Filled pending (rows.set p.row (row.set p.col (p.value content))) rows')
    : Filled (p :: pending) rows rows' where
  shape := by
    rw [h.shape, List.map_set, List.length_set]
    apply List.ext_getElem?
    intro k
    by_cases hk : p.row = k
    . subst hk
      rw [List.getElem?_set_self (by simpa using (List.getElem?_eq_some_iff.mp hrow).1)]
      simp [hrow]
    . rw [List.getElem?_set_ne hk]
  kept i j hnone := by
    rw [h.kept i j (fun q hq => hnone q (List.mem_cons_of_mem p hq)), cellAt_set hrow hcol,
      if_neg (hnone p List.mem_cons_self)]
  filled q hq := by
    by_cases hlater : ∃ p' ∈ pending, p'.row = q.row ∧ p'.col = q.col
    . -- the cell is written again
      obtain ⟨p', hp', hrow', hcol'⟩ := hlater
      obtain ⟨p'', hp'', hrow'', hcol'', hvalue⟩ := h.filled p' hp'
      rw [hrow', hcol'] at hvalue
      exact ⟨p'', List.mem_cons_of_mem p hp'', hrow''.trans hrow', hcol''.trans hcol', hvalue⟩
    . rcases List.mem_cons.mp hq with rfl | hq
      . refine ⟨q, hq, rfl, rfl, content, ?_⟩
        rw [h.kept _ _ (fun p' hp' heq => hlater ⟨p', hp', heq⟩), cellAt_set hrow hcol,
          if_pos ⟨rfl, rfl⟩]
      . exact absurd ⟨q, hq, rfl, rfl⟩ hlater

omit [GoStd] in
theorem Tr.returns_fetchLob (p : PendingLob)
    : Returns (fetchLob p : Prog Err (Tr σ) _) (fun v => ∃ content, v = p.value content) := by
  apply Returns.ite (fun _ => Returns.throw _)
  intro _
  apply Returns.bind
  intro _
  apply Returns.bind
  intro t
  apply Returns.bind
  intro buf
  apply Returns.ite
  . intro hclob
    exact Returns.pure ⟨buf, by rw [PendingLob.value, if_pos hclob]⟩
  . intro hclob
    exact Returns.pure ⟨buf, by rw [PendingLob.value, if_neg hclob]⟩

omit [GoStd] [Peer σ] in
theorem Session.returns_orBreak {α : Type} {m : Prog Err (Tr σ) α} {R : α → Prop} (h : Returns m R)
    : Returns (orBreak m) R := by
  intro s _
  cases hnil : s.trNil with
  | true =>
    unfold orBreak
    rw [Prog.onFail_run]
    simp [io, hnil]
  | false =>
    have hm := h s.tr True.intro
    rw [orBreak_run hnil]
    cases hrun : m s.tr with
    | ok a t =>
      rw [hrun] at hm
      exact hm
    | fail | panic | stuck => trivial

omit [GoStd] [Peer σ] in
theorem Tr.spliceLob_eq_ok {ρ : Type} {rows rows' : List (List Value)} {p : PendingLob} {v : Value}
    {s s' : ρ} (h : spliceLob rows p v s = .ok rows' s')
    : ∃ row, rows[p.row]? = some row ∧ p.col < row.length ∧
        rows' = rows.set p.row (row.set p.col v) ∧ s' = s := by
  cases hrow : rows[p.row]? with
  | none => simp [spliceLob, Prog.index, hrow] at h
  | some row =>
    by_cases hcol : p.col < row.length
    . rw [spliceLob_run hrow hcol v s] at h
      cases h
      exact ⟨row, rfl, hcol, rfl, rfl⟩
    . simp [spliceLob, Prog.index, hrow, Prog.setIndex, hcol] at h

omit [GoStd] in
theorem Cursor.filled_of_resolveLobs {pending : List PendingLob} {c c' : Cursor σ}
    (h : resolveLobs pending c = .ok () c')
    : Filled pending c.rows.bufferedRows c'.rows.bufferedRows := by
  induction pending generalizing c with
  | nil =>
    cases h
    exact Filled.nil _
  | cons p pending ih =>
    unfold resolveLobs at h
    obtain ⟨v, c1, hfetch, h⟩ := Prog.bind_eq_ok h
    rw [onSession_run] at hfetch
    obtain ⟨s1, hlob, rfl⟩ := Out.map_eq_ok hfetch
    obtain ⟨content, rfl⟩ := (Session.returns_orBreak (Triple.mapErr (Tr.returns_fetchLob p))).of_ok
      True.intro hlob
    obtain ⟨c2, _, hget, h⟩ := Prog.bind_eq_ok h
    cases hget
    obtain ⟨rows, c3, hsplice, h⟩ := Prog.bind_eq_ok h
    obtain ⟨row, hrow, hcol, rfl, rfl⟩ := Tr.spliceLob_eq_ok hsplice
    obtain ⟨_, c4, hmodify, h⟩ := Prog.bind_eq_ok h
    cases hmodify
    exact Filled.cons hrow hcol (ih h)

omit [GoStd] [Peer σ] in
theorem Batch.Grown.mem_pending_iff {width : Nat} {new : List (List Value)} {b : Batch}
    (h : Batch.Grown [] width new b) {p : PendingLob}
    : p ∈ b.2.pending ↔ cellAt b.1 p.row p.col = some (.lob p) := by
  rw [h.pending_eq, h.rows_eq, List.nil_append, List.mem_filterMap]
  constructor
  . rintro ⟨v, hv, hlob⟩
    obtain ⟨row, hrow, hcell⟩ := List.mem_flatten.mp hv
    obtain rfl : v = .lob p := Value.eq_of_lob? hlob
    obtain ⟨i, hi⟩ := List.mem_iff_getElem?.mp hrow
    obtain ⟨j, hj⟩ := List.mem_iff_getElem?.mp hcell
    obtain ⟨hrowEq, hcolEq, -⟩ := h.position i row hi j p hj
    rw [List.length_nil, Nat.zero_add] at hrowEq
    rw [hrowEq, hcolEq, cellAt, hi]
    exact hj
  . intro hcell
    obtain ⟨row, hrow, hcell⟩ := Option.bind_eq_some_iff.mp hcell
    exact ⟨.lob p, List.mem_flatten.mpr ⟨row, List.mem_of_getElem? hrow, List.mem_of_getElem? hcell⟩, rfl⟩

def RowDelivered (σ : Type) [Peer σ] (m : ResultMeta) (row : List Value) : Prop :=
  ∃ cells, RowSent σ m cells ∧ List.Forall₂ Cell.Delivers cells row

theorem RowDelivered.length_eq {m : ResultMeta} {row : List Value} (h : RowDelivered σ m row)
    : row.length = m.columns.length := by
  obtain ⟨cells, hsent, hdelivers⟩ := h
  rw [← hsent.length_eq, hdelivers.length_eq]

theorem RowDelivered.cell {m : ResultMeta} {row : List Value} (h : RowDelivered σ m row) {i : Nat}
    {v : Value} (hv : row[i]? = some v)
    : ∃ cell col, m.columns[i]? = some col ∧ Cell.Sent σ cell col ∧ cell.Delivers v := by
  obtain ⟨cells, hsent, hdelivers⟩ := h
  obtain ⟨hi, rfl⟩ := List.getElem?_eq_some_iff.mp hv
  have hcells : i < cells.length := by rwa [hdelivers.length_eq]
  have hcols : i < m.columns.length := by rwa [← hsent.length_eq]
  exact ⟨cells[i], m.columns[i], List.getElem?_eq_getElem hcols, hsent.get hcells hcols,
    hdelivers.get hcells hi⟩

omit [GoStd] [Peer σ] in
theorem cellAt_batchValues {rows : List (List Cell)} {i : Nat} {cells : List Cell}
    (hi : rows[i]? = some cells) (j : Nat)
    : cellAt (batchValues 0 rows) i j = cells[j]?.map (fun cell => cell.value.at i j) := by
  simp [cellAt, batchValues, rowValues, hi]

omit [GoStd] [Peer σ] in
theorem delivers_of_filled {new rows' : List (List Value)} {width : Nat} {lc : LobCollector}
    (hgrown : Batch.Grown [] width new (new, lc)) (h : Filled lc.pending new rows') {i j : Nat}
    {cell : Cell} {v : Value} (hbefore : cellAt new i j = some (cell.value.at i j))
    (hafter : cellAt rows' i j = some v)
    : cell.Delivers v := by
  have hpending : ∀ p ∈ lc.pending, p.row = i → p.col = j → cell.value.at i j = .lob p := by
    rintro p hp rfl rfl
    have hcell := hgrown.mem_pending_iff.mp hp
    rw [hbefore] at hcell
    exact Option.some.inj hcell
  unfold Cell.Delivers
  cases hv : cell.value with
  | lob p =>
    rw [hv] at hbefore hpending
    obtain ⟨q, hq, hrow, hcol, content, hvalue⟩ := h.filled { p with row := i, col := j }
      (hgrown.mem_pending_iff.mpr hbefore)
    -- both are the placeholder in the cell
    cases hpending q hq hrow hcol
    refine ⟨content, Option.some.inj (hafter.symm.trans hvalue)⟩
  | _ =>
    rw [hv] at hbefore hpending
    have hkept := h.kept i j (fun p hp heq => by cases hpending p hp heq.1 heq.2)
    rw [hbefore, hafter] at hkept
    exact Option.some.inj hkept

omit [GoStd] [Peer σ] in
theorem delivered_of_filled {rows : List (List Cell)} {width : Nat} {lc : LobCollector}
    {rows' : List (List Value)}
    (hgrown : Batch.Grown [] width (batchValues 0 rows) (batchValues 0 rows, lc))
    (h : Filled lc.pending (batchValues 0 rows) rows') {i : Nat} {row : List Value}
    (hi : rows'[i]? = some row)
    : ∃ cells ∈ rows, List.Forall₂ Cell.Delivers cells row := by
  have hshape := congrArg (fun l => l[i]?) h.shape
  simp only [List.getElem?_map, hi, Option.map_some] at hshape
  obtain ⟨values, hvalues, hlen⟩ := Option.map_eq_some_iff.mp hshape.symm
  obtain ⟨cells, hcells, rfl⟩ : ∃ cells, rows[i]? = some cells ∧ rowValues (0 + i) cells = values := by
    simpa [batchValues] using hvalues
  refine ⟨cells, List.mem_of_getElem? hcells, List.forall₂_iff_get.mpr ⟨?_, ?_⟩⟩
  . rw [← hlen]
    simp [rowValues]
  . intro j hj hj'
    have hbefore := cellAt_batchValues hcells j
    have hafter : cellAt rows' i j = some (row.get ⟨j, hj'⟩) := by
      simp [cellAt, hi]
    rw [List.getElem?_eq_getElem hj, Option.map_some] at hbefore
    exact delivers_of_filled hgrown h hbefore hafter

theorem Cursor.delivered_of_fetchRows {c c' : Cursor σ} {m : ResultMeta}
    (hopen : c.session.trNil = false) (hcolumns : c.rows.columns = some m)
    (hm : m.Fits c.rows.columnCount) (hbuf : c.rows.bufferedRows = []) {fetch : Int}
    (h : fetchRows fetch c = .ok () c')
    : ∀ row ∈ c'.rows.bufferedRows, RowDelivered σ m row := by
  obtain ⟨lc, c1, hloop, hresolve⟩ := Prog.bind_eq_ok h
  have hfollows := fetchRowsLoop_follows fetch.toNat .empty hopen
  rw [hcolumns, hbuf] at hfollows
  cases hrun : Tr.readRows (some m) c.rows.columnCount fetch.toNat ([], .empty) c.session.tr with
  | ok res t =>
    obtain ⟨⟨buf, lc1⟩, ended⟩ := res
    rw [hrun] at hfollows
    obtain ⟨rows, hsent, hcomplete, hinp, -⟩ := Tr.batch_of_readRows hm fetch.toNat rfl hrun
    obtain ⟨lc', hframe, hgrown⟩ := Tr.frame_readRows c.session.tr hm hsent hcomplete
      (Batch.Grown.nil [] c.rows.columnCount.toNat)
    rw [hframe.exact _ _ hinp] at hrun
    simp only [Out.ok.injEq, Prod.mk.injEq] at hrun
    obtain ⟨⟨⟨rfl, rfl⟩, -⟩, -⟩ := hrun
    rw [show fetchRowsLoop fetch.toNat .empty c = _ from hfollows] at hloop
    cases hloop
    have hfilled := filled_of_resolveLobs hresolve
    intro row hrow
    obtain ⟨i, hi⟩ := List.mem_iff_getElem?.mp hrow
    obtain ⟨cells, hcells, hdelivers⟩ := delivered_of_filled hgrown hfilled hi
    exact ⟨cells, hsent cells hcells, hdelivers⟩
  | fail e t =>
    rw [hrun] at hfollows
    obtain ⟨buf, hfail⟩ := hfollows
    rw [hfail] at hloop
    cases hloop
  | panic | stuck =>
    rw [hrun] at hfollows
    rw [show fetchRowsLoop fetch.toNat .empty c = _ from hfollows] at hloop
    cases hloop

namespace Cursor

/--
What the rows hold as long as they hand out rows: rows whose LOBs have been fetched.
-/
def Supplied (c : Cursor σ) : Prop :=
  c.rows.closed = false → c.rows.err = none → ∃ m, c.rows.columns = some m ∧
    m.Fits c.rows.columnCount ∧ ∀ row ∈ c.rows.bufferedRows, RowDelivered σ m row

omit [GoStd] [Peer σ] in
theorem onTr_kept {α : Type} {m : Prog Err (Tr σ) α} {c c' : Cursor σ} {a : α}
    (hopen : c.session.trNil = false) (h : onTr m c = .ok a c')
    : c'.rows = c.rows ∧ c'.session.trNil = false := by
  unfold onTr at h
  rw [onSession_run, Session.io_run hopen] at h
  cases hrun : m c.session.tr with
  | ok a t =>
    rw [hrun] at h
    cases h
    exact ⟨rfl, hopen⟩
  | fail | panic | stuck =>
    rw [hrun] at h
    cases h

theorem triple_fetchNextBatch_delivered {c : Cursor σ} {m : ResultMeta}
    (hcolumns : c.rows.columns = some m) (hm : m.Fits c.rows.columnCount)
    (hbuf : c.rows.bufferedRows = []) (fetch : Int)
    : Triple True (fun c1 => c1 = c) (fetchNextBatch fetch)
        (fun _ c' => ∀ row ∈ c'.rows.bufferedRows, RowDelivered σ m row) (fun _ _ => True) := by
  apply Triple.onFail (F := fun _ _ => True)
  . apply Triple.get_bind
    rintro c rfl
    apply Triple.ite (fun _ => Triple.throw (fun _ _ => True.intro))
    intro hopen
    rw [Bool.not_eq_true] at hopen
    apply Triple.onFail (F := fun _ _ => True)
    . apply Triple.bind (R := fun _ c1 => c1.rows = c.rows ∧ c1.session.trNil = false)
      . rintro c rfl
        cases hrun : onTr (requestRows c.rows.resultID fetch) c with
        | ok _ c1 => exact onTr_kept hopen hrun
        | fail | panic | stuck => trivial
      . rintro _ c1 ⟨hrows, hopen⟩
        rw [← hrows] at hcolumns hm hbuf
        cases hrun : fetchRows fetch c1 with
        | ok _ c' => exact delivered_of_fetchRows hopen hcolumns hm hbuf hrun
        | fail | panic | stuck => trivial
    . intro e
      exact Triple.trivial
  . intro e
    exact Triple.trivial

theorem triple_prefetchInitialRows_delivered {c : Cursor σ} {m : ResultMeta}
    (hcolumns : c.rows.columns = some m) (hm : m.Fits c.rows.columnCount)
    (hbuf : c.rows.bufferedRows = []) (hopen : c.session.trNil = false)
    : Triple True (fun c1 => c1 = c) prefetchInitialRows
        (fun _ c' => ∀ row ∈ c'.rows.bufferedRows, RowDelivered σ m row) (fun _ _ => True) := by
  apply Triple.get_bind
  rintro c rfl
  apply Triple.ite
  . intro _
    apply Triple.mapErr
    rintro c rfl
    cases hrun : fetchRows _ c with
    | ok _ c' => exact delivered_of_fetchRows hopen hcolumns hm hbuf hrun
    | fail | panic | stuck => trivial
  . intro _
    apply Triple.pure
    rintro c rfl
    simp [hbuf]

theorem supplied_of_fetchNextBatch {c c' : Cursor σ} {fetch : Int} (htyped : c.rows.Typed)
    (hbuf : c.rows.bufferedRows = []) (h : fetchNextBatch fetch c = .ok () c')
    : c'.Supplied := by
  intro hopen _
  obtain ⟨_, _, hrows⟩ := (triple_fetchNextBatch fetch).of_ok (Rows.Like.refl _) h
  rw [hrows] at hopen
  obtain ⟨m, hcolumns, hm⟩ := htyped hopen
  refine ⟨m, by rw [hrows]; exact hcolumns, by rw [hrows]; exact hm, ?_⟩
  exact (triple_fetchNextBatch_delivered hcolumns hm hbuf fetch).of_ok rfl h

theorem supplied_step {c c' : Cursor σ} (htyped : c.rows.Typed) (h : Step c c') (hc : c.Supplied)
    : c'.Supplied := by
  cases h with
  | next h =>
    obtain ⟨hopen, herr, -, htake | ⟨fetch, c1, hbuf, hfetch, htake⟩⟩ := takeRow_of_next_ok h
    . obtain ⟨m, hcolumns, hm, hrows⟩ := hc hopen herr
      obtain ⟨first, rest, hbuf, -, rfl⟩ := advance_of_takeRow_ok htake
      exact fun _ _ => ⟨m, hcolumns, hm, fun row hrow => hrows row (List.mem_of_mem_drop hrow)⟩
    . obtain ⟨first, rest, -, -, rfl⟩ := advance_of_takeRow_ok htake
      intro hopen' herr'
      obtain ⟨m, hcolumns, hm, hrows⟩ :=
        supplied_of_fetchNextBatch htyped hbuf hfetch hopen' herr'
      exact ⟨m, hcolumns, hm, fun row hrow => hrows row (List.mem_of_mem_drop hrow)⟩
  | nextErr h =>
    cases nextErr_of_fail h with
    | closed | sticky | mismatch | done => exact hc
    | failed hopen herr h =>
      obtain ⟨r', -, hrows, -⟩ := (triple_fetchNextBatch _).of_fail (Rows.Like.refl _) h
      intro _ herr'
      rw [hrows] at herr'
      cases herr'
    | empty _ _ hbuf _ h _ => exact supplied_of_fetchNextBatch htyped hbuf h
  | close h =>
    intro hopen
    rw [triple_close.of_ok True.intro h] at hopen
    cases hopen
  | closeErr h =>
    intro hopen
    rw [triple_close.of_fail True.intro h] at hopen
    cases hopen

theorem supplied_of_reachable {c : Cursor σ} (h : c.Reachable) : c.Supplied := by
  obtain ⟨resultID, columnCount, fetchSize, ownsCommand, commandID, s, r, s', hnew, hsteps⟩ := h
  induction hsteps with
  | refl =>
    obtain ⟨hnil, rowCount, s1, m, s2, hcount, hmeta, hprefetch⟩ := Session.prefetch_of_newRows_ok hnew
    have hopen := ((Session.triple_orBreak (fun _ =>
      progress_wrapErr _ _ Tr.progress_readInt64)).of_ok hnil hcount).1
    obtain ⟨hopen, -, hm⟩ := (Session.triple_orBreak (fun _ =>
      progress_wrapErr _ _ (Tr.progress_readResultMeta columnCount _))).of_ok hopen hmeta
    obtain ⟨_, _, hrows⟩ := triple_prefetchInitialRows.of_ok (Rows.Like.refl _) hprefetch
    have hdelivered : ∀ row ∈ r.bufferedRows, RowDelivered σ m row :=
      (triple_prefetchInitialRows_delivered rfl hm rfl hopen).of_ok rfl hprefetch
    intro _ _
    exact ⟨m, by rw [hrows]; rfl, by rw [hrows]; exact hm, hdelivered⟩
  | tail hsteps hstep ih =>
    exact supplied_step (typed_of_reachable ⟨_, _, _, _, _, s, r, s', hnew, hsteps⟩) hstep ih

/--
The row that `next` hands out, from the buffer or from the batch that is fetched for it.
-/
theorem delivered_of_next {c c' : Cursor σ} (hreach : c.Reachable) {dest row : List Value}
    (h : next dest c = .ok row c')
    : ∃ m, c.rows.columns = some m ∧ RowDelivered σ m row := by
  obtain ⟨hopen, herr, hdest, hcase⟩ := takeRow_of_next_ok h
  obtain ⟨m, hcolumns, hm, hrows⟩ := supplied_of_reachable hreach hopen herr
  have hfirst : ∃ first, RowDelivered σ m first ∧
      row = first.take dest.length ++ dest.drop first.length := by
    rcases hcase with htake | ⟨fetch, c1, hbuf, hfetch, htake⟩
    . obtain ⟨first, rest, hbuf, hrow, -⟩ := advance_of_takeRow_ok htake
      exact ⟨first, hrows first (by simp [hbuf]), hrow⟩
    . obtain ⟨first, rest, hbuf1, hrow, -⟩ := advance_of_takeRow_ok htake
      exact ⟨first, (triple_fetchNextBatch_delivered hcolumns hm hbuf fetch).of_ok rfl hfetch first
        (by simp [hbuf1]), hrow⟩
  obtain ⟨first, hdelivered, rfl⟩ := hfirst
  have hlen : first.length = dest.length := by
    have := hdelivered.length_eq
    have := hm.length_eq
    omega
  rw [← hlen, List.take_length, hlen, List.drop_length, List.append_nil]
  exact ⟨m, hcolumns, hdelivered⟩

end Cursor

/--
The value `v` of the column `col`: a value for `database/sql` that was decoded from a frame. Whatever
frame that was, if it had the type of the column then the value has the Go type of the column.
-/
structure WellTyped (σ : Type) [Peer σ] (col : ResultColumn) (scanType : GoType) (v : Value)
    : Prop where
  driverValue : v.IsDriverValue
  sent : ∃ cell : Cell, cell.Sent σ col ∧ cell.Delivers v
  agrees : ∀ cell : Cell, cell.Sent σ col → cell.Delivers v →
    wireType cell.bytes = col.typeInfo.valueType → v ≠ .nil →
    v.goType = some scanType ∨ scanType = .any

theorem Cell.wellTyped (t : Tr σ) {cell : Cell} {col : ResultColumn} (h : cell.Sent σ col) {v : Value}
    (hv : cell.Delivers v)
    : WellTyped σ col col.typeInfo.scanType v where
  driverValue := (goType_of_delivers (decodes_of_sent t h) hv).imp_right And.right
  sent := ⟨cell, h, hv⟩
  agrees := by
    intro cell' h' hv' htype hnil
    rcases goType_of_delivers (decodes_of_sent t h') hv' with hv' | ⟨hgo, hsome⟩
    . exact absurd hv' hnil
    . rw [htype] at hgo
      obtain ⟨g, hg⟩ := Option.isSome_iff_exists.mp hsome
      rw [hg]
      exact (col.typeInfo.scanType_eq (hgo.symm.trans hg)).imp_left (congrArg some)

/--
In every run of the rows each value that `next` hands out is well typed.
-/
theorem next_wellTyped {c c' : Cursor σ} (hreach : c.Reachable) {dest row : List Value}
    (h : Cursor.next dest c = .ok row c') {i : Nat} {v : Value} (hv : row[i]? = some v)
    : ∃ m col, c.rows.columns = some m ∧ m.columns[i]? = some col ∧
        WellTyped σ col (c.rows.columnTypeScanType i) v := by
  obtain ⟨m, hcolumns, hdelivered⟩ := Cursor.delivered_of_next hreach h
  obtain ⟨cell, col, hcol, hsent, hdelivers⟩ := hdelivered.cell hv
  have hscan : c.rows.columnTypeScanType i = col.typeInfo.scanType := by
    simp only [Rows.columnTypeScanType, hcolumns, hcol]
  rw [hscan]
  exact ⟨m, col, hcolumns, hcol, cell.wellTyped c.session.tr hsent hdelivers⟩

end

section

open StandIn

def booleanResult : Session Silent :=
  Session.ofTr (Tr.ofBytes (intBytes 8 1 ++ List.replicate 16 255 ++ intBytes 4 1 ++ [0, 0, 0, 0, 0] ++
    [1] ++ intBytes 4 1 ++ [1]))

theorem next_wellTyped_boolean
    : ∃ (c c' : Cursor Silent) (m : ResultMeta) (col : ResultColumn),
        Cursor.next [.nil] c = .ok [.bool true] c' ∧ c.rows.columns = some m ∧
        m.columns[0]? = some col ∧ WellTyped Silent col (c.rows.columnTypeScanType 0) (.bool true) ∧
        c.rows.columnTypeScanType 0 = .bool := by
  have hrun : (Session.newRows 1 1 1 false 0 booleanResult).returns (fun r s =>
      (Cursor.next [.nil] { rows := r, session := s }).returns fun row _ =>
        decide (row = [.bool true] ∧ r.columnTypeScanType 0 = .bool)) = true := by decide +kernel
  obtain ⟨r, s, hnew, hrun⟩ := Out.exists_of_returns hrun
  obtain ⟨row, c', hnext, hrun⟩ := Out.exists_of_returns hrun
  obtain ⟨rfl, hscan⟩ := of_decide_eq_true hrun
  obtain ⟨m, col, hcolumns, hcol, htyped⟩ := next_wellTyped
    ⟨1, 1, 1, false, 0, booleanResult, r, s, hnew, Relation.ReflTransGen.refl⟩ hnext
    (show [Value.bool true][0]? = some (.bool true) from rfl)
  exact ⟨_, c', m, col, hnext, hcolumns, hcol, htyped, hscan⟩

end

end H2Go
