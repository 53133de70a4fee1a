import H2Go.Value.Impl
import H2Go.Text.Lemmas

/-!
This module contains the lemmas about the value decoder: with a collector it is a lawful reader, it
comes to an end on every input without a panic, and it records a LOB exactly when it returns the
placeholder of one.
-/

namespace H2Go

def Value.IsPlain (v : Value) : Prop :=
  match v with
  | .lob _ => False
  | _ => True

structure PendingLob.OnWire (p : PendingLob) : Prop where
  typeCode_eq : p.typeCode = .blob ∨ p.typeCode = .clob
  le_lobID : -2 ^ 63 ≤ p.lobID
  lobID_lt : p.lobID < 2 ^ 63
  hmac_le : ∀ bs, p.hmac = some bs → bs.length ≤ 2 ^ 29

/--
What reading one value does to the collector `c`: it records a LOB for the current cell exactly when
it returns the placeholder of that LOB.
-/
def LobCollector.Step (c : LobCollector) (r : Value × Option LobCollector) : Prop :=
  (r.1.IsPlain ∧ r.2 = some c) ∨
  ∃ p : PendingLob, r.1 = .lob p ∧ c.reject = false ∧ p.row = c.curRow ∧ p.col = c.curCol
    ∧ p.OnWire ∧ r.2 = some { c with pending := c.pending ++ [p] }

namespace Tr

section Parts

variable {σ : Type} {N : Nat}

theorem progress_readStringValue
    : Progress N (readStringValue : Prog Err (Tr σ) _) 0 Value.IsPlain Err.Plain := by
  apply Progress.seq (progress_wrapErr _ _ progress_readString)
  intro s _
  cases s with
  | none | some => exact Progress.pure True.intro

theorem progress_readDecfloatValue
    : Progress N (readDecfloatValue : Prog Err (Tr σ) _) 0 Value.IsPlain Err.Plain := by
  apply Progress.seq progress_readStringValue
  intro v hv
  split
  . split
    . next hparse => exact Progress.throw ((plain_of_parseDecFloat hparse).wrap _)
    . exact Progress.pure hv
  . exact Progress.pure hv

theorem progress_readClobChar
    : Progress N (readClobChar : Prog Err (Tr σ) _) 0 (fun _ => True) Err.Plain := by
  apply Progress.seq progress_readByte
  intro x _
  apply Progress.ite (fun _ => Progress.pure True.intro)
  intro _
  apply Progress.ite
  . intro _
    apply Progress.seq progress_readByte
    intro _ _
    apply Progress.seq progress_readByte
    intro _ _
    exact Progress.pure True.intro
  . intro _
    apply Progress.seq progress_readByte
    intro _ _
    exact Progress.pure True.intro

theorem progress_readInlineClob (length : Int)
    : Progress N (readInlineClob length : Prog Err (Tr σ) _) 0 Value.IsPlain Err.Plain := by
  apply Progress.ite (fun _ => Progress.throw (Err.plain_errorf _ _))
  intro _
  apply Progress.seq (Progress.iter (fun _ _ => True) _ _ _ True.intro _)
  . intro sb _
    apply Progress.seq (progress_wrapErr _ _ progress_readInt32)
    intro magic _
    apply Progress.ite (fun _ => Progress.throw (Err.plain_errorf _ _))
    intro _
    exact Progress.pure True.intro
  . intro _ _ _ _ _
    apply Progress.seq (progress_wrapErr _ _ progress_readClobChar)
    intro _ _
    exact Progress.pure True.intro

theorem progress_readInlineBlob {length : Int} (h : 0 ≤ length)
    : Progress N (readInlineBlob length : Prog Err (Tr σ) _) 0 Value.IsPlain Err.Plain := by
  apply Progress.ite (fun _ => Progress.throw (Err.plain_errorf _ _))
  intro hcap
  apply Progress.seq (Progress.make (by omega))
  intro _ _
  apply Progress.seq (progress_wrapErr _ _ (progress_readFull _))
  intro data _
  apply Progress.seq (progress_wrapErr _ _ progress_readInt32)
  intro magic _
  apply Progress.ite (fun _ => Progress.throw (Err.plain_errorf _ _))
  intro _
  exact Progress.pure True.intro

theorem progress_readPendingLob {typeCode : ValueType} (h : typeCode = .blob ∨ typeCode = .clob)
    (lc : Option LobCollector)
    : Progress N (readPendingLob typeCode lc : Prog Err (Tr σ) _) 0
        (fun p => p.OnWire ∧ p.row = (lc.map LobCollector.curRow).getD 0
          ∧ p.col = (lc.map LobCollector.curCol).getD 0) Err.Plain := by
  apply Progress.seq (progress_wrapErr _ _ progress_readInt32)
  intro _ _
  apply Progress.seq (progress_wrapErr _ _ progress_readInt64)
  intro lobID hlobID
  apply Progress.seq (progress_wrapErr _ _ progress_readBytes)
  intro hmac hhmac
  apply Progress.seq (R := fun _ => True) (k := 0)
  . apply Progress.ite
    . intro _
      apply Progress.seq (progress_wrapErr _ _ progress_readInt64)
      intro _ _
      apply Progress.seq (progress_wrapErr _ _ progress_readInt64)
      intro _ _
      exact Progress.pure True.intro
    . intro _
      apply Progress.seq (progress_wrapErr _ _ progress_readInt64)
      intro _ _
      exact Progress.pure True.intro
  . intro lengths _
    exact Progress.pure ⟨⟨h, hlobID.1, hlobID.2, hhmac⟩, rfl, rfl⟩

end Parts

variable {σ : Type} [GoStd]

section Reader

instance : LawfulReader (readIntervalValue : Prog Err (Tr σ) _) := by
  unfold readIntervalValue
  infer_instance

instance : LawfulReader (readStringValue : Prog Err (Tr σ) _) := by
  unfold readStringValue
  infer_instance

instance : LawfulReader (readDecfloatValue : Prog Err (Tr σ) _) := by
  unfold readDecfloatValue
  have : ∀ v : Value, LawfulReader (match v with
      | .string str =>
        match parseDecFloat str with
        | .error perr => Prog.throw (perr.wrap "h2go: ReadValue: invalid DECFLOAT: %w")
        | .ok _ => pure v
      | _ => pure v : Prog Err (Tr σ) Value) := by
    intro v
    split
    . split <;> infer_instance
    . infer_instance
  infer_instance

instance (typeCode : ValueType) : LawfulReader (readScalarValue typeCode : Prog Err (Tr σ) _) := by
  cases typeCode
  all_goals
    unfold readScalarValue
    infer_instance

instance : LawfulReader (readClobChar : Prog Err (Tr σ) _) := by
  unfold readClobChar
  infer_instance

instance (length : Int) : LawfulReader (readInlineClob length : Prog Err (Tr σ) _) := by
  unfold readInlineClob
  infer_instance

instance (length : Int) : LawfulReader (readInlineBlob length : Prog Err (Tr σ) _) := by
  unfold readInlineBlob
  infer_instance

instance (typeCode : ValueType) : LawfulReader (readLobLengths typeCode : Prog Err (Tr σ) _) := by
  unfold readLobLengths
  infer_instance

instance (typeCode : ValueType) (lc : Option LobCollector)
    : LawfulReader (readPendingLob typeCode lc : Prog Err (Tr σ) _) := by
  unfold readPendingLob
  infer_instance

instance : LawfulReader (readArrayLength : Prog Err (Tr σ) _) := by
  unfold readArrayLength
  infer_instance

variable [Peer σ]

instance (p : PendingLob) (c : LobCollector)
    : LawfulReader (deferLob p (some c) : Prog Err (Tr σ) _) := by
  unfold deferLob
  infer_instance

instance (typeCode : ValueType) (c : LobCollector)
    : LawfulReader (readLOBValue typeCode (some c) : Prog Err (Tr σ) _) := by
  unfold readLOBValue
  infer_instance

variable (nested : Option TypeInfo → Prog Err (Tr σ) Value) [∀ t, LawfulReader (nested t)]

instance (colType : Option TypeInfo) : LawfulReader (readArrayValue nested colType) := by
  unfold readArrayValue
  infer_instance

instance : LawfulReader (readRowValue nested) := by
  unfold readRowValue
  infer_instance

instance (colType : Option TypeInfo) (c : LobCollector) (typeCode : ValueType)
    : LawfulReader (readTypedValue nested colType (some c) typeCode) := by
  unfold readTypedValue
  infer_instance

instance (colType : Option TypeInfo) (c : LobCollector)
    : LawfulReader (readValueWith nested colType (some c)) := by
  unfold readValueWith
  infer_instance

end Reader

variable [Peer σ]

instance (fuel : Nat) (colType : Option TypeInfo)
    : LawfulReader (readNestedValue fuel colType : Prog Err (Tr σ) _) := by
  induction fuel generalizing colType with
  | zero =>
    unfold readNestedValue
    infer_instance
  | succ fuel ih =>
    unfold readNestedValue
    infer_instance

section Fuel

variable {nested nested' : Option TypeInfo → Prog Err (Tr σ) Value}

theorem readValueWith_mono (h : ∀ t, (nested t).Le (nested' t)) (colType : Option TypeInfo)
    (lc : Option LobCollector)
    : (readValueWith nested colType lc).Le (readValueWith nested' colType lc) := by
  apply Prog.Le.bind (Prog.Le.refl _)
  intro typeCode
  unfold readTypedValue
  apply Prog.Le.ite (Prog.Le.refl _)
  apply Prog.Le.ite
  . apply Prog.Le.bind
    . apply Prog.Le.bind (Prog.Le.refl _)
      intro length
      apply Prog.Le.ite (Prog.Le.refl _)
      apply Prog.Le.bind (Prog.Le.refl _)
      intro _
      apply Prog.Le.bind
      . apply Prog.Le.iter
        intro i elems
        exact Prog.Le.bind (Prog.Le.mapErr (h _)) (fun _ => Prog.Le.refl _)
      . intro _
        exact Prog.Le.refl _
    . intro _
      exact Prog.Le.refl _
  apply Prog.Le.ite
  . apply Prog.Le.bind
    . apply Prog.Le.bind (Prog.Le.refl _)
      intro length
      apply Prog.Le.ite (Prog.Le.refl _)
      apply Prog.Le.ite (Prog.Le.refl _)
      apply Prog.Le.bind (Prog.Le.refl _)
      intro _
      apply Prog.Le.bind
      . apply Prog.Le.iter
        intro i elems
        exact Prog.Le.bind (Prog.Le.mapErr (h _)) (fun _ => Prog.Le.refl _)
      . intro _
        exact Prog.Le.refl _
    . intro _
      exact Prog.Le.refl _
  . exact Prog.Le.refl _

theorem readNestedValue_mono (fuel : Nat) (colType : Option TypeInfo)
    : (readNestedValue fuel colType : Prog Err (Tr σ) _).Le (readNestedValue (fuel + 1) colType) := by
  induction fuel generalizing colType with
  | zero => exact Prog.Le.stuck _
  | succ fuel ih =>
    apply Prog.Le.bind (readValueWith_mono ih colType _)
    intro _
    exact Prog.Le.refl _

end Fuel

section Progress

variable {N : Nat}

omit [Peer σ] in
omit [GoStd] in
theorem progress_readIntervalValue
    : Progress N (readIntervalValue : Prog Err (Tr σ) _) 0 Value.IsPlain Err.Plain := by
  apply Progress.seq (progress_wrapErr _ _ progress_readByte)
  intro x _
  apply Progress.seq (progress_wrapErr _ _ progress_readInt64)
  intro leading _
  apply Progress.ite
  . intro _
    apply Progress.seq (progress_wrapErr _ _ progress_readInt64)
    intro remaining _
    exact Progress.pure True.intro
  . intro _
    exact Progress.pure True.intro

omit [Peer σ] in
theorem progress_readScalarValue (typeCode : ValueType)
    : Progress N (readScalarValue typeCode : Prog Err (Tr σ) _) 0 Value.IsPlain Err.Plain := by
  cases typeCode with
  | null => exact Progress.pure True.intro
  | boolean =>
    apply Progress.seq (progress_wrapErr _ _ progress_readBool)
    intro _ _
    exact Progress.pure True.intro
  | tinyint =>
    apply Progress.seq (progress_wrapErr _ _ progress_readByte)
    intro _ _
    exact Progress.pure True.intro
  | smallint =>
    apply Progress.seq (progress_wrapErr _ _ progress_readInt16)
    intro _ _
    exact Progress.pure True.intro
  | integer | enum =>
    apply Progress.seq (progress_wrapErr _ _ progress_readInt32)
    intro _ _
    exact Progress.pure True.intro
  | bigint | date | time =>
    apply Progress.seq (progress_wrapErr _ _ progress_readInt64)
    intro _ _
    exact Progress.pure True.intro
  | real =>
    apply Progress.seq (progress_wrapErr _ _ progress_readFloat32)
    intro _ _
    exact Progress.pure True.intro
  | double =>
    apply Progress.seq (progress_wrapErr _ _ progress_readFloat64)
    intro _ _
    exact Progress.pure True.intro
  | numeric =>
    apply Progress.seq (progress_wrapErr _ _ progress_readString)
    intro s _
    cases s with
    | none | some => exact Progress.pure True.intro
  | timeTZ =>
    apply Progress.seq (progress_wrapErr _ _ progress_readInt64)
    intro _ _
    apply Progress.seq (progress_wrapErr _ _ progress_readInt32)
    intro _ _
    exact Progress.pure True.intro
  | timestamp | uuid =>
    apply Progress.seq (progress_wrapErr _ _ progress_readInt64)
    intro _ _
    apply Progress.seq (progress_wrapErr _ _ progress_readInt64)
    intro _ _
    exact Progress.pure True.intro
  | timestampTZ =>
    apply Progress.seq (progress_wrapErr _ _ progress_readInt64)
    intro _ _
    apply Progress.seq (progress_wrapErr _ _ progress_readInt64)
    intro _ _
    apply Progress.seq (progress_wrapErr _ _ progress_readInt32)
    intro _ _
    exact Progress.pure True.intro
  | varchar | char | varcharIgnoreCase => exact progress_readStringValue
  | varbinary | binary | json | geometry | javaObject =>
    apply Progress.seq (progress_wrapErr _ _ progress_readBytes)
    intro _ _
    exact Progress.pure True.intro
  | decfloat => exact progress_readDecfloatValue
  | interval => exact progress_readIntervalValue
  | blob | clob | array | row | other => exact Progress.throw ⟨rfl, rfl⟩

omit [GoStd] in
theorem progress_readLOBValue {lc : Option LobCollector} {R : Value × Option LobCollector → Prop}
    {typeCode : ValueType} (h : typeCode = .blob ∨ typeCode = .clob)
    (hdefer : ∀ p : PendingLob, p.OnWire ∧ p.row = (lc.map LobCollector.curRow).getD 0
      ∧ p.col = (lc.map LobCollector.curCol).getD 0 →
        Progress N (deferLob p lc : Prog Err (Tr σ) _) 0 R Err.Plain)
    (hplain : ∀ v : Value, v.IsPlain → R (v, lc))
    : Progress N (readLOBValue typeCode lc : Prog Err (Tr σ) _) 0 R Err.Plain := by
  apply Progress.seq (progress_wrapErr _ _ progress_readInt64)
  intro length _
  apply Progress.ite
  . intro _
    exact Progress.seq (progress_readPendingLob h lc) hdefer
  intro _
  apply Progress.ite (fun _ => Progress.throw (Err.plain_errorf _ _))
  intro hneg
  apply Progress.ite
  . intro _
    apply Progress.seq (progress_readInlineBlob (by omega))
    intro v hv
    exact Progress.pure (hplain v hv)
  intro hblob
  apply Progress.ite
  . intro _
    apply Progress.seq (progress_readInlineClob _)
    intro v hv
    exact Progress.pure (hplain v hv)
  . intro hclob
    exact absurd (h.resolve_left hblob) hclob

omit [GoStd] in
theorem progress_collectLOBValue (c : LobCollector) (typeCode : ValueType)
    (h : typeCode = .blob ∨ typeCode = .clob)
    : Progress N (readLOBValue typeCode (some c) : Prog Err (Tr σ) _) 0 c.Step Err.Plain := by
  apply progress_readLOBValue h _ (fun v hv => .inl ⟨hv, rfl⟩)
  rintro p ⟨hwire, hrow, hcol⟩
  apply Progress.ite
  . intro _
    exact Progress.throw ⟨rfl, rfl⟩
  intro hreject
  exact Progress.pure (.inr ⟨p, rfl, by simpa using hreject, hrow, hcol, hwire, rfl⟩)

omit [GoStd] [Peer σ] in
theorem progress_readArrayLength
    : Progress N (readArrayLength : Prog Err (Tr σ) _) 0
        (fun n => 0 ≤ n ∧ n ≤ maxWireCollectionElements) Err.Plain := by
  apply Progress.seq (progress_wrapErr _ _ progress_readInt32)
  intro length _
  apply Progress.ite
  . intro hneg
    apply Progress.ite (fun _ => Progress.throw (Err.plain_errorf _ _))
    intro hcap
    apply Progress.seq (progress_wrapErr _ _ progress_readString)
    intro _ _
    exact Progress.pure (by omega)
  intro hneg
  apply Progress.ite (fun _ => Progress.throw (Err.plain_errorf _ _))
  intro hcap
  exact Progress.pure (by omega)

section Nested

variable {nested : Option TypeInfo → Prog Err (Tr σ) Value}

omit [Peer σ] in
theorem progress_readArrayValue (hnested : ∀ t, Progress N (nested t) 0 (fun _ => True) Err.Plain)
    (colType : Option TypeInfo)
    : Progress N (readArrayValue nested colType) 0 Value.IsPlain Err.Plain := by
  apply Progress.seq progress_readArrayLength
  intro length hlength
  apply Progress.ite (fun _ => Progress.pure True.intro)
  intro _
  apply Progress.seq (Progress.make hlength)
  intro _ _
  apply Progress.seq (Progress.iter (fun _ _ => True) _ _ _ True.intro _)
  . intro elems _
    exact Progress.pure True.intro
  . intro _ _ _ _ _
    apply Progress.seq (progress_wrapErr _ _ (hnested _))
    intro _ _
    exact Progress.pure True.intro

omit [Peer σ] in
theorem progress_readRowValue (hnested : ∀ t, Progress N (nested t) 0 (fun _ => True) Err.Plain)
    : Progress N (readRowValue nested) 0 Value.IsPlain Err.Plain := by
  apply Progress.seq (progress_wrapErr _ _ progress_readInt32)
  intro length _
  apply Progress.ite (fun _ => Progress.throw (Err.plain_errorf _ _))
  intro hneg
  apply Progress.ite (fun _ => Progress.throw (Err.plain_errorf _ _))
  intro hcap
  apply Progress.seq (Progress.make (by omega))
  intro _ _
  apply Progress.seq (Progress.iter (fun _ _ => True) _ _ _ True.intro _)
  . intro elems _
    exact Progress.pure True.intro
  . intro _ _ _ _ _
    apply Progress.seq (progress_wrapErr _ _ (hnested _))
    intro _ _
    exact Progress.pure True.intro

theorem progress_readTypedValue {lc : Option LobCollector} {R : Value × Option LobCollector → Prop}
    (hlob : ∀ typeCode, typeCode = .blob ∨ typeCode = .clob →
      Progress N (readLOBValue typeCode lc : Prog Err (Tr σ) _) 0 R Err.Plain)
    (hplain : ∀ v : Value, v.IsPlain → R (v, lc))
    (hnested : ∀ t, Progress N (nested t) 0 (fun _ => True) Err.Plain)
    (colType : Option TypeInfo) (typeCode : ValueType)
    : Progress N (readTypedValue nested colType lc typeCode) 0 R Err.Plain := by
  apply Progress.ite (hlob typeCode)
  intro _
  apply Progress.ite
  . intro _
    apply Progress.seq (progress_readArrayValue hnested colType)
    intro v hv
    exact Progress.pure (hplain v hv)
  intro _
  apply Progress.ite
  . intro _
    apply Progress.seq (progress_readRowValue hnested)
    intro v hv
    exact Progress.pure (hplain v hv)
  . intro _
    apply Progress.seq (progress_readScalarValue typeCode)
    intro v hv
    exact Progress.pure (hplain v hv)

end Nested

theorem progress_readNestedValue {fuel : Nat} (h : N < fuel) (colType : Option TypeInfo)
    : Progress N (readNestedValue fuel colType : Prog Err (Tr σ) _) 4 (fun _ => True)
        Err.Plain := by
  -- every level reads its type code first, so the levels below see a shorter input
  induction fuel generalizing N colType with
  | zero => omega
  | succ fuel ih =>
    apply Progress.bind (R := fun _ => True)
    . apply Progress.bind (progress_wrapErr _ _ progress_readInt32)
      intro typeCode _ _
      exact (progress_readTypedValue (progress_collectLOBValue nestedLOBs) (fun v hv => .inl ⟨hv, rfl⟩)
        (fun t => (ih (by omega) t).drop) colType _).drop
    . intro v _ _
      exact Progress.pure True.intro

theorem progress_readValueWith {lc : Option LobCollector} {R : Value × Option LobCollector → Prop}
    (hlob : ∀ N typeCode, typeCode = .blob ∨ typeCode = .clob →
      Progress N (readLOBValue typeCode lc : Prog Err (Tr σ) _) 0 R Err.Plain)
    (hplain : ∀ v : Value, v.IsPlain → R (v, lc)) {fuel : Nat} (h : N ≤ fuel)
    (colType : Option TypeInfo)
    : Progress N (readValueWith (readNestedValue fuel) colType lc : Prog Err (Tr σ) _) 4 R
        Err.Plain := by
  apply Progress.bind (progress_wrapErr _ _ progress_readInt32)
  intro typeCode _ _
  exact progress_readTypedValue (hlob _) hplain
    (fun t => (progress_readNestedValue (by omega) t).drop) colType _

theorem progress_readValueInternal (colType : Option TypeInfo) (c : LobCollector)
    : Progress N (readValueInternal colType (some c) : Prog Err (Tr σ) _) 4 c.Step Err.Plain := by
  intro t ht
  exact progress_readValueWith (fun _ => progress_collectLOBValue c) (fun v hv => .inl ⟨hv, rfl⟩)
    (Nat.le_refl _) colType t (Nat.le_refl _)

end Progress

instance (colType : Option TypeInfo) (c : LobCollector)
    : LawfulReader (readValueInternal colType (some c) : Prog Err (Tr σ) _) := by
  apply LawfulReader.of_fuel (m := fun n => readValueWith (readNestedValue n) colType (some c))
    (fun t => t.inp.length)
  . intro n
    exact readValueWith_mono (readNestedValue_mono n) colType _
  . intro t
    exact (progress_readValueWith (fun _ => progress_collectLOBValue c) (fun v hv => .inl ⟨hv, rfl⟩)
      (Nat.le_refl _) colType).ne_stuck (Nat.le_refl _)

end Tr

end H2Go
