import H2Go.TypeInfo.Wire
import H2Go.Rows.Robust
import H2Go.Lib.Depth

/-!
This module contains the depth of the recursion of the decoder: how deep it goes on a stream is how
deep the stream nests types and values, and there is no bound on that.
-/

namespace H2Go

open BigEndian

namespace Tr

section TypeInfo

variable {σ : Type}

def readRowField (fuel : Nat) : Prog Err (Tr σ) TypeInfo := do
  let _ ← wrapErr "h2go: skipExtTypeInfo: failed to read ROW field name: %w" [] readString
  wrapErr "h2go: skipExtTypeInfo: failed to read ROW field type: %w" [] (readTypeInfoFuel fuel)

/--
The bytes start a type that is nested `n` levels deep: each type around it is an `ARRAY`, or a `ROW`
whose fields before are complete.
-/
inductive TypeNests (σ : Type) : Nat → List UInt8 → Prop where
  | start (b : List UInt8) : TypeNests σ 0 b
  | array {n : Nat} {b : List UInt8} (precision : Int32) (h : TypeNests σ n b)
    : TypeNests σ (n + 1) (intBytes 4 17 ++ (intBytes 4 precision.toInt ++ b))
  | row {n : Nat} {b nameBytes : List UInt8} {name : Option GoString} (count : Int32)
      (fields : List (List UInt8)) (hlt : fields.length < count.toInt.toNat)
      (hfields : ∀ f ∈ fields, ReadInFull (readRowField : Nat → Prog Err (Tr σ) _) f)
      (hname : Frame (readString : Prog Err (Tr σ) _) name nameBytes) (h : TypeNests σ n b)
    : TypeNests σ (n + 1)
        (intBytes 4 39 ++ (intBytes 4 count.toInt ++ (fields.flatten ++ (nameBytes ++ b))))

theorem ne_stuck_readString (t : Tr σ) : readString t ≠ .stuck :=
  progress_readString.ne_stuck (Nat.le_refl _)

theorem inp_move (used rest : List UInt8) (t : Tr σ) : (Input.move used rest t).inp = rest := rfl

theorem exists_int32_of_length_le {b : List UInt8} (h : 4 ≤ b.length)
    : ∃ (x : Int32) (rest : List UInt8), b = intBytes 4 x.toInt ++ rest := by
  have hfour : (b.take 4).length = 4 := List.length_take_of_le h
  have hlow := beInt_lower (b.take 4)
  have hup := beInt_upper (b.take 4)
  have hbytes := intBytes_beInt (b.take 4)
  rw [hfour] at hlow hup hbytes
  have hx : (Int32.ofInt (beInt (b.take 4))).toInt = beInt (b.take 4) :=
    Int32.toInt_ofInt_of_le (by omega) (by omega)
  refine ⟨Int32.ofInt (beInt (b.take 4)), b.drop 4, ?_⟩
  rw [hx, hbytes, List.take_append_drop]

theorem readInt32_bind_eq_stuck_iff {α : Type} {f : Int → Prog Err (Tr σ) α} (format : String)
    (args : List FmtArg) (t : Tr σ)
    : (wrapErr format args readInt32 >>= f) t = .stuck ↔
        ∃ (x : Int32) (rest : List UInt8), t.inp = intBytes 4 x.toInt ++ rest ∧
          f x.toInt (Input.move (intBytes 4 x.toInt) rest t) = .stuck := by
  have hframe (x : Int32) : Frame (wrapErr format args (readInt32 : Prog Err (Tr σ) _)) x.toInt
      (intBytes 4 x.toInt) := (frame_int32 x).mapErr
  constructor
  . intro h
    obtain ⟨v, t', hrun, hstuck⟩ := (Prog.bind_eq_stuck_iff.mp h).resolve_left
      ((progress_wrapErr _ _ progress_readInt32).ne_stuck (Nat.le_refl _))
    have hlen := progress_wrapErr format args progress_readInt32 t (Nat.le_refl _)
    rw [hrun] at hlen
    obtain ⟨x, rest, hinp⟩ := exists_int32_of_length_le (Nat.le_trans (Nat.le_add_left 4 _) hlen.1)
    rw [(hframe x).exact t rest hinp] at hrun
    injection hrun with hv ht
    refine ⟨x, rest, hinp, ?_⟩
    rw [ht, hv]
    exact hstuck
  . rintro ⟨x, rest, hinp, hstuck⟩
    exact Prog.bind_eq_stuck_iff.mpr (.inr ⟨_, _, (hframe x).exact t rest hinp, hstuck⟩)

instance (fuel : Nat) : LawfulReader (readRowField fuel : Prog Err (Tr σ) _) := by
  unfold readRowField
  infer_instance

theorem readRowField_mono (fuel : Nat)
    : (readRowField fuel : Prog Err (Tr σ) _).Le (readRowField (fuel + 1)) := by
  apply Prog.Le.bind (Prog.Le.refl _)
  intro _
  exact Prog.Le.mapErr (readTypeInfoFuel_mono fuel)

theorem readRowField_eq_stuck_iff (fuel : Nat) (t : Tr σ)
    : readRowField fuel t = .stuck ↔
        ∃ name nameBytes rest, Frame (readString : Prog Err (Tr σ) _) name nameBytes ∧
          t.inp = nameBytes ++ rest ∧ readTypeInfoFuel fuel (Input.move nameBytes rest t) = .stuck := by
  unfold readRowField
  rw [Prog.bind_reader_eq_stuck_iff]
  . constructor
    . rintro ⟨name, nameBytes, rest, hname, hinp, hstuck⟩
      exact ⟨name, nameBytes, rest, hname.of_mapErr, hinp, Prog.mapErr_eq_stuck_iff.mp hstuck⟩
    . rintro ⟨name, nameBytes, rest, hname, hinp, hstuck⟩
      exact ⟨name, nameBytes, rest, hname.mapErr, hinp, Prog.mapErr_eq_stuck_iff.mpr hstuck⟩
  . intro t h
    exact ne_stuck_readString t (Prog.mapErr_eq_stuck_iff.mp h)

theorem tiToValueType_cases (ti : Int)
    : ti = 17 ∨ ti = 39 ∨
        (tiToValueType ti).getD .null ≠ .array ∧ (tiToValueType ti).getD .null ≠ .row := by
  by_cases h : ti = 17
  . exact .inl h
  by_cases h' : ti = 39
  . exact .inr (.inl h')
  refine .inr (.inr ?_)
  cases hlookup : tiToValueType ti with
  | none => decide
  | some v =>
    have hmem : (ti, v) ∈ tiTable := by
      obtain ⟨before, after, hsplit, -⟩ := List.lookup_eq_some_iff.mp hlookup
      rw [hsplit]
      exact List.mem_append_right _ List.mem_cons_self
    have hothers : ∀ e ∈ tiTable, e.1 ≠ 17 → e.1 ≠ 39 → e.2 ≠ .array ∧ e.2 ≠ .row := by decide
    exact hothers _ hmem h h'

theorem ne_stuck_readTypeInfoFields (self : Prog Err (Tr σ) TypeInfo) (ti : Int) {info : TypeInfo}
    (harray : info.valueType ≠ .array) (hrow : info.valueType ≠ .row) (t : Tr σ)
    : readTypeInfoFields self ti info t ≠ .stuck := by
  have hself : readTypeInfoFields self ti info =
      readTypeInfoFields (Prog.throw (.errorf "" [])) ti info := by
    obtain ⟨valueType, precision, scale, nullable, extTypeInfo⟩ := info
    cases valueType with
    | array => exact absurd rfl harray
    | row => exact absurd rfl hrow
    | _ => rfl
  rw [hself]
  exact (progress_readTypeInfoFields (Progress.throw (Err.plain_errorf _ _)) ti info).ne_stuck
    (Nat.le_refl _)

theorem readTypeInfoFields_array_eq_stuck_iff (self : Prog Err (Tr σ) TypeInfo) (ti : Int)
    {info : TypeInfo} (harray : info.valueType = .array) (t : Tr σ)
    : readTypeInfoFields self ti info t = .stuck ↔
        ∃ (precision : Int32) (rest : List UInt8), t.inp = intBytes 4 precision.toInt ++ rest ∧
          self (Input.move (intBytes 4 precision.toInt) rest t) = .stuck := by
  unfold readTypeInfoFields
  rw [harray]
  dsimp only
  rw [readInt32_bind_eq_stuck_iff]
  apply exists_congr
  intro precision
  apply exists_congr
  intro rest
  apply and_congr_right
  intro _
  rw [Prog.bind_pure_eq_stuck_iff]
  exact Prog.mapErr_eq_stuck_iff

theorem passes_readRowField (fuel : Nat)
    : Prog.Passes (fun (_ : Nat) (_ : Unit) => (do
        let _ ← wrapErr "h2go: skipExtTypeInfo: failed to read ROW field name: %w" [] readString
        let _ ← wrapErr "h2go: skipExtTypeInfo: failed to read ROW field type: %w" []
          (readTypeInfoFuel fuel)
        pure () : Prog Err (Tr σ) Unit)) (readRowField fuel) := by
  have h := Prog.Passes.bind_pure (readRowField fuel : Prog Err (Tr σ) _) (fun (_ : Unit) _ => ())
  simpa only [readRowField, Prog.bind_assoc] using h

theorem readTypeInfoFields_row_eq_stuck_iff (fuel : Nat) (ti : Int) {info : TypeInfo}
    (hrow : info.valueType = .row) (t : Tr σ)
    : readTypeInfoFields (readTypeInfoFuel fuel) ti info t = .stuck ↔
        ∃ (count : Int32) (rest : List UInt8), t.inp = intBytes 4 count.toInt ++ rest ∧
          ∃ (fields : List (List UInt8)) (rest' : List UInt8), fields.length < count.toInt.toNat ∧
            (∀ f ∈ fields, ReadInFull (readRowField : Nat → Prog Err (Tr σ) _) f) ∧
            rest = fields.flatten ++ rest' ∧
            readRowField fuel
              (Input.move fields.flatten rest' (Input.move (intBytes 4 count.toInt) rest t)) =
                .stuck := by
  unfold readTypeInfoFields
  rw [hrow]
  dsimp only
  rw [Prog.bind_pure_eq_stuck_iff]
  unfold skipExtTypeInfo
  dsimp only
  rw [readInt32_bind_eq_stuck_iff]
  apply exists_congr
  intro count
  apply exists_congr
  intro rest
  apply and_congr_right
  intro _
  rw [Prog.iter_eq_stuck_iff readRowField_mono (passes_readRowField fuel), Input.inp_move]

/--
The recursion is deeper than `n` calls exactly when the types are nested `n` levels deep.
-/
theorem readTypeInfoFuel_eq_stuck_iff (n : Nat) (t : Tr σ)
    : readTypeInfoFuel n t = .stuck ↔ TypeNests σ n t.inp := by
  induction n generalizing t with
  | zero => exact iff_of_true rfl (.start _)
  | succ n ih =>
    unfold readTypeInfoFuel readTypeInfoWith
    rw [readInt32_bind_eq_stuck_iff]
    constructor
    . rintro ⟨ti, rest, hinp, hstuck⟩
      rcases tiToValueType_cases ti.toInt with hti | hti | ⟨harray, hrow⟩
      . rw [hti] at hinp hstuck
        obtain ⟨precision, rest', hrest, hself⟩ :=
          (readTypeInfoFields_array_eq_stuck_iff _ _ rfl _).mp hstuck
        rw [ih, inp_move] at hself
        rw [inp_move] at hrest
        rw [hinp, hrest]
        exact .array precision hself
      . rw [hti] at hinp hstuck
        obtain ⟨count, rest', hrest, fields, rest'', hlt, hfields, hrest', hfield⟩ :=
          (readTypeInfoFields_row_eq_stuck_iff _ _ rfl _).mp hstuck
        obtain ⟨name, nameBytes, b, hname, hrest'', hself⟩ := (readRowField_eq_stuck_iff _ _).mp hfield
        rw [ih, inp_move] at hself
        rw [inp_move] at hrest hrest''
        rw [hinp, hrest, hrest', hrest'']
        exact .row count fields hlt hfields hname hself
      . exact absurd hstuck (ne_stuck_readTypeInfoFields _ _ harray hrow _)
    . intro h
      generalize t.inp = b at h
      cases h with
      | array precision h =>
        refine ⟨17, _, rfl, (readTypeInfoFields_array_eq_stuck_iff _ _ rfl _).mpr
          ⟨precision, _, inp_move _ _ _, ?_⟩⟩
        rw [ih, inp_move]
        exact h
      | row count fields hlt hfields hname h =>
        refine ⟨39, _, rfl, (readTypeInfoFields_row_eq_stuck_iff _ _ rfl _).mpr
          ⟨count, _, inp_move _ _ _, fields, _, hlt, hfields, rfl,
            (readRowField_eq_stuck_iff _ _).mpr ⟨_, _, _, hname, inp_move _ _ _, ?_⟩⟩⟩
        rw [ih, inp_move]
        exact h

end TypeInfo

section Value

variable {σ : Type} [GoStd] [Peer σ]

/--
The bytes start a value that is nested `n` levels deep in a column of type `colType`: each value
around it is an `ARRAY` or a `ROW` whose elements before are complete.
-/
inductive ValueNests (σ : Type) [GoStd] [Peer σ] : Nat → Option TypeInfo → List UInt8 → Prop where
  | start (colType : Option TypeInfo) (b : List UInt8) : ValueNests σ 0 colType b
  | array {n : Nat} {colType : Option TypeInfo} {b lengthBytes : List UInt8} {length : Int}
      (hlength : Frame (readArrayLength : Prog Err (Tr σ) _) length lengthBytes)
      (elems : List (List UInt8)) (hlt : elems.length < length.toNat)
      (helems : ∀ e ∈ elems, ReadInFull
        (fun fuel => (readNestedValue fuel (colType.bind TypeInfo.extTypeInfo) : Prog Err (Tr σ) _)) e)
      (h : ValueNests σ n (colType.bind TypeInfo.extTypeInfo) b)
    : ValueNests σ (n + 1) colType
        (intBytes 4 ValueType.array.code ++ (lengthBytes ++ (elems.flatten ++ b)))
  | row {n : Nat} {colType : Option TypeInfo} {b : List UInt8} (length : Int32)
      (hcap : length.toInt ≤ maxWireCollectionElements) (elems : List (List UInt8))
      (hlt : elems.length < length.toInt.toNat)
      (helems : ∀ e ∈ elems, ReadInFull (fun fuel => (readNestedValue fuel none : Prog Err (Tr σ) _)) e)
      (h : ValueNests σ n none b)
    : ValueNests σ (n + 1) colType
        (intBytes 4 ValueType.row.code ++ (intBytes 4 length.toInt ++ (elems.flatten ++ b)))

theorem readArrayValue_eq_stuck_iff (fuel : Nat) (colType : Option TypeInfo) (t : Tr σ)
    : readArrayValue (readNestedValue fuel) colType t = .stuck ↔
        ∃ length lengthBytes rest, Frame (readArrayLength : Prog Err (Tr σ) _) length lengthBytes ∧
          t.inp = lengthBytes ++ rest ∧
          ∃ (elems : List (List UInt8)) (rest' : List UInt8), elems.length < length.toNat ∧
            (∀ e ∈ elems, ReadInFull (fun fuel =>
              (readNestedValue fuel (colType.bind TypeInfo.extTypeInfo) : Prog Err (Tr σ) _)) e) ∧
            rest = elems.flatten ++ rest' ∧
            readNestedValue fuel (colType.bind TypeInfo.extTypeInfo)
              (Input.move elems.flatten rest' (Input.move lengthBytes rest t)) = .stuck := by
  have hends (t : Tr σ) : readArrayLength t ≠ .stuck :=
    progress_readArrayLength.ne_stuck (Nat.le_refl _)
  unfold readArrayValue
  rw [Prog.bind_reader_eq_stuck_iff hends]
  apply exists_congr
  intro length
  apply exists_congr
  intro lengthBytes
  apply exists_congr
  intro rest
  apply and_congr_right
  intro hlength
  apply and_congr_right
  intro _
  have hcap := progress_readArrayLength.of_frame hlength t
  by_cases hzero : length = 0
  . rw [if_pos hzero]
    apply iff_of_false (Prog.pure_ne_stuck _ _)
    rintro ⟨elems, rest', hlt, -⟩
    omega
  . rw [if_neg hzero, Prog.make_eq hcap, Prog.pure_bind, Prog.bind_pure_eq_stuck_iff,
      Prog.iter_eq_stuck_iff (fun n => readNestedValue_mono n _)
        (Prog.Passes.mapErr_bind_pure (readNestedValue fuel _) _ _), Input.inp_move]

theorem readRowValue_eq_stuck_iff (fuel : Nat) (t : Tr σ)
    : readRowValue (readNestedValue fuel) t = .stuck ↔
        ∃ (length : Int32) (rest : List UInt8), t.inp = intBytes 4 length.toInt ++ rest ∧
          length.toInt ≤ maxWireCollectionElements ∧
          ∃ (elems : List (List UInt8)) (rest' : List UInt8), elems.length < length.toInt.toNat ∧
            (∀ e ∈ elems, ReadInFull
              (fun fuel => (readNestedValue fuel none : Prog Err (Tr σ) _)) e) ∧
            rest = elems.flatten ++ rest' ∧
            readNestedValue fuel none
              (Input.move elems.flatten rest' (Input.move (intBytes 4 length.toInt) rest t)) =
                .stuck := by
  unfold readRowValue
  rw [readInt32_bind_eq_stuck_iff]
  apply exists_congr
  intro length
  apply exists_congr
  intro rest
  apply and_congr_right
  intro _
  by_cases hneg : length.toInt < 0
  . rw [if_pos hneg]
    apply iff_of_false (by simp)
    rintro ⟨-, elems, rest', hlt, -⟩
    omega
  rw [if_neg hneg]
  by_cases hcap : length.toInt > maxWireCollectionElements
  . rw [if_pos hcap]
    apply iff_of_false (by simp)
    rintro ⟨hle, -⟩
    omega
  . rw [if_neg hcap, Prog.make_eq (by omega), Prog.pure_bind, Prog.bind_pure_eq_stuck_iff,
      Prog.iter_eq_stuck_iff (fun n => readNestedValue_mono n _)
        (Prog.Passes.mapErr_bind_pure (readNestedValue fuel _) _ _), Input.inp_move]
    exact (and_iff_right (by omega)).symm

section Nested

variable (nested : Option TypeInfo → Prog Err (Tr σ) Value) (colType : Option TypeInfo)
  (lc : Option LobCollector)

theorem readTypedValue_array
    : readTypedValue nested colType lc .array =
        (readArrayValue nested colType >>= fun v => pure (v, lc)) := rfl

theorem readTypedValue_row
    : readTypedValue nested colType lc .row = (readRowValue nested >>= fun v => pure (v, lc)) := rfl

end Nested

theorem readValueWith_eq_stuck_iff {n : Nat} {lc : Option LobCollector}
    (hlob : ∀ typeCode, typeCode = .blob ∨ typeCode = .clob →
      ∀ t : Tr σ, readLOBValue typeCode lc t ≠ .stuck)
    (hnested : ∀ colType (t : Tr σ),
      readNestedValue n colType t = .stuck ↔ ValueNests σ n colType t.inp)
    (colType : Option TypeInfo) (t : Tr σ)
    : readValueWith (readNestedValue n) colType lc t = .stuck ↔
        ValueNests σ (n + 1) colType t.inp := by
  unfold readValueWith
  rw [readInt32_bind_eq_stuck_iff]
  constructor
  . rintro ⟨typeCode, rest, hinp, hstuck⟩
    have hcode := ValueType.code_ofCode typeCode.toInt
    revert hstuck hcode
    generalize ValueType.ofCode typeCode.toInt = v
    intro hstuck hcode
    unfold readTypedValue at hstuck
    split at hstuck
    . next h => exact absurd hstuck (hlob v h _)
    split at hstuck
    . next h =>
      rw [Prog.bind_pure_eq_stuck_iff, readArrayValue_eq_stuck_iff] at hstuck
      obtain ⟨length, lengthBytes, rest', hlength, hrest, elems, b, hlt, helems, hrest', hb⟩ := hstuck
      rw [hnested, inp_move] at hb
      rw [inp_move] at hrest
      rw [hinp, ← hcode, h, hrest, hrest']
      exact .array hlength elems hlt helems hb
    split at hstuck
    . next h =>
      rw [Prog.bind_pure_eq_stuck_iff, readRowValue_eq_stuck_iff] at hstuck
      obtain ⟨length, rest', hrest, hcap, elems, b, hlt, helems, hrest', hb⟩ := hstuck
      rw [hnested, inp_move] at hb
      rw [inp_move] at hrest
      rw [hinp, ← hcode, h, hrest, hrest']
      exact .row length hcap elems hlt helems hb
    . rw [Prog.bind_pure_eq_stuck_iff] at hstuck
      exact absurd hstuck ((progress_readScalarValue v).ne_stuck (Nat.le_refl _))
  . intro h
    generalize t.inp = b at h
    cases h with
    | array hlength elems hlt helems h =>
      refine ⟨17, _, rfl, ?_⟩
      rw [show Int32.toInt 17 = ValueType.array.code from rfl, ValueType.ofCode_code (by decide),
        readTypedValue_array, Prog.bind_pure_eq_stuck_iff, readArrayValue_eq_stuck_iff]
      refine ⟨_, _, _, hlength, inp_move _ _ _, elems, _, hlt, helems, rfl, ?_⟩
      rw [hnested, inp_move]
      exact h
    | row length hcap elems hlt helems h =>
      refine ⟨27, _, rfl, ?_⟩
      rw [show Int32.toInt 27 = ValueType.row.code from rfl, ValueType.ofCode_code (by decide),
        readTypedValue_row, Prog.bind_pure_eq_stuck_iff, readRowValue_eq_stuck_iff]
      refine ⟨length, _, inp_move _ _ _, hcap, elems, _, hlt, helems, rfl, ?_⟩
      rw [hnested, inp_move]
      exact h

theorem readNestedValue_eq_stuck_iff (n : Nat) (colType : Option TypeInfo) (t : Tr σ)
    : readNestedValue n colType t = .stuck ↔ ValueNests σ n colType t.inp := by
  induction n generalizing colType t with
  | zero => exact iff_of_true rfl (.start _ _)
  | succ n ih =>
    unfold readNestedValue
    rw [Prog.bind_pure_eq_stuck_iff]
    apply readValueWith_eq_stuck_iff _ ih
    intro typeCode h t
    exact (progress_collectLOBValue nestedLOBs typeCode h).ne_stuck (Nat.le_refl _)

end Value

section Depth

variable {σ : Type}

/--
On this stream `ReadTypeInfo` is within itself at most `n` calls deep: it returns the same when it is
cut off there.
-/
def TypeInfoDepthLe (n : Nat) (t : Tr σ) : Prop := readTypeInfoFuel n t = readTypeInfo t

/--
On this stream `readValueInternal` makes calls of itself that are at most `n` deep.
-/
def ValueDepthLe [GoStd] [Peer σ] (n : Nat) (colType : Option TypeInfo) (lc : Option LobCollector)
    (t : Tr σ) : Prop :=
  readValueWith (readNestedValue n) colType lc t = readValueInternal colType lc t

theorem typeInfoDepthLe_iff (n : Nat) (t : Tr σ) : TypeInfoDepthLe n t ↔ ¬ TypeNests σ n t.inp := by
  have hends : readTypeInfo t ≠ .stuck := progress_readTypeInfo.ne_stuck (Nat.le_refl _)
  rw [← readTypeInfoFuel_eq_stuck_iff]
  constructor
  . intro h hstuck
    exact hends (h.symm.trans hstuck)
  . intro h
    exact Prog.eq_of_le_succ readTypeInfoFuel_mono h hends

theorem valueDepthLe_iff [GoStd] [Peer σ] (n : Nat) (colType : Option TypeInfo)
    {lc : Option LobCollector}
    (hlob : ∀ N typeCode, typeCode = .blob ∨ typeCode = .clob →
      Progress N (readLOBValue typeCode lc : Prog Err (Tr σ) _) 0 (fun _ => True) Err.Plain)
    (t : Tr σ)
    : ValueDepthLe n colType lc t ↔ ¬ ValueNests σ (n + 1) colType t.inp := by
  have hends : readValueInternal colType lc t ≠ .stuck :=
    (progress_readValueWith hlob (fun _ _ => True.intro) (Nat.le_refl _) colType).ne_stuck
      (Nat.le_refl _)
  rw [← readValueWith_eq_stuck_iff (fun typeCode h t => (hlob _ typeCode h).ne_stuck (Nat.le_refl _))
    (readNestedValue_eq_stuck_iff n) colType t]
  constructor
  . intro h hstuck
    exact hends (h.symm.trans hstuck)
  . intro h
    exact Prog.eq_of_le_succ (m := fun n => readValueWith (readNestedValue n) colType lc)
      (fun n => readValueWith_mono (readNestedValue_mono n) colType lc) h hends

/--
How deep the decoder recurses is how deep the stream nests: on the reading of types, on the reading
of a value of a row, and on that of a value whose LOBs are fetched immediately.
-/
theorem decoding_depth_iff [GoStd] [Peer σ] (n : Nat)
    : (∀ t : Tr σ, TypeInfoDepthLe n t ↔ ¬ TypeNests σ n t.inp) ∧
      (∀ colType c (t : Tr σ),
        ValueDepthLe n colType (some c) t ↔ ¬ ValueNests σ (n + 1) colType t.inp) ∧
      (∀ colType (t : Tr Silent),
        ValueDepthLe n colType none t ↔ ¬ ValueNests Silent (n + 1) colType t.inp) := by
  refine ⟨typeInfoDepthLe_iff n, ?_, ?_⟩
  . intro colType c t
    exact valueDepthLe_iff n colType (fun _ typeCode h => (progress_collectLOBValue c typeCode h).drop) t
  . intro colType t
    exact valueDepthLe_iff n colType (fun _ _ h => progress_fetchLOBValue h) t

theorem typeNests_arrays (n : Nat)
    : TypeNests σ n (List.replicate n (intBytes 4 17 ++ intBytes 4 0)).flatten := by
  induction n with
  | zero => exact .start _
  | succ n ih =>
    rw [List.replicate_succ, List.flatten_cons, List.append_assoc]
    exact .array 0 ih

theorem frame_readArrayLength_one
    : Frame (readArrayLength : Prog Err (Tr σ) _) 1 (intBytes 4 1) := by
  apply (frame_readInt32 (by decide) (by decide)).mapErr.bind_nil
  exact Frame.pure

theorem valueNests_arrays [GoStd] [Peer σ] (n : Nat) (colType : Option TypeInfo)
    : ValueNests σ n colType
        (List.replicate n (intBytes 4 ValueType.array.code ++ intBytes 4 1)).flatten := by
  induction n generalizing colType with
  | zero => exact .start _ _
  | succ n ih =>
    rw [List.replicate_succ, List.flatten_cons, List.append_assoc]
    exact .array frame_readArrayLength_one [] Nat.zero_lt_one (fun _ h => nomatch h) (ih _)

open StandIn in
/--
`ARRAY` in `ARRAY`, with eight bytes a level: no depth is enough for all streams.
-/
theorem decoding_depth_unbounded
    : (¬ ∃ n, ∀ t : Tr Silent, TypeInfoDepthLe n t) ∧
      ¬ ∃ n, ∀ colType lc (t : Tr Silent), ValueDepthLe n colType lc t := by
  constructor
  . rintro ⟨n, h⟩
    exact (typeInfoDepthLe_iff n _).mp (h (Tr.ofBytes _)) (typeNests_arrays n)
  . rintro ⟨n, h⟩
    exact (valueDepthLe_iff n none (fun _ _ h => progress_fetchLOBValue h) _).mp
      (h none none (Tr.ofBytes _)) (valueNests_arrays (n + 1) none)

end Depth

end Tr

end H2Go
