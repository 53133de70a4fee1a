import H2Go.Value.Write
import H2Go.Value.Frames

/-!
This module contains the round trip of parameter values: what the encoder writes the decoder reads
back.
-/

namespace H2Go

open BigEndian Utf8 Digits

/--
The values the round trip is about: all supported ones that are not temporal, within the wire caps.
-/
def Value.Portable (v : Value) : Prop :=
  match v with
  | .nil | .bool _ | .int64 _ | .float64 _ => True
  | .string s => Valid s ∧ (utf16Encode s).length ≤ 2 ^ 28
  | .bytes b => ∀ bs, b = some bs → bs.length ≤ 2 ^ 29
  | .time _ | .lob _ | .other _ => False

/--
The combinations that have no round trip: floats that are written as `REAL` or as a text, and texts
that are no number or no UUID.
-/
def Value.Lossy (v : Value) (paramType : Option TypeInfo) : Prop :=
  match v with
  | .float64 _ =>
    paramValueType paramType = some .real ∨ paramValueType paramType = some .numeric
      ∨ paramValueType paramType = some .decfloat
  | .string s =>
    (paramValueType paramType = some .decfloat ∧ ∀ d, parseDecFloat s ≠ .ok d)
      ∨ (paramValueType paramType = some .uuid ∧ uuidDigits s = none)
  | _ => False

/--
What is read back: a nil slice becomes `NULL`, an integer written as a text stays a text, and a UUID
gets its lower-case hyphenated form.
-/
def Value.normalise (v : Value) (paramType : Option TypeInfo) : Value :=
  match v with
  | .bytes none => .nil
  | .int64 n => if Tr.isDecimalParam paramType then .string (formatInt n.toInt) else v
  | .string s =>
    if paramValueType paramType = some .uuid then
      .string (hyphenate (((uuidDigits s).getD s).map lower))
    else
      v
  | v => v

namespace Tr

variable {σ ρ : Type} [GoStd]

section Read

variable [Peer σ]

/--
A type code that is neither that of a LOB nor that of a container.
-/
def IsScalar (t : ValueType) : Prop :=
  t ∈ ValueType.named ∧ t ≠ .blob ∧ t ≠ .clob ∧ t ≠ .array ∧ t ≠ .row

instance (t : ValueType) : Decidable (IsScalar t) := inferInstanceAs (Decidable (_ ∧ _))

theorem frame_readValue_scalar {t : ValueType} {v : Value} {bs : List UInt8} (ht : IsScalar t)
    (h : Frame (readScalarValue t : Prog Err (Tr σ) _) v bs) (colType : Option TypeInfo)
    : Frame (readValue colType : Prog Err (Tr σ) _) v (intBytes 4 t.code ++ bs) := by
  obtain ⟨hnamed, hblob, hclob, harray, hrow⟩ := ht
  have hcode : ∀ t ∈ ValueType.named, -2 ^ 31 ≤ t.code ∧ t.code < 2 ^ 31 := by decide
  have hrange := hcode t hnamed
  -- no level below is entered, so the bound on the depth does not matter
  have hbody : ∀ fuel, Frame (readValueWith (readNestedValue fuel) colType none : Prog Err (Tr σ) _)
      (v, none) (intBytes 4 t.code ++ bs) := by
    intro fuel
    apply (frame_readInt32 hrange.1 hrange.2).mapErr.bind
    rw [ValueType.ofCode_code hnamed]
    unfold readTypedValue
    rw [if_neg (by simp [hblob, hclob]), if_neg harray, if_neg hrow]
    exact h.bind_nil Frame.pure
  have hinternal : Frame (readValueInternal colType none : Prog Err (Tr σ) _) (v, none)
      (intBytes 4 t.code ++ bs) := by
    constructor
    . intro s rest hs
      exact (hbody _).exact s rest hs
    . intro s suf hs hsuf
      exact (hbody _).short s suf hs hsuf
  exact hinternal.bind_nil Frame.pure

theorem readValue_scalar_run {t : ValueType} (ht : IsScalar t) (colType : Option TypeInfo)
    {s : Tr σ} {rest : List UInt8} (hinp : s.inp = intBytes 4 t.code ++ rest)
    : readValue colType s = readScalarValue t (Input.move (intBytes 4 t.code) rest s) := by
  obtain ⟨hnamed, hblob, hclob, harray, hrow⟩ := ht
  have hcode : ∀ t ∈ ValueType.named, -2 ^ 31 ≤ t.code ∧ t.code < 2 ^ 31 := by decide
  have hrange := hcode t hnamed
  have hframe : Frame (wrapErr "h2go: ReadValue: failed to read type code: %w" [] readInt32 :
      Prog Err (Tr σ) _) t.code (intBytes 4 t.code) := (frame_readInt32 hrange.1 hrange.2).mapErr
  have hinternal : readValueInternal colType none s
      = (readScalarValue t >>= fun v => pure (v, none)) (Input.move (intBytes 4 t.code) rest s) := by
    show readValueWith (readNestedValue s.inp.length) colType none s = _
    unfold readValueWith
    rw [Prog.bind_of_ok (hframe.exact s rest hinp), ValueType.ofCode_code hnamed]
    unfold readTypedValue
    rw [if_neg (by simp [hblob, hclob]), if_neg harray, if_neg hrow]
  unfold readValue
  rw [Prog.bind_run, hinternal, Prog.bind_run]
  cases readScalarValue t (Input.move (intBytes 4 t.code) rest s) <;> rfl

omit [GoStd] [Peer σ] in
theorem frame_readStringValue {s : GoString} (hs : Valid s) (hlen : (utf16Encode s).length ≤ 2 ^ 28)
    : Frame (readStringValue : Prog Err (Tr σ) _) (.string s) (unitsFrame (utf16Encode s)) :=
  (frame_readString hs hlen).mapErr.bind_nil Frame.pure

omit [GoStd] [Peer σ] in
theorem frame_readDecfloatValue {s : GoString} (hs : Valid s)
    (hlen : (utf16Encode s).length ≤ 2 ^ 28) {d : DecFloat} (hd : parseDecFloat s = .ok d)
    : Frame (readDecfloatValue : Prog Err (Tr σ) _) (.string s) (unitsFrame (utf16Encode s)) := by
  apply (frame_readStringValue hs hlen).bind_nil
  dsimp only
  rw [hd]
  exact Frame.pure

end Read

/--
`m` writes a frame that is read back as `v`.
-/
def Encodes [Peer ρ] (m : Prog Err (Tr σ) Unit) (v : Value) : Prop :=
  ∃ bs, Writes m () bs ∧ ∀ colType, Frame (readValue colType : Prog Err (Tr ρ) _) v bs

variable [Peer ρ]

theorem encodes_null
    : Encodes (ρ := ρ) (writeInt32 ValueType.null.code : Prog Err (Tr σ) Unit) .nil := by
  refine ⟨_, writes_writeInt32 _, ?_⟩
  intro colType
  have := frame_readValue_scalar (σ := ρ) (t := .null) (by decide) Frame.pure colType
  rwa [List.append_nil] at this

theorem encodes_typed {t : ValueType} {v : Value} {bs : List UInt8} {m : Prog Err (Tr σ) Unit}
    (ht : IsScalar t) (hm : Writes m () bs)
    (hread : Frame (readScalarValue t : Prog Err (Tr ρ) _) v bs) (format format' : String)
    : Encodes (ρ := ρ) (wrapErr format [] (writeInt32 t.code) >>= fun _ => wrapErr format' [] m)
        v := by
  refine ⟨intBytes 4 t.code ++ bs, ?_, ?_⟩
  . exact (writes_wrapErr _ _ (writes_writeInt32 _)).bind (writes_wrapErr _ _ hm)
  . intro colType
    exact frame_readValue_scalar ht hread colType

theorem encodes_string {s : GoString} (hs : Valid s) (hlen : (utf16Encode s).length ≤ 2 ^ 28)
    (paramType : Option TypeInfo) (huuid : paramValueType paramType ≠ some .uuid)
    (hdec : paramValueType paramType = some .decfloat → ∃ d, parseDecFloat s = .ok d)
    : Encodes (ρ := ρ) (writeStringValue s paramType : Prog Err (Tr σ) Unit) (.string s) := by
  unfold writeStringValue
  rw [if_neg huuid]
  have hplain := frame_readStringValue (σ := ρ) hs hlen
  have hwrite := writes_writeString (σ := σ) s
  unfold stringValueType
  split
  . exact encodes_typed (t := .numeric) (by decide) hwrite
      ((frame_readString hs hlen).mapErr.bind_nil Frame.pure) _ _
  . next hparam =>
    obtain ⟨d, hd⟩ := hdec hparam
    exact encodes_typed (t := .decfloat) (by decide) hwrite (frame_readDecfloatValue hs hlen hd) _ _
  . exact encodes_typed (t := .char) (by decide) hwrite hplain _ _
  . exact encodes_typed (t := .varcharIgnoreCase) (by decide) hwrite hplain _ _
  . exact encodes_typed (t := .varchar) (by decide) hwrite hplain _ _

theorem encodes_uuid {s : GoString} (hs : uuidDigits s ≠ none) (paramType : Option TypeInfo)
    (huuid : paramValueType paramType = some .uuid)
    : Encodes (ρ := ρ) (writeStringValue s paramType : Prog Err (Tr σ) Unit)
        (.string (hyphenate (((uuidDigits s).getD s).map lower))) := by
  unfold uuidDigits at hs ⊢
  dsimp only at hs ⊢
  split at hs
  . next h =>
    rw [if_pos h, Option.getD_some]
    obtain ⟨high, low, hparse, h1, h2, h3, h4, hformat⟩ :=
      parseUUIDString_canonical h.1 (List.all_eq_true.mp h.2.1) h.2.2
    unfold writeStringValue
    rw [if_pos huuid]
    unfold writeUUIDValue
    rw [hparse]
    refine ⟨intBytes 4 ValueType.uuid.code ++ (intBytes 8 high ++ intBytes 8 low), ?_, ?_⟩
    . show Writes (pure (high, low) >>= _) _ _
      rw [Prog.pure_bind]
      apply Writes.bind (writes_wrapErr _ _ (writes_writeInt32 _))
      apply Writes.bind (writes_wrapErr _ _ (writes_writeInt64 _))
      exact writes_wrapErr _ _ (writes_writeInt64 _)
    . intro colType
      apply frame_readValue_scalar (t := .uuid) (by decide)
      apply (frame_readInt64 h1 h2).mapErr.bind
      apply (frame_readInt64 h3 h4).mapErr.bind_nil
      rw [hformat]
      exact Frame.pure
  . exact absurd rfl hs

theorem encodes_writeValue {v : Value} {paramType : Option TypeInfo} (hv : v.Portable)
    (hlossy : ¬ v.Lossy paramType)
    : Encodes (ρ := ρ) (writeValue v paramType : Prog Err (Tr σ) Unit) (v.normalise paramType) := by
  cases v with
  | nil => exact encodes_null
  | bool x =>
    exact encodes_typed (t := .boolean) (by decide) (writes_writeBool x)
      ((frame_readBool x).mapErr.bind_nil Frame.pure) _ _
  | int64 n =>
    unfold writeValue Value.normalise
    dsimp only
    have h1 := Int64.le_toInt n
    have h2 := Int64.toInt_lt n
    split
    . next hdec =>
      have hascii : ∀ b ∈ formatInt n.toInt, b.toNat < 0x80 := fun b hb => formatInt_ascii hb
      have hlen : (utf16Encode (formatInt n.toInt)).length ≤ 2 ^ 28 := by
        have := length_formatInt_le (x := n.toInt) (by omega)
        rw [utf16Encode_of_isASCII (by simpa [isASCII] using hascii), List.length_map]
        omega
      apply encodes_string (valid_of_ascii hascii) hlen
      . intro huuid
        simp [isDecimalParam, huuid] at hdec
      . intro _
        exact parseDecFloat_formatInt _
    . apply encodes_typed (t := .bigint) (by decide) (writes_writeInt64 _)
      apply (frame_readInt64 (by omega) (by omega)).mapErr.bind_nil
      rw [Int64.ofInt_toInt]
      exact Frame.pure
  | float64 x =>
    simp only [Value.Lossy, not_or] at hlossy
    unfold writeValue Value.normalise
    dsimp only
    rw [if_neg (by simp [isDecimalParam, hlossy]), if_neg hlossy.1]
    exact encodes_typed (t := .double) (by decide) (writes_writeFloat64 x)
      ((frame_readFloat64 x).mapErr.bind_nil Frame.pure) _ _
  | string s =>
    simp only [Value.Lossy, not_or, not_and, not_forall, not_not] at hlossy
    unfold writeValue Value.normalise
    dsimp only
    split
    . next huuid => exact encodes_uuid (hlossy.2 huuid) paramType huuid
    . next huuid => exact encodes_string hv.1 hv.2 paramType huuid hlossy.1
  | bytes b =>
    cases b with
    | none => exact encodes_null
    | some b =>
      have hread := frame_readBytes (σ := ρ) (b := some b) hv
      unfold writeValue
      dsimp only
      split
      . exact encodes_typed (t := .binary) (by decide) (writes_writeBytes _)
          (hread.mapErr.bind_nil Frame.pure) _ _
      . exact encodes_typed (t := .varbinary) (by decide) (writes_writeBytes _)
          (hread.mapErr.bind_nil Frame.pure) _ _
  | time | lob | other => exact absurd hv id

theorem readValue_writeValue (v : Value) (paramType : Option TypeInfo) (hv : v.Portable)
    (hlossy : ¬ v.Lossy paramType) {w w' : Tr σ} (hwrite : writeValue v paramType w = .ok () w')
    : ∃ bs, w'.written = w.written ++ bs ∧
        ∀ (colType : Option TypeInfo) (t : Tr ρ) (suffix : List UInt8), t.inp = bs ++ suffix →
          readValue colType t
            = .ok (v.normalise paramType) { t with inp := suffix, past := t.past ++ bs } := by
  obtain ⟨bs, hbs, hread⟩ := encodes_writeValue (σ := σ) (ρ := ρ) hv hlossy
  refine ⟨bs, hbs.written_of_ok hwrite, ?_⟩
  intro colType t suffix ht
  exact (hread colType).exact t suffix ht

end Tr

section

open StandIn

theorem Tr.readValue_writeValue_bytes
    : ∃ bs, (((Tr.ofBytes []).accept (intBytes 4 12)).accept (bytesFrame (some [1]))).written
          = (Tr.ofBytes []).written ++ bs ∧
        ∀ (colType : Option TypeInfo) (t : Tr Silent) (suffix : List UInt8), t.inp = bs ++ suffix →
          Tr.readValue colType t
            = .ok (.bytes (some [1])) { t with inp := suffix, past := t.past ++ bs } :=
  Tr.readValue_writeValue (.bytes (some [1])) none (by simp [Value.Portable]) (by simp [Value.Lossy])
    rfl

end

end H2Go
