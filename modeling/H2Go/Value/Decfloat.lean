import H2Go.Value.RoundTrip
import H2Go.Text.DecFloat

/-!
This module contains numbers that are bound to DECFLOAT parameters: their text on the wire, and that
the decoder takes it for the same number.
-/

namespace H2Go

open BigEndian Digits Utf8

namespace Float64

def magnitude (bits : UInt64) : Nat := bits.toNat % 2 ^ 63

/--
The magnitude of the infinities, the larger ones are not a number.
-/
def infinity : Nat := 0x7FF0000000000000

def isNegative (bits : UInt64) : Bool := 2 ^ 63 ≤ bits.toNat

def isFinite (bits : UInt64) : Bool := magnitude bits < infinity

def isInf (bits : UInt64) : Bool := magnitude bits = infinity

def isNaN (bits : UInt64) : Bool := infinity < magnitude bits

end Float64

/--
What is assumed of `strconv.FormatFloat` with the format `g` and precision `-1`: a finite float has
the text of a number with an exponent of at most three digits, and the others have their names.
-/
structure LawfulFormatFloat [GoStd] : Prop where
  finite : ∀ {bits : UInt64}, Float64.isFinite bits → ∃ l : DecLiteral,
    GoStd.formatFloat bits = l.text ∧ l.expLength ≤ 3 ∧ l.text.length ≤ 24
  posInf : ∀ {bits : UInt64}, Float64.isInf bits → Float64.isNegative bits = false →
    GoStd.formatFloat bits = ascii "+Inf"
  negInf : ∀ {bits : UInt64}, Float64.isInf bits → Float64.isNegative bits = true →
    GoStd.formatFloat bits = ascii "-Inf"
  nan : ∀ {bits : UInt64}, Float64.isNaN bits → GoStd.formatFloat bits = ascii "NaN"

inductive Number where
  | int64 (n : Int64)
  | float64 (bits : UInt64)

namespace Number

def toValue : Number → Value
  | int64 n => .int64 n
  | float64 bits => .float64 bits

def IsInfinite : Number → Prop
  | int64 _ => False
  | float64 bits => Float64.isInf bits

variable [GoStd]

def text : Number → GoString
  | int64 n => formatInt n.toInt
  | float64 bits => GoStd.formatFloat bits

/--
The DECFLOAT number `d` is the same value: the integer, the number that the text of the float
denotes, or the special value.
-/
def Denotes (x : Number) (d : DecFloat) : Prop :=
  match x with
  | int64 n => d.value? = some (n.toInt : ℚ)
  | float64 bits =>
    if Float64.isFinite bits then
      ∃ l : DecLiteral, GoStd.formatFloat bits = l.text ∧ d.value? = some l.value
    else if Float64.isNaN bits then
      d = .nan
    else if Float64.isNegative bits then
      d = .negInf
    else
      d = .posInf

end Number

def decfloatFrame (s : GoString) : List UInt8 :=
  intBytes 4 ValueType.decfloat.code ++ Tr.unitsFrame (utf16Encode s)

namespace DecLiteral

theorem text_ascii {l : DecLiteral} {b : UInt8} (h : b ∈ l.text) : b.toNat < 0x80 := by
  rcases mem_text h with h | h
  . simp only [isDecimal, Bool.and_eq_true, decide_eq_true_eq] at h
    omega
  . have hsmall : ∀ b ∈ [plusByte, minusByte, dotByte, 101, 69], b.toNat < 0x80 := by decide +kernel
    exact hsmall b h

theorem parseDecFloat_of_short {l : DecLiteral} (hexp : l.expLength ≤ 3) (hlen : l.text.length ≤ 24)
    : parseDecFloat l.text = .ok (.finite l.unscaled l.scale) := by
  have hfrac : l.fracDigits.length ≤ 24 := by
    refine Nat.le_trans ?_ hlen
    unfold text fracDigits
    cases l.fraction with
    | none => simp
    | some ds =>
      simp only [fractionText, List.length_append, List.length_cons, Option.getD_some]
      omega
  have hvalue : l.exp.natAbs < 10 ^ 3 := by
    unfold expLength at hexp
    unfold exp
    cases he : l.exponent with
    | none => decide
    | some e =>
      rw [he] at hexp
      have hlt := textValue_lt_of_isDecimal e.all_decimal
      have hle : 10 ^ e.digits.length ≤ 10 ^ 3 := Nat.pow_le_pow_right (by decide) hexp
      show (if e.sign.isMinus then -(textValue 10 e.digits : Int) else textValue 10 e.digits).natAbs
        < 10 ^ 3
      split <;> omega
  have hfits : l.Fits := by
    unfold Fits scale
    omega
  rw [l.parseDecFloat_text, if_neg (by omega), if_pos hfits]

end DecLiteral

theorem literal_formatInt {x : Int} (h : x.natAbs < 10 ^ 20)
    : ∃ l : DecLiteral, formatInt x = l.text ∧ l.expLength ≤ 3 ∧ l.text.length ≤ 24 ∧ l.value = x := by
  obtain ⟨l, htext, hunscaled, hscale, hexp⟩ := literal_plainText (signOf x) x.natAbs 0
  rw [plainText_zero (decimal_ne_nil _), signOf_text] at htext
  have hformat : formatInt x = l.text := by
    rw [htext]
    unfold formatInt
    split <;> rfl
  have hlen := length_formatInt_le h
  refine ⟨l, hformat, by omega, by rw [← hformat]; omega, ?_⟩
  have hvalue := l.value_eq
  rw [hunscaled, signOf_apply, hscale] at hvalue
  simpa [DecFloat.value?] using hvalue.symm

namespace Tr

variable {σ : Type} [GoStd] [Peer σ]

/--
The number is carried by the bytes that were written between `w` and `w'`: they are a DECFLOAT frame
whose text is accepted for the same number, and `ReadValue` accepts the frame.
-/
def Carries (x : Number) (w w' : Tr σ) : Prop :=
  ∃ s d, w'.written = w.written ++ decfloatFrame s ∧ parseDecFloat s = .ok d ∧ x.Denotes d ∧
    ∀ colType, Frame (readValue colType : Prog Err (Tr σ) _) (.string s) (decfloatFrame s)

omit [Peer σ] in
theorem writes_number (x : Number) {paramType : TypeInfo} (h : paramType.valueType = .decfloat)
    : Writes (writeValue x.toValue (some paramType) : Prog Err (Tr σ) _) () (decfloatFrame x.text) := by
  have hdec : isDecimalParam (some paramType) := by simp [isDecimalParam, paramValueType, h]
  have hwrite : (writeValue x.toValue (some paramType) : Prog Err (Tr σ) _)
      = writeStringValue x.text (some paramType) := by
    cases x with
    | int64 n =>
      unfold Number.toValue writeValue
      dsimp only
      rw [if_pos hdec]
      rfl
    | float64 bits =>
      unfold Number.toValue writeValue
      dsimp only
      rw [if_pos hdec]
      rfl
  rw [hwrite]
  unfold writeStringValue
  rw [if_neg (by simp [paramValueType, h])]
  have htype : stringValueType (some paramType) = .decfloat := by
    simp [stringValueType, paramValueType, h]
  rw [htype]
  exact (writes_wrapErr _ _ (writes_writeInt32 _)).bind (writes_wrapErr _ _ (writes_writeString _))

theorem frame_decfloat {s : GoString} (hascii : ∀ b ∈ s, b.toNat < 0x80) (hlen : s.length ≤ 24)
    {d : DecFloat} (hd : parseDecFloat s = .ok d) (colType : Option TypeInfo)
    : Frame (readValue colType : Prog Err (Tr σ) _) (.string s) (decfloatFrame s) := by
  apply frame_readValue_scalar (by decide)
  apply frame_readDecfloatValue (valid_of_ascii hascii) _ hd
  rw [utf16Encode_of_isASCII (by simpa [isASCII] using hascii), List.length_map]
  omega

theorem readValue_decfloat_fails {s : GoString} (hascii : ∀ b ∈ s, b.toNat < 0x80)
    (hlen : s.length ≤ 24) {e : Err} (he : parseDecFloat s = .error e) (colType : Option TypeInfo)
    {t : Tr σ} {rest : List UInt8} (hinp : t.inp = decfloatFrame s ++ rest)
    : ∃ e' t', readValue colType t = .fail e' t' := by
  have hunits : (utf16Encode s).length ≤ 2 ^ 28 := by
    rw [utf16Encode_of_isASCII (by simpa [isASCII] using hascii), List.length_map]
    omega
  have hstring := frame_readStringValue (σ := σ) (valid_of_ascii hascii) hunits
  unfold decfloatFrame at hinp
  rw [List.append_assoc] at hinp
  rw [readValue_scalar_run (by decide) colType hinp]
  unfold readScalarValue readDecfloatValue
  dsimp only
  rw [Prog.bind_of_ok (hstring.exact _ rest rfl)]
  dsimp only
  rw [he]
  exact ⟨_, _, rfl⟩

theorem carries_of_literal {x : Number} {w w' : Tr σ} {l : DecLiteral}
    (hwritten : w'.written = w.written ++ decfloatFrame x.text) (htext : x.text = l.text)
    (hexp : l.expLength ≤ 3) (hlen : l.text.length ≤ 24)
    (hdenotes : x.Denotes (.finite l.unscaled l.scale))
    : Carries x w w' := by
  have hparse := DecLiteral.parseDecFloat_of_short hexp hlen
  rw [htext] at hwritten
  exact ⟨l.text, _, hwritten, hparse, hdenotes,
    frame_decfloat (fun b hb => DecLiteral.text_ascii hb) hlen hparse⟩

theorem not_carries_of_error {x : Number} {w w' : Tr σ}
    (hwritten : w'.written = w.written ++ decfloatFrame x.text)
    (hascii : ∀ b ∈ x.text, b.toNat < 0x80) (hlen : x.text.length ≤ 24) {e : Err}
    (he : parseDecFloat x.text = .error e)
    : ¬ Carries x w w' := by
  rintro ⟨s, d, hwritten', -, -, hframe⟩
  rw [hwritten] at hwritten'
  have hbytes : decfloatFrame x.text = decfloatFrame s := List.append_cancel_left hwritten'
  have hinp : (Input.move [] (decfloatFrame x.text) w).inp = decfloatFrame x.text ++ [] :=
    (List.append_nil _).symm
  obtain ⟨e', t', hfail⟩ := readValue_decfloat_fails hascii hlen he none hinp
  have hread := hframe none
  rw [← hbytes] at hread
  exact Frame.not_of_fail hfail hinp hread

/--
The numbers that are carried are all but the infinities.
-/
theorem decfloat_carried_iff (hstd : LawfulFormatFloat) (x : Number) (paramType : TypeInfo)
    (hparam : paramType.valueType = .decfloat) {w w' : Tr σ}
    (hwrite : writeValue x.toValue (some paramType) w = .ok () w')
    : Carries x w w' ↔ ¬ x.IsInfinite := by
  have hwritten := (writes_number x hparam).written_of_ok hwrite
  cases x with
  | int64 n =>
    refine iff_of_true ?_ id
    have h1 := Int64.le_toInt n
    have h2 := Int64.toInt_lt n
    obtain ⟨l, htext, hexp, hlen, hvalue⟩ := literal_formatInt (x := n.toInt) (by omega)
    refine carries_of_literal hwritten htext hexp hlen ?_
    show DecFloat.value? _ = _
    rw [l.value_eq, hvalue]
  | float64 bits =>
    by_cases hfinite : Float64.isFinite bits
    . have hinf : ¬ (Number.float64 bits).IsInfinite := by
        simp only [Number.IsInfinite, Float64.isFinite, Float64.isInf, decide_eq_true_eq] at hfinite ⊢
        omega
      obtain ⟨l, htext, hexp, hlen⟩ := hstd.finite hfinite
      refine iff_of_true (carries_of_literal hwritten htext hexp hlen ?_) hinf
      show if _ then _ else _
      rw [if_pos hfinite]
      exact ⟨l, htext, l.value_eq⟩
    by_cases hnan : Float64.isNaN bits
    . have hinf : ¬ (Number.float64 bits).IsInfinite := by
        simp only [Number.IsInfinite, Float64.isNaN, Float64.isInf, decide_eq_true_eq] at hnan ⊢
        omega
      have htext : (Number.float64 bits).text = ascii "NaN" := hstd.nan hnan
      rw [htext] at hwritten
      refine iff_of_true ⟨ascii "NaN", .nan, hwritten, rfl, ?_,
        frame_decfloat (by decide +kernel) (by decide) rfl⟩ hinf
      show if _ then _ else _
      rw [if_neg hfinite, if_pos hnan]
    . have hinf : Float64.isInf bits := by
        simp only [Float64.isFinite, Float64.isNaN, Float64.isInf, decide_eq_true_eq] at hfinite hnan ⊢
        omega
      refine iff_of_false ?_ (fun h => h hinf)
      cases hneg : Float64.isNegative bits with
      | false =>
        have htext : (Number.float64 bits).text = ascii "+Inf" := hstd.posInf hinf hneg
        exact not_carries_of_error hwritten (by rw [htext]; decide +kernel) (by rw [htext]; decide)
          (by rw [htext]; rfl)
      | true =>
        have htext : (Number.float64 bits).text = ascii "-Inf" := hstd.negInf hinf hneg
        exact not_carries_of_error hwritten (by rw [htext]; decide +kernel) (by rw [htext]; decide)
          (by rw [htext]; rfl)

end Tr

namespace NamedFloats

def threeHalves : UInt64 := 0x3FF8000000000000

/--
A text for the floats in which those that are not finite have their names. Of the others only 3/2 has
its own text.
-/
def nameFloat (bits : UInt64) : GoString :=
  if bits = threeHalves then ascii "1.5"
  else if Float64.isFinite bits then ascii "0"
  else if Float64.isNaN bits then ascii "NaN"
  else if Float64.isNegative bits then ascii "-Inf"
  else ascii "+Inf"

open StandIn in
scoped instance : GoStd := { (inferInstance : GoStd) with formatFloat := nameFloat }

end NamedFloats

section

open NamedFloats

theorem int_threeHalves : ∀ b ∈ ascii "1", isDecimal b := by decide +kernel

theorem frac_threeHalves : ∀ b ∈ (some (ascii "5")).getD [], isDecimal b := by decide +kernel

theorem digits_threeHalves : ascii "1" ++ (some (ascii "5")).getD [] ≠ [] := by decide

def literalThreeHalves : DecLiteral where
  sign := .none
  intDigits := ascii "1"
  fraction := some (ascii "5")
  exponent := none
  int_decimal := int_threeHalves
  frac_decimal := frac_threeHalves
  digits_ne := digits_threeHalves

theorem nameFloat_of_not_finite {bits : UInt64} (h : Float64.isFinite bits = false)
    : nameFloat bits = if Float64.isNaN bits then ascii "NaN"
        else if Float64.isNegative bits then ascii "-Inf" else ascii "+Inf" := by
  have hne : bits ≠ threeHalves := by
    rintro rfl
    exact absurd h (by decide)
  rw [nameFloat, if_neg hne, if_neg (by simp [h])]

theorem lawful_namedFloats : LawfulFormatFloat where
  finite {bits} h := by
    by_cases hbits : bits = threeHalves
    . exact ⟨literalThreeHalves, (if_pos hbits).trans (by decide +kernel), by decide, by decide +kernel⟩
    . obtain ⟨l, htext, hexp, hlen, -⟩ := literal_formatInt (x := 0) (by decide)
      exact ⟨l, (if_neg hbits).trans ((if_pos h).trans htext), hexp, hlen⟩
  posInf {bits} hinf hneg := by
    simp only [Float64.isInf, decide_eq_true_eq] at hinf
    exact (nameFloat_of_not_finite (by simp [Float64.isFinite, hinf])).trans
      (by simp [Float64.isNaN, hinf, hneg])
  negInf {bits} hinf hneg := by
    simp only [Float64.isInf, decide_eq_true_eq] at hinf
    exact (nameFloat_of_not_finite (by simp [Float64.isFinite, hinf])).trans
      (by simp [Float64.isNaN, hinf, hneg])
  nan {bits} h := by
    have hfinite : Float64.isFinite bits = false := by
      simp only [Float64.isNaN, Float64.isFinite, decide_eq_true_eq, decide_eq_false_iff_not] at h ⊢
      omega
    exact (nameFloat_of_not_finite hfinite).trans (if_pos h)

def decfloatParam : TypeInfo :=
  { valueType := .decfloat, precision := -1, scale := -1, nullable := columnNullableUnknown
    extTypeInfo := none }

theorem decfloat_carried_threeHalves
    : ∃ w', Tr.writeValue (.float64 threeHalves) (some decfloatParam) (Tr.ofBytes []) = .ok () w' ∧
        Tr.Carries (.float64 threeHalves) (Tr.ofBytes []) w' :=
  ⟨_, rfl, (Tr.decfloat_carried_iff lawful_namedFloats (.float64 threeHalves) decfloatParam rfl rfl).mpr
    (by unfold Number.IsInfinite; decide)⟩

/--
Positive infinity is written as a text that the decoder does not take.
-/
theorem decfloat_infinity_refused
    : LawfulFormatFloat ∧
        ∃ w', Tr.writeValue (.float64 0x7FF0000000000000) (some decfloatParam) (Tr.ofBytes [])
            = .ok () w' ∧
          ¬ Tr.Carries (.float64 0x7FF0000000000000) (Tr.ofBytes []) w' := by
  refine ⟨lawful_namedFloats, _, rfl, ?_⟩
  have hparam : decfloatParam.valueType = .decfloat := rfl
  have hwritten := (Tr.writes_number (.float64 0x7FF0000000000000) hparam).written_of_ok
    (t := Tr.ofBytes []) rfl
  exact Tr.not_carries_of_error hwritten (by decide +kernel) (by decide) rfl

end

end H2Go
