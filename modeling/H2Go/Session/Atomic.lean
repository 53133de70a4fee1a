import H2Go.Session.Grammar
import H2Go.Session.Aligned
import H2Go.Session.Ids
import H2Go.Rows.FetchSize
import H2Go.Text.UUID

/-!
This module contains what is left on the stream of a request whose parameters cannot all be written:
the header and the parameters before the one that failed.
-/

namespace H2Go

open BigEndian Layout

namespace Tr

variable {σ : Type}

/--
`m` writes `bs`, and every error it returns is that of the connection.
-/
structure Puts (m : Prog Err (Tr σ) Unit) (bs : List UInt8) : Prop where
  writes : Writes m () bs
  fault : FailsWith (fun e t => e.isTimeout = decide (t.writeFault = .timeout)) m

namespace Puts

theorem write (bs : List UInt8) : Puts (Tr.write bs : Prog Err (Tr σ) Unit) bs := by
  refine ⟨Writes.write bs, ⟨fun {t t' e} h => ?_⟩⟩
  unfold Tr.write at h
  split at h
  . cases h
  . split at h
    . cases h
    . cases h
      show t.writeFault.err.isTimeout = decide (t.writeFault = .timeout)
      cases t.writeFault <;> rfl

theorem wrapErr (format : String) (args : List FmtArg) {m : Prog Err (Tr σ) Unit} {bs : List UInt8}
    (h : Puts m bs)
    : Puts (wrapErr format args m) bs :=
  ⟨writes_wrapErr format args h.writes, FailsWith.mapErr h.fault⟩

theorem bind {m m' : Prog Err (Tr σ) Unit} {bs bs' : List UInt8} (h : Puts m bs) (h' : Puts m' bs')
    : Puts (m >>= fun _ => m') (bs ++ bs') :=
  ⟨h.writes.bind h'.writes, FailsWith.bind h.fault (fun _ => h'.fault)⟩

theorem int32 (format : String) (x : Int)
    : Puts (H2Go.wrapErr format [] (writeInt32 x) : Prog Err (Tr σ) Unit) (intBytes 4 x) :=
  wrapErr _ _ (write _)

theorem int64 (format : String) (x : Int)
    : Puts (H2Go.wrapErr format [] (writeInt64 x) : Prog Err (Tr σ) Unit) (intBytes 8 x) :=
  wrapErr _ _ (write _)

theorem string (format : String) (s : GoString)
    : Puts (H2Go.wrapErr format [] (writeString s) : Prog Err (Tr σ) Unit)
        (beBytes 4 (utf16Encode s).length ++ (utf16Encode s).flatMap unitBytes) := by
  rw [writeString_eq]
  exact wrapErr _ _ (write _)

end Puts

/--
Whatever stream it is used on, `m` writes one value.
-/
def PutsValue (m : (σ : Type) → Prog Err (Tr σ) Unit) : Prop :=
  ∃ bs, (∀ σ, Puts (m σ) bs) ∧ valueLayout bs

theorem putsValue_typed {t : ValueType} (ht : t ∈ ValueType.named) (format : String)
    {m : (σ : Type) → Prog Err (Tr σ) Unit} {body : List UInt8} (hm : ∀ σ, Puts (m σ) body)
    (hbody : typedLayout never t body)
    : PutsValue (fun σ => wrapErr format [] (writeInt32 t.code) >>= fun _ => m σ) :=
  ⟨_, fun σ => (Puts.int32 format t.code).bind (hm σ), valueLayout_typed ht hbody⟩

theorem putsValue_null : PutsValue (fun _ => writeInt32 ValueType.null.code) := by
  refine ⟨_, fun _ => Puts.write _, ?_⟩
  have hbody : typedLayout never .null [] := rfl
  have := valueLayout_typed (by decide) hbody
  rwa [List.append_nil] at this

theorem putsValue_string {s : GoString} (hs : (utf16Encode s).length < 2 ^ 31)
    {paramType : Option TypeInfo} (huuid : paramValueType paramType ≠ some .uuid)
    : PutsValue (fun _ => writeStringValue s paramType) := by
  have hbody : stringLayout
      (beBytes 4 (utf16Encode s).length ++ (utf16Encode s).flatMap unitBytes) :=
    countedLayout_append hs (length_flatMap_unitBytes _)
  unfold writeStringValue
  simp only [if_neg huuid]
  unfold stringValueType
  split
  . exact putsValue_typed (t := .numeric) (by decide) _ (fun _ => Puts.string _ s) hbody
  . exact putsValue_typed (t := .decfloat) (by decide) _ (fun _ => Puts.string _ s) hbody
  . exact putsValue_typed (t := .char) (by decide) _ (fun _ => Puts.string _ s) hbody
  . exact putsValue_typed (t := .varcharIgnoreCase) (by decide) _ (fun _ => Puts.string _ s) hbody
  . exact putsValue_typed (t := .varchar) (by decide) _ (fun _ => Puts.string _ s) hbody

theorem putsValue_time (ts : GoTime) (paramType : Option TypeInfo)
    : PutsValue (fun _ => writeTimeValue ts paramType) := by
  unfold writeTimeValue
  dsimp only
  split
  . exact putsValue_typed (t := .date) (by decide) _ (fun _ => Puts.int64 _ _) (length_intBytes 8 _)
  . exact putsValue_typed (t := .time) (by decide) _ (fun _ => Puts.int64 _ _) (length_intBytes 8 _)
  . exact putsValue_typed (t := .timeTZ) (by decide) _
      (fun _ => (Puts.int64 _ _).bind (Puts.int32 _ _)) (by simp [typedLayout, exactly])
  . exact putsValue_typed (t := .timestampTZ) (by decide) _
      (fun _ => (Puts.int64 _ _).bind ((Puts.int64 _ _).bind (Puts.int32 _ _)))
      (by simp [typedLayout, exactly])
  . exact putsValue_typed (t := .timestamp) (by decide) _
      (fun _ => (Puts.int64 _ _).bind (Puts.int64 _ _)) (by simp [typedLayout, exactly])

end Tr

/--
The program does not use the state. It returns a value, or an error that is neither one of the server
nor a timeout, or it panics.
-/
def Stateless {α : Type} (m : (σ : Type) → Prog Err σ α) : Prop :=
  (∃ x, ∀ σ, m σ = pure x) ∨
    (∃ e : Err, e.Plain ∧ e.isTimeout = false ∧ ∀ σ, m σ = Prog.throw e) ∨
    ∃ why, ∀ σ, m σ = Prog.panic why

namespace Stateless

variable {α β : Type}

theorem pure (x : α) : Stateless (fun _ => Pure.pure x) := .inl ⟨x, fun _ => rfl⟩

theorem errorf (format : String) (args : List FmtArg)
    : Stateless (fun _ => (Prog.throw (.errorf format args) : Prog Err _ α)) :=
  .inr (.inl ⟨_, Err.plain_errorf format args, rfl, fun _ => rfl⟩)

theorem bind {m : (σ : Type) → Prog Err σ α} {f : α → (σ : Type) → Prog Err σ β}
    (hm : Stateless m) (hf : ∀ x, Stateless (f x))
    : Stateless (fun σ => m σ >>= fun x => f x σ) := by
  rcases hm with ⟨x, hx⟩ | ⟨e, hplain, htime, he⟩ | ⟨why, hwhy⟩
  . simp only [hx, Prog.pure_bind]
    exact hf x
  . exact .inr (.inl ⟨e, hplain, htime, fun σ => by simp only [he, Prog.throw_bind]⟩)
  . exact .inr (.inr ⟨why, fun σ => by simp only [hwhy]; rfl⟩)

theorem wrapErr (format : String) (args : List FmtArg) {m : (σ : Type) → Prog Err σ α}
    (hm : Stateless m)
    : Stateless (fun σ => H2Go.wrapErr format args (m σ)) := by
  rcases hm with ⟨x, hx⟩ | ⟨e, hplain, htime, he⟩ | ⟨why, hwhy⟩
  . exact .inl ⟨x, fun σ => by simp only [hx]; rfl⟩
  . exact .inr (.inl ⟨.wrapf format args e, hplain, htime, fun σ => by simp only [he]; rfl⟩)
  . exact .inr (.inr ⟨why, fun σ => by simp only [hwhy]; rfl⟩)

theorem ite {c : Prop} [Decidable c] {m m' : (σ : Type) → Prog Err σ α} (hm : Stateless m)
    (hm' : Stateless m')
    : Stateless (fun σ => if c then m σ else m' σ) := by
  split
  . exact hm
  . exact hm'

theorem slice (xs : List α) (lo hi : Nat) : Stateless (fun _ => Prog.slice xs lo hi) :=
  ite (pure _) (.inr (.inr ⟨.slice, fun _ => rfl⟩))

theorem parseUint (s : GoString) : Stateless (fun _ => liftExcept (H2Go.parseUint s)) := by
  unfold H2Go.parseUint
  split
  . exact errorf _ _
  . split
    . exact errorf _ _
    . exact pure _

theorem parseUUIDString (s : GoString) : Stateless (fun _ => H2Go.parseUUIDString s) := by
  refine bind (f := fun uuid σ => parseCompactUUID uuid) ?_ (fun uuid => ?_)
  . exact ite (ite (errorf _ _) (pure _)) (ite (pure _) (errorf _ _))
  . refine bind (slice uuid 0 16) (fun highText => ?_)
    refine bind (wrapErr _ _ (parseUint highText)) (fun high => ?_)
    refine bind (slice uuid 16 uuid.length) (fun lowText => ?_)
    exact bind (wrapErr _ _ (parseUint lowText)) (fun low => pure _)

end Stateless

theorem parseUUIDString_cases (s : GoString)
    : (∃ x, ∀ σ, (parseUUIDString s : Prog Err σ _) = pure x) ∨
        (∃ e : Err, e.Plain ∧ e.isTimeout = false ∧
          ∀ σ, (parseUUIDString s : Prog Err σ _) = Prog.throw e) ∨
        ∃ why, ∀ σ, (parseUUIDString s : Prog Err σ _) = Prog.panic why :=
  Stateless.parseUUIDString s

/--
The values that `WriteValue` turns down: it does not know their type, or the text is no UUID.
-/
def Value.Unencodable (v : Value) (paramType : Option TypeInfo) : Prop :=
  match v with
  | .string s =>
    paramValueType paramType = some .uuid ∧
      ∃ e, (parseUUIDString s : Prog Err Unit _) () = .fail e ()
  | .lob _ | .other _ => True
  | _ => False

/--
The values that `WriteValue` accepts and that are not too long for their length prefix.
-/
def Value.Fits [GoStd] (v : Value) (paramType : Option TypeInfo) : Prop :=
  match v with
  | .string s =>
    if paramValueType paramType = some .uuid then
      ∃ x, (parseUUIDString s : Prog Err Unit _) () = .ok x ()
    else
      (utf16Encode s).length < 2 ^ 31
  | .float64 x => Tr.isDecimalParam paramType → (utf16Encode (GoStd.formatFloat x)).length < 2 ^ 31
  | .bytes (some b) => b.length < 2 ^ 31
  | .lob _ | .other _ => False
  | _ => True

theorem Value.not_unencodable_of_fits [GoStd] {v : Value} {paramType : Option TypeInfo}
    (h : v.Fits paramType)
    : ¬ v.Unencodable paramType := by
  cases v with
  | string s =>
    rintro ⟨huuid, e, he⟩
    unfold Fits at h
    dsimp only at h
    rw [if_pos huuid, he] at h
    obtain ⟨x, hx⟩ := h
    cases hx
  | lob | other => exact absurd h id
  | nil | bool | int64 | float64 | bytes | time => exact id

namespace Tr

variable {σ : Type} [GoStd]

theorem writeValue_of_unencodable {v : Value} {paramType : Option TypeInfo}
    (h : v.Unencodable paramType)
    : ∃ e : Err, e.Plain ∧ e.isTimeout = false ∧
        ∀ σ : Type, (writeValue v paramType : Prog Err (Tr σ) Unit) = Prog.throw e := by
  cases v with
  | string s =>
    obtain ⟨huuid, e, he⟩ := h
    rcases parseUUIDString_cases s with ⟨x, hx⟩ | ⟨e, hplain, htime, he⟩ | ⟨why, hwhy⟩
    . rw [hx] at he
      cases he
    . refine ⟨.wrapf "h2go: WriteValue: invalid UUID %q: %w" [.str s] e, hplain, htime, fun σ => ?_⟩
      unfold writeValue writeStringValue writeUUIDValue
      dsimp only
      rw [if_pos huuid, he]
      rfl
    . rw [hwhy] at he
      cases he
  | lob | other =>
    refine ⟨_, ?_, ?_, fun _ => rfl⟩
    . exact ⟨rfl, rfl⟩
    . rfl
  | nil | bool | int64 | float64 | bytes | time => exact absurd h id

theorem putsValue_of_fits {v : Value} {paramType : Option TypeInfo} (h : v.Fits paramType)
    : PutsValue (fun _ => writeValue v paramType) := by
  have hdecimal : isDecimalParam paramType → paramValueType paramType ≠ some .uuid := by
    intro hdec huuid
    simp [isDecimalParam, huuid] at hdec
  cases v with
  | nil => exact putsValue_null
  | bool x =>
    have hbody : typedLayout never .boolean [if x then 1 else 0] := rfl
    exact putsValue_typed (by decide) _
      (fun _ => Puts.wrapErr _ _ (by cases x <;> exact Puts.write _)) hbody
  | int64 x =>
    unfold writeValue
    dsimp only
    split
    . next hdec =>
      refine putsValue_string ?_ (hdecimal hdec)
      have hlen := length_formatInt_le (x := x.toInt) (by have := x.le_toInt; have := x.toInt_lt; omega)
      rw [utf16Encode_of_isASCII (by simpa [isASCII] using fun b hb => formatInt_ascii hb),
        List.length_map]
      omega
    . exact putsValue_typed (t := .bigint) (by decide) _ (fun _ => Puts.int64 _ _)
        (length_intBytes 8 _)
  | float64 x =>
    unfold writeValue
    dsimp only
    split
    . next hdec => exact putsValue_string (h hdec) (hdecimal hdec)
    . split
      . exact putsValue_typed (t := .real) (by decide) _ (fun _ => Puts.int32 _ _)
          (length_intBytes 4 _)
      . exact putsValue_typed (t := .double) (by decide) _ (fun _ => Puts.int64 _ _)
          (length_intBytes 8 _)
  | string s =>
    unfold Value.Fits at h
    dsimp only at h
    split at h
    . next huuid =>
      obtain ⟨x, hx⟩ := h
      rcases parseUUIDString_cases s with ⟨y, hy⟩ | ⟨e, -, -, he⟩ | ⟨why, hwhy⟩
      . unfold writeValue writeStringValue writeUUIDValue
        simp only [if_pos huuid, hy]
        exact putsValue_typed (t := .uuid) (by decide) _
          (fun _ => (Puts.int64 _ _).bind (Puts.int64 _ _)) (by simp [typedLayout, exactly])
      . rw [he] at hx
        cases hx
      . rw [hwhy] at hx
        cases hx
    . next huuid => exact putsValue_string h huuid
  | bytes b =>
    cases b with
    | none => exact putsValue_null
    | some b =>
      have hbody : bytesLayout (beBytes 4 b.length ++ b) := countedLayout_append h (by simp)
      have hputs : ∀ (format : String) (σ : Type),
          Puts (wrapErr format [] (writeBytes (some b)) : Prog Err (Tr σ) Unit)
            (beBytes 4 b.length ++ b) := by
        intro format σ
        rw [← intBytes_natCast]
        exact Puts.wrapErr _ _ ((Puts.write _).bind (Puts.write _))
      unfold writeValue
      dsimp only
      split
      . exact putsValue_typed (t := .binary) (by decide) _ (hputs _) hbody
      . exact putsValue_typed (t := .varbinary) (by decide) _ (hputs _) hbody
  | time ts => exact putsValue_time ts paramType
  | lob | other => exact absurd h id

def valueBytes (v : Value) (paramType : Option TypeInfo) : List UInt8 :=
  match (writeValue v paramType : Prog Err (Tr Silent) Unit) (ofBytes []) with
  | .ok _ t => t.written
  | _ => []

theorem valueBytes_of_fits {v : Value} {paramType : Option TypeInfo} (h : v.Fits paramType)
    : Puts (writeValue v paramType : Prog Err (Tr σ) Unit) (valueBytes v paramType) ∧
        valueLayout (valueBytes v paramType) := by
  obtain ⟨bs, hbs, hlayout⟩ := putsValue_of_fits h
  have hrun : (writeValue v paramType : Prog Err (Tr Silent) Unit) (ofBytes [])
      = .ok () ((ofBytes []).accept bs) := (hbs Silent).writes.ok (write_of_healthy rfl bs)
  have heq : valueBytes v paramType = bs := by
    rw [valueBytes, hrun]
    exact written_accept bs _
  rw [heq]
  exact ⟨hbs σ, hlayout⟩

def paramBytes (metas : List ParameterMeta) (i : Nat) (params : List Value) : List UInt8 :=
  match params with
  | [] => []
  | p :: params =>
    valueBytes p (metas[i]?.map ParameterMeta.typeInfo) ++ paramBytes metas (i + 1) params

def AllFit (metas : List ParameterMeta) (i : Nat) (params : List Value) : Prop :=
  match params with
  | [] => True
  | p :: params => p.Fits (metas[i]?.map ParameterMeta.typeInfo) ∧ AllFit metas (i + 1) params

theorem writes_writeParams (format : String) {metas : List ParameterMeta} {i : Nat}
    {params : List Value} (h : AllFit metas i params)
    : Writes (writeParams format metas i params : Prog Err (Tr σ) _) () (paramBytes metas i params) := by
  induction params generalizing i with
  | nil => exact Writes.pure ()
  | cons p params ih =>
    exact (writes_wrapErr _ _ (valueBytes_of_fits h.1).1.writes).bind (ih h.2)

theorem times_paramBytes {metas : List ParameterMeta} {i : Nat} {params : List Value}
    (h : AllFit metas i params)
    : times valueLayout params.length (paramBytes metas i params) := by
  induction params generalizing i with
  | nil => rfl
  | cons p params ih => exact seq_append (valueBytes_of_fits (σ := Silent) h.1).2 (ih h.2)

theorem writeParams_append (format : String) (metas : List ParameterMeta) (i : Nat)
    (before after : List Value)
    : (writeParams format metas i (before ++ after) : Prog Err (Tr σ) _)
        = writeParams format metas i before >>= fun _ =>
            writeParams format metas (i + before.length) after := by
  induction before generalizing i with
  | nil => rw [List.nil_append, writeParams, Prog.pure_bind, List.length_nil, Nat.add_zero]
  | cons p before ih =>
    rw [List.cons_append, writeParams, writeParams, Prog.bind_assoc, List.length_cons,
      Nat.add_comm before.length, ← Nat.add_assoc]
    simp only [ih]

end Tr

namespace Tr

variable {σ : Type}

/--
How many of the next `n` bytes the connection takes.
-/
def room (n : Nat) (t : Tr σ) : Nat :=
  match t.writeBudget with
  | none => n
  | some budget => min n budget

theorem takes_iff_room {n : Nat} {t : Tr σ} : t.Takes n ↔ t.room n = n := by
  unfold Takes room
  cases t.writeBudget with
  | none => simp
  | some budget => simp

theorem write_of_takes {bs : List UInt8} {t : Tr σ} (h : t.Takes bs.length)
    : ∃ t', write bs t = .ok () t' ∧ t'.written = t.written ++ bs ∧ t'.writeFault = t.writeFault ∧
        ∀ n, t'.room n = t.room (bs.length + n) - bs.length := by
  cases hb : t.writeBudget with
  | none =>
    refine ⟨_, write_of_healthy hb bs, written_accept bs t, rfl, fun n => ?_⟩
    simp [room, accept, hb]
  | some budget =>
    have hle := h budget hb
    refine ⟨_, write_of_le hb hle, written_accept bs t, rfl, fun n => ?_⟩
    simp only [room, hb]
    omega

theorem write_of_not_takes {bs : List UInt8} {t : Tr σ} (h : ¬ t.Takes bs.length)
    : ∃ t', write bs t = .fail t.writeFault.err t' ∧
        t'.written = t.written ++ bs.take (t.room bs.length) ∧ t'.writeFault = t.writeFault ∧
        ∀ n, t'.room n = 0 := by
  cases hb : t.writeBudget with
  | none =>
    refine absurd (fun budget hbudget => ?_) h
    rw [hb] at hbudget
    cases hbudget
  | some budget =>
    have hlt : budget < bs.length := by
      by_contra hle
      refine h (fun b hbudget => ?_)
      rw [hb] at hbudget
      cases hbudget
      exact Nat.le_of_not_lt hle
    refine ⟨_, write_of_lt hb hlt, ?_, rfl, fun n => by simp [room]⟩
    show ((t.accept (bs.take budget)).written) = _
    rw [written_accept, room, hb]
    simp only [Nat.min_eq_right (Nat.le_of_lt hlt)]

theorem Sends.written [Peer σ] {m : Prog Err (Tr σ) Unit} {bs : List UInt8} (h : Sends m bs)
    (t : Tr σ)
    : ∃ t', (m t).state? = some t' ∧ t'.written = t.written ++ bs.take (t.room bs.length) := by
  have hflush : ∀ t : Tr σ, ∃ t', (Tr.flush t).state? = some t' ∧ t'.written = t.written := by
    intro t
    unfold Tr.flush
    split
    . refine ⟨_, rfl, ?_⟩
      split <;> rfl
    . exact ⟨t, rfl, rfl⟩
    . refine ⟨_, rfl, ?_⟩
      split <;> rfl
  have hsame : (m t).state? = ((Tr.write bs >>= fun _ => Tr.flush) t).state? := by
    have hends := ends_send bs t
    cases hres : (Tr.write bs >>= fun _ => Tr.flush) t with
    | ok a t' => rw [h.ok hres]
    | fail e t' =>
      obtain ⟨e', he, -⟩ := h.fail hres
      rw [he]
      rfl
    | panic | stuck =>
      rw [hres] at hends
      exact absurd hends id
  rw [hsame, Prog.bind_run]
  by_cases htakes : t.Takes bs.length
  . obtain ⟨t1, hwrite, hwritten, -⟩ := write_of_takes htakes
    obtain ⟨t', hrun, hkept⟩ := hflush t1
    refine ⟨t', by rw [hwrite]; exact hrun, ?_⟩
    rw [hkept, hwritten, takes_iff_room.mp htakes, List.take_length]
  . obtain ⟨t1, hwrite, hwritten, -⟩ := write_of_not_takes htakes
    exact ⟨t1, by rw [hwrite]; rfl, hwritten⟩

variable [GoStd]

/--
The value `v` is the one that cannot be written: `WriteValue` turns it down, or the connection does not
take it after the `n` bytes before it.
-/
def FailsOn (v : Value) (paramType : Option TypeInfo) (n : Nat) (t : Tr σ) : Prop :=
  v.Unencodable paramType ∨
    v.Fits paramType ∧ ¬ t.Takes (n + (valueBytes v paramType).length)

/--
After `n` bytes and the part `x` of the value `v` the stream `t` has become `t'`.
-/
structure CutShort (v : Value) (paramType : Option TypeInfo) (n : Nat) (t t' : Tr σ)
    (x : List UInt8) : Prop where
  none : v.Unencodable paramType → x = [] ∧ ∀ k, t'.room k = t.room (n + k) - n
  some : ¬ v.Unencodable paramType →
    (∃ suf, suf ≠ [] ∧ valueLayout (x ++ suf)) ∧ ∀ k, t'.room k = 0

theorem writeValue_cutShort {v : Value} {paramType : Option TypeInfo} {t : Tr σ}
    (h : t.FailsOn v paramType 0)
    : ∃ e t' x, writeValue v paramType t = .fail e t' ∧ e.Plain ∧
        (e.isTimeout = true ↔ ¬ v.Unencodable paramType ∧ t.writeFault = .timeout) ∧
        t'.written = t.written ++ x ∧ CutShort v paramType 0 t t' x := by
  rcases h with h | ⟨hfits, htakes⟩
  . obtain ⟨e, hplain, htime, hrun⟩ := writeValue_of_unencodable h
    refine ⟨e, t, [], by rw [hrun]; rfl, hplain, by simp [htime, h], by simp, fun _ => ⟨rfl, ?_⟩,
      fun hnot => absurd h hnot⟩
    simp
  . have henc := Value.not_unencodable_of_fits hfits
    obtain ⟨hputs, hlayout⟩ := valueBytes_of_fits (σ := σ) hfits
    rw [Nat.zero_add] at htakes
    obtain ⟨t', hwrite, hwritten, hfault, hroom⟩ := write_of_not_takes htakes
    obtain ⟨e, hrun, hplain⟩ := hputs.writes.fail hwrite
    refine ⟨e, t', _, hrun, hplain, ?_, hwritten, fun h => absurd h henc, fun _ => ⟨?_, hroom⟩⟩
    . rw [hputs.fault.of_run hrun, hfault]
      simp [henc]
    . refine ⟨(valueBytes v paramType).drop (t.room (valueBytes v paramType).length), ?_, ?_⟩
      . rw [ne_eq, List.drop_eq_nil_iff]
        intro hle
        exact htakes (takes_iff_room.mpr (Nat.le_antisymm (by unfold room; split <;> omega) hle))
      . rw [List.take_append_drop]
        exact hlayout

omit [GoStd] in
theorem Takes.mono {n m : Nat} {t : Tr σ} (h : t.Takes n) (hle : m ≤ n) : t.Takes m :=
  fun budget hbudget => Nat.le_trans hle (h budget hbudget)

omit [GoStd] in
theorem takes_of_room {n : Nat} {t t' : Tr σ} (hn : t.Takes n)
    (hroom : ∀ k, t'.room k = t.room (n + k) - n) (k : Nat)
    : t'.Takes k ↔ t.Takes (n + k) := by
  rw [takes_iff_room, takes_iff_room, hroom]
  have := takes_iff_room.mp hn
  cases k with
  | zero =>
    rw [Nat.add_zero]
    omega
  | succ k => omega

/--
The parameter `p` cannot be written, after a header and the parameters before it.
-/
theorem params_cutShort (format : String) {metas : List ParameterMeta} {before after : List Value}
    {p : Value} (hbefore : AllFit metas 0 before) {m : Prog Err (Tr σ) Unit} {header : List UInt8}
    (hm : Writes m () header) {t : Tr σ} {n : Nat}
    (hn : n = header.length + (paramBytes metas 0 before).length) (htakes : t.Takes n)
    (hp : t.FailsOn p (metas[before.length]?.map ParameterMeta.typeInfo) n)
    : ∃ e t' x, (m >>= fun _ => writeParams format metas 0 (before ++ p :: after)) t = .fail e t' ∧
        e.Plain ∧ (e.isTimeout = true ↔
          ¬ p.Unencodable (metas[before.length]?.map ParameterMeta.typeInfo) ∧
            t.writeFault = .timeout) ∧
        t'.written = t.written ++ (header ++ (paramBytes metas 0 before ++ x)) ∧
        CutShort p (metas[before.length]?.map ParameterMeta.typeInfo) n t t' x := by
  have hwrites := hm.bind (f := fun _ => writeParams format metas 0 before)
    (writes_writeParams format hbefore)
  rw [← List.length_append] at hn
  subst hn
  obtain ⟨t1, hwrite, hwritten, hfault, hroom⟩ := write_of_takes htakes
  have hshift := takes_of_room htakes hroom
  have hp1 : t1.FailsOn p (metas[before.length]?.map ParameterMeta.typeInfo) 0 := by
    refine hp.imp id (fun h => ⟨h.1, fun htake => h.2 ?_⟩)
    rw [Nat.zero_add] at htake
    exact (hshift _).mp htake
  obtain ⟨e, t', x, hrun, hplain, htime, hpart, hcut⟩ := writeValue_cutShort hp1
  refine ⟨.wrapf format [.int (before.length + 1)] e, t', x, ?_, hplain, by rw [← hfault]; exact htime,
    by rw [hpart, hwritten, List.append_assoc, List.append_assoc], ?_⟩
  . simp only [writeParams_append]
    rw [← Prog.bind_assoc, Prog.bind_of_ok (hwrites.ok hwrite), Nat.zero_add, writeParams]
    apply Prog.bind_of_fail
    unfold wrapErr
    rw [Prog.mapErr_run, hrun]
    rfl
  . refine ⟨fun hun => ⟨(hcut.none hun).1, fun k => ?_⟩, hcut.some⟩
    rw [(hcut.none hun).2, Nat.zero_add, Nat.sub_zero]
    exact hroom k

end Tr

def updateHeader (cmdID : Int) (paramCount : Nat) : List UInt8 :=
  intBytes 4 commandExecuteUpdate ++ (intBytes 4 cmdID ++ intBytes 4 paramCount)

theorem writes_writeUpdateHeader {σ : Type} (cmdID : Int) (paramCount : Nat)
    : Tr.Writes (Tr.writeUpdateHeader cmdID paramCount : Prog Err (Tr σ) _) ()
        (updateHeader cmdID paramCount) := by
  refine Tr.Writes.mapErr (fun e he => ?_) ((Tr.writes_writeInt32 _).bind
    ((Tr.writes_writeInt32 _).bind (Tr.writes_writeInt32 _)))
  exact Err.plain_wrapError _ he

theorem valueLayout_commandClose (cmdID : Int) : valueLayout (commandCloseRequest cmdID) :=
  valueLayout_typed (t := .integer) (by decide) (by simp [typedLayout, exactly])

section Incomplete

variable {i n : Nat} {bs x suf : List UInt8}

theorem exists_arguments {op : Int} (hop : -2 ^ 31 ≤ op ∧ op < 2 ^ 31) {rest : List UInt8}
    (h : Whole requestLayout (intBytes 4 op ++ rest))
    : ∃ args v, rest = args ++ v ∧ argumentsLayout op args := by
  have hne : intBytes 4 op ++ rest ≠ [] :=
    List.ne_nil_of_length_pos (by rw [List.length_append, length_intBytes]; omega)
  obtain ⟨u, v, heq, hu, -⟩ := h.cases hne
  obtain ⟨args, hrest, hargs⟩ := seq_exactly_cancel (length_intBytes 4 op) hu heq
  rw [beInt_intBytes (by omega) (by omega)] at hargs
  exact ⟨args, v, hrest, hargs⟩

theorem missing_of_params (hcount : i + (n + 1) < 2 ^ 31) (hbs : times valueLayout i bs)
    (hx : valueLayout (x ++ suf)) {args v : List UInt8} (hargs : paramsLayout args)
    (heq : intBytes 4 (i + (n + 1) : Nat) ++ (bs ++ x) = args ++ v)
    : suf = [] ∧ n = 0 ∧ v = [] := by
  obtain ⟨vals, hvals, htimes⟩ := seq_exactly_cancel (length_intBytes 4 _) hargs heq
  rw [beInt_intBytes (by omega) (by omega), if_neg (by omega), Int.toNat_natCast] at htimes
  obtain ⟨z, hz, htail⟩ := delimited_valueLayout.times_cancel hbs htimes hvals
  exact delimited_valueLayout.times_of_part not_valueLayout_nil hx htail hz

/--
A query with a part of its parameters is complete only if the last of them is all there.
-/
theorem whole_query_iff (hcount : i + (n + 1) < 2 ^ 31) (hbs : times valueLayout i bs)
    (hx : valueLayout (x ++ suf)) (cmdID resultID maxRows fetchSize : Int)
    : Whole requestLayout (queryHeader cmdID resultID maxRows fetchSize (i + (n + 1)) ++ (bs ++ x)) ↔
        suf = [] ∧ n = 0 := by
  have hsplit : queryHeader cmdID resultID maxRows fetchSize (i + (n + 1)) ++ (bs ++ x)
      = intBytes 4 commandExecuteQuery ++ ((intBytes 4 cmdID ++ (intBytes 4 resultID ++
          (intBytes 8 maxRows ++ intBytes 4 fetchSize))) ++
            (intBytes 4 (i + (n + 1) : Nat) ++ (bs ++ x))) := by
    simp [queryHeader]
  have hfields : (intBytes 4 cmdID ++ (intBytes 4 resultID ++ (intBytes 8 maxRows ++
      intBytes 4 fetchSize))).length = 20 := by simp
  have hlayout : argumentsLayout commandExecuteQuery = seq (exactly 20) (fun _ => paramsLayout) := rfl
  rw [hsplit]
  constructor
  . intro h
    obtain ⟨args, v, heq, hargs⟩ := exists_arguments (by decide) h
    rw [hlayout] at hargs
    obtain ⟨args', heq', hargs'⟩ := seq_exactly_cancel hfields hargs heq
    have hmissing := missing_of_params hcount hbs hx hargs' heq'
    exact ⟨hmissing.1, hmissing.2.1⟩
  . rintro ⟨rfl, rfl⟩
    rw [List.append_nil] at hx
    apply Whole.of_one
    refine seq_append (length_intBytes 4 _) ?_
    rw [beInt_intBytes (by decide) (by decide), hlayout]
    refine seq_append hfields (seq_append (length_intBytes 4 _) ?_)
    rw [beInt_intBytes (by omega) (by omega), if_neg (by omega), Int.toNat_natCast]
    exact times_append hbs (times_one hx)

/--
An update with a part of its parameters is never complete, it ends with the generated keys.
-/
theorem not_whole_update (hcount : i + (n + 1) < 2 ^ 31) (hbs : times valueLayout i bs)
    (hx : valueLayout (x ++ suf)) (cmdID : Int)
    : ¬ Whole requestLayout (updateHeader cmdID (i + (n + 1)) ++ (bs ++ x)) := by
  have hsplit : updateHeader cmdID (i + (n + 1)) ++ (bs ++ x)
      = intBytes 4 commandExecuteUpdate ++ (intBytes 4 cmdID ++
          (intBytes 4 (i + (n + 1) : Nat) ++ (bs ++ x))) := by
    simp [updateHeader]
  have hlayout : argumentsLayout commandExecuteUpdate
      = seq (exactly 4) (fun _ => seq paramsLayout (fun _ => keysLayout)) := rfl
  rw [hsplit]
  intro h
  obtain ⟨args, v, heq, hargs⟩ := exists_arguments (by decide) h
  rw [hlayout] at hargs
  obtain ⟨args', heq', ps, keys, rfl, hps, hkeys⟩ :=
    seq_exactly_cancel (length_intBytes 4 _) hargs heq
  rw [List.append_assoc] at heq'
  obtain ⟨-, -, hnil⟩ := missing_of_params hcount hbs hx hps heq'
  obtain ⟨mode, rest, rfl, hmode, -⟩ := hkeys
  rw [(List.append_eq_nil_iff.mp (List.append_eq_nil_iff.mp hnil).1).1] at hmode
  cases hmode

end Incomplete

/--
What was written after the handshake, flushed or not, is a whole number of complete requests.
-/
def Tr.AtBoundary {σ : Type} (hello : List UInt8) (t : Tr σ) : Prop :=
  ∃ w, t.written = hello ++ w ∧ Whole requestLayout w

theorem Tr.atBoundary_iff {σ : Type} {hello bs : List UInt8} {t t' : Tr σ} (h : t.AtBoundary hello)
    (hbs : t'.written = t.written ++ bs)
    : t'.AtBoundary hello ↔ Whole requestLayout bs := by
  obtain ⟨w, hw, hwhole⟩ := h
  constructor
  . rintro ⟨w', hw', hwhole'⟩
    rw [hbs, hw, List.append_assoc] at hw'
    rw [← List.append_cancel_left hw'] at hwhole'
    exact delimited_requestLayout.whole_cancel hwhole hwhole'
  . intro hwhole'
    exact ⟨w ++ bs, by rw [hbs, hw, List.append_assoc], hwhole.append hwhole'⟩

/--
Whether the session is given up for an operation that failed on the client's side.
-/
def Ctx.discards (ctx : Ctx) (now : Nat) (timeout : Bool) : Bool :=
  (ctx.err now).isSome || (ctx.deadlinePassed now && timeout)

namespace Session

variable {σ : Type} {α : Type}

theorem finalizeContext_of_plain (ctx : Ctx) {e : Err} (h : e.Plain) (s : Session σ)
    : ∃ e', (finalizeContext ctx e : Prog Err (Session σ) α) s
        = .fail e' (if ctx.discards s.clock e.isTimeout then s.abort else s) := by
  have hplain : e.asH2 = none := h.1
  unfold finalizeContext Ctx.discards statementWasCanceled markStreamBroken
  rw [Prog.bind_run, Prog.get_run, Out.andThen_ok, hplain]
  cases ctx.err s.clock with
  | some ctxErr => exact ⟨ctxErr, rfl⟩
  | none =>
    cases hd : ctx.deadlinePassed s.clock && e.isTimeout with
    | true =>
      have := Bool.and_eq_true_iff.mp hd
      exact ⟨.deadlineExceeded, by simp [this]⟩
    | false =>
      have : ¬ (ctx.deadlinePassed s.clock = true ∧ e.isTimeout = true) := by
        rw [← Bool.and_eq_true, hd]
        exact Bool.false_ne_true
      exact ⟨e, by simp [this]⟩

variable [Peer σ]

theorem closeCommand_written (cmd : PreparedCommand) {s : Session σ} (hopen : s.trNil = false)
    : ∃ r t, (Prog.attempt (closeCommand cmd) : Prog Err (Session σ) _) s = .ok r (s.setTr t) ∧
        t.written = s.tr.written ++ (commandCloseRequest cmd.id).take (s.tr.room 8) := by
  obtain ⟨t, hrun, hwritten⟩ :=
    (Tr.sends_sendCommandClose "PreparedCommand.Close" cmd.id).written s.tr
  rw [show (commandCloseRequest cmd.id).length = 8 by simp [commandCloseRequest]] at hwritten
  have hclose : closeCommand cmd s = io (Tr.sendCommandClose "PreparedCommand.Close" cmd.id) s := by
    simp [closeCommand, hopen]
  cases hsend : Tr.sendCommandClose "PreparedCommand.Close" cmd.id s.tr with
  | ok a t' =>
    rw [hsend] at hrun
    cases hrun
    exact ⟨.ok a, t, Prog.attempt_of_ok (hclose.trans (io_of_ok hopen hsend)), hwritten⟩
  | fail e t' =>
    rw [hsend] at hrun
    cases hrun
    exact ⟨.error e, t, Prog.attempt_of_fail (hclose.trans (io_of_fail hopen hsend)), hwritten⟩
  | panic | stuck =>
    rw [hsend] at hrun
    cases hrun

variable [GoStd]

def left (s : Session σ) (t : Tr σ) (dead : Bool) : Session σ :=
  if dead then { s.setTr t with clock := s.clock + 1 }.abort else { s.setTr t with clock := s.clock + 1 }

omit [Peer σ] [GoStd] in
theorem left_tr (s : Session σ) (t : Tr σ) (dead : Bool) : (s.left t dead).tr = t := by
  cases dead <;> rfl

omit [Peer σ] [GoStd] in
theorem left_dead {s : Session σ} (hopen : s.trNil = false) (t : Tr σ) (dead : Bool)
    : (s.left t dead).dead = dead := by
  cases dead with
  | true => rfl
  | false => exact s.dead_eq.trans hopen

def thenClose (closed : Bool) (cmd : PreparedCommand) (m : Prog Err (Session σ) α)
    : Prog Err (Session σ) α := do
  let r ← Prog.attempt m
  let _ ← if closed then Prog.attempt (closeCommand cmd) else pure (.ok ())
  match r with
  | .ok res => pure res
  | .error err => Prog.throw err

theorem executeAndClose_eq (ctx : Ctx) (cmd : PreparedCommand) (params : List Value)
    : (executeAndClose ctx cmd params : Prog Err (Session σ) _)
        = thenClose true cmd (executeUpdatePreparedWithParams ctx cmd params) := by
  unfold executeAndClose thenClose
  congr 1
  funext r
  cases r <;> rfl

def closing (closed : Bool) (cmd : PreparedCommand) (t : Tr σ) : List UInt8 :=
  if closed then (commandCloseRequest cmd.id).take (t.room 8) else []

omit [Peer σ] [GoStd] in
theorem withContext_left (ctx : Ctx) {m : Prog Err (Session σ) α} {s : Session σ} {t : Tr σ} {e : Err}
    (he : e.Plain) (h : m s = .fail e (s.setTr t))
    : ∃ e', withContext ctx m s = .fail e' (s.left t (ctx.discards (s.clock + 1) e.isTimeout)) := by
  obtain ⟨e', hrun⟩ := finalizeContext_of_plain (α := α) ctx he { s.setTr t with clock := s.clock + 1 }
  exact ⟨e', (withContext_of_fail h).trans hrun⟩

omit [GoStd] in
theorem thenClose_left (closed : Bool) (cmd : PreparedCommand) {m : Prog Err (Session σ) α}
    {s s1 : Session σ} (hopen : s1.trNil = false) {t : Tr σ} {dead : Bool} {e : Err}
    (h : m s = .fail e (s1.left t dead))
    : ∃ s', thenClose closed cmd m s = .fail e s' ∧ s'.dead = dead ∧
        (dead = false → s'.tr.written = t.written ++ closing closed cmd t) := by
  unfold thenClose
  rw [Prog.bind_of_ok (Prog.attempt_of_fail h)]
  have hdead := left_dead hopen t dead
  cases closed with
  | false =>
    refine ⟨s1.left t dead, rfl, hdead, ?_⟩
    rintro rfl
    exact (List.append_nil _).symm
  | true =>
    cases dead with
    | true => exact ⟨_, rfl, rfl, fun h => by cases h⟩
    | false =>
      obtain ⟨r, t', hclose, hwritten⟩ := closeCommand_written cmd (s := s1.left t false) hopen
      refine ⟨(s1.left t false).setTr t', ?_, hdead, fun _ => hwritten⟩
      rw [if_pos rfl, Prog.bind_of_ok hclose]
      rfl

end Session

/--
The ways a command is executed: at once, with its `COMMAND_CLOSE` when the execution fails, or for a
statement, which is closed afterwards if someone has asked for that.
-/
inductive Execution where
  | adHocQuery (maxRows fetchSize : Int)
  | preparedQuery (maxRows fetchSize : Int) (closed : Bool)
  | adHocUpdate
  | preparedUpdate (closed : Bool)

namespace Execution

variable {σ : Type} [Peer σ] [GoStd]

def run (x : Execution) (ctx : Ctx) (cmd : PreparedCommand) (params : List Value)
    : Prog Err (Session σ) Unit :=
  match x with
  | .adHocQuery maxRows fetchSize => do
    let _ ← Session.executeQueryWire ctx cmd maxRows fetchSize params true
    pure ()
  | .preparedQuery maxRows fetchSize closed => do
    let _ ← Session.thenClose closed cmd
      (Session.executeQueryWire ctx cmd maxRows fetchSize params false)
    pure ()
  | .adHocUpdate => do
    let _ ← Session.executeAndClose ctx cmd params
    pure ()
  | .preparedUpdate closed => do
    let _ ← Session.thenClose closed cmd (Session.executeUpdatePreparedWithParams ctx cmd params)
    pure ()

def isQuery : Execution → Bool
  | .adHocQuery _ _ | .preparedQuery _ _ _ => true
  | .adHocUpdate | .preparedUpdate _ => false

def closes : Execution → Bool
  | .adHocQuery _ _ | .adHocUpdate => true
  | .preparedQuery _ _ closed | .preparedUpdate closed => closed

def headerSize (x : Execution) : Nat := if x.isQuery then 28 else 12

/--
The execution gets as far as writing parameters. Their number is an int32 in the source.
-/
def Starts (x : Execution) (cmd : PreparedCommand) (params : List Value) (s : Session σ) : Prop :=
  s.trNil = false ∧ params.length < 2 ^ 31 ∧ (x.isQuery = false → s.CanUpdate cmd params)

theorem query_breaks (ctx : Ctx) {cmd : PreparedCommand} {maxRows fetchSize : Int}
    {params : List Value} (ownsCommand : Bool) {s : Session σ} (hopen : s.trNil = false) {e : Err}
    {t : Tr σ}
    (hrun : (Session.writeQueryHeader cmd.id s.freshID maxRows fetchSize params.length >>= fun _ =>
      Tr.writeParams "h2go: executeQueryWire: encode param %d: %w" cmd.params 0 params) s.tr
        = .fail e t) (he : e.Plain)
    : ∃ e' t', Session.executeQueryWire ctx cmd maxRows fetchSize params ownsCommand s
        = .fail e' (Session.left { s with nextID := s.freshID } t'
            (ctx.discards (s.clock + 1) e.isTimeout)) ∧
        t'.written = t.written ++ Session.closing ownsCommand cmd t ∧
        (ownsCommand = false → t' = t) := by
  let s1 : Session σ := { s with nextID := s.freshID }
  have hbody : ∀ f : Unit → Prog Err (Session σ) Rows,
      (Session.io (Session.writeQueryHeader cmd.id s.freshID maxRows fetchSize params.length) >>=
        fun _ => Session.io
          (Tr.writeParams "h2go: executeQueryWire: encode param %d: %w" cmd.params 0 params) >>= f) s1
          = .fail e (s1.setTr t) := by
    intro f
    rw [← Prog.bind_assoc, Session.io_bind]
    exact Prog.bind_of_fail (Session.io_of_fail (s := s1) hopen hrun) f
  unfold Session.executeQueryWire
  rw [Prog.bind_run, Session.nextCommandID_run, Out.andThen_ok]
  cases ownsCommand with
  | false =>
    obtain ⟨e', hctx⟩ := Session.withContext_left ctx (s := s1) he
      (Prog.onFail_of_fail (h := Session.closeOwned false cmd) (hbody _))
    exact ⟨e', t, hctx, (List.append_nil _).symm, fun _ => rfl⟩
  | true =>
    obtain ⟨r, t', hclose, hwritten⟩ := Session.closeCommand_written cmd (s := s1.setTr t) hopen
    obtain ⟨e', hctx⟩ := Session.withContext_left ctx (s := s1) he
      ((Prog.onFail_of_fail (h := Session.closeOwned true cmd) (hbody _)).trans
        (Prog.bind_of_ok hclose _))
    exact ⟨e', t', hctx, hwritten, fun h => by cases h⟩

theorem update_breaks (ctx : Ctx) {cmd : PreparedCommand} {params : List Value} {s : Session σ}
    (hcan : s.CanUpdate cmd params) {e : Err} {t : Tr σ}
    (hrun : (Tr.writeUpdateHeader cmd.id params.length >>= fun _ =>
      Tr.writeParams "h2go: ExecuteUpdatePreparedWithParams: encode param %d: %w" cmd.params 0
        params) s.tr = .fail e t) (he : e.Plain)
    : ∃ e', Session.executeUpdatePreparedWithParams ctx cmd params s
        = .fail e' (s.left t (ctx.discards (s.clock + 1) e.isTimeout)) := by
  rw [Session.executeUpdate_eq ctx hcan]
  apply Session.withContext_left ctx he
  apply Prog.bind_of_fail
  unfold Session.sendUpdate
  rw [← Prog.bind_assoc, Session.io_bind]
  exact Prog.bind_of_fail (Session.io_of_fail hcan.1 hrun) _

def header (x : Execution) (cmd : PreparedCommand) (s : Session σ) (paramCount : Nat) : List UInt8 :=
  match x with
  | .adHocQuery maxRows fetchSize | .preparedQuery maxRows fetchSize _ =>
    queryHeader cmd.id s.freshID maxRows fetchSize paramCount
  | .adHocUpdate | .preparedUpdate _ => updateHeader cmd.id paramCount

omit [Peer σ] [GoStd] in
theorem length_header (x : Execution) (cmd : PreparedCommand) (s : Session σ) (paramCount : Nat)
    : (x.header cmd s paramCount).length = x.headerSize := by
  cases x with
  | adHocQuery | preparedQuery => simp [header, headerSize, isQuery, queryHeader]
  | adHocUpdate | preparedUpdate => simp [header, headerSize, isQuery, updateHeader]

/--
The parameter `p` cannot be written, and the call returns that error. The session is dead if the
context says so. Otherwise the header, the parameters before `p` and a part `y` of a value are on the
stream, which is all of the value only if the `COMMAND_CLOSE` behind the header is taken for it.
-/
theorem breaks (x : Execution) (ctx : Ctx) (cmd : PreparedCommand) {before after : List Value}
    {p : Value} {s : Session σ} (hstart : x.Starts cmd (before ++ p :: after) s)
    (hbefore : Tr.AllFit cmd.params 0 before) {n : Nat}
    (hn : n = x.headerSize + (Tr.paramBytes cmd.params 0 before).length) (htakes : s.tr.Takes n)
    (hp : s.tr.FailsOn p (cmd.params[before.length]?.map ParameterMeta.typeInfo) n)
    : ∃ e s' timeout t y, x.run ctx cmd (before ++ p :: after) s = .fail e s' ∧
        s'.dead = ctx.discards (s.clock + 1) timeout ∧
        (timeout = true ↔
          ¬ p.Unencodable (cmd.params[before.length]?.map ParameterMeta.typeInfo) ∧
            s.tr.writeFault = .timeout) ∧
        Tr.CutShort p (cmd.params[before.length]?.map ParameterMeta.typeInfo) n s.tr t y ∧
        (s'.dead = false → s'.tr.written = s.tr.written ++
          (x.header cmd s (before ++ p :: after).length ++ (Tr.paramBytes cmd.params 0 before ++
            (y ++ Session.closing x.closes cmd t)))) := by
  obtain ⟨hopen, -, hcan⟩ := hstart
  rw [← x.length_header cmd s (before ++ p :: after).length] at hn
  cases x with
  | adHocQuery maxRows fetchSize =>
    obtain ⟨e, t, y, hrun, hplain, htime, hwritten, hcut⟩ := Tr.params_cutShort
      "h2go: executeQueryWire: encode param %d: %w" hbefore
      (writes_writeQueryHeader cmd.id s.freshID maxRows fetchSize _) hn htakes hp
    obtain ⟨e', t', hquery, hclosed, -⟩ := query_breaks ctx true hopen hrun hplain
    have hdead := Session.left_dead (s := { s with nextID := s.freshID }) hopen t'
      (ctx.discards (s.clock + 1) e.isTimeout)
    refine ⟨e', _, e.isTimeout, t, y, Prog.bind_of_fail hquery _, hdead, htime, hcut, fun _ => ?_⟩
    rw [Session.left_tr, hclosed, hwritten]
    simp only [List.append_assoc]
    rfl
  | preparedQuery maxRows fetchSize closed =>
    obtain ⟨e, t, y, hrun, hplain, htime, hwritten, hcut⟩ := Tr.params_cutShort
      "h2go: executeQueryWire: encode param %d: %w" hbefore
      (writes_writeQueryHeader cmd.id s.freshID maxRows fetchSize _) hn htakes hp
    obtain ⟨e', t', hquery, -, hsame⟩ := query_breaks ctx false hopen hrun hplain
    rw [hsame rfl] at hquery
    obtain ⟨s', hrun', hdead, hclosed⟩ := Session.thenClose_left closed cmd (by exact hopen) hquery
    refine ⟨e', s', e.isTimeout, t, y, Prog.bind_of_fail hrun' _, hdead, htime, hcut, fun halive => ?_⟩
    rw [hclosed (hdead.symm.trans halive), hwritten]
    simp only [List.append_assoc]
    rfl
  | adHocUpdate =>
    obtain ⟨e, t, y, hrun, hplain, htime, hwritten, hcut⟩ := Tr.params_cutShort
      "h2go: ExecuteUpdatePreparedWithParams: encode param %d: %w" hbefore
      (writes_writeUpdateHeader cmd.id _) hn htakes hp
    obtain ⟨e', hupdate⟩ := update_breaks ctx (hcan rfl) hrun hplain
    obtain ⟨s', hrun', hdead, hclosed⟩ := Session.thenClose_left true cmd hopen hupdate
    rw [← Session.executeAndClose_eq] at hrun'
    refine ⟨e', s', e.isTimeout, t, y, Prog.bind_of_fail hrun' _, hdead, htime, hcut, fun halive => ?_⟩
    rw [hclosed (hdead.symm.trans halive), hwritten]
    simp only [List.append_assoc]
    rfl
  | preparedUpdate closed =>
    obtain ⟨e, t, y, hrun, hplain, htime, hwritten, hcut⟩ := Tr.params_cutShort
      "h2go: ExecuteUpdatePreparedWithParams: encode param %d: %w" hbefore
      (writes_writeUpdateHeader cmd.id _) hn htakes hp
    obtain ⟨e', hupdate⟩ := update_breaks ctx (hcan rfl) hrun hplain
    obtain ⟨s', hrun', hdead, hclosed⟩ := Session.thenClose_left closed cmd hopen hupdate
    refine ⟨e', s', e.isTimeout, t, y, Prog.bind_of_fail hrun' _, hdead, htime, hcut, fun halive => ?_⟩
    rw [hclosed (hdead.symm.trans halive), hwritten]
    simp only [List.append_assoc]
    rfl

omit [Peer σ] [GoStd] in
/--
What is there of the parameter `p` is part of a value. The `COMMAND_CLOSE` behind the parameters is
taken for a value too, since its first four bytes are the type code of an `INTEGER`.
-/
theorem exists_rest {p : Value} {paramType : Option TypeInfo} {n : Nat} {t t' : Tr σ} {y : List UInt8}
    (closed : Bool) (cmd : PreparedCommand) (hcut : Tr.CutShort p paramType n t t' y)
    (htakes : t.Takes n)
    : ∃ suf, valueLayout ((y ++ Session.closing closed cmd t') ++ suf) ∧
        (suf = [] ↔ closed = true ∧ p.Unencodable paramType ∧ t.Takes (n + 8)) := by
  have hlength : (commandCloseRequest cmd.id).length = 8 := by simp [commandCloseRequest]
  by_cases hun : p.Unencodable paramType
  . obtain ⟨rfl, hroom⟩ := hcut.none hun
    cases closed with
    | false =>
      refine ⟨commandCloseRequest cmd.id, valueLayout_commandClose _, ?_⟩
      rw [← List.length_eq_zero_iff, hlength]
      simp
    | true =>
      refine ⟨(commandCloseRequest cmd.id).drop (t'.room 8), ?_, ?_⟩
      . rw [List.nil_append, Session.closing, if_pos rfl, List.take_append_drop]
        exact valueLayout_commandClose _
      . have hle : t'.room 8 ≤ 8 := by unfold Tr.room; split <;> omega
        rw [List.drop_eq_nil_iff, hlength, ← Tr.takes_of_room htakes hroom, Tr.takes_iff_room]
        simp only [hun, true_and]
        omega
  . obtain ⟨⟨suf, hne, hlayout⟩, hroom⟩ := hcut.some hun
    refine ⟨suf, ?_, by simp [hne, hun]⟩
    have hnil : Session.closing closed cmd t' = [] := by simp [Session.closing, hroom]
    rw [hnil, List.append_nil]
    exact hlayout

omit [GoStd] in
theorem discards_eq_true {ctx : Ctx} {now : Nat} {timeout : Bool}
    : ctx.discards now timeout = true ↔
        ctx.err now ≠ none ∨ ctx.deadlinePassed now = true ∧ timeout = true := by
  simp [Ctx.discards, Option.isSome_iff_ne_none]

/--
A parameter that cannot be written leaves an unfinished request on a live session, but for these
cases: the context has ended, the connection has timed out and the deadline of the context has passed,
or a query is followed by a `COMMAND_CLOSE` that happens to be the only value missing.
-/
theorem request_atomic_iff (x : Execution) (ctx : Ctx) (cmd : PreparedCommand)
    (before after : List Value) (p : Value) (s : Session σ) (hello : List UInt8)
    (hstart : x.Starts cmd (before ++ p :: after) s) (hboundary : s.tr.AtBoundary hello)
    (hbefore : Tr.AllFit cmd.params 0 before) (n : Nat)
    (hn : n = x.headerSize + (Tr.paramBytes cmd.params 0 before).length) (htakes : s.tr.Takes n)
    (hp : s.tr.FailsOn p (cmd.params[before.length]?.map ParameterMeta.typeInfo) n)
    : ∃ e s', x.run ctx cmd (before ++ p :: after) s = .fail e s' ∧
        (s'.dead = true ∨ s'.tr.AtBoundary hello ↔
          ctx.err (s.clock + 1) ≠ none ∨
          (ctx.deadlinePassed (s.clock + 1) = true ∧ s.tr.writeFault = .timeout ∧
            ¬ p.Unencodable (cmd.params[before.length]?.map ParameterMeta.typeInfo)) ∨
          (x.isQuery = true ∧ x.closes = true ∧ after = [] ∧
            p.Unencodable (cmd.params[before.length]?.map ParameterMeta.typeInfo) ∧
            s.tr.Takes (n + 8))) := by
  obtain ⟨e, s', timeout, t, y, hrun, hdead, htime, hcut, hwritten⟩ :=
    x.breaks ctx cmd hstart hbefore hn htakes hp
  obtain ⟨suf, hsuf, hrest⟩ := exists_rest x.closes cmd hcut htakes
  refine ⟨e, s', hrun, ?_⟩
  have halive : s'.dead = false → (s'.tr.AtBoundary hello ↔ x.isQuery = true ∧ suf = [] ∧ after = []) := by
    intro h
    rw [Tr.atBoundary_iff hboundary (hwritten h)]
    have hcount := hstart.2.1
    rw [List.length_append, List.length_cons] at hcount ⊢
    have hbs := Tr.times_paramBytes hbefore
    cases x with
    | adHocQuery | preparedQuery =>
      rw [header, whole_query_iff hcount hbs hsuf]
      simp [isQuery]
    | adHocUpdate | preparedUpdate => simp [header, not_whole_update hcount hbs hsuf, isQuery]
  have hgone : s'.dead = true ↔ ctx.err (s.clock + 1) ≠ none ∨
      ctx.deadlinePassed (s.clock + 1) = true ∧ s.tr.writeFault = .timeout ∧
        ¬ p.Unencodable (cmd.params[before.length]?.map ParameterMeta.typeInfo) := by
    rw [hdead, discards_eq_true, htime, and_comm (b := s.tr.writeFault = .timeout)]
  rw [← or_assoc, ← hgone]
  refine or_congr_right' (fun h => ?_)
  rw [halive (Bool.eq_false_of_not_eq_true h), hrest]
  constructor
  . rintro ⟨hquery, ⟨hcloses, hun, htakes'⟩, hlast⟩
    exact ⟨hquery, hcloses, hlast, hun, htakes'⟩
  . rintro ⟨hquery, hcloses, hlast, hun, htakes'⟩
    exact ⟨hquery, ⟨hcloses, hun, htakes'⟩, hlast⟩

end Execution

namespace Execution

open StandIn

def uuidCommand : PreparedCommand :=
  { id := 1, sql := [], isQuery := true, readOnly := true, cmdType := cmdUnknown, paramCount := 1
    params := [⟨0, ⟨.uuid, 16, 0, columnNullableUnknown, none⟩⟩] }

theorem unencodable_letter
    : (Value.string (ascii "x")).Unencodable (uuidCommand.params[0]?.map ParameterMeta.typeInfo) :=
  ⟨rfl, _, rfl⟩

theorem atBoundary_fresh : (repliedSession []).tr.AtBoundary [] := ⟨[], rfl, whole_nil⟩

def textCommand : PreparedCommand :=
  { uuidCommand with
    paramCount := 2
    params := ⟨0, ⟨.varchar, 16, 0, columnNullableUnknown, none⟩⟩ :: uuidCommand.params }

theorem request_atomic_closed
    : ∃ e s', (adHocQuery 0 0).run .background textCommand
        [.string (ascii "ab"), .string (ascii "x")] (repliedSession []) = .fail e s' ∧
        (s'.dead = true ∨ s'.tr.AtBoundary []) := by
  have hfits : Tr.AllFit textCommand.params 0 [.string (ascii "ab")] :=
    ⟨show (utf16Encode (ascii "ab")).length < 2 ^ 31 by decide +kernel, trivial⟩
  obtain ⟨e, s', hrun, hatomic⟩ := request_atomic_iff (adHocQuery 0 0) .background textCommand
    [.string (ascii "ab")] [] (.string (ascii "x")) (repliedSession []) []
    ⟨rfl, by decide, fun h => by cases h⟩ atBoundary_fresh hfits _ rfl (fun _ h => by cases h)
    (.inl unencodable_letter)
  refine ⟨e, s', hrun, hatomic.mpr (.inr (.inr ⟨rfl, rfl, rfl, unencodable_letter, ?_⟩))⟩
  intro budget h
  cases h

/--
A query of a statement whose parameter is no UUID leaves the header of the request in the buffer of a
session that goes on.
-/
theorem request_torn
    : (repliedSession []).tr.AtBoundary [] ∧
        ∃ e s', (preparedQuery 0 0 false).run .background uuidCommand [.string (ascii "x")]
            (repliedSession []) = .fail e s' ∧ s'.dead = false ∧ ¬ s'.tr.AtBoundary [] := by
  refine ⟨atBoundary_fresh, ?_⟩
  have hrun : ((preparedQuery 0 0 false).run .background uuidCommand [.string (ascii "x")]
      (repliedSession [])).fails (fun _ s' =>
        !s'.dead && decide (s'.tr.written = queryHeader 1 1 0 0 1)) = true := by decide +kernel
  obtain ⟨e, s', hfail, hrun⟩ := Out.exists_of_fails hrun
  obtain ⟨hdead, hwritten⟩ := Bool.and_eq_true_iff.mp hrun
  have hwritten := of_decide_eq_true hwritten
  refine ⟨e, s', hfail, by simpa using hdead, fun h => ?_⟩
  have hwhole := (Tr.atBoundary_iff atBoundary_fresh hwritten).mp h
  have hnone := (whole_query_iff (i := 0) (n := 0) (x := []) (by decide) times_zero
    (valueLayout_commandClose 1) 1 1 0 0).mp hwhole
  cases hnone.1

end Execution

end H2Go
