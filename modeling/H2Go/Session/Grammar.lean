import H2Go.Session.Update
import H2Go.Lib.Layout
import H2Go.Transfer.Length

/-!
This module contains the requests as the server sees them: how many bytes belong to a value, and how
many to a request.
-/

namespace H2Go

open BigEndian Layout

/--
A signed 32-bit count, and that many elements of `size` bytes after it. The count `-1` stands for the
missing text.
-/
def countedLayout (size : Nat) : Layout UInt8 :=
  seq (exactly 4) (fun n => if beInt n < -1 then never else exactly (size * (beInt n).toNat))

def stringLayout : Layout UInt8 := countedLayout 2

def bytesLayout : Layout UInt8 := countedLayout 1

/--
The ordinal byte of an interval decides whether it has a second number.
-/
def intervalLayout : Layout UInt8 :=
  seq (exactly 1) (fun x =>
    let ordinal := beNat x
    let qualifier := intervalQualifier (if 128 ≤ ordinal then (255 - ordinal) % 128 else ordinal)
    exactly (if qualifier.hasRemaining then 16 else 8))

def clobCharLayout : Layout UInt8 :=
  seq (exactly 1) (fun x => exactly (if beNat x < 0x80 then 0 else if 0xe0 ≤ beNat x then 2 else 1))

/--
A LOB that is sent along or that is fetched on demand, `data n` is the layout of its data and
`lengths` the size of the lengths at the end of a reference.
-/
def lobLayout (data : Nat → Layout UInt8) (lengths : Nat) : Layout UInt8 :=
  seq (exactly 8) (fun n =>
    if beInt n = -1 then
      seq (exactly 12) (fun _ => seq bytesLayout (fun _ => exactly lengths))
    else if beInt n < 0 then
      never
    else
      seq (data (beInt n).toNat) (fun _ => exactly 4))

def elementsLayout (nested : Layout UInt8) : Layout UInt8 :=
  seq (exactly 4) (fun n => if beInt n < 0 then never else times nested (beInt n).toNat)

/--
An array in the layout of today or, with the complement of the count, in the one that has a type name.
-/
def arrayLayout (nested : Layout UInt8) : Layout UInt8 :=
  seq (exactly 4) (fun n =>
    if beInt n < 0 then
      seq stringLayout (fun _ => times nested (-beInt n - 1).toNat)
    else
      times nested (beInt n).toNat)

def typedLayout (nested : Layout UInt8) (t : ValueType) : Layout UInt8 :=
  match t with
  | .null => exactly 0
  | .boolean | .tinyint => exactly 1
  | .smallint => exactly 2
  | .integer | .real | .enum => exactly 4
  | .bigint | .double | .date | .time => exactly 8
  | .timeTZ => exactly 12
  | .timestamp | .uuid => exactly 16
  | .timestampTZ => exactly 20
  | .numeric | .varchar | .varcharIgnoreCase | .char | .decfloat => stringLayout
  | .varbinary | .binary | .json | .geometry | .javaObject => bytesLayout
  | .interval => intervalLayout
  | .blob => lobLayout exactly 8
  | .clob => lobLayout (times clobCharLayout) 16
  | .array => arrayLayout nested
  | .row => elementsLayout nested
  | .other _ => never

def nestedLayout (depth : Nat) : Layout UInt8 :=
  match depth with
  | 0 => never
  | depth + 1 =>
    seq (exactly 4) (fun code => typedLayout (nestedLayout depth) (ValueType.ofCode (beInt code)))

def valueLayout : Layout UInt8 := fun x => ∃ depth, nestedLayout depth x

def paramsLayout : Layout UInt8 := elementsLayout valueLayout

def keysLayout : Layout UInt8 :=
  seq (exactly 4) (fun mode =>
    if beInt mode = generatedKeysColumnNumbers then elementsLayout (exactly 4)
    else if beInt mode = generatedKeysColumnNames then elementsLayout stringLayout
    else exactly 0)

def argumentsLayout (op : Int) : Layout UInt8 :=
  if op = sessionPrepare ∨ op = sessionPrepareReadParams2 then
    seq (exactly 4) (fun _ => stringLayout)
  else if op = commandExecuteQuery then
    seq (exactly 20) (fun _ => paramsLayout)
  else if op = commandExecuteUpdate then
    seq (exactly 4) (fun _ => seq paramsLayout (fun _ => keysLayout))
  else if op = commandClose ∨ op = resultClose then
    exactly 4
  else if op = resultFetchRows then
    exactly 8
  else if op = sessionSetAutocommit then
    exactly 1
  else if op = lobRead then
    seq (exactly 8) (fun _ => seq bytesLayout (fun _ => exactly 12))
  else if op = commandCommit ∨ op = sessionHasPendingTransaction ∨ op = sessionClose then
    exactly 0
  else
    never

/--
The complete requests that the driver sends after the handshake.
-/
def requestLayout : Layout UInt8 := seq (exactly 4) (fun op => argumentsLayout (beInt op))

theorem delimited_countedLayout (size : Nat) : Delimited (countedLayout size) :=
  (delimited_exactly 4).seq (fun _ => delimited_never.ite (delimited_exactly _))

theorem delimited_elementsLayout {nested : Layout UInt8} (h : Delimited nested)
    : Delimited (elementsLayout nested) :=
  (delimited_exactly 4).seq (fun _ => delimited_never.ite (h.times _))

theorem delimited_arrayLayout {nested : Layout UInt8} (h : Delimited nested)
    : Delimited (arrayLayout nested) :=
  (delimited_exactly 4).seq (fun _ =>
    ((delimited_countedLayout 2).seq (fun _ => h.times _)).ite (h.times _))

theorem delimited_lobLayout {data : Nat → Layout UInt8} (hdata : ∀ n, Delimited (data n))
    (lengths : Nat)
    : Delimited (lobLayout data lengths) := by
  refine (delimited_exactly 8).seq (fun n => ?_)
  apply Delimited.ite
  . exact (delimited_exactly 12).seq (fun _ =>
      (delimited_countedLayout 1).seq (fun _ => delimited_exactly lengths))
  . exact delimited_never.ite ((hdata _).seq (fun _ => delimited_exactly 4))

theorem delimited_clobCharLayout : Delimited clobCharLayout :=
  (delimited_exactly 1).seq (fun _ => delimited_exactly _)

theorem delimited_typedLayout {nested : Layout UInt8} (h : Delimited nested) (t : ValueType)
    : Delimited (typedLayout nested t) := by
  cases t with
  | interval => exact (delimited_exactly 1).seq (fun _ => delimited_exactly _)
  | numeric | varchar | varcharIgnoreCase | char | decfloat => exact delimited_countedLayout 2
  | varbinary | binary | json | geometry | javaObject => exact delimited_countedLayout 1
  | blob => exact delimited_lobLayout delimited_exactly 8
  | clob => exact delimited_lobLayout (fun n => delimited_clobCharLayout.times n) 16
  | array => exact delimited_arrayLayout h
  | row => exact delimited_elementsLayout h
  | other => exact delimited_never
  | null | boolean | tinyint | smallint | integer | bigint | double | real | time | date | timestamp
  | uuid | timestampTZ | enum | timeTZ => exact delimited_exactly _

theorem delimited_nestedLayout (depth : Nat) : Delimited (nestedLayout depth) := by
  induction depth with
  | zero => exact delimited_never
  | succ depth ih => exact (delimited_exactly 4).seq (fun _ => delimited_typedLayout ih _)

theorem typedLayout_imp {nested nested' : Layout UInt8} (h : ∀ x, nested x → nested' x)
    {t : ValueType} {x : List UInt8} (hx : typedLayout nested t x)
    : typedLayout nested' t x := by
  cases t with
  | array =>
    refine seq_imp hx (fun n y hy => ?_)
    split at hy
    . next hneg =>
      rw [if_pos hneg]
      exact seq_imp hy (fun _ _ => times_imp h)
    . next hpos =>
      rw [if_neg hpos]
      exact times_imp h hy
  | row =>
    refine seq_imp hx (fun n y hy => ?_)
    split at hy
    . exact absurd hy id
    . next hpos =>
      rw [if_neg hpos]
      exact times_imp h hy
  | _ => exact hx

theorem nestedLayout_mono {depth depth' : Nat} (h : depth ≤ depth') {x : List UInt8}
    (hx : nestedLayout depth x)
    : nestedLayout depth' x := by
  induction depth generalizing depth' x with
  | zero => exact absurd hx id
  | succ depth ih =>
    obtain ⟨depth', rfl⟩ : ∃ n, depth' = n + 1 := ⟨depth' - 1, by omega⟩
    exact seq_imp hx (fun _ _ => typedLayout_imp (fun _ => ih (by omega)))

theorem delimited_valueLayout : Delimited valueLayout := by
  rintro x y r r' ⟨depth, hx⟩ ⟨depth', hy⟩ h
  exact delimited_nestedLayout (max depth depth') (nestedLayout_mono (Nat.le_max_left _ _) hx)
    (nestedLayout_mono (Nat.le_max_right _ _) hy) h

theorem delimited_keysLayout : Delimited keysLayout :=
  (delimited_exactly 4).seq (fun _ => (delimited_elementsLayout (delimited_exactly 4)).ite
    ((delimited_elementsLayout (delimited_countedLayout 2)).ite (delimited_exactly 0)))

theorem delimited_paramsLayout : Delimited paramsLayout :=
  delimited_elementsLayout delimited_valueLayout

theorem delimited_argumentsLayout (op : Int) : Delimited (argumentsLayout op) := by
  refine .ite ((delimited_exactly 4).seq (fun _ => delimited_countedLayout 2)) ?_
  refine .ite ((delimited_exactly 20).seq (fun _ => delimited_paramsLayout)) ?_
  refine .ite ((delimited_exactly 4).seq (fun _ =>
    delimited_paramsLayout.seq (fun _ => delimited_keysLayout))) ?_
  refine .ite (delimited_exactly 4) ?_
  refine .ite (delimited_exactly 8) ?_
  refine .ite (delimited_exactly 1) ?_
  refine .ite ((delimited_exactly 8).seq (fun _ =>
    (delimited_countedLayout 1).seq (fun _ => delimited_exactly 12))) ?_
  exact .ite (delimited_exactly 0) delimited_never

theorem delimited_requestLayout : Delimited requestLayout :=
  (delimited_exactly 4).seq (fun op => delimited_argumentsLayout (beInt op))

theorem not_valueLayout_nil : ¬ valueLayout [] := by
  rintro ⟨depth, h⟩
  cases depth with
  | zero => exact h
  | succ depth =>
    obtain ⟨u, v, hnil, hu, -⟩ := h
    rw [(List.append_eq_nil_iff.mp hnil.symm).1] at hu
    cases hu

theorem valueLayout_typed {t : ValueType} (ht : t ∈ ValueType.named) {body : List UInt8}
    (h : typedLayout never t body)
    : valueLayout (intBytes 4 t.code ++ body) := by
  have hcode : ∀ t ∈ ValueType.named, -2 ^ 31 ≤ t.code ∧ t.code < 2 ^ 31 := by decide
  have hrange := hcode t ht
  refine ⟨1, seq_append (length_intBytes 4 _) ?_⟩
  rw [beInt_intBytes (by omega) (by omega), ValueType.ofCode_code ht]
  exact h

theorem countedLayout_append {size n : Nat} {body : List UInt8} (hn : n < 2 ^ 31)
    (hbody : body.length = size * n)
    : countedLayout size (beBytes 4 n ++ body) := by
  refine seq_append (length_beBytes 4 n) ?_
  rw [(Tr.beInt_beBytes_eq_iff n).mpr hn, if_neg (by omega), Int.toNat_natCast]
  exact hbody

end H2Go
