import H2Go.DSN.Lemmas

/-!
This module contains the proof that `splitSettingSegments` undoes the escaping of settings, and what
it does with text that was not escaped.
-/

namespace H2Go

/--
The escaping of H2, a backslash in front of every backslash and semicolon.
-/
def escapeSetting (s : GoString) : GoString :=
  s.flatMap (fun c => if c = backslashByte ∨ c = semicolonByte then [backslashByte, c] else [c])

def joinSettings (segs : List GoString) : GoString :=
  [semicolonByte].intercalate (segs.map escapeSetting)

/--
Byte `i` follows a backslash that is not itself consumed.
-/
def consumed (s : GoString) (i : Nat) : Bool :=
  match i with
  | 0 => false
  | i + 1 => s[i]? = some backslashByte && !consumed s i

/--
The number of semicolons that no backslash consumes.
-/
def separators (s : GoString) : Nat :=
  (List.range s.length).countP (fun i => s[i]? = some semicolonByte && !consumed s i)

def appendToLast (segs : List GoString) (b : GoString) : List GoString :=
  segs.dropLast ++ [segs.getLastD [] ++ b]

section Consumed

variable {c : UInt8} {s : GoString}

theorem consumed_cons (hc : c ≠ backslashByte) (i : Nat)
    : consumed (c :: s) (i + 1) = consumed s i := by
  induction i with
  | zero => simp [consumed, hc]
  | succ i ih => rw [consumed, ih, consumed, List.getElem?_cons_succ]

theorem consumed_length_cons (hc : c ≠ backslashByte)
    : consumed (c :: s) (c :: s).length = consumed s s.length :=
  consumed_cons hc s.length

theorem consumed_escaped (d : UInt8) (i : Nat)
    : consumed (backslashByte :: d :: s) (i + 2) = consumed s i := by
  induction i with
  | zero => simp [consumed]
  | succ i ih => rw [consumed, ih, consumed, List.getElem?_cons_succ, List.getElem?_cons_succ]

theorem separators_nil : separators [] = 0 := rfl

theorem separators_singleton (hc : c ≠ semicolonByte) : separators [c] = 0 := by
  simp [separators, hc]

theorem separators_cons (hc : c ≠ backslashByte)
    : separators (c :: s) = (if c = semicolonByte then 1 else 0) + separators s := by
  unfold separators
  rw [List.length_cons, List.range_succ_eq_map, List.countP_cons, List.countP_map]
  have hrest : ((fun i => (c :: s)[i]? = some semicolonByte && !consumed (c :: s) i) ∘ Nat.succ)
      = fun i => s[i]? = some semicolonByte && !consumed s i := by
    funext i
    simp only [Function.comp_apply, Nat.succ_eq_add_one, consumed_cons hc, List.getElem?_cons_succ]
  rw [hrest, Nat.add_comm]
  simp [consumed]

theorem separators_escaped (d : UInt8)
    : separators (backslashByte :: d :: s) = separators s := by
  unfold separators
  rw [List.length_cons, List.length_cons, List.range_succ_eq_map, List.range_succ_eq_map,
    List.countP_cons, List.map_cons, List.countP_cons, List.map_map, List.countP_map]
  have hrest : ((fun i => (backslashByte :: d :: s)[i]? = some semicolonByte &&
        !consumed (backslashByte :: d :: s) i) ∘ Nat.succ ∘ Nat.succ)
      = fun i => s[i]? = some semicolonByte && !consumed s i := by
    funext i
    simp only [Function.comp_apply, Nat.succ_eq_add_one, consumed_escaped, List.getElem?_cons_succ]
  rw [hrest]
  simp [consumed, backslashByte, semicolonByte]

end Consumed

namespace splitSettingSegments

theorem go_escapeSetting (segs : List GoString) (b a s : GoString)
    : go segs b (escapeSetting a ++ s) = go segs (b ++ a) s := by
  induction a generalizing b with
  | nil => simp [escapeSetting]
  | cons c a ih =>
    have hcons : escapeSetting (c :: a)
        = (if c = backslashByte ∨ c = semicolonByte then [backslashByte, c] else [c]) ++
          escapeSetting a := rfl
    rw [hcons, List.append_assoc]
    split
    . rw [List.cons_append, List.cons_append, List.nil_append, go_escaped, ih, List.append_assoc,
        List.singleton_append]
    . next hc =>
      rw [not_or] at hc
      rw [List.singleton_append, go_plain _ _ hc.1 hc.2, ih, List.append_assoc, List.singleton_append]

theorem go_joinSettings (segs : List GoString) (seg : GoString) (rest : List GoString)
    : go segs [] (joinSettings (seg :: rest)) = segs ++ seg :: rest := by
  induction rest generalizing segs seg with
  | nil =>
    have hjoin : joinSettings [seg] = escapeSetting seg ++ [] := by simp [joinSettings]
    rw [hjoin, go_escapeSetting, List.nil_append, go]
  | cons seg' rest ih =>
    have hjoin : joinSettings (seg :: seg' :: rest)
        = escapeSetting seg ++ semicolonByte :: joinSettings (seg' :: rest) := by
      simp [joinSettings, List.intercalate]
    rw [hjoin, go_escapeSetting, go_separator, ih, List.append_assoc, List.nil_append,
      List.singleton_append]

theorem length_go (segs : List GoString) (b s : GoString)
    : (go segs b s).length = segs.length + 1 + separators s := by
  fun_induction go segs b s with
  | case1 segs b => rw [List.length_append, List.length_singleton, separators_nil]
  | case2 segs b ih =>
    rw [ih, separators_cons (by decide), List.length_append, if_pos rfl, List.length_singleton]
    omega
  | case3 segs b c h ih => rw [ih, separators_singleton h, separators_nil]
  | case4 segs b d s ih => rw [ih, separators_escaped]
  | case5 segs b d s h ih =>
    rw [ih, separators_cons h, List.length_append, if_pos rfl, List.length_singleton]
    omega
  | case6 segs b c d s h h' ih =>
    rw [ih, separators_cons h, if_neg h']
    omega

/--
A backslash at the end is kept unless another one consumes it, in which case the one before it would
have been kept.
-/
theorem go_concat_backslash (segs : List GoString) (b s : GoString)
    : go segs b (s ++ [backslashByte])
      = if consumed s s.length then go segs b s else appendToLast (go segs b s) [backslashByte] := by
  fun_induction go segs b s with
  | case1 segs b => simp [go, consumed, appendToLast, backslashByte, semicolonByte]
  | case2 segs b ih =>
    rw [List.nil_append] at ih
    rw [List.singleton_append, go_separator, ih, consumed_length_cons (by decide)]
  | case3 segs b c h ih =>
    by_cases hc : c = backslashByte
    . rw [hc, List.singleton_append, go_escaped, if_pos (by simp [consumed])]
    . rw [List.nil_append] at ih
      rw [List.singleton_append, go_plain _ _ hc h, ih, consumed_length_cons hc]
  | case4 segs b d s ih =>
    rw [List.cons_append, List.cons_append, go_escaped, ih, List.length_cons, List.length_cons,
      consumed_escaped]
  | case5 segs b d s h ih =>
    rw [List.cons_append, go_separator, ih, consumed_length_cons h]
  | case6 segs b c d s h h' ih =>
    rw [List.cons_append, go_plain _ _ h h', ih, consumed_length_cons h]

theorem go_append_separator (segs : List GoString) (b : GoString) {s : GoString}
    (h : consumed s s.length = false) (rest : GoString)
    : go segs b (s ++ semicolonByte :: rest) = go (go segs b s) [] rest := by
  fun_induction go segs b s with
  | case1 segs b => rw [List.nil_append, go_separator]
  | case2 segs b ih => rw [List.singleton_append, go_separator, ← ih rfl, List.nil_append]
  | case3 segs b c hc ih =>
    have hne : c ≠ backslashByte := by
      rintro rfl
      simp [consumed] at h
    rw [List.singleton_append, go_plain _ _ hne hc, ← ih rfl, List.nil_append]
  | case4 segs b d s ih =>
    rw [List.length_cons, List.length_cons, consumed_escaped] at h
    rw [List.cons_append, List.cons_append, go_escaped, ih h]
  | case5 segs b d s hc ih =>
    rw [consumed_length_cons hc] at h
    rw [List.cons_append, go_separator, ih h]
  | case6 segs b c d s hc hc' ih =>
    rw [consumed_length_cons hc] at h
    rw [List.cons_append, go_plain _ _ hc hc', ih h]

end splitSettingSegments

/--
Splitting returns the settings whose escaped texts were joined. For any text, the number of segments
is one more than the number of separators, and a trailing backslash that is not consumed is kept.
-/
theorem splitSettingSegments_spec
    : (∀ (seg : GoString) (segs : List GoString),
        splitSettingSegments (joinSettings (seg :: segs)) = seg :: segs) ∧
      ∀ s : GoString,
        (splitSettingSegments s).length = separators s + 1 ∧
        splitSettingSegments (s ++ [backslashByte])
          = if consumed s s.length then splitSettingSegments s
            else appendToLast (splitSettingSegments s) [backslashByte] := by
  constructor
  . intro seg segs
    rw [splitSettingSegments_eq, splitSettingSegments.go_joinSettings, List.nil_append]
  . intro s
    rw [splitSettingSegments_eq, splitSettingSegments_eq]
    constructor
    . rw [splitSettingSegments.length_go, List.length_nil, Nat.zero_add, Nat.add_comm]
    . exact splitSettingSegments.go_concat_backslash [] [] s

end H2Go
