import H2Go.Transfer.Impl
import H2Go.Lib.Progress

/-!
This module contains the lemmas about the transfer stream: what every primitive read consumes, that
none of them panics, and that a sequence of writes is one write.
-/

namespace H2Go

open BigEndian Utf8

variable {σ : Type} {α β : Type}

namespace Tr

instance (n : Nat) : LawfulReader (readFull n : Prog Err (Tr σ) _) := by
  unfold readFull
  infer_instance

instance : LawfulReader (readByte : Prog Err (Tr σ) _) := by
  unfold readByte
  infer_instance

instance : LawfulReader (readBool : Prog Err (Tr σ) _) := by
  unfold readBool
  infer_instance

instance : LawfulReader (readInt16 : Prog Err (Tr σ) _) := by
  unfold readInt16
  infer_instance

instance : LawfulReader (readInt32 : Prog Err (Tr σ) _) := by
  unfold readInt32
  infer_instance

instance : LawfulReader (readInt64 : Prog Err (Tr σ) _) := by
  unfold readInt64
  infer_instance

instance : LawfulReader (readFloat32 : Prog Err (Tr σ) _) := by
  unfold readFloat32
  infer_instance

instance : LawfulReader (readFloat64 : Prog Err (Tr σ) _) := by
  unfold readFloat64
  infer_instance

instance : LawfulReader (readRowCount : Prog Err (Tr σ) _) := by
  unfold readRowCount
  infer_instance

instance (raw : List UInt8) (length : Nat)
    : LawfulReader (rawUnits raw length : Prog Err (Tr σ) _) := by
  unfold rawUnits
  infer_instance

instance (raw : List UInt8) : LawfulReader (compact raw : Prog Err (Tr σ) _) := by
  unfold compact
  infer_instance

set_option synthInstance.maxSize 1000 in
instance : LawfulReader (readString : Prog Err (Tr σ) _) := by
  unfold readString
  infer_instance

instance : LawfulReader (readBytes : Prog Err (Tr σ) _) := by
  unfold readBytes
  infer_instance

end Tr

def lowBytes (raw : List UInt8) : List UInt8 :=
  match raw with
  | _ :: lo :: raw => lo :: lowBytes raw
  | _ => []

theorem length_lowBytes {raw : List UInt8} {n : Nat} (h : raw.length = 2 * n)
    : (lowBytes raw).length = n := by
  induction n generalizing raw with
  | zero =>
    rw [List.length_eq_zero_iff.mp h]
    rfl
  | succ n ih =>
    match raw with
    | [] => simp at h
    | [_] =>
      simp only [List.length_singleton] at h
      omega
    | hi :: lo :: raw =>
      simp only [List.length_cons] at h
      rw [lowBytes, List.length_cons, ih (by omega)]

theorem getElem?_lowBytes (raw : List UInt8) (k : Nat)
    : (lowBytes raw)[k]? = raw[2 * k + 1]? := by
  induction raw using lowBytes.induct generalizing k with
  | case1 hi lo raw ih =>
    cases k with
    | zero => rfl
    | succ k =>
      rw [lowBytes, List.getElem?_cons_succ, ih, show 2 * (k + 1) + 1 = 2 * k + 1 + 1 + 1 by omega]
      simp
  | case2 raw hraw =>
    match raw with
    | [] => rfl
    | [_] => simp [lowBytes]
    | hi :: lo :: raw => exact absurd rfl (hraw hi lo raw)

theorem utf16Decode_bytesUnits_of_ascii {raw : List UInt8} (h : ∀ u ∈ bytesUnits raw, u < 0x80)
    : utf16Decode (bytesUnits raw) = lowBytes raw := by
  induction raw using bytesUnits.induct with
  | case1 hi lo raw ih =>
    simp only [bytesUnits, List.mem_cons, forall_eq_or_imp] at h
    have hhi : hi.toNat = 0 := by omega
    have hlo : lo.toNat < 0x80 := by omega
    have hscalar : Scalar lo.toNat := .inl (by omega)
    have henc : encodeRune lo.toNat = [lo] := by
      unfold encodeRune
      rw [if_pos hlo]
      simp
    rw [bytesUnits, lowBytes, hhi, Nat.zero_mul, Nat.zero_add]
    have := utf16Decode_runeUnits_append hscalar (bytesUnits raw)
    rw [runeUnits_of_lt (by omega), henc, List.singleton_append] at this
    rw [this, ih h.2]
    rfl
  | case2 raw hraw =>
    cases raw with
    | nil => rfl
    | cons hi raw =>
      cases raw with
      | nil => rfl
      | cons lo raw => exact absurd rfl (hraw hi lo raw)

namespace Tr

theorem rawUnits_eq {raw : List UInt8} {n : Nat} (h : raw.length = 2 * n)
    : (rawUnits raw n : Prog Err (Tr σ) _) = pure (bytesUnits raw) := by
  unfold rawUnits
  -- the units before the first index `i` are in the accumulator
  suffices ∀ (m i : Nat) (acc : List Nat), i + m = n →
      Prog.iter m i acc (fun i units => do
        let hi ← Prog.index raw (2 * i)
        let lo ← Prog.index raw (2 * i + 1)
        pure (units ++ [hi.toNat * 256 + lo.toNat]))
      = (pure (acc ++ bytesUnits (raw.drop (2 * i))) : Prog Err (Tr σ) _) by
    simpa using this n 0 [] (by omega)
  intro m
  induction m with
  | zero =>
    intro i acc hi
    rw [List.drop_of_length_le (by omega), Prog.iter_zero]
    simp [bytesUnits]
  | succ m ih =>
    intro i acc hi
    have h1 : 2 * i < raw.length := by omega
    have h2 : 2 * i + 1 < raw.length := by omega
    rw [Prog.iter_succ, Prog.index_eq (List.getElem?_eq_getElem h1), Prog.pure_bind,
      Prog.index_eq (List.getElem?_eq_getElem h2), Prog.pure_bind, Prog.pure_bind,
      ih (i + 1) _ (by omega)]
    rw [List.drop_eq_getElem_cons h1, List.drop_eq_getElem_cons h2]
    rw [bytesUnits, List.append_assoc, List.singleton_append]
    rfl

theorem compact_eq {raw : List UInt8} {n : Nat} (h : raw.length = 2 * n)
    : (compact raw : Prog Err (Tr σ) _) = pure (lowBytes raw ++ raw.drop n) := by
  have hlow := length_lowBytes h
  unfold compact
  rw [show raw.length / 2 = n by omega]
  -- before step `i` the first `i` bytes are the compacted ones, the rest is as it was
  have hloop := Prog.iter_eq_pure (ε := Err) (σ := Tr σ)
    (fun i => (lowBytes raw).take i ++ raw.drop i) (n := n) (f := fun k raw => do
      let b ← Prog.index raw (2 * k + 1)
      Prog.setIndex raw k b)
  rw [List.take_of_length_le (by omega : (lowBytes raw).length ≤ n), List.take_zero,
    List.nil_append, List.drop_zero] at hloop
  apply hloop
  intro i hi
  have hi' : i < (lowBytes raw).length := by omega
  have htake : ((lowBytes raw).take i).length = i := List.length_take_of_le (by omega)
  have hread : ((lowBytes raw).take i ++ raw.drop i)[2 * i + 1]? = some (lowBytes raw)[i] := by
    rw [List.getElem?_append_right (by omega), htake, List.getElem?_drop]
    rw [show i + (2 * i + 1 - i) = 2 * i + 1 by omega, ← getElem?_lowBytes]
    exact List.getElem?_eq_getElem hi'
  have hwrite : ((lowBytes raw).take i ++ raw.drop i).set i (lowBytes raw)[i]
      = (lowBytes raw).take (i + 1) ++ raw.drop (i + 1) := by
    rw [List.set_append_right _ _ (by omega), htake, Nat.sub_self]
    rw [List.drop_eq_getElem_cons (by omega : i < raw.length), List.set_cons_zero]
    rw [List.take_succ_eq_append_getElem hi', List.append_assoc, List.singleton_append]
  rw [Prog.index_eq hread, Prog.pure_bind, Prog.setIndex_eq _ (by simp; omega), hwrite]

section Frames

theorem frame_readFull (bs : List UInt8) : Frame (readFull bs.length : Prog Err (Tr σ) _) bs bs :=
  Prog.frame_take _ _

theorem frame_beInt {k : Nat} {x : Int} (h1 : -(256 ^ k : Int) ≤ 2 * x) (h2 : 2 * x < 256 ^ k)
    : Frame (readFull k >>= fun bs => pure (beInt bs) : Prog Err (Tr σ) _) x (intBytes k x) := by
  have hread := frame_readFull (σ := σ) (intBytes k x)
  rw [length_intBytes] at hread
  apply hread.bind_nil
  rw [beInt_intBytes h1 h2]
  exact Frame.pure

theorem inp_of_beInt {k : Nat} {x : Int} {t t' : Tr σ}
    (h : (readFull k >>= fun bs => pure (beInt bs) : Prog Err (Tr σ) _) t = .ok x t')
    : t.inp = intBytes k x ++ t'.inp ∧ t' = Input.move (intBytes k x) t'.inp t := by
  obtain ⟨bs, t1, hread, hpure⟩ := Prog.bind_eq_ok h
  cases hpure
  by_cases hk : k ≤ t.inp.length
  . rw [show readFull k t = _ from Prog.take_of_le hk] at hread
    cases hread
    have hlen : (t.inp.take k).length = k := List.length_take_of_le hk
    have hbytes := intBytes_beInt (t.inp.take k)
    rw [hlen] at hbytes
    rw [show Input.inp t = t.inp from rfl, hbytes]
    exact ⟨(List.take_append_drop k t.inp).symm, rfl⟩
  . rw [show readFull k t = _ from Prog.take_of_lt (Nat.lt_of_not_le hk)] at hread
    cases hread

theorem frame_readInt16 {x : Int} (h1 : -2 ^ 15 ≤ x) (h2 : x < 2 ^ 15)
    : Frame (readInt16 : Prog Err (Tr σ) _) x (intBytes 2 x) :=
  frame_beInt (by omega) (by omega)

theorem frame_readInt32 {x : Int} (h1 : -2 ^ 31 ≤ x) (h2 : x < 2 ^ 31)
    : Frame (readInt32 : Prog Err (Tr σ) _) x (intBytes 4 x) :=
  frame_beInt (by omega) (by omega)

theorem frame_readInt64 {x : Int} (h1 : -2 ^ 63 ≤ x) (h2 : x < 2 ^ 63)
    : Frame (readInt64 : Prog Err (Tr σ) _) x (intBytes 8 x) :=
  frame_beInt (by omega) (by omega)

theorem frame_readFloat64 (x : UInt64)
    : Frame (readFloat64 : Prog Err (Tr σ) _) x (intBytes 8 x.toNat) := by
  have hread := frame_readFull (σ := σ) (intBytes 8 x.toNat)
  rw [length_intBytes] at hread
  have hint : Frame (readInt64 : Prog Err (Tr σ) _) (beInt (intBytes 8 x.toNat))
      (intBytes 8 x.toNat) :=
    hread.bind_nil Frame.pure
  apply hint.bind_nil
  -- the signed value has the same residue as the bits
  have hmod := beNat_intBytes 8 (beInt (intBytes 8 x.toNat))
  have hbytes := intBytes_beInt (intBytes 8 x.toNat)
  rw [length_intBytes] at hbytes
  rw [hbytes, beNat_intBytes] at hmod
  have hx : UInt64.ofInt (beInt (intBytes 8 x.toNat)) = x := by
    unfold UInt64.ofInt
    rw [show (2 ^ 64 : Int) = 256 ^ 8 by norm_num, ← hmod]
    have := x.toNat_lt
    rw [Int.emod_eq_of_lt (by omega) (by omega), Int.toNat_natCast, UInt64.ofNat_toNat]
  rw [hx]
  exact Frame.pure

theorem frame_readByte (b : UInt8) : Frame (readByte : Prog Err (Tr σ) _) b [b] := by
  exact (frame_readFull [b]).bind_nil Frame.pure

theorem frame_readBool (x : Bool)
    : Frame (readBool : Prog Err (Tr σ) _) x [if x then 1 else 0] := by
  cases x with
  | true => exact (frame_readByte 1).bind_nil Frame.pure
  | false => exact (frame_readByte 0).bind_nil Frame.pure

def unitsFrame (us : List Nat) : List UInt8 := beBytes 4 us.length ++ us.flatMap unitBytes

theorem frame_readString_units {us : List Nat} (hus : ∀ u ∈ us, u < 0x10000)
    (hlen : us.length ≤ 2 ^ 28)
    : Frame (readString : Prog Err (Tr σ) _) (some (utf16Decode us)) (unitsFrame us) := by
  unfold readString unitsFrame
  rw [← intBytes_natCast]
  apply (frame_readInt32 (by omega) (by omega)).bind
  rw [if_neg (by omega)]
  by_cases hzero : us.length = 0
  . rw [if_pos (by omega), List.length_eq_zero_iff.mp hzero]
    exact Frame.pure
  have hcap : ¬ ((us.length : Int) > maxWireLength / 2) := by
    unfold maxWireLength
    omega
  have hraw := length_flatMap_unitBytes us
  rw [if_neg (by omega), if_neg (by omega), if_neg hcap]
  rw [Prog.make_eq (by unfold maxWireLength; omega), Prog.pure_bind]
  have hread := frame_readFull (σ := σ) (us.flatMap unitBytes)
  rw [hraw, show 2 * us.length = (us.length : Int).toNat * 2 by omega] at hread
  apply hread.bind_nil
  rw [Prog.make_eq (by unfold maxWireLength; omega), Prog.pure_bind, Int.toNat_natCast,
    rawUnits_eq hraw, Prog.pure_bind, bytesUnits_flatMap_unitBytes hus]
  split
  . next hascii =>
    have hlow := length_lowBytes hraw
    have hdec : utf16Decode us = lowBytes (us.flatMap unitBytes) := by
      have hunits := bytesUnits_flatMap_unitBytes hus
      have hdec := utf16Decode_bytesUnits_of_ascii (by rw [hunits]; simpa using hascii)
      rwa [hunits] at hdec
    rw [compact_eq hraw, Prog.pure_bind, Prog.slice_eq (by simp [hlow]), Prog.pure_bind]
    rw [List.take_left' hlow, List.drop_zero, hdec]
    exact Frame.pure
  . exact Frame.pure

theorem frame_readString_null
    : Frame (readString : Prog Err (Tr σ) _) none (intBytes 4 (-1)) := by
  unfold readString
  apply (frame_readInt32 (by omega) (by omega)).bind_nil
  rw [if_pos rfl]
  exact Frame.pure

theorem frame_readString {s : GoString} (hs : Valid s) (hlen : (utf16Encode s).length ≤ 2 ^ 28)
    : Frame (readString : Prog Err (Tr σ) _) (some s) (unitsFrame (utf16Encode s)) := by
  have hus : ∀ u ∈ utf16Encode s, u < 0x10000 := by
    intro u hu
    apply unit_lt_of_mem_utf16Encode _ hu
    obtain ⟨rs, hrs, rfl⟩ := hs
    rw [runes_flatMap_encodeRune hrs]
    intro r hr
    have := hrs r hr
    unfold Scalar at this
    omega
  have := frame_readString_units (σ := σ) hus hlen
  rwa [utf16Decode_utf16Encode hs] at this

def bytesFrame (b : Option (List UInt8)) : List UInt8 :=
  match b with
  | none => intBytes 4 (-1)
  | some b => intBytes 4 b.length ++ b

theorem frame_readBytes {b : Option (List UInt8)} (hlen : ∀ bs, b = some bs → bs.length ≤ 2 ^ 29)
    : Frame (readBytes : Prog Err (Tr σ) _) b (bytesFrame b) := by
  unfold readBytes bytesFrame
  cases b with
  | none =>
    apply (frame_readInt32 (by omega) (by omega)).bind_nil
    rw [if_pos rfl]
    exact Frame.pure
  | some bs =>
    have hlen := hlen bs rfl
    apply (frame_readInt32 (by omega) (by omega)).bind
    rw [if_neg (by omega)]
    by_cases hzero : bs.length = 0
    . rw [if_pos (by omega), List.length_eq_zero_iff.mp hzero]
      exact Frame.pure
    rw [if_neg (by omega), if_neg (by omega), if_neg (by unfold maxWireLength; omega)]
    rw [Prog.make_eq (by unfold maxWireLength; omega), Prog.pure_bind, Int.toNat_natCast]
    exact (frame_readFull bs).bind_nil Frame.pure

end Frames

section Progress

variable {N : Nat}

theorem plain_shortErr (t : Tr σ) : t.shortErr.Plain := by
  unfold shortErr
  split
  . split <;> exact ⟨rfl, rfl⟩
  . cases t.readFault <;> exact ⟨rfl, rfl⟩

theorem progress_readFull (n : Nat)
    : Progress N (readFull n : Prog Err (Tr σ) _) n (fun bs => bs.length = n) Err.Plain :=
  Progress.take n plain_shortErr

theorem progress_readByte : Progress N (readByte : Prog Err (Tr σ) _) 1 (fun _ => True) Err.Plain := by
  unfold readByte
  apply Progress.bind (progress_readFull 1)
  intro bs hbs _
  exact (Progress.index (by omega)).drop

theorem progress_readBool : Progress N (readBool : Prog Err (Tr σ) _) 1 (fun _ => True) Err.Plain := by
  unfold readBool
  apply Progress.bind progress_readByte
  intro b _ _
  exact Progress.pure True.intro

theorem progress_readInt16
    : Progress N (readInt16 : Prog Err (Tr σ) _) 2 (fun v => -2 ^ 15 ≤ v ∧ v < 2 ^ 15) Err.Plain := by
  unfold readInt16
  apply Progress.bind (progress_readFull 2)
  intro bs hbs _
  have h1 := beInt_lower bs
  have h2 := beInt_upper bs
  rw [hbs] at h1 h2
  exact Progress.pure (by omega)

theorem progress_readInt32
    : Progress N (readInt32 : Prog Err (Tr σ) _) 4 (fun v => -2 ^ 31 ≤ v ∧ v < 2 ^ 31) Err.Plain := by
  unfold readInt32
  apply Progress.bind (progress_readFull 4)
  intro bs hbs _
  have h1 := beInt_lower bs
  have h2 := beInt_upper bs
  rw [hbs] at h1 h2
  exact Progress.pure (by omega)

theorem progress_readInt64
    : Progress N (readInt64 : Prog Err (Tr σ) _) 8 (fun v => -2 ^ 63 ≤ v ∧ v < 2 ^ 63) Err.Plain := by
  unfold readInt64
  apply Progress.bind (progress_readFull 8)
  intro bs hbs _
  have h1 := beInt_lower bs
  have h2 := beInt_upper bs
  rw [hbs] at h1 h2
  exact Progress.pure (by omega)

theorem progress_readFloat32
    : Progress N (readFloat32 : Prog Err (Tr σ) _) 4 (fun _ => True) Err.Plain := by
  apply Progress.bind progress_readInt32
  intro _ _ _
  exact Progress.pure True.intro

theorem progress_readFloat64
    : Progress N (readFloat64 : Prog Err (Tr σ) _) 8 (fun _ => True) Err.Plain := by
  apply Progress.bind progress_readInt64
  intro _ _ _
  exact Progress.pure True.intro

theorem progress_readString
    : Progress N (readString : Prog Err (Tr σ) _) 4 (fun _ => True) Err.Plain := by
  unfold readString
  apply Progress.bind progress_readInt32
  intro length hlength _
  apply Progress.ite (fun _ => Progress.pure True.intro)
  intro _
  apply Progress.ite (fun _ => Progress.pure True.intro)
  intro hzero
  apply Progress.ite (fun _ => Progress.throw (Err.plain_errorf _ _))
  intro hneg
  apply Progress.ite (fun _ => Progress.throw (Err.plain_errorf _ _))
  intro hcap
  unfold maxWireLength at hcap
  apply Progress.seq (Progress.make (by unfold maxWireLength; omega))
  intro _ _
  apply Progress.seq (progress_readFull _)
  intro raw hraw
  apply Progress.seq (Progress.make (by unfold maxWireLength; omega))
  intro _ _
  have hraw : raw.length = 2 * length.toNat := by omega
  rw [rawUnits_eq hraw, Prog.pure_bind]
  apply Progress.ite
  . intro _
    rw [compact_eq hraw, Prog.pure_bind, Prog.slice_eq (by simp [length_lowBytes hraw]),
      Prog.pure_bind]
    exact Progress.pure True.intro
  . intro _
    exact Progress.pure True.intro

theorem progress_readBytes
    : Progress N (readBytes : Prog Err (Tr σ) _) 4 (fun b => ∀ bs, b = some bs → bs.length ≤ 2 ^ 29)
        Err.Plain := by
  unfold readBytes
  apply Progress.bind progress_readInt32
  intro length hlength _
  apply Progress.ite (fun _ => Progress.pure (by simp))
  intro _
  apply Progress.ite (fun _ => Progress.pure (by simp))
  intro hzero
  apply Progress.ite (fun _ => Progress.throw (Err.plain_errorf _ _))
  intro hneg
  apply Progress.ite (fun _ => Progress.throw (Err.plain_errorf _ _))
  intro hcap
  apply Progress.seq (Progress.make (by omega))
  intro _ _
  apply Progress.seq (progress_readFull _)
  intro buf hbuf
  refine Progress.pure ?_
  rintro _ ⟨⟩
  rw [hbuf]
  unfold maxWireLength at hcap
  omega

end Progress

end Tr

end H2Go
