import H2Go.TypeInfo.Impl
import H2Go.Lib.Approx

/-!
This module contains the lemmas about the metadata readers: they are lawful readers, they come to an
end on every input, and they do not panic.
-/

namespace H2Go

structure ResultMeta.Fits (m : ResultMeta) (columnCount : Int) : Prop where
  length_eq : (m.columns.length : Int) = columnCount
  le_cap : columnCount ≤ maxWireCollectionElements

namespace Tr

variable {σ : Type}

section Reader

variable (self : Prog Err (Tr σ) TypeInfo) [LawfulReader self]

instance (valueType : ValueType) : LawfulReader (skipExtTypeInfo self valueType) := by
  cases valueType
  all_goals
    unfold skipExtTypeInfo
    infer_instance

instance (ti : Int) (info : TypeInfo) : LawfulReader (readTypeInfoFields self ti info) := by
  obtain ⟨valueType, precision, scale, nullable, extTypeInfo⟩ := info
  cases valueType
  all_goals
    unfold readTypeInfoFields
    dsimp only
    infer_instance

instance : LawfulReader (readTypeInfoWith self) := by
  unfold readTypeInfoWith
  infer_instance

end Reader

instance (fuel : Nat) : LawfulReader (readTypeInfoFuel fuel : Prog Err (Tr σ) _) := by
  induction fuel with
  | zero =>
    unfold readTypeInfoFuel
    infer_instance
  | succ fuel ih =>
    unfold readTypeInfoFuel
    infer_instance

section Fuel

variable {self self' : Prog Err (Tr σ) TypeInfo}

theorem skipExtTypeInfo_mono (h : self.Le self') (valueType : ValueType)
    : (skipExtTypeInfo self valueType).Le (skipExtTypeInfo self' valueType) := by
  cases valueType with
  | row =>
    apply Prog.Le.bind (Prog.Le.refl _)
    intro count
    apply Prog.Le.iter
    intro _ _
    apply Prog.Le.bind (Prog.Le.refl _)
    intro _
    apply Prog.Le.bind (Prog.Le.mapErr h)
    intro _
    exact Prog.Le.refl _
  | _ => exact Prog.Le.refl _

theorem readTypeInfoWith_mono (h : self.Le self')
    : (readTypeInfoWith self).Le (readTypeInfoWith self') := by
  apply Prog.Le.bind (Prog.Le.refl _)
  intro ti
  dsimp only
  generalize (tiToValueType ti).getD .null = valueType
  cases valueType with
  | array =>
    apply Prog.Le.bind (Prog.Le.refl _)
    intro prec
    apply Prog.Le.bind (Prog.Le.mapErr h)
    intro _
    exact Prog.Le.refl _
  | row =>
    apply Prog.Le.bind (skipExtTypeInfo_mono h _)
    intro _
    exact Prog.Le.refl _
  | _ => exact Prog.Le.refl _

theorem readTypeInfoFuel_mono (fuel : Nat)
    : (readTypeInfoFuel fuel : Prog Err (Tr σ) _).Le (readTypeInfoFuel (fuel + 1)) := by
  induction fuel with
  | zero => exact Prog.Le.stuck _
  | succ fuel ih => exact readTypeInfoWith_mono ih

end Fuel

section Progress

variable {N : Nat} {self : Prog Err (Tr σ) TypeInfo}

theorem progress_skipExtTypeInfo (hself : Progress N self 0 (fun _ => True) Err.Plain)
    (valueType : ValueType)
    : Progress N (skipExtTypeInfo self valueType) 0 (fun _ => True) Err.Plain := by
  cases valueType with
  | enum =>
    apply Progress.seq (progress_wrapErr _ _ progress_readInt32)
    intro count _
    apply Progress.iter (fun _ _ => True) _ _ _ True.intro
    intro _ _ _ _ _
    apply Progress.seq (progress_wrapErr _ _ progress_readString)
    intro _ _
    exact Progress.pure True.intro
  | geometry =>
    apply Progress.seq (progress_wrapErr _ _ progress_readByte)
    intro typ _
    apply Progress.ite
    . intro _
      apply Progress.seq (progress_wrapErr _ _ progress_readInt16)
      intro _ _
      exact Progress.pure True.intro
    intro _
    apply Progress.ite
    . intro _
      apply Progress.seq (progress_wrapErr _ _ progress_readInt32)
      intro _ _
      exact Progress.pure True.intro
    intro _
    apply Progress.ite
    . intro _
      apply Progress.seq (progress_wrapErr _ _ progress_readInt16)
      intro _ _
      apply Progress.seq (progress_wrapErr _ _ progress_readInt32)
      intro _ _
      exact Progress.pure True.intro
    . intro _
      exact Progress.pure True.intro
  | row =>
    apply Progress.seq (progress_wrapErr _ _ progress_readInt32)
    intro count _
    apply Progress.iter (fun _ _ => True) _ _ _ True.intro
    intro _ _ _ _ _
    apply Progress.seq (progress_wrapErr _ _ progress_readString)
    intro _ _
    apply Progress.seq (progress_wrapErr _ _ hself)
    intro _ _
    exact Progress.pure True.intro
  | _ => exact Progress.pure True.intro

theorem progress_readTypeInfoFields (hself : Progress N self 0 (fun _ => True) Err.Plain)
    (ti : Int) (info : TypeInfo)
    : Progress N (readTypeInfoFields self ti info) 0 (fun _ => True) Err.Plain := by
  obtain ⟨valueType, precision, scale, nullable, extTypeInfo⟩ := info
  cases valueType with
  | null | boolean | tinyint | smallint | integer | bigint | date | uuid | other =>
    exact Progress.pure True.intro
  | char | varchar | varcharIgnoreCase | binary | varbinary | decfloat | javaObject | json =>
    apply Progress.seq (progress_wrapErr _ _ progress_readInt32)
    intro _ _
    exact Progress.pure True.intro
  | blob | clob =>
    apply Progress.seq (progress_wrapErr _ _ progress_readInt64)
    intro _ _
    exact Progress.pure True.intro
  | numeric =>
    apply Progress.seq (progress_wrapErr _ _ progress_readInt32)
    intro _ _
    apply Progress.seq (progress_wrapErr _ _ progress_readInt32)
    intro _ _
    apply Progress.seq (progress_wrapErr _ _ progress_readBool)
    intro _ _
    exact Progress.pure True.intro
  | real | double | time | timeTZ | timestamp | timestampTZ =>
    apply Progress.seq (progress_wrapErr _ _ progress_readByte)
    intro _ _
    exact Progress.pure True.intro
  | interval =>
    apply Progress.seq (progress_wrapErr _ _ progress_readByte)
    intro _ _
    apply Progress.ite
    . intro _
      apply Progress.seq (progress_wrapErr _ _ progress_readByte)
      intro _ _
      exact Progress.pure True.intro
    . intro _
      exact Progress.pure True.intro
  | array =>
    apply Progress.seq (progress_wrapErr _ _ progress_readInt32)
    intro _ _
    apply Progress.seq (progress_wrapErr _ _ hself)
    intro _ _
    exact Progress.pure True.intro
  | row | enum | geometry =>
    apply Progress.seq (progress_skipExtTypeInfo hself _)
    intro _ _
    exact Progress.pure True.intro

theorem progress_readTypeInfoFuel {fuel : Nat} (h : N < fuel)
    : Progress N (readTypeInfoFuel fuel : Prog Err (Tr σ) _) 4 (fun _ => True) Err.Plain := by
  -- every level reads its type code first, so the levels below see a shorter input
  induction fuel generalizing N with
  | zero => omega
  | succ fuel ih =>
    apply Progress.bind (progress_wrapErr _ _ progress_readInt32)
    intro ti _ _
    exact progress_readTypeInfoFields (ih (by omega)).drop _ _

end Progress

instance : LawfulReader (readTypeInfo : Prog Err (Tr σ) _) := by
  apply LawfulReader.of_fuel (fun t => t.inp.length + 1) readTypeInfoFuel_mono
  intro t
  exact (progress_readTypeInfoFuel (Nat.lt_succ_self _)).ne_stuck (Nat.le_refl _)

theorem progress_readTypeInfo {N : Nat}
    : Progress N (readTypeInfo : Prog Err (Tr σ) _) 4 (fun _ => True) Err.Plain := by
  intro t ht
  exact progress_readTypeInfoFuel (Nat.lt_succ_self _) t (Nat.le_refl _)

instance (version : Int) (i : Nat)
    : LawfulReader (skipDisplaySize version i : Prog Err (Tr σ) _) := by
  unfold skipDisplaySize
  infer_instance

instance (version : Int) (i : Nat)
    : LawfulReader (readResultColumn version i : Prog Err (Tr σ) _) := by
  unfold readResultColumn
  infer_instance

instance (columnCount version : Int)
    : LawfulReader (readResultMeta columnCount version : Prog Err (Tr σ) _) := by
  unfold readResultMeta
  infer_instance

theorem progress_skipDisplaySize {N : Nat} (version : Int) (i : Nat)
    : Progress N (skipDisplaySize version i : Prog Err (Tr σ) _) 0 (fun _ => True) Err.Plain := by
  apply Progress.ite
  . intro _
    apply Progress.seq (progress_wrapErr _ _ progress_readInt32)
    intro _ _
    exact Progress.pure True.intro
  . intro _
    exact Progress.pure True.intro

theorem progress_readResultColumn {N : Nat} (version : Int) (i : Nat)
    : Progress N (readResultColumn version i : Prog Err (Tr σ) _) 0 (fun _ => True) Err.Plain := by
  apply Progress.seq (progress_wrapErr _ _ progress_readString)
  intro _ _
  apply Progress.seq (progress_wrapErr _ _ progress_readString)
  intro _ _
  apply Progress.seq (progress_wrapErr _ _ progress_readString)
  intro _ _
  apply Progress.seq (progress_wrapErr _ _ progress_readString)
  intro _ _
  apply Progress.seq (progress_wrapErr _ _ progress_readTypeInfo)
  intro _ _
  apply Progress.seq (progress_skipDisplaySize version i)
  intro _ _
  apply Progress.seq (progress_wrapErr _ _ progress_readBool)
  intro _ _
  apply Progress.seq (progress_wrapErr _ _ progress_readInt32)
  intro _ _
  exact Progress.pure True.intro

theorem progress_readResultMeta {N : Nat} (columnCount version : Int)
    : Progress N (readResultMeta columnCount version : Prog Err (Tr σ) _) 0
        (fun m => m.columnCount = columnCount ∧ m.Fits columnCount) Err.Plain := by
  apply Progress.ite
  . intro _
    exact Progress.throw (Err.plain_errorf _ _)
  intro hneg
  apply Progress.ite
  . intro _
    exact Progress.throw (Err.plain_errorf _ _)
  intro hcap
  apply Progress.seq (Progress.make (by omega))
  intro _ _
  apply Progress.seq (Progress.iter (fun i columns => columns.length = i) _ _ _ rfl ?_)
  . intro columns hcolumns
    refine Progress.pure ⟨rfl, ?_, by omega⟩
    dsimp only
    omega
  . intro i columns _ _ hcolumns
    apply Progress.seq (progress_readResultColumn version i)
    intro col _
    exact Progress.pure (by rw [List.length_append, hcolumns]; rfl)

end Tr

end H2Go
