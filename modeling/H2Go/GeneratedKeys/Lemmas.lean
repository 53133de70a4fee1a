import H2Go.Rows.Batch

/-!
This module contains what the parsed rows of the generated keys look like.
-/

namespace H2Go

namespace Tr

variable {σ : Type} [GoStd] [Peer σ] {N : Nat}

theorem progress_readGeneratedKeyRow {m : ResultMeta} (hm : m.Fits m.columnCount) (lc : LobCollector)
    : Progress N (readGeneratedKeyRow m lc : Prog Err (Tr σ) _) 1
        (fun o => ∀ r, o = some r → RowPart lc m.columnCount.toNat r) (fun _ => True) := by
  apply Progress.bind ((progress_wrapErr _ _ progress_readByte).weaken (Nat.le_refl _)
    (fun _ h => h) (fun _ _ => True.intro))
  intro rowFlag _ _
  apply Progress.ite
  . intro _
    apply Progress.seq ((progress_readColumns _ _ hm lc).weaken (Nat.le_refl _) (fun _ h => h)
      (fun _ _ => True.intro))
    intro r hr
    refine Progress.pure ?_
    rintro _ ⟨⟩
    exact hr
  . intro _
    apply Progress.ite
    . intro _
      refine Progress.pure ?_
      rintro _ ⟨⟩
    . intro _
      apply Progress.ite (fun _ => Progress.mapErr progress_readH2Error)
      intro _
      exact Progress.throw True.intro

theorem progress_readGeneratedKeyRows {full : Batch → Prog Err (Tr σ) Batch} {m : ResultMeta}
    (hm : m.Fits m.columnCount) {old new : List (List Value)} {acc : Batch}
    (hacc : acc.Grown old m.columnCount.toNat new) (n : Nat)
    (hfull : n ≤ N → ∀ acc new, Batch.Grown old m.columnCount.toNat new acc →
      Progress (N - n) (full acc) 0 (fun b => ∃ new, b.Grown old m.columnCount.toNat new)
        (fun _ => True))
    : Progress N (readGeneratedKeyRows full m n acc) 0
        (fun b => ∃ new, b.Grown old m.columnCount.toNat new) (fun _ => True) := by
  -- every row takes at least the byte of its flag
  induction n generalizing N new acc with
  | zero => exact hfull (Nat.zero_le N) acc new hacc
  | succ n ih =>
    apply (Progress.bind (progress_readGeneratedKeyRow hm _) _).weaken (Nat.zero_le _)
      (fun _ h => h) (fun _ h => h)
    intro o ho hN
    cases o with
    | none => exact Progress.pure ⟨new, hacc⟩
    | some r =>
      apply ih (hacc.snoc (ho r rfl))
      intro hn acc new hacc
      rw [Nat.sub_sub, Nat.add_comm 1 n]
      exact hfull (by omega) acc new hacc

theorem progress_readGeneratedKeyBatch {m : ResultMeta} (hm : m.Fits m.columnCount) {rowCount : Int}
    (hcount : rowCount ≤ maxWireCollectionElements)
    : Progress N (readGeneratedKeyBatch m rowCount : Prog Err (Tr σ) _) 0
        (fun b => ∃ new, b.Grown [] m.columnCount.toNat new) (fun _ => True) := by
  have hempty : Batch.Grown [] m.columnCount.toNat [] ([], .empty) :=
    Batch.Grown.nil [] _
  apply Progress.ite
  . intro hpos
    apply Progress.seq (Progress.make ⟨by omega, hcount⟩)
    intro _ _
    exact progress_readGeneratedKeyRows hm hempty _
      (fun _ acc new hacc => Progress.pure ⟨new, hacc⟩)
  . intro _
    apply Progress.ite
    . intro _ t ht
      exact progress_readGeneratedKeyRows (N := t.inp.length) hm hempty _
        (fun h => absurd h (by omega)) t (Nat.le_refl _)
    . intro _
      exact Progress.pure ⟨[], hempty⟩

end Tr

end H2Go
