import H2Go.Value.Lemmas

/-!
This module contains the framing of values: the frames of values and of type information are
self-delimiting, so a sequence of frames has only one reading.
-/

namespace H2Go

def Value.at (v : Value) (row col : Nat) : Value :=
  match v with
  | .lob p => .lob { p with row, col }
  | v => v

namespace LobCollector

/--
The value `v` read with the collector `c`: the placeholder of a LOB gets the position of `c` and is
recorded there.
-/
def place (c : LobCollector) (v : Value) : Value × Option LobCollector :=
  match v with
  | .lob p =>
    let p := { p with row := c.curRow, col := c.curCol }
    (.lob p, some { c with pending := c.pending ++ [p] })
  | v => (v, some c)

theorem place_of_isPlain (c : LobCollector) {v : Value} (h : v.IsPlain) : c.place v = (v, some c) := by
  cases v with
  | lob p => exact absurd h id
  | nil | bool | int64 | float64 | string | bytes | time | other => rfl

theorem place_fst (c : LobCollector) (v : Value) : (c.place v).1 = v.at c.curRow c.curCol := by
  cases v <;> rfl

/--
A result with the collector `c`, as it is with the collector `c'`.
-/
def rebase (c c' : LobCollector) (r : Value × Option LobCollector) : Value × Option LobCollector :=
  if r.2 = some c then (r.1, some c') else c'.place r.1

theorem rebase_of_step {c c' : LobCollector} {r : Value × Option LobCollector} (h : c.Step r)
    : c.rebase c' r = c'.place r.1 := by
  unfold rebase
  split
  . next hlc =>
    rcases h with ⟨hplain, -⟩ | ⟨p, -, -, -, -, -, hp⟩
    . rw [place_of_isPlain c' hplain]
    . -- the list has grown, so it is not the one of before
      rw [hlc] at hp
      have hlen := congrArg (fun o => (Option.map (fun c => c.pending.length) o).getD 0) hp
      simp at hlen
  . rfl

end LobCollector

namespace Tr

variable {σ : Type} [GoStd] [Peer σ]

omit [GoStd] [Peer σ] in
theorem readPendingLob_rebase (typeCode : ValueType) (c c' : LobCollector)
    : (readPendingLob typeCode (some c') : Prog Err (Tr σ) _)
        = readPendingLob typeCode (some c)
            >>= fun p => pure { p with row := c'.curRow, col := c'.curCol } := by
  unfold readPendingLob
  simp only [Prog.bind_assoc]
  rfl

omit [GoStd] in
/--
The collector decides where a LOB is recorded, it has no influence on what is read.
-/
theorem readLOBValue_rebase (typeCode : ValueType) {c c' : LobCollector} (h : c.reject = c'.reject)
    : (readLOBValue typeCode (some c') : Prog Err (Tr σ) _)
        = readLOBValue typeCode (some c) >>= fun r => pure (c.rebase c' r) := by
  unfold readLOBValue
  rw [Prog.bind_assoc]
  congr 1
  funext length
  by_cases hdemand : length = -1
  . rw [if_pos hdemand, if_pos hdemand, Prog.bind_assoc]
    rw [readPendingLob_rebase typeCode c c', Prog.bind_assoc]
    congr 1
    funext p
    unfold deferLob
    rw [Prog.pure_bind]
    dsimp only
    by_cases hreject : c.reject
    . rw [if_pos (by rwa [← h]), if_pos hreject]
      rfl
    . rw [if_neg (by rwa [← h]), if_neg hreject, Prog.pure_bind]
      have hgrown : some { c with pending := c.pending ++ [p] } ≠ some c := by
        intro heq
        have hlen := congrArg (fun o => (Option.map (fun c => c.pending.length) o).getD 0) heq
        simp at hlen
      unfold LobCollector.rebase
      rw [if_neg hgrown]
      rfl
  . rw [if_neg hdemand, if_neg hdemand]
    by_cases hneg : length < 0
    . rw [if_pos hneg, if_pos hneg]
      rfl
    . rw [if_neg hneg, if_neg hneg]
      by_cases hblob : typeCode = .blob
      . rw [if_pos hblob, if_pos hblob, Prog.bind_assoc]
        simp [LobCollector.rebase, Prog.pure_bind]
      . rw [if_neg hblob, if_neg hblob]
        by_cases hclob : typeCode = .clob
        . rw [if_pos hclob, if_pos hclob, Prog.bind_assoc]
          simp [LobCollector.rebase, Prog.pure_bind]
        . rw [if_neg hclob, if_neg hclob]
          rfl

theorem readTypedValue_rebase (nested : Option TypeInfo → Prog Err (Tr σ) Value)
    (colType : Option TypeInfo) {c c' : LobCollector} (h : c.reject = c'.reject)
    (typeCode : ValueType)
    : readTypedValue nested colType (some c') typeCode
        = readTypedValue nested colType (some c) typeCode >>= fun r => pure (c.rebase c' r) := by
  unfold readTypedValue
  by_cases hlob : typeCode = .blob ∨ typeCode = .clob
  . rw [if_pos hlob, if_pos hlob, readLOBValue_rebase typeCode h]
  . rw [if_neg hlob, if_neg hlob]
    by_cases harray : typeCode = .array
    . rw [if_pos harray, if_pos harray, Prog.bind_assoc]
      simp [LobCollector.rebase, Prog.pure_bind]
    . rw [if_neg harray, if_neg harray]
      by_cases hrow : typeCode = .row
      . rw [if_pos hrow, if_pos hrow, Prog.bind_assoc]
        simp [LobCollector.rebase, Prog.pure_bind]
      . rw [if_neg hrow, if_neg hrow, Prog.bind_assoc]
        simp [LobCollector.rebase, Prog.pure_bind]

theorem readValueInternal_rebase (colType : Option TypeInfo) {c c' : LobCollector}
    (h : c.reject = c'.reject)
    : (readValueInternal colType (some c') : Prog Err (Tr σ) _)
        = readValueInternal colType (some c) >>= fun r => pure (c.rebase c' r) := by
  funext t
  rw [Prog.bind_run]
  unfold readValueInternal readValueWith
  simp only [readTypedValue_rebase _ _ h]
  rw [← Prog.bind_assoc]
  rfl

theorem frame_place {colType : Option TypeInfo} {c : LobCollector} (c' : LobCollector)
    (h : c.reject = c'.reject) {v : Value} {lc : Option LobCollector} {b : List UInt8}
    (hframe : Frame (readValueInternal colType (some c) : Prog Err (Tr σ) _) (v, lc) b)
    (hstep : c.Step (v, lc))
    : Frame (readValueInternal colType (some c') : Prog Err (Tr σ) _) (c'.place v) b := by
  rw [readValueInternal_rebase colType h]
  apply hframe.bind_nil
  rw [LobCollector.rebase_of_step hstep]
  exact Frame.pure

theorem frame_readValueInternal {colType : Option TypeInfo} {c : LobCollector} {t t' : Tr σ}
    {v : Value} {lc : Option LobCollector} (h : readValueInternal colType (some c) t = .ok (v, lc) t')
    (ht : t'.inp = []) (ps : List PendingLob)
    : ∃ ps', Frame (readValueInternal colType (some { c with pending := ps }) : Prog Err (Tr σ) _)
        (v, some { c with pending := ps' }) t.inp := by
  have hstep := progress_readValueInternal colType c t (Nat.le_refl _)
  rw [h] at hstep
  have hframe := frame_place (c := c) { c with pending := ps } rfl (LawfulReader.frame_of_ok h ht)
    hstep.2
  -- the placeholder has the position of the collector already
  rcases hstep.2 with ⟨hplain, -⟩ | ⟨p, rfl, -, hrow, hcol, -, -⟩
  . rw [LobCollector.place_of_isPlain _ hplain] at hframe
    exact ⟨ps, hframe⟩
  . refine ⟨ps ++ [p], ?_⟩
    have hp : { p with row := c.curRow, col := c.curCol } = p := by
      rw [← hrow, ← hcol]
    unfold LobCollector.place at hframe
    dsimp only at hframe
    rwa [hp] at hframe

def readValues (colTypes : List (Option TypeInfo)) (lc : Option LobCollector)
    : Prog Err (Tr σ) (List Value × Option LobCollector) :=
  match colTypes with
  | [] => pure ([], lc)
  | colType :: colTypes => do
    let r ← readValueInternal colType lc
    let rest ← readValues colTypes r.2
    pure (r.1 :: rest.1, rest.2)

/--
`m` accepts the byte string `b` with the result `a` when it reads `b` to its last byte.
-/
def Accepts {α : Type} (m : Prog Err (Tr σ) α) (b : List UInt8) (a : α) : Prop :=
  ∃ t t' : Tr σ, t.inp = b ∧ m t = .ok a t' ∧ t'.inp = []

theorem frame_readValues {c : LobCollector} {frames : List (Option TypeInfo × List UInt8 × Value)}
    (h : ∀ f ∈ frames, ∃ lc, Accepts (σ := σ) (readValueInternal f.1 (some c)) f.2.1 (f.2.2, lc))
    (ps : List PendingLob)
    : ∃ ps', Frame (readValues (frames.map Prod.fst) (some { c with pending := ps }) : Prog Err (Tr σ) _)
        (frames.map (fun f => f.2.2), some { c with pending := ps' })
        (frames.flatMap (fun f => f.2.1)) := by
  induction frames generalizing ps with
  | nil => exact ⟨ps, Frame.pure⟩
  | cons f frames ih =>
    obtain ⟨lc, t, t', hinp, hrun, hend⟩ := h f (by simp)
    obtain ⟨ps1, hf⟩ := frame_readValueInternal hrun hend ps
    obtain ⟨ps2, hrest⟩ := ih (fun f hf => h f (by simp [hf])) ps1
    rw [hinp] at hf
    exact ⟨ps2, hf.bind (hrest.bind_nil Frame.pure)⟩

/--
Whatever follows a string that `m` accepts is left unread, and a proper prefix of it is an error.
-/
def SelfDelimiting {α : Type} (m : Prog Err (Tr σ) α) : Prop :=
  ∀ (b : List UInt8) (a : α), Accepts m b a →
    (∀ (t : Tr σ) (suffix : List UInt8), t.inp = b ++ suffix →
      m t = .ok a { t with inp := suffix, past := t.past ++ b }) ∧
    (∀ (t : Tr σ) (missing : List UInt8), b = t.inp ++ missing → missing ≠ [] →
      ∃ e t', m t = .fail e t')

omit [GoStd] [Peer σ] in
theorem selfDelimiting_of_lawfulReader {α : Type} (m : Prog Err (Tr σ) α) [LawfulReader m]
    : SelfDelimiting m := by
  intro b a ⟨t, t', hinp, hrun, hend⟩
  have hframe := LawfulReader.frame_of_ok hrun hend
  rw [show Input.inp t = b from hinp] at hframe
  constructor
  . intro s suffix hs
    exact hframe.exact s suffix hs
  . intro s missing hs hmissing
    obtain ⟨e, he⟩ := hframe.short s missing hs hmissing
    exact ⟨e, _, he⟩

theorem frames_selfDelimiting
    : (∀ (colType : Option TypeInfo) (c : LobCollector),
        SelfDelimiting (readValueInternal colType (some c) : Prog Err (Tr σ) _)) ∧
      SelfDelimiting (readTypeInfo : Prog Err (Tr σ) _) ∧
      (∀ (c : LobCollector) (frames : List (Option TypeInfo × List UInt8 × Value)),
        (∀ f ∈ frames, ∃ lc, Accepts (σ := σ) (readValueInternal f.1 (some c)) f.2.1 (f.2.2, lc)) →
        ∀ (t : Tr σ) (suffix : List UInt8), t.inp = frames.flatMap (fun f => f.2.1) ++ suffix →
          ∃ lc, readValues (frames.map Prod.fst) (some c) t
            = .ok (frames.map (fun f => f.2.2), lc)
                { t with inp := suffix, past := t.past ++ frames.flatMap (fun f => f.2.1) }) := by
  refine ⟨?_, ?_, ?_⟩
  . intro colType c
    exact selfDelimiting_of_lawfulReader _
  . exact selfDelimiting_of_lawfulReader _
  . intro c frames hframes t suffix ht
    obtain ⟨ps, hframe⟩ := frame_readValues hframes c.pending
    exact ⟨_, hframe.exact t suffix ht⟩

end Tr

section

open StandIn

theorem Tr.frames_selfDelimiting_bool
    : (∃ lc, Tr.Accepts (σ := Silent) (Tr.readValueInternal none (some nestedLOBs)) [0, 0, 0, 1, 7]
        (.bool true, lc)) ∧
      ∃ lc t', Tr.readValues [none, none] (some nestedLOBs)
          (Tr.ofBytes [0, 0, 0, 1, 7, 0, 0, 0, 1, 7, 9])
        = .ok ([.bool true, .bool true], lc) t' ∧ t'.inp = [9] := by
  have haccepts : ∃ lc, Tr.Accepts (σ := Silent) (Tr.readValueInternal none (some nestedLOBs))
      [0, 0, 0, 1, 7] (.bool true, lc) :=
    ⟨_, Tr.ofBytes [0, 0, 0, 1, 7], _, rfl, rfl, rfl⟩
  have hframes := Tr.frames_selfDelimiting.2.2 nestedLOBs
    [(none, [0, 0, 0, 1, 7], .bool true), (none, [0, 0, 0, 1, 7], .bool true)]
    (by simpa using haccepts) (Tr.ofBytes [0, 0, 0, 1, 7, 0, 0, 0, 1, 7, 9]) [9] rfl
  obtain ⟨lc, hlc⟩ := hframes
  exact ⟨haccepts, lc, _, hlc, rfl⟩

end

end H2Go
