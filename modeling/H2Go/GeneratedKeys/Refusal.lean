import H2Go.GeneratedKeys.Wire
import H2Go.Rows.Steady
import H2Go.Transfer.Reply

/-!
This module contains the generated keys that a session survives although they are not accepted: a row
count over the cap, and an error of the server among the rows.
-/

namespace H2Go

variable {σ : Type} {α : Type}

namespace Session

theorem orBreak_cases {m : Prog Err (Tr σ) α} [LawfulReader m] (hends : ∀ t, (m t).Ends)
    {s : Session σ} (hopen : s.trNil = false)
    : (∃ a b rest, s.tr.inp = b ++ rest ∧ Frame m a b ∧
        orBreak m s = .ok a (s.setTr (Input.move b rest s.tr))) ∨
      ∃ e s', orBreak m s = .fail e s' ∧ s'.Discarded := by
  have hends := hends s.tr
  rw [orBreak_run hopen]
  cases hrun : m s.tr with
  | ok a t =>
    obtain ⟨b, rest, hinp, rfl, hframe⟩ := LawfulReader.ok_run hrun
    exact .inl ⟨a, b, rest, hinp, hframe, rfl⟩
  | fail e t => exact .inr ⟨e, _, rfl, discarded_abort _⟩
  | panic | stuck =>
    rw [hrun] at hends
    exact hends.elim

end Session

theorem int8_eq_neg_one {b : UInt8} (h : int8 b = -1) : b = 255 := by
  apply UInt8.toNat_inj.mp
  unfold int8 at h
  split at h
  . omega
  . have := b.toNat_lt
    simp
    omega

namespace Tr

variable [GoStd] [Peer σ]

/--
The bytes of a generated keys frame up to the point where it is refused: with the error of the server
that stands in place of a row, or without one when the row count is over the cap.
-/
inductive KeysRefused (σ : Type) [GoStd] [Peer σ] (version : Int)
    : Option H2Error → List UInt8 → Prop where
  | overCap {columnCount rowCount : Int} {b1 b2 : List UInt8}
    (hcolumns : Frame (readInt32 : Prog Err (Tr σ) _) columnCount b1)
    (hrows : Frame (readRowCount : Prog Err (Tr σ) _) rowCount b2)
    (hcap : maxWireCollectionElements < rowCount)
    : KeysRefused σ version none (b1 ++ b2)
  | errorRow {columnCount rowCount : Int} {m : ResultMeta} {rows : List (List Cell)} {h : H2Error}
    {b1 b2 b3 b4 : List UInt8}
    (hcolumns : Frame (readInt32 : Prog Err (Tr σ) _) columnCount b1)
    (hrows : Frame (readRowCount : Prog Err (Tr σ) _) rowCount b2)
    (hcap : rowCount ≤ maxWireCollectionElements)
    (hmeta : Frame (readResultMeta columnCount version : Prog Err (Tr σ) _) m b3)
    (hsent : ∀ cells ∈ rows, RowSent σ m cells) (hcomplete : KeysComplete rowCount rows true)
    (herror : Frame (readH2ErrorFrame : Prog Err (Tr σ) _) h b4)
    : KeysRefused σ version (some h) (b1 ++ (b2 ++ (b3 ++ (batchBytes rows false ++ (255 :: b4)))))

theorem readGeneratedKeyRow_error (m : ResultMeta) (lc : LobCollector) {t : Tr σ} {h : H2Error}
    {b rest : List UInt8} (herror : Frame (readH2ErrorFrame : Prog Err (Tr σ) _) h b)
    (hinp : t.inp = (255 :: b) ++ rest)
    : readGeneratedKeyRow m lc t = .fail (.h2 h) (Input.move (255 :: b) rest t) := by
  have hflag : Frame (inFunc "readGeneratedKeyRow" "failed to read row flag" readByte
      : Prog Err (Tr σ) _) 255 [255] := (frame_readByte 255).mapErr
  unfold readGeneratedKeyRow
  rw [Prog.bind_run, hflag.exact t (b ++ rest) hinp, Out.andThen_ok, if_neg (by decide),
    if_neg (by decide), if_pos (by decide), Prog.mapErr_run, readH2Error_of_frame herror rfl]
  simp only [Input.move_move]
  rfl

theorem readGeneratedKeyRows_error (full : Batch → Prog Err (Tr σ) Batch) {m : ResultMeta}
    (hm : m.Fits m.columnCount) {rows : List (List Cell)}
    (hsent : ∀ cells ∈ rows, RowSent σ m cells) {n : Nat} (hn : rows.length < n) {h : H2Error}
    {b : List UInt8} (herror : Frame (readH2ErrorFrame : Prog Err (Tr σ) _) h b) {acc : Batch}
    (hacc : acc.2.reject = false) {t : Tr σ} {rest : List UInt8}
    (hinp : t.inp = batchBytes rows false ++ (255 :: b) ++ rest)
    : readGeneratedKeyRows full m n acc t
        = .fail (.h2 h) (Input.move (batchBytes rows false ++ (255 :: b)) rest t) := by
  induction rows generalizing n acc t with
  | nil =>
    cases n with
    | zero => exact absurd hn (Nat.lt_irrefl 0)
    | succ n =>
      unfold readGeneratedKeyRows
      rw [Prog.bind_run, readGeneratedKeyRow_error m _ herror hinp]
      rfl
  | cons cells rows ih =>
    cases n with
    | zero => exact absurd hn (Nat.not_lt_zero _)
    | succ n =>
      obtain ⟨lc, hrow, hpart⟩ := frame_readColumns t
        "h2go: readGeneratedKeyRow: missing metadata for column %d"
        "h2go: readGeneratedKeyRow: failed to read column %d: %w" hm
        { acc.2 with curRow := acc.1.length } hacc (hsent cells List.mem_cons_self)
      have hcells : t.inp = ([1] ++ cells.flatMap Cell.bytes)
          ++ (batchBytes rows false ++ (255 :: b) ++ rest) := by
        rw [batchBytes_cons] at hinp
        simpa only [List.append_assoc] using hinp
      unfold readGeneratedKeyRows
      rw [batchBytes_cons, Prog.bind_run, (frame_readGeneratedKeyRow_row hrow).exact t _ hcells,
        Out.andThen_ok]
      dsimp only
      rw [ih (fun cells hcells => hsent cells (List.mem_cons_of_mem _ hcells))
        (Nat.lt_of_succ_lt_succ hn) (by exact hpart.reject_eq.trans hacc) rfl]
      simp only [Input.move_move, List.append_assoc]

theorem readGeneratedKeyBatch_error {m : ResultMeta} (hm : m.Fits m.columnCount) {rowCount : Int}
    (hcap : rowCount ≤ maxWireCollectionElements) {rows : List (List Cell)}
    (hsent : ∀ cells ∈ rows, RowSent σ m cells) (hcomplete : KeysComplete rowCount rows true)
    {h : H2Error} {b : List UInt8} (herror : Frame (readH2ErrorFrame : Prog Err (Tr σ) _) h b)
    {t : Tr σ} {rest : List UInt8} (hinp : t.inp = batchBytes rows false ++ (255 :: b) ++ rest)
    : readGeneratedKeyBatch m rowCount t
        = .fail (.h2 h) (Input.move (batchBytes rows false ++ (255 :: b)) rest t) := by
  unfold KeysComplete at hcomplete
  unfold readGeneratedKeyBatch
  by_cases hneg : rowCount < 0
  . rw [if_neg (by omega), if_pos hneg]
    have hlt : rows.length < t.inp.length + 1 := by
      have := length_le_batchBytes rows false
      rw [hinp]
      simp only [List.length_append]
      omega
    exact readGeneratedKeyRows_error _ hm hsent hlt herror rfl hinp
  . rw [if_neg hneg] at hcomplete
    have hlt : rows.length < rowCount.toNat := hcomplete
    rw [if_pos (by omega), Prog.make_eq ⟨by omega, hcap⟩, Prog.pure_bind]
    exact readGeneratedKeyRows_error _ hm hsent hlt herror rfl hinp

theorem error_of_readGeneratedKeyRow {m : ResultMeta} {lc : LobCollector} {e : Err} {t t' : Tr σ}
    {h : H2Error} (hrun : readGeneratedKeyRow m lc t = .fail e t') (he : e.asH2 = some h)
    : ∃ b, Frame (readH2ErrorFrame : Prog Err (Tr σ) _) h b ∧ t.inp = (255 :: b) ++ t'.inp ∧
        e = .h2 h := by
  unfold readGeneratedKeyRow at hrun
  rcases Prog.bind_eq_fail hrun with hfail | ⟨rowFlag, t1, hflag, hrun⟩
  . have hbyte : FailsPlain (inFunc "readGeneratedKeyRow" "failed to read row flag" readByte
        : Prog Err (Tr σ) _) :=
      FailsWith.of_progress (fun _ => progress_wrapErr _ _ progress_readByte)
    exact absurd he ((hbyte.of_run hfail).asH2_ne h)
  obtain ⟨w, hbyte, rfl⟩ := Out.map_eq_ok hflag
  obtain ⟨hinp, hmove⟩ := inp_of_readByte hbyte
  split at hrun
  . rcases Prog.bind_eq_fail hrun with hfail | ⟨r, t2, -, hrun⟩
    . exact absurd he (((plain_readColumns _ _ _ _ _).of_run hfail).asH2_ne h)
    . cases hrun
  . split at hrun
    . cases hrun
    . split at hrun
      . next hflag =>
        obtain ⟨e', t2, hfail, rfl, rfl⟩ := Out.map_eq_fail hrun
        rw [asH2_wrapError] at he
        obtain ⟨rfl, b, hframe, hinp'⟩ := frame_of_readH2Error hfail he
        refine ⟨b, hframe, ?_, rfl⟩
        rw [hinp, int8_eq_neg_one hflag]
        exact congrArg (255 :: ·) hinp'
      . cases hrun
        exact absurd he ((Err.plain_errorf _ _).asH2_ne h)

theorem error_of_readGeneratedKeyRows {full : Batch → Prog Err (Tr σ) Batch}
    (hfull : ∀ {acc : Batch} {e : Err} {t t' : Tr σ}, full acc t ≠ .fail e t') {m : ResultMeta}
    (hm : m.Fits m.columnCount) (n : Nat) {acc : Batch} (hacc : acc.2.reject = false) {e : Err}
    {t t' : Tr σ} {h : H2Error} (hrun : readGeneratedKeyRows full m n acc t = .fail e t')
    (he : e.asH2 = some h)
    : ∃ rows b, (∀ cells ∈ rows, RowSent σ m cells) ∧ rows.length < n ∧
        Frame (readH2ErrorFrame : Prog Err (Tr σ) _) h b ∧
        t.inp = batchBytes rows false ++ (255 :: b) ++ t'.inp ∧ e = .h2 h := by
  induction n generalizing acc t with
  | zero => exact absurd hrun hfull
  | succ n ih =>
    unfold readGeneratedKeyRows at hrun
    rcases Prog.bind_eq_fail hrun with hfail | ⟨o, t1, hrow, hrun⟩
    . obtain ⟨b, hframe, hinp, rfl⟩ := error_of_readGeneratedKeyRow hfail he
      exact ⟨[], b, by simp, Nat.succ_pos n, hframe, by simpa [batchBytes] using hinp, rfl⟩
    . rcases sent_of_readGeneratedKeyRow hm { acc.2 with curRow := acc.1.length } hacc hrow with
        ⟨rfl, -, -⟩ | ⟨r, cells, rfl, hreject, hsent, hinp, -⟩
      . cases hrun
      . obtain ⟨rows, b, hrows, hlen, hframe, hinp1, rfl⟩ := ih hreject hrun
        refine ⟨cells :: rows, b, List.forall_mem_cons.mpr ⟨hsent, hrows⟩, Nat.succ_lt_succ hlen,
          hframe, ?_, rfl⟩
        rw [hinp, hinp1, batchBytes_cons]
        simp only [List.append_assoc]

theorem error_of_readGeneratedKeyBatch {m : ResultMeta} (hm : m.Fits m.columnCount) {rowCount : Int}
    {e : Err} {t t' : Tr σ} {h : H2Error} (hcap : rowCount ≤ maxWireCollectionElements)
    (hrun : readGeneratedKeyBatch m rowCount t = .fail e t') (he : e.asH2 = some h)
    : ∃ rows b, (∀ cells ∈ rows, RowSent σ m cells) ∧ KeysComplete rowCount rows true ∧
        Frame (readH2ErrorFrame : Prog Err (Tr σ) _) h b ∧
        t.inp = batchBytes rows false ++ (255 :: b) ++ t'.inp ∧ e = .h2 h := by
  unfold readGeneratedKeyBatch at hrun
  unfold KeysComplete
  by_cases hpos : 0 < rowCount
  . rw [if_pos hpos, Prog.make_eq ⟨by omega, hcap⟩, Prog.pure_bind] at hrun
    obtain ⟨rows, b, hsent, hlen, hrest⟩ :=
      error_of_readGeneratedKeyRows (by intro _ _ _ _ h; cases h) hm _ rfl hrun he
    exact ⟨rows, b, hsent, by rw [if_neg (by omega)]; exact hlen, hrest⟩
  . rw [if_neg hpos] at hrun
    by_cases hneg : rowCount < 0
    . rw [if_pos hneg] at hrun
      obtain ⟨rows, b, hsent, -, hrest⟩ :=
        error_of_readGeneratedKeyRows (by intro _ _ _ _ h; cases h) hm _ rfl hrun he
      exact ⟨rows, b, hsent, by rw [if_pos hneg], hrest⟩
    . rw [if_neg hneg] at hrun
      cases hrun

end Tr

namespace Session

def Refusal (r : Option H2Error) (e : Err) : Prop :=
  e.asH2 = r ∧ e.isTimeout = false ∧ isLastInsertIDUnavailable e = false

theorem refusal_h2 (h : H2Error) : Refusal (some h) (.h2 h) := ⟨rfl, rfl, rfl⟩

theorem refusal_errorf (format : String) (args : List FmtArg) : Refusal none (.errorf format args) :=
  ⟨rfl, rfl, rfl⟩

variable [GoStd] [Peer σ]

omit [GoStd] in
theorem discarded_resolveGeneratedKeyLobs (pending : List PendingLob) (rows : List (List Value))
    : FailsWith (fun _ s => s.Discarded) (resolveGeneratedKeyLobs pending rows
        : Prog Err (Session σ) _) := by
  induction pending generalizing rows with
  | nil => exact FailsWith.pure _
  | cons p pending ih =>
    apply FailsWith.bind (discarded_orBreak _)
    intro v
    apply FailsWith.bind
    . refine ⟨fun {s s' e} hrun => ?_⟩
      exact ((Cursor.triple_spliceLob rows p v).of_fail (P := fun _ => True)
        (E := fun _ _ => False) True.intro hrun).elim
    . exact fun rows => ih rows

/--
The generated keys up to their rows: the session is given up, the row count is over the cap, or the
header has been read.
-/
theorem readGeneratedKeys_cases {s : Session σ} (hopen : s.trNil = false)
    : (∃ e s', readGeneratedKeys s = .fail e s' ∧ s'.Discarded) ∨
      ∃ columnCount rowCount b1 b2 rest, s.tr.inp = b1 ++ (b2 ++ rest) ∧
        Frame (Tr.readInt32 : Prog Err (Tr σ) _) columnCount b1 ∧
        Frame (Tr.readRowCount : Prog Err (Tr σ) _) rowCount b2 ∧
        (maxWireCollectionElements < rowCount ∨ rowCount ≤ maxWireCollectionElements ∧
          ∃ m b3 rest', rest = b3 ++ rest' ∧ m.columnCount = columnCount ∧ m.Fits m.columnCount ∧
            Frame (Tr.readResultMeta columnCount s.version : Prog Err (Tr σ) _) m b3) := by
  unfold readGeneratedKeys
  rw [ifOpen_of_open hopen]
  rcases orBreak_cases (m := inFunc "readGeneratedKeys" "failed to read column count" Tr.readInt32)
      (fun _ => (progress_wrapErr _ _ Tr.progress_readInt32).ends) hopen with
    ⟨columnCount, b1, rest1, hinp1, hcolumns, hrun1⟩ | ⟨e, s', hrun, hdiscarded⟩
  case inr => exact .inl ⟨e, s', Prog.bind_of_fail hrun _, hdiscarded⟩
  rw [Prog.bind_of_ok hrun1]
  rcases orBreak_cases (m := inFunc "readGeneratedKeys" "failed to read row count" Tr.readRowCount)
      (fun _ => (progress_wrapErr _ _ Tr.progress_readInt64).ends)
      (s := s.setTr (Input.move b1 rest1 s.tr)) hopen with
    ⟨rowCount, b2, rest2, hinp2, hrows, hrun2⟩ | ⟨e, s', hrun, hdiscarded⟩
  case inr => exact .inl ⟨e, s', Prog.bind_of_fail hrun _, hdiscarded⟩
  have hinp : s.tr.inp = b1 ++ (b2 ++ rest2) := by rw [hinp1, ← hinp2]; rfl
  rw [Prog.bind_of_ok hrun2]
  by_cases hcap : maxWireCollectionElements < rowCount
  . exact .inr ⟨columnCount, rowCount, b1, b2, rest2, hinp, hcolumns.of_mapErr, hrows.of_mapErr,
      .inl hcap⟩
  rw [if_neg hcap]
  unfold readGeneratedKeysBody
  rw [Prog.bind_run, Prog.get_run, Out.andThen_ok]
  rcases orBreak_cases (m := inFunc "readGeneratedKeys" "failed to read metadata"
        (Tr.readResultMeta columnCount s.version))
      (fun _ => (progress_wrapErr _ _ (Tr.progress_readResultMeta columnCount s.version)).ends)
      (s := s.setTr (Input.move b2 rest2 (Input.move b1 rest1 s.tr))) hopen with
    ⟨m, b3, rest3, hinp3, hmeta, -⟩ | ⟨e, s', hrun, hdiscarded⟩
  case inr => exact .inl ⟨e, s', Prog.bind_of_fail hrun _, hdiscarded⟩
  obtain ⟨hcount, hm⟩ := Progress.of_frame hmeta.of_mapErr s.tr
    (Tr.progress_readResultMeta columnCount s.version)
  exact .inr ⟨columnCount, rowCount, b1, b2, rest2, hinp, hcolumns.of_mapErr, hrows.of_mapErr,
    .inr ⟨Int.not_lt.mp hcap, m, b3, rest3, hinp3, hcount, hcount ▸ hm, hmeta.of_mapErr⟩⟩

theorem readGeneratedKeys_overCap {s : Session σ} (hopen : s.trNil = false)
    {columnCount rowCount : Int} {b1 b2 rest : List UInt8}
    (hcolumns : Frame (Tr.readInt32 : Prog Err (Tr σ) _) columnCount b1)
    (hrows : Frame (Tr.readRowCount : Prog Err (Tr σ) _) rowCount b2)
    (hcap : maxWireCollectionElements < rowCount) (hinp : s.tr.inp = b1 ++ (b2 ++ rest))
    : readGeneratedKeys s = .fail
        (.errorf "h2go: readGeneratedKeys: row count %d exceeds cap %d"
          [.int rowCount, .int maxWireCollectionElements])
        (s.setTr (Input.move (b1 ++ b2) rest s.tr)) := by
  unfold readGeneratedKeys
  rw [ifOpen_of_open hopen, Prog.bind_of_ok (orBreak_of_frame hcolumns.mapErr hopen _ hinp),
    Prog.bind_of_ok (orBreak_of_frame hrows.mapErr (by exact hopen) rest rfl), if_pos hcap,
    Prog.throw_run]
  simp only [setTr_setTr, setTr_tr, Input.move_move]

theorem readGeneratedKeys_of_frames {s : Session σ} (hopen : s.trNil = false)
    {columnCount rowCount : Int} {m : ResultMeta} {b1 b2 b3 rest : List UInt8}
    (hcolumns : Frame (Tr.readInt32 : Prog Err (Tr σ) _) columnCount b1)
    (hrows : Frame (Tr.readRowCount : Prog Err (Tr σ) _) rowCount b2)
    (hcap : rowCount ≤ maxWireCollectionElements)
    (hmeta : Frame (Tr.readResultMeta columnCount s.version : Prog Err (Tr σ) _) m b3)
    (hinp : s.tr.inp = b1 ++ (b2 ++ (b3 ++ rest)))
    : readGeneratedKeys s = readGeneratedKeysRows m rowCount
        (s.setTr (Input.move (b1 ++ (b2 ++ b3)) rest s.tr)) := by
  unfold readGeneratedKeys readGeneratedKeysBody
  rw [ifOpen_of_open hopen, Prog.bind_of_ok (orBreak_of_frame hcolumns.mapErr hopen _ hinp),
    Prog.bind_of_ok (orBreak_of_frame hrows.mapErr (by exact hopen) _ rfl), if_neg (by omega),
    Prog.bind_run, Prog.get_run, Out.andThen_ok,
    Prog.bind_of_ok (orBreak_of_frame (by exact hmeta.mapErr) (by exact hopen) rest rfl)]
  simp only [setTr_setTr, setTr_tr, Input.move_move, List.append_assoc]

theorem readGeneratedKeys_refused {s : Session σ} (hopen : s.trNil = false) {r : Option H2Error}
    {b rest : List UInt8} (h : Tr.KeysRefused σ s.version r b) (hinp : s.tr.inp = b ++ rest)
    : ∃ e, Refusal r e ∧ readGeneratedKeys s = .fail e (s.setTr (Input.move b rest s.tr)) := by
  cases h with
  | @overCap columnCount rowCount b1 b2 hcolumns hrows hcap =>
    rw [List.append_assoc] at hinp
    exact ⟨_, refusal_errorf _ _, readGeneratedKeys_overCap hopen hcolumns hrows hcap hinp⟩
  | @errorRow columnCount rowCount m rows h b1 b2 b3 b4 hcolumns hrows hcap hmeta hsent hcomplete
      herror =>
    obtain ⟨rfl, hm⟩ := Progress.of_frame hmeta s.tr
      (Tr.progress_readResultMeta columnCount s.version)
    refine ⟨.h2 h, refusal_h2 h, ?_⟩
    simp only [List.append_assoc] at hinp
    rw [readGeneratedKeys_of_frames hopen hcolumns hrows hcap hmeta hinp]
    unfold readGeneratedKeysRows
    rw [Prog.bind_run, orBreakUnlessAligned_run (by exact hopen), setTr_tr,
      Tr.readGeneratedKeyBatch_error hm hcap hsent hcomplete herror
        (by exact (List.append_assoc _ _ _).symm)]
    simp only [setTr_setTr, Input.move_move, Out.andThen_fail, List.append_assoc]
    rfl

theorem error_of_readGeneratedKeysRows {m : ResultMeta} (hm : m.Fits m.columnCount) {rowCount : Int}
    (hcap : rowCount ≤ maxWireCollectionElements) {s s' : Session σ} {e : Err}
    (hopen : s.trNil = false) (hrun : readGeneratedKeysRows m rowCount s = .fail e s')
    (halive : s'.dead = false)
    : ∃ h rows b, e = .h2 h ∧ (∀ cells ∈ rows, RowSent σ m cells) ∧
        Tr.KeysComplete rowCount rows true ∧ Frame (Tr.readH2ErrorFrame : Prog Err (Tr σ) _) h b ∧
        s.tr.inp = batchBytes rows false ++ (255 :: b) ++ s'.tr.inp := by
  unfold readGeneratedKeysRows at hrun
  rcases Prog.bind_eq_fail hrun with hfail | ⟨r, s1, -, hrun⟩
  . rw [orBreakUnlessAligned_run hopen] at hfail
    split at hfail
    . cases hfail
    . next e' t hbatch =>
      cases hfail
      cases he : e.asH2 with
      | none =>
        rw [afterErr_of_plain he] at halive
        cases halive
      | some h =>
        obtain ⟨rows, b, hsent, hcomplete, herror, hinp, rfl⟩ :=
          Tr.error_of_readGeneratedKeyBatch hm hcap hbatch he
        rw [afterErr_tr]
        exact ⟨h, rows, b, rfl, hsent, hcomplete, herror, hinp⟩
    . cases hfail
    . cases hfail
  . rcases Prog.bind_eq_fail hrun with hfail | ⟨rows, s2, -, hrun⟩
    . rw [((discarded_resolveGeneratedKeyLobs _ _).of_run hfail).1] at halive
      cases halive
    . cases hrun

theorem refused_of_readGeneratedKeys {s s' : Session σ} (hopen : s.trNil = false) {e : Err}
    (hrun : readGeneratedKeys s = .fail e s') (halive : s'.dead = false)
    : ∃ r b, Refusal r e ∧ Tr.KeysRefused σ s.version r b ∧ s.tr.inp = b ++ s'.tr.inp := by
  rcases readGeneratedKeys_cases hopen with ⟨e', s1, hrun', hdiscarded⟩ | ⟨columnCount, rowCount, b1,
    b2, rest, hinp, hcolumns, hrows, hcap | ⟨hcap, m, b3, rest', rfl, rfl, hm, hmeta⟩⟩
  . rw [hrun] at hrun'
    cases hrun'
    rw [hdiscarded.1] at halive
    cases halive
  . rw [readGeneratedKeys_overCap hopen hcolumns hrows hcap hinp] at hrun
    cases hrun
    exact ⟨none, b1 ++ b2, refusal_errorf _ _, .overCap hcolumns hrows hcap,
      by rw [hinp, List.append_assoc]; rfl⟩
  . rw [readGeneratedKeys_of_frames hopen hcolumns hrows hcap hmeta hinp] at hrun
    obtain ⟨h, rows, b4, rfl, hsent, hcomplete, herror, hinp4⟩ :=
      error_of_readGeneratedKeysRows hm hcap (by exact hopen) hrun halive
    refine ⟨some h, _, refusal_h2 h, .errorRow hcolumns hrows hcap hmeta hsent hcomplete herror, ?_⟩
    rw [hinp, show rest' = _ from hinp4]
    simp only [List.append_assoc]

end Session

end H2Go
