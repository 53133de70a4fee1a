import H2Go.GeneratedKeys.Lemmas
import H2Go.Transfer.Write
import H2Go.Rows.Discard

/-!
This module contains the robustness of the decoders: on every byte stream they come to an end with a
value or an error, and they never hit a run-time panic. The stream is that of a peer which sends
nothing more, so that all there is to read is known from the start.
-/

namespace H2Go

open BigEndian

namespace Tr

variable {σ : Type} {N : Nat}

theorem progress_write (bs : List UInt8)
    : Progress N (write bs : Prog Err (Tr σ) _) 0 (fun _ => True) Err.Plain := by
  intro t _
  cases hb : t.writeBudget with
  | none =>
    rw [write_of_healthy hb]
    exact ⟨Nat.le_refl _, True.intro⟩
  | some n =>
    by_cases hn : bs.length ≤ n
    . rw [write_of_le hb hn]
      exact ⟨Nat.le_refl _, True.intro⟩
    . have hfail := write_of_lt hb (Nat.lt_of_not_le hn)
      rw [hfail]
      exact ⟨Nat.le_refl _, plain_of_write hfail⟩

theorem flush_of_silent (t : Tr Silent)
    : (∃ t', flush t = .ok () t' ∧ t'.inp = t.inp) ∨ ∃ t', flush t = .fail t.writeFault.err t'
        ∧ t'.inp = t.inp := by
  have hdeliver : t.deliver.inp = t.inp := by
    simp [deliver, Peer.recv]
  unfold flush
  split
  . refine .inl ⟨_, rfl, ?_⟩
    split
    . rfl
    . exact hdeliver
  . exact .inr ⟨_, rfl, rfl⟩
  . refine .inl ⟨_, rfl, ?_⟩
    split
    . rfl
    . exact hdeliver

theorem progress_flush
    : Progress N (flush : Prog Err (Tr Silent) _) 0 (fun _ => True) Err.Plain := by
  intro t _
  rcases flush_of_silent t with ⟨t', hrun, hinp⟩ | ⟨t', hrun, hinp⟩
  . rw [hrun]
    exact ⟨Nat.le_of_eq (congrArg List.length hinp), True.intro⟩
  . have hplain := plain_flush.of_run hrun
    rw [hrun]
    exact ⟨Nat.le_of_eq (congrArg List.length hinp), hplain⟩

theorem progress_writeBytes (b : Option (List UInt8))
    : Progress N (writeBytes b : Prog Err (Tr σ) _) 0 (fun _ => True) Err.Plain := by
  cases b with
  | none => exact progress_write _
  | some b => exact Progress.seq (progress_write _) (fun _ _ => progress_write _)

theorem progress_sendLobRead (p : PendingLob) (offset : Int)
    : Progress N (sendLobRead p offset : Prog Err (Tr Silent) _) 0 (fun _ => True) Err.Plain := by
  apply Progress.seq (progress_wrapErr _ _ (progress_write _))
  intro _ _
  apply Progress.seq (progress_wrapErr _ _ (progress_write _))
  intro _ _
  apply Progress.seq (progress_wrapErr _ _ (progress_writeBytes _))
  intro _ _
  apply Progress.seq (progress_wrapErr _ _ (progress_write _))
  intro _ _
  apply Progress.seq (progress_wrapErr _ _ (progress_write _))
  intro _ _
  exact progress_wrapErr _ _ progress_flush

theorem progress_readLobChunk
    : Progress N (readLobChunk : Prog Err (Tr σ) _) 4 (fun _ => True) Err.Plain := by
  apply Progress.bind (progress_wrapErr _ _ progress_readInt32)
  intro status _ _
  apply Progress.ite (fun _ => Progress.throw (Err.plain_errorf _ _))
  intro _
  apply Progress.seq (progress_wrapErr _ _ progress_readInt32)
  intro actualLen _
  apply Progress.ite (fun _ => Progress.pure True.intro)
  intro _
  apply Progress.ite (fun _ => Progress.throw (Err.plain_errorf _ _))
  intro hrange
  apply Progress.seq (Progress.make (by omega))
  intro _ _
  exact (progress_wrapErr _ _ (progress_readFull _)).drop

theorem progress_fetchLobLoop (p : PendingLob) {fuel : Nat} (h : N < fuel) (buf : List UInt8)
    (offset : Int)
    : Progress N (fetchLobLoop p fuel buf offset : Prog Err (Tr Silent) _) 0 (fun _ => True)
        Err.Plain := by
  -- every round reads a status, so the next round sees a shorter input
  induction fuel generalizing N buf offset with
  | zero => omega
  | succ fuel ih =>
    apply Progress.seq (progress_sendLobRead p offset)
    intro _ _
    apply (Progress.bind progress_readLobChunk _).weaken (Nat.zero_le _) (fun _ h => h)
      (fun _ h => h)
    intro chunk _ hN
    apply Progress.ite (fun _ => Progress.pure True.intro)
    intro _
    exact ih (by omega) _ _

theorem progress_fetchLob (p : PendingLob)
    : Progress N (fetchLob p : Prog Err (Tr Silent) _) 0 Value.IsPlain Err.Plain := by
  apply Progress.ite (fun _ => Progress.throw (Err.plain_errorf _ _))
  intro hcap
  apply Progress.seq (R := fun _ => True)
  . apply Progress.ite
    . intro hpos
      exact Progress.make (by omega)
    . intro _
      exact Progress.pure True.intro
  . intro _ _ t ht
    rw [Prog.bind_run, Prog.get_run, Out.andThen_ok]
    refine Progress.seq (N := t.inp.length) (progress_fetchLobLoop p (by omega) [] 0) ?_ t
      (Nat.le_refl _)
    intro buf _
    apply Progress.ite
    . intro _
      exact Progress.pure True.intro
    . intro _
      exact Progress.pure True.intro

theorem progress_fetchLOBValue {typeCode : ValueType} (h : typeCode = .blob ∨ typeCode = .clob)
    : Progress N (readLOBValue typeCode none : Prog Err (Tr Silent) _) 0 (fun _ => True)
        Err.Plain := by
  apply progress_readLOBValue h _ (fun _ _ => True.intro)
  intro p _
  exact Progress.seq (progress_fetchLob p) (fun _ _ => Progress.pure True.intro)

section

variable [GoStd]

theorem progress_readValueInternal_none (colType : Option TypeInfo)
    : Progress N (readValueInternal colType none : Prog Err (Tr Silent) _) 4 (fun _ => True)
        Err.Plain := by
  intro t ht
  exact progress_readValueWith (R := fun _ => True) (N := t.inp.length)
    (fun _ _ h => progress_fetchLOBValue h) (fun _ _ => True.intro) (Nat.le_refl _) colType t
    (Nat.le_refl _)

end

end Tr

section

variable {σ : Type} {α : Type}

namespace Session

theorem triple_orBreak {m : Prog Err (Tr σ) α} {k : Nat} {R : α → Prop} {E : Err → Prop}
    (h : ∀ N, Progress N m k R E)
    : Triple False (fun s : Session σ => s.trNil = false) (orBreak m)
        (fun a s => s.trNil = false ∧ R a) (fun _ _ => True) := by
  intro s hs
  have hm := h _ s.tr (Nat.le_refl _)
  rw [orBreak_run hs]
  cases hrun : m s.tr with
  | ok a t =>
    rw [hrun] at hm
    exact ⟨hs, hm.2⟩
  | fail e t => trivial
  | panic | stuck =>
    rw [hrun] at hm
    exact hm

theorem triple_orBreakUnlessAligned {m : Prog Err (Tr σ) α} {k : Nat} {R : α → Prop}
    {E : Err → Prop} (h : ∀ N, Progress N m k R E)
    : Triple False (fun s : Session σ => s.trNil = false) (orBreakUnlessAligned m)
        (fun a s => s.trNil = false ∧ R a) (fun _ _ => True) := by
  intro s hs
  have hm := h _ s.tr (Nat.le_refl _)
  rw [orBreakUnlessAligned_run hs]
  cases hrun : m s.tr with
  | ok a t =>
    rw [hrun] at hm
    exact ⟨hs, hm.2⟩
  | fail e t => trivial
  | panic | stuck =>
    rw [hrun] at hm
    exact hm

theorem triple_resolveGeneratedKeyLobs {pending : List PendingLob} {rows : List (List Value)}
    (h : ∀ p ∈ pending, Addresses rows p)
    : Triple False (fun s : Session Silent => s.trNil = false) (resolveGeneratedKeyLobs pending rows)
        (fun _ _ => True) (fun _ _ => True) := by
  induction pending generalizing rows with
  | nil => exact Triple.pure (fun _ _ => True.intro)
  | cons p pending ih =>
    apply Triple.bind (triple_orBreak (fun _ => progress_wrapErr _ _ (Tr.progress_fetchLob p)))
    intro v s hs
    obtain ⟨row, hrow, hcol⟩ := h p List.mem_cons_self
    rw [Prog.bind_run, Tr.spliceLob_run hrow hcol, Out.andThen_ok]
    exact ih (fun q hq => (h q (List.mem_cons_of_mem p hq)).set hrow v) s hs.1

variable [GoStd]

theorem triple_readGeneratedKeysBody (columnCount : Int) {rowCount : Int}
    (h : rowCount ≤ maxWireCollectionElements)
    : Triple False (fun s : Session Silent => s.trNil = false)
        (readGeneratedKeysBody columnCount rowCount) (fun _ _ => True) (fun _ _ => True) := by
  apply Triple.get_bind
  intro s hs
  apply Triple.bind ((triple_orBreak (fun _ => progress_wrapErr _ _
    (Tr.progress_readResultMeta columnCount s.version))).pre (by rintro _ rfl; exact hs))
  intro m
  apply Triple.assume (fun _ h => h.2)
  rintro ⟨rfl, hfits⟩
  apply Triple.bind ((triple_orBreakUnlessAligned
    (fun _ => Tr.progress_readGeneratedKeyBatch hfits h)).pre (fun _ h => h.1))
  intro b
  apply Triple.assume (fun _ h => h.2)
  rintro ⟨new, hgrown⟩
  apply Triple.bind ((triple_resolveGeneratedKeyLobs (fun p hp => (hgrown.of_mem_pending hp).2)).pre
    (fun _ h => h.1))
  intro rows
  exact Triple.pure (fun _ _ => True.intro)

theorem ends_readGeneratedKeys (s : Session Silent) : (readGeneratedKeys s).Ends := by
  unfold readGeneratedKeys
  cases hnil : s.trNil with
  | true =>
    rw [ifOpen_of_trNil hnil]
    trivial
  | false =>
    rw [ifOpen_of_open hnil]
    refine Triple.bind (triple_orBreak (fun _ => progress_wrapErr _ _ Tr.progress_readInt32)) ?_ s
      hnil
    intro columnCount
    apply Triple.bind ((triple_orBreak (fun _ => progress_wrapErr _ _ Tr.progress_readInt64)).pre
      (fun _ h => h.1))
    intro rowCount
    apply Triple.ite
    . intro _
      exact Triple.throw (fun _ _ => True.intro)
    . intro hcap
      exact (triple_readGeneratedKeysBody columnCount (by omega)).pre (fun _ h => h.1)

end Session

namespace Rows

def Typed (r : Rows) : Prop :=
  r.closed = false → ∃ m, r.columns = some m ∧ m.Fits r.columnCount

theorem typed_of_closed {r : Rows} (h : r.closed = true) : r.Typed := by
  intro hopen
  rw [h] at hopen
  cases hopen

theorem Typed.like {r r' : Rows} (h : r.Typed) (hlike : r.Like r') : r'.Typed := by
  obtain ⟨_, _, rfl⟩ := hlike
  exact h

end Rows

namespace Cursor

theorem triple_resolveDeferred {pending : List PendingLob}
    : Triple False (fun c : Cursor Silent => c.session.trNil = false
          ∧ ∀ p ∈ pending, Addresses c.rows.bufferedRows p)
        (resolveLobs pending) (fun _ _ => True) (fun _ _ => True) := by
  induction pending with
  | nil => exact Triple.pure (fun _ _ => True.intro)
  | cons p pending ih =>
    rintro c ⟨hopen, haddr⟩
    have hfetch := Session.triple_orBreak (fun _ => progress_wrapErr
      "h2go: fetchRows: failed to resolve deferred LOB (row %d column %d): %w"
      [.int p.row, .int p.col] (Tr.progress_fetchLob p)) c.session hopen
    unfold resolveLobs
    rw [Prog.bind_run, onSession_run]
    cases hrun : Session.orBreak (wrapErr
      "h2go: fetchRows: failed to resolve deferred LOB (row %d column %d): %w"
      [.int p.row, .int p.col] (Tr.fetchLob p)) c.session with
    | ok v s =>
      rw [hrun] at hfetch
      obtain ⟨row, hrow, hcol⟩ := haddr p List.mem_cons_self
      rw [Out.map_ok, Out.andThen_ok, Prog.bind_run, Prog.get_run, Out.andThen_ok, Prog.bind_run,
        Tr.spliceLob_run (by exact hrow) hcol, Out.andThen_ok]
      exact ih _ ⟨hfetch.1, fun q hq => (haddr q (List.mem_cons_of_mem p hq)).set hrow v⟩
    | fail e s => trivial
    | panic | stuck =>
      rw [hrun] at hfetch
      exact hfetch

variable [GoStd]

theorem ends_fetchRows (fetch : Int) {c : Cursor Silent} (hopen : c.session.trNil = false)
    {m : ResultMeta} (hcolumns : c.rows.columns = some m) (hm : m.Fits c.rows.columnCount)
    : (fetchRows fetch c).Ends := by
  have hfollows := fetchRowsLoop_follows fetch.toNat .empty hopen
  have hread := Tr.progress_readRows (N := c.session.tr.inp.length) hm
    (Batch.Grown.nil c.rows.bufferedRows c.rows.columnCount.toNat) fetch.toNat c.session.tr (Nat.le_refl _)
  unfold fetchRows
  rw [Prog.bind_run]
  rw [hcolumns] at hfollows
  cases hrun : Tr.readRows (some m) c.rows.columnCount fetch.toNat (c.rows.bufferedRows, .empty)
    c.session.tr with
  | ok res t =>
    rw [hrun] at hfollows hread
    rw [hfollows]
    obtain ⟨-, new, hgrown⟩ := hread
    exact triple_resolveDeferred _ ⟨hopen, fun p hp => (hgrown.of_mem_pending hp).2⟩
  | fail e t =>
    rw [hrun] at hfollows
    obtain ⟨buf, hfail⟩ := hfollows
    rw [hfail]
    trivial
  | panic | stuck =>
    rw [hrun] at hread
    exact absurd hread id

theorem ends_prefetchInitialRows {c : Cursor Silent} (hopen : c.session.trNil = false)
    {m : ResultMeta} (hcolumns : c.rows.columns = some m) (hm : m.Fits c.rows.columnCount)
    : (prefetchInitialRows c).Ends := by
  refine Triple.get_bind (P := fun c' => c' = c) ?_ c rfl
  rintro _ rfl
  apply Triple.ite
  . intro _
    apply Triple.mapErr
    rintro _ rfl
    exact ends_fetchRows _ hopen hcolumns hm
  . intro _
    exact Triple.pure (fun _ _ => True.intro)

section Typed

variable [Peer σ]

theorem typed_step {c c' : Cursor σ} (h : Step c c') (hc : c.rows.Typed) : c'.rows.Typed := by
  cases h with
  | next h =>
    obtain ⟨-, -, -, htake | ⟨fetch, c1, -, hfetch, htake⟩⟩ := takeRow_of_next_ok h
    . obtain ⟨_, _, -, -, rfl⟩ := advance_of_takeRow_ok htake
      exact hc
    . have hlike := (triple_fetchNextBatch fetch).of_ok (Rows.Like.refl _) hfetch
      obtain ⟨_, _, -, -, rfl⟩ := advance_of_takeRow_ok htake
      have htyped : c1.rows.Typed := hc.like hlike
      exact htyped
  | nextErr h =>
    cases nextErr_of_fail h with
    | closed | sticky | mismatch | done => exact hc
    | failed hopen herr h =>
      obtain ⟨r', hlike, hrows, -⟩ := (triple_fetchNextBatch _).of_fail (Rows.Like.refl _) h
      have htyped : r'.Typed := hc.like hlike
      rw [hrows]
      exact htyped
    | empty hopen herr _ _ h _ =>
      exact hc.like ((triple_fetchNextBatch _).of_ok (Rows.Like.refl _) h)
  | close h => exact Rows.typed_of_closed (triple_close.of_ok True.intro h)
  | closeErr h => exact Rows.typed_of_closed (triple_close.of_fail True.intro h)

theorem typed_of_reachable {c : Cursor σ} (h : c.Reachable) : c.rows.Typed := by
  obtain ⟨_, columnCount, _, _, _, s, r, s', hnew, hsteps⟩ := h
  induction hsteps with
  | refl =>
    obtain ⟨hnil, _, s1, m, s2, hcount, hmeta, hprefetch⟩ := Session.prefetch_of_newRows_ok hnew
    have hopen := ((Session.triple_orBreak (fun _ =>
      progress_wrapErr _ _ Tr.progress_readInt64)).of_ok hnil hcount).1
    obtain ⟨-, -, hfits⟩ := (Session.triple_orBreak (fun _ =>
      progress_wrapErr _ _ (Tr.progress_readResultMeta columnCount _))).of_ok hopen hmeta
    exact Rows.Typed.like (fun _ => ⟨m, rfl, hfits⟩)
      (triple_prefetchInitialRows.of_ok (Rows.Like.refl _) hprefetch)
  | tail _ hstep ih => exact typed_step hstep ih

end Typed

end Cursor

theorem Session.ends_newRows [GoStd] (resultID columnCount fetchSize : Int) (ownsCommand : Bool)
    (commandID : Int) (s : Session Silent)
    : (newRows resultID columnCount fetchSize ownsCommand commandID s).Ends := by
  unfold newRows
  cases hnil : s.trNil with
  | true =>
    rw [ifOpen_of_trNil hnil]
    trivial
  | false =>
    rw [ifOpen_of_open hnil]
    refine Triple.bind (triple_orBreak (fun _ => progress_wrapErr _ _ Tr.progress_readInt64)) ?_ s
      hnil
    intro rowCount
    apply Triple.bind ((triple_orBreak (fun _ => progress_wrapErr _ _
      (Tr.progress_readResultMeta columnCount _))).pre (fun _ h => h.1))
    rintro columns s ⟨hopen, -, hfits⟩
    have hends := Cursor.ends_prefetchInitialRows (c := {
      rows := Rows.initial resultID columnCount fetchSize ownsCommand commandID rowCount columns
      session := s }) hopen rfl hfits
    unfold Cursor.startRows
    cases hrun : Cursor.prefetchInitialRows (σ := Silent) {
        rows := Rows.initial resultID columnCount fetchSize ownsCommand commandID rowCount columns
        session := s } with
    | ok | fail => trivial
    | panic | stuck =>
      rw [hrun] at hends
      exact hends

/--
On every finite stream, with every fault of the transport, the decoders return a value or an error.
An allocation beyond its cap is a panic of `Prog.make`, so there is none. The rows of `fetchRows` are
those of any result set that has not been closed, wherever its earlier batches came from.
-/
theorem decoders_end [GoStd] (t : Tr Silent) (s : Session Silent)
    : (Tr.readTypeInfo t).Ends ∧
      (∀ columnCount version : Int, (Tr.readResultMeta columnCount version t).Ends) ∧
      (∀ (colType : Option TypeInfo) (lc : Option LobCollector),
        (Tr.readValueInternal colType lc t).Ends) ∧
      (Session.readGeneratedKeys s).Ends ∧
      (∀ (resultID columnCount fetchSize : Int) (ownsCommand : Bool) (commandID : Int),
        (Session.newRows resultID columnCount fetchSize ownsCommand commandID s).Ends) ∧
      (∀ (ρ : Type) [Peer ρ] (c : Cursor ρ) (fetch : Int), c.Reachable → c.rows.closed = false →
        s.trNil = false → (Cursor.fetchRows fetch { rows := c.rows, session := s }).Ends) := by
  refine ⟨?_, ?_, ?_, Session.ends_readGeneratedKeys s, ?_, ?_⟩
  . exact Tr.progress_readTypeInfo.ends
  . intro columnCount version
    exact (Tr.progress_readResultMeta columnCount version).ends
  . intro colType lc
    cases lc with
    | none => exact (Tr.progress_readValueInternal_none colType).ends
    | some c => exact (Tr.progress_readValueInternal colType c).ends
  . intro resultID columnCount fetchSize ownsCommand commandID
    exact Session.ends_newRows _ _ _ _ _ s
  . intro ρ _ c fetch hreach hopen hnil
    obtain ⟨m, hcolumns, hm⟩ := Cursor.typed_of_reachable hreach hopen
    exact Cursor.ends_fetchRows fetch hnil hcolumns hm

end

section

open StandIn

theorem decoders_end_broken
    : ∃ c : Cursor Silent, c.Reachable ∧ c.rows.closed = false ∧ c.session.trNil = false ∧
        (Cursor.fetchRows 7 c).Ends := by
  obtain ⟨r, s, c, _, _, _, hnew, hrow, -, ⟨hopen, hnil⟩, -⟩ := brokenResult_run
  have hreach : c.Reachable :=
    ⟨1, 1, 1, false, 0, brokenResult, r, s, hnew, Relation.ReflTransGen.single (.next hrow)⟩
  exact ⟨c, hreach, hopen, hnil,
    (decoders_end c.session.tr c.session).2.2.2.2.2 Silent c 7 hreach hopen hnil⟩

end

end H2Go
