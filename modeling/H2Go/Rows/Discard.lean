import H2Go.Rows.Lemmas
import H2Go.Transfer.Write
import Mathlib.Logic.Relation

/-!
This module contains the rule for discarding sessions while rows are read: an error of the rows
leaves a session behind that is either given up or stands exactly behind an error frame.
-/

namespace H2Go

variable {σ : Type} {α : Type}

namespace Session

/--
What is left after the error `e`: the session is given up, or `e` is an error of the server and the
stream stands at the end of its frame.
-/
def Settled (e : Err) (s : Session σ) : Prop :=
  s.Discarded ∨ ∃ h, e.asH2 = some h ∧ s.tr.EndsWith h

theorem Settled.congr {e e' : Err} {s : Session σ} (h : s.Settled e) (he : e'.asH2 = e.asH2)
    : s.Settled e' := by
  unfold Settled
  rwa [he]

theorem settled_afterErr {e : Err} {s : Session σ} (h : Tr.AlignedErr e s.tr)
    : (s.afterErr e).Settled e := by
  unfold afterErr
  cases hh : e.asH2 with
  | none => exact .inl (discarded_abort s)
  | some h2 => exact .inr ⟨h2, hh, h h2 hh⟩

theorem Settled.afterErr {e : Err} {s : Session σ} (h : s.Settled e) : (s.afterErr e).Settled e := by
  unfold Session.afterErr
  split
  . exact .inl (discarded_abort s)
  . exact h

theorem discarded_orBreak (m : Prog Err (Tr σ) α) : FailsWith (fun _ s => s.Discarded) (orBreak m) := by
  refine ⟨fun {s s' e} hrun => ?_⟩
  cases hnil : s.trNil with
  | true =>
    unfold orBreak at hrun
    rw [Prog.onFail_run] at hrun
    simp [io, hnil] at hrun
  | false =>
    rw [orBreak_run hnil] at hrun
    split at hrun
    . cases hrun
    . cases hrun
      exact discarded_abort _
    . cases hrun
    . cases hrun

end Session

namespace Rows

/--
The rows `r'` differ from `r` only in what fetching a batch changes.
-/
def Like (r r' : Rows) : Prop :=
  ∃ bufferedRows noMoreRows, r' = { r with bufferedRows, noMoreRows }

theorem Like.refl (r : Rows) : r.Like r := ⟨r.bufferedRows, r.noMoreRows, rfl⟩

theorem Like.setBuffer {r r' : Rows} (h : r.Like r') (buf : List (List Value))
    : r.Like (r'.setBuffer buf) := by
  obtain ⟨_, noMoreRows, rfl⟩ := h
  exact ⟨buf, noMoreRows, rfl⟩

end Rows

namespace Cursor

def Broken (r : Rows) (e : Err) (c : Cursor σ) : Prop := r.Like c.rows ∧ c.session.Settled e

theorem triple_orBreak {r : Rows} (m : Prog Err (Tr σ) α)
    : Triple True (fun c => r.Like c.rows) (onSession (Session.orBreak m)) (fun _ c => r.Like c.rows)
        (Broken r) := by
  intro c hc
  rw [onSession_run]
  cases hrun : Session.orBreak m c.session with
  | ok a s => exact hc
  | fail e s => exact ⟨hc, .inl ((Session.discarded_orBreak m).of_run hrun)⟩
  | panic | stuck => trivial

theorem triple_onTr {r : Rows} {E : Err → Tr σ → Prop} {m : Prog Err (Tr σ) α} (h : FailsWith E m)
    : Triple True (fun c => r.Like c.rows) (onTr m) (fun _ c => r.Like c.rows)
        (fun e c => r.Like c.rows ∧ E e c.session.tr) := by
  intro c hc
  unfold onTr
  rw [onSession_run]
  unfold Session.io
  split
  . trivial
  . cases hrun : m c.session.tr with
    | ok a t => exact hc
    | fail e t => exact ⟨hc, h.of_run hrun⟩
    | panic | stuck => trivial

theorem triple_spliceLob {ρ : Type} {P : ρ → Prop} {E : Err → ρ → Prop}
    (rows : List (List Value)) (p : PendingLob) (v : Value)
    : Triple True P (Tr.spliceLob rows p v) (fun rows' c => rows'.length = rows.length ∧ P c) E := by
  apply Triple.bind (Triple.index (.inr True.intro) (Q := fun _ c => P c) (fun _ _ _ hc => hc))
  intro row
  apply Triple.bind (Triple.setIndex (.inr True.intro) (Q := fun _ c => P c) (fun _ hc => hc))
  intro row
  exact Triple.setIndex (.inr True.intro) (fun _ hc => ⟨List.length_set, hc⟩)

end Cursor

section

variable [GoStd] [Peer σ]

namespace Tr

theorem aligned_readRows (m : Option ResultMeta) (columnCount : Int) (fetch : Nat) (acc : Batch)
    : FailsWith AlignedErr (readRows m columnCount fetch acc : Prog Err (Tr σ) _) := by
  induction fetch generalizing acc with
  | zero => exact FailsWith.pure _
  | succ fetch ih =>
    apply FailsWith.bind
    . exact aligned_of_plain (FailsWith.of_progress (fun _ => progress_wrapErr _ _ progress_readByte))
    . intro rowFlag
      apply FailsWith.ite
      . intro _
        apply FailsWith.bind (aligned_of_plain (plain_readColumns _ _ _ _ _))
        intro r
        exact ih _
      . intro _
        apply FailsWith.ite (fun _ => FailsWith.pure _)
        intro _
        apply FailsWith.ite (fun _ => aligned_readH2Error)
        intro _
        exact aligned_of_plain (FailsWith.throw (fun _ => Err.plain_errorf _ _))

end Tr

namespace Cursor

omit [GoStd] in
theorem triple_resolveLobs {r : Rows} (pending : List PendingLob)
    : Triple True (fun c : Cursor σ => r.Like c.rows) (resolveLobs pending)
        (fun _ c => r.Like c.rows) (Broken r) := by
  induction pending with
  | nil => exact Triple.pure (fun _ hc => hc)
  | cons p pending ih =>
    apply Triple.bind (triple_orBreak _)
    intro v
    apply Triple.get_bind
    intro c hc
    apply Triple.bind (triple_spliceLob _ p v)
    intro buf
    apply Triple.bind (R := fun _ c => r.Like c.rows)
    . apply Triple.modify
      rintro _ ⟨-, rfl⟩
      exact hc.setBuffer buf
    . intro _
      exact ih

theorem fetchRowsLoop_of_trNil {c : Cursor σ} (hnil : c.session.trNil = true) {fetch : Nat}
    (h : 0 < fetch) (lc : LobCollector)
    : fetchRowsLoop fetch lc c = .panic .nilDeref := by
  cases fetch with
  | zero => exact absurd h (Nat.lt_irrefl 0)
  | succ fetch =>
    simp [fetchRowsLoop, onSession_run, Session.orBreak, Prog.onFail_run, Session.io, hnil]

theorem triple_fetchRowsLoop {r : Rows} (fetch : Nat) (lc : LobCollector)
    : Triple True (fun c : Cursor σ => r.Like c.rows) (fetchRowsLoop fetch lc)
        (fun _ c => r.Like c.rows) (Broken r) := by
  intro c hc
  cases hnil : c.session.trNil with
  | true =>
    cases fetch with
    | zero => exact hc
    | succ fetch =>
      rw [fetchRowsLoop_of_trNil hnil (Nat.succ_pos fetch)]
      trivial
  | false =>
    have hfollows := fetchRowsLoop_follows fetch lc hnil
    cases hrun : Tr.readRows c.rows.columns c.rows.columnCount fetch (c.rows.bufferedRows, lc)
        c.session.tr with
    | ok res t =>
      rw [hrun] at hfollows
      rw [hfollows]
      obtain ⟨_, _, hr⟩ := hc.setBuffer res.1.1
      exact ⟨_, _, by unfold afterBatch; rw [hr]⟩
    | fail e t =>
      rw [hrun] at hfollows
      obtain ⟨buf, hfail⟩ := hfollows
      rw [hfail]
      exact ⟨hc.setBuffer buf, Session.settled_afterErr ((Tr.aligned_readRows _ _ _ _).of_run hrun)⟩
    | panic | stuck =>
      rw [hrun] at hfollows
      rw [hfollows]
      trivial

theorem triple_fetchRows {r : Rows} (fetch : Int)
    : Triple True (fun c : Cursor σ => r.Like c.rows) (fetchRows fetch) (fun _ c => r.Like c.rows)
        (Broken r) :=
  Triple.bind (triple_fetchRowsLoop _ _) (fun _ => triple_resolveLobs _)

omit [GoStd] in
theorem aligned_requestRows (resultID fetch : Int)
    : FailsWith Tr.AlignedErr (requestRows resultID fetch : Prog Err (Tr σ) _) := by
  have hwrite : ∀ x what, FailsPlain
      (inFunc "Rows.fetchMoreRows" what (Tr.writeInt32 x) : Prog Err (Tr σ) _) :=
    fun x what => plain_wrapErr _ _ (Tr.plain_write _)
  have hsend : FailsPlain (sendFetchRows resultID fetch : Prog Err (Tr σ) _) := by
    apply FailsWith.bind (hwrite _ _)
    intro _
    apply FailsWith.bind (hwrite _ _)
    intro _
    apply FailsWith.bind (hwrite _ _)
    intro _
    exact plain_wrapErr _ _ Tr.plain_flush
  apply FailsWith.bind (Tr.aligned_of_plain hsend)
  intro _
  exact Tr.aligned_mapErr (asH2_wrapError _) Tr.aligned_readStatus

theorem triple_fetchMoreRows {r : Rows} (fetch : Int)
    : Triple True (fun c : Cursor σ => r.Like c.rows) (fetchMoreRows fetch)
        (fun _ c => r.Like c.rows) (Broken r) := by
  apply Triple.get_bind
  intro c hc
  apply Triple.ite
  . intro hnil
    apply Triple.throw
    rintro _ rfl
    exact ⟨hc, .inl (Session.discarded_of_trNil hnil)⟩
  . intro hnil
    apply Triple.onFail
      (F := fun e c => r.Like c.rows ∧ (c.session.Settled e ∨ Tr.AlignedErr e c.session.tr))
    . apply Triple.bind (R := fun _ c => r.Like c.rows)
      . apply (triple_onTr (aligned_requestRows _ _)).weaken
        . rintro _ rfl
          exact hc
        . exact fun _ _ h => h
        . exact fun _ _ h => ⟨h.1, .inr h.2⟩
      . intro _
        apply (triple_fetchRows fetch).weaken (fun _ h => h) (fun _ _ h => h)
        intro e c h
        exact ⟨h.1, .inl h.2⟩
    . rintro e c ⟨hlike, hsettled⟩
      rw [Session.markUnlessAlignedH2Error_eq]
      refine ⟨hlike, ?_⟩
      rcases hsettled with h | h
      . exact h.afterErr
      . exact Session.settled_afterErr h

theorem triple_fetchNextBatch {r : Rows} (fetch : Int)
    : Triple True (fun c : Cursor σ => r.Like c.rows) (fetchNextBatch fetch)
        (fun _ c => r.Like c.rows)
        (fun e c => ∃ r', r.Like r' ∧ c.rows = { r' with err := some e } ∧ c.session.Settled e) := by
  apply Triple.onFail (triple_fetchMoreRows fetch)
  rintro e c ⟨hlike, hsettled⟩
  exact ⟨c.rows, hlike, rfl, hsettled⟩

theorem triple_prefetchInitialRows {r : Rows}
    : Triple True (fun c : Cursor σ => r.Like c.rows) prefetchInitialRows (fun _ c => r.Like c.rows)
        (Broken r) := by
  apply Triple.get_bind
  intro c hc
  apply Triple.ite
  . intro _
    apply Triple.mapErr
    apply (triple_fetchRows _).weaken
    . rintro _ rfl
      exact hc
    . exact fun _ _ h => h
    . exact fun e c h => ⟨h.1, h.2.congr rfl⟩
  . intro _
    apply Triple.pure
    rintro _ rfl
    exact hc

end Cursor

namespace Session

theorem settled_newRows (resultID columnCount fetchSize : Int) (ownsCommand : Bool) (commandID : Int)
    : FailsWith (fun e s => s.Settled e)
        (newRows resultID columnCount fetchSize ownsCommand commandID : Prog Err (Session σ) _) := by
  refine ⟨fun {s s' e} hrun => ?_⟩
  unfold newRows at hrun
  cases hnil : s.trNil with
  | true =>
    rw [ifOpen_of_trNil hnil] at hrun
    cases hrun
    exact .inl (discarded_of_trNil hnil)
  | false =>
    rw [ifOpen_of_open hnil] at hrun
    rcases Prog.bind_eq_fail hrun with hfail | ⟨rowCount, s1, -, hrun⟩
    . exact .inl ((discarded_orBreak _).of_run hfail)
    rcases Prog.bind_eq_fail hrun with hfail | ⟨columns, s2, -, hrun⟩
    . exact .inl ((discarded_orBreak _).of_run hfail)
    obtain ⟨r, hfail⟩ := Cursor.startRows_of_fail hrun
    exact (Cursor.triple_prefetchInitialRows.of_fail (Rows.Like.refl _) hfail).2

end Session

namespace Cursor

inductive Step : Cursor σ → Cursor σ → Prop where
  | next {dest row : List Value} {c c' : Cursor σ} (h : next dest c = .ok row c') : Step c c'
  | nextErr {dest : List Value} {e : Err} {c c' : Cursor σ} (h : next dest c = .fail e c') : Step c c'
  | close {c c' : Cursor σ} (h : close c = .ok () c') : Step c c'
  | closeErr {e : Err} {c c' : Cursor σ} (h : close c = .fail e c') : Step c c'

abbrev Steps : Cursor σ → Cursor σ → Prop := Relation.ReflTransGen Step

def Reachable (c : Cursor σ) : Prop :=
  ∃ resultID columnCount fetchSize ownsCommand commandID s r s',
    Session.newRows resultID columnCount fetchSize ownsCommand commandID s = .ok r s'
      ∧ Steps { rows := r, session := s' } c

/--
The error that sticks to the rows was settled when it was returned.
-/
def Inv (c : Cursor σ) : Prop :=
  c.rows.closed = false → ∀ e, c.rows.err = some e → c.session.Settled e

omit [GoStd] [Peer σ] in
theorem inv_of_err_none {c : Cursor σ} (h : c.rows.err = none) : c.Inv := by
  intro _ e he
  rw [h] at he
  cases he

theorem err_of_next_ok {dest row : List Value} {c c' : Cursor σ} (h : next dest c = .ok row c')
    : c'.rows.err = none := by
  obtain ⟨-, herr, -, htake | ⟨fetch, c1, -, hfetch, htake⟩⟩ := takeRow_of_next_ok h
  . obtain ⟨_, _, -, -, rfl⟩ := advance_of_takeRow_ok htake
    exact herr
  . obtain ⟨_, _, hrows⟩ := (triple_fetchNextBatch fetch).of_ok (Rows.Like.refl _) hfetch
    obtain ⟨_, _, -, -, rfl⟩ := advance_of_takeRow_ok htake
    show c1.rows.err = none
    rw [hrows]
    exact herr

theorem inv_step {c c' : Cursor σ} (h : Step c c') (hc : c.Inv) : c'.Inv := by
  cases h with
  | next h => exact inv_of_err_none (err_of_next_ok h)
  | nextErr h =>
    cases nextErr_of_fail h with
    | closed | sticky | mismatch | done => exact hc
    | failed hopen herr h =>
      obtain ⟨r', hlike, hrows, hsettled⟩ := (triple_fetchNextBatch _).of_fail (Rows.Like.refl _) h
      intro _ e he
      rw [hrows] at he
      cases he
      exact hsettled
    | empty hopen herr _ _ h _ =>
      obtain ⟨_, _, hrows⟩ := (triple_fetchNextBatch _).of_ok (Rows.Like.refl _) h
      exact inv_of_err_none (by rw [hrows]; exact herr)
  | close h =>
    intro hopen
    rw [triple_close.of_ok True.intro h] at hopen
    cases hopen
  | closeErr h =>
    intro hopen
    rw [triple_close.of_fail True.intro h] at hopen
    cases hopen

theorem inv_of_reachable {c : Cursor σ} (h : c.Reachable) : c.Inv := by
  obtain ⟨_, _, _, _, _, s, r, s', hnew, hsteps⟩ := h
  induction hsteps with
  | refl =>
    obtain ⟨-, _, _, _, _, -, -, hprefetch⟩ := Session.prefetch_of_newRows_ok hnew
    obtain ⟨_, _, hrows⟩ := triple_prefetchInitialRows.of_ok (Rows.Like.refl _) hprefetch
    exact inv_of_err_none (by rw [show r = _ from hrows]; rfl)
  | tail _ hstep ih => exact inv_step hstep ih

/--
Rows without any left: `next` returns `io.EOF` and does nothing.
-/
def Exhausted (c : Cursor σ) : Prop :=
  c.rows.closed = false ∧ c.rows.err = none ∧ c.rows.bufferedRows = [] ∧ nextFetch c.rows = none

theorem Exhausted.next {c : Cursor σ} (h : c.Exhausted) (dest : List Value)
    : ∃ e, next dest c = .fail e c := by
  obtain ⟨hopen, herr, hbuf, hfetch⟩ := h
  by_cases hdest : (dest.length : Int) = c.rows.columnCount
  . exact ⟨_, next_of_done hopen herr hdest hbuf hfetch⟩
  . exact next_of_mismatch hopen herr hdest

theorem steps_of_frozen {c c' : Cursor σ} (hc : ∀ dest, ∃ e, Cursor.next dest c = .fail e c)
    (h : Steps c c')
    : c' = c ∨ c'.rows.closed = true := by
  induction h with
  | refl => exact .inl rfl
  | tail _ hstep ih =>
    cases hstep with
    | close h => exact .inr (triple_close.of_ok True.intro h)
    | closeErr h => exact .inr (triple_close.of_fail True.intro h)
    | @next dest row b d h =>
      rcases ih with rfl | hclosed
      . obtain ⟨e, he⟩ := hc dest
        rw [he] at h
        cases h
      . rw [next_of_closed hclosed] at h
        cases h
    | @nextErr dest e b d h =>
      rcases ih with rfl | hclosed
      . obtain ⟨e, he⟩ := hc dest
        rw [he] at h
        cases h
        exact .inl rfl
      . rw [next_of_closed hclosed] at h
        cases h
        exact .inr hclosed

theorem triple_readRows_some (m : Option ResultMeta) (columnCount : Int) (fetch : Nat) (acc : Batch)
    (h : acc.1 ≠ [] ∨ 0 < fetch)
    : Triple True (fun _ => True) (Tr.readRows m columnCount fetch acc : Prog Err (Tr σ) _)
        (fun r _ => r.1.1 ≠ [] ∨ r.2 = true) (fun _ _ => True) := by
  induction fetch generalizing acc with
  | zero =>
    apply Triple.pure
    intro _ _
    exact .inl (h.resolve_right (Nat.lt_irrefl 0))
  | succ fetch ih =>
    apply Triple.bind (R := fun _ _ => True) Triple.trivial
    intro rowFlag
    apply Triple.ite
    . intro _
      apply Triple.bind (R := fun _ _ => True) Triple.trivial
      intro r
      exact ih _ (.inl (by simp))
    . intro _
      apply Triple.ite
      . intro _
        exact Triple.pure (fun _ _ => .inr rfl)
      . intro _
        apply Triple.ite
        . intro _
          exact Triple.bind Triple.trivial (fun _ => Triple.throw (fun _ _ => True.intro))
        . intro _
          exact Triple.throw (fun _ _ => True.intro)

theorem triple_fetchRowsLoop_some {fetch : Nat} (h : 0 < fetch) (lc : LobCollector)
    : Triple True (fun _ : Cursor σ => True) (fetchRowsLoop fetch lc)
        (fun _ c => c.rows.bufferedRows ≠ [] ∨ c.rows.noMoreRows = true) (fun _ _ => True) := by
  intro c _
  cases hnil : c.session.trNil with
  | true =>
    rw [fetchRowsLoop_of_trNil hnil h]
    trivial
  | false =>
    have hfollows := fetchRowsLoop_follows fetch lc hnil
    cases hrun : Tr.readRows c.rows.columns c.rows.columnCount fetch (c.rows.bufferedRows, lc)
        c.session.tr with
    | ok res t =>
      rw [hrun] at hfollows
      rw [hfollows]
      rcases (triple_readRows_some _ _ _ _ (.inr h)).of_ok True.intro hrun with hsome | hend
      . exact .inl hsome
      . exact .inr (by simp [afterBatch, hend])
    | fail e t =>
      rw [hrun] at hfollows
      obtain ⟨_, hfail⟩ := hfollows
      rw [hfail]
      trivial
    | panic | stuck =>
      rw [hrun] at hfollows
      rw [hfollows]
      trivial

omit [GoStd] in
theorem triple_resolveLobs_some (pending : List PendingLob)
    : Triple True (fun c : Cursor σ => c.rows.bufferedRows ≠ [] ∨ c.rows.noMoreRows = true)
        (resolveLobs pending) (fun _ c => c.rows.bufferedRows ≠ [] ∨ c.rows.noMoreRows = true)
        (fun _ _ => True) := by
  induction pending with
  | nil => exact Triple.pure (fun _ hc => hc)
  | cons p pending ih =>
    apply Triple.bind (R := fun _ c => c.rows.bufferedRows ≠ [] ∨ c.rows.noMoreRows = true)
    . exact Triple.zoom (P := fun _ => True) Triple.trivial (fun _ _ => True.intro)
        (fun _ _ _ hc _ => hc) (fun _ _ _ _ _ => True.intro)
    . intro v
      apply Triple.get_bind
      intro c hc
      apply Triple.bind (triple_spliceLob _ p v)
      intro buf
      apply Triple.bind (R := fun _ c => c.rows.bufferedRows ≠ [] ∨ c.rows.noMoreRows = true)
      . apply Triple.modify
        rintro _ ⟨hlen, rfl⟩
        refine hc.imp_left ?_
        intro hne hnil
        exact hne (List.length_eq_zero_iff.mp (by rw [← hlen, show buf = [] from hnil]; rfl))
      . intro _
        exact ih

theorem triple_fetchNextBatch_some {fetch : Int} (h : 0 < fetch)
    : Triple True (fun _ : Cursor σ => True) (fetchNextBatch fetch)
        (fun _ c => c.rows.bufferedRows ≠ [] ∨ c.rows.noMoreRows = true) (fun _ _ => True) := by
  apply Triple.onFail (F := fun _ _ => True)
  . apply Triple.get_bind
    intro c _
    apply Triple.ite (fun _ => Triple.throw (fun _ _ => True.intro))
    intro _
    apply Triple.onFail (F := fun _ _ => True)
    . apply Triple.bind (R := fun _ _ => True) Triple.trivial
      intro _
      exact Triple.bind (triple_fetchRowsLoop_some (by omega) _) (fun _ => triple_resolveLobs_some _)
    . intro _
      exact Triple.trivial
  . intro _
    exact Triple.trivial

omit [GoStd] [Peer σ] in
theorem nextFetch_pos {r : Rows} {fetch : Int} (hsize : 0 < r.fetchSize)
    (h : nextFetch r = some fetch)
    : 0 < fetch := by
  unfold nextFetch at h
  grind

theorem exhausted_of_empty {c c' : Cursor σ} {fetch : Int} (hsize : 0 < c.rows.fetchSize)
    (hopen : c.rows.closed = false) (herr : c.rows.err = none) (hfetch : nextFetch c.rows = some fetch)
    (h : fetchNextBatch fetch c = .ok () c') (hempty : c'.rows.bufferedRows = [])
    : c'.Exhausted := by
  obtain ⟨_, _, hrows⟩ := (triple_fetchNextBatch fetch).of_ok (Rows.Like.refl _) h
  have hmore := (triple_fetchNextBatch_some (nextFetch_pos hsize hfetch)).of_ok True.intro h
  have hend := hmore.resolve_left (fun hne => hne hempty)
  refine ⟨by rw [hrows]; exact hopen, by rw [hrows]; exact herr, hempty, ?_⟩
  simp [nextFetch, hend]

def Ended (c : Cursor σ) : Prop :=
  c.rows.closed = true ∨ (c.rows.closed = false ∧ c.rows.err = some .eof) ∨ c.Exhausted

theorem ended_of_eof {c c' : Cursor σ} {dest : List Value}
    (hdest : (dest.length : Int) = c.rows.columnCount) (h : next dest c = .fail .eof c')
    (hsize : 0 < c.rows.fetchSize)
    : c'.Ended := by
  generalize heof : Err.eof = e at h
  cases nextErr_of_fail h with
  | closed hclosed => exact .inl hclosed
  | sticky hopen herr => exact .inr (.inl ⟨hopen, by rw [herr, heof]⟩)
  | mismatch _ hmismatch => exact absurd hdest hmismatch
  | done hopen herr _ hbuf hfetch => exact .inr (.inr ⟨hopen, herr, hbuf, hfetch⟩)
  | failed hopen _ h =>
    obtain ⟨_, ⟨_, _, rfl⟩, hrows, -⟩ := (triple_fetchNextBatch _).of_fail (Rows.Like.refl _) h
    refine .inr (.inl ?_)
    rw [hrows]
    exact ⟨hopen, by rw [heof]⟩
  | empty hopen herr _ hfetch h hempty =>
    exact .inr (.inr (exhausted_of_empty hsize hopen herr hfetch h hempty))

theorem next_of_ended {c c' : Cursor σ} (hc : c.Ended) (hsteps : Steps c c') {dest : List Value}
    (hdest : (dest.length : Int) = c'.rows.columnCount)
    : next dest c' = .fail .eof c' := by
  have hfrozen : ∀ dest, ∃ e, next dest c = .fail e c := by
    intro dest
    rcases hc with hclosed | ⟨hopen, herr⟩ | hexhausted
    . exact ⟨_, next_of_closed hclosed⟩
    . exact ⟨_, next_of_err hopen herr⟩
    . exact hexhausted.next dest
  rcases steps_of_frozen hfrozen hsteps with rfl | hclosed
  . rcases hc with hclosed | ⟨hopen, herr⟩ | ⟨hopen, herr, hbuf, hfetch⟩
    . exact next_of_closed hclosed
    . exact next_of_err hopen herr
    . exact next_of_done hopen herr hdest hbuf hfetch
  . exact next_of_closed hclosed

theorem rows_discardRule
    : (∀ (resultID columnCount fetchSize : Int) (ownsCommand : Bool) (commandID : Int)
        (s s' : Session σ) (e : Err),
        Session.newRows resultID columnCount fetchSize ownsCommand commandID s = .fail e s' →
        s'.Settled e) ∧
      (∀ (c c' : Cursor σ) (dest : List Value) (e : Err), c.Reachable →
        (dest.length : Int) = c.rows.columnCount → next dest c = .fail e c' → e ≠ .eof →
        c'.session.Settled e ∧
        ∀ c'', Steps c' c'' → ∀ dest', if c''.rows.closed then next dest' c'' = .fail .eof c''
          else c'' = c' ∧ next dest' c'' = .fail e c'') ∧
      (∀ (c c' : Cursor σ) (dest : List Value), c.Reachable →
        (dest.length : Int) = c.rows.columnCount → next dest c = .fail .eof c' →
        0 < c.rows.fetchSize →
        ∀ c'', Steps c' c'' → ∀ dest' : List Value, (dest'.length : Int) = c''.rows.columnCount →
          next dest' c'' = .fail .eof c'') ∧
      (∀ c : Cursor σ, c.session.dead = true → ∃ c', close c = .ok () c' ∧ c'.session = c.session) := by
  refine ⟨?_, ?_, ?_, ?_⟩
  . intro resultID columnCount fetchSize ownsCommand commandID s s' e h
    exact (Session.settled_newRows _ _ _ _ _).of_run h
  . intro c c' dest e hreach hdest h heof
    have hsticky : c'.rows.closed = false ∧ c'.rows.err = some e ∧ c'.session.Settled e := by
      cases nextErr_of_fail h with
      | closed | done | empty => exact absurd rfl heof
      | sticky hopen herr => exact ⟨hopen, herr, inv_of_reachable hreach hopen e herr⟩
      | mismatch _ hmismatch => exact absurd hdest hmismatch
      | failed hopen _ h =>
        obtain ⟨_, ⟨_, _, rfl⟩, hrows, hsettled⟩ :=
          (triple_fetchNextBatch _).of_fail (Rows.Like.refl _) h
        rw [hrows]
        exact ⟨hopen, rfl, hsettled⟩
    obtain ⟨hopen, herr, hsettled⟩ := hsticky
    refine ⟨hsettled, ?_⟩
    intro c'' hsteps dest'
    rcases steps_of_frozen (fun dest => ⟨e, next_of_err hopen herr⟩) hsteps with rfl | hclosed
    . rw [if_neg (by simp [hopen])]
      exact ⟨rfl, next_of_err hopen herr⟩
    . rw [if_pos hclosed]
      exact next_of_closed hclosed
  . intro c c' dest hreach hdest h hsize c'' hsteps dest' hdest'
    exact next_of_ended (ended_of_eof hdest h hsize) hsteps hdest'
  . intro c hdead
    exact close_of_dead hdead

end Cursor

end

section

open StandIn

/--
A lazy result with an INTEGER column and the value 7 in its first row. The connection breaks when more
rows are fetched.
-/
def brokenResult : Session Silent :=
  Session.ofTr (Tr.ofBytes (List.replicate 8 255 ++ List.replicate 16 255 ++ [0, 0, 0, 4] ++ [0]
    ++ [0, 0, 0, 0] ++ [1, 0, 0, 0, 4, 0, 0, 0, 7]))

theorem brokenResult_run
    : ∃ (r : Rows) (s : Session Silent) (c1 c2 c3 : Cursor Silent) (e : Err),
        Session.newRows 1 1 1 false 0 brokenResult = .ok r s ∧
        Cursor.next [.nil] { rows := r, session := s } = .ok [.int64 7] c1 ∧
        c1.rows.columnCount = 1 ∧
        (c1.rows.closed = false ∧ c1.session.trNil = false) ∧
        Cursor.next [.nil] c1 = .fail e c2 ∧ Cursor.close c2 = .ok () c3 ∧
        Cursor.next [.nil] c3 = .fail .eof c3 ∧ e ≠ .eof := by
  have hrun : (Session.newRows 1 1 1 false 0 brokenResult).returns (fun r s =>
      (Cursor.next [.nil] { rows := r, session := s }).returns (fun row c1 =>
        decide (row = [.int64 7] ∧ c1.rows.columnCount = 1 ∧ c1.rows.closed = false ∧ c1.session.trNil = false) &&
        (Cursor.next [.nil] c1).fails (fun e c2 => decide (e ≠ .eof) &&
          (Cursor.close c2).returns (fun _ c3 => c3.rows.closed)))) = true := by
    decide +kernel
  obtain ⟨r, s, hnew, hrun⟩ := Out.exists_of_returns hrun
  obtain ⟨row, c1, hrow, hrun⟩ := Out.exists_of_returns hrun
  obtain ⟨hopen, hrun⟩ := Bool.and_eq_true_iff.mp hrun
  obtain ⟨e, c2, hfail, hrun⟩ := Out.exists_of_fails hrun
  obtain ⟨heof, hrun⟩ := Bool.and_eq_true_iff.mp hrun
  obtain ⟨_, c3, hclose, hclosed⟩ := Out.exists_of_returns hrun
  obtain ⟨rfl, hcount, hopen⟩ := of_decide_eq_true hopen
  exact ⟨r, s, c1, c2, c3, e, hnew, hrow, hcount, hopen, hfail, hclose,
    Cursor.next_of_closed hclosed, of_decide_eq_true heof⟩

theorem Cursor.rows_discardRule_broken
    : ∃ (c c' : Cursor Silent) (e : Err),
        c.Reachable ∧ Cursor.next [.nil] c = .fail e c' ∧ e ≠ .eof ∧ c'.session.Settled e := by
  obtain ⟨r, s, c, c', _, e, hnew, hrow, hdest, -, hfail, -, -, heof⟩ := brokenResult_run
  have hreach : c.Reachable :=
    ⟨1, 1, 1, false, 0, brokenResult, r, s, hnew, Relation.ReflTransGen.single (.next hrow)⟩
  exact ⟨c, c', e, hreach, hfail, heof,
    (Cursor.rows_discardRule.2.1 c c' [.nil] e hreach hdest.symm hfail heof).1⟩

/--
After `close` the rows report their end and not the error that broke them.
-/
theorem Cursor.next_after_close
    : ∃ (c1 c2 c3 : Cursor Silent) (e : Err),
        c1.Reachable ∧ Cursor.next [.nil] c1 = .fail e c2 ∧ e ≠ .eof ∧ Cursor.close c2 = .ok () c3 ∧
        Cursor.next [.nil] c3 = .fail .eof c3 := by
  obtain ⟨r, s, c1, c2, c3, e, hnew, hrow, -, -, hfail, hclose, hend, heof⟩ := brokenResult_run
  exact ⟨c1, c2, c3, e,
    ⟨1, 1, 1, false, 0, brokenResult, r, s, hnew, Relation.ReflTransGen.single (.next hrow)⟩,
    hfail, heof, hclose, hend⟩

end

end H2Go
