import H2Go.Rows.Deferred
import H2Go.Session.Exchange

/-!
This module contains what reading a reply does to a property of the session that depends on the
requests it has sent: the only request in the middle of a reply is `LOB_READ`.
-/

namespace H2Go

variable {σ : Type} {α : Type}

namespace Tr

/--
The program takes bytes from the input and does nothing else.
-/
def OnlyReads (m : Prog Err (Tr σ) α) : Prop :=
  ∀ t, (m t).Holds True (fun _ t' => ∃ used rest, t' = Input.move used rest t)
    (fun _ t' => ∃ used rest, t' = Input.move used rest t)

theorem onlyReads (m : Prog Err (Tr σ) α) [LawfulReader m] : OnlyReads m := by
  intro t
  cases hrun : m t with
  | ok a t' =>
    obtain ⟨used, rest, -, rfl, -⟩ := LawfulReader.ok_run hrun
    exact ⟨used, rest, rfl⟩
  | fail e t' =>
    obtain ⟨used, rest, -, rfl⟩ := LawfulReader.fail_run hrun
    exact ⟨used, rest, rfl⟩
  | panic | stuck => trivial

theorem onlyReads_readGeneratedKeyBatch [GoStd] [Peer σ] (m : ResultMeta) (rowCount : Int)
    : OnlyReads (readGeneratedKeyBatch m rowCount : Prog Err (Tr σ) _) := by
  unfold readGeneratedKeyBatch
  split
  . exact onlyReads _
  . split
    -- the number of rounds depends on the input, the reader for each number is lawful
    . exact fun t => onlyReads (readGeneratedKeyRows (fun _ => Prog.stuck) m (t.inp.length + 1) _) t
    . exact onlyReads _

end Tr

namespace Session

/--
A property that depends neither on the time nor on whether the session has ended.
-/
structure Durable (P : Session σ → Prop) : Prop where
  abort : ∀ {s : Session σ}, P s → P s.abort
  setClock : ∀ {s : Session σ} (n : Nat), P s → P { s with clock := n }

namespace Durable

variable {P E : Session σ → Prop} {Q : α → Session σ → Prop}

theorem markStreamBroken (hP : Durable P) : Keeps P Session.markStreamBroken :=
  Keeps.modify (fun _ => hP.abort)

theorem markUnlessAlignedH2Error (hP : Durable P) (e : Err)
    : Keeps P (Session.markUnlessAlignedH2Error e) :=
  Keeps.ite hP.markStreamBroken (Keeps.pure _)

theorem triple_finalizeContext (hE : Durable E) (ctx : Ctx) (e : Err)
    : Triple True E (Session.finalizeContext ctx e : Prog Err (Session σ) α) Q (fun _ => E) := by
  have hbreak : ∀ err, Triple True E (do
      Session.markStreamBroken
      Prog.throw err : Prog Err (Session σ) α) Q (fun _ => E) := fun err =>
    Triple.bind hE.markStreamBroken (fun _ => Triple.throw (fun _ hs => hs))
  apply Triple.bind Keeps.get
  intro s
  split
  . exact Triple.ite (fun _ => Triple.throw (fun _ hs => hs)) (fun _ => hbreak _)
  . exact Triple.ite (fun _ => hbreak _) (fun _ => Triple.throw (fun _ hs => hs))

theorem triple_withContext (hQ : ∀ {a} {s : Session σ} (n : Nat), Q a s → Q a { s with clock := n })
    (hE : Durable E) (ctx : Ctx) {m : Prog Err (Session σ) α} (hm : Triple True P m Q (fun _ => E))
    : Triple True P (Session.withContext ctx m) Q (fun _ => E) := by
  apply Triple.bind (Triple.attempt hm)
  intro r
  cases r with
  | ok a =>
    apply Triple.bind (R := fun _ => Q a)
    . exact Triple.modify (fun _ hs => hQ _ hs)
    . exact fun _ => Triple.pure (fun _ hs => hs)
  | error e =>
    apply Triple.bind (R := fun _ => E)
    . exact Triple.modify (fun _ hs => hE.setClock _ hs)
    . exact fun _ => hE.triple_finalizeContext ctx e

theorem withContext (hP : Durable P) (ctx : Ctx) {m : Prog Err (Session σ) α} (hm : Keeps P m)
    : Keeps P (Session.withContext ctx m) :=
  triple_withContext hP.setClock hP ctx hm

end Durable

/--
A property that reading a reply does not change.
-/
structure Calm [Peer σ] (P : Session σ → Prop) : Prop extends Durable P where
  move : ∀ {s : Session σ} (used rest : List UInt8), P s → P (s.setTr (Input.move used rest s.tr))
  lobRead : ∀ (s : Session σ) (p : PendingLob) (offset : Int),
    Keeps (fun t => P (s.setTr t)) (Tr.sendLobRead p offset)

namespace Calm

variable [Peer σ] {P : Session σ → Prop}

omit [Peer σ] in
theorem keeps_io {m : Prog Err (Tr σ) α} (hm : ∀ s : Session σ, Keeps (fun t => P (s.setTr t)) m)
    : Keeps P (Session.io m) := by
  intro s hs
  cases hnil : s.trNil with
  | true => simp [Session.io, hnil]
  | false =>
    have hrun := hm s s.tr (by exact hs)
    rw [io_run hnil]
    cases hres : m s.tr with
    | ok | fail =>
      rw [hres] at hrun
      exact hrun
    | panic | stuck => trivial

variable (hP : Calm P)

include hP

theorem keeps_reader {m : Prog Err (Tr σ) α} (hm : Tr.OnlyReads m) (s : Session σ)
    : Keeps (fun t => P (s.setTr t)) m := by
  intro t ht
  refine (hm t).imp ?_ ?_
  . rintro _ _ ⟨used, rest, rfl⟩
    exact hP.move (s := s.setTr t) used rest ht
  . rintro _ _ ⟨used, rest, rfl⟩
    exact hP.move (s := s.setTr t) used rest ht

theorem keeps_fetchLobLoop (s : Session σ) (p : PendingLob) (fuel : Nat) (buf : List UInt8)
    (offset : Int)
    : Keeps (fun t => P (s.setTr t)) (Tr.fetchLobLoop p fuel buf offset) := by
  induction fuel generalizing buf offset with
  | zero => exact fun _ _ => True.intro
  | succ fuel ih =>
    apply Keeps.bind (hP.lobRead s p offset)
    intro _
    apply Keeps.bind (hP.keeps_reader (Tr.onlyReads _) s)
    intro chunk
    exact Keeps.ite (Keeps.pure _) (ih _ _)

theorem keeps_fetchLob (s : Session σ) (p : PendingLob)
    : Keeps (fun t => P (s.setTr t)) (Tr.fetchLob p) := by
  apply Keeps.ite (Keeps.throw _)
  apply Keeps.bind (hP.keeps_reader (Tr.onlyReads _) s)
  intro _
  apply Keeps.bind Keeps.get
  intro t
  apply Keeps.bind (hP.keeps_fetchLobLoop s p _ _ _)
  intro buf
  exact Keeps.ite (Keeps.pure _) (Keeps.pure _)

theorem io (m : Prog Err (Tr σ) α) [LawfulReader m] : Keeps P (Session.io m) :=
  keeps_io (hP.keeps_reader (Tr.onlyReads m))

theorem orBreak (m : Prog Err (Tr σ) α) [LawfulReader m] : Keeps P (Session.orBreak m) :=
  Keeps.onFail (hP.io m) (fun _ => hP.markStreamBroken)

theorem orBreakUnlessAligned {m : Prog Err (Tr σ) α} (hm : Tr.OnlyReads m)
    : Keeps P (Session.orBreakUnlessAligned m) :=
  Keeps.onFail (keeps_io (hP.keeps_reader hm)) hP.markUnlessAlignedH2Error

theorem resolveLob (format : String) (args : List FmtArg) (p : PendingLob)
    : Keeps P (Session.orBreak (wrapErr format args (Tr.fetchLob p))) :=
  Keeps.onFail (keeps_io (fun s => Keeps.mapErr (hP.keeps_fetchLob s p)))
    (fun _ => hP.markStreamBroken)

variable [GoStd]

omit [GoStd] in
theorem resolveGeneratedKeyLobs (pending : List PendingLob) (rows : List (List Value))
    : Keeps P (Session.resolveGeneratedKeyLobs pending rows) := by
  induction pending generalizing rows with
  | nil => exact Keeps.pure _
  | cons p pending ih =>
    apply Keeps.bind (hP.resolveLob _ _ p)
    intro v
    apply Keeps.bind ((Cursor.triple_spliceLob rows p v).post (fun _ _ h => h.2))
    exact ih

theorem readGeneratedKeys : Keeps P (Session.readGeneratedKeys (σ := σ)) := by
  apply Quiet.ifOpen
  apply Keeps.bind (hP.orBreak _)
  intro columnCount
  apply Keeps.bind (hP.orBreak _)
  intro rowCount
  apply Keeps.ite (Keeps.throw _)
  apply Keeps.bind Keeps.get
  intro s
  apply Keeps.bind (hP.orBreak _)
  intro m
  apply Keeps.bind (hP.orBreakUnlessAligned (Tr.onlyReads_readGeneratedKeyBatch m rowCount))
  intro r
  exact Keeps.bind (hP.resolveGeneratedKeyLobs _ _) (fun _ => Keeps.pure _)

theorem readKeysForUpdate (mode : Int) : Keeps P (Session.readKeysForUpdate (σ := σ) mode) := by
  apply Keeps.ite (Keeps.pure _)
  apply Keeps.bind (Keeps.attempt hP.readGeneratedKeys)
  intro r
  split
  . exact Keeps.pure _
  . exact Keeps.ite (Keeps.pure _) (Keeps.throw _)
  . exact Keeps.ite (Keeps.pure _) (Keeps.throw _)

theorem fetchRowsLoop (fetch : Nat) (lc : LobCollector)
    : Keeps (fun c : Cursor σ => P c.session) (Cursor.fetchRowsLoop fetch lc) := by
  induction fetch generalizing lc with
  | zero => exact Keeps.pure _
  | succ fetch ih =>
    apply Keeps.bind (Quiet.onSession (hP.orBreak _))
    intro rowFlag
    apply Keeps.ite
    . apply Keeps.bind Keeps.get
      intro c
      apply Keeps.bind (Quiet.onSession (hP.orBreak _))
      intro r
      exact Keeps.bind (Quiet.modifyRows _) (fun _ => ih _)
    . apply Keeps.ite (Keeps.bind (Quiet.modifyRows _) (fun _ => Keeps.pure _))
      apply Keeps.ite (Quiet.onSession (hP.orBreakUnlessAligned (Tr.onlyReads _)))
      exact Keeps.bind (Quiet.onSession hP.markStreamBroken) (fun _ => Keeps.throw _)

omit [GoStd] in
theorem resolveLobs (pending : List PendingLob)
    : Keeps (fun c : Cursor σ => P c.session) (Cursor.resolveLobs pending) := by
  induction pending with
  | nil => exact Keeps.pure _
  | cons p pending ih =>
    apply Keeps.bind (Quiet.onSession (hP.resolveLob _ _ p))
    intro v
    apply Keeps.bind Keeps.get
    intro c
    apply Keeps.bind ((Cursor.triple_spliceLob _ p v).post (fun _ _ h => h.2))
    intro buf
    exact Keeps.bind (Quiet.modifyRows _) (fun _ => ih)

theorem fetchRows (fetch : Int)
    : Keeps (fun c : Cursor σ => P c.session) (Cursor.fetchRows fetch) :=
  Keeps.bind (hP.fetchRowsLoop _ _) (fun _ => hP.resolveLobs _)

theorem newRows (resultID columnCount fetchSize : Int) (ownsCommand : Bool) (commandID : Int)
    : Keeps P (Session.newRows resultID columnCount fetchSize ownsCommand commandID) := by
  apply Quiet.ifOpen
  apply Keeps.bind (hP.orBreak _)
  intro rowCount
  apply Keeps.bind (hP.orBreak _)
  intro columns
  apply Quiet.startRows
  apply Keeps.bind Keeps.get
  intro c
  exact Keeps.ite (Keeps.mapErr (hP.fetchRows _)) (Keeps.pure _)

end Calm

end Session

end H2Go
