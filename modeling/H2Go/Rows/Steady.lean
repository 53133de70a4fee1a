import H2Go.Rows.Discard

/-!
This module contains what the operations leave alone: a property of the session that neither its
stream, its counters nor its end can change survives every operation but an update.
-/

namespace H2Go

variable {σ : Type} {α : Type}

namespace Session

/--
A property that depends neither on the stream, nor on the time, nor on whether the session has ended.
-/
structure Quiet (P : Session σ → Prop) : Prop where
  setTr : ∀ {s : Session σ} (t : Tr σ), P s → P (s.setTr t)
  abort : ∀ {s : Session σ}, P s → P s.abort
  setClock : ∀ {s : Session σ} (n : Nat), P s → P { s with clock := n }

/--
A property that depends on none of the fields every operation changes.
-/
structure Steady (P : Session σ → Prop) : Prop extends Quiet P where
  setNextID : ∀ {s : Session σ} (n : Int), P s → P { s with nextID := n }

namespace Quiet

variable {P : Session σ → Prop} (hP : Quiet P)

include hP

theorem io (m : Prog Err (Tr σ) α) : Keeps P (Session.io m) := by
  intro s hs
  cases hnil : s.trNil with
  | true => simp [Session.io, hnil]
  | false =>
    rw [io_run hnil]
    cases m s.tr with
    | ok a t => exact hP.setTr t hs
    | fail e t => exact hP.setTr t hs
    | panic | stuck => trivial

theorem markStreamBroken : Keeps P Session.markStreamBroken := Keeps.modify (fun _ => hP.abort)

theorem markUnlessAlignedH2Error (e : Err) : Keeps P (Session.markUnlessAlignedH2Error e) :=
  Keeps.ite hP.markStreamBroken (Keeps.pure _)

theorem orBreak (m : Prog Err (Tr σ) α) : Keeps P (Session.orBreak m) :=
  Keeps.onFail (hP.io m) (fun _ => hP.markStreamBroken)

theorem orBreakUnlessAligned (m : Prog Err (Tr σ) α) : Keeps P (Session.orBreakUnlessAligned m) :=
  Keeps.onFail (hP.io m) hP.markUnlessAlignedH2Error

theorem triple_finalizeContext {Q : α → Session σ → Prop} (ctx : Ctx) (e : Err)
    : Triple True P (Session.finalizeContext ctx e : Prog Err (Session σ) α) Q (fun _ => P) := by
  have hbreak : ∀ err, Triple True P (do
      Session.markStreamBroken
      Prog.throw err : Prog Err (Session σ) α) Q (fun _ => P) := fun err =>
    Triple.bind hP.markStreamBroken (fun _ => Triple.throw (fun _ hs => hs))
  apply Triple.bind Keeps.get
  intro s
  split
  . exact Triple.ite (fun _ => Triple.throw (fun _ hs => hs)) (fun _ => hbreak _)
  . exact Triple.ite (fun _ => hbreak _) (fun _ => Triple.throw (fun _ hs => hs))

theorem finalizeContext (ctx : Ctx) (e : Err)
    : Keeps P (Session.finalizeContext ctx e : Prog Err (Session σ) α) :=
  hP.triple_finalizeContext ctx e

theorem tick : Keeps P Session.tick := Keeps.modify (fun _ => hP.setClock _)

theorem triple_withContext {P' : Session σ → Prop} {R : α → Prop} {m : Prog Err (Session σ) α}
    (ctx : Ctx) (hm : Triple True P' m (fun a s => R a ∧ P s) (fun _ => P))
    : Triple True P' (Session.withContext ctx m) (fun a s => R a ∧ P s) (fun _ => P) := by
  apply Triple.bind (Triple.attempt hm)
  intro r
  cases r with
  | ok a =>
    apply Triple.bind (R := fun _ s => R a ∧ P s)
    . exact Triple.modify (fun _ hs => ⟨hs.1, hP.setClock _ hs.2⟩)
    . exact fun _ => Triple.pure (fun _ hs => hs)
  | error e => exact Triple.bind hP.tick (fun _ => hP.triple_finalizeContext ctx e)

theorem withContext (ctx : Ctx) {m : Prog Err (Session σ) α} (hm : Keeps P m)
    : Keeps P (Session.withContext ctx m) :=
  (hP.triple_withContext (R := fun _ => True) ctx (hm.post (fun _ _ hs => ⟨trivial, hs⟩))).post
    (fun _ _ hs => hs.2)

omit hP in
theorem checkContext (ctx : Ctx) : Keeps P (Session.checkContext ctx) := by
  apply Keeps.bind Keeps.get
  intro s
  split
  . exact Keeps.throw _
  . exact Keeps.pure _

omit hP in
theorem ifOpen (e : Err) {m : Prog Err (Session σ) α} (hm : Keeps P m)
    : Keeps P (Session.ifOpen e m) :=
  Keeps.bind Keeps.get (fun _ => Keeps.ite (Keeps.throw _) hm)

variable [Peer σ]

theorem closeCommand (cmd : PreparedCommand) : Keeps P (Session.closeCommand cmd) :=
  Keeps.bind Keeps.get (fun _ => Keeps.ite (Keeps.pure _) (hP.io _))

theorem hasPendingTransaction (ctx : Ctx) : Keeps P (Session.hasPendingTransaction ctx) := by
  apply ifOpen
  apply hP.withContext
  apply Keeps.bind (checkContext ctx)
  intro _
  exact Keeps.bind (hP.io _) (fun _ => hP.io _)

theorem commitCurrentTransaction (ctx : Ctx) : Keeps P (Session.commitCurrentTransaction ctx) := by
  apply ifOpen
  apply hP.withContext
  apply Keeps.bind (checkContext ctx)
  intro _
  exact Keeps.bind (hP.io _) (fun _ => hP.io _)

theorem close : Keeps P Session.close := by
  apply Keeps.bind Keeps.get
  intro s
  apply Keeps.ite (Keeps.pure _)
  apply Keeps.bind (Keeps.attempt (hP.io _))
  intro _
  apply Keeps.bind (Keeps.attempt (hP.io _))
  intro _
  apply Keeps.bind (Keeps.attempt (hP.io _))
  intro _
  apply Keeps.bind (Keeps.attempt (hP.io _))
  intro r
  apply Keeps.bind hP.markStreamBroken
  intro _
  cases r with
  | ok _ => exact Keeps.pure _
  | error e => exact Keeps.throw e

variable [GoStd]

omit [GoStd] in
theorem resolveGeneratedKeyLobs (pending : List PendingLob) (rows : List (List Value))
    : Keeps P (Session.resolveGeneratedKeyLobs pending rows) := by
  induction pending generalizing rows with
  | nil => exact Keeps.pure _
  | cons p pending ih =>
    apply Keeps.bind (hP.orBreak _)
    intro v
    apply Keeps.bind ((Cursor.triple_spliceLob rows p v).post (fun _ _ h => h.2))
    exact ih

theorem readGeneratedKeys : Keeps P (Session.readGeneratedKeys (σ := σ)) := by
  apply ifOpen
  apply Keeps.bind (hP.orBreak _)
  intro columnCount
  apply Keeps.bind (hP.orBreak _)
  intro rowCount
  apply Keeps.ite (Keeps.throw _)
  apply Keeps.bind Keeps.get
  intro s
  apply Keeps.bind (hP.orBreak _)
  intro m
  apply Keeps.bind (hP.orBreakUnlessAligned _)
  intro r
  exact Keeps.bind (hP.resolveGeneratedKeyLobs _ _) (fun _ => Keeps.pure _)

theorem readKeysForUpdate (mode : Int) : Keeps P (Session.readKeysForUpdate (σ := σ) mode) := by
  apply Keeps.ite (Keeps.pure _)
  apply Keeps.bind (Keeps.attempt hP.readGeneratedKeys)
  intro r
  split
  . exact Keeps.pure _
  . exact Keeps.ite (Keeps.pure _) (Keeps.throw _)
  . exact Keeps.ite (Keeps.pure _) (Keeps.throw _)

/-! A result set changes its session only through the operations above. -/

omit hP [Peer σ] [GoStd] in
theorem onSession {m : Prog Err (Session σ) α} (hm : Keeps P m)
    : Keeps (fun c : Cursor σ => P c.session) (Cursor.onSession m) :=
  Triple.zoom hm (fun _ h => h) (fun _ _ _ _ h => h) (fun _ _ _ _ h => h)

omit hP [Peer σ] [GoStd] in
theorem modifyRows (f : Rows → Rows)
    : Keeps (fun c : Cursor σ => P c.session) (Cursor.modifyRows f) :=
  Keeps.modify (fun _ h => h)

theorem fetchRowsLoop (fetch : Nat) (lc : LobCollector)
    : Keeps (fun c : Cursor σ => P c.session) (Cursor.fetchRowsLoop fetch lc) := by
  induction fetch generalizing lc with
  | zero => exact Keeps.pure _
  | succ fetch ih =>
    apply Keeps.bind (onSession (hP.orBreak _))
    intro rowFlag
    apply Keeps.ite
    . apply Keeps.bind Keeps.get
      intro c
      apply Keeps.bind (onSession (hP.orBreak _))
      intro r
      exact Keeps.bind (modifyRows _) (fun _ => ih _)
    . apply Keeps.ite (Keeps.bind (modifyRows _) (fun _ => Keeps.pure _))
      apply Keeps.ite (onSession (hP.orBreakUnlessAligned _))
      exact Keeps.bind (onSession hP.markStreamBroken) (fun _ => Keeps.throw _)

omit [GoStd] in
theorem resolveLobs (pending : List PendingLob)
    : Keeps (fun c : Cursor σ => P c.session) (Cursor.resolveLobs pending) := by
  induction pending with
  | nil => exact Keeps.pure _
  | cons p pending ih =>
    apply Keeps.bind (onSession (hP.orBreak _))
    intro v
    apply Keeps.bind Keeps.get
    intro c
    apply Keeps.bind ((Cursor.triple_spliceLob _ p v).post (fun _ _ h => h.2))
    intro buf
    exact Keeps.bind (modifyRows _) (fun _ => ih)

theorem fetchRows (fetch : Int)
    : Keeps (fun c : Cursor σ => P c.session) (Cursor.fetchRows fetch) :=
  Keeps.bind (hP.fetchRowsLoop _ _) (fun _ => hP.resolveLobs _)

theorem fetchNextBatch (fetch : Int)
    : Keeps (fun c : Cursor σ => P c.session) (Cursor.fetchNextBatch fetch) := by
  apply Keeps.onFail _ (fun _ => modifyRows _)
  apply Keeps.bind Keeps.get
  intro c
  apply Keeps.ite (Keeps.throw _)
  apply Keeps.onFail _ (fun e => onSession (hP.markUnlessAlignedH2Error e))
  exact Keeps.bind (onSession (hP.io _)) (fun _ => hP.fetchRows fetch)

omit hP [Peer σ] [GoStd] in
theorem takeRow (dest : List Value)
    : Keeps (fun c : Cursor σ => P c.session) (Cursor.takeRow dest) := by
  apply Keeps.bind Keeps.get
  intro c
  apply Keeps.bind
  . intro c' hc'
    unfold Prog.index
    cases c.rows.bufferedRows[0]? with
    | some row => exact hc'
    | none => trivial
  . intro row
    exact Keeps.bind (modifyRows _) (fun _ => Keeps.pure _)

theorem next (dest : List Value) : Keeps (fun c : Cursor σ => P c.session) (Cursor.next dest) := by
  apply Keeps.bind Keeps.get
  intro c
  apply Keeps.ite (Keeps.throw _)
  split
  . exact Keeps.throw _
  . apply Keeps.ite (Keeps.throw _)
    apply Keeps.ite _ (takeRow dest)
    split
    . exact Keeps.throw _
    . apply Keeps.bind (hP.fetchNextBatch _)
      intro _
      exact Keeps.bind Keeps.get (fun _ => Keeps.ite (Keeps.throw _) (takeRow dest))

omit [GoStd] in
theorem closeRows : Keeps (fun c : Cursor σ => P c.session) Cursor.close := by
  have hsend : ∀ m, Keeps (fun c : Cursor σ => P c.session) (Cursor.ifAlive m) := fun m =>
    Keeps.bind Keeps.get
      (fun _ => Keeps.ite (Keeps.attempt (onSession (hP.io m))) (Keeps.pure _))
  apply Keeps.bind Keeps.get
  intro c
  apply Keeps.ite (Keeps.pure _)
  apply Keeps.bind (modifyRows _)
  intro _
  apply Keeps.bind (hsend _)
  intro _
  apply Keeps.bind (Keeps.ite (hsend _) (Keeps.pure _))
  intro _
  apply Keeps.bind (modifyRows _)
  intro _
  apply Keeps.bind
  . apply Keeps.attempt
    unfold Cursor.runCloseCallback
    split
    . exact onSession (hP.closeCommand _)
    . exact Keeps.pure _
  . intro _
    exact Keeps.bind (modifyRows _) (fun _ => Cursor.keeps_firstError _)

omit hP [Peer σ] [GoStd] in
theorem startRows (r : Rows) {m : Prog Err (Cursor σ) Unit}
    (hm : Keeps (fun c : Cursor σ => P c.session) m)
    : Keeps P (Cursor.startRows r m) := by
  intro s hs
  have h := hm { rows := r, session := s } hs
  unfold Cursor.startRows
  cases hrun : m { rows := r, session := s } with
  | ok | fail | panic | stuck =>
    rw [hrun] at h
    exact h

theorem newRows (resultID columnCount fetchSize : Int) (ownsCommand : Bool) (commandID : Int)
    : Keeps P (Session.newRows resultID columnCount fetchSize ownsCommand commandID) := by
  apply ifOpen
  apply Keeps.bind (hP.orBreak _)
  intro rowCount
  apply Keeps.bind (hP.orBreak _)
  intro columns
  apply startRows
  apply Keeps.bind Keeps.get
  intro c
  exact Keeps.ite (Keeps.mapErr (hP.fetchRows _)) (Keeps.pure _)

end Quiet

namespace Steady

variable {P : Session σ → Prop} (hP : Steady P)

include hP

theorem nextCommandID : Keeps P Session.nextCommandID :=
  Keeps.bind (Keeps.modify (fun _ => hP.setNextID _)) (fun _ => Keeps.bind Keeps.get
    (fun _ => Keeps.pure _))

variable [Peer σ]

theorem prepareCommand (ctx : Ctx) (sql : GoString) : Keeps P (Session.prepareCommand ctx sql) := by
  apply Quiet.ifOpen
  apply hP.withContext
  apply Keeps.bind hP.nextCommandID
  intro _
  exact Keeps.bind (hP.io _) (fun _ => hP.io _)

theorem prepareCommandReadParams (ctx : Ctx) (sql : GoString)
    : Keeps P (Session.prepareCommandReadParams ctx sql) := by
  apply Quiet.ifOpen
  apply hP.withContext
  apply Keeps.bind hP.nextCommandID
  intro _
  exact Keeps.bind (hP.io _) (fun _ => hP.io _)

variable [GoStd]

theorem executeQueryWire (ctx : Ctx) (cmd : PreparedCommand) (maxRows fetchSize : Int)
    (params : List Value) (ownsCommand : Bool)
    : Keeps P (Session.executeQueryWire ctx cmd maxRows fetchSize params ownsCommand) := by
  apply Keeps.bind hP.nextCommandID
  intro resultID
  apply hP.withContext
  apply Keeps.onFail
  . apply Keeps.bind (hP.io _)
    intro _
    apply Keeps.bind (hP.io _)
    intro _
    apply Keeps.bind (hP.io _)
    intro _
    exact Keeps.bind (hP.io _) (fun _ => hP.newRows _ _ _ _ _)
  . intro e
    exact Keeps.ite (hP.closeCommand _) (Keeps.pure _)

end Steady

end Session

end H2Go
