import H2Go.Session.Mirror
import H2Go.Value.Lob

/-!
This module contains the ids of commands and results: they come from a counter of 32 bits, so that
they are new as long as the session has given out fewer than `2 ^ 32` of them.
-/

namespace H2Go

open BigEndian

variable {σ : Type} {α : Type}

theorem Tr.returns_readPrepared (cmdID : Int) (sql : GoString)
    : Returns (readPrepared cmdID sql : Prog Err (Tr σ) _) (fun cmd => cmd.id = cmdID) :=
  Returns.bind (fun _ => Returns.bind (fun _ => Returns.bind (fun _ => Returns.bind (fun _ =>
    Returns.pure rfl))))

theorem Tr.returns_readPreparedParams (cmdID : Int) (sql : GoString)
    : Returns (readPreparedParams cmdID sql : Prog Err (Tr σ) _) (fun cmd => cmd.id = cmdID) :=
  Returns.bind (fun _ => Returns.bind (fun _ => Returns.bind (fun _ => Returns.bind (fun _ =>
    Returns.bind (fun _ => Returns.bind (fun _ => Returns.pure rfl))))))

namespace Session

def freshID (s : Session σ) : Int := wrapInt32 (s.nextID + 1)

theorem nextCommandID_run (s : Session σ)
    : nextCommandID s = .ok s.freshID { s with nextID := s.freshID } := rfl

theorem quiet_nextID (n : Int) : Quiet (fun s : Session σ => s.nextID = n) where
  setTr _ h := h
  abort h := h
  setClock _ h := h

theorem returns_io {m : Prog Err (Tr σ) α} {R : α → Prop} (h : Returns m R) : Returns (io m) R := by
  intro s _
  unfold io
  split
  . trivial
  . have hm := h s.tr True.intro
    cases hrun : m s.tr with
    | ok a t =>
      rw [hrun] at hm
      exact hm
    | fail | panic | stuck => trivial

theorem triple_nextCommandID_bind (s : Session σ) {f : Int → Prog Err (Session σ) α}
    {Q : α → Session σ → Prop} {E : Err → Session σ → Prop}
    (h : Triple True (fun s' => s'.nextID = s.freshID) (f s.freshID) Q E)
    : Triple True (fun s' => s' = s) (nextCommandID >>= f) Q E := by
  rintro _ rfl
  rw [Prog.bind_run, nextCommandID_run, Out.andThen_ok]
  exact h _ rfl

theorem triple_prepare (ctx : Ctx) (err : Err) {send : Int → Prog Err (Tr σ) Unit}
    {read : Int → Prog Err (Tr σ) PreparedCommand}
    (hread : ∀ cmdID, Returns (read cmdID) (fun cmd => cmd.id = cmdID)) {s : Session σ}
    (hopen : s.trNil = false)
    : Triple True (fun s' => s' = s)
        (ifOpen err (withContext ctx do
          let cmdID ← nextCommandID
          io (send cmdID)
          io (read cmdID)))
        (fun cmd s' => cmd.id = s.freshID ∧ s'.nextID = s.freshID)
        (fun _ s' => s'.nextID = s.freshID) := by
  have hquiet := quiet_nextID (σ := σ) s.freshID
  have hexchange := triple_nextCommandID_bind s
    (f := fun cmdID => io (send cmdID) >>= fun _ => io (read cmdID))
    (Triple.bind (hquiet.io _) (fun _ => (returns_io (hread _)).and_keeps (hquiet.io _)))
  rintro _ rfl
  rw [ifOpen_of_open hopen]
  exact hquiet.triple_withContext ctx hexchange _ rfl

variable [Peer σ]

theorem triple_prepareCommand (ctx : Ctx) (sql : GoString) {s : Session σ} (hopen : s.trNil = false)
    : Triple True (fun s' => s' = s) (prepareCommand ctx sql)
        (fun cmd s' => cmd.id = s.freshID ∧ s'.nextID = s.freshID)
        (fun _ s' => s'.nextID = s.freshID) :=
  triple_prepare ctx _ (fun cmdID => Tr.returns_readPrepared cmdID sql) hopen

theorem triple_prepareCommandReadParams (ctx : Ctx) (sql : GoString) {s : Session σ}
    (hopen : s.trNil = false)
    : Triple True (fun s' => s' = s) (prepareCommandReadParams ctx sql)
        (fun cmd s' => cmd.id = s.freshID ∧ s'.nextID = s.freshID)
        (fun _ s' => s'.nextID = s.freshID) :=
  triple_prepare ctx _ (fun cmdID => Tr.returns_readPreparedParams cmdID sql) hopen

variable [GoStd]

theorem returns_newRows (resultID columnCount fetchSize : Int) (ownsCommand : Bool) (commandID : Int)
    : Returns (newRows resultID columnCount fetchSize ownsCommand commandID : Prog Err (Session σ) _)
        (fun rows => rows.resultID = resultID) := by
  intro s _
  cases hrun : newRows resultID columnCount fetchSize ownsCommand commandID s with
  | ok rows s' =>
    obtain ⟨-, rowCount, _, columns, _, -, -, hprefetch⟩ := prefetch_of_newRows_ok hrun
    obtain ⟨_, _, hrows⟩ := Cursor.triple_prefetchInitialRows.of_ok (Rows.Like.refl _) hprefetch
    rw [Out.holds_ok, show rows = _ from hrows]
    rfl
  | fail | panic | stuck => trivial

theorem triple_executeQueryWire (ctx : Ctx) (cmd : PreparedCommand) (maxRows fetchSize : Int)
    (params : List Value) (ownsCommand : Bool) (s : Session σ)
    : Triple True (fun s' => s' = s)
        (executeQueryWire ctx cmd maxRows fetchSize params ownsCommand)
        (fun rows s' => rows.resultID = s.freshID ∧ s'.nextID = s.freshID)
        (fun _ s' => s'.nextID = s.freshID) := by
  have hquiet := quiet_nextID (σ := σ) s.freshID
  apply triple_nextCommandID_bind
  apply hquiet.triple_withContext
  apply Triple.onFail (F := fun _ s' => s'.nextID = s.freshID)
  . apply Triple.bind (hquiet.io _)
    intro _
    apply Triple.bind (hquiet.io _)
    intro _
    apply Triple.bind (hquiet.io _)
    intro _
    apply Triple.bind (hquiet.io _)
    intro columnCount
    exact (returns_newRows _ _ _ _ _).and_keeps (hquiet.newRows _ _ _ _ _)
  . intro e
    exact Keeps.ite (hquiet.closeCommand cmd) (Keeps.pure _)

namespace Quiet

variable {P : Session σ → Prop} (hP : Quiet P)
  (hset : ∀ (s : Session σ) (autoCommit : Bool), P s → P { s with autoCommit := autoCommit })

include hP hset

omit [GoStd] in
theorem setAutoCommit (ctx : Ctx) (autoCommit : Bool)
    : Keeps P (Session.setAutoCommit ctx autoCommit) := by
  apply ifOpen
  apply hP.withContext
  apply Keeps.bind (checkContext ctx)
  intro _
  apply Keeps.bind (hP.io _)
  intro _
  exact Keeps.bind (hP.io _) (fun _ => Keeps.modify (fun s hs => hset s _ hs))

theorem executeUpdate (ctx : Ctx) (cmd : PreparedCommand) (params : List Value)
    : Keeps P (Session.executeUpdatePreparedWithParams ctx cmd params) := by
  apply ifOpen
  apply Keeps.ite (Keeps.throw _)
  apply hP.withContext
  apply Keeps.ite (Keeps.throw _)
  apply Keeps.bind (hP.io _)
  intro _
  apply Keeps.bind (hP.io _)
  intro _
  apply Keeps.bind Keeps.get
  intro s
  apply Keeps.bind (hP.io _)
  intro _
  apply Keeps.bind (hP.io _)
  intro _
  apply Keeps.bind (hP.io _)
  intro reply
  apply Keeps.bind (hP.readKeysForUpdate _)
  intro r
  exact Keeps.bind (Keeps.modify (fun s hs => hset s _ hs)) (fun _ => Keeps.pure _)

end Quiet

end Session

namespace Operation

/--
The id that the call takes from the counter.
-/
def takesID (op : Operation) (s : Session σ) : Option Int :=
  match op with
  | .prepareCommand _ _ => if s.trNil then none else some s.freshID
  | .prepareCommandReadParams _ _ => if s.trNil then none else some s.freshID
  | .executeQuery _ _ _ _ _ _ => some s.freshID
  | _ => none

theorem takesID_cases (op : Operation) (s : Session σ)
    : op.takesID s = none ∨ op.takesID s = some s.freshID := by
  unfold takesID
  split
  . split <;> simp
  . split <;> simp
  . exact .inr rfl
  . exact .inl rfl

variable [GoStd] [Peer σ]

theorem nextID_after (op : Operation) {s s' : Session σ} (h : op.after s = some s')
    : s'.nextID = (op.takesID s).getD s.nextID := by
  have hquiet := Session.quiet_nextID (σ := σ) s.nextID
  cases op with
  | prepareCommand ctx sql =>
    cases hnil : s.trNil with
    | true =>
      rw [after, Session.prepareCommand, Session.ifOpen_of_trNil hnil] at h
      cases h
      simp [takesID, hnil]
    | false =>
      rw [takesID, hnil]
      exact ((Session.triple_prepareCommand ctx sql hnil).post (fun _ _ h => h.2)).of_state rfl h
  | prepareCommandReadParams ctx sql =>
    cases hnil : s.trNil with
    | true =>
      rw [after, Session.prepareCommandReadParams, Session.ifOpen_of_trNil hnil] at h
      cases h
      simp [takesID, hnil]
    | false =>
      rw [takesID, hnil]
      exact ((Session.triple_prepareCommandReadParams ctx sql hnil).post
        (fun _ _ h => h.2)).of_state rfl h
  | executeQuery ctx cmd maxRows fetchSize params ownsCommand =>
    exact ((Session.triple_executeQueryWire ctx cmd maxRows fetchSize params ownsCommand s).post
      (fun _ _ h => h.2)).of_state rfl h
  | closeCommand cmd => exact (hquiet.closeCommand cmd).of_state rfl h
  | hasPendingTransaction ctx => exact (hquiet.hasPendingTransaction ctx).of_state rfl h
  | commitCurrentTransaction ctx => exact (hquiet.commitCurrentTransaction ctx).of_state rfl h
  | setAutoCommit ctx b => exact (hquiet.setAutoCommit (fun _ _ h => h) ctx b).of_state rfl h
  | executeUpdate ctx cmd params =>
    exact (hquiet.executeUpdate (fun _ _ h => h) ctx cmd params).of_state rfl h
  | next rows dest =>
    obtain ⟨c, hc, rfl⟩ := Option.map_eq_some_iff.mp h
    exact (hquiet.next dest).of_state (s := ⟨rows, s⟩) rfl hc
  | closeRows rows =>
    obtain ⟨c, hc, rfl⟩ := Option.map_eq_some_iff.mp h
    exact hquiet.closeRows.of_state (s := ⟨rows, s⟩) rfl hc
  | finish ctx err => exact (hquiet.withContext ctx (Keeps.throw err)).of_state rfl h
  | tick => exact hquiet.tick.of_state rfl h
  | abort =>
    cases h
    rfl
  | close => exact hquiet.close.of_state rfl h

end Operation

/--
A session, and the ids of the commands and results that are open on its server.
-/
structure Inventory (σ : Type) where
  session : Session σ
  opened : List Int

/--
An id at the time it is given out, and the ids of what is open on the server at that time.
-/
structure Allocation where
  id : Int
  opened : List Int

/--
The calls of a session since its handshake, with the ids they took. After a call the server has open
what it had open before and what the call has opened, as far as it has not been closed.
-/
inductive Calls [GoStd] [Peer σ] (s : Session σ) : List Allocation → Inventory σ → Prop where
  | start : Calls s [] ⟨s, []⟩
  | call {taken : List Allocation} {inv : Inventory σ} (hcalls : Calls s taken inv) (op : Operation)
    {s' : Session σ} (hafter : op.after inv.session = some s') {opened : List Int}
    (hopened : ∀ id ∈ opened, id ∈ inv.opened ∨ op.takesID inv.session = some id)
    : Calls s (taken ++ ((op.takesID inv.session).map (Allocation.mk · inv.opened)).toList)
        ⟨s', opened⟩

def AllFresh (taken : List Allocation) : Prop := ∀ a ∈ taken, a.id ≠ 0 ∧ a.id ∉ a.opened

/--
The `i`-th id is `i + 1` in 32 bits, and only such ids are open.
-/
structure Numbered (taken : List Allocation) (inv : Inventory σ) : Prop where
  nextID : inv.session.nextID = wrapInt32 taken.length
  id : ∀ (i : Nat) (a : Allocation), taken[i]? = some a → a.id = wrapInt32 (i + 1)
  before : ∀ (i : Nat) (a : Allocation), taken[i]? = some a →
    ∀ id ∈ a.opened, ∃ j < i, id = wrapInt32 (j + 1)
  opened : ∀ id ∈ inv.opened, ∃ j < taken.length, id = wrapInt32 (j + 1)

theorem some_of_concat {β : Type} {l : List β} {b a : β} {i : Nat} (h : (l ++ [b])[i]? = some a)
    : l[i]? = some a ∨ i = l.length ∧ a = b := by
  rcases Nat.lt_trichotomy i l.length with hlt | rfl | hgt
  . rw [List.getElem?_append_left hlt] at h
    exact .inl h
  . rw [List.getElem?_concat_length] at h
    exact .inr ⟨rfl, (Option.some.inj h).symm⟩
  . rw [List.getElem?_eq_none (by simp; omega)] at h
    cases h

namespace Numbered

variable {taken : List Allocation} {inv : Inventory σ} (h : Numbered taken inv) {s' : Session σ}
  {opened : List Int}

include h

theorem keep (hnext : s'.nextID = inv.session.nextID) (hopened : ∀ id ∈ opened, id ∈ inv.opened)
    : Numbered taken ⟨s', opened⟩ where
  nextID := hnext.trans h.nextID
  id := h.id
  before := h.before
  opened id hid := h.opened id (hopened id hid)

theorem freshID_eq : inv.session.freshID = wrapInt32 (taken.length + 1) := by
  unfold Session.freshID
  rw [h.nextID]
  unfold wrapInt32
  omega

theorem snoc (hnext : s'.nextID = inv.session.freshID)
    (hopened : ∀ id ∈ opened, id ∈ inv.opened ∨ inv.session.freshID = id)
    : Numbered (taken ++ [⟨inv.session.freshID, inv.opened⟩]) ⟨s', opened⟩ where
  nextID := by
    rw [hnext, h.freshID_eq, List.length_append, List.length_singleton]
    rfl
  id i a ha := by
    rcases some_of_concat ha with ha | ⟨rfl, rfl⟩
    . exact h.id i a ha
    . exact h.freshID_eq
  before i a ha := by
    rcases some_of_concat ha with ha | ⟨rfl, rfl⟩
    . exact h.before i a ha
    . exact h.opened
  opened id hid := by
    rw [List.length_append, List.length_singleton]
    rcases hopened id hid with hid | hid
    . obtain ⟨j, hj, hid⟩ := h.opened id hid
      exact ⟨j, Nat.lt_succ_of_lt hj, hid⟩
    . exact ⟨taken.length, Nat.lt_succ_self _, hid.symm.trans h.freshID_eq⟩

end Numbered

theorem numbered_of_calls [GoStd] [Peer σ] {s : Session σ} (hs : s.nextID = 0)
    {taken : List Allocation} {inv : Inventory σ} (h : Calls s taken inv)
    : Numbered taken inv := by
  induction h with
  | start => exact ⟨hs, by simp, by simp, by simp⟩
  | call hcalls op hafter hopened ih =>
    have hnext := op.nextID_after hafter
    rcases Operation.takesID_cases op _ with hid | hid
    . rw [hid] at hnext hopened ⊢
      rw [Option.map_none, Option.toList_none, List.append_nil]
      exact ih.keep hnext (fun id h => (hopened id h).resolve_right (by simp))
    . rw [hid] at hnext hopened ⊢
      exact ih.snoc hnext (fun id h => (hopened id h).imp_right Option.some.inj)

theorem Numbered.allFresh_iff {taken : List Allocation} {inv : Inventory σ} (h : Numbered taken inv)
    : AllFresh taken ↔ taken.length < 2 ^ 32 := by
  constructor
  . intro hfresh
    by_contra hlong
    obtain ⟨a, ha⟩ : ∃ a, taken[2 ^ 32 - 1]? = some a :=
      ⟨_, List.getElem?_eq_getElem (by omega)⟩
    exact (hfresh a (List.mem_of_getElem? ha)).1 ((h.id _ a ha).trans (by decide))
  . intro hshort a ha
    obtain ⟨i, hi⟩ := List.mem_iff_getElem?.mp ha
    have hlt := (List.getElem?_eq_some_iff.mp hi).1
    rw [h.id i a hi]
    refine ⟨by unfold wrapInt32; omega, ?_⟩
    intro hopened
    obtain ⟨j, hj, heq⟩ := h.before i a hi _ hopened
    unfold wrapInt32 at heq
    omega

/--
In every run of a session the ids are new and not 0 exactly when it takes fewer than `2 ^ 32` of them.
-/
theorem ids_fresh_iff [GoStd] [Peer σ] (t : Tr σ) (cfg : Config) (version : Int) (autoCommit : Bool)
    {taken : List Allocation} {inv : Inventory σ}
    (hcalls : Calls (Session.opened t cfg version autoCommit) taken inv)
    : AllFresh taken ↔ taken.length < 2 ^ 32 :=
  (numbered_of_calls rfl hcalls).allFresh_iff

theorem Tr.sends_sendPrepare [Peer σ] (fn : String) (op cmdID : Int) (sql : GoString)
    : Sends (sendPrepare fn op cmdID sql : Prog Err (Tr σ) _)
        (intBytes 4 op ++ (intBytes 4 cmdID ++
          (beBytes 4 (utf16Encode sql).length ++ (utf16Encode sql).flatMap unitBytes ++ []))) := by
  apply Sends.bind (writes_wrapErr _ _ (writes_writeInt32 _))
  apply Sends.bind (writes_wrapErr _ _ (writes_writeInt32 _))
  apply Sends.bind (writes_wrapErr _ _ (writes_writeString _))
  exact Sends.flush _

section

open StandIn

inductive Preparer where
  | mk

def preparedReply : List UInt8 := intBytes 4 statusOK ++ ([0] ++ ([0] ++ intBytes 4 0))

instance : Peer Preparer where
  recv s _ := (s, preparedReply)

structure AtPreparer (s : Session Preparer) : Prop where
  isOpen : s.trNil = false
  idle : s.tr.Idle (fun _ => True)
  healthy : s.tr.writeBudget = none

def preparerSession : Session Preparer :=
  Session.opened { Tr.ofBytes [] with peer := Preparer.mk }
    { generatedKeysModeSet := false, generatedKeysMode := 0, generatedKeysColumns := [],
      generatedKeysColumnNames := [] } tcpProtocolVersion21 true

theorem frame_readPrepared (cmdID : Int)
    : ∃ cmd, Frame (Tr.readPrepared cmdID [] : Prog Err (Tr Preparer) _) cmd preparedReply := by
  constructor
  apply Tr.frame_readStatus_ok.mapErr.bind
  apply (Tr.frame_readBool false).mapErr.bind
  apply (Tr.frame_readBool false).mapErr.bind
  exact (Tr.frame_readInt32 (by decide) (by decide)).mapErr.bind_nil Frame.pure

theorem AtPreparer.prepare {s : Session Preparer} (h : AtPreparer s)
    : ∃ cmd s', Session.prepareCommand .background [] s = .ok cmd s' ∧ AtPreparer s' := by
  obtain ⟨cmd, hframe⟩ := frame_readPrepared s.freshID
  rcases Tr.exchange (Tr.sends_sendPrepare "PrepareCommand" sessionPrepare s.freshID [])
    (by simp [intBytes, beBytes]) h.idle rfl with ⟨t, hsend, hkept, -, -, hinp, hheld, -⟩ | ⟨_, _, _, _, hfault⟩
  . have hread := hframe.exact t [] (hinp.trans (List.append_nil _).symm)
    -- the request is sent after the counter has been advanced
    have hrun : (do
        let cmdID ← Session.nextCommandID
        Session.io (Tr.sendPrepare "PrepareCommand" sessionPrepare cmdID [])
        Session.io (Tr.readPrepared cmdID [])) s
          = .ok cmd { s.setTr (Input.move preparedReply [] t) with nextID := s.freshID } := by
      have hs : ({ s with nextID := s.freshID } : Session Preparer).trNil = false := h.isOpen
      rw [Prog.bind_of_ok (Session.nextCommandID_run s),
        Prog.bind_of_ok (Session.io_of_ok hs hsend)]
      exact Session.io_of_ok (s := Session.setTr { s with nextID := s.freshID } t) hs hread
    have hprepare : Session.prepareCommand .background [] s = _ :=
      (Session.ifOpen_of_open h.isOpen _ _).trans (Session.withContext_of_ok hrun)
    exact ⟨cmd, _, hprepare, h.isOpen, ⟨rfl, hheld, True.intro⟩, hkept.healthy h.healthy⟩
  . exact absurd h.healthy hfault

theorem preparer_calls (n : Nat)
    : ∃ taken inv, Calls preparerSession taken inv ∧ taken.length = n ∧ AtPreparer inv.session ∧
        (0 < n → 1 ∈ inv.opened) ∧
        ∀ (i : Nat) (a : Allocation), taken[i]? = some a → 0 < i → 1 ∈ a.opened := by
  induction n with
  | zero =>
    exact ⟨[], _, .start, rfl, ⟨rfl, ⟨rfl, rfl, True.intro⟩, rfl⟩, by simp, by simp⟩
  | succ n ih =>
    obtain ⟨taken, inv, hcalls, rfl, hat, hone, hall⟩ := ih
    obtain ⟨cmd, s', hrun, hat'⟩ := hat.prepare
    have htakes : (Operation.prepareCommand .background []).takesID inv.session
        = some inv.session.freshID := by
      rw [Operation.takesID, if_neg (by simp [hat.isOpen])]
    have hafter : (Operation.prepareCommand .background []).after inv.session = some s' := by
      rw [Operation.after, hrun]
      rfl
    have hopened : ∀ id ∈ inv.session.freshID :: inv.opened, id ∈ inv.opened ∨
        (Operation.prepareCommand .background []).takesID inv.session = some id := by
      intro id hid
      rw [htakes]
      rcases List.mem_cons.mp hid with rfl | hid
      . exact .inr rfl
      . exact .inl hid
    have hnext := hcalls.call _ hafter hopened
    rw [htakes] at hnext
    refine ⟨_, _, hnext, by simp, hat', fun _ => ?_, ?_⟩
    . rcases Nat.eq_zero_or_pos taken.length with hzero | hpos
      . rw [(numbered_of_calls rfl hcalls).freshID_eq, hzero]
        exact List.mem_cons_self
      . exact List.mem_cons_of_mem _ (hone hpos)
    . intro i a ha hpos
      rcases some_of_concat ha with ha | ⟨rfl, rfl⟩
      . exact hall i a ha hpos
      . exact hone hpos

theorem ids_fresh_prepare
    : ∃ taken inv, Calls preparerSession taken inv ∧ taken.length = 3 ∧ AllFresh taken := by
  obtain ⟨taken, inv, hcalls, hlen, -⟩ := preparer_calls 3
  exact ⟨taken, inv, hcalls, hlen, (ids_fresh_iff _ _ _ _ hcalls).mpr (by omega)⟩

/--
A session that has prepared `2 ^ 32 + 1` commands has given the id 0 to one of them, and the id of
the first one, which is still open, to the last.
-/
theorem ids_reused
    : ∃ taken inv, Calls preparerSession taken inv ∧ (∃ a ∈ taken, a.id = 0) ∧
        ∃ a ∈ taken, a.id = 1 ∧ 1 ∈ a.opened := by
  obtain ⟨taken, inv, hcalls, hlen, -, -, hall⟩ := preparer_calls (2 ^ 32 + 1)
  have hnumbered := numbered_of_calls rfl hcalls
  obtain ⟨a, ha⟩ : ∃ a, taken[2 ^ 32 - 1]? = some a := ⟨_, List.getElem?_eq_getElem (by omega)⟩
  obtain ⟨b, hb⟩ : ∃ b, taken[2 ^ 32]? = some b := ⟨_, List.getElem?_eq_getElem (by omega)⟩
  exact ⟨taken, inv, hcalls,
    ⟨a, List.mem_of_getElem? ha, (hnumbered.id _ a ha).trans (by decide)⟩,
    b, List.mem_of_getElem? hb, (hnumbered.id _ b hb).trans (by decide), hall _ b hb (by decide)⟩

end

end H2Go
