import H2Go.Session.Contract
import H2Go.Session.Ids

/-!
This module contains a server that keeps to the contract. It executes statements without parameters and
refuses all others.
-/

namespace H2Go

open BigEndian

/--
`ROLLBACK` and the statements that set an isolation level do what they are for, all others are changes.
-/
def simpleEffect (text : List UInt8) (d : SqlStore) : SqlStore :=
  if text = rollbackText then
    d.rollback
  else
    match isolationLevels.find? (fun level => isolationText level = text) with
    | some level => d.setIsolation level
    | none => d.change text

def isSpecial (text : List UInt8) : Bool :=
  text = rollbackText || isolationLevels.any (fun level => isolationText level = text)

theorem simpleEffect_change {text : List UInt8} (h : isSpecial text = false) (d : SqlStore)
    : simpleEffect text d = d.change text := by
  simp only [isSpecial, Bool.or_eq_false_iff, decide_eq_false_iff_not, List.any_eq_false,
    decide_eq_true_eq] at h
  rw [simpleEffect, if_neg h.1, List.find?_eq_none.mpr (by simpa using h.2)]

theorem simpleEffect_isolation {level : GoString} (h : level ∈ isolationLevels) (d : SqlStore)
    : simpleEffect (isolationText level) d = d.setIsolation level := by
  have hall : ∀ level ∈ isolationLevels, isolationText level ≠ rollbackText ∧
      isolationLevels.find? (fun level' => isolationText level' = isolationText level) = some level := by
    decide +kernel
  obtain ⟨hne, hfind⟩ := hall level h
  rw [simpleEffect, if_neg hne, hfind]

theorem settled_simpleEffect (text : List UInt8) {d : SqlStore} (h : d.Settled)
    : (simpleEffect text d).Settled := by
  unfold simpleEffect
  split
  . exact Store.settled_of_work rfl
  . split
    . exact h
    . exact Store.settled_change text d

def simpleEngine : Engine where
  effect := simpleEffect
  rollback _ := if_pos rfl
  isolation _ := simpleEffect_isolation
  settled := settled_simpleEffect

structure SqlServer where
  desk : Desk

namespace SqlServer

def preparedParamsReply : List UInt8 :=
  intBytes 4 statusOK ++ ([0] ++ ([0] ++ (intBytes 4 0 ++ intBytes 4 0)))

def updated (d : SqlStore) : List UInt8 :=
  intBytes 4 statusOK ++ (intBytes 8 1 ++ [if d.autoCommit then 1 else 0])

/--
Statements with parameters and those that ask for generated keys are refused.
-/
def update (request : List UInt8) (v : Desk) : Desk × List UInt8 :=
  if int32At 8 request = 0 ∧ int32At 12 request = generatedKeysNone then
    match v.commands.lookup (int32At 4 request) with
    | some text =>
      (v.setStore (simpleEffect text v.store), updated (simpleEffect text v.store))
    | none => (v, errorReply)
  else
    (v, errorReply)

def handle (op : Int) (request : List UInt8) (v : Desk) : Desk × List UInt8 :=
  if op = sessionPrepare then
    (v.prepare (int32At 4 request) (request.drop 8), preparedReply)
  else if op = sessionPrepareReadParams2 then
    (v.prepare (int32At 4 request) (request.drop 8), preparedParamsReply)
  else if op = commandExecuteUpdate then
    update request v
  else if op = sessionSetAutocommit then
    (v.setStore (v.store.setAutoCommit (request.drop 4 = [1])), intBytes 4 statusOK)
  else if op = commandCommit then
    (v.setStore v.store.commit, intBytes 4 statusOK)
  else if op = sessionHasPendingTransaction then
    (v, intBytes 4 statusOK ++ intBytes 4 (if v.store.work ≠ [] then 1 else 0))
  else if op = sessionClose then
    (v.setStore v.store.rollback, [])
  else
    (v, [])

def serve (request : List UInt8) (v : Desk) : Desk × List UInt8 := handle (int32At 0 request) request v

end SqlServer

instance : Peer SqlServer where
  recv s request := (⟨(SqlServer.serve request s.desk).1⟩, (SqlServer.serve request s.desk).2)

namespace SqlServer

theorem frame_errorReply : ∃ h, Tr.ErrorReply SqlServer h errorReply := by
  obtain ⟨h, t, hrun, hend⟩ : ∃ h t, (Tr.readH2ErrorFrame : Prog Err (Tr SqlServer) _)
      { Tr.ofBytes (List.replicate 12 255 ++ [0, 0, 0, 42] ++ List.replicate 4 255) with
        peer := ⟨⟨[], ⟨true, [], [], []⟩⟩⟩ } = .ok h t ∧ t.inp = [] := ⟨_, _, rfl, rfl⟩
  exact ⟨h, _, rfl, LawfulReader.frame_of_ok hrun hend⟩

variable {α : Type}

theorem serve_op {op : Int} (hop : IsInt32 op) (rest : List UInt8) (v : Desk)
    : serve (intBytes 4 op ++ rest) v = handle op (intBytes 4 op ++ rest) v := by
  rw [serve, int32At_zero, wrapInt32_eq hop.1 hop.2]

theorem answers_of_serve {m : Prog Err (Tr SqlServer) α} {R : α → Desk → Desk → Prop}
    {request : List UInt8}
    (h : ∀ v, ∃ v' reply x, serve request v = (v', reply) ∧ Frame m x reply ∧ R x v v')
    : Answers desk m R request := by
  rintro p p' reply hrecv
  obtain ⟨v', reply', x, hserve, hframe, hr⟩ := h p.desk
  simp only [Peer.recv, hserve, Prod.mk.injEq] at hrecv
  obtain ⟨rfl, rfl⟩ := hrecv
  exact .inl ⟨x, hframe, hr⟩

theorem view_of_serve {request : List UInt8} (h : ∀ v, serve request v = (v, [])) (p p' : SqlServer)
    (reply : List UInt8) (hrecv : Peer.recv p request = (p', reply))
    : reply = [] ∧ p'.desk = p.desk := by
  simp only [Peer.recv, h, Prod.mk.injEq] at hrecv
  obtain ⟨rfl, rfl⟩ := hrecv
  exact ⟨rfl, rfl⟩

theorem prepare_of_request {op id : Int} (hid : IsInt32 id) (sql : GoString) (v : Desk)
    : v.prepare (int32At 4 (prepareRequest op id sql)) ((prepareRequest op id sql).drop 8)
        = v.prepare id (sqlText sql) := by
  rw [prepareRequest, int32At_add 0, int32At_zero, wrapInt32_eq hid.1 hid.2, ← List.append_assoc,
    List.drop_left' (by simp), List.append_nil]

theorem frame_readPrepared (id : Int) (sql : GoString)
    : ∃ cmd, Frame (Tr.readPrepared id sql : Prog Err (Tr SqlServer) _) cmd preparedReply := by
  constructor
  apply Tr.frame_readStatus_ok.mapErr.bind
  apply (Tr.frame_readBool false).mapErr.bind
  apply (Tr.frame_readBool false).mapErr.bind
  exact (Tr.frame_readInt32 (by decide) (by decide)).mapErr.bind_nil Frame.pure

theorem frame_readPreparedParams (id : Int) (sql : GoString)
    : ∃ cmd, Frame (Tr.readPreparedParams id sql : Prog Err (Tr SqlServer) _) cmd preparedParamsReply := by
  constructor
  apply Tr.frame_readStatus_ok.mapErr.bind
  apply (Tr.frame_readBool false).mapErr.bind
  apply (Tr.frame_readBool false).mapErr.bind
  apply (Tr.frame_readInt32 (x := 0) (by decide) (by decide)).mapErr.bind
  apply (Tr.frame_readInt32 (x := 0) (by decide) (by decide)).mapErr.bind_nil
  exact Frame.pure

theorem frame_readPending (pending : Bool)
    : Frame (Tr.readPending : Prog Err (Tr SqlServer) _) pending
        (intBytes 4 statusOK ++ intBytes 4 (if pending then 1 else 0)) := by
  apply Tr.frame_readStatus_ok.mapErr.bind
  cases pending with
  | true => exact (Tr.frame_readInt32 (x := 1) (by decide) (by decide)).mapErr.bind_nil Frame.pure
  | false => exact (Tr.frame_readInt32 (x := 0) (by decide) (by decide)).mapErr.bind_nil Frame.pure

theorem frame_readUpdateReply (d : SqlStore)
    : Frame (Tr.readUpdateReply : Prog Err (Tr SqlServer) _) (1, d.autoCommit) (updated d) := by
  apply Tr.frame_readStatus_ok.mapErr.bind
  apply (Tr.frame_readInt64 (by decide) (by decide)).mapErr.bind
  exact (Tr.frame_readBool d.autoCommit).mapErr.bind_nil Frame.pure

variable [GoStd]

section

variable (id : Int) (metas : List ParameterMeta) (params : List Value) (keys : GeneratedKeysMode)

theorem serve_updateRequest (v : Desk)
    : serve (updateRequest id metas params keys) v = update (updateRequest id metas params keys) v := by
  rw [updateRequest, updateHeader, List.append_assoc, serve_op ⟨by decide, by decide⟩, handle,
    if_neg (by decide), if_neg (by decide), if_pos rfl]

theorem id_of_updateRequest : int32At 4 (updateRequest id metas params keys) = wrapInt32 id := by
  rw [updateRequest, updateHeader, List.append_assoc, List.append_assoc, int32At_add 0, int32At_zero]

theorem count_of_updateRequest
    : int32At 8 (updateRequest id metas params keys) = wrapInt32 params.length := by
  rw [updateRequest, updateHeader, List.append_assoc, List.append_assoc, int32At_add 4, int32At_add 0,
    int32At_zero]

theorem mode_of_updateRequest : int32At 12 (updateRequest id metas [] keys) = wrapInt32 keys.mode := by
  rw [updateRequest, updateHeader, List.append_assoc, List.append_assoc, int32At_add 8, int32At_add 4,
    int32At_add 0]
  show int32At 0 (keysRequest keys) = _
  rw [keysRequest, int32At_zero]

end

theorem updated_of_serve {version id : Int} {metas : List ParameterMeta} {params : List Value}
    {keys : GeneratedKeysMode} (hid : IsInt32 id) (hlength : IsInt32 params.length)
    (hmode : KeysMode keys.mode) (p p' : SqlServer) (reply : List UInt8)
    (hrecv : Peer.recv p (updateRequest id metas params keys) = (p', reply))
    : Updated SqlServer simpleEngine version id keys.mode p.desk p'.desk reply := by
  have hrefused : ∀ {p' : SqlServer} {reply : List UInt8}, p'.desk = p.desk → reply = errorReply →
      Updated SqlServer simpleEngine version id keys.mode p.desk p'.desk reply := by
    rintro p' _ hdesk rfl
    obtain ⟨h, hframe⟩ := frame_errorReply
    exact .inr ⟨h, hframe, hdesk⟩
  simp only [Peer.recv, serve_updateRequest, update, id_of_updateRequest, count_of_updateRequest,
    wrapInt32_eq hid.1 hid.2, wrapInt32_eq hlength.1 hlength.2] at hrecv
  split at hrecv
  . next hplain =>
    have hnil : params = [] := List.eq_nil_of_length_eq_zero (by omega)
    subst hnil
    obtain ⟨hlow, hhigh⟩ := hmode
    rw [mode_of_updateRequest, wrapInt32_eq (by omega) (by omega)] at hplain
    split at hrecv
    . next text htext =>
      obtain ⟨rfl, rfl⟩ := Prod.mk.inj hrecv
      refine .inl ⟨1, updated (simpleEffect text p.desk.store), [], text, (List.append_nil _).symm,
        frame_readUpdateReply _, ?_, htext, rfl⟩
      rw [KeysReply, if_pos hplain.2]
    . obtain ⟨rfl, rfl⟩ := Prod.mk.inj hrecv
      exact hrefused rfl rfl
  . obtain ⟨rfl, rfl⟩ := Prod.mk.inj hrecv
    exact hrefused rfl rfl

theorem serves (version : Int) : Serves simpleEngine version desk where
  prepare id sql hid := by
    apply answers_of_serve
    intro v
    obtain ⟨cmd, hframe⟩ := frame_readPrepared id sql
    exact ⟨_, _, cmd, serve_op ⟨by decide, by decide⟩ _ v, hframe, prepare_of_request hid sql v⟩
  prepareReadParams id sql hid := by
    apply answers_of_serve
    intro v
    obtain ⟨cmd, hframe⟩ := frame_readPreparedParams id sql
    exact ⟨_, _, cmd, serve_op ⟨by decide, by decide⟩ _ v, hframe, prepare_of_request hid sql v⟩
  closeCommand id := view_of_serve (serve_op ⟨by decide, by decide⟩ _)
  query id resultID maxRows fetchSize metas params hfit p p' reply hrecv := by
    refine (view_of_serve (fun v => ?_) p p' reply hrecv).2
    rw [queryHeader, List.append_assoc]
    exact serve_op ⟨by decide, by decide⟩ _ v
  fetchRows id count p p' reply hrecv :=
    (view_of_serve (serve_op ⟨by decide, by decide⟩ _) p p' reply hrecv).2
  closeResult id p p' reply hrecv :=
    (view_of_serve (serve_op ⟨by decide, by decide⟩ _) p p' reply hrecv).2
  readLob id hmac offset p p' reply hrecv :=
    (view_of_serve (serve_op ⟨by decide, by decide⟩ _) p p' reply hrecv).2
  update id metas params keys hid _ hlength hmode := updated_of_serve hid hlength hmode
  setAutoCommit on := by
    apply answers_of_serve
    intro v
    refine ⟨_, _, (), serve_op ⟨by decide, by decide⟩ _ v, Tr.frame_readStatus_ok.mapErr, ?_⟩
    cases on <;> rfl
  commit := by
    apply answers_of_serve
    exact fun v => ⟨_, _, (), serve_op ⟨by decide, by decide⟩ _ v, Tr.frame_readStatus_ok.mapErr, rfl⟩
  hasPending := by
    apply answers_of_serve
    intro v
    refine ⟨v, _, decide (v.store.work ≠ []), serve_op ⟨by decide, by decide⟩ _ v, ?_, rfl, ?_⟩
    . have hframe := frame_readPending (decide (v.store.work ≠ []))
      simp only [decide_eq_true_eq] at hframe
      exact hframe
    . exact decide_eq_true_iff
  close p p' reply hrecv := by
    have hop : IsInt32 sessionClose := ⟨by decide, by decide⟩
    have hserve := serve_op hop [] p.desk
    rw [List.append_nil] at hserve
    simp only [Peer.recv, hserve] at hrecv
    obtain ⟨rfl, rfl⟩ := Prod.mk.inj hrecv
    rfl

end SqlServer

end H2Go
