import H2Go.Lib.Handles
import H2Go.Rows.Calm
import H2Go.Session.Atomic

/-!
This module contains the requests that a session sends, as seen by the server: which of them create,
use and destroy the commands and results of the session.
-/

namespace H2Go

open BigEndian

/--
A peer together with all requests it has got, the bytes of one flush each.
-/
structure Recorder (σ : Type) where
  peer : σ
  sent : List (List UInt8)

instance {σ : Type} [Peer σ] : Peer (Recorder σ) where
  recv r request :=
    ({ peer := (Peer.recv r.peer request).1, sent := r.sent ++ [request] },
      (Peer.recv r.peer request).2)

inductive Handle where
  | command (id : Int)
  | result (id : Int)
  deriving DecidableEq, Repr

def Handle.id : Handle → Int
  | command id => id
  | result id => id

/--
What a request does to the objects of the server. A request to prepare creates a command and a query
creates a result, whatever comes of it.
-/
def access (request : List UInt8) : Access Handle :=
  let op := int32At 0 request
  let id := int32At 4 request
  if op = sessionPrepare ∨ op = sessionPrepareReadParams2 then
    { uses := [], opens := [.command id], closes := [] }
  else if op = commandExecuteQuery then
    { uses := [.command id], opens := [.result (int32At 8 request)], closes := [] }
  else if op = commandExecuteUpdate then
    { uses := [.command id], opens := [], closes := [] }
  else if op = commandClose then
    { uses := [], opens := [], closes := [.command id] }
  else if op = resultFetchRows then
    { uses := [.result id], opens := [], closes := [] }
  else if op = resultClose then
    { uses := [], opens := [], closes := [.result id] }
  else
    .none

theorem wrapInt32_eq {x : Int} (h : -2 ^ 31 ≤ x) (h' : x < 2 ^ 31) : wrapInt32 x = x := by
  unfold wrapInt32
  omega

theorem int32At_zero (x : Int) (rest : List UInt8) : int32At 0 (intBytes 4 x ++ rest) = wrapInt32 x := by
  rw [int32At, List.drop_zero, List.take_left' (by simp), beInt_intBytes_wrap]

theorem int32At_add (i : Nat) (x : Int) (rest : List UInt8)
    : int32At (i + 4) (intBytes 4 x ++ rest) = int32At i rest := by
  rw [int32At, int32At, List.drop_append, List.drop_eq_nil_of_le (by simp), length_intBytes,
    Nat.add_sub_cancel, List.nil_append]

theorem access_prepare {op : Int} (hop : op = sessionPrepare ∨ op = sessionPrepareReadParams2) (id : Int)
    (rest : List UInt8)
    : access (intBytes 4 op ++ (intBytes 4 id ++ rest))
        = { uses := [], opens := [.command (wrapInt32 id)], closes := [] } := by
  simp only [access, int32At_zero, int32At_add 0]
  rw [if_pos (by rcases hop with rfl | rfl <;> decide)]

theorem access_update (id : Int) (rest : List UInt8)
    : access (intBytes 4 commandExecuteUpdate ++ (intBytes 4 id ++ rest))
        = { uses := [.command (wrapInt32 id)], opens := [], closes := [] } := by
  simp only [access, int32At_zero, int32At_add 0]
  rfl

theorem access_query (id resultID : Int) (rest : List UInt8)
    : access (intBytes 4 commandExecuteQuery ++ (intBytes 4 id ++ (intBytes 4 resultID ++ rest)))
        = { uses := [.command (wrapInt32 id)], opens := [.result (wrapInt32 resultID)], closes := [] } := by
  simp only [access, int32At_zero, int32At_add 0, int32At_add 4]
  rfl

theorem access_commandClose (id : Int)
    : access (commandCloseRequest id)
        = { uses := [], opens := [], closes := [.command (wrapInt32 id)] } := by
  simp only [access, commandCloseRequest, int32At_zero, int32At_add 0]
  rfl

theorem access_fetchRows (id fetch : Int)
    : access (fetchRowsRequest id fetch)
        = { uses := [.result (wrapInt32 id)], opens := [], closes := [] } := by
  simp only [access, fetchRowsRequest, int32At_zero, int32At_add 0]
  rfl

def resultCloseRequest (resultID : Int) : List UInt8 :=
  intBytes 4 resultClose ++ (intBytes 4 resultID ++ [])

theorem access_resultClose (id : Int)
    : access (resultCloseRequest id)
        = { uses := [], opens := [], closes := [.result (wrapInt32 id)] } := by
  simp only [access, resultCloseRequest, int32At_zero, int32At_add 0]
  rfl

theorem access_none {op : Int} (hop : op = sessionClose ∨ op = commandCommit ∨ op = sessionSetAutocommit
    ∨ op = sessionHasPendingTransaction ∨ op = lobRead) (rest : List UInt8)
    : access (intBytes 4 op ++ rest) = .none := by
  simp only [access, int32At_zero]
  rcases hop with rfl | rfl | rfl | rfl | rfl <;> rfl

variable {σ : Type} {α : Type}

def Tr.requests (t : Tr (Recorder σ)) : List (Access Handle) := t.peer.sent.map access

namespace Session

/--
The session has sent only disciplined requests. `hs` are the handles that the caller has to itself,
`ids` are numbers that no handle has, and `buf` is what stands in the write buffer. The counter has not
passed `n`.
-/
structure Buffering (n : Int) (ids : List Int) (hs : List Handle) (buf : List UInt8)
    (s : Session (Recorder σ)) : Prop where
  healthy : s.tr.writeBudget = none
  held : s.tr.held = buf
  holds : Access.Holds s.tr.requests hs
  opened : ∀ h ∈ Access.opened s.tr.requests, 0 < h.id ∧ h.id ≤ s.nextID
  reserved : ∀ id ∈ ids, 0 < id ∧ id ≤ s.nextID ∧ ∀ h ∈ Access.opened s.tr.requests, h.id ≠ id
  nextID : 0 ≤ s.nextID ∧ s.nextID ≤ n

abbrev Holding (n : Int) (hs : List Handle) (s : Session (Recorder σ)) : Prop := s.Buffering n [] hs []

namespace Buffering

variable {n : Int} {ids : List Int} {hs hs' : List Handle} {buf bs : List UInt8}
  {s : Session (Recorder σ)}

theorem durable (n : Int) (ids : List Int) (hs : List Handle) (buf : List UInt8)
    : Durable (fun s : Session (Recorder σ) => s.Buffering n ids hs buf) where
  abort h := ⟨h.healthy, h.held, h.holds, h.opened, h.reserved, h.nextID⟩
  setClock _ h := ⟨h.healthy, h.held, h.holds, h.opened, h.reserved, h.nextID⟩

theorem setAutoCommit (h : s.Buffering n ids hs buf) (autoCommit : Bool)
    : Buffering n ids hs buf { s with autoCommit := autoCommit } :=
  ⟨h.healthy, h.held, h.holds, h.opened, h.reserved, h.nextID⟩

theorem perm (h : s.Buffering n ids hs buf) (hperm : hs.Perm hs') : s.Buffering n ids hs' buf :=
  ⟨h.healthy, h.held, h.holds.perm hperm, h.opened, h.reserved, h.nextID⟩

theorem sublist (h : s.Buffering n ids hs buf) (hsub : hs'.Sublist hs) : s.Buffering n ids hs' buf :=
  ⟨h.healthy, h.held, h.holds.sublist hsub, h.opened, h.reserved, h.nextID⟩

theorem mono {n' : Int} (h : s.Buffering n ids hs buf) (hn : n ≤ n') : s.Buffering n' ids hs buf :=
  ⟨h.healthy, h.held, h.holds, h.opened, h.reserved, h.nextID.1, Int.le_trans h.nextID.2 hn⟩

theorem wrap_id (h : s.Buffering n ids hs buf) (hn : n < 2 ^ 31) {x : Handle} (hx : x ∈ hs)
    : wrapInt32 x.id = x.id := by
  have := h.opened x (h.holds.live x hx).1
  have := h.nextID
  exact wrapInt32_eq (by omega) (by omega)

theorem wrap_reserved (h : s.Buffering n ids hs buf) (hn : n < 2 ^ 31) {id : Int} (hid : id ∈ ids)
    : wrapInt32 id = id := by
  have := h.reserved id hid
  have := h.nextID
  exact wrapInt32_eq (by omega) (by omega)

theorem accept (h : s.Buffering n ids hs buf) (bs : List UInt8)
    : (s.setTr (s.tr.accept bs)).Buffering n ids hs (buf ++ bs) :=
  ⟨h.healthy, by rw [← h.held]; rfl, h.holds, h.opened, h.reserved, h.nextID⟩

theorem create (h : s.Buffering n ids hs buf) {uses : List Handle} (huses : ∀ x ∈ uses, x ∈ hs)
    {x : Handle} (hx : x.id ∈ ids)
    : Access.Holds (s.tr.requests ++ [{ uses, opens := [x], closes := [] }]) (x :: hs) :=
  h.holds.create huses (fun hmem => (h.reserved x.id hx).2.2 x hmem rfl)

variable [Peer σ]

theorem deliver (h : s.Buffering n ids hs buf)
    (hhs : Access.Holds (s.tr.requests ++ [access buf]) hs')
    (hids : ∀ x ∈ (access buf).opens, x.id ∈ ids)
    : (s.setTr s.tr.deliver).Holding n hs' := by
  have hrequests : s.tr.deliver.requests = s.tr.requests ++ [access buf] := by
    simp [Tr.requests, Tr.deliver, Peer.recv, h.held]
  refine ⟨h.healthy, rfl, by rw [setTr_tr, hrequests]; exact hhs, ?_, by simp, h.nextID⟩
  rw [setTr_tr, hrequests, Access.opened_concat]
  intro x hx
  rcases List.mem_append.mp hx with hx | hx
  . exact h.opened x hx
  . exact ⟨(h.reserved _ (hids x hx)).1, (h.reserved _ (hids x hx)).2.1⟩

end Buffering

variable {n : Int} {ids : List Int} {hs hs' : List Handle} {buf bs : List UInt8}

theorem triple_nextCommandID (hn : n + 1 < 2 ^ 31)
    : Triple True (Holding n hs) (nextCommandID : Prog Err (Session (Recorder σ)) Int)
        (fun id => Buffering (n + 1) [id] hs []) (fun _ _ => False) := by
  intro s hs
  have hnextID := hs.nextID
  have hfresh : s.freshID = s.nextID + 1 := wrapInt32_eq (by omega) (by omega)
  rw [nextCommandID_run, hfresh]
  refine ⟨hs.healthy, hs.held, hs.holds, ?_, ?_, ?_⟩
  . intro h hh
    have := hs.opened h hh
    dsimp only
    omega
  . intro id hid
    cases List.mem_singleton.mp hid
    refine ⟨by omega, Int.le_refl _, fun h hh => ?_⟩
    have := hs.opened h hh
    omega
  . dsimp only
    omega

theorem triple_write {m : Prog Err (Tr (Recorder σ)) α} {a : α} (hm : Tr.Writes m a bs)
    : Triple True (Buffering n ids hs buf) (io m) (fun _ => Buffering n ids hs (buf ++ bs))
        (fun _ _ => False) := by
  intro s hs
  cases hnil : s.trNil with
  | true => simp [io, hnil]
  | false =>
    rw [io_of_ok hnil (hm.ok (Tr.write_of_healthy hs.healthy bs))]
    exact hs.accept bs

variable [Peer σ]

theorem triple_send {m : Prog Err (Tr (Recorder σ)) Unit} (hm : Tr.Sends m bs)
    (hbuf : buf ++ bs ≠ [])
    (h : ∀ s : Session (Recorder σ), s.Buffering n ids hs (buf ++ bs) →
      Access.Holds (s.tr.requests ++ [access (buf ++ bs)]) hs' ∧
        ∀ x ∈ (access (buf ++ bs)).opens, x.id ∈ ids)
    : Triple True (Buffering n ids hs buf) (io m) (fun _ => Holding n hs') (fun _ _ => False) := by
  intro s hs
  cases hnil : s.trNil with
  | true => simp [io, hnil]
  | false =>
    have hrun : m s.tr = .ok () (s.tr.accept bs).deliver := by
      apply hm.ok
      rw [Prog.bind_run, Tr.write_of_healthy hs.healthy, Out.andThen_ok, Tr.flush]
      have hhealthy : (s.tr.accept bs).writeBudget = none := hs.healthy
      have hheld : (s.tr.accept bs).held ≠ [] := by
        rw [show (s.tr.accept bs).held = s.tr.held ++ bs from rfl, hs.held]
        exact hbuf
      rw [hhealthy, if_neg hheld]
    rw [io_of_ok hnil hrun]
    exact (hs.accept bs).deliver (h _ (hs.accept bs)).1 (h _ (hs.accept bs)).2

theorem triple_sendQuiet {m : Prog Err (Tr (Recorder σ)) Unit} (hm : Tr.Sends m bs) (hbs : bs ≠ [])
    (hquiet : access bs = .none)
    : Triple True (Holding n hs) (io m) (fun _ => Holding n hs) (fun _ _ => False) := by
  have hbuf : [] ++ bs ≠ [] := hbs
  apply triple_send hm hbuf
  intro s hs
  rw [List.nil_append, hquiet]
  exact ⟨hs.holds.skip, by simp [Access.none]⟩

theorem calm_holding (n : Int) (hs : List Handle)
    : Calm (fun s : Session (Recorder σ) => s.Holding n hs) where
  toDurable := Buffering.durable n [] hs []
  move _ _ h := ⟨h.healthy, h.held, h.holds, h.opened, h.reserved, h.nextID⟩
  lobRead s p offset := by
    intro t ht
    have hhealthy : t.writeBudget = none := ht.healthy
    have hquiet : access (lobReadRequest p.lobID p.hmac offset) = .none := access_none (by simp) _
    rw [(Tr.sends_sendLobRead p offset).of_healthy (Tr.lobReadRequest_ne_nil _ _ _) hhealthy]
    refine (ht.accept _).deliver ?_ ?_
    . rw [List.nil_append, hquiet]
      exact ht.holds.skip
    . rw [List.nil_append, hquiet]
      simp [Access.none]

end Session

end H2Go
