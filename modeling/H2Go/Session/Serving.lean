import H2Go.Session.Contract

/-!
This module contains what every call of the session does to the store of a server that keeps to its
contract: a call that succeeds has its effect, one that fails has none.
-/

namespace H2Go

open BigEndian

variable {σ : Type} {α β : Type}

/--
The commands `known` are prepared on the server, and their ids are not above `k`.
-/
def Desk.Knows (k : Int) (known : List (Int × List UInt8)) (v : Desk) : Prop :=
  ∀ c ∈ known, (0 ≤ c.1 ∧ c.1 ≤ k) ∧ v.commands.lookup c.1 = some c.2

namespace Desk.Knows

variable {k k' : Int} {known known' : List (Int × List UInt8)} {v v' : Desk}

theorem of_commands (h : v.Knows k known) (hcommands : v'.commands = v.commands)
    : v'.Knows k known := by
  unfold Knows
  rw [hcommands]
  exact h

theorem mono (h : v.Knows k known) (hk : k ≤ k') : v.Knows k' known :=
  fun c hc => ⟨⟨(h c hc).1.1, Int.le_trans (h c hc).1.2 hk⟩, (h c hc).2⟩

theorem subset (h : v.Knows k known) (hsub : known' ⊆ known) : v.Knows k known' :=
  fun c hc => h c (hsub hc)

theorem prepare (h : v.Knows k known) (hk : 0 ≤ k) (text : List UInt8)
    : (v.prepare (k + 1) text).Knows (k + 1) ((k + 1, text) :: known) := by
  intro c hc
  rcases List.mem_cons.mp hc with rfl | hc
  . exact ⟨⟨by omega, Int.le_refl _⟩, by simp [Desk.prepare]⟩
  . have hle := (h c hc).1
    refine ⟨⟨hle.1, by omega⟩, ?_⟩
    have hne : (c.1 == k + 1) = false := beq_false_of_ne (by omega)
    rw [Desk.prepare, List.lookup_cons, hne]
    exact (h c hc).2

end Desk.Knows

theorem Tr.send_of_healthy [Peer σ] {t : Tr σ} (h : t.writeBudget = none) {bs : List UInt8}
    (hheld : (t.accept bs).held ≠ [])
    : (Tr.write bs >>= fun _ => Tr.flush) t = .ok () (t.accept bs).deliver := by
  rw [Prog.bind_run, Tr.write_of_healthy h, Out.andThen_ok, Tr.flush]
  rw [show (t.accept bs).writeBudget = none from h, if_neg hheld]

theorem Tr.names_readPrepared (cmdID : Int) (sql : GoString)
    : Returns (readPrepared cmdID sql : Prog Err (Tr σ) _)
        (fun cmd => cmd.id = cmdID ∧ cmd.sql = sql) :=
  Returns.bind (fun _ => Returns.bind (fun _ => Returns.bind (fun _ => Returns.bind (fun _ =>
    Returns.pure ⟨rfl, rfl⟩))))

theorem Tr.names_readPreparedParams (cmdID : Int) (sql : GoString)
    : Returns (readPreparedParams cmdID sql : Prog Err (Tr σ) _)
        (fun cmd => cmd.id = cmdID ∧ cmd.sql = sql) :=
  Returns.bind (fun _ => Returns.bind (fun _ => Returns.bind (fun _ => Returns.bind (fun _ =>
    Returns.bind (fun _ => Returns.bind (fun _ => Returns.pure ⟨rfl, rfl⟩))))))

namespace Session

/--
The session is open and healthy, with the desk `v` on the other side.
-/
structure At (view : σ → Desk) (version k : Int) (on : Bool) (v : Desk) (inp buf : List UInt8)
    (s : Session σ) : Prop where
  trOpen : s.trNil = false
  healthy : s.tr.writeBudget = none
  inp : s.tr.inp = inp
  held : s.tr.held = buf
  autoCommit : s.autoCommit = on
  version : s.version = version
  nextID : s.nextID = k
  desk : view s.tr.peer = v

/--
The session has the store `d` on the other side, and the commands `known` are prepared there. `buf` is
what stands in the write buffer. The counter has not passed `n`.
-/
structure Mirrors (view : σ → Desk) (version n : Int) (known : List (Int × List UInt8)) (d : SqlStore)
    (buf : List UInt8) (s : Session σ) : Prop where
  healthy : s.tr.writeBudget = none
  held : s.tr.held = buf
  nextID : 0 ≤ s.nextID ∧ s.nextID ≤ n
  knows : (view s.tr.peer).Knows s.nextID known
  store : (view s.tr.peer).store = d
  autoCommit : s.autoCommit = d.autoCommit
  version : s.version = version

structure Knowing (view : σ → Desk) (version n : Int) (known : List (Int × List UInt8)) (d : SqlStore)
    (s : Session σ) : Prop extends Mirrors view version n known d [] s where
  aligned : s.trNil = false → s.tr.inp = []

variable {view : σ → Desk} {version n n' k : Int} {known known' : List (Int × List UInt8)}
  {d d' : SqlStore} {on : Bool} {v v' : Desk} {inp buf bs : List UInt8} {s : Session σ}

namespace Mirrors

theorem durable (view : σ → Desk) (version n : Int) (known : List (Int × List UInt8)) (d : SqlStore)
    (buf : List UInt8)
    : Durable (fun s : Session σ => s.Mirrors view version n known d buf) where
  abort h := ⟨h.healthy, h.held, h.nextID, h.knows, h.store, h.autoCommit, h.version⟩
  setClock _ h := ⟨h.healthy, h.held, h.nextID, h.knows, h.store, h.autoCommit, h.version⟩

theorem mono (h : s.Mirrors view version n known d buf) (hn : n ≤ n') : s.Mirrors view version n' known d buf :=
  ⟨h.healthy, h.held, ⟨h.nextID.1, Int.le_trans h.nextID.2 hn⟩, h.knows, h.store, h.autoCommit, h.version⟩

theorem subset (h : s.Mirrors view version n known d buf) (hsub : known' ⊆ known)
    : s.Mirrors view version n known' d buf :=
  ⟨h.healthy, h.held, h.nextID, h.knows.subset hsub, h.store, h.autoCommit, h.version⟩

end Mirrors

namespace Knowing

theorem durable (view : σ → Desk) (version n : Int) (known : List (Int × List UInt8)) (d : SqlStore)
    : Durable (fun s : Session σ => s.Knowing view version n known d) where
  abort h := ⟨(Mirrors.durable _ _ _ _ _ _).abort h.toMirrors, fun hopen => by cases hopen⟩
  setClock now h := ⟨(Mirrors.durable _ _ _ _ _ _).setClock now h.toMirrors, h.aligned⟩

theorem mono (h : s.Knowing view version n known d) (hn : n ≤ n') : s.Knowing view version n' known d :=
  ⟨h.toMirrors.mono hn, h.aligned⟩

theorem subset (h : s.Knowing view version n known d) (hsub : known' ⊆ known)
    : s.Knowing view version n known' d :=
  ⟨h.toMirrors.subset hsub, h.aligned⟩

theorem at_open (h : s.Knowing view version n known d) (hopen : s.trNil = false)
    : s.At view version s.nextID d.autoCommit (view s.tr.peer) [] [] :=
  ⟨hopen, h.healthy, h.aligned hopen, h.held, h.autoCommit, h.version, rfl, rfl⟩

end Knowing

namespace At

theorem move (h : s.At view version k on v inp buf) (used rest : List UInt8)
    : (s.setTr (Input.move used rest s.tr)).At view version k on v rest buf :=
  ⟨h.trOpen, h.healthy, rfl, h.held, h.autoCommit, h.version, h.nextID, h.desk⟩

theorem knowing (h : s.At view version k v.store.autoCommit v [] []) (hk : 0 ≤ k ∧ k ≤ n)
    (hknows : v.Knows k known)
    : s.Knowing view version n known v.store := by
  refine ⟨⟨h.healthy, h.held, ?_, ?_, ?_, h.autoCommit, h.version⟩, fun _ => h.inp⟩
  . rw [h.nextID]
    exact hk
  . rw [h.nextID, h.desk]
    exact hknows
  . rw [h.desk]

end At

theorem at_write {m : Prog Err (Tr σ) α} {a : α} (hm : Tr.Writes m a bs)
    : Triple True (At view version k on v inp buf) (io m)
        (fun _ => At view version k on v inp (buf ++ bs)) (fun _ _ => False) := by
  intro s hs
  have hheld : (s.tr.accept bs).held = buf ++ bs := by
    rw [← hs.held]
    rfl
  rw [io_of_ok hs.trOpen (hm.ok (Tr.write_of_healthy hs.healthy bs))]
  exact ⟨hs.trOpen, hs.healthy, hs.inp, hheld, hs.autoCommit, hs.version, hs.nextID, hs.desk⟩

theorem at_reply {m : Prog Err (Tr σ) α} (hm : StatusReader m) {R : α → Desk → Desk → Prop}
    : Triple True
        (fun s => ∃ v' reply, Replies m R v v' reply ∧ s.At view version k on v' reply []) (io m)
        (fun a s => ∃ v', R a v v' ∧ s.At view version k on v' [] [])
        (fun _ => At view version k on v [] []) := by
  rintro s ⟨v', reply, hreply, hs⟩
  have hinp : s.tr.inp = reply ++ [] := by rw [hs.inp, List.append_nil]
  rcases hreply with ⟨a, hframe, hr⟩ | ⟨h, herror, rfl⟩
  . rw [io_of_ok hs.trOpen (hframe.exact s.tr [] hinp)]
    exact ⟨v', hr, hs.move reply []⟩
  . rw [io_of_fail hs.trOpen (hm.error herror hinp)]
    exact hs.move reply []

variable [Peer σ]

theorem at_send {m : Prog Err (Tr σ) Unit} (hm : Tr.Sends m bs) (hbuf : buf ++ bs ≠ [])
    {R : Desk → List UInt8 → Prop}
    (h : ∀ p p' reply, Peer.recv p (buf ++ bs) = (p', reply) → view p = v → R (view p') reply)
    : Triple True (At view version k on v [] buf) (io m)
        (fun _ s => ∃ v' reply, R v' reply ∧ s.At view version k on v' reply []) (fun _ _ => False) := by
  intro s hs
  have hheld : (s.tr.accept bs).held = buf ++ bs := by
    rw [← hs.held]
    rfl
  have hinp : (s.tr.accept bs).inp = [] := hs.inp
  rw [io_of_ok hs.trOpen (hm.ok (Tr.send_of_healthy hs.healthy (by rwa [hheld])))]
  refine ⟨_, _, h s.tr.peer _ _ rfl hs.desk,
    ⟨hs.trOpen, hs.healthy, ?_, rfl, hs.autoCommit, hs.version, hs.nextID, ?_⟩⟩
  . simp [Tr.deliver, hheld, hinp]
    rfl
  . simp [Tr.deliver, hheld]
    rfl

theorem at_ask {send : Prog Err (Tr σ) Unit} (hsend : Tr.Sends send bs) (hbs : bs ≠ [])
    {read : Prog Err (Tr σ) α} {R : α → Desk → Desk → Prop} (hanswers : Answers view read R bs)
    : Triple True (At view version k on v [] []) (io send)
        (fun _ s => ∃ v' reply, Replies read R v v' reply ∧ s.At view version k on v' reply [])
        (fun _ _ => False) := by
  have hne : [] ++ bs ≠ [] := hbs
  apply at_send hsend hne
  rintro p p' reply hrecv rfl
  exact hanswers p p' reply hrecv

omit [Peer σ] in
theorem knowing_ifOpen {err : Err} {m : Prog Err (Session σ) α} {Q : α → Session σ → Prop}
    {E : Err → Session σ → Prop} (herr : ∀ s, s.Knowing view version n known d → E err s)
    (h : ∀ k v, 0 ≤ k ∧ k ≤ n → v.Knows k known → v.store = d →
      Triple True (At view version k d.autoCommit v [] []) m Q E)
    : Triple True (Knowing view version n known d) (ifOpen err m) Q E := by
  intro s hs
  cases hnil : s.trNil with
  | true =>
    rw [ifOpen_of_trNil hnil]
    exact herr s hs
  | false =>
    rw [ifOpen_of_open hnil]
    exact h s.nextID _ hs.nextID hs.knows hs.store s (hs.at_open hnil)

theorem knowing_request (ctx : Ctx) (err : Err) {send : Prog Err (Tr σ) Unit} (hsend : Tr.Sends send bs)
    (hbs : bs ≠ []) {read : Prog Err (Tr σ) α} {R : α → Desk → Desk → Prop}
    (hanswers : Answers view read R bs) {reply : Prog Err (Session σ) β} {Q : β → Session σ → Prop}
    (hQ : ∀ {b} {s : Session σ} (now : Nat), Q b s → Q b { s with clock := now })
    (hreply : ∀ k v, 0 ≤ k ∧ k ≤ n → v.Knows k known → v.store = d →
      Triple True (fun s => ∃ v' r, Replies read R v v' r ∧ s.At view version k d.autoCommit v' r [])
        reply Q (fun _ => At view version k d.autoCommit v [] []))
    : Triple True (Knowing view version n known d)
        (ifOpen err (withContext ctx do
          checkContext ctx
          io send
          reply)) Q (fun _ => Knowing view version n known d) := by
  apply knowing_ifOpen (fun _ hs => hs)
  rintro k v hk hknows rfl
  apply Durable.triple_withContext hQ (Knowing.durable _ _ _ _ _)
  refine Triple.weaken (P := At view version k v.store.autoCommit v [] []) (Q := Q)
    (E := fun _ => At view version k v.store.autoCommit v [] []) ?_ (fun _ hs => hs) (fun _ _ hs => hs)
    (fun _ _ hs => hs.knowing hk hknows)
  apply Triple.bind (Quiet.checkContext ctx)
  intro _
  exact Triple.bind (at_ask hsend hbs hanswers).of_succeeds (fun _ => hreply k v hk hknows rfl)

omit [Peer σ] in
theorem at_nextCommandID (hk : 0 ≤ k) (hk' : k + 1 < 2 ^ 31)
    : Triple True (At view version k on v inp buf) nextCommandID
        (fun id s => id = k + 1 ∧ s.At view version (k + 1) on v inp buf) (fun _ _ => False) := by
  intro s hs
  have hfresh : s.freshID = k + 1 := by
    rw [freshID, hs.nextID]
    exact wrapInt32_eq (by omega) hk'
  rw [nextCommandID_run, hfresh]
  exact ⟨rfl, hs.trOpen, hs.healthy, hs.inp, hs.held, hs.autoCommit, hs.version, rfl, hs.desk⟩

theorem knowing_prepare (ctx : Ctx) (err : Err) {op : Int} {sql : GoString}
    {send : Int → Prog Err (Tr σ) Unit} {read : Int → Prog Err (Tr σ) PreparedCommand}
    (hsend : ∀ id, Tr.Sends (send id) (prepareRequest op id sql)) (hread : ∀ id, StatusReader (read id))
    (hreturns : ∀ id, Returns (read id) (fun cmd => cmd.id = id ∧ cmd.sql = sql))
    (hanswers : ∀ id, IsInt32 id → Answers view (read id)
      (fun _ v v' => v' = v.prepare id (sqlText sql)) (prepareRequest op id sql)) (hn : n + 1 < 2 ^ 31)
    : Triple True (Knowing view version n known d)
        (ifOpen err (withContext ctx do
          let cmdID ← nextCommandID
          io (send cmdID)
          io (read cmdID)))
        (fun cmd s => cmd.sql = sql ∧ s.Knowing view version (n + 1) ((cmd.id, sqlText sql) :: known) d)
        (fun _ => Knowing view version (n + 1) known d) := by
  apply knowing_ifOpen (fun _ hs => hs.mono (by omega))
  rintro k v hk hknows rfl
  apply Durable.triple_withContext _ (Knowing.durable _ _ _ _ _)
  . apply Triple.bind (at_nextCommandID hk.1 (by omega)).of_succeeds
    intro id
    apply Triple.assume (fun _ hs => hs.1)
    rintro rfl
    apply Triple.pre (P := At view version (k + 1) v.store.autoCommit v [] []) _ (fun _ hs => hs.2)
    have hne : prepareRequest op (k + 1) sql ≠ [] :=
      List.ne_nil_of_length_pos (by simp [prepareRequest])
    have hasked := (hanswers (k + 1) ⟨by omega, by omega⟩).returns (hreturns (k + 1))
    apply Triple.bind (at_ask (hsend _) hne hasked).of_succeeds
    intro _
    apply (at_reply (hread _)).weaken (fun _ hs => hs)
    . rintro cmd s ⟨_, ⟨⟨hid, hsql⟩, rfl⟩, hs⟩
      rw [hid]
      exact ⟨hsql, At.knowing (v := v.prepare (k + 1) (sqlText sql)) hs (by omega)
        (hknows.prepare hk.1 _)⟩
    . exact fun _ s hs => hs.knowing (by omega) (hknows.mono (by omega))
  . exact fun now hs => ⟨hs.1, (Knowing.durable _ _ _ _ _).setClock now hs.2⟩

omit [Peer σ] in
theorem keysMode_resolveGeneratedKeys (ctx : Ctx) (s : Session σ)
    : KeysMode (s.resolveGeneratedKeys ctx).mode := by
  have hconfigured : KeysMode s.configuredGeneratedKeys.mode := by
    have hmode : KeysMode s.generatedKeysMode := by
      unfold generatedKeysMode
      split
      . decide
      . split
        . decide
        . split
          . next h => rcases h with h | h | h | h <;> rw [h] <;> decide
          . decide
    unfold configuredGeneratedKeys
    dsimp only
    split
    . exact hmode
    . split
      . exact hmode
      . exact hmode
  unfold resolveGeneratedKeys
  split
  . exact hconfigured
  . split
    . next h => rcases h with h | h <;> rw [h] <;> decide
    . split
      . next h => exact h ▸ (by decide : KeysMode generatedKeysColumnNumbers)
      . split
        . next h => exact h ▸ (by decide : KeysMode generatedKeysColumnNames)
        . exact hconfigured

theorem at_readKeysForUpdate [GoStd] {mode : Int} (hkeys : KeysReply σ version mode inp)
    : Triple True (At view version k on v inp []) (readKeysForUpdate mode)
        (fun _ => At view version k on v [] []) (fun _ _ => False) := by
  intro s hs
  unfold KeysReply at hkeys
  unfold readKeysForUpdate
  split
  . next hmode =>
    rw [if_pos hmode] at hkeys
    rw [hkeys] at hs
    exact hs
  . next hmode =>
    rw [if_neg hmode] at hkeys
    obtain ⟨columns, rows, haccepted, hplaceholders⟩ := hkeys
    rw [← hs.version] at haccepted
    have hinp : s.tr.inp = inp ++ [] := by rw [hs.inp, List.append_nil]
    have hlobs : Tr.DeliversAll (placeholders (batchValues 0 rows)) (Input.move inp [] s.tr) []
        (Input.move inp [] s.tr) := by
      rw [hplaceholders]
      exact .nil _
    have hsends : Tr.SendsKeys s.version s.tr _ (Input.move inp [] s.tr) := .mk hinp haccepted hlobs
    have hread := (readGeneratedKeys_ok_iff hs.trOpen).mpr ⟨_, _, hsends, rfl, rfl⟩
    generalize hid : GeneratedKeysResult.singleInt64 _ = id at hread
    rw [Prog.bind_of_ok (Prog.attempt_of_ok hread)]
    cases id with
    | ok id => exact hs.move inp []
    | error err =>
      dsimp only
      rw [isLastInsertIDUnavailable_of_singleInt64 hid]
      exact hs.move inp []

omit [Peer σ] in
theorem mirrors_mono {P : Session σ → Prop} {m : Prog Err (Session σ) α}
    (h : Triple True P m (fun _ => Mirrors view version n known d []) (fun _ => Mirrors view version n known d []))
    (hn : n ≤ n')
    : Triple True P m (fun _ => Mirrors view version n' known d []) (fun _ => Mirrors view version n' known d []) :=
  h.weaken (fun _ hs => hs) (fun _ _ hs => hs.mono hn) (fun _ _ hs => hs.mono hn)

omit [Peer σ] in
theorem mirrors_nextCommandID (hn : n + 1 < 2 ^ 31)
    : Triple True (Mirrors view version n known d []) nextCommandID (fun _ => Mirrors view version (n + 1) known d [])
        (fun _ _ => False) := by
  intro s hs
  have hnextID := hs.nextID
  have hfresh : s.freshID = s.nextID + 1 := wrapInt32_eq (by omega) (by omega)
  rw [nextCommandID_run, hfresh]
  refine ⟨hs.healthy, hs.held, ?_, hs.knows.mono ?_, hs.store, hs.autoCommit, hs.version⟩
  . dsimp only
    omega
  . dsimp only
    omega

omit [Peer σ] in
theorem mirrors_write {m : Prog Err (Tr σ) α} {a : α} (hm : Tr.Writes m a bs)
    : Triple True (Mirrors view version n known d buf) (io m) (fun _ => Mirrors view version n known d (buf ++ bs))
        (fun _ _ => False) := by
  intro s hs
  cases hnil : s.trNil with
  | true => simp [io, hnil]
  | false =>
    have hheld : (s.tr.accept bs).held = buf ++ bs := by
      rw [← hs.held]
      rfl
    rw [io_of_ok hnil (hm.ok (Tr.write_of_healthy hs.healthy bs))]
    exact ⟨hs.healthy, hheld, hs.nextID, hs.knows, hs.store, hs.autoCommit, hs.version⟩

/--
A request that does to the store what leads from `d` to `d'`, whatever it is answered with.
-/
theorem mirrors_send {m : Prog Err (Tr σ) Unit} (hm : Tr.Sends m bs) (hbuf : buf ++ bs ≠ [])
    (hon : d'.autoCommit = d.autoCommit)
    (h : ∀ p p' reply, Peer.recv p (buf ++ bs) = (p', reply) → (view p).store = d →
      view p' = (view p).setStore d')
    : Triple True (Mirrors view version n known d buf) (io m) (fun _ => Mirrors view version n known d' [])
        (fun _ _ => False) := by
  intro s hs
  cases hnil : s.trNil with
  | true => simp [io, hnil]
  | false =>
    have hheld : (s.tr.accept bs).held = buf ++ bs := by
      rw [← hs.held]
      rfl
    have hdesk : view (s.tr.accept bs).deliver.peer = (view s.tr.peer).setStore d' := by
      rw [Tr.deliver, hheld]
      exact h _ _ _ rfl hs.store
    rw [io_of_ok hnil (hm.ok (Tr.send_of_healthy hs.healthy (by rwa [hheld])))]
    refine ⟨hs.healthy, rfl, hs.nextID, ?_, ?_, hs.autoCommit.trans hon.symm, hs.version⟩
    . rw [setTr_tr, hdesk]
      exact hs.knows.of_commands rfl
    . rw [setTr_tr, hdesk]
      rfl

theorem mirrors_sendQuiet {m : Prog Err (Tr σ) Unit} (hm : Tr.Sends m bs) (hbuf : buf ++ bs ≠ [])
    (h : ∀ p p' reply, Peer.recv p (buf ++ bs) = (p', reply) → view p' = view p)
    : Triple True (Mirrors view version n known d buf) (io m) (fun _ => Mirrors view version n known d [])
        (fun _ _ => False) := by
  apply mirrors_send hm hbuf rfl
  rintro p p' reply hrecv rfl
  exact h p p' reply hrecv

omit [Peer σ] in
theorem mirrors_move {used rest : List UInt8} (h : s.Mirrors view version n known d buf)
    : (s.setTr (Input.move used rest s.tr)).Mirrors view version n known d buf :=
  ⟨h.healthy, h.held, h.nextID, h.knows, h.store, h.autoCommit, h.version⟩

omit [Peer σ] in
theorem mirrors_read (m : Prog Err (Tr σ) α) [LawfulReader m]
    : Keeps (Mirrors view version n known d buf) (io m) := by
  apply Calm.keeps_io
  intro s t ht
  refine (Tr.onlyReads m t).imp ?_ ?_
  . rintro _ _ ⟨used, rest, rfl⟩
    exact mirrors_move (s := s.setTr t) ht
  . rintro _ _ ⟨used, rest, rfl⟩
    exact mirrors_move (s := s.setTr t) ht

theorem mirrors_flush
    : Triple True (Mirrors view version n known d []) (io Tr.flush) (fun _ => Mirrors view version n known d [])
        (fun _ _ => False) := by
  intro s hs
  cases hnil : s.trNil with
  | true => simp [io, hnil]
  | false =>
    have hrun : Tr.flush s.tr = .ok () s.tr := by
      unfold Tr.flush
      rw [hs.healthy, if_pos hs.held]
    rw [io_of_ok hnil hrun]
    exact hs

section

variable [GoStd] {engine : Engine} (hserves : Serves engine version view)

include hserves

theorem knowing_setAutoCommit (ctx : Ctx) (on : Bool)
    : Triple True (Knowing view version n known d) (setAutoCommit ctx on)
        (fun _ => Knowing view version n known (d.setAutoCommit on))
        (fun _ => Knowing view version n known d) := by
  apply knowing_request ctx _ (Tr.sends_sendAutoCommit on) (List.ne_nil_of_length_pos (by simp))
    (hserves.setAutoCommit on) (Knowing.durable _ _ _ _ _).setClock
  rintro k v hk hknows rfl
  apply Triple.bind (at_reply (StatusReader.readStatus _))
  intro _
  apply Triple.modify
  rintro s ⟨_, rfl, hs⟩
  have hon : (v.setStore (v.store.setAutoCommit on)).store.autoCommit = on :=
    Store.autoCommit_setAutoCommit on v.store
  have hs' : At view version k (v.setStore (v.store.setAutoCommit on)).store.autoCommit
      (v.setStore (v.store.setAutoCommit on)) [] [] { s with autoCommit := on } :=
    ⟨hs.trOpen, hs.healthy, hs.inp, hs.held, hon.symm, hs.version, hs.nextID, hs.desk⟩
  exact hs'.knowing hk (hknows.of_commands rfl)

theorem knowing_commitCurrentTransaction (ctx : Ctx)
    : Triple True (Knowing view version n known d) (commitCurrentTransaction ctx)
        (fun _ => Knowing view version n known d.commit)
        (fun _ => Knowing view version n known d) := by
  apply knowing_request ctx _ (Tr.sends_sendOp _ _) (List.ne_nil_of_length_pos (by simp))
    hserves.commit (Knowing.durable _ _ _ _ _).setClock
  rintro k v hk hknows rfl
  apply (at_reply (StatusReader.readStatus _)).post
  rintro _ s ⟨_, rfl, hs⟩
  exact At.knowing (v := v.setStore v.store.commit) hs hk (hknows.of_commands rfl)

theorem knowing_hasPendingTransaction (ctx : Ctx)
    : Triple True (Knowing view version n known d) (hasPendingTransaction ctx)
        (fun pending s => (pending = true ↔ d.work ≠ []) ∧ s.Knowing view version n known d)
        (fun _ => Knowing view version n known d) := by
  apply knowing_request ctx _ (Tr.sends_sendOp _ _) (List.ne_nil_of_length_pos (by simp))
    hserves.hasPending
  . exact fun now hs => ⟨hs.1, (Knowing.durable _ _ _ _ _).setClock now hs.2⟩
  rintro k v hk hknows rfl
  apply (at_reply StatusReader.readPending).post
  rintro pending s ⟨_, ⟨rfl, hpending⟩, hs⟩
  exact ⟨hpending, hs.knowing hk hknows⟩

theorem knowing_prepareCommand (ctx : Ctx) (sql : GoString) (hn : n + 1 < 2 ^ 31)
    : Triple True (Knowing view version n known d) (prepareCommand ctx sql)
        (fun cmd s => cmd.sql = sql ∧ s.Knowing view version (n + 1) ((cmd.id, sqlText sql) :: known) d)
        (fun _ => Knowing view version (n + 1) known d) :=
  knowing_prepare ctx _ (fun id => Tr.sends_sendPrepare _ _ id sql)
    (fun id => StatusReader.readPrepared id sql) (fun id => Tr.names_readPrepared id sql)
    (fun id => hserves.prepare id sql) hn

theorem knowing_prepareCommandReadParams (ctx : Ctx) (sql : GoString) (hn : n + 1 < 2 ^ 31)
    : Triple True (Knowing view version n known d) (prepareCommandReadParams ctx sql)
        (fun cmd s => cmd.sql = sql ∧ s.Knowing view version (n + 1) ((cmd.id, sqlText sql) :: known) d)
        (fun _ => Knowing view version (n + 1) known d) :=
  knowing_prepare ctx _ (fun id => Tr.sends_sendPrepare _ _ id sql)
    (fun id => StatusReader.readPreparedParams id sql)
    (fun id => Tr.names_readPreparedParams id sql) (fun id => hserves.prepareReadParams id sql) hn

theorem knowing_prepareAccepted (ctx : Ctx) (sql : GoString) (params : List Value) (hn : n + 1 < 2 ^ 31)
    : Triple True (fun s => s.Knowing view version n known d ∧ s.Accepts ctx sql params)
        (prepareCommandReadParams ctx sql)
        (fun cmd s => Tr.AllFit cmd.params 0 params ∧
          s.Knowing view version (n + 1) ((cmd.id, sqlText sql) :: known) d)
        (fun _ => Knowing view version (n + 1) known d) := by
  rintro s ⟨hs, haccepts⟩
  have hprepare := knowing_prepareCommandReadParams hserves ctx sql hn s hs
  cases hrun : prepareCommandReadParams ctx sql s with
  | ok cmd s' =>
    rw [hrun] at hprepare
    exact ⟨haccepts cmd s' hrun, hprepare.2⟩
  | fail =>
    rw [hrun] at hprepare
    exact hprepare
  | panic | stuck => trivial

theorem knowing_closeCommand (cmd : PreparedCommand)
    : Triple True (Knowing view version n known d) (closeCommand cmd)
        (fun _ => Knowing view version n known d) (fun _ _ => False) := by
  apply Triple.get_bind
  intro s hs
  apply Triple.ite
  . exact fun _ => Triple.pure (by rintro _ rfl; exact hs)
  . intro hopen
    have hclose : ∀ p p' reply, Peer.recv p ([] ++ commandCloseRequest cmd.id) = (p', reply) →
        view p = view s.tr.peer → reply = [] ∧ view p' = view s.tr.peer := by
      intro p p' reply hrecv hview
      rw [← hview]
      exact hserves.closeCommand cmd.id p p' reply hrecv
    have hne : [] ++ commandCloseRequest cmd.id ≠ [] :=
      List.ne_nil_of_length_pos (by simp [commandCloseRequest])
    have hsend : Triple True (At view version s.nextID d.autoCommit (view s.tr.peer) [] [])
        (io (Tr.sendCommandClose "PreparedCommand.Close" cmd.id)) _ (fun _ _ => False) :=
      at_send (R := fun v' reply => reply = [] ∧ v' = view s.tr.peer)
        (Tr.sends_sendCommandClose _ cmd.id) hne hclose
    apply hsend.weaken _ _ (fun _ _ he => he)
    . rintro _ rfl
      exact hs.at_open (by simpa using hopen)
    . rintro _ t ⟨_, _, ⟨rfl, rfl⟩, ht⟩
      rw [← hs.store] at ht ⊢
      exact ht.knowing hs.nextID hs.knows

theorem knowing_executeUpdatePreparedWithParams (ctx : Ctx) {cmd : PreparedCommand}
    {params : List Value} (hfit : Tr.AllFit cmd.params 0 params) (hlength : IsInt32 params.length)
    {text : List UInt8} (hknown : (cmd.id, text) ∈ known) (hn : n < 2 ^ 31)
    : Triple True (Knowing view version n known d) (executeUpdatePreparedWithParams ctx cmd params)
        (fun _ => Knowing view version n known (engine.effect text d))
        (fun _ => Knowing view version n known d) := by
  apply knowing_ifOpen (fun _ hs => hs)
  rintro k v hk hknows rfl
  have hrefuse : ∀ {α : Type} (err : Err), Triple True (At view version k v.store.autoCommit v [] [])
      (Prog.throw err : Prog Err (Session σ) α)
      (fun _ => Knowing view version n known (engine.effect text v.store))
      (fun _ => Knowing view version n known v.store) :=
    fun _ => Triple.throw (fun _ hs => hs.knowing hk hknows)
  have hcommand := hknows _ hknown
  apply Triple.ite (fun _ => hrefuse _)
  intro _
  apply Durable.triple_withContext (Knowing.durable _ _ _ _ _).setClock (Knowing.durable _ _ _ _ _)
  apply Triple.ite (fun _ => hrefuse _)
  intro _
  apply Triple.bind (at_write (writes_writeUpdateHeader _ _)).of_succeeds
  intro _
  apply Triple.bind (at_write (Tr.writes_writeParams _ hfit)).of_succeeds
  intro _
  apply Triple.get_then
  intro s0
  have hmode := keysMode_resolveGeneratedKeys ctx s0
  apply Triple.bind (at_write (Tr.writes_writeGeneratedKeysMode _)).of_succeeds
  intro _
  apply Triple.bind (R := fun _ s => ∃ v' reply,
    Updated σ engine version cmd.id (s0.resolveGeneratedKeys ctx).mode v v' reply ∧
      s.At view version k v.store.autoCommit v' reply [])
  . have hflush := (Tr.Sends.bare_flush (σ := σ)).mapErr
      (fun _ => Err.plain_wrapError "ExecuteUpdatePreparedWithParams")
    apply Triple.of_succeeds (at_send hflush _ _)
    . exact List.ne_nil_of_length_pos (by simp [updateHeader])
    . intro p p' reply hrecv hview
      simp only [List.nil_append, List.append_nil, List.append_assoc] at hrecv
      rw [← hview]
      exact hserves.update cmd.id cmd.params params _ ⟨by omega, by omega⟩ hfit hlength hmode p p' reply
        hrecv
  . intro _
    apply Triple.bind (R := fun r s => ∃ tail,
      KeysReply σ version (s0.resolveGeneratedKeys ctx).mode tail ∧
      r.2 = (engine.effect text v.store).autoCommit ∧
      s.At view version k v.store.autoCommit (v.setStore (engine.effect text v.store)) tail [])
    . rintro s ⟨v', reply, hupdated, hs⟩
      rcases hupdated with ⟨count, head, tail, text', rfl, hhead, htail, htext, rfl⟩ | ⟨h, herror, rfl⟩
      . rw [hcommand.2] at htext
        cases htext
        rw [io_of_ok hs.trOpen (hhead.exact s.tr tail hs.inp)]
        exact ⟨tail, htail, rfl, hs.move head tail⟩
      . have hinp : s.tr.inp = reply ++ [] := by rw [hs.inp, List.append_nil]
        rw [io_of_fail hs.trOpen (StatusReader.readUpdateReply.error herror hinp)]
        exact (hs.move reply []).knowing hk hknows
    . rintro ⟨count, on⟩ s ⟨tail, hkeys, hon, hs⟩
      refine Triple.bind (at_readKeysForUpdate hkeys).of_succeeds (fun r => ?_) s hs
      apply Triple.bind (R := fun _ => Knowing view version n known (engine.effect text v.store))
      . apply Triple.modify
        intro s hs
        have hs' : At view version k (engine.effect text v.store).autoCommit
            (v.setStore (engine.effect text v.store)) [] [] { s with autoCommit := on } :=
          ⟨hs.trOpen, hs.healthy, hs.inp, hs.held, hon, hs.version, hs.nextID, hs.desk⟩
        exact At.knowing (v := v.setStore _) hs' hk (hknows.of_commands rfl)
      . exact fun _ => Triple.pure (fun _ hs => hs)

theorem knowing_executeAndClose (ctx : Ctx) {cmd : PreparedCommand} {params : List Value}
    (hfit : Tr.AllFit cmd.params 0 params) (hlength : IsInt32 params.length) (text : List UInt8)
    (hn : n < 2 ^ 31)
    : Triple True (Knowing view version n ((cmd.id, text) :: known) d) (executeAndClose ctx cmd params)
        (fun _ => Knowing view version n known (engine.effect text d))
        (fun _ => Knowing view version n known d) := by
  have hclose : ∀ d, Triple True (Knowing view version n ((cmd.id, text) :: known) d)
      (Prog.attempt (closeCommand cmd) : Prog Err (Session σ) _)
      (fun _ => Knowing view version n known d) (fun _ _ => False) := by
    intro d
    apply Triple.tried
    exact ((knowing_closeCommand hserves cmd).post
      (fun _ _ hs => hs.subset (List.subset_cons_self _ _))).of_succeeds
  apply Triple.bind (Triple.attempt (knowing_executeUpdatePreparedWithParams hserves ctx hfit hlength
    List.mem_cons_self hn))
  intro r
  cases r with
  | ok res => exact Triple.bind (hclose _).of_succeeds (fun _ => Triple.pure (fun _ hs => hs))
  | error err => exact Triple.bind (hclose _).of_succeeds (fun _ => Triple.throw (fun _ hs => hs))

theorem knowing_executeUpdate (ctx : Ctx) (sql : GoString) (hn : n + 1 < 2 ^ 31)
    : Triple True (Knowing view version n known d) (executeUpdate ctx sql)
        (fun _ => Knowing view version (n + 1) known (engine.effect (sqlText sql) d))
        (fun _ => Knowing view version (n + 1) known d) := by
  apply Triple.bind (knowing_prepareCommand hserves ctx sql hn)
  intro cmd
  have hfit : Tr.AllFit cmd.params 0 [] := True.intro
  exact (knowing_executeAndClose hserves ctx hfit ⟨by decide, by decide⟩ _ hn).pre (fun _ hs => hs.2)

theorem knowing_executeUpdateWithParams (ctx : Ctx) (sql : GoString) {params : List Value}
    (hlength : IsInt32 params.length) (hn : n + 1 < 2 ^ 31)
    : Triple True (fun s => s.Knowing view version n known d ∧ s.Accepts ctx sql params)
        (executeUpdateWithParams ctx sql params)
        (fun _ => Knowing view version (n + 1) known (engine.effect (sqlText sql) d))
        (fun _ => Knowing view version (n + 1) known d) := by
  apply Triple.bind (knowing_prepareAccepted hserves ctx sql params hn)
  rintro cmd s ⟨hfit, hs⟩
  exact knowing_executeAndClose hserves ctx hfit hlength _ hn s hs

theorem knowing_internalUpdate (ctx : Ctx) (err : Err) (fn : String) (sql : GoString)
    (hn : n + 1 < 2 ^ 31)
    : Triple True (Knowing view version n known d)
        (ifOpen err (withContext ctx (do
          checkContext ctx
          let _ ← Prog.mapErr (wrapError fn) (executeUpdate ctx sql)
          pure ())))
        (fun _ => Knowing view version (n + 1) known (engine.effect (sqlText sql) d))
        (fun _ => Knowing view version (n + 1) known d) := by
  apply triple_ifOpen (fun _ hs => hs.mono (by omega))
  apply Durable.triple_withContext (Knowing.durable _ _ _ _ _).setClock (Knowing.durable _ _ _ _ _)
  apply Triple.bind (R := fun _ => Knowing view version n known d)
  . exact (Quiet.checkContext ctx).weaken (fun _ hs => hs) (fun _ _ hs => hs)
      (fun _ _ hs => hs.mono (by omega))
  . intro _
    exact Triple.bind (Triple.mapErr (knowing_executeUpdate hserves ctx sql hn))
      (fun _ => Triple.pure (fun _ hs => hs))

theorem knowing_rollbackCurrentTransaction (ctx : Ctx) (hn : n + 1 < 2 ^ 31)
    : Triple True (Knowing view version n known d) (rollbackCurrentTransaction ctx)
        (fun _ => Knowing view version (n + 1) known d.rollback)
        (fun _ => Knowing view version (n + 1) known d) := by
  rw [← engine.rollback d]
  exact knowing_internalUpdate hserves ctx _ _ _ hn

theorem knowing_setTransactionIsolation (ctx : Ctx) {sqlLevel : GoString}
    (hlevel : sqlLevel ∈ isolationLevels) (hn : n + 1 < 2 ^ 31)
    : Triple True (Knowing view version n known d) (setTransactionIsolation ctx sqlLevel)
        (fun _ => Knowing view version (n + 1) known (d.setIsolation sqlLevel))
        (fun _ => Knowing view version (n + 1) known d) := by
  rw [← engine.isolation sqlLevel hlevel d]
  exact knowing_internalUpdate hserves ctx _ _ _ hn

theorem mirrors_close
    : Triple True (Mirrors view version n known d []) close
        (fun _ s => s.trNil = true ∧
          (s.Mirrors view version n known d [] ∨ s.Mirrors view version n known d.rollback []))
        (fun _ _ => False) := by
  apply Triple.get_bind
  intro s hs
  apply Triple.ite
  . exact fun hclosed => Triple.pure (by rintro _ rfl; exact ⟨hclosed, .inl hs⟩)
  . intro _
    apply Triple.pre (P := Mirrors view version n known d [])
    . apply Triple.bind (Triple.tried (mirrors_write (Tr.writes_writeInt32 sessionClose)).of_succeeds)
      intro _
      apply Triple.bind (R := fun _ => Mirrors view version n known d.rollback [])
      . apply Triple.tried
        have hne : [] ++ intBytes 4 sessionClose ++ [] ≠ [] := List.ne_nil_of_length_pos (by simp)
        have hon : d.rollback.autoCommit = d.autoCommit := rfl
        apply Triple.of_succeeds (mirrors_send Tr.Sends.bare_flush hne hon _)
        rintro p p' reply hrecv rfl
        rw [List.append_nil] at hrecv
        exact hserves.close p p' reply hrecv
      . intro _
        apply Triple.bind (Triple.tried (mirrors_read _))
        intro _
        apply Triple.bind (Triple.attempt mirrors_flush)
        intro r
        cases r with
        | ok =>
          apply Triple.bind
            (R := fun _ s => s.trNil = true ∧ s.Mirrors view version n known d.rollback [])
          . exact Triple.modify (fun _ hs => ⟨rfl, (Mirrors.durable _ _ _ _ _ _).abort hs⟩)
          . exact fun _ => Triple.pure (fun _ hs => ⟨hs.1, .inr hs.2⟩)
        | error => exact fun _ hs => False.elim hs
    . rintro _ rfl
      exact hs

/--
Reading does not change the desk, and neither does fetching the content of a LOB.
-/
theorem calm_mirrors (n : Int) (known : List (Int × List UInt8)) (d : SqlStore)
    : Calm (fun s : Session σ => s.Mirrors view version n known d []) where
  toDurable := Mirrors.durable view version n known d []
  move _ _ h := mirrors_move h
  lobRead s p offset := by
    intro t ht
    have hne : [] ++ lobReadRequest p.lobID p.hmac offset ≠ [] := Tr.lobReadRequest_ne_nil _ _ _
    have hheld : (t.accept (lobReadRequest p.lobID p.hmac offset)).held
        = lobReadRequest p.lobID p.hmac offset := by
      rw [show (t.accept _).held = t.held ++ _ from rfl, show t.held = [] from ht.held, List.nil_append]
    have hdesk : view (t.accept (lobReadRequest p.lobID p.hmac offset)).deliver.peer = view t.peer := by
      rw [Tr.deliver, hheld]
      exact hserves.readLob _ _ _ _ _ _ rfl
    have hhealthy : t.writeBudget = none := ht.healthy
    rw [(Tr.sends_sendLobRead p offset).of_healthy hne hhealthy]
    refine ⟨ht.healthy, rfl, ht.nextID, ?_, ?_, ht.autoCommit, ht.version⟩
    . rw [setTr_tr, hdesk]
      exact ht.knows
    . rw [setTr_tr, hdesk]
      exact ht.store

theorem mirrors_closeCommand (cmd : PreparedCommand)
    : Triple True (Mirrors view version n known d []) (closeCommand cmd)
        (fun _ => Mirrors view version n known d []) (fun _ _ => False) := by
  have hne : [] ++ commandCloseRequest cmd.id ≠ [] :=
    List.ne_nil_of_length_pos (by simp [commandCloseRequest])
  apply Triple.get_then
  intro s
  apply Triple.ite
  . exact fun _ => Triple.pure (fun _ hs => hs)
  . intro _
    apply mirrors_sendQuiet (Tr.sends_sendCommandClose _ cmd.id) hne
    exact fun p p' reply hrecv => (hserves.closeCommand cmd.id p p' reply hrecv).2

theorem mirrors_executeQueryWire (ctx : Ctx) {cmd : PreparedCommand} (maxRows fetchSize : Int)
    {params : List Value} (ownsCommand : Bool) (hfit : Tr.AllFit cmd.params 0 params)
    (hn : n + 1 < 2 ^ 31)
    : Triple True (Mirrors view version n known d [])
        (executeQueryWire ctx cmd maxRows fetchSize params ownsCommand)
        (fun _ => Mirrors view version (n + 1) known d []) (fun _ => Mirrors view version (n + 1) known d []) := by
  have hcalm := calm_mirrors hserves (n + 1) known d
  apply Triple.bind (mirrors_nextCommandID hn).of_succeeds
  intro resultID
  apply hcalm.withContext
  apply Keeps.onFail
  . apply Triple.bind (mirrors_write (writes_writeQueryHeader _ _ _ _ _)).of_succeeds
    intro _
    apply Triple.bind (mirrors_write (Tr.writes_writeParams _ hfit)).of_succeeds
    intro _
    apply Triple.bind (R := fun _ => Mirrors view version (n + 1) known d [])
    . apply Triple.of_succeeds (mirrors_sendQuiet (Tr.Sends.flush _) _ _)
      . exact List.ne_nil_of_length_pos (by simp [queryHeader])
      . intro p p' reply hrecv
        rw [List.nil_append, List.append_nil] at hrecv
        exact hserves.query _ _ _ _ _ _ hfit p p' reply hrecv
    . intro _
      have := (StatusReader.readQueryHeader (σ := σ)).lawful
      apply Keeps.bind (hcalm.io _)
      exact fun _ => hcalm.newRows _ _ _ _ _
  . intro e
    unfold closeOwned
    split
    . exact (mirrors_closeCommand hserves cmd).of_succeeds
    . exact Keeps.pure _

theorem mirrors_refuseQuery (cmd : PreparedCommand) (err : Err)
    : Keeps (Mirrors view version n known d []) (refuseQuery cmd err) :=
  Triple.bind (Triple.tried (mirrors_closeCommand hserves cmd).of_succeeds) (fun _ => Keeps.throw _)

theorem mirrors_executeQuery (ctx : Ctx) (sql : GoString) (maxRows fetchSize : Int)
    (hn : n + 2 < 2 ^ 31)
    : Triple True (Knowing view version n known d) (executeQuery ctx sql maxRows fetchSize)
        (fun _ => Mirrors view version (n + 2) known d []) (fun _ => Mirrors view version (n + 2) known d []) := by
  apply triple_ifOpen (fun _ hs => hs.toMirrors.mono (by omega))
  apply Triple.bind (R := fun _ => Mirrors view version (n + 1) known d [])
  . apply Triple.mapErr
    exact (knowing_prepareCommand hserves ctx sql (by omega)).weaken (fun _ hs => hs)
      (fun _ _ hs => hs.2.toMirrors.subset (List.subset_cons_self _ _))
      (fun _ _ hs => hs.toMirrors.mono (by omega))
  . intro cmd
    have hfit : Tr.AllFit cmd.params 0 [] := True.intro
    apply Triple.ite
    . exact fun _ => mirrors_mono (mirrors_refuseQuery hserves cmd _) (by omega)
    . exact fun _ => mirrors_mono
        (mirrors_executeQueryWire hserves ctx maxRows fetchSize true hfit (by omega)) (by omega)

theorem mirrors_executeQueryWithParams (ctx : Ctx) (sql : GoString) (maxRows fetchSize : Int)
    (params : List Value) (hn : n + 2 < 2 ^ 31)
    : Triple True (fun s => s.Knowing view version n known d ∧ s.Accepts ctx sql params)
        (executeQueryWithParams ctx sql maxRows fetchSize params)
        (fun _ => Mirrors view version (n + 2) known d []) (fun _ => Mirrors view version (n + 2) known d []) := by
  apply triple_ifOpen (fun _ hs => hs.1.toMirrors.mono (by omega))
  apply Triple.bind (R := fun cmd s => Tr.AllFit cmd.params 0 params ∧ s.Mirrors view version (n + 1) known d [])
  . apply Triple.mapErr
    exact (knowing_prepareAccepted hserves ctx sql params (by omega)).weaken (fun _ hs => hs)
      (fun _ _ hs => ⟨hs.1, hs.2.toMirrors.subset (List.subset_cons_self _ _)⟩)
      (fun _ _ hs => hs.toMirrors.mono (by omega))
  . intro cmd
    apply Triple.assume (fun _ hs => hs.1)
    intro hfit
    apply Triple.pre (P := Mirrors view version (n + 1) known d []) _ (fun _ hs => hs.2)
    apply Triple.ite
    . exact fun _ => mirrors_mono (mirrors_refuseQuery hserves cmd _) (by omega)
    . intro _
      apply Triple.ite
      . exact fun _ => mirrors_mono (mirrors_refuseQuery hserves cmd _) (by omega)
      . exact fun _ => mirrors_mono
          (mirrors_executeQueryWire hserves ctx maxRows fetchSize true hfit (by omega)) (by omega)

theorem mirrors_executeQueryPreparedWithParams (ctx : Ctx) {cmd : PreparedCommand}
    (maxRows fetchSize : Int) {params : List Value} (hfit : Tr.AllFit cmd.params 0 params)
    (hn : n + 1 < 2 ^ 31)
    : Triple True (Mirrors view version n known d [])
        (executeQueryPreparedWithParams ctx cmd maxRows fetchSize params)
        (fun _ => Mirrors view version (n + 1) known d []) (fun _ => Mirrors view version (n + 1) known d []) := by
  have hrefuse : ∀ err, Triple True (Mirrors view version n known d [])
      (Prog.throw err : Prog Err (Session σ) Rows) (fun _ => Mirrors view version (n + 1) known d [])
      (fun _ => Mirrors view version (n + 1) known d []) :=
    fun _ => Triple.throw (fun _ hs => hs.mono (by omega))
  apply triple_ifOpen (fun _ hs => hs.mono (by omega))
  apply Triple.ite (fun _ => hrefuse _)
  intro _
  apply Triple.ite (fun _ => hrefuse _)
  intro _
  exact mirrors_executeQueryWire hserves ctx maxRows fetchSize false hfit hn

end

end Session

namespace Cursor

variable [Peer σ] [GoStd] {engine : Engine} {view : σ → Desk} {version n : Int}
  {known : List (Int × List UInt8)} {d : SqlStore} (hserves : Serves engine version view)

open Session (Mirrors)

include hserves

theorem mirrors_fetchMoreRows (fetch : Int)
    : Keeps (fun c : Cursor σ => c.session.Mirrors view version n known d []) (fetchMoreRows fetch) := by
  have hcalm := Session.calm_mirrors hserves n known d
  have hrequest : ∀ resultID, Keeps (Mirrors view version n known d [])
      (Session.io (requestRows (σ := σ) resultID fetch)) := by
    intro resultID
    have hne : [] ++ fetchRowsRequest resultID fetch ≠ [] :=
      List.ne_nil_of_length_pos (by simp [fetchRowsRequest])
    unfold requestRows
    rw [← Session.io_bind]
    apply Triple.bind (Session.mirrors_sendQuiet (sends_sendFetchRows _ _) hne _).of_succeeds
    . exact fun _ => hcalm.io _
    . exact fun p p' reply hrecv => hserves.fetchRows _ _ p p' reply hrecv
  apply Keeps.bind Keeps.get
  intro c
  apply Keeps.ite (Keeps.throw _)
  apply Keeps.onFail _ (fun e => Session.Quiet.onSession (hcalm.markUnlessAlignedH2Error e))
  exact Keeps.bind (Session.Quiet.onSession (hrequest _)) (fun _ => hcalm.fetchRows fetch)

theorem mirrors_next (dest : List Value)
    : Keeps (fun c : Cursor σ => c.session.Mirrors view version n known d []) (next dest) := by
  have htake : Keeps (fun c : Cursor σ => c.session.Mirrors view version n known d []) (takeRow dest) :=
    Session.Quiet.takeRow dest
  apply Keeps.bind Keeps.get
  intro c
  apply Keeps.ite (Keeps.throw _)
  split
  . exact Keeps.throw _
  . apply Keeps.ite (Keeps.throw _)
    apply Keeps.ite _ htake
    split
    . exact Keeps.throw _
    . apply Keeps.bind
      . exact Keeps.onFail (mirrors_fetchMoreRows hserves _) (fun _ => Session.Quiet.modifyRows _)
      . intro _
        exact Keeps.bind Keeps.get (fun _ => Keeps.ite (Keeps.throw _) htake)

omit hserves [GoStd] in
theorem mirrors_ifAlive {m : Prog Err (Tr σ) Unit} {bs : List UInt8} (hm : Tr.Sends m bs)
    (hbs : bs ≠ []) (h : ∀ p p' reply, Peer.recv p bs = (p', reply) → view p' = view p)
    : Keeps (fun c : Cursor σ => c.session.Mirrors view version n known d []) (ifAlive m) := by
  have hne : [] ++ bs ≠ [] := hbs
  apply Keeps.bind Keeps.get
  intro c
  apply Keeps.ite _ (Keeps.pure _)
  exact Keeps.attempt (Session.Quiet.onSession (Session.mirrors_sendQuiet hm hne h).of_succeeds)

theorem mirrors_sendResultClose (resultID : Int)
    : Keeps (fun c : Cursor σ => c.session.Mirrors view version n known d [])
        (ifAlive (sendResultClose resultID)) :=
  mirrors_ifAlive (sends_sendResultClose resultID)
    (List.ne_nil_of_length_pos (by simp [resultCloseRequest]))
    (hserves.closeResult resultID)

theorem mirrors_closeOwnCommand (r : Rows)
    : Keeps (fun c : Cursor σ => c.session.Mirrors view version n known d []) (closeOwnCommand r) := by
  apply Keeps.ite _ (Keeps.pure _)
  apply mirrors_ifAlive (Tr.sends_sendCommandClose _ _)
  . exact List.ne_nil_of_length_pos (by simp [commandCloseRequest])
  . exact fun p p' reply hrecv => (hserves.closeCommand _ p p' reply hrecv).2

end Cursor

end H2Go
