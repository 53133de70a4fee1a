import H2Go.DSN.Spellings
import H2Go.Session.Ids

/-!
This module contains `connector.Connect` and what becomes of the setting `QUERY_TIMEOUT`, which the
driver applies itself.
-/

namespace H2Go

open BigEndian Digits Strings Utf8

namespace Session

variable {σ : Type} [GoStd] [Peer σ]

def giveUp (err : Err) : Prog Err (Session σ) Unit := do
  let _ ← Prog.attempt close
  Prog.throw err

def setQueryTimeout (ctx : Ctx) (ms : Nat) : Prog Err (Session σ) Unit := do
  let r ← Prog.attempt (executeUpdate ctx (ascii "SET QUERY_TIMEOUT " ++ decimal ms))
  match r with
  | .ok _ => pure ()
  | .error uerr => giveUp (.wrapf "h2go: applying QUERY_TIMEOUT: %w" [] uerr)

/--
The settings that are applied on the client's side, `params["QUERY_TIMEOUT"]` is looked up as it is.
-/
def applyQueryTimeout (ctx : Ctx) (params : Params) : Prog Err (Session σ) Unit :=
  match Params.get? params (ascii "QUERY_TIMEOUT") with
  | none => pure ()
  | some v =>
    match atoi (trimSpace v) with
    | .error _ => refuse v
    | .ok ms => if ms < 0 then refuse v else if ms > 0 then setQueryTimeout ctx ms.toNat else pure ()
where
  refuse (v : GoString) : Prog Err (Session σ) Unit :=
    giveUp (.errorf "h2go: invalid QUERY_TIMEOUT %q: must be a non-negative integer (milliseconds)"
      [.str v])

/--
What `Connect` does after the handshake. The context may have fired by then.
-/
def afterHandshake (ctx : Ctx) (params : Params) : Prog Err (Session σ) Unit := do
  tick
  let s ← Prog.get
  match ctx.err s.clock with
  | some err => giveUp err
  | none => applyQueryTimeout ctx params

end Session

section

variable {σ : Type} [GoStd] [Peer σ] [Sha256] [UnicodeTables]

/--
`connector.Connect` on a connection that has been dialed. A nil connector has no configuration.
-/
def connect (o : MapOrder) (ctx : Ctx) (c : Option (ParsedDSN × Config)) (sessionID timeZoneID : GoString)
    : Prog Err (Tr σ) (Session σ) :=
  match c with
  | none => Prog.throw .badConn
  | some (dsn, cfg) =>
    match ctx.err 0 with
    | some err => Prog.throw err
    | none => do
      let r ← Tr.handshake o dsn sessionID timeZoneID
      let t ← Prog.get
      finish (Session.afterHandshake ctx dsn.params (Session.opened t cfg r.1 r.2))
where
  finish (r : Out Err (Session σ) Unit) : Prog Err (Tr σ) (Session σ) := fun _ =>
    match r with
    | .ok _ s => .ok s s.tr
    | .fail err s => .fail err s.tr
    | .panic why => .panic why
    | .stuck => .stuck

end

namespace Tr

theorem frame_readHandshakeStatus {σ : Type} (failed unexpected : String)
    : Frame (readHandshakeStatus failed unexpected : Prog Err (Tr σ) _) () (intBytes 4 statusOK) := by
  unfold readHandshakeStatus
  apply ((frame_readInt32 (by decide) (by decide)).mapErr).bind_nil
  rw [if_neg (by decide), if_pos rfl]
  exact Frame.pure

def greetingBytes : List UInt8 :=
  intBytes 4 statusOK ++ (intBytes 4 tcpProtocolVersion21 ++ (intBytes 4 statusOK ++ [1]))

/--
A server that lets everybody in and then falls silent.
-/
def greeting : Tr Silent := Tr.ofBytes greetingBytes

theorem Sends.run_silent {m : Prog Err (Tr Silent) Unit} {bs : List UInt8} (h : Sends m bs)
    (hbs : bs ≠ []) {t : Tr Silent} (ht : t.writeBudget = none)
    : ∃ t', m t = .ok () t' ∧ t'.inp = t.inp ∧ t'.writeBudget = none :=
  ⟨_, h.of_healthy hbs ht, by simp [deliver, accept, Peer.recv], ht⟩

/--
All that the server will ever say has been read, and `sent` is what was written first.
-/
structure Waiting (sent : List (Nat × UInt8)) (t : Tr Silent) : Prop where
  inp : t.inp = []
  healthy : t.writeBudget = none
  sent : sent <+: t.writes

theorem waiting_write {sent : List (Nat × UInt8)} (bs : List UInt8)
    : Triple False (Waiting sent) (write bs : Prog Err (Tr Silent) _) (fun _ => Waiting sent)
        (fun _ _ => False) := by
  intro t h
  rw [write_of_healthy h.healthy]
  exact ⟨h.inp, h.healthy, h.sent.trans (List.prefix_append _ _)⟩

theorem waiting_flush {sent : List (Nat × UInt8)}
    : Triple False (Waiting sent) (flush : Prog Err (Tr Silent) _) (fun _ => Waiting sent)
        (fun _ _ => False) := by
  intro t h
  unfold flush
  rw [h.healthy]
  show Waiting sent (if t.held = [] then t else t.deliver)
  split
  . exact h
  . exact ⟨by simp [deliver, Peer.recv, h.inp], h.healthy, h.sent⟩

theorem waiting_read {α : Type} {sent : List (Nat × UInt8)} {m : Prog Err (Tr Silent) α} {a : α}
    {used : List UInt8} (hm : Frame m a used) (hused : used ≠ [])
    : Triple False (Waiting sent) m (fun _ _ => False) (fun _ => Waiting sent) := by
  intro t h
  obtain ⟨e, he⟩ := hm.short t used (by rw [show Input.inp t = [] from h.inp]; rfl) hused
  rw [he]
  exact ⟨rfl, h.healthy, h.sent⟩

theorem sends_setID (sessionID timeZoneID : GoString)
    : ∃ bs, bs ≠ [] ∧ Sends (do
        wrapErr "h2go: write session set id op: %w" [] (writeInt32 sessionSetID)
        wrapErr "h2go: write session id: %w" [] (writeString sessionID)
        wrapErr "h2go: write timezone id: %w" [] (writeString timeZoneID)
        wrapErr "h2go: flush session set id: %w" [] flush : Prog Err (Tr Silent) Unit) bs := by
  refine ⟨_, ?_, Sends.bind (writes_wrapErr _ _ (writes_writeInt32 _)) (Sends.bind
    (writes_wrapErr _ _ (writes_writeString _)) (Sends.bind (writes_wrapErr _ _ (writes_writeString _))
    (Sends.flush _)))⟩
  simp [intBytes, beBytes]

theorem handshake_greeting [Sha256] [UnicodeTables] (o : MapOrder) (dsn : ParsedDSN)
    (sessionID timeZoneID : GoString)
    : ∃ r t, handshake o dsn sessionID timeZoneID greeting = .ok r t ∧ t.Waiting [] := by
  have hcredentials : Sends (wrapErr "h2go: send credentials: %w" [] (sendCredentials o dsn) >>= fun _ =>
      wrapErr "h2go: flush credentials: %w" [] flush : Prog Err (Tr Silent) _) _ :=
    Sends.bind (writes_wrapErr _ _ (writes_sendCredentials o dsn)) (Sends.flush _)
  obtain ⟨bs, hbs, hsetID⟩ := sends_setID sessionID timeZoneID
  obtain ⟨t1, hrun1, hinp1, ht1⟩ := hcredentials.run_silent
    (by simp [credentialsHeader, intBytes, beBytes]) (show greeting.writeBudget = none from rfl)
  have hstatus := (frame_readHandshakeStatus "h2go: read status: %w" "h2go: unexpected status %d").exact
    t1 _ hinp1
  have hversion : wrapErr "h2go: read version: %w" [] readInt32
      (Input.move (intBytes 4 statusOK)
        (intBytes 4 tcpProtocolVersion21 ++ (intBytes 4 statusOK ++ [1])) t1)
        = .ok tcpProtocolVersion21 _ :=
    (frame_readInt32 (by decide) (by decide)).mapErr.exact _ (intBytes 4 statusOK ++ [1]) rfl
  obtain ⟨t2, hrun2, hinp2, ht2⟩ := hsetID.run_silent hbs
    (t := Input.move (intBytes 4 tcpProtocolVersion21) (intBytes 4 statusOK ++ [1]) (Input.move
      (intBytes 4 statusOK) (intBytes 4 tcpProtocolVersion21 ++ (intBytes 4 statusOK ++ [1])) t1)) ht1
  have hset := (frame_readHandshakeStatus "h2go: read session status: %w"
    "h2go: unexpected status %d after session set id").exact t2 [1] hinp2
  have hautoCommit : wrapErr "h2go: read autocommit: %w" [] readBool
      (Input.move (intBytes 4 statusOK) [1] t2) = .ok true _ :=
    (frame_readBool true).mapErr.exact _ [] rfl
  have hsecond := Prog.bind_of_ok hrun2 (fun _ => do
    readHandshakeStatus "h2go: read session status: %w"
      "h2go: unexpected status %d after session set id"
    let autoCommit ← wrapErr "h2go: read autocommit: %w" [] readBool
    pure (tcpProtocolVersion21, autoCommit))
  rw [Prog.bind_of_ok hset, Prog.bind_of_ok hautoCommit] at hsecond
  simp only [Prog.bind_assoc] at hsecond
  refine ⟨_, _, Eq.trans ?_ hsecond, rfl, ht2, List.nil_prefix⟩
  unfold handshake
  rw [← Prog.bind_assoc, Prog.bind_of_ok hrun1, Prog.bind_of_ok hstatus, Prog.bind_of_ok hversion,
    if_neg (by simp)]

end Tr

namespace Session

def Waiting (sent : List (Nat × UInt8)) (s : Session Silent) : Prop := s.trNil = false ∧ s.tr.Waiting sent

theorem waiting_io {α : Type} {sent : List (Nat × UInt8)} {m : Prog Err (Tr Silent) α}
    (h : Triple False (Tr.Waiting sent) m (fun _ => Tr.Waiting sent) (fun _ => Tr.Waiting sent))
    : Triple False (Waiting sent) (io m) (fun _ => Waiting sent) (fun _ => Waiting sent) :=
  triple_io h (fun _ hs => hs) (fun _ _ _ hs ht => ⟨hs.1, ht⟩) (fun _ _ _ hs ht => ⟨hs.1, ht⟩)

theorem waiting_close {sent : List (Nat × UInt8)}
    : Triple False (Waiting sent) close (fun _ s => sent <+: s.tr.writes)
        (fun _ s => sent <+: s.tr.writes) := by
  have hread : Triple False (Tr.Waiting sent) Tr.readInt32 (fun _ => Tr.Waiting sent)
      (fun _ => Tr.Waiting sent) :=
    (Tr.waiting_read (Tr.frame_readInt32 (x := 0) (by decide) (by decide)) (by decide)).post
      (fun _ _ h => h.elim)
  apply Triple.get_bind
  intro s hs
  rw [if_neg (by simp [hs.1])]
  refine Triple.pre (P := Waiting sent) ?_ (fun t ht => by rw [ht]; exact hs)
  apply Triple.bind (Triple.tried (waiting_io (Tr.waiting_write _).of_succeeds))
  intro _
  apply Triple.bind (Triple.tried (waiting_io Tr.waiting_flush.of_succeeds))
  intro _
  apply Triple.bind (Triple.tried (waiting_io hread))
  intro _
  apply Triple.bind (Triple.tried (waiting_io Tr.waiting_flush.of_succeeds))
  intro r
  apply Triple.bind (R := fun _ s => sent <+: s.tr.writes) (Triple.modify (fun _ h => h.2.sent))
  intro _
  cases r with
  | ok => exact Triple.pure (fun _ h => h)
  | error => exact Triple.throw (fun _ h => h)

theorem waiting_giveUp {sent : List (Nat × UInt8)} (err : Err)
    : Triple False (Waiting sent) (giveUp err) (fun _ _ => False)
        (fun e s => e = err ∧ sent <+: s.tr.writes) := by
  apply Triple.bind (Triple.tried waiting_close)
  intro _
  exact Triple.throw (fun _ h => ⟨rfl, h⟩)

def timeoutRequest (id : Int) (ms : Nat) : List UInt8 :=
  intBytes 4 sessionPrepare ++ (intBytes 4 id ++
    (Tr.unitsFrame (utf16Encode (ascii "SET QUERY_TIMEOUT " ++ decimal ms)) ++ []))

theorem timeoutRequest_inj {id : Int} {m n : Nat} (hm : m < 2 ^ 63) (hn : n < 2 ^ 63)
    {rest rest' : List UInt8} (h : timeoutRequest id m ++ rest = timeoutRequest id n ++ rest')
    : m = n := by
  have hframe : ∀ {k : Nat}, k < 2 ^ 63 →
      Frame (Tr.readString : Prog Err (Tr Unit) _) (some (ascii "SET QUERY_TIMEOUT " ++ decimal k))
        (Tr.unitsFrame (utf16Encode (ascii "SET QUERY_TIMEOUT " ++ decimal k))) := by
    intro k hk
    have hascii : ∀ b ∈ ascii "SET QUERY_TIMEOUT " ++ decimal k, b.toNat < 0x80 := by
      intro b hb
      rcases List.mem_append.mp hb with hb | hb
      . exact (by decide +kernel : ∀ b ∈ ascii "SET QUERY_TIMEOUT ", b.toNat < 0x80) b hb
      . have := isDecimal_of_mem_decimal hb
        simp only [isDecimal, Bool.and_eq_true, decide_eq_true_eq] at this
        omega
    have hlen := length_decimal_le (n := k) (k := 18) (by omega)
    refine Tr.frame_readString (valid_of_ascii hascii) ?_
    rw [utf16Encode_of_isASCII (List.all_eq_true.mpr fun b hb => decide_eq_true (hascii b hb)),
      List.length_map, List.length_append,
      show (ascii "SET QUERY_TIMEOUT ").length = 18 by decide]
    omega
  simp only [timeoutRequest, List.append_assoc, List.append_cancel_left_eq] at h
  have hsql := Option.some.inj ((hframe hm).unique (hframe hn) h).1
  rw [← textValue_decimal m, List.append_cancel_left hsql, textValue_decimal]

theorem timeout_eq_of_sent {t t' : Tr Silent} {id : Int} {m n : Nat} (hm : m < 2 ^ 63) (hn : n < 2 ^ 63)
    (h : (t.accept (timeoutRequest id m)).writes <+: t'.writes)
    (h' : (t.accept (timeoutRequest id n)).writes <+: t'.writes)
    : m = n := by
  obtain ⟨rest, hrest⟩ := h
  obtain ⟨rest', hrest'⟩ := h'
  have heq := hrest.trans hrest'.symm
  simp only [Tr.accept, List.append_assoc, List.append_cancel_left_eq] at heq
  have hbytes := congrArg (List.map Prod.snd) heq
  simp only [List.map_append, List.map_map, Function.comp_def, List.map_id'] at hbytes
  exact timeoutRequest_inj hm hn hbytes

theorem fails_prepareCommand (ms : Nat) {s : Session Silent} (h : Waiting [] s)
    : ∃ e s', prepareCommand .background (ascii "SET QUERY_TIMEOUT " ++ decimal ms) s = .fail e s' ∧
        Waiting (s.tr.accept (timeoutRequest s.freshID ms)).writes s' := by
  have hsend := (Tr.sends_sendPrepare "PrepareCommand" sessionPrepare s.freshID
    (ascii "SET QUERY_TIMEOUT " ++ decimal ms)).of_healthy (by simp [intBytes, beBytes]) h.2.healthy
  have hsent : (s.tr.accept (timeoutRequest s.freshID ms)).deliver.Waiting
      (s.tr.accept (timeoutRequest s.freshID ms)).writes :=
    ⟨by simp [Tr.deliver, Tr.accept, Peer.recv, h.2.inp], h.2.healthy, List.prefix_refl _⟩
  have hread : Triple False (Tr.Waiting (s.tr.accept (timeoutRequest s.freshID ms)).writes)
      (Tr.readPrepared s.freshID (ascii "SET QUERY_TIMEOUT " ++ decimal ms)) (fun _ _ => False)
      (fun _ => Tr.Waiting (s.tr.accept (timeoutRequest s.freshID ms)).writes) :=
    Triple.bind (Triple.mapErr (Tr.waiting_read Tr.frame_readStatus_ok (by decide)))
      (fun _ _ hf => hf.elim)
  obtain ⟨e, t, hfail, hwaiting⟩ := hread.exists_fail hsent
  refine ⟨e, { { s with nextID := s.freshID }.setTr t with clock := s.clock + 1 }, ?_, h.1, hwaiting⟩
  rw [prepareCommand, ifOpen_of_open h.1]
  have hrun : (nextCommandID >>= fun cmdID => do
      io (Tr.sendPrepare "PrepareCommand" sessionPrepare cmdID (ascii "SET QUERY_TIMEOUT " ++ decimal ms))
      io (Tr.readPrepared cmdID (ascii "SET QUERY_TIMEOUT " ++ decimal ms)) : Prog Err (Session Silent) _) s
        = .fail e ({ s with nextID := s.freshID }.setTr t) := by
    have hio := io_of_ok (s := { s with nextID := s.freshID }) h.1 hsend
    rw [Prog.bind_of_ok (nextCommandID_run s), Prog.bind_of_ok hio]
    exact io_of_fail (s := { s with nextID := s.freshID }.setTr _) h.1 hfail
  rw [withContext_of_fail hrun]
  rfl

theorem fails_setQueryTimeout [GoStd] (ms : Nat) {s : Session Silent} (h : Waiting [] s)
    : ∃ e s', setQueryTimeout .background ms s
          = .fail (.wrapf "h2go: applying QUERY_TIMEOUT: %w" [] e) s' ∧
        (s.tr.accept (timeoutRequest s.freshID ms)).writes <+: s'.tr.writes := by
  obtain ⟨e, s1, hprepare, hs1⟩ := fails_prepareCommand ms h
  have hupdate : executeUpdate .background (ascii "SET QUERY_TIMEOUT " ++ decimal ms) s = .fail e s1 :=
    Prog.bind_of_fail hprepare _
  obtain ⟨_, s2, hgive, rfl, hsent⟩ := (waiting_giveUp _).exists_fail hs1
  refine ⟨e, s2, ?_, hsent⟩
  rw [setQueryTimeout, Prog.bind_of_ok (Prog.attempt_of_fail hupdate)]
  exact hgive

end Session

section

variable [GoStd] [Sha256] [UnicodeTables]

def TimeoutIssued (dsn : ParsedDSN) (ms : Nat) : Prop :=
  ∀ (σ : Type) [Peer σ] (o : MapOrder) (ctx : Ctx) (cfg : Config) (sessionID timeZoneID : GoString)
    (t t1 : Tr σ) (r : Int × Bool), ctx.err 1 = none →
    Tr.handshake o dsn sessionID timeZoneID t = .ok r t1 →
    connect o ctx (some (dsn, cfg)) sessionID timeZoneID t
      = connect.finish
          (Session.setQueryTimeout ctx ms { Session.opened t1 cfg r.1 r.2 with clock := 1 }) t1

/--
If the DSN is accepted, then every `QUERY_TIMEOUT` that it carries, in whatever case, is a number that
is not negative, and it is set if it is not zero.
-/
def TimeoutApplied (input : GoString) : Prop :=
  ∀ o cfg, parseDSN o input = .ok cfg →
    ∀ kv ∈ carried input, equalFold kv.1 (ascii "QUERY_TIMEOUT") →
      ∃ ms : Nat, atoi (trimSpace kv.2) = .ok ms ∧ (0 < ms → TimeoutIssued cfg ms)

theorem connect_eq {σ : Type} [Peer σ] {o : MapOrder} {ctx : Ctx} (hctx : ctx.err 1 = none)
    {dsn : ParsedDSN} (cfg : Config) {sessionID timeZoneID : GoString} {t t1 : Tr σ} {r : Int × Bool}
    (h : Tr.handshake o dsn sessionID timeZoneID t = .ok r t1)
    : connect o ctx (some (dsn, cfg)) sessionID timeZoneID t
        = connect.finish (Session.applyQueryTimeout ctx dsn.params
            { Session.opened t1 cfg r.1 r.2 with clock := 1 }) t1 := by
  have hstart : ctx.err 0 = none := by
    cases hstart : ctx.err 0 with
    | none => rfl
    | some e =>
      rw [ctx.err_stable (Nat.zero_le 1) hstart] at hctx
      cases hctx
  have hafter : Session.afterHandshake ctx dsn.params (Session.opened t1 cfg r.1 r.2)
      = Session.applyQueryTimeout ctx dsn.params
          { Session.opened t1 cfg r.1 r.2 with clock := 1 } := by
    unfold Session.afterHandshake
    rw [Prog.bind_run]
    show (match ctx.err 1 with
      | some err => Session.giveUp err
      | none => Session.applyQueryTimeout ctx dsn.params)
        { Session.opened t1 cfg r.1 r.2 with clock := 1 } = _
    rw [hctx]
  simp only [connect, hstart]
  rw [Prog.bind_of_ok h, ← hafter]
  rfl

theorem timeoutIssued_of_get? {dsn : ParsedDSN} {v : GoString} {ms : Nat}
    (hget : Params.get? dsn.params (ascii "QUERY_TIMEOUT") = some v)
    (hms : atoi (trimSpace v) = .ok ms) (hpos : 0 < ms)
    : TimeoutIssued dsn ms := by
  intro σ _ o ctx cfg sessionID timeZoneID t t1 r hctx hrun
  rw [connect_eq hctx cfg hrun, Session.applyQueryTimeout, hget]
  dsimp only
  rw [hms]
  dsimp only
  rw [if_neg (by omega), if_pos (by omega), Int.toNat_natCast]

def plainConfig : Config :=
  { generatedKeysModeSet := false, generatedKeysMode := 0, generatedKeysColumns := [],
    generatedKeysColumnNames := [] }

def TimeoutKept (params : Params) (ms : Nat) : Prop :=
  ∃ v, (ascii "QUERY_TIMEOUT", v) ∈ params ∧ atoi (trimSpace v) = .ok ms

theorem applies_of_timeoutIssued {dsn : ParsedDSN} {ms : Nat} (h : TimeoutIssued dsn ms)
    : ∃ s : Session Silent, Session.Waiting [] s ∧
        connect.finish (Session.applyQueryTimeout .background dsn.params s)
          = connect.finish (Session.setQueryTimeout .background ms s) := by
  obtain ⟨r, t, hrun, hwaiting⟩ := Tr.handshake_greeting .inserted dsn [] []
  refine ⟨{ Session.opened t plainConfig r.1 r.2 with clock := 1 }, ⟨rfl, hwaiting⟩, ?_⟩
  have hctx : Ctx.background.err 1 = none := rfl
  have hconnect := connect_eq hctx plainConfig hrun
  rw [h Silent .inserted .background plainConfig [] [] Tr.greeting t r rfl hrun] at hconnect
  funext _
  exact hconnect.symm

omit [GoStd] [Sha256] [UnicodeTables] in
theorem atoi_lt {v : GoString} {n : Nat} (h : atoi v = .ok (n : Int)) : n < 2 ^ 63 := by
  simp only [atoi] at h
  generalize (if (splitSign v).1 = true then (_ : Int) else _) = value at h
  split at h
  . cases h
  . split at h
    . cases h
    . next hrange =>
      injection h with h
      omega

omit [Sha256] [UnicodeTables] in
/--
There is nothing to apply, or it is refused, or it is a positive number.
-/
theorem Session.applyQueryTimeout_cases (ctx : Ctx) (params : Params)
    : (applyQueryTimeout ctx params : Prog Err (Session Silent) Unit) = pure () ∨
      (∃ v, (applyQueryTimeout ctx params : Prog Err (Session Silent) Unit) = applyQueryTimeout.refuse v) ∨
      ∃ v, ∃ n : Nat, Params.get? params (ascii "QUERY_TIMEOUT") = some v ∧
        atoi (trimSpace v) = .ok (n : Int) ∧
        (applyQueryTimeout ctx params : Prog Err (Session Silent) Unit) = setQueryTimeout ctx n := by
  unfold applyQueryTimeout
  cases Params.get? params (ascii "QUERY_TIMEOUT") with
  | none => exact .inl rfl
  | some v =>
    dsimp only
    cases hn : atoi (trimSpace v) with
    | error _ => exact .inr (.inl ⟨v, rfl⟩)
    | ok n =>
      dsimp only
      split
      . exact .inr (.inl ⟨v, rfl⟩)
      . split
        . have hnat : (n.toNat : Int) = n := Int.toNat_of_nonneg (by omega)
          exact .inr (.inr ⟨v, n.toNat, rfl, by rw [hnat, hn], rfl⟩)
        . exact .inl rfl

theorem timeoutIssued_iff {dsn : ParsedDSN} (hnodup : (dsn.params.map Prod.fst).Nodup) {ms : Nat}
    (hpos : 0 < ms) (hms : ms < 2 ^ 63)
    : TimeoutIssued dsn ms ↔ TimeoutKept dsn.params ms := by
  constructor
  . intro h
    obtain ⟨s, hs, hsame⟩ := applies_of_timeoutIssued h
    obtain ⟨e, s1, hset, hsent⟩ := Session.fails_setQueryTimeout ms hs
    have hfail : connect.finish (Session.applyQueryTimeout .background dsn.params s) s.tr
        = .fail (.wrapf "h2go: applying QUERY_TIMEOUT: %w" [] e) s1.tr := by rw [hsame, hset]; rfl
    -- without a timeout the connection is returned, a bad one is refused with another error
    rcases Session.applyQueryTimeout_cases .background dsn.params with
      happly | ⟨v, happly⟩ | ⟨v, n, hget, hn, happly⟩
    . rw [happly] at hfail
      cases hfail
    . obtain ⟨_, s2, hgive, rfl, -⟩ := (Session.waiting_giveUp _).exists_fail hs
      rw [happly, Session.applyQueryTimeout.refuse, hgive] at hfail
      cases hfail
    . obtain ⟨e', s2, hset', hsent'⟩ := Session.fails_setQueryTimeout n hs
      rw [happly, hset'] at hfail
      injection hfail with _ htr
      refine ⟨v, mem_of_get? hget, ?_⟩
      rw [hn, Session.timeout_eq_of_sent (atoi_lt hn) hms (htr ▸ hsent') hsent]
  . rintro ⟨v, hmem, hms⟩
    exact timeoutIssued_of_get? (get?_of_mem hnodup hmem) hms hpos

end

section

open StandIn

def connects (input : GoString) (P : Out Err (Tr Silent) (Int × Bool) → Out Err (Tr Silent) (Session Silent) → Bool)
    : Bool :=
  accepts (parseDSN .inserted input) (fun cfg => P (Tr.handshake .inserted cfg [] [] Tr.greeting)
    (connect .inserted .background (some (cfg, plainConfig)) [] [] Tr.greeting))

/--
Accepted DSNs with a timeout that is not set: its key is in lower case, another value was read first,
or it is behind a question mark.
-/
def ignoredTimeouts : List GoString :=
  [ascii "h2://h:1/d?query_timeout=5", ascii "h2://h:1/d?QUERY_TIMEOUT=0&QUERY_TIMEOUT=5000",
    ascii "jdbc:h2:tcp://h:1/d;INIT=a?b;QUERY_TIMEOUT=5"]

end

end H2Go
