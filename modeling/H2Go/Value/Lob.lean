import H2Go.Value.Frames
import H2Go.Transfer.Write

/-!
This module contains the transfer of deferred LOBs: what `fetchLob` returns when the server serves
the LOB, in chunks of whatever size, and when its requests are written.
-/

namespace H2Go

open BigEndian

def lobReadRequest (lobID : Int) (hmac : Option (List UInt8)) (offset : Int) : List UInt8 :=
  intBytes 4 lobRead ++ (intBytes 8 lobID ++ (Tr.bytesFrame hmac ++ (intBytes 8 offset ++
    (intBytes 4 lobReadChunkSize ++ []))))

theorem offset_lobReadRequest (lobID : Int) (hmac : Option (List UInt8)) {offset : Int}
    (h : -2 ^ 63 ≤ offset) (h' : offset < 2 ^ 63)
    : beInt (((lobReadRequest lobID hmac offset).drop
        ((lobReadRequest lobID hmac offset).length - 12)).take 8) = offset := by
  have hsplit : lobReadRequest lobID hmac offset
      = (intBytes 4 lobRead ++ (intBytes 8 lobID ++ Tr.bytesFrame hmac))
        ++ (intBytes 8 offset ++ intBytes 4 lobReadChunkSize) := by
    simp [lobReadRequest]
  rw [hsplit, List.length_append, List.drop_left' (by simp), List.take_left' (by simp)]
  exact beInt_intBytes (by omega) (by omega)

def lobReads (p : PendingLob) (offsets : List Nat) : List UInt8 :=
  offsets.flatMap (fun offset => lobReadRequest p.lobID p.hmac offset)

def lobReadReply (chunk : List UInt8) : List UInt8 :=
  intBytes 4 statusOK ++ (intBytes 4 chunk.length ++ chunk)

/--
In the states `P` the peer serves the LOB `p` with the content `c`: a request is answered by some of
the bytes from the offset on, by none only at the end.
-/
def ServesLob {σ : Type} [Peer σ] (p : PendingLob) (c : List UInt8) (P : σ → Prop) : Prop :=
  ∀ (s : σ) (offset : Nat), P s → offset ≤ c.length →
    ∃ (s' : σ) (n : Nat), P s' ∧ (n : Int) ≤ lobReadChunkSize ∧ offset + n ≤ c.length ∧
      (offset < c.length → 0 < n) ∧
      Peer.recv s (lobReadRequest p.lobID p.hmac offset)
        = (s', lobReadReply ((c.drop offset).take n))

/--
In the states `P` the peer serves LOBs: `content` is what it has stored for an id with its hmac.
-/
structure LobServer {σ : Type} [Peer σ] (content : Int → Option (List UInt8) → List UInt8)
    (P : σ → Prop) : Prop where
  length_lt : ∀ lobID hmac, (content lobID hmac).length < 2 ^ 63
  serve : ∀ p : PendingLob, p.OnWire → ServesLob p (content p.lobID p.hmac) P

/--
The requests that fetch `chunks` and the end behind them, each byte with the number of bytes that had
been read when it was written. The first request has the given offset, and each of the others is
written when the reply to the one before has been read.
-/
def lobExchange (p : PendingLob) (past offset : Nat) (chunks : List (List UInt8))
    : List (Nat × UInt8) :=
  match chunks with
  | [] => (lobReadRequest p.lobID p.hmac offset).map (past, ·)
  | chunk :: chunks =>
    (lobReadRequest p.lobID p.hmac offset).map (past, ·) ++
      lobExchange p (past + (lobReadReply chunk).length) (offset + chunk.length) chunks

theorem lobExchange_bytes (p : PendingLob) (past offset : Nat) (chunks : List (List UInt8))
    : ∃ offsets, (lobExchange p past offset chunks).map Prod.snd = lobReads p (offset :: offsets) := by
  have hrequest : ∀ past offset : Nat, ((lobReadRequest p.lobID p.hmac offset).map (past, ·)).map
      Prod.snd = lobReadRequest p.lobID p.hmac offset := by
    intro past offset
    rw [List.map_map]
    exact List.map_id' _
  induction chunks generalizing past offset with
  | nil => exact ⟨[], by rw [lobExchange, hrequest]; simp [lobReads]⟩
  | cons chunk chunks ih =>
    obtain ⟨offsets, hrest⟩ := ih (past + (lobReadReply chunk).length) (offset + chunk.length)
    refine ⟨(offset + chunk.length) :: offsets, ?_⟩
    rw [lobExchange, List.map_append, hrequest, hrest]
    rfl

/--
The value of a LOB with the content `buf`. For a BLOB without any byte that was not announced either
it is the nil slice.
-/
def PendingLob.value (p : PendingLob) (buf : List UInt8) : Value :=
  if p.typeCode = .clob then
    .string buf
  else
    .bytes (if buf = [] ∧ p.totalBytes ≤ 0 then none else some buf)

namespace Tr

variable {σ : Type}

theorem frame_readLobChunk {chunk : List UInt8} (h : (chunk.length : Int) ≤ lobReadChunkSize)
    : Frame (readLobChunk : Prog Err (Tr σ) _) chunk (lobReadReply chunk) := by
  unfold lobReadChunkSize at h
  unfold readLobChunk lobReadReply
  apply (frame_readInt32 (by decide) (by decide)).mapErr.bind
  rw [if_neg (by simp)]
  apply (frame_readInt32 (by omega) (by omega)).mapErr.bind
  by_cases hzero : chunk.length = 0
  . rw [if_pos (by omega), List.length_eq_zero_iff.mp hzero]
    exact Frame.pure
  . rw [if_neg (by omega), if_neg (by unfold lobReadChunkSize; omega),
      Prog.make_eq (by unfold lobReadChunkSize; omega), Prog.pure_bind, Int.toNat_natCast]
    exact (frame_readFull chunk).mapErr

variable [Peer σ]

theorem sends_sendLobRead (p : PendingLob) (offset : Int)
    : Sends (sendLobRead p offset : Prog Err (Tr σ) _) (lobReadRequest p.lobID p.hmac offset) := by
  apply Sends.bind (writes_wrapErr _ _ (writes_writeInt32 _))
  apply Sends.bind (writes_wrapErr _ _ (writes_writeInt64 _))
  apply Sends.bind (writes_wrapErr _ _ (writes_writeBytes _))
  apply Sends.bind (writes_wrapErr _ _ (writes_writeInt64 _))
  apply Sends.bind (writes_wrapErr _ _ (writes_writeInt32 _))
  exact Sends.flush _

theorem lobReadRequest_ne_nil (lobID : Int) (hmac : Option (List UInt8)) (offset : Int)
    : lobReadRequest lobID hmac offset ≠ [] := by
  simp [lobReadRequest, intBytes, beBytes]

omit [Peer σ] in
instance : LawfulReader (readLobChunk : Prog Err (Tr σ) _) := by
  unfold readLobChunk
  infer_instance

omit [Peer σ] in
instance (totalBytes : Int) : LawfulReader (growBuffer totalBytes : Prog Err (Tr σ) _) := by
  unfold growBuffer
  infer_instance

theorem keeps_later_fetchLobLoop (t0 : Tr σ) (p : PendingLob) (fuel : Nat) (buf : List UInt8)
    (offset : Int)
    : Keeps (Later t0) (fetchLobLoop p fuel buf offset) := by
  induction fuel generalizing buf offset with
  | zero => exact fun _ _ => True.intro
  | succ fuel ih =>
    apply Keeps.bind ((sends_sendLobRead p offset).keeps (keeps_later_write t0 _)
      (keeps_later_flush t0))
    intro _
    apply Keeps.bind (keeps_later_reader t0)
    intro chunk
    exact Keeps.ite (Keeps.pure _) (ih _ _)

theorem keeps_later_fetchLob (t0 : Tr σ) (p : PendingLob) : Keeps (Later t0) (fetchLob p) := by
  apply Keeps.ite (Keeps.throw _)
  apply Keeps.bind (keeps_later_reader t0)
  intro _
  apply Keeps.bind Keeps.get
  intro t
  apply Keeps.bind (keeps_later_fetchLobLoop t0 p _ _ _)
  intro buf
  exact Keeps.ite (Keeps.pure _) (Keeps.pure _)

/--
Between two requests: all that was sent has been read, and all that was written has been flushed.
-/
structure Idle (P : σ → Prop) (t : Tr σ) : Prop where
  inp_eq : t.inp = []
  held_eq : t.held = []
  peer : P t.peer

/--
What a sequence of requests does not change.
-/
structure Kept (t t' : Tr σ) : Prop where
  fuel_eq : t'.fuel = t.fuel
  healthy : t.writeBudget = none → t'.writeBudget = none

omit [Peer σ] in
theorem Kept.trans {t t' t'' : Tr σ} (h : Kept t t') (h' : Kept t' t'') : Kept t t'' :=
  ⟨h'.fuel_eq.trans h.fuel_eq, fun ht => h'.healthy (h.healthy ht)⟩

omit [Peer σ] in
theorem Kept.move {t t' : Tr σ} (h : Kept t t') (used rest : List UInt8)
    : Kept t (Input.move used rest t') :=
  ⟨h.fuel_eq, h.healthy⟩

omit [Peer σ] in
@[simp]
theorem written_move (used rest : List UInt8) (t : Tr σ)
    : (Input.move used rest t).written = t.written := rfl

theorem exchange {m : Prog Err (Tr σ) Unit} {bs : List UInt8} (hm : Sends m bs) (hbs : bs ≠ [])
    {P : σ → Prop} {t : Tr σ} (ht : t.Idle P) {s : σ} {reply : List UInt8}
    (hrecv : Peer.recv t.peer bs = (s, reply))
    : (∃ t', m t = .ok () t' ∧ Kept t t' ∧ t'.writes = t.writes ++ bs.map (t.past.length, ·) ∧
          t'.past = t.past ∧ t'.inp = reply ∧ t'.held = [] ∧ t'.peer = s) ∨
        ∃ e t', m t = .fail e t' ∧ e.Plain ∧ t.writeBudget ≠ none := by
  rcases hm.cases hbs t with ⟨budget, hrun, hbudget⟩ | hfail
  . refine .inl ⟨_, hrun, ⟨rfl, hbudget⟩, rfl, rfl, ?_, rfl, ?_⟩
    . simp [deliver, accept, ht.held_eq, ht.inp_eq, hrecv]
    . simp [deliver, accept, ht.held_eq, hrecv]
  . exact .inr hfail

/--
The chunks have been transferred one after the other, from the given offset to the end of the LOB.
-/
structure Transferred (p : PendingLob) (offset : Nat) (chunks : List (List UInt8)) (t t' : Tr σ)
    : Prop where
  nonempty : ∀ chunk ∈ chunks, chunk ≠ []
  past_eq : t'.past = t.past ++ (chunks ++ [[]]).flatMap lobReadReply
  writes_eq : t'.writes = t.writes ++ lobExchange p t.past.length offset chunks

omit [Peer σ] in
theorem Transferred.nil {p : PendingLob} {offset : Nat} {t t1 : Tr σ}
    (hpast : t1.past = t.past)
    (hwrites : t1.writes = t.writes ++ (lobReadRequest p.lobID p.hmac offset).map (t.past.length, ·))
    : Transferred p offset [] t (Input.move (lobReadReply []) [] t1) where
  nonempty := by simp
  past_eq := by
    show t1.past ++ _ = _
    rw [hpast]
    simp
  writes_eq := hwrites

omit [Peer σ] in
theorem Transferred.cons {p : PendingLob} {offset : Nat} {chunk : List UInt8}
    {chunks : List (List UInt8)} {t t1 t' : Tr σ} (hchunk : chunk ≠ []) {n : Nat}
    (hlen : chunk.length = n) (hpast : t1.past = t.past)
    (hwrites : t1.writes = t.writes ++ (lobReadRequest p.lobID p.hmac offset).map (t.past.length, ·))
    (h : Transferred p (offset + n) chunks (Input.move (lobReadReply chunk) [] t1) t')
    : Transferred p offset (chunk :: chunks) t t' where
  nonempty := by
    intro c hc
    rcases List.mem_cons.mp hc with rfl | hc
    . exact hchunk
    . exact h.nonempty c hc
  past_eq := by
    rw [h.past_eq]
    show t1.past ++ _ ++ _ = _
    rw [hpast, List.append_assoc]
    rfl
  writes_eq := by
    rw [h.writes_eq]
    show t1.writes ++ lobExchange p (t1.past ++ _).length _ _ = _
    rw [hwrites, hpast, List.length_append, List.append_assoc, ← hlen]
    rfl

omit [Peer σ] in
theorem Transferred.written {p : PendingLob} {offset : Nat} {chunks : List (List UInt8)}
    {t t' : Tr σ} (h : Transferred p offset chunks t t')
    : ∃ offsets, t'.written = t.written ++ lobReads p (offset :: offsets) := by
  obtain ⟨offsets, hbytes⟩ := lobExchange_bytes p t.past.length offset chunks
  refine ⟨offsets, ?_⟩
  rw [Tr.written, h.writes_eq, List.map_append, hbytes]
  rfl

section

variable {c : List UInt8} {P : σ → Prop}

theorem fetchLobLoop_transfers {p : PendingLob} (hserves : ServesLob p c P) (fuel : Nat)
    (buf : List UInt8) {offset : Nat} (hoffset : offset ≤ c.length) {t : Tr σ} (ht : t.Idle P)
    : (fetchLobLoop p fuel buf offset t).Holds (fuel ≤ c.length - offset)
        (fun r t' => r = buf ++ c.drop offset ∧ t'.Idle P ∧ Kept t t' ∧
          ∃ chunks, chunks.flatten = c.drop offset ∧ Transferred p offset chunks t t')
        (fun _ _ => t.writeBudget ≠ none) := by
  -- what is left of the content shrinks with every chunk, so that the fuel is enough
  induction fuel generalizing buf offset t with
  | zero => exact Nat.zero_le _
  | succ fuel ih =>
    obtain ⟨s, n, hs, hchunk, hn, hpos, hrecv⟩ := hserves t.peer offset ht.peer hoffset
    unfold fetchLobLoop
    rw [Prog.bind_run]
    rcases exchange (sends_sendLobRead p offset) (lobReadRequest_ne_nil _ _ _) ht hrecv with
      ⟨t1, hsend, hkept, hwrites, hpast, hinp, hheld, hpeer⟩ | ⟨e, t1, hsend, -, hfault⟩
    . have hlen : ((c.drop offset).take n).length = n := by
        simp
        omega
      have hread := (frame_readLobChunk (σ := σ) (by rwa [hlen])).exact t1 []
        (by rw [List.append_nil]; exact hinp)
      rw [hsend, Out.andThen_ok, Prog.bind_run, hread, Out.andThen_ok]
      have hidle : ∀ used, Idle P (Input.move used [] t1) :=
        fun used => ⟨rfl, hheld, by rw [← hpeer] at hs; exact hs⟩
      have hkept1 := fun used => hkept.move used []
      by_cases hend : n = 0
      . have hoff : offset = c.length := by omega
        subst hend
        rw [List.take_zero, if_pos rfl]
        refine ⟨?_, hidle _, hkept1 _, [], ?_, Transferred.nil hpast hwrites⟩
        . rw [hoff, List.drop_length, List.append_nil]
        . rw [hoff, List.drop_length]
          rfl
      . have hne : (c.drop offset).take n ≠ [] := by
          intro hnil
          rw [hnil] at hlen
          exact hend hlen.symm
        rw [if_neg hne, hlen]
        have hrest := ih (buf ++ (c.drop offset).take n) hn
          (hidle (lobReadReply ((c.drop offset).take n)))
        refine (hrest.mono (by omega)).imp ?_ ?_
        . rintro r t' ⟨hr, hidle', hkept', chunks, hflat, htransferred⟩
          refine ⟨?_, hidle', (hkept1 _).trans hkept', _, ?_, htransferred.cons hne hlen hpast hwrites⟩
          . rw [hr, List.append_assoc, ← List.drop_drop, List.take_append_drop]
          . rw [List.flatten_cons, hflat, ← List.drop_drop, List.take_append_drop]
        . intro e t' hfault' hhealthy
          exact hfault' (hkept.healthy hhealthy)
    . rw [hsend]
      exact hfault

/--
The LOB is transferred unless the connection breaks or the server announces it to be too long.
-/
theorem fetchLob_transfers {p : PendingLob} (hserves : ServesLob p c P) {t : Tr σ} (ht : t.Idle P)
    : (fetchLob p t).Holds (t.fuel < c.length)
        (fun v t' => v = p.value c ∧ t'.Idle P ∧ Kept t t' ∧
          ∃ chunks, chunks.flatten = c ∧ Transferred p 0 chunks t t')
        (fun _ _ => t.writeBudget ≠ none ∨ maxWireLength < p.totalBytes) := by
  by_cases hcap : p.totalBytes > maxWireLength
  . unfold fetchLob
    rw [if_pos hcap]
    exact .inr hcap
  . have hgrow : (growBuffer p.totalBytes : Prog Err (Tr σ) _) = pure () := by
      unfold growBuffer
      split
      . exact Prog.make_eq ⟨by omega, by omega⟩
      . rfl
    have hfuel : t.inp.length + 1 + t.fuel = t.fuel + 1 := by
      rw [ht.inp_eq]
      simp only [List.length_nil]
      omega
    unfold fetchLob
    rw [if_neg hcap, hgrow, Prog.pure_bind, Prog.bind_run, Prog.get_run, Out.andThen_ok, hfuel]
    have hloop := fetchLobLoop_transfers hserves (t.fuel + 1) [] (Nat.zero_le _) ht
    refine ((hloop.mono (by omega)).imp (fun _ _ h => h) (fun _ _ h => .inl h)).bind ?_
    rintro buf t' ⟨rfl, hpost⟩
    rw [List.drop_zero] at hpost
    unfold PendingLob.value
    split
    . exact ⟨rfl, hpost⟩
    . exact ⟨rfl, hpost⟩

end

theorem fetchLob_served {content : Int → Option (List UInt8) → List UInt8} {P : σ → Prop}
    (hserver : LobServer content P) {p : PendingLob} (hp : p.OnWire) {t : Tr σ} (ht : t.Idle P)
    : (fetchLob p t).Holds (t.fuel < (content p.lobID p.hmac).length)
        (fun v t' => v = p.value (content p.lobID p.hmac) ∧ t'.Idle P ∧ Kept t t' ∧
          ∃ offsets, t'.written = t.written ++ lobReads p (0 :: offsets))
        (fun _ _ => t.writeBudget ≠ none ∨ maxWireLength < p.totalBytes) := by
  apply (fetchLob_transfers (hserver.serve p hp) ht).imp _ (fun _ _ h => h)
  rintro v t' ⟨hv, hidle, hkept, chunks, -, htransferred⟩
  exact ⟨hv, hidle, hkept, htransferred.written⟩

end Tr

section

def chunkReply (c : List UInt8) (size : Nat) (request : List UInt8) : List UInt8 :=
  let offset := (beInt ((request.drop (request.length - 12)).take 8)).toNat
  lobReadReply ((c.drop offset).take size)

theorem servesLob_of_chunks {σ : Type} [Peer σ] {P : σ → Prop} {p : PendingLob} {c : List UInt8}
    (hc : c.length < 2 ^ 63) {size : Nat} (hpos : 0 < size) (hsize : (size : Int) ≤ lobReadChunkSize)
    (h : ∀ (s : σ) (offset : Nat), P s → Peer.recv s (lobReadRequest p.lobID p.hmac offset)
      = (s, chunkReply c size (lobReadRequest p.lobID p.hmac offset)))
    : ServesLob p c P := by
  intro s offset hs hoffset
  refine ⟨s, min size (c.length - offset), hs, by omega, by omega, by omega, ?_⟩
  simp only [h s offset hs, chunkReply, offset_lobReadRequest p.lobID p.hmac
    (show -2 ^ 63 ≤ (offset : Int) by omega) (by omega), Int.toNat_natCast]
  rw [← List.length_drop, ← List.take_eq_take_min]

/--
A server that has stored `content` for every LOB and sends `size` bytes at a time.
-/
structure ChunkServer where
  content : List UInt8
  size : Nat
  deriving DecidableEq

instance : Peer ChunkServer where
  recv s b := (s, chunkReply s.content s.size b)

theorem servesLob_chunkServer (p : PendingLob) {c : List UInt8} (hc : c.length < 2 ^ 63) {size : Nat}
    (hpos : 0 < size) (hsize : (size : Int) ≤ lobReadChunkSize)
    : ServesLob p c (fun s : ChunkServer => s = ⟨c, size⟩) := by
  apply servesLob_of_chunks hc hpos hsize
  rintro s offset rfl
  rfl

end

end H2Go
