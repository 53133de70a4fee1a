import H2Go.Value.Lob

/-!
This module contains what the chunks of a deferred LOB add up to: the content of the LOB when the
server serves it, and as many bytes as the server likes when it does not stop.
-/

namespace H2Go

open BigEndian

namespace Tr

variable {σ : Type} [Peer σ]

theorem fetchLob_of_serves {p : PendingLob} (hlength : p.totalBytes ≤ maxWireLength)
    {c : List UInt8} {P : σ → Prop} (hserves : ServesLob p c P) {t : Tr σ} (ht : t.Idle P)
    (hhealthy : t.writeBudget = none) (hfuel : c.length ≤ t.fuel)
    : ∃ t' chunks, fetchLob p t = .ok (p.value c) t' ∧ t'.Idle P ∧ chunks.flatten = c ∧
        Transferred p 0 chunks t t' := by
  have htransfers := fetchLob_transfers hserves ht
  cases hrun : fetchLob p t with
  | ok v t' =>
    rw [hrun] at htransfers
    obtain ⟨rfl, hidle, -, chunks, hflat, htransferred⟩ := htransfers
    exact ⟨t', chunks, rfl, hidle, hflat, htransferred⟩
  | fail e t' =>
    rw [hrun] at htransfers
    rcases htransfers with hfault | hlong
    . exact absurd hhealthy hfault
    . exact absurd hlength (Int.not_le.mpr hlong)
  | panic | stuck =>
    rw [hrun] at htransfers
    exact absurd hfuel (Nat.not_le.mpr htransfers)

/--
A LOB is put together again from the chunks it is served in, however large they are: each request is
for the bytes behind those that have been received, and nothing is left unread behind the last reply.
-/
theorem fetchLob_reassembles (p : PendingLob) (hlength : p.totalBytes ≤ maxWireLength)
    (c : List UInt8) (P : σ → Prop) (hserves : ServesLob p c P) (t : Tr σ) (ht : t.Idle P)
    (hhealthy : t.writeBudget = none) (hfuel : c.length ≤ t.fuel)
    : ∃ v t' chunks, fetchLob p t = .ok v t' ∧
        (p.typeCode = .clob → v = .string c) ∧
        (p.typeCode = .blob → ∃ b, v = .bytes b ∧ b.getD [] = c) ∧
        t'.Idle P ∧ chunks.flatten = c ∧ Transferred p 0 chunks t t' := by
  obtain ⟨t', chunks, hrun, hidle, hflat, htransferred⟩ :=
    fetchLob_of_serves hlength hserves ht hhealthy hfuel
  refine ⟨_, t', chunks, hrun, ?_, ?_, hidle, hflat, htransferred⟩
  . intro hclob
    rw [PendingLob.value, if_pos hclob]
  . intro hblob
    rw [PendingLob.value, if_neg (by rw [hblob]; decide)]
    refine ⟨_, rfl, ?_⟩
    split
    . next hnil => exact hnil.1.symm
    . rfl

end Tr

section

def ChunkServer.client (s : ChunkServer) (fuel : Nat) : Tr ChunkServer :=
  { inp := [], past := [], readFault := .eof, held := [], writes := [], writeBudget := none,
    writeFault := .reset, fuel := fuel, peer := s }

theorem ChunkServer.client_idle (s : ChunkServer) (fuel : Nat)
    : (s.client fuel).Idle (fun s' => s' = s) :=
  ⟨rfl, rfl, rfl⟩

def declaredBlob (precision : Int) : PendingLob :=
  { typeCode := .blob, lobID := 9, hmac := none, octetLength := 0, precision := precision, row := 0,
    col := 0 }

end

theorem Tr.fetchLob_reassembles_three
    : ∃ v t' chunks, Tr.fetchLob (declaredBlob 3) (ChunkServer.client ⟨[1, 2, 3], 2⟩ 3) = .ok v t' ∧
        (∃ b, v = .bytes b ∧ b.getD [] = [1, 2, 3]) ∧ chunks.flatten = [1, 2, 3] ∧
        Tr.Transferred (declaredBlob 3) 0 chunks (ChunkServer.client ⟨[1, 2, 3], 2⟩ 3) t' := by
  obtain ⟨v, t', chunks, hrun, -, hblob, -, hflat, htransferred⟩ :=
    Tr.fetchLob_reassembles (declaredBlob 3) (by decide) [1, 2, 3] _
      (servesLob_chunkServer (declaredBlob 3) (by decide) (by decide) (by decide))
      (ChunkServer.client ⟨[1, 2, 3], 2⟩ 3) (ChunkServer.client_idle _ _) rfl (by decide)
  exact ⟨v, t', chunks, hrun, hblob rfl, hflat, htransferred⟩

namespace Tr

section

variable {σ : Type}

theorem readFull_eq_ok {n : Nat} {bs : List UInt8} {t t' : Tr σ} (h : readFull n t = .ok bs t')
    : bs.length = n ∧ ∃ rest, t.inp = bs ++ rest ∧ t' = Input.move bs rest t := by
  by_cases hn : n ≤ t.inp.length
  . rw [readFull, Prog.take_of_le hn] at h
    injection h with hbs ht
    subst hbs
    exact ⟨List.length_take_of_le hn, _, (List.take_append_drop n t.inp).symm, ht.symm⟩
  . rw [readFull, Prog.take_of_lt (Nat.not_le.mp hn)] at h
    cases h

theorem readInt32_eq_ok {x : Int} {t t' : Tr σ} (h : readInt32 t = .ok x t')
    : ∃ rest, t.inp = intBytes 4 x ++ rest ∧ t' = Input.move (intBytes 4 x) rest t := by
  obtain ⟨bs, t1, hbs, hx⟩ := Prog.bind_eq_ok h
  injection hx with hx ht
  obtain ⟨hlen, rest, hinp, hmove⟩ := readFull_eq_ok hbs
  have hbytes : intBytes 4 x = bs := by
    rw [← hx, ← hlen]
    exact intBytes_beInt bs
  rw [hbytes]
  exact ⟨rest, hinp, ht.symm.trans hmove⟩

theorem readLobChunk_eq_ok {chunk : List UInt8} {t t' : Tr σ} (h : readLobChunk t = .ok chunk t')
    : (chunk.length : Int) ≤ lobReadChunkSize ∧
        ∃ rest, t.inp = lobReadReply chunk ++ rest ∧ t' = Input.move (lobReadReply chunk) rest t := by
  obtain ⟨status, t1, hwrapped, h⟩ := Prog.bind_eq_ok h
  obtain ⟨_, hstatus, rfl⟩ := Out.map_eq_ok hwrapped
  obtain ⟨rest1, hinp, rfl⟩ := readInt32_eq_ok hstatus
  split at h
  . cases h
  . next hok =>
    rw [not_not.mp hok] at hinp h
    obtain ⟨actualLen, t2, hwrapped, h⟩ := Prog.bind_eq_ok h
    obtain ⟨_, hlen, rfl⟩ := Out.map_eq_ok hwrapped
    obtain ⟨rest2, hinp2, rfl⟩ := readInt32_eq_ok hlen
    have hsplit : t.inp = intBytes 4 statusOK ++ (intBytes 4 actualLen ++ rest2) := by
      rw [hinp]
      exact congrArg _ hinp2
    split at h
    . next hzero =>
      injection h with hchunk ht
      subst hchunk hzero
      refine ⟨by decide, rest2, ?_, ?_⟩
      . rw [hsplit, lobReadReply]
        simp
      . rw [← ht, id, id, Input.move_move, lobReadReply]
        simp
    . split at h
      . cases h
      . next hrange =>
        rw [Prog.make_eq (by omega), Prog.pure_bind] at h
        obtain ⟨_, hfull, rfl⟩ := Out.map_eq_ok h
        obtain ⟨hsize, rest3, hinp3, rfl⟩ := readFull_eq_ok hfull
        have hcast : actualLen = (chunk.length : Int) := by omega
        subst hcast
        refine ⟨by omega, rest3, ?_, ?_⟩
        . rw [hsplit, lobReadReply, show rest2 = chunk ++ rest3 from hinp3]
          simp
        . rw [id, id, id, Input.move_move, Input.move_move, lobReadReply]

end

variable {σ : Type} [Peer σ]

/--
The buffer that `fetchLob` holds when it asks for the next chunk, and the state of the stream then.
-/
inductive Accumulates (p : PendingLob) (t0 : Tr σ) : List UInt8 → Tr σ → Prop where
  | start (h : p.totalBytes ≤ maxWireLength) : Accumulates p t0 [] t0
  | chunk {buf chunk : List UInt8} {t t' : Tr σ} (h : Accumulates p t0 buf t)
      (hrun : (sendLobRead p buf.length >>= fun _ => readLobChunk) t = .ok chunk t')
      (hne : chunk ≠ []) : Accumulates p t0 (buf ++ chunk) t'

theorem Accumulates.fetchLobLoop_eq {p : PendingLob} {t0 t : Tr σ} {buf : List UInt8}
    (h : Accumulates p t0 buf t)
    : ∃ k, ∀ fuel, fetchLobLoop p (fuel + k) [] 0 t0 = fetchLobLoop p fuel buf buf.length t := by
  induction h with
  | start => exact ⟨0, fun _ => rfl⟩
  | @chunk buf chunk t t' _ hrun hne ih =>
    obtain ⟨k, hk⟩ := ih
    refine ⟨k + 1, fun fuel => ?_⟩
    rw [show fuel + (k + 1) = fuel + 1 + k by omega, hk (fuel + 1), fetchLobLoop,
      ← Prog.bind_assoc, Prog.bind_of_ok hrun, if_neg hne, List.length_append, Nat.cast_add]

theorem Accumulates.of_fetchLobLoop {p : PendingLob} {t0 t t' : Tr σ} {fuel : Nat}
    {buf r : List UInt8} (h : Accumulates p t0 buf t)
    (hrun : fetchLobLoop p fuel buf buf.length t = .ok r t')
    : ∃ t1, Accumulates p t0 r t1 := by
  induction fuel generalizing buf t with
  | zero => cases hrun
  | succ fuel ih =>
    rw [fetchLobLoop, ← Prog.bind_assoc] at hrun
    obtain ⟨chunk, t1, hchunk, hrun⟩ := Prog.bind_eq_ok hrun
    split at hrun
    . injection hrun with hr
      exact ⟨t, hr ▸ h⟩
    . next hne =>
      rw [← Nat.cast_add, ← List.length_append] at hrun
      exact ih (h.chunk hchunk hne) hrun

/--
The chunks that the server supplies one after the other, each as the reply to the request for the
bytes behind those before it. The stream takes the request, and then it has the reply in front.
-/
inductive Supplies (p : PendingLob) : Nat → Tr σ → List (List UInt8) → Prop where
  | nil (offset : Nat) (t : Tr σ) : Supplies p offset t []
  | cons {offset : Nat} {t t1 : Tr σ} {chunk rest : List UInt8} {chunks : List (List UInt8)}
      (htaken : (write (lobReadRequest p.lobID p.hmac offset) >>= fun _ => flush) t = .ok () t1)
      (hreply : t1.inp = lobReadReply chunk ++ rest) (hne : chunk ≠ [])
      (hsize : (chunk.length : Int) ≤ lobReadChunkSize)
      (h : Supplies p (offset + chunk.length) (Input.move (lobReadReply chunk) rest t1) chunks)
      : Supplies p offset t (chunk :: chunks)

theorem chunk_run_iff (p : PendingLob) (offset : Int) (chunk : List UInt8) (t t' : Tr σ)
    : (sendLobRead p offset >>= fun _ => readLobChunk) t = .ok chunk t' ↔
        ∃ t1 rest, (write (lobReadRequest p.lobID p.hmac offset) >>= fun _ => flush) t = .ok () t1 ∧
          t1.inp = lobReadReply chunk ++ rest ∧ (chunk.length : Int) ≤ lobReadChunkSize ∧
          t' = Input.move (lobReadReply chunk) rest t1 := by
  constructor
  . intro h
    obtain ⟨_, t1, hsend, hread⟩ := Prog.bind_eq_ok h
    obtain ⟨hsize, rest, hinp, ht⟩ := readLobChunk_eq_ok hread
    exact ⟨t1, rest, (sends_sendLobRead p offset).ok_iff.mp hsend, hinp, hsize, ht⟩
  . rintro ⟨t1, rest, htaken, hinp, hsize, rfl⟩
    rw [Prog.bind_of_ok ((sends_sendLobRead p offset).ok htaken)]
    exact (frame_readLobChunk hsize).exact t1 rest hinp

theorem Accumulates.supplied {p : PendingLob} {t0 t : Tr σ} {buf : List UInt8}
    (h : Accumulates p t0 buf t) {chunks : List (List UInt8)} (hchunks : Supplies p buf.length t chunks)
    : ∃ chunks', Supplies p 0 t0 chunks' ∧ chunks'.flatten = buf ++ chunks.flatten := by
  -- the chunks received before are put in front of those to come
  induction h generalizing chunks with
  | start => exact ⟨chunks, hchunks, rfl⟩
  | @chunk buf chunk t t' _ hrun hne ih =>
    obtain ⟨t1, rest, htaken, hinp, hsize, rfl⟩ := (chunk_run_iff _ _ _ _ _).mp hrun
    rw [List.length_append] at hchunks
    obtain ⟨chunks', hsupplies, hflat⟩ := ih (.cons htaken hinp hne hsize hchunks)
    exact ⟨chunks', hsupplies, by rw [hflat, List.flatten_cons, List.append_assoc]⟩

theorem Supplies.accumulates {p : PendingLob} {t0 t : Tr σ} {offset : Nat}
    {chunks : List (List UInt8)} (h : Supplies p offset t chunks) {buf : List UInt8}
    (hbuf : Accumulates p t0 buf t) (hoffset : buf.length = offset)
    : ∃ t', Accumulates p t0 (buf ++ chunks.flatten) t' := by
  induction h generalizing buf with
  | nil => exact ⟨_, by rw [List.flatten_nil, List.append_nil]; exact hbuf⟩
  | @cons offset t t1 chunk rest chunks htaken hinp hne hsize _ ih =>
    have hrun := (chunk_run_iff p offset chunk t _).mpr ⟨t1, rest, htaken, hinp, hsize, rfl⟩
    rw [← hoffset] at hrun
    have hnext := hbuf.chunk hrun hne
    obtain ⟨t', h'⟩ := ih hnext (by rw [List.length_append, hoffset])
    exact ⟨t', by rw [List.flatten_cons, ← List.append_assoc]; exact h'⟩

/--
The server delivers the rest of a LOB from `offset` on in answer to at most `n` requests, the last of
which gets an empty chunk. `t'` is the stream behind that reply.
-/
inductive Delivers (p : PendingLob) : Nat → Nat → Tr σ → List UInt8 → Tr σ → Prop where
  | last {n offset : Nat} {t t1 : Tr σ} {rest : List UInt8}
      (htaken : (write (lobReadRequest p.lobID p.hmac offset) >>= fun _ => flush) t = .ok () t1)
      (hreply : t1.inp = lobReadReply [] ++ rest)
      : Delivers p (n + 1) offset t [] (Input.move (lobReadReply []) rest t1)
  | chunk {n offset : Nat} {t t1 t' : Tr σ} {chunk rest content : List UInt8}
      (htaken : (write (lobReadRequest p.lobID p.hmac offset) >>= fun _ => flush) t = .ok () t1)
      (hreply : t1.inp = lobReadReply chunk ++ rest) (hne : chunk ≠ [])
      (hsize : (chunk.length : Int) ≤ lobReadChunkSize)
      (h : Delivers p n (offset + chunk.length) (Input.move (lobReadReply chunk) rest t1) content t')
      : Delivers p (n + 1) offset t (chunk ++ content) t'

/--
The server delivers the LOBs one after the other, none of them is declared to be longer than the cap.
The number of requests is bounded by the fuel of the stream.
-/
inductive DeliversAll : List PendingLob → Tr σ → List (List UInt8) → Tr σ → Prop where
  | nil (t : Tr σ) : DeliversAll [] t [] t
  | cons {p : PendingLob} {pending : List PendingLob} {t t1 t' : Tr σ} {content : List UInt8}
      {contents : List (List UInt8)} (hlength : p.totalBytes ≤ maxWireLength)
      (h : Delivers p (t.inp.length + 1 + t.fuel) 0 t content t1)
      (hrest : DeliversAll pending t1 contents t')
      : DeliversAll (p :: pending) t (content :: contents) t'

theorem fetchLobLoop_ok_iff (p : PendingLob) (n : Nat) (buf r : List UInt8) (offset : Nat) (t t' : Tr σ)
    : fetchLobLoop p n buf offset t = .ok r t' ↔
        ∃ content, Delivers p n offset t content t' ∧ r = buf ++ content := by
  induction n generalizing buf offset t with
  | zero =>
    constructor
    . intro h
      cases h
    . rintro ⟨content, h, -⟩
      cases h
  | succ n ih =>
    rw [fetchLobLoop, ← Prog.bind_assoc]
    constructor
    . intro h
      obtain ⟨chunk, t1, hchunk, h⟩ := Prog.bind_eq_ok h
      obtain ⟨t2, rest, htaken, hinp, hsize, rfl⟩ := (chunk_run_iff p offset chunk t t1).mp hchunk
      split at h
      . next hnil =>
        subst hnil
        cases h
        exact ⟨[], .last htaken hinp, (List.append_nil _).symm⟩
      . next hne =>
        rw [← Nat.cast_add] at h
        obtain ⟨content, hdelivers, rfl⟩ := (ih _ _ _).mp h
        exact ⟨chunk ++ content, .chunk htaken hinp hne hsize hdelivers, List.append_assoc _ _ _⟩
    . rintro ⟨content, h, rfl⟩
      cases h with
      | @last _ _ _ t1 rest htaken hinp =>
        have hrun := (chunk_run_iff p offset [] t _).mpr ⟨t1, rest, htaken, hinp, by decide, rfl⟩
        rw [Prog.bind_of_ok hrun, if_pos rfl, List.append_nil]
        rfl
      | @chunk _ _ _ t1 _ chunk rest content htaken hinp hne hsize h =>
        have hrun := (chunk_run_iff p offset chunk t _).mpr ⟨t1, rest, htaken, hinp, hsize, rfl⟩
        rw [Prog.bind_of_ok hrun, if_neg hne, ← Nat.cast_add]
        exact (ih _ _ _).mpr ⟨content, h, (List.append_assoc _ _ _).symm⟩

theorem fetchLob_ok_iff (p : PendingLob) (v : Value) (t t' : Tr σ)
    : fetchLob p t = .ok v t' ↔
        p.totalBytes ≤ maxWireLength ∧
          ∃ content, Delivers p (t.inp.length + 1 + t.fuel) 0 t content t' ∧ v = p.value content := by
  unfold fetchLob
  by_cases hlength : p.totalBytes ≤ maxWireLength
  . rw [if_neg (Int.not_lt.mpr hlength)]
    have hgrow : growBuffer p.totalBytes t = .ok () t := by
      unfold growBuffer
      split
      . next hpos =>
        rw [Prog.make_eq ⟨Int.le_of_lt hpos, hlength⟩]
        rfl
      . rfl
    rw [Prog.bind_of_ok hgrow, Prog.bind_run, Prog.get_run, Out.andThen_ok]
    have hloop : ∀ buf t1, fetchLobLoop p (t.inp.length + 1 + t.fuel) [] 0 t = .ok buf t1 ↔
        Delivers p (t.inp.length + 1 + t.fuel) 0 t buf t1 := by
      intro buf t1
      refine (fetchLobLoop_ok_iff p _ [] buf 0 t t1).trans ?_
      simp
    have hvalue : ∀ buf, (if p.typeCode = .clob then pure (.string buf)
        else pure (.bytes (if buf = [] ∧ p.totalBytes ≤ 0 then none else some buf))
        : Prog Err (Tr σ) Value) = pure (p.value buf) := by
      intro buf
      unfold PendingLob.value
      split <;> rfl
    simp only [hvalue]
    constructor
    . intro h
      obtain ⟨buf, t1, hrun, h⟩ := Prog.bind_eq_ok h
      cases h
      exact ⟨hlength, buf, (hloop buf _).mp hrun, rfl⟩
    . rintro ⟨-, content, hdelivers, rfl⟩
      exact Prog.bind_of_ok ((hloop content t').mpr hdelivers) _
  . rw [if_pos (Int.not_le.mp hlength)]
    constructor
    . intro h
      cases h
    . exact fun h => absurd h.1 hlength

/--
The cap is checked against the declared length only. What `fetchLob` accumulates stays below the cap
exactly when the declared length is refused or the server does not supply more.
-/
theorem fetchLob_capped_iff (p : PendingLob) (t : Tr σ)
    : (∀ buf t', Accumulates p t buf t' → (buf.length : Int) ≤ maxWireLength) ↔
        maxWireLength < p.totalBytes ∨
          ∀ chunks, Supplies p 0 t chunks → (chunks.flatten.length : Int) ≤ maxWireLength := by
  constructor
  . intro h
    by_cases hlength : p.totalBytes ≤ maxWireLength
    . refine .inr fun chunks hchunks => ?_
      obtain ⟨t', hbuf⟩ := hchunks.accumulates (.start hlength) rfl
      exact h _ t' hbuf
    . exact .inl (Int.not_le.mp hlength)
  . rintro (hlength | hsupplies) buf t' hbuf
    . have hstart : p.totalBytes ≤ maxWireLength := by
        induction hbuf with
        | start h => exact h
        | chunk _ _ _ ih => exact ih
      exact absurd hstart (Int.not_le.mpr hlength)
    . obtain ⟨chunks, hchunks, hflat⟩ := hbuf.supplied (.nil _ _)
      have hcap := hsupplies chunks hchunks
      rwa [hflat, List.flatten_nil, List.append_nil] at hcap

theorem accumulates_of_serves {p : PendingLob} (hlength : p.totalBytes ≤ maxWireLength)
    {c : List UInt8} {P : σ → Prop} (hserves : ServesLob p c P) {t : Tr σ} (ht : t.Idle P)
    (hhealthy : t.writeBudget = none)
    : ∃ t', Accumulates p t c t' := by
  have hloop := fetchLobLoop_transfers hserves (c.length + 1) [] (Nat.zero_le _) ht
  cases hrun : fetchLobLoop p (c.length + 1) [] ((0 : Nat) : Int) t with
  | ok r t' =>
    rw [hrun] at hloop
    obtain ⟨t1, hbuf⟩ := Accumulates.of_fetchLobLoop (.start hlength) hrun
    rw [hloop.1] at hbuf
    exact ⟨t1, hbuf⟩
  | fail e t' =>
    rw [hrun] at hloop
    exact absurd hhealthy hloop
  | panic | stuck =>
    rw [hrun] at hloop
    exact absurd hloop (by simp)

end Tr

def oversized : ChunkServer := ⟨List.replicate (2 ^ 29 + 1) 7, 2 ^ 16⟩

/--
A BLOB of one byte more than the cap that is declared to be empty.
-/
theorem Tr.fetchLob_exceeds_cap
    : ∃ buf t1 t', (declaredBlob 0).totalBytes = 0 ∧
        Tr.Accumulates (declaredBlob 0) (oversized.client (2 ^ 29 + 1)) buf t1 ∧
        maxWireLength < buf.length ∧
        Tr.fetchLob (declaredBlob 0) (oversized.client (2 ^ 29 + 1)) = .ok (.bytes (some buf)) t' := by
  have hcontent : oversized.content.length = 2 ^ 29 + 1 := List.length_replicate
  have hserves : ServesLob (declaredBlob 0) oversized.content (fun s : ChunkServer => s = oversized) :=
    servesLob_chunkServer (declaredBlob 0) (by rw [hcontent]; decide) (by decide) (by decide)
  have hidle := oversized.client_idle (2 ^ 29 + 1)
  obtain ⟨t1, hbuf⟩ := Tr.accumulates_of_serves (by decide) hserves hidle rfl
  obtain ⟨t', -, hrun, -⟩ := Tr.fetchLob_of_serves (by decide) hserves hidle rfl
    (Nat.le_of_eq hcontent)
  refine ⟨_, t1, t', rfl, hbuf, ?_, ?_⟩
  . rw [hcontent]
    decide
  . rw [hrun, PendingLob.value, if_neg (by decide), if_neg]
    rintro ⟨hnil, -⟩
    rw [hnil] at hcontent
    cases hcontent

end H2Go
