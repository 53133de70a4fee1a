import H2Go.Value.Frames

/-!
This module contains the rejection of nested LOBs: a value with a fetch-on-demand LOB inside an `ARRAY`
or a `ROW`, at any depth, is an error before anything is recorded or requested.
-/

namespace H2Go

open BigEndian

/--
The stream starts with a value of the type `colType` and gets as far as the announcement of a
fetch-on-demand LOB in it. `nested` says that the LOB stands in a container and is not the value
itself. The elements in front of the LOB are complete.
-/
inductive HoldsLob (σ : Type) [GoStd] [Peer σ] : Bool → Option TypeInfo → List UInt8 → Prop where
  | lob {colType : Option TypeInfo} {typeCode : ValueType} (h : typeCode = .blob ∨ typeCode = .clob)
    {p : PendingLob} {fields : List UInt8}
    (hp : Frame (Tr.readPendingLob typeCode (some nestedLOBs) : Prog Err (Tr σ) _) p fields)
    (rest : List UInt8)
    : HoldsLob σ false colType (intBytes 4 typeCode.code ++ (intBytes 8 (-1) ++ (fields ++ rest)))
  | array {colType : Option TypeInfo} {n : Int} {length : List UInt8}
    (hn : Frame (Tr.readArrayLength : Prog Err (Tr σ) _) n length) {elems : List (List UInt8)}
    (helems : ∀ b ∈ elems, ∃ r, Frame (Tr.readValueInternal (colType.bind TypeInfo.extTypeInfo)
      (some nestedLOBs) : Prog Err (Tr σ) _) r b)
    (hlt : elems.length < n.toNat) {nested : Bool} {rest : List UInt8}
    (h : HoldsLob σ nested (colType.bind TypeInfo.extTypeInfo) rest)
    : HoldsLob σ true colType (intBytes 4 ValueType.array.code ++ (length ++ (elems.flatten ++ rest)))
  | row {colType : Option TypeInfo} {n : Int} (hn : n ≤ maxWireCollectionElements)
    {fields : List (List UInt8)}
    (hfields : ∀ b ∈ fields, ∃ r, Frame (Tr.readValueInternal none (some nestedLOBs)
      : Prog Err (Tr σ) _) r b)
    (hlt : fields.length < n.toNat) {nested : Bool} {rest : List UInt8}
    (h : HoldsLob σ nested none rest)
    : HoldsLob σ true colType
        (intBytes 4 ValueType.row.code ++ (intBytes 4 n ++ (fields.flatten ++ rest)))

/--
The read of `t` failed because of a nested LOB, and all it did was to read.
-/
def Rejected {σ α : Type} (t : Tr σ) (o : Out Err (Tr σ) α) : Prop :=
  ∃ e used rest, o = .fail e (Input.move used rest t) ∧ e.is .nestedOnDemandLOB = true ∧ e.Plain

namespace Rejected

variable {σ α β : Type} {t : Tr σ}

theorem mapErr {m : Prog Err (Tr σ) α} (h : Rejected t (m t)) (format : String) (args : List FmtArg)
    : Rejected t (wrapErr format args m t) := by
  obtain ⟨e, used, rest, hrun, he⟩ := h
  refine ⟨.wrapf format args e, used, rest, ?_, he⟩
  unfold wrapErr
  rw [Prog.mapErr_run, hrun]
  rfl

theorem bind {m : Prog Err (Tr σ) α} (h : Rejected t (m t)) (f : α → Prog Err (Tr σ) β)
    : Rejected t ((m >>= f) t) := by
  obtain ⟨e, used, rest, hrun, he⟩ := h
  exact ⟨e, used, rest, by rw [Prog.bind_run, hrun]; rfl, he⟩

theorem throw {e : Err} (t : Tr σ) (h : e.is .nestedOnDemandLOB = true) (hplain : e.Plain)
    : Rejected t ((Prog.throw e : Prog Err (Tr σ) α) t) :=
  ⟨e, [], t.inp, by rw [Prog.throw_run, show Input.move [] t.inp t = t from Input.move_nil t], h,
    hplain⟩

theorem of_frame {m : Prog Err (Tr σ) α} {f : α → Prog Err (Tr σ) β} {a : α} {b rest : List UInt8}
    (hm : Frame m a b) (hinp : t.inp = b ++ rest)
    (h : Rejected (Input.move b rest t) (f a (Input.move b rest t)))
    : Rejected t ((m >>= f) t) := by
  obtain ⟨e, used, rest', hrun, he⟩ := h
  refine ⟨e, b ++ used, rest', ?_, he⟩
  rw [Prog.bind_run, hm.exact t rest hinp, Out.andThen_ok, hrun, Input.move_move]

end Rejected

namespace Tr

variable {σ : Type} [GoStd] [Peer σ]

theorem readNestedValue_of_frame {colType : Option TypeInfo} {r : Value × Option LobCollector}
    {b rest : List UInt8}
    (h : Frame (readValueInternal colType (some nestedLOBs) : Prog Err (Tr σ) _) r b) {t : Tr σ}
    (hinp : t.inp = b ++ rest) {fuel : Nat} (hfuel : t.inp.length ≤ fuel)
    : readNestedValue (fuel + 1) colType t = .ok r.1 (Input.move b rest t) := by
  have hrun := h.exact t rest hinp
  have hstuck : ∀ n, t.inp.length ≤ n →
      readValueWith (readNestedValue n) colType (some nestedLOBs) t ≠ .stuck := by
    intro n hn
    exact (progress_readValueWith (N := t.inp.length) (fun _ => progress_collectLOBValue nestedLOBs)
      (fun v hv => .inl ⟨hv, rfl⟩) hn colType).ne_stuck (Nat.le_refl _)
  have hsame : readValueWith (readNestedValue fuel) colType (some nestedLOBs) t
      = readValueInternal colType (some nestedLOBs) t :=
    Prog.eq_of_le_succ (m := fun n => readValueWith (readNestedValue n) colType (some nestedLOBs))
      (fun n => readValueWith_mono (readNestedValue_mono n) colType _) (hstuck fuel hfuel)
      (hstuck _ (Nat.le_refl _))
  unfold readNestedValue
  rw [Prog.bind_run, hsame, hrun]
  rfl

theorem rejected_iter (format : String) {colType : Option TypeInfo} {elems : List (List UInt8)}
    (helems : ∀ b ∈ elems, ∃ r, Frame (readValueInternal colType (some nestedLOBs)
      : Prog Err (Tr σ) _) r b) {n : Nat} (hlt : elems.length < n) (i : Nat) (acc : List GoString)
    {rest : List UInt8} {t : Tr σ} (hinp : t.inp = elems.flatten ++ rest) {fuel : Nat}
    (hfuel : t.inp.length ≤ fuel)
    (hrest : ∀ t' : Tr σ, t'.inp = rest → Rejected t' (readNestedValue (fuel + 1) colType t'))
    : Rejected t (Prog.iter n i acc (fun i acc => do
        let elem ← wrapErr format [.int i] (readNestedValue (fuel + 1) colType)
        pure (acc ++ [sprint elem])) t) := by
  induction elems generalizing n i acc t with
  | nil =>
    obtain ⟨n, rfl⟩ := Nat.exists_eq_succ_of_ne_zero (Nat.ne_of_gt hlt)
    rw [Nat.succ_eq_add_one, Prog.iter_succ]
    exact (((hrest t (by simpa using hinp)).mapErr _ _).bind _).bind _
  | cons b elems ih =>
    obtain ⟨n, rfl⟩ := Nat.exists_eq_succ_of_ne_zero (Nat.ne_of_gt (Nat.zero_lt_of_lt hlt))
    obtain ⟨r, hframe⟩ := helems b List.mem_cons_self
    rw [List.flatten_cons, List.append_assoc] at hinp
    have hrun := readNestedValue_of_frame hframe hinp hfuel
    have hlen : (elems.flatten ++ rest).length ≤ fuel := by
      rw [hinp, List.length_append] at hfuel
      omega
    obtain ⟨e, used, rest', hstop, he⟩ := ih (fun b hb => helems b (List.mem_cons_of_mem _ hb))
      (Nat.lt_of_succ_lt_succ hlt) (i + 1) (acc ++ [sprint r.1])
      (t := Input.move b (elems.flatten ++ rest) t) rfl hlen
    refine ⟨e, b ++ used, rest', ?_, he⟩
    rw [Nat.succ_eq_add_one, Prog.iter_succ, Prog.bind_run, Prog.bind_run]
    unfold wrapErr
    rw [Prog.mapErr_run, hrun]
    simp only [Out.map_ok, Out.andThen_ok, Prog.pure_run, id]
    rw [← Input.move_move b (elems.flatten ++ rest), ← hstop]

theorem rejected_of_holdsLob {nested : Bool} {colType : Option TypeInfo} {b : List UInt8}
    (h : HoldsLob σ nested colType b) {fuel : Nat} {t : Tr σ} (hinp : t.inp = b)
    (hfuel : t.inp.length ≤ fuel) {lc : Option LobCollector}
    (hlc : nested = true ∨ ∃ c, lc = some c ∧ c.reject = true)
    : Rejected t (readValueWith (readNestedValue fuel) colType lc t) := by
  induction h generalizing fuel t lc with
  | @lob colType typeCode h p fields hp rest =>
    obtain ⟨c, rfl, hreject⟩ := hlc.resolve_left (by simp)
    have hcode : ValueType.ofCode typeCode.code = typeCode := by
      rcases h with rfl | rfl <;> rfl
    have hread : Frame (readInt32 : Prog Err (Tr σ) _) typeCode.code (intBytes 4 typeCode.code) := by
      rcases h with rfl | rfl <;> exact frame_readInt32 (by decide) (by decide)
    apply Rejected.of_frame hread.mapErr hinp
    rw [hcode]
    unfold readTypedValue
    rw [if_pos h]
    unfold readLOBValue
    apply Rejected.of_frame (frame_readInt64 (by decide) (by decide)).mapErr rfl
    rw [if_pos rfl]
    have hfields : Frame (readPendingLob typeCode (some c) : Prog Err (Tr σ) _)
        { p with row := c.curRow, col := c.curCol } fields := by
      rw [readPendingLob_rebase typeCode nestedLOBs c]
      exact hp.bind_nil Frame.pure
    apply Rejected.of_frame hfields rfl
    unfold deferLob
    dsimp only
    rw [if_pos hreject]
    exact Rejected.throw _ rfl ⟨rfl, rfl⟩
  | @array colType n length hn elems helems hlt nested rest h ih =>
    obtain ⟨hn0, hncap⟩ := Progress.of_frame hn t progress_readArrayLength
    rw [hinp] at hfuel
    simp only [List.length_append, length_intBytes] at hfuel
    obtain ⟨fuel, rfl⟩ := Nat.exists_eq_succ_of_ne_zero (show fuel ≠ 0 by omega)
    apply Rejected.of_frame (frame_readInt32 (by decide) (by decide)).mapErr hinp
    rw [show ValueType.ofCode ValueType.array.code = .array from rfl]
    unfold readTypedValue
    rw [if_neg (by decide), if_pos rfl]
    apply Rejected.bind
    unfold readArrayValue
    apply Rejected.of_frame hn rfl
    rw [if_neg (by omega), Prog.make_eq ⟨hn0, hncap⟩, Prog.pure_bind]
    apply Rejected.bind
    apply rejected_iter _ helems hlt 0 [] rfl
    . show (elems.flatten ++ rest).length ≤ fuel
      rw [List.length_append]
      omega
    . intro t' ht'
      exact (ih ht' (by rw [ht']; omega) (.inr ⟨nestedLOBs, rfl, rfl⟩)).bind _
  | @row colType n hn fields hfields hlt nested rest h ih =>
    rw [hinp] at hfuel
    simp only [List.length_append, length_intBytes] at hfuel
    obtain ⟨fuel, rfl⟩ := Nat.exists_eq_succ_of_ne_zero (show fuel ≠ 0 by omega)
    apply Rejected.of_frame (frame_readInt32 (by decide) (by decide)).mapErr hinp
    rw [show ValueType.ofCode ValueType.row.code = .row from rfl]
    unfold readTypedValue
    rw [if_neg (by decide), if_neg (by decide), if_pos rfl]
    apply Rejected.bind
    have hcap := hn
    unfold maxWireCollectionElements at hcap
    unfold readRowValue
    apply Rejected.of_frame (frame_readInt32 (by omega) (by omega)).mapErr rfl
    rw [if_neg (by omega), if_neg (by omega), Prog.make_eq ⟨by omega, hn⟩, Prog.pure_bind]
    apply Rejected.bind
    apply rejected_iter _ hfields hlt 0 [] rfl
    . show (fields.flatten ++ rest).length ≤ fuel
      rw [List.length_append]
      omega
    . intro t' ht'
      exact (ih ht' (by rw [ht']; omega) (.inr ⟨nestedLOBs, rfl, rfl⟩)).bind _

theorem readValueInternal_rejected {colType : Option TypeInfo} {b : List UInt8}
    (h : HoldsLob σ true colType b) {t : Tr σ} (hinp : t.inp = b) (lc : Option LobCollector)
    : Rejected t (readValueInternal colType lc t) :=
  rejected_of_holdsLob h hinp (Nat.le_refl _) (.inl rfl)

end Tr

end H2Go
